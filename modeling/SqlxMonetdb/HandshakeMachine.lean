import SqlxMonetdb.PerformHandshake

set_option autoImplicit false

/-!
# The handshake as a protocol machine

The message order of the client as a machine over the events on its connections. The
loop of the source causes only runs of this machine.
-/
namespace SqlxMonetdb.HandshakeMachine
open TextPrimitives DriverError Handshake LabelledRuns EventPrograms PerformHandshake

section Machine

inductive Phase where
  | opening (host : Text) (port : UInt16)
  | priming
  | waiting
  | challenged (line : Text)
  | sent
  | accepted
  | limiting
  | finished
  | refused
  deriving DecidableEq

/-- The connections opened so far, the last of them the current one. -/
structure State where
  opened : ℕ
  phase : Phase
  deriving DecidableEq

def afterRedirect : Except MonetError Redirect → Phase
  | .ok .localRetry => .waiting
  | .ok (.reconnect host port) => .opening host port
  | .error _ => .refused

def afterReply (text : Text) : Phase :=
  match parseLoginResponse text with
  | .ok => .accepted
  | .error _ => .refused
  | .redirect target => afterRedirect (parseRedirect target)

variable (crates : HashCrates) (username password database : Text)

/-- The bytes are the login message for a challenge the client supports. -/
structure Answers (line : Text) (bytes : List UInt8) (challenge : Challenge) (algo hash : Text) :
    Prop where
  parsed : parseChallenge line = .ok challenge
  version : challenge.protocolVersion = "9".toList
  serverHash : challenge.serverHash ∈ hashPriority
  supported : algo ∈ hashPriority ∧ algo ∈ challenge.hashes
  hashed : computePasswordHash crates challenge password = .ok (algo, hash)
  bytes : bytes = message (buildLoginResponse challenge username algo hash database .fresh)

def LoginFor (line : Text) (bytes : List UInt8) : Prop :=
  ∃ challenge algo hash, Answers crates username password database line bytes challenge algo hash

inductive Moves : State → Event → State → Prop where
  | opened (n : ℕ) (host : Text) (port : UInt16) :
      Moves ⟨n, .opening host port⟩ (.opened host port) ⟨n + 1, .priming⟩
  | primed (n : ℕ) : Moves ⟨n + 1, .priming⟩ (.wrote n primeBytes) ⟨n + 1, .waiting⟩
  | challenged (n : ℕ) (line : Text) :
      Moves ⟨n + 1, .waiting⟩ (.received n .challenge line) ⟨n + 1, .challenged line⟩
  | answered (n : ℕ) {line : Text} {bytes : List UInt8}
      (login : LoginFor crates username password database line bytes) :
      Moves ⟨n + 1, .challenged line⟩ (.wrote n bytes) ⟨n + 1, .sent⟩
  | replied (n : ℕ) {text : Text} {phase : Phase} (next : afterReply text = phase) :
      Moves ⟨n + 1, .sent⟩ (.received n .reply text) ⟨n + 1, phase⟩
  | limited (n : ℕ) :
      Moves ⟨n + 1, .accepted⟩ (.wrote n (message replySizeCommand)) ⟨n + 1, .limiting⟩
  | acknowledged (n : ℕ) (text : Text) :
      Moves ⟨n + 1, .limiting⟩ (.received n .acknowledgement text) ⟨n + 1, .finished⟩

variable {crates username password database}

theorem answers_of_hashed {line algo hash : Text} {challenge : Challenge}
    (parsed : parseChallenge line = .ok challenge)
    (hashed : computePasswordHash crates challenge password = .ok (algo, hash)) :
    Answers crates username password database line
      (message (buildLoginResponse challenge username algo hash database .fresh))
      challenge algo hash := by
  obtain ⟨prehashed, serverHash, selected, -⟩ := (computePasswordHash_ok_iff crates).mp hashed
  have supported : challenge.serverHash ∈ hashPriority :=
    (hashHex_isSome_iff crates _).mp (by rw [serverHash]; rfl)
  exact ⟨parsed, parseChallenge_version parsed, supported, selectHashAlgorithm_mem selected,
    hashed, rfl⟩

end Machine

section Replies

theorem afterReply_cases (text : Text) :
    (parseLoginResponse text = .ok ∧ afterReply text = .accepted) ∨
    (∃ target, parseLoginResponse text = .redirect target ∧
      parseRedirect target = .ok .localRetry ∧ afterReply text = .waiting) ∨
    (∃ target host port, parseLoginResponse text = .redirect target ∧
      parseRedirect target = .ok (.reconnect host port) ∧ afterReply text = .opening host port) ∨
    afterReply text = .refused := by
  unfold afterReply
  cases parseLoginResponse text with
  | ok => exact .inl ⟨rfl, rfl⟩
  | error message => exact .inr (.inr (.inr rfl))
  | redirect target =>
    cases followed : parseRedirect target with
    | error e => exact .inr (.inr (.inr (congrArg afterRedirect followed)))
    | ok redirect =>
      have next := congrArg afterRedirect followed
      cases redirect with
      | localRetry => exact .inr (.inl ⟨target, rfl, followed, next⟩)
      | reconnect host port => exact .inr (.inr (.inl ⟨target, host, port, rfl, followed, next⟩))

theorem afterReply_of_redirect {text target : Text} (redirect : parseLoginResponse text = .redirect target) :
    afterReply text = afterRedirect (parseRedirect target) := by
  rw [afterReply, redirect]

end Replies

section Refinement

variable {crates : HashCrates} {username password database : Text} {first : Phase} {s u : State}

theorem connections_append (past : List Event) (event : Event) :
    connections (past ++ [event]) = connections past + if event.opens then 1 else 0 := by
  rw [connections, connections, List.countP_append, List.countP_singleton]

theorem connections_eq {trace : List Event}
    (run : Runs (Moves crates username password database) ⟨0, first⟩ trace s) :
    connections trace = s.opened := by
  refine run.history (I := fun past s => connections past = s.opened) ?_ [] rfl
  intro past event s u counted move
  rw [connections_append, counted]
  cases move <;> rfl

def Primed (s : State) : Prop := s.phase ≠ .priming

variable (crates username password database first) (network : Network)

abbrev Client {α : Type} (s : State) (x : Handshaking α) (Q : α → State → Prop) : Prop :=
  Conducts (Moves crates username password database) ⟨0, first⟩ Primed s x Q

theorem connect_conducts (n : ℕ) (host : Text) (port : UInt16) :
    Client crates username password database first ⟨n, .opening host port⟩
      (connect network host port) fun link u => u = ⟨n + 1, .priming⟩ ∧ link.number = n := by
  intro trace run
  have numbered : connections trace = n := connections_eq run
  unfold connect
  cases network.connect (connections trace) host port with
  | error e => exact ⟨_, run, Phase.noConfusion⟩
  | ok unread =>
    have moved := Runs.append_iff.mpr ⟨_, run, .next (.opened n host port) (.refl _)⟩
    exact ⟨_, moved, rfl, numbered⟩

variable {crates username password database}

theorem put_conducts {link : Link} {bytes : List UInt8}
    (move : Moves crates username password database s (.wrote link.number bytes) u)
    (primed : Primed u) :
    Client crates username password database first s (put network link bytes)
      fun link' u' => u' = u ∧ link'.number = link.number := by
  refine Conducts.event move (fun link' same => ?_) primed
  obtain ⟨-, -, rfl⟩ := map_eq_ok.mp same
  exact ⟨rfl, rfl⟩

theorem readTextMessage_conducts {link : Link} {role : Role} {next : Text → State}
    (moves : ∀ text, Moves crates username password database s
      (.received link.number role text) (next text)) (primed : Primed s) :
    Client crates username password database first s (readTextMessage link role)
      fun got u => u = next got.1 ∧ got.2.number = link.number := by
  intro trace run
  unfold readTextMessage
  rcases MessageStream.readTextMessage link.stream with ⟨e | text, stream⟩
  · exact ⟨s, run, primed⟩
  · exact ⟨next text, Runs.append_iff.mpr ⟨s, run, .next (moves text) (.refl _)⟩, rfl, rfl⟩

theorem propagate_conducts {α : Type} (result : Except MonetError α) (primed : Primed s) :
    Client crates username password database first s (propagate result)
      fun a u => u = s ∧ result = .ok a := by
  intro trace run
  refine ⟨s, run, ?_⟩
  cases result with
  | error e => exact primed
  | ok a => exact ⟨rfl, rfl⟩

variable (crates username password database)

/-- The machine stands where an attempt with these variables begins. -/
def Ready (vars : Variables) (s : State) : Prop :=
  match vars.reusedStream with
  | some link => s = ⟨link.number + 1, .waiting⟩
  | none => s.phase = .opening vars.currentHost vars.currentPort

theorem openStream_conducts {vars : Variables} (ready : Ready vars s) :
    Client crates username password database first s (openStream network vars)
      fun link u => u = ⟨link.number + 1, .waiting⟩ := by
  unfold openStream
  unfold Ready at ready
  cases reused : vars.reusedStream with
  | some link =>
    rw [reused] at ready
    exact Conducts.pure ready
  | none =>
    rw [reused] at ready
    obtain ⟨n, phase⟩ := s
    dsimp only at ready
    subst ready
    refine (connect_conducts crates username password database first network n _ _).bind ?_
    rintro link u ⟨rfl, rfl⟩
    refine Conducts.mono (put_conducts first network (.primed link.number) Phase.noConfusion) ?_
    rintro link' u ⟨rfl, same⟩
    rw [same]

theorem answerChallenge_conducts (link : Link) :
    Client crates username password database first ⟨link.number + 1, .waiting⟩
      (answerChallenge crates network username password database link)
      fun link' u => u = ⟨link'.number + 1, .sent⟩ := by
  unfold answerChallenge
  refine (readTextMessage_conducts first (Moves.challenged link.number) Phase.noConfusion).bind ?_
  rintro ⟨line, link'⟩ u ⟨rfl, numbered⟩
  dsimp only at numbered ⊢
  refine (propagate_conducts first _ Phase.noConfusion).bind ?_
  rintro challenge u ⟨rfl, parsed⟩
  refine (propagate_conducts first _ Phase.noConfusion).bind ?_
  rintro ⟨algo, hash⟩ u ⟨rfl, hashed⟩
  have login : LoginFor crates username password database line
      (message (buildLoginResponse challenge username algo hash database .fresh)) :=
    ⟨challenge, algo, hash, answers_of_hashed parsed hashed⟩
  rw [← numbered]
  refine Conducts.mono (put_conducts first network (.answered link'.number login)
    Phase.noConfusion) ?_
  rintro link'' u ⟨rfl, same⟩
  rw [same]

theorem sendReplySize_conducts (link : Link) :
    Client crates username password database first ⟨link.number + 1, .accepted⟩
      (sendReplySize network link) fun link' u => u = ⟨link'.number + 1, .finished⟩ := by
  unfold sendReplySize
  refine (put_conducts first network (.limited link.number) Phase.noConfusion).bind ?_
  rintro link' u ⟨rfl, numbered⟩
  rw [← numbered]
  refine (readTextMessage_conducts first (Moves.acknowledged link'.number) Phase.noConfusion).bind ?_
  rintro ⟨ack, link''⟩ u ⟨rfl, same⟩
  dsimp only at same
  exact Conducts.pure (by rw [same])

theorem primed_afterReply (n : ℕ) (text : Text) : Primed ⟨n, afterReply text⟩ := by
  obtain ⟨_, same⟩ | ⟨_, _, _, same⟩ | ⟨_, host, port, _, _, same⟩ | same := afterReply_cases text
  all_goals
    rw [same]
    exact Phase.noConfusion

theorem followReply_conducts (vars : Variables) (link : Link) (text : Text) :
    Client crates username password database first ⟨link.number + 1, afterReply text⟩
      (followReply network vars link text) fun outcome u => match outcome with
        | .inl link' => u = ⟨link'.number + 1, .finished⟩
        | .inr vars' => Ready vars' u := by
  have primed := primed_afterReply (link.number + 1) text
  unfold followReply
  cases classified : parseLoginResponse text with
  | ok =>
    have accepted : afterReply text = .accepted := by rw [afterReply, classified]
    rw [accepted]
    refine (sendReplySize_conducts crates username password database first network link).bind ?_
    exact fun link' u reached => Conducts.pure reached
  | error message => exact Conducts.throw _ primed
  | redirect target =>
    refine (propagate_conducts first _ primed).bind ?_
    rintro redirect u ⟨rfl, followed⟩
    rw [afterReply_of_redirect classified, followed]
    cases redirect with
    | localRetry => exact Conducts.pure rfl
    | reconnect host port => exact Conducts.pure rfl

theorem attempt_conducts {vars : Variables} (ready : Ready vars s) :
    Client crates username password database first s
      (attempt crates network username password database vars) fun outcome u => match outcome with
        | .inl link' => u = ⟨link'.number + 1, .finished⟩
        | .inr vars' => Ready vars' u := by
  unfold attempt
  refine (openStream_conducts crates username password database first network ready).bind ?_
  rintro link u rfl
  refine (answerChallenge_conducts crates username password database first network link).bind ?_
  rintro link' u rfl
  refine (readTextMessage_conducts first (fun text => .replied link'.number rfl)
    Phase.noConfusion).bind ?_
  rintro ⟨text, link''⟩ u ⟨rfl, same⟩
  dsimp only at same ⊢
  rw [← same]
  exact followReply_conducts crates username password database first network vars link'' text

theorem primed_of_ready {vars : Variables} (ready : Ready vars s) : Primed s := by
  unfold Ready at ready
  intro priming
  split at ready
  · rw [ready] at priming
    cases priming
  · rw [ready] at priming
    cases priming

theorem attempts_conducts (count : ℕ) {vars : Variables} (ready : Ready vars s) :
    Client crates username password database first s
      (attempts crates network username password database count vars)
      fun link u => u = ⟨link.number + 1, .finished⟩ := by
  induction count generalizing vars s with
  | zero => exact Conducts.throw _ (primed_of_ready ready)
  | succ count ih =>
    refine (attempt_conducts crates username password database first network ready).bind ?_
    rintro (link | vars') u reached
    · exact Conducts.pure reached
    · exact ih reached

/-- Whatever the servers do, the handshake causes a run of the machine, and it returns
only where the machine has finished. -/
theorem performHandshake_runs (host : Text) (port : UInt16) :
    ∃ u, Runs (Moves crates username password database) ⟨0, .opening host port⟩
        (performHandshake crates network username password database host port []).2 u ∧
      Primed u ∧ ∀ link,
        (performHandshake crates network username password database host port []).1 = .ok link →
          u = ⟨link.number + 1, .finished⟩ := by
  have ready : Ready ⟨host, port, none⟩ ⟨0, .opening host port⟩ := rfl
  obtain ⟨u, run, holds⟩ := attempts_conducts crates username password database
    (.opening host port) network 10 ready [] (.refl _)
  rw [performHandshake]
  refine ⟨u, run, ?_⟩
  cases outcome : (attempts crates network username password database 10 ⟨host, port, none⟩ []).1 with
  | error e =>
    rw [outcome] at holds
    exact ⟨holds, fun link same => by cases same⟩
  | ok link =>
    rw [outcome] at holds
    dsimp only at holds
    subst holds
    refine ⟨Phase.noConfusion, fun link' same => ?_⟩
    cases same
    rfl

end Refinement

end SqlxMonetdb.HandshakeMachine
