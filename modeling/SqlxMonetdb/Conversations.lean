import SqlxMonetdb.HandshakeMachine

set_option autoImplicit false

namespace SqlxMonetdb.Conversations
open TextPrimitives DriverError FramingBlocks MessageStream Handshake EventPrograms
open PerformHandshake HandshakeMachine

section Conversation

variable (crates : HashCrates) (network : Network) (username password database : Text)

/-- On an open connection, a challenge is sent, the login message for it is taken and
answered by a reply. -/
structure Exchange (link : Link) (line : Text) (bytes : List UInt8) (reply : Text) (link' : Link) :
    Prop where
  login : LoginFor crates username password database line bytes
  taken : network.flush link.number (link.stream.written ++ bytes) = .ok ()
  sent : ∃ challengeWire replyWire, Framed challengeWire (utf8Encode line) ∧
    Framed replyWire (utf8Encode reply) ∧
    link.stream.unread = challengeWire ++ (replyWire ++ link'.stream.unread)
  after : link' = ⟨link.number, link'.stream.unread, link.stream.written ++ bytes⟩

structure Opens (number : ℕ) (host : Text) (port : UInt16) (unread : List UInt8) : Prop where
  connected : network.connect number host port = .ok unread
  primed : network.flush number primeBytes = .ok ()

/-- The servers carry a handshake on `link` through `redirects` redirects to an accepted
login and answer the command behind it with `ack`. -/
inductive Serves : Link → ℕ → Text → Prop where
  | accepted {link link' : Link} {line reply ack : Text} {bytes ackWire rest : List UInt8}
      (exchange : Exchange crates network username password database link line bytes reply link')
      (ok : parseLoginResponse reply = .ok)
      (taken : network.flush link'.number (link'.stream.written ++ message replySizeCommand) = .ok ())
      (framed : Framed ackWire (utf8Encode ack)) (sent : link'.stream.unread = ackWire ++ rest) :
      Serves link 0 ack
  | retried {link link' : Link} {line reply target ack : Text} {bytes : List UInt8} {redirects : ℕ}
      (exchange : Exchange crates network username password database link line bytes reply link')
      (redirect : parseLoginResponse reply = .redirect target)
      (followed : parseRedirect target = .ok .localRetry) (rest : Serves link' redirects ack) :
      Serves link (redirects + 1) ack
  | reconnected {link link' : Link} {line reply target host ack : Text} {port : UInt16}
      {bytes unread : List UInt8} {redirects : ℕ}
      (exchange : Exchange crates network username password database link line bytes reply link')
      (redirect : parseLoginResponse reply = .redirect target)
      (followed : parseRedirect target = .ok (.reconnect host port))
      (opens : Opens network (link.number + 1) host port unread)
      (rest : Serves ⟨link.number + 1, unread, primeBytes⟩ redirects ack) :
      Serves link (redirects + 1) ack

/-- The same from the first connection on. -/
def ServesFrom (host : Text) (port : UInt16) (redirects : ℕ) (ack : Text) : Prop :=
  ∃ unread, Opens network 0 host port unread ∧
    Serves crates network username password database ⟨0, unread, primeBytes⟩ redirects ack

end Conversation

section Calls

variable {crates : HashCrates} {network : Network} {username password database : Text}
  {link link' : Link} {trace after : List Event}

theorem put_eq_ok {bytes : List UInt8} :
    put network link bytes trace = (.ok link', after) ↔
      network.flush link.number (link.stream.written ++ bytes) = .ok () ∧
      link' = ⟨link.number, link.stream.unread, link.stream.written ++ bytes⟩ ∧
      after = trace ++ [.wrote link.number bytes] := by
  unfold put
  rw [end_eq_ok, map_eq_ok]
  constructor
  · rintro ⟨⟨_, taken, rfl⟩, rfl⟩
    exact ⟨taken, rfl, rfl⟩
  · rintro ⟨taken, rfl, rfl⟩
    exact ⟨⟨(), taken, rfl⟩, rfl⟩

theorem readTextMessage_eq_ok {role : Role} {text : Text} :
    PerformHandshake.readTextMessage link role trace = (.ok (text, link'), after) ↔
      (∃ wire rest, Framed wire (utf8Encode text) ∧ link.stream.unread = wire ++ rest ∧
        link' = ⟨link.number, rest, link.stream.written⟩) ∧
      after = trace ++ [.received link.number role text] := by
  unfold PerformHandshake.readTextMessage
  cases read : MessageStream.readTextMessage link.stream with
  | mk outcome stream =>
    cases outcome with
    | error e =>
      refine iff_of_false (fun same => by cases same) ?_
      rintro ⟨⟨wire, rest, framed, sent, -⟩, -⟩
      have given := MessageStream.readTextMessage_eq_ok.mpr ⟨wire, rest, framed, sent, rfl⟩
      rw [read] at given
      cases given
    | ok text' =>
      constructor
      · intro same
        cases same
        obtain ⟨wire, rest, framed, sent, rfl⟩ := MessageStream.readTextMessage_eq_ok.mp read
        exact ⟨⟨wire, rest, framed, sent, rfl⟩, rfl⟩
      · rintro ⟨⟨wire, rest, framed, sent, rfl⟩, rfl⟩
        have given := MessageStream.readTextMessage_eq_ok.mpr ⟨wire, rest, framed, sent, rfl⟩
        rw [read] at given
        cases given
        rfl

theorem propagate_eq_ok {α : Type} {result : Except MonetError α} {a : α} :
    propagate result trace = (.ok a, after) ↔ result = .ok a ∧ after = trace := by
  unfold propagate
  rw [end_eq_ok, mapError_eq_ok, eq_comm (a := after)]

theorem connect_eq_ok {host : Text} {port : UInt16} :
    connect network host port trace = (.ok link, after) ↔
      ∃ unread, network.connect (connections trace) host port = .ok unread ∧
        link = ⟨connections trace, unread, []⟩ ∧ after = trace ++ [.opened host port] := by
  unfold connect
  cases network.connect (connections trace) host port with
  | error e =>
    refine iff_of_false (fun same => by cases same) ?_
    rintro ⟨unread, failed, -⟩
    cases failed
  | ok unread =>
    rw [end_eq_ok]
    constructor
    · rintro ⟨same, rfl⟩
      cases same
      exact ⟨unread, rfl, rfl, rfl⟩
    · rintro ⟨unread', same, rfl, rfl⟩
      cases same
      exact ⟨rfl, rfl⟩

end Calls

section Exchanges

variable {crates : HashCrates} {network : Network} {username password database : Text}
  {link link' : Link} {trace after : List Event}

theorem answerChallenge_eq_ok :
    answerChallenge crates network username password database link trace = (.ok link', after) ↔
      ∃ line bytes wire rest, LoginFor crates username password database line bytes ∧
        network.flush link.number (link.stream.written ++ bytes) = .ok () ∧
        Framed wire (utf8Encode line) ∧ link.stream.unread = wire ++ rest ∧
        link' = ⟨link.number, rest, link.stream.written ++ bytes⟩ ∧
        after = trace ++ [.received link.number .challenge line, .wrote link.number bytes] := by
  unfold answerChallenge
  constructor
  · intro answered
    obtain ⟨⟨line, mid⟩, t, read, rest⟩ := bind_eq_ok.mp answered
    obtain ⟨challenge, t', checked, rest⟩ := bind_eq_ok.mp rest
    obtain ⟨⟨algo, hash⟩, t'', computed, wrote⟩ := bind_eq_ok.mp rest
    obtain ⟨⟨wire, left, framed, sent, rfl⟩, rfl⟩ := readTextMessage_eq_ok.mp read
    obtain ⟨parsed, rfl⟩ := propagate_eq_ok.mp checked
    obtain ⟨hashed, rfl⟩ := propagate_eq_ok.mp computed
    obtain ⟨taken, rfl, rfl⟩ := put_eq_ok.mp wrote
    exact ⟨line, _, wire, left, ⟨challenge, algo, hash, answers_of_hashed parsed hashed⟩, taken,
      framed, sent, rfl, by simp⟩
  · rintro ⟨line, bytes, wire, rest, ⟨challenge, algo, hash, answers⟩, taken, framed, sent, rfl, rfl⟩
    refine bind_eq_ok.mpr ⟨(line, ⟨link.number, rest, link.stream.written⟩), _,
      readTextMessage_eq_ok.mpr ⟨⟨wire, rest, framed, sent, rfl⟩, rfl⟩, ?_⟩
    refine bind_eq_ok.mpr ⟨challenge, _, propagate_eq_ok.mpr ⟨answers.parsed, rfl⟩, ?_⟩
    refine bind_eq_ok.mpr ⟨(algo, hash), _, propagate_eq_ok.mpr ⟨answers.hashed, rfl⟩, ?_⟩
    rw [answers.bytes] at taken ⊢
    exact put_eq_ok.mpr ⟨taken, rfl, by simp⟩

theorem exchange_eq_ok {reply : Text} :
    (∃ mid between,
      answerChallenge crates network username password database link trace = (.ok mid, between) ∧
      PerformHandshake.readTextMessage mid .reply between = (.ok (reply, link'), after)) ↔
    ∃ line bytes,
      Exchange crates network username password database link line bytes reply link' ∧
      after = trace ++ [.received link.number .challenge line, .wrote link.number bytes,
        .received link.number .reply reply] := by
  constructor
  · rintro ⟨mid, between, answered, read⟩
    obtain ⟨line, bytes, wire, rest, login, taken, framed, sent, rfl, rfl⟩ :=
      answerChallenge_eq_ok.mp answered
    obtain ⟨⟨replyWire, left, replied, held, rfl⟩, rfl⟩ := readTextMessage_eq_ok.mp read
    dsimp only at held
    refine ⟨line, bytes, ⟨login, taken, ⟨wire, replyWire, framed, replied, ?_⟩, rfl⟩, by simp⟩
    rw [sent, held]
  · rintro ⟨line, bytes, ⟨login, taken, ⟨wire, replyWire, framed, replied, sent⟩, same⟩, rfl⟩
    refine ⟨_, _, answerChallenge_eq_ok.mpr
      ⟨line, bytes, wire, _, login, taken, framed, sent, rfl, rfl⟩, ?_⟩
    exact readTextMessage_eq_ok.mpr ⟨⟨replyWire, _, replied, rfl, same⟩, by simp⟩

end Exchanges

section Attempts

variable {crates : HashCrates} {network : Network} {username password database : Text}
  {link link' : Link} {vars : Variables} {trace after between : List Event}

theorem openStream_reused (reused : vars.reusedStream = some link) :
    openStream network vars trace = (.ok link, trace) := by
  rw [openStream, reused]
  rfl

theorem openStream_eq_ok {host : Text} {port : UInt16} :
    openStream network ⟨host, port, none⟩ trace = (.ok link, after) ↔
      ∃ unread, Opens network (connections trace) host port unread ∧
        link = ⟨connections trace, unread, primeBytes⟩ ∧
        after = trace ++ [.opened host port, .wrote (connections trace) primeBytes] := by
  constructor
  · intro opened
    obtain ⟨link₀, t, connected, primed⟩ := bind_eq_ok.mp opened
    obtain ⟨unread, answered, rfl, rfl⟩ := connect_eq_ok.mp connected
    obtain ⟨taken, rfl, rfl⟩ := put_eq_ok.mp primed
    exact ⟨unread, ⟨answered, taken⟩, rfl, by simp⟩
  · rintro ⟨unread, ⟨answered, taken⟩, rfl, rfl⟩
    refine bind_eq_ok.mpr ⟨_, _, connect_eq_ok.mpr ⟨unread, answered, rfl, rfl⟩, ?_⟩
    exact put_eq_ok.mpr ⟨taken, rfl, by simp⟩

theorem sendReplySize_eq_ok :
    sendReplySize network link trace = (.ok link', after) ↔
      ∃ ack wire rest,
        network.flush link.number (link.stream.written ++ message replySizeCommand) = .ok () ∧
        Framed wire (utf8Encode ack) ∧ link.stream.unread = wire ++ rest ∧
        link' = ⟨link.number, rest, link.stream.written ++ message replySizeCommand⟩ ∧
        after = trace ++ [.wrote link.number (message replySizeCommand)] ++
          [.received link.number .acknowledgement ack] := by
  constructor
  · intro sent
    obtain ⟨mid, t, wrote, rest⟩ := bind_eq_ok.mp sent
    obtain ⟨⟨ack, last⟩, t', read, ended⟩ := bind_eq_ok.mp rest
    obtain ⟨rfl, rfl⟩ := pure_eq_ok.mp ended
    obtain ⟨taken, rfl, rfl⟩ := put_eq_ok.mp wrote
    obtain ⟨⟨wire, left, framed, held, rfl⟩, rfl⟩ := readTextMessage_eq_ok.mp read
    exact ⟨ack, wire, left, taken, framed, held, rfl, rfl⟩
  · rintro ⟨ack, wire, rest, taken, framed, held, rfl, rfl⟩
    refine bind_eq_ok.mpr ⟨_, _, put_eq_ok.mpr ⟨taken, rfl, rfl⟩, ?_⟩
    refine bind_eq_ok.mpr ⟨(ack, _), _,
      readTextMessage_eq_ok.mpr ⟨⟨wire, rest, framed, held, rfl⟩, rfl⟩, ?_⟩
    exact pure_eq_ok.mpr ⟨rfl, rfl⟩

theorem connections_exchange (line reply : Text) (bytes : List UInt8) (n : ℕ) :
    connections (between ++ [.received n .challenge line, .wrote n bytes, .received n .reply reply]) =
      connections between := by
  simp [connections, Event.opens]

theorem attempt_of_exchange {line reply : Text} {bytes : List UInt8}
    (opened : openStream network vars trace = (.ok link, between))
    (exchange : Exchange crates network username password database link line bytes reply link') :
    attempt crates network username password database vars trace =
      followReply network vars link' reply (between ++ [.received link.number .challenge line,
        .wrote link.number bytes, .received link.number .reply reply]) := by
  obtain ⟨mid, t, answered, read⟩ := exchange_eq_ok.mpr ⟨line, bytes, exchange, rfl⟩
  exact (bind_of_ok opened).trans ((bind_of_ok answered).trans (bind_of_ok read))

theorem exchange_of_attempt {outcome : Link ⊕ Variables}
    (h : attempt crates network username password database vars trace = (.ok outcome, after)) :
    ∃ link between line bytes reply link', openStream network vars trace = (.ok link, between) ∧
      Exchange crates network username password database link line bytes reply link' ∧
      followReply network vars link' reply (between ++ [.received link.number .challenge line,
        .wrote link.number bytes, .received link.number .reply reply]) = (.ok outcome, after) := by
  obtain ⟨link, between, opened, rest⟩ := bind_eq_ok.mp h
  obtain ⟨mid, t, answered, rest⟩ := bind_eq_ok.mp rest
  obtain ⟨⟨reply, link'⟩, t', read, followed⟩ := bind_eq_ok.mp rest
  obtain ⟨line, bytes, exchange, rfl⟩ := exchange_eq_ok.mp ⟨mid, t, answered, read⟩
  exact ⟨link, between, line, bytes, reply, link', opened, exchange, followed⟩

theorem followReply_accepted {reply : Text} (ok : parseLoginResponse reply = .ok) :
    followReply network vars link reply =
      (sendReplySize network link >>= fun link => pure (.inl link)) := by
  rw [followReply, ok]

theorem attempt_accepted {line reply ack : Text} {bytes wire rest : List UInt8}
    (opened : openStream network vars trace = (.ok link, between))
    (exchange : Exchange crates network username password database link line bytes reply link')
    (ok : parseLoginResponse reply = .ok)
    (taken : network.flush link'.number (link'.stream.written ++ message replySizeCommand) = .ok ())
    (framed : Framed wire (utf8Encode ack)) (sent : link'.stream.unread = wire ++ rest) :
    ∃ last past, attempt crates network username password database vars trace =
      (.ok (.inl last), past ++ [.received last.number .acknowledgement ack]) := by
  rw [attempt_of_exchange opened exchange, followReply_accepted ok]
  have lifted := (@sendReplySize_eq_ok network link' _ (between ++ [.received link.number .challenge line,
    .wrote link.number bytes, .received link.number .reply reply]) _).mpr
      ⟨ack, wire, rest, taken, framed, sent, rfl, rfl⟩
  exact ⟨_, _, bind_of_ok lifted⟩

def nextVariables (vars : Variables) (link : Link) : Redirect → Variables
  | .localRetry => { vars with reusedStream := some link }
  | .reconnect host port => ⟨host, port, none⟩

theorem followReply_redirect {reply target : Text} {redirect : Redirect}
    (redirected : parseLoginResponse reply = .redirect target)
    (followed : parseRedirect target = .ok redirect) :
    followReply network vars link reply trace = (.ok (.inr (nextVariables vars link redirect)), trace) := by
  rw [followReply, redirected]
  refine (bind_of_ok (propagate_eq_ok.mpr ⟨followed, rfl⟩)).trans ?_
  cases redirect <;> rfl

theorem attempts_of_done (count : ℕ)
    (h : attempt crates network username password database vars trace = (.ok (.inl link), after)) :
    attempts crates network username password database (count + 1) vars trace = (.ok link, after) :=
  bind_of_ok h

theorem attempts_of_again (count : ℕ) {vars' : Variables}
    (h : attempt crates network username password database vars trace = (.ok (.inr vars'), after)) :
    attempts crates network username password database (count + 1) vars trace =
      attempts crates network username password database count vars' after :=
  bind_of_ok h

theorem attempts_retried {line reply target : Text} {bytes : List UInt8} (count : ℕ)
    (opened : openStream network vars trace = (.ok link, between))
    (number : connections between = link.number + 1)
    (exchange : Exchange crates network username password database link line bytes reply link')
    (redirect : parseLoginResponse reply = .redirect target)
    (followed : parseRedirect target = .ok .localRetry) :
    ∃ vars' trace', attempts crates network username password database (count + 1) vars trace =
        attempts crates network username password database count vars' trace' ∧
      openStream network vars' trace' = (.ok link', trace') ∧
      connections trace' = link'.number + 1 := by
  have again := (attempt_of_exchange opened exchange).trans (followReply_redirect redirect followed)
  refine ⟨_, _, attempts_of_again count again, openStream_reused rfl, ?_⟩
  rw [connections_exchange, number, exchange.after]

theorem attempts_reconnected {line reply target host : Text} {port : UInt16}
    {bytes unread : List UInt8} (count : ℕ)
    (opened : openStream network vars trace = (.ok link, between))
    (number : connections between = link.number + 1)
    (exchange : Exchange crates network username password database link line bytes reply link')
    (redirect : parseLoginResponse reply = .redirect target)
    (followed : parseRedirect target = .ok (.reconnect host port))
    (opens : Opens network (link.number + 1) host port unread) :
    ∃ vars' trace' between', attempts crates network username password database (count + 1) vars trace =
        attempts crates network username password database count vars' trace' ∧
      openStream network vars' trace' = (.ok ⟨link.number + 1, unread, primeBytes⟩, between') ∧
      connections between' = link.number + 1 + 1 := by
  have again := (attempt_of_exchange opened exchange).trans (followReply_redirect redirect followed)
  have counted := (connections_exchange line reply bytes link.number).trans number
  rw [← counted] at opens
  have reopened := openStream_eq_ok.mpr ⟨_, opens, rfl, rfl⟩
  rw [counted] at reopened
  refine ⟨_, _, _, attempts_of_again count again, reopened, ?_⟩
  rw [connections, List.countP_append, ← connections, counted]
  rfl

theorem attempts_of_serves {redirects : ℕ} {ack : Text}
    (serves : Serves crates network username password database link redirects ack) (count : ℕ)
    (opened : openStream network vars trace = (.ok link, between))
    (number : connections between = link.number + 1) :
    (redirects < count → ∃ link' past,
      attempts crates network username password database count vars trace =
        (.ok link', past ++ [.received link'.number .acknowledgement ack])) ∧
    (count ≤ redirects →
      (attempts crates network username password database count vars trace).1 =
        .error tooManyRedirects) := by
  induction serves generalizing count vars trace between with
  | accepted exchange ok taken framed sent =>
    cases count with
    | zero => exact ⟨fun none => absurd none (Nat.not_lt_zero _), fun _ => rfl⟩
    | succ count =>
      refine ⟨fun _ => ?_, fun none => absurd none (Nat.not_succ_le_zero _)⟩
      obtain ⟨last, past, done⟩ := attempt_accepted opened exchange ok taken framed sent
      exact ⟨last, past, attempts_of_done count done⟩
  | retried exchange redirect followed rest ih =>
    cases count with
    | zero => exact ⟨fun none => absurd none (Nat.not_lt_zero _), fun _ => rfl⟩
    | succ count =>
      obtain ⟨vars', trace', again, reopened, counted⟩ :=
        attempts_retried count opened number exchange redirect followed
      rw [again, Nat.add_lt_add_iff_right, Nat.add_le_add_iff_right]
      exact ih count reopened counted
  | reconnected exchange redirect followed opens rest ih =>
    cases count with
    | zero => exact ⟨fun none => absurd none (Nat.not_lt_zero _), fun _ => rfl⟩
    | succ count =>
      obtain ⟨vars', trace', between', again, reopened, counted⟩ :=
        attempts_reconnected count opened number exchange redirect followed opens
      rw [again, Nat.add_lt_add_iff_right, Nat.add_le_add_iff_right]
      exact ih count reopened counted

theorem connections_of_openStream
    (counted : ∀ link, vars.reusedStream = some link → connections trace = link.number + 1)
    (opened : openStream network vars trace = (.ok link, between)) :
    connections between = link.number + 1 := by
  obtain ⟨host, port, reused⟩ := vars
  cases reused with
  | some link₀ =>
    have same := (@openStream_reused network link₀ ⟨host, port, some link₀⟩ trace rfl).symm.trans opened
    cases same
    exact counted link rfl
  | none =>
    obtain ⟨unread, -, rfl, rfl⟩ := openStream_eq_ok.mp opened
    rw [connections, List.countP_append, ← connections]
    rfl

theorem serves_of_attempts (count : ℕ)
    (counted : ∀ link, vars.reusedStream = some link → connections trace = link.number + 1)
    (h : attempts crates network username password database count vars trace = (.ok link', after)) :
    ∃ link between redirects ack past, openStream network vars trace = (.ok link, between) ∧
      redirects < count ∧
      Serves crates network username password database link redirects ack ∧
      after = past ++ [.received link'.number .acknowledgement ack] := by
  induction count generalizing vars trace with
  | zero => cases h
  | succ count ih =>
    obtain ⟨outcome, t, attempted, rest⟩ := bind_eq_ok.mp h
    obtain ⟨link, between, line, bytes, reply, mid, opened, exchange, followed⟩ :=
      exchange_of_attempt attempted
    have number := (connections_exchange line reply bytes link.number).trans
      (connections_of_openStream counted opened)
    cases replied : parseLoginResponse reply with
    | ok =>
      rw [followReply_accepted replied] at followed
      obtain ⟨last, t', lifted, ended⟩ := bind_eq_ok.mp followed
      obtain ⟨rfl, rfl⟩ := pure_eq_ok.mp ended
      obtain ⟨rfl, rfl⟩ := pure_eq_ok.mp rest
      obtain ⟨ack, wire, left, taken, framed, sent, rfl, rfl⟩ := sendReplySize_eq_ok.mp lifted
      exact ⟨link, between, 0, ack, _, opened, Nat.succ_pos count,
        .accepted exchange replied taken framed sent, rfl⟩
    | error message =>
      rw [followReply, replied] at followed
      cases followed
    | redirect target =>
      cases parsed : parseRedirect target with
      | error e =>
        rw [followReply, replied] at followed
        obtain ⟨redirect, t', checked, -⟩ := bind_eq_ok.mp followed
        rw [(propagate_eq_ok.mp checked).1] at parsed
        cases parsed
      | ok redirect =>
        rw [followReply_redirect replied parsed] at followed
        cases followed
        cases redirect with
        | localRetry =>
          obtain ⟨link₀, t', k, ack, past, same, less, serves, ends⟩ := ih (fun link₀ reused => by
            cases reused
            rw [number, exchange.after]) rest
          obtain rfl : mid = link₀ := by
            have known := (openStream_reused rfl).symm.trans same
            cases known
            rfl
          exact ⟨link, between, k + 1, ack, past, opened, Nat.succ_lt_succ less,
            .retried exchange replied parsed serves, ends⟩
        | reconnect host port =>
          obtain ⟨link₀, t', k, ack, past, same, less, serves, ends⟩ := ih (fun link₀ reused => by
            cases reused) rest
          obtain ⟨unread, opens, rfl, -⟩ := openStream_eq_ok.mp same
          rw [number] at opens serves
          exact ⟨link, between, k + 1, ack, past, opened, Nat.succ_lt_succ less,
            .reconnected exchange replied parsed opens serves, ends⟩

end Attempts

section Handshakes

variable (crates : HashCrates) (network : Network) (username password database host : Text)
  (port : UInt16)

theorem performHandshake_of_serves {redirects : ℕ} {ack : Text}
    (serves : ServesFrom crates network username password database host port redirects ack) :
    (redirects < 10 → ∃ link past,
      performHandshake crates network username password database host port [] =
        (.ok link, past ++ [.received link.number .acknowledgement ack])) ∧
    (10 ≤ redirects →
      (performHandshake crates network username password database host port []).1 =
        .error tooManyRedirects) := by
  obtain ⟨unread, opens, serves⟩ := serves
  exact attempts_of_serves serves 10 (openStream_eq_ok.mpr ⟨unread, opens, rfl, rfl⟩) rfl

theorem serves_of_performHandshake {link : Link} {trace : List Event}
    (h : performHandshake crates network username password database host port [] =
      (.ok link, trace)) :
    ∃ redirects ack past, redirects < 10 ∧
      ServesFrom crates network username password database host port redirects ack ∧
      trace = past ++ [.received link.number .acknowledgement ack] := by
  obtain ⟨link₀, between, k, ack, past, same, less, serves, ends⟩ :=
    serves_of_attempts 10 (fun link₀ reused => by cases reused) h
  obtain ⟨unread, opens, rfl, -⟩ := openStream_eq_ok.mp same
  exact ⟨k, ack, past, less, ⟨unread, opens, serves⟩, ends⟩

/-- The handshake succeeds exactly when the servers carry it through with at most nine
redirects. -/
theorem performHandshake_ok_iff :
    (∃ link, (performHandshake crates network username password database host port []).1 =
      .ok link) ↔
    ∃ redirects ack, redirects < 10 ∧
      ServesFrom crates network username password database host port redirects ack := by
  constructor
  · rintro ⟨link, returned⟩
    obtain ⟨k, ack, -, less, serves, -⟩ := @serves_of_performHandshake crates network username
      password database host port link _ (Prod.ext returned rfl)
    exact ⟨k, ack, less, serves⟩
  · rintro ⟨k, ack, less, serves⟩
    obtain ⟨link, past, ended⟩ :=
      (performHandshake_of_serves crates network username password database host port serves).1 less
    exact ⟨link, congrArg Prod.fst ended⟩

end Handshakes

end SqlxMonetdb.Conversations
