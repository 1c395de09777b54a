import SqlxMonetdb.Conversations

set_option autoImplicit false

namespace SqlxMonetdb.HandshakeOutcomes
open TextPrimitives DriverError FramingBlocks MessageStream Handshake RedirectTargets EventPrograms
open PerformHandshake HandshakeMachine Conversations

section RowLimit

def Rejects (reply : Text) : Prop := ∃ line ∈ reply.splitOn '\n', line.head? = some '!'

structure RowLimitLifted (outcome : Except Error Link × List Event) : Prop where
  handedOut : ∀ link, outcome.1 = .ok link → ∃ ack,
    outcome.2.getLast? = some (.received link.number .acknowledgement ack) ∧ ¬ Rejects ack
  refused : ∀ c ack, outcome.2.getLast? = some (.received c .acknowledgement ack) → Rejects ack →
    ∃ e, outcome.1 = .error e

variable (crates : HashCrates) (network : Network) (username password database host : Text)
  (port : UInt16)

/-- The reply to the command is not looked at, so the row limit is known to be lifted
exactly when no server carries the handshake to an accepted login and rejects the command. -/
theorem rowLimitLifted_iff :
    RowLimitLifted (performHandshake crates network username password database host port []) ↔
      ¬ ∃ redirects ack, redirects < 10 ∧
        ServesFrom crates network username password database host port redirects ack ∧
        Rejects ack := by
  constructor
  · rintro lifted ⟨redirects, ack, less, serves, rejects⟩
    obtain ⟨link, past, ended⟩ :=
      (performHandshake_of_serves crates network username password database host port serves).1 less
    rw [ended] at lifted
    obtain ⟨ack', last, accepted⟩ := lifted.handedOut link rfl
    rw [List.getLast?_concat] at last
    cases last
    exact accepted rejects
  · intro accepted
    -- a success is a conversation, and the reply that ends it is the last event
    have succeeded (link : Link) (returned :
        (performHandshake crates network username password database host port []).1 = .ok link) :
        ∃ ack, (performHandshake crates network username password database host port []).2.getLast? =
          some (.received link.number .acknowledgement ack) ∧ ¬ Rejects ack := by
      obtain ⟨k, ack, past, less, serves, ends⟩ := serves_of_performHandshake crates network username
        password database host port (Prod.ext returned rfl)
      exact ⟨ack, (congrArg List.getLast? ends).trans List.getLast?_concat,
        fun rejects => accepted ⟨k, ack, less, serves, rejects⟩⟩
    refine ⟨succeeded, fun c ack last rejects => ?_⟩
    cases returned : (performHandshake crates network username password database host port []).1 with
    | error e => exact ⟨e, rfl⟩
    | ok link =>
      obtain ⟨ack', last', acceptable⟩ := succeeded link returned
      rw [last] at last'
      cases last'
      exact absurd rejects acceptable

end RowLimit

section Redirects

/-- A redirect by its target, with what the server still sends behind it. -/
structure Hop where
  target : Text
  left : List UInt8

/-- The servers lead from one to the next: each redirect names by its text either the
merging process or a server that opens, and an accepted login ends them. -/
inductive Leads (crates : HashCrates) (network : Network) (username password database : Text) :
    Link → List Hop → Text → Prop where
  | accepted {link link' : Link} {line reply ack : Text} {bytes ackWire rest : List UInt8}
      (exchange : Exchange crates network username password database link line bytes reply link')
      (ok : parseLoginResponse reply = .ok)
      (taken : network.flush link'.number (link'.stream.written ++ message replySizeCommand) = .ok ())
      (framed : Framed ackWire (utf8Encode ack)) (sent : link'.stream.unread = ackWire ++ rest) :
      Leads crates network username password database link [] ack
  | retried {link link' : Link} {line target ack : Text} {bytes : List UInt8} {hops : List Hop}
      (exchange : Exchange crates network username password database link line bytes
        ('^' :: target) link')
      (scheme : "mapi:merovingian://".toList <+: target)
      (rest : Leads crates network username password database link' hops ack) :
      Leads crates network username password database link (⟨target, link'.stream.unread⟩ :: hops) ack
  | reconnected {link link' : Link} {line target host ack : Text} {port : UInt16}
      {bytes unread : List UInt8} {hops : List Hop}
      (exchange : Exchange crates network username password database link line bytes
        ('^' :: target) link')
      (named : NamesServer target host port)
      (opens : Opens network (link.number + 1) host port unread)
      (rest : Leads crates network username password database
        ⟨link.number + 1, unread, primeBytes⟩ hops ack) :
      Leads crates network username password database link (⟨target, link'.stream.unread⟩ :: hops) ack

def LeadsFrom (crates : HashCrates) (network : Network) (username password database host : Text)
    (port : UInt16) (hops : List Hop) (ack : Text) : Prop :=
  ∃ unread, Opens network 0 host port unread ∧
    Leads crates network username password database ⟨0, unread, primeBytes⟩ hops ack

def WellRead (hops : List Hop) : Prop := ∀ hop ∈ hops, ¬ Misread hop.target

/-- A misread redirect is the last that its connection sends. -/
def Quiet (hops : List Hop) : Prop := ∀ hop ∈ hops, Misread hop.target → hop.left = []

variable {crates : HashCrates} {network : Network} {username password database : Text}
  {link : Link} {vars : Variables} {trace between : List Event} {hops : List Hop} {ack : Text}

theorem not_misread_of_scheme {target : Text} (scheme : "mapi:merovingian://".toList <+: target) :
    ¬ Misread target := by
  rintro ⟨-, host, port, digits, path, -, -, rfl⟩
  have nested := List.prefix_of_prefix_length_le (List.prefix_append _ _) scheme (by decide)
  exact absurd nested (by decide)

theorem wellRead_nil : WellRead [] := fun hop mem => by cases mem

theorem wellRead_cons {hop : Hop} :
    WellRead (hop :: hops) ↔ ¬ Misread hop.target ∧ WellRead hops := List.forall_mem_cons

theorem Quiet.tail {hop : Hop} (quiet : Quiet (hop :: hops)) : Quiet hops :=
  fun later mem => quiet later (List.mem_cons_of_mem _ mem)

theorem Leads.serves (leads : Leads crates network username password database link hops ack)
    (wellRead : WellRead hops) :
    Serves crates network username password database link hops.length ack := by
  induction leads with
  | accepted exchange ok taken framed sent => exact .accepted exchange ok taken framed sent
  | retried exchange scheme rest ih =>
    exact .retried exchange (parseLoginResponse_redirect_iff.mpr rfl) (parseRedirect_of_scheme scheme)
      (ih (wellRead_cons.mp wellRead).2)
  | reconnected exchange named opens rest ih =>
    obtain ⟨read, wellRead⟩ := wellRead_cons.mp wellRead
    have unnamed := fun holds => read ⟨holds, _, _, named⟩
    exact .reconnected exchange (parseLoginResponse_redirect_iff.mpr rfl)
      (parseRedirect_of_namesServer named unnamed) opens (ih wellRead)

theorem attempts_one {line target : Text} {bytes : List UInt8} {link' : Link} {redirect : Redirect}
    (opened : openStream network vars trace = (.ok link, between))
    (exchange : Exchange crates network username password database link line bytes
      ('^' :: target) link')
    (followed : parseRedirect target = .ok redirect) :
    (attempts crates network username password database 1 vars trace).1 = .error tooManyRedirects := by
  have again := (attempt_of_exchange opened exchange).trans
    (followReply_redirect (parseLoginResponse_redirect_iff.mpr rfl) followed)
  rw [attempts_of_again 0 again]
  rfl

theorem attempts_exhausted (leads : Leads crates network username password database link hops ack)
    {count : ℕ} (few : count ≤ hops.length) (wellRead : WellRead (hops.take (count - 1)))
    (opened : openStream network vars trace = (.ok link, between))
    (number : connections between = link.number + 1) :
    (attempts crates network username password database count vars trace).1 =
      .error tooManyRedirects := by
  -- the reply to the last login is looked at, and its redirect is not followed
  induction leads generalizing count vars trace between with
  | accepted =>
    obtain rfl := Nat.le_zero.mp few
    rfl
  | retried exchange scheme rest ih =>
    match count with
    | 0 => rfl
    | 1 => exact attempts_one opened exchange (parseRedirect_of_scheme scheme)
    | count + 2 =>
      obtain ⟨vars', trace', again, reopened, counted⟩ := attempts_retried (count + 1) opened number
        exchange (parseLoginResponse_redirect_iff.mpr rfl) (parseRedirect_of_scheme scheme)
      rw [again]
      exact ih (Nat.succ_le_succ_iff.mp few) (wellRead_cons.mp wellRead).2 reopened counted
  | @reconnected _ _ _ target _ _ _ _ _ _ exchange named opens rest ih =>
    match count with
    | 0 => rfl
    | 1 =>
      by_cases holds : "merovingian".toList <:+: target
      · exact attempts_one opened exchange (parseRedirect_localRetry_iff.mpr holds)
      · exact attempts_one opened exchange (parseRedirect_of_namesServer named holds)
    | count + 2 =>
      obtain ⟨read, wellRead⟩ := wellRead_cons.mp wellRead
      have unnamed := fun holds => read ⟨holds, _, _, named⟩
      obtain ⟨vars', trace', between', again, reopened, counted⟩ :=
        attempts_reconnected (count + 1) opened number exchange
          (parseLoginResponse_redirect_iff.mpr rfl) (parseRedirect_of_namesServer named unnamed) opens
      rw [again]
      exact ih (Nat.succ_le_succ_iff.mp few) wellRead reopened counted

theorem attempts_waiting (count : ℕ) (opened : openStream network vars trace = (.ok link, between))
    (nothing : link.stream.unread = []) :
    (attempts crates network username password database (count + 1) vars trace).1 =
      .error endOfStream := by
  obtain ⟨number, unread, written⟩ := link
  obtain rfl : unread = [] := nothing
  have unanswered : PerformHandshake.readTextMessage ⟨number, [], written⟩ .challenge between =
      (.error endOfStream, between) := by
    rw [PerformHandshake.readTextMessage, MessageStream.readTextMessage, readMessage_nil]
  have stopped : attempt crates network username password database vars trace =
      (.error endOfStream, between) :=
    (bind_of_ok opened).trans (bind_of_error (bind_of_error unanswered))
  exact congrArg Prod.fst (bind_of_error stopped)

theorem attempts_misread (leads : Leads crates network username password database link hops ack)
    (quiet : Quiet hops) {count : ℕ} (misread : ¬ WellRead (hops.take (count - 1)))
    (opened : openStream network vars trace = (.ok link, between))
    (number : connections between = link.number + 1) :
    (attempts crates network username password database count vars trace).1 =
      .error endOfStream := by
  -- the client waits for a challenge where the server has said its last word
  induction leads generalizing count vars trace between with
  | accepted =>
    rw [List.take_nil] at misread
    exact absurd wellRead_nil misread
  | @retried _ _ _ target _ _ hops exchange scheme rest ih =>
    match count with
    | 0 => exact absurd wellRead_nil misread
    | 1 => exact absurd wellRead_nil misread
    | count + 2 =>
      obtain ⟨vars', trace', again, reopened, counted⟩ := attempts_retried (count + 1) opened number
        exchange (parseLoginResponse_redirect_iff.mpr rfl) (parseRedirect_of_scheme scheme)
      rw [again]
      refine ih quiet.tail (fun wellRead => ?_) reopened counted
      exact misread (wellRead_cons.mpr ⟨not_misread_of_scheme scheme, wellRead⟩)
  | @reconnected _ _ _ target host _ port _ _ hops exchange named opens rest ih =>
    match count with
    | 0 => exact absurd wellRead_nil misread
    | 1 => exact absurd wellRead_nil misread
    | count + 2 =>
      by_cases holds : "merovingian".toList <:+: target
      · obtain ⟨vars', trace', again, reopened, -⟩ := attempts_retried (count + 1) opened number
          exchange (parseLoginResponse_redirect_iff.mpr rfl) (parseRedirect_localRetry_iff.mpr holds)
        rw [again]
        exact attempts_waiting count reopened
          (quiet _ List.mem_cons_self ⟨holds, host, port, named⟩)
      · obtain ⟨vars', trace', between', again, reopened, counted⟩ :=
          attempts_reconnected (count + 1) opened number exchange
            (parseLoginResponse_redirect_iff.mpr rfl) (parseRedirect_of_namesServer named holds) opens
        rw [again]
        refine ih quiet.tail (fun wellRead => ?_) reopened counted
        exact misread (wellRead_cons.mpr ⟨fun ⟨name, _⟩ => holds name, wellRead⟩)

end Redirects

section Budget

structure BudgetOfTen (redirects : ℕ) (outcome : Except Error Link × List Event) : Prop where
  succeeds : (∃ link, outcome.1 = .ok link) ↔ redirects ≤ 10
  fails : outcome.1 = .error tooManyRedirects ↔ 10 < redirects

variable {crates : HashCrates} {network : Network} {username password database host : Text}
  {port : UInt16} {hops : List Hop} {ack : Text}

theorem performHandshake_of_leads
    (leads : LeadsFrom crates network username password database host port hops ack)
    (wellRead : WellRead (hops.take 9)) :
    (hops.length < 10 → ∃ link,
      (performHandshake crates network username password database host port []).1 = .ok link) ∧
    (10 ≤ hops.length →
      (performHandshake crates network username password database host port []).1 =
        .error tooManyRedirects) := by
  obtain ⟨unread, opens, leads⟩ := leads
  refine ⟨fun less => ?_, fun more => ?_⟩
  · rw [List.take_of_length_le (Nat.le_of_lt_succ less)] at wellRead
    obtain ⟨link, past, ended⟩ := (performHandshake_of_serves crates network username password
      database host port ⟨unread, opens, leads.serves wellRead⟩).1 less
    exact ⟨link, congrArg Prod.fst ended⟩
  · exact attempts_exhausted leads more wellRead
      (openStream_eq_ok.mpr ⟨unread, opens, rfl, rfl⟩) rfl

/-- The loop counts login attempts, one more than the redirects they follow: the budget is
right for every number of redirects but the tenth, as long as none of those followed names
a server and is misread. -/
theorem budgetOfTen_iff
    (leads : LeadsFrom crates network username password database host port hops ack) :
    let outcome := performHandshake crates network username password database host port []
    (hops.length ≠ 10 ∧ WellRead (hops.take 9) → BudgetOfTen hops.length outcome) ∧
    (Quiet hops → BudgetOfTen hops.length outcome → hops.length ≠ 10 ∧ WellRead (hops.take 9)) := by
  intro outcome
  constructor
  · rintro ⟨other, wellRead⟩
    obtain ⟨returns, gives_up⟩ := performHandshake_of_leads leads wellRead
    rcases Nat.lt_or_ge hops.length 10 with less | more
    · obtain ⟨link, returned⟩ := returns less
      refine ⟨iff_of_true ⟨link, returned⟩ (by omega), iff_of_false (fun same => ?_) (by omega)⟩
      rw [returned] at same
      cases same
    · have failed := gives_up more
      refine ⟨iff_of_false (fun ⟨link, same⟩ => ?_) (by omega), iff_of_true failed (by omega)⟩
      rw [failed] at same
      cases same
  · intro quiet budget
    have wellRead : WellRead (hops.take 9) := by
      by_contra misread
      obtain ⟨unread, opens, conversation⟩ := leads
      have failed : outcome.1 = .error endOfStream := attempts_misread conversation quiet misread
        (openStream_eq_ok.mpr ⟨unread, opens, rfl, rfl⟩) rfl
      rcases Nat.lt_or_ge 10 hops.length with more | less
      · have other := budget.fails.mpr more
        rw [failed] at other
        cases other
      · obtain ⟨link, returned⟩ := budget.succeeds.mpr less
        rw [failed] at returned
        cases returned
    refine ⟨fun ten => ?_, wellRead⟩
    have failed := (performHandshake_of_leads leads wellRead).2 ten.ge
    exact absurd (budget.fails.mp failed) (by omega)

end Budget

section Example

def hexDigits (bytes : List UInt8) : Text :=
  bytes.flatMap fun b => [Nat.digitChar (b.toNat / 16), Nat.digitChar (b.toNat % 16)]

/-- The SHA1 digests of the password `monetdb` and of its hex digest with the salt `salt`. -/
def exampleCrates : HashCrates where
  ripemd160 _ := []
  sha512 _ := []
  sha384 _ := []
  sha256 _ := []
  sha224 _ := []
  sha1 data :=
    if data = utf8Encode "monetdb".toList then
      [0x47, 0x51, 0xfc, 0x28, 0xd9, 0xa6, 0x4a, 0x04, 0x38, 0x65, 0x92, 0x25, 0x48, 0xee, 0x7d,
        0x62, 0x37, 0x43, 0xbc, 0xad]
    else
      [0xfb, 0x94, 0xce, 0x0d, 0x83, 0x06, 0xbb, 0x24, 0xbd, 0x9c, 0x53, 0x8b, 0xf9, 0xb6, 0xf5,
        0xe8, 0x4c, 0x21, 0x76, 0x88]
  hexEncode := hexDigits

def exampleChallenge : Text := "salt:merovingian:9:SHA1:LIT:SHA1:".toList

def exampleRetry : Text := "^mapi:merovingian://proxy".toList

def retrying (ack : Text) : ℕ → List UInt8
  | 0 => message exampleChallenge ++ (message "=OK".toList ++ (message ack ++ []))
  | redirects + 1 => message exampleChallenge ++ (message exampleRetry ++ retrying ack redirects)

def exampleNetwork (redirects : ℕ) (ack : Text) : Network where
  connect _ _ _ := .ok (retrying ack redirects)
  flush _ _ := .ok ()

def exampleLogin : List UInt8 :=
  message (buildLoginResponse ⟨"salt".toList, "merovingian".toList, "9".toList, ["SHA1".toList],
    .little, "SHA1".toList, none⟩ "monetdb".toList "SHA1".toList
    "fb94ce0d8306bb24bd9c538bf9b6f5e84c217688".toList "db".toList .fresh)

theorem example_login : LoginFor exampleCrates "monetdb".toList "monetdb".toList "db".toList
    exampleChallenge exampleLogin := by
  refine ⟨_, _, _, answers_of_hashed (by decide) ?_⟩
  exact (computePasswordHash_ok_iff exampleCrates).mpr
    ⟨"4751fc28d9a64a043865922548ee7d623743bcad".toList, by decide, by decide, by decide⟩

theorem example_exchange {network : Network} (takes : ∀ n bytes, network.flush n bytes = .ok ())
    (n : ℕ) (reply : Text) (rest written : List UInt8) :
    Exchange exampleCrates network "monetdb".toList "monetdb".toList "db".toList
      ⟨n, message exampleChallenge ++ (message reply ++ rest), written⟩ exampleChallenge exampleLogin
      reply ⟨n, rest, written ++ exampleLogin⟩ :=
  ⟨example_login, takes n _, ⟨_, _, framed_encodeMessage _, framed_encodeMessage _, rfl⟩, rfl⟩

def retries (ack : Text) : ℕ → List Hop
  | 0 => []
  | redirects + 1 => ⟨"mapi:merovingian://proxy".toList, retrying ack redirects⟩ :: retries ack redirects

theorem length_retries (ack : Text) (redirects : ℕ) : (retries ack redirects).length = redirects := by
  induction redirects with
  | zero => rfl
  | succ redirects ih => rw [retries, List.length_cons, ih]

theorem wellRead_retries (ack : Text) (redirects : ℕ) : WellRead (retries ack redirects) := by
  induction redirects with
  | zero => exact wellRead_nil
  | succ redirects ih =>
    have scheme : "mapi:merovingian://".toList <+: "mapi:merovingian://proxy".toList := by decide
    exact wellRead_cons.mpr ⟨not_misread_of_scheme scheme, ih⟩

theorem retrying_leads {network : Network} (takes : ∀ n bytes, network.flush n bytes = .ok ())
    (n redirects : ℕ) (ack : Text) (written : List UInt8) :
    Leads exampleCrates network "monetdb".toList "monetdb".toList "db".toList
      ⟨n, retrying ack redirects, written⟩ (retries ack redirects) ack := by
  induction redirects generalizing written with
  | zero =>
    exact .accepted (example_exchange takes n _ _ written) (by decide) (takes n _)
      (framed_encodeMessage _) rfl
  | succ redirects ih =>
    have scheme : "mapi:merovingian://".toList <+: "mapi:merovingian://proxy".toList := by decide
    exact .retried (example_exchange takes n exampleRetry _ written) scheme (ih _)

theorem example_leads (redirects : ℕ) (ack : Text) :
    LeadsFrom exampleCrates (exampleNetwork redirects ack) "monetdb".toList "monetdb".toList
      "db".toList "localhost".toList 50000 (retries ack redirects) ack :=
  ⟨retrying ack redirects, ⟨rfl, rfl⟩, retrying_leads (fun _ _ => rfl) 0 redirects ack _⟩

theorem example_serves (redirects : ℕ) (ack : Text) :
    ServesFrom exampleCrates (exampleNetwork redirects ack) "monetdb".toList "monetdb".toList
      "db".toList "localhost".toList 50000 redirects ack := by
  obtain ⟨unread, opens, leads⟩ := example_leads redirects ack
  have serves := leads.serves (wellRead_retries ack redirects)
  rw [length_retries] at serves
  exact ⟨unread, opens, serves⟩

def exampleMove : Text := reconnectTarget "db2.example".toList 50001 (some "db".toList)

def movedNetwork (redirects : ℕ) (ack : Text) : Network where
  connect n _ _ := .ok (if n = 0 then message exampleChallenge ++ (message ('^' :: exampleMove) ++ [])
    else retrying ack redirects)
  flush _ _ := .ok ()

theorem moved_leads (redirects : ℕ) (ack : Text) :
    LeadsFrom exampleCrates (movedNetwork redirects ack) "monetdb".toList "monetdb".toList
      "db".toList "localhost".toList 50000 (⟨exampleMove, []⟩ :: retries ack redirects) ack :=
  ⟨_, ⟨rfl, rfl⟩, .reconnected (example_exchange (fun _ _ => rfl) 0 ('^' :: exampleMove) [] primeBytes)
    (namesServer_reconnectTarget (by decide) 50001 (some "db".toList)) ⟨rfl, rfl⟩
    (retrying_leads (fun _ _ => rfl) 1 redirects ack primeBytes)⟩

theorem nine_redirects_followed :
    BudgetOfTen 9 (performHandshake exampleCrates (movedNetwork 8 []) "monetdb".toList
      "monetdb".toList "db".toList "localhost".toList 50000 []) := by
  have wellRead : WellRead ((⟨exampleMove, []⟩ :: retries [] 8).take 9) := by
    intro hop mem
    rcases List.mem_cons.mp (List.mem_of_mem_take mem) with rfl | later
    · exact fun ⟨holds, _⟩ => absurd holds (by decide)
    · exact wellRead_retries [] 8 hop later
  exact (budgetOfTen_iff (moved_leads 8 [])).1 ⟨by decide, wellRead⟩

theorem tenth_redirect_refused :
    let outcome := performHandshake exampleCrates (exampleNetwork 10 []) "monetdb".toList
      "monetdb".toList "db".toList "localhost".toList 50000 []
    LeadsFrom exampleCrates (exampleNetwork 10 []) "monetdb".toList "monetdb".toList "db".toList
      "localhost".toList 50000 (retries [] 10) [] ∧ (retries [] 10).length = 10 ∧
    outcome.1 = .error tooManyRedirects ∧ ¬ BudgetOfTen 10 outcome := by
  intro outcome
  have failed : outcome.1 = .error tooManyRedirects :=
    (performHandshake_of_serves _ _ _ _ _ _ _ (example_serves 10 [])).2 (le_refl 10)
  refine ⟨example_leads 10 [], length_retries [] 10, failed, fun budget => ?_⟩
  exact absurd (budget.fails.mp failed) (lt_irrefl 10)

theorem rejected_command_ignored :
    let outcome := performHandshake exampleCrates (exampleNetwork 0 "!unknown command".toList)
      "monetdb".toList "monetdb".toList "db".toList "localhost".toList 50000 []
    (∃ link, outcome.1 = .ok link) ∧ ¬ RowLimitLifted outcome := by
  intro outcome
  obtain ⟨link, past, ended⟩ := (performHandshake_of_serves _ _ _ _ _ _ _
    (example_serves 0 "!unknown command".toList)).1 (by decide)
  refine ⟨⟨link, congrArg Prod.fst ended⟩, fun lifted => ?_⟩
  have rejects : Rejects "!unknown command".toList := ⟨"!unknown command".toList, by decide, rfl⟩
  have last := (congrArg (fun o => o.2.getLast?) ended).trans List.getLast?_concat
  obtain ⟨e, failed⟩ := lifted.refused link.number _ last rejects
  rw [congrArg Prod.fst ended] at failed
  cases failed

end Example

end SqlxMonetdb.HandshakeOutcomes
