import SqlxMonetdb.Cancellation

set_option autoImplicit false

namespace SqlxMonetdb.DroppedQueries
open ListSplitting TextPrimitives DriverError StreamReader Framing FramingBlocks FramingPrefixes
open MessageStream Response Connection LabelledRuns Session Cancellation

section Requests

def begunBy : Event → Option Text
  | .begin sql => some sql
  | _ => none

def begun (events : List Event) : List Text := events.filterMap begunBy

end Requests

section Statements

def statementOf (payload : List UInt8) : Option Text :=
  (([0x73].isPrefixOf? payload).bind fun body => [0x0A, 0x3B].isSuffixOf? body).bind fromUtf8

/-- A server that decodes the messages it is sent and takes the statements out of them. -/
def nextStatement : Reader Unit UInt8 (Option Text) :=
  andThen nextMessage fun (payload, _) bytes => (.ok (statementOf payload), bytes)

theorem statementOf_encodeQuery (sql : Text) : statementOf (encodeQuery sql) = some sql := by
  rw [statementOf, encodeQuery, List.append_assoc, isPrefixOf?_append, Option.bind_some,
    isSuffixOf?_append, Option.bind_some, fromUtf8_utf8Encode]

theorem nextStatement_exact (sql : Text) : Exact nextStatement (request sql) (some sql) := by
  intro rest
  have message := nextMessage_exact (framed_encodeMessage (encodeQuery sql)) rest
  rw [nextStatement, andThen, request, message]
  exact congrArg (fun statement => (Except.ok statement, rest)) (statementOf_encodeQuery sql)

theorem times_nextStatement (queries : List Text) (rest : List UInt8) :
    times nextStatement queries.length ((queries.map request).flatten ++ rest) =
      (.ok (queries.map some), rest) := by
  have reads := Exact.times (r := nextStatement)
    (queries.map fun sql => (request sql, some sql)) (by
      intro piece mem
      obtain ⟨sql, -, rfl⟩ := List.mem_map.mp mem
      exact nextStatement_exact sql)
  simpa [List.map_map, Function.comp_def] using reads rest

end Statements

section Decoding

theorem decodeFrom_nil {data message result : List UInt8} {offset k : ℕ}
    (h : decodeFrom data offset message = some (result, k)) :
    ∃ payload, result = message ++ payload ∧ decodeFrom data offset [] = some (payload, k) := by
  obtain ⟨after, within, payload, rfl, blocks⟩ := blockSequence_of_decodeFrom h
  have found := decodeFrom_framed (blockSequence_iff_framed.mp blocks) (data.take offset)
    (data.drop k) []
  have whole : data.take offset ++ ((data.drop offset).take (k - offset) ++ data.drop k) = data := by
    rw [← List.append_assoc, ← List.take_add, show offset + (k - offset) = k by omega,
      List.take_append_drop]
  rw [whole, List.length_take, List.length_take, List.length_drop,
    Nat.min_eq_left (show offset ≤ data.length by omega),
    Nat.min_eq_left (show k - offset ≤ data.length - offset by omega),
    show offset + (k - offset) = k by omega] at found
  exact ⟨payload, rfl, found⟩

end Decoding

section Lag

variable (replies : ℕ → Reply)

/-- The machine with a condition on the queries that are dropped. -/
def dropping (allowed : State → Running → Bool) (s : State) (e : Event) : Except Unit State :=
  if e = .drop ∧ s.running.any (fun r => !allowed s r) then .error () else step replies s e

def unread (s : State) (r : Running) : Bool := r.start == s.taken

def betweenBlocks (_ : State) (r : Running) : Bool :=
  match r.await with
  | .payload _ _ _ => false
  | _ => true

def position (s : State) : ℕ := (s.running.map Running.start).getD s.taken

/-- The next query to complete takes what is left of the reply whose number is the number of
completed queries: no query takes more than one reply, and a dropped one completes none. -/
structure Behind (left : ℕ → List UInt8 → Prop) (past : List Event) (s : State) : Prop where
  counted : s.sent + s.buffer.length =
    s.completed.length + past.count .drop + s.running.toList.length
  ahead : ∃ message, left s.completed.length message ∧
    ∀ sent, s.completed.length < sent → s.sent ≤ sent →
      decodeFrom (received replies sent) (position s) [] =
        some (message, (received replies (s.completed.length + 1)).length)
  completed : ∀ (i : ℕ) c, s.completed[i]? = some c →
    ∃ message, left i message ∧ c.result = messageResult message

variable {replies} {allowed : State → Running → Bool} {left : ℕ → List UInt8 → Prop}
  {s s' : State} {r : Running} {e : Event} {past events : List Event}

theorem dropping_ok (h : dropping replies allowed s e = .ok s') :
    step replies s e = .ok s' ∧ (e = .drop → ∀ r, s.running = some r → allowed s r = true) := by
  unfold dropping at h
  split at h
  · cases h
  · rename_i permitted
    refine ⟨h, fun dropped r running => ?_⟩
    simpa [dropped, running] using permitted

theorem dropping_of_run (run : Runs (accepts (step replies)) s events s')
    (noDrop : Event.drop ∉ events) : Runs (accepts (dropping replies allowed)) s events s' := by
  induction run with
  | refl s => exact .refl s
  | @next s u v e events h _ ih =>
    rw [List.mem_cons, not_or] at noDrop
    have same : dropping replies allowed s e = step replies s e :=
      if_neg fun dropped => noDrop.1 dropped.1.symm
    exact .next (same.trans h) (ih noDrop.2)

theorem whole_ahead (replies : ℕ → Reply) (number : ℕ) {sent : ℕ} (known : number < sent) :
    decodeFrom (received replies sent) (received replies number).length [] =
      some ((replies number).payload, (received replies (number + 1)).length) := by
  obtain ⟨later, rfl⟩ := Nat.exists_eq_add_of_le known
  rw [Nat.succ_eq_add_one, received_add]
  exact decodeFrom_received replies number _

theorem behind_initial (whole : ∀ k, left k (replies k).payload) :
    Behind replies left [] initial where
  counted := rfl
  ahead := ⟨_, whole 0, fun sent known _ => whole_ahead replies 0 known⟩
  completed i c h := by simp [initial] at h

theorem behind_begin (behind : Behind replies left past s) (idle : s.running = none) (sql : Text) :
    Behind replies left (past ++ [.begin sql]) { s with
      buffer := s.buffer ++ [sql]
      running := some ⟨s.sent + s.buffer.length, s.taken, .flush⟩ } where
  counted := by
    have counted := behind.counted
    simp only [idle, Option.toList_none, List.length_nil] at counted
    simp only [List.length_append, List.length_singleton, Option.toList_some, List.count_append,
      List.count_singleton, ← Nat.add_assoc, counted]
    rfl
  ahead := by
    have ahead := behind.ahead
    rw [position, idle] at ahead
    exact ahead
  completed := behind.completed

theorem Behind.number_eq (behind : Behind replies left past s) (positioned : Positioned replies s)
    (running : s.running = some r) : r.number = s.completed.length + past.count .drop := by
  have counted := behind.counted
  have numbered := (positioned.running r running).numbered
  rw [running, Option.toList_some, List.length_singleton, ← numbered] at counted
  exact Nat.succ.inj counted

theorem behind_flush (behind : Behind replies left past s) (running : s.running = some r)
    (unread : List UInt8) (written : List UInt8) :
    Behind replies left (past ++ [.wake]) { s with
      stream := ⟨unread, written⟩
      buffer := []
      sent := s.sent + s.buffer.length
      running := some { r with await := .header [] } } where
  counted := by
    have counted := behind.counted
    rw [running, Option.toList_some] at counted
    simpa using counted
  ahead := by
    obtain ⟨message, rest, ahead⟩ := behind.ahead
    rw [position, running] at ahead
    exact ⟨message, rest, fun sent known more => ahead sent known (by dsimp only at more; omega)⟩
  completed := behind.completed

theorem Behind.reading (behind : Behind replies left past s) (positioned : Positioned replies s)
    (running : s.running = some r) (reading : r.await ≠ .flush) :
    s.completed.length < s.sent ∧ ∃ message, left s.completed.length message ∧
      decodeAt (received replies s.sent) s.taken r.await =
        some (message, (received replies (s.completed.length + 1)).length) := by
  have suspended := positioned.running r running
  have known : s.completed.length < s.sent := by
    have number := behind.number_eq positioned running
    have numbered := suspended.numbered
    rw [suspended.reading reading, List.length_nil] at numbered
    omega
  obtain ⟨message, rest, ahead⟩ := behind.ahead
  have here := ahead s.sent known (le_refl _)
  rw [position, running] at here
  exact ⟨known, message, rest, suspended.decoding.symm.trans here⟩

theorem behind_read (whole : ∀ k, left k (replies k).payload) (behind : Behind replies left past s)
    (positioned : Positioned replies s) (running : s.running = some r) (reading : r.await ≠ .flush)
    (h : s.resume replies r = .ok s') : Behind replies left (past ++ [.wake]) s' := by
  obtain ⟨known, message, rest, decoding⟩ := behind.reading positioned running reading
  have counted := behind.counted
  rw [running, Option.toList_some, List.length_singleton] at counted
  obtain ⟨n, -, ⟨await, -, rfl, -⟩ | ⟨message', rfl, decoded⟩⟩ :=
    resume_read h reading positioned.unread positioned.within
  · refine ⟨?_, ?_, behind.completed⟩
    · simpa [State.moved] using counted
    · have ahead := behind.ahead
      rw [position, running] at ahead
      exact ahead
  · rw [decoding, Option.some.injEq, Prod.mk.injEq] at decoded
    obtain ⟨rfl, taken⟩ := decoded
    refine ⟨?_, ?_, fun i c found => ?_⟩
    · simp [State.moved]
      omega
    · -- the reply is read to its end, and the next one begins there
      refine ⟨_, whole _, fun sent later _ => ?_⟩
      simp only [List.length_append, List.length_singleton] at later ⊢
      have next := whole_ahead replies (s.completed.length + 1) later
      rw [taken] at next
      exact next
    · dsimp only [State.moved] at found
      rcases Nat.lt_trichotomy i s.completed.length with old | new | none
      · rw [List.getElem?_append_left old] at found
        exact behind.completed i c found
      · subst new
        rw [List.getElem?_concat_length, Option.some.injEq] at found
        subst found
        exact ⟨message, rest, rfl⟩
      · rw [List.getElem?_eq_none (by simpa using none)] at found
        cases found

theorem behind_drop (behind : Behind replies left past s) (positioned : Positioned replies s)
    (running : s.running = some r)
    (permitted : r.start = s.taken ∨ (∃ message, r.await = .header message) ∧
      ∀ k read message, left k (read ++ message) → left k message) :
    Behind replies left (past ++ [.drop]) { s with running := none } := by
  have counted : s.sent + s.buffer.length = s.completed.length +
      (past ++ [Event.drop]).count .drop + 0 := by
    have before := behind.counted
    rw [running, Option.toList_some, List.length_singleton] at before
    rw [List.count_append, List.count_singleton_self]
    omega
  rcases permitted with same | ⟨⟨read, header⟩, suffix⟩
  · refine ⟨counted, ?_, behind.completed⟩
    have ahead := behind.ahead
    rw [position, running, Option.map_some, Option.getD_some, same] at ahead
    exact ahead
  · have reading : r.await ≠ .flush := by
      rw [header]
      exact Await.noConfusion
    obtain ⟨known, message, rest, decoding⟩ := behind.reading positioned running reading
    rw [header] at decoding
    obtain ⟨message', rfl, found⟩ := decodeFrom_nil decoding
    refine ⟨counted, ⟨message', suffix _ _ _ rest, fun sent _ more => ?_⟩, behind.completed⟩
    obtain ⟨later, rfl⟩ := Nat.exists_eq_add_of_le more
    dsimp only
    rw [received_add]
    exact decodeFrom_more found _

theorem behind_keep (whole : ∀ k, left k (replies k).payload)
    (permits : ∀ s r, Positioned replies s → s.running = some r → allowed s r = true →
      r.start = s.taken ∨ (∃ message, r.await = .header message) ∧
        ∀ k read message, left k (read ++ message) → left k message)
    (positioned : Positioned replies s) (behind : Behind replies left past s)
    (h : dropping replies allowed s e = .ok s') : Behind replies left (past ++ [e]) s' := by
  obtain ⟨stepped, permitted⟩ := dropping_ok h
  obtain ⟨sql, rfl, idle, rfl⟩ | ⟨r, rfl, running, resumed⟩ | ⟨r, rfl, running, rfl⟩ :=
    step_cases stepped
  · exact behind_begin behind idle sql
  · by_cases flushing : r.await = .flush
    · rw [resume_flush resumed flushing]
      exact behind_flush behind running _ _
    · exact behind_read whole behind positioned running flushing resumed
  · exact behind_drop behind positioned running
      (permits s r positioned running (permitted rfl r running))

theorem behind_of_run (left : ℕ → List UInt8 → Prop) (whole : ∀ k, left k (replies k).payload)
    (permits : ∀ s r, Positioned replies s → s.running = some r → allowed s r = true →
      r.start = s.taken ∨ (∃ message, r.await = .header message) ∧
        ∀ k read message, left k (read ++ message) → left k message)
    (run : Runs (accepts (dropping replies allowed)) initial events s) :
    Positioned replies s ∧ Behind replies left events s := by
  refine run.history (I := fun past s => Positioned replies s ∧ Behind replies left past s) ?_ []
    ⟨positioned_initial replies, behind_initial whole⟩
  rintro past e s s' ⟨positioned, behind⟩ h
  exact ⟨positioned_keep replies s e s' positioned (dropping_ok h).1,
    behind_keep whole permits positioned behind h⟩

theorem behind_unread (run : Runs (accepts (dropping replies unread)) initial events s) :
    Positioned replies s ∧ Behind replies (fun k message => message = (replies k).payload) events s :=
  behind_of_run _ (fun _ => rfl)
    (fun s r _ _ permitted => .inl (by simpa [unread] using permitted)) run

/-- As long as queries are dropped only before they read anything, the queries that
complete get the replies one after the other, whatever their own numbers: each dropped query
puts the ones behind it one more reply off their own, and nothing brings them back. -/
theorem replies_lag (run : Runs (accepts (dropping replies unread)) initial events s) :
    (∀ (i : ℕ) c, s.completed[i]? = some c → c.result = messageResult (replies i).payload) ∧
    ∀ r, s.running = some r → r.number = s.completed.length + events.count .drop := by
  obtain ⟨positioned, behind⟩ := behind_unread run
  refine ⟨fun i c found => ?_, fun r running => behind.number_eq positioned running⟩
  obtain ⟨message, rfl, result⟩ := behind.completed i c found
  exact result

def dropBeforeReading : List Event :=
  [.begin [], .wake, .drop, .begin [], .wake, .wake, .wake, .begin []]

theorem replies_lag_one : ∃ s : State, s.completed = [⟨1, 0, .ok (.update 1 none)⟩] ∧
    (∀ (i : ℕ) c, s.completed[i]? = some c →
      c.result = messageResult (updateReplies i).payload) ∧
    ∀ r, s.running = some r → r.number = s.completed.length + 1 := by
  have folded : (dropBeforeReading.foldlM (dropping updateReplies unread) initial).map
      State.completed = .ok [⟨1, 0, .ok (.update 1 none)⟩] := by decide +kernel
  obtain ⟨s, reached, completed⟩ := map_eq_ok.mp folded
  exact ⟨s, completed, replies_lag (foldlM_ok_iff.mp reached)⟩

/-- As long as no query is dropped inside a block, each one that completes gets what the
dropped ones have left of the reply that is due: the end of one reply, never parts of two. -/
theorem replies_cut (run : Runs (accepts (dropping replies betweenBlocks)) initial events s) :
    ∀ (i : ℕ) c, s.completed[i]? = some c →
      ∃ message, message <:+ (replies i).payload ∧ c.result = messageResult message := by
  refine (behind_of_run (fun k message => message <:+ (replies k).payload)
    (fun _ => List.suffix_rfl) (fun s r positioned running permitted => ?_) run).2.completed
  cases await : r.await with
  | flush => exact .inl ((positioned.running r running).flushing await)
  | header message =>
    exact .inr ⟨⟨message, rfl⟩, fun k read message whole => (List.suffix_append _ _).trans whole⟩
  | payload message len isLast => simp [betweenBlocks, await] at permitted

/-- An error reply in two blocks, the second of which reads as a success. -/
def errorReply : Reply :=
  let first := utf8Encode "!".toList
  let second := utf8Encode "&2 5 -1".toList
  ⟨first ++ second,
    headerBytes first.length false ++ (first ++ (headerBytes second.length true ++ second)),
    .more (by decide) (.last (by decide))⟩

def dropBetweenBlocks : List Event :=
  [.begin [], .wake, .wake, .wake, .drop, .begin [], .wake, .wake, .wake]

theorem replies_cut_error : ∃ s : State, s.completed = [⟨1, 3, .ok (.update 5 none)⟩] ∧
    ∀ (i : ℕ) c, s.completed[i]? = some c →
      ∃ message, message <:+ errorReply.payload ∧ c.result = messageResult message := by
  have folded : (dropBetweenBlocks.foldlM (dropping (fun _ => errorReply) betweenBlocks)
      initial).map State.completed = .ok [⟨1, 3, .ok (.update 5 none)⟩] := by decide +kernel
  obtain ⟨s, reached, completed⟩ := map_eq_ok.mp folded
  exact ⟨s, completed, replies_cut (foldlM_ok_iff.mp reached)⟩

end Lag

section Flushes

/-- Nothing is ever taken to be unflushed. -/
def shouldFlush (_ : State) : Bool := false

def FlushKnown (s : State) : Prop := shouldFlush s = true ↔ s.buffer ≠ []

def behindFlush (_ : State) (r : Running) : Bool := r.await ≠ .flush

variable {replies : ℕ → Reply} {s s' : State} {e : Event} {events : List Event}

theorem flushKnown_iff : FlushKnown s ↔ s.buffer = [] := by
  simp [FlushKnown, shouldFlush]

structure Loaded (s : State) : Prop where
  idle : s.running = none → s.buffer = []
  flushing : ∀ r, s.running = some r → r.await = .flush → s.buffer ≠ []

theorem loaded_initial : Loaded initial := ⟨fun _ => rfl, fun r running => by cases running⟩

theorem loaded_wake {r : Running} (positioned : Positioned replies s) (running : s.running = some r)
    (resumed : s.resume replies r = .ok s') : Loaded s' := by
  by_cases flushing : r.await = .flush
  · rw [resume_flush resumed flushing]
    refine ⟨fun _ => rfl, ?_⟩
    rintro r' ⟨⟩ again
    cases again
  · have empty := (positioned.running r running).reading flushing
    obtain ⟨n, -, ⟨await, reads, rfl, -⟩ | ⟨message, rfl, -⟩⟩ :=
      resume_read resumed flushing positioned.unread positioned.within
    · refine ⟨fun _ => empty, ?_⟩
      rintro r' ⟨⟩ again
      exact absurd again reads
    · exact ⟨fun _ => empty, fun r' running' => by cases running'⟩

theorem loaded_begin (s : State) (sql : Text) (r : Running) :
    Loaded { s with buffer := s.buffer ++ [sql], running := some r } where
  idle := fun idle => by cases idle
  flushing := fun _ _ _ => by simp

theorem loaded_keep (positioned : Positioned replies s)
    (h : dropping replies behindFlush s e = .ok s') : Loaded s' := by
  obtain ⟨stepped, permitted⟩ := dropping_ok h
  obtain ⟨sql, rfl, -, rfl⟩ | ⟨r, rfl, running, resumed⟩ | ⟨r, rfl, running, rfl⟩ :=
    step_cases stepped
  · exact loaded_begin s sql _
  · exact loaded_wake positioned running resumed
  · have reading : r.await ≠ .flush := by
      simpa [behindFlush] using permitted rfl r running
    refine ⟨fun _ => (positioned.running r running).reading reading, fun r' running' => ?_⟩
    cases running'

theorem flushing_keep (positioned : Positioned replies s) (h : step replies s e = .ok s') :
    ∀ r, s'.running = some r → r.await = .flush → s'.buffer ≠ [] := by
  obtain ⟨sql, rfl, -, rfl⟩ | ⟨r, rfl, running, resumed⟩ | ⟨r, rfl, -, rfl⟩ := step_cases h
  · exact (loaded_begin s sql _).flushing
  · exact (loaded_wake positioned running resumed).flushing
  · exact fun r' running' => by cases running'

/-- Between queries `shouldFlush` is right, unless a query was dropped before its flush: such
a drop, and no other, leaves its request in the buffer. -/
theorem flushed_between (replies : ℕ → Reply) :
    (∀ events s, Runs (accepts (dropping replies behindFlush)) initial events s →
      s.running = none → FlushKnown s) ∧
    ∀ events s r s', Runs (accepts (step replies)) initial events s → s.running = some r →
      step replies s .drop = .ok s' → (FlushKnown s' ↔ behindFlush s r = true) := by
  constructor
  · intro events s run idle
    have kept := run.invariant (I := fun s => Positioned replies s ∧ Loaded s)
      (fun s e s' before h => ⟨positioned_keep replies s e s' before.1 (dropping_ok h).1,
        loaded_keep before.1 h⟩) ⟨positioned_initial replies, loaded_initial⟩
    exact flushKnown_iff.mpr (kept.2.idle idle)
  · intro events s r s' run running dropped
    have kept := run.invariant (I := fun s => Positioned replies s ∧
        ∀ r, s.running = some r → r.await = .flush → s.buffer ≠ [])
      (fun s e s' before h => ⟨positioned_keep replies s e s' before.1 h,
        flushing_keep before.1 h⟩) ⟨positioned_initial replies, loaded_initial.flushing⟩
    rw [flushKnown_iff]
    obtain ⟨sql, same, -⟩ | ⟨r', same, -⟩ | ⟨r', -, running', rfl⟩ := step_cases dropped
    · cases same
    · cases same
    · by_cases flushing : r.await = .flush
      · simpa [behindFlush, flushing] using kept.2 r running flushing
      · simpa [behindFlush, flushing] using (kept.1.running r running).reading flushing

theorem flushed_between_drops : ∃ s s' : State, s.sent = 1 ∧ FlushKnown s ∧
    s'.buffer = [['A']] ∧ ¬ FlushKnown s' := by
  have folded : ([Event.begin ['A'], .wake, .drop].foldlM (dropping updateReplies behindFlush)
      initial).map (fun s => (s.sent, s.running)) = .ok (1, none) := by decide +kernel
  obtain ⟨s, reached, same⟩ := map_eq_ok.mp folded
  obtain ⟨sent, idle⟩ := Prod.mk.inj same
  obtain ⟨between, dropped⟩ := flushed_between updateReplies
  have waiting := dropped [.begin ['A']] _ _ _ (.next rfl (.refl _)) rfl rfl
  exact ⟨s, _, sent, between _ s (foldlM_ok_iff.mp reached) idle, rfl,
    fun known => absurd (waiting.mp known) (by decide)⟩

end Flushes

end SqlxMonetdb.DroppedQueries
