import SqlxMonetdb.Cancellation

set_option autoImplicit false

namespace SqlxMonetdb.Arrivals
open TextPrimitives DriverError Framing FramingBlocks MessageStream Response Connection LabelledRuns
open Session Cancellation

section Machine

structure Net where
  client : State
  inFlight : List UInt8
  deriving DecidableEq

def start : Net := ⟨initial, []⟩

inductive NetEvent where
  | client (event : Event)
  | arrive (count : ℕ)
  deriving DecidableEq

def NetEvent.visible : NetEvent → Option Event
  | .client event => some event
  | .arrive _ => none

def handedOver (s : State) (r : Running) : State :=
  { s with
    stream := { s.stream with written := s.stream.written ++ (s.buffer.map request).flatten }
    buffer := []
    sent := s.sent + s.buffer.length
    running := some { r with await := .header [] } }

def deliver (replies : ℕ → Reply) (n : Net) : NetEvent → Except Unit Net
  | .arrive count =>
    if n.inFlight.length < count then .error ()
    else .ok ⟨{ n.client with stream := { n.client.stream with
        unread := n.client.stream.unread ++ n.inFlight.take count } }, n.inFlight.drop count⟩
  | .client .wake =>
    match n.client.running with
    | none => .error ()
    | some r =>
      if r.await = .flush then
        .ok ⟨handedOver n.client r,
          n.inFlight ++ repliesFrom replies n.client.sent n.client.buffer.length⟩
      else (n.client.resume replies r).map fun s => ⟨s, n.inFlight⟩
  | .client event => (step replies n.client event).map fun s => ⟨s, n.inFlight⟩

end Machine

section Refinement

variable {replies : ℕ → Reply} {s s' : State} {r : Running} {n n' : Net}

def withMore (s : State) (more : List UInt8) : State :=
  { s with stream := { s.stream with unread := s.stream.unread ++ more } }

/-- The connection on which everything has arrived. -/
def Net.whole (n : Net) : State := withMore n.client n.inFlight

theorem readBuffered_more {stream stream' : MonetStream} {count : ℕ} {bytes : List UInt8}
    (h : readBuffered stream count = (.ok bytes, stream')) (more : List UInt8) :
    readBuffered { stream with unread := stream.unread ++ more } count =
      (.ok bytes, { stream' with unread := stream'.unread ++ more }) := by
  by_cases short : stream.unread.length < count
  · rw [readBuffered_of_lt short] at h
    cases h
  · have enough : count ≤ stream.unread.length := Nat.not_lt.mp short
    rw [readBuffered_of_le enough] at h
    cases h
    rw [readBuffered_of_le (by rw [List.length_append]; omega)]
    simp only [List.take_append_of_le_length enough, List.drop_append_of_le_length enough]

theorem blockRead_more (s : State) (r : Running) (message : List UInt8) (isLast : Bool)
    (more : List UInt8) :
    withMore (s.blockRead r message isLast) more = (withMore s more).blockRead r message isLast := by
  cases isLast <;> rfl

theorem resume_more (reading : r.await ≠ .flush) (h : s.resume replies r = .ok s')
    (more : List UInt8) : (withMore s more).resume replies r = .ok (withMore s' more) := by
  cases await : r.await with
  | flush => exact absurd await reading
  | header message =>
    cases read : readBuffered s.stream 2 with
    | mk outcome stream =>
      cases outcome with
      | error e =>
        rw [State.resume, await] at h
        dsimp only at h
        rw [read] at h
        cases h
      | ok bytes =>
        rw [resume_header await read] at h
        rw [resume_header (s := withMore s more) await (readBuffered_more read more)]
        dsimp only at h ⊢
        split at h
        · rename_i nonempty
          cases h
          rw [if_pos nonempty]
          rfl
        · rename_i empty
          cases h
          rw [if_neg empty, blockRead_more]
          rfl
  | payload message len isLast =>
    cases read : readBuffered s.stream len with
    | mk outcome stream =>
      cases outcome with
      | error e =>
        rw [State.resume, await] at h
        dsimp only at h
        rw [read] at h
        cases h
      | ok payload =>
        rw [resume_payload await read] at h
        rw [resume_payload (s := withMore s more) await (readBuffered_more read more)]
        cases h
        rw [blockRead_more]
        rfl

theorem whole_arrive {count : ℕ} (h : deliver replies n (.arrive count) = .ok n') :
    n'.whole = n.whole := by
  simp only [deliver] at h
  split at h
  · cases h
  · cases h
    simp [Net.whole, withMore]

theorem whole_client {e : Event} (h : deliver replies n (.client e) = .ok n') :
    step replies n.whole e = .ok n'.whole := by
  cases e with
  | wake =>
    simp only [deliver] at h
    split at h
    · cases h
    · rename_i r running
      have same : n.whole.running = some r := running
      rw [step_wake same]
      split at h
      · rename_i flushing
        cases h
        rw [State.resume, flushing]
        simp [Net.whole, withMore, handedOver]
      · rename_i reading
        obtain ⟨s, resumed, rfl⟩ := map_eq_ok.mp h
        exact resume_more reading resumed n.inFlight
  | begin sql =>
    obtain ⟨s, begun, rfl⟩ := map_eq_ok.mp h
    obtain ⟨sql', same, idle, rfl⟩ | ⟨r, same, -⟩ | ⟨r, same, -⟩ := step_cases begun
    · cases same
      simp [step, Net.whole, withMore, idle]
    · cases same
    · cases same
  | drop =>
    obtain ⟨s, dropped, rfl⟩ := map_eq_ok.mp h
    obtain ⟨sql, same, -⟩ | ⟨r, same, -⟩ | ⟨r, -, running, rfl⟩ := step_cases dropped
    · cases same
    · cases same
    · simp [step, Net.whole, withMore, running]

/-- A run with fragments is a run of the machine without them. -/
theorem whole_of_run {events : List NetEvent} (run : Runs (accepts (deliver replies)) start events n) :
    Runs (accepts (step replies)) initial (events.filterMap NetEvent.visible) n.whole := by
  refine run.refines (f := Net.whole) fun n e n' h => ?_
  cases e with
  | client e => exact whole_client h
  | arrive count => exact whole_arrive h

/-- The header of the reply comes in two pieces, the second with a part of the payload. -/
def headerInPieces : List NetEvent :=
  [.client (.begin []), .client .wake, .arrive 1, .arrive 3, .client .wake]

theorem whole_of_run_pieces : ∃ n : Net, n.inFlight.length = 5 ∧
    Runs (accepts (step updateReplies)) initial [.begin [], .wake, .wake] n.whole := by
  have folded : (headerInPieces.foldlM (deliver updateReplies) start).map
      (fun n => n.inFlight.length) = .ok 5 := by decide +kernel
  obtain ⟨n, reached, left⟩ := map_eq_ok.mp folded
  exact ⟨n, left, whole_of_run (foldlM_ok_iff.mp reached)⟩

end Refinement

section Completion

variable {replies : ℕ → Reply} {s s' v : State} {r : Running} {n : Net}

theorem resume_reading (reading : r.await ≠ .flush) (h : s.resume replies r = .ok s') :
    ∀ r', s'.running = some r' → r'.await ≠ .flush := by
  have ended (u : State) (message : List UInt8) (isLast : Bool) :
      ∀ r', (u.blockRead r message isLast).running = some r' → r'.await ≠ .flush := by
    intro r' running
    cases isLast <;> cases running
    exact Await.noConfusion
  unfold State.resume at h
  cases await : r.await with
  | flush => exact absurd await reading
  | header message =>
    rw [await] at h
    dsimp only at h
    split at h
    · cases h
    · split at h
      · cases h
        rintro r' ⟨⟩
        exact Await.noConfusion
      · cases h
        exact ended _ _ _
  | payload message len isLast =>
    rw [await] at h
    dsimp only at h
    split at h
    · cases h
    · cases h
      exact ended _ _ _

theorem runs_of_wakes {μ ι : Type} {f : μ → ι → Except Unit μ} {wake : ι} {wakes : ℕ}
    (lift : State → μ) (lifts : ∀ s r s', s.running = some r → r.await ≠ .flush →
      s.resume replies r = .ok s' → f (lift s) wake = .ok (lift s'))
    (run : Runs (accepts (step replies)) s (List.replicate wakes .wake) v)
    (reading : ∀ r, s.running = some r → r.await ≠ .flush) :
    Runs (accepts f) (lift s) (List.replicate wakes wake) (lift v) := by
  induction wakes generalizing s with
  | zero =>
    rw [Runs.nil_iff.mp run]
    exact .refl _
  | succ wakes ih =>
    obtain ⟨u, woken, rest⟩ := Runs.cons_iff.mp run
    obtain ⟨sql, same, -⟩ | ⟨r, -, running, resumed⟩ | ⟨r, same, -⟩ := step_cases woken
    · cases same
    · have waits := reading r running
      exact .next (lifts s r u running waits resumed) (ih rest (resume_reading waits resumed))
    · cases same

theorem deliver_of_wakes {wakes : ℕ}
    (run : Runs (accepts (step replies)) s (List.replicate wakes .wake) v)
    (reading : ∀ r, s.running = some r → r.await ≠ .flush) :
    Runs (accepts (deliver replies)) ⟨s, []⟩ (List.replicate wakes (.client .wake)) ⟨v, []⟩ := by
  refine runs_of_wakes (fun s => (⟨s, []⟩ : Net)) (fun s r s' running waits resumed => ?_) run reading
  simp [deliver, running, waits, resumed, Except.map]

theorem completes_header {data message m : List UInt8} {k : ℕ}
    (unread : s.stream.unread = data.drop s.taken) (within : s.taken ≤ data.length)
    (running : s.running = some r) (header : r.await = .header message)
    (decoding : decodeFrom data s.taken message = some (m, k)) :
    ∃ wakes s', Runs (accepts (step replies)) s (List.replicate wakes .wake) s' ∧
      s'.running = none ∧ s'.completed = s.completed ++ [⟨r.number, r.start, messageResult m⟩] := by
  have read := readFrom_of_decodeFrom data s.stream.written s.taken within message
  rw [decoding] at read
  have holds : s.stream = ⟨data.drop s.taken, s.stream.written⟩ := by rw [← unread]
  obtain ⟨wakes, taken, run⟩ := @wakes_of_readFrom replies _ _ _ _ read.2 _ _ running header holds
  exact ⟨wakes, _, run, rfl, rfl⟩

theorem completes_of_decodeAt {data m : List UInt8} {k : ℕ}
    (unread : s.stream.unread = data.drop s.taken) (within : s.taken ≤ data.length)
    (running : s.running = some r) (reading : r.await ≠ .flush)
    (decoding : decodeAt data s.taken r.await = some (m, k)) :
    ∃ wakes s', Runs (accepts (step replies)) s (List.replicate wakes .wake) s' ∧
      s'.running = none ∧ s'.completed = s.completed ++ [⟨r.number, r.start, messageResult m⟩] := by
  cases await : r.await with
  | flush => exact absurd await reading
  | header message =>
    rw [await] at decoding
    exact completes_header unread within running await decoding
  | payload message len isLast =>
    rw [await, decodeAt] at decoding
    split at decoding
    · cases decoding
    · rename_i enough
      have held : len ≤ s.stream.unread.length := by
        rw [unread, List.length_drop]
        omega
      have woken : step replies s .wake = _ :=
        (step_wake running).trans (resume_payload await (readBuffered_of_le held))
      rw [unread, List.drop_drop] at woken
      cases isLast with
      | true =>
        cases decoding
        exact ⟨1, _, .next woken (.refl _), rfl, rfl⟩
      | false =>
        obtain ⟨wakes, s', run, ended, completed⟩ := @completes_header replies
          { s with
            stream := { s.stream with unread := data.drop (s.taken + len) }
            taken := s.taken + len
            running := some { r with await := .header (message ++ (data.drop s.taken).take len) } }
          { r with await := .header (message ++ (data.drop s.taken).take len) } data _ m k
          rfl (Nat.not_lt.mp enough) rfl rfl decoding
        exact ⟨wakes + 1, s', .next woken run, ended, completed⟩

theorem completes_own (positioned : Positioned replies s) (paired : Paired replies s)
    (running : s.running = some r) (reading : r.await ≠ .flush) :
    ∃ wakes s', Runs (accepts (step replies)) s (List.replicate wakes .wake) s' ∧
      s'.running = none ∧ s'.completed =
        s.completed ++ [⟨r.number, r.start, messageResult (replies r.number).payload⟩] := by
  have suspended := positioned.running r running
  have numbered : r.number + 1 = s.sent := by
    simpa [suspended.reading reading] using suspended.numbered
  have own := decodeFrom_received replies r.number []
  rw [List.append_nil, numbered, ← paired.running r running, suspended.decoding] at own
  exact completes_of_decodeAt positioned.unread positioned.within running reading own

theorem deliver_all (replies : ℕ → Reply) (n : Net) :
    deliver replies n (.arrive n.inFlight.length) = .ok ⟨n.whole, []⟩ := by
  simp [deliver, Net.whole, withMore]

theorem completes_arrived (positioned : Positioned replies n.whole) (paired : Paired replies n.whole)
    (running : n.client.running = some r) (reading : r.await ≠ .flush) :
    ∃ more n', Runs (accepts (deliver replies)) n more n' ∧ .client .drop ∉ more ∧
      n'.client.running = none ∧ n'.client.completed =
        n.client.completed ++ [⟨r.number, r.start, messageResult (replies r.number).payload⟩] := by
  obtain ⟨wakes, s', run, ended, completed⟩ := completes_own positioned paired running reading
  have waits : ∀ r', n.whole.running = some r' → r'.await ≠ .flush := by
    intro r' same
    rw [Option.some.inj (same.symm.trans running)]
    exact reading
  refine ⟨.arrive n.inFlight.length :: List.replicate wakes (.client .wake), ⟨s', []⟩,
    .next (deliver_all replies n) (deliver_of_wakes run waits), ?_, ended, completed⟩
  simp

theorem not_drop_visible {events : List NetEvent} (noDrop : .client .drop ∉ events) :
    Event.drop ∉ events.filterMap NetEvent.visible := by
  intro mem
  obtain ⟨event, inside, seen⟩ := List.mem_filterMap.mp mem
  cases event with
  | client e =>
    obtain rfl := Option.some.inj seen
    exact noDrop inside
  | arrive count => cases seen

/-- As long as nothing was dropped, whatever the fragments and their order, every query that
completed returned its own reply, and a running one can still complete so. -/
theorem fragments_answered {events : List NetEvent}
    (run : Runs (accepts (deliver replies)) start events n) (noDrop : .client .drop ∉ events) :
    (∀ c ∈ n.client.completed, c.result = messageResult (replies c.number).payload) ∧
    ∀ r, n.client.running = some r →
      ∃ more n', Runs (accepts (deliver replies)) n more n' ∧ .client .drop ∉ more ∧
        n'.client.running = none ∧ n'.client.completed =
          n.client.completed ++ [⟨r.number, r.start, messageResult (replies r.number).payload⟩] := by
  have whole := whole_of_run run
  have quiet := not_drop_visible noDrop
  have positioned := positioned_of_run replies whole
  have paired := paired_of_run replies whole quiet
  have answered := own_reply replies positioned paired
  refine ⟨answered, fun r running => ?_⟩
  by_cases flushing : r.await = .flush
  · have flushed : deliver replies n (.client .wake) = .ok ⟨handedOver n.client r,
        n.inFlight ++ repliesFrom replies n.client.sent n.client.buffer.length⟩ := by
      simp [deliver, running, flushing]
    have next := whole_of_run (Runs.append_iff.mpr ⟨n, run, .next flushed (.refl _)⟩)
    have still : Event.drop ∉ (events ++ [NetEvent.client .wake]).filterMap NetEvent.visible := by
      simpa [NetEvent.visible] using quiet
    obtain ⟨more, n', rest, noDrop', ended, completed⟩ := completes_arrived
      (positioned_of_run replies next) (paired_of_run replies next still)
      (r := { r with await := .header [] }) rfl Await.noConfusion
    exact ⟨.client .wake :: more, n', .next flushed rest, by simp [noDrop'], ended, completed⟩
  · exact completes_arrived positioned paired running flushing

def secondInPieces : List NetEvent := headerInPieces ++
  [.arrive 5, .client .wake, .client (.begin []), .client .wake, .arrive 4, .client .wake]

theorem fragments_answered_pieces : ∃ n : Net, n.client.completed = [⟨0, 0, .ok (.update 1 none)⟩] ∧
    n.inFlight.length = 5 ∧
    (∀ c ∈ n.client.completed, c.result = messageResult (updateReplies c.number).payload) ∧
    ∃ more n', Runs (accepts (deliver updateReplies)) n more n' ∧ .client .drop ∉ more ∧
      n'.client.running = none ∧
      n'.client.completed = n.client.completed ++ [⟨1, 9, .ok (.update 2 none)⟩] := by
  have folded : (secondInPieces.foldlM (deliver updateReplies) start).map
      (fun n => (n.client.completed, n.inFlight.length, n.client.running)) =
        .ok ([⟨0, 0, .ok (.update 1 none)⟩], 5, some ⟨1, 9, .payload [] 7 true⟩) := by
    decide +kernel
  have second : messageResult (updateReplies 1).payload = .ok (.update 2 none) := by decide +kernel
  obtain ⟨n, reached, same⟩ := map_eq_ok.mp folded
  obtain ⟨completed, rest⟩ := Prod.mk.inj same
  obtain ⟨left, running⟩ := Prod.mk.inj rest
  obtain ⟨answered, continues⟩ := fragments_answered (foldlM_ok_iff.mp reached) (by decide)
  obtain ⟨more, n', run, noDrop, ended, own⟩ := continues _ running
  rw [second] at own
  exact ⟨n, completed, left, answered, more, n', run, noDrop, ended, own⟩

end Completion

end SqlxMonetdb.Arrivals
