import SqlxMonetdb.DroppedQueries

set_option autoImplicit false

namespace SqlxMonetdb.Handovers
open ListSplitting DriverError StreamReader Framing FramingBlocks FramingPrefixes TextPrimitives
open MessageStream Response Connection LabelledRuns Session Cancellation DroppedQueries

section Machine

/-- The client with the bytes left in its write buffer and those its server was handed. -/
structure Socket where
  client : State
  pending : List UInt8
  handed : List UInt8
  deriving DecidableEq

def untouched : Socket := ⟨initial, [], []⟩

inductive SocketEvent where
  | client (event : Event)
  /-- The socket takes some of the bytes a flush offers it. -/
  | write (count : ℕ)
  deriving DecidableEq

def SocketEvent.visible : SocketEvent → Option Event
  | .client event => some event
  | .write _ => none

def clientEvents (events : List SocketEvent) : List Event := events.filterMap SocketEvent.visible

def flushing (s : State) : Bool := s.running.any fun r => r.await = .flush

/-- The loop of `BufferedSocket::flush`: it writes until the buffer is empty, waits at each
write, and leaves the rest in the buffer when it is dropped there. -/
def advance (replies : ℕ → Reply) (s : Socket) : SocketEvent → Except Unit Socket
  | .client event =>
    if event = .wake ∧ flushing s.client = true ∧ s.pending ≠ [] then .error ()
    else (step replies s.client event).map fun client =>
      { s with client, pending := s.pending ++ (begunBy event).elim [] request }
  | .write count =>
    if flushing s.client = true ∧ count ≤ s.pending.length then
      .ok { s with pending := s.pending.drop count, handed := s.handed ++ s.pending.take count }
    else .error ()

/-- `Connection::close` flushes first. -/
def Socket.close (s : Socket) : Socket := { s with pending := [], handed := s.handed ++ s.pending }

variable {replies : ℕ → Reply} {s s' : Socket} {e : SocketEvent}

theorem advance_cases (h : advance replies s e = .ok s') :
    (∃ event client, e = .client event ∧ step replies s.client event = .ok client ∧
      (event = .wake → flushing s.client = true → s.pending = []) ∧
      s' = { s with client, pending := s.pending ++ (begunBy event).elim [] request }) ∨
    (∃ count, e = .write count ∧ flushing s.client = true ∧
      s' = { s with pending := s.pending.drop count, handed := s.handed ++ s.pending.take count }) := by
  cases e with
  | client event =>
    unfold advance at h
    dsimp only at h
    split_ifs at h with blocked
    obtain ⟨client, stepped, rfl⟩ := map_eq_ok.mp h
    refine .inl ⟨event, client, rfl, stepped, fun wake flush => ?_, rfl⟩
    by_contra left
    exact blocked ⟨wake, flush, left⟩
  | write count =>
    unfold advance at h
    dsimp only at h
    split_ifs at h with takes
    cases h
    exact .inr ⟨count, rfl, takes.1, rfl⟩

theorem flushing_of_running {s : State} {r : Running} (running : s.running = some r) :
    flushing s = true ↔ r.await = .flush := by
  simp [flushing, running]

theorem clientRun_of_run {events : List SocketEvent}
    (run : Runs (accepts (advance replies)) untouched events s) :
    Runs (accepts (step replies)) initial (clientEvents events) s.client := by
  refine run.refines (f := Socket.client) fun s e s' h => ?_
  obtain ⟨event, client, rfl, stepped, -, rfl⟩ | ⟨count, rfl, -, rfl⟩ := advance_cases h
  · exact stepped
  · rfl

end Machine

section Requests

/-- Of the requests the flushes that are done handed over the first, and the buffer has the
others. -/
structure Requested (events : List Event) (s : State) : Prop where
  within : s.sent ≤ (begun events).length
  written : s.stream.written = (((begun events).take s.sent).map request).flatten
  buffered : s.buffer = (begun events).drop s.sent

variable {replies : ℕ → Reply} {s s' : State} {past : List Event}

theorem begun_concat (past : List Event) (e : Event) :
    begun (past ++ [e]) = begun past ++ (begunBy e).toList := by
  cases e <;> simp [begun, begunBy]

theorem requested_initial : Requested [] initial := ⟨Nat.zero_le _, rfl, rfl⟩

theorem Requested.frame (requested : Requested past s) {e : Event} (quiet : begunBy e = none)
    (sent : s'.sent = s.sent) (written : s'.stream.written = s.stream.written)
    (buffer : s'.buffer = s.buffer) : Requested (past ++ [e]) s' := by
  have same : begun (past ++ [e]) = begun past := by simp [begun_concat, quiet]
  refine ⟨?_, ?_, ?_⟩
  · rw [same, sent]
    exact requested.within
  · rw [same, sent, written]
    exact requested.written
  · rw [same, sent, buffer]
    exact requested.buffered

theorem Requested.begin (requested : Requested past s) (sql : Text) (running : Option Running) :
    Requested (past ++ [.begin sql]) { s with buffer := s.buffer ++ [sql], running } := by
  have more : begun (past ++ [.begin sql]) = begun past ++ [sql] := begun_concat past _
  refine ⟨?_, ?_, ?_⟩
  · rw [more, List.length_append]
    exact Nat.le_add_right_of_le requested.within
  · rw [more, List.take_append_of_le_length requested.within]
    exact requested.written
  · rw [more, List.drop_append_of_le_length requested.within, ← requested.buffered]

theorem Requested.flush (requested : Requested past s) (unread : List UInt8)
    (running : Option Running) :
    Requested (past ++ [.wake]) { s with
      stream := ⟨unread, s.stream.written ++ (s.buffer.map request).flatten⟩
      buffer := []
      sent := s.sent + s.buffer.length
      running } := by
  have same : begun (past ++ [.wake]) = begun past := by simp [begun_concat, begunBy]
  have all : s.sent + s.buffer.length = (begun past).length := by
    have within := requested.within
    rw [requested.buffered, List.length_drop]
    omega
  refine ⟨?_, ?_, ?_⟩
  · rw [same]
    exact all.le
  · rw [same]
    dsimp only
    rw [all, List.take_length, requested.written, requested.buffered, ← List.flatten_append,
      ← List.map_append, List.take_append_drop]
  · rw [same]
    dsimp only
    rw [all, List.drop_length]

theorem requested_keep {e : Event} (requested : Requested past s) (h : step replies s e = .ok s') :
    Requested (past ++ [e]) s' := by
  obtain ⟨sql, rfl, -, rfl⟩ | ⟨r, rfl, -, resumed⟩ | ⟨r, rfl, -, rfl⟩ := step_cases h
  · exact requested.begin sql _
  · by_cases flushing : r.await = .flush
    · rw [resume_flush resumed flushing]
      exact requested.flush _ _
    · obtain ⟨sent, buffer, written⟩ := resume_frame flushing resumed
      exact requested.frame rfl sent written buffer
  · exact requested.frame rfl rfl rfl rfl

theorem Requested.all (requested : Requested past s) :
    s.stream.written ++ (s.buffer.map request).flatten = ((begun past).map request).flatten := by
  rw [requested.written, requested.buffered, ← List.flatten_append, ← List.map_append,
    List.take_append_drop]

end Requests

section Handing

variable {replies : ℕ → Reply} {s s' : Socket} {past : List Event} {events : List SocketEvent}

/-- The server has a front of the requests, and the write buffer the rest of them. -/
structure Handed (events : List Event) (s : Socket) : Prop where
  requested : Requested events s.client
  bytes : s.handed ++ s.pending = ((begun events).map request).flatten
  flushed : s.client.stream.written <+: s.handed
  reading : ∀ r, s.client.running = some r → r.await ≠ .flush → s.pending = []

theorem handed_untouched : Handed [] untouched :=
  ⟨requested_initial, rfl, List.prefix_rfl, fun _ running => by cases running⟩

theorem Handed.quiet (handed : Handed past s) {event : Event} {client : State}
    (silent : begunBy event = none) (requested : Requested (past ++ [event]) client)
    (flushed : client.stream.written <+: s.handed)
    (reading : ∀ r, client.running = some r → r.await ≠ .flush → s.pending = []) :
    Handed (past ++ [event])
      { s with client, pending := s.pending ++ (begunBy event).elim [] request } where
  requested := requested
  bytes := by
    rw [begun_concat, silent]
    simpa using handed.bytes
  flushed := flushed
  reading := by simpa [silent] using reading

theorem handed_client (handed : Handed past s) {event : Event} {client : State}
    (stepped : step replies s.client event = .ok client)
    (done : event = .wake → flushing s.client = true → s.pending = []) :
    Handed (past ++ [event])
      { s with client, pending := s.pending ++ (begunBy event).elim [] request } := by
  have requested := requested_keep handed.requested stepped
  obtain ⟨sql, rfl, -, rfl⟩ | ⟨r, rfl, running, resumed⟩ | ⟨r, rfl, -, rfl⟩ := step_cases stepped
  · refine ⟨requested, ?_, handed.flushed, ?_⟩
    · rw [begun_concat, List.map_append, List.flatten_append, ← handed.bytes]
      simp [begunBy]
    · rintro r ⟨⟩ waits
      exact absurd rfl waits
  · by_cases flush : r.await = .flush
    · have empty := done rfl ((flushing_of_running running).mpr flush)
      have all := handed.requested.all.trans handed.bytes.symm
      rw [empty, List.append_nil] at all
      refine handed.quiet rfl requested ?_ fun _ _ _ => empty
      rw [resume_flush resumed flush]
      dsimp only
      rw [all]
    · obtain ⟨-, -, written⟩ := resume_frame flush resumed
      refine handed.quiet rfl requested ?_ fun _ _ _ => handed.reading r running flush
      rw [written]
      exact handed.flushed
  · exact handed.quiet rfl requested handed.flushed fun _ running => by cases running

theorem handed_write (handed : Handed past s) (flush : flushing s.client = true) (count : ℕ) :
    Handed past
      { s with pending := s.pending.drop count, handed := s.handed ++ s.pending.take count } where
  requested := handed.requested
  bytes := by
    rw [List.append_assoc, List.take_append_drop]
    exact handed.bytes
  flushed := handed.flushed.trans (List.prefix_append _ _)
  reading r running waits := absurd ((flushing_of_running running).mp flush) waits

theorem handed_of_run (run : Runs (accepts (advance replies)) untouched events s) :
    Handed (clientEvents events) s := by
  refine run.history (I := fun past s => Handed (clientEvents past) s) ?_ [] handed_untouched
  intro past e s s' handed h
  rw [clientEvents, List.filterMap_append]
  obtain ⟨event, client, rfl, stepped, done, rfl⟩ | ⟨count, rfl, flush, rfl⟩ := advance_cases h
  · exact handed_client handed stepped done
  · rw [show [SocketEvent.write count].filterMap SocketEvent.visible = [] from rfl, List.append_nil]
    exact handed_write handed flush count

/-- In every state of every run, whatever part of the buffer the socket takes at a time and
wherever queries are dropped, what the server was handed and what is left in the buffer are
the requests of all queries, each once and in their order. -/
theorem requests_handed_once (run : Runs (accepts (advance replies)) untouched events s) :
    Runs (accepts (step replies)) initial (clientEvents events) s.client ∧
    Handed (clientEvents events) s ∧
    s.close.handed = ((begun (clientEvents events)).map request).flatten :=
  ⟨clientRun_of_run run, handed_of_run run, (handed_of_run run).bytes⟩

def dropInsideFlush : List SocketEvent :=
  [.client (.begin ['A']), .write 3, .client .drop, .client (.begin ['B']), .write 7]

theorem requests_handed_once_partly : ∃ s : Socket,
    (s.handed, s.pending) = ([9, 0, 115, 65, 10, 59, 9, 0, 115, 66], [10, 59]) ∧
    Runs (accepts (step updateReplies)) initial [.begin ['A'], .drop, .begin ['B']] s.client ∧
    Handed [.begin ['A'], .drop, .begin ['B']] s ∧
    s.close.handed = request ['A'] ++ request ['B'] := by
  have folded : (dropInsideFlush.foldlM (advance updateReplies) untouched).map
      (fun s => (s.handed, s.pending)) =
        .ok ([9, 0, 115, 65, 10, 59, 9, 0, 115, 66], [10, 59]) := by decide +kernel
  obtain ⟨s, reached, bytes⟩ := map_eq_ok.mp folded
  obtain ⟨run, handed, closed⟩ := requests_handed_once (foldlM_ok_iff.mp reached)
  exact ⟨s, bytes, run, handed, closed⟩

end Handing

section Reading

variable {replies : ℕ → Reply} {s : Socket} {events : List SocketEvent}

theorem nextStatement_incomplete {sql : Text} {part : List UInt8} (front : part <+: request sql)
    (rest : part ≠ request sql) : (nextStatement part).1 = .error () := by
  have whole := decodeMessage_framed (framed_encodeMessage (encodeQuery sql)) []
  rw [List.append_nil] at whole
  have shorter : part.length < (request sql).length :=
    lt_of_le_of_ne front.length_le fun same => rest (front.eq_of_length same)
  have waits := decodeMessage_take whole shorter
  rw [← request, ← List.prefix_iff_eq_take.mp front] at waits
  rw [nextStatement, andThen, nextMessage, waits]

/-- In every state of every run, a server that reads what it was handed finds the statements
of the first queries, and behind them nothing or an unfinished part of the next request; after
a close it finds those of all of them, with nothing left over. -/
theorem server_reads_handed (run : Runs (accepts (advance replies)) untouched events s) :
    (∃ k part, k ≤ (begun (clientEvents events)).length ∧
      times nextStatement k s.handed =
        (.ok (((begun (clientEvents events)).take k).map some), part) ∧
      (nextStatement part).1 = .error () ∧
      (part = [] ∨ ∃ sql, (begun (clientEvents events))[k]? = some sql ∧
        part <+: request sql ∧ part ≠ request sql)) ∧
    times nextStatement (begun (clientEvents events)).length s.close.handed =
      (.ok ((begun (clientEvents events)).map some), []) := by
  have bytes := (handed_of_run run).bytes
  generalize begun (clientEvents events) = queries at bytes ⊢
  constructor
  · have front : s.handed <+: (queries.map request).flatten := ⟨s.pending, bytes⟩
    obtain ⟨k, part, within, whole, ends⟩ := prefix_flatten front
    rw [List.length_map] at within
    have read := times_nextStatement (queries.take k) part
    rw [List.length_take, Nat.min_eq_left within, List.map_take, ← whole] at read
    refine ⟨k, part, within, read, ?_, ?_⟩
    · rcases ends with rfl | ⟨piece, found, inside, short⟩
      · rfl
      · obtain ⟨sql, -, rfl⟩ := List.mem_map.mp (List.mem_of_getElem? found)
        exact nextStatement_incomplete inside short
    · refine ends.imp id ?_
      rintro ⟨piece, found, inside, short⟩
      rw [List.getElem?_map, Option.map_eq_some_iff] at found
      obtain ⟨sql, asked, rfl⟩ := found
      exact ⟨sql, asked, inside, short⟩
  · have read := times_nextStatement queries []
    rwa [List.append_nil, ← bytes] at read

theorem server_reads_handed_partly : ∃ s : Socket,
    times nextStatement 1 s.handed = (.ok [some ['A']], [9, 0, 115, 66]) ∧
    (∃ k part, k ≤ 2 ∧
      times nextStatement k s.handed = (.ok (([['A'], ['B']].take k).map some), part) ∧
      (nextStatement part).1 = .error ()) ∧
    times nextStatement 2 s.close.handed = (.ok [some ['A'], some ['B']], []) := by
  have folded : (dropInsideFlush.foldlM (advance updateReplies) untouched).map
      (fun s => times nextStatement 1 s.handed) = .ok (.ok [some ['A']], [9, 0, 115, 66]) := by
    decide +kernel
  obtain ⟨s, reached, first⟩ := map_eq_ok.mp folded
  obtain ⟨⟨k, part, within, read, waits, -⟩, closed⟩ :=
    server_reads_handed (foldlM_ok_iff.mp reached)
  exact ⟨s, first, ⟨k, part, within, read, waits⟩, closed⟩

end Reading

end SqlxMonetdb.Handovers
