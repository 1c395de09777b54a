import SqlxMonetdb.ReplySections
import SqlxMonetdb.Session

set_option autoImplicit false

/-!
# The executor

The streams users get. A stream runs its query when it is polled first, and the whole
reply is read then. A poll is awaited until it is ready: a stream dropped while its first
poll is pending is a cancelled query, and not among the streams here.
-/
namespace SqlxMonetdb.Executor
open TextPrimitives DriverError Framing FramingBlocks StreamReader MessageStream Response ResponseLines
open ResponseErrors Row LabelledRuns Arguments Connection ReplySections Session

section Streams

/-- The stream of `fetchMany`: a query that has not run, or the items not handed out yet. -/
inductive FetchStream where
  | once (call : Call)
  | iter (items : List Item)

def fetchMany (call : Call) : FetchStream := .once call

/-- A poll awaited to its item. -/
def FetchStream.next (stream : FetchStream) (conn : MonetConnection) :
    Option Item × FetchStream × MonetConnection :=
  match stream with
  | .once call =>
    let (items, conn) := runCall conn call
    (items.head?, .iter items.tail, conn)
  | .iter items => (items.head?, .iter items.tail, conn)

def FetchStream.polled (stream : FetchStream) (conn : MonetConnection) :
    ℕ → List (Option Item) × MonetConnection
  | 0 => ([], conn)
  | count + 1 =>
    let (item, stream, conn) := stream.next conn
    let (items, conn) := stream.polled conn count
    (item :: items, conn)

/-- An unpolled stream has an unknown number of items left. -/
def FetchStream.left : FetchStream → ℕ ×ₗ ℕ
  | .once _ => toLex (1, 0)
  | .iter items => toLex (0, items.length)

theorem FetchStream.left_next {stream stream' : FetchStream} {conn conn' : MonetConnection}
    {item : Item} (h : stream.next conn = (some item, stream', conn')) :
    stream'.left < stream.left := by
  cases stream with
  | once call =>
    obtain rfl : FetchStream.iter (runCall conn call).1.tail = stream' :=
      congrArg (fun next => next.2.1) h
    exact Prod.Lex.left _ _ Nat.zero_lt_one
  | iter items =>
    cases items with
    | nil => cases h
    | cons first items =>
      cases h
      exact Prod.Lex.right _ (Nat.lt_succ_self _)

/-- The loop of `fetchOptional`. -/
def nextRow (stream : FetchStream) (conn : MonetConnection) :
    Except Error (Option MonetRow) × MonetConnection :=
  match h : stream.next conn with
  | (some (.error e), _, conn) => (.error e, conn)
  | (some (.ok (.inr row)), _, conn) => (.ok (some row), conn)
  | (some (.ok (.inl _)), stream', conn) => nextRow stream' conn
  | (none, _, conn) => (.ok none, conn)
termination_by stream.left
decreasing_by exact FetchStream.left_next h

def fetchOptional (conn : MonetConnection) (call : Call) :
    Except Error (Option MonetRow) × MonetConnection := nextRow (fetchMany call) conn

def firstRow : List Item → Except Error (Option MonetRow)
  | [] => .ok none
  | .error e :: _ => .error e
  | .ok (.inr row) :: _ => .ok (some row)
  | .ok (.inl _) :: items => firstRow items

theorem nextRow_next (stream : FetchStream) (conn : MonetConnection) :
    nextRow stream conn =
      match stream.next conn with
      | (some (.error e), _, conn) => (.error e, conn)
      | (some (.ok (.inr row)), _, conn) => (.ok (some row), conn)
      | (some (.ok (.inl _)), stream, conn) => nextRow stream conn
      | (none, _, conn) => (.ok none, conn) := by
  rw [nextRow]
  split
  all_goals
    rename_i next
    rw [next]

theorem nextRow_iter (items : List Item) (conn : MonetConnection) :
    nextRow (.iter items) conn = (firstRow items, conn) := by
  induction items with
  | nil => exact nextRow_next _ _
  | cons item items ih =>
    rcases item with e | (result | row)
    · exact nextRow_next _ _
    · exact (nextRow_next _ _).trans ih
    · exact nextRow_next _ _

theorem fetchOptional_eq (conn : MonetConnection) (call : Call) :
    fetchOptional conn call = (firstRow (runCall conn call).1, (runCall conn call).2) := by
  have next := nextRow_next (.iter (runCall conn call).1) (runCall conn call).2
  rw [nextRow_iter] at next
  exact (nextRow_next _ _).trans next.symm

theorem polled_iter (items : List Item) (conn : MonetConnection) (count : ℕ) :
    (FetchStream.iter items).polled conn count =
      ((List.range count).map fun k => items[k]?, conn) := by
  induction count generalizing items with
  | zero => rfl
  | succ count ih =>
    rw [FetchStream.polled]
    simp only [FetchStream.next, ih, List.range_succ_eq_map, List.map_cons, List.map_map]
    cases items <;> simp [Function.comp_def]

theorem polled_fetchMany (call : Call) (conn : MonetConnection) (count : ℕ) :
    (fetchMany call).polled conn (count + 1) =
      ((List.range (count + 1)).map fun k => (runCall conn call).1[k]?, (runCall conn call).2) := by
  have rest := polled_iter (runCall conn call).1 (runCall conn call).2 (count + 1)
  rw [FetchStream.polled] at rest ⊢
  exact rest

end Streams

section SingleRows

theorem firstRow_responseItems (response : QueryResponse) :
    firstRow (responseItems response) = .ok (rows (responseItems response)).head? := by
  cases response with
  | table table =>
    rw [rows_table]
    change firstRow ((fromTableResult table).map (fun row => .ok (.inr row)) ++ _) = _
    cases fromTableResult table <;> rfl
  | _ => rfl

/-- The values of the row a reply gives to `fetchOptional`: the first `[` line behind the last
line that opens a table. -/
def firstFields (text : Text) : Option (List (Option Text)) :=
  (lastSection (lines text)).bind fun (_, after) => (after.filterMap fields?).head?

theorem firstRow_parsed {text : Text} {response : QueryResponse}
    (parsed : parseResponse text = .ok response) :
    (firstRow (responseItems response)).map (Option.map MonetRow.values) =
      .ok (firstFields text) := by
  rw [firstRow_responseItems, Except.map, ← List.head?_map, firstFields]
  cases parseResponse_answers parsed with
  | @table header after t found read =>
    rw [found, rows_table, values_fromTableResult, read.rows]
    rfl
  | result absent =>
    rw [absent, rows_of_ne_table fun t => ?_]
    · rfl
    · cases last : ((lines text).filterMap finished?).getLast? with
      | none => exact QueryResponse.noConfusion
      | some r =>
        obtain ⟨line, -, finished⟩ := List.mem_filterMap.mp (List.mem_of_getLast? last)
        exact finished?_ne_table finished t

/-- `fetchOptional` takes the whole reply off the stream. It fails exactly on a reply that is
not UTF-8 or has a line the parser refuses, and otherwise gives the first row of the last
table, if it has one. -/
theorem fetchOptional_reply {call : Call} {query : Text} (sent : call.query = .ok query)
    {wire payload : List UInt8} (framed : Framed wire payload) (rest written : List UInt8) :
    let (result, conn) := fetchOptional ⟨⟨wire ++ rest, written⟩⟩ call
    conn = ⟨⟨rest, written ++ request query⟩⟩ ∧
    ((∃ e, result = .error e) ↔
      ∀ text, fromUtf8 payload = some text → ¬ AllAcceptable (lines text)) ∧
    ∀ text, fromUtf8 payload = some text → AllAcceptable (lines text) →
      result.map (Option.map MonetRow.values) = .ok (firstFields text) := by
  have ran : runCall ⟨⟨wire ++ rest, written⟩⟩ call = _ := runQuery_framed sent framed rest written
  rw [fetchOptional_eq, ran, messageResult]
  refine ⟨rfl, ?_⟩
  cases decoded : fromUtf8 payload with
  | none => exact ⟨iff_of_true ⟨_, rfl⟩ (fun text same => by cases same), fun text same => by cases same⟩
  | some text =>
    simp only [Option.some.injEq, forall_eq']
    cases parsed : parseResponse text with
    | ok response =>
      have accepted := parseResponse_accepted_iff.mp ⟨response, parsed⟩
      have first := firstRow_parsed parsed
      refine ⟨iff_of_false ?_ (not_not.mpr accepted), fun _ => first⟩
      rintro ⟨e, failed⟩
      change firstRow (responseItems response) = _ at failed
      rw [failed] at first
      cases first
    | error e =>
      have refused : ¬ AllAcceptable (lines text) := fun accepted => by
        obtain ⟨response, found⟩ := parseResponse_accepted_iff.mpr accepted
        rw [parsed] at found
        cases found
      exact ⟨iff_of_true ⟨_, rfl⟩ refused, fun accepted => absurd accepted refused⟩

theorem fetchOptional_reply_twoTables :
    let wire := encodeMessage (utf8Encode twoTables) []
    let (result, conn) := fetchOptional ⟨⟨wire ++ [], []⟩⟩ ⟨"SELECT 1; SELECT 2".toList, .ok none⟩
    conn = ⟨⟨[], [] ++ request "SELECT 1; SELECT 2".toList⟩⟩ ∧
      result.map (Option.map MonetRow.values) = .ok (some [some ['2']]) := by
  have accepted : AllAcceptable (lines twoTables) :=
    parseResponse_accepted_iff.mp ⟨_, twoTables_parsed⟩
  have first : firstFields twoTables = some [some ['2']] := by decide +kernel
  obtain ⟨conn, -, result⟩ := @fetchOptional_reply ⟨"SELECT 1; SELECT 2".toList, .ok none⟩ _ rfl _ _
    (framed_encodeMessage (utf8Encode twoTables)) [] []
  have row := result twoTables (fromUtf8_utf8Encode _) accepted
  rw [first] at row
  exact ⟨conn, row⟩

end SingleRows

section Sessions

/-- What a user does with the connection: poll a stream that often and drop it, fetch at most
one row, or ping. -/
inductive Operation where
  | fetchMany (call : Call) (polls : ℕ)
  | fetchOptional (call : Call)
  | ping

inductive Yield where
  | items (polled : List (Option Item))
  | row (result : Except Error (Option MonetRow))
  | pinged (result : Except Error Unit)

def runOperation (conn : MonetConnection) : Operation → Yield × MonetConnection
  | .fetchMany call polls =>
    let (items, conn) := (fetchMany call).polled conn polls
    (.items items, conn)
  | .fetchOptional call =>
    let (result, conn) := fetchOptional conn call
    (.row result, conn)
  | .ping =>
    let (result, conn) := ping conn
    (.pinged result, conn)

def Operation.call : Operation → Call
  | .fetchMany call _ => call
  | .fetchOptional call => call
  | .ping => ⟨"SELECT 1".toList, .ok none⟩

def Operation.starts : Operation → Bool
  | .fetchMany _ polls => polls ≠ 0
  | _ => true

def Operation.yields (items : List Item) : Operation → Yield
  | .fetchMany _ polls => .items ((List.range polls).map fun k => items[k]?)
  | .fetchOptional _ => .row (firstRow items)
  | .ping => .pinged ((firstRow items).map fun _ => ())

def Operation.sends (operation : Operation) : Option Text :=
  if operation.starts then operation.call.query.toOption else none

def sentBy (operations : List Operation) : List Text := operations.filterMap Operation.sends

def ReplyQueue.operation (queue : ReplyQueue) (operation : Operation) : Yield × ReplyQueue :=
  if operation.starts then
    let (items, queue) := queue.call operation.call
    (operation.yields items, queue)
  else (operation.yields [], queue)

theorem firstRow_resultItems (result : Except Error QueryResponse) :
    (firstRow (resultItems result)).map (fun _ => ()) = result.map fun _ => () := by
  cases result with
  | error e => rfl
  | ok response =>
    rw [resultItems, firstRow_responseItems]
    rfl

theorem runOperation_ping (conn : MonetConnection) :
    runOperation conn .ping =
      (Operation.ping.yields (runCall conn Operation.ping.call).1,
        (runCall conn Operation.ping.call).2) := by
  have sent : runCall conn Operation.ping.call =
      (resultItems (executeQuery conn.stream "SELECT 1".toList).1,
        ⟨(executeQuery conn.stream "SELECT 1".toList).2⟩) := runQuery_sent rfl conn
  rw [sent]
  dsimp only [Operation.yields]
  rw [firstRow_resultItems, runOperation, ping]
  rcases executeQuery conn.stream "SELECT 1".toList with ⟨e | response, stream⟩ <;> rfl

theorem runOperation_eq (conn : MonetConnection) (operation : Operation) :
    runOperation conn operation =
      if operation.starts then
        (operation.yields (runCall conn operation.call).1, (runCall conn operation.call).2)
      else (operation.yields [], conn) := by
  cases operation with
  | fetchMany call polls =>
    cases polls with
    | zero => rfl
    | succ polls =>
      have started : (Operation.fetchMany call (polls + 1)).starts = true := by
        simp [Operation.starts]
      rw [if_pos started, runOperation, polled_fetchMany]
      rfl
  | fetchOptional call =>
    rw [runOperation, fetchOptional_eq]
    rfl
  | ping => exact runOperation_ping conn

theorem represents_operation {prior : List UInt8} {conn : MonetConnection} {queue : ReplyQueue}
    (h : Represents prior conn queue) (operation : Operation) :
    (runOperation conn operation).1 = (ReplyQueue.operation queue operation).1 ∧
      Represents prior (runOperation conn operation).2 (ReplyQueue.operation queue operation).2 := by
  rw [runOperation_eq]
  unfold ReplyQueue.operation
  split
  · obtain ⟨yielded, after⟩ := represents_call h operation.call
    exact ⟨congrArg operation.yields yielded, after⟩
  · exact ⟨rfl, h⟩

theorem operation_state (queue : ReplyQueue) (operation : Operation) :
    (ReplyQueue.operation queue operation).2 =
      ⟨queue.replies.drop operation.sends.toList.length, queue.sent ++ operation.sends.toList⟩ := by
  unfold ReplyQueue.operation Operation.sends
  split
  · cases query : operation.call.query with
    | error e => simp [ReplyQueue.call, query, Except.toOption]
    | ok text => simp [ReplyQueue.call, query, Except.toOption]
  · simp

theorem operations_state (operations : List Operation) (queue : ReplyQueue) :
    (outputs ReplyQueue.operation operations queue).2 =
      ⟨queue.replies.drop (sentBy operations).length, queue.sent ++ sentBy operations⟩ := by
  induction operations generalizing queue with
  | nil => simp [outputs, sentBy]
  | cons operation operations ih =>
    simp only [outputs, ih, operation_state]
    cases sends : operation.sends <;> simp [sentBy, sends]

theorem represents_operations (replies : List Reply) (written : List UInt8)
    (operations : List Operation) :
    Represents written (outputs runOperation operations ⟨⟨wires replies, written⟩⟩).2
      ⟨replies.drop (sentBy operations).length, sentBy operations⟩ := by
  have start : Represents written ⟨⟨wires replies, written⟩⟩ ⟨replies, []⟩ := ⟨rfl, by simp⟩
  have simulated := (outputs_simulation (R := Represents written)
    (fun _ _ operation h => represents_operation h operation) operations start).2
  rwa [operations_state] at simulated

theorem sends_eq_some {operation : Operation} {query : Text} (h : operation.sends = some query) :
    operation.starts = true ∧ operation.call.query = .ok query := by
  unfold Operation.sends at h
  split at h
  · rename_i started
    cases asked : operation.call.query with
    | error e =>
      rw [asked] at h
      cases h
    | ok text =>
      rw [asked] at h
      exact ⟨started, congrArg _ (Option.some.inj h)⟩
  · cases h

theorem runOperation_unsent {operation : Operation} (h : operation.sends = none)
    (conn : MonetConnection) : (runOperation conn operation).2 = conn := by
  rw [runOperation_eq]
  split
  · rename_i started
    rw [Operation.sends, if_pos started] at h
    cases asked : operation.call.query with
    | error e => exact congrArg Prod.snd (runQuery_unsent asked conn)
    | ok text =>
      rw [asked] at h
      cases h
  · rfl

/-- However users mix streams, some of them dropped between two items or never polled, single
rows and pings: an operation that sends a request gets all it yields from the reply of its
own number and leaves the stream at the next reply; any other leaves it where it was. -/
theorem operation_paired (replies : List Reply) (written : List UInt8)
    (operations : List Operation) (operation : Operation) :
    let conn := (outputs runOperation operations ⟨⟨wires replies, written⟩⟩).2
    let number := (sentBy operations).length
    match operation.sends with
    | none => (runOperation conn operation).2 = conn
    | some query =>
      (runOperation conn operation).1 = operation.yields (answer replies[number]?) ∧
      (runOperation conn operation).2.stream.written = conn.stream.written ++ request query ∧
      (runOperation conn operation).2.stream.unread = wires (replies.drop (number + 1)) := by
  intro conn number
  have before := represents_operations replies written operations
  obtain ⟨yielded, after⟩ := represents_operation before operation
  rw [operation_state] at after
  cases sends : operation.sends with
  | none => exact runOperation_unsent sends conn
  | some query =>
    obtain ⟨started, asked⟩ := sends_eq_some sends
    rw [sends] at after
    refine ⟨?_, ?_, ?_⟩
    · rw [yielded, ReplyQueue.operation, if_pos started]
      simp only [ReplyQueue.call, asked, List.head?_drop]
      rfl
    · rw [after.written, before.written]
      simp
    · rw [after.unread]
      simp [List.drop_drop, number]

end Sessions

end SqlxMonetdb.Executor
