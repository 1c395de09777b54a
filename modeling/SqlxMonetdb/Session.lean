import SqlxMonetdb.Connection
import SqlxMonetdb.LabelledRuns

set_option autoImplicit false

namespace SqlxMonetdb.Session
open TextPrimitives DriverError Framing FramingBlocks StreamReader MessageStream Response Arguments
open Connection LabelledRuns

section Queue

/-- A reply as the server frames it. -/
structure Reply where
  payload : List UInt8
  wire : List UInt8
  framed : Framed wire payload

def wires (replies : List Reply) : List UInt8 := (replies.map Reply.wire).flatten

structure Call where
  sql : Text
  arguments : Except Message (Option MonetArguments)

def Call.query (call : Call) : Except Error Text := sqlText call.sql call.arguments

def sentQueries (calls : List Call) : List Text := calls.filterMap fun call => call.query.toOption

def runCall (conn : MonetConnection) (call : Call) : List Item × MonetConnection :=
  runQuery conn call.sql call.arguments

def answer : Option Reply → List Item
  | some reply => resultItems (messageResult reply.payload)
  | none => [.error endOfStream]

def outcome : Option Reply → Except Error QueryResponse
  | some reply => messageResult reply.payload
  | none => .error endOfStream

/-- The connection as a queue: the replies not taken yet and the queries sent so far. -/
structure ReplyQueue where
  replies : List Reply
  sent : List Text

def ReplyQueue.call (queue : ReplyQueue) (call : Call) : List Item × ReplyQueue :=
  match call.query with
  | .error e => ([.error e], queue)
  | .ok query => (answer queue.replies.head?, ⟨queue.replies.tail, queue.sent ++ [query]⟩)

end Queue

section Simulation

/-- The stream holds exactly the replies of the queue and was sent exactly its queries. -/
structure Represents (prior : List UInt8) (conn : MonetConnection) (queue : ReplyQueue) : Prop where
  unread : conn.stream.unread = wires queue.replies
  written : conn.stream.written = prior ++ (queue.sent.map request).flatten

theorem wires_cons (reply : Reply) (replies : List Reply) :
    wires (reply :: replies) = reply.wire ++ wires replies := rfl

theorem executeQuery_represented {prior : List UInt8} {conn : MonetConnection} {queue : ReplyQueue}
    (h : Represents prior conn queue) (query : Text) :
    (executeQuery conn.stream query).1 = outcome queue.replies.head? := by
  obtain ⟨⟨unread, written⟩⟩ := conn
  obtain ⟨replies, sent⟩ := queue
  have holds := h.unread
  dsimp only at holds
  subst holds
  cases replies with
  | nil =>
    have read : readMessage (writeMessage ⟨[], written⟩ (encodeQuery query)) =
        (.error endOfStream, ⟨[], written ++ request query⟩) := readMessage_nil _
    exact congrArg Prod.fst (executeQuery_of_failure read)
  | cons reply replies =>
    rw [wires_cons]
    exact congrArg Prod.fst (executeQuery_framed reply.framed (wires replies) written query)

theorem represents_call {prior : List UInt8} {conn : MonetConnection} {queue : ReplyQueue}
    (h : Represents prior conn queue) (call : Call) :
    (runCall conn call).1 = (queue.call call).1 ∧
      Represents prior (runCall conn call).2 (queue.call call).2 := by
  obtain ⟨⟨unread, written⟩⟩ := conn
  obtain ⟨replies, sent⟩ := queue
  obtain ⟨holds, wrote⟩ := h
  dsimp only at holds wrote
  unfold runCall ReplyQueue.call
  cases sql : call.query with
  | error e =>
    rw [runQuery_unsent sql]
    exact ⟨rfl, holds, wrote⟩
  | ok query =>
    cases replies with
    | nil =>
      have empty : unread = [] := holds
      subst empty
      have read : readMessage (writeMessage ⟨[], written⟩ (encodeQuery query)) =
          (.error endOfStream, ⟨[], written ++ request query⟩) := readMessage_nil _
      rw [runQuery_sent sql, executeQuery_of_failure read]
      refine ⟨rfl, rfl, ?_⟩
      simp [wrote]
    | cons reply replies =>
      rw [holds, wires_cons, runQuery_framed sql reply.framed]
      refine ⟨rfl, rfl, ?_⟩
      simp [wrote]

theorem queue_state (calls : List Call) (queue : ReplyQueue) :
    (outputs ReplyQueue.call calls queue).2 =
      ⟨queue.replies.drop (sentQueries calls).length, queue.sent ++ sentQueries calls⟩ := by
  induction calls generalizing queue with
  | nil => simp [outputs, sentQueries]
  | cons call calls ih =>
    simp only [outputs, ih]
    cases sql : call.query with
    | error e => simp [ReplyQueue.call, sentQueries, sql, Except.toOption]
    | ok query => simp [ReplyQueue.call, sentQueries, sql, Except.toOption]

theorem represents_session (replies : List Reply) (written : List UInt8) (calls : List Call) :
    Represents written (outputs runCall calls ⟨⟨wires replies, written⟩⟩).2
      ⟨replies.drop (sentQueries calls).length, sentQueries calls⟩ := by
  have start : Represents written ⟨⟨wires replies, written⟩⟩ ⟨replies, []⟩ := ⟨rfl, by simp⟩
  have simulated := (outputs_simulation (R := Represents written)
    (fun _ _ call h => represents_call h call) calls start).2
  rwa [queue_state] at simulated

/-- Requests and replies stay paired: in any session, a call that is sent writes its own
request, yields the reply of its own number and leaves the stream at the next reply; a
call that is not sent changes nothing. -/
theorem session_call (replies : List Reply) (written : List UInt8) (calls : List Call)
    (call : Call) :
    let conn := (outputs runCall calls ⟨⟨wires replies, written⟩⟩).2
    let number := (sentQueries calls).length
    match call.query with
    | .error e => runCall conn call = ([.error e], conn)
    | .ok query => (runCall conn call).1 = answer replies[number]? ∧
      (executeQuery conn.stream query).1 = outcome replies[number]? ∧
      (runCall conn call).2.stream.written =
        conn.stream.written ++ encodeMessage (encodeQuery query) [] ∧
      (runCall conn call).2.stream.unread = wires (replies.drop (number + 1)) := by
  intro conn number
  have before := represents_session replies written calls
  obtain ⟨yielded, after⟩ := represents_call before call
  cases sql : call.query with
  | error e => exact runQuery_unsent sql conn
  | ok query =>
    simp only [ReplyQueue.call, sql] at yielded after
    refine ⟨?_, ?_, ?_, ?_⟩
    · rw [yielded, List.head?_drop]
    · rw [executeQuery_represented before, List.head?_drop]
    · rw [after.written, before.written]
      simp [request]
    · rw [after.unread, List.tail_drop]

end Simulation

end SqlxMonetdb.Session
