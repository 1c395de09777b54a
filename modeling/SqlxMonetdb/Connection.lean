import SqlxMonetdb.Arguments
import SqlxMonetdb.MessageStream
import SqlxMonetdb.Row

set_option autoImplicit false

namespace SqlxMonetdb.Connection
open TextPrimitives DriverError Framing FramingBlocks MessageStream Response Row Arguments

section Queries

structure MonetQueryResult where
  rowsAffected : UInt64
  deriving DecidableEq

/-- `MonetQueryResult::default()`. -/
def MonetQueryResult.fresh : MonetQueryResult := ⟨0⟩

structure MonetConnection where
  stream : MonetStream
  deriving DecidableEq

def executeQuery (stream : MonetStream) (sql : Text) : Except Error QueryResponse × MonetStream :=
  let stream := writeMessage stream (encodeQuery sql)
  match readTextMessage stream with
  | (.error e, stream) => (.error e, stream)
  | (.ok text, stream) => ((parseResponse text).mapError ResponseError.toError, stream)

abbrev Item := Except Error (MonetQueryResult ⊕ MonetRow)

/-- `sql_text` of `runQuery`: the statement to send, or why there is none. -/
def sqlText (sql : Text) (arguments : Except Message (Option MonetArguments)) : Except Error Text :=
  match arguments with
  | .error message => .error (.encode message)
  | .ok (some arguments) => arguments.substituteInto sql
  | .ok none => .ok sql

def responseItems : QueryResponse → List Item
  | .table table => (fromTableResult table).map (fun row => .ok (.inr row)) ++
    [.ok (.inl ⟨table.rowCount⟩)]
  | .update affected _ => [.ok (.inl ⟨affected⟩)]
  | .schema => [.ok (.inl .fresh)]
  | .transaction _ => [.ok (.inl .fresh)]
  | .ok => [.ok (.inl .fresh)]

def runQuery (conn : MonetConnection) (sql : Text)
    (arguments : Except Message (Option MonetArguments)) : List Item × MonetConnection :=
  match sqlText sql arguments with
  | .error e => ([.error e], conn)
  | .ok sqlText =>
    match executeQuery conn.stream sqlText with
    | (.error e, stream) => ([.error e], ⟨stream⟩)
    | (.ok response, stream) => (responseItems response, ⟨stream⟩)

def ping (conn : MonetConnection) : Except Error Unit × MonetConnection :=
  match executeQuery conn.stream "SELECT 1".toList with
  | (.error e, stream) => (.error e, ⟨stream⟩)
  | (.ok _, stream) => (.ok (), ⟨stream⟩)

end Queries

section Replies

/-- What a complete message means to the query that reads it. -/
def messageResult (payload : List UInt8) : Except Error QueryResponse :=
  match fromUtf8 payload with
  | some text => (parseResponse text).mapError ResponseError.toError
  | none => .error (MonetError.protocol
      [.text "expected UTF-8 text message: ", .utf8Error payload]).toError

def resultItems : Except Error QueryResponse → List Item
  | .ok response => responseItems response
  | .error e => [.error e]

def request (sql : Text) : List UInt8 := encodeMessage (encodeQuery sql) []

theorem executeQuery_of_message {stream : MonetStream} {sql : Text} {message : List UInt8}
    {after : MonetStream} (h : readMessage (writeMessage stream (encodeQuery sql)) = (.ok message, after)) :
    executeQuery stream sql = (messageResult message, after) := by
  unfold executeQuery readTextMessage messageResult
  dsimp only
  rw [h]
  dsimp only
  cases fromUtf8 message <;> rfl

theorem executeQuery_of_failure {stream : MonetStream} {sql : Text} {e : Error}
    {after : MonetStream} (h : readMessage (writeMessage stream (encodeQuery sql)) = (.error e, after)) :
    executeQuery stream sql = (.error e, after) := by
  unfold executeQuery readTextMessage
  dsimp only
  rw [h]

/-- A framed reply in front of the stream is the reply the query takes, and all it takes. -/
theorem executeQuery_framed {wire payload : List UInt8} (framed : Framed wire payload)
    (rest written : List UInt8) (sql : Text) :
    executeQuery ⟨wire ++ rest, written⟩ sql =
      (messageResult payload, ⟨rest, written ++ request sql⟩) :=
  executeQuery_of_message (readMessage_framed framed rest (written ++ request sql))

theorem runQuery_unsent {sql : Text} {arguments : Except Message (Option MonetArguments)} {e : Error}
    (h : sqlText sql arguments = .error e) (conn : MonetConnection) :
    runQuery conn sql arguments = ([.error e], conn) := by
  rw [runQuery, h]

theorem runQuery_sent {sql query : Text} {arguments : Except Message (Option MonetArguments)}
    (h : sqlText sql arguments = .ok query) (conn : MonetConnection) :
    runQuery conn sql arguments =
      (resultItems (executeQuery conn.stream query).1, ⟨(executeQuery conn.stream query).2⟩) := by
  rw [runQuery, h]
  dsimp only
  rcases executeQuery conn.stream query with ⟨e | response, stream⟩ <;> rfl

theorem runQuery_framed {sql query : Text} {arguments : Except Message (Option MonetArguments)}
    (h : sqlText sql arguments = .ok query) {wire payload : List UInt8}
    (framed : Framed wire payload) (rest written : List UInt8) :
    runQuery ⟨⟨wire ++ rest, written⟩⟩ sql arguments =
      (resultItems (messageResult payload), ⟨⟨rest, written ++ request query⟩⟩) := by
  rw [runQuery_sent h, executeQuery_framed framed]

theorem messageResult_utf8Encode (text : Text) :
    messageResult (utf8Encode text) = (parseResponse text).mapError ResponseError.toError := by
  rw [messageResult, fromUtf8_utf8Encode]

end Replies

end SqlxMonetdb.Connection
