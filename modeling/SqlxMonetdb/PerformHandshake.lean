import SqlxMonetdb.EventPrograms
import SqlxMonetdb.Handshake
import SqlxMonetdb.MessageStream

set_option autoImplicit false

namespace SqlxMonetdb.PerformHandshake
open TextPrimitives DriverError Framing MessageStream Handshake EventPrograms

section Streams

inductive Role where
  | challenge
  | reply
  | acknowledgement
  deriving DecidableEq

/-- Connections are numbered in the order in which they are opened. -/
inductive Event where
  | opened (host : Text) (port : UInt16)
  | wrote (connection : ℕ) (bytes : List UInt8)
  | received (connection : ℕ) (role : Role) (text : Text)
  deriving DecidableEq

def Event.opens : Event → Bool
  | .opened _ _ => true
  | _ => false

def connections (trace : List Event) : ℕ := trace.countP Event.opens

/-- The servers: what the connection with a number sends from its opening on, and the
outcome of a flush on it, from all that was put into it so far. -/
structure Network where
  connect : ℕ → Text → UInt16 → Except Error (List UInt8)
  flush : ℕ → List UInt8 → Except Error Unit

structure Link where
  number : ℕ
  stream : MonetStream
  deriving DecidableEq

abbrev Handshaking (α : Type) := Program Error Event α

def connect (network : Network) (host : Text) (port : UInt16) : Handshaking Link := fun trace =>
  match network.connect (connections trace) host port with
  | .error e => (.error e, trace)
  | .ok unread => (.ok ⟨connections trace, ⟨unread, []⟩⟩, trace ++ [.opened host port])

/-- Bytes put into the write buffer and flushed. They count as written also when the flush
fails: part of them may have left. -/
def put (network : Network) (link : Link) (bytes : List UInt8) : Handshaking Link := fun trace =>
  let stream := { link.stream with written := link.stream.written ++ bytes }
  ((network.flush link.number stream.written).map fun _ => { link with stream },
    trace ++ [.wrote link.number bytes])

def primeBytes : List UInt8 := List.replicate 8 0

def sendPrimeBytes (network : Network) (link : Link) : Handshaking Link :=
  put network link primeBytes

def message (payload : Text) : List UInt8 := encodeMessage (utf8Encode payload) []

def writeMessage (network : Network) (link : Link) (payload : Text) : Handshaking Link :=
  put network link (message payload)

def readTextMessage (link : Link) (role : Role) : Handshaking (Text × Link) := fun trace =>
  match MessageStream.readTextMessage link.stream with
  | (.error e, _) => (.error e, trace)
  | (.ok text, stream) =>
    (.ok (text, { link with stream }), trace ++ [.received link.number role text])

/-- The `?` behind a call that does not touch the stream. -/
def propagate {α : Type} (result : Except MonetError α) : Handshaking α := fun trace =>
  (result.mapError MonetError.toError, trace)

end Streams

section Attempts

variable (crates : HashCrates) (network : Network) (username password database : Text)

structure Variables where
  currentHost : Text
  currentPort : UInt16
  reusedStream : Option Link

def replySizeCommand : Text := "Xreply_size -1".toList

def openStream (vars : Variables) : Handshaking Link :=
  match vars.reusedStream with
  | some link => pure link
  | none => do
    let link ← connect network vars.currentHost vars.currentPort
    sendPrimeBytes network link

def answerChallenge (link : Link) : Handshaking Link := do
  let (challengeLine, link) ← readTextMessage link .challenge
  let challenge ← propagate (parseChallenge challengeLine)
  let (algo, passwordHash) ← propagate (computePasswordHash crates challenge password)
  let loginLine := buildLoginResponse challenge username algo passwordHash database .fresh
  writeMessage network link loginLine

/-- The runtime command that lifts the row limit; its reply is read and not looked at. -/
def sendReplySize (link : Link) : Handshaking Link := do
  let link ← writeMessage network link replySizeCommand
  let (_, link) ← readTextMessage link .acknowledgement
  pure link

def followReply (vars : Variables) (link : Link) (responseLine : Text) :
    Handshaking (Link ⊕ Variables) :=
  match parseLoginResponse responseLine with
  | .ok => do
    let link ← sendReplySize network link
    pure (.inl link)
  | .error message => throw (MonetError.handshake message).toError
  | .redirect target => do
    match ← propagate (parseRedirect target) with
    | .localRetry => pure (.inr { vars with reusedStream := some link })
    | .reconnect host port => pure (.inr ⟨host, port, none⟩)

def attempt (vars : Variables) : Handshaking (Link ⊕ Variables) := do
  let link ← openStream network vars
  let link ← answerChallenge crates network username password database link
  let (responseLine, link) ← readTextMessage link .reply
  followReply network vars link responseLine

def tooManyRedirects : Error :=
  (MonetError.handshake [.text "too many redirects (>10) during handshake"]).toError

def attempts : ℕ → Variables → Handshaking Link
  | 0, _ => throw tooManyRedirects
  | count + 1, vars => do
    match ← attempt crates network username password database vars with
    | .inl link => pure link
    | .inr vars => attempts count vars

def performHandshake (host : Text) (port : UInt16) : Handshaking Link :=
  attempts crates network username password database 10 ⟨host, port, none⟩

end Attempts

end SqlxMonetdb.PerformHandshake
