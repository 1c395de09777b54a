import SqlxMonetdb.ConnectOptions
import SqlxMonetdb.HandshakeOrder
import SqlxMonetdb.HandshakeOutcomes
import SqlxMonetdb.Session

set_option autoImplicit false

namespace SqlxMonetdb.Transcripts
open TextPrimitives DriverError FramingBlocks MessageStream Handshake LabelledRuns EventPrograms
open PerformHandshake HandshakeMachine HandshakeOrder Conversations HandshakeOutcomes Connection
open ConnectOptions Session

section Accounting

def receivedOn (c : ℕ) : Event → Option Text
  | .received d _ text => if d = c then some text else none
  | _ => none

def received (c : ℕ) (trace : List Event) : List Text := trace.filterMap (receivedOn c)

abbrev Framings (wires : List (List UInt8)) (texts : List Text) : Prop :=
  List.Forall₂ (fun wire text => Framed wire (utf8Encode text)) wires texts

/-- Nothing has happened on connections that are not open yet. -/
def Silent (trace : List Event) : Prop :=
  ∀ c, connections trace ≤ c → received c trace = [] ∧ written c trace = []

/-- The trace holds all that was read off the connection and all that was written on it. -/
structure Accounts (network : Network) (link : Link) (trace : List Event) : Prop where
  later : Silent trace
  number : connections trace = link.number + 1
  read : ∃ host port unread wires, network.connect link.number host port = .ok unread ∧
    Framings wires (received link.number trace) ∧ unread = wires.flatten ++ link.stream.unread
  wrote : link.stream.written = (written link.number trace).flatten

variable {network : Network} {link : Link} {trace : List Event}

theorem received_concat (c : ℕ) (past : List Event) (e : Event) :
    received c (past ++ [e]) = received c past ++ (receivedOn c e).toList := by
  rw [received, received, List.filterMap_append]
  cases h : receivedOn c e <;> simp [h]

theorem Silent.event (silent : Silent trace) {e : Event} (opens : e.opens = false) {n : ℕ}
    (isOpen : n < connections trace)
    (other : ∀ c, c ≠ n → receivedOn c e = none ∧ writtenOn c e = none) : Silent (trace ++ [e]) := by
  intro c unopened
  rw [connections_append, opens, if_neg Bool.false_ne_true, Nat.add_zero] at unopened
  obtain ⟨notReceived, notWritten⟩ := other c (by omega)
  obtain ⟨nothing, nothing'⟩ := silent c unopened
  rw [received_concat, written_concat, notReceived, notWritten, nothing, nothing']
  exact ⟨rfl, rfl⟩

theorem Accounts.put (accounts : Accounts network link trace) (bytes : List UInt8) :
    Accounts network ⟨link.number, link.stream.unread, link.stream.written ++ bytes⟩
      (trace ++ [.wrote link.number bytes]) where
  later := accounts.later.event rfl (by rw [accounts.number]; exact Nat.lt_succ_self _)
    fun c different => ⟨rfl, if_neg different.symm⟩
  number := by
    rw [connections_append, accounts.number]
    rfl
  read := by
    obtain ⟨host, port, unread, wires, opened, framings, whole⟩ := accounts.read
    refine ⟨host, port, unread, wires, opened, ?_, whole⟩
    simpa [received_concat, receivedOn] using framings
  wrote := by
    simp only [written_concat, writtenOn, if_pos, Option.toList_some, List.flatten_append,
      List.flatten_singleton, accounts.wrote]

theorem Accounts.take (accounts : Accounts network link trace) {wire rest : List UInt8}
    {text : Text} (role : Role) (framed : Framed wire (utf8Encode text))
    (sent : link.stream.unread = wire ++ rest) :
    Accounts network ⟨link.number, rest, link.stream.written⟩
      (trace ++ [.received link.number role text]) where
  later := accounts.later.event rfl (by rw [accounts.number]; exact Nat.lt_succ_self _)
    fun c different => ⟨if_neg different.symm, rfl⟩
  number := by
    rw [connections_append, accounts.number]
    rfl
  read := by
    obtain ⟨host, port, unread, wires, opened, framings, whole⟩ := accounts.read
    refine ⟨host, port, unread, wires ++ [wire], opened, ?_, ?_⟩
    · simp only [received_concat, receivedOn, if_pos, Option.toList_some]
      exact List.rel_append framings (.cons framed .nil)
    · rw [whole, sent]
      simp
  wrote := by
    simp only [written_concat, writtenOn, Option.toList_none, List.append_nil, accounts.wrote]

end Accounting

section Handshakes

variable {crates : HashCrates} {network : Network} {username password database : Text}
  {link link' : Link} {vars : Variables} {trace after between : List Event}

theorem accounts_open {host : Text} {port : UInt16} (silent : Silent trace)
    (opened : openStream network ⟨host, port, none⟩ trace = (.ok link, after)) :
    Accounts network link after := by
  obtain ⟨unread, ⟨connected, -⟩, rfl, rfl⟩ := openStream_eq_ok.mp opened
  obtain ⟨notReceived, notWritten⟩ := silent (connections trace) (le_refl _)
  have fresh : Accounts network ⟨connections trace, unread, []⟩ (trace ++ [.opened host port]) := by
    have counted : connections (trace ++ [.opened host port]) = connections trace + 1 :=
      connections_append trace _
    refine ⟨fun c unopened => ?_, counted, ⟨host, port, unread, [], connected, ?_, rfl⟩, ?_⟩
    · rw [counted] at unopened
      rw [received_concat, written_concat]
      simpa [receivedOn, writtenOn] using silent c (by omega)
    · rw [received_concat, notReceived]
      exact .nil
    · rw [written_concat, notWritten]
      rfl
  have primed := fresh.put primeBytes
  simpa using primed

theorem accounts_openStream (silent : Silent trace)
    (reused : ∀ link, vars.reusedStream = some link → Accounts network link trace)
    (opened : openStream network vars trace = (.ok link, after)) : Accounts network link after := by
  obtain ⟨host, port, stream⟩ := vars
  cases stream with
  | none => exact accounts_open silent opened
  | some link₀ =>
    have same := (@openStream_reused network link₀ ⟨host, port, some link₀⟩ trace rfl).symm.trans opened
    cases same
    exact reused link rfl

theorem Accounts.exchange (accounts : Accounts network link trace) {line reply : Text}
    {bytes : List UInt8}
    (exchange : Exchange crates network username password database link line bytes reply link') :
    Accounts network link' (trace ++ [.received link.number .challenge line,
      .wrote link.number bytes, .received link.number .reply reply]) := by
  obtain ⟨challengeWire, replyWire, challenged, replied, sent⟩ := exchange.sent
  have read := ((accounts.take .challenge challenged sent).put bytes).take .reply replied rfl
  rw [exchange.after]
  simpa using read

theorem Accounts.sendReplySize (accounts : Accounts network link trace)
    (sent : sendReplySize network link trace = (.ok link', after)) :
    Accounts network link' after := by
  obtain ⟨ack, wire, rest, -, framed, held, rfl, rfl⟩ := sendReplySize_eq_ok.mp sent
  exact (accounts.put (message replySizeCommand)).take .acknowledgement framed held

theorem accounts_of_attempts (count : ℕ) (silent : Silent trace)
    (reused : ∀ link, vars.reusedStream = some link → Accounts network link trace)
    (h : attempts crates network username password database count vars trace = (.ok link', after)) :
    Accounts network link' after := by
  induction count generalizing vars trace with
  | zero => cases h
  | succ count ih =>
    obtain ⟨outcome, t, attempted, rest⟩ := bind_eq_ok.mp h
    obtain ⟨link, between, line, bytes, reply, mid, opened, exchange, followed⟩ :=
      exchange_of_attempt attempted
    have accounts := (accounts_openStream silent reused opened).exchange exchange
    cases replied : parseLoginResponse reply with
    | ok =>
      rw [followReply_accepted replied] at followed
      obtain ⟨last, t', lifted, ended⟩ := bind_eq_ok.mp followed
      obtain ⟨rfl, rfl⟩ := pure_eq_ok.mp ended
      obtain ⟨rfl, rfl⟩ := pure_eq_ok.mp rest
      exact accounts.sendReplySize lifted
    | error message =>
      rw [followReply, replied] at followed
      cases followed
    | redirect target =>
      cases parsed : parseRedirect target with
      | error e =>
        rw [followReply, replied] at followed
        obtain ⟨redirect, t', checked, -⟩ := bind_eq_ok.mp followed
        rw [(propagate_eq_ok.mp checked).1] at parsed
        cases parsed
      | ok redirect =>
        rw [followReply_redirect replied parsed] at followed
        cases followed
        refine ih accounts.later (fun link₀ same => ?_) rest
        cases redirect with
        | localRetry =>
          cases same
          exact accounts
        | reconnect host port => cases same

theorem accounts_of_performHandshake {host : Text} {port : UInt16}
    (h : performHandshake crates network username password database host port [] =
      (.ok link, trace)) : Accounts network link trace :=
  accounts_of_attempts 10 (fun c _ => ⟨rfl, rfl⟩) (fun link₀ same => by cases same) h

theorem writes_of_performHandshake {host : Text} {port : UInt16}
    (h : performHandshake crates network username password database host port [] =
      (.ok link, trace)) :
    ∃ logins, List.Forall₂ (LoginFor crates username password database)
        (challenges link.number trace) logins ∧
      written link.number trace = primeBytes :: (logins ++ [message replySizeCommand]) := by
  obtain ⟨u, run, -, finished⟩ :=
    performHandshake_runs crates username password database network host port
  rw [h] at run finished
  obtain rfl := finished link rfl
  exact (carries_of_run run).current link.number rfl

end Handshakes

section Sessions

/-- The whole of a connection: the server has sent whole handshake messages and then the
replies; the client has sent the prime bytes, a login for every challenge, the command and
the requests of the session, whose calls yield the replies in their order. -/
structure Transcript (crates : HashCrates) (network : Network) (options : MonetConnectOptions)
    (trace : List Event) (replies : List Reply) (calls : List Call)
    (outcome : List (List Item) × MonetConnection) : Prop where
  handshake : ∃ number host port unread greeting logins,
    network.connect number host port = .ok unread ∧
    Framings greeting (received number trace) ∧ unread = greeting.flatten ++ wires replies ∧
    List.Forall₂ (LoginFor crates options.username options.password options.database)
      (challenges number trace) logins ∧
    outcome.2.stream.written = primeBytes ++ logins.flatten ++ message replySizeCommand ++
      ((sentQueries calls).map request).flatten
  yielded : outcome.1 = (outputs ReplyQueue.call calls ⟨replies, []⟩).1
  unread : outcome.2.stream.unread = wires (replies.drop (sentQueries calls).length)

/-- Every connection that is opened has its transcript. -/
theorem connection_transcript {crates : HashCrates} {network : Network}
    {options : MonetConnectOptions} {conn : MonetConnection} {trace : List Event}
    (connected : options.connect crates network [] = (.ok conn, trace)) {replies : List Reply}
    (sends : conn.stream.unread = wires replies) (calls : List Call) :
    Transcript crates network options trace replies calls (outputs runCall calls conn) := by
  rw [connect_eq] at connected
  obtain ⟨returned, rfl⟩ := end_eq_ok.mp connected
  obtain ⟨link, ended, rfl⟩ := map_eq_ok.mp returned
  have succeeded := Prod.ext (y := (Except.ok link, _)) ended rfl
  obtain ⟨-, -, ⟨host, port, unread, greeting, opened, framings, whole⟩, wrote⟩ :=
    accounts_of_performHandshake succeeded
  obtain ⟨logins, answered, writes⟩ := writes_of_performHandshake succeeded
  have start : Represents link.stream.written ⟨link.stream⟩ ⟨replies, []⟩ := ⟨sends, by simp⟩
  obtain ⟨yielded, after⟩ := outputs_simulation (R := Represents link.stream.written)
    (fun _ _ call h => represents_call h call) calls start
  rw [queue_state] at after
  dsimp only at sends
  refine ⟨⟨link.number, host, port, unread, greeting, logins, opened, framings, ?_, answered, ?_⟩,
    yielded, after.unread⟩
  · rw [whole, sends]
  · rw [after.written, wrote, writes]
    simp

def servedReplies : List Reply :=
  [⟨_, _, framed_encodeMessage (utf8Encode "&2 1 -1".toList)⟩,
    ⟨_, _, framed_encodeMessage (utf8Encode "&2 2 -1".toList)⟩]

/-- The first server names a second one, which retries once and then serves queries. -/
def servingNetwork : Network where
  connect n _ _ := .ok (if n = 0 then message exampleChallenge ++ message ('^' :: exampleMove)
    else retrying [] 1 ++ wires servedReplies)
  flush _ _ := .ok ()

def exampleOptions : MonetConnectOptions :=
  ⟨"localhost".toList, 50000, "monetdb".toList, "monetdb".toList, "db".toList⟩

def exampleCalls : List Call :=
  [⟨"DELETE FROM t".toList, .ok none⟩, ⟨"DELETE FROM u".toList, .error []⟩,
    ⟨"DELETE FROM v".toList, .ok none⟩]

theorem connection_transcript_moved : ∃ conn trace,
    exampleOptions.connect exampleCrates servingNetwork [] = (.ok conn, trace) ∧
      challenges 0 trace = [exampleChallenge] ∧
      challenges 1 trace = [exampleChallenge, exampleChallenge] ∧
      Transcript exampleCrates servingNetwork exampleOptions trace servedReplies exampleCalls
        (outputs runCall exampleCalls conn) := by
  have connected : (exampleOptions.connect exampleCrates servingNetwork []).1.map
      (fun conn => conn.stream.unread) = .ok (wires servedReplies) := by decide +kernel
  obtain ⟨conn, returned, unread⟩ := map_eq_ok.mp connected
  have carried : challenges 0 (exampleOptions.connect exampleCrates servingNetwork []).2 =
      [exampleChallenge] ∧
      challenges 1 (exampleOptions.connect exampleCrates servingNetwork []).2 =
        [exampleChallenge, exampleChallenge] := by
    constructor <;> decide +kernel
  cases outcome : exampleOptions.connect exampleCrates servingNetwork [] with
  | mk result trace =>
    rw [outcome] at returned carried
    dsimp only at returned carried
    subst returned
    exact ⟨conn, trace, rfl, carried.1, carried.2,
      connection_transcript outcome unread exampleCalls⟩

end Sessions

end SqlxMonetdb.Transcripts
