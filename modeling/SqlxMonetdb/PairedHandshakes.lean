import SqlxMonetdb.HandshakeOutcomes

set_option autoImplicit false

namespace SqlxMonetdb.PairedHandshakes
open TextPrimitives DriverError Framing FramingBlocks FramingPrefixes MessageStream Handshake
open EventPrograms PerformHandshake HandshakeOutcomes

section Streams

theorem readMessage_more (data more written : List UInt8) :
    (readMessage ⟨data, written⟩).1 = .error endOfStream ∨ ∃ m rest,
      readMessage ⟨data, written⟩ = (.ok m, ⟨rest, written⟩) ∧
      readMessage ⟨data ++ more, written⟩ = (.ok m, ⟨rest ++ more, written⟩) := by
  cases decoded : decodeMessage data with
  | none => exact .inl (readMessage_of_decodeMessage_none data written decoded)
  | some found =>
    obtain ⟨m, k⟩ := found
    have framed := blockSequence_iff_framed.mp (decodeMessage_iff.mp decoded).2
    have read := readMessage_framed framed (data.drop k) written
    have read' := readMessage_framed framed (data.drop k ++ more) written
    rw [List.take_append_drop] at read
    rw [← List.append_assoc, List.take_append_drop] at read'
    exact .inr ⟨m, data.drop k, read, read'⟩

theorem readTextMessage_more (data more written : List UInt8) :
    (MessageStream.readTextMessage ⟨data, written⟩).1 = .error endOfStream ∨ ∃ outcome rest,
      MessageStream.readTextMessage ⟨data, written⟩ = (outcome, ⟨rest, written⟩) ∧
      MessageStream.readTextMessage ⟨data ++ more, written⟩ = (outcome, ⟨rest ++ more, written⟩) := by
  unfold MessageStream.readTextMessage
  rcases readMessage_more data more written with ended | ⟨m, rest, read, read'⟩
  · left
    cases read : readMessage ⟨data, written⟩ with
    | mk outcome stream =>
      rw [read] at ended
      dsimp only at ended ⊢
      rw [ended]
  · right
    rw [read, read']
    dsimp only
    cases fromUtf8 m with
    | none => exact ⟨_, rest, rfl, rfl⟩
    | some text => exact ⟨_, rest, rfl, rfl⟩

end Streams

section Pairs

/-- The passwords have the same digest under the algorithm the challenge asks for. -/
def SameDigest (crates : HashCrates) (password password' line : Text) : Prop :=
  ∀ challenge, parseChallenge line = .ok challenge →
    hashHex crates challenge.serverHash (utf8Encode password') =
      hashHex crates challenge.serverHash (utf8Encode password)

def Alike (crates : HashCrates) (password password' : Text) : Event → Prop
  | .received _ .challenge line => SameDigest crates password password' line
  | _ => True

/-- What the second server sends: the same, or more if the first client may have to wait. -/
def Sends (stop : Error → Prop) (bytes bytes' : List UInt8) : Prop :=
  bytes' = bytes ∨ stop endOfStream ∧ bytes <+: bytes'

structure SendsMore (stop : Error → Prop) (network network' : Network) : Prop where
  connect : ∀ n host port,
    Matches (Sends stop) (network.connect n host port) (network'.connect n host port)
  flush : network'.flush = network.flush

structure Behind (stop : Error → Prop) (link link' : Link) : Prop where
  number : link'.number = link.number
  written : link'.stream.written = link.stream.written
  sends : Sends stop link.stream.unread link'.stream.unread

variable {crates : HashCrates} {network network' : Network} {username database : Text}
  {password password' : Text} {stop : Error → Prop} {link link' : Link}

theorem connect_appends (host : Text) (port : UInt16) : Appends (connect network host port) := by
  intro trace
  unfold connect
  cases network.connect (connections trace) host port with
  | error e => exact List.prefix_rfl
  | ok unread => exact List.prefix_append _ _

theorem readTextMessage_appends (link : Link) (role : Role) :
    Appends (PerformHandshake.readTextMessage link role) := by
  intro trace
  unfold PerformHandshake.readTextMessage
  rcases MessageStream.readTextMessage link.stream with ⟨e | text, stream⟩
  · exact List.prefix_rfl
  · exact List.prefix_append _ _

variable (good : Event → Prop)

theorem connect_follows (more : SendsMore stop network network') (host : Text) (port : UInt16) :
    Follows good stop (Behind stop) (connect network host port) (connect network' host port) := by
  intro trace _
  unfold connect
  have matching := more.connect (connections trace) host port
  generalize network.connect (connections trace) host port = opened at matching
  generalize network'.connect (connections trace) host port = opened' at matching
  cases matching with
  | error e => exact .inr ⟨rfl, .error e⟩
  | ok sends => exact .inr ⟨rfl, .ok ⟨rfl, rfl, sends⟩⟩

theorem put_follows (more : SendsMore stop network network') (behind : Behind stop link link')
    (bytes : List UInt8) :
    Follows good stop (Behind stop) (put network link bytes) (put network' link' bytes) := by
  obtain ⟨number, written, sends⟩ := behind
  unfold put
  rw [number, written, more.flush]
  refine Follows.event fun _ => ?_
  cases network.flush link.number (link.stream.written ++ bytes) with
  | error e => exact .error e
  | ok _ => exact .ok ⟨rfl, rfl, sends⟩

theorem readTextMessage_follows (behind : Behind stop link link') (role : Role) :
    Follows good stop (fun got got' => got'.1 = got.1 ∧ Behind stop got.2 got'.2 ∧
        good (.received link.number role got.1))
      (PerformHandshake.readTextMessage link role)
      (PerformHandshake.readTextMessage link' role) := by
  obtain ⟨n, unread, written⟩ := link
  obtain ⟨n', unread', written'⟩ := link'
  obtain ⟨rfl, rfl, sends⟩ := behind
  intro trace all
  unfold PerformHandshake.readTextMessage at all ⊢
  dsimp only at all ⊢ sends
  rcases sends with rfl | ⟨stopped, more, rfl⟩
  · cases read : MessageStream.readTextMessage ⟨unread', written'⟩ with
    | mk outcome stream =>
      rw [read] at all
      cases outcome with
      | error e => exact .inr ⟨rfl, .error e⟩
      | ok text => exact .inr ⟨rfl, .ok ⟨rfl, ⟨rfl, rfl, .inl rfl⟩, all _ (by simp)⟩⟩
  · rcases readTextMessage_more unread more written' with ended | ⟨outcome, rest, read, read'⟩
    · cases read : MessageStream.readTextMessage ⟨unread, written'⟩ with
      | mk outcome stream =>
        rw [read] at ended
        dsimp only at ended
        subst ended
        exact .inl ⟨endOfStream, stopped, rfl, readTextMessage_appends ⟨n', ⟨_, written'⟩⟩ role trace⟩
    · rw [read] at all ⊢
      rw [read']
      cases outcome with
      | error e => exact .inr ⟨rfl, .error e⟩
      | ok text =>
        refine .inr ⟨rfl, .ok ⟨rfl, ⟨rfl, rfl, .inr ⟨stopped, List.prefix_append _ _⟩⟩, ?_⟩⟩
        exact all _ (by simp)

theorem propagate_follows {α : Type} (result : Except MonetError α) :
    Follows good stop (fun a b => b = a ∧ result = .ok a) (propagate result) (propagate result) := by
  intro trace _
  unfold propagate
  cases result with
  | error e => exact .inr ⟨rfl, .error _⟩
  | ok a => exact .inr ⟨rfl, .ok ⟨rfl, rfl⟩⟩

end Pairs

section Appending

variable (crates : HashCrates) (network : Network) (username password database : Text)

theorem put_appends (link : Link) (bytes : List UInt8) : Appends (put network link bytes) :=
  fun _ => List.prefix_append _ _

theorem propagate_appends {α : Type} (result : Except MonetError α) : Appends (propagate result) :=
  fun _ => List.prefix_rfl

theorem openStream_appends (vars : Variables) : Appends (openStream network vars) := by
  unfold openStream
  cases vars.reusedStream with
  | some link => exact .pure link
  | none => exact (connect_appends _ _).bind fun link => put_appends network link primeBytes

theorem answerChallenge_appends (link : Link) :
    Appends (answerChallenge crates network username password database link) := by
  unfold answerChallenge
  refine (readTextMessage_appends link _).bind fun got => ?_
  refine (propagate_appends _).bind fun challenge => ?_
  exact (propagate_appends _).bind fun hashed => put_appends network _ _

theorem sendReplySize_appends (link : Link) : Appends (sendReplySize network link) := by
  unfold sendReplySize
  refine (put_appends network link _).bind fun link => ?_
  exact (readTextMessage_appends link _).bind fun got => .pure _

theorem followReply_appends (vars : Variables) (link : Link) (reply : Text) :
    Appends (followReply network vars link reply) := by
  unfold followReply
  cases parseLoginResponse reply with
  | ok => exact (sendReplySize_appends network link).bind fun link => .pure _
  | error message => exact .throw _
  | redirect target =>
    refine (propagate_appends _).bind fun redirect => ?_
    cases redirect <;> exact .pure _

theorem attempt_appends (vars : Variables) :
    Appends (attempt crates network username password database vars) := by
  unfold attempt
  refine (openStream_appends network vars).bind fun link => ?_
  refine (answerChallenge_appends crates network username password database link).bind fun link => ?_
  exact (readTextMessage_appends link _).bind fun got => followReply_appends network vars _ _

theorem attempts_appends (count : ℕ) (vars : Variables) :
    Appends (attempts crates network username password database count vars) := by
  induction count generalizing vars with
  | zero => exact .throw _
  | succ count ih =>
    refine (attempt_appends crates network username password database vars).bind fun outcome => ?_
    cases outcome with
    | inl link => exact .pure link
    | inr vars => exact ih vars

end Appending

section Handshakes

variable {crates : HashCrates} {network network' : Network} {password password' : Text}
  {stop : Error → Prop} {link link' : Link} (username database : Text)
  (more : SendsMore stop network network')

structure SameVariables (stop : Error → Prop) (vars vars' : Variables) : Prop where
  host : vars'.currentHost = vars.currentHost
  port : vars'.currentPort = vars.currentPort
  reused : Option.Rel (Behind stop) vars.reusedStream vars'.reusedStream

include more

theorem openStream_follows (good : Event → Prop) {vars vars' : Variables}
    (same : SameVariables stop vars vars') :
    Follows good stop (Behind stop) (openStream network vars) (openStream network' vars') := by
  obtain ⟨host, port, reused⟩ := vars
  obtain ⟨host', port', reused'⟩ := vars'
  obtain ⟨rfl, rfl, related⟩ := same
  cases related with
  | some behind => exact .pure behind
  | none =>
    exact (connect_follows good more host' port').bind
      (fun link link' behind => put_follows good more behind primeBytes)
      (fun link => put_appends network link _) fun link' => put_appends network' link' _

theorem answerChallenge_follows (behind : Behind stop link link') :
    Follows (Alike crates password password') stop (Behind stop)
      (answerChallenge crates network username password database link)
      (answerChallenge crates network' username password' database link') := by
  unfold answerChallenge
  refine (readTextMessage_follows _ behind .challenge).bind ?_ (fun got => ?_) fun got => ?_
  · rintro ⟨line, link⟩ ⟨line', link'⟩ ⟨rfl, behind, alike⟩
    dsimp only at alike behind ⊢
    refine (propagate_follows _ (parseChallenge line')).bind ?_ (fun challenge => ?_) fun challenge => ?_
    · rintro _ challenge ⟨rfl, parsed⟩
      have same : computePasswordHash crates challenge password' =
          computePasswordHash crates challenge password := by
        unfold computePasswordHash
        rw [alike challenge parsed]
      rw [same]
      refine (propagate_follows _ _).bind ?_ (fun hashed => put_appends network _ _)
        fun hashed => put_appends network' _ _
      rintro _ ⟨algo, hash⟩ ⟨rfl, -⟩
      exact put_follows _ more behind _
    · exact (propagate_appends _).bind fun hashed => put_appends network _ _
    · exact (propagate_appends _).bind fun hashed => put_appends network' _ _
  · exact (propagate_appends _).bind fun challenge =>
      (propagate_appends _).bind fun hashed => put_appends network _ _
  · exact (propagate_appends _).bind fun challenge =>
      (propagate_appends _).bind fun hashed => put_appends network' _ _

theorem sendReplySize_follows (good : Event → Prop) (behind : Behind stop link link') :
    Follows good stop (Behind stop) (sendReplySize network link) (sendReplySize network' link') := by
  unfold sendReplySize
  refine (put_follows good more behind _).bind ?_
    (fun link => (readTextMessage_appends link _).bind fun got => .pure _)
    fun link => (readTextMessage_appends link _).bind fun got => .pure _
  intro link link' behind
  refine (readTextMessage_follows good behind _).bind ?_ (fun got => .pure _) fun got => .pure _
  rintro ⟨ack, link⟩ ⟨ack', link'⟩ ⟨-, behind, -⟩
  exact .pure behind

inductive SameOutcome (stop : Error → Prop) : Link ⊕ Variables → Link ⊕ Variables → Prop where
  | done {link link' : Link} (behind : Behind stop link link') : SameOutcome stop (.inl link) (.inl link')
  | again {vars vars' : Variables} (same : SameVariables stop vars vars') :
      SameOutcome stop (.inr vars) (.inr vars')

theorem followReply_follows (good : Event → Prop) {vars vars' : Variables}
    (same : SameVariables stop vars vars') (behind : Behind stop link link') (reply : Text) :
    Follows good stop (SameOutcome stop) (followReply network vars link reply)
      (followReply network' vars' link' reply) := by
  unfold followReply
  cases parseLoginResponse reply with
  | ok =>
    exact (sendReplySize_follows more good behind).bind (fun _ _ behind => .pure (.done behind))
      (fun _ => .pure _) fun _ => .pure _
  | error message => exact .throw _
  | redirect target =>
    refine (propagate_follows good (parseRedirect target)).bind ?_ (fun redirect => ?_)
      fun redirect => ?_
    · rintro _ redirect ⟨rfl, -⟩
      cases redirect with
      | localRetry => exact .pure (.again ⟨same.host, same.port, .some behind⟩)
      | reconnect host port => exact .pure (.again ⟨rfl, rfl, .none⟩)
    · cases redirect <;> exact .pure _
    · cases redirect <;> exact .pure _

theorem attempt_follows {vars vars' : Variables} (same : SameVariables stop vars vars') :
    Follows (Alike crates password password') stop (SameOutcome stop)
      (attempt crates network username password database vars)
      (attempt crates network' username password' database vars') := by
  unfold attempt
  refine (openStream_follows more _ same).bind ?_ (fun link => ?_) fun link => ?_
  · intro link link' behind
    refine (answerChallenge_follows username database more behind).bind ?_ (fun link => ?_)
      fun link => ?_
    · intro link link' behind
      refine (readTextMessage_follows _ behind .reply).bind ?_
        (fun got => followReply_appends network _ _ _) fun got => followReply_appends network' _ _ _
      rintro ⟨reply, link⟩ ⟨reply', link'⟩ ⟨rfl, behind, -⟩
      exact followReply_follows more _ same behind _
    · exact (readTextMessage_appends link _).bind fun got => followReply_appends network _ _ _
    · exact (readTextMessage_appends link _).bind fun got => followReply_appends network' _ _ _
  · exact (answerChallenge_appends crates network username password database link).bind fun link =>
      (readTextMessage_appends link _).bind fun got => followReply_appends network _ _ _
  · exact (answerChallenge_appends crates network' username password' database link).bind fun link =>
      (readTextMessage_appends link _).bind fun got => followReply_appends network' _ _ _

theorem attempts_follows (count : ℕ) {vars vars' : Variables} (same : SameVariables stop vars vars') :
    Follows (Alike crates password password') stop (Behind stop)
      (attempts crates network username password database count vars)
      (attempts crates network' username password' database count vars') := by
  induction count generalizing vars vars' with
  | zero => exact .throw _
  | succ count ih =>
    refine (attempt_follows username database more same).bind ?_ (fun outcome => ?_)
      fun outcome => ?_
    · intro outcome outcome' next
      cases next with
      | done behind => exact .pure behind
      | again same => exact ih same
    · cases outcome with
      | inl link => exact .pure link
      | inr vars => exact attempts_appends crates network username password database count vars
    · cases outcome with
      | inl link => exact .pure link
      | inr vars => exact attempts_appends crates network' username password' database count vars

theorem performHandshake_follows (host : Text) (port : UInt16) :
    Follows (Alike crates password password') stop (Behind stop)
      (performHandshake crates network username password database host port)
      (performHandshake crates network' username password' database host port) :=
  attempts_follows username database more 10 ⟨rfl, rfl, .none⟩

end Handshakes

section Results

variable {crates : HashCrates} {network network' : Network} {password password' : Text}

/-- The digests of the password that the challenges ask for are all a handshake shows of it:
with another password that has the same ones, it does and returns just the same. -/
theorem password_concealed (username database host : Text) (port : UInt16)
    (alike : ∀ event ∈ (performHandshake crates network username password database host port []).2,
      Alike crates password password' event) :
    performHandshake crates network username password' database host port [] =
      performHandshake crates network username password database host port [] := by
  have same : SendsMore (fun _ => False) network network := by
    refine ⟨fun n host port => ?_, rfl⟩
    cases network.connect n host port with
    | error e => exact .error e
    | ok unread => exact .ok (.inl rfl)
  rcases performHandshake_follows username database same host port [] alike with
    ⟨e, never, -⟩ | ⟨trace, matching⟩
  · exact absurd never not_false
  · refine Prod.ext ?_ trace
    generalize (performHandshake crates network username password database host port []).1 = outcome
      at matching ⊢
    generalize (performHandshake crates network username password' database host port []).1 =
      outcome' at matching ⊢
    cases matching with
    | error e => rfl
    | @ok link link' behind =>
      obtain ⟨n, unread, written⟩ := link
      obtain ⟨n', unread', written'⟩ := link'
      obtain ⟨rfl, rfl, rfl | ⟨never, -⟩⟩ := behind
      · rfl
      · exact absurd never not_false

theorem password_concealed_collision :
    let outcome := performHandshake exampleCrates (exampleNetwork 0 []) "monetdb".toList
      "secret".toList "db".toList "localhost".toList 50000 []
    .wrote 0 exampleLogin ∈ outcome.2 ∧
    performHandshake exampleCrates (exampleNetwork 0 []) "monetdb".toList "another".toList
      "db".toList "localhost".toList 50000 [] = outcome := by
  intro outcome
  have trace : outcome.2 = [.opened "localhost".toList 50000, .wrote 0 primeBytes,
      .received 0 .challenge exampleChallenge, .wrote 0 exampleLogin,
      .received 0 .reply "=OK".toList, .wrote 0 (message replySizeCommand),
      .received 0 .acknowledgement []] := by
    decide +kernel
  refine ⟨by rw [trace]; simp, password_concealed _ _ _ _ fun event mem => ?_⟩
  change event ∈ outcome.2 at mem
  rw [trace] at mem
  simp only [List.mem_cons, List.not_mem_nil, or_false] at mem
  rcases mem with rfl | rfl | rfl | rfl | rfl | rfl | rfl
  · trivial
  · trivial
  · intro challenge parsed
    have asks : (parseChallenge exampleChallenge).map Challenge.serverHash = .ok "SHA1".toList := by
      decide
    rw [parsed] at asks
    rw [Except.ok.inj asks]
    decide +kernel
  all_goals trivial

/-- What arrives later changes nothing that was done: a handshake that did not run out of
bytes ends in the same way, whatever else the servers have sent by then, and one that did
goes on from where it stood. -/
theorem performHandshake_arrivals (more : SendsMore (· = endOfStream) network network')
    (username database host : Text) (port : UInt16) :
    let before := performHandshake crates network username password database host port []
    let after := performHandshake crates network' username password database host port []
    (before.1 = .error endOfStream ∧ before.2 <+: after.2) ∨
      (after.2 = before.2 ∧ Matches (Behind (· = endOfStream)) before.1 after.1) := by
  intro before after
  have alike : ∀ event ∈ before.2, Alike crates password password event := by
    intro event _
    unfold Alike
    split
    · exact fun challenge _ => rfl
    · trivial
  rcases performHandshake_follows username database more host port [] alike with
    ⟨e, rfl, ended, further⟩ | same
  · exact .inl ⟨ended, further⟩
  · exact .inr same

/-- A server whose messages have arrived up to a number of bytes. -/
def arrivedNetwork (count : ℕ) : Network where
  connect _ _ _ := .ok ((retrying [] 1).take count)
  flush _ _ := .ok ()

theorem performHandshake_arrivals_partial :
    let before := performHandshake exampleCrates (arrivedNetwork 40) "monetdb".toList
      "monetdb".toList "db".toList "localhost".toList 50000 []
    let after := performHandshake exampleCrates (exampleNetwork 1 []) "monetdb".toList
      "monetdb".toList "db".toList "localhost".toList 50000 []
    (before.1 = .error endOfStream ∧ before.2 <+: after.2) ∨
      (after.2 = before.2 ∧ Matches (Behind (· = endOfStream)) before.1 after.1) :=
  have more : SendsMore (· = endOfStream) (arrivedNetwork 40) (exampleNetwork 1 []) :=
    ⟨fun _ _ _ => .ok (.inr ⟨rfl, List.take_prefix _ _⟩), rfl⟩
  performHandshake_arrivals more "monetdb".toList "db".toList "localhost".toList 50000

end Results

end SqlxMonetdb.PairedHandshakes
