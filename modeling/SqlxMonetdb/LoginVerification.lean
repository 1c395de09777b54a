import SqlxMonetdb.ChallengeLines
import SqlxMonetdb.HandshakeOrder
import SqlxMonetdb.LoginLine

set_option autoImplicit false

namespace SqlxMonetdb.LoginVerification
open ListSplitting TextPrimitives DriverError Framing FramingBlocks Handshake LoginLine LabelledRuns
open PerformHandshake HandshakeMachine HandshakeOrder HandshakeOutcomes
open ChallengeLines (ChallengeParts parseChallenge_line typicalParts)

section Server

/-- The fields of a login message, cut at every colon. -/
def readLogin (bytes : List UInt8) : Option (List Text) :=
  ((decodeMessage bytes).bind fun found => fromUtf8 found.1).map (·.splitOn ':')

def passwordField : Text → Option (Text × Text)
  | '{' :: rest =>
    match rest.splitOn '}' with
    | [algo, hash] => some (algo, hash)
    | _ => none
  | _ => none

structure Account where
  username : Text
  stored : Text

/-- The algorithms of the protocol, in the order the driver prefers them. -/
def algorithms (crates : HashCrates) : List (Text × (List UInt8 → List UInt8)) :=
  [("RIPEMD160".toList, crates.ripemd160), ("SHA512".toList, crates.sha512),
    ("SHA384".toList, crates.sha384), ("SHA256".toList, crates.sha256),
    ("SHA224".toList, crates.sha224), ("SHA1".toList, crates.sha1)]

def serverHex (crates : HashCrates) (algorithm : Text) (data : List UInt8) : Option Text :=
  ((algorithms crates).lookup algorithm).map fun digest => crates.hexEncode (digest data)

def Preferred (crates : HashCrates) (offered : List Text) (algo : Text) : Prop :=
  algo ∈ offered ∧ ∀ other ∈ offered, ((algorithms crates).map Prod.fst).idxOf algo ≤
    ((algorithms crates).map Prod.fst).idxOf other

/-- The check of a login for an account and a database, by a server that put its own values
in its challenge. -/
def verifies (crates : HashCrates) (account : Account) (database : Text) (parts : ChallengeParts)
    (bytes : List UInt8) : Bool :=
  match readLogin bytes with
  | some fields =>
    match fields[2]?.bind passwordField with
    | some (algo, hash) => fields[1]? = some account.username ∧ fields[4]? = some database ∧
      algo ∈ parts.hashes ∧
      serverHex crates algo (utf8Encode account.stored ++ utf8Encode parts.salt) = some hash
    | none => false
  | none => false

end Server

section Logins

variable {crates : HashCrates} {username password database line algo hash : Text}
  {bytes : List UInt8} {challenge : Challenge}

theorem readLogin_message (text : Text) : readLogin (message text) = some (text.splitOn ':') := by
  have decoded := decodeMessage_framed (framed_encodeMessage (utf8Encode text)) []
  rw [List.append_nil] at decoded
  rw [readLogin, message, decoded, Option.bind_some, fromUtf8_utf8Encode, Option.map_some]

theorem passwordField_of_not_mem (plainAlgo : '}' ∉ algo) (plainHash : '}' ∉ hash) :
    passwordField ('{' :: algo ++ '}' :: hash) = some (algo, hash) := by
  have cut : (algo ++ '}' :: hash).splitOn '}' = [algo, hash] := by
    rw [List.splitOn_append_cons_self_of_not_mem plainAlgo, List.splitOn_eq_singleton plainHash]
  rw [List.cons_append, passwordField, cut]

theorem isHexDigit_of_hashHex (hex : ∀ data, ∀ c ∈ crates.hexEncode data, isHexDigit c = true)
    {data : List UInt8} (h : hashHex crates algo data = some hash) :
    ∀ c ∈ hash, isHexDigit c = true := by
  obtain ⟨digest, -, rfl⟩ := Option.map_eq_some_iff.mp h
  exact hex _

theorem hashHex_eq_serverHex (algorithm : Text) (data : List UInt8) :
    hashHex crates algorithm data = serverHex crates algorithm data := by
  have found {α : Type} (name : Text) (a : α) (others : List (Text × α)) :
      ((name, a) :: others).lookup algorithm =
        if algorithm = name then some a else others.lookup algorithm := by
    by_cases same : algorithm = name
    · simp [same]
    · simp [same, List.lookup_cons, beq_eq_false_iff_ne.mpr same]
  unfold hashHex serverHex digest algorithms
  simp only [found, List.lookup_nil]

theorem map_fst_algorithms : (algorithms crates).map Prod.fst = hashPriority := rfl

theorem preferred_of_selectHashAlgorithm {serverHashes : List Text}
    (h : selectHashAlgorithm serverHashes = some algo) : Preferred crates serverHashes algo := by
  refine ⟨(selectHashAlgorithm_mem h).2, fun other offered => ?_⟩
  rw [map_fst_algorithms]
  obtain ⟨-, i, within, rfl, earlier⟩ := List.find?_eq_some_iff_getElem.mp h
  have distinct : hashPriority.Nodup := by decide
  rw [distinct.idxOf_getElem i within]
  by_contra stronger
  have passed := earlier _ (not_le.mp stronger)
  rw [List.getElem_idxOf] at passed
  simp only [List.any_eq_true, beq_iff_eq, exists_eq_right, Bool.not_eq_true', ← Bool.not_eq_true]
    at passed
  exact passed offered

/-- The account that the login is meant for is the only one it is accepted for, and the digest
of the password is as good as any other that answers the challenge alike. -/
def OwnAccount (crates : HashCrates) (username password database line : Text)
    (bytes : List UInt8) : Prop :=
  ∀ (parts : ChallengeParts) (trailing : ℕ), line = parts.line ++ List.replicate trailing ':' →
    ∃ prehashed algo, serverHex crates parts.serverHash (utf8Encode password) = some prehashed ∧
      Preferred crates parts.hashes algo ∧
      ∀ account database', verifies crates account database' parts bytes = true ↔
        account.username = username ∧ database' = database ∧
        serverHex crates algo (utf8Encode account.stored ++ utf8Encode parts.salt) =
          serverHex crates algo (utf8Encode prehashed ++ utf8Encode parts.salt)

theorem ownAccount_of_loginFor (hex : ∀ data, ∀ c ∈ crates.hexEncode data, isHexDigit c = true)
    (plainUsername : ':' ∉ username) (plainDatabase : ':' ∉ database)
    (login : LoginFor crates username password database line bytes) :
    OwnAccount crates username password database line bytes := by
  rintro parts trailing rfl
  obtain ⟨challenge, algo, hash, answers⟩ := login
  obtain rfl : parts.challenge = challenge :=
    Except.ok.inj ((parseChallenge_line parts trailing).symm.trans answers.parsed)
  obtain ⟨prehashed, stored, selected, hashed⟩ :=
    (computePasswordHash_ok_iff crates).mp answers.hashed
  obtain ⟨known, offered⟩ := answers.supported
  have digits := isHexDigit_of_hashHex hex hashed
  have free := colon_not_mem_loginFields parts.challenge .fresh known digits plainUsername
    plainDatabase
  have read : readLogin bytes =
      some (loginFields parts.challenge username algo hash database .fresh) := by
    rw [answers.bytes, readLogin_message, buildLoginResponse_eq,
      List.splitOn_intercalate ':' free (by simp [loginFields])]
  have plainAlgo : ∀ algo ∈ hashPriority, '}' ∉ algo := by decide
  have plainHash : '}' ∉ hash := fun mem => absurd (digits '}' mem) (by decide)
  rw [hashHex_eq_serverHex] at stored hashed
  refine ⟨prehashed, algo, stored, preferred_of_selectHashAlgorithm selected,
    fun account database' => ?_⟩
  have password : (loginFields parts.challenge username algo hash database .fresh)[2]? =
      some ('{' :: algo ++ '}' :: hash) := rfl
  rw [show parts.salt = parts.challenge.salt from rfl, verifies, read, hashed]
  dsimp only
  rw [password, Option.bind_some, passwordField_of_not_mem (plainAlgo algo known) plainHash]
  dsimp only
  rw [decide_eq_true_iff]
  change some username = _ ∧ some database = _ ∧ algo ∈ parts.challenge.hashes ∧ _ ↔ _
  simp only [Option.some.injEq, offered, true_and]
  rw [eq_comm (a := username), eq_comm (a := database)]
  rfl

end Logins

section Handshakes

variable {crates : HashCrates} {username password database : Text}

/-- However a handshake is redirected, every login on every connection answers the challenge in
its place there, with the first algorithm in the order that its server names, and is accepted
by that server for the account and the database of the user and for no others, with the digest
of the password or one that answers the challenge alike. -/
theorem logins_verified (hex : ∀ data, ∀ c ∈ crates.hexEncode data, isHexDigit c = true)
    (plainUsername : ':' ∉ username) (plainDatabase : ':' ∉ database) (network : Network)
    (host : Text) (port : UInt16) :
    let trace := (performHandshake crates network username password database host port []).2
    ∀ c < connections trace, ∃ answered unanswered logins last,
      challenges c trace = answered ++ unanswered ∧
      List.Forall₂ (OwnAccount crates username password database) answered logins ∧
      written c trace = primeBytes :: (logins ++ last) ∧
      (last = [] ∨ last = [message replySizeCommand]) := by
  intro trace c isOpen
  obtain ⟨u, run, primed, -⟩ :=
    performHandshake_runs crates username password database network host port
  obtain ⟨answered, unanswered, logins, last, received, paired, wrote, ending⟩ :=
    carried_of_run run primed isOpen
  have own := paired.imp fun _ _ => ownAccount_of_loginFor hex plainUsername plainDatabase
  exact ⟨answered, unanswered, logins, last, received, own, wrote, ending⟩

theorem isHexDigit_hexDigits (bytes : List UInt8) : ∀ c ∈ hexDigits bytes, isHexDigit c = true := by
  have digit : ∀ d < 16, isHexDigit (Nat.digitChar d) = true := by decide
  intro c mem
  obtain ⟨b, -, inside⟩ := List.mem_flatMap.mp mem
  have bound := b.toNat_lt
  simp only [List.mem_cons, List.not_mem_nil, or_false] at inside
  rcases inside with rfl | rfl
  · exact digit _ (by omega)
  · exact digit _ (by omega)

def exampleParts : ChallengeParts :=
  { typicalParts with
    serverType := "merovingian".toList
    hashes := ["SHA1".toList]
    serverEndian := .little
    optionLevel := none
    after := []
    serverType_plain := by decide
    hashes_nonempty := by decide
    hashes_plain := by decide
    further_plain := by decide }

theorem logins_verified_retried :
    let trace := (performHandshake exampleCrates (exampleNetwork 1 []) "monetdb".toList
      "monetdb".toList "db".toList "localhost".toList 50000 []).2
    (challenges 0 trace = [exampleChallenge, exampleChallenge] ∧
      written 0 trace =
        [primeBytes, exampleLogin, exampleLogin, message replySizeCommand] ∧
      exampleChallenge = exampleParts.line ++ List.replicate 1 ':') ∧
    ∀ c < connections trace, ∃ answered unanswered logins last,
      challenges c trace = answered ++ unanswered ∧
      List.Forall₂ (OwnAccount exampleCrates "monetdb".toList "monetdb".toList "db".toList)
        answered logins ∧
      written c trace = primeBytes :: (logins ++ last) ∧
      (last = [] ∨ last = [message replySizeCommand]) :=
  ⟨⟨by decide +kernel, by decide +kernel, by decide⟩,
    logins_verified isHexDigit_hexDigits (by decide) (by decide)
      (exampleNetwork 1 []) "localhost".toList 50000⟩

end Handshakes

end SqlxMonetdb.LoginVerification
