import SqlxMonetdb.DriverError

set_option autoImplicit false

/-!
# The challenge/response handshake

The pure functions of the handshake, protocol version 9: the server's challenge line,
the two-level password hash, the client's login line, the server's reply to it and
the target of a redirect.
-/
namespace SqlxMonetdb.Handshake
open ListSplitting TextPrimitives DriverError

section Challenge

inductive Endian where
  | big
  | little
  deriving DecidableEq

def parseEndian (field : Text) : Except MonetError Endian :=
  if field = "BIG".toList then .ok .big
  else if field = "LIT".toList then .ok .little
  else .error (.handshake [.text "unexpected endian field ", .debug field, .text " in challenge"])

structure Challenge where
  salt : Text
  serverType : Text
  protocolVersion : Text
  hashes : List Text
  serverEndian : Endian
  serverHash : Text
  handshakeOptionLevel : Option UInt8
  deriving DecidableEq

/-- The loop over the fields behind the sixth: a later `sql=` replaces an earlier one,
also when its value is not a number. -/
def optionLevel (extras : List Text) : Option UInt8 :=
  extras.foldl (fun level extra =>
    match "sql=".toList.isPrefixOf? extra with
    | some value => parseU8 value
    | none => level) none

def parseChallenge (line : Text) : Except MonetError Challenge :=
  let line := line.rdropWhile (· == ':')
  let fields := line.splitOn ':'
  match fields with
  | salt :: serverType :: protocolVersion :: hashes :: endian :: serverHash :: extras =>
    if protocolVersion ≠ "9".toList then
      .error (.handshake [.text "unsupported MAPI protocol version ", .debug protocolVersion,
        .text "; only \"9\" is supported"])
    else
      (parseEndian endian).map fun serverEndian =>
        { salt, serverType, protocolVersion, hashes := hashes.splitOn ',', serverEndian, serverHash
          handshakeOptionLevel := optionLevel extras }
  | _ => .error (.handshake [.text "challenge line has ", .number fields.length,
      .text " fields, expected at least 6: ", .debug line])

theorem parseChallenge_version {line : Text} {challenge : Challenge}
    (h : parseChallenge line = .ok challenge) : challenge.protocolVersion = "9".toList := by
  unfold parseChallenge at h
  dsimp only at h
  split at h
  · split_ifs at h with version
    obtain ⟨endian, -, rfl⟩ := map_eq_ok.mp h
    exact not_not.mp version
  · cases h

end Challenge

section Password

/-- The functions of the digest and hex crates. -/
structure HashCrates where
  ripemd160 : List UInt8 → List UInt8
  sha512 : List UInt8 → List UInt8
  sha384 : List UInt8 → List UInt8
  sha256 : List UInt8 → List UInt8
  sha224 : List UInt8 → List UInt8
  sha1 : List UInt8 → List UInt8
  hexEncode : List UInt8 → Text

def hashPriority : List Text :=
  ["RIPEMD160".toList, "SHA512".toList, "SHA384".toList, "SHA256".toList, "SHA224".toList,
    "SHA1".toList]

def selectHashAlgorithm (serverHashes : List Text) : Option Text :=
  hashPriority.find? fun candidate => serverHashes.any (· == candidate)

variable (crates : HashCrates)

def digest (algorithm : Text) : Option (List UInt8 → List UInt8) :=
  if algorithm = "RIPEMD160".toList then some crates.ripemd160
  else if algorithm = "SHA512".toList then some crates.sha512
  else if algorithm = "SHA384".toList then some crates.sha384
  else if algorithm = "SHA256".toList then some crates.sha256
  else if algorithm = "SHA224".toList then some crates.sha224
  else if algorithm = "SHA1".toList then some crates.sha1
  else none

def hashHex (algorithm : Text) (data : List UInt8) : Option Text :=
  (digest crates algorithm).map fun digest => crates.hexEncode (digest data)

theorem hashHex_isSome_iff {algorithm : Text} (data : List UInt8) :
    (hashHex crates algorithm data).isSome ↔ algorithm ∈ hashPriority := by
  rw [hashHex, Option.isSome_map]
  simp only [hashPriority, List.mem_cons, List.not_mem_nil, or_false]
  unfold digest
  split_ifs <;> simp_all

theorem selectHashAlgorithm_mem {serverHashes : List Text} {algo : Text}
    (h : selectHashAlgorithm serverHashes = some algo) :
    algo ∈ hashPriority ∧ algo ∈ serverHashes := by
  have found := List.find?_some h
  refine ⟨List.mem_of_find?_eq_some h, ?_⟩
  simpa using found

/-- The algorithm and the hex digest of the login line. A selected algorithm is one that
`hashHex` supports, which the source asserts. -/
def computePasswordHash (challenge : Challenge) (password : Text) :
    Except MonetError (Text × Text) :=
  match hashHex crates challenge.serverHash (utf8Encode password) with
  | none => .error (.handshake [.text "unsupported server_hash algorithm ",
      .debug challenge.serverHash])
  | some prehashed =>
    match selected : selectHashAlgorithm challenge.hashes with
    | none => .error (.handshake [.text "no mutually supported hash algorithm in server list ",
        .debugList challenge.hashes])
    | some algo =>
      let combined := utf8Encode prehashed ++ utf8Encode challenge.salt
      .ok (algo, (hashHex crates algo combined).get
        ((hashHex_isSome_iff crates combined).mpr (selectHashAlgorithm_mem selected).1))

theorem computePasswordHash_ok_iff {challenge : Challenge} {password algo hash : Text} :
    computePasswordHash crates challenge password = .ok (algo, hash) ↔
      ∃ prehashed, hashHex crates challenge.serverHash (utf8Encode password) = some prehashed ∧
        selectHashAlgorithm challenge.hashes = some algo ∧
        hashHex crates algo (utf8Encode prehashed ++ utf8Encode challenge.salt) = some hash := by
  unfold computePasswordHash
  split
  · rename_i unsupported
    simp [unsupported]
  · rename_i prehashed supported
    split
    · rename_i none
      simp [none]
    · rename_i candidate selected
      simp only [supported, selected, Except.ok.injEq, Prod.mk.injEq, Option.some.injEq,
        exists_eq_left']
      refine and_congr_right ?_
      rintro rfl
      rw [← Option.some_inj, Option.some_get]

end Password

section Login

structure HandshakeOptions where
  autoCommit : Bool
  replySize : Int64
  deriving DecidableEq

/-- `HandshakeOptions::default()`. -/
def HandshakeOptions.fresh : HandshakeOptions := ⟨true, -1⟩

def buildLoginResponse (challenge : Challenge) (username passwordAlgo passwordHashHex database : Text)
    (options : HandshakeOptions) : Text :=
  let parts := ["BIG".toList, username, '{' :: passwordAlgo ++ '}' :: passwordHashHex, "sql".toList,
    database, "FILETRANS".toList]
  let level := challenge.handshakeOptionLevel.getD 0
  let parts := if level ≥ 1 then
    parts ++ ["auto_commit=".toList ++ decimal options.autoCommit.toNat] else parts
  let parts := if level ≥ 2 then
    parts ++ ["reply_size=".toList ++ signedDecimal options.replySize.toInt] else parts
  let parts := if level ≥ 3 then parts ++ ["size_header=1".toList] else parts
  [':'].intercalate parts ++ [':']

def negotiatedOptions (level : UInt8) (options : HandshakeOptions) : List Text :=
  ["auto_commit=".toList ++ decimal options.autoCommit.toNat,
    "reply_size=".toList ++ signedDecimal options.replySize.toInt,
    "size_header=1".toList].take level.toNat

def loginFields (challenge : Challenge) (username passwordAlgo passwordHashHex database : Text)
    (options : HandshakeOptions) : List Text :=
  ["BIG".toList, username, '{' :: passwordAlgo ++ '}' :: passwordHashHex, "sql".toList, database,
    "FILETRANS".toList] ++
      (negotiatedOptions (challenge.handshakeOptionLevel.getD 0) options ++ [[]])

theorem buildLoginResponse_eq (challenge : Challenge)
    (username passwordAlgo passwordHashHex database : Text) (options : HandshakeOptions) :
    buildLoginResponse challenge username passwordAlgo passwordHashHex database options =
      [':'].intercalate
        (loginFields challenge username passwordAlgo passwordHashHex database options) := by
  have levels (level : UInt8) : level.toNat = 0 ∨ level.toNat = 1 ∨ level.toNat = 2 ∨ 3 ≤ level.toNat := by
    omega
  unfold buildLoginResponse loginFields negotiatedOptions
  dsimp only
  generalize challenge.handshakeOptionLevel.getD 0 = level
  simp only [ge_iff_le, UInt8.le_iff_toNat_le]
  rcases levels level with none | one | two | more
  · simp [none]
  · simp [one]
  · simp [two]
  · have first : 1 ≤ level.toNat := by omega
    have second : 2 ≤ level.toNat := by omega
    rw [List.take_of_length_le (by simpa using more)]
    simp [first, second, more]

/-- The server's reply to the login line; an error carries what the handshake fails with. -/
inductive LoginResponse where
  | ok
  | error (message : Message)
  | redirect (target : Text)
  deriving DecidableEq

def parseLoginResponse (line : Text) : LoginResponse :=
  if line = [] ∨ line = "=OK".toList ∨ line.head? = some '#' then .ok
  else
    match line with
    | '!' :: rest => .error [.display rest]
    | '^' :: rest => .redirect rest
    | _ => .error [.text "unexpected login response: ", .debug line]

theorem parseLoginResponse_redirect_iff {line target : Text} :
    parseLoginResponse line = .redirect target ↔ line = '^' :: target := by
  unfold parseLoginResponse
  constructor
  · intro redirected
    split_ifs at redirected
    split at redirected
    · cases redirected
    · cases redirected
      rfl
    · cases redirected
  · rintro rfl
    rw [if_neg (by simp)]
    rfl

inductive Redirect where
  | localRetry
  | reconnect (host : Text) (port : UInt16)
  deriving DecidableEq

def parseRedirect (target : Text) : Except MonetError Redirect :=
  if "merovingian".toList <:+: target then .ok .localRetry
  else
    match "mapi:monetdb://".toList.isPrefixOf? target with
    | none => .error (.handshake [.text "unrecognized redirect target: ", .debug target])
    | some rest =>
      let hostPort := (rest.splitOn '/').head?.getD rest
      match rsplitOnce ':' hostPort with
      | none => .error (.handshake [.text "redirect target missing port: ", .debug target])
      | some (host, portStr) =>
        match parseU16 portStr with
        | none => .error (.handshake [.text "invalid port in redirect: ", .debug target])
        | some port => .ok (.reconnect host port)

end Login

end SqlxMonetdb.Handshake

namespace SqlxMonetdb.RedirectTargets
open ListSplitting TextPrimitives DriverError Handshake

def pathText : Option Text → Text
  | some path => '/' :: path
  | none => []

def reconnectTarget (host : Text) (port : UInt16) (path : Option Text) : Text :=
  "mapi:monetdb://".toList ++ ((host ++ ':' :: decimal port.toNat) ++ pathText path)

/-- The target is the address of a server, its port in any spelling of the number. -/
def NamesServer (target host : Text) (port : UInt16) : Prop :=
  ∃ digits path, '/' ∉ host ∧ parseU16 digits = some port ∧
    target = "mapi:monetdb://".toList ++ ((host ++ ':' :: digits) ++ pathText path)

/-- The address of a server with the name of the merging process somewhere in it. -/
def Misread (target : Text) : Prop :=
  "merovingian".toList <:+: target ∧ ∃ host port, NamesServer target host port

section Addresses

variable {target host : Text} {port : UInt16}

theorem namesServer_reconnectTarget (noSlash : '/' ∉ host) (port : UInt16) (path : Option Text) :
    NamesServer (reconnectTarget host port path) host port :=
  ⟨decimal port.toNat, path, noSlash, parseU16_decimal port, rfl⟩

theorem head?_splitOn_pathText {address : Text} (noSlash : '/' ∉ address) (path : Option Text) :
    ((address ++ pathText path).splitOn '/').head? = some address := by
  cases path with
  | none => rw [pathText, List.append_nil, List.splitOn_eq_singleton noSlash, List.head?_cons]
  | some path => rw [pathText, List.splitOn_append_cons_self_of_not_mem noSlash, List.head?_cons]

theorem NamesServer.read (named : NamesServer target host port) : ∃ rest digits,
    "mapi:monetdb://".toList.isPrefixOf? target = some rest ∧
    rsplitOnce ':' ((rest.splitOn '/').head?.getD rest) = some (host, digits) ∧
    parseU16 digits = some port := by
  -- the host may hold colons: the port is behind the last one
  obtain ⟨digits, path, noSlash, number, rfl⟩ := named
  obtain ⟨n, read, -⟩ := Option.map_eq_some_iff.mp number
  have plain : '/' ∉ digits := not_mem_of_parseUnsigned read (by decide) (by decide)
  have noColon : ':' ∉ digits := not_mem_of_parseUnsigned read (by decide) (by decide)
  have address : '/' ∉ host ++ ':' :: digits := by
    simp only [List.mem_append, List.mem_cons, not_or]
    exact ⟨noSlash, by decide, plain⟩
  refine ⟨_, digits, isPrefixOf?_append _ _, ?_, number⟩
  rw [head?_splitOn_pathText address path, Option.getD_some, rsplitOnce_append host noColon]

theorem NamesServer.unique {host' : Text} {port' : UInt16} (named : NamesServer target host port)
    (named' : NamesServer target host' port') : host = host' ∧ port = port' := by
  obtain ⟨rest, digits, stripped, cut, number⟩ := named.read
  obtain ⟨rest', digits', stripped', cut', number'⟩ := named'.read
  rw [stripped] at stripped'
  cases stripped'
  rw [cut] at cut'
  cases cut'
  rw [number] at number'
  exact ⟨rfl, Option.some.inj number'⟩

theorem parseRedirect_of_namesServer (named : NamesServer target host port)
    (unnamed : ¬ "merovingian".toList <:+: target) :
    parseRedirect target = .ok (.reconnect host port) := by
  obtain ⟨rest, digits, stripped, cut, number⟩ := named.read
  unfold parseRedirect
  rw [if_neg unnamed, stripped]
  dsimp only
  rw [cut]
  dsimp only
  rw [number]

theorem parseRedirect_localRetry_iff :
    parseRedirect target = .ok .localRetry ↔ "merovingian".toList <:+: target := by
  unfold parseRedirect
  split_ifs with named
  · exact iff_of_true rfl named
  · refine iff_of_false (fun h => ?_) named
    split at h
    · cases h
    · dsimp only at h
      split at h
      · cases h
      · split at h <;> cases h

/-- The merging process is looked for by name, so its own scheme is always recognised. -/
theorem parseRedirect_of_scheme (scheme : "mapi:merovingian://".toList <+: target) :
    parseRedirect target = .ok .localRetry := by
  have name : "merovingian".toList <:+: "mapi:merovingian://".toList := by decide
  exact parseRedirect_localRetry_iff.mpr (name.trans scheme.isInfix)

end Addresses

structure ClassifiedByScheme (target : Text) : Prop where
  reconnect : ∀ host port path, '/' ∉ host → target = reconnectTarget host port path →
    parseRedirect target = .ok (.reconnect host port)
  localRetry : parseRedirect target = .ok .localRetry → "mapi:merovingian://".toList <+: target

/-- Targets are classified by their scheme exactly when the name of the merging process
occurs only behind its scheme. -/
theorem classifiedByScheme_iff (target : Text) :
    ClassifiedByScheme target ↔
      ("merovingian".toList <:+: target → "mapi:merovingian://".toList <+: target) := by
  constructor
  · intro classified named
    exact classified.localRetry (parseRedirect_localRetry_iff.mpr named)
  · intro behind
    refine ⟨?_, fun retry => behind (parseRedirect_localRetry_iff.mp retry)⟩
    rintro host port path noSlash rfl
    refine parseRedirect_of_namesServer (namesServer_reconnectTarget noSlash port path) fun named => ?_
    have own : "mapi:monetdb://".toList <+: reconnectTarget host port path := List.prefix_append _ _
    have nested : "mapi:monetdb://".toList <+: "mapi:merovingian://".toList :=
      List.prefix_of_prefix_length_le own (behind named) (by decide)
    exact absurd nested (by decide)

theorem merovingian_host_retried :
    let target := reconnectTarget "merovingian.example".toList 50000 (some "db".toList)
    parseRedirect target = .ok .localRetry ∧ ¬ ClassifiedByScheme target := by
  intro target
  have retried : parseRedirect target = .ok .localRetry :=
    parseRedirect_localRetry_iff.mpr (by decide)
  refine ⟨retried, fun classified => ?_⟩
  have prefixed := classified.localRetry retried
  revert prefixed
  decide

end SqlxMonetdb.RedirectTargets
