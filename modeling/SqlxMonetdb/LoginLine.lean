import SqlxMonetdb.ConnectOptions

set_option autoImplicit false

namespace SqlxMonetdb.LoginLine
open ListSplitting TextPrimitives Handshake ConnectOptions

/-- A digit of the driver's hex digests, which are in lower case. -/
def isHexDigit (c : Char) : Bool := c.isDigit || ('a' ≤ c && c ≤ 'f')

section Fields

variable (challenge : Challenge) (algo hash : Text) (options : HandshakeOptions)

/-- The fields the server gets are those the client means. -/
structure ReadAsMeant (fields : List Text) (username database : Text) : Prop where
  username : fields[1]? = some username
  password : fields[2]? = some ('{' :: algo ++ '}' :: hash)
  language : fields[3]? = some "sql".toList
  database : fields[4]? = some database
  transfer : fields[5]? = some "FILETRANS".toList
  options : fields.drop 6 =
    negotiatedOptions (challenge.handshakeOptionLevel.getD 0) options ++ [[]]

structure Unambiguous (username database : Text) : Prop where
  read : ReadAsMeant challenge algo hash options
    ((buildLoginResponse challenge username algo hash database options).splitOn ':')
    username database
  unique : ∀ username' database',
    buildLoginResponse challenge username algo hash database options =
      buildLoginResponse challenge username' algo hash database' options →
    username' = username ∧ database' = database

theorem colon_not_mem_signedDecimal (n : ℤ) : ':' ∉ signedDecimal n := by
  have unsigned (n : ℕ) : ':' ∉ decimal n := not_mem_decimal (by decide) n
  cases n with
  | ofNat n => exact unsigned n
  | negSucc n => simp [signedDecimal, unsigned]

theorem colon_not_mem_negotiatedOptions (level : UInt8) :
    ∀ option ∈ negotiatedOptions level options, ':' ∉ option := by
  intro option mem
  have all := List.mem_of_mem_take mem
  simp only [List.mem_cons, List.not_mem_nil, or_false] at all
  rcases all with rfl | rfl | rfl
  · exact List.not_mem_append (by decide) (not_mem_decimal (by decide) _)
  · exact List.not_mem_append (by decide) (colon_not_mem_signedDecimal _)
  · decide

variable {algo hash}

theorem colon_not_mem_loginFields (known : algo ∈ hashPriority)
    (digest : ∀ c ∈ hash, isHexDigit c = true) {username database : Text}
    (plainUsername : ':' ∉ username) (plainDatabase : ':' ∉ database) :
    ∀ field ∈ loginFields challenge username algo hash database options, ':' ∉ field := by
  have plainAlgo : ':' ∉ algo := by
    revert known
    revert algo
    decide
  have plainHash : ':' ∉ hash := fun mem => absurd (digest ':' mem) (by decide)
  have plainPassword : ':' ∉ '{' :: algo ++ '}' :: hash := by
    simp [plainAlgo, plainHash]
  intro field mem
  simp only [loginFields, List.cons_append, List.nil_append, List.mem_cons, List.mem_append,
    List.not_mem_nil, or_false] at mem
  rcases mem with rfl | rfl | rfl | rfl | rfl | rfl | mem | rfl
  · decide
  · exact plainUsername
  · exact plainPassword
  · decide
  · exact plainDatabase
  · decide
  · exact colon_not_mem_negotiatedOptions options _ field mem
  · decide

variable (algo hash)

theorem length_loginFields (username database username' database' : Text) :
    (loginFields challenge username algo hash database options).length =
      (loginFields challenge username' algo hash database' options).length := by
  simp [loginFields]

theorem readAsMeant_loginFields (username database : Text) :
    ReadAsMeant challenge algo hash options
      (loginFields challenge username algo hash database options) username database :=
  ⟨rfl, rfl, rfl, rfl, rfl, rfl⟩

variable {algo hash}

/-- The login line is unambiguous exactly when neither text of the user holds a colon. -/
theorem unambiguous_iff (known : algo ∈ hashPriority)
    (digest : ∀ c ∈ hash, isHexDigit c = true) (username database : Text) :
    Unambiguous challenge algo hash options username database ↔
      ':' ∉ username ∧ ':' ∉ database := by
  constructor
  · rintro ⟨read, -⟩
    exact ⟨not_mem_of_mem_splitOn (List.mem_of_getElem? read.username),
      not_mem_of_mem_splitOn (List.mem_of_getElem? read.database)⟩
  · rintro ⟨plainUsername, plainDatabase⟩
    have free := colon_not_mem_loginFields challenge options known digest plainUsername plainDatabase
    constructor
    · have cut := List.splitOn_intercalate ':' free (by simp [loginFields])
      rw [buildLoginResponse_eq, cut]
      exact readAsMeant_loginFields challenge algo hash options username database
    · intro username' database' same
      rw [buildLoginResponse_eq, buildLoginResponse_eq] at same
      have fields := intercalate_injective same
        (length_loginFields challenge algo hash options username database username' database') free
      simp only [loginFields, List.cons_append, List.cons.injEq] at fields
      exact ⟨fields.2.1.symm, fields.2.2.2.2.1.symm⟩

end Fields

def serverChallenge : Challenge :=
  ⟨"salt".toList, "mserver".toList, "9".toList, ["SHA1".toList], .little, "SHA1".toList, some 3⟩

theorem plain_login_unambiguous :
    Unambiguous serverChallenge "SHA1".toList "deadbeef".toList .fresh "monetdb".toList
      "demo".toList :=
  (unambiguous_iff serverChallenge .fresh (by decide) (List.all_eq_true.mp (by decide)) _ _).mpr
    (by decide)

theorem colon_shifts_fields :
    let connect := MonetConnectOptions.fresh.withUsername "a:b".toList
    let line := fun connect : MonetConnectOptions => buildLoginResponse serverChallenge
      connect.username "SHA1".toList "deadbeef".toList connect.database .fresh
    ((line connect).splitOn ':')[1]? = some "a".toList ∧
    ¬ Unambiguous serverChallenge "SHA1".toList "deadbeef".toList .fresh connect.username
      connect.database ∧
    line ((MonetConnectOptions.fresh.withUsername "a".toList).withDatabase
        "b:\x7bSHA1\x7ddeadbeef:sql:c".toList) =
      line ((MonetConnectOptions.fresh.withUsername
        "a:\x7bSHA1\x7ddeadbeef:sql:b".toList).withDatabase "c".toList) := by
  intro connect line
  have first : ((line connect).splitOn ':')[1]? = some "a".toList := by decide
  refine ⟨first, fun unambiguous => ?_, by decide⟩
  have whole := unambiguous.read.username
  change ((line connect).splitOn ':')[1]? = _ at whole
  rw [first] at whole
  revert whole
  decide

end SqlxMonetdb.LoginLine
