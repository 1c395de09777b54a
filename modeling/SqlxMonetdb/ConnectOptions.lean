import SqlxMonetdb.Connection
import SqlxMonetdb.PerformHandshake

set_option autoImplicit false

namespace SqlxMonetdb.ConnectOptions
open TextPrimitives DriverError Connection Handshake EventPrograms PerformHandshake

def defaultPort : UInt16 := 50000

/-- The options apart from their log settings, which `Display` does not write and a URL does not
set. -/
structure MonetConnectOptions where
  host : Text
  port : UInt16
  username : Text
  password : Text
  database : Text
  deriving DecidableEq

/-- `MonetConnectOptions::default()`, which `new` returns. -/
def MonetConnectOptions.fresh : MonetConnectOptions :=
  ⟨"localhost".toList, defaultPort, "monetdb".toList, "monetdb".toList, "monetdb".toList⟩

section Builder

variable (options : MonetConnectOptions)

def MonetConnectOptions.withHost (host : Text) : MonetConnectOptions := { options with host }

def MonetConnectOptions.withPort (port : UInt16) : MonetConnectOptions := { options with port }

def MonetConnectOptions.withUsername (username : Text) : MonetConnectOptions :=
  { options with username }

def MonetConnectOptions.withPassword (password : Text) : MonetConnectOptions :=
  { options with password }

def MonetConnectOptions.withDatabase (database : Text) : MonetConnectOptions :=
  { options with database }

end Builder

/-- `Display`: the password is not shown. -/
def MonetConnectOptions.display (options : MonetConnectOptions) : Text :=
  "monetdb://".toList ++ (options.username ++ '@' :: (options.host ++ ':' ::
    (decimal options.port.toNat ++ '/' :: options.database)))

/-- What the accessors of a parsed URL return. -/
structure Url where
  hostStr : Option Text
  port : Option UInt16
  username : Text
  password : Option Text
  path : Text
  deriving DecidableEq

/-- Each part of the URL that is present replaces the default. -/
def fromUrl (url : Url) : Except Error MonetConnectOptions :=
  let options := MonetConnectOptions.fresh
  let options := url.hostStr.elim options options.withHost
  let options := url.port.elim options options.withPort
  let options := if url.username = [] then options else options.withUsername url.username
  let options := url.password.elim options options.withPassword
  let database := url.path.dropWhile (· == '/')
  let options := if database = [] then options else options.withDatabase database
  .ok options

def fromStr (parseUrl : Text → Except Text Url) (s : Text) : Except Error MonetConnectOptions :=
  match parseUrl s with
  | .error e =>
    .error (MonetError.handshake [.text "invalid connection URL: ", .display e]).toError
  | .ok url => fromUrl url

def MonetConnectOptions.connect (crates : HashCrates) (network : Network)
    (options : MonetConnectOptions) : Handshaking MonetConnection := do
  let link ← performHandshake crates network options.username options.password options.database
    options.host options.port
  pure ⟨link.stream⟩

section Results

theorem fromUrl_named {url : Url} {options : MonetConnectOptions} (h : fromUrl url = .ok options) :
    (url.username ≠ [] → options.username = url.username) ∧
    (url.path.dropWhile (· == '/') ≠ [] → options.database = url.path.dropWhile (· == '/')) := by
  obtain ⟨host, port, username, password, path⟩ := url
  cases h
  constructor
  · intro named
    dsimp only at named ⊢
    rw [if_neg named]
    split_ifs <;> cases password <;> rfl
  · intro named
    dsimp only at named ⊢
    rw [if_neg named]
    rfl

theorem fromUrl_password {url : Url} {options : MonetConnectOptions} {password : Text}
    (h : fromUrl url = .ok options) (given : url.password = some password) :
    options.password = password := by
  obtain ⟨host, port, username, word, path⟩ := url
  cases h
  dsimp only at given ⊢
  rw [given]
  split_ifs <;> rfl

theorem database_kept_iff (database : Text) :
    (if database.dropWhile (· == '/') = [] then MonetConnectOptions.fresh.database
      else database.dropWhile (· == '/')) = database ↔
        database ≠ [] ∧ database.head? ≠ some '/' := by
  cases database with
  | nil => decide
  | cons c cs =>
    by_cases slash : c = '/'
    · subst slash
      have shorter := List.length_dropWhile_le (· == '/') cs
      simp only [List.dropWhile_cons_of_pos, beq_self_eq_true, List.head?_cons, ne_eq,
        not_true_eq_false, and_false, iff_false]
      split_ifs
      · intro same
        cases same
      · intro same
        rw [same, List.length_cons] at shorter
        omega
    · simp [slash]

/-- Where the library cuts the displayed options into their parts, they are read back as they
are, apart from the log settings, exactly when the password is the default one and no part is
one that is taken as absent or shortened. -/
theorem fromStr_display_iff {parseUrl : Text → Except Text Url} {options : MonetConnectOptions}
    (cut : parseUrl options.display = .ok ⟨some options.host, some options.port, options.username,
      none, '/' :: options.database⟩) :
    fromStr parseUrl options.display = .ok options ↔
      options.password = MonetConnectOptions.fresh.password ∧ options.username ≠ [] ∧
        options.database ≠ [] ∧ options.database.head? ≠ some '/' := by
  obtain ⟨host, port, username, password, database⟩ := options
  have trimmed : ('/' :: database).dropWhile (· == '/') = database.dropWhile (· == '/') := rfl
  have read : fromStr parseUrl (MonetConnectOptions.display ⟨host, port, username, password, database⟩) =
      fromUrl ⟨some host, some port, username, none, '/' :: database⟩ := by
    rw [fromStr, cut]
  have named : fromUrl ⟨some host, some port, username, none, '/' :: database⟩ =
      .ok ⟨host, port, if username = [] then MonetConnectOptions.fresh.username else username,
        MonetConnectOptions.fresh.password,
        if database.dropWhile (· == '/') = [] then MonetConnectOptions.fresh.database
        else database.dropWhile (· == '/')⟩ := by
    unfold fromUrl
    dsimp only
    rw [trimmed]
    split_ifs <;> rfl
  rw [read, named]
  have username_kept : (if username = [] then MonetConnectOptions.fresh.username else username) =
      username ↔ username ≠ [] := by
    by_cases absent : username = []
    · subst absent
      decide
    · rw [if_neg absent, eq_self, true_iff]
      exact absent
  simp only [Except.ok.injEq, MonetConnectOptions.mk.injEq, true_and, username_kept,
    database_kept_iff]
  rw [eq_comm (a := MonetConnectOptions.fresh.password), and_left_comm]

def renamedOptions : MonetConnectOptions :=
  ⟨"db".toList, 50001, "alice".toList, "monetdb".toList, "sales".toList⟩

theorem fromStr_display_renamed :
    let parseUrl := fun url =>
      if url = "monetdb://alice@db:50001/sales".toList then
        .ok ⟨some "db".toList, some 50001, "alice".toList, none, "/sales".toList⟩
      else .error "relative URL without a base".toList
    fromStr parseUrl renamedOptions.display = .ok renamedOptions ↔
      renamedOptions.password = MonetConnectOptions.fresh.password ∧ renamedOptions.username ≠ [] ∧
        renamedOptions.database ≠ [] ∧ renamedOptions.database.head? ≠ some '/' :=
  fromStr_display_iff (if_pos (by decide))

theorem connect_eq (crates : HashCrates) (network : Network) (options : MonetConnectOptions)
    (trace : List Event) :
    options.connect crates network trace =
      let handshake := performHandshake crates network options.username options.password
        options.database options.host options.port
      ((handshake trace).1.map fun link => ⟨link.stream⟩, (handshake trace).2) :=
  bind_pure_eq _

end Results

end SqlxMonetdb.ConnectOptions
