import SqlxMonetdb.QuoteDoubling
import SqlxMonetdb.Substitution

set_option autoImplicit false

namespace SqlxMonetdb.StringLiteral
open TextPrimitives Arguments QuoteDoubling

section Server

/-- The character an escape stands for. Only the two escapes of the escaping
characters themselves are fixed. -/
structure ServerEscapes where
  value : Char → Char
  backslash : value '\\' = '\\'
  quote : value '\'' = '\''

variable (S : ServerEscapes)

/-- The value of the literal whose opening quote has been read, and what follows the
closing quote; `none` when the literal is not closed. -/
def lexBody : Text → Option (Text × Text)
  | [] => none
  | c :: cs =>
    if c = '\\' then
      match cs with
      | [] => none
      | d :: ds => (lexBody ds).map fun (s, rest) => (S.value d :: s, rest)
    else if c = '\'' then
      match cs with
      | '\'' :: ds => (lexBody ds).map fun (s, rest) => ('\'' :: s, rest)
      | _ => some ([], cs)
    else (lexBody cs).map fun (s, rest) => (c :: s, rest)

def lexLiteral : Text → Option (Text × Text)
  | '\'' :: cs => lexBody S cs
  | _ => none

theorem lexBody_close {rest : Text} (h : rest.head? ≠ some '\'') :
    lexBody S ('\'' :: rest) = some ([], rest) := by
  rw [lexBody.eq_def]
  cases rest with
  | nil => rfl
  | cons c rest =>
    have different : c ≠ '\'' := by simpa using h
    simp [different]

theorem lexBody_doubled (cs : Text) :
    lexBody S ('\'' :: '\'' :: cs) = (lexBody S cs).map fun (s, rest) => ('\'' :: s, rest) := by
  rw [lexBody.eq_def]
  rfl

theorem lexBody_plain {c : Char} (notBackslash : c ≠ '\\') (notQuote : c ≠ '\'') (cs : Text) :
    lexBody S (c :: cs) = (lexBody S cs).map fun (s, rest) => (c :: s, rest) := by
  rw [lexBody.eq_def]
  simp [notBackslash, notQuote]

def marked (s : Text) : ℕ := s.count '\'' + s.count '\\'

theorem marked_cons_le (c : Char) (s : Text) : marked (c :: s) ≤ marked s + 1 := by
  unfold marked
  rw [List.count_cons, List.count_cons]
  by_cases quote : c = '\''
  · subst quote
    simp
    omega
  · simp only [beq_iff_eq, quote, if_false]
    split <;> omega

theorem lexBody_length {input s rest : Text} (h : lexBody S input = some (s, rest)) :
    s.length + marked s + 1 + rest.length ≤ input.length := by
  -- a character of the value takes one character of the input, and two where it is a quote or a
  -- backslash; the closing quote takes one more
  induction input using lexBody.induct generalizing s with
  | case1 => simp [lexBody] at h
  | case2 => simp [lexBody] at h
  | case3 d ds ih =>
    rw [lexBody, if_pos rfl] at h
    obtain ⟨⟨tail, rest'⟩, inner, value⟩ := Option.map_eq_some_iff.mp h
    cases value
    have shorter := ih inner
    have cost := marked_cons_le (S.value d) tail
    simp only [List.length_cons]
    omega
  | case4 ds _ ih =>
    rw [lexBody_doubled] at h
    obtain ⟨⟨tail, rest'⟩, inner, value⟩ := Option.map_eq_some_iff.mp h
    cases value
    have shorter := ih inner
    have cost := marked_cons_le '\'' tail
    simp only [List.length_cons]
    omega
  | case5 =>
    rename_i single _
    rw [lexBody_close S] at h
    · cases h
      simp [marked]
      omega
    · intro doubled
      obtain ⟨ds, rfl⟩ := List.head?_eq_some_iff.mp doubled
      exact single ds rfl
  | case6 c cs notBackslash notQuote ih =>
    rw [lexBody_plain S notBackslash notQuote] at h
    obtain ⟨⟨tail, rest'⟩, inner, value⟩ := Option.map_eq_some_iff.mp h
    cases value
    have shorter := ih inner
    have same : marked (c :: tail) = marked tail := by simp [marked, notBackslash, notQuote]
    simp only [List.length_cons, same]
    omega

end Server

section Confinement

variable (S : ServerEscapes)

theorem length_quoted (s : Text) : (quoted s).length = s.length + s.count '\'' := length_double s

theorem lexBody_quoted {s rest : Text} (noBackslash : '\\' ∉ s) (h : rest.head? ≠ some '\'') :
    lexBody S (quoted s ++ '\'' :: rest) = some (s, rest) := by
  induction s with
  | nil => exact lexBody_close S h
  | cons c s ih =>
    have tail := ih fun mem => noBackslash (by simp [mem])
    by_cases quote : c = '\''
    · subst quote
      change lexBody S ('\'' :: '\'' :: (quoted s ++ '\'' :: rest)) = _
      rw [lexBody_doubled, tail]
      rfl
    · have notBackslash : c ≠ '\\' := fun e => noBackslash (by simp [e])
      have split : quoted (c :: s) = c :: quoted s := by simp [quoted, quote]
      rw [split, List.cons_append, lexBody_plain S notBackslash quote, tail]
      rfl

/-- The server reads `literal` as one literal of value `s`, whatever comes next. -/
def Confined (literal s : Text) : Prop :=
  ∀ rest : Text, rest.head? ≠ some '\'' → lexLiteral S (literal ++ rest) = some (s, rest)

theorem confined_stringLiteral_iff (s : Text) : Confined S (stringLiteral s) s ↔ '\\' ∉ s := by
  constructor
  · intro confined
    have alone := confined [] (by simp)
    rw [List.append_nil] at alone
    have bound := lexBody_length S (show lexBody S (quoted s ++ ['\'']) = some (s, []) from alone)
    simp only [List.length_append, length_quoted, marked, List.length_singleton,
      List.length_nil] at bound
    rw [← List.count_eq_zero]
    omega
  · intro noBackslash rest h
    change lexBody S (quoted s ++ ['\''] ++ rest) = _
    rw [List.append_assoc]
    exact lexBody_quoted S noBackslash h

/-- A bound string stays inside its literal exactly when it has no backslash. -/
theorem bound_string_confined_iff (arguments : MonetArguments) (s : Text) :
    ∃ literal, arguments.add s = .ok ⟨arguments.literals ++ [literal]⟩ ∧
      (Confined S literal s ↔ '\\' ∉ s) :=
  ⟨stringLiteral s, add_boundValue arguments (.text s), confined_stringLiteral_iff S s⟩

def plainEscapes : ServerEscapes := ⟨id, rfl, rfl⟩

theorem lone_backslash_escapes :
    MonetArguments.new.add "\\".toList = .ok ⟨["'\\'".toList]⟩ ∧
      lexLiteral plainEscapes ("'\\'".toList ++ " OR a = '".toList) =
        some ("' OR a = ".toList, []) ∧
      ¬ Confined plainEscapes "'\\'".toList "\\".toList := by
  have swallowed : lexLiteral plainEscapes ("'\\'".toList ++ " OR a = '".toList) =
      some ("' OR a = ".toList, []) := by decide +kernel
  refine ⟨by decide +kernel, swallowed, fun confined => ?_⟩
  have alone := confined " OR a = '".toList (by decide)
  rw [swallowed] at alone
  exact absurd alone (by decide)

end Confinement

end SqlxMonetdb.StringLiteral

namespace SqlxMonetdb.StandardLiterals
open QuoteDoubling TextPrimitives Arguments Scanning SqlTokens Substitution

theorem stringLiteral_eq (s : Text) : stringLiteral s = '\'' :: (double '\'' s ++ ['\'']) := rfl

theorem lex_of_readLiteral {input s rest : Text}
    (h : readLiteral '\'' input = some (s, rest)) : lex input = .string s :: lex rest := by
  obtain ⟨rfl, closed⟩ := readLiteral_iff.mp h
  have ends : sqlScanner.Ends (.stringQuote s) rest := by
    intro c head
    have other : c ≠ '\'' := fun quote => closed (by rw [← quote]; exact head)
    exact if_neg other
  have token := Scanner.scan_word (a := '\'') (extendAll_stringLiteral s) ends
  rw [List.cons_append, List.append_assoc] at token
  exact token

/-- `literal` is the whole literal of value `s`, in front of every text that does not go on
with a quote. -/
structure ExactLiteral (literal s : Text) : Prop where
  reads : ∀ rest : Text, rest.head? ≠ some '\'' →
    readLiteral '\'' (literal ++ rest) = some (s, rest)
  token : ∀ rest : Text, rest.head? ≠ some '\'' → lex (literal ++ rest) = .string s :: lex rest
  length : literal.length = s.length + 2 + s.count '\''
  bytes : (utf8Encode literal).length = (utf8Encode s).length + 2 + s.count '\''

theorem readLiteral_stringLiteral (s : Text) {rest : Text} (h : rest.head? ≠ some '\'') :
    readLiteral '\'' (stringLiteral s ++ rest) = some (s, rest) := by
  refine readLiteral_iff.mpr ⟨?_, h⟩
  rw [stringLiteral_eq, List.cons_append, List.append_assoc]
  rfl

theorem length_utf8Encode_double (s : Text) :
    (utf8Encode (double '\'' s)).length = (utf8Encode s).length + s.count '\'' := by
  induction s with
  | nil => rfl
  | cons c s ih =>
    have split (t : Text) :
        (utf8Encode (c :: t)).length = (utf8Encode [c]).length + (utf8Encode t).length := by
      rw [← List.singleton_append, utf8Encode_append, List.length_append]
    have value := split s
    by_cases quote : c = '\''
    · subst quote
      have one : (utf8Encode ['\'']).length = 1 := by decide
      have first := split ('\'' :: double '\'' s)
      have second := split (double '\'' s)
      rw [double_cons_self, List.count_cons_self]
      omega
    · have kept := split (double '\'' s)
      rw [double_cons_of_ne quote, List.count_cons_of_ne quote]
      omega

theorem exactLiteral_stringLiteral (s : Text) : ExactLiteral (stringLiteral s) s where
  reads _ h := readLiteral_stringLiteral s h
  token _ h := lex_of_readLiteral (readLiteral_stringLiteral s h)
  length := by
    rw [stringLiteral_eq, List.length_cons, List.length_append, length_double, List.length_singleton]
    omega
  bytes := by
    have one : (utf8Encode ['\'']).length = 1 := by decide
    rw [stringLiteral_eq, ← List.singleton_append, utf8Encode_append, utf8Encode_append,
      List.length_append, List.length_append, one, length_utf8Encode_double]
    omega

/-- The encoder appends the exact literal of its string, and of no other string. -/
theorem encodeStringLiteral_exact (s : Text) (buf : List UInt8) :
    ∃ literal, encodeStringLiteral s buf = buf ++ utf8Encode literal ∧ ExactLiteral literal s ∧
      ∀ s' buf', encodeStringLiteral s' buf' = buf' ++ utf8Encode literal → s' = s := by
  refine ⟨stringLiteral s, encodeStringLiteral_eq s buf, exactLiteral_stringLiteral s, ?_⟩
  intro s' buf' same
  rw [encodeStringLiteral_eq, List.append_cancel_left_eq] at same
  have texts : stringLiteral s' = stringLiteral s := by
    have decoded := congrArg fromUtf8 same
    rwa [fromUtf8_utf8Encode, fromUtf8_utf8Encode, Option.some_inj] at decoded
  have value : readLiteral '\'' (stringLiteral s ++ []) = some (s, []) :=
    readLiteral_stringLiteral s (by simp)
  rw [← texts, readLiteral_stringLiteral s' (by simp)] at value
  exact congrArg Prod.fst (Option.some.inj value)

end SqlxMonetdb.StandardLiterals
