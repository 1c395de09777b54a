import SqlxMonetdb.DriverError

set_option autoImplicit false

namespace SqlxMonetdb.Arguments
open ListSplitting TextPrimitives DriverError

section Encoding

inductive IsNull where
  | yes
  | no
  deriving DecidableEq

/-- `Encode`: what a value appends to the buffer, and whether it is `NULL`. -/
class Encode (τ : Type) where
  encodeByRef : τ → List UInt8 → Except Message (List UInt8 × IsNull)

def encodeStringLiteral (s : Text) (buf : List UInt8) : List UInt8 :=
  let buf := buf ++ utf8Encode ['\'']
  let buf := (s.splitOn '\'').foldl
    (fun buf chunk => buf ++ utf8Encode chunk ++ utf8Encode ['\'', '\'']) buf
  buf.take (buf.length - 1)

/-- The body of `impl_integer_type!`, for the value of any of the integer types. -/
def encodeInteger (n : ℤ) (buf : List UInt8) : List UInt8 := buf ++ utf8Encode (signedDecimal n)

def encodeBool (b : Bool) (buf : List UInt8) : List UInt8 :=
  buf ++ utf8Encode (if b then "true".toList else "false".toList)

instance : Encode Int8 := ⟨fun n buf => .ok (encodeInteger n.toInt buf, .no)⟩

instance : Encode Int16 := ⟨fun n buf => .ok (encodeInteger n.toInt buf, .no)⟩

instance : Encode Int32 := ⟨fun n buf => .ok (encodeInteger n.toInt buf, .no)⟩

instance : Encode Int64 := ⟨fun n buf => .ok (encodeInteger n.toInt buf, .no)⟩

instance : Encode Bool := ⟨fun b buf => .ok (encodeBool b buf, .no)⟩

instance : Encode Text := ⟨fun s buf => .ok (encodeStringLiteral s buf, .no)⟩

/-- A value of any of these types; `null` is an absent optional value, which writes nothing. -/
inductive BoundValue where
  | tinyint (n : Int8)
  | smallint (n : Int16)
  | int (n : Int32)
  | bigint (n : Int64)
  | boolean (b : Bool)
  | text (s : Text)
  | null
  deriving DecidableEq

instance : Encode BoundValue where
  encodeByRef
  | .tinyint n, buf => Encode.encodeByRef n buf
  | .smallint n, buf => Encode.encodeByRef n buf
  | .int n, buf => Encode.encodeByRef n buf
  | .bigint n, buf => Encode.encodeByRef n buf
  | .boolean b, buf => Encode.encodeByRef b buf
  | .text s, buf => Encode.encodeByRef s buf
  | .null, buf => .ok (buf, .yes)

structure MonetArguments where
  literals : List Text
  deriving DecidableEq

def MonetArguments.new : MonetArguments := ⟨[]⟩

def MonetArguments.add {τ : Type} [Encode τ] (arguments : MonetArguments) (value : τ) :
    Except Message MonetArguments := do
  let (buf, isNull) ← Encode.encodeByRef value []
  let literal ←
    if isNull = .yes then .ok "NULL".toList
    else match fromUtf8 buf with
      | some literal => .ok literal
      | none => .error [.utf8Error buf]
  .ok ⟨arguments.literals ++ [literal]⟩

def MonetArguments.len (arguments : MonetArguments) : ℕ := arguments.literals.length

end Encoding

section Literals

def quoted (s : Text) : Text := s.flatMap fun c => if c = '\'' then ['\'', '\''] else [c]

def stringLiteral (s : Text) : Text := '\'' :: (quoted s ++ ['\''])

theorem foldl_append_chunks (chunks : List Text) (buf : List UInt8) :
    chunks.foldl (fun buf chunk => buf ++ utf8Encode chunk ++ utf8Encode ['\'', '\'']) buf =
      buf ++ utf8Encode (chunks.flatMap fun chunk => chunk ++ ['\'', '\'']) := by
  induction chunks generalizing buf with
  | nil => simp [utf8Encode]
  | cons chunk chunks ih =>
    rw [List.foldl_cons, ih, List.flatMap_cons]
    simp only [utf8Encode_append, List.append_assoc]

/-- The two quotes behind the last chunk: one closes the literal, one is cut off. -/
theorem flatMap_splitOn_quote (s : Text) :
    ((s.splitOn '\'').flatMap fun chunk => chunk ++ ['\'', '\'']) = quoted s ++ ['\'', '\''] := by
  induction s with
  | nil => rfl
  | cons c s ih =>
    by_cases quote : c = '\''
    · subst quote
      rw [splitOn_cons_self, List.flatMap_cons, ih]
      rfl
    · rw [splitOn_cons_of_ne quote]
      cases parts : s.splitOn '\'' with
      | nil => exact absurd parts (List.splitOn_ne_nil _ _)
      | cons part parts' =>
        rw [parts] at ih
        simp only [List.modifyHead, List.flatMap_cons, List.cons_append] at ih ⊢
        rw [ih]
        simp [quoted, quote]

theorem encodeStringLiteral_eq (s : Text) (buf : List UInt8) :
    encodeStringLiteral s buf = buf ++ utf8Encode (stringLiteral s) := by
  have body : utf8Encode (quoted s ++ ['\'', '\'']) =
      utf8Encode (quoted s ++ ['\'']) ++ utf8Encode ['\''] := by
    rw [← utf8Encode_append, List.append_assoc]
    rfl
  have one : (utf8Encode ['\'']).length = 1 := by decide
  unfold encodeStringLiteral
  dsimp only
  rw [foldl_append_chunks, flatMap_splitOn_quote, body, ← List.append_assoc, List.length_append,
    one, Nat.add_sub_cancel, List.take_left', List.append_assoc, ← utf8Encode_append]
  · rfl
  · rfl

def BoundValue.literal : BoundValue → Text
  | .tinyint n => signedDecimal n.toInt
  | .smallint n => signedDecimal n.toInt
  | .int n => signedDecimal n.toInt
  | .bigint n => signedDecimal n.toInt
  | .boolean b => if b then "true".toList else "false".toList
  | .text s => stringLiteral s
  | .null => "NULL".toList

theorem add_of_encode {τ : Type} [Encode τ] {value : τ} {text : Text}
    (h : Encode.encodeByRef value [] = .ok (utf8Encode text, .no)) (arguments : MonetArguments) :
    arguments.add value = .ok ⟨arguments.literals ++ [text]⟩ := by
  simp [MonetArguments.add, h, bind, Except.bind, fromUtf8_utf8Encode]

theorem add_boundValue (arguments : MonetArguments) (value : BoundValue) :
    arguments.add value = .ok ⟨arguments.literals ++ [value.literal]⟩ := by
  cases value with
  | null => rfl
  | text s =>
    refine add_of_encode ?_ arguments
    change Except.ok (encodeStringLiteral s [], IsNull.no) = _
    rw [encodeStringLiteral_eq]
    rfl
  | _ => exact add_of_encode rfl arguments

def bindAll (values : List BoundValue) : Except Message MonetArguments :=
  values.foldlM (fun arguments value => arguments.add value) MonetArguments.new

theorem bindAll_eq (values : List BoundValue) :
    bindAll values = .ok ⟨values.map BoundValue.literal⟩ := by
  have folded (arguments : MonetArguments) :
      values.foldlM (fun arguments value => arguments.add value) arguments =
        Except.ok ⟨arguments.literals ++ values.map BoundValue.literal⟩ := by
    induction values generalizing arguments with
    | nil => simp [pure, Except.pure]
    | cons value values ih =>
      rw [List.foldlM_cons, add_boundValue]
      simpa [bind, Except.bind] using ih ⟨arguments.literals ++ [value.literal]⟩
  exact folded MonetArguments.new

end Literals

section Substitution

/-- The loop over the parts, with the literals not taken yet. -/
def pushParts : List Text → List Text → Text → Text
  | [], _, out => out
  | part :: parts, [], out => pushParts parts [] (out ++ part)
  | part :: parts, literal :: literals, out => pushParts parts literals (out ++ part ++ literal)

def MonetArguments.substituteInto (arguments : MonetArguments) (sql : Text) : Except Error Text :=
  let placeholderCount := sql.count '?'
  let bound := arguments.literals.length
  if placeholderCount ≠ bound then
    .error (.encode [.text "query has ", .number placeholderCount,
      .text " '?' placeholder(s) but ", .number bound, .text " argument(s) were bound"])
  else .ok (pushParts (sql.splitOn '?') arguments.literals [])

def fill : Text → List Text → Text
  | [], _ => []
  | c :: cs, literals =>
    if c = '?' then (literals.head?.getD []) ++ fill cs literals.tail else c :: fill cs literals

theorem pushParts_modifyHead (c : Char) {parts : List Text} (nonempty : parts ≠ [])
    (literals : List Text) (out : Text) :
    pushParts (parts.modifyHead (c :: ·)) literals out = pushParts parts literals (out ++ [c]) := by
  cases parts with
  | nil => exact absurd rfl nonempty
  | cons part parts => cases literals <;> simp [pushParts]

theorem pushParts_splitOn {sql : Text} {literals : List Text}
    (bound : sql.count '?' = literals.length) (out : Text) :
    pushParts (sql.splitOn '?') literals out = out ++ fill sql literals := by
  induction sql generalizing literals out with
  | nil =>
    have none : literals = [] := List.length_eq_zero_iff.mp (by simpa using bound.symm)
    subst none
    simp [pushParts, fill]
  | cons c sql ih =>
    by_cases placeholder : c = '?'
    · subst placeholder
      cases literals with
      | nil => simp at bound
      | cons literal literals =>
        have rest : sql.count '?' = literals.length := by simpa using bound
        rw [splitOn_cons_self, pushParts, ih rest]
        simp [fill]
    · have rest : sql.count '?' = literals.length := by simpa [placeholder] using bound
      rw [splitOn_cons_of_ne placeholder,
        pushParts_modifyHead c (List.splitOn_ne_nil _ _), ih rest]
      simp [fill, placeholder]

theorem substituteInto_of_count {arguments : MonetArguments} {sql : Text}
    (bound : sql.count '?' = arguments.literals.length) :
    arguments.substituteInto sql = .ok (fill sql arguments.literals) := by
  simp [MonetArguments.substituteInto, bound, pushParts_splitOn bound]

end Substitution

end SqlxMonetdb.Arguments

namespace SqlxMonetdb.Placeholders
open ListSplitting TextPrimitives DriverError Arguments

/-- `sql` is `part`, and behind a placeholder each of `parts`. -/
structure Template (sql part : Text) (parts : List Text) : Prop where
  whole : sql = ['?'].intercalate (part :: parts)
  plain : ∀ p ∈ part :: parts, '?' ∉ p

/-- `part`, and behind each literal its part. -/
def interleave (part : Text) (literals parts : List Text) : Text :=
  part ++ (List.zipWith (· ++ ·) literals parts).flatten

variable {sql part : Text} {parts : List Text}

theorem exists_template (sql : Text) : ∃ part parts, Template sql part parts := by
  obtain ⟨part, parts, cut⟩ := List.exists_cons_of_ne_nil (List.splitOn_ne_nil '?' sql)
  refine ⟨part, parts, ?_, fun p mem => ?_⟩
  · rw [← cut, List.intercalate_splitOn]
  · rw [← cut] at mem
    exact not_mem_of_mem_splitOn mem

theorem Template.splitOn (template : Template sql part parts) : sql.splitOn '?' = part :: parts := by
  rw [template.whole, List.splitOn_intercalate '?' template.plain (List.cons_ne_nil part parts)]

theorem Template.count (template : Template sql part parts) : sql.count '?' = parts.length := by
  have none := sum_count_eq_zero_iff.mpr template.plain
  rw [template.whole, count_intercalate, none, List.length_cons, Nat.zero_add, Nat.add_sub_cancel]

theorem Template.flatten (template : Template sql part parts) :
    (part :: parts).flatten = sql.filter (· ≠ '?') := by
  have kept : (part :: parts).map (List.filter (· ≠ '?')) = (part :: parts).map id := by
    refine List.map_congr_left fun p mem => List.filter_eq_self.mpr fun c hc => ?_
    have other : c ≠ '?' := fun placeholder => template.plain p mem (placeholder ▸ hc)
    exact decide_eq_true other
  rw [template.whole, filter_intercalate _ (by decide), kept, List.map_id]

theorem pushParts_interleave {literals : List Text} (same : literals.length = parts.length)
    (out : Text) : pushParts (part :: parts) literals out = out ++ interleave part literals parts := by
  induction parts generalizing part literals out with
  | nil =>
    obtain rfl : literals = [] := List.length_eq_zero_iff.mp same
    simp [pushParts, interleave]
  | cons next parts ih =>
    cases literals with
    | nil => cases same
    | cons literal literals =>
      rw [pushParts, ih (Nat.succ.inj same)]
      simp [interleave]

theorem Template.fill (template : Template sql part parts) {literals : List Text}
    (same : literals.length = parts.length) :
    Arguments.fill sql literals = interleave part literals parts := by
  have filled := pushParts_splitOn (template.count.trans same.symm) []
  rw [template.splitOn, pushParts_interleave same] at filled
  exact filled.symm

theorem substituteInto_error_iff (arguments : MonetArguments) (sql : Text) :
    (∃ e, arguments.substituteInto sql = .error e) ↔ sql.count '?' ≠ arguments.literals.length := by
  unfold MonetArguments.substituteInto
  dsimp only
  split_ifs with differ
  · exact iff_of_true ⟨_, rfl⟩ differ
  · exact iff_of_false (fun ⟨e, same⟩ => by cases same) differ

/-- Every query text has one reading as a template, and the literals fill it in one pass,
whatever they hold; the only failure is a wrong number of them. -/
theorem substituteInto_template (arguments : MonetArguments) (sql : Text) :
    ((∃ e, arguments.substituteInto sql = .error e) ↔
      sql.count '?' ≠ arguments.literals.length) ∧
    (∃ part parts, Template sql part parts) ∧
    ∀ part parts, Template sql part parts →
      parts.length = sql.count '?' ∧ (part :: parts).flatten = sql.filter (· ≠ '?') ∧
      (sql.count '?' = arguments.literals.length →
        arguments.substituteInto sql = .ok (interleave part arguments.literals parts)) := by
  refine ⟨substituteInto_error_iff arguments sql, exists_template sql, fun part parts template => ?_⟩
  refine ⟨template.count.symm, template.flatten, fun bound => ?_⟩
  rw [substituteInto_of_count bound, template.fill (bound.symm.trans template.count)]

end SqlxMonetdb.Placeholders
