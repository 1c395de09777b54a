import SqlxMonetdb.Arguments
import SqlxMonetdb.Row

set_option autoImplicit false

namespace SqlxMonetdb.Values
open TextPrimitives DriverError Row Arguments

section Values

structure MonetValue where
  data : Option Text
  typeInfo : MonetTypeInfo
  deriving DecidableEq

def MonetValue.isNull (value : MonetValue) : Bool := value.data.isNone

def MonetValueRef.null (typeInfo : MonetTypeInfo) : MonetValueRef := ⟨none, typeInfo⟩

def MonetValueRef.new (data : Text) (typeInfo : MonetTypeInfo) : MonetValueRef :=
  ⟨some data, typeInfo⟩

def MonetValueRef.isNull (value : MonetValueRef) : Bool := value.data.isNone

inductive IntErrorKind where
  | empty
  | invalidDigit
  | posOverflow
  | negOverflow
  deriving DecidableEq

inductive DecodeError where
  | unexpectedNull
  | parseInt (kind : IntErrorKind)
  | message (message : Message)
  deriving DecidableEq

def MonetValueRef.text (value : MonetValueRef) : Except DecodeError Text :=
  match value.data with
  | some text => .ok text
  | none => .error .unexpectedNull

end Values

section Types

/-- The types with a `Type` implementation; `&str` is read as `String`. -/
inductive HostType where
  | i8
  | i16
  | i32
  | i64
  | bool
  | string
  | f32
  | f64
  | decimal
  | naiveDate
  | naiveTime
  | naiveDateTime
  deriving DecidableEq

def HostType.canonicalName : HostType → Text
  | .i8 => "tinyint".toList
  | .i16 => "smallint".toList
  | .i32 => "int".toList
  | .i64 => "bigint".toList
  | .bool => "boolean".toList
  | .string => "varchar".toList
  | .f32 => "real".toList
  | .f64 => "double".toList
  | .decimal => "decimal".toList
  | .naiveDate => "date".toList
  | .naiveTime => "time".toList
  | .naiveDateTime => "timestamp".toList

def HostType.typeInfo (host : HostType) : MonetTypeInfo := .new host.canonicalName

def HostType.names : HostType → List Text
  | .i8 => ["tinyint".toList]
  | .i16 => ["smallint".toList, "shortint".toList]
  | .i32 => ["int".toList, "integer".toList, "mediumint".toList, "serial".toList]
  | .i64 => ["bigint".toList, "longint".toList]
  | .bool => ["boolean".toList]
  | .string => ["char".toList, "varchar".toList, "clob".toList, "str".toList, "url".toList,
      "json".toList, "xml".toList]
  | .f32 => ["real".toList, "float".toList]
  | .f64 => ["double".toList]
  | .decimal => ["decimal".toList, "numeric".toList]
  | .naiveDate => ["date".toList]
  | .naiveTime => ["time".toList]
  | .naiveDateTime => ["timestamp".toList]

/-- The characters `eq_ignore_ascii_case` compares. -/
def asciiLower (name : Text) : Text := name.map Char.toLower

def compatibleWithNames (ty : MonetTypeInfo) (names : List Text) : Bool :=
  names.any fun name => asciiLower ty.name = asciiLower name

def HostType.compatible (host : HostType) (ty : MonetTypeInfo) : Bool :=
  compatibleWithNames ty host.names

def HostType.all : List HostType := [.i8, .i16, .i32, .i64, .bool, .string, .f32, .f64, .decimal,
  .naiveDate, .naiveTime, .naiveDateTime]

theorem HostType.mem_all (host : HostType) : host ∈ HostType.all := by
  cases host <;> decide

theorem names_disjoint : ∀ host ∈ HostType.all, ∀ other ∈ HostType.all,
    ∀ name ∈ host.names, ∀ name' ∈ other.names, asciiLower name = asciiLower name' →
      host = other := by
  decide +kernel

theorem compatible_iff {host : HostType} {ty : MonetTypeInfo} :
    host.compatible ty = true ↔ ∃ name ∈ host.names, asciiLower ty.name = asciiLower name := by
  simp [HostType.compatible, compatibleWithNames]

theorem compatible_unique (host : HostType) :
    host.compatible host.typeInfo = true ∧
    ∀ (ty : MonetTypeInfo) (other : HostType), host.compatible ty = true →
      other.compatible ty = true → host = other := by
  refine ⟨?_, fun ty other reads reads' => ?_⟩
  · cases host <;> decide
  · obtain ⟨name, mem, same⟩ := compatible_iff.mp reads
    obtain ⟨name', mem', same'⟩ := compatible_iff.mp reads'
    exact names_disjoint host host.mem_all other other.mem_all name mem name' mem'
      (same.symm.trans same')

end Types

section Decoding

/-- The loop of `from_str`: each digit is checked before the sum it leads to. -/
def takeDigits (fits : ℕ → Bool) (overflow : IntErrorKind) : Text → ℕ → Except IntErrorKind ℕ
  | [], n => .ok n
  | c :: digits, n =>
    if c.isDigit then
      let n := 10 * n + (c.toNat - '0'.toNat)
      if fits n then takeDigits fits overflow digits n else .error overflow
    else .error .invalidDigit

/-- `from_str` of the signed type with the values from `-bound` to `bound - 1`. -/
def parseInt (bound : ℕ) (src : Text) : Except IntErrorKind ℤ :=
  match src with
  | [] => .error .empty
  | c :: digits =>
    if (c = '+' ∨ c = '-') ∧ digits = [] then .error .invalidDigit
    else if c = '+' then (takeDigits (· < bound) .posOverflow digits 0).map fun n : ℕ => (n : ℤ)
    else if c = '-' then (takeDigits (· ≤ bound) .negOverflow digits 0).map fun n : ℕ => -(n : ℤ)
    else (takeDigits (· < bound) .posOverflow src 0).map fun n : ℕ => (n : ℤ)

class Decode (τ : Type) where
  decode : MonetValueRef → Except DecodeError τ

/-- The `decode` of `impl_integer_type!`, for any of the widths. -/
def decodeInteger (bound : ℕ) (value : MonetValueRef) : Except DecodeError ℤ := do
  let text ← MonetValueRef.text value
  (parseInt bound text).mapError DecodeError.parseInt

instance : Decode Int8 := ⟨fun value => (decodeInteger (2 ^ 7) value).map Int8.ofInt⟩

instance : Decode Int16 := ⟨fun value => (decodeInteger (2 ^ 15) value).map Int16.ofInt⟩

instance : Decode Int32 := ⟨fun value => (decodeInteger (2 ^ 31) value).map Int32.ofInt⟩

instance : Decode Int64 := ⟨fun value => (decodeInteger (2 ^ 63) value).map Int64.ofInt⟩

instance : Decode Bool where
  decode value := do
    let text ← MonetValueRef.text value
    if text = "true".toList then .ok true
    else if text = "false".toList then .ok false
    else .error (.message [.text "invalid boolean literal: ", .debug text])

instance : Decode Text := ⟨MonetValueRef.text⟩

end Decoding

section Integers

/-- A text that writes an integer: digits, behind a sign or not. -/
inductive Writes : Text → ℤ → Prop where
  | plain {digits : Text} {n : ℕ} (read : parseDigits digits = some n) : Writes digits n
  | plus {digits : Text} {n : ℕ} (read : parseDigits digits = some n) : Writes ('+' :: digits) n
  | minus {digits : Text} {n : ℕ} (read : parseDigits digits = some n) : Writes ('-' :: digits) (-n)

theorem le_ofDigitChars (digits : Text) (n : ℕ) : n ≤ Nat.ofDigitChars 10 digits n := by
  induction digits generalizing n with
  | nil => exact (Nat.ofDigitChars_nil).ge
  | cons c digits ih =>
    rw [Nat.ofDigitChars_cons]
    exact le_trans (by omega) (ih _)

theorem parseDigits_eq_some {digits : Text} {n : ℕ} : parseDigits digits = some n ↔
    digits ≠ [] ∧ (∀ c ∈ digits, c.isDigit = true) ∧ Nat.ofDigitChars 10 digits 0 = n := by
  unfold parseDigits
  simp only [List.all_eq_true, Option.ite_none_right_eq_some, Option.some.injEq, and_assoc]

variable {fits : ℕ → Bool} {overflow : IntErrorKind}

theorem takeDigits_eq_ok (down : ∀ a b, a ≤ b → fits b = true → fits a = true) {digits : Text}
    {n m : ℕ} : takeDigits fits overflow digits n = .ok m ↔
      (∀ c ∈ digits, c.isDigit = true) ∧ Nat.ofDigitChars 10 digits n = m ∧
        (digits ≠ [] → fits m = true) := by
  -- the sums only grow, so all of them fit if the last one does
  induction digits generalizing n with
  | nil => simp [takeDigits]
  | cons c digits ih =>
    rw [takeDigits, Nat.ofDigitChars_cons]
    by_cases digit : c.isDigit = true
    · rw [if_pos digit]
      dsimp only
      have grows := le_ofDigitChars digits (10 * n + (c.toNat - '0'.toNat))
      split
      · rename_i fit
        rw [ih]
        constructor
        · rintro ⟨all, rfl, last⟩
          refine ⟨by simpa [digit] using all, rfl, fun _ => ?_⟩
          cases digits with
          | nil => simpa using fit
          | cons d digits => exact last (List.cons_ne_nil _ _)
        · rintro ⟨all, rfl, last⟩
          exact ⟨fun d mem => all d (by simp [mem]), rfl, fun _ => last (List.cons_ne_nil _ _)⟩
      · rename_i unfit
        simp only [reduceCtorEq, false_iff]
        rintro ⟨-, rfl, last⟩
        exact unfit (down _ _ grows (last (List.cons_ne_nil _ _)))
    · rw [if_neg digit]
      simp only [reduceCtorEq, false_iff]
      rintro ⟨all, -⟩
      exact digit (all c (by simp))

theorem takeDigits_iff (down : ∀ a b, a ≤ b → fits b = true → fits a = true) {digits : Text}
    (nonempty : digits ≠ []) {m : ℕ} : takeDigits fits overflow digits 0 = .ok m ↔
      parseDigits digits = some m ∧ fits m = true := by
  rw [takeDigits_eq_ok down, parseDigits_eq_some]
  tauto

theorem takeDigits_lt {bound : ℕ} {digits : Text} (nonempty : digits ≠ []) {m : ℕ} :
    takeDigits (· < bound) overflow digits 0 = .ok m ↔ parseDigits digits = some m ∧ m < bound := by
  rw [takeDigits_iff (fun a b le fit => by simp at fit ⊢; omega) nonempty, decide_eq_true_iff]

theorem takeDigits_le {bound : ℕ} {digits : Text} (nonempty : digits ≠ []) {m : ℕ} :
    takeDigits (· ≤ bound) overflow digits 0 = .ok m ↔ parseDigits digits = some m ∧ m ≤ bound := by
  rw [takeDigits_iff (fun a b le fit => by simp at fit ⊢; omega) nonempty, decide_eq_true_iff]

theorem parseDigits_cons {c : Char} (sign : c.isDigit = false) (digits : Text) :
    parseDigits (c :: digits) = none := by
  rw [Option.eq_none_iff_forall_ne_some]
  intro n read
  have digit := (parseDigits_eq_some.mp read).2.1 c (by simp)
  rw [sign] at digit
  cases digit

theorem writes_iff {c : Char} {digits : Text} {n : ℤ} : Writes (c :: digits) n ↔
    (c = '+' ∧ ∃ m : ℕ, parseDigits digits = some m ∧ (m : ℤ) = n) ∨
    (c = '-' ∧ ∃ m : ℕ, parseDigits digits = some m ∧ -(m : ℤ) = n) ∨
    (∃ m : ℕ, parseDigits (c :: digits) = some m ∧ (m : ℤ) = n) := by
  constructor
  · intro writes
    cases writes with
    | plain read => exact .inr (.inr ⟨_, read, rfl⟩)
    | plus read => exact .inl ⟨rfl, _, read, rfl⟩
    | minus read => exact .inr (.inl ⟨rfl, _, read, rfl⟩)
  · rintro (⟨rfl, m, read, rfl⟩ | ⟨rfl, m, read, rfl⟩ | ⟨m, read, rfl⟩)
    · exact .plus read
    · exact .minus read
    · exact .plain read

theorem positive_eq_ok {bound : ℕ} {digits : Text} (nonempty : digits ≠ []) {n : ℤ} :
    (takeDigits (· < bound) overflow digits 0).map (fun m : ℕ => (m : ℤ)) = .ok n ↔
      (∃ m : ℕ, parseDigits digits = some m ∧ (m : ℤ) = n) ∧ -(bound : ℤ) ≤ n ∧ n < bound := by
  simp only [map_eq_ok, takeDigits_lt nonempty]
  constructor
  · rintro ⟨m, ⟨read, less⟩, rfl⟩
    exact ⟨⟨m, read, rfl⟩, by omega, by omega⟩
  · rintro ⟨⟨m, read, rfl⟩, -, less⟩
    exact ⟨m, ⟨read, by omega⟩, rfl⟩

theorem negative_eq_ok {bound : ℕ} (some_value : 0 < bound) {digits : Text}
    (nonempty : digits ≠ []) {n : ℤ} :
    (takeDigits (· ≤ bound) overflow digits 0).map (fun m : ℕ => -(m : ℤ)) = .ok n ↔
      (∃ m : ℕ, parseDigits digits = some m ∧ -(m : ℤ) = n) ∧ -(bound : ℤ) ≤ n ∧ n < bound := by
  simp only [map_eq_ok, takeDigits_le nonempty]
  constructor
  · rintro ⟨m, ⟨read, within⟩, rfl⟩
    exact ⟨⟨m, read, rfl⟩, by omega, by omega⟩
  · rintro ⟨⟨m, read, rfl⟩, within, -⟩
    exact ⟨m, ⟨read, by omega⟩, rfl⟩

theorem parseInt_eq_ok {bound : ℕ} (some_value : 0 < bound) {src : Text} {n : ℤ} :
    parseInt bound src = .ok n ↔ Writes src n ∧ -(bound : ℤ) ≤ n ∧ n < bound := by
  cases src with
  | nil =>
    simp only [parseInt, reduceCtorEq, false_iff]
    rintro ⟨writes, -⟩
    cases writes with
    | plain read => exact (parseDigits_eq_some.mp read).1 rfl
  | cons c digits =>
    have nothing : parseDigits [] = none := rfl
    rw [writes_iff, parseInt]
    by_cases plus : c = '+'
    · subst plus
      rw [parseDigits_cons (by decide) digits]
      by_cases alone : digits = []
      · simp [alone, nothing]
      · simp [alone, positive_eq_ok alone]
    · by_cases minus : c = '-'
      · subst minus
        rw [parseDigits_cons (by decide) digits]
        by_cases alone : digits = []
        · simp [alone, nothing]
        · simp [alone, negative_eq_ok some_value alone]
      · simp [plus, minus, positive_eq_ok (List.cons_ne_nil c digits)]

end Integers

section Fields

theorem text_eq_ok {value : MonetValueRef} {text : Text} :
    MonetValueRef.text value = .ok text ↔ value.data = some text := by
  unfold MonetValueRef.text
  cases value.data <;> simp

theorem decodeInteger_eq_ok {bound : ℕ} (some_value : 0 < bound) {value : MonetValueRef} {n : ℤ} :
    decodeInteger bound value = .ok n ↔
      ∃ src, value.data = some src ∧ Writes src n ∧ -(bound : ℤ) ≤ n ∧ n < bound := by
  simp only [decodeInteger, bind_eq_ok, mapError_eq_ok, text_eq_ok, parseInt_eq_ok some_value]

theorem decode_width {τ : Type} {bound : ℕ} {of : ℤ → τ} {value : τ → ℤ} (some_value : 0 < bound)
    (back : ∀ n, of (value n) = n)
    (kept : ∀ k, -(bound : ℤ) ≤ k → k < bound → value (of k) = k)
    (range : ∀ n, -(bound : ℤ) ≤ value n ∧ value n < bound) {field : MonetValueRef} {n : τ} :
    (decodeInteger bound field).map of = .ok n ↔
      ∃ src, field.data = some src ∧ Writes src (value n) := by
  simp only [map_eq_ok, decodeInteger_eq_ok some_value]
  constructor
  · rintro ⟨k, ⟨src, data, writes, lower, upper⟩, rfl⟩
    rw [kept k lower upper]
    exact ⟨src, data, writes⟩
  · rintro ⟨src, data, writes⟩
    exact ⟨value n, ⟨src, data, writes, (range n).1, (range n).2⟩, back n⟩

/-- The field of a row that holds the value. -/
def Spells (field : Option Text) : BoundValue → Prop
  | .tinyint n => ∃ src, field = some src ∧ Writes src n.toInt
  | .smallint n => ∃ src, field = some src ∧ Writes src n.toInt
  | .int n => ∃ src, field = some src ∧ Writes src n.toInt
  | .bigint n => ∃ src, field = some src ∧ Writes src n.toInt
  | .boolean b => field = some (if b then "true".toList else "false".toList)
  | .text s => field = some s
  | .null => field = none

/-- What a user who asks for the type of the value gets: the value, or that there is none. -/
def Decoded (field : MonetValueRef) : BoundValue → Prop
  | .tinyint n => Decode.decode field = .ok n
  | .smallint n => Decode.decode field = .ok n
  | .int n => Decode.decode field = .ok n
  | .bigint n => Decode.decode field = .ok n
  | .boolean b => Decode.decode field = .ok b
  | .text s => Decode.decode field = .ok s
  | .null => MonetValueRef.isNull field = true

theorem decode_bool {field : MonetValueRef} {b : Bool} : Decode.decode field = .ok b ↔
    field.data = some (if b then "true".toList else "false".toList) := by
  change (MonetValueRef.text field >>= fun text => _) = _ ↔ _
  simp only [bind_eq_ok, text_eq_ok]
  constructor
  · rintro ⟨text, data, read⟩
    rw [data]
    split_ifs at read with isTrue isFalse
    · cases read
      exact congrArg some isTrue
    · cases read
      exact congrArg some isFalse
  · intro data
    refine ⟨_, data, ?_⟩
    cases b <;> rfl

/-- A field decodes to a value exactly when it holds the value: no other text is taken for
it, and none of its texts is refused. -/
theorem decoded_iff (field : MonetValueRef) (value : BoundValue) :
    Decoded field value ↔ Spells field.data value := by
  cases value with
  | tinyint n =>
    exact decode_width (by decide) (fun n => Int8.ofInt_toInt n)
      (fun k lower upper => Int8.toInt_ofInt_of_le lower upper) fun n => ⟨n.le_toInt, n.toInt_lt⟩
  | smallint n =>
    exact decode_width (by decide) (fun n => Int16.ofInt_toInt n)
      (fun k lower upper => Int16.toInt_ofInt_of_le lower upper) fun n => ⟨n.le_toInt, n.toInt_lt⟩
  | int n =>
    exact decode_width (by decide) (fun n => Int32.ofInt_toInt n)
      (fun k lower upper => Int32.toInt_ofInt_of_le lower upper) fun n => ⟨n.le_toInt, n.toInt_lt⟩
  | bigint n =>
    exact decode_width (by decide) (fun n => Int64.ofInt_toInt n)
      (fun k lower upper => Int64.toInt_ofInt_of_le lower upper) fun n => ⟨n.le_toInt, n.toInt_lt⟩
  | boolean b => exact decode_bool
  | text s => exact text_eq_ok
  | null => exact Option.isNone_iff_eq_none

end Fields

end SqlxMonetdb.Values
