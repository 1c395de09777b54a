import SqlxMonetdb.ListSplitting

set_option autoImplicit false

namespace SqlxMonetdb.TextPrimitives
open ListSplitting

abbrev Text := List Char

def isWhitespace (c : Char) : Bool :=
  let n := c.toNat
  (9 ≤ n && n ≤ 13) || n == 0x20 || n == 0x85 || n == 0xA0 || n == 0x1680 ||
    (0x2000 ≤ n && n ≤ 0x200A) || n == 0x2028 || n == 0x2029 || n == 0x202F ||
    n == 0x205F || n == 0x3000

def trim (s : Text) : Text := trimBy isWhitespace s

def splitWhitespace (s : Text) : List Text :=
  (s.splitOnP isWhitespace).filter (· ≠ [])

section Integers

/-- A non-empty run of decimal digits. -/
def parseDigits (s : Text) : Option ℕ :=
  if s ≠ [] ∧ s.all Char.isDigit then some (Nat.ofDigitChars 10 s 0) else none

/-- `from_str` of an unsigned type with the values below `bound`. -/
def parseUnsigned (bound : ℕ) : Text → Option ℕ
  | '+' :: digits => (parseDigits digits).filter (· < bound)
  | digits => (parseDigits digits).filter (· < bound)

/-- `from_str` of a signed type with the values from `-bound` to `bound - 1`. -/
def parseSigned (bound : ℕ) : Text → Option ℤ
  | '-' :: digits => ((parseDigits digits).filter (· ≤ bound)).map fun n : ℕ => -(n : ℤ)
  | '+' :: digits => ((parseDigits digits).filter (· < bound)).map fun n : ℕ => (n : ℤ)
  | digits => ((parseDigits digits).filter (· < bound)).map fun n : ℕ => (n : ℤ)

def parseU64 (s : Text) : Option UInt64 := (parseUnsigned (2 ^ 64) s).map UInt64.ofNat

def parseI64 (s : Text) : Option Int64 := (parseSigned (2 ^ 63) s).map Int64.ofInt

def parseU8 (s : Text) : Option UInt8 := (parseUnsigned (2 ^ 8) s).map UInt8.ofNat

def parseU16 (s : Text) : Option UInt16 := (parseUnsigned (2 ^ 16) s).map UInt16.ofNat

def decimal (n : ℕ) : Text := Nat.toDigits 10 n

def signedDecimal : ℤ → Text
  | .ofNat n => decimal n
  | .negSucc n => '-' :: decimal (n + 1)

theorem decimal_ne_nil (n : ℕ) : decimal n ≠ [] := Nat.toDigits_ne_nil

theorem isDigit_of_mem_decimal {n : ℕ} {c : Char} (h : c ∈ decimal n) : c.isDigit = true :=
  Nat.isDigit_of_mem_toDigits (by decide) (by decide) h

theorem not_mem_decimal {c : Char} (h : c.isDigit = false) (n : ℕ) : c ∉ decimal n := fun mem => by
  rw [isDigit_of_mem_decimal mem] at h
  cases h

theorem parseDigits_decimal (n : ℕ) : parseDigits (decimal n) = some n := by
  have digits : (decimal n).all Char.isDigit = true :=
    List.all_eq_true.mpr fun c hc => isDigit_of_mem_decimal hc
  rw [parseDigits, if_pos ⟨decimal_ne_nil n, digits⟩, decimal, Nat.ofDigitChars_ten_toDigits]

/-- A decimal starts with a digit, so no sign is read off it. -/
theorem decimal_cases (n : ℕ) : ∃ c s, decimal n = c :: s ∧ c.isDigit = true := by
  cases h : decimal n with
  | nil => exact absurd h (decimal_ne_nil n)
  | cons c s => exact ⟨c, s, rfl, isDigit_of_mem_decimal (by rw [h]; simp)⟩

theorem parseUnsigned_decimal {bound n : ℕ} (h : n < bound) :
    parseUnsigned bound (decimal n) = some n := by
  obtain ⟨c, s, hd, hc⟩ := decimal_cases n
  have plain : parseUnsigned bound (decimal n) = (parseDigits (decimal n)).filter (· < bound) := by
    rw [hd, parseUnsigned]
    rintro rest ⟨rfl, -⟩
    exact absurd hc (by decide)
  rw [plain, parseDigits_decimal]
  simp [h]

theorem isDigit_of_parseDigits {s : Text} {n : ℕ} (h : parseDigits s = some n) {c : Char}
    (mem : c ∈ s) : c.isDigit = true := by
  unfold parseDigits at h
  split_ifs at h with digits
  exact List.all_eq_true.mp digits.2 c mem

/-- A number is written with digits, and perhaps a plus sign in front of them. -/
theorem not_mem_of_parseUnsigned {bound n : ℕ} {s : Text} (h : parseUnsigned bound s = some n)
    {c : Char} (digit : c.isDigit = false) (plus : c ≠ '+') : c ∉ s := by
  intro mem
  unfold parseUnsigned at h
  split at h
  · rcases List.mem_cons.mp mem with rfl | behind
    · exact plus rfl
    · have isDigit := isDigit_of_parseDigits (Option.filter_eq_some_iff.mp h).1 behind
      rw [digit] at isDigit
      cases isDigit
  · have isDigit := isDigit_of_parseDigits (Option.filter_eq_some_iff.mp h).1 mem
    rw [digit] at isDigit
    cases isDigit

theorem parseSigned_signedDecimal {bound : ℕ} {n : ℤ} (lower : -(bound : ℤ) ≤ n)
    (upper : n < bound) : parseSigned bound (signedDecimal n) = some n := by
  cases n with
  | ofNat n =>
    have hn : n < bound := by simpa using upper
    obtain ⟨c, s, hd, hc⟩ := decimal_cases n
    have plain : parseSigned bound (decimal n) =
        ((parseDigits (decimal n)).filter (· < bound)).map fun n : ℕ => (n : ℤ) := by
      rw [hd, parseSigned]
      · rintro rest ⟨rfl, -⟩
        exact absurd hc (by decide)
      · rintro rest ⟨rfl, -⟩
        exact absurd hc (by decide)
    rw [signedDecimal, plain, parseDigits_decimal]
    simp [hn]
  | negSucc n =>
    have hn : n + 1 ≤ bound := by omega
    rw [signedDecimal, parseSigned, parseDigits_decimal]
    simp [hn, Int.negSucc_eq]

theorem parseU64_decimal (n : UInt64) : parseU64 (decimal n.toNat) = some n := by
  rw [parseU64, parseUnsigned_decimal n.toNat_lt]
  simp

theorem parseI64_signedDecimal (n : Int64) : parseI64 (signedDecimal n.toInt) = some n := by
  rw [parseI64, parseSigned_signedDecimal n.le_toInt n.toInt_lt]
  simp

theorem parseU8_decimal (n : UInt8) : parseU8 (decimal n.toNat) = some n := by
  rw [parseU8, parseUnsigned_decimal n.toNat_lt]
  simp

theorem parseU16_decimal (n : UInt16) : parseU16 (decimal n.toNat) = some n := by
  rw [parseU16, parseUnsigned_decimal n.toNat_lt]
  simp

end Integers

section Whitespace

theorem isWhitespace_of_isDigit {c : Char} (h : c.isDigit = true) : isWhitespace c = false := by
  have lower : 48 ≤ c.toNat := by
    simp only [Char.isDigit, Bool.and_eq_true, decide_eq_true_eq] at h
    exact h.1
  have upper : c.toNat ≤ 57 := by
    simp only [Char.isDigit, Bool.and_eq_true, decide_eq_true_eq] at h
    exact h.2
  simp only [isWhitespace, Bool.or_eq_false_iff, Bool.and_eq_false_iff, decide_eq_false_iff_not,
    beq_eq_false_iff_ne]
  omega

theorem not_whitespace_of_mem_decimal {n : ℕ} {c : Char} (h : c ∈ decimal n) :
    isWhitespace c = false := isWhitespace_of_isDigit (isDigit_of_mem_decimal h)

theorem whitespace_space : ∀ c ∈ [' '], isWhitespace c = true :=
  List.forall_mem_singleton.mpr (by decide)

theorem whitespace_tab : ∀ c ∈ ['\t'], isWhitespace c = true :=
  List.forall_mem_singleton.mpr (by decide)

/-- Words without white space, joined by single spaces, are read back. -/
theorem splitWhitespace_words {words : List Text}
    (h : ∀ w ∈ words, w ≠ [] ∧ ∀ c ∈ w, isWhitespace c = false) :
    splitWhitespace ([' '].intercalate words) = words := by
  induction words with
  | nil => rfl
  | cons w words ih =>
    obtain ⟨hw, noSpace⟩ := h w (by simp)
    have rest := ih fun v hv => h v (by simp [hv])
    cases words with
    | nil => simp [splitWhitespace, List.splitOnP_eq_singleton noSpace, hw]
    | cons v words =>
      rw [splitWhitespace] at rest ⊢
      rw [List.intercalate_cons_cons, List.append_assoc, List.singleton_append,
        List.splitOnP_append_cons_of_forall_mem noSpace ' ' (by decide),
        List.filter_cons_of_pos (by simpa using hw), rest]

theorem splitWhitespace_space (s : Text) : splitWhitespace (' ' :: s) = splitWhitespace s := by
  rw [splitWhitespace, List.splitOnP_cons_eq_if_modifyHead, if_pos (by decide)]
  rfl

end Whitespace

section Utf8

def utf8Encode (s : Text) : List UInt8 := s.flatMap String.utf8EncodeChar

/-- `String::from_utf8`. -/
def fromUtf8 (bytes : List UInt8) : Option Text :=
  (ByteArray.utf8Decode? bytes.toByteArray).map Array.toList

theorem fromUtf8_utf8Encode (s : Text) : fromUtf8 (utf8Encode s) = some s := by
  have h := List.utf8Decode?_utf8Encode (l := s)
  rw [List.utf8Encode] at h
  simp [fromUtf8, utf8Encode, h]

theorem fromUtf8_eq_some_iff {bytes : List UInt8} {s : Text} :
    fromUtf8 bytes = some s ↔ bytes = utf8Encode s := by
  constructor
  · intro h
    obtain ⟨chars, decoded, rfl⟩ := Option.map_eq_some_iff.mp h
    have valid : (ByteArray.utf8Decode? bytes.toByteArray).isSome := by rw [decoded]; rfl
    have encoded := ByteArray.utf8Encode_get_utf8Decode? (h := valid)
    simp only [decoded, Option.get_some] at encoded
    have same := congrArg (fun b => b.data.toList) encoded
    simpa [List.utf8Encode, utf8Encode] using same.symm
  · rintro rfl
    exact fromUtf8_utf8Encode s

@[simp] theorem utf8Encode_append (s t : Text) :
    utf8Encode (s ++ t) = utf8Encode s ++ utf8Encode t := List.flatMap_append

theorem utf8Encode_ascii {s : Text} (h : ∀ c ∈ s, c.toNat < 128) :
    utf8Encode s = s.map Char.toUInt8 := by
  induction s with
  | nil => rfl
  | cons c s ih =>
    have one : c.utf8Size = 1 :=
      Char.utf8Size_eq_one_iff.mpr (UInt32.le_iff_toNat_le.mpr (Nat.le_of_lt_succ (h c (by simp))))
    have rest := ih fun d mem => h d (by simp [mem])
    rw [utf8Encode] at rest ⊢
    rw [List.flatMap_cons, String.utf8EncodeChar_eq_singleton one, rest]
    rfl

theorem length_le_utf8Encode (s : Text) : s.length ≤ (utf8Encode s).length := by
  induction s with
  | nil => exact Nat.zero_le _
  | cons c s ih =>
    have some_byte := c.utf8Size_pos
    rw [utf8Encode] at ih ⊢
    rw [List.flatMap_cons, List.length_append, String.length_utf8EncodeChar, List.length_cons]
    omega

end Utf8

end SqlxMonetdb.TextPrimitives
