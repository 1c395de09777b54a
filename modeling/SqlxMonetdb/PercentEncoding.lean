import Mathlib

set_option autoImplicit false

namespace SqlxMonetdb.PercentEncoding

def marks : List Char :=
  ['-', '.', '_', '~', '!', '$', '&', '\'', '(', ')', '*', '+', ',', ';', '=']

/-- The unreserved characters and the sub-delimiters. -/
def isPlain (c : Char) : Bool := c.isAlphanum || marks.contains c

def hexValue (c : Char) : Option ℕ :=
  if c.isDigit then some (c.toNat - '0'.toNat)
  else if 'A' ≤ c ∧ c ≤ 'F' then some (c.toNat - 'A'.toNat + 10)
  else if 'a' ≤ c ∧ c ≤ 'f' then some (c.toNat - 'a'.toNat + 10)
  else none

def decode : List Char → Option (List UInt8)
  | [] => some []
  | '%' :: high :: low :: cs =>
    (hexValue high).bind fun h => (hexValue low).bind fun l =>
      (decode cs).map fun bytes => UInt8.ofNat (16 * h + l) :: bytes
  | c :: cs => if isPlain c then (decode cs).map fun bytes => c.toUInt8 :: bytes else none

def hexDigit (n : ℕ) : Char :=
  if n < 10 then Char.ofNat ('0'.toNat + n) else Char.ofNat ('A'.toNat + (n - 10))

def encodeByte (b : UInt8) : List Char :=
  if isPlain b.toChar then [b.toChar]
  else ['%', hexDigit (b.toNat / 16), hexDigit (b.toNat % 16)]

def encode (bytes : List UInt8) : List Char := bytes.flatMap encodeByte

theorem ascii_of_isPlain {c : Char} (h : isPlain c = true) : c.toNat < 128 := by
  rcases Bool.or_eq_true_iff.mp h with alphanum | other
  · simp only [Char.isAlphanum, Char.isAlpha, Char.isUpper, Char.isLower, Char.isDigit,
      Bool.or_eq_true, Bool.and_eq_true, decide_eq_true_eq, UInt32.le_iff_toNat_le, ge_iff_le] at alphanum
    rcases alphanum with (⟨-, upper⟩ | ⟨-, lower⟩) | ⟨-, digit⟩
    · exact lt_of_le_of_lt upper (by decide)
    · exact lt_of_le_of_lt lower (by decide)
    · exact lt_of_le_of_lt digit (by decide)
  · have all : ∀ mark ∈ marks, mark.toNat < 128 := by simp [marks]
    exact all c (List.elem_iff.mp other)

theorem not_isPlain_percent : isPlain '%' = false := by decide

theorem ne_percent_of_hexValue {c : Char} {n : ℕ} (h : hexValue c = some n) : c ≠ '%' := by
  rintro rfl
  have none : hexValue '%' = none := by decide
  rw [none] at h
  cases h

theorem decode_single {c : Char} {cs : List Char}
    (single : ∀ high low rest, c = '%' → cs = high :: low :: rest → False) :
    decode (c :: cs) =
      if isPlain c then (decode cs).map fun bytes => c.toUInt8 :: bytes else none := by
  rw [decode]
  exact single

theorem decode_delimiter {c : Char} (reserved : isPlain c = false) (literal : c ≠ '%')
    (cs : List Char) : decode (c :: cs) = none := by
  rw [decode_single fun _ _ _ percent _ => literal percent, if_neg (by simp [reserved])]

/-- A percent sign and its two digits are one byte, every other character is one byte. -/
theorem length_decode {written : List Char} {bytes : List UInt8} (h : decode written = some bytes) :
    bytes.length + 2 * written.count '%' = written.length := by
  induction written using decode.induct generalizing bytes with
  | case1 =>
    cases h
    rfl
  | case2 high low cs ih =>
    rw [decode] at h
    obtain ⟨n, first, h⟩ := Option.bind_eq_some_iff.mp h
    obtain ⟨m, second, h⟩ := Option.bind_eq_some_iff.mp h
    obtain ⟨tail, inner, rfl⟩ := Option.map_eq_some_iff.mp h
    have shorter := ih inner
    rw [List.count_cons_self, List.count_cons_of_ne (ne_percent_of_hexValue first),
      List.count_cons_of_ne (ne_percent_of_hexValue second)]
    simp only [List.length_cons]
    omega
  | case3 c cs single plain ih =>
    rw [decode_single single, if_pos plain] at h
    obtain ⟨tail, inner, rfl⟩ := Option.map_eq_some_iff.mp h
    have shorter := ih inner
    have literal : c ≠ '%' := fun percent => by
      rw [percent, not_isPlain_percent] at plain
      cases plain
    rw [List.count_cons_of_ne literal]
    simp only [List.length_cons]
    omega
  | case4 c cs single reserved =>
    rw [decode_single single, if_neg reserved] at h
    cases h

theorem decode_of_not_mem {written : List Char} {bytes : List UInt8}
    (h : decode written = some bytes) (literal : '%' ∉ written) :
    bytes = written.map Char.toUInt8 ∧ ∀ c ∈ written, isPlain c = true := by
  induction written using decode.induct generalizing bytes with
  | case1 =>
    cases h
    exact ⟨rfl, fun c mem => by cases mem⟩
  | case2 high low cs => exact absurd List.mem_cons_self literal
  | case3 c cs single plain ih =>
    rw [decode_single single, if_pos plain] at h
    obtain ⟨tail, inner, rfl⟩ := Option.map_eq_some_iff.mp h
    obtain ⟨rfl, rest⟩ := ih inner fun mem => literal (List.mem_cons_of_mem _ mem)
    exact ⟨rfl, List.forall_mem_cons.mpr ⟨plain, rest⟩⟩
  | case4 c cs single reserved =>
    rw [decode_single single, if_neg reserved] at h
    cases h

theorem hexValue_hexDigit {n : ℕ} (h : n < 16) : hexValue (hexDigit n) = some n := by
  revert n
  decide

theorem toUInt8_toChar (b : UInt8) : b.toChar.toUInt8 = b := by
  simp [UInt8.toChar, Char.toUInt8]

theorem decode_encodeByte (b : UInt8) (cs : List Char) :
    decode (encodeByte b ++ cs) = (decode cs).map fun bytes => b :: bytes := by
  have hb := b.toNat_lt
  rw [encodeByte]
  split_ifs with plain
  · have literal : b.toChar ≠ '%' := fun percent => by
      rw [percent, not_isPlain_percent] at plain
      cases plain
    rw [List.singleton_append, decode_single fun _ _ _ percent _ => literal percent, if_pos plain,
      toUInt8_toChar]
  · have high := hexValue_hexDigit (n := b.toNat / 16) (by omega)
    have low := hexValue_hexDigit (n := b.toNat % 16) (by omega)
    have whole : UInt8.ofNat (16 * (b.toNat / 16) + b.toNat % 16) = b := by
      rw [Nat.div_add_mod, UInt8.ofNat_toNat]
    simp only [List.cons_append, List.nil_append, decode, high, low, Option.bind_some, whole]

/-- Every byte sequence has a written form. -/
theorem decode_encode (bytes : List UInt8) : decode (encode bytes) = some bytes := by
  induction bytes with
  | nil => rfl
  | cons b bytes ih =>
    rw [encode] at ih ⊢
    rw [List.flatMap_cons, decode_encodeByte, ih, Option.map_some]

end SqlxMonetdb.PercentEncoding
