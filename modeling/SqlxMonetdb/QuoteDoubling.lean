import Mathlib

set_option autoImplicit false

namespace SqlxMonetdb.QuoteDoubling

variable {α : Type} [DecidableEq α] (q : α)

def double (s : List α) : List α := s.flatMap fun c => if c = q then [q, q] else [c]

/-- The value in front of the closing quote, and what is behind it. -/
def readDoubled : List α → Option (List α × List α)
  | [] => none
  | [c] => if c = q then some ([], []) else none
  | c :: d :: cs =>
    if c = q then
      if d = q then (readDoubled cs).map fun (s, rest) => (q :: s, rest) else some ([], d :: cs)
    else (readDoubled (d :: cs)).map fun (s, rest) => (c :: s, rest)

def readLiteral : List α → Option (List α × List α)
  | [] => none
  | c :: cs => if c = q then readDoubled q cs else none

variable {q}

theorem double_cons_self (s : List α) : double q (q :: s) = q :: q :: double q s := by
  rw [double, List.flatMap_cons, if_pos rfl]
  rfl

theorem double_cons_of_ne {c : α} (h : c ≠ q) (s : List α) :
    double q (c :: s) = c :: double q s := by
  rw [double, List.flatMap_cons, if_neg h]
  rfl

theorem length_double (s : List α) : (double q s).length = s.length + s.count q := by
  induction s with
  | nil => rfl
  | cons c s ih =>
    by_cases quote : c = q
    · subst quote
      rw [double_cons_self, List.count_cons_self]
      simp only [List.length_cons, ih]
      omega
    · rw [double_cons_of_ne quote, List.count_cons_of_ne quote]
      simp only [List.length_cons, ih]
      omega

theorem readDoubled_two (cs : List α) :
    readDoubled q (q :: q :: cs) = (readDoubled q cs).map fun (s, rest) => (q :: s, rest) := by
  rw [readDoubled, if_pos rfl, if_pos rfl]

theorem readDoubled_close {rest : List α} (h : rest.head? ≠ some q) :
    readDoubled q (q :: rest) = some ([], rest) := by
  cases rest with
  | nil => rw [readDoubled, if_pos rfl]
  | cons d cs =>
    have other : d ≠ q := by simpa using h
    rw [readDoubled, if_pos rfl, if_neg other]

theorem readDoubled_plain {c : α} (h : c ≠ q) (cs : List α) :
    readDoubled q (c :: cs) = (readDoubled q cs).map fun (s, rest) => (c :: s, rest) := by
  cases cs with
  | nil => simp [readDoubled, h]
  | cons d cs => rw [readDoubled, if_neg h]

theorem readDoubled_double (s : List α) {rest : List α} (h : rest.head? ≠ some q) :
    readDoubled q (double q s ++ q :: rest) = some (s, rest) := by
  induction s with
  | nil => exact readDoubled_close h
  | cons c s ih =>
    by_cases quote : c = q
    · subst quote
      rw [double_cons_self, List.cons_append, List.cons_append, readDoubled_two, ih]
      rfl
    · rw [double_cons_of_ne quote, List.cons_append, readDoubled_plain quote, ih]
      rfl

/-- What is read as a value is that value with its quotes doubled, up to the first quote
that no second one follows. -/
theorem readDoubled_iff {input s rest : List α} :
    readDoubled q input = some (s, rest) ↔
      input = double q s ++ q :: rest ∧ rest.head? ≠ some q := by
  refine ⟨fun h => ?_, fun ⟨whole, h⟩ => by rw [whole]; exact readDoubled_double s h⟩
  induction input using readDoubled.induct q generalizing s with
  | case1 => cases h
  | case2 =>
    rw [readDoubled_close (by simp)] at h
    cases h
    exact ⟨rfl, by simp⟩
  | case3 c plain =>
    rw [readDoubled_plain plain] at h
    cases h
  | case4 cs ih =>
    rw [readDoubled_two] at h
    obtain ⟨⟨tail, rest'⟩, inner, value⟩ := Option.map_eq_some_iff.mp h
    cases value
    obtain ⟨rfl, closed⟩ := ih inner
    exact ⟨by rw [double_cons_self]; rfl, closed⟩
  | case5 d cs other =>
    rw [readDoubled_close (by simpa using other)] at h
    cases h
    exact ⟨rfl, by simpa using other⟩
  | case6 c d cs plain ih =>
    rw [readDoubled_plain plain] at h
    obtain ⟨⟨tail, rest'⟩, inner, value⟩ := Option.map_eq_some_iff.mp h
    cases value
    obtain ⟨whole, closed⟩ := ih inner
    exact ⟨by rw [whole, double_cons_of_ne plain]; rfl, closed⟩

theorem readLiteral_iff {input s rest : List α} :
    readLiteral q input = some (s, rest) ↔
      input = q :: (double q s ++ q :: rest) ∧ rest.head? ≠ some q := by
  cases input with
  | nil => simp [readLiteral]
  | cons c cs =>
    rw [readLiteral]
    by_cases quote : c = q
    · rw [if_pos quote, readDoubled_iff, quote, List.cons.injEq, and_iff_right rfl]
    · simp [quote]

end SqlxMonetdb.QuoteDoubling
