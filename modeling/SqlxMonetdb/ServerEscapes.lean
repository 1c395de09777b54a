import SqlxMonetdb.ResponseRendering

set_option autoImplicit false

namespace SqlxMonetdb.ServerEscapes
open ListSplitting TextPrimitives DriverError Response ResponseRendering

section Rendering

def octalDigits (n : ℕ) : Text :=
  [Nat.digitChar (n / 64), Nat.digitChar (n / 8 % 8), Nat.digitChar (n % 8)]

def formFeed : Char := .ofNat 0x0C

/-- A control character: below `0x20`, or `0x7F`. -/
def IsControl (c : Char) : Prop := c.toNat < 0x20 ∨ c.toNat = 0x7F

instance (c : Char) : Decidable (IsControl c) := inferInstanceAs (Decidable (_ ∨ _))

def serverEscape (c : Char) : Text :=
  if c = '\t' then ['\\', 't']
  else if c = '\n' then ['\\', 'n']
  else if c = '\r' then ['\\', 'r']
  else if c = formFeed then ['\\', 'f']
  else if c = '\\' ∨ c = '"' then ['\\', c]
  else if IsControl c then '\\' :: octalDigits c.toNat
  else [c]

def serverField (s : Text) : Text := '"' :: (s.flatMap serverEscape ++ ['"'])

end Rendering

section Reading

def KeptEscaped (c : Char) : Prop := IsControl c ∧ c ≠ '\t' ∧ c ≠ '\n' ∧ c ≠ '\r'

instance (c : Char) : Decidable (KeptEscaped c) := inferInstanceAs (Decidable (_ ∧ _))

/-- What the reader makes of the server's rendering of one character. -/
def readBack (c : Char) : Text := if KeptEscaped c then serverEscape c else [c]

theorem digitChar_plain {d : ℕ} (h : d < 8) :
    Nat.digitChar d ≠ '\\' ∧ escaped (Nat.digitChar d) = ['\\', Nat.digitChar d] := by
  revert d
  decide

theorem unescape_octal {n : ℕ} (h : n < 2 ^ 7) (cs : Text) :
    unescape ('\\' :: (octalDigits n ++ cs)) = '\\' :: (octalDigits n ++ unescape cs) := by
  obtain ⟨-, first⟩ := @digitChar_plain (n / 64) (by omega)
  obtain ⟨second, -⟩ := @digitChar_plain (n / 8 % 8) (by omega)
  obtain ⟨third, -⟩ := @digitChar_plain (n % 8) (by omega)
  simp only [octalDigits, List.cons_append, List.nil_append]
  rw [unescape_pair, first, unescape_cons_of_ne second, unescape_cons_of_ne third]
  rfl

theorem unescape_serverEscape (c : Char) (cs : Text) :
    unescape (serverEscape c ++ cs) = readBack c ++ unescape cs := by
  unfold serverEscape
  split_ifs with tab newline cr feed special control
  · subst tab
    exact unescape_pair 't' cs
  · subst newline
    exact unescape_pair 'n' cs
  · subst cr
    exact unescape_pair 'r' cs
  · subst feed
    exact unescape_pair 'f' cs
  · have printed : readBack c = [c] := by
      rcases special with rfl | rfl <;> rfl
    have known : escaped c = [c] := by
      rcases special with rfl | rfl <;> rfl
    rw [printed, List.cons_append, List.cons_append, List.nil_append, unescape_pair, known]
  · have kept : readBack c = '\\' :: octalDigits c.toNat := by
      rw [readBack, if_pos ⟨control, tab, newline, cr⟩, serverEscape, if_neg tab, if_neg newline,
        if_neg cr, if_neg feed, if_neg special, if_pos control]
    have small : c.toNat < 2 ^ 7 := by
      rcases control with low | delete <;> omega
    rw [kept, List.cons_append, unescape_octal small]
    rfl
  · have printed : readBack c = [c] := if_neg fun kept => control kept.1
    rw [printed, List.singleton_append, List.singleton_append]
    exact unescape_cons_of_ne (fun backslash => special (.inl backslash)) cs

theorem unescape_flatMap (s : Text) : unescape (s.flatMap serverEscape) = s.flatMap readBack := by
  induction s with
  | nil => rfl
  | cons c s ih => rw [List.flatMap_cons, unescape_serverEscape, ih, List.flatMap_cons]

theorem unescapeField_serverField (s : Text) :
    unescapeField (serverField s) = .ok (some (s.flatMap readBack)) := by
  rw [serverField, ← unescape_flatMap]
  exact unescapeField_quoted .double _

end Reading

section Faithful

theorem length_readBack_pos (c : Char) : 1 ≤ (readBack c).length := by
  unfold readBack serverEscape
  split_ifs <;> simp

theorem length_readBack_of_kept {c : Char} (kept : KeptEscaped c) : 2 ≤ (readBack c).length := by
  obtain ⟨control, tab, newline, cr⟩ := kept
  rw [readBack, if_pos ⟨control, tab, newline, cr⟩, serverEscape, if_neg tab, if_neg newline,
    if_neg cr]
  split_ifs <;> simp [octalDigits]

theorem length_le_flatMap_readBack (s : Text) : s.length ≤ (s.flatMap readBack).length := by
  induction s with
  | nil => rfl
  | cons c s ih =>
    have head := length_readBack_pos c
    rw [List.flatMap_cons, List.length_append, List.length_cons]
    omega

theorem flatMap_readBack_eq_iff (s : Text) :
    s.flatMap readBack = s ↔ ∀ c ∈ s, ¬ KeptEscaped c := by
  induction s with
  | nil => simp
  | cons c s ih =>
    rw [List.flatMap_cons, List.forall_mem_cons]
    by_cases kept : KeptEscaped c
    · -- an escape left in the value makes it longer than the string
      have longer := length_readBack_of_kept kept
      have rest := length_le_flatMap_readBack s
      refine iff_of_false (fun same => ?_) fun h => h.1 kept
      have lengths := congrArg List.length same
      rw [List.length_append, List.length_cons] at lengths
      omega
    · have printed : readBack c = [c] := if_neg kept
      rw [printed, List.singleton_append, List.cons.injEq, ih]
      simp [kept]

/-- A string comes back exactly when it has no control character besides tab, newline
and carriage return. -/
theorem unescapeField_serverField_iff (s : Text) :
    unescapeField (serverField s) = .ok (some s) ↔
      ∀ c ∈ s, IsControl c → c = '\t' ∨ c = '\n' ∨ c = '\r' := by
  rw [unescapeField_serverField, Except.ok.injEq, Option.some.injEq, flatMap_readBack_eq_iff]
  refine forall₂_congr fun c _ => ?_
  unfold KeptEscaped
  tauto

theorem form_feed_kept_escaped :
    unescapeField (serverField [formFeed]) = .ok (some ['\\', 'f']) ∧
      ¬ ∀ s, unescapeField (serverField s) = .ok (some s) := by
  refine ⟨by decide, fun h => ?_⟩
  exact absurd (h [formFeed]) (by decide)

end Faithful

end SqlxMonetdb.ServerEscapes
