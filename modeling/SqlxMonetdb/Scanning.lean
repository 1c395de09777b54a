import Mathlib

set_option autoImplicit false

/-!
# Scanners and readers

A reader takes the unread part of a stream and returns an outcome together with the part
it leaves unread. A scanner reads its input one element at a time. Its mode is the token read so far;
an element either extends that token or ends it and starts the next. Input is cut
between two tokens wherever the element behind the cut does not extend the token in
front of it.
-/
namespace SqlxMonetdb.Scanning

structure Scanner (α μ τ : Type) where
  idle : μ
  start : α → μ
  extend : μ → α → Option μ
  finish : μ → List τ
  idle_extend : ∀ a, extend idle a = none
  idle_finish : finish idle = []

namespace Scanner

variable {α μ τ : Type} (S : Scanner α μ τ)

def scanFrom : μ → List α → List τ
  | m, [] => S.finish m
  | m, a :: as =>
    match S.extend m a with
    | some m' => scanFrom m' as
    | none => S.finish m ++ scanFrom (S.start a) as

def scan (as : List α) : List τ := S.scanFrom S.idle as

/-- The mode after `as`, when all of it belongs to the token of `m`. -/
def extendAll : μ → List α → Option μ
  | m, [] => some m
  | m, a :: as => (S.extend m a).bind fun m' => extendAll m' as

def Ends (m : μ) (as : List α) : Prop := ∀ a ∈ as.head?, S.extend m a = none

variable {S} {m m' : μ} {a : α} {as bs : List α}

theorem scanFrom_cons_some (h : S.extend m a = some m') :
    S.scanFrom m (a :: as) = S.scanFrom m' as := by
  rw [scanFrom, h]

theorem scanFrom_cons_none (h : S.extend m a = none) :
    S.scanFrom m (a :: as) = S.finish m ++ S.scanFrom (S.start a) as := by
  rw [scanFrom, h]

theorem scan_nil : S.scan [] = [] := S.idle_finish

theorem scan_cons : S.scan (a :: as) = S.scanFrom (S.start a) as := by
  rw [scan, scanFrom_cons_none (S.idle_extend a), S.idle_finish, List.nil_append]

theorem ends_nil : S.Ends m [] := by
  intro a ha
  cases ha

theorem ends_cons : S.Ends m (a :: as) ↔ S.extend m a = none := by
  constructor
  · intro h
    exact h a rfl
  · intro h b hb
    obtain rfl : a = b := by simpa using hb
    exact h

/-- A token that the input does not extend is complete. -/
theorem scanFrom_ends (h : S.Ends m as) : S.scanFrom m as = S.finish m ++ S.scan as := by
  cases as with
  | nil => simp [scan_nil, scanFrom]
  | cons a as => rw [scanFrom_cons_none (ends_cons.mp h), scan_cons]

theorem scanFrom_extendAll (h : S.extendAll m as = some m') :
    S.scanFrom m (as ++ bs) = S.scanFrom m' bs := by
  induction as generalizing m with
  | nil =>
    cases h
    rfl
  | cons a as ih =>
    cases extended : S.extend m a with
    | none => simp [extendAll, extended] at h
    | some n =>
      rw [List.cons_append, scanFrom_cons_some extended]
      exact ih (by simpa [extendAll, extended] using h)

theorem extendAll_append (m : μ) (as bs : List α) :
    S.extendAll m (as ++ bs) = (S.extendAll m as).bind fun m' => S.extendAll m' bs := by
  induction as generalizing m with
  | nil => rfl
  | cons a as ih =>
    rw [List.cons_append, extendAll, extendAll]
    cases S.extend m a with
    | none => rfl
    | some n => exact ih n

/-- A word read as one token is that token wherever the rest does not extend it. -/
theorem scan_word (h : S.extendAll (S.start a) as = some m) (ends : S.Ends m bs) :
    S.scan (a :: as ++ bs) = S.finish m ++ S.scan bs := by
  rw [List.cons_append, scan_cons, scanFrom_extendAll h, scanFrom_ends ends]

theorem scan_word_append (h : S.extendAll (S.start a) as = some m) (ends : S.Ends m bs) :
    S.scan (a :: as ++ bs) = S.scan (a :: as) ++ S.scan bs := by
  have alone := scan_word h (ends_nil (S := S))
  rw [List.append_nil, scan_nil, List.append_nil] at alone
  rw [alone]
  exact scan_word h ends

end Scanner

end SqlxMonetdb.Scanning

namespace SqlxMonetdb.StreamReader

abbrev Reader (ε α β : Type) := List α → Except ε β × List α

variable {ε α β γ : Type}

def need (short : ε) (n : ℕ) : Reader ε α (List α) := fun xs =>
  if xs.length < n then (.error short, xs) else (.ok (xs.take n), xs.drop n)

def andThen (r : Reader ε α β) (k : β → Reader ε α γ) : Reader ε α γ := fun xs =>
  match r xs with
  | (.error e, rest) => (.error e, rest)
  | (.ok b, rest) => k b rest

/-- `r` run `n` times in a row, stopping at the first failure. -/
def times (r : Reader ε α β) : ℕ → Reader ε α (List β)
  | 0 => fun xs => (.ok [], xs)
  | n + 1 => andThen r fun b => andThen (times r n) fun bs xs => (.ok (b :: bs), xs)

def Exact (r : Reader ε α β) (xs : List α) (b : β) : Prop :=
  ∀ rest, r (xs ++ rest) = (.ok b, rest)

theorem need_of_length_le (short : ε) {n : ℕ} {xs : List α} (h : n ≤ xs.length) :
    need short n xs = (.ok (xs.take n), xs.drop n) := by
  simp [need, Nat.not_lt.mpr h]

theorem need_of_length_lt (short : ε) {n : ℕ} {xs : List α} (h : xs.length < n) :
    need short n xs = (.error short, xs) := by
  simp [need, h]

theorem Exact.andThen {r : Reader ε α β} {k : β → Reader ε α γ} {xs ys : List α} {b : β} {c : γ}
    (hr : Exact r xs b) (hk : Exact (k b) ys c) : Exact (andThen r k) (xs ++ ys) c := by
  intro rest
  rw [List.append_assoc]
  simp only [StreamReader.andThen, hr (ys ++ rest)]
  exact hk rest

theorem exact_return (b : β) : Exact (fun xs => (.ok b, xs) : Reader ε α β) [] b :=
  fun _ => rfl

/-- A reader that is exact on each of the pieces reads them off one by one, in order. -/
theorem Exact.times {r : Reader ε α β} (pieces : List (List α × β))
    (h : ∀ p ∈ pieces, Exact r p.1 p.2) :
    Exact (times r pieces.length) (pieces.map Prod.fst).flatten (pieces.map Prod.snd) := by
  induction pieces with
  | nil => exact exact_return []
  | cons p pieces ih =>
    have head := h p (by simp)
    have tail := ih fun q hq => h q (by simp [hq])
    have joined := head.andThen (k := fun b => StreamReader.andThen (StreamReader.times r pieces.length)
      fun bs xs => (.ok (b :: bs), xs)) (tail.andThen (exact_return (p.2 :: pieces.map Prod.snd)))
    rw [List.append_nil] at joined
    exact joined

end SqlxMonetdb.StreamReader
