import Mathlib

set_option autoImplicit false

/-!
# Runs of labelled transition systems

Runs over a list of labels, the history invariant rule for them, their reading
as fallible folds, forward simulation between machines with outputs, and runs whose
labels change places.
-/
namespace SqlxMonetdb.LabelledRuns

variable {σ τ ι κ ο ε : Type}

inductive Runs (step : σ → ι → σ → Prop) : σ → List ι → σ → Prop where
  | refl (s : σ) : Runs step s [] s
  | next {s u v : σ} {a : ι} {as : List ι} (h : step s a u) (tail : Runs step u as v) :
      Runs step s (a :: as) v

variable {step : σ → ι → σ → Prop}

theorem Runs.nil_iff {s v : σ} : Runs step s [] v ↔ v = s := by
  constructor
  · intro h
    cases h with
    | refl => rfl
  · rintro rfl
    exact .refl _

theorem Runs.cons_iff {s v : σ} {a : ι} {as : List ι} :
    Runs step s (a :: as) v ↔ ∃ u, step s a u ∧ Runs step u as v := by
  constructor
  · intro h
    cases h with
    | next head tail => exact ⟨_, head, tail⟩
  · rintro ⟨u, head, tail⟩
    exact .next head tail

theorem Runs.append_iff {s v : σ} {as bs : List ι} :
    Runs step s (as ++ bs) v ↔ ∃ u, Runs step s as u ∧ Runs step u bs v := by
  induction as generalizing s with
  | nil => simp [Runs.nil_iff]
  | cons a as ih =>
    simp only [List.cons_append, Runs.cons_iff, ih]
    constructor
    · rintro ⟨w, head, u, mid, tail⟩
      exact ⟨u, ⟨w, head, mid⟩, tail⟩
    · rintro ⟨u, ⟨w, head, mid⟩, tail⟩
      exact ⟨w, head, u, mid, tail⟩

theorem Runs.exists_step {s v : σ} {a : ι} {as : List ι} (run : Runs step s as v) (mem : a ∈ as) :
    ∃ t u, step t a u := by
  induction run with
  | refl => cases mem
  | next h _ ih =>
    rcases List.mem_cons.mp mem with rfl | mem
    · exact ⟨_, _, h⟩
    · exact ih mem

/-- The history rule: `I` may speak of the labels taken so far. One step carries
it from a history to the history with one more label, so every run carries it. -/
theorem Runs.history {I : List ι → σ → Prop}
    (keep : ∀ past a s u, I past s → step s a u → I (past ++ [a]) u)
    (past : List ι) {s v : σ} {as : List ι} (start : I past s) (run : Runs step s as v) :
    I (past ++ as) v := by
  induction run generalizing past with
  | refl s => simpa using start
  | @next s u v a as h _ ih =>
    have moved := ih (past ++ [a]) (keep past a s u start h)
    simpa only [List.append_assoc, List.singleton_append] using moved

theorem Runs.invariant {I : σ → Prop} (keep : ∀ s a u, I s → step s a u → I u)
    {s v : σ} {as : List ι} (start : I s) (run : Runs step s as v) : I v :=
  run.history (I := fun _ => I) (fun _ a s u => keep s a u) [] start

/-- Refinement along a mapping of the states: where every step is, under the mapping, one
step of the other machine or none, a run is a run of that machine over the visible labels. -/
theorem Runs.refines {visible : τ → κ → τ → Prop} {f : σ → τ} {label : ι → Option κ}
    (sim : ∀ s a u, step s a u → match label a with
      | some b => visible (f s) b (f u)
      | none => f u = f s)
    {s v : σ} {as : List ι} (run : Runs step s as v) :
    Runs visible (f s) (as.filterMap label) (f v) := by
  induction run with
  | refl s => exact .refl _
  | @next s u v a as h _ ih =>
    have move := sim s a u h
    cases seen : label a with
    | none =>
      rw [seen] at move
      rw [List.filterMap_cons_none seen, ← move]
      exact ih
    | some b =>
      rw [seen] at move
      rw [List.filterMap_cons_some seen]
      exact .next move ih

section Folds

variable {f : σ → ι → Except ε σ}

abbrev accepts (f : σ → ι → Except ε σ) : σ → ι → σ → Prop := fun s a u => f s a = .ok u

theorem foldlM_cons_ok {s u : σ} {a : ι} {as : List ι} (h : f s a = .ok u) :
    (a :: as).foldlM f s = as.foldlM f u := by
  simp only [List.foldlM_cons, h]
  rfl

theorem foldlM_cons_error {s : σ} {a : ι} {as : List ι} {e : ε} (h : f s a = .error e) :
    (a :: as).foldlM f s = .error e := by
  simp only [List.foldlM_cons, h]
  rfl

theorem foldlM_ok_iff {s v : σ} {as : List ι} :
    as.foldlM f s = .ok v ↔ Runs (accepts f) s as v := by
  induction as generalizing s with
  | nil => simp [Runs.nil_iff, pure, Except.pure, eq_comm]
  | cons a as ih =>
    rw [Runs.cons_iff]
    cases h : f s a with
    | error e => simp [foldlM_cons_error h, accepts, h]
    | ok u => simp [foldlM_cons_ok h, accepts, h, ih]

theorem foldlM_error_iff {s : σ} {as : List ι} {e : ε} :
    as.foldlM f s = .error e ↔
      ∃ before a after u, as = before ++ a :: after ∧
        Runs (accepts f) s before u ∧ f u a = .error e := by
  induction as generalizing s with
  | nil => simp [pure, Except.pure]
  | cons a as ih =>
    cases h : f s a with
    | error e' =>
      rw [foldlM_cons_error h]
      constructor
      · rintro ⟨rfl⟩
        exact ⟨[], a, as, s, rfl, .refl s, h⟩
      · rintro ⟨before, b, after, u, split, run, failed⟩
        cases before with
        | nil =>
          obtain ⟨rfl, rfl⟩ := List.cons.inj split
          rw [Runs.nil_iff.mp run, h] at failed
          exact failed
        | cons c before =>
          obtain ⟨rfl, -⟩ := List.cons.inj split
          obtain ⟨w, head, -⟩ := Runs.cons_iff.mp run
          rw [accepts, h] at head
          cases head
    | ok w =>
      rw [foldlM_cons_ok h, ih]
      constructor
      · rintro ⟨before, b, after, u, rfl, run, failed⟩
        exact ⟨a :: before, b, after, u, rfl, .next h run, failed⟩
      · rintro ⟨before, b, after, u, split, run, failed⟩
        cases before with
        | nil =>
          obtain ⟨rfl, rfl⟩ := List.cons.inj split
          rw [Runs.nil_iff.mp run, h] at failed
          cases failed
        | cons c before =>
          obtain ⟨rfl, rfl⟩ := List.cons.inj split
          obtain ⟨x, head, tail⟩ := Runs.cons_iff.mp run
          rw [accepts, h] at head
          obtain rfl := Except.ok.inj head
          exact ⟨before, b, after, u, rfl, tail, failed⟩

end Folds

def outputs (f : σ → ι → ο × σ) : List ι → σ → List ο × σ
  | [], s => ([], s)
  | a :: as, s =>
    let (out, u) := f s a
    let (outs, v) := outputs f as u
    (out :: outs, v)

/-- Forward simulation: related states give equal outputs and related states, so
the two machines give equal outputs over every list of inputs. -/
theorem outputs_simulation {f : σ → ι → ο × σ} {g : τ → ι → ο × τ} {R : σ → τ → Prop}
    (sim : ∀ s t a, R s t → (f s a).1 = (g t a).1 ∧ R (f s a).2 (g t a).2)
    (as : List ι) {s : σ} {t : τ} (start : R s t) :
    (outputs f as s).1 = (outputs g as t).1 ∧ R (outputs f as s).2 (outputs g as t).2 := by
  induction as generalizing s t with
  | nil => exact ⟨rfl, start⟩
  | cons a as ih =>
    obtain ⟨same, related⟩ := sim s t a start
    obtain ⟨sameRest, relatedRest⟩ := ih related
    exact ⟨by simp only [outputs, same, sameRest], relatedRest⟩

theorem outputs_append (f : σ → ι → ο × σ) (as bs : List ι) (s : σ) :
    outputs f (as ++ bs) s =
      let (outs, u) := outputs f as s
      let (more, v) := outputs f bs u
      (outs ++ more, v) := by
  induction as generalizing s with
  | nil => rfl
  | cons a as ih => simp only [List.cons_append, outputs, ih]

theorem outputs_length (f : σ → ι → ο × σ) (as : List ι) (s : σ) :
    (outputs f as s).1.length = as.length := by
  induction as generalizing s with
  | nil => rfl
  | cons a as ih => simp only [outputs, List.length_cons, ih]

end SqlxMonetdb.LabelledRuns

namespace SqlxMonetdb.Rearrangement
open LabelledRuns

variable {σ ι κ : Type} {step : σ → ι → σ → Prop}

section Classes

variable {key : ι → κ}

/-- Two steps of different classes may change places. -/
def Commutes (step : σ → ι → σ → Prop) (key : ι → κ) (P : ι → Prop) : Prop :=
  ∀ a b, P a → P b → key a ≠ key b → ∀ s v, Runs step s [a, b] v → Runs step s [b, a] v

theorem runs_sink {P : ι → Prop} (comm : Commutes step key P) {a : ι} (ha : P a)
    {before after : List ι} (hb : ∀ b ∈ before, P b) (other : ∀ b ∈ before, key b ≠ key a)
    {s v : σ} (run : Runs step s (a :: (before ++ after)) v) :
    Runs step s (before ++ a :: after) v := by
  induction before generalizing s with
  | nil => exact run
  | cons b before ih =>
    have front : Runs step s ([a, b] ++ (before ++ after)) v := run
    obtain ⟨u, two, rest⟩ := Runs.append_iff.mp front
    have swapped := comm a b ha (hb b (by simp)) (Ne.symm (other b (by simp))) s u two
    obtain ⟨w, first, last⟩ := Runs.cons_iff.mp swapped
    refine .next first (ih (fun c hc => hb c (by simp [hc])) (fun c hc => other c (by simp [hc])) ?_)
    exact Runs.append_iff.mpr ⟨u, last, rest⟩

variable [DecidableEq κ]

def SameByClass (key : ι → κ) (as bs : List ι) : Prop :=
  ∀ k, as.filter (fun a => key a = k) = bs.filter fun b => key b = k

/-- A run may be rearranged as long as each class keeps its own order. -/
theorem runs_rearrange {P : ι → Prop} (comm : Commutes step key P) {as bs : List ι}
    (hb : ∀ b ∈ bs, P b) (same : SameByClass key as bs) {s v : σ} (run : Runs step s as v) :
    Runs step s bs v := by
  induction as generalizing s bs with
  | nil =>
    cases bs with
    | nil => exact run
    | cons b bs =>
      have absurd_class := same (key b)
      simp at absurd_class
  | cons a as ih =>
    obtain ⟨u, head, tail⟩ := Runs.cons_iff.mp run
    have own := same (key a)
    rw [List.filter_cons_of_pos (by simp)] at own
    obtain ⟨before, after, rfl, earlier, -, rest⟩ := List.filter_eq_cons_iff.mp own.symm
    simp only [decide_eq_true_eq] at earlier
    have removed : SameByClass key as (before ++ after) := by
      intro k
      have whole := same k
      by_cases hk : key a = k
      · subst hk
        have none : before.filter (fun b => key b = key a) = [] := by simpa using earlier
        rw [List.filter_append, none, List.nil_append, rest]
      · rwa [List.filter_cons_of_neg (by simpa using hk), List.filter_append,
          List.filter_cons_of_neg (by simpa using hk), ← List.filter_append] at whole
    refine runs_sink comm (hb a (by simp)) (fun b h => hb b (by simp [h])) earlier ?_
    exact .next head (ih (fun b h => hb b (by
      rcases List.mem_append.mp h with h | h <;> simp [h])) removed tail)

end Classes

theorem runs_skip_iff {skipped : ι → Bool}
    (still : ∀ a s u, skipped a = true → (step s a u ↔ u = s)) {as : List ι} {s v : σ} :
    Runs step s as v ↔ Runs step s (as.filter fun a => !skipped a) v := by
  induction as generalizing s with
  | nil => rfl
  | cons a as ih =>
    by_cases h : skipped a = true
    · rw [List.filter_cons_of_neg (by simp [h]), Runs.cons_iff, ← ih]
      simp [still a s _ h]
    · rw [List.filter_cons_of_pos (by simpa using h), Runs.cons_iff, Runs.cons_iff]
      exact exists_congr fun u => and_congr_right fun _ => ih

end SqlxMonetdb.Rearrangement
