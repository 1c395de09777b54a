import SqlxMonetdb.LabelledRuns

set_option autoImplicit false

/-!
# Programs that leave a trace

A program appends the events it causes to a trace and may stop with an error. From a
state of a machine over these events, `Conducts` says that whatever the program
causes, up to an error or to its end, is a run of the machine.
-/
namespace SqlxMonetdb.EventPrograms
open LabelledRuns

abbrev Program (ε ι α : Type) := ExceptT ε (StateM (List ι)) α

variable {ε ι α β σ : Type}

section Results

variable {x : Program ε ι α} {f : α → Program ε ι β} {trace : List ι}

theorem bind_of_ok {a : α} {after : List ι} (h : x trace = (.ok a, after)) :
    (x >>= f) trace = f a after := by
  change ExceptT.bindCont f (x trace).1 (x trace).2 = f a after
  rw [h]
  rfl

theorem bind_of_error {e : ε} {after : List ι} (h : x trace = (.error e, after)) :
    (x >>= f) trace = (.error e, after) := by
  change ExceptT.bindCont f (x trace).1 (x trace).2 = _
  rw [h]
  rfl

theorem bind_eq_ok {b : β} {after : List ι} :
    (x >>= f) trace = (.ok b, after) ↔
      ∃ a between, x trace = (.ok a, between) ∧ f a between = (.ok b, after) := by
  cases h : x trace with
  | mk outcome between =>
    cases outcome with
    | error e =>
      rw [bind_of_error h]
      refine iff_of_false (fun same => ?_) ?_
      · cases same
      · rintro ⟨a, between, same, -⟩
        cases same
    | ok a =>
      rw [bind_of_ok h]
      constructor
      · exact fun same => ⟨a, between, rfl, same⟩
      · rintro ⟨a', between', same, tail⟩
        cases same
        exact tail

theorem end_eq_ok {outcome : Except ε α} {a : α} {between after : List ι} :
    @Eq (Id (Except ε α × List ι)) (outcome, between) (.ok a, after) ↔
      outcome = .ok a ∧ between = after := Prod.mk_inj

theorem pure_eq_ok {a b : α} {after : List ι} :
    (pure a : Program ε ι α) trace = (.ok b, after) ↔ a = b ∧ trace = after := by
  refine end_eq_ok.trans ?_
  rw [Except.ok.injEq]

theorem bind_pure_eq (g : α → β) :
    (x >>= fun a => pure (g a)) trace = ((x trace).1.map g, (x trace).2) := by
  cases h : x trace with
  | mk outcome between =>
    cases outcome with
    | error e => exact bind_of_error h
    | ok a => exact bind_of_ok h

end Results

section Machine

variable (step : σ → ι → σ → Prop) (start : σ) (E : σ → Prop)

/-- Where the machine stands at `s` when the program begins, what the program causes
takes it on: to a state with `Q` when the program returns, with `E` when it fails. -/
def Conducts (s : σ) (x : Program ε ι α) (Q : α → σ → Prop) : Prop :=
  ∀ trace, Runs step start trace s → ∃ u, Runs step start (x trace).2 u ∧
    match (x trace).1 with
    | .ok a => Q a u
    | .error _ => E u

variable {step start E} {s : σ} {x : Program ε ι α} {Q : α → σ → Prop}

theorem Conducts.pure {a : α} (h : Q a s) : Conducts step start E s (pure a : Program ε ι α) Q :=
  fun _ run => ⟨s, run, h⟩

theorem Conducts.throw (e : ε) (h : E s) : Conducts step start E s (throw e : Program ε ι α) Q :=
  fun _ run => ⟨s, run, h⟩

theorem Conducts.mono {R : α → σ → Prop} (hx : Conducts step start E s x Q)
    (h : ∀ a u, Q a u → R a u) : Conducts step start E s x R := by
  intro trace run
  obtain ⟨u, reached, holds⟩ := hx trace run
  refine ⟨u, reached, ?_⟩
  cases outcome : (x trace).1 with
  | error e =>
    rw [outcome] at holds
    exact holds
  | ok a =>
    rw [outcome] at holds
    exact h a u holds

theorem Conducts.bind {f : α → Program ε ι β} {R : β → σ → Prop}
    (hx : Conducts step start E s x Q) (hf : ∀ a u, Q a u → Conducts step start E u (f a) R) :
    Conducts step start E s (x >>= f) R := by
  intro trace run
  obtain ⟨u, reached, holds⟩ := hx trace run
  cases h : x trace with
  | mk outcome between =>
    rw [h] at reached holds
    cases outcome with
    | error e =>
      rw [bind_of_error h]
      exact ⟨u, reached, holds⟩
    | ok a =>
      rw [bind_of_ok h]
      exact hf a u holds between reached

theorem Conducts.event {event : ι} {outcome : Except ε α} {u : σ} (h : step s event u)
    (hQ : ∀ a, outcome = .ok a → Q a u) (hE : E u) :
    Conducts step start E s (fun trace => (outcome, trace ++ [event]) : Program ε ι α) Q := by
  intro trace run
  refine ⟨u, Runs.append_iff.mpr ⟨s, run, .next h (.refl u)⟩, ?_⟩
  cases outcome with
  | error e => exact hE
  | ok a => exact hQ a rfl

end Machine

section Pairs

variable {γ δ : Type}

/-- A program only adds to the trace. -/
def Appends (x : Program ε ι α) : Prop := ∀ trace, trace <+: (x trace).2

theorem Appends.pure (a : α) : Appends (pure a : Program ε ι α) := fun _ => List.prefix_rfl

theorem Appends.throw (e : ε) : Appends (throw e : Program ε ι α) := fun _ => List.prefix_rfl

theorem Appends.quiet (outcome : Except ε α) :
    Appends (fun trace => (outcome, trace) : Program ε ι α) := fun _ => List.prefix_rfl

theorem Appends.event (outcome : Except ε α) (e : ι) :
    Appends (fun trace => (outcome, trace ++ [e]) : Program ε ι α) :=
  fun _ => List.prefix_append _ _

theorem Appends.bind {x : Program ε ι α} {f : α → Program ε ι β} (hx : Appends x)
    (hf : ∀ a, Appends (f a)) : Appends (x >>= f) := by
  intro trace
  have first := hx trace
  cases h : x trace with
  | mk outcome between =>
    rw [h] at first
    cases outcome with
    | error e =>
      rw [bind_of_error h]
      exact first
    | ok a =>
      rw [bind_of_ok h]
      exact first.trans (hf a between)

/-- The same error, or results in the relation. -/
inductive Matches (R : α → β → Prop) : Except ε α → Except ε β → Prop where
  | ok {a : α} {b : β} (related : R a b) : Matches R (.ok a) (.ok b)
  | error (e : ε) : Matches R (.error e) (.error e)

variable (good : ι → Prop) (stop : ε → Prop)

/-- The second program goes along with the first: as long as the events of the first are
good, it causes the same events and ends in the same way, but may go on where the first had
to stop. -/
def Follows (R : α → β → Prop) (x : Program ε ι α) (y : Program ε ι β) : Prop :=
  ∀ trace, (∀ e ∈ (x trace).2, good e) →
    (∃ e, stop e ∧ (x trace).1 = .error e ∧ (x trace).2 <+: (y trace).2) ∨
    ((y trace).2 = (x trace).2 ∧ Matches R (x trace).1 (y trace).1)

variable {good stop} {R : α → β → Prop}

theorem Follows.pure {a : α} {b : β} (related : R a b) :
    Follows good stop R (pure a : Program ε ι α) (pure b) :=
  fun _ _ => .inr ⟨rfl, .ok related⟩

theorem Follows.throw (e : ε) :
    Follows good stop R (throw e : Program ε ι α) (throw e : Program ε ι β) :=
  fun _ _ => .inr ⟨rfl, .error e⟩

theorem Follows.event {e : ι} {outcome : Except ε α} {outcome' : Except ε β}
    (related : good e → Matches R outcome outcome') :
    Follows good stop R (fun trace => (outcome, trace ++ [e])) fun trace => (outcome', trace ++ [e]) :=
  fun _ all => .inr ⟨rfl, related (all e (List.mem_append_right _ (List.mem_singleton.mpr rfl)))⟩

theorem Follows.bind {S : γ → δ → Prop} {x : Program ε ι α} {y : Program ε ι β}
    {f : α → Program ε ι γ} {g : β → Program ε ι δ} (hx : Follows good stop R x y)
    (hf : ∀ a b, R a b → Follows good stop S (f a) (g b)) (appends : ∀ a, Appends (f a))
    (appends' : ∀ b, Appends (g b)) : Follows good stop S (x >>= f) (y >>= g) := by
  intro trace all
  have before := hx trace
  cases hx : x trace with
  | mk outcome between =>
    cases hy : y trace with
    | mk outcome' between' =>
      rw [hx, hy] at before
      cases outcome with
      | error e =>
        rw [bind_of_error hx] at all ⊢
        rcases before all with ⟨e', stopped, same, more⟩ | ⟨same, related⟩
        · refine .inl ⟨e', stopped, congrArg _ (Except.error.inj same), more.trans ?_⟩
          cases outcome' with
          | error e => rw [bind_of_error hy]
          | ok b =>
            rw [bind_of_ok hy]
            exact appends' b between'
        · cases related
          rw [bind_of_error hy]
          exact .inr ⟨same, .error e⟩
      | ok a =>
        rw [bind_of_ok hx] at all ⊢
        rcases before fun e mem => all e ((appends a between).subset mem) with
          ⟨e', -, same, -⟩ | ⟨same, related⟩
        · cases same
        · dsimp only at same
          subst same
          cases related with
          | ok related =>
            rw [bind_of_ok hy]
            exact hf _ _ related _ all

end Pairs

end SqlxMonetdb.EventPrograms
