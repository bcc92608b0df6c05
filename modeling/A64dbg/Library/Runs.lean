import Mathlib

/-!
# Runs of labelled deterministic systems

A system is a step function on states and labels, and a run is a list of labels. `Along`
says that each label of a run meets a condition in the state that label finds, and
`Throughout` that a property holds in every state the run reaches, its start included.

`Along.keeps` is the induction over a run. `throughout_iff_along` turns a step fact into
an exact run fact: when a step from a good state leads to a good state exactly under a
condition on that step, a run is good throughout exactly when all of its steps meet the
condition. `along_iff_along` is the same for a property of the steps themselves.
-/

namespace Runs

variable {σ ι : Type*} (step : σ → ι → σ)

/-- The state a run leads to. -/
abbrev after (state : σ) (run : List ι) : σ := run.foldl step state

/-- Every label of the run meets the condition in the state it finds. -/
def Along (condition : σ → ι → Prop) : σ → List ι → Prop
  | _, [] => True
  | state, label :: rest => condition state label ∧ Along condition (step state label) rest

/-- The property holds in every state the run reaches. -/
def Throughout (property : σ → Prop) (state : σ) (run : List ι) : Prop :=
  ∀ reached, reached <+: run → property (after step state reached)

variable {step} {condition other admitted : σ → ι → Prop} {property invariant : σ → Prop}

/-- A run leads where its rest leads from the state after its first label. -/
theorem after_cons (state : σ) (label : ι) (rest : List ι) :
    after step state (label :: rest) = after step (step state label) rest := rfl

/-- A run in two parts leads where its second part leads. -/
theorem after_append (state : σ) (first second : List ι) :
    after step state (first ++ second) = after step (after step state first) second :=
  List.foldl_append

@[simp]
theorem along_nil (state : σ) : Along step condition state [] := trivial

@[simp]
theorem along_cons (state : σ) (label : ι) (rest : List ι) :
    Along step condition state (label :: rest) ↔
      condition state label ∧ Along step condition (step state label) rest := Iff.rfl

/-- What every label of a run meets in every state is met along the run. -/
theorem along_of_mem (run : List ι) (holds : ∀ label ∈ run, ∀ state, condition state label)
    (state : σ) : Along step condition state run := by
  induction run generalizing state with
  | nil => trivial
  | cons label rest ih =>
    exact ⟨holds label List.mem_cons_self state,
      ih (fun other later => holds other (List.mem_cons_of_mem label later)) _⟩

/-- The condition that every step meets is met along every run. -/
theorem along_true (state : σ) (run : List ι) : Along step (fun _ _ => True) state run :=
  along_of_mem run (fun _ _ _ => trivial) state

/-- Conditions that agree on every step agree along every run. -/
theorem along_congr (same : ∀ state label, condition state label ↔ other state label)
    (state : σ) (run : List ι) :
    Along step condition state run ↔ Along step other state run := by
  induction run generalizing state with
  | nil => exact Iff.rfl
  | cons label rest ih => rw [along_cons, along_cons, same, ih]

/-- A run in two parts meets a condition when each part does. -/
theorem along_append (state : σ) (first second : List ι) :
    Along step condition state (first ++ second) ↔
      Along step condition state first ∧
        Along step condition (after step state first) second := by
  induction first generalizing state with
  | nil => simp
  | cons label rest ih => simp only [List.cons_append, along_cons, List.foldl_cons, ih, and_assoc]

/-- A condition met along a run is met along its initial parts. -/
theorem Along.initial {state : σ} {run reached : List ι} (along : Along step condition state run)
    (initial : reached <+: run) : Along step condition state reached := by
  obtain ⟨rest, rfl⟩ := initial
  exact ((along_append state reached rest).mp along).1

/-- The induction over a run: what each admitted step preserves holds where the run leads. -/
theorem Along.keeps {state : σ} {run : List ι} (along : Along step admitted state run)
    (start : invariant state)
    (preserves : ∀ state label, invariant state → admitted state label →
      invariant (step state label)) : invariant (after step state run) := by
  induction run generalizing state with
  | nil => exact start
  | cons label rest ih => exact ih along.2 (preserves state label start along.1)

/-- Under an invariant of the run, a condition may be replaced by one that it implies. -/
theorem Along.imp {state : σ} {run : List ι} (along : Along step admitted state run)
    (start : invariant state)
    (preserves : ∀ state label, invariant state → admitted state label →
      invariant (step state label))
    (implies : ∀ state label, invariant state → admitted state label → condition state label) :
    Along step condition state run := by
  induction run generalizing state with
  | nil => trivial
  | cons label rest ih =>
    exact ⟨implies state label start along.1, ih along.2 (preserves state label start along.1)⟩

/-- A condition met along a run may be replaced by one that it implies. -/
theorem Along.mono {state : σ} {run : List ι} (along : Along step admitted state run)
    (implies : ∀ state label, admitted state label → condition state label) :
    Along step condition state run := by
  induction run generalizing state with
  | nil => trivial
  | cons label rest ih => exact ⟨implies state label along.1, ih along.2⟩

/-- Two conditions met along a run are met together. -/
theorem Along.and {state : σ} {run : List ι} (left : Along step condition state run)
    (right : Along step other state run) :
    Along step (fun state label => condition state label ∧ other state label) state run := by
  induction run generalizing state with
  | nil => trivial
  | cons label rest ih => exact ⟨⟨left.1, right.1⟩, ih left.2 right.2⟩

@[simp]
theorem throughout_nil (state : σ) : Throughout step property state ([] : List ι) ↔
    property state := by
  simp [Throughout]

/-- A property holds throughout a run when it holds at its start and throughout its rest. -/
@[simp]
theorem throughout_cons (state : σ) (label : ι) (rest : List ι) :
    Throughout step property state (label :: rest) ↔
      property state ∧ Throughout step property (step state label) rest := by
  constructor
  · intro holds
    refine ⟨holds [] List.nil_prefix, fun reached initial => ?_⟩
    exact holds (label :: reached) (List.cons_prefix_cons.mpr ⟨rfl, initial⟩)
  · rintro ⟨here, later⟩ reached initial
    cases reached with
    | nil => exact here
    | cons head tail =>
      obtain ⟨rfl, inside⟩ := List.cons_prefix_cons.mp initial
      exact later tail inside

/-- **The exact condition of a state property.** When admitted steps keep the invariant, and
lead from a good state to a good state exactly under a condition, an admitted run from a good
state is good throughout exactly when its steps meet that condition. -/
theorem throughout_iff_along
    (preserves : ∀ state label, invariant state → property state → admitted state label →
      invariant (step state label))
    (exact : ∀ state label, invariant state → property state → admitted state label →
      (property (step state label) ↔ condition state label))
    {state : σ} {run : List ι} (start : invariant state) (good : property state)
    (along : Along step admitted state run) :
    Throughout step property state run ↔ Along step condition state run := by
  induction run generalizing state with
  | nil => simp [good]
  | cons label rest ih =>
    have next := exact state label start good along.1
    have kept := preserves state label start good along.1
    rw [throughout_cons, along_cons]
    constructor
    · rintro ⟨-, later⟩
      have reached : property (step state label) := later [] List.nil_prefix
      exact ⟨next.mp reached, (ih kept reached along.2).mp later⟩
    · rintro ⟨met, later⟩
      have reached := next.mpr met
      exact ⟨good, (ih kept reached along.2).mpr later⟩

/-- The exact condition of a state property that needs no invariant beside it. -/
theorem throughout_iff_steps
    (exact : ∀ state label, property state → admitted state label →
      (property (step state label) ↔ condition state label))
    {state : σ} {run : List ι} (good : property state)
    (along : Along step admitted state run) :
    Throughout step property state run ↔ Along step condition state run := by
  apply @throughout_iff_along σ ι step condition admitted property fun _ => True
  · intros
    trivial
  · intro state label _ here admits
    exact exact state label here admits
  · trivial
  · exact good
  · exact along

/-- **The exact condition of a step property.** When steps with the property keep an invariant,
under which they are the steps that meet a condition, the property holds along an admitted run
exactly when the condition does. -/
theorem along_iff_along
    (preserves : ∀ state label, invariant state → admitted state label → other state label →
      invariant (step state label))
    (exact : ∀ state label, invariant state → admitted state label →
      (other state label ↔ condition state label))
    {state : σ} {run : List ι} (start : invariant state)
    (along : Along step admitted state run) :
    Along step other state run ↔ Along step condition state run := by
  induction run generalizing state with
  | nil => simp
  | cons label rest ih =>
    rw [along_cons, along_cons, exact state label start along.1]
    refine and_congr_right fun met => ih (preserves state label start along.1 ?_) along.2
    exact (exact state label start along.1).mpr met

end Runs
