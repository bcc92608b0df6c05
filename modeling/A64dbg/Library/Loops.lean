import Mathlib

/-!
# Loops that can fail

Rules for loops whose passes return an option. A loop succeeds, and its invariant holds at the
end, when each pass succeeds and keeps the invariant.
-/

namespace Loops

variable {σ α β γ : Type*}

/-- A loop over the numbers below a bound succeeds with its invariant. -/
theorem foldlM_range {body : σ → Nat → Option σ} {invariant : Nat → σ → Prop} {bound : Nat}
    {start : σ} (initial : invariant 0 start)
    (pass : ∀ index < bound, ∀ state, invariant index state →
      ∃ next, body state index = some next ∧ invariant (index + 1) next) :
    ∃ final, (List.range bound).foldlM body start = some final ∧ invariant bound final := by
  induction bound with
  | zero => exact ⟨start, rfl, initial⟩
  | succ bound ih =>
    obtain ⟨state, earlier, kept⟩ :=
      ih fun index inside => pass index (Nat.lt_succ_of_lt inside)
    obtain ⟨next, last, final⟩ := pass bound (Nat.lt_succ_self bound) state kept
    refine ⟨next, ?_, final⟩
    rw [List.range_succ, List.foldlM_append, earlier]
    change ([bound].foldlM body state) = some next
    rw [List.foldlM_cons, last]
    rfl

/-- A search over the numbers below a bound succeeds and decides the predicate that its passes
decide. -/
theorem allM_range {test : Nat → Option Bool} {holds : Nat → Prop} {bound : Nat}
    (pass : ∀ index < bound, ∃ answer, test index = some answer ∧ (answer = true ↔ holds index)) :
    ∃ answer, (List.range bound).allM test = some answer ∧
      (answer = true ↔ ∀ index < bound, holds index) := by
  have search (list : List Nat) (inside : ∀ index ∈ list, index < bound) :
      ∃ answer, list.allM test = some answer ∧ (answer = true ↔ ∀ index ∈ list, holds index) := by
    induction list with
    | nil => exact ⟨true, rfl, by simp⟩
    | cons index rest ih =>
      obtain ⟨answer, found, decides⟩ := pass index (inside index List.mem_cons_self)
      obtain ⟨others, later, decide⟩ :=
        ih fun other member => inside other (List.mem_cons_of_mem index member)
      cases answer with
      | false =>
        refine ⟨false, by simp [List.allM, found], ?_⟩
        have fails : ¬holds index := fun met => Bool.noConfusion (decides.mpr met)
        simp [fails]
      | true =>
        refine ⟨others, by simp [List.allM, found, later], ?_⟩
        simp [decides.mp rfl, decide]
  simpa using search (List.range bound) fun index => List.mem_range.mp

end Loops
