import Mathlib

/-!
# Narrowing a search by successive readings

A search keeps a set of candidates and the last value seen of each. A round reads all values
again and puts out the candidates whose two values it rejects; it remembers the new value of
the others only. `out_iff` says that a candidate is left exactly when every round accepted its
two consecutive readings, although the search compares with one buffer of its own.
-/

namespace Narrowing

variable {ι α : Type*}

/-- The candidates and the values last seen. -/
structure Search (ι α : Type*) where
  /-- Whether a place is out. -/
  out : ι → Bool
  /-- The value last seen there. -/
  last : ι → α

/-- Before the first round every place is a candidate. -/
def start (values : ι → α) : Search ι α := ⟨fun _ => false, values⟩

/-- One round. -/
def Search.round (rejects : α → α → Bool) (values : ι → α) (search : Search ι α) :
    Search ι α where
  out place := search.out place || rejects (search.last place) (values place)
  last place :=
    if search.out place || rejects (search.last place) (values place) then search.last place
    else values place

/-- A place that is out or rejected is out after the round, its value as before. -/
theorem round_out (rejects : α → α → Bool) (values : ι → α) {search : Search ι α} {place : ι}
    (rejected : (search.out place || rejects (search.last place) (values place)) = true) :
    (search.round rejects values).out place = true ∧
      (search.round rejects values).last place = search.last place :=
  ⟨rejected, if_pos rejected⟩

/-- A candidate that is accepted is left, with its new value. -/
theorem round_left (rejects : α → α → Bool) (values : ι → α) {search : Search ι α} {place : ι}
    (accepted : (search.out place || rejects (search.last place) (values place)) = false) :
    (search.round rejects values).out place = false ∧
      (search.round rejects values).last place = values place :=
  ⟨accepted, if_neg (Bool.eq_false_iff.mp accepted)⟩

/-- The search after some rounds over a sequence of readings. -/
def after (rejects : Nat → α → α → Bool) (readings : Nat → ι → α) : Nat → Search ι α
  | 0 => start (readings 0)
  | rounds + 1 =>
    (after rejects readings rounds).round (rejects (rounds + 1)) (readings (rounds + 1))

/-- A place survives when every round accepts its two consecutive readings. -/
def Survives (rejects : Nat → α → α → Bool) (readings : Nat → ι → α) (rounds : Nat)
    (place : ι) : Prop :=
  ∀ round < rounds, rejects (round + 1) (readings round place) (readings (round + 1) place) = false

variable {rejects : Nat → α → α → Bool} {readings : Nat → ι → α}

/-- The buffer of a candidate holds its latest reading. -/
theorem last_eq {rounds : Nat} {place : ι}
    (candidate : (after rejects readings rounds).out place = false) :
    (after rejects readings rounds).last place = readings rounds place := by
  cases rounds with
  | zero => rfl
  | succ rounds => exact (round_left _ _ candidate).2

/-- **The candidates are the places that survive.** -/
theorem out_iff (rounds : Nat) (place : ι) :
    (after rejects readings rounds).out place = false ↔
      Survives rejects readings rounds place := by
  induction rounds with
  | zero => exact iff_of_true rfl fun _ none => absurd none (Nat.not_lt_zero _)
  | succ rounds ih =>
    unfold Survives at ih ⊢
    change ((after rejects readings rounds).out place || rejects (rounds + 1)
      ((after rejects readings rounds).last place) (readings (rounds + 1) place)) = false ↔ _
    rw [Bool.or_eq_false_iff]
    constructor
    · rintro ⟨candidate, accepted⟩ round earlier
      rw [last_eq candidate] at accepted
      rcases Nat.lt_succ_iff_lt_or_eq.mp earlier with before | rfl
      · exact ih.mp candidate round before
      · exact accepted
    · intro survives
      have candidate := ih.mpr fun round before => survives round (Nat.lt_succ_of_lt before)
      refine ⟨candidate, ?_⟩
      rw [last_eq candidate]
      exact survives rounds (Nat.lt_succ_self rounds)

/-- A round in the making, over the places below a bound. -/
def Search.upTo (bound : Nat) (now before : Search Nat α) : Search Nat α where
  out place := if place < bound then now.out place else before.out place
  last place := if place < bound then now.last place else before.last place

/-- The next place of a round in the making is as before the round. -/
theorem upTo_self (bound : Nat) (now before : Search Nat α) :
    (now.upTo bound before).out bound = before.out bound ∧
      (now.upTo bound before).last bound = before.last bound :=
  ⟨if_neg (Nat.lt_irrefl bound), if_neg (Nat.lt_irrefl bound)⟩

/-- Once a place is done it is as after the round. -/
theorem upTo_done {bound place : Nat} (inside : place < bound) (now before : Search Nat α) :
    (now.upTo bound before).out place = now.out place ∧
      (now.upTo bound before).last place = now.last place :=
  ⟨if_pos inside, if_pos inside⟩

/-- Doing a place leaves the others alone. -/
theorem upTo_other {bound place : Nat} (apart : place ≠ bound) (now before : Search Nat α) :
    (now.upTo (bound + 1) before).out place = (now.upTo bound before).out place ∧
      (now.upTo (bound + 1) before).last place = (now.upTo bound before).last place := by
  have same : place < bound + 1 ↔ place < bound := by omega
  unfold Search.upTo
  simp only [same, and_self]

end Narrowing
