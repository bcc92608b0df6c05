import Mathlib

/-!
# Sequences of writes

A list of writes, oldest first, turns the contents of a store into others. What a key holds in
the end is the last value written at it, or what it held at first if there is none. Where the steps
may also do other things than write, `kept_or_left` says where a value comes from.
-/

namespace Writes

/-- **Where a value comes from.** When each step leaves at each key what was there or what it may
leave there, a key holds in the end what it held at first, or what some step may leave there. -/
theorem kept_or_left {κ ν ι : Type*} {step : (κ → ν) → ι → κ → ν} {leaves : ι → κ → ν → Prop}
    (each : ∀ contents label key,
      step contents label key = contents key ∨ leaves label key (step contents label key))
    (contents : κ → ν) (run : List ι) (key : κ) :
    run.foldl step contents key = contents key ∨
      ∃ label ∈ run, leaves label key (run.foldl step contents key) := by
  induction run generalizing contents with
  | nil => exact Or.inl rfl
  | cons label rest ih =>
    rw [List.foldl_cons]
    rcases ih (step contents label) with kept | ⟨later, inside, left⟩
    · rw [kept]
      rcases each contents label key with same | here
      · exact Or.inl same
      · exact Or.inr ⟨label, List.mem_cons_self, here⟩
    · exact Or.inr ⟨later, List.mem_cons_of_mem label inside, left⟩

variable {κ ν : Type*} [DecidableEq κ]

/-- The contents after a list of writes. -/
def write (contents : κ → ν) (writes : List (κ × ν)) : κ → ν :=
  writes.foldl (fun contents entry => Function.update contents entry.1 entry.2) contents

/-- The last value written at a key. -/
def lastAt (writes : List (κ × ν)) (key : κ) : Option ν :=
  (writes.reverse.find? fun entry => entry.1 == key).map Prod.snd

/-- One more write is one more update. -/
theorem write_append (contents : κ → ν) (writes : List (κ × ν)) (key : κ) (value : ν) :
    write contents (writes ++ [(key, value)]) =
      Function.update (write contents writes) key value := by
  unfold write
  rw [List.foldl_append]
  rfl

/-- The last of the writes is the last at its own key. -/
theorem lastAt_append (writes : List (κ × ν)) (key other : κ) (value : ν) :
    lastAt (writes ++ [(key, value)]) other =
      if other = key then some value else lastAt writes other := by
  unfold lastAt
  rw [List.reverse_append, List.reverse_singleton, List.singleton_append, List.find?_cons]
  by_cases same : other = key
  · simp [same]
  · have apart : (key == other) = false := by simp [Ne.symm same]
    simp only [apart, if_neg same]

/-- **The last write wins.** -/
theorem write_eq (contents : κ → ν) (writes : List (κ × ν)) (key : κ) :
    write contents writes key = (lastAt writes key).getD (contents key) := by
  induction writes using List.reverseRecOn with
  | nil => rfl
  | append_singleton writes entry ih =>
    obtain ⟨written, value⟩ := entry
    rw [write_append, lastAt_append]
    by_cases same : key = written
    · rw [if_pos same, same, Function.update_self, Option.getD_some]
    · rw [if_neg same, Function.update_of_ne same, ih]

end Writes
