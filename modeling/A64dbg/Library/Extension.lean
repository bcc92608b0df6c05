import A64dbg.Library.ByteMemory

/-!
# Memories that only grow

One memory extends another when it keeps every byte mapped there. A write can be taken back
after the memory grew, and a write to bytes that were not mapped before keeps the extension;
together these show that code which patches memory, lets it grow and patches it back has
changed nothing that was there.
-/

namespace ByteMemory

variable {width : Nat} {memory larger largest : Memory width} {base : BitVec width} {count : Nat}

/-- Every byte mapped in the first memory is the same in the second. -/
def Extends (memory larger : Memory width) : Prop :=
  ∀ address byte, memory address = some byte → larger address = some byte

/-- A memory extends itself. -/
theorem Extends.refl (memory : Memory width) : Extends memory memory := fun _ _ mapped => mapped

/-- A word held stays held. -/
theorem Extends.holds (extension : Extends memory larger) {word : BitVec (8 * count)}
    (held : Holds memory base count word) : Holds larger base count word :=
  fun index inside => extension _ _ (held index inside)

/-- A mapped range stays mapped. -/
theorem Extends.mapped (extension : Extends memory larger) (mapped : Mapped memory base count) :
    Mapped larger base count := by
  refine ⟨mapped.1, fun index inside => ?_⟩
  obtain ⟨byte, found⟩ := Option.isSome_iff_exists.mp (mapped.2 index inside)
  rw [extension _ _ found, Option.isSome_some]

/-- A patch taken back after the memory grew leaves an extension of the memory before. -/
theorem Extends.takeBack {word original : BitVec (8 * count)}
    (held : Holds memory base count original)
    (grown : Extends (store memory base count word) larger) :
    Extends memory (store larger base count original) := by
  intro address byte found
  by_cases inside : offset base address < count
  · have there := held _ inside
    rw [above_offset, found] at there
    rw [store, if_pos inside, there]
  · have outside : count ≤ offset base address := by omega
    rw [store_apart _ _ _ outside]
    refine grown address byte ?_
    rw [store_apart _ _ _ outside, found]

/-- A write to bytes that were not mapped before keeps an extension. -/
theorem Extends.fresh (extension : Extends memory larger) (word : BitVec (8 * count))
    (unmapped : ∀ index < count, memory (above base index) = none) :
    Extends memory (store larger base count word) := by
  intro address byte found
  have outside : count ≤ offset base address := by
    by_contra inside
    have absent := unmapped _ (Nat.lt_of_not_le inside)
    rw [above_offset, found] at absent
    cases absent
  rw [store_apart _ _ _ outside]
  exact extension address byte found

end ByteMemory
