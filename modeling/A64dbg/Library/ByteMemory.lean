import Mathlib

/-!
# Byte memories and little-endian words

A memory gives every address the byte mapped there, or none. A word of `count` bytes is
read and written at a base address, least significant byte first. `store_at` and `store_apart`
say what a write does to every byte. `Holds` says that a range is mapped and spells a word; it
is what a write leaves, what a read of a mapped range finds, and what the parts of a word
inherit.
Addresses are fixed-width and wrap; `offset` is the distance of an address above a base, so
the word of `count` bytes at a base holds exactly the addresses of offset below `count`.
-/

namespace ByteMemory

/-- Bytes by address; an address that is not mapped holds none. -/
abbrev Memory (width : Nat) := BitVec width → Option (BitVec 8)

variable {width : Nat}

/-- Byte `index` of a little-endian word. -/
def byteOf {bits : Nat} (word : BitVec bits) (index : Nat) : BitVec 8 :=
  word.extractLsb' (8 * index) 8

/-- Distance of an address above a base, around the address space. -/
def offset (base address : BitVec width) : Nat := (address - base).toNat

/-- The address `index` bytes above a base. -/
abbrev above (base : BitVec width) (index : Nat) : BitVec width := base + BitVec.ofNat width index

/-- The `count` bytes at a base are mapped and end inside the address space. -/
def Mapped (memory : Memory width) (base : BitVec width) (count : Nat) : Prop :=
  base.toNat + count ≤ 2 ^ width ∧ ∀ index < count, (memory (above base index)).isSome = true

instance (memory : Memory width) (base : BitVec width) (count : Nat) :
    Decidable (Mapped memory base count) := by
  unfold Mapped
  infer_instance

/-- Two memories hold the same `count` bytes at a base. -/
def Agree (left right : Memory width) (base : BitVec width) (count : Nat) : Prop :=
  ∀ index < count, left (above base index) = right (above base index)

/-- The word of `count` bytes at a base, unmapped bytes read as zero. -/
def load (memory : Memory width) (base : BitVec width) (count : Nat) : BitVec (8 * count) :=
  BitVec.ofFnLE fun bit => ((memory (above base (bit / 8))).getD 0).getLsbD (bit % 8)

/-- The `count` bytes at a base are mapped and spell a word. -/
def Holds (memory : Memory width) (base : BitVec width) (count : Nat) (word : BitVec (8 * count)) :
    Prop := ∀ index < count, memory (above base index) = some (byteOf word index)

/-- Write a word of `count` bytes at a base. -/
def store (memory : Memory width) (base : BitVec width) (count : Nat)
    (word : BitVec (8 * count)) : Memory width := fun address =>
  if offset base address < count then some (byteOf word (offset base address)) else memory address

/-- The offset of the address `index` bytes above a base is `index`. -/
theorem offset_above (base : BitVec width) (index : Nat) (inside : index < 2 ^ width) :
    offset base (above base index) = index := by
  rw [offset, above, add_sub_cancel_left, BitVec.toNat_ofNat, Nat.mod_eq_of_lt inside]

/-- Zero bytes above a base is the base. -/
@[simp]
theorem above_zero (base : BitVec width) : above base 0 = base :=
  BitVec.add_zero base

/-- An address is its own offset above any base. -/
theorem above_offset (base address : BitVec width) :
    above base (offset base address) = address := by
  rw [above, offset, BitVec.ofNat_toNat, BitVec.setWidth_eq, add_sub_cancel]

/-- Going up twice is going up once by the sum. -/
theorem above_above (base : BitVec width) (first second : Nat) :
    above (above base first) second = above base (first + second) := by
  simp only [above, BitVec.ofNat_add, BitVec.add_assoc]

/-- Two words with the same bytes are equal. -/
theorem word_ext {count : Nat} {left right : BitVec (8 * count)}
    (same : ∀ index < count, byteOf left index = byteOf right index) : left = right := by
  apply BitVec.eq_of_getLsbD_eq
  intro bit inside
  have bytes := congrArg (fun byte : BitVec 8 => byte.getLsbD (bit % 8)) (same (bit / 8) (by omega))
  simp only [byteOf, BitVec.getLsbD_extractLsb', show 8 * (bit / 8) + bit % 8 = bit by omega,
    show bit % 8 < 8 by omega, decide_true, Bool.true_and] at bytes
  exact bytes

/-- Each byte of a word read is the byte at its address. -/
theorem byteOf_load (memory : Memory width) (base : BitVec width) {count index : Nat}
    (inside : index < count) :
    byteOf (load memory base count) index = (memory (above base index)).getD 0 := by
  apply BitVec.eq_of_getLsbD_eq
  intro bit small
  simp only [byteOf, load, BitVec.getLsbD_extractLsb', small, decide_true, Bool.true_and,
    BitVec.getLsbD_ofFnLE, show 8 * index + bit < 8 * count by omega, dite_true,
    show (8 * index + bit) / 8 = index by omega, show (8 * index + bit) % 8 = bit by omega]

/-- A write puts byte `index` of its word `index` bytes above its base. -/
theorem store_at (memory : Memory width) (base : BitVec width) {count index : Nat}
    (word : BitVec (8 * count)) (inside : index < count) (fits : count ≤ 2 ^ width) :
    store memory base count word (above base index) = some (byteOf word index) := by
  rw [store, offset_above base index (by omega), if_pos inside]

/-- A write leaves every address outside its word alone. -/
theorem store_apart (memory : Memory width) (base : BitVec width) {count : Nat}
    (word : BitVec (8 * count)) {address : BitVec width} (outside : count ≤ offset base address) :
    store memory base count word address = memory address := by
  rw [store, if_neg (by omega)]

/-- Byte `index` of a part of a word is byte `start + index` of the word. -/
theorem byteOf_part {bits size : Nat} (word : BitVec bits) (start index : Nat)
    (inside : index < size) :
    byteOf (word.extractLsb' (8 * start) (8 * size)) index = byteOf word (start + index) := by
  apply BitVec.eq_of_getLsbD_eq
  intro bit low
  simp only [byteOf, BitVec.getLsbD_extractLsb', low, decide_true, Bool.true_and,
    show 8 * index + bit < 8 * size by omega,
    show 8 * start + (8 * index + bit) = 8 * (start + index) + bit by ring]

/-- The lowest byte of a word put together is the byte put below. -/
theorem byteOf_append_zero {bits : Nat} (high : BitVec bits) (low : BitVec 8) :
    byteOf (high ++ low) 0 = low := by
  apply BitVec.eq_of_getLsbD_eq
  intro bit small
  simp [byteOf, BitVec.getLsbD_append, small]

/-- The bytes above the lowest one are those of the part above. -/
theorem byteOf_append_succ {bits : Nat} (high : BitVec bits) (low : BitVec 8) (index : Nat) :
    byteOf (high ++ low) (index + 1) = byteOf high index := by
  apply BitVec.eq_of_getLsbD_eq
  intro bit small
  have above : ¬8 * (index + 1) + bit < 8 := by omega
  have shifted : 8 * (index + 1) + bit - 8 = 8 * index + bit := by omega
  simp only [byteOf, BitVec.getLsbD_extractLsb', BitVec.getLsbD_append, above, shifted,
    if_false]

/-- Where each byte is mapped, the word read is held. -/
theorem holds_load {memory : Memory width} {base : BitVec width} {count : Nat}
    (there : ∀ index < count, (memory (above base index)).isSome = true) :
    Holds memory base count (load memory base count) := by
  intro index inside
  obtain ⟨byte, read⟩ := Option.isSome_iff_exists.mp (there index inside)
  rw [byteOf_load _ _ inside, read, Option.getD_some]

/-- A mapped range holds the word read there. -/
theorem Mapped.holds {memory : Memory width} {base : BitVec width} {count : Nat}
    (mapped : Mapped memory base count) : Holds memory base count (load memory base count) :=
  holds_load mapped.2

/-- The word read is the word held. -/
theorem Holds.load_eq {memory : Memory width} {base : BitVec width} {count : Nat}
    {word : BitVec (8 * count)} (holds : Holds memory base count word) :
    load memory base count = word :=
  word_ext fun index inside => by
    rw [byteOf_load _ _ inside, holds index inside, Option.getD_some]

/-- A range holds one word only. -/
theorem Holds.unique {memory : Memory width} {base : BitVec width} {count : Nat}
    {left right : BitVec (8 * count)} (first : Holds memory base count left)
    (second : Holds memory base count right) : left = right :=
  first.load_eq.symm.trans second.load_eq

/-- Memories that hold the same word agree on its bytes. -/
theorem Holds.agree {left right : Memory width} {base : BitVec width} {count : Nat}
    {word : BitVec (8 * count)} (first : Holds left base count word)
    (second : Holds right base count word) : Agree left right base count :=
  fun index inside => (first index inside).trans (second index inside).symm

/-- A memory that agrees with one that holds a word holds it. -/
theorem Agree.holds {left right : Memory width} {base : BitVec width} {count : Nat}
    {word : BitVec (8 * count)} (agree : Agree left right base count)
    (holds : Holds right base count word) : Holds left base count word :=
  fun index inside => (agree index inside).trans (holds index inside)

/-- A write leaves the word it wrote. -/
theorem holds_store (memory : Memory width) (base : BitVec width) (count : Nat)
    (word : BitVec (8 * count)) (fits : count ≤ 2 ^ width) :
    Holds (store memory base count word) base count word :=
  fun _ inside => store_at memory base word inside fits

/-- A part of a word held is held at its place. -/
theorem Holds.part {memory : Memory width} {base : BitVec width} {count : Nat}
    {word : BitVec (8 * count)} (holds : Holds memory base count word) (start size : Nat)
    (inside : start + size ≤ count) :
    Holds memory (above base start) size (word.extractLsb' (8 * start) (8 * size)) := by
  intro index small
  rw [above_above, holds (start + index) (by omega), byteOf_part word start index small]

/-- Writing a word where it is held changes nothing. -/
theorem store_held {memory : Memory width} {base : BitVec width} {count : Nat}
    {word : BitVec (8 * count)} (holds : Holds memory base count word) :
    store memory base count word = memory := by
  funext address
  by_cases inside : offset base address < count
  · have held := holds _ inside
    rw [above_offset] at held
    rw [store, if_pos inside, held]
  · rw [store_apart _ _ _ (by omega)]

/-- A second write at a base takes the place of the first. -/
theorem store_store (memory : Memory width) (base : BitVec width) {count : Nat}
    (first second : BitVec (8 * count)) :
    store (store memory base count first) base count second = store memory base count second := by
  funext address
  by_cases inside : offset base address < count
  · simp only [store, if_pos inside]
  · have outside : count ≤ offset base address := by omega
    rw [store_apart _ _ _ outside, store_apart _ _ _ outside, store_apart _ _ _ outside]

/-- A write keeps every mapped range mapped. -/
theorem Mapped.store {memory : Memory width} {base : BitVec width} {count : Nat}
    (mapped : Mapped memory base count) (other : BitVec width) (size : Nat)
    (word : BitVec (8 * size)) : Mapped (ByteMemory.store memory other size word) base count := by
  refine ⟨mapped.1, fun index inside => ?_⟩
  by_cases hit : offset other (above base index) < size
  · rw [ByteMemory.store, if_pos hit]
    rfl
  · rw [store_apart _ _ _ (by omega)]
    exact mapped.2 index inside

/-- A word written inside the address space is mapped. -/
theorem mapped_store (memory : Memory width) {base : BitVec width} {count : Nat}
    (word : BitVec (8 * count)) (inside : base.toNat + count ≤ 2 ^ width) :
    Mapped (store memory base count word) base count := by
  refine ⟨inside, fun index small => ?_⟩
  rw [store_at memory base word small (by omega), Option.isSome_some]

/-- A range inside a mapped range is mapped. -/
theorem Mapped.part {memory : Memory width} {base : BitVec width} {count : Nat}
    (mapped : Mapped memory base count) (start size : Nat) (inside : start + size ≤ count)
    (nonempty : 0 < size) : Mapped memory (above base start) size := by
  have bound := mapped.1
  refine ⟨?_, fun index small => ?_⟩
  · have start_lt : start < 2 ^ width := by omega
    rw [above, BitVec.toNat_add, BitVec.toNat_ofNat, Nat.mod_eq_of_lt start_lt,
      Nat.mod_eq_of_lt (by omega)]
    omega
  · rw [above_above]
    exact mapped.2 (start + index) (by omega)

end ByteMemory
