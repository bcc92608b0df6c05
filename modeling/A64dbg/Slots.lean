import A64dbg.Tracee

/-!
# Words and instruction slots

An instruction takes four bytes and starts at a multiple of four, while `PTRACE_PEEKTEXT` and
`PTRACE_POKETEXT` move eight bytes. A word at a slot therefore spans two of them: writing it
leaves its low half in the slot, its high half in the next slot, and every other slot alone.
-/

namespace A64dbg

open ByteMemory Tracee

/-- An address where an instruction may start. -/
def Aligned (addr : Addr) : Prop := addr.toNat % 4 = 0

instance (addr : Addr) : Decidable (Aligned addr) := inferInstanceAs (Decidable (_ = _))

/-- The slot after a slot. -/
abbrev nextSlot (addr : Addr) : Addr := above addr 4

/-- The next slot of a slot is a slot. -/
theorem Aligned.nextSlot {addr : Addr} (aligned : Aligned addr) : Aligned (nextSlot addr) := by
  unfold Aligned at *
  bv_omega

/-- The next slot is another slot. -/
theorem nextSlot_ne (addr : Addr) : nextSlot addr ≠ addr := by
  bv_omega

/-- Outside the two slots of a word, the bytes of a slot are outside the word. -/
theorem slot_apart {addr other : Addr} (aligned : Aligned addr) (otherAligned : Aligned other)
    (apart : other ≠ addr) (apartNext : other ≠ nextSlot addr) {index : Nat} (inside : index < 4) :
    8 ≤ offset addr (above other index) := by
  unfold Aligned at aligned otherAligned
  have distance : (other - addr).toNat % 4 = 0 := by bv_omega
  have nonzero : (other - addr).toNat ≠ 0 := by bv_omega
  have notFour : (other - addr).toNat ≠ 4 := by bv_omega
  have sum : (above other index - addr).toNat = (other - addr).toNat + index := by bv_omega
  unfold offset
  omega

/-- The low half of an instruction word is the instruction. -/
@[simp]
theorem lowInstr_instrWord (instr : Instr) : lowInstr (instrWord instr) = instr := by
  unfold lowInstr instrWord
  ext bit inside
  simp [show bit < 64 by omega, BitVec.getLsbD_eq_getElem inside]

/-- The high half of an instruction word is zero. -/
@[simp]
theorem highInstr_instrWord (instr : Instr) : highInstr (instrWord instr) = 0 := by
  unfold highInstr instrWord
  ext bit inside
  simp

section Poke

variable {memory : Memory} {addr : Addr} (data : Word)

/-- A write to a mapped word takes place. -/
theorem pokeMemory_mapped (mapped : Mapped memory addr 8) :
    pokeMemory memory addr data = store memory addr 8 data := if_pos mapped

/-- A write to an unmapped word does not. -/
theorem pokeMemory_unmapped (unmapped : ¬Mapped memory addr 8) :
    pokeMemory memory addr data = memory := if_neg unmapped

/-- A write to a mapped word leaves that word. -/
theorem poke_holds (mapped : Mapped memory addr 8) :
    Holds (pokeMemory memory addr data) addr 8 data := by
  rw [pokeMemory_mapped data mapped]
  exact holds_store memory addr 8 data (by decide)

/-- A write leaves the low half of its word in its slot. -/
theorem poke_low (mapped : Mapped memory addr 8) :
    Holds (pokeMemory memory addr data) addr 4 (lowInstr data) := by
  have low := (poke_holds data mapped).part 0 4 (by decide)
  rwa [above_zero] at low

/-- A write of an instruction word leaves the instruction. -/
theorem poke_instr {memory : Memory} {addr : Addr} (instr : Instr) (mapped : Mapped memory addr 8) :
    Holds (pokeMemory memory addr (instrWord instr)) addr 4 instr := by
  have low := poke_low (instrWord instr) mapped
  rwa [lowInstr_instrWord] at low

/-- A write leaves the high half of its word in the next slot. -/
theorem poke_high (mapped : Mapped memory addr 8) :
    Holds (pokeMemory memory addr data) (nextSlot addr) 4 (highInstr data) :=
  (poke_holds data mapped).part 4 4 (by decide)

/-- A write leaves every other slot alone. -/
theorem poke_other (aligned : Aligned addr) {other : Addr} (otherAligned : Aligned other)
    (apart : other ≠ addr) (apartNext : other ≠ nextSlot addr) :
    Agree (pokeMemory memory addr data) memory other 4 := by
  intro index inside
  unfold pokeMemory
  split
  · exact store_apart _ _ _ (slot_apart aligned otherAligned apart apartNext inside)
  · rfl

/-- A write keeps every mapped range mapped. -/
theorem mapped_poke {other : Addr} {count : Nat} (mapped : Mapped memory other count) :
    Mapped (pokeMemory memory addr data) other count := by
  unfold pokeMemory
  split
  · exact mapped.store addr 8 data
  · exact mapped

end Poke

/-- A mapped word has its second slot mapped. -/
theorem mapped_nextSlot {memory : Memory} {addr : Addr} (mapped : Mapped memory addr 8) :
    Mapped memory (nextSlot addr) 4 :=
  mapped.part 4 4 (by decide) (by decide)

/-- A mapped word is read as it is held. -/
theorem peekText_holds {process : Tracee} {addr : Addr} (mapped : Mapped process.memory addr 8) :
    Holds process.memory addr 8 (process.peekText addr) := by
  unfold peekText
  rw [if_pos mapped]
  exact mapped.holds

/-- The low half of a word read is the instruction in its slot. -/
theorem peekText_low {process : Tracee} {addr : Addr} (mapped : Mapped process.memory addr 8) :
    Holds process.memory addr 4 (lowInstr (process.peekText addr)) := by
  have low := (peekText_holds mapped).part 0 4 (by decide)
  rwa [above_zero] at low

end A64dbg
