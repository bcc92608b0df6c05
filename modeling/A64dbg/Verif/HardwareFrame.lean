import A64dbg.Watch

/-!
# What a hardware breakpoint stop does to the other slots

`clearHwBreakpoint` writes the register set from slot 0 up to its slot, all zero. A stop whose
`pc` is in slot `i` therefore clears every slot up to `i`. `ownSlotsOnly_iff_lowerSlotsSpared`
says for every run exactly when its stops change no slot of another address.
-/

namespace A64dbg.HardwareFrame

open Runs Connector

variable {overrun : Word → Option String}

/-- A slot that `clearHwBreakpoint` has cleared. -/
def clearedSlot : HwReg := ⟨0, 0⟩

/-- A slot lies at or below one of the first `count` slots that hold `pc`. -/
def BelowHit (regs : Nat → HwReg) (pc : Word) (count slot : Nat) : Prop :=
  ∃ hit < count, slot ≤ hit ∧ pc = (regs hit).addr

/-- A hit below slot `count + 1` is one below `count` or one of slot `count` itself. -/
theorem belowHit_succ (regs : Nat → HwReg) (pc : Word) (count slot : Nat) :
    BelowHit regs pc (count + 1) slot ↔
      BelowHit regs pc count slot ∨ slot ≤ count ∧ pc = (regs count).addr := by
  constructor
  · rintro ⟨hit, bound, lower, same⟩
    by_cases last : hit = count
    · subst last
      exact .inr ⟨lower, same⟩
    · have earlier : hit < count := by omega
      exact .inl ⟨hit, earlier, lower, same⟩
  · rintro (⟨hit, bound, lower, same⟩ | ⟨lower, same⟩)
    · exact ⟨hit, Nat.lt_succ_of_lt bound, lower, same⟩
    · exact ⟨count, Nat.lt_succ_self count, lower, same⟩

/-- Clearing a breakpoint clears its slot and every lower one. -/
theorem clearHwBreakpoint_dbgRegs {connector : Connector} {process : Tracee} {idx : Nat}
    (inside : idx < connector.hwBreakpoints) (accepts : process.acceptsHwBreak = true)
    (slot : Nat) :
    (connector.clearHwBreakpoint process idx).dbgRegs slot =
      if slot ≤ idx then clearedSlot else process.dbgRegs slot := by
  unfold clearHwBreakpoint Tracee.setHwRegset
  rw [if_neg (Nat.not_le.mpr inside), if_pos accepts]
  simp only [covers_iff]
  rfl

/-- A refused write leaves the slots alone. -/
theorem clearHwBreakpoint_refused {connector : Connector} {process : Tracee} {idx : Nat}
    (refuses : process.acceptsHwBreak = false) :
    connector.clearHwBreakpoint process idx = process := by
  unfold clearHwBreakpoint Tracee.setHwRegset
  split
  · rfl
  · rw [refuses]
    rfl

/-- The loop of `Continue` over its first `count` slots. -/
def clearFirst (connector : Connector) (pc : Word) (process : Tracee) (count : Nat) : Tracee :=
  (List.range count).foldl
    (fun cleared i => if pc = (process.dbgRegs i).addr then connector.clearHwBreakpoint cleared i
      else cleared) process

/-- One pass more clears slot `count` if it holds the program counter. -/
theorem clearFirst_succ (connector : Connector) (pc : Word) (process : Tracee) (count : Nat) :
    clearFirst connector pc process (count + 1) =
      if pc = (process.dbgRegs count).addr then
        connector.clearHwBreakpoint (clearFirst connector pc process count) count
      else clearFirst connector pc process count := by
  unfold clearFirst
  rw [List.range_succ, List.foldl_append]
  rfl

/-- The loop does not change whether the kernel takes the writes. -/
theorem clearFirst_accepts (connector : Connector) (pc : Word) (process : Tracee) (count : Nat) :
    (clearFirst connector pc process count).acceptsHwBreak = process.acceptsHwBreak := by
  induction count with
  | zero => rfl
  | succ count ih =>
    rw [clearFirst_succ]
    split
    · obtain ⟨slots, frame⟩ := clearHwBreakpoint_frame connector
        (clearFirst connector pc process count) count
      rw [frame]
      exact ih
    · exact ih

/-- After the passes so far a slot is cleared exactly when it is at or below a hit. -/
theorem clearFirst_dbgRegs {connector : Connector} (pc : Word) {process : Tracee} {count : Nat}
    (inside : count ≤ connector.hwBreakpoints) (accepts : process.acceptsHwBreak = true)
    (slot : Nat) :
    (BelowHit process.dbgRegs pc count slot →
      (clearFirst connector pc process count).dbgRegs slot = clearedSlot) ∧
    (¬BelowHit process.dbgRegs pc count slot →
      (clearFirst connector pc process count).dbgRegs slot = process.dbgRegs slot) := by
  induction count with
  | zero => exact ⟨fun ⟨_, early, _⟩ => absurd early (Nat.not_lt_zero _), fun _ => rfl⟩
  | succ count ih =>
    obtain ⟨cleared, kept⟩ := ih (Nat.le_of_succ_le inside)
    have taken : (clearFirst connector pc process count).acceptsHwBreak = true := by
      rw [clearFirst_accepts, accepts]
    rw [clearFirst_succ, belowHit_succ]
    by_cases hit : pc = (process.dbgRegs count).addr
    · rw [if_pos hit, clearHwBreakpoint_dbgRegs inside taken]
      by_cases below : slot ≤ count
      · rw [if_pos below]
        exact ⟨fun _ => rfl, fun none => absurd (.inr ⟨below, hit⟩) none⟩
      · rw [if_neg below]
        have above : ¬BelowHit process.dbgRegs pc count slot := by
          rintro ⟨other, bound, lower, -⟩
          omega
        have same := kept above
        constructor
        · rintro (earlier | ⟨here, -⟩)
          · exact absurd earlier above
          · exact absurd here below
        · intro _
          exact same
    · rw [if_neg hit]
      constructor
      · rintro (earlier | ⟨-, same⟩)
        · exact cleared earlier
        · exact absurd same hit
      · intro none
        exact kept fun earlier => none (.inl earlier)

/-- Where the kernel takes no writes the loop changes nothing. -/
theorem clearFirst_refused {connector : Connector} {pc : Word} {process : Tracee} (count : Nat)
    (refuses : process.acceptsHwBreak = false) :
    clearFirst connector pc process count = process := by
  induction count with
  | zero => rfl
  | succ count ih =>
    rw [clearFirst_succ, ih, clearHwBreakpoint_refused refuses, ite_self]

/-- A stop by signal 5 changes no slot that holds another address than `pc`. -/
def OwnSlotsOnly (overrun : Word → Option String) (watch : Watch) : Move → Prop
  | .resume .contin answer => ∀ process, answer.trap = some process →
      ∀ slot, (process.dbgRegs slot).addr ≠ process.registers.pc →
        (watch.step overrun (.resume .contin answer)).session.process.dbgRegs slot =
          process.dbgRegs slot
  | _ => True

/-- At a stop that has no software breakpoint entry, below a slot that holds `pc` every slot
holds `pc` too or is clear already, unless the kernel takes no writes. -/
def LowerSlotsSpared (watch : Watch) : Move → Prop
  | .resume .contin answer => ∀ process, answer.trap = some process →
      watch.entries process.registers.pc = none → process.acceptsHwBreak = true →
      ∀ hit < watch.session.debugger.connector.hwBreakpoints,
        (process.dbgRegs hit).addr = process.registers.pc →
        ∀ slot < hit, (process.dbgRegs slot).addr = process.registers.pc ∨
          process.dbgRegs slot = clearedSlot
  | _ => True

/-- A stop by signal 5 clears slots only at an address without an entry. -/
theorem contin_dbgRegs (watch : Watch) {answer : Resume} {process : Tracee}
    (trap : answer.trap = some process) :
    (watch.step overrun (.resume .contin answer)).session.process.dbgRegs =
      if watch.entries process.registers.pc = none then
        (clearFirst watch.session.debugger.connector process.registers.pc process
          watch.session.debugger.connector.hwBreakpoints).dbgRegs
      else process.dbgRegs := by
  obtain ⟨status, rfl, trapped⟩ := Resume.trapped trap
  change (watch.session.continue (.waited status process)).process.dbgRegs = _
  rw [continue_eq]
  simp only [if_pos trapped]
  unfold Session.breakpointHit Session.waited Tracee.getRegisters
  dsimp only
  cases entry : watch.session.debugger.breakPoints process.registers.pc with
  | none =>
    rw [if_pos entry]
    rfl
  | some data =>
    have present : watch.entries process.registers.pc ≠ none := fun absent => by
      cases entry.symm.trans absent
    rw [if_neg present]
    rfl

/-- **The exact cost of one stop.** A stop changes only the slots of its own address exactly
when it spares the slots below them. -/
theorem ownSlotsOnly_step (watch : Watch) (move : Move) :
    OwnSlotsOnly overrun watch move ↔ LowerSlotsSpared watch move := by
  match move with
  | .resume .contin answer =>
    refine forall_congr' fun process => forall_congr' fun trap => ?_
    rw [contin_dbgRegs watch trap]
    by_cases absent : watch.entries process.registers.pc = none
    · rw [if_pos absent]
      by_cases accepts : process.acceptsHwBreak = true
      · have loop := clearFirst_dbgRegs process.registers.pc
          (le_refl watch.session.debugger.connector.hwBreakpoints) accepts
        constructor
        · intro own _ _ hit inside same slot lower
          by_contra other
          push Not at other
          obtain ⟨apart, used⟩ := other
          have cleared := (loop slot).1 ⟨hit, inside, Nat.le_of_lt lower, same.symm⟩
          exact used ((own slot apart).symm.trans cleared)
        · intro spared slot apart
          by_cases below : BelowHit process.dbgRegs process.registers.pc
              watch.session.debugger.connector.hwBreakpoints slot
          · obtain ⟨hit, inside, lower, same⟩ := id below
            have strict : slot < hit := by
              apply Nat.lt_of_le_of_ne lower
              intro equal
              rw [equal] at apart
              exact apart same.symm
            rcases spared absent accepts hit inside same.symm slot strict with here | clear
            · exact absurd here apart
            · rw [(loop slot).1 below, clear]
          · exact (loop slot).2 below
      · rw [clearFirst_refused _ (Bool.eq_false_iff.mpr accepts)]
        exact iff_of_true (fun _ _ => rfl) fun _ taken => absurd taken accepts
    · rw [if_neg absent]
      exact iff_of_true (fun _ _ => rfl) fun none => absurd none absent
  | .resume .next _ | .resume .syscallContin _ | .resume .straceMode _ | .setBreakPoint _
  | .setHwBreakPoint _ _ | .rewrite _ => exact Iff.rfl

/-- **A hardware breakpoint hit touches only its own slots.** In every run every stop changes
only the slots of its own address exactly when every stop spares the slots below them. -/
theorem ownSlotsOnly_iff_lowerSlotsSpared (watch : Watch) (run : List Move) :
    Along (Watch.step overrun) (OwnSlotsOnly overrun) watch run ↔
      Along (Watch.step overrun) LowerSlotsSpared watch run :=
  along_congr ownSlotsOnly_step watch run

/-- A debugger at its start on a machine with six slots. -/
def sixSlots : Watch where
  session := ⟨{ Debugger.initial with connector := ⟨1, -1, 6⟩ }, Tracee.stoppedAt nops 0, []⟩
  armed := fun _ => none

/-- Accepted settings, and continues of a tracee whose slots only the debugger writes. -/
def Accepted (watch : Watch) : Move → Prop
  | .setHwBreakPoint bpAddr bpNum =>
    (watch.session.debugger.connector.setHwBreakpoint watch.session.process bpAddr bpNum).1 = true
  | .resume .contin answer => ∀ process, answer.trap = some process →
      process.dbgRegs = watch.session.process.dbgRegs
  | _ => False

/-- Breakpoints in slots 0 and 1. -/
def twoSettings : List Move := [.setHwBreakPoint 0x2000 0, .setHwBreakPoint 0x1000 1]

/-- The stop at the breakpoint in slot 1. -/
def upperStop : Move := .resume .contin <| .waited sigTrap
  { Tracee.stoppedAt nops 0x1000 with
    dbgRegs := (after (Watch.step fun _ => none) sixSlots twoSettings).session.process.dbgRegs }

/-- A hit in slot 1 clears slot 0. -/
theorem lower_slot_cleared :
    Along (Watch.step fun _ => none) Accepted sixSlots (twoSettings ++ [upperStop]) ∧
    ¬Along (Watch.step fun _ => none) (OwnSlotsOnly fun _ => none) sixSlots
      (twoSettings ++ [upperStop]) := by
  refine ⟨⟨rfl, rfl, ?_, trivial⟩, ?_⟩
  · intro process trap
    rw [stopped_sigTrap trap]
    rfl
  · intro own
    have kept := own.2.2.1 _ (trap_sigTrap _) 0 (by decide)
    exact absurd kept (by decide +kernel)

end A64dbg.HardwareFrame
