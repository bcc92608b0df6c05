import A64dbg.Verif.HardwareFrame

/-!
# What a hardware breakpoint stop does to its own slots

`Continue` clears the slots that hold `pc` only where `BreakPoints` has no entry for `pc`, and
an entry is never removed. `cleared_iff_unlisted` says for every run at which of its stops the
hardware breakpoints that hold `pc` are gone before the tracee is resumed again.
-/

namespace A64dbg.HardwareHit

open Runs Connector HardwareFrame

variable {overrun : Word → Option String}

/-- A slot is enabled at an address. -/
def EnabledAt (slot : HwReg) (addr : Word) : Prop := slot.ctrl.getLsbD 0 = true ∧ slot.addr = addr

/-- One of the first `count` slots is enabled at an address. -/
def Listening (regs : Nat → HwReg) (count : Nat) (addr : Word) : Prop :=
  ∃ slot < count, EnabledAt (regs slot) addr

/-- A stop of `Continue` by signal 5 at a hardware breakpoint leaves none enabled there. -/
def Cleared (overrun : Word → Option String) (watch : Watch) : Move → Prop
  | .resume .contin answer => ∀ process, answer.trap = some process →
      Listening process.dbgRegs watch.session.debugger.connector.hwBreakpoints
        process.registers.pc →
      ¬Listening (watch.step overrun (.resume .contin answer)).session.process.dbgRegs
        watch.session.debugger.connector.hwBreakpoints process.registers.pc
  | _ => True

/-- At a hardware breakpoint where `Continue` stops no software breakpoint was ever set, and the
kernel takes the write that clears it. -/
def Unlisted (watch : Watch) : Move → Prop
  | .resume .contin answer => ∀ process, answer.trap = some process →
      Listening process.dbgRegs watch.session.debugger.connector.hwBreakpoints
        process.registers.pc →
      watch.entries process.registers.pc = none ∧ process.acceptsHwBreak = true
  | _ => True

/-- A cleared slot is not enabled. -/
theorem not_enabled_cleared (addr : Word) : ¬EnabledAt clearedSlot addr := by
  rintro ⟨enabled, -⟩
  exact absurd enabled (by decide)

/-- The loop of `Continue` leaves no slot enabled at `pc`. -/
theorem clearFirst_silences {connector : Connector} {pc : Word} {process : Tracee}
    (accepts : process.acceptsHwBreak = true) :
    ¬Listening (clearFirst connector pc process connector.hwBreakpoints).dbgRegs
      connector.hwBreakpoints pc := by
  rintro ⟨slot, inside, enabled⟩
  have loop := clearFirst_dbgRegs pc (le_refl connector.hwBreakpoints) accepts slot
  by_cases below : BelowHit process.dbgRegs pc connector.hwBreakpoints slot
  · rw [loop.1 below] at enabled
    exact not_enabled_cleared pc enabled
  · rw [loop.2 below] at enabled
    exact below ⟨slot, inside, le_refl slot, enabled.2.symm⟩

/-- **One stop.** The hardware breakpoints at `pc` are gone exactly when `BreakPoints` has no
entry for `pc` and the kernel takes the write. -/
theorem cleared_step (watch : Watch) (move : Move) :
    Cleared overrun watch move ↔ Unlisted watch move := by
  match move with
  | .resume .contin answer =>
    refine forall_congr' fun process => forall_congr' fun trap => forall_congr' fun listening => ?_
    rw [contin_dbgRegs watch trap]
    by_cases absent : watch.entries process.registers.pc = none
    · rw [if_pos absent, and_iff_right absent]
      by_cases accepts : process.acceptsHwBreak = true
      · exact iff_of_true (clearFirst_silences accepts) accepts
      · have refuses : process.acceptsHwBreak = false := Bool.eq_false_iff.mpr accepts
        rw [clearFirst_refused _ refuses]
        exact iff_of_false (fun silent => silent listening) accepts
    · rw [if_neg absent]
      apply iff_of_false
      · intro silent
        exact silent listening
      · rintro ⟨none, -⟩
        exact absent none
  | .resume .next _ | .resume .syscallContin _ | .resume .straceMode _ | .setBreakPoint _
  | .setHwBreakPoint _ _ | .rewrite _ => exact Iff.rfl

/-- **When a hardware breakpoint that stops the tracee is cleared.** In every run every stop of
`Continue` clears the hardware breakpoints at its `pc` exactly when at each such stop
`BreakPoints` has no entry for `pc` and the kernel takes the write. -/
theorem cleared_iff_unlisted (watch : Watch) (run : List Move) :
    Along (Watch.step overrun) (Cleared overrun) watch run ↔
      Along (Watch.step overrun) Unlisted watch run :=
  along_congr cleared_step watch run

/-- Only the debugger writes the slots, and the kernel takes its writes. -/
def SlotsKept (watch : Watch) : Move → Prop
  | .resume _ answer => ∀ process, answer.trap = some process →
      process.dbgRegs = watch.session.process.dbgRegs ∧ process.acceptsHwBreak = true
  | _ => True

/-- A software breakpoint at 0x1000 is set and hit, and a hardware breakpoint set there. -/
def bothKinds : List Move := setAndStop nops ++ [.setHwBreakPoint 0x1000 0]

/-- The stop at the hardware breakpoint. -/
def hardwareStop : Move := .resume .contin <| .waited sigTrap
  { Tracee.stoppedAt nops 0x1000 with
    dbgRegs := (after (Watch.step fun _ => none) sixSlots bothKinds).session.process.dbgRegs }

/-- Where a software breakpoint was once set, a hardware breakpoint stays enabled. -/
theorem slot_left_enabled :
    Along (Watch.step fun _ => none) SlotsKept sixSlots (bothKinds ++ [hardwareStop]) ∧
    ¬Along (Watch.step fun _ => none) (Cleared fun _ => none) sixSlots
      (bothKinds ++ [hardwareStop]) := by
  refine ⟨⟨trivial, ?_, trivial, ?_, trivial⟩, ?_⟩
  · intro process trap
    rw [stopped_sigTrap trap]
    exact ⟨rfl, rfl⟩
  · intro process trap
    rw [stopped_sigTrap trap]
    exact ⟨rfl, rfl⟩
  · intro cleared
    have silent := cleared.2.2.2.1 _ (trap_sigTrap _) ⟨0, by decide, by decide +kernel, rfl⟩
    exact silent ⟨0, by decide, by decide +kernel, by decide +kernel⟩

end A64dbg.HardwareHit
