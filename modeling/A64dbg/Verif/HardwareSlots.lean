import A64dbg.Connector
import A64dbg.Library.Runs
import A64dbg.Library.Writes

/-!
# Setting hardware breakpoints

`setHwBreakpoint` reads all slots, replaces one and writes the slots from 0 up to it. The kernel
takes or refuses each write. `lastWriteWins` says what any sequence of calls leaves in every
slot: the entry of the last call for that slot that returned true.
-/

namespace A64dbg.HardwareSlots

open Runs Writes Connector

/-- A call of `setHwBreakpoint`, and whether the kernel takes its write. -/
structure Setting where
  /-- `addr`. -/
  addr : Word
  /-- `bp_num`. -/
  bpNum : Word
  /-- Whether `PTRACE_SETREGSET` succeeds. -/
  accepts : Bool

/-- The result of a call and the process it leaves. -/
def Setting.run (connector : Connector) (process : Tracee) (setting : Setting) : Bool × Tracee :=
  connector.setHwBreakpoint { process with acceptsHwBreak := setting.accepts } setting.addr
    setting.bpNum

/-- The process a call leaves. -/
def afterSetting (connector : Connector) (process : Tracee) (setting : Setting) : Tracee :=
  (setting.run connector process).2

/-- The calls of a sequence, each with its result. -/
def results (connector : Connector) : Tracee → List Setting → List (Setting × Bool)
  | _, [] => []
  | process, setting :: rest =>
    (setting, (setting.run connector process).1) ::
      results connector (afterSetting connector process setting) rest

/-- The last call for a slot that returned true. -/
def lastSetting (connector : Connector) (process : Tracee) (settings : List Setting)
    (slot : Nat) : Option Setting :=
  ((results connector process settings).reverse.find? fun entry =>
    entry.2 && entry.1.bpNum.toNat == slot).map Prod.fst

/-- A call returns true when its slot exists and the kernel takes the write. -/
theorem run_result (connector : Connector) (process : Tracee) (setting : Setting) :
    (setting.run connector process).1 =
      (decide (setting.bpNum.toNat < connector.hwBreakpoints) && setting.accepts) := by
  unfold Setting.run setHwBreakpoint
  by_cases inside : setting.bpNum.toNat < connector.hwBreakpoints
  · rw [if_neg (Nat.not_le.mpr inside)]
    simp [inside]
  · rw [if_pos (Nat.not_lt.mp inside)]
    simp [inside]

/-- **One call.** A call that returns true replaces its own slot; any other call changes none. -/
theorem run_dbgRegs (connector : Connector) (process : Tracee) (setting : Setting) :
    (afterSetting connector process setting).dbgRegs =
      if (setting.run connector process).1 = true then
        Function.update process.dbgRegs setting.bpNum.toNat (hwEntry setting.addr)
      else process.dbgRegs := by
  rw [run_result]
  unfold afterSetting Setting.run setHwBreakpoint getHwBreakpoints Tracee.setHwRegset
  by_cases inside : setting.bpNum.toNat < connector.hwBreakpoints
  · rw [if_neg (Nat.not_le.mpr inside)]
    cases taken : setting.accepts with
    | false => simp
    | true =>
      simp only [inside, decide_true, Bool.and_true, if_true, covers_iff]
      funext slot
      by_cases lower : slot ≤ setting.bpNum.toNat
      · rw [if_pos lower]
      · have apart : slot ≠ setting.bpNum.toNat := by omega
        rw [if_neg lower, Function.update_of_ne apart]
  · rw [if_pos (Nat.not_lt.mp inside)]
    simp [inside]

/-- The writes that the calls with result true make. -/
def writesOf (entries : List (Setting × Bool)) : List (Nat × HwReg) :=
  (entries.filter fun entry => entry.2).map fun entry =>
    (entry.1.bpNum.toNat, hwEntry entry.1.addr)

/-- A sequence of calls makes the writes of its successful ones. -/
theorem after_dbgRegs (connector : Connector) (process : Tracee) (settings : List Setting) :
    (after (afterSetting connector) process settings).dbgRegs =
      write process.dbgRegs (writesOf (results connector process settings)) := by
  induction settings generalizing process with
  | nil => rfl
  | cons setting rest ih =>
    rw [after_cons, ih, run_dbgRegs, results]
    unfold writesOf
    cases result : (setting.run connector process).1 with
    | false => simp
    | true => simp [write]

/-- The last write at a slot is the one of the last successful call for it. -/
theorem lastAt_writesOf (connector : Connector) (process : Tracee) (settings : List Setting)
    (slot : Nat) :
    lastAt (writesOf (results connector process settings)) slot =
      (lastSetting connector process settings slot).map fun setting => hwEntry setting.addr := by
  unfold lastAt writesOf lastSetting
  rw [← List.map_reverse, List.find?_map, ← List.filter_reverse, List.find?_filter,
    Option.map_map, Option.map_map]
  simp only [Function.comp_def, Bool.decide_and, Bool.decide_eq_true]

/-- **Last write wins.** After any sequence of calls on any slots, slot `i` holds the address,
with its two low bits cleared, and 0x781 of the last call for `i` that returned true, and what
it held at first if there is none. A call for a slot that does not exist, and a call whose write
the kernel refuses, returns false and changes no slot; every other call returns true. -/
theorem lastWriteWins (connector : Connector) (process : Tracee) (settings : List Setting) :
    (∀ slot, (after (afterSetting connector) process settings).dbgRegs slot =
      match lastSetting connector process settings slot with
      | some setting => ⟨setting.addr &&& ~~~3, 0x781⟩
      | none => process.dbgRegs slot) ∧
    Along (afterSetting connector) (fun reached setting =>
      connector.hwBreakpoints ≤ setting.bpNum.toNat ∨ setting.accepts = false →
        (setting.run connector reached).1 = false ∧
        (afterSetting connector reached setting).dbgRegs = reached.dbgRegs) process settings ∧
    Along (afterSetting connector) (fun reached setting =>
      setting.bpNum.toNat < connector.hwBreakpoints → setting.accepts = true →
        (setting.run connector reached).1 = true) process settings := by
  refine ⟨?_, ?_, ?_⟩
  · intro slot
    rw [after_dbgRegs, write_eq, lastAt_writesOf]
    cases lastSetting connector process settings slot with
    | none => rfl
    | some setting => rfl
  · apply along_of_mem
    intro setting _ reached failing
    have result : (setting.run connector reached).1 = false := by
      rw [run_result, Bool.and_eq_false_iff, decide_eq_false_iff_not, Nat.not_lt]
      exact failing
    rw [run_dbgRegs, result]
    exact ⟨rfl, if_neg Bool.false_ne_true⟩
  · apply along_of_mem
    intro setting _ reached inside taken
    rw [run_result, decide_eq_true inside, taken]
    rfl

end A64dbg.HardwareSlots
