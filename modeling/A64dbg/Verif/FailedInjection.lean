import A64dbg.Verif.Injection

/-!
# Injected system calls that fail

The two injected system calls replace registers, and `allocateMemoryInChild` a word of code,
before their single step. The step may be refused, or end at a stop by another signal before
`svc #0` was executed. `intact_iff_harmless` says at any registers, any memory and any connector
exactly when such a call leaves no trace.
-/

namespace A64dbg.FailedInjection

open ByteMemory Tracee Connector Injection

/-- The status of a stop by a signal. -/
def stopStatus (signal : BitVec 8) : WaitStatus := signal.setWidth 32 <<< 8 ||| 0x7f

/-- The step does not execute its instruction: it is refused, or the tracee stops as it was by
another signal than 5. -/
def NotExecuted (step : Tracee → Resume) (process : Tracee) : Prop :=
  step process = .refused ∨
    ∃ signal, signal ≠ 5 ∧ step process = .waited (stopStatus signal) process

/-- The call does not execute its system call. -/
def Failed (state : State) : Call → Prop
  | .allocate step => NotExecuted step (mmapProcess state.2)
  | .mprotect step memAddr memSize memProt =>
    NotExecuted step (mprotectProcess state memAddr memSize memProt)

/-- The call leaves the registers, the memory and the private page as they were. -/
def Intact (state : State) (call : Call) : Prop :=
  (afterCall state call).2.registers = state.2.registers ∧
  (afterCall state call).2.memory = state.2.memory ∧
  (afterCall state call).1.privateMemory = state.1.privateMemory

/-- `svc #0` and four zero bytes are at an address already, unless they cannot be written. -/
def SvcThere (memory : Memory) (addr : Addr) : Prop :=
  Mapped memory addr 8 → Holds memory addr 8 (instrWord svc)

/-- What a call leaves behind was there before. `allocateMemoryInChild` leaves the registers of
`mmap` and `svc #0` at `pc` after a refused step; after another stop it takes its own first
argument, zero, for the address of the private page and writes `svc #0` there. `mprotectMemory`
leaves its registers after a refused step. -/
def Harmless (state : State) : Call → Prop
  | .allocate step =>
    match step (mmapProcess state.2) with
    | .refused => mmapRegs state.2.registers = state.2.registers ∧
        SvcThere state.2.memory state.2.registers.pc
    | .waited _ _ => SvcThere state.2.memory 0 ∧ state.1.privateMemory = 0
  | .mprotect step memAddr memSize memProt =>
    Refused state (.mprotect step memAddr memSize memProt) ∨
      match step (mprotectProcess state memAddr memSize memProt) with
      | .refused => mprotectRegs state.2.registers state.1.privateMemory memAddr memSize memProt =
          state.2.registers
      | .waited _ _ => True

/-- A write changes nothing exactly when its word is there or cannot be written. -/
theorem poke_keeps_iff (memory : Memory) (addr : Addr) :
    pokeMemory memory addr (instrWord svc) = memory ↔ SvcThere memory addr := by
  constructor
  · intro same mapped
    have held := poke_holds (instrWord svc) mapped
    rwa [same] at held
  · intro there
    by_cases mapped : Mapped memory addr 8
    · rw [pokeMemory_mapped _ mapped]
      exact store_held (there mapped)
    · exact pokeMemory_unmapped _ mapped

/-- A word that was read can be put back. -/
theorem poke_back (process : Tracee) (addr : Addr) (data : Word) :
    pokeMemory (pokeMemory process.memory addr data) addr (process.peekText addr) =
      process.memory := by
  by_cases mapped : Mapped process.memory addr 8
  · have held := peekText_holds mapped
    rw [pokeMemory_mapped _ (mapped_poke data mapped), pokeMemory_mapped _ mapped, store_store]
    exact store_held held
  · rw [pokeMemory_unmapped data mapped, pokeMemory_unmapped _ mapped]

/-- No status of a stop is `-1`. -/
theorem stopStatus_ne (signal : BitVec 8) : stopStatus signal ≠ -1 := by
  intro same
  have bit := congrArg (fun status : WaitStatus => status.getLsbD 7) same
  simp [stopStatus] at bit

/-- The first argument of `mmap` is zero. -/
theorem mmapRegs_first (regs : UserPtRegs) : (mmapRegs regs).regs x0 = 0 := by
  simp (disch := decide) [mmapRegs, setReg_of_ne]

/-- `allocateMemoryInChild` leaves the process it could not step. -/
theorem allocate_refused {state : State} {step : Tracee → Resume}
    (refused : step (mmapProcess state.2) = .refused) :
    afterCall state (.allocate step) = (state.1, mmapProcess state.2) := by
  unfold afterCall
  rw [allocate_steps, doSingleStep_refused refused]
  exact congrArg Prod.snd (if_pos rfl)

/-- `mprotectMemory` leaves the process it could not step. -/
theorem mprotect_refused {state : State} {step : Tracee → Resume} {memAddr memSize memProt : Word}
    (accepted : ¬Refused state (.mprotect step memAddr memSize memProt))
    (refused : step (mprotectProcess state memAddr memSize memProt) = .refused) :
    afterCall state (.mprotect step memAddr memSize memProt) =
      (state.1, mprotectProcess state memAddr memSize memProt) := by
  unfold afterCall
  rw [mprotect_steps accepted, doSingleStep_refused refused]
  exact congrArg Prod.snd (if_pos rfl)

/-- After a stop before its instruction `allocateMemoryInChild` restores the tracee, takes zero
for the address of the private page and writes `svc #0` there. -/
theorem allocate_stopped {state : State} {step : Tracee → Resume} {signal : BitVec 8}
    (answer : step (mmapProcess state.2) = .waited (stopStatus signal) (mmapProcess state.2)) :
    (afterCall state (.allocate step)).2.registers = state.2.registers ∧
    (afterCall state (.allocate step)).2.memory =
      pokeMemory state.2.memory 0 (instrWord svc) ∧
    (afterCall state (.allocate step)).1.privateMemory = 0 := by
  have first : (mmapProcess state.2).registers.regs x0 = 0 := mmapRegs_first _
  have back : putBack state.2 (mmapProcess state.2) = state.2.memory := poke_back _ _ _
  rw [allocate_after answer (stopStatus_ne signal)]
  dsimp only
  rw [afterMmap_memory, back, first]
  exact ⟨rfl, rfl, rfl⟩

/-- `allocateMemoryInChild` leaves nothing behind exactly when its failed call is harmless. -/
theorem allocate_intact_iff {state : State} {step : Tracee → Resume}
    (failed : NotExecuted step (mmapProcess state.2)) :
    Intact state (.allocate step) ↔ Harmless state (.allocate step) := by
  unfold Intact Harmless
  dsimp only
  rcases failed with refused | ⟨signal, -, answer⟩
  · rw [allocate_refused refused, refused]
    constructor
    · rintro ⟨registers, memory, -⟩
      exact ⟨registers, (poke_keeps_iff _ _).mp memory⟩
    · rintro ⟨registers, there⟩
      exact ⟨registers, (poke_keeps_iff _ _).mpr there, rfl⟩
  · obtain ⟨registers, memory, page⟩ := allocate_stopped answer
    rw [registers, memory, page, answer, poke_keeps_iff]
    constructor
    · rintro ⟨-, there, zero⟩
      exact ⟨there, zero.symm⟩
    · rintro ⟨there, zero⟩
      exact ⟨rfl, there, zero.symm⟩

/-- `mprotectMemory` leaves nothing behind exactly when its failed call is harmless. -/
theorem mprotect_intact_iff {state : State} {step : Tracee → Resume}
    {memAddr memSize memProt : Word}
    (failed : NotExecuted step (mprotectProcess state memAddr memSize memProt)) :
    Intact state (.mprotect step memAddr memSize memProt) ↔
      Harmless state (.mprotect step memAddr memSize memProt) := by
  unfold Intact Harmless
  dsimp only
  by_cases refusal : Refused state (.mprotect step memAddr memSize memProt)
  · rw [refused_after refusal]
    exact iff_of_true ⟨rfl, rfl, rfl⟩ (.inl refusal)
  · rw [or_iff_right refusal]
    rcases failed with refused | ⟨signal, -, answer⟩
    · rw [mprotect_refused refusal refused, refused]
      exact and_iff_left ⟨rfl, rfl⟩
    · rw [mprotect_after refusal answer (stopStatus_ne signal), answer]
      exact iff_of_true ⟨rfl, rfl, rfl⟩ trivial

/-- **When a failed injection leaves no trace.** A call whose system call is not executed
leaves the registers, the memory and the private page as they were exactly when what it leaves
behind was there before. -/
theorem intact_iff_harmless {state : State} {call : Call} (failed : Failed state call) :
    Intact state call ↔ Harmless state call := by
  cases call with
  | allocate step => exact allocate_intact_iff failed
  | mprotect step memAddr memSize memProt => exact mprotect_intact_iff failed

/-- A stop by signal 19 before the instruction. -/
def signalStep (process : Tracee) : Resume := .waited (stopStatus 19) process

/-- A connector with a private page, and its tracee. -/
def paged : State := (⟨1, 0x2000, 6⟩, Tracee.stoppedAt (few 0x1000 16 0) 0x1000)

/-- After a stop by another signal `mprotectMemory` has put the registers back. -/
theorem intact_after_signal : Intact paged (.mprotect signalStep 0x1000 4096 5) := by
  have failed : Failed paged (.mprotect signalStep 0x1000 4096 5) :=
    .inr ⟨19, by decide, rfl⟩
  apply (intact_iff_harmless failed).mpr
  exact .inr trivial

/-- A refused step leaves `svc #0` at `pc` and the registers of the system call; after a stop by
another signal the private page is lost. -/
theorem traces_left :
    Failed paged (.allocate fun _ => .refused) ∧ ¬Intact paged (.allocate fun _ => .refused) ∧
    Failed paged (.allocate signalStep) ∧ ¬Intact paged (.allocate signalStep) ∧
    Failed paged (.mprotect (fun _ => .refused) 0x1000 4096 5) ∧
    ¬Intact paged (.mprotect (fun _ => .refused) 0x1000 4096 5) := by
  refine ⟨.inl rfl, ?_, .inr ⟨19, by decide, rfl⟩, ?_, .inl rfl, ?_⟩
  · rintro ⟨-, memory, -⟩
    have code := congrFun memory 0x1000
    exact absurd code (by decide +kernel)
  · rintro ⟨-, -, page⟩
    exact absurd page (by decide +kernel)
  · rintro ⟨registers, -, -⟩
    have number := congrArg (fun regs : UserPtRegs => regs.regs x8) registers
    exact absurd number (by decide +kernel)

end A64dbg.FailedInjection
