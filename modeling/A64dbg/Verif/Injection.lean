import A64dbg.Connector
import A64dbg.Library.Extension
import A64dbg.Library.Runs
import A64dbg.Slots
import A64dbg.Watch

/-!
# System calls injected into the tracee

`allocateMemoryInChild` and `mprotectMemory` make the tracee execute one system call by a
single step over `svc #0`. The kernel's part is `SvcStep`: what one step over that instruction
does. `guarded_calls` says what a sequence of the two calls leaves behind, at any registers,
any memory and any single steps that succeed.
-/

namespace A64dbg.Injection

open ByteMemory Runs Tracee Connector

/-- The six argument registers. -/
def argsOf (regs : UserPtRegs) : Fin 6 → Word :=
  ![regs.regs x0, regs.regs x1, regs.regs x2, regs.regs x3, regs.regs x4, regs.regs x5]

/-- Start of the range of a request: its first argument. -/
abbrev startOf (call : Syscall) : Word := call.args 0

/-- Size of the range of a request: its second argument. -/
abbrev lengthOf (call : Syscall) : Word := call.args 1

/-- Protection asked for by a request: its third argument. -/
abbrev protOf (call : Syscall) : Word := call.args 2

/-- One step over `svc #0` performs the system call selected by x8. -/
structure SvcStep (before after : Tracee) : Prop where
  /-- Only x0 and `pc` change. -/
  registers : after.registers =
    { before.registers.setReg x0 (after.registers.regs x0) with pc := before.registers.pc + 4 }
  /-- One system call is performed, and its result is in x0. -/
  issued : after.issued = before.issued ++
    [⟨before.registers.regs x8, argsOf before.registers, after.registers.regs x0⟩]
  /-- `mmap` and `mprotect` keep the bytes that are mapped. -/
  keeps : before.registers.regs x8 = 222 ∨ before.registers.regs x8 = 226 →
    Extends before.memory after.memory
  /-- The region of `mmap` was not mapped. -/
  fresh : before.registers.regs x8 = 222 → ∀ index < (before.registers.regs x1).toNat,
    before.memory (above (after.registers.regs x0) index) = none
  /-- The region of `mmap` is mapped. -/
  mapped : before.registers.regs x8 = 222 →
    Mapped after.memory (after.registers.regs x0) (before.registers.regs x1).toNat

/-- A single step succeeds: the tracee stops again, and a step over `svc #0` was one. -/
def StepSucceeds (step : Tracee → Resume) (process : Tracee) : Prop :=
  ∃ status after, step process = .waited status after ∧ status ≠ -1 ∧
    (Holds process.memory process.registers.pc 4 svc → SvcStep process after)

/-- A call with the kernel's answer to its single step. -/
inductive Call where
  /-- `allocateMemoryInChild`. -/
  | allocate (step : Tracee → Resume)
  /-- `mprotectMemory`. -/
  | mprotect (step : Tracee → Resume) (memAddr memSize memProt : Word)

/-- The connector and its tracee. -/
abbrev State := Connector × Tracee

/-- The result of a call and the state it leaves. -/
def Call.run (state : State) : Call → Word × State
  | .allocate step => allocateMemoryInChild step state.1 state.2
  | .mprotect step memAddr memSize memProt =>
    let (res, process) := mprotectMemory step state.1 state.2 memAddr memSize memProt
    (res, state.1, process)

/-- The state that a call leaves. -/
def afterCall (state : State) (call : Call) : State := (call.run state).2

/-- The process that `allocateMemoryInChild` steps. -/
def mmapProcess (process : Tracee) : Tracee :=
  (process.pokeText process.registers.pc (instrWord svc)).setRegisters
    (mmapRegs process.registers)

/-- The process that `mprotectMemory` steps. -/
def mprotectProcess (state : State) (memAddr memSize memProt : Word) : Tracee :=
  state.2.setRegisters
    (mprotectRegs state.2.registers state.1.privateMemory memAddr memSize memProt)

/-- `mprotectMemory` refuses without a private page, and on the private page. -/
def Refused (state : State) : Call → Prop
  | .allocate _ => False
  | .mprotect _ memAddr _ _ =>
    state.1.privateMemory = -1 ∨ memAddr = state.1.privateMemory

/-- The single step of a call succeeds, if it makes one. -/
def Stepped (state : State) (call : Call) : Prop :=
  ¬Refused state call →
    match call with
    | .allocate step => StepSucceeds step (mmapProcess state.2)
    | .mprotect step memAddr memSize memProt =>
      StepSucceeds step (mprotectProcess state memAddr memSize memProt)

/-- The word at `pc` is mapped where a call replaces it. -/
def Replaceable (state : State) : Call → Prop
  | .allocate _ => Mapped state.2.memory state.2.registers.pc 8
  | .mprotect _ _ _ _ => True

/-- A call leaves the registers and every mapped byte as they were. `allocateMemoryInChild`
returns its private page, which was not mapped and starts with `svc #0`; `mprotectMemory`
issues its one system call and returns the result. -/
def Transparent (state : State) (call : Call) : Prop :=
  (afterCall state call).2.registers = state.2.registers ∧
  Extends state.2.memory (afterCall state call).2.memory ∧
  match call with
  | .allocate _ =>
    (call.run state).1 = (afterCall state call).1.privateMemory ∧
    (∀ index < 1024, state.2.memory (above (call.run state).1 index) = none) ∧
    Holds (afterCall state call).2.memory (call.run state).1 4 svc ∧
    (afterCall state call).2.issued = state.2.issued ++
      [⟨222, ![0, 1024, 7, 0x22, -1, 0], (call.run state).1⟩]
  | .mprotect _ memAddr memSize memProt =>
    (afterCall state call).1 = state.1 ∧
    ∃ args : Fin 6 → Word, args 0 = memAddr ∧ args 1 = memSize ∧ args 2 = memProt ∧
      (afterCall state call).2.issued = state.2.issued ++ [⟨226, args, (call.run state).1⟩]

/-- A refused call returns -1 and changes nothing; any other call is transparent. -/
def Guarded (state : State) (call : Call) : Prop :=
  (Refused state call → call.run state = (-1, state)) ∧
  (¬Refused state call → Transparent state call)

/-- The private page, if there is one, starts with `svc #0`. -/
def Ready (state : State) : Prop :=
  state.1.privateMemory ≠ -1 → Holds state.2.memory state.1.privateMemory 4 svc

/-- The registers of `mmapRegs` select system call 222, `mmap`. -/
theorem mmapRegs_number (regs : UserPtRegs) : (mmapRegs regs).regs x8 = 222 := by
  simp (disch := decide) [mmapRegs, setReg_of_ne]

/-- The registers of `mmapRegs` ask for 1024 anonymous bytes, read, write and execute. -/
theorem mmapRegs_args (regs : UserPtRegs) :
    argsOf (mmapRegs regs) = ![0, 1024, 7, 0x22, -1, 0] := by
  simp (disch := decide) [argsOf, mmapRegs, setReg_of_ne]

/-- The region asked for by `mmapRegs` has 1024 bytes. -/
theorem mmapRegs_size (regs : UserPtRegs) : ((mmapRegs regs).regs x1).toNat = 1024 := by
  simp (disch := decide) [mmapRegs, setReg_of_ne]

/-- The registers of `mprotectRegs` select system call 226, `mprotect`. -/
theorem mprotectRegs_number (regs : UserPtRegs) (privateMemory memAddr memSize memProt : Word) :
    (mprotectRegs regs privateMemory memAddr memSize memProt).regs x8 = 226 := by
  simp (disch := decide) [mprotectRegs, setReg_of_ne]

/-- The registers of `mprotectRegs` hold the arguments of `mprotectMemory`. -/
theorem mprotectRegs_args (regs : UserPtRegs) (privateMemory memAddr memSize memProt : Word) :
    argsOf (mprotectRegs regs privateMemory memAddr memSize memProt) 0 = memAddr ∧
    argsOf (mprotectRegs regs privateMemory memAddr memSize memProt) 1 = memSize ∧
    argsOf (mprotectRegs regs privateMemory memAddr memSize memProt) 2 = memProt := by
  simp (disch := decide) [argsOf, mprotectRegs, setReg_of_ne]

/-- The memory once `allocateMemoryInChild` has put the word at `pc` back. -/
def putBack (process stepped : Tracee) : Memory :=
  pokeMemory stepped.memory process.registers.pc (process.peekText process.registers.pc)

/-- The process `allocateMemoryInChild` leaves after a step that succeeded: it has its
registers and the word at `pc` again, and `svc #0` was written at the address in x0. -/
def afterMmap (process stepped : Tracee) : Tracee :=
  ((stepped.setRegisters process.registers).pokeText process.registers.pc
    (process.peekText process.registers.pc)).pokeText (stepped.registers.regs x0) (instrWord svc)

/-- A finished `mmap` leaves the word put back and `svc` in the new region. -/
theorem afterMmap_memory (process stepped : Tracee) :
    (afterMmap process stepped).memory =
      pokeMemory (putBack process stepped) (stepped.registers.regs x0) (instrWord svc) := rfl

/-- Putting the word back keeps the region of `mmap` mapped. -/
theorem putBack_mapped (process : Tracee) {stepped : Tracee}
    (region : Mapped stepped.memory (stepped.registers.regs x0) 1024) :
    Mapped (putBack process stepped) (stepped.registers.regs x0) 8 := by
  have bound := region.1
  apply mapped_poke
  exact ⟨by omega, fun index inside => region.2 index (by omega)⟩

/-- The region of `mmap` starts with `svc #0`. -/
theorem afterMmap_stub (process : Tracee) {stepped : Tracee}
    (region : Mapped stepped.memory (stepped.registers.regs x0) 1024) :
    Holds (afterMmap process stepped).memory (stepped.registers.regs x0) 4 svc := by
  rw [afterMmap_memory]
  exact poke_instr svc (putBack_mapped process region)

/-- `allocateMemoryInChild` is one step, and puts text and registers back unless it fails. -/
theorem allocate_steps (state : State) (step : Tracee → Resume) :
    (Call.allocate step).run state =
      let (status, stepped) := doSingleStep step (mmapProcess state.2)
      if status = -1 then (-1, state.1, stepped)
      else (stepped.registers.regs x0,
        { state.1 with privateMemory := stepped.registers.regs x0 },
        afterMmap state.2 stepped) := rfl

/-- An accepted `mprotectMemory` is one step, and puts the registers back unless it fails. -/
theorem mprotect_steps {state : State} {step : Tracee → Resume} {memAddr memSize memProt : Word}
    (accepted : ¬Refused state (.mprotect step memAddr memSize memProt)) :
    (Call.mprotect step memAddr memSize memProt).run state =
      let (status, stepped) := doSingleStep step (mprotectProcess state memAddr memSize memProt)
      if status = -1 then (-1, state.1, stepped)
      else (stepped.registers.regs x0, state.1, stepped.setRegisters state.2.registers) := by
  obtain ⟨page, other⟩ := not_or.mp accepted
  unfold Call.run mprotectMemory
  dsimp only
  rw [if_neg page, if_neg other]
  split
  · next failed => exact (if_pos failed).symm
  · next ended => exact (if_neg ended).symm

/-- A step that is answered returns that status and leaves that process. -/
theorem doSingleStep_waited {step : Tracee → Resume} {process stepped : Tracee}
    {status : WaitStatus} (answer : step process = .waited status stepped) :
    doSingleStep step process = (status, stepped) := by
  unfold doSingleStep
  rw [answer]

/-- The step of a process that cannot be resumed. -/
theorem doSingleStep_refused {step : Tracee → Resume} {process : Tracee}
    (refused : step process = .refused) : doSingleStep step process = (-1, process) := by
  unfold doSingleStep
  rw [refused]

/-- `allocateMemoryInChild` returns x0 as the private page of a step that does not fail. -/
theorem allocate_run {state : State} {step : Tracee → Resume} {stepped : Tracee}
    {status : WaitStatus} (answer : step (mmapProcess state.2) = .waited status stepped)
    (ended : status ≠ -1) :
    (Call.allocate step).run state = (stepped.registers.regs x0,
      { state.1 with privateMemory := stepped.registers.regs x0 },
      afterMmap state.2 stepped) := by
  rw [allocate_steps, doSingleStep_waited answer]
  exact if_neg ended

/-- `mprotectMemory` puts the registers back behind a step that does not fail. -/
theorem mprotect_run {step : Tracee → Resume} {state : State}
    {memAddr memSize memProt : Word} {stepped : Tracee} {status : WaitStatus}
    (accepted : ¬Refused state (.mprotect step memAddr memSize memProt))
    (answer : step (mprotectProcess state memAddr memSize memProt) = .waited status stepped)
    (ended : status ≠ -1) :
    (Call.mprotect step memAddr memSize memProt).run state =
      (stepped.registers.regs x0, state.1, stepped.setRegisters state.2.registers) := by
  rw [mprotect_steps accepted, doSingleStep_waited answer]
  exact if_neg ended

/-- `allocateMemoryInChild` puts text and registers back behind a step that does not fail. -/
theorem allocate_after {state : State} {step : Tracee → Resume} {stepped : Tracee}
    {status : WaitStatus} (answer : step (mmapProcess state.2) = .waited status stepped)
    (ended : status ≠ -1) :
    afterCall state (.allocate step) =
      ({ state.1 with privateMemory := stepped.registers.regs x0 }, afterMmap state.2 stepped) :=
  congrArg Prod.snd (allocate_run answer ended)

/-- `mprotectMemory` leaves the connector, and puts the registers back if its step does not fail. -/
theorem mprotect_after {step : Tracee → Resume} {state : State}
    {memAddr memSize memProt : Word} {stepped : Tracee} {status : WaitStatus}
    (accepted : ¬Refused state (.mprotect step memAddr memSize memProt))
    (answer : step (mprotectProcess state memAddr memSize memProt) = .waited status stepped)
    (ended : status ≠ -1) :
    afterCall state (.mprotect step memAddr memSize memProt) =
      (state.1, stepped.setRegisters state.2.registers) :=
  congrArg Prod.snd (mprotect_run accepted answer ended)

/-- The system call of `allocateMemoryInChild`. -/
theorem mmap_issued {process stepped : Tracee} (svcStep : SvcStep (mmapProcess process) stepped) :
    stepped.issued = process.issued ++
      [⟨222, ![0, 1024, 7, 0x22, -1, 0], stepped.registers.regs x0⟩] := by
  have number : (mmapProcess process).registers.regs x8 = 222 := mmapRegs_number _
  have args : argsOf (mmapProcess process).registers = ![0, 1024, 7, 0x22, -1, 0] :=
    mmapRegs_args _
  have issued := svcStep.issued
  rw [number, args] at issued
  exact issued

/-- `allocateMemoryInChild` is transparent where its single step succeeds. -/
theorem allocate_transparent {state : State} {step : Tracee → Resume}
    (mapped : Mapped state.2.memory state.2.registers.pc 8)
    (succeeds : StepSucceeds step (mmapProcess state.2)) :
    Transparent state (.allocate step) := by
  obtain ⟨connector, process⟩ := state
  obtain ⟨status, stepped, answer, ended, svcStep⟩ := succeeds
  dsimp only at mapped
  -- The step is over `svc #0`, which was just written.
  have svcStep := svcStep (poke_instr svc mapped)
  have number : (mmapProcess process).registers.regs x8 = 222 := mmapRegs_number _
  have size : ((mmapProcess process).registers.regs x1).toNat = 1024 := mmapRegs_size _
  have grown := svcStep.keeps (.inl number)
  have fresh := svcStep.fresh number
  have region := svcStep.mapped number
  rw [size] at fresh region
  have issued := mmap_issued svcStep
  -- The page of `mmap` was not mapped before the write of `svc #0` either.
  have unmapped : ∀ index < 1024,
      process.memory (above (stepped.registers.regs x0) index) = none := by
    intro index inside
    have absent := fresh index inside
    change pokeMemory process.memory process.registers.pc _ _ = none at absent
    rw [pokeMemory_mapped _ mapped] at absent
    by_cases hit : offset process.registers.pc (above (stepped.registers.regs x0) index) < 8
    · rw [store, if_pos hit] at absent
      cases absent
    · rwa [store_apart _ _ _ (by omega)] at absent
  -- The word at `pc` is put back, and then `svc #0` written to the new page.
  have back : Extends process.memory (putBack process stepped) := by
    change Extends (pokeMemory process.memory process.registers.pc _) stepped.memory at grown
    rw [pokeMemory_mapped _ mapped] at grown
    unfold putBack
    rw [pokeMemory_mapped _ (grown.mapped (mapped.store _ 8 _))]
    exact grown.takeBack (peekText_holds mapped)
  have kept : Extends process.memory (afterMmap process stepped).memory := by
    rw [afterMmap_memory, pokeMemory_mapped _ (putBack_mapped process region)]
    exact back.fresh _ fun index inside => unmapped index (by omega)
  unfold Transparent
  dsimp only
  rw [allocate_run answer ended, allocate_after answer ended]
  exact ⟨rfl, kept, rfl, unmapped, afterMmap_stub process region, issued⟩

/-- `mprotectMemory` is transparent where it is not refused and its single step succeeds. -/
theorem mprotect_transparent {state : State} {step : Tracee → Resume}
    {memAddr memSize memProt : Word} (ready : Ready state)
    (accepted : ¬Refused state (.mprotect step memAddr memSize memProt))
    (succeeds : StepSucceeds step (mprotectProcess state memAddr memSize memProt)) :
    Transparent state (.mprotect step memAddr memSize memProt) := by
  obtain ⟨status, stepped, answer, ended, svcStep⟩ := succeeds
  have svcStep := svcStep (ready (not_or.mp accepted).1)
  have number : (mprotectProcess state memAddr memSize memProt).registers.regs x8 = 226 :=
    mprotectRegs_number _ _ _ _ _
  have issued := svcStep.issued
  rw [number] at issued
  unfold Transparent
  dsimp only
  rw [mprotect_run accepted answer ended, mprotect_after accepted answer ended]
  obtain ⟨addr, size, prot⟩ :=
    mprotectRegs_args state.2.registers state.1.privateMemory memAddr memSize memProt
  exact ⟨rfl, svcStep.keeps (.inr number), rfl, _, addr, size, prot, issued⟩

/-- A refused call changes nothing. -/
theorem refused_run {state : State} {call : Call} (refused : Refused state call) :
    call.run state = (-1, state) := by
  cases call with
  | allocate step => exact absurd refused id
  | mprotect step memAddr memSize memProt =>
    unfold Call.run mprotectMemory
    dsimp only
    rcases refused with absent | same
    · rw [if_pos absent]
    · rw [if_pos same]
      split <;> rfl

/-- A refused call leaves the state it found. -/
theorem refused_after {state : State} {call : Call} (refused : Refused state call) :
    afterCall state call = state := by
  unfold afterCall
  rw [refused_run refused]

/-- A call is guarded where its single step succeeds. -/
theorem guarded_call {state : State} {call : Call} (ready : Ready state)
    (stepped : Stepped state call) (replaceable : Replaceable state call) :
    Guarded state call := by
  cases call with
  | allocate step =>
    exact ⟨False.elim, fun accepted => allocate_transparent replaceable (stepped accepted)⟩
  | mprotect step memAddr memSize memProt =>
    exact ⟨refused_run, fun accepted => mprotect_transparent ready accepted (stepped accepted)⟩

/-- A guarded call leaves a private page that is ready. -/
theorem ready_call {state : State} {call : Call} (ready : Ready state)
    (guarded : Guarded state call) : Ready (afterCall state call) := by
  cases call with
  | allocate step =>
    obtain ⟨-, -, returned, -, stub, -⟩ := guarded.2 id
    intro _
    rwa [returned] at stub
  | mprotect step memAddr memSize memProt =>
    by_cases refused : Refused state (.mprotect step memAddr memSize memProt)
    · rwa [refused_after refused]
    · obtain ⟨-, extension, connector, -⟩ := guarded.2 refused
      intro present
      rw [connector] at present ⊢
      exact extension.holds (ready present)

/-- **Injected system calls are invisible.** In a sequence of calls whose single steps succeed,
each with a mapped word at `pc` where it writes there, every call that is not refused is
transparent, and a refused call changes nothing. -/
theorem guarded_calls {state : State} {calls : List Call} (ready : Ready state)
    (succeed : Along afterCall (fun reached call => Stepped reached call ∧
      Replaceable reached call) state calls) : Along afterCall Guarded state calls :=
  succeed.imp ready
    (fun _ _ ready both => ready_call ready (guarded_call ready both.1 both.2))
    (fun _ _ ready both => guarded_call ready both.1 both.2)

/-- A kernel that maps zeros at a region for `mmap` and takes every `mprotect`. -/
def kernelStep (region : Word) (process : Tracee) : Resume :=
  let regs := process.registers.regs
  let result := if regs x8 = 222 then region else 0
  .waited sigTrap
    { process with
      registers := { process.registers.setReg x0 result with pc := process.registers.pc + 4 }
      memory := if regs x8 = 222 then store process.memory region 1024 0 else process.memory
      issued := process.issued ++ [⟨regs x8, argsOf process.registers, result⟩] }

/-- This kernel performs system calls while the region is not mapped. -/
theorem kernelStep_svc {region : Word} {process : Tracee}
    (inside : region.toNat + 1024 ≤ 2 ^ 64)
    (mmap : process.registers.regs x8 = 222 → process.registers.regs x1 = 1024 ∧
      ∀ index < 1024, process.memory (above region index) = none) :
    ∃ stepped, kernelStep region process = .waited sigTrap stepped ∧ SvcStep process stepped ∧
      stepped.registers.regs x0 = if process.registers.regs x8 = 222 then region else 0 := by
  refine ⟨_, rfl, ?_, setReg_self process.registers x0 _⟩
  constructor
  · simp
  · simp
  · intro _
    by_cases number : process.registers.regs x8 = 222
    · simp only [if_pos number]
      exact (Extends.refl _).fresh _ (mmap number).2
    · simp only [if_neg number]
      exact Extends.refl _
  · intro number
    simp only [if_pos number, (mmap number).1, setReg_self]
    exact (mmap number).2
  · intro number
    simp only [if_pos number, (mmap number).1, setReg_self]
    exact mapped_store process.memory 0 inside

/-- This kernel's steps succeed while the region is not mapped. -/
theorem kernelStep_succeeds {region : Word} {process : Tracee}
    (inside : region.toNat + 1024 ≤ 2 ^ 64)
    (mmap : process.registers.regs x8 = 222 → process.registers.regs x1 = 1024 ∧
      ∀ index < 1024, process.memory (above region index) = none) :
    StepSucceeds (kernelStep region) process := by
  obtain ⟨stepped, answer, svcStep, -⟩ := kernelStep_svc inside mmap
  exact ⟨sigTrap, stepped, answer, by decide, fun _ => svcStep⟩

/-- A memory of a few mapped bytes. -/
def few (base : Addr) (count : Nat) (word : BitVec (8 * count)) : Memory :=
  store (fun _ => none) base count word

/-- Bytes far above the few are not mapped. -/
theorem few_above {base region : Addr} {count index : Nat} (word : BitVec (8 * count))
    (far : count ≤ offset base (above region index)) :
    few base count word (above region index) = none := store_apart _ _ _ far

/-- Before the first call, stopped at an address. -/
def before (memory : Memory) (pc : Addr) : State :=
  (Connector.init ⟨0, 0, 0⟩ 1, Tracee.stoppedAt memory pc)

/-- Before the first call there is no private page. -/
theorem before_ready (memory : Memory) (pc : Addr) : Ready (before memory pc) :=
  fun present => absurd rfl present

/-- The page at 0x2000 is not mapped when `mmap` is stepped at 0x1000. -/
theorem few_apart : ∀ index < 1024,
    (mmapProcess (before (few 0x1000 16 0) 0x1000).2).memory (above 0x2000 index) = none := by
  have mapped : Mapped (few 0x1000 16 0) 0x1000 8 := by decide
  intro index small
  have far : offset 0x1000 (above (0x2000 : Addr) index) = 0x1000 + index := by
    unfold offset above
    bv_omega
  change pokeMemory (few 0x1000 16 0) 0x1000 _ _ = none
  rw [pokeMemory_mapped _ mapped, store_apart _ _ _ (by omega)]
  exact few_above 0 (by omega)

/-- A page is allocated, and another protected through it. -/
theorem guarded_pair :
    Along afterCall Guarded (before (few 0x1000 16 0) 0x1000)
      [.allocate (kernelStep 0x2000), .mprotect (kernelStep 0) 0x1000 4096 5] := by
  have mapped : Mapped (few 0x1000 16 0) 0x1000 8 := by decide
  have allocated : Stepped (before (few 0x1000 16 0) 0x1000) (.allocate (kernelStep 0x2000)) := by
    intro _
    apply kernelStep_succeeds (by decide)
    intro _
    exact ⟨rfl, few_apart⟩
  have taken : ∀ state : State,
      Stepped state (.mprotect (kernelStep 0) 0x1000 4096 5) := by
    intro state _
    apply kernelStep_succeeds (by decide)
    intro number
    have selected := (mprotectRegs_number _ _ _ _ _).symm.trans number
    exact absurd selected (by decide)
  apply guarded_calls (before_ready _ _)
  exact ⟨⟨allocated, mapped⟩, ⟨taken _, trivial⟩, trivial⟩

/-- A call on the private page, or without one, issues nothing. At the last instruction of
the mapped memory, where the word at `pc` cannot be read, `allocateMemoryInChild` ruins it. -/
theorem visible_calls :
    (Ready (before (few 0x1000 16 0) 0x1000) ∧
      Along afterCall Stepped (before (few 0x1000 16 0) 0x1000)
        [.mprotect (kernelStep 0) 0x1000 4096 5] ∧
      ¬Along afterCall Transparent (before (few 0x1000 16 0) 0x1000)
        [.mprotect (kernelStep 0) 0x1000 4096 5]) ∧
    Ready (before (few 0xffc 4 svc) 0xffc) ∧
    Along afterCall Stepped (before (few 0xffc 4 svc) 0xffc) [.allocate (kernelStep 0x1000)] ∧
    ¬Along afterCall Transparent (before (few 0xffc 4 svc) 0xffc)
      [.allocate (kernelStep 0x1000)] := by
  have refusal : Stepped (before (few 0x1000 16 0) 0x1000)
      (.mprotect (kernelStep 0) 0x1000 4096 5) := by
    intro accepted
    exact absurd (.inl rfl) accepted
  have allocated : Stepped (before (few 0xffc 4 svc) 0xffc) (.allocate (kernelStep 0x1000)) := by
    intro _
    apply kernelStep_succeeds (by decide)
    refine fun _ => ⟨rfl, fun index small => ?_⟩
    have far : offset 0xffc (above (0x1000 : Addr) index) = 4 + index := by
      unfold offset above
      bv_omega
    have unmapped : ¬Mapped (few 0xffc 4 svc) 0xffc 8 := by decide
    have absent : few 0xffc 4 svc (above 0x1000 index) = none := few_above _ (by omega)
    change pokeMemory (few 0xffc 4 svc) 0xffc (instrWord svc) _ = none
    rw [pokeMemory_unmapped _ unmapped]
    exact absent
  refine ⟨⟨before_ready _ _, ⟨refusal, trivial⟩, ?_⟩, before_ready _ _, ⟨allocated, trivial⟩, ?_⟩
  · intro transparent
    obtain ⟨args, -, -, -, issued⟩ := transparent.1.2.2.2
    have refused : afterCall (before (few 0x1000 16 0) 0x1000)
        (.mprotect (kernelStep 0) 0x1000 4096 5) = before (few 0x1000 16 0) 0x1000 := rfl
    rw [refused] at issued
    have lengths := congrArg List.length issued
    rw [List.length_append, List.length_singleton] at lengths
    omega
  · intro transparent
    have kept := transparent.1.2.1 0xffc 0x01 (by decide +kernel)
    exact absurd kept (by decide +kernel)

end A64dbg.Injection
