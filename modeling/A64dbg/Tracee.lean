import A64dbg.Library.ByteMemory

/-!
# The tracee and the requests on it

A stopped arm64 process as the debugger sees it through `ptrace`: byte memory, general
registers, hardware breakpoint registers, the message of its latest event and the system
calls it has executed. The kernel is not part of the repository. `peekText` and `pokeText`
read and write one 8-byte little-endian word, and fail as a whole when the word is not
mapped; a register set is read and written as a whole, and a write of hardware breakpoint
registers covers exactly the slots inside its length. What a resumed tracee does is an input:
`Resume` is the kernel's answer to one resume request and the `waitpid` after it.
-/

namespace A64dbg

/-- A 64-bit word, `uint64_t`. -/
abbrev Word := BitVec 64
/-- An address of the tracee. -/
abbrev Addr := BitVec 64
/-- One arm64 instruction. -/
abbrev Instr := BitVec 32
/-- The memory of the tracee. -/
abbrev Memory := ByteMemory.Memory 64

/-- `struct user_pt_regs`. -/
structure UserPtRegs where
  /-- General registers x0 to x30. -/
  regs : Fin 31 → Word
  /-- Stack pointer. -/
  sp : Word
  /-- Program counter. -/
  pc : Word
  /-- Processor state. -/
  pstate : Word
deriving DecidableEq

/-- First argument of a system call, and its result. -/
abbrev x0 : Fin 31 := 0
/-- Second argument of a system call. -/
abbrev x1 : Fin 31 := 1
/-- Third argument of a system call. -/
abbrev x2 : Fin 31 := 2
/-- Fourth argument of a system call. -/
abbrev x3 : Fin 31 := 3
/-- Fifth argument of a system call. -/
abbrev x4 : Fin 31 := 4
/-- Sixth argument of a system call. -/
abbrev x5 : Fin 31 := 5
/-- Number of a system call. -/
abbrev x8 : Fin 31 := 8

/-- Assign one general register. -/
def UserPtRegs.setReg (regs : UserPtRegs) (index : Fin 31) (value : Word) : UserPtRegs :=
  { regs with regs := Function.update regs.regs index value }

/-- The register assigned has its new value. -/
@[simp]
theorem setReg_self (regs : UserPtRegs) (index : Fin 31) (value : Word) :
    (regs.setReg index value).regs index = value := Function.update_self ..

/-- The other registers keep theirs. -/
theorem setReg_of_ne {index other : Fin 31} (apart : other ≠ index) (regs : UserPtRegs)
    (value : Word) : (regs.setReg index value).regs other = regs.regs other :=
  Function.update_of_ne apart ..

/-- One entry of `user_hwdebug_state.dbg_regs`. -/
structure HwReg where
  /-- Breakpoint address. -/
  addr : Word
  /-- Control word; bit 0 enables the slot. -/
  ctrl : BitVec 32
deriving DecidableEq

/-- A system call the kernel executed for the tracee. -/
structure Syscall where
  /-- Number, from x8. -/
  number : Word
  /-- Arguments, from x0 to x5. -/
  args : Fin 6 → Word
  /-- Result, left in x0. -/
  result : Word
deriving DecidableEq

/-- A process under `ptrace`. -/
structure Tracee where
  /-- Mapped bytes. -/
  memory : Memory
  /-- Register set `NT_PRSTATUS`. -/
  registers : UserPtRegs
  /-- Slots of register set `NT_ARM_HW_BREAK`. -/
  dbgRegs : Nat → HwReg
  /-- Whether the kernel takes writes of `NT_ARM_HW_BREAK`. -/
  acceptsHwBreak : Bool
  /-- Message of the latest `ptrace` event, or zero. -/
  eventMsg : Word
  /-- System calls executed so far, oldest first. -/
  issued : List Syscall

/-- The instruction in the four bytes at an address. -/
def instrAt (memory : Memory) (addr : Addr) : Instr := ByteMemory.load memory addr 4

/-- `brk #0`, bytes 00 00 20 D4. -/
def brk : Instr := 0xD4200000

/-- `svc #0`, bytes 01 00 00 D4. -/
def svc : Instr := 0xD4000001

/-- The word the debugger writes for one instruction: the instruction below four zero bytes. -/
def instrWord (instr : Instr) : Word := instr.setWidth 64

/-- The instruction in the lower four bytes of a word. -/
def lowInstr (word : Word) : Instr := word.extractLsb' 0 32

/-- The instruction in the upper four bytes of a word. -/
def highInstr (word : Word) : Instr := word.extractLsb' 32 32

namespace Tracee

/-- `PTRACE_PEEKTEXT`; a failed request returns -1. -/
def peekText (process : Tracee) (addr : Addr) : Word :=
  if ByteMemory.Mapped process.memory addr 8 then ByteMemory.load process.memory addr 8 else -1

/-- `PTRACE_POKETEXT` on a memory; a failed request writes nothing. -/
def pokeMemory (memory : Memory) (addr : Addr) (data : Word) : Memory :=
  if ByteMemory.Mapped memory addr 8 then
    ByteMemory.store memory addr 8 data
  else memory

/-- `PTRACE_POKETEXT`. -/
def pokeText (process : Tracee) (addr : Addr) (data : Word) : Tracee :=
  { process with memory := pokeMemory process.memory addr data }

/-- `PTRACE_GETREGSET` with `NT_PRSTATUS`, `Connector::getRegisters`. -/
def getRegisters (process : Tracee) : UserPtRegs := process.registers

/-- `PTRACE_SETREGSET` with `NT_PRSTATUS`, `Connector::setRegisters`. -/
def setRegisters (process : Tracee) (regs : UserPtRegs) : Tracee :=
  { process with registers := regs }

/-- `offsetof(user_hwdebug_state, dbg_regs)`. -/
def dbgRegsOffset : Nat := 8
/-- `sizeof(dbg_regs[0])`. -/
def dbgRegSize : Nat := 16

/-- `PTRACE_SETREGSET` with `NT_ARM_HW_BREAK`: the slots inside the first `iovLen` bytes take
the given entries. A failed request writes nothing. -/
def setHwRegset (process : Tracee) (iovLen : Nat) (data : Nat → HwReg) : Tracee :=
  if process.acceptsHwBreak then
    { process with
      dbgRegs := fun slot =>
        if dbgRegsOffset + dbgRegSize * (slot + 1) ≤ iovLen then data slot
        else process.dbgRegs slot }
  else process

end Tracee

/-- The status word of `waitpid`. -/
abbrev WaitStatus := BitVec 32

/-- `WIFSTOPPED` of the Android C library. -/
def wIfStopped (status : WaitStatus) : Bool := status &&& 0x7f == 0x7f

/-- `WSTOPSIG`. -/
def wStopSig (status : WaitStatus) : BitVec 32 := (status &&& 0xff00) >>> 8

/-- The status of a stop by signal 5, `SIGTRAP`. -/
def sigTrap : WaitStatus := 0x057f

/-- The kernel's answer to a resume request and the `waitpid` after it. -/
inductive Resume where
  /-- The request returned a negative value; nothing was resumed. -/
  | refused
  /-- `waitpid` stored this status, and the tracee is now this process. -/
  | waited (status : WaitStatus) (process : Tracee)

/-- Whether a status is a stop by signal 5. -/
def isTrap (status : WaitStatus) : Bool := wIfStopped status && wStopSig status == 5

/-- The tracee of an answer that is a stop by signal 5. -/
def Resume.trap : Resume → Option Tracee
  | .refused => none
  | .waited status process => if isTrap status then some process else none

/-- The memory an answer leaves, before the debugger acts on it. -/
def Resume.memory (answer : Resume) (before : Memory) : Memory :=
  match answer with
  | .refused => before
  | .waited _ process => process.memory

/-- A stop by signal 5 is a wait that returned such a status. -/
theorem Resume.trapped {answer : Resume} {process : Tracee} (trap : answer.trap = some process) :
    ∃ status, answer = .waited status process ∧ isTrap status = true := by
  cases answer with
  | refused => cases trap
  | waited status stopped =>
    unfold Resume.trap at trap
    dsimp only at trap
    split at trap
    · next trapped =>
      cases trap
      exact ⟨status, rfl, trapped⟩
    · cases trap

/-- A stop by signal 5 leaves the memory of the stopped tracee. -/
theorem Resume.memory_of_trap {answer : Resume} {process : Tracee} (before : Memory)
    (trap : answer.trap = some process) : answer.memory before = process.memory := by
  obtain ⟨status, rfl, -⟩ := Resume.trapped trap
  rfl

/-- The status of a `SIGTRAP` stop is recognised. -/
theorem isTrap_sigTrap : isTrap sigTrap = true := by decide

/-- A `SIGTRAP` stop shows the stopped tracee. -/
@[simp]
theorem trap_sigTrap (process : Tracee) : (Resume.waited sigTrap process).trap = some process := by
  unfold Resume.trap
  exact if_pos isTrap_sigTrap

/-- A `SIGTRAP` stop shows no other process. -/
theorem stopped_sigTrap {process stopped : Tracee}
    (trap : (Resume.waited sigTrap process).trap = some stopped) : stopped = process := by
  rw [trap_sigTrap, Option.some.injEq] at trap
  exact trap.symm

end A64dbg
