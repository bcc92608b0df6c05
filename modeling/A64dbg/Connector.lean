import A64dbg.Tracee

/-!
# The connector

`Connector` runs the `ptrace` requests of the debugger: single steps, system calls injected
into the tracee, and the hardware breakpoint registers. Each function takes the process it
acts on and returns the process it leaves; a function that resumes the tracee also takes the
kernel's answer, as a function of the process it resumes.
-/

namespace A64dbg

/-- The fields of class `Connector` the modelled functions use. -/
structure Connector where
  /-- `pid_t tracee`. -/
  tracee : BitVec 32
  /-- Address of the page for injected system calls, or -1. -/
  privateMemory : Word
  /-- `hw_breakpoints`, from the low byte of `dbg_info`. -/
  hwBreakpoints : Nat

namespace Connector

/-- `Connector::init`. -/
def init (connector : Connector) (traceePid : BitVec 32) : Connector :=
  { connector with tracee := traceePid, privateMemory := -1 }

/-- `Connector::setTracee`. -/
def setTracee (connector : Connector) (traceePid : BitVec 32) : Connector :=
  { connector with tracee := traceePid }

/-- `Connector::doSingleStep`: the status of the stop after the step, or -1. -/
def doSingleStep (step : Tracee → Resume) (process : Tracee) : WaitStatus × Tracee :=
  match step process with
  | .refused => (-1, process)
  | .waited status process => (status, process)

/-- The registers `allocateMemoryInChild` steps with: `mmap(0, 1024, 7, MAP_ANONYMOUS |
MAP_PRIVATE, -1, 0)`. -/
def mmapRegs (regs : UserPtRegs) : UserPtRegs :=
  ((((((regs.setReg x8 222).setReg x0 0).setReg x1 1024).setReg x2 7).setReg x3
    (0x20 ||| 0x02)).setReg x4 (-1)).setReg x5 0

/-- `Connector::allocateMemoryInChild`, with its result. -/
def allocateMemoryInChild (step : Tracee → Resume) (connector : Connector) (process : Tracee) :
    Word × Connector × Tracee :=
  let regsSave := process.getRegisters
  let origInst := process.peekText regsSave.pc
  let process := process.pokeText regsSave.pc (instrWord svc)
  let process := process.setRegisters (mmapRegs regsSave)
  let (status, process) := doSingleStep step process
  if status = -1 then (-1, connector, process)
  else
    let regs := process.getRegisters
    let connector := { connector with privateMemory := regs.regs x0 }
    let process := process.setRegisters regsSave
    let process := process.pokeText regsSave.pc origInst
    let process := process.pokeText connector.privateMemory (instrWord svc)
    (connector.privateMemory, connector, process)

/-- The registers `mprotectMemory` steps with: `mprotect(mem_addr, mem_size, mem_prot)` at the
private page. -/
def mprotectRegs (regs : UserPtRegs) (privateMemory memAddr memSize memProt : Word) :
    UserPtRegs :=
  (((({ regs with pc := privateMemory }.setReg x8 226).setReg x0 memAddr).setReg x1
    memSize).setReg x2 memProt)

/-- `Connector::mprotectMemory`, with its result. -/
def mprotectMemory (step : Tracee → Resume) (connector : Connector) (process : Tracee)
    (memAddr memSize memProt : Word) : Word × Tracee :=
  if connector.privateMemory = -1 then (-1, process)
  else if memAddr = connector.privateMemory then (-1, process)
  else
    let regsSave := process.getRegisters
    let process := process.setRegisters
      (mprotectRegs regsSave connector.privateMemory memAddr memSize memProt)
    let (status, process) := doSingleStep step process
    if status = -1 then (-1, process)
    else
      let res := process.getRegisters.regs x0
      let process := process.setRegisters regsSave
      (res, process)

/-- The length of a register set that ends with the given slot. -/
def hwRegsetLen (slot : Nat) : Nat :=
  Tracee.dbgRegsOffset + (Tracee.dbgRegSize + Tracee.dbgRegSize * slot)

/-- A register set that ends with slot `idx` covers exactly the slots up to it. -/
theorem covers_iff (slot idx : Nat) :
    Tracee.dbgRegsOffset + Tracee.dbgRegSize * (slot + 1) ≤ hwRegsetLen idx ↔ slot ≤ idx := by
  unfold hwRegsetLen Tracee.dbgRegsOffset Tracee.dbgRegSize
  omega

/-- `Connector::getHwBreakpoints`. -/
def getHwBreakpoints (process : Tracee) : Nat → HwReg := process.dbgRegs

/-- The entry of an enabled four-byte hardware breakpoint: `byte_mask << 7 | enable`, at the
address with its two low bits cleared. -/
def hwEntry (addr : Word) : HwReg := ⟨addr &&& ~~~3, 0xf <<< 7 ||| 1⟩

/-- `Connector::setHwBreakpoint`, with its result. -/
def setHwBreakpoint (connector : Connector) (process : Tracee) (addr bpNum : Word) :
    Bool × Tracee :=
  if bpNum.toNat ≥ connector.hwBreakpoints then (false, process)
  else
    let dregState := Function.update (getHwBreakpoints process) bpNum.toNat (hwEntry addr)
    (process.acceptsHwBreak, process.setHwRegset (hwRegsetLen bpNum.toNat) dregState)

/-- `Connector::clearHwBreakpoint`: a zeroed register set up to the given slot. -/
def clearHwBreakpoint (connector : Connector) (process : Tracee) (idx : Nat) : Tracee :=
  if idx ≥ connector.hwBreakpoints then process
  else process.setHwRegset (hwRegsetLen idx) (fun _ => ⟨0, 0⟩)

end Connector

end A64dbg
