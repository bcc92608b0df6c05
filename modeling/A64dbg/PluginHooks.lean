import A64dbg.Plugins
import A64dbg.ShippedPlugins

/-!
# The hooks of the plugins

A hook is a program over the functions of `PUtils.h` and `printf`. It may read and write the tracee,
and keep data in the fields of its plugin from one call to the next. What `pread` delivers to it,
and what `%s` finds behind a buffer that holds no zero, are inputs; the debugger sees of a hook what
it does to the tracee.

Four plugins are built in. `Shipped` are the plugins that the debugger may have of them: one for
everything that may happen at the calls of its hooks.
-/

namespace A64dbg

/-- What a call of a hook finds besides the tracee. -/
structure Circumstances (φ : Type) where
  /-- The fields of the plugin. -/
  fields : φ
  /-- What the calls of `pread` deliver, one after the other; none is left when all fail. -/
  reads : List MemRead
  /-- What `%s` prints from behind a buffer. -/
  behind : Text

/-- What a hook works on: its circumstances, the stopped tracee and the text printed so far. -/
structure HookState (φ : Type) extends Circumstances φ where
  /-- The stopped tracee. -/
  process : Tracee
  /-- What was printed. -/
  printed : Text

/-- A program of a plugin with these fields. -/
abbrev HookM (φ : Type) := StateM (HookState φ)

namespace PUtils

variable {φ : Type}

/-- `readRegisters`. -/
def readRegisters : HookM φ UserPtRegs := do
  let state ← get
  return state.process.getRegisters

/-- `writeRegisters`. -/
def writeRegisters (regs : UserPtRegs) : HookM φ Unit :=
  modify fun state => { state with process := state.process.setRegisters regs }

/-- `printf`, for a text that is put together. -/
def printf (text : Text) : HookM φ Unit :=
  modify fun state => { state with printed := state.printed ++ text }

/-- The next call of `pread`. -/
def nextRead : HookM φ MemRead :=
  modifyGet fun state => (state.reads.headD .failed, { state with reads := state.reads.tail })

/-- `readMemory` to a buffer: what the buffer holds then. -/
def readMemory (addr : Word) (buffer : Int → BitVec 8) (size : Word) :
    HookM φ (Int → BitVec 8) := do
  let read ← nextRead
  printf (Output.readProcMemory size read)
  let state ← get
  return storageAfter buffer state.process.memory addr read

/-- `dumpRegisters`. -/
def dumpRegisters (regs : UserPtRegs) : HookM φ Unit := printf (Output.dumpRegisters regs)

/-- A buffer as `%s` prints it. -/
def string (buffer : Int → BitVec 8) (size : Nat) : HookM φ Text := do
  let state ← get
  return (bufferString buffer size).getD ((bufferBytes buffer size).map letterOf ++ state.behind)

/-- The fields of the plugin. -/
def fields : HookM φ φ := do
  let state ← get
  return state.fields

/-- Assign the fields of the plugin. -/
def setFields (fields : φ) : HookM φ Unit := modify fun state => { state with fields := fields }

end PUtils

/-- The hooks of a class of plugins. -/
structure Hooks (φ : Type) where
  /-- `beforeSyscall`. -/
  beforeSyscall : HookM φ Unit
  /-- `afterSyscall`. -/
  afterSyscall : HookM φ Unit

open PUtils

/-- Print the path that a call is given, by the name of the call. -/
def printPath {φ : Type} (name : String) (regs : UserPtRegs) : HookM φ Unit := do
  let readAddr := untagged (regs.regs x1)
  let buffer ← readMemory readAddr (fun _ => 0) 256
  let arg ← string buffer 256
  printf ("[P]   ".toList ++ name.toList ++ ", arg: ".toList ++ arg ++ "\n".toList)

/-- The hooks of class `FaccessatPlugin`. -/
def FaccessatPlugin.programs : Hooks Unit where
  beforeSyscall := do
    let regs ← readRegisters
    printPath "faccessat" regs
  afterSyscall := pure ()

/-- The hooks of class `FstatatPlugin`. -/
def FstatatPlugin.programs : Hooks Unit where
  beforeSyscall := do
    let regs ← readRegisters
    printPath "fstatat" regs
  afterSyscall := pure ()

/-- The hooks of class `OpenatPlugin`. -/
def OpenatPlugin.programs : Hooks Unit where
  beforeSyscall := do
    let regs ← readRegisters
    printPath "openat" regs
    PUtils.dumpRegisters regs
  afterSyscall := do
    let regs ← readRegisters
    printf ("[P]   openat, returned fd: ".toList ++
      Output.signedDecimal ((regs.regs x0).setWidth 32) ++ "\n".toList)

/-- The hooks of class `ReadPlugin`. -/
def ReadPlugin.programs : Hooks ReadPlugin where
  beforeSyscall := do
    let regs ← readRegisters
    PUtils.dumpRegisters regs
    let plugin : ReadPlugin := ⟨untagged (regs.regs x1), regs.regs x2⟩
    setFields plugin
    printf ("[P]   read, fd: ".toList ++ decimal (regs.regs x0).toNat ++ ", buff: ".toList ++
      hex 0 plugin.bufferPtr.toNat ++ ", size: ".toList ++
      Output.signedDecimal (plugin.size.setWidth 32) ++ "\n".toList)
  afterSyscall := do
    printf "after 'read' syscall\n".toList
    let plugin ← fields
    let size : Word := if 32 < plugin.size then 32 else plugin.size
    setFields { plugin with size := size }
    let buffer ← readMemory plugin.bufferPtr (fun _ => 0) size
    printf (Output.hexdump buffer plugin.bufferPtr size 4)

/-- What a hook leaves of a tracee. -/
def runHook {φ : Type} (hook : HookM φ Unit) (now : Circumstances φ) (process : Tracee) :
    Tracee :=
  (hook.run ⟨now, process, []⟩).2.process

/-- The plugin that the debugger has of a class, by what its hooks find when they are called. -/
def Hooks.plugin {φ : Type} (hooks : Hooks φ) (before after : Tracee → Circumstances φ) :
    Plugin where
  beforeSyscall process := runHook hooks.beforeSyscall (before process) process
  afterSyscall process := runHook hooks.afterSyscall (after process) process

end A64dbg
