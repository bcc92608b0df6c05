import A64dbg.RegsMap

/-!
# The plugins of the repository

Four plugins are built in. Those of `openat`, `faccessat` and `fstatat` print the path that a system
call is given, from a buffer of 256 bytes that is zero at first; `%s` reads the buffer up to a zero,
and has no meaning where there is none. That of `read` keeps the buffer and the size of the call at
its entry, and dumps the buffer at its exit. What `pread` delivers to a hook is an input. These are
the texts that the hooks print; `PluginHooks` has the hooks as programs.
-/

namespace A64dbg

/-- An address without its tag, `& 0x00ffffffffffffff`. -/
def untagged (address : Word) : Word := address &&& 0x00ffffffffffffff

/-- A byte as a letter. -/
def letterOf (byte : BitVec 8) : Char := Char.ofNat byte.toNat

/-- The first bytes of a buffer. -/
def bufferBytes (buffer : Int → BitVec 8) (size : Nat) : List (BitVec 8) :=
  (List.range size).map fun i : Nat => buffer i

/-- A buffer printed by `%s`, unless it holds no zero. -/
def bufferString (buffer : Int → BitVec 8) (size : Nat) : Option Text :=
  let bytes := bufferBytes buffer size
  if 0 ∈ bytes then some ((bytes.takeWhile fun byte => byte != 0).map letterOf) else none

namespace Output

/-- The path of a call, printed by a plugin; `read_addr` is its second argument. -/
def pathArgument (name : String) (process : Tracee) (read : MemRead) : Option Text := do
  let readAddr := untagged (process.getRegisters.regs x1)
  let arg ← bufferString (storageAfter (fun _ => 0) process.memory readAddr read) 256
  return readProcMemory 256 read ++ "[P]   ".toList ++ name.toList ++ ", arg: ".toList ++ arg ++
    "\n".toList

/-- It is printed when the string has a meaning. -/
theorem pathArgument_eq (name : String) (process : Tracee) (read : MemRead) :
    pathArgument name process read =
      (bufferString (storageAfter (fun _ => 0) process.memory
        (untagged (process.getRegisters.regs x1)) read) 256).map fun arg =>
          readProcMemory 256 read ++ "[P]   ".toList ++ name.toList ++ ", arg: ".toList ++ arg ++
            "\n".toList := by
  rw [pathArgument]
  cases bufferString _ 256 with
  | none => rfl
  | some arg => rfl

end Output

namespace FaccessatPlugin

/-- `FaccessatPlugin::beforeSyscall`. -/
def beforeSyscall (process : Tracee) (read : MemRead) : Option Text :=
  Output.pathArgument "faccessat" process read

/-- `FaccessatPlugin::afterSyscall`. -/
def afterSyscall : Text := []

end FaccessatPlugin

namespace FstatatPlugin

/-- `FstatatPlugin::beforeSyscall`. -/
def beforeSyscall (process : Tracee) (read : MemRead) : Option Text :=
  Output.pathArgument "fstatat" process read

/-- `FstatatPlugin::afterSyscall`. -/
def afterSyscall : Text := []

end FstatatPlugin

namespace OpenatPlugin

/-- `OpenatPlugin::beforeSyscall`. -/
def beforeSyscall (process : Tracee) (read : MemRead) : Option Text :=
  (Output.pathArgument "openat" process read).map fun arg =>
    arg ++ Output.dumpRegisters process.getRegisters

/-- `OpenatPlugin::afterSyscall`. -/
def afterSyscall (process : Tracee) : Text :=
  "[P]   openat, returned fd: ".toList ++
    Output.signedDecimal ((process.getRegisters.regs x0).setWidth 32) ++ "\n".toList

end OpenatPlugin

/-- The fields of class `ReadPlugin`. -/
structure ReadPlugin where
  /-- `buffer_ptr`. -/
  bufferPtr : Word
  /-- `size`. -/
  size : Word

namespace ReadPlugin

/-- `ReadPlugin::create`, which zeroes the fields. -/
def create : ReadPlugin := ⟨0, 0⟩

/-- `ReadPlugin::beforeSyscall`: what it prints, and the fields it leaves. -/
def beforeSyscall (process : Tracee) : Text × ReadPlugin :=
  let regs := process.getRegisters
  let bufferPtr := untagged (regs.regs x1)
  let size := regs.regs x2
  (Output.dumpRegisters regs ++ "[P]   read, fd: ".toList ++ decimal (regs.regs x0).toNat ++
    ", buff: ".toList ++ hex 0 bufferPtr.toNat ++ ", size: ".toList ++
    Output.signedDecimal (size.setWidth 32) ++ "\n".toList, ⟨bufferPtr, size⟩)

/-- `ReadPlugin::afterSyscall`: what it prints, and the fields it leaves. -/
def afterSyscall (plugin : ReadPlugin) (process : Tracee) (read : MemRead) : Text × ReadPlugin :=
  let size : Word := if 32 < plugin.size then 32 else plugin.size
  let buffer := storageAfter (fun _ => 0) process.memory plugin.bufferPtr read
  ("after 'read' syscall\n".toList ++ Output.readProcMemory size read ++
    Output.hexdump buffer plugin.bufferPtr size 4, { plugin with size := size })

/-- A call of a hook of the plugin, at this tracee. -/
inductive Hook where
  /-- `beforeSyscall`. -/
  | before (process : Tracee)
  /-- `afterSyscall`; `read` is what `pread` delivers. -/
  | after (process : Tracee) (read : MemRead)

/-- One call of a hook. -/
def hook (plugin : ReadPlugin) : Hook → Text × ReadPlugin
  | .before process => beforeSyscall process
  | .after process read => plugin.afterSyscall process read

/-- The fields after the hooks have been called. -/
def hooks : ReadPlugin → List Hook → ReadPlugin :=
  List.foldl fun plugin call => (plugin.hook call).2

end ReadPlugin

end A64dbg
