import A64dbg.Library.Parity
import A64dbg.SyscallStop

/-!
# System call commands over the stops of a tracee

A tracee resumed by `PTRACE_SYSCALL` stops at the entry and at the exit of each system call,
by signal 5 at either. It also stops by signal 5 at a breakpoint, and by other signals at any
time. `commandLoop` is the input loop of `main` on the two commands that resume it so.

The flag `syscall_enter` and the plugin calls are the recorder of `Parity`: one pass of
`syscallContinue` refines one event, and a whole `commandLoop` the events of the stops it read.
-/

namespace A64dbg

open Runs

variable {overrun : Word → Option String}

/-- One answer of the kernel, with what it is a stop at. -/
inductive KernelStop where
  /-- The entry of a system call. -/
  | entry (process : Tracee)
  /-- The exit of the system call entered last. -/
  | exit (process : Tracee)
  /-- A stop by signal 5 that is not at a system call. -/
  | trap (process : Tracee)
  /-- No stop by signal 5. -/
  | other (answer : Resume) (quiet : answer.trap = none)

/-- The number in x8 of a stopped process. -/
abbrev Tracee.syscallNum (process : Tracee) : Word := process.registers.regs x8

namespace KernelStop

/-- What the debugger sees of a stop. -/
def answer : KernelStop → Resume
  | .entry process | .exit process | .trap process => .waited sigTrap process
  | .other answer _ => answer

/-- What a stop is for the flag. -/
def event : KernelStop → Parity.Event Word
  | .entry process => .opening process.syscallNum
  | .exit process => .closing process.syscallNum
  | .trap process => .stray process.syscallNum
  | .other _ _ => .quiet

end KernelStop

/-- The plugin calls as marks: the flag decides between the two hooks. -/
def pluginScheme (overrun : Word → Option String) : Parity.Scheme Word String PluginCall where
  name := tracedName overrun
  label enter name := if enter then .before name else .after name

/-- The flag and the calls of a session. -/
def Session.recorder (session : Session) : Parity.Recorder PluginCall :=
  ⟨session.debugger.syscallEnter, session.calls⟩

/-- A stop by signal 5 does to the flag and the calls what its number says. -/
theorem syscallStop_recorder (session : Session) :
    (session.syscallStop overrun).recorder =
      (pluginScheme overrun).meet session.recorder session.process.syscallNum := by
  have followed (session : Session) (syscallNum : Word) :
      (session.followClone syscallNum).recorder = session.recorder := by
    unfold Session.followClone
    split <;> rfl
  unfold Parity.Scheme.meet
  have shown : (pluginScheme overrun).name session.process.syscallNum =
      tracedName overrun session.syscallNum := rfl
  rw [shown]
  cases traced : tracedName overrun session.syscallNum with
  | none => rw [syscallStop_untraced traced]
  | some name =>
    rw [syscallStop_traced traced, followed]
    unfold Session.recorder
    rw [callPlugin_syscallEnter, callPlugin_calls]
    rfl

/-- **One pass refines one event.** -/
theorem syscallPass_recorder (overrun : Word → Option String) (session : Session)
    (stop : KernelStop) :
    (session.syscallPass overrun stop.answer).1.recorder =
      (pluginScheme overrun).record session.recorder stop.event := by
  have trapped (process : Tracee) :
      (session.syscallPass overrun (.waited sigTrap process)).1.recorder =
        (pluginScheme overrun).meet session.recorder process.syscallNum := by
    rw [syscallPass_eq]
    simp only [isTrap_sigTrap, if_true]
    exact syscallStop_recorder _
  cases stop with
  | entry process => exact trapped process
  | exit process => exact trapped process
  | trap process => exact trapped process
  | other answer quiet =>
    change (session.syscallPass overrun answer).1.recorder = session.recorder
    rw [syscallPass_eq]
    cases answer with
    | refused => rfl
    | waited status process =>
      by_cases trap : isTrap status = true
      · simp only [Resume.trap, if_pos trap] at quiet
        cases quiet
      · simp only [if_neg trap]
        rfl

/-- The commands that resume with `PTRACE_SYSCALL`. -/
inductive SyscallCommand where
  /-- `CMD_TYPE::SYSCALL_CONTIN`. -/
  | syscallContin
  /-- `CMD_TYPE::STRACE_MODE`. -/
  | straceMode
deriving DecidableEq, Repr

/-- What `issueCommand` does before it calls `syscallContinue`. -/
def SyscallCommand.begin (session : Session) : SyscallCommand → Session
  | .syscallContin => session
  | .straceMode => session.straceOn

/-- Beginning a command changes neither the flag nor the calls. -/
@[simp]
theorem begin_recorder (session : Session) (command : SyscallCommand) :
    (command.begin session).recorder = session.recorder := by
  cases command <;> rfl

end A64dbg
