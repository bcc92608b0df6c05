import A64dbg.Connector
import A64dbg.Plugins
import A64dbg.Syscalls

/-!
# The debugger

The globals of `a64dbg.cpp` and the functions that set software breakpoints and resume the
tracee. A `Session` is the debugger together with the process it traces and the plugin calls
made so far. Console output is not part of the state.

`Continue`, `syscallContinue` and `doSingleStep` resume the tracee, so they consume answers of
the kernel. `syscallContinue` may resume it any number of times: `syscallPass` is one pass of
its loop, and the loop reads a list of answers until it returns or waits for the next one.
-/

namespace A64dbg

/-- The globals of the debugger, with the static flag of `syscallContinue`. -/
structure Debugger where
  /-- `wait_status`. -/
  waitStatus : WaitStatus
  /-- `BreakPoints`: the word found at each address where a breakpoint was set. -/
  breakPoints : Addr → Option Word
  /-- `plugin_helper.registered_plugins`. -/
  pluginHelper : PluginHelper
  /-- `tracee`, the process id. -/
  tracee : Word
  /-- `strace_mode`. -/
  straceMode : Bool
  /-- The static `syscall_enter`. -/
  syscallEnter : Bool
  /-- `CmdParser::follow_fork`. -/
  followFork : Bool
  /-- The connector. -/
  connector : Connector

/-- The debugger, its tracee and the plugin calls made, oldest first. -/
structure Session where
  /-- The globals. -/
  debugger : Debugger
  /-- The traced process. -/
  process : Tracee
  /-- Calls of `callBefore` and `callAfter`. -/
  calls : List PluginCall

/-- `std::map::insert`: an entry that exists is kept. -/
def mapInsert (entries : Addr → Option Word) (addr : Addr) (data : Word) : Addr → Option Word :=
  Function.update entries addr (some ((entries addr).getD data))

/-- An entry after a setting is an earlier entry, or the word just read. -/
theorem mapInsert_cases {entries : Addr → Option Word} {addr other : Addr} {data found : Word}
    (entry : mapInsert entries addr data other = some found) :
    entries other = some found ∨ other = addr ∧ entries addr = none ∧ found = data := by
  unfold mapInsert at entry
  by_cases here : other = addr
  · subst here
    rw [Function.update_self, Option.some.injEq] at entry
    cases old : entries other with
    | none => exact .inr ⟨rfl, rfl, by rw [← entry, old, Option.getD_none]⟩
    | some word => exact .inl (by rw [← entry, old, Option.getD_some])
  · rw [Function.update_of_ne here] at entry
    exact .inl entry

/-- After a setting its address has an entry. -/
theorem mapInsert_self (entries : Addr → Option Word) (addr : Addr) (data : Word) :
    mapInsert entries addr data addr = some ((entries addr).getD data) := by
  unfold mapInsert
  exact Function.update_self ..

/-- Entries survive a setting. -/
theorem mapInsert_keeps {entries : Addr → Option Word} {addr other : Addr} {data found : Word}
    (entry : entries other = some found) : mapInsert entries addr data other = some found := by
  by_cases here : other = addr
  · subst here
    rw [mapInsert_self, entry, Option.getD_some]
  · unfold mapInsert
    rw [Function.update_of_ne here, entry]

/-- Replace the traced process. -/
def Session.withProcess (session : Session) (process : Tracee) : Session :=
  { session with process := process }

/-- `waitpid(tracee, &wait_status, 0)` with the answer of the kernel. -/
def Session.waited (session : Session) (status : WaitStatus) (process : Tracee) : Session :=
  { session with
    process := process
    debugger := { session.debugger with waitStatus := status } }

/-- `setBreakPoint`, for a parsed address. -/
def Session.setBreakPoint (session : Session) (bpAddr : Addr) : Session :=
  let data := session.process.peekText bpAddr
  { session with
    process := session.process.pokeText bpAddr (instrWord brk)
    debugger := { session.debugger with
      breakPoints := mapInsert session.debugger.breakPoints bpAddr data } }

/-- `setHwBreakPoint`, for parsed arguments. -/
def Session.setHwBreakPoint (session : Session) (bpAddr bpNum : Word) : Session :=
  session.withProcess (session.debugger.connector.setHwBreakpoint session.process bpAddr bpNum).2

/-- The hardware branch of `Continue`: clear every slot that held `pc` when the loop began. -/
def clearHwAt (connector : Connector) (pc : Word) (process : Tracee) : Tracee :=
  let hregs := Connector.getHwBreakpoints process
  (List.range connector.hwBreakpoints).foldl
    (fun process i => if pc = (hregs i).addr then connector.clearHwBreakpoint process i
      else process) process

/-- What `Continue` does at a stop by signal 5: put back the word saved for `pc`, or look for
a hardware breakpoint there. -/
def Session.breakpointHit (session : Session) : Session :=
  let pc := session.process.getRegisters.pc
  match session.debugger.breakPoints pc with
  | some data => session.withProcess (session.process.pokeText pc data)
  | none => session.withProcess (clearHwAt session.debugger.connector pc session.process)

/-- `Continue`. -/
def Session.continue (session : Session) (answer : Resume) : Session :=
  match answer with
  | .refused => session
  | .waited status process =>
    let session := session.waited status process
    if wIfStopped status then
      if wStopSig status = 5 then session.breakpointHit else session
    else session

/-- The two tests of `Continue` and `syscallContinue` on a status are one. -/
theorem status_tests {α : Type} (status : WaitStatus) (trapped other : α) :
    (if wIfStopped status then if wStopSig status = 5 then trapped else other else other) =
      if isTrap status then trapped else other := by
  unfold isTrap
  cases wIfStopped status with
  | false => rfl
  | true =>
    by_cases five : wStopSig status = 5
    · rw [if_pos rfl, if_pos five, five]
      rfl
    · rw [if_pos rfl, if_neg five, Bool.true_and, if_neg (by simpa using five)]

/-- `Continue` acts on the tracee only at a stop by signal 5. -/
theorem continue_eq (session : Session) (answer : Resume) :
    session.continue answer =
      match answer with
      | .refused => session
      | .waited status process =>
        if isTrap status then (session.waited status process).breakpointHit
        else session.waited status process := by
  cases answer with
  | refused => rfl
  | waited status process => exact status_tests _ _ _

/-- The plugin part of `syscallContinue` at a stop whose number has a name. -/
def Session.callPlugin (session : Session) (name : String) : Session :=
  let helper := session.debugger.pluginHelper
  if session.debugger.syscallEnter then
    { debugger := { session.debugger with syscallEnter := false }
      process := helper.callBefore name session.process
      calls := session.calls ++ [.before name] }
  else
    { debugger := { session.debugger with syscallEnter := true }
      process := helper.callAfter name session.process
      calls := session.calls ++ [.after name] }

/-- The end of a pass of `syscallContinue`: on return from clone, follow the child. -/
def Session.followClone (session : Session) (syscallNum : Word) : Session :=
  if session.debugger.followFork && syscallNum == 220 && session.debugger.syscallEnter then
    let msg := session.process.eventMsg
    { session with
      debugger := { session.debugger with
        tracee := msg
        connector := session.debugger.connector.setTracee (msg.setWidth 32) } }
  else session

/-- What `syscallContinue` does at a stop by signal 5. -/
def Session.syscallStop (overrun : Word → Option String) (session : Session) : Session :=
  let syscallNum := session.process.getRegisters.regs x8
  if skipped syscallNum then session
  else
    let session := match syscallName overrun syscallNum with
      | some name => session.callPlugin name
      | none => session
    session.followClone syscallNum

/-- One pass of the loop of `syscallContinue`, and whether it reaches the loop test. -/
def Session.syscallPass (overrun : Word → Option String) (session : Session) (answer : Resume) :
    Session × Bool :=
  match answer with
  | .refused => (session, false)
  | .waited status process =>
    let session := session.waited status process
    if wIfStopped status then
      if wStopSig status = 5 then (session.syscallStop overrun, true) else (session, false)
    else (session, false)

/-- A pass of `syscallContinue` goes on exactly after a stop by signal 5. -/
theorem syscallPass_eq (overrun : Word → Option String) (session : Session) (answer : Resume) :
    session.syscallPass overrun answer =
      match answer with
      | .refused => (session, false)
      | .waited status process =>
        if isTrap status then ((session.waited status process).syscallStop overrun, true)
        else (session.waited status process, false) := by
  cases answer with
  | refused => rfl
  | waited status process => exact status_tests _ _ _

/-- `syscallContinue` on the answers still to come: the session, the answers it has not read,
and whether it returned or waits for the next answer. -/
def Session.syscallContinue (overrun : Word → Option String) (session : Session) :
    List Resume → Session × List Resume × Bool
  | [] => (session, [], false)
  | answer :: rest =>
    let pass := session.syscallPass overrun answer
    if pass.2 && pass.1.debugger.straceMode then pass.1.syscallContinue overrun rest
    else (pass.1, rest, true)

/-- Set `strace_mode`. -/
def Session.straceOn (session : Session) : Session :=
  { session with debugger := { session.debugger with straceMode := true } }

/-- The NEXT command: `wait_status = doSingleStep()`. -/
def Session.next (session : Session) (answer : Resume) : Session :=
  let step := Connector.doSingleStep (fun _ => answer) session.process
  session.waited step.1 step.2

/-- The commands of `issueCommand` that resume the tracee at its own instructions. -/
inductive ResumeCommand where
  /-- `CMD_TYPE::NEXT`. -/
  | next
  /-- `CMD_TYPE::CONTIN`. -/
  | contin
  /-- `CMD_TYPE::SYSCALL_CONTIN`. -/
  | syscallContin
  /-- `CMD_TYPE::STRACE_MODE`. -/
  | straceMode
deriving DecidableEq, Repr

/-- What a resume command does with one answer of the kernel, up to the next resume. -/
def ResumeCommand.handle (overrun : Word → Option String) (command : ResumeCommand)
    (session : Session) (answer : Resume) : Session :=
  match command with
  | .next => session.next answer
  | .contin => session.continue answer
  | .syscallContin => (session.syscallPass overrun answer).1
  | .straceMode => (session.straceOn.syscallPass overrun answer).1

end A64dbg
