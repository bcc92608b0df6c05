import A64dbg.Debugger
import A64dbg.StartUp

/-!
# From the arguments to the prompt

`main` parses its arguments, checks the plugins, forks or attaches, waits for the tracee once and
asks for the hardware features; then its loop starts. What the kernel answers on the way is a
`Boot`. The connector and `wait_status` are static, so they are zero before `main`; a wait that
fails leaves the status zero. A process id is a `pid_t`, the low 32 bits of `tracee`. The result of
`PTRACE_SETOPTIONS` is printed and not looked at, so the loop starts without the options when the
process is gone.

The child of the fork runs `execute_debugee` and never gets here.
-/

namespace A64dbg

/-- What the kernel answers while the debugger starts. -/
structure Boot where
  /-- What `fork` returns, as `tracee` takes it: zero in the child, and -1 where it fails. -/
  forked : Word
  /-- Whether `PTRACE_ATTACH` succeeds. -/
  attaches : BitVec 32 → Bool
  /-- The status that `waitpid` stores, unless it fails. -/
  waits : BitVec 32 → Option WaitStatus
  /-- Whether `PTRACE_SETOPTIONS` succeeds. -/
  setsOptions : BitVec 32 → Bool
  /-- The process that is waited for. -/
  process : BitVec 32 → Tracee
  /-- `dbg_info` of `NT_ARM_HW_BREAK`, unless the request fails. -/
  breakInfo : BitVec 32 → Option (BitVec 32)
  /-- `dbg_info` of `NT_ARM_HW_WATCH`, unless the request fails. -/
  watchInfo : BitVec 32 → Option (BitVec 32)

/-- `PTRACE_O_TRACECLONE | PTRACE_O_TRACEFORK`. -/
def followOptions : Word := 0x8 ||| 0x2

/-- `Connector::checkHwFeature`: what it returns, and the counter it sets. -/
def Connector.checkHwFeature (dbgInfo : Option (BitVec 32)) (counter : Nat) : Bool × Nat :=
  match dbgInfo with
  | none => (false, counter)
  | some dbgInfo =>
    if dbgInfo &&& 0xff = 0 then (false, counter) else (true, (dbgInfo &&& 0xff).toNat)

/-- The debugger when its loop starts. -/
structure Launched where
  /-- The session. -/
  session : Session
  /-- `hw_bp_supported`. -/
  hwBpSupported : Bool
  /-- `hw_watch_supported`. -/
  hwWatchSupported : Bool
  /-- `hw_watches`. -/
  hwWatches : Nat
  /-- The options that the kernel took for the tracee. -/
  options : Option Word

/-- What becomes of `main`. -/
inductive Main where
  /-- It returns -1. -/
  | refused
  /-- An exception ends it. -/
  | thrown
  /-- It is the child of the fork, and executes the binary. -/
  | child (binaryName : Text)
  /-- It starts its loop. -/
  | loops (launched : Launched)

/-- The end of `main` before its loop, for a tracee. -/
def launch (boot : Boot) (args : StartUp) (pluginHelper : PluginHelper) (tracee : Word) :
    Launched :=
  let pid := tracee.setWidth 32
  let connector := Connector.init ⟨0, 0, 0⟩ pid
  let (hwBpSupported, hwBreakpoints) :=
    Connector.checkHwFeature (boot.breakInfo pid) connector.hwBreakpoints
  let (hwWatchSupported, hwWatches) := Connector.checkHwFeature (boot.watchInfo pid) 0
  { session :=
      { debugger :=
          { waitStatus := (boot.waits pid).getD 0
            breakPoints := fun _ => none
            pluginHelper := pluginHelper
            tracee := tracee
            straceMode := false
            syscallEnter := true
            followFork := args.followFork
            connector := { connector with hwBreakpoints := hwBreakpoints } }
        process := boot.process pid
        calls := [] }
    hwBpSupported := hwBpSupported
    hwWatchSupported := hwWatchSupported
    hwWatches := hwWatches
    options := if args.followFork && boot.setsOptions pid then some followOptions else none }

/-- `main` up to its loop, with the plugins of the registry in the order of its map. -/
def main (boot : Boot) (registry : List (String × Plugin)) (argv : List Text) : Main :=
  match startUpArgs argv with
  | none => .thrown
  | some (false, _) => .refused
  | some (true, args) =>
    let (known, pluginHelper) := PluginHelper.checkForPlugins (fun _ => none) registry
    if !known then .refused
    else if args.attachMode then
      if boot.attaches (args.targetPid.setWidth 32) then
        .loops (launch boot args pluginHelper args.targetPid)
      else .refused
    else if boot.forked = 0 then .child args.binaryName
    else .loops (launch boot args pluginHelper boot.forked)

end A64dbg
