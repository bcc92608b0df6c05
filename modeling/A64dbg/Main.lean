import A64dbg.CmdParser
import A64dbg.Debugger

/-!
# The input loop

`main` reads a command, issues it, and goes on while the status it holds is a stop. A command
may resume the tracee, so it consumes answers of the kernel: it returns, or it waits for an
answer that has not come, or it ends the debugger, by `exit` or by an exception that nothing
catches. `Program.turn` is one read of a line and what follows from it up to the next read.
-/

namespace A64dbg

/-- What the repository does not determine. -/
structure Host where
  /-- What a read past the end of the system call table finds. -/
  overrun : Word → Option String
  /-- Whether `readTraceeMemory` returns for this number of words; an allocation may fail. -/
  reads : Word → Bool

/-- What became of a command. -/
inductive Issued where
  /-- It returned, with the session it left and the answers it has not read. -/
  | returned (session : Session) (unread : List Resume)
  /-- It waits for an answer of the kernel. -/
  | waiting
  /-- It ended the debugger. -/
  | ended

/-- A command that resumes the tracee once. -/
def resumeOnce (command : Resume → Session) : List Resume → Issued
  | [] => .waiting
  | answer :: unread => .returned (command answer) unread

/-- A command that does not resume the tracee; an exception may leave it. -/
def withoutResume (answers : List Resume) : Option Session → Issued
  | none => .ended
  | some session => .returned session answers

/-- The guards of `Connector::mprotectMemory`, which return before its single step. -/
def Connector.refusesMprotect (connector : Connector) (memAddr : Word) : Bool :=
  connector.privateMemory == -1 || memAddr == connector.privateMemory

/-- The command `CMD_TYPE::MEM_MMAP`. -/
def Session.allocateMemoryInChild (session : Session) (answer : Resume) : Session :=
  let (_, connector, process) :=
    session.debugger.connector.allocateMemoryInChild (fun _ => answer) session.process
  { session with
    process := process
    debugger := { session.debugger with connector := connector } }

/-- The call of `mprotectMemory` in `mprotMem`. -/
def Session.mprotectMemory (session : Session) (memAddr memSize memProt : Word)
    (answer : Resume) : Session :=
  session.withProcess (session.debugger.connector.mprotectMemory (fun _ => answer)
    session.process memAddr memSize memProt).2

namespace Handlers

/-- `setBreakPoint`. -/
def setBreakPoint (session : Session) : List Text → Option Session
  | [bpAddr] => (stringToU64 bpAddr).map session.setBreakPoint
  | _ => some session

/-- `setHwBreakPoint`. -/
def setHwBreakPoint (session : Session) : List Text → Option Session
  | [bpAddr, bpNum] =>
    (stringToU64 bpAddr).bind fun bpAddr =>
      (stringToU64 bpNum).map fun bpNum => session.setHwBreakPoint bpAddr bpNum
  | _ => some session

/-- `readTraceeMemory`, without what it prints. -/
def readTraceeMemory (host : Host) (session : Session) : List Text → Option Session
  | [rAddr, rSize] =>
    (stringToU64 rAddr).bind fun _ =>
      (stringToU64 rSize).bind fun rSize => if host.reads rSize then some session else none
  | _ => some session

/-- The arguments of `mprotMem`: none where an exception leaves it. -/
def mprotArgs (memAddr memSize memProt : Text) : Option (Word × Word × Word) :=
  (stringToU64 memAddr).bind fun memAddr =>
    (stringToU64 memSize).bind fun memSize =>
      (stringToU64 memProt).map fun memProt => (memAddr, memSize, memProt)

/-- `mprotMem`. -/
def mprotMem (session : Session) (answers : List Resume) : List Text → Issued
  | [memAddr, memSize, memProt] =>
    match mprotArgs memAddr memSize memProt with
    | none => .ended
    | some (memAddr, memSize, memProt) =>
      if memAddr = -1 ∨ memSize = -1 ∨ memProt = -1 then .returned session answers
      else if session.debugger.connector.refusesMprotect memAddr then .returned session answers
      else resumeOnce (session.mprotectMemory memAddr memSize memProt) answers
  | _ => .returned session answers

end Handlers

/-- `syscallContinue` as a command. -/
def syscallCommand (host : Host) (session : Session) (answers : List Resume) : Issued :=
  let (session, unread, returned) := session.syscallContinue host.overrun answers
  if returned then .returned session unread else .waiting

/-- `issueCommand`, with the arguments the parser holds and the answers still to come. -/
def issueCommand (host : Host) (session : Session) (args : List Text) (answers : List Resume) :
    CmdType → Issued
  | .exit => .ended
  | .next => resumeOnce session.next answers
  | .contin => resumeOnce session.continue answers
  | .showRegs => .returned session answers
  | .memMprotect => Handlers.mprotMem session answers args
  | .memMmap => resumeOnce session.allocateMemoryInChild answers
  | .syscallContin => syscallCommand host session answers
  | .setBreakpoint => withoutResume answers (Handlers.setBreakPoint session args)
  | .setHwBreakpoint => withoutResume answers (Handlers.setHwBreakPoint session args)
  | .readMemory => withoutResume answers (Handlers.readTraceeMemory host session args)
  | .straceMode => syscallCommand host session.straceOn answers
  | .help => .returned session answers
  | .none => .returned session answers

/-- The test of the input loop of `main`. -/
def Session.stopped (session : Session) : Bool := wIfStopped session.debugger.waitStatus

/-- Where the debugger is. -/
inductive Phase where
  /-- In `getCmd`, about to read a line. -/
  | reading
  /-- In a command that waits for the tracee. -/
  | waiting
  /-- The input loop ended, or the debugger did. -/
  | over
deriving DecidableEq, Repr

/-- The debugger at its prompt, with the commands it has dispatched, oldest first. -/
structure Program where
  /-- The parser. -/
  parser : CmdParser
  /-- The session. -/
  session : Session
  /-- The commands dispatched. -/
  dispatched : List CmdType
  /-- Where it is. -/
  phase : Phase

/-- The phase a command leaves. -/
def Issued.phase : Issued → Phase
  | .returned session _ => if session.stopped then .reading else .over
  | .waiting => .waiting
  | .ended => .over

/-- The session a command leaves, where it returns. -/
def Issued.session (before : Session) : Issued → Session
  | .returned session _ => session
  | .waiting | .ended => before

namespace Program

/-- `main` at its loop. -/
def start (session : Session) : Program where
  parser := .initial
  session := session
  dispatched := []
  phase := if session.stopped then .reading else .over

/-- `issueCommand` on the command just read. -/
def dispatch (host : Host) (program : Program) (answers : List Resume) (command : CmdType) :
    Program :=
  let issued := issueCommand host program.session program.parser.cmdArgs answers command
  { program with
    session := issued.session program.session
    dispatched := program.dispatched ++ [command]
    phase := issued.phase }

/-- One `std::getline` and what follows from it, up to the next one. At the end of the input it
fails and leaves the empty string. -/
def turn (host : Host) (order : List CmdStruct) (program : Program)
    (read : Option Text × List Resume) : Program :=
  match program.phase with
  | .waiting | .over => program
  | .reading =>
    match program.parser.readCmd order (read.1.getD []) with
    | (parser, none) => { program with parser := parser }
    | (parser, some command) => { program with parser := parser }.dispatch host read.2 command

end Program

namespace Handlers

variable {host : Host} {session after : Session} {args : List Text}

/-- A handler that returns set a software breakpoint or left the session. -/
theorem setBreakPoint_cases (handled : setBreakPoint session args = some after) :
    after = session ∨ ∃ bpAddr, after = session.setBreakPoint bpAddr := by
  match args with
  | [bpAddr] =>
    obtain ⟨parsed, -, same⟩ := Option.map_eq_some_iff.mp handled
    exact .inr ⟨parsed, same.symm⟩
  | [] | _ :: _ :: _ => exact .inl (Option.some.inj handled).symm

/-- A handler that returns set a hardware breakpoint or left the session. -/
theorem setHwBreakPoint_cases (handled : setHwBreakPoint session args = some after) :
    after = session ∨ ∃ bpAddr bpNum, after = session.setHwBreakPoint bpAddr bpNum := by
  match args with
  | [bpAddr, bpNum] =>
    obtain ⟨parsedAddr, -, rest⟩ := Option.bind_eq_some_iff.mp handled
    obtain ⟨parsedNum, -, same⟩ := Option.map_eq_some_iff.mp rest
    exact .inr ⟨parsedAddr, parsedNum, same.symm⟩
  | [] | [_] | _ :: _ :: _ :: _ => exact .inl (Option.some.inj handled).symm

/-- A software breakpoint keeps `wait_status`. -/
theorem setBreakPoint_keeps (handled : setBreakPoint session args = some after) :
    after.debugger.waitStatus = session.debugger.waitStatus := by
  rcases setBreakPoint_cases handled with rfl | ⟨bpAddr, rfl⟩
  · rfl
  · rfl

/-- A hardware breakpoint keeps `wait_status`. -/
theorem setHwBreakPoint_keeps (handled : setHwBreakPoint session args = some after) :
    after.debugger.waitStatus = session.debugger.waitStatus := by
  rcases setHwBreakPoint_cases handled with rfl | ⟨bpAddr, bpNum, rfl⟩
  · rfl
  · rfl

/-- Reading memory changes nothing. -/
theorem readTraceeMemory_keeps (handled : readTraceeMemory host session args = some after) :
    after = session := by
  match args with
  | [rAddr, rSize] =>
    obtain ⟨parsedAddr, -, rest⟩ := Option.bind_eq_some_iff.mp handled
    obtain ⟨parsedSize, -, read⟩ := Option.bind_eq_some_iff.mp rest
    split at read
    · cases read
      rfl
    · cases read
  | [] | [_] | _ :: _ :: _ :: _ =>
    cases handled
    rfl

/-- An exception leaves `mprotMem`. -/
def mprotThrows : List Text → Bool
  | [memAddr, memSize, memProt] => (mprotArgs memAddr memSize memProt).isNone
  | _ => false

/-- `mprotMem` makes a single step. -/
def mprotSteps (session : Session) : List Text → Bool
  | [memAddr, memSize, memProt] =>
    match mprotArgs memAddr memSize memProt with
    | none => false
    | some (memAddr, memSize, memProt) =>
      !(memAddr = -1 ∨ memSize = -1 ∨ memProt = -1) &&
        !session.debugger.connector.refusesMprotect memAddr
  | _ => false

/-- `mprotMem` is left by an exception, returns without a step, or resumes the tracee once. -/
theorem mprotMem_cases (session : Session) (answers : List Resume) (args : List Text) :
    mprotThrows args = true ∧ mprotSteps session args = false ∧
      mprotMem session answers args = .ended ∨
    mprotThrows args = false ∧ mprotSteps session args = false ∧
      mprotMem session answers args = .returned session answers ∨
    mprotThrows args = false ∧ mprotSteps session args = true ∧
      ∃ memAddr memSize memProt, mprotMem session answers args =
        resumeOnce (session.mprotectMemory memAddr memSize memProt) answers := by
  match args with
  | [addrText, sizeText, protText] =>
    unfold mprotThrows mprotSteps mprotMem
    dsimp only
    cases mprotArgs addrText sizeText protText with
    | none => exact .inl ⟨rfl, rfl, rfl⟩
    | some parsed =>
      obtain ⟨memAddr, memSize, memProt⟩ := parsed
      dsimp only
      by_cases minusOne : memAddr = -1 ∨ memSize = -1 ∨ memProt = -1
      · rw [if_pos minusOne, decide_eq_true minusOne]
        exact .inr (.inl ⟨rfl, rfl, rfl⟩)
      · rw [if_neg minusOne, decide_eq_false minusOne]
        cases session.debugger.connector.refusesMprotect memAddr with
        | true => exact .inr (.inl ⟨rfl, rfl, rfl⟩)
        | false => exact .inr (.inr ⟨rfl, rfl, memAddr, memSize, memProt, rfl⟩)
  | [] | [_] | [_, _] | _ :: _ :: _ :: _ :: _ => exact .inr (.inl ⟨rfl, rfl, rfl⟩)

end Handlers

end A64dbg
