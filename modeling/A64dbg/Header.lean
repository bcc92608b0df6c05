import A64dbg.Main
import A64dbg.RegsMap

/-!
# The header of the prompt

The input loop of `main` prints a header in front of a command: the process, its `pc`, its `sp` and
the instruction at `pc`. Behind five of the commands it prints none, so that the header printed
before stays the last one on the screen.
-/

namespace A64dbg

/-- The commands behind which `main` prints no header. -/
def CmdType.silent : CmdType → Bool
  | .showRegs | .setBreakpoint | .setHwBreakpoint | .readMemory | .memMprotect => true
  | _ => false

/-- The header printed for a session. -/
def Session.header (session : Session) : Text :=
  Output.printCmdHeader session.debugger.connector session.process

/-- The debugger, and the header that was printed last. -/
structure Screen where
  /-- The program. -/
  program : Program
  /-- The header, unless none was printed. -/
  header : Option Text

namespace Screen

/-- The body of the loop of `main` up to `getCmd`, with the command issued before. -/
def body (screen : Screen) (command : CmdType) : Screen :=
  if screen.program.phase = .reading ∧ command.silent = false then
    { screen with header := some screen.program.session.header }
  else screen

/-- `main` at its loop. -/
def start (session : Session) : Screen := body ⟨Program.start session, none⟩ .none

/-- The command that a read makes the loop issue. -/
def issues (order : List CmdStruct) (program : Program) (read : Option Text × List Resume) :
    Option CmdType :=
  match program.phase with
  | .waiting | .over => none
  | .reading => (program.parser.readCmd order (read.1.getD [])).2

/-- One read of a line and what follows from it, up to the next one. -/
def turn (host : Host) (order : List CmdStruct) (screen : Screen)
    (read : Option Text × List Resume) : Screen :=
  let next := { screen with program := screen.program.turn host order read }
  match issues order screen.program read with
  | none => next
  | some command => next.body command

end Screen

end A64dbg
