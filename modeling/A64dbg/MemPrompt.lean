import A64dbg.MemInput
import A64dbg.MemStreams

/-!
# The prompt of the scanner

`runMemChecking` opens the streams, reads the areas, and then asks `readUserInput` for a command and
does it, until the scanner ends. `readUserInput` goes by single letters: five return, one ends the
scanner, and any other is passed over, with a message unless it is a newline. At the end of the
input `getchar` fails, which is passed over as well, so the scanner asks for ever.

What the user types is a text, and each command takes its letter and, if it is a write, what `scanf`
takes from there. What the tracee does meanwhile and what the variables of a command hold before
they are written are inputs, one `Circumstance` for each command.
-/

namespace A64dbg

open Streams

/-- What `readUserInput` returns. -/
inductive UserInput where
  /-- `UNCHANGED` or `CHANGED`. -/
  | check (mode : Mode)
  /-- `WRITE_OP`. -/
  | write
  /-- `RESTORE_OP`. -/
  | restore
  /-- `OBSERVE_OP`. -/
  | observe
deriving DecidableEq, Repr

/-- What `readUserInput` makes of one letter. -/
inductive Key where
  /-- It returns. -/
  | returns (asked : UserInput)
  /-- It ends the scanner. -/
  | quits
  /-- It reads the next letter. -/
  | passes
deriving DecidableEq, Repr

/-- The tests of `readUserInput` on a letter. -/
def keyOf (c : Char) : Key :=
  if c = 'u' ∨ c = 'U' then .returns (.check .unchanged)
  else if c = 'c' ∨ c = 'C' then .returns (.check .changed)
  else if c = 'w' ∨ c = 'W' then .returns .write
  else if c = 'r' ∨ c = 'R' then .returns .restore
  else if c = 'o' ∨ c = 'O' then .returns .observe
  else if c = 'q' ∨ c = 'Q' then .quits
  else .passes

/-- What becomes of a call of `readUserInput`. -/
inductive Heard where
  /-- It returns, and this input is left. -/
  | returned (asked : UserInput) (unread : Text)
  /-- It ends the scanner by `exit(0)`. -/
  | quit (unread : Text)
  /-- It has come to the end of the input and does not return. -/
  | ever
deriving DecidableEq, Repr

/-- What the debugger does not determine of a command. -/
structure Circumstance where
  /-- The memory of the tracee when the command is done. -/
  memory : ByteMemory.Memory 64
  /-- What `write_address` holds at first. -/
  writeAddress : Word
  /-- What `write_value` holds at first. -/
  writeValue : Word
  /-- What `read_value` holds at first. -/
  readValue : Word
  /-- What each request to `proc_mem_read` finds. -/
  during : Nat → Moment 64

/-- How `runMemChecking` ends, if it does. -/
inductive Ended where
  /-- By `exit(0)`, with this input left. -/
  | quit (checker : Checker) (unread : Text)
  /-- In this turn, which fails. -/
  | failed (checker : Checker) (turn : Turn)
  /-- Never: it asks at the end of the input. -/
  | ever (checker : Checker)

/-- The scanner when a command is done, over what the tracee has made of its memory. -/
abbrev Checker.under (checker : Checker) (circumstance : Circumstance) : Checker :=
  { checker with memory := circumstance.memory }

/-- A scanner that has ended does nothing. -/
theorem Checker.after_none (stdio : Stdio) (run : List Turn) :
    Runs.after (Checker.advance stdio) none run = none := by
  induction run with
  | nil => rfl
  | cons turn rest ih => exact ih

/-- The memory of the tracee after `exit`, which writes out what `proc_mem_write` keeps. -/
def Checker.exit (checker : Checker) : Memory :=
  (writeOut checker.memory checker.writer.pending).1

namespace Typed

/-- `readUserInput`. -/
def readUserInput : Text → Heard
  | [] => .ever
  | c :: unread =>
    match keyOf c with
    | .returns asked => .returned asked unread
    | .quits => .quit unread
    | .passes => readUserInput unread

/-- A call that returns has taken a letter. -/
theorem readUserInput_shorter {input unread : Text} {asked : UserInput}
    (heard : readUserInput input = .returned asked unread) : unread.length < input.length := by
  induction input with
  | nil => cases heard
  | cons c rest ih =>
    rw [readUserInput] at heard
    rw [List.length_cons]
    split at heard
    · cases heard
      exact Nat.lt_succ_self _
    · cases heard
    · exact Nat.lt_succ_of_lt (ih heard)

/-- The turn of the loop that does what was asked, and the input it leaves. -/
def turn (circumstance : Circumstance) (unread : Text) : UserInput → Turn × Text
  | .check mode => (.check mode circumstance.during, unread)
  | .write =>
    let scanned := scanf unread circumstance.writeAddress circumstance.writeValue
    (.write scanned.writeAddress scanned.writeValue, scanned.unread)
  | .restore => (.restore, unread)
  | .observe => (.observe circumstance.readValue circumstance.during, unread)

/-- What a conversion leaves is no longer than its input. -/
theorem scanHex_shorter (input : Text) : (scanHex input).2.length ≤ input.length := by
  have sign (text : Text) : (takeSign text).2.length ≤ text.length := by
    unfold takeSign
    split
    · exact Nat.le_succ _
    · exact Nat.le_succ _
    · exact Nat.le_refl _
  have mark (text : Text) : (takeHexMark text).length ≤ text.length := by
    unfold takeHexMark
    split
    · split
      · rw [List.length_cons, List.length_cons]
        omega
      · exact Nat.le_refl _
    · exact Nat.le_refl _
  have skipped : (input.dropWhile isSpace).length ≤ input.length :=
    (List.dropWhile_suffix _).length_le
  have subject := mark (takeSign (input.dropWhile isSpace)).2
  have unsigned := sign (input.dropWhile isSpace)
  have digits : (scanHex input).2.length ≤
      (takeHexMark (takeSign (input.dropWhile isSpace)).2).length :=
    (List.dropWhile_suffix _).length_le
  omega

/-- What a turn leaves is no longer than the input it found. -/
theorem turn_shorter (circumstance : Circumstance) (unread : Text) (asked : UserInput) :
    (turn circumstance unread asked).2.length ≤ unread.length := by
  cases asked with
  | check mode => exact Nat.le_refl _
  | restore => exact Nat.le_refl _
  | observe => exact Nat.le_refl _
  | write =>
    show (scanf unread _ _).unread.length ≤ unread.length
    have first := scanHex_shorter unread
    unfold scanf
    split
    · next rest failed =>
      rw [failed] at first
      exact first
    · next address rest stored =>
      rw [stored] at first
      have spaces : (rest.dropWhile isSpace).length ≤ rest.length :=
        (List.dropWhile_suffix _).length_le
      have second := scanHex_shorter (rest.dropWhile isSpace)
      split
      · next left failed =>
        rw [failed] at second
        exact second.trans (spaces.trans first)
      · next value left converted =>
        rw [converted] at second
        exact second.trans (spaces.trans first)

/-- The loop of `runMemChecking` from a command on. -/
def commands (stdio : Stdio) (circumstances : Nat → Circumstance) (command : Nat)
    (checker : Checker) (input : Text) : Ended :=
  match _heard : readUserInput input with
  | .ever => .ever checker
  | .quit unread => .quit checker unread
  | .returned asked unread =>
    let asks := turn (circumstances command) unread asked
    match (checker.under (circumstances command)).step stdio asks.1 with
    | none => .failed (checker.under (circumstances command)) asks.1
    | some next => commands stdio circumstances (command + 1) next asks.2
termination_by input.length
decreasing_by
  exact Nat.lt_of_le_of_lt (turn_shorter _ _ _) (readUserInput_shorter _heard)

/-- `runMemChecking` on what the user types; none when its first reads end the scanner. -/
def runMemChecking (stdio : Stdio) (areas : List ObserverArea) (first : Nat → Moment 64)
    (circumstances : Nat → Circumstance) (input : Text) : Option Ended :=
  (Checker.start stdio areas first).map fun checker =>
    commands stdio circumstances 0 checker input

end Typed

end A64dbg
