import A64dbg.MemPrompt
import A64dbg.Verif.DelayedWrites
import A64dbg.Verif.TypedWrites

/-!
# Scripts for the scanner

A script is a list of commands as they are typed: the letter of each in either case, the operands of
a write, and letters that are passed over. `script_runs` says that the scanner reads every script
back: it does the turns of its commands in their order and nothing else, and then ends at a `q` or
asks for ever. A digit behind the value of a write belongs to the value, and `c` is a digit, so a
write is followed by a letter that is none.
-/

namespace A64dbg.TypedScripts

open Runs TypedWrites

/-- A command, with the operands of a write as they are typed. -/
inductive Order where
  /-- A round. -/
  | check (mode : Mode)
  /-- A write: white space, the address, white space and the value. -/
  | write (gap : Text) (address : Numeral) (between : Text) (value : Numeral)
  /-- A restore. -/
  | restore
  /-- An observation. -/
  | observe

namespace Order

/-- What `readUserInput` returns for an order. -/
def asked : Order → UserInput
  | .check mode => .check mode
  | .write .. => .write
  | .restore => .restore
  | .observe => .observe

/-- The operands of an order as they are typed; only a write has some. -/
def operands : Order → Text
  | .write gap address between value => gap ++ (address.text ++ (between ++ value.text))
  | .check _ | .restore | .observe => []

/-- The turn of `runMemChecking` that an order means. -/
def turn (circumstance : Circumstance) : Order → Turn
  | .check mode => .check mode circumstance.during
  | .write _ address _ value => .write address.word value.word
  | .restore => .restore
  | .observe => .observe circumstance.readValue circumstance.during

end Order

/-- A write is typed as it should be, in front of some letters. -/
structure ProperWrite (gap : Text) (address : Numeral) (between : Text) (value : Numeral)
    (behind : Text) : Prop where
  /-- The gap is white. -/
  gap : ∀ letter ∈ gap, isSpace letter = true
  /-- The address. -/
  address : address.Proper
  /-- There is something between the numbers. -/
  apart : between ≠ []
  /-- It is white. -/
  between : ∀ letter ∈ between, isSpace letter = true
  /-- The value. -/
  value : value.Proper
  /-- The next letter does not belong to the value. -/
  ended : ∃ next more, behind = next :: more ∧ isDigitOf 16 next = false ∧ next ≠ 'x' ∧ next ≠ 'X'

/-- A command in a script, with the letters that are passed over behind it. -/
structure Entry where
  /-- Its letter. -/
  letter : Char
  /-- The command. -/
  order : Order
  /-- What is typed behind it. -/
  behind : Text

namespace Entry

/-- A command as it is typed: its letter, its operands and what is passed over. -/
def text (entry : Entry) : Text := entry.letter :: (entry.order.operands ++ entry.behind)

/-- A letter of the command, the numbers of a write, and only letters passed over behind them. -/
structure Proper (entry : Entry) : Prop where
  /-- The letter is one of the command. -/
  letter : keyOf entry.letter = .returns entry.order.asked
  /-- The operands of a write. -/
  operands : ∀ gap address between value, entry.order = .write gap address between value →
    ProperWrite gap address between value entry.behind
  /-- The letters behind it are passed over. -/
  behind : ∀ letter ∈ entry.behind, keyOf letter = .passes

end Entry

/-- The turns of a script; the tracee writes before each. -/
def turns (circumstances : Nat → Circumstance) : Nat → List Entry → List Turn
  | _, [] => []
  | command, entry :: rest =>
    .tracee (circumstances command).memory :: entry.order.turn (circumstances command) ::
      turns circumstances (command + 1) rest

/-- The end of what is typed: a letter that ends the scanner with some text behind it, or nothing.
-/
def closing : Option (Char × Text) → Text
  | none => []
  | some (letter, unread) => letter :: unread

/-- How the scanner ends behind a script: at a `q`, or asking for ever. -/
def closed (last : Checker) : Option (Char × Text) → Ended
  | none => .ever last
  | some (_, unread) => .quit last unread

section Loop

variable {stdio : Stdio} {circumstances : Nat → Circumstance} {command : Nat} {checker : Checker}

/-- Letters that are passed over make no difference. -/
theorem readUserInput_passes {behind : Text} (passed : ∀ letter ∈ behind, keyOf letter = .passes)
    (input : Text) : Typed.readUserInput (behind ++ input) = Typed.readUserInput input := by
  induction behind with
  | nil => rfl
  | cons letter rest ih =>
    rw [List.forall_mem_cons] at passed
    rw [List.cons_append, Typed.readUserInput, passed.1]
    exact ih passed.2

/-- A pass of the loop goes by what `readUserInput` returns. -/
theorem commands_eq (input : Text) :
    Typed.commands stdio circumstances command checker input =
      match Typed.readUserInput input with
      | .ever => .ever checker
      | .quit unread => .quit checker unread
      | .returned asked unread =>
        let asks := Typed.turn (circumstances command) unread asked
        match (checker.under (circumstances command)).step stdio asks.1 with
        | none => .failed (checker.under (circumstances command)) asks.1
        | some next => Typed.commands stdio circumstances (command + 1) next asks.2 := by
  rw [Typed.commands]
  split
  · next ever => rw [ever]
  · next unread quit => rw [quit]
  · next asked unread returned => exact returned ▸ rfl

/-- The loop passes over letters that are no command. -/
theorem commands_passes {behind : Text} (passed : ∀ letter ∈ behind, keyOf letter = .passes)
    (input : Text) :
    Typed.commands stdio circumstances command checker (behind ++ input) =
      Typed.commands stdio circumstances command checker input := by
  rw [commands_eq, readUserInput_passes passed, ← commands_eq]

/-- `scanf` finds the two numbers of a write behind its letter. -/
theorem write_begins {gap between behind : Text} {address value : Numeral}
    (proper : ProperWrite gap address between value behind) (more : Text) :
    Begins address (gap ++ (address.text ++ (between ++ value.text)) ++ behind ++ more)
        (between ++ (value.text ++ (behind ++ more))) ∧
      Begins value (between ++ (value.text ++ (behind ++ more))) (behind ++ more) := by
  obtain ⟨next, others, shape, digit, small, large⟩ := proper.ended
  constructor
  · obtain ⟨space, spaces, white⟩ := List.exists_cons_of_ne_nil proper.apart
    have blank : isSpace space = true := proper.between space (white ▸ List.mem_cons_self)
    constructor
    · exact proper.address
    · refine ⟨gap, proper.gap, ?_⟩
      simp only [List.append_assoc]
    · intro letter rest same
      rw [white, List.cons_append, List.cons.injEq] at same
      rw [← same.1]
      cases hex : isDigitOf 16 space with
      | false => rfl
      | true =>
        rw [(Numbers.digit_apart hex).1] at blank
        cases blank
    · intro _ _ letter rest same
      rw [white, List.cons_append, List.cons.injEq] at same
      rw [← same.1]
      have apart : isSpace 'x' = false ∧ isSpace 'X' = false := by decide
      constructor
      · intro mark
        rw [mark, apart.1] at blank
        cases blank
      · intro mark
        rw [mark, apart.2] at blank
        cases blank
  · constructor
    · exact proper.value
    · exact ⟨between, proper.between, rfl⟩
    · intro letter rest same
      rw [shape, List.cons_append, List.cons.injEq] at same
      rw [← same.1]
      exact digit
    · intro _ _ letter rest same
      rw [shape, List.cons_append, List.cons.injEq] at same
      rw [← same.1]
      exact ⟨small, large⟩

/-- **A command is read as it was typed.** -/
theorem turn_order {entry : Entry} (proper : entry.Proper) (circumstance : Circumstance)
    (more : Text) :
    ∃ left, Typed.turn circumstance (entry.order.operands ++ entry.behind ++ more)
        entry.order.asked = (entry.order.turn circumstance, left) ∧
      Typed.readUserInput left = Typed.readUserInput more := by
  have passed := readUserInput_passes proper.behind more
  cases order : entry.order with
  | check mode => exact ⟨_, rfl, passed⟩
  | restore => exact ⟨_, rfl, passed⟩
  | observe => exact ⟨_, rfl, passed⟩
  | write gap address between value =>
    obtain ⟨first, second⟩ := write_begins (proper.operands gap address between value order) more
    refine ⟨entry.behind ++ more, ?_, passed⟩
    simp only [Order.asked, Order.operands, Order.turn, Typed.turn, scanf_two first second]

/-- One command of a script is one turn of the loop. -/
theorem commands_entry {entry : Entry} (proper : entry.Proper) (more : Text) :
    Typed.commands stdio circumstances command checker (entry.text ++ more) =
      match (checker.under (circumstances command)).step stdio
        (entry.order.turn (circumstances command)) with
      | none => .failed (checker.under (circumstances command))
          (entry.order.turn (circumstances command))
      | some next => Typed.commands stdio circumstances (command + 1) next more := by
  have heard : Typed.readUserInput (entry.text ++ more) =
      .returned entry.order.asked (entry.order.operands ++ entry.behind ++ more) := by
    rw [Entry.text, List.cons_append, Typed.readUserInput, proper.letter]
  obtain ⟨left, taken, same⟩ := turn_order proper (circumstances command) more
  rw [commands_eq, heard]
  dsimp only
  rw [taken]
  dsimp only
  split
  · rfl
  · rw [commands_eq, same, ← commands_eq]

/-- A script does its turns and goes on with what is typed behind it. -/
theorem commands_script {script : List Entry} (proper : ∀ entry ∈ script, entry.Proper)
    (more : Text) :
    (∀ last, after (Checker.advance stdio) (some checker) (turns circumstances command script) =
        some last →
      Typed.commands stdio circumstances command checker (script.flatMap Entry.text ++ more) =
        Typed.commands stdio circumstances (command + script.length) last more) ∧
    (after (Checker.advance stdio) (some checker) (turns circumstances command script) = none →
      ∃ found turn, Typed.commands stdio circumstances command checker
        (script.flatMap Entry.text ++ more) = .failed found turn) := by
  induction script generalizing command checker with
  | nil =>
    constructor
    · intro last same
      cases same
      rfl
    · intro none
      cases none
  | cons entry rest ih =>
    rw [List.forall_mem_cons] at proper
    have one := @commands_entry stdio circumstances command checker entry proper.1
      (rest.flatMap Entry.text ++ more)
    have run : after (Checker.advance stdio) (some checker)
        (turns circumstances command (entry :: rest)) =
        after (Checker.advance stdio) ((checker.under (circumstances command)).step stdio
          (entry.order.turn (circumstances command)))
          (turns circumstances (command + 1) rest) := rfl
    rw [List.flatMap_cons, List.append_assoc, run, one]
    have count : command + (entry :: rest).length = command + 1 + rest.length := by
      rw [List.length_cons]
      omega
    cases (checker.under (circumstances command)).step stdio
      (entry.order.turn (circumstances command)) with
    | none =>
      rw [Checker.after_none]
      constructor
      · intro last same
        cases same
      · intro _
        exact ⟨_, _, rfl⟩
    | some next =>
      rw [count]
      exact ih proper.2

/-- A script behind letters that are passed over, up to the end of the scanner. -/
theorem commands_closed {lead : Text} (passed : ∀ letter ∈ lead, keyOf letter = .passes)
    {script : List Entry} (proper : ∀ entry ∈ script, entry.Proper) {close : Option (Char × Text)}
    (ends : ∀ letter unread, close = some (letter, unread) → keyOf letter = .quits)
    {last : Checker}
    (reached : after (Checker.advance stdio) (some checker) (turns circumstances command script) =
      some last) :
    Typed.commands stdio circumstances command checker
      (lead ++ (script.flatMap Entry.text ++ closing close)) = closed last close := by
  rw [commands_passes passed, (commands_script proper (closing close)).1 last reached, commands_eq]
  cases close with
  | none => rfl
  | some close =>
    rw [closing, Typed.readUserInput, ends close.1 close.2 rfl]
    rfl

end Loop

/-- A tracee of zeros that does nothing, and variables that hold zero. -/
def still : Circumstance where
  memory := fun _ => some 0
  writeAddress := 0
  writeValue := 0
  readValue := 0
  during := fun _ => ⟨fun _ => some 0, true, (0, 0)⟩

/-- A write of 0x2c at 0x1000, and a newline behind it. -/
def writeEntry : Entry where
  letter := 'w'
  order := .write [' '] ⟨[], ['0', 'x'], ['1', '0', '0', '0']⟩ [' '] ⟨[], [], ['2', 'c']⟩
  behind := ['\n']

/-- The sample is a command with the numbers it needs. -/
theorem writeEntry_proper : writeEntry.Proper := by
  have white : ∀ letter ∈ [' '], isSpace letter = true := by simp [isSpace]
  have address : ∀ digit ∈ ['1', '0', '0', '0'], isDigitOf 16 digit = true := by
    simp only [List.forall_mem_cons, List.not_mem_nil, false_implies, implies_true]
    decide
  have value : ∀ digit ∈ ['2', 'c'], isDigitOf 16 digit = true := by
    simp only [List.forall_mem_cons, List.not_mem_nil, false_implies, implies_true]
    decide
  constructor
  · rfl
  · intro gap first between second same
    cases same
    constructor
    · exact white
    · exact ⟨.inl rfl, .inr (.inl rfl), List.cons_ne_nil _ _, address⟩
    · exact List.cons_ne_nil _ _
    · exact white
    · exact ⟨.inl rfl, .inl rfl, List.cons_ne_nil _ _, value⟩
    · exact ⟨'\n', [], rfl, by decide, by decide, by decide⟩
  · simp [writeEntry, keyOf]

/-- The scanner with this write in its stream. -/
def writtenChecker : Checker :=
  { Checker.opened [] still.memory with writer := ⟨0x1008, [(0x1000, 0x2c)]⟩ }

/-- A scanner over no areas starts. -/
theorem still_started :
    Checker.start .usual [] still.during = some (Checker.opened [] still.memory) := by
  have reached : ∀ place < ([] : List ObserverArea).length,
      ∀ request ∈ Checker.firstAsked [] place, Stdio.usual.seekable request.1 = true := by
    intro place inside
    exact absurd inside (Nat.not_lt_zero place)
  simp only [Checker.start, Checker.serve, if_pos reached]
  rfl

/-- The letters in front of the script are passed over. -/
theorem newline_passes : ∀ letter ∈ ['\n'], keyOf letter = .passes := by simp [keyOf]

/-- Every command of the sample has the numbers it needs. -/
theorem writeScript_proper : ∀ entry ∈ [writeEntry], entry.Proper := by
  intro entry inside
  rw [List.mem_singleton.mp inside]
  exact writeEntry_proper

/-- The turn of the sample leaves its word in the stream. -/
theorem writeScript_runs :
    after (Checker.advance .usual) (some (Checker.opened [] still.memory))
      (turns (fun _ => still) 0 [writeEntry]) = some writtenChecker := by
  have words : (⟨[], ['0', 'x'], ['1', '0', '0', '0']⟩ : Numeral).word = 0x1000 ∧
      (⟨[], [], ['2', 'c']⟩ : Numeral).word = 0x2c := by decide +kernel
  have completes : Streams.Writer.Completes Stdio.usual.seekable
      ((Checker.opened [] still.memory).memory, (Checker.opened [] still.memory).writer) []
      ((0x1000, 0x2c) : Streams.Chunk 64 8) := by
    rw [Streams.Writer.completes_one]
    exact ⟨fun word kept => (nomatch kept), rfl⟩
  have put := DelayedWrites.put_eq .usual (Checker.opened [] still.memory) [] (0x1000, 0x2c)
  rw [if_pos completes] at put
  have stepped : (Checker.opened [] still.memory).step .usual (writeEntry.order.turn still) =
      some writtenChecker := by
    show (Checker.opened [] still.memory).step .usual (.write _ _) = _
    rw [words.1, words.2]
    exact put
  show after (Checker.advance .usual) ((Checker.opened [] still.memory).step .usual
    (writeEntry.order.turn still)) [] = _
  rw [stepped]
  rfl

/-- **Scripts are read back.** Whatever is passed over in front, and whatever the tracee does and
the variables held before, the scanner does the turns of a script in order; it fails where one of
them does, and else it ends behind the script, at a letter that ends it or never. -/
theorem script_runs (stdio : Stdio) (circumstances : Nat → Circumstance) (checker : Checker)
    {lead : Text} (passed : ∀ letter ∈ lead, keyOf letter = .passes)
    {script : List Entry} (proper : ∀ entry ∈ script, entry.Proper)
    (close : Option (Char × Text)) (ends : ∀ letter unread, close = some (letter, unread) →
      keyOf letter = .quits) :
    (∀ last, after (Checker.advance stdio) (some checker) (turns circumstances 0 script) =
        some last →
      Typed.commands stdio circumstances 0 checker
        (lead ++ (script.flatMap Entry.text ++ closing close)) = closed last close) ∧
    (after (Checker.advance stdio) (some checker) (turns circumstances 0 script) = none →
      ∃ found turn, Typed.commands stdio circumstances 0 checker
        (lead ++ (script.flatMap Entry.text ++ closing close)) = .failed found turn) := by
  constructor
  · intro last reached
    exact commands_closed passed proper ends reached
  · intro ended
    rw [commands_passes passed]
    exact (commands_script proper (closing close)).2 ended

/-- The sample is read as its write and ends at `Q`. -/
theorem script_runs_write :
    Typed.commands .usual (fun _ => still) 0 (Checker.opened [] still.memory)
      (['\n'] ++ ([writeEntry].flatMap Entry.text ++ ['Q', '!'])) =
    .quit writtenChecker ['!'] := by
  have ends : ∀ letter unread, some ('Q', ['!']) = some (letter, unread) →
      keyOf letter = .quits := by
    intro letter unread same
    cases same
    decide
  apply (script_runs .usual (fun _ => still) (Checker.opened [] still.memory) newline_passes
    writeScript_proper (some ('Q', ['!'])) ends).1
  exact writeScript_runs

end A64dbg.TypedScripts
