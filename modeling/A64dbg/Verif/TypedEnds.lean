import A64dbg.Verif.HitTable
import A64dbg.Verif.LiveBuffers
import A64dbg.Verif.TypedScripts

/-!
# How the scanner ends

Over every input, `readUserInput` and `scanf` together go through the letters from the front, and
none of them passes a `q`. `typed_ends` says what follows for the scanner: it ends at the first `q`
or `Q` of the input, wherever that stands, or asks for ever if there is none, unless a command fails
before; and a command fails only because a stream cannot be sought or cannot write out what it
keeps, never by a buffer of an area. Whatever the end, the areas that are valid have their buffers.
-/

namespace A64dbg.TypedEnds

open ByteMemory Streams Runs LiveBuffers

/-- No letter of a text ends the scanner. -/
def Unquit (text : Text) : Prop := ∀ letter ∈ text, keyOf letter ≠ .quits

/-- The scanner has this state after some turns. -/
def Reached (stdio : Stdio) (areas : List ObserverArea) (first : Nat → Moment 64)
    (checker : Checker) : Prop :=
  ∃ run, after (Checker.advance stdio) (Checker.start stdio areas first) run = some checker

/-- A stream fails in a turn: an address cannot be sought, or a word kept cannot be written out. -/
def StreamFails (stdio : Stdio) (checker : Checker) (turn : Turn) : Prop :=
  (∃ place, ∃ request ∈ checker.asked turn place, stdio.seekable request.1 = false) ∨
  (∃ word ∈ checker.written turn, stdio.seekable word.1 = false) ∨
  ∃ word ∈ checker.writer.pending ++ checker.written turn, ¬Mapped checker.memory word.1 8

/-- The valid areas of a scanner have their buffers. -/
def Kept (checker : Checker) : Prop :=
  ∀ area ∈ checker.scanner.obsList, area.invalid = false → Alive area

/-- How an input may end the scanner. -/
def Ends (stdio : Stdio) (areas : List ObserverArea) (first : Nat → Moment 64) (input : Text) :
    Ended → Prop
  | .quit last unread => Reached stdio areas first last ∧ Kept last ∧ ∃ before letter,
      input = before ++ letter :: unread ∧ Unquit before ∧ keyOf letter = .quits
  | .ever last => Reached stdio areas first last ∧ Kept last ∧ Unquit input
  | .failed found turn => Reached stdio areas first found ∧ Kept found ∧
      StreamFails stdio found turn

/-- Only `q` and `Q` end the scanner. -/
theorem quits_iff (letter : Char) : keyOf letter = .quits ↔ letter = 'q' ∨ letter = 'Q' := by
  constructor
  · intro quits
    by_contra other
    unfold keyOf at quits
    split_ifs at quits
  · rintro (rfl | rfl)
    · decide
    · decide

/-- Two texts without a `q` are one text without it. -/
theorem unquit_append {front back : Text} (first : Unquit front) (second : Unquit back) :
    Unquit (front ++ back) := by
  intro letter inside
  rcases List.mem_append.mp inside with left | right
  · exact first letter left
  · exact second letter right

/-- Letters of a kind that neither `q` nor `Q` is of. -/
theorem unquit_of {kind : Char → Bool} (apart : kind 'q' = false ∧ kind 'Q' = false) {text : Text}
    (all : ∀ letter ∈ text, kind letter = true) : Unquit text := by
  intro letter inside quits
  have here := all letter inside
  rcases (quits_iff letter).mp quits with small | large
  · rw [small, apart.1] at here
    cases here
  · rw [large, apart.2] at here
    cases here

/-- **A conversion takes no `q`.** -/
theorem scanHex_taken (input : Text) :
    ∃ taken, input = taken ++ (scanHex input).2 ∧ Unquit taken := by
  obtain ⟨sign, signs, unsigned, -⟩ := TypedWrites.takeSign_parts (input.dropWhile isSpace)
  obtain ⟨mark, marks, subject, -⟩ :=
    TypedWrites.takeHexMark_parts (takeSign (input.dropWhile isSpace)).2
  let digits := (takeHexMark (takeSign (input.dropWhile isSpace)).2).takeWhile (isDigitOf 16)
  have rest : takeHexMark (takeSign (input.dropWhile isSpace)).2 = digits ++ (scanHex input).2 :=
    List.takeWhile_append_dropWhile.symm
  have spaces : Unquit (input.takeWhile isSpace) :=
    unquit_of (by decide) fun letter inside => List.mem_takeWhile_imp inside
  have number : Unquit digits :=
    unquit_of (by decide) fun letter inside => List.mem_takeWhile_imp inside
  have plain : Unquit sign ∧ Unquit mark := by
    constructor
    · rcases signs with rfl | rfl | rfl <;> simp [Unquit, keyOf]
    · rcases marks with rfl | rfl | rfl <;> simp [Unquit, keyOf]
  refine ⟨input.takeWhile isSpace ++ (sign ++ (mark ++ digits)), ?_, ?_⟩
  · rw [List.append_assoc, List.append_assoc, List.append_assoc, ← rest, ← subject, ← unsigned,
      List.takeWhile_append_dropWhile]
  · exact unquit_append spaces (unquit_append plain.1 (unquit_append plain.2 number))

/-- A turn takes letters from the front of the input, and no `q`. -/
theorem turn_taken (circumstance : Circumstance) (unread : Text) (asked : UserInput) :
    ∃ taken, unread = taken ++ (Typed.turn circumstance unread asked).2 ∧ Unquit taken := by
  have nothing : Unquit [] := fun letter inside => (nomatch inside)
  cases asked with
  | check mode => exact ⟨[], rfl, nothing⟩
  | restore => exact ⟨[], rfl, nothing⟩
  | observe => exact ⟨[], rfl, nothing⟩
  | write =>
    show ∃ taken, unread = taken ++ (scanf unread _ _).unread ∧ Unquit taken
    obtain ⟨first, front, clean⟩ := scanHex_taken unread
    unfold scanf
    split
    · next rest failed =>
      rw [failed] at front
      exact ⟨first, front, clean⟩
    · next address rest stored =>
      rw [stored] at front
      obtain ⟨second, back, later⟩ := scanHex_taken (rest.dropWhile isSpace)
      have spaces : Unquit (rest.takeWhile isSpace) :=
        unquit_of (by decide) fun letter inside => List.mem_takeWhile_imp inside
      have whole : rest = rest.takeWhile isSpace ++
          (second ++ (scanHex (rest.dropWhile isSpace)).2) := by
        rw [← back, List.takeWhile_append_dropWhile]
      refine ⟨first ++ (rest.takeWhile isSpace ++ second), ?_,
        unquit_append clean (unquit_append spaces later)⟩
      have left : unread = first ++ (rest.takeWhile isSpace ++ second) ++
          (scanHex (rest.dropWhile isSpace)).2 := by
        rw [List.append_assoc, List.append_assoc, ← whole]
        exact front
      split
      · next unread' failed =>
        rw [failed] at left
        exact left
      · next value unread' converted =>
        rw [converted] at left
        exact left

/-- `readUserInput` takes letters up to a command, and no `q` before it. -/
theorem readUserInput_taken (input : Text) :
    match Typed.readUserInput input with
    | .ever => Unquit input
    | .quit unread => ∃ before letter, input = before ++ letter :: unread ∧ Unquit before ∧
        keyOf letter = .quits
    | .returned _ unread => ∃ taken, input = taken ++ unread ∧ Unquit taken := by
  induction input with
  | nil => exact fun letter inside => (nomatch inside)
  | cons letter rest ih =>
    have one (plain : keyOf letter ≠ .quits) : Unquit [letter] := by
      intro other inside
      rw [List.mem_singleton.mp inside]
      exact plain
    rw [Typed.readUserInput]
    cases key : keyOf letter with
    | returns asked => exact ⟨[letter], rfl, one (by simp [key])⟩
    | quits => exact ⟨[], letter, rfl, fun letter inside => (nomatch inside), key⟩
    | passes =>
      have front : Unquit [letter] := one (by simp [key])
      show match Typed.readUserInput rest with
        | .ever => _
        | .quit unread => _
        | .returned _ unread => _
      cases heard : Typed.readUserInput rest with
      | ever =>
        rw [heard] at ih
        exact unquit_append front ih
      | quit unread =>
        rw [heard] at ih
        obtain ⟨before, quit, shape, clean, quits⟩ := ih
        exact ⟨letter :: before, quit, by rw [shape]; rfl, unquit_append front clean, quits⟩
      | returned asked unread =>
        rw [heard] at ih
        obtain ⟨taken, shape, clean⟩ := ih
        exact ⟨letter :: taken, by rw [shape]; rfl, unquit_append front clean⟩

section Reached

variable {stdio : Stdio} {areas : List ObserverArea} {first : Nat → Moment 64} {checker : Checker}

/-- A turn leads from a reached state to a reached one. -/
theorem Reached.next {turn : Turn} {next : Checker} (reached : Reached stdio areas first checker)
    (stepped : checker.step stdio turn = some next) : Reached stdio areas first next := by
  obtain ⟨run, same⟩ := reached
  refine ⟨run ++ [turn], ?_⟩
  rw [after_append, same]
  exact stepped

/-- Whatever is asked for, no operation fails, and the valid areas have their buffers. -/
theorem runMemChecking_alive (reads : Nat → AreaRead) (operations : List Operation) :
    ∃ scanner, runMemChecking reads areas operations = some scanner ∧
      ∀ area ∈ scanner.obsList, area.invalid = false → Alive area := by
  obtain ⟨scanner, rounds, settled, -⟩ := @Scan.scanRounds_spec
    (HitTable.contentsOf reads operations) (HitTable.modesOf operations) areas
    (HitTable.rounds operations).length
  exact ⟨scanner, (HitTable.runMemChecking_eq reads areas operations).trans rounds,
    settled_alive settled⟩

/-- A round of a scanner that is reached does not fail. -/
theorem Reached.checks (reached : Reached stdio areas first checker) (mode : Mode)
    (reads : Nat → AreaRead) : ∃ scanner, checkForChanges mode reads checker.scanner =
      some scanner := by
  obtain ⟨run, same⟩ := reached
  obtain ⟨operations, ran⟩ := Checker.run_scanner same
  obtain ⟨scanner, more, -⟩ := @runMemChecking_alive areas
    (Checker.areaReads none first (Checker.firstAsked areas)) (operations ++ [.check mode reads])
  rw [HitTable.runMemChecking_append, ran] at more
  exact ⟨scanner, more⟩

/-- The valid areas of a scanner that is reached have their buffers. -/
theorem Reached.kept (reached : Reached stdio areas first checker) : Kept checker := by
  obtain ⟨run, same⟩ := reached
  obtain ⟨operations, ran⟩ := Checker.run_scanner same
  obtain ⟨scanner, whole, alive⟩ := @runMemChecking_alive areas
    (Checker.areaReads none first (Checker.firstAsked areas)) operations
  rw [ran, Option.some.injEq] at whole
  rw [Kept, whole]
  exact alive

/-- Requests are not served only where the stream cannot be positioned. -/
theorem serve_fails {during : Nat → Moment 64} {asked : Nat → Option (Word × Nat)} {count : Nat}
    (failed : checker.serve stdio during asked count = none) :
    ∃ place, ∃ request ∈ asked place, stdio.seekable request.1 = false := by
  unfold Checker.serve at failed
  split at failed
  · cases failed
  · next refused =>
    push Not at refused
    obtain ⟨place, -, request, here, sought⟩ := refused
    exact ⟨place, request, here, by simpa using sought⟩

/-- Words are not taken only where the stream cannot be positioned or write. -/
theorem put_fails {words : List (Chunk 64 8)} (failed : checker.put stdio words = none) :
    (∃ word ∈ words, stdio.seekable word.1 = false) ∨
      ∃ word ∈ checker.writer.pending ++ words, ¬Mapped checker.memory word.1 8 := by
  rw [Checker.put, Option.map_eq_none_iff] at failed
  rcases List.eq_nil_or_concat' words with rfl | ⟨early, last, rfl⟩
  · cases failed
  · rw [Writer.putAll_eq stdio.room] at failed
    by_contra fine
    push Not at fine
    obtain ⟨sought, there⟩ := fine
    refine absurd failed ?_
    rw [if_pos]
    · exact Option.some_ne_none _
    · refine ⟨fun word inside => there word ?_, fun word inside => ?_, ?_⟩
      · rw [← List.append_assoc]
        exact List.mem_append_left _ inside
      · simpa using sought word (List.mem_append_left _ inside)
      · simpa using sought last (List.mem_append_right _ (List.mem_singleton_self _))

/-- **A turn fails only where the stream does.** -/
theorem step_fails (reached : Reached stdio areas first checker) {turn : Turn}
    (failed : checker.step stdio turn = none) : StreamFails stdio checker turn := by
  cases turn with
  | tracee memory => cases failed
  | write writeAddress writeValue => exact Or.inr (put_fails failed)
  | restore => exact Or.inr (put_fails failed)
  | observe stack during => exact Or.inl (serve_fails failed)
  | check mode during =>
    cases served : checker.serve stdio during (checker.asked (.check mode during))
      checker.scanner.obsList.length with
    | none => exact Or.inl (serve_fails served)
    | some next =>
      obtain ⟨scanner, checked⟩ := reached.checks mode
        (Checker.areaReads checker.reader during (checker.asked (.check mode during)))
      simp only [Checker.step, served, checked, Option.bind_eq_bind, Option.bind_some,
        Option.pure_def] at failed
      cases failed

/-- How the loop ends from a scanner that is reached. -/
theorem commands_ends (circumstances : Nat → Circumstance) (command : Nat) (input : Text)
    (reached : Reached stdio areas first checker) :
    Ends stdio areas first input
      (Typed.commands stdio circumstances command checker input) := by
  induction size : input.length using Nat.strong_induction_on
    generalizing input command checker with
  | _ total ih =>
    have taken := readUserInput_taken input
    rw [TypedScripts.commands_eq]
    cases heard : Typed.readUserInput input with
    | ever =>
      rw [heard] at taken
      exact ⟨reached, reached.kept, taken⟩
    | quit unread =>
      rw [heard] at taken
      exact ⟨reached, reached.kept, taken⟩
    | returned asked unread =>
      rw [heard] at taken
      obtain ⟨front, shape, clean⟩ := taken
      obtain ⟨operands, rest, plain⟩ := turn_taken (circumstances command) unread asked
      have under : Reached stdio areas first (checker.under (circumstances command)) :=
        reached.next (show checker.step stdio (.tracee (circumstances command).memory) = _ from rfl)
      dsimp only
      cases stepped : (checker.under (circumstances command)).step stdio
        (Typed.turn (circumstances command) unread asked).1 with
      | none => exact ⟨under, under.kept, step_fails under stepped⟩
      | some next =>
        let left := (Typed.turn (circumstances command) unread asked).2
        have fewer : left.length < total := by
          rw [← size]
          exact Nat.lt_of_le_of_lt (Typed.turn_shorter _ _ _) (Typed.readUserInput_shorter heard)
        have later := ih left.length fewer (command + 1) left (under.next stepped) rfl
        have whole : input = front ++ operands ++ left := by
          rw [List.append_assoc, ← rest]
          exact shape
        have passed : Unquit (front ++ operands) := unquit_append clean plain
        show Ends stdio areas first input
          (Typed.commands stdio circumstances (command + 1) next left)
        cases ended : Typed.commands stdio circumstances (command + 1) next left with
        | failed found turn =>
          rw [ended] at later
          exact later
        | ever last =>
          rw [ended] at later
          refine ⟨later.1, later.2.1, ?_⟩
          rw [whole]
          exact unquit_append passed later.2.2
        | quit last unread =>
          rw [ended] at later
          obtain ⟨there, kept, before, letter, behind, free, quits⟩ := later
          refine ⟨there, kept, front ++ operands ++ before, letter, ?_,
            unquit_append passed free, quits⟩
          rw [whole, behind]
          simp only [List.append_assoc]

end Reached

/-- **How the scanner ends.** For every input, whatever the tracee does and whatever the variables
of a command hold: the scanner ends at the first letter of the input that ends it or asks for ever
where there is none, unless a stream fails before, and the areas that are valid then have their
buffers. -/
theorem typed_ends (stdio : Stdio) (areas : List ObserverArea) (first : Nat → Moment 64)
    (circumstances : Nat → Circumstance) (input : Text) :
    ∀ ended ∈ Typed.runMemChecking stdio areas first circumstances input,
      Ends stdio areas first input ended := by
  intro ended runs
  obtain ⟨checker, started, rfl⟩ := Option.map_eq_some_iff.mp runs
  exact commands_ends circumstances 0 input ⟨[], started⟩

/-- A scanner over no areas passes over an `x` and ends at the `q`. -/
theorem typed_ends_once :
    Ends .usual [] TypedScripts.still.during ['x', 'q', 'c']
      (.quit (Checker.opened [] TypedScripts.still.memory) ['c']) := by
  apply typed_ends .usual [] _ (fun _ => TypedScripts.still)
  have heard : Typed.readUserInput ['x', 'q', 'c'] = .quit ['c'] := by decide
  rw [Typed.runMemChecking, TypedScripts.still_started, Option.map_some, TypedScripts.commands_eq,
    heard]
  rfl

end A64dbg.TypedEnds
