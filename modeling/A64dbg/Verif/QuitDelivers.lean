import A64dbg.Verif.TypedScripts

/-!
# Writes that arrive at the end

Each command of the scanner leaves its last word in the stream, but no word is lost. As long as the
tracee does not write itself, the memory with what the stream keeps is, after any turns, the memory
at the start with the words of all turns written in order, and `exit` writes out what the stream
keeps. So the stream makes no difference to a script that ends with a `q`: `exit_plain`.
-/

namespace A64dbg.QuitDelivers

open ByteMemory Streams Runs TypedScripts

/-- In a turn the tracee does not write. -/
def Still (state : Option Checker) (turn : Turn) : Prop :=
  ∀ checker ∈ state, match turn with
    | .tracee memory => memory = checker.memory
    | .observe _ during | .check _ during => ∀ moment, (during moment).file = checker.memory
    | .write _ _ | .restore => True

/-- The words that the turns of a run give to `proc_mem_write`, oldest first. -/
def wordsOf (stdio : Stdio) : Option Checker → List Turn → List (Chunk 64 8)
  | _, [] => []
  | state, turn :: rest =>
    state.elim [] (fun checker => checker.written turn) ++
      wordsOf stdio (Checker.advance stdio state turn) rest

/-- Some words were given to the stream since the memory was as at the start. -/
structure Settles (start : Memory) (words : List (Chunk 64 8)) (checker : Checker) : Prop where
  /-- The memory with what the stream keeps is that of the start with the words. -/
  settled : storeAll checker.memory checker.writer.pending = storeAll start words
  /-- The same addresses are there. -/
  mapped : ∀ base size, Mapped checker.memory base size ↔ Mapped start base size
  /-- The stream keeps none but the words. -/
  kept : ∀ word ∈ checker.writer.pending, word ∈ words

variable {stdio : Stdio} {start : Memory} {words : List (Chunk 64 8)} {checker next : Checker}

/-- The memory and the writing stream are all that matters. -/
theorem Settles.congr (settles : Settles start words checker)
    (memory : next.memory = checker.memory) (writer : next.writer = checker.writer) :
    Settles start words next := by
  constructor
  · rw [memory, writer]
    exact settles.settled
  · rw [memory]
    exact settles.mapped
  · rw [writer]
    exact settles.kept

/-- Requests of a tracee that does not write settle the words that were pending. -/
theorem Settles.serve (settles : Settles start words checker) {during : Nat → Moment 64}
    {asked : Nat → Option (Word × Nat)} {count : Nat}
    (still : ∀ moment, (during moment).file = checker.memory)
    (served : checker.serve stdio during asked count = some next) : Settles start words next := by
  unfold Checker.serve at served
  split at served
  · cases served
    exact settles.congr (still count) rfl
  · cases served

/-- Words given to the stream are settled behind those before them. -/
theorem Settles.put (settles : Settles start words checker) {more : List (Chunk 64 8)}
    (put : checker.put stdio more = some next) : Settles start (words ++ more) next := by
  rcases List.eq_nil_or_concat' more with rfl | ⟨early, last, rfl⟩
  · cases put
    rw [List.append_nil]
    exact settles.congr rfl rfl
  · rw [DelayedWrites.put_eq] at put
    split at put
    · next completes =>
      cases put
      constructor
      · have before := settles.settled
        simp only [storeAll, List.foldl_append] at before ⊢
        rw [before]
      · intro base size
        exact (mapped_storeAll completes.1 base size).trans (settles.mapped base size)
      · intro word inside
        rw [List.mem_singleton.mp inside]
        simp
    · cases put

/-- **A turn settles the words it writes.** -/
theorem Settles.step (settles : Settles start words checker) {turn : Turn}
    (still : Still (some checker) turn) (stepped : checker.step stdio turn = some next) :
    Settles start (words ++ checker.written turn) next := by
  have quiet := still checker rfl
  cases turn with
  | tracee memory =>
    cases stepped
    rw [Checker.written, List.append_nil]
    exact settles.congr quiet rfl
  | write writeAddress writeValue => exact settles.put stepped
  | restore => exact settles.put stepped
  | observe stack during =>
    rw [Checker.written, List.append_nil]
    exact settles.serve quiet stepped
  | check mode during =>
    obtain ⟨served, serves, rest⟩ := Option.bind_eq_some_iff.mp stepped
    obtain ⟨scanner, -, left⟩ := Option.bind_eq_some_iff.mp rest
    cases left
    rw [Checker.written, List.append_nil]
    have reads : Settles start words served := settles.serve quiet serves
    exact reads.congr rfl rfl

/-- **A run settles the words it writes.** -/
theorem Settles.run (settles : Settles start words checker) {run : List Turn} {last : Checker}
    (still : Along (Checker.advance stdio) Still (some checker) run)
    (reached : after (Checker.advance stdio) (some checker) run = some last) :
    Settles start (words ++ wordsOf stdio (some checker) run) last := by
  induction run generalizing checker words with
  | nil =>
    cases reached
    rw [wordsOf, List.append_nil]
    exact settles
  | cons turn rest ih =>
    obtain ⟨here, later⟩ := still
    have one : Checker.advance stdio (some checker) turn = checker.step stdio turn := rfl
    rw [after_cons, one] at reached
    rw [one] at later
    rw [wordsOf, one, ← List.append_assoc]
    cases stepped : checker.step stdio turn with
    | none =>
      rw [stepped, Checker.after_none] at reached
      cases reached
    | some next =>
      rw [stepped] at reached later
      exact ih (settles.step here stepped) later reached

/-- At the end the words are written, where their addresses are there. -/
theorem Settles.exit (settles : Settles start words checker)
    (there : ∀ word ∈ words, Mapped start word.1 8) : checker.exit = storeAll start words := by
  have kept : ∀ word ∈ checker.writer.pending, Mapped checker.memory word.1 8 := by
    intro word inside
    exact (settles.mapped word.1 8).mpr (there word (settles.kept word inside))
  rw [Checker.exit, writeOut_all kept]
  exact settles.settled

/-- The scanner starts with nothing in its stream. -/
theorem start_settles {areas : List ObserverArea} {first : Nat → Moment 64}
    (started : Checker.start stdio areas first = some checker) :
    Settles checker.memory [] checker := by
  obtain ⟨served, serves, left⟩ := Option.bind_eq_some_iff.mp started
  have none : checker.writer.pending = [] := by
    cases left
    unfold Checker.serve at serves
    split at serves
    · cases serves
      rfl
    · cases serves
  constructor
  · rw [none]
  · exact fun base size => Iff.rfl
  · rw [none]
    exact fun word inside => inside

/-- **The stream makes no difference in the end.** When the tracee does not write, a script whose
commands return and that ends the scanner leaves the memory that its words leave when each is
written at once, in order, if their addresses are there. -/
theorem exit_plain {areas : List ObserverArea} {first : Nat → Moment 64}
    (circumstances : Nat → Circumstance) {last : Checker}
    (started : Checker.start stdio areas first = some checker) {lead : Text}
    (passed : ∀ letter ∈ lead, keyOf letter = .passes)
    {script : List Entry} (proper : ∀ entry ∈ script, entry.Proper) {letter : Char}
    (quits : keyOf letter = .quits) (unread : Text)
    (still : Along (Checker.advance stdio) Still (some checker) (turns circumstances 0 script))
    (reached : after (Checker.advance stdio) (some checker) (turns circumstances 0 script) =
      some last)
    (there : ∀ word ∈ wordsOf stdio (some checker) (turns circumstances 0 script),
      Mapped checker.memory word.1 8) :
    Typed.runMemChecking stdio areas first circumstances
        (lead ++ (script.flatMap Entry.text ++ letter :: unread)) = some (.quit last unread) ∧
      last.exit =
        storeAll checker.memory (wordsOf stdio (some checker) (turns circumstances 0 script)) := by
  constructor
  · have ends : ∀ other more, some (letter, unread) = some (other, more) →
        keyOf other = .quits := by
      intro other more same
      cases same
      exact quits
    rw [Typed.runMemChecking, started, Option.map_some]
    exact congrArg some (commands_closed passed proper ends reached)
  · have settles := (start_settles started).run still reached
    rw [List.nil_append] at settles
    exact settles.exit there

/-- A write of 0x2c over zeros has arrived when the scanner has ended. -/
theorem exit_plain_write :
    Typed.runMemChecking .usual [] TypedScripts.still.during (fun _ => TypedScripts.still)
        (['\n'] ++ ([writeEntry].flatMap Entry.text ++ ['Q', '!'])) =
      some (.quit writtenChecker ['!']) ∧
    writtenChecker.exit =
      storeAll TypedScripts.still.memory [((0x1000, 0x2c) : Chunk 64 8)] := by
  have words : (⟨[], ['0', 'x'], ['1', '0', '0', '0']⟩ : TypedWrites.Numeral).word = 0x1000 ∧
      (⟨[], [], ['2', 'c']⟩ : TypedWrites.Numeral).word = 0x2c := by decide +kernel
  have written : wordsOf .usual (some (Checker.opened [] TypedScripts.still.memory))
      (turns (fun _ => TypedScripts.still) 0 [writeEntry]) = [(0x1000, 0x2c)] := by
    show [(_, _)] = _
    rw [words.1, words.2]
  have there : Mapped TypedScripts.still.memory 0x1000 8 := by decide
  have plain := exit_plain (fun _ => TypedScripts.still) still_started newline_passes
    writeScript_proper (by decide : keyOf 'Q' = .quits) ['!'] ?_ writeScript_runs ?_
  · rw [written] at plain
    exact plain
  · refine ⟨?_, ?_, trivial⟩
    · rintro checker ⟨⟩
      rfl
    · intro checker _
      trivial
  · rw [written]
    intro word inside
    rw [List.mem_singleton.mp inside]
    exact there

end A64dbg.QuitDelivers
