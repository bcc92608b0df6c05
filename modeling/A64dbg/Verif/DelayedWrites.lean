import A64dbg.Library.Runs
import A64dbg.MemStreams

/-!
# Writes that arrive late

Each `fwrite` to `proc_mem_write` follows a seek, and it is the next seek that writes the word out.
So when `writeMemory` or `restoreMemory` returns, the stream still keeps the last word, which
reaches the tracee at the first write of a later command. `delivered_iff` says exactly when the
memory of the tracee has every word written all the same: in each command that returns, the words
do not contradict each other, and the bytes of the last one were in the memory already.
-/

namespace A64dbg.DelayedWrites

open ByteMemory Streams Runs

/-- When a turn returns, the memory of the tracee holds every word it wrote. -/
def Delivered (stdio : Stdio) (state : Option Checker) (turn : Turn) : Prop :=
  ∀ checker ∈ state, ∀ next ∈ checker.step stdio turn, ∀ word ∈ checker.written turn,
    Holds next.memory word.1 8 word.2

/-- When a turn can write out what it has to, its words agree with each other, and what the stream
kept before leaves the bytes of the last one that no earlier word has. -/
def InPlace (stdio : Stdio) (state : Option Checker) (turn : Turn) : Prop :=
  ∀ checker ∈ state, ∀ early last, checker.written turn = early ++ [last] →
    Writer.Completes stdio.seekable (checker.memory, checker.writer) early last →
      Consistent (early ++ [last]) ∧
        ∀ address byte, spells last address = some byte →
          (∀ word ∈ early, spells word address = none) →
            storeAll checker.memory checker.writer.pending address = some byte

/-- A turn that writes does no more than that. -/
theorem step_written {stdio : Stdio} {checker : Checker} {turn : Turn}
    (writes : checker.written turn ≠ []) :
    checker.step stdio turn = checker.put stdio (checker.written turn) := by
  cases turn with
  | write writeAddress writeValue => rfl
  | restore => rfl
  | tracee memory => exact absurd rfl writes
  | observe stack during => exact absurd rfl writes
  | check mode during => exact absurd rfl writes

/-- A turn that writes delivers all but its last word, or ends the scanner. -/
theorem put_eq (stdio : Stdio) (checker : Checker) (early : List (Chunk 64 8))
    (last : Chunk 64 8) :
    checker.put stdio (early ++ [last]) =
      if Writer.Completes stdio.seekable (checker.memory, checker.writer) early last then
        some { checker with
          memory := storeAll checker.memory (checker.writer.pending ++ early)
          writer := ⟨above last.1 8, [last]⟩ }
      else none := by
  rw [Checker.put, Writer.putAll_eq stdio.room]
  split
  · rfl
  · rfl

/-- The memory that a turn leaves holds the words it wrote exactly when they were in place. -/
theorem put_holds {stdio : Stdio} {checker : Checker} {early : List (Chunk 64 8)}
    {last : Chunk 64 8} :
    (∀ next ∈ checker.put stdio (early ++ [last]), ∀ word ∈ early ++ [last],
        Holds next.memory word.1 8 word.2) ↔
      (Writer.Completes stdio.seekable (checker.memory, checker.writer) early last →
        Consistent (early ++ [last]) ∧
          ∀ address byte, spells last address = some byte →
            (∀ word ∈ early, spells word address = none) →
              storeAll checker.memory checker.writer.pending address = some byte) := by
  have fits : 8 ≤ 2 ^ 64 := by decide
  have before : storeAll checker.memory (checker.writer.pending ++ early) =
      storeAll (storeAll checker.memory checker.writer.pending) early := List.foldl_append
  rw [put_eq, ← holds_all_iff fits, ← before]
  by_cases completes : Writer.Completes stdio.seekable (checker.memory, checker.writer) early last
  · rw [if_pos completes]
    simp only [Option.mem_some_iff, forall_eq', completes, true_implies]
  · rw [if_neg completes]
    constructor
    · intro _ reached
      exact absurd reached completes
    · intro _ next left
      cases left

/-- A turn leaves the words it writes exactly when they are in place. -/
theorem delivered_step (stdio : Stdio) (state : Option Checker) (turn : Turn) :
    Delivered stdio state turn ↔ InPlace stdio state turn := by
  apply forall₂_congr
  intro checker _
  rcases List.eq_nil_or_concat' (checker.written turn) with none | ⟨early, last, words⟩
  · rw [none]
    constructor
    · intro _ early last words
      exact absurd words.symm (by simp)
    · intro _ _ _ word inside
      cases inside
  · have writes : checker.written turn ≠ [] := by simp [words]
    rw [step_written writes, words, put_holds]
    constructor
    · intro holds early' last' same
      obtain ⟨rfl, rfl⟩ : early = early' ∧ last = last' := by simpa using List.append_inj' same rfl
      exact holds
    · intro inPlace
      exact inPlace early last rfl

/-- **When the writes of the scanner have arrived.** In every run from the start of the scanner,
whatever the tracee writes in between, each `writeMemory` and `restoreMemory` that returns has
left every word it wrote in the memory of the tracee exactly when each of them found its words in
place. -/
theorem delivered_iff (stdio : Stdio) (areas : List ObserverArea) (first : Nat → Moment 64)
    (run : List Turn) :
    Along (Checker.advance stdio) (Delivered stdio) (Checker.start stdio areas first) run ↔
      Along (Checker.advance stdio) (InPlace stdio) (Checker.start stdio areas first) run :=
  along_congr (delivered_step stdio) _ _

/-- Requests that find zeros everywhere. -/
def zeros (_ : Nat) : Moment 64 where
  file := fun _ => some 0
  keeps := true
  refill := (0, 0)

/-- The scanner over no areas and a tracee of zeros. -/
def idle : Checker where
  scanner := ⟨[], ⟨0, fun _ => none⟩⟩
  memory := fun _ => some 0
  reader := none
  writer := ⟨0, []⟩

/-- A write of 1 over a zero returns, and the memory of the tracee holds the zero. -/
theorem one_delayed :
    Checker.start .usual [] zeros = some idle ∧
    (∃ next, idle.step .usual (.write 0x1000 1) = some next ∧
      Holds next.memory 0x1000 8 (0 : Word)) ∧
    ¬Along (Checker.advance .usual) (Delivered .usual) (Checker.start .usual [] zeros)
      [.write 0x1000 1] := by
  have reached : ∀ place < ([] : List ObserverArea).length,
      ∀ request ∈ Checker.firstAsked [] place, Stdio.usual.seekable request.1 = true := by
    intro place inside
    exact absurd inside (Nat.not_lt_zero place)
  have started : Checker.start .usual [] zeros = some idle := by
    simp only [Checker.start, Checker.serve, if_pos reached]
    rfl
  have completes : Writer.Completes Stdio.usual.seekable (idle.memory, idle.writer) []
      ((0x1000, 1) : Chunk 64 8) := by
    rw [Writer.completes_one]
    exact ⟨fun word kept => (nomatch kept), rfl⟩
  have written : idle.step .usual (.write 0x1000 1) =
      some { idle with memory := idle.memory, writer := ⟨0x1008, [(0x1000, 1)]⟩ } := by
    have put := put_eq .usual idle [] (0x1000, 1)
    rw [if_pos completes] at put
    exact put
  have zero : Holds idle.memory 0x1000 8 (0 : Word) := by
    intro index _
    have zeroed : byteOf (0 : Word) index = 0 := by simp [byteOf]
    rw [zeroed]
    rfl
  refine ⟨started, ⟨_, written, zero⟩, ?_⟩
  rintro ⟨delivered, -⟩
  have one : Holds idle.memory 0x1000 8 (1 : Word) :=
    delivered idle started _ written (0x1000, 1) (List.mem_singleton_self _)
  have same : (0 : Word) = 1 := zero.unique one
  exact absurd same (by decide)

end A64dbg.DelayedWrites
