import A64dbg.SyscallStop
import A64dbg.Verif.SyscallPhase

/-!
# The index into the system call table

At each stop by signal 5 `syscallContinue` indexes a table of 292 entries with the whole of x8.
The test for a null name covers the entries the table leaves out; nothing covers the numbers past
its end, which a tracee reaches with any newer system call. `bounded_iff` says for every run at
which of its stops the lookup is in bounds, and that there a number without a name does nothing.
-/

namespace A64dbg.TableBounds

open Runs

variable {overrun : Word → Option String}

/-- The number a stop by signal 5 of `syscallContinue` shows, if the move is one. -/
def lookup : Move → List Word
  | .resume .syscallContin answer | .resume .straceMode answer =>
    (answer.trap.map Tracee.syscallNum).toList
  | _ => []

/-- The numbers that the stops of `syscallContinue` in a run show, in order. -/
def lookups (run : List Move) : List Word := run.flatMap lookup

/-- No entry of the table names the number. -/
def Unnamed (syscallNum : Word) : Prop :=
  ∀ name, aarch64Syscalls[syscallNum.toNat]? ≠ some (some name)

/-- The number is passed over, or the lookup is inside the table; and where no entry names it, it
is not passed over, is found to have no name, calls no plugin and leaves `syscall_enter` alone. -/
def Bounded (overrun : Word → Option String) (watch : Watch) (move : Move) : Prop :=
  ∀ syscallNum ∈ lookup move,
    (skipped syscallNum = true ∨ syscallNum.toNat < maxSyscallNum) ∧
    (Unnamed syscallNum → skipped syscallNum = false ∧ syscallName overrun syscallNum = none ∧
      (watch.step overrun move).session.recorder = watch.session.recorder)

/-- The numbers passed over have names in the table. -/
theorem skipped_named {syscallNum : Word} (passed : skipped syscallNum = true) :
    ∃ name, aarch64Syscalls[syscallNum.toNat]? = some (some name) := by
  simp only [skipped, Bool.or_eq_true, beq_iff_eq] at passed
  rcases passed with ((rfl | rfl) | rfl) | rfl
  · exact ⟨"futex", by decide +kernel⟩
  · exact ⟨"sched_yield", by decide +kernel⟩
  · exact ⟨"mprotect", by decide +kernel⟩
  · exact ⟨"madvise", by decide +kernel⟩

/-- A number inside the table that no entry names is found to have no name. -/
theorem syscallName_unnamed {syscallNum : Word} (inside : syscallNum.toNat < maxSyscallNum)
    (unnamed : Unnamed syscallNum) : syscallName overrun syscallNum = none := by
  have bound : syscallNum.toNat < aarch64Syscalls.length := by
    rw [aarch64Syscalls_length]
    exact inside
  have entry := List.getElem?_eq_getElem bound
  cases found : aarch64Syscalls[syscallNum.toNat] with
  | some name =>
    rw [found] at entry
    exact absurd entry (unnamed name)
  | none =>
    rw [found] at entry
    simp only [syscallName, entry]

/-- A stop of `syscallContinue` whose number is not traced changes neither the flag nor the
calls. -/
theorem recorder_untraced (watch : Watch) {command : ResumeCommand} {answer : Resume}
    {process : Tracee} (loop : command = .syscallContin ∨ command = .straceMode)
    (trap : answer.trap = some process)
    (untraced : tracedName overrun process.syscallNum = none) :
    (watch.step overrun (.resume command answer)).session.recorder = watch.session.recorder := by
  obtain ⟨status, rfl, trapped⟩ := Resume.trapped trap
  have pass (session : Session) :
      (session.syscallPass overrun (.waited status process)).1.recorder = session.recorder := by
    have same : (session.waited status process).syscallStop overrun =
        session.waited status process := syscallStop_untraced untraced
    simp only [syscallPass_eq, if_pos trapped, same]
    rfl
  rcases loop with rfl | rfl
  · exact pass watch.session
  · exact pass watch.session.straceOn

/-- A number is looked up at a stop by signal 5 of `syscallContinue`. -/
theorem lookup_stop {move : Move} {syscallNum : Word} (shown : syscallNum ∈ lookup move) :
    ∃ command answer process, move = .resume command answer ∧
      (command = .syscallContin ∨ command = .straceMode) ∧ answer.trap = some process ∧
      process.syscallNum = syscallNum := by
  have stopped {answer : Resume}
      (shown : syscallNum ∈ (answer.trap.map Tracee.syscallNum).toList) :
      ∃ process, answer.trap = some process ∧ process.syscallNum = syscallNum := by
    rw [Option.mem_toList, Option.map_eq_some_iff] at shown
    exact shown
  cases move with
  | setBreakPoint bpAddr => cases shown
  | setHwBreakPoint bpAddr bpNum => cases shown
  | rewrite memory => cases shown
  | resume command answer =>
    cases command with
    | next => cases shown
    | contin => cases shown
    | syscallContin =>
      obtain ⟨process, trap, number⟩ := stopped shown
      exact ⟨_, _, process, rfl, .inl rfl, trap, number⟩
    | straceMode =>
      obtain ⟨process, trap, number⟩ := stopped shown
      exact ⟨_, _, process, rfl, .inr rfl, trap, number⟩

/-- The lookups of one move are bounded exactly when their numbers are below 292. -/
theorem bounded_step (watch : Watch) (move : Move) :
    Bounded overrun watch move ↔ ∀ syscallNum ∈ lookup move, syscallNum < 292 := by
  have below (syscallNum : Word) : syscallNum < 292 ↔ syscallNum.toNat < maxSyscallNum := Iff.rfl
  constructor
  · intro bounded syscallNum shown
    rw [below]
    rcases (bounded syscallNum shown).1 with passed | inside
    · obtain ⟨name, entry⟩ := skipped_named passed
      exact inside_of_named entry
    · exact inside
  · intro inside syscallNum shown
    have bound := (below syscallNum).mp (inside syscallNum shown)
    refine ⟨.inr bound, fun unnamed => ?_⟩
    have reported : skipped syscallNum = false := by
      rw [← Bool.not_eq_true]
      intro passed
      obtain ⟨name, entry⟩ := skipped_named passed
      exact unnamed name entry
    have nameless : syscallName overrun syscallNum = none := syscallName_unnamed bound unnamed
    have untraced : tracedName overrun syscallNum = none := by
      rw [tracedName, reported, nameless]
      rfl
    obtain ⟨command, answer, process, rfl, loop, trap, rfl⟩ := lookup_stop shown
    exact ⟨reported, nameless, recorder_untraced watch loop trap untraced⟩

/-- **When the table lookup is in bounds.** In every run, over any tracee, every lookup of
`syscallContinue` is inside the table, and does nothing for a number without a name, exactly when
every number it looks up is below 292. -/
theorem bounded_iff (overrun : Word → Option String) (watch : Watch) (run : List Move) :
    Along (Watch.step overrun) (Bounded overrun) watch run ↔
      ∀ syscallNum ∈ lookups run, syscallNum < 292 := by
  induction run generalizing watch with
  | nil => exact iff_of_true trivial fun _ shown => (nomatch shown)
  | cons move rest ih =>
    have split : lookups (move :: rest) = lookup move ++ lookups rest := List.flatMap_cons
    rw [along_cons, bounded_step, ih, split, List.forall_mem_append]

/-- `clone3`, 435, is past the table: what lies there may be taken for a name, and a plugin is
called for it. -/
theorem clone3_overruns :
    ¬Along (Watch.step fun _ => some "clone3") (Bounded fun _ => some "clone3")
      ⟨SyscallPhase.atStart, fun _ => none⟩
      [.resume .syscallContin (.waited sigTrap (SyscallPhase.calling 435))] ∧
    (SyscallPhase.atStart.syscallPass (fun _ => some "clone3")
      (.waited sigTrap (SyscallPhase.calling 435))).1.calls = [.before "clone3"] := by
  constructor
  · intro bounded
    have shown : (435 : Word) ∈
        lookup (.resume .syscallContin (.waited sigTrap (SyscallPhase.calling 435))) := by
      decide +kernel
    rcases (bounded.1 435 shown).1 with passed | inside
    · exact absurd passed (by decide)
    · exact absurd inside (by decide)
  · decide +kernel

end A64dbg.TableBounds
