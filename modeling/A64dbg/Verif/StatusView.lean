import A64dbg.Main
import A64dbg.Watch

/-!
# The status the input loop tests

`main` goes on while the global `wait_status` is a stop. `Continue` and `syscallContinue` store
what `waitpid` reports there, NEXT stores the result of `doSingleStep`, and the injected system
calls keep the status of their step to themselves. `current_iff_stored` says for every sequence
of commands exactly when the global is the status reported last.
-/

namespace A64dbg.StatusView

open Runs

variable {host : Host}

/-- A session and the status `waitpid` reported last. -/
structure State where
  /-- The session. -/
  session : Session
  /-- The status. -/
  reported : WaitStatus

/-- A command issued, with its arguments and the answers of the kernel. -/
structure Issue where
  /-- The command. -/
  command : CmdType
  /-- The arguments the parser holds. -/
  args : List Text
  /-- The answers. -/
  answers : List Resume

/-- The status reported last, after an answer. -/
def report (reported : WaitStatus) : Resume → WaitStatus
  | .refused => reported
  | .waited status _ => status

/-- A command that returns takes the status through the answers it read. A command that waits
or ends the debugger is not followed by another. -/
def step (host : Host) (state : State) (issue : Issue) : State :=
  match issueCommand host state.session issue.args issue.answers issue.command with
  | .returned session unread =>
    ⟨session, (issue.answers.take (issue.answers.length - unread.length)).foldl report
      state.reported⟩
  | .waiting | .ended => state

/-- The global is the status reported last, so the loop of `main` goes on exactly after a stop. -/
def Current (state : State) : Prop :=
  state.session.debugger.waitStatus = state.reported ∧
  (state.session.stopped = true ↔ wIfStopped state.reported = true)

/-- The status reported last is not -1. -/
def Known (state : State) : Prop := state.reported ≠ -1

/-- The kernel reports no status -1. -/
def Reports (_ : State) (issue : Issue) : Prop :=
  ∀ status process, .waited status process ∈ issue.answers → status ≠ -1

/-- The first answer, if it reports a status, reports the one held already. -/
def SameStatus (session : Session) (answers : List Resume) : Prop :=
  ∀ status process rest, answers = .waited status process :: rest →
    status = session.debugger.waitStatus

/-- The single step of NEXT is not refused, and the one of an injected system call ends with the
status held already. -/
def Stored (state : State) (issue : Issue) : Prop :=
  match issue.command with
  | .next => ∀ rest, issue.answers ≠ .refused :: rest
  | .memMmap => SameStatus state.session issue.answers
  | .memMprotect => Handlers.mprotSteps state.session issue.args = true →
      SameStatus state.session issue.answers
  | _ => True

/-- The loop test follows from the status. -/
theorem current_iff (state : State) :
    Current state ↔ state.session.debugger.waitStatus = state.reported := by
  constructor
  · intro current
    exact current.1
  · intro same
    refine ⟨same, ?_⟩
    unfold Session.stopped
    rw [same]

/-- A command that resumes once knows the status of the stop it waits for. -/
theorem step_once {state : State} {issue : Issue} {command : Resume → Session}
    (once : issueCommand host state.session issue.args issue.answers issue.command =
      resumeOnce command issue.answers) :
    step host state issue =
      match issue.answers with
      | [] => state
      | answer :: _ => ⟨command answer, report state.reported answer⟩ := by
  unfold step
  rw [once]
  cases issue.answers with
  | nil => rfl
  | cons answer rest =>
    unfold resumeOnce
    dsimp only
    rw [List.length_cons, Nat.add_sub_cancel_left]
    rfl

/-- A command that returns without an answer leaves the status. -/
theorem step_idle {state : State} {issue : Issue} {session : Session}
    (idle : issueCommand host state.session issue.args issue.answers issue.command =
      .returned session issue.answers) : step host state issue = ⟨session, state.reported⟩ := by
  unfold step
  rw [idle]
  dsimp only
  rw [Nat.sub_self]
  rfl

/-- A command that does not resume the tracee keeps the status. -/
theorem current_without {state : State} (current : Current state) (issue : Issue)
    (handled : Option Session)
    (without : issueCommand host state.session issue.args issue.answers issue.command =
      withoutResume issue.answers handled)
    (kept : ∀ session, handled = some session →
      session.debugger.waitStatus = state.session.debugger.waitStatus) :
    Current (step host state issue) := by
  cases handled with
  | none =>
    unfold step
    rw [without]
    exact current
  | some session =>
    rw [step_idle without, current_iff]
    exact (kept session rfl).trans current.1

/-- A pass of the loop stores what `waitpid` reports. -/
theorem syscallPass_waitStatus (overrun : Word → Option String) (session : Session)
    (answer : Resume) :
    (session.syscallPass overrun answer).1.debugger.waitStatus =
      report session.debugger.waitStatus answer := by
  cases answer with
  | refused => rfl
  | waited status process =>
    exact syscallPass_keeps (fun debugger => debugger.waitStatus) (fun _ _ => rfl)
      (fun _ _ _ => rfl) session status process

/-- `syscallContinue` stores what `waitpid` reports at each of the answers it reads. -/
theorem syscallContinue_waitStatus (overrun : Word → Option String) (session : Session)
    (answers : List Resume) :
    ∃ used, answers = used ++ (session.syscallContinue overrun answers).2.1 ∧
      (session.syscallContinue overrun answers).1.debugger.waitStatus =
        used.foldl report session.debugger.waitStatus := by
  induction answers generalizing session with
  | nil => exact ⟨[], rfl, rfl⟩
  | cons answer rest ih =>
    have pass := syscallPass_waitStatus overrun session answer
    unfold Session.syscallContinue
    dsimp only
    split
    · obtain ⟨used, parts, stored⟩ := ih (session.syscallPass overrun answer).1
      refine ⟨answer :: used, ?_, ?_⟩
      · rw [List.cons_append, ← parts]
      · rw [stored, pass]
        rfl
    · exact ⟨[answer], rfl, pass⟩

/-- A system call command leaves the status reported last. -/
theorem current_syscall {state : State} (current : Current state) (issue : Issue)
    (session : Session)
    (same : session.debugger.waitStatus = state.session.debugger.waitStatus)
    (command : issueCommand host state.session issue.args issue.answers issue.command =
      syscallCommand host session issue.answers) : Current (step host state issue) := by
  obtain ⟨used, parts, stored⟩ := syscallContinue_waitStatus host.overrun session issue.answers
  unfold step
  rw [command]
  unfold syscallCommand
  dsimp only
  by_cases returned : (session.syscallContinue host.overrun issue.answers).2.2 = true
  · rw [if_pos returned]
    dsimp only
    have read : issue.answers.length -
        (session.syscallContinue host.overrun issue.answers).2.1.length = used.length := by
      have lengths := congrArg List.length parts
      rw [List.length_append] at lengths
      omega
    have front : issue.answers.take used.length = used := by
      conv_lhs => rw [parts]
      exact List.take_left
    rw [current_iff, read, front]
    dsimp only
    rw [stored, same, current.1]
  · rw [if_neg returned]
    exact current

/-- A command that resumes the tracee once must store what its answer reports. -/
theorem current_once {state : State} (current : Current state) (issue : Issue)
    (command : Resume → Session)
    (once : issueCommand host state.session issue.args issue.answers issue.command =
      resumeOnce command issue.answers) :
    Current (step host state issue) ↔ ∀ answer rest, issue.answers = answer :: rest →
      (command answer).debugger.waitStatus = report state.reported answer := by
  rw [step_once once]
  cases answers : issue.answers with
  | nil =>
    apply iff_of_true current
    intro answer rest more
    cases more
  | cons answer rest =>
    dsimp only
    rw [current_iff]
    constructor
    · intro stored other later same
      obtain ⟨rfl, -⟩ := List.cons.inj same
      exact stored
    · intro stored
      exact stored answer rest rfl

/-- A command that makes a single step and keeps its status to itself. -/
theorem current_silent {state : State} (current : Current state) (issue : Issue)
    (command : Resume → Session)
    (once : issueCommand host state.session issue.args issue.answers issue.command =
      resumeOnce command issue.answers)
    (kept : ∀ answer, (command answer).debugger.waitStatus = state.session.debugger.waitStatus) :
    Current (step host state issue) ↔ SameStatus state.session issue.answers := by
  rw [current_once current issue command once]
  constructor
  · intro stored status process rest answers
    have held := stored _ rest answers
    rw [kept] at held
    exact held.symm
  · intro same answer rest answers
    rw [kept]
    cases answer with
    | refused => exact current.1
    | waited status process => exact (same status process rest answers).symm

/-- NEXT leaves the status reported last unless its step is refused. -/
theorem current_next {state : State} {args : List Text} {answers : List Resume}
    (current : Current state) (known : Known state) :
    Current (step host state ⟨.next, args, answers⟩) ↔
      Stored state ⟨.next, args, answers⟩ := by
  rw [current_once current ⟨.next, args, answers⟩ state.session.next rfl]
  constructor
  · intro stored rest refused
    exact known (stored .refused rest refused).symm
  · intro resumed answer rest read
    cases answer with
    | refused => exact absurd read (resumed rest)
    | waited status process => rfl

/-- `Continue` leaves the status reported last. -/
theorem current_contin {state : State} {args : List Text} {answers : List Resume}
    (current : Current state) : Current (step host state ⟨.contin, args, answers⟩) := by
  apply (current_once current ⟨.contin, args, answers⟩ state.session.continue rfl).mpr
  intro answer rest _
  rw [continue_debugger]
  cases answer with
  | refused => exact current.1
  | waited status process => rfl

/-- A command that ended the debugger changes nothing here. -/
theorem step_ended {state : State} {issue : Issue}
    (ended : issueCommand host state.session issue.args issue.answers issue.command = .ended) :
    step host state issue = state := by
  unfold step
  rw [ended]

/-- A command that changed nothing keeps the status. -/
theorem current_idle {state : State} (current : Current state) (issue : Issue)
    (idle : issueCommand host state.session issue.args issue.answers issue.command =
        .returned state.session issue.answers ∨
      issueCommand host state.session issue.args issue.answers issue.command = .ended) :
    Current (step host state issue) := by
  rcases idle with returned | ended
  · rw [step_idle returned]
    exact current
  · rw [step_ended ended]
    exact current

/-- `mprotMem` keeps the status of its step to itself. -/
theorem current_mprot {state : State} {args : List Text} {answers : List Resume}
    (current : Current state) :
    Current (step host state ⟨.memMprotect, args, answers⟩) ↔
      Stored state ⟨.memMprotect, args, answers⟩ := by
  unfold Stored
  dsimp only
  rcases Handlers.mprotMem_cases state.session answers args with
    ⟨-, idle, ended⟩ | ⟨-, idle, returned⟩ | ⟨-, steps, memAddr, memSize, memProt, once⟩
  · rw [idle]
    exact iff_of_true (current_idle current ⟨.memMprotect, args, answers⟩ (.inr ended))
      fun steps => absurd steps Bool.false_ne_true
  · rw [idle]
    exact iff_of_true (current_idle current ⟨.memMprotect, args, answers⟩ (.inl returned))
      fun steps => absurd steps Bool.false_ne_true
  · rw [current_silent current ⟨.memMprotect, args, answers⟩ _ once fun _ => rfl]
    constructor
    · intro same _
      exact same
    · intro same
      exact same steps

/-- **One command.** It leaves the status reported last exactly when it stores what it waits
for. -/
theorem current_step {state : State} {issue : Issue} (known : Known state)
    (current : Current state) : Current (step host state issue) ↔ Stored state issue := by
  obtain ⟨command, args, answers⟩ := issue
  cases command with
  | next => exact current_next current known
  | memMmap => exact current_silent current ⟨.memMmap, args, answers⟩ _ rfl fun _ => rfl
  | memMprotect => exact current_mprot current
  | contin => exact iff_of_true (current_contin current) trivial
  | syscallContin =>
    exact iff_of_true
      (current_syscall current ⟨.syscallContin, args, answers⟩ state.session rfl rfl) trivial
  | straceMode =>
    exact iff_of_true
      (current_syscall current ⟨.straceMode, args, answers⟩ state.session.straceOn rfl rfl) trivial
  | setBreakpoint =>
    exact iff_of_true (current_without current ⟨.setBreakpoint, args, answers⟩ _ rfl
      fun _ => Handlers.setBreakPoint_keeps) trivial
  | setHwBreakpoint =>
    exact iff_of_true (current_without current ⟨.setHwBreakpoint, args, answers⟩ _ rfl
      fun _ => Handlers.setHwBreakPoint_keeps) trivial
  | readMemory =>
    apply iff_of_true _ trivial
    apply current_without current ⟨.readMemory, args, answers⟩ _ rfl
    intro session handled
    rw [Handlers.readTraceeMemory_keeps handled]
  | exit => exact iff_of_true (current_idle current ⟨.exit, args, answers⟩ (.inr rfl)) trivial
  | help => exact iff_of_true (current_idle current ⟨.help, args, answers⟩ (.inl rfl)) trivial
  | showRegs =>
    exact iff_of_true (current_idle current ⟨.showRegs, args, answers⟩ (.inl rfl)) trivial
  | none => exact iff_of_true (current_idle current ⟨.none, args, answers⟩ (.inl rfl)) trivial

/-- Reported statuses are not -1 when those of the answers are not. -/
theorem report_known {answers : List Resume} {reported : WaitStatus} (known : reported ≠ -1)
    (reports : ∀ status process, .waited status process ∈ answers → status ≠ -1) :
    answers.foldl report reported ≠ -1 := by
  induction answers generalizing reported with
  | nil => exact known
  | cons answer rest ih =>
    have later (status : WaitStatus) (process : Tracee) (member : .waited status process ∈ rest) :
        status ≠ -1 := reports status process (List.mem_cons_of_mem answer member)
    cases answer with
    | refused => exact ih known later
    | waited status process => exact ih (reports status process List.mem_cons_self) later

/-- A command keeps the status reported last known. -/
theorem known_step {state : State} {issue : Issue} (known : Known state)
    (reports : Reports state issue) : Known (step host state issue) := by
  unfold step
  split
  · apply report_known known
    intro status process member
    exact reports status process (List.mem_of_mem_take member)
  · exact known
  · exact known

/-- **When the debugger knows the status of its tracee.** In every sequence of commands, from a
status that `waitpid` reported, every command leaves the status reported last exactly when no
single step of NEXT is refused and every injected system call ends with the status held already. -/
theorem current_iff_stored {state : State} {issues : List Issue} (current : Current state)
    (known : Known state) (reports : Along (step host) Reports state issues) :
    Throughout (step host) Current state issues ↔ Along (step host) Stored state issues := by
  apply throughout_iff_along _ _ known current reports
  · intro reached issue known _ reports
    exact known_step known reports
  · intro reached issue known current _
    exact current_step known current

/-- A debugger at its prompt, its tracee just stopped. -/
def start : State where
  session := ⟨Debugger.initial, Tracee.stoppedAt nops 0, []⟩
  reported := sigTrap

/-- The sample knows the status of its tracee. -/
theorem start_current : Current start := ⟨rfl, Iff.rfl⟩

/-- A command during which the tracee exits. -/
def exitsIn (command : CmdType) : Issue := ⟨command, [], [.waited 0 (Tracee.stoppedAt nops 0)]⟩

/-- NEXT with a step that is refused. -/
def refusedNext : Issue := ⟨.next, [], [.refused]⟩

/-- The status of an exit is a status the kernel reports. -/
theorem exitsIn_reports (command : CmdType) :
    Along (step ⟨fun _ => none, fun _ => true⟩) Reports start [exitsIn command] := by
  refine ⟨fun status process member => ?_, trivial⟩
  rw [exitsIn, List.mem_singleton, Resume.waited.injEq] at member
  rw [member.1]
  decide

/-- The debugger sees an exit during `Continue`. -/
theorem exit_seen :
    Throughout (step ⟨fun _ => none, fun _ => true⟩) Current start [exitsIn .contin] := by
  have known : Known start := by
    unfold Known
    decide
  apply (current_iff_stored start_current known (exitsIn_reports .contin)).mpr
  exact ⟨trivial, trivial⟩

/-- It does not see an exit during an injected system call, and takes -1 for a status when a
single step is refused. -/
theorem exit_missed :
    Current start ∧
    Along (step ⟨fun _ => none, fun _ => true⟩) Reports start [exitsIn .memMmap] ∧
    ¬Throughout (step ⟨fun _ => none, fun _ => true⟩) Current start [exitsIn .memMmap] ∧
    Along (step ⟨fun _ => none, fun _ => true⟩) Reports start [refusedNext] ∧
    ¬Throughout (step ⟨fun _ => none, fun _ => true⟩) Current start [refusedNext] := by
  refine ⟨start_current, exitsIn_reports .memMmap, ?_, ⟨?_, trivial⟩, ?_⟩
  · intro current
    have reached := (current [exitsIn .memMmap] (List.prefix_refl _)).1
    exact absurd reached (by decide +kernel)
  · intro status process member
    rw [refusedNext, List.mem_singleton] at member
    cases member
  · intro current
    have reached := (current [refusedNext] (List.prefix_refl _)).1
    exact absurd reached (by decide +kernel)

end A64dbg.StatusView
