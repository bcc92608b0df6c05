import A64dbg.Library.Runs
import A64dbg.Main
import A64dbg.Watch

/-!
# How often a syscall command resumes

`SYSCALL_CONTIN` and `STRACE_MODE` run one loop, which goes on while `strace_mode` is set; nothing
ever clears it. So a syscall command after a trace goes on like a trace, however that trace ended.
`resumes_iff` says exactly when the commands of a session do what they are for: when no syscall
command is issued after a trace, unless the tracee's first answer ends the loop anyway.
-/

namespace A64dbg.OneResume

open Runs

/-- A command that is issued, with its arguments and the answers still to come. -/
structure Given where
  /-- The command. -/
  command : CmdType
  /-- The arguments the parser holds. -/
  args : List Text
  /-- What the tracee does, resume by resume. -/
  answers : List Resume

/-- The debugger between two commands, unless it ended or waits, and the commands it was given. -/
structure Prompt where
  /-- The session. -/
  session : Option Session
  /-- The commands issued, oldest first. -/
  issued : List CmdType

/-- The session a command returns with. -/
def returnedSession : Issued → Option Session
  | .returned session _ => some session
  | .waiting | .ended => none

/-- What issuing a command leaves of the prompt. -/
def step (host : Host) (prompt : Prompt) (given : Given) : Prompt where
  session := prompt.session.bind fun session =>
    returnedSession (issueCommand host session given.args given.answers given.command)
  issued := prompt.issued ++ [given.command]

/-- The debugger at its start, when `strace_mode` is false. -/
def start (session : Session) : Prompt where
  session := some { session with debugger := { session.debugger with straceMode := false } }
  issued := []

/-- The resume requests of a command that has one answer to each. -/
def requests (answers : List Resume) : Issued → Nat
  | .returned _ unread => answers.length - unread.length
  | .waiting => answers.length + 1
  | .ended => 0

/-- The tracee was resumed after every stop by signal 5, and no longer after any other answer: a
stop by another signal, an exit or a request that failed. -/
def KeepsResuming (answers : List Resume) : Issued → Prop
  | .returned _ unread => ∃ stops last, answers = stops ++ last :: unread ∧
      (∀ answer ∈ stops, answer.trap.isSome = true) ∧ last.trap = none
  | .waiting => ∀ answer ∈ answers, answer.trap.isSome = true
  | .ended => False

/-- What a command is for: a syscall command resumes once, a trace keeps resuming. -/
def Intended (command : CmdType) (answers : List Resume) (issued : Issued) : Prop :=
  match command with
  | .syscallContin => requests answers issued = 1
  | .straceMode => KeepsResuming answers issued
  | _ => True

/-- A command issued at a prompt does what it is for. -/
def Resumes (host : Host) (prompt : Prompt) (given : Given) : Prop :=
  ∀ session ∈ prompt.session, Intended given.command given.answers
    (issueCommand host session given.args given.answers given.command)

/-- The first answer, if it comes, is no stop by signal 5. -/
def EndsAtOnce (answers : List Resume) : Prop := ∀ answer ∈ answers.head?, answer.trap = none

/-- A syscall command is not issued after a trace, or ends at its first answer. -/
def NotAfterTrace (prompt : Prompt) (given : Given) : Prop :=
  prompt.session.isSome = true → given.command = .syscallContin →
    .straceMode ∈ prompt.issued → EndsAtOnce given.answers

section Pass

variable (overrun : Word → Option String) (session : Session)

/-- A pass leaves `strace_mode`, and goes on exactly after a stop by signal 5. -/
theorem syscallPass_mode (answer : Resume) :
    (session.syscallPass overrun answer).1.debugger.straceMode = session.debugger.straceMode ∧
      (session.syscallPass overrun answer).2 = answer.trap.isSome := by
  cases answer with
  | refused => exact ⟨rfl, rfl⟩
  | waited status process =>
    constructor
    · exact syscallPass_keeps (fun debugger => debugger.straceMode) (fun _ _ => rfl)
        (fun _ _ _ => rfl) session status process
    · rw [syscallPass_eq]
      unfold Resume.trap
      dsimp only
      cases isTrap status with
      | true => rfl
      | false => rfl

/-- `syscallContinue` leaves `strace_mode` as it was. -/
theorem syscallContinue_mode (answers : List Resume) :
    (session.syscallContinue overrun answers).1.debugger.straceMode =
      session.debugger.straceMode := by
  induction answers generalizing session with
  | nil => rfl
  | cons answer rest ih =>
    obtain ⟨mode, -⟩ := syscallPass_mode overrun session answer
    unfold Session.syscallContinue
    dsimp only
    split
    · rw [ih, mode]
    · exact mode

end Pass

section Command

variable (host : Host) {session : Session}

/-- A syscall command goes on behind a stop by signal 5 while `strace_mode` holds. -/
theorem syscallCommand_cons (session : Session) (answer : Resume) (rest : List Resume) :
    syscallCommand host session (answer :: rest) =
      if answer.trap.isSome = true ∧ session.debugger.straceMode = true then
        syscallCommand host (session.syscallPass host.overrun answer).1 rest
      else .returned (session.syscallPass host.overrun answer).1 rest := by
  obtain ⟨mode, again⟩ := syscallPass_mode host.overrun session answer
  have loop : session.syscallContinue host.overrun (answer :: rest) =
      if answer.trap.isSome = true ∧ session.debugger.straceMode = true then
        (session.syscallPass host.overrun answer).1.syscallContinue host.overrun rest
      else ((session.syscallPass host.overrun answer).1, rest, true) := by
    rw [Session.syscallContinue, mode, again]
    simp only [Bool.and_eq_true]
  unfold syscallCommand
  rw [loop]
  by_cases on : answer.trap.isSome = true ∧ session.debugger.straceMode = true
  · rw [if_pos on, if_pos on]
  · rw [if_neg on, if_neg on]
    rfl

/-- While `strace_mode` is set the loop keeps resuming. -/
theorem syscallCommand_traces (tracing : session.debugger.straceMode = true)
    (answers : List Resume) : KeepsResuming answers (syscallCommand host session answers) := by
  induction answers generalizing session with
  | nil => exact fun answer inside => (nomatch inside)
  | cons answer rest ih =>
    rw [syscallCommand_cons]
    cases stops : answer.trap with
    | none =>
      rw [if_neg fun both => Bool.false_ne_true both.1]
      exact ⟨[], answer, rfl, fun other inside => (nomatch inside), stops⟩
    | some process =>
      have trapped : answer.trap.isSome = true := by
        rw [stops]
        rfl
      obtain ⟨mode, -⟩ := syscallPass_mode host.overrun session answer
      have later := ih (mode.trans tracing)
      rw [if_pos ⟨rfl, tracing⟩]
      revert later
      cases syscallCommand host (session.syscallPass host.overrun answer).1 rest with
      | returned after unread =>
        rintro ⟨earlier, last, parts, all, ends⟩
        refine ⟨answer :: earlier, last, ?_, ?_, ends⟩
        · rw [parts, List.cons_append]
        · exact List.forall_mem_cons.mpr ⟨trapped, all⟩
      | waiting =>
        intro all
        exact List.forall_mem_cons.mpr ⟨trapped, all⟩
      | ended => exact fun never => never

/-- While `strace_mode` is not set the loop resumes once. -/
theorem syscallCommand_once (quiet : session.debugger.straceMode = false)
    (answers : List Resume) : requests answers (syscallCommand host session answers) = 1 := by
  cases answers with
  | nil => rfl
  | cons answer rest =>
    have single : ¬(answer.trap.isSome = true ∧ session.debugger.straceMode = true) := by
      rw [quiet]
      exact fun both => Bool.false_ne_true both.2
    rw [syscallCommand_cons, if_neg single, requests, List.length_cons]
    omega

/-- A loop that keeps resuming resumes once exactly when its first answer ends it. -/
theorem requests_traced {answers : List Resume} {issued : Issued}
    (traced : KeepsResuming answers issued) :
    requests answers issued = 1 ↔ EndsAtOnce answers := by
  unfold EndsAtOnce
  cases issued with
  | ended => exact traced.elim
  | waiting =>
    cases answers with
    | nil => exact iff_of_true rfl fun answer inside => (nomatch inside)
    | cons answer rest =>
      have trapped := traced answer List.mem_cons_self
      apply iff_of_false
      · rw [requests, List.length_cons]
        omega
      · intro ends
        rw [ends answer rfl] at trapped
        cases trapped
  | returned after unread =>
    obtain ⟨stops, last, rfl, all, ends⟩ := traced
    have count : requests (stops ++ last :: unread) (.returned after unread) =
        stops.length + 1 := by
      rw [requests, List.length_append, List.length_cons]
      omega
    rw [count]
    cases stops with
    | nil =>
      apply iff_of_true rfl
      intro answer inside
      cases inside
      exact ends
    | cons answer rest =>
      have trapped := all answer List.mem_cons_self
      apply iff_of_false
      · rw [List.length_cons]
        omega
      · intro early
        rw [early answer rfl] at trapped
        cases trapped

/-- A command that resumes once leaves what each of its answers leaves. -/
theorem resumeOnce_mode {resume : Resume → Session} {answers unread : List Resume} {after : Session}
    (kept : ∀ answer, (resume answer).debugger.straceMode = session.debugger.straceMode)
    (returned : resumeOnce resume answers = .returned after unread) :
    after.debugger.straceMode = session.debugger.straceMode := by
  cases answers with
  | nil => cases returned
  | cons answer rest =>
    cases returned
    exact kept answer

/-- A handler leaves what each session it returns leaves. -/
theorem withoutResume_mode {handled : Option Session} {answers unread : List Resume}
    {after : Session}
    (kept : ∀ result, handled = some result →
      result.debugger.straceMode = session.debugger.straceMode)
    (returned : withoutResume answers handled = .returned after unread) :
    after.debugger.straceMode = session.debugger.straceMode := by
  cases handled with
  | none => cases returned
  | some result =>
    cases returned
    exact kept _ rfl

/-- A syscall command leaves `strace_mode`. -/
theorem syscallCommand_mode {answers unread : List Resume} {after : Session}
    (returned : syscallCommand host session answers = .returned after unread) :
    after.debugger.straceMode = session.debugger.straceMode := by
  have mode := syscallContinue_mode host.overrun session answers
  unfold syscallCommand at returned
  dsimp only at returned
  split at returned
  · cases returned
    exact mode
  · cases returned

/-- Setting a breakpoint leaves `strace_mode`. -/
theorem setBreakPoint_mode {args : List Text} {after : Session}
    (handled : Handlers.setBreakPoint session args = some after) :
    after.debugger.straceMode = session.debugger.straceMode := by
  rcases Handlers.setBreakPoint_cases handled with rfl | ⟨bpAddr, rfl⟩
  · rfl
  · rfl

/-- Setting a hardware breakpoint leaves `strace_mode`. -/
theorem setHwBreakPoint_mode {args : List Text} {after : Session}
    (handled : Handlers.setHwBreakPoint session args = some after) :
    after.debugger.straceMode = session.debugger.straceMode := by
  rcases Handlers.setHwBreakPoint_cases handled with rfl | ⟨bpAddr, bpNum, rfl⟩
  · rfl
  · rfl

/-- `mprotMem` leaves `strace_mode` as it was. -/
theorem mprotMem_mode {args : List Text} {answers unread : List Resume} {after : Session}
    (returned : Handlers.mprotMem session answers args = .returned after unread) :
    after.debugger.straceMode = session.debugger.straceMode := by
  rcases Handlers.mprotMem_cases session answers args with
    ⟨-, -, ended⟩ | ⟨-, -, unchanged⟩ | ⟨-, -, memAddr, memSize, memProt, once⟩
  · rw [ended] at returned
    cases returned
  · rw [unchanged] at returned
    cases returned
    rfl
  · rw [once] at returned
    apply resumeOnce_mode _ returned
    intro answer
    rfl

/-- A command that returns leaves `strace_mode` as it was, or sets it if it is the trace. -/
theorem issue_mode {args : List Text} {answers unread : List Resume} {command : CmdType}
    {after : Session}
    (returned : issueCommand host session args answers command = .returned after unread) :
    after.debugger.straceMode = (session.debugger.straceMode || command == .straceMode) := by
  have quiet (left : after.debugger.straceMode = session.debugger.straceMode) :
      after.debugger.straceMode = (session.debugger.straceMode || false) := by
    rw [left, Bool.or_false]
  cases command with
  | exit => cases returned
  | none | help | showRegs =>
    cases returned
    exact quiet rfl
  | next | memMmap =>
    apply quiet
    apply resumeOnce_mode _ returned
    intro answer
    rfl
  | contin =>
    apply quiet
    apply resumeOnce_mode _ returned
    intro answer
    rw [continue_debugger]
    cases answer with
    | refused => rfl
    | waited status process => rfl
  | memMprotect =>
    apply quiet
    exact mprotMem_mode returned
  | setBreakpoint =>
    apply quiet
    exact withoutResume_mode (fun _ => setBreakPoint_mode) returned
  | setHwBreakpoint =>
    apply quiet
    exact withoutResume_mode (fun _ => setHwBreakPoint_mode) returned
  | readMemory =>
    apply quiet
    apply withoutResume_mode _ returned
    intro result handled
    rw [Handlers.readTraceeMemory_keeps handled]
  | syscallContin =>
    apply quiet
    exact syscallCommand_mode host returned
  | straceMode =>
    have mode := syscallCommand_mode host returned
    have set : session.straceOn.debugger.straceMode = true := rfl
    rw [mode, set]
    exact (Bool.or_true _).symm

end Command

/-- `strace_mode` says whether a trace was issued. -/
def Remembers (prompt : Prompt) : Prop :=
  ∀ session ∈ prompt.session,
    session.debugger.straceMode = decide (CmdType.straceMode ∈ prompt.issued)

/-- A prompt that was given no command remembers no trace. -/
theorem start_remembers (session : Session) : Remembers (start session) := by
  intro first inside
  cases inside
  rfl

/-- A command keeps `strace_mode` true exactly when a trace was issued. -/
theorem step_remembers (host : Host) {prompt : Prompt} (remembers : Remembers prompt)
    (given : Given) : Remembers (step host prompt given) := by
  intro after reached
  obtain ⟨session, here, returned⟩ := Option.bind_eq_some_iff.mp reached
  cases issued : issueCommand host session given.args given.answers given.command with
  | returned result unread =>
    rw [issued] at returned
    cases returned
    have set : (given.command == CmdType.straceMode) =
        decide (CmdType.straceMode = given.command) := by
      rw [beq_eq_decide]
      exact decide_eq_decide.mpr eq_comm
    rw [issue_mode host issued, remembers session here, set]
    simp [step, Bool.decide_or]
  | waiting | ended =>
    rw [issued] at returned
    cases returned

/-- A command does what it is for exactly when it is not a syscall command after a trace that goes
on. -/
theorem resumes_step (host : Host) {prompt : Prompt} (remembers : Remembers prompt)
    (given : Given) : Resumes host prompt given ↔ NotAfterTrace prompt given := by
  unfold Resumes NotAfterTrace
  cases here : prompt.session with
  | none => exact iff_of_true (fun session inside => (nomatch inside)) fun none => (nomatch none)
  | some session =>
    have mode := remembers session here
    obtain ⟨command, args, answers⟩ := given
    simp only [Option.mem_some_iff, forall_eq', Option.isSome_some, true_implies]
    cases command with
    | syscallContin =>
      change requests answers (syscallCommand host session answers) = 1 ↔ _
      by_cases traced : CmdType.straceMode ∈ prompt.issued
      · rw [decide_eq_true traced] at mode
        rw [requests_traced (syscallCommand_traces host mode answers)]
        simp [traced]
      · rw [decide_eq_false traced] at mode
        simp [traced, syscallCommand_once host mode answers]
    | straceMode =>
      have keeps := syscallCommand_traces host (rfl : session.straceOn.debugger.straceMode = true)
        answers
      exact iff_of_true keeps fun other => (nomatch other)
    | none | exit | help | next | contin | showRegs | memMmap | memMprotect | setBreakpoint
    | setHwBreakpoint | readMemory => exact iff_of_true trivial fun other => (nomatch other)

/-- **When a syscall command is one resume.** Over every history of commands and whatever the tracee
does, each syscall command resumes it once and each trace keeps resuming it exactly when every
syscall command issued after a trace ends at the tracee's first answer. -/
theorem resumes_iff (host : Host) (session : Session) (run : List Given) :
    Along (step host) (Resumes host) (start session) run ↔
      Along (step host) NotAfterTrace (start session) run := by
  apply @along_iff_along Prompt Given (step host) NotAfterTrace (Resumes host)
    (fun _ _ => True) Remembers
  · intro prompt given remembers _ _
    exact step_remembers host remembers given
  · intro prompt given remembers _
    exact resumes_step host remembers given
  · exact start_remembers session
  · exact along_true _ _

/-- A host whose reads return. -/
def quietHost : Host := ⟨fun _ => none, fun _ => true⟩

/-- A debugger before its first command. -/
def atFirst : Session := ⟨.initial, .stoppedAt (fun _ => none) 0x1000, []⟩

/-- A trace that a stop by signal 11 ends. -/
def endedTrace : Given :=
  ⟨.straceMode, [], [.waited 0x0b7f (.stoppedAt (fun _ => none) 0x1000)]⟩

/-- A syscall command whose tracee stops at its next two system calls. -/
def secondStop : Given :=
  ⟨.syscallContin, [], List.replicate 2 (.waited sigTrap (.stoppedAt (fun _ => none) 0x1000))⟩

/-- A syscall command after a trace that has ended goes on like a trace. -/
theorem resumes_twice :
    ¬Along (step quietHost) (Resumes quietHost) (start atFirst) [endedTrace, secondStop] := by
  intro along
  have remembers := step_remembers quietHost (start_remembers atFirst) endedTrace
  have second := (resumes_step quietHost remembers secondStop).mp along.2.1
  have ends := second rfl rfl (List.mem_singleton.mpr rfl) _ rfl
  rw [trap_sigTrap] at ends
  cases ends

end A64dbg.OneResume
