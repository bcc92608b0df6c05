import A64dbg.Library.Runs
import A64dbg.Main
import A64dbg.Watch

/-!
# The end of the input

At the end of its input `std::getline` fails and leaves the empty string, which `getCmd` takes
for an empty line. It then asks again, or repeats the last command, for ever.
`endsAtEof_iff_ended` says for every finite input and a tracee that stays stopped exactly when
the session is over once the input is read: when a line of it ended the debugger.
-/

namespace A64dbg.EndOfInput

open Runs

variable {host : Host} {order : List CmdStruct}

/-- The tracee answers a resume, and every status it reports is a stop. -/
def StaysStopped (answers : List Resume) : Prop :=
  answers ≠ [] ∧ ∀ status process, .waited status process ∈ answers → wIfStopped status = true

/-- A line with the answers of the kernel to the command it may become. -/
abbrev Line := Text × List Resume

/-- The reads of the lines of an input. -/
def linesRead (lines : List Line) : List (Option Text × List Resume) :=
  lines.map fun line => (some line.1, line.2)

/-- Reads at the end of the input. -/
def eofReads (eofs : List (List Resume)) : List (Option Text × List Resume) :=
  eofs.map fun answers => (none, answers)

/-- The debugger after the lines of its input. -/
def afterLines (host : Host) (order : List CmdStruct) (session : Session) (lines : List Line) :
    Program :=
  after (Program.turn host order) (Program.start session) (linesRead lines)

/-- The debugger after reads at the end of its input. -/
def afterEof (host : Host) (order : List CmdStruct) (session : Session) (lines : List Line)
    (eofs : List (List Resume)) : Program :=
  after (Program.turn host order) (afterLines host order session lines) (eofReads eofs)

/-- At the end of its input the debugger dispatches nothing more, so that it dispatched at most
one command for each line, and it stops reading after some number of failed reads. -/
structure EndsAtEof (host : Host) (order : List CmdStruct) (session : Session)
    (lines : List Line) : Prop where
  /-- Nothing is dispatched at the end of the input. -/
  silent : ∀ eofs, (∀ answers ∈ eofs, StaysStopped answers) →
    (afterEof host order session lines eofs).dispatched =
      (afterLines host order session lines).dispatched
  /-- There are no more commands than lines. -/
  bounded : ∀ eofs, (∀ answers ∈ eofs, StaysStopped answers) →
    (afterEof host order session lines eofs).dispatched.length ≤ lines.length
  /-- `getCmd` does not loop for ever. -/
  ends : ∃ bound, ∀ eofs, (∀ answers ∈ eofs, StaysStopped answers) → bound ≤ eofs.length →
    (afterEof host order session lines eofs).phase ≠ .reading

/-- A command that ends the debugger whatever the session: `exit`, or a handler that an exception
leaves. -/
def endsDebugger (host : Host) (args : List Text) : CmdType → Bool
  | .exit => true
  | .setBreakpoint =>
    match args with
    | [bpAddr] => (stringToU64 bpAddr).isNone
    | _ => false
  | .setHwBreakpoint =>
    match args with
    | [bpAddr, bpNum] => (stringToU64 bpAddr).isNone || (stringToU64 bpNum).isNone
    | _ => false
  | .readMemory =>
    match args with
    | [rAddr, rSize] =>
      (stringToU64 rAddr).isNone || (stringToU64 rSize).all fun rSize => !host.reads rSize
    | _ => false
  | .memMprotect => Handlers.mprotThrows args
  | _ => false

/-- A line ends the debugger: its command does, on the arguments of the line. -/
def Ends (host : Host) (order : List CmdStruct) (line : Text) : Prop :=
  ∃ cs, order.find? (fun cs => cs.hasMatch line) = some cs ∧
    endsDebugger host (splitString line ' ').tail cs.type = true

/-- A command dispatched at a prompt. -/
def AtPrompt (command : CmdType) : Prop := command ≠ .syscallContin ∧ command ≠ .straceMode

/-- The debugger waits for a line, its tracee is stopped, and its last command returned. -/
structure Prompting (host : Host) (program : Program) : Prop where
  /-- It reads. -/
  reading : program.phase = .reading
  /-- The tracee is stopped. -/
  stopped : program.session.stopped = true
  /-- The last command is one of the prompt. -/
  last : AtPrompt program.parser.lastCommand
  /-- Repeating it does not end the debugger. -/
  returns : endsDebugger host program.parser.cmdArgs program.parser.lastCommand = false

/-- A command that resumes the tracee once returns to a tracee that stays stopped. -/
theorem resumeOnce_returns {session : Session} {command : Resume → Session}
    {answers : List Resume} (stays : StaysStopped answers) (stopped : session.stopped = true)
    (stores : ∀ answer, (command answer).debugger.waitStatus = session.debugger.waitStatus ∨
      (command answer).debugger.waitStatus = -1 ∨
      ∃ process, answer = .waited (command answer).debugger.waitStatus process) :
    ∃ after unread, resumeOnce command answers = .returned after unread ∧ after.stopped = true := by
  cases answers with
  | nil => exact absurd rfl stays.1
  | cons answer rest =>
    refine ⟨command answer, rest, rfl, ?_⟩
    unfold Session.stopped at stopped ⊢
    rcases stores answer with kept | error | ⟨process, reported⟩
    · rw [kept]
      exact stopped
    · rw [error]
      decide
    · apply stays.2 _ process
      rw [← reported]
      exact List.mem_cons_self

/-- An exception leaves `setBreakPoint` exactly where the command ends the debugger. -/
theorem setBreakPoint_isNone (host : Host) (session : Session) (args : List Text) :
    (Handlers.setBreakPoint session args).isNone = endsDebugger host args .setBreakpoint := by
  match args with
  | [bpAddr] => exact Option.isNone_map
  | [] | _ :: _ :: _ => rfl

/-- An exception leaves `setHwBreakPoint` exactly where the command ends the debugger. -/
theorem setHwBreakPoint_isNone (host : Host) (session : Session) (args : List Text) :
    (Handlers.setHwBreakPoint session args).isNone = endsDebugger host args .setHwBreakpoint := by
  match args with
  | [bpAddr, bpNum] =>
    unfold Handlers.setHwBreakPoint endsDebugger
    dsimp only
    cases stringToU64 bpAddr with
    | none => rfl
    | some parsed => exact Option.isNone_map
  | [] | [_] | _ :: _ :: _ :: _ => rfl

/-- An exception leaves `readTraceeMemory` exactly where the command ends the debugger. -/
theorem readTraceeMemory_isNone (host : Host) (session : Session) (args : List Text) :
    (Handlers.readTraceeMemory host session args).isNone =
      endsDebugger host args .readMemory := by
  match args with
  | [rAddr, rSize] =>
    unfold Handlers.readTraceeMemory endsDebugger
    dsimp only
    cases stringToU64 rAddr with
    | none => rfl
    | some parsed =>
      cases stringToU64 rSize with
      | none => rfl
      | some count =>
        cases reads : host.reads count <;> simp [reads]
  | [] | [_] | _ :: _ :: _ :: _ => rfl

/-- A handler that an exception leaves ends the debugger. -/
theorem withoutResume_ended {handled : Option Session} (answers : List Resume)
    (left : handled.isNone = true) : withoutResume answers handled = .ended := by
  rw [Option.isNone_iff_eq_none.mp left]
  rfl

/-- **A command that ends the debugger ends it.** -/
theorem issue_ended {session : Session} {args : List Text} {answers : List Resume}
    {command : CmdType} (ends : endsDebugger host args command = true) :
    issueCommand host session args answers command = .ended := by
  cases command with
  | exit => rfl
  | setBreakpoint =>
    rw [← setBreakPoint_isNone host session] at ends
    exact withoutResume_ended answers ends
  | setHwBreakpoint =>
    rw [← setHwBreakPoint_isNone host session] at ends
    exact withoutResume_ended answers ends
  | readMemory =>
    rw [← readTraceeMemory_isNone host session] at ends
    exact withoutResume_ended answers ends
  | memMprotect =>
    change Handlers.mprotThrows args = true at ends
    rcases Handlers.mprotMem_cases session answers args with
      ⟨-, -, ended⟩ | ⟨returns, -⟩ | ⟨returns, -⟩
    · exact ended
    · rw [returns] at ends
      cases ends
    · rw [returns] at ends
      cases ends
  | none | help | next | contin | showRegs | memMmap | syscallContin | straceMode => cases ends

/-- A handler that returns keeps the tracee stopped. -/
theorem withoutResume_returns {session : Session} {handled : Option Session}
    (answers : List Resume) (returns : handled.isNone = false) (stopped : session.stopped = true)
    (kept : ∀ after, handled = some after →
      after.debugger.waitStatus = session.debugger.waitStatus) :
    ∃ after unread, withoutResume answers handled = .returned after unread ∧
      after.stopped = true := by
  cases handled with
  | none => cases returns
  | some after =>
    refine ⟨after, answers, rfl, ?_⟩
    unfold Session.stopped at stopped ⊢
    rw [kept after rfl]
    exact stopped

/-- **Any other command of the prompt returns to a stopped tracee.** -/
theorem issue_returned {session : Session} {args : List Text} {answers : List Resume}
    {command : CmdType} (prompt : AtPrompt command)
    (returns : endsDebugger host args command = false) (stays : StaysStopped answers)
    (stopped : session.stopped = true) :
    ∃ after unread, issueCommand host session args answers command = .returned after unread ∧
      after.stopped = true := by
  cases command with
  | exit => cases returns
  | none | help | showRegs => exact ⟨session, answers, rfl, stopped⟩
  | syscallContin => exact absurd rfl prompt.1
  | straceMode => exact absurd rfl prompt.2
  | next =>
    apply resumeOnce_returns stays stopped
    intro answer
    cases answer with
    | refused => exact .inr (.inl rfl)
    | waited status process => exact .inr (.inr ⟨process, rfl⟩)
  | contin =>
    apply resumeOnce_returns stays stopped
    intro answer
    rw [continue_debugger]
    cases answer with
    | refused => exact .inl rfl
    | waited status process => exact .inr (.inr ⟨process, rfl⟩)
  | memMmap => exact resumeOnce_returns stays stopped fun _ => .inl rfl
  | setBreakpoint =>
    rw [← setBreakPoint_isNone host session] at returns
    exact withoutResume_returns answers returns stopped fun _ => Handlers.setBreakPoint_keeps
  | setHwBreakpoint =>
    rw [← setHwBreakPoint_isNone host session] at returns
    exact withoutResume_returns answers returns stopped fun _ => Handlers.setHwBreakPoint_keeps
  | readMemory =>
    rw [← readTraceeMemory_isNone host session] at returns
    apply withoutResume_returns answers returns stopped
    intro after handled
    rw [Handlers.readTraceeMemory_keeps handled]
  | memMprotect =>
    change ∃ after unread, Handlers.mprotMem session answers args = _ ∧ _
    rcases Handlers.mprotMem_cases session answers args with
      ⟨ends, -⟩ | ⟨-, -, returned⟩ | ⟨-, -, memAddr, memSize, memProt, once⟩
    · have throws : endsDebugger host args .memMprotect = true := ends
      rw [throws] at returns
      cases returns
    · exact ⟨session, answers, returned, stopped⟩
    · rw [once]
      exact resumeOnce_returns stays stopped fun _ => .inl rfl

/-- A dispatched command ends the debugger, or leaves it prompting. -/
theorem dispatch_cases (program : Program) {answers : List Resume} (stays : StaysStopped answers)
    (stopped : program.session.stopped = true) (prompt : AtPrompt program.parser.lastCommand) :
    (endsDebugger host program.parser.cmdArgs program.parser.lastCommand = true →
      (program.dispatch host answers program.parser.lastCommand).phase = .over) ∧
    (endsDebugger host program.parser.cmdArgs program.parser.lastCommand = false →
      Prompting host (program.dispatch host answers program.parser.lastCommand)) := by
  constructor
  · intro ends
    unfold Program.dispatch
    rw [issue_ended ends]
    rfl
  · intro returns
    obtain ⟨session, unread, returned, still⟩ := issue_returned prompt returns stays stopped
    unfold Program.dispatch
    rw [returned]
    refine ⟨?_, still, prompt, returns⟩
    unfold Issued.phase
    exact if_pos still

/-- A read that is no command leaves the debugger as it was. -/
theorem turn_unknown {program : Program} {read : Option Text × List Resume}
    (unknown : program.parser.readCmd order (read.1.getD []) = (program.parser, none)) :
    program.turn host order read = program := by
  obtain ⟨parser, session, dispatched, phase⟩ := program
  unfold Program.turn
  rw [unknown]
  cases phase <;> rfl

/-- A read that is a command dispatches it. -/
theorem turn_command {program : Program} {read : Option Text × List Resume} {parser : CmdParser}
    {command : CmdType} (reading : program.phase = .reading)
    (returned : program.parser.readCmd order (read.1.getD []) = (parser, some command)) :
    program.turn host order read =
      { program with parser := parser }.dispatch host read.2 command := by
  unfold Program.turn
  rw [reading, returned]

/-- Reads after the end of the session do nothing. -/
theorem turn_over {program : Program} (done : program.phase = .over)
    (read : Option Text × List Resume) : program.turn host order read = program := by
  unfold Program.turn
  rw [done]

/-- The arguments of an accepted line end the debugger exactly when those of the line do. -/
theorem accept_ends {cs : CmdStruct} (member : cs ∈ commands) (parser : CmdParser) (line : Text) :
    endsDebugger host (parser.accept line cs).cmdArgs cs.type =
      endsDebugger host (splitString line ' ').tail cs.type := by
  unfold CmdParser.accept
  by_cases none : cs.argsNum = 0
  · have silent : cs.type.readsArgs ≠ true := fun reads => commands_args cs member reads none
    revert silent
    cases cs.type <;> simp [CmdType.readsArgs, endsDebugger]
  · rw [if_neg none]

/-- **One line.** From a prompt a line ends the debugger, or leaves it prompting. -/
theorem turn_line (perm : order.Perm commands) {program : Program}
    (prompting : Prompting host program) {line : Line} (stays : StaysStopped line.2) :
    (Ends host order line.1 → (program.turn host order (some line.1, line.2)).phase = .over) ∧
    (¬Ends host order line.1 → Prompting host (program.turn host order (some line.1, line.2))) := by
  obtain ⟨text, answers⟩ := line
  rcases readCmd_cases perm program.parser text with
    ⟨cs, taken, accepted⟩ | ⟨unmatched, unknown | ⟨-, repeated⟩⟩
  · obtain ⟨member, -⟩ := find_mem perm taken
    have step : program.turn host order (some text, answers) =
        { program with parser := program.parser.accept text cs }.dispatch host answers cs.type :=
      turn_command prompting.reading accepted
    have next := @dispatch_cases host { program with parser := program.parser.accept text cs }
      answers stays prompting.stopped (commands_prompt cs member)
    rw [step]
    have ends : Ends host order text ↔
        endsDebugger host (program.parser.accept text cs).cmdArgs cs.type = true := by
      rw [accept_ends member]
      constructor
      · rintro ⟨other, found, ends⟩
        cases taken.symm.trans found
        exact ends
      · intro ends
        exact ⟨cs, taken, ends⟩
    dsimp only
    rw [ends]
    refine ⟨next.1, fun returns => next.2 ?_⟩
    exact Bool.eq_false_iff.mpr returns
  · have same : program.turn host order (some text, answers) = program := turn_unknown unknown
    rw [same]
    constructor
    · rintro ⟨cs, taken, -⟩
      cases unmatched.symm.trans taken
    · intro _
      exact prompting
  · have again : program.turn host order (some text, answers) =
        program.dispatch host answers program.parser.lastCommand :=
      turn_command prompting.reading repeated
    rw [again]
    constructor
    · rintro ⟨cs, taken, -⟩
      cases unmatched.symm.trans taken
    · intro _
      exact (dispatch_cases program stays prompting.stopped prompting.last).2 prompting.returns

/-- After the session is over reads change nothing. -/
theorem after_over {program : Program} (done : program.phase = .over)
    (reads : List (Option Text × List Resume)) :
    after (Program.turn host order) program reads = program := by
  induction reads with
  | nil => rfl
  | cons read rest ih =>
    rw [after_cons, turn_over done]
    exact ih

/-- **The lines of an input.** From a prompt they end the session exactly when one of them ends
the debugger, and otherwise leave it prompting. -/
theorem after_lines (perm : order.Perm commands) {program : Program}
    (prompting : Prompting host program) {lines : List Line}
    (stays : ∀ line ∈ lines, StaysStopped line.2) :
    ((∃ line ∈ lines, Ends host order line.1) →
      (after (Program.turn host order) program (linesRead lines)).phase = .over) ∧
    ((¬∃ line ∈ lines, Ends host order line.1) →
      Prompting host (after (Program.turn host order) program (linesRead lines))) := by
  induction lines generalizing program with
  | nil =>
    constructor
    · rintro ⟨line, member, -⟩
      cases member
    · intro _
      exact prompting
  | cons line rest ih =>
    obtain ⟨ends, prompts⟩ := turn_line perm prompting (stays line List.mem_cons_self)
    have later (other : Line) (member : other ∈ rest) : StaysStopped other.2 :=
      stays other (List.mem_cons_of_mem line member)
    unfold linesRead
    rw [List.map_cons, after_cons]
    by_cases here : Ends host order line.1
    · rw [after_over (ends here)]
      constructor
      · intro _
        exact ends here
      · intro none
        exact absurd ⟨line, List.mem_cons_self, here⟩ none
    · obtain ⟨endsLater, promptsLater⟩ := ih (prompts here) later
      constructor
      · rintro ⟨other, member, endsOther⟩
        apply endsLater
        rcases List.mem_cons.mp member with rfl | behind
        · exact absurd endsOther here
        · exact ⟨other, behind, endsOther⟩
      · intro none
        apply promptsLater
        rintro ⟨other, behind, endsOther⟩
        exact none ⟨other, List.mem_cons_of_mem line behind, endsOther⟩

/-- A read dispatches at most one command. -/
theorem turn_dispatched (program : Program) (read : Option Text × List Resume) :
    (program.turn host order read).dispatched.length ≤ program.dispatched.length + 1 := by
  unfold Program.turn
  split
  · omega
  · omega
  · split
    · dsimp only
      omega
    · unfold Program.dispatch
      dsimp only
      rw [List.length_append, List.length_singleton]

/-- Reads dispatch at most one command each. -/
theorem after_dispatched (program : Program) (reads : List (Option Text × List Resume)) :
    (after (Program.turn host order) program reads).dispatched.length ≤
      program.dispatched.length + reads.length := by
  induction reads generalizing program with
  | nil => exact Nat.le_add_right _ _
  | cons read rest ih =>
    rw [after_cons, List.length_cons]
    calc
      _ ≤ (program.turn host order read).dispatched.length + rest.length := ih _
      _ ≤ program.dispatched.length + 1 + rest.length :=
        Nat.add_le_add_right (turn_dispatched program read) rest.length
      _ = program.dispatched.length + (rest.length + 1) := by omega

/-- A debugger whose last command is none asks for lines for ever. -/
theorem after_eof_silent (perm : order.Perm commands) {program : Program}
    (unheard : program.parser.lastCommand = .none) (eofs : List (List Resume)) :
    after (Program.turn host order) program (eofReads eofs) = program := by
  induction eofs with
  | nil => rfl
  | cons answers rest ih =>
    have same : program.turn host order (none, answers) = program :=
      turn_unknown (readCmd_silent perm unheard)
    unfold eofReads
    rw [List.map_cons, after_cons, same]
    exact ih

/-- A debugger that heard a command dispatches it again at the end of its input. -/
theorem turn_eof {program : Program} (reading : program.phase = .reading)
    (heard : program.parser.lastCommand ≠ .none) (answers : List Resume) :
    (program.turn host order (none, answers)).dispatched =
      program.dispatched ++ [program.parser.lastCommand] := by
  rw [turn_command reading (readCmd_repeat order heard)]
  rfl

/-- A tracee that cannot be resumed stays stopped. -/
theorem refused_stays : StaysStopped [.refused] := by
  constructor
  · exact List.cons_ne_nil _ _
  · intro status process found
    cases List.mem_singleton.mp found

/-- A session that heard no command reads for ever. -/
theorem unheard_never_ends (perm : order.Perm commands) {session : Session} {lines : List Line}
    (reading : (afterLines host order session lines).phase = .reading)
    (unheard : (afterLines host order session lines).parser.lastCommand = .none) :
    ¬EndsAtEof host order session lines := by
  intro endsAtEof
  obtain ⟨bound, stops⟩ := endsAtEof.ends
  have patient : ∀ answers ∈ List.replicate bound [Resume.refused], StaysStopped answers := by
    intro answers member
    rw [List.eq_of_mem_replicate member]
    exact refused_stays
  have long : bound ≤ (List.replicate bound [Resume.refused]).length := by
    rw [List.length_replicate]
  have stopped := stops _ patient long
  unfold afterEof at stopped
  rw [after_eof_silent perm unheard] at stopped
  exact stopped reading

/-- A session that heard a command dispatches it once more. -/
theorem heard_never_ends {session : Session} {lines : List Line}
    (reading : (afterLines host order session lines).phase = .reading)
    (heard : (afterLines host order session lines).parser.lastCommand ≠ .none) :
    ¬EndsAtEof host order session lines := by
  intro endsAtEof
  have patient : ∀ answers ∈ [[Resume.refused]], StaysStopped answers := by
    intro answers member
    rw [List.mem_singleton.mp member]
    exact refused_stays
  have silent := endsAtEof.silent _ patient
  have again : ((afterLines host order session lines).turn host order
      (none, [.refused])).dispatched = (afterLines host order session lines).dispatched ++
        [(afterLines host order session lines).parser.lastCommand] :=
    turn_eof reading heard [.refused]
  have lengths := congrArg List.length (again.symm.trans silent)
  rw [List.length_append, List.length_singleton] at lengths
  omega

/-- A session that is over after its lines dispatches and reads nothing more. -/
theorem over_ends {session : Session} {lines : List Line}
    (done : (afterLines host order session lines).phase = .over) :
    EndsAtEof host order session lines := by
  have same (eofs : List (List Resume)) :
      afterEof host order session lines eofs = afterLines host order session lines :=
    after_over done _
  constructor
  · intro eofs _
    rw [same]
  · intro eofs _
    rw [same]
    calc
      _ ≤ (Program.start session).dispatched.length + (linesRead lines).length :=
        after_dispatched (Program.start session) (linesRead lines)
      _ = lines.length := by
        unfold linesRead Program.start
        rw [List.length_map]
        exact Nat.zero_add _
  · refine ⟨0, fun eofs _ _ => ?_⟩
    rw [same, done]
    decide

/-- **When the end of input ends the session.** For every finite input, in any order of the
table, and a tracee that stays stopped, the debugger dispatches nothing more and stops reading at
the end of its input exactly when a line of it ended the debugger. -/
theorem endsAtEof_iff_ended (perm : order.Perm commands) {session : Session}
    (stopped : session.stopped = true) {lines : List Line}
    (stays : ∀ line ∈ lines, StaysStopped line.2) :
    EndsAtEof host order session lines ↔ ∃ line ∈ lines, Ends host order line.1 := by
  have start : Prompting host (Program.start session) := by
    refine ⟨?_, stopped, ⟨nofun, nofun⟩, rfl⟩
    unfold Program.start
    exact if_pos stopped
  obtain ⟨ends, prompts⟩ := after_lines perm start stays
  constructor
  · intro endsAtEof
    by_contra lively
    have prompting : Prompting host (afterLines host order session lines) := prompts lively
    by_cases unheard : (afterLines host order session lines).parser.lastCommand = .none
    · exact unheard_never_ends perm prompting.reading unheard endsAtEof
    · exact heard_never_ends prompting.reading unheard endsAtEof
  · intro ended
    exact over_ends (ends ended)

/-- A host on which every read of memory returns. -/
def plainHost : Host := ⟨fun _ => none, fun _ => true⟩

/-- A debugger at its first prompt. -/
def firstPrompt : Session := ⟨Debugger.initial, Tracee.stoppedAt nops 0, []⟩

/-- A resume after which the tracee stops again. -/
def stopsAgain : List Resume := [.waited sigTrap (Tracee.stoppedAt nops 0)]

/-- The tracee of the samples stays stopped. -/
theorem stopsAgain_stays : StaysStopped stopsAgain := by
  refine ⟨List.cons_ne_nil _ _, fun status process member => ?_⟩
  rw [stopsAgain, List.mem_singleton, Resume.waited.injEq] at member
  rw [member.1]
  decide

/-- `c` and `q`: the session is over at the end of the input. -/
theorem ends_after_quit :
    EndsAtEof plainHost commands firstPrompt [(['c'], stopsAgain), (['q'], stopsAgain)] := by
  apply (endsAtEof_iff_ended (List.Perm.refl _) rfl _).mpr
  · refine ⟨(['q'], stopsAgain), by simp, _, rfl, rfl⟩
  · intro line member
    rcases List.mem_cons.mp member with rfl | last
    · exact stopsAgain_stays
    · rw [List.mem_singleton.mp last]
      exact stopsAgain_stays

/-- On an empty input `getCmd` reads for ever; after `c` the debugger resumes its tracee again at
the end of its input. -/
theorem never_ends :
    firstPrompt.stopped = true ∧ ¬EndsAtEof plainHost commands firstPrompt [] ∧
    StaysStopped stopsAgain ∧ ¬EndsAtEof plainHost commands firstPrompt [(['c'], stopsAgain)] := by
  have heard : (afterLines plainHost commands firstPrompt
      [(['c'], stopsAgain)]).parser.lastCommand ≠ .none := by decide +kernel
  exact ⟨rfl, unheard_never_ends (List.Perm.refl _) rfl rfl, stopsAgain_stays,
    heard_never_ends rfl heard⟩

end A64dbg.EndOfInput
