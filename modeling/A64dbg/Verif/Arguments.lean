import A64dbg.CmdParser
import A64dbg.Library.Runs

/-!
# Whose arguments a command gets

`last_command` and `cmd_args` are written by different branches of `getCmd`: a command without
arguments leaves `cmd_args` alone, an empty line parses nothing, and a line that is no command
touches neither. `args_belong` says that nevertheless, after any lines and in any order of the
table, a command that reads arguments finds those of the line it was last given on.
-/

namespace A64dbg.Arguments

open Fields Runs

/-- The parser, with the last line that was not empty and for which it returned a command, and
that command. -/
structure Listener where
  /-- The parser. -/
  parser : CmdParser
  /-- The line and its command. -/
  accepted : Option (Text × CmdType)

/-- A parser at its start was given no line. -/
def Listener.initial : Listener := ⟨CmdParser.initial, none⟩

/-- What a parser returns on a line. -/
def Listener.result (order : List CmdStruct) (listener : Listener) (line : Text) :
    Option CmdType := (listener.parser.readCmd order line).2

/-- A line is read. -/
def Listener.step (order : List CmdStruct) (listener : Listener) (line : Text) : Listener where
  parser := (listener.parser.readCmd order line).1
  accepted :=
    match listener.result order line with
    | none => listener.accepted
    | some command => if line = [] then listener.accepted else some (line, command)

/-- A command that reads arguments finds those of the line accepted last, and an empty line
returns the command of that line, or none before the first. -/
structure Belongs (order : List CmdStruct) (listener : Listener) (line : Text) : Prop where
  /-- The arguments are the fields of that line after its first. -/
  args : ∀ command, listener.result order line = some command → command.readsArgs = true →
    ∃ text, (listener.step order line).accepted = some (text, command) ∧
      (listener.step order line).parser.cmdArgs =
        (fields (fun letter => letter == ' ') text).tail
  /-- An empty line repeats. -/
  repeats : line = [] → listener.result order line = listener.accepted.map Prod.snd

/-- The last command is that of the line accepted last, and the arguments are that line's where
the command reads any. -/
structure Heard (listener : Listener) : Prop where
  /-- `last_command`. -/
  last : listener.parser.lastCommand = (listener.accepted.map Prod.snd).getD .none
  /-- `NONE` is no command. -/
  type : ∀ text command, listener.accepted = some (text, command) → command ≠ .none
  /-- `cmd_args`. -/
  args : ∀ text command, listener.accepted = some (text, command) → command.readsArgs = true →
    listener.parser.cmdArgs = (fields (fun letter => letter == ' ') text).tail

variable {order : List CmdStruct}

/-- A parser that was given no line has heard none. -/
theorem heard_initial : Heard Listener.initial := by
  constructor
  · rfl
  · intro text command accepted
    cases accepted
  · intro text command accepted
    cases accepted

/-- A line on which nothing is returned is forgotten. -/
theorem step_unknown {listener : Listener} {line : Text}
    (unknown : listener.parser.readCmd order line = (listener.parser, none)) :
    listener.step order line = listener := by
  unfold Listener.step Listener.result
  rw [unknown]

/-- The empty line keeps the listener and returns the strings of the accepted line. -/
theorem step_empty (perm : order.Perm commands) {listener : Listener} (heard : Heard listener) :
    listener.step order [] = listener ∧
      listener.result order [] = listener.accepted.map Prod.snd := by
  cases accepted : listener.accepted with
  | none =>
    have unheard : listener.parser.lastCommand = .none := by
      rw [heard.last, accepted]
      rfl
    have silent := readCmd_silent perm unheard
    refine ⟨step_unknown silent, ?_⟩
    unfold Listener.result
    rw [silent]
    rfl
  | some pair =>
    obtain ⟨text, command⟩ := pair
    have last : listener.parser.lastCommand = command := by
      rw [heard.last, accepted]
      rfl
    have again := readCmd_repeat order (last ▸ heard.type text command accepted)
    unfold Listener.step Listener.result
    rw [again, last]
    exact ⟨rfl, rfl⟩

/-- A line taken for an entry becomes the line accepted last. -/
theorem step_accepted (listener : Listener) {line : Text} {cs : CmdStruct} (nonempty : line ≠ [])
    (taken : order.find? (fun cs => cs.hasMatch line) = some cs) :
    listener.result order line = some cs.type ∧
      listener.step order line = ⟨listener.parser.accept line cs, some (line, cs.type)⟩ := by
  have read := readCmd_line order listener.parser nonempty
  rw [taken] at read
  have result : listener.result order line = some cs.type := congrArg Prod.snd read
  refine ⟨result, ?_⟩
  unfold Listener.step
  rw [result, read]
  dsimp only
  rw [if_neg nonempty]

/-- **One line keeps the two fields to the line accepted last.** -/
theorem heard_step (perm : order.Perm commands) {listener : Listener} (heard : Heard listener)
    (line : Text) : Heard (listener.step order line) ∧ Belongs order listener line := by
  by_cases empty : line = []
  · subst empty
    obtain ⟨same, result⟩ := step_empty perm heard
    rw [same]
    refine ⟨heard, ?_, fun _ => result⟩
    intro command returned reads
    rw [result] at returned
    obtain ⟨⟨text, type⟩, accepted, rfl⟩ := Option.map_eq_some_iff.mp returned
    rw [same]
    exact ⟨text, accepted, heard.args text type accepted reads⟩
  · cases taken : order.find? fun cs => cs.hasMatch line with
    | none =>
      have read := readCmd_line order listener.parser empty
      rw [taken] at read
      rw [step_unknown read]
      refine ⟨heard, ?_, fun blank => absurd blank empty⟩
      intro command returned
      cases (congrArg Prod.snd read).symm.trans returned
    | some cs =>
      obtain ⟨member, -⟩ := find_mem perm taken
      obtain ⟨result, after⟩ := step_accepted listener empty taken
      have args : cs.type.readsArgs = true → (listener.parser.accept line cs).cmdArgs =
          (fields (fun letter => letter == ' ') line).tail := by
        intro reads
        unfold CmdParser.accept
        rw [← splitString_eq]
        exact if_neg (commands_args cs member reads)
      rw [after]
      refine ⟨⟨rfl, ?_, ?_⟩, ?_, fun blank => absurd blank empty⟩
      · rintro text command ⟨⟩
        exact commands_type cs member
      · rintro text command ⟨⟩
        exact args
      · intro command returned reads
        cases result.symm.trans returned
        rw [after]
        exact ⟨line, rfl, args reads⟩

/-- **Arguments belong to the command.** After any lines, in any order of the table, a command
that reads arguments finds those of the line accepted last, and an empty line returns that
line's command, or none before the first. -/
theorem args_belong (perm : order.Perm commands) (lines : List Text) :
    Along (Listener.step order) (Belongs order) Listener.initial lines :=
  (along_true Listener.initial lines).imp heard_initial
    (fun _ line heard _ => (heard_step perm heard line).1)
    (fun _ line heard _ => (heard_step perm heard line).2)

/-- `bp 16`. -/
def bpSixteen : Text := ['b', 'p', ' ', '1', '6']

/-- A listener that was given `bp 16`. -/
def heardSixteen : Listener :=
  ⟨⟨.setBreakpoint, [['1', '6']]⟩, some (bpSixteen, .setBreakpoint)⟩

/-- The line is taken for a breakpoint, with one argument. -/
theorem bpSixteen_step : Listener.initial.result commands bpSixteen = some .setBreakpoint ∧
    Listener.initial.step commands bpSixteen = heardSixteen := by
  have words : splitString bpSixteen ' ' = [['b', 'p'], ['1', '6']] := by decide +kernel
  have read : CmdParser.initial.readCmd commands bpSixteen =
      (⟨.setBreakpoint, [['1', '6']]⟩, some .setBreakpoint) := by
    unfold bpSixteen at words ⊢
    simp [CmdParser.readCmd, CmdParser.parseCommand, commands, CmdStruct.hasMatch,
      CmdParser.initial, CmdParser.parseArgs, words]
  have result : Listener.initial.result commands bpSixteen = some .setBreakpoint :=
    congrArg Prod.snd read
  refine ⟨result, ?_⟩
  rw [Listener.step, result]
  exact congrArg (fun parser => (⟨parser, _⟩ : Listener)) (congrArg Prod.fst read)

/-- `bp 16` is taken for a breakpoint, and its argument is kept. Empty lines behind it and behind a
line that is no command return the breakpoint again, with the same argument. -/
theorem args_belong_sample :
    let listener (lines : List Text) := after (Listener.step commands) Listener.initial lines
    (listener []).result commands bpSixteen = some .setBreakpoint ∧
    (listener [bpSixteen]).parser.cmdArgs = [['1', '6']] ∧
    (listener [bpSixteen]).result commands [] = some .setBreakpoint ∧
    (listener [bpSixteen, ['z']]).result commands [] = some .setBreakpoint ∧
    (listener [bpSixteen, ['z'], []]).parser.cmdArgs = [['1', '6']] := by
  obtain ⟨result, heard⟩ := bpSixteen_step
  have unknown : heardSixteen.step commands ['z'] = heardSixteen := by
    apply step_unknown
    simp [heardSixteen, CmdParser.readCmd, CmdParser.parseCommand, commands, CmdStruct.hasMatch,
      readMemoryEntry, readRegistersEntry]
  obtain ⟨-, -, last, -⟩ := args_belong (List.Perm.refl commands) [bpSixteen, ['z'], []]
  rw [heard, unknown] at last
  have again : heardSixteen.result commands [] = some .setBreakpoint := last.repeats rfl
  obtain ⟨text, accepted, args⟩ := last.args _ again rfl
  have kept : (heardSixteen.step commands []).accepted = heardSixteen.accepted := by
    simp only [Listener.step, again, if_true]
  have line : text = bpSixteen := by
    rw [kept] at accepted
    exact (congrArg Prod.fst (Option.some.inj accepted)).symm
  have words : (fields (fun letter => letter == ' ') bpSixteen).tail = [['1', '6']] := by
    rw [← splitString_eq]
    decide +kernel
  rw [line, words] at args
  simp only [List.foldl_cons, List.foldl_nil, heard, unknown]
  exact ⟨result, rfl, again, again, args⟩

end A64dbg.Arguments
