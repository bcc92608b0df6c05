import A64dbg.CmdParser

/-!
# The first token of a command

`parseArgs` takes the parts of its line from `++parts.begin()` on, which has no meaning when there
are no parts, and nothing in it asks. What makes the call safe is in `getCmd`: an alias begins the
line, an alias is a word without spaces, and so the line has a first field. `arguments_follow` says
that, for every line, the checked version of the parser never fails and gives the same.
-/

namespace A64dbg.FirstToken

open Fields

/-- The parts from `++parts.begin()` to `parts.end()`; there is no such range without parts. -/
def behindFirst : List Text → Option (List Text)
  | [] => none
  | _ :: rest => some rest

/-- `parseArgs` with its iterators checked. -/
def parseArgs (parser : CmdParser) (cmdStr : Text) : Option (Bool × CmdParser) :=
  (behindFirst (splitString cmdStr ' ')).map fun args => (true, { parser with cmdArgs := args })

/-- The loop of `getCmd` over the entries of the table, with the iterators checked. -/
def parseCommand (parser : CmdParser) (cmdStr : Text) :
    List CmdStruct → Option (CmdParser × Option CmdType)
  | [] => some (parser, none)
  | cs :: rest =>
    if !cs.hasMatch cmdStr then parseCommand parser cmdStr rest
    else if cs.argsNum ≠ 0 then do
      let (parsed, parser) ← parseArgs parser cmdStr
      if parsed then return ({ parser with lastCommand := cs.type }, some cs.type)
      else parseCommand parser cmdStr rest
    else some ({ parser with lastCommand := cs.type }, some cs.type)

/-- One turn of the loop of `getCmd`, with the iterators checked. -/
def readCmd (order : List CmdStruct) (parser : CmdParser) (cmdStr : Text) :
    Option (CmdParser × Option CmdType) :=
  if cmdStr.isEmpty && parser.lastCommand != .none then some (parser, some parser.lastCommand)
  else parseCommand parser cmdStr order

/-- `getCmd` calls `parseArgs` on the line, for an entry of the table. -/
def Parses (order : List CmdStruct) (parser : CmdParser) (cmdStr : Text) (cs : CmdStruct) : Prop :=
  ¬(cmdStr.isEmpty && parser.lastCommand != .none) ∧
    order.find? (fun cs => cs.hasMatch cmdStr) = some cs ∧ cs.argsNum ≠ 0

/-- A line that an alias begins has a first part, which the alias begins. -/
theorem splitString_alias {cs : CmdStruct} (member : cs ∈ commands) {sc : Text}
    (listed : sc ∈ cs.cmd) (rest : Text) :
    splitString (sc ++ rest) ' ' =
      (sc ++ rest.takeWhile fun letter => !(letter == ' ')) ::
        fields (fun letter => letter == ' ') (rest.dropWhile fun letter => !(letter == ' ')) := by
  obtain ⟨nonempty, free⟩ := commands_words cs member sc listed
  have kept : ∀ letter ∈ sc, (!(letter == ' ')) = true := by
    intro letter inside
    rw [free letter inside, Bool.not_false]
  obtain ⟨letter, more, rfl⟩ := List.exists_cons_of_ne_nil nonempty
  have first : (letter == ' ') = false := free letter List.mem_cons_self
  have run := @fields_run Char (fun letter => letter == ' ') letter first (more ++ rest)
  rw [← List.cons_append, List.takeWhile_append_of_pos kept, List.dropWhile_append_of_pos kept]
    at run
  rw [splitString_eq, run]

/-- A line that matches an entry has a first part. -/
theorem splitString_match {cs : CmdStruct} (member : cs ∈ commands) {cmdStr : Text}
    (matched : cs.hasMatch cmdStr = true) :
    ∃ first, splitString cmdStr ' ' = first :: (splitString cmdStr ' ').tail := by
  obtain ⟨sc, listed, rest, rfl⟩ := (hasMatch_iff cs cmdStr).mp matched
  rw [splitString_alias member listed]
  exact ⟨_, rfl⟩

/-- The checked loop never fails. -/
theorem parseCommand_checked (parser : CmdParser) (cmdStr : Text) {entries : List CmdStruct}
    (listed : ∀ cs ∈ entries, cs ∈ commands) :
    parseCommand parser cmdStr entries = some (parser.parseCommand cmdStr entries) := by
  induction entries with
  | nil => rfl
  | cons cs rest ih =>
    obtain ⟨member, later⟩ := List.forall_mem_cons.mp listed
    unfold parseCommand CmdParser.parseCommand
    cases matched : cs.hasMatch cmdStr with
    | false => exact ih later
    | true =>
      obtain ⟨first, parts⟩ := splitString_match member matched
      have checked : parseArgs parser cmdStr = some (parser.parseArgs cmdStr) := by
        unfold parseArgs CmdParser.parseArgs
        rw [parts]
        rfl
      rw [checked]
      by_cases args : cs.argsNum ≠ 0
      · simp [args, CmdParser.parseArgs]
      · simp [args]

/-- **The arguments follow the first token.** For every line, in every order of the table and
whatever the parser holds, the checked parser does what `getCmd` does. Where it calls `parseArgs`
the line has a first part and the arguments are the others in order; there are none when the line
is an alias with an argument glued to it. -/
theorem arguments_follow {order : List CmdStruct} (perm : order.Perm commands)
    (parser : CmdParser) (cmdStr : Text) :
    readCmd order parser cmdStr = some (parser.readCmd order cmdStr) ∧
    ∀ cs, Parses order parser cmdStr cs →
      (∃ first, splitString cmdStr ' ' = first :: (parser.readCmd order cmdStr).1.cmdArgs) ∧
      ∀ sc ∈ cs.cmd, ∀ glued, ' ' ∉ glued → cmdStr = sc ++ glued →
        (parser.readCmd order cmdStr).1.cmdArgs = [] := by
  have listed : ∀ cs ∈ order, cs ∈ commands := fun cs inside => perm.mem_iff.mp inside
  constructor
  · unfold readCmd CmdParser.readCmd
    split
    · rfl
    · exact parseCommand_checked parser cmdStr listed
  · intro cs parses
    obtain ⟨fresh, taken, args⟩ := parses
    obtain ⟨member, matched⟩ := find_mem perm taken
    have read : (parser.readCmd order cmdStr).1.cmdArgs = (splitString cmdStr ' ').tail := by
      unfold CmdParser.readCmd
      rw [if_neg fresh, parseCommand_eq, taken]
      exact if_neg args
    rw [read]
    refine ⟨splitString_match member matched, ?_⟩
    rintro sc inside glued free rfl
    have whole : ∀ letter ∈ glued, (!(letter == ' ')) = true := by
      intro letter here
      rw [Bool.not_eq_true', beq_eq_false_iff_ne]
      rintro rfl
      exact free here
    rw [splitString_alias member inside, List.dropWhile_eq_nil_iff.mpr whole]
    rfl

/-- `rm 16 2` is given to `parseArgs`. -/
theorem parses_readm :
    Parses commands CmdParser.initial ['r', 'm', ' ', '1', '6', ' ', '2'] readMemoryEntry := by
  constructor
  · decide
  · constructor
    · decide
    · decide

/-- The arguments of `rm 16 2` are the parts behind its first. -/
theorem readm_arguments :
    ∃ first, splitString ['r', 'm', ' ', '1', '6', ' ', '2'] ' ' =
      first :: (CmdParser.initial.readCmd commands
        ['r', 'm', ' ', '1', '6', ' ', '2']).1.cmdArgs :=
  ((arguments_follow (List.Perm.refl commands) CmdParser.initial
    ['r', 'm', ' ', '1', '6', ' ', '2']).2 readMemoryEntry parses_readm).1

end A64dbg.FirstToken
