import A64dbg.Utils

/-!
# The command parser

`CmdParser` reads lines until one is a command. A line is a command when an alias of some entry
of the table begins it; the table is an `unordered_map`, so the entries are tried in an order
the repository does not fix, and the first that matches is taken. An empty line repeats the last
command. `readCmd` is one turn of the loop of `getCmd`; the console output is not modelled.
-/

namespace A64dbg

open Fields

/-- `CMD_TYPE`. -/
inductive CmdType where
  /-- `NONE`. -/
  | none
  /-- `EXIT`. -/
  | exit
  /-- `HELP`. -/
  | help
  /-- `NEXT`. -/
  | next
  /-- `CONTIN`. -/
  | contin
  /-- `SHOW_REGS`. -/
  | showRegs
  /-- `MEM_MPROTECT`. -/
  | memMprotect
  /-- `MEM_MMAP`. -/
  | memMmap
  /-- `SYSCALL_CONTIN`. -/
  | syscallContin
  /-- `SET_BREAKPOINT`. -/
  | setBreakpoint
  /-- `SET_HW_BREAKPOINT`. -/
  | setHwBreakpoint
  /-- `READ_MEMORY`. -/
  | readMemory
  /-- `STRACE_MODE`. -/
  | straceMode
deriving DecidableEq, Repr

/-- `cmd_struct`, without its help text. -/
structure CmdStruct where
  /-- The aliases of the command. -/
  cmd : List Text
  /-- Its type. -/
  type : CmdType
  /-- The number of its arguments; the parser only asks whether it is zero. -/
  argsNum : Nat
deriving DecidableEq

/-- The entry `read_memory`. -/
def readMemoryEntry : CmdStruct := ⟨[['r', 'm'], ['r', 'e', 'a', 'd', 'm']], .readMemory, 2⟩

/-- The entry `read_registers`. -/
def readRegistersEntry : CmdStruct := ⟨[['r', 'e'], ['r', 'e', 'g', 's']], .showRegs, 0⟩

/-- `commands`, as the source lists it: the entries exit, help, next, continue, breakpoint,
hw_breakpoint, read_memory, read_registers, mprot and mmap. -/
def commands : List CmdStruct :=
  [⟨[['q'], ['q', 'u', 'i', 't'], ['e', 'x', 'i', 't']], .exit, 0⟩,
   ⟨[['?'], ['h', 'e', 'l', 'p']], .help, 0⟩,
   ⟨[['n'], ['n', 'e', 'x', 't']], .next, 0⟩,
   ⟨[['c'], ['c', 'o', 'n', 't'], ['c', 'o', 'n', 't', 'i', 'n', 'u', 'e']], .contin, 0⟩,
   ⟨[['b', 'p'], ['b', 'r', 'e', 'a', 'k', 'p', 'o', 'i', 'n', 't']], .setBreakpoint, 1⟩,
   ⟨[['h', 'b', 'p'], ['h', 'b', 'r', 'e', 'a', 'k', 'p', 'o', 'i', 'n', 't']],
    .setHwBreakpoint, 2⟩,
   readMemoryEntry,
   readRegistersEntry,
   ⟨[['m', 'p', 'r', 'o', 't']], .memMprotect, 3⟩,
   ⟨[['m', 'm', 'a', 'p']], .memMmap, 3⟩]

/-- The fields of class `CmdParser` that `getCmd` uses. -/
structure CmdParser where
  /-- `last_command`. -/
  lastCommand : CmdType
  /-- `cmd_args`. -/
  cmdArgs : List Text

/-- `has_match`: an alias of the entry begins the line. -/
def CmdStruct.hasMatch (cs : CmdStruct) (cmdStr : Text) : Bool :=
  cs.cmd.any fun sc => cmdStr.take sc.length == sc

namespace CmdParser

/-- The parser at its start. -/
def initial : CmdParser := ⟨.none, []⟩

/-- `parseArgs`, with its result: the parts of the line after the first. -/
def parseArgs (parser : CmdParser) (cmdStr : Text) : Bool × CmdParser :=
  (true, { parser with cmdArgs := (splitString cmdStr ' ').tail })

/-- The loop of `getCmd` over the entries of the table. -/
def parseCommand (parser : CmdParser) (cmdStr : Text) : List CmdStruct → CmdParser × Option CmdType
  | [] => (parser, none)
  | cs :: rest =>
    if !cs.hasMatch cmdStr then parser.parseCommand cmdStr rest
    else if cs.argsNum ≠ 0 then
      let (parsed, parser) := parser.parseArgs cmdStr
      if parsed then ({ parser with lastCommand := cs.type }, some cs.type)
      else parser.parseCommand cmdStr rest
    else ({ parser with lastCommand := cs.type }, some cs.type)

/-- One turn of the loop of `getCmd`, on the string `std::getline` left: the command it returns,
or none where it asks for another line. -/
def readCmd (order : List CmdStruct) (parser : CmdParser) (cmdStr : Text) :
    CmdParser × Option CmdType :=
  if cmdStr.isEmpty && parser.lastCommand != .none then (parser, some parser.lastCommand)
  else parser.parseCommand cmdStr order

/-- `getCmd` on the lines still to come: the command it returns, if they hold one, the parser
it leaves and the lines it has not read. -/
def getCmd (order : List CmdStruct) (parser : CmdParser) :
    List Text → Option CmdType × CmdParser × List Text
  | [] => (none, parser, [])
  | cmdStr :: rest =>
    match parser.readCmd order cmdStr with
    | (parser, some command) => (some command, parser, rest)
    | (parser, none) => parser.getCmd order rest

end CmdParser

/-- The parser after a line was taken for an entry. -/
def CmdParser.accept (parser : CmdParser) (cmdStr : Text) (cs : CmdStruct) : CmdParser where
  lastCommand := cs.type
  cmdArgs := if cs.argsNum = 0 then parser.cmdArgs else (splitString cmdStr ' ').tail

/-- The loop over the table takes the first entry that matches. -/
theorem parseCommand_eq (parser : CmdParser) (cmdStr : Text) (order : List CmdStruct) :
    parser.parseCommand cmdStr order =
      match order.find? fun cs => cs.hasMatch cmdStr with
      | none => (parser, none)
      | some cs => (parser.accept cmdStr cs, some cs.type) := by
  induction order with
  | nil => rfl
  | cons cs rest ih =>
    unfold CmdParser.parseCommand
    rw [List.find?_cons]
    cases matched : cs.hasMatch cmdStr with
    | false => exact ih
    | true =>
      unfold CmdParser.parseArgs CmdParser.accept
      by_cases args : cs.argsNum = 0
      · simp [args]
      · simp [args]

/-- An entry matches a line exactly when one of its aliases begins the line. -/
theorem hasMatch_iff (cs : CmdStruct) (cmdStr : Text) :
    cs.hasMatch cmdStr = true ↔ ∃ sc ∈ cs.cmd, sc <+: cmdStr := by
  unfold CmdStruct.hasMatch
  rw [List.any_eq_true]
  refine exists_congr fun sc => and_congr_right fun _ => ?_
  rw [beq_iff_eq, List.prefix_iff_eq_take, eq_comm]

/-- The aliases are words: they are not empty and hold no space. -/
theorem commands_words : ∀ cs ∈ commands, ∀ sc ∈ cs.cmd,
    sc ≠ [] ∧ ∀ letter ∈ sc, (letter == ' ') = false := by
  simp [commands, readMemoryEntry, readRegistersEntry]

/-- No entry is for `NONE`. -/
theorem commands_type : ∀ cs ∈ commands, cs.type ≠ .none := by decide

/-- The types whose handlers read the arguments. -/
def CmdType.readsArgs : CmdType → Bool
  | .setBreakpoint | .setHwBreakpoint | .readMemory | .memMprotect => true
  | _ => false

/-- The entries whose handlers read the arguments have some. -/
theorem commands_args : ∀ cs ∈ commands, cs.type.readsArgs = true → cs.argsNum ≠ 0 := by decide

/-- The entry taken for a line is one of the table. -/
theorem find_mem {order : List CmdStruct} (perm : order.Perm commands) {cmdStr : Text}
    {cs : CmdStruct} (taken : order.find? (fun cs => cs.hasMatch cmdStr) = some cs) :
    cs ∈ commands ∧ cs.hasMatch cmdStr = true := by
  obtain ⟨matched, -⟩ := List.find?_eq_some_iff_append.mp taken
  exact ⟨perm.mem_iff.mp (List.mem_of_find?_eq_some taken), matched⟩

/-- No alias begins the empty line. -/
theorem find_empty {order : List CmdStruct} (perm : order.Perm commands) :
    order.find? (fun cs => cs.hasMatch []) = none := by
  cases taken : order.find? fun cs => cs.hasMatch [] with
  | none => rfl
  | some cs =>
    obtain ⟨member, matched⟩ := find_mem perm taken
    obtain ⟨sc, listed, initial⟩ := (hasMatch_iff cs []).mp matched
    exact absurd (List.prefix_nil.mp initial) (commands_words cs member sc listed).1

/-- An empty line repeats the last command. -/
theorem readCmd_repeat (order : List CmdStruct) {parser : CmdParser}
    (heard : parser.lastCommand ≠ .none) :
    parser.readCmd order [] = (parser, some parser.lastCommand) := by
  unfold CmdParser.readCmd
  rw [if_pos]
  simpa using heard

/-- Before the first command an empty line is no command. -/
theorem readCmd_silent {order : List CmdStruct} (perm : order.Perm commands) {parser : CmdParser}
    (unheard : parser.lastCommand = .none) : parser.readCmd order [] = (parser, none) := by
  unfold CmdParser.readCmd
  rw [if_neg (by simp [unheard]), parseCommand_eq, find_empty perm]

/-- Any other line is taken for the first entry that matches it. -/
theorem readCmd_line (order : List CmdStruct) (parser : CmdParser) {cmdStr : Text}
    (nonempty : cmdStr ≠ []) :
    parser.readCmd order cmdStr =
      match order.find? fun cs => cs.hasMatch cmdStr with
      | none => (parser, none)
      | some cs => (parser.accept cmdStr cs, some cs.type) := by
  unfold CmdParser.readCmd
  rw [if_neg (by simp [nonempty]), parseCommand_eq]

/-- What a line does: it is taken for an entry, or it is no command, or it is empty and repeats
the last command. -/
theorem readCmd_cases {order : List CmdStruct} (perm : order.Perm commands) (parser : CmdParser)
    (cmdStr : Text) :
    (∃ cs, order.find? (fun cs => cs.hasMatch cmdStr) = some cs ∧
      parser.readCmd order cmdStr = (parser.accept cmdStr cs, some cs.type)) ∨
    order.find? (fun cs => cs.hasMatch cmdStr) = none ∧
      (parser.readCmd order cmdStr = (parser, none) ∨
        parser.lastCommand ≠ .none ∧
          parser.readCmd order cmdStr = (parser, some parser.lastCommand)) := by
  by_cases empty : cmdStr = []
  · subst empty
    refine .inr ⟨find_empty perm, ?_⟩
    by_cases unheard : parser.lastCommand = .none
    · exact .inl (readCmd_silent perm unheard)
    · exact .inr ⟨unheard, readCmd_repeat order unheard⟩
  · have read := readCmd_line order parser empty
    cases taken : order.find? fun cs => cs.hasMatch cmdStr with
    | none =>
      rw [taken] at read
      exact .inr ⟨rfl, .inl read⟩
    | some cs =>
      rw [taken] at read
      exact .inl ⟨cs, rfl, read⟩

/-- The entries are for commands of the prompt. -/
theorem commands_prompt :
    ∀ cs ∈ commands, cs.type ≠ .syscallContin ∧ cs.type ≠ .straceMode := by decide

end A64dbg
