import A64dbg.Verif.Dispatch
import A64dbg.Verif.EndOfInput
import A64dbg.Verif.Numbers

/-!
# Scripts for the debugger

A script is a list of lines as they are typed at the prompt: commands with their arguments and any
number of spaces, empty lines, lines that no command begins, and the end of the input. A `Request`
is what a command asks for, with words for its arguments, and an `Asker` does requests without a
parser: an empty line asks for the last request again. `script_meant` says that in every order of
the table the debugger does to the tracee what the requests of a script ask for, one by one, with
the arguments as they were typed, and dispatches nothing else. The order of the table matters to one
word, `readm`, which a script may hold only where `read_memory` comes before `read_registers`.
-/

namespace A64dbg.PromptScripts

open Fields Runs EndOfInput

/-- What a command asks for. -/
inductive Request where
  /-- End the session. -/
  | exit
  /-- Print the help. -/
  | help
  /-- Make a step. -/
  | next
  /-- Continue. -/
  | contin
  /-- Print the registers. -/
  | showRegs
  /-- Map a page in the tracee. -/
  | mmap
  /-- Set a software breakpoint. -/
  | setBreakPoint (bpAddr : Word)
  /-- Set a hardware breakpoint. -/
  | setHwBreakPoint (bpAddr bpNum : Word)
  /-- Dump memory. -/
  | readMemory (rAddr rSize : Word)
  /-- Change the protection of memory. -/
  | mprot (memAddr memSize memProt : Word)

namespace Request

/-- The type of its command. -/
def type : Request → CmdType
  | .exit => .exit
  | .help => .help
  | .next => .next
  | .contin => .contin
  | .showRegs => .showRegs
  | .mmap => .memMmap
  | .setBreakPoint _ => .setBreakpoint
  | .setHwBreakPoint _ _ => .setHwBreakpoint
  | .readMemory _ _ => .readMemory
  | .mprot _ _ _ => .memMprotect

/-- Its arguments. -/
def words : Request → List Word
  | .setBreakPoint bpAddr => [bpAddr]
  | .setHwBreakPoint bpAddr bpNum => [bpAddr, bpNum]
  | .readMemory rAddr rSize => [rAddr, rSize]
  | .mprot memAddr memSize memProt => [memAddr, memSize, memProt]
  | .exit | .help | .next | .contin | .showRegs | .mmap => []

/-- What becomes of it. -/
def issue (host : Host) (session : Session) (answers : List Resume) : Request → Issued
  | .exit => .ended
  | .help | .showRegs => .returned session answers
  | .next => resumeOnce session.next answers
  | .contin => resumeOnce session.continue answers
  | .mmap => resumeOnce session.allocateMemoryInChild answers
  | .setBreakPoint bpAddr => .returned (session.setBreakPoint bpAddr) answers
  | .setHwBreakPoint bpAddr bpNum => .returned (session.setHwBreakPoint bpAddr bpNum) answers
  | .readMemory _ rSize => if host.reads rSize then .returned session answers else .ended
  | .mprot memAddr memSize memProt =>
    if memAddr = -1 ∨ memSize = -1 ∨ memProt = -1 then .returned session answers
    else if session.debugger.connector.refusesMprotect memAddr then .returned session answers
    else resumeOnce (session.mprotectMemory memAddr memSize memProt) answers

end Request

/-- Texts denote words: decimal digits, or `0x` and hexadecimal digits. -/
abbrev Denote (texts : List Text) (words : List Word) : Prop :=
  List.Forall₂ (fun text word => Numbers.plainNumber text = some word.toNat) texts words

/-- Texts are read as words. -/
abbrev Spell (texts : List Text) (words : List Word) : Prop :=
  List.Forall₂ (fun text word => stringToU64 text = some word) texts words

/-- A command as it is typed. -/
structure Entry where
  /-- What is meant. -/
  request : Request
  /-- The word that is typed for it. -/
  command : Text
  /-- The spaces behind the word. -/
  gap : Nat
  /-- The arguments, and the spaces behind each. -/
  args : List (Text × Nat)

namespace Entry

/-- The words of the line, with their spaces. -/
def words (entry : Entry) : List (Text × Nat) := (entry.command, entry.gap) :: entry.args

/-- The line. -/
def text (entry : Entry) : Text := pieces ' ' entry.words

/-- An alias of the command at the start of the line, and the words that the command reads behind
it. -/
structure Proper (order : List CmdStruct) (entry : Entry) : Prop where
  /-- The word is an alias of the command. -/
  listed : ∃ cs ∈ commands, cs.type = entry.request.type ∧ entry.command ∈ cs.cmd
  /-- `readm` is found before `re`. -/
  found : entry.command = Dispatch.readm →
    [readMemoryEntry, readRegistersEntry].Sublist order
  /-- The arguments are words. -/
  args : ∀ arg ∈ entry.args, arg.1 ≠ [] ∧ ∀ letter ∈ arg.1, (letter == ' ') = false
  /-- There are spaces between the words. -/
  apart : ∀ word ∈ entry.words.dropLast, 0 < word.2
  /-- The arguments that are read denote what is meant. -/
  denoted : entry.request.type.readsArgs = true →
    Denote (entry.args.map Prod.fst) entry.request.words

end Entry

/-- A line of a script. -/
inductive Line where
  /-- A command. -/
  | typed (entry : Entry)
  /-- An empty line. -/
  | again
  /-- A line that no alias begins. -/
  | noise (text : Text)
  /-- The end of the input. -/
  | ended

namespace Line

/-- What `std::getline` reads. -/
def read : Line → Option Text
  | .typed entry => some entry.text
  | .again => some []
  | .noise text => some text
  | .ended => none

/-- A command as it should be typed, or a line that no alias begins. -/
def Proper (order : List CmdStruct) : Line → Prop
  | .typed entry => entry.Proper order
  | .noise text => text ≠ [] ∧ ∀ cs ∈ commands, ∀ sc ∈ cs.cmd, ¬sc <+: text
  | .again | .ended => True

end Line

/-- A debugger without a parser. -/
structure Asker where
  /-- The session. -/
  session : Session
  /-- The last request. -/
  last : Option Request
  /-- The commands dispatched. -/
  dispatched : List CmdType
  /-- Where it is. -/
  phase : Phase

namespace Asker

/-- A debugger without a parser starts with no request. -/
def start (session : Session) : Asker where
  session := session
  last := none
  dispatched := []
  phase := if session.stopped then .reading else .over

/-- Do a request. -/
def perform (host : Host) (asker : Asker) (answers : List Resume) (request : Request) : Asker :=
  let issued := request.issue host asker.session answers
  { session := issued.session asker.session
    last := some request
    dispatched := asker.dispatched ++ [request.type]
    phase := issued.phase }

/-- The request of a line. -/
def asks (asker : Asker) : Line → Option Request
  | .typed entry => some entry.request
  | .again | .ended => asker.last
  | .noise _ => none

/-- What a line does, with the answers of the kernel. -/
def turn (host : Host) (asker : Asker) (line : Line × List Resume) : Asker :=
  match asker.phase with
  | .waiting | .over => asker
  | .reading => (asker.asks line.1).elim asker (asker.perform host line.2)

end Asker

/-- What the parser keeps of the last request. -/
def Keeps (parser : CmdParser) : Option Request → Prop
  | none => parser.lastCommand = .none
  | some request => parser.lastCommand = request.type ∧
      (request.type.readsArgs = true → Spell parser.cmdArgs request.words)

/-- The debugger is where the asker is. -/
structure Agrees (program : Program) (asker : Asker) : Prop where
  /-- The session. -/
  session : program.session = asker.session
  /-- The commands dispatched. -/
  dispatched : program.dispatched = asker.dispatched
  /-- The phase. -/
  phase : program.phase = asker.phase
  /-- The parser. -/
  parser : Keeps program.parser asker.last

variable {host : Host} {order : List CmdStruct}

/-- **A command is what its request asks for**, on arguments that spell its words. -/
theorem issue_spelled (session : Session) (answers : List Resume) {args : List Text}
    {request : Request} (spelled : request.type.readsArgs = true → Spell args request.words) :
    issueCommand host session args answers request.type =
      request.issue host session answers := by
  cases request with
  | exit | help | next | contin | showRegs | mmap => rfl
  | setBreakPoint bpAddr =>
    have spell : Spell args [bpAddr] := spelled rfl
    obtain _ | ⟨here, _ | _⟩ := spell
    simp only [issueCommand, Request.type, Handlers.setBreakPoint, here, Option.map_some]
    rfl
  | setHwBreakPoint bpAddr bpNum =>
    have spell : Spell args [bpAddr, bpNum] := spelled rfl
    obtain _ | ⟨first, _ | ⟨second, _ | _⟩⟩ := spell
    simp only [issueCommand, Request.type, Handlers.setHwBreakPoint, first, second,
      Option.bind_some, Option.map_some]
    rfl
  | readMemory rAddr rSize =>
    have spell : Spell args [rAddr, rSize] := spelled rfl
    obtain _ | ⟨first, _ | ⟨second, _ | _⟩⟩ := spell
    simp only [issueCommand, Request.type, Handlers.readTraceeMemory, first, second,
      Option.bind_some, Request.issue]
    cases host.reads rSize with
    | true => rfl
    | false => rfl
  | mprot memAddr memSize memProt =>
    have spell : Spell args [memAddr, memSize, memProt] := spelled rfl
    obtain _ | ⟨first, _ | ⟨second, _ | ⟨third, _ | _⟩⟩⟩ := spell
    simp only [issueCommand, Request.type, Handlers.mprotMem, Handlers.mprotArgs, first, second,
      third, Option.bind_some, Option.map_some]
    rfl

/-- Texts are read as the words they denote. -/
theorem spell_of_denote {texts : List Text} {words : List Word} (denote : Denote texts words) :
    Spell texts words := by
  apply denote.imp
  intro text word number
  rw [Numbers.stringToU64_plain number, Numbers.signed, if_pos word.isLt]
  simp

/-- A request is not for `NONE`. -/
theorem type_ne_none (request : Request) : request.type ≠ .none := by
  cases request <;> exact fun same => nomatch same

/-- A line that is typed as it should be is taken for its command, with its arguments. -/
theorem read_entry (perm : order.Perm commands) {entry : Entry} (proper : entry.Proper order)
    (parser : CmdParser) :
    ∃ after, parser.readCmd order entry.text = (after, some entry.request.type) ∧
      Keeps after (some entry.request) := by
  obtain ⟨cs, member, type, listed⟩ := proper.listed
  obtain ⟨nonempty, free⟩ := commands_words cs member entry.command listed
  have words : ∀ word ∈ entry.words, word.1 ≠ [] ∧
      ∀ letter ∈ word.1, (fun letter => letter == ' ') letter = false :=
    List.forall_mem_cons.mpr ⟨⟨nonempty, free⟩, proper.args⟩
  have parts : fields (fun letter => letter == ' ') entry.text =
      entry.command :: entry.args.map Prod.fst := fields_pieces (by rfl) words proper.apart
  have first : (fields (fun letter => letter == ' ') entry.text).head? = some entry.command := by
    rw [parts]
    rfl
  obtain ⟨letter, more, shape⟩ := List.exists_cons_of_ne_nil nonempty
  have front : ∃ rest, entry.text = letter :: rest := by
    rw [Entry.text, Entry.words, pieces, List.flatMap_cons, shape]
    exact ⟨_, rfl⟩
  obtain ⟨rest, line⟩ := front
  have flush : entry.text.head? ≠ some ' ' := by
    rw [line]
    intro space
    have blank := free letter (shape ▸ List.mem_cons_self)
    rw [Option.some.inj space] at blank
    cases blank
  have written : entry.text ≠ [] := by
    rw [line]
    exact List.cons_ne_nil _ _
  have found : order.find? (fun cs => cs.hasMatch entry.text) = some cs := by
    by_cases word : entry.command = Dispatch.readm
    · have own : cs = readMemoryEntry := Dispatch.readm_listed cs member (word ▸ listed)
      rw [own]
      exact (Dispatch.find_readm perm member listed first flush word).mpr (proper.found word)
    · exact Dispatch.find_alias perm member listed first flush word
  have taken := readCmd_line order parser written
  rw [found] at taken
  refine ⟨parser.accept entry.text cs, taken.trans (by rw [← type]), type, fun reads => ?_⟩
  have takes : cs.argsNum ≠ 0 := commands_args cs member (type ▸ reads)
  rw [CmdParser.accept, if_neg takes, splitString_eq, parts]
  exact spell_of_denote (proper.denoted reads)

/-- A line that no alias begins is no command. -/
theorem read_noise (perm : order.Perm commands) {text : Text} (nonempty : text ≠ [])
    (unknown : ∀ cs ∈ commands, ∀ sc ∈ cs.cmd, ¬sc <+: text) (parser : CmdParser) :
    parser.readCmd order text = (parser, none) := by
  have missed : order.find? (fun cs => cs.hasMatch text) = none := by
    rw [List.find?_eq_none]
    intro cs inside matched
    obtain ⟨sc, listed, initial⟩ := (hasMatch_iff cs text).mp matched
    exact unknown cs (perm.mem_iff.mp inside) sc listed initial
  rw [readCmd_line order parser nonempty, missed]

/-- What the parser makes of a line is what the line asks for. -/
theorem read_line (perm : order.Perm commands) {line : Line} (proper : line.Proper order)
    {program : Program} {asker : Asker} (agrees : Agrees program asker) :
    ∃ after, program.parser.readCmd order (line.read.getD []) =
        (after, (asker.asks line).map Request.type) ∧
      Keeps after ((asker.asks line).or asker.last) := by
  have empty : ∃ after, program.parser.readCmd order [] = (after, asker.last.map Request.type) ∧
      Keeps after (asker.last.or asker.last) := by
    have kept := agrees.parser
    cases last : asker.last with
    | none =>
      rw [last] at kept
      exact ⟨program.parser, readCmd_silent perm kept, kept⟩
    | some request =>
      rw [last] at kept
      have heard : program.parser.lastCommand ≠ .none := by
        rw [kept.1]
        exact type_ne_none request
      refine ⟨program.parser, ?_, kept⟩
      rw [readCmd_repeat order heard, kept.1]
      rfl
  cases line with
  | again => exact empty
  | ended => exact empty
  | noise text => exact ⟨program.parser, read_noise perm proper.1 proper.2 _, agrees.parser⟩
  | typed entry => exact read_entry perm proper program.parser

/-- **One line.** The debugger does what the line asks for. -/
theorem turn_agrees (perm : order.Perm commands) {line : Line} (proper : line.Proper order)
    (answers : List Resume) {program : Program} {asker : Asker} (agrees : Agrees program asker) :
    Agrees (program.turn host order (line.read, answers)) (asker.turn host (line, answers)) := by
  have phase := agrees.phase
  match here : asker.phase with
  | .waiting | .over =>
    simp only [Program.turn, Asker.turn, phase, here]
    exact agrees
  | .reading =>
    obtain ⟨after, read, keeps⟩ := read_line perm proper agrees
    simp only [Program.turn, Asker.turn, phase, here, read]
    cases asked : asker.asks line with
    | none =>
      rw [asked] at keeps
      simp only [Option.map_none, Option.elim_none]
      exact ⟨agrees.session, agrees.dispatched, here.symm, keeps⟩
    | some request =>
      rw [asked] at keeps
      have issued : issueCommand host program.session after.cmdArgs answers request.type =
          request.issue host asker.session answers := by
        rw [agrees.session]
        exact issue_spelled asker.session answers keeps.2
      simp only [Option.map_some, Option.elim_some, Program.dispatch, Asker.perform, issued]
      constructor
      · rw [agrees.session]
      · rw [agrees.dispatched]
      · rfl
      · exact keeps

/-- **Scripts are done as they are meant.** In every order of the table, and whatever the tracee
does, after a script the session, the commands dispatched and the phase are those that the requests
of its lines lead to. -/
theorem script_meant (host : Host) {order : List CmdStruct} (perm : order.Perm commands)
    (session : Session) {script : List (Line × List Resume)}
    (proper : ∀ line ∈ script, line.1.Proper order) :
    let program := after (Program.turn host order) (Program.start session)
      (script.map fun line => (line.1.read, line.2))
    let asker := after (Asker.turn host) (Asker.start session) script
    program.session = asker.session ∧ program.dispatched = asker.dispatched ∧
      program.phase = asker.phase := by
  have run (program : Program) (asker : Asker) (agrees : Agrees program asker) :
      Agrees (after (Program.turn host order) program
        (script.map fun line => (line.1.read, line.2))) (after (Asker.turn host) asker script) := by
    induction script generalizing program asker with
    | nil => exact agrees
    | cons line rest ih =>
      rw [List.forall_mem_cons] at proper
      exact ih proper.2 _ _ (turn_agrees perm proper.1 line.2 agrees)
  have start : Agrees (Program.start session) (Asker.start session) := ⟨rfl, rfl, rfl, rfl⟩
  have done := run _ _ start
  exact ⟨done.session, done.dispatched, done.phase⟩

/-- `bp 0x1000`, an empty line, a line that no command begins, `readm 16 2` and the end of the
input. -/
def sampleLines : List (Line × List Resume) :=
  [(.typed ⟨.setBreakPoint 0x1000, ['b', 'p'], 1, [(['0', 'x', '1', '0', '0', '0'], 0)]⟩, []),
    (.again, []), (.noise ['l', 's'], []),
    (.typed ⟨.readMemory 16 2, Dispatch.readm, 1, [(['1', '6'], 1), (['2'], 0)]⟩, []),
    (.ended, [])]

/-- Decimal digits that do not begin with `0x` denote the number they spell. -/
theorem plainNumber_decimal {text : Text} (unmarked : text.take 2 ≠ ['0', 'x'])
    (nonempty : text ≠ []) (digits : ∀ letter ∈ text, isDigitOf 10 letter = true) :
    Numbers.plainNumber text = some (numberOf 10 text) := by
  rw [Numbers.plainNumber, if_neg unmarked, Numbers.spelled, if_pos ⟨nonempty, digits⟩]

/-- The numbers of the sample denote what it asks for. -/
theorem sampleLines_numbers :
    Denote [['0', 'x', '1', '0', '0', '0']] [0x1000] ∧ Denote [['1', '6'], ['2']] [16, 2] := by
  have hexadecimal : ∀ letter ∈ ['1', '0', '0', '0'], isDigitOf 16 letter = true := by
    simp only [List.forall_mem_cons, List.not_mem_nil, false_implies, implies_true]
    decide
  have decimal : (∀ letter ∈ ['1', '6'], isDigitOf 10 letter = true) ∧
      ∀ letter ∈ ['2'], isDigitOf 10 letter = true := by
    simp only [List.forall_mem_cons, List.not_mem_nil, false_implies, implies_true]
    decide
  have address : Numbers.plainNumber ['0', 'x', '1', '0', '0', '0'] = some 0x1000 := by
    have marked : ['0', 'x', '1', '0', '0', '0'].take 2 = ['0', 'x'] := rfl
    have behind : ['0', 'x', '1', '0', '0', '0'].drop 2 = ['1', '0', '0', '0'] := rfl
    rw [Numbers.plainNumber, if_pos marked, behind, Numbers.spelled,
      if_pos ⟨List.cons_ne_nil _ _, hexadecimal⟩]
    rfl
  have sixteen : Numbers.plainNumber ['1', '6'] = some 16 :=
    plainNumber_decimal (by decide) (List.cons_ne_nil _ _) decimal.1
  have two : Numbers.plainNumber ['2'] = some 2 :=
    plainNumber_decimal (by decide) (List.cons_ne_nil _ _) decimal.2
  exact ⟨.cons address .nil, .cons sixteen (.cons two .nil)⟩

/-- Every line of the sample is a command with the words it needs, or no command. -/
theorem sampleLines_proper : ∀ line ∈ sampleLines, line.1.Proper commands := by
  have breakpoint : Entry.Proper commands
      ⟨.setBreakPoint 0x1000, ['b', 'p'], 1, [(['0', 'x', '1', '0', '0', '0'], 0)]⟩ := by
    constructor
    · exact ⟨⟨[['b', 'p'], ['b', 'r', 'e', 'a', 'k', 'p', 'o', 'i', 'n', 't']], .setBreakpoint, 1⟩,
        by decide +kernel, rfl, by decide +kernel⟩
    · exact fun word => absurd word (by decide)
    · simp
    · simp [Entry.words]
    · exact fun _ => sampleLines_numbers.1
  have dump : Entry.Proper commands
      ⟨.readMemory 16 2, Dispatch.readm, 1, [(['1', '6'], 1), (['2'], 0)]⟩ := by
    constructor
    · exact ⟨readMemoryEntry, by decide +kernel, rfl, by decide +kernel⟩
    · exact fun _ => by decide +kernel
    · simp
    · simp [Entry.words]
    · exact fun _ => sampleLines_numbers.2
  have noise : Line.Proper commands (.noise ['l', 's']) := by
    constructor
    · exact List.cons_ne_nil _ _
    · decide +kernel
  intro line inside
  simp only [sampleLines, List.mem_cons, List.not_mem_nil, or_false] at inside
  rcases inside with rfl | rfl | rfl | rfl | rfl
  · exact breakpoint
  · trivial
  · exact noise
  · exact dump
  · trivial

/-- The sample sets its breakpoint twice and dumps its memory twice. -/
theorem script_meant_sample :
    (after (Program.turn plainHost commands) (Program.start firstPrompt)
      (sampleLines.map fun line => (line.1.read, line.2))).dispatched =
        [.setBreakpoint, .setBreakpoint, .readMemory, .readMemory] := by
  obtain ⟨-, dispatched, -⟩ := script_meant plainHost (List.Perm.refl commands) firstPrompt
    sampleLines_proper
  rw [dispatched]
  rfl

end A64dbg.PromptScripts
