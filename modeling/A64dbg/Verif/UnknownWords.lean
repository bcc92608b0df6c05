import A64dbg.Verif.Dispatch

/-!
# Words that are no command

A line whose first word is no alias should be reported and forgotten. `getCmd` asks only whether
an alias begins the line, so a longer word that begins with one is a command too: `quack` ends the
debugger. `ignored_iff` says for every such line, in any order of the table, exactly when it is
forgotten.
-/

namespace A64dbg.UnknownWords

open Fields Dispatch

/-- What `getCmd` prints of a line it takes for no command; `%s` ends at the first null. -/
def unknownMessage (cmdStr : Text) : Text :=
  "[!] Unknown command: '".toList ++ (cmdStr.takeWhile fun letter => letter.toNat != 0) ++
    "'\n".toList

/-- What `getCmd` reports until it returns. -/
def reports (order : List CmdStruct) (parser : CmdParser) : List Text → List Text
  | [] => []
  | cmdStr :: rest =>
    match parser.readCmd order cmdStr with
    | (_, some _) => []
    | (parser, none) => unknownMessage cmdStr :: reports order parser rest

/-- No entry of the table lists the first word of a line. -/
def Unlisted (line : Text) : Prop :=
  ∀ cs ∈ commands, ∀ sc ∈ cs.cmd, (fields (fun letter => letter == ' ') line).head? ≠ some sc

instance (line : Text) : Decidable (Unlisted line) :=
  inferInstanceAs (Decidable (∀ cs ∈ commands, _))

/-- The line is reported, and `getCmd` goes on to the next one with its parser as it was. -/
def Ignored (order : List CmdStruct) (parser : CmdParser) (line : Text) : Prop :=
  ∀ rest, parser.getCmd order (line :: rest) = parser.getCmd order rest ∧
    reports order parser (line :: rest) = unknownMessage line :: reports order parser rest

/-- No alias begins the first word of a line. -/
def Unbegun (line : Text) : Prop :=
  ∀ word, (fields (fun letter => letter == ' ') line).head? = some word →
    ∀ cs ∈ commands, ¬Begins cs word

/-- A line is ignored exactly when it is taken for no entry. -/
theorem ignored_iff_find (order : List CmdStruct) (parser : CmdParser) {line : Text}
    (nonempty : line ≠ []) :
    Ignored order parser line ↔ order.find? (fun cs => cs.hasMatch line) = none := by
  have read := readCmd_line order parser nonempty
  cases taken : order.find? fun cs => cs.hasMatch line with
  | none =>
    rw [taken] at read
    apply iff_of_true _ rfl
    intro rest
    constructor
    · rw [CmdParser.getCmd, read]
    · rw [reports, read]
  | some cs =>
    rw [taken] at read
    apply iff_of_false
    · intro ignored
      have returned : parser.getCmd order [line] = (none, parser, []) := (ignored []).1
      simp only [CmdParser.getCmd, read] at returned
      cases congrArg Prod.fst returned
    · intro untaken
      cases untaken

/-- **Unknown words.** In any order of the table a line, also one whose first word no entry lists,
is reported and forgotten exactly when it begins with a space or no alias begins that word. -/
theorem ignored_iff {order : List CmdStruct} (perm : order.Perm commands) (parser : CmdParser)
    {line : Text} (nonempty : line ≠ []) :
    Ignored order parser line ↔ line.head? = some ' ' ∨ Unbegun line := by
  rw [ignored_iff_find order parser nonempty]
  by_cases flush : line.head? = some ' '
  · exact iff_of_true (find_space perm flush) (.inl flush)
  · obtain ⟨word, first⟩ : ∃ word, (fields (fun letter => letter == ' ') line).head? = some word :=
      ⟨_, fields_flush nonempty flush⟩
    have begun (cs : CmdStruct) (member : cs ∈ commands) :
        cs.hasMatch line = true ↔ Begins cs word := hasMatch_word member first flush
    rw [or_iff_right flush, List.find?_eq_none]
    constructor
    · intro unmatched other same cs member begins
      have here : word = other := Option.some.inj (first.symm.trans same)
      subst here
      exact unmatched cs (perm.mem_iff.mpr member) ((begun cs member).mpr begins)
    · intro unbegun cs inside matched
      have member := perm.mem_iff.mp inside
      exact unbegun word first cs member ((begun cs member).mp matched)

/-- `quack`. -/
def quack : Text := ['q', 'u', 'a', 'c', 'k']

/-- `zap 1`. -/
def zap : Text := ['z', 'a', 'p', ' ', '1']

/-- No entry lists `zap`, and the line is forgotten. -/
theorem zap_ignored : Unlisted zap ∧ Ignored commands CmdParser.initial zap := by
  refine ⟨by decide +kernel, ?_⟩
  apply (ignored_iff (List.Perm.refl _) CmdParser.initial (List.cons_ne_nil _ _)).mpr
  right
  intro word first
  have same : word = ['z', 'a', 'p'] := Option.some.inj (first.symm.trans (by decide +kernel))
  subst same
  decide +kernel

/-- No entry lists `quack`, and the line ends the debugger. -/
theorem quack_quits :
    Unlisted quack ∧ ¬Ignored commands CmdParser.initial quack ∧
    (CmdParser.initial.getCmd commands [quack]).1 = some .exit := by
  have quits : (CmdParser.initial.getCmd commands [quack]).1 = some .exit := by decide +kernel
  refine ⟨by decide +kernel, ?_, quits⟩
  intro ignored
  have silent := congrArg Prod.fst (ignored []).1
  cases quits.symm.trans silent

end A64dbg.UnknownWords
