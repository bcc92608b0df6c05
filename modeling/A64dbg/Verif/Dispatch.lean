import A64dbg.CmdParser

/-!
# Dispatch and the order of the command table

`getCmd` compares aliases with the beginning of the line, not with its first word, and takes the
first entry that matches in the order of a hash map. `re` begins `readm`, so `readm` is taken
for `regs` in some orders. `dispatch_iff` says for every line whose first word is an alias, and
every order, exactly when its own entry is taken.
-/

namespace A64dbg.Dispatch

open Fields

/-- The alias of `read_memory` that an alias of `read_registers` begins. -/
def readm : Text := ['r', 'e', 'a', 'd', 'm']

/-- The words that an alias of an entry begins. -/
def Begins (cs : CmdStruct) (word : Text) : Prop := ∃ sc ∈ cs.cmd, sc <+: word

instance (cs : CmdStruct) (word : Text) : Decidable (Begins cs word) :=
  inferInstanceAs (Decidable (∃ sc ∈ cs.cmd, _))

/-- **The table.** Only its own entry matches an alias, but for `readm`, which `read_registers`
matches too. -/
theorem begins_iff : ∀ cs ∈ commands, ∀ sc ∈ cs.cmd, ∀ other ∈ commands,
    (Begins other sc ↔ other = cs ∨ sc = readm ∧ other = readRegistersEntry) := by
  decide +kernel

/-- A line that is not empty and does not begin with a space begins with its first word. -/
theorem fields_flush {line : Text} (nonempty : line ≠ []) (flush : line.head? ≠ some ' ') :
    (fields (fun letter => letter == ' ') line).head? =
      some (line.takeWhile fun letter => !(letter == ' ')) := by
  cases line with
  | nil => exact absurd rfl nonempty
  | cons letter rest =>
    have inside : (letter == ' ') = false := by
      rw [beq_eq_false_iff_ne]
      rintro rfl
      exact flush rfl
    rw [fields_run (by exact inside)]
    rfl

/-- The first word of a line that does not begin with a space. -/
theorem first_word {line word : Text} (first : (fields (fun letter => letter == ' ') line).head? =
      some word) (flush : line.head? ≠ some ' ') :
    line.takeWhile (fun letter => !(letter == ' ')) = word := by
  have nonempty : line ≠ [] := by
    rintro rfl
    cases first
  rw [fields_flush nonempty flush] at first
  exact Option.some.inj first

/-- An entry matches a line that does not begin with a space exactly when one of its aliases
begins the first word. -/
theorem hasMatch_word {cs : CmdStruct} (member : cs ∈ commands) {line word : Text}
    (first : (fields (fun letter => letter == ' ') line).head? = some word)
    (flush : line.head? ≠ some ' ') : cs.hasMatch line = true ↔ Begins cs word := by
  rw [hasMatch_iff]
  unfold Begins
  refine exists_congr fun sc => and_congr_right fun listed => ?_
  rw [initial_iff (commands_words cs member sc listed).2, first_word first flush]

/-- No entry matches a line that begins with a space. -/
theorem hasMatch_space {cs : CmdStruct} (member : cs ∈ commands) {line : Text}
    (space : line.head? = some ' ') : cs.hasMatch line = false := by
  rw [Bool.eq_false_iff]
  intro matched
  obtain ⟨sc, listed, initial⟩ := (hasMatch_iff cs line).mp matched
  obtain ⟨nonempty, free⟩ := commands_words cs member sc listed
  obtain ⟨letter, rest, rfl⟩ := List.exists_cons_of_ne_nil nonempty
  obtain ⟨more, rfl⟩ := initial
  have same : letter = ' ' := Option.some.inj space
  subst same
  cases free ' ' List.mem_cons_self

/-- Of two entries that alone match, the search finds the one that comes first. -/
theorem find_earlier {order : List CmdStruct} {test : CmdStruct → Bool} {left right : CmdStruct}
    (nodup : order.Nodup) (inside : left ∈ order) (inside' : right ∈ order)
    (apart : left ≠ right)
    (only : ∀ cs ∈ order, test cs = true ↔ cs = left ∨ cs = right) :
    order.find? test = some left ↔ [left, right].Sublist order := by
  induction order with
  | nil => cases inside
  | cons first rest ih =>
    obtain ⟨fresh, nodup⟩ := List.nodup_cons.mp nodup
    by_cases here : first = left
    · subst here
      have found := (only first List.mem_cons_self).mpr (.inl rfl)
      have later : right ∈ rest := (List.mem_cons.mp inside').resolve_left (Ne.symm apart)
      refine iff_of_true (List.find?_cons_of_pos found) ?_
      exact List.Sublist.cons_cons _ (List.singleton_sublist.mpr later)
    · have later : left ∈ rest := (List.mem_cons.mp inside).resolve_left (Ne.symm here)
      by_cases there : first = right
      · subst there
        have found := (only first List.mem_cons_self).mpr (.inr rfl)
        rw [List.find?_cons_of_pos found]
        apply iff_of_false
        · intro same
          exact here (Option.some.inj same)
        · intro earlier
          rcases List.cons_sublist_cons'.mp earlier with behind | ⟨same, -⟩
          · exact fresh (behind.subset (List.mem_cons_of_mem _ List.mem_cons_self))
          · exact apart same
      · have missed : ¬test first = true := fun found =>
          ((only first List.mem_cons_self).mp found).elim here there
        have later' : right ∈ rest := (List.mem_cons.mp inside').resolve_left (Ne.symm there)
        rw [List.find?_cons_of_neg missed,
          ih nodup later later' fun cs member => only cs (List.mem_cons_of_mem _ member)]
        constructor
        · exact List.Sublist.cons first
        · intro earlier
          rcases List.cons_sublist_cons'.mp earlier with behind | ⟨same, -⟩
          · exact behind
          · exact absurd same.symm here

/-- Where one entry alone matches, the search finds it. -/
theorem find_only {order : List CmdStruct} {test : CmdStruct → Bool} {cs : CmdStruct}
    (inside : cs ∈ order) (only : ∀ other ∈ order, test other = true ↔ other = cs) :
    order.find? test = some cs := by
  cases found : order.find? test with
  | none =>
    have missed := List.find?_eq_none.mp found cs inside
    exact absurd ((only cs inside).mpr rfl) missed
  | some other =>
    obtain ⟨matched, -⟩ := List.find?_eq_some_iff_append.mp found
    rw [(only other (List.mem_of_find?_eq_some found)).mp matched]

/-- No command is listed twice. -/
theorem commands_nodup : commands.Nodup := by decide +kernel

/-- Only `read_memory` lists `readm`. -/
theorem readm_listed : ∀ cs ∈ commands, readm ∈ cs.cmd → cs = readMemoryEntry := by
  decide +kernel

/-- A command is returned on one line exactly when that line is taken for an entry of its
type. -/
theorem getCmd_line (order : List CmdStruct) (parser : CmdParser) {line : Text}
    (nonempty : line ≠ []) :
    (parser.getCmd order [line]).1 =
      (order.find? fun cs => cs.hasMatch line).map CmdStruct.type := by
  unfold CmdParser.getCmd
  rw [readCmd_line order parser nonempty]
  cases order.find? fun cs => cs.hasMatch line with
  | none => rfl
  | some cs => rfl

/-- On a line that begins with a space no entry is taken. -/
theorem find_space {order : List CmdStruct} (perm : order.Perm commands) {line : Text}
    (space : line.head? = some ' ') : order.find? (fun cs => cs.hasMatch line) = none := by
  rw [List.find?_eq_none]
  intro other inside
  rw [hasMatch_space (perm.mem_iff.mp inside) space]
  exact Bool.false_ne_true

section Alias

variable {order : List CmdStruct} (perm : order.Perm commands) {cs : CmdStruct}
  (member : cs ∈ commands) {sc : Text} (listed : sc ∈ cs.cmd) {line : Text}
  (first : (fields (fun letter => letter == ' ') line).head? = some sc)
  (flush : line.head? ≠ some ' ')

include perm member listed first flush

/-- A line whose first word is an alias matches its own entry, and `read_registers` where the
alias is `readm`. -/
theorem hasMatch_alias {other : CmdStruct} (inside : other ∈ order) :
    other.hasMatch line = true ↔ other = cs ∨ sc = readm ∧ other = readRegistersEntry := by
  have known : other ∈ commands := perm.mem_iff.mp inside
  rw [hasMatch_word known first flush, begins_iff cs member sc listed other known]

/-- Any alias but `readm` is found in every order. -/
theorem find_alias (word : sc ≠ readm) :
    order.find? (fun cs => cs.hasMatch line) = some cs := by
  apply find_only (perm.mem_iff.mpr member)
  intro other inside
  rw [hasMatch_alias perm member listed first flush inside]
  exact or_iff_left fun both => word both.1

/-- `readm` finds `read_memory` exactly when the order has it before `read_registers`. -/
theorem find_readm (word : sc = readm) :
    order.find? (fun cs => cs.hasMatch line) = some readMemoryEntry ↔
      [readMemoryEntry, readRegistersEntry].Sublist order := by
  subst word
  have own : cs = readMemoryEntry := readm_listed cs member listed
  apply find_earlier (perm.nodup_iff.mpr commands_nodup)
  · exact perm.mem_iff.mpr (own ▸ member)
  · exact perm.mem_iff.mpr (by decide +kernel)
  · decide +kernel
  · intro other inside
    rw [hasMatch_alias perm member listed first flush inside, and_iff_right rfl, own]

/-- On `readm` the type of `read_memory` is returned exactly when its entry is taken. -/
theorem type_readm (word : sc = readm) :
    (order.find? fun cs => cs.hasMatch line).map CmdStruct.type = some readMemoryEntry.type ↔
      order.find? (fun cs => cs.hasMatch line) = some readMemoryEntry := by
  have own : cs = readMemoryEntry := readm_listed cs member (word ▸ listed)
  constructor
  · intro returned
    obtain ⟨other, found, type⟩ := Option.map_eq_some_iff.mp returned
    obtain ⟨matched, -⟩ := List.find?_eq_some_iff_append.mp found
    have inside : other ∈ order := List.mem_of_find?_eq_some found
    rcases (hasMatch_alias perm member listed first flush inside).mp matched with
      same | ⟨-, registers⟩
    · rw [found, same, own]
    · rw [registers] at type
      cases type
  · intro found
    rw [found]
    rfl

end Alias

/-- **Dispatch.** On a line whose first word is an alias, in any order of the table, `getCmd`
returns the type of the entry that lists the alias exactly when no space comes before the word
and, for `readm`, `read_memory` comes before `read_registers`. -/
theorem dispatch_iff {order : List CmdStruct} (perm : order.Perm commands) (parser : CmdParser)
    {cs : CmdStruct} (member : cs ∈ commands) {sc : Text} (listed : sc ∈ cs.cmd) {line : Text}
    (first : (fields (fun letter => letter == ' ') line).head? = some sc) :
    (parser.getCmd order [line]).1 = some cs.type ↔
      line.head? ≠ some ' ' ∧
        (sc = readm → [readMemoryEntry, readRegistersEntry].Sublist order) := by
  have nonempty : line ≠ [] := by
    rintro rfl
    cases first
  rw [getCmd_line order parser nonempty]
  by_cases flush : line.head? ≠ some ' '
  · rw [and_iff_right flush]
    by_cases word : sc = readm
    · have own : cs = readMemoryEntry := readm_listed cs member (word ▸ listed)
      rw [imp_iff_right word, own, type_readm perm member listed first flush word,
        find_readm perm member listed first flush word]
    · rw [find_alias perm member listed first flush word]
      exact iff_of_true rfl fun same => absurd same word
  · rw [find_space perm (not_not.mp flush)]
    apply iff_of_false
    · intro same
      cases same
    · intro both
      exact flush both.1

/-- The line `readm 16 2`. -/
def readmLine : Text := readm ++ [' ', '1', '6', ' ', '2']

/-- In the order of the source `readm` reads memory. -/
theorem readm_dispatched :
    (CmdParser.initial.getCmd commands [readmLine]).1 = some readMemoryEntry.type := by
  have member : readMemoryEntry ∈ commands := by decide +kernel
  have listed : readm ∈ readMemoryEntry.cmd := by decide +kernel
  have first : (fields (fun letter => letter == ' ') readmLine).head? = some readm := by
    decide +kernel
  have earlier : [readMemoryEntry, readRegistersEntry].Sublist commands := by decide +kernel
  apply (dispatch_iff (List.Perm.refl _) CmdParser.initial member listed first).mpr
  exact ⟨by decide +kernel, fun _ => earlier⟩

/-- In the reverse order `readm` shows the registers, and a space before the word keeps it from
being a command. -/
theorem readm_misread :
    commands.reverse.Perm commands ∧ readMemoryEntry ∈ commands ∧ readm ∈ readMemoryEntry.cmd ∧
    (fields (fun letter => letter == ' ') readmLine).head? = some readm ∧
    (CmdParser.initial.getCmd commands.reverse [readmLine]).1 ≠ some readMemoryEntry.type ∧
    (fields (fun letter => letter == ' ') (' ' :: readmLine)).head? = some readm ∧
    (CmdParser.initial.getCmd commands [' ' :: readmLine]).1 ≠ some readMemoryEntry.type := by
  refine ⟨List.reverse_perm commands, ?_, ?_, ?_, ?_, ?_, ?_⟩
  all_goals decide +kernel

end A64dbg.Dispatch
