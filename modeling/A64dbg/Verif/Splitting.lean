import A64dbg.Utils

/-!
# What splitting gives

`splitString` scans its string by position, with `npos` where a search fails. `splitString_exact`
says what it returns for every string and delimiter: the runs without the delimiter, none of them
empty, that together hold every other character once and in order, two of them in one element
exactly when no delimiter lies between them. Joined words come back, whatever number of
delimiters is between them and around them.
-/

namespace A64dbg.Splitting

open Fields

/-- The delimiters of a string. -/
abbrev isDelim (delim : Char) : Char → Bool := fun letter => letter == delim

/-- A position holds a character that is not the delimiter. -/
def Kept (str : Text) (delim : Char) (pos : Nat) : Prop :=
  ∃ letter, str[pos]? = some letter ∧ letter ≠ delim

/-- The element of some parts that the character at a position of the string is in: its place
among the characters that are not the delimiter is counted through the parts. -/
def elementOf (parts : List Text) (str : Text) (delim : Char) (pos : Nat) : Nat :=
  owner parts ((str.take pos).countP fun letter => letter != delim)

/-- Some delimiters, then words with delimiters behind each. -/
def joined (delim : Char) (before : Nat) (words : List (Text × Nat)) : Text :=
  List.replicate before delim ++ words.flatMap fun word => word.1 ++ List.replicate word.2 delim

/-- A kept position is one without a delimiter. -/
theorem kept_iff (str : Text) (delim : Char) (pos : Nat) :
    Kept str delim pos ↔ Inside (isDelim delim) str pos := by
  unfold Kept Inside
  simp only [beq_eq_false_iff_ne]

/-- **`splitString` returns exactly the fields.** For every string and delimiter no element is
empty or holds the delimiter, together they are the string without its delimiters, and two
characters are in the same element exactly when no delimiter lies between them. Non-empty words
without the delimiter, with any positive numbers of delimiters between them and any number before
and after, come back. -/
theorem splitString_exact (str : Text) (delim : Char) :
    (∀ part ∈ splitString str delim, part ≠ [] ∧ delim ∉ part) ∧
    (splitString str delim).flatten = str.filter (fun letter => letter != delim) ∧
    (∀ first second, first ≤ second → Kept str delim first → Kept str delim second →
      (elementOf (splitString str delim) str delim first =
          elementOf (splitString str delim) str delim second ↔
        ∀ between, first < between → between < second → Kept str delim between)) ∧
    ∀ before words, (∀ word ∈ words, word.1 ≠ [] ∧ delim ∉ word.1) →
      (∀ word ∈ words.dropLast, 0 < word.2) →
      splitString (joined delim before words) delim = words.map Prod.fst := by
  refine ⟨?_, ?_, ?_, ?_⟩
  · intro part member
    rw [splitString_eq] at member
    obtain ⟨nonempty, free⟩ := fields_free str part member
    refine ⟨nonempty, fun inside => ?_⟩
    have same := free delim inside
    rw [beq_self_eq_true] at same
    cases same
  · rw [splitString_eq, fields_flatten]
    rfl
  · intro first second ordered firstKept secondKept
    rw [kept_iff] at firstKept secondKept
    simp only [kept_iff, splitString_eq]
    exact same_field_iff str ordered firstKept secondKept
  · intro before words free apart
    have separated : isDelim delim delim = true := beq_self_eq_true delim
    have clean : ∀ word ∈ words, word.1 ≠ [] ∧
        ∀ letter ∈ word.1, isDelim delim letter = false := by
      intro word member
      obtain ⟨nonempty, absent⟩ := free word member
      refine ⟨nonempty, fun letter inside => beq_eq_false_iff_ne.mpr ?_⟩
      rintro rfl
      exact absent inside
    rw [splitString_eq, joined, fields_replicate separated]
    exact fields_pieces separated clean apart

/-- Spaces before, between and after two words. -/
example : splitString [' ', 'b', 'p', ' ', ' ', '1', ' '] ' ' = [['b', 'p'], ['1']] := by
  rw [splitString_eq]
  decide

end A64dbg.Splitting
