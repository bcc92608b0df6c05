import A64dbg.Main

/-!
# Numbers on the command line

A number is decimal, or hexadecimal behind `0x`, it is all of its string and it fits a word; for
any other string the error value -1 is due. `std::stoull` reads a number at the front of a string
and throws where it finds none or one too large, and `stringToU64` catches exceptions of another
type only. So a string that is no number is parsed for its front or ends the debugger, and the
error value comes out only where that front reads as the largest word. `parsed_iff` says for every
string when the result is the one due.
-/

namespace A64dbg.Numbers

variable {base : Nat}

/-- The number a text spells, where it is digits and not empty. -/
def spelled (base : Nat) (text : Text) : Option Nat :=
  if text ≠ [] ∧ ∀ letter ∈ text, isDigitOf base letter = true then some (numberOf base text)
  else none

/-- The number a string denotes. -/
def plainNumber (str : Text) : Option Nat :=
  if str.take 2 = ['0', 'x'] then spelled 16 (str.drop 2) else spelled 10 str

/-- A string denotes a number that is a word. -/
def Plain (str : Text) : Prop := ∃ number, plainNumber str = some number ∧ number < 2 ^ 64

/-- The result that is due: the word denoted, or the error value. -/
def due (str : Text) : Word :=
  match plainNumber str with
  | some number => if number < 2 ^ 64 then BitVec.ofNat 64 number else -1
  | none => -1

/-- The number that the digits at the front of a text spell. -/
def frontNumber (base : Nat) (text : Text) : Option Nat :=
  spelled base (text.takeWhile (isDigitOf base))

/-- The front of a string reads as the largest word: as `0x` and its digits, or as white space, a
sign and decimal digits, where a minus makes it of the number one. -/
def MaxFront (str : Text) : Prop :=
  if str.take 2 = ['0', 'x'] then frontNumber 16 (str.drop 2) = some (2 ^ 64 - 1)
  else
    frontNumber 10 (takeSign (str.dropWhile isSpace)).2 =
      some (if (takeSign (str.dropWhile isSpace)).1 then 1 else 2 ^ 64 - 1)

/-- The word of a number with its sign, or none where the number is no word. -/
def signed (negative : Bool) (number : Nat) : Option Word :=
  if number < 2 ^ 64 then
    some (if negative then -BitVec.ofNat 64 number else BitVec.ofNat 64 number)
  else none

/-- A null is neither a digit nor white space. -/
theorem null_apart (base : Nat) {letter : Char} (null : (letter.toNat != 0) = false) :
    isDigitOf base letter = false ∧ isSpace letter = false := by
  have zero : letter.toNat = 0 := by simpa using null
  have same : letter = Char.ofNat 0 := by rw [← Char.ofNat_toNat letter, zero]
  rw [same]
  exact ⟨rfl, rfl⟩

/-- A digit is no white space and no sign. -/
theorem digit_apart {letter : Char} (digit : isDigitOf base letter = true) :
    isSpace letter = false ∧ letter ≠ '-' ∧ letter ≠ '+' := by
  have valued : digitValue letter ≠ none := by
    intro none
    rw [isDigitOf, none] at digit
    cases digit
  have minus : digitValue '-' = none := by decide
  have plus : digitValue '+' = none := by decide
  have spaces : ∀ code : Fin 33, digitValue (Char.ofNat code) = none := by decide
  refine ⟨?_, ?_, ?_⟩
  · by_contra space
    have small : letter.toNat < 33 := by
      simp only [isSpace, Bool.not_eq_false, Bool.or_eq_true, beq_iff_eq, Bool.and_eq_true,
        decide_eq_true_eq] at space
      omega
    have none := spaces ⟨letter.toNat, small⟩
    rw [Char.ofNat_toNat] at none
    exact valued none
  · rintro rfl
    exact valued minus
  · rintro rfl
    exact valued plus

/-- The letters before the null that ends a string for `std::stoull`. -/
def beforeNull (str : Text) : Text := str.takeWhile fun letter => letter.toNat != 0

/-- A letter that is no null stays. -/
theorem beforeNull_cons {letter : Char} (other : (letter.toNat != 0) = true) (rest : Text) :
    beforeNull (letter :: rest) = letter :: beforeNull rest := by
  simp only [beforeNull, List.takeWhile_cons, other, if_true]

/-- Nothing is left from a null on. -/
theorem beforeNull_null {letter : Char} (null : (letter.toNat != 0) = false) (rest : Text) :
    beforeNull (letter :: rest) = [] := by
  simp only [beforeNull, List.takeWhile_cons, null, Bool.false_eq_true, if_false]

/-- Digits at the front stand before the first null. -/
theorem digits_beforeNull (text : Text) :
    (beforeNull text).takeWhile (isDigitOf base) = text.takeWhile (isDigitOf base) := by
  induction text with
  | nil => rfl
  | cons letter rest ih =>
    cases null : letter.toNat != 0 with
    | true => rw [beforeNull_cons null, List.takeWhile_cons, List.takeWhile_cons, ih]
    | false =>
      have digit : ¬isDigitOf base letter = true := by simp [(null_apart base null).1]
      rw [beforeNull_null null, List.takeWhile_cons_of_neg digit, List.takeWhile_nil]

/-- White space before the null is skipped first. -/
theorem skip_beforeNull (text : Text) :
    (beforeNull text).dropWhile isSpace = beforeNull (text.dropWhile isSpace) := by
  induction text with
  | nil => rfl
  | cons letter rest ih =>
    cases null : letter.toNat != 0 with
    | true =>
      rw [beforeNull_cons null]
      cases space : isSpace letter with
      | true => rw [List.dropWhile_cons_of_pos space, List.dropWhile_cons_of_pos space, ih]
      | false =>
        have kept : ¬isSpace letter = true := by simp [space]
        rw [List.dropWhile_cons_of_neg kept, List.dropWhile_cons_of_neg kept,
          beforeNull_cons null]
    | false =>
      have kept : ¬isSpace letter = true := by simp [(null_apart 10 null).2]
      rw [List.dropWhile_cons_of_neg kept, beforeNull_null null, List.dropWhile_nil]

/-- A text that begins with neither sign has none. -/
theorem takeSign_unsigned {letter : Char} (minus : letter ≠ '-') (plus : letter ≠ '+')
    (rest : Text) : takeSign (letter :: rest) = (false, letter :: rest) := by
  unfold takeSign
  split
  · next front => exact absurd (List.cons.inj front).1 minus
  · next front => exact absurd (List.cons.inj front).1 plus
  · rfl

/-- The sign is looked for before the null. -/
theorem takeSign_beforeNull (text : Text) :
    takeSign (beforeNull text) = ((takeSign text).1, beforeNull (takeSign text).2) := by
  cases text with
  | nil => rfl
  | cons letter rest =>
    by_cases minus : letter = '-'
    · subst minus
      rfl
    · by_cases plus : letter = '+'
      · subst plus
        rfl
      · rw [takeSign_unsigned minus plus]
        cases null : letter.toNat != 0 with
        | true => rw [beforeNull_cons null, takeSign_unsigned minus plus]
        | false =>
          rw [beforeNull_null null]
          rfl

/-- In base 10 no `0x` is passed over. -/
theorem skipHexMark_ten (text : Text) : skipHexMark 10 text = text := by
  unfold skipHexMark
  split
  · exact if_neg fun passed => absurd passed.1 (by decide)
  · rfl

/-- The digits at the front of a text are its number, if there are some. -/
theorem frontNumber_eq (text : Text) :
    frontNumber base text =
      if text.takeWhile (isDigitOf base) = [] then none
      else some (numberOf base (text.takeWhile (isDigitOf base))) := by
  have digits : ∀ letter ∈ text.takeWhile (isDigitOf base), isDigitOf base letter = true :=
    fun letter member => List.mem_takeWhile_imp member
  simp only [frontNumber, spelled, and_iff_left digits, ite_not]

/-- In base 10 `stoull` reads the digits behind blanks and a sign. -/
theorem stoull_ten (str : Text) :
    stoull str 10 =
      (frontNumber 10 (takeSign (str.dropWhile isSpace)).2).bind
        (signed (takeSign (str.dropWhile isSpace)).1) := by
  have cut : (str.takeWhile fun letter => letter.toNat != 0) = beforeNull str := rfl
  simp only [stoull, cut, skip_beforeNull, takeSign_beforeNull, skipHexMark_ten,
    digits_beforeNull, frontNumber_eq]
  by_cases empty : (takeSign (str.dropWhile isSpace)).2.takeWhile (isDigitOf 10) = []
  · rw [if_pos empty, if_pos empty]
    rfl
  · rw [if_neg empty, if_neg empty]
    rfl

/-- In base 16 the digits behind `0x` are read, or the zero of the mark. -/
theorem skipHexMark_digits (text : Text) :
    (skipHexMark 16 ('0' :: 'x' :: text)).takeWhile (isDigitOf 16) =
      if text.takeWhile (isDigitOf 16) = [] then ['0'] else text.takeWhile (isDigitOf 16) := by
  cases text with
  | nil => rfl
  | cons letter rest =>
    unfold skipHexMark
    cases digit : isDigitOf 16 letter with
    | true =>
      simp only [List.takeWhile_cons, digit, if_true, List.cons_ne_nil, if_false, true_or,
        and_self]
    | false =>
      simp only [List.takeWhile_cons, digit, Bool.false_eq_true, and_false, if_false, if_true]
      rfl

/-- In base 16 `stoull` reads the hexadecimal digits behind `0x`, if any. -/
theorem stoull_sixteen (rest : Text) :
    stoull ('0' :: 'x' :: rest) 16 =
      signed false (numberOf 16 (rest.takeWhile (isDigitOf 16))) := by
  have cut : ((('0' :: 'x' :: rest).takeWhile fun letter => letter.toNat != 0).dropWhile
      isSpace) = '0' :: 'x' :: beforeNull rest := rfl
  have sign : takeSign ('0' :: 'x' :: beforeNull rest) =
    (false, '0' :: 'x' :: beforeNull rest) := rfl
  simp only [stoull, cut, sign, skipHexMark_digits, digits_beforeNull]
  by_cases empty : rest.takeWhile (isDigitOf 16) = []
  · rw [if_pos empty, if_neg (List.cons_ne_nil _ _), empty]
    rfl
  · rw [if_neg empty, if_neg empty]
    rfl

/-- A string behind `0x` is read as its hexadecimal digits. -/
theorem stringToU64_marked {str : Text} (marked : str.take 2 = ['0', 'x']) :
    stringToU64 str =
      signed false (numberOf 16 ((str.drop 2).takeWhile (isDigitOf 16))) := by
  have shape : str = '0' :: 'x' :: str.drop 2 := by
    have parts := List.take_append_drop 2 str
    rw [marked] at parts
    exact parts.symm
  have hexadecimal : (str.take 2 == ['0', 'x']) = true := by simp [marked]
  rw [stringToU64, if_pos hexadecimal]
  calc
    stoull str 16 = stoull ('0' :: 'x' :: str.drop 2) 16 := congrArg (stoull · 16) shape
    _ = _ := stoull_sixteen _

/-- A string without `0x` is read as its decimal digits. -/
theorem stringToU64_unmarked {str : Text} (unmarked : str.take 2 ≠ ['0', 'x']) :
    stringToU64 str =
      (frontNumber 10 (takeSign (str.dropWhile isSpace)).2).bind
        (signed (takeSign (str.dropWhile isSpace)).1) := by
  have decimal : ¬(str.take 2 == ['0', 'x']) = true := by simpa using unmarked
  rw [stringToU64, if_neg decimal]
  exact stoull_ten str

/-- The largest word is read only from `2 ^ 64 - 1`, or from `-1`. -/
theorem signed_max (negative : Bool) (number : Nat) :
    signed negative number = some (-1) ↔ number = if negative then 1 else 2 ^ 64 - 1 := by
  unfold signed
  by_cases fits : number < 2 ^ 64
  · rw [if_pos fits, Option.some.injEq]
    have small : number % 2 ^ 64 = number := Nat.mod_eq_of_lt fits
    cases negative with
    | true =>
      rw [if_pos rfl, if_pos rfl, neg_inj, ← BitVec.toNat_inj, BitVec.toNat_ofNat, small]
      rfl
    | false =>
      rw [if_neg Bool.false_ne_true, if_neg Bool.false_ne_true, ← BitVec.toNat_inj,
        BitVec.toNat_ofNat, small]
      rfl
  · rw [if_neg fits]
    have large : number ≠ if negative then 1 else 2 ^ 64 - 1 := by
      split <;> omega
    simp only [reduceCtorEq, false_iff]
    exact large

/-- The error value comes out exactly where the front of the string reads as the largest word. -/
theorem stringToU64_max (str : Text) : stringToU64 str = some (-1) ↔ MaxFront str := by
  unfold MaxFront
  by_cases marked : str.take 2 = ['0', 'x']
  · rw [if_pos marked, stringToU64_marked marked, signed_max, if_neg Bool.false_ne_true,
      frontNumber_eq]
    by_cases empty : (str.drop 2).takeWhile (isDigitOf 16) = []
    · rw [if_pos empty, empty]
      have zero : numberOf 16 [] ≠ 2 ^ 64 - 1 := by decide
      simp only [reduceCtorEq, iff_false]
      exact zero
    · rw [if_neg empty, Option.some.injEq]
  · rw [if_neg marked, stringToU64_unmarked marked, Option.bind_eq_some_iff]
    constructor
    · rintro ⟨number, front, largest⟩
      rw [front, (signed_max _ number).mp largest]
    · intro front
      exact ⟨_, front, (signed_max _ _).mpr rfl⟩

/-- The number a text spells is the number at its front. -/
theorem frontNumber_spelled {text : Text} {number : Nat} (plain : spelled base text = some number) :
    frontNumber base text = some number := by
  have parts := plain
  unfold spelled at parts
  split at parts
  · next digits =>
    unfold frontNumber
    rw [List.takeWhile_eq_self_iff.mpr digits.2]
    exact plain
  · cases parts

/-- A string that denotes a number is parsed to it. -/
theorem stringToU64_plain {str : Text} {number : Nat} (plain : plainNumber str = some number) :
    stringToU64 str = signed false number := by
  unfold plainNumber at plain
  by_cases marked : str.take 2 = ['0', 'x']
  · rw [if_pos marked] at plain
    have front := frontNumber_spelled plain
    rw [frontNumber_eq] at front
    split at front
    · cases front
    · rw [stringToU64_marked marked, Option.some.inj front]
  · rw [if_neg marked] at plain
    have front := frontNumber_spelled plain
    have unsigned : takeSign (str.dropWhile isSpace) = (false, str) := by
      cases str with
      | nil => rfl
      | cons letter rest =>
        have digit : isDigitOf 10 letter = true := by
          unfold spelled at plain
          split at plain
          · next digits => exact digits.2 letter List.mem_cons_self
          · cases plain
        obtain ⟨space, minus, plus⟩ := digit_apart digit
        rw [List.dropWhile_cons_of_neg (by simp [space]), takeSign_unsigned minus plus]
    rw [stringToU64_unmarked marked, unsigned, front]
    rfl

/-- The error value is due where no word is denoted. -/
theorem due_other {str : Text} (other : ¬Plain str) : due str = -1 := by
  unfold due
  split
  · next number denoted => exact if_neg fun fits => other ⟨number, denoted, fits⟩
  · rfl

/-- **Parsing.** The result is the one due exactly for the strings that denote a word and for
those whose front reads as the largest word. -/
theorem parsed_iff (str : Text) :
    stringToU64 str = some (due str) ↔ Plain str ∨ MaxFront str := by
  by_cases plain : Plain str
  · obtain ⟨number, denoted, fits⟩ := plain
    apply iff_of_true _ (.inl ⟨number, denoted, fits⟩)
    simp only [stringToU64_plain denoted, due, denoted, signed, if_pos fits,
      Bool.false_eq_true, if_false]
  · rw [due_other plain, stringToU64_max, or_iff_right plain]

/-- A string without a digit, `zz`. -/
def letters : Text := ['z', 'z']

/-- A string with a letter behind its digits, `0x10g`. -/
def trailing : Text := ['0', 'x', '1', '0', 'g']

/-- `bp zz` ends the debugger, and `0x10g` is taken for 16. -/
theorem letters_throw :
    stringToU64 letters ≠ some (due letters) ∧
    (∀ session : Session, Handlers.setBreakPoint session [letters] = none) ∧
    due trailing = -1 ∧ stringToU64 trailing = some 16 := by
  have frontless : frontNumber 10 (takeSign (letters.dropWhile isSpace)).2 = none := rfl
  have thrown : stringToU64 letters = none := by
    rw [stringToU64_unmarked (by decide), frontless]
    rfl
  have undenoted : plainNumber trailing = none := by
    rw [plainNumber, if_pos (by decide)]
    exact if_neg fun digits => absurd (digits.2 'g' (by decide)) (by decide)
  have front : (trailing.drop 2).takeWhile (isDigitOf 16) = ['1', '0'] := rfl
  have spells : numberOf 16 ['1', '0'] = 16 := by decide
  have parsed : stringToU64 trailing = some 16 := by
    rw [stringToU64_marked rfl, front, spells]
    simp [signed]
  refine ⟨?_, ?_, ?_, parsed⟩
  · rw [thrown]
    exact (Option.some_ne_none _).symm
  · intro session
    simp only [Handlers.setBreakPoint, thrown, Option.map_none]
  · apply due_other
    rintro ⟨number, denoted, -⟩
    cases undenoted.symm.trans denoted

end A64dbg.Numbers
