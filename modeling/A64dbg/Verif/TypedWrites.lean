import A64dbg.MemInput
import A64dbg.Verif.Numbers

/-!
# What the scanner writes

`writeMemory` seeks and writes whatever its two variables hold, also when `scanf` stored nothing in
them. `onlyTyped_iff` says exactly when that is what was typed: when the input begins with two
hexadecimal numbers. `scanHex_iff` is the grammar behind it, and says of every input which number a
conversion takes from it and what it leaves.
-/

namespace A64dbg.TypedWrites

open Numbers

/-- A hexadecimal number as it is typed. -/
structure Numeral where
  /-- A plus, a minus or nothing. -/
  sign : Text
  /-- `0x`, `0X` or nothing. -/
  mark : Text
  /-- The digits. -/
  digits : Text

/-- The text of a number. -/
def Numeral.text (numeral : Numeral) : Text := numeral.sign ++ (numeral.mark ++ numeral.digits)

/-- The word of a number; the largest one where it is too large. -/
def Numeral.word (numeral : Numeral) : Word := hexWord (numeral.sign == ['-']) numeral.digits

/-- The parts of a number are what they should be. -/
structure Numeral.Proper (numeral : Numeral) : Prop where
  /-- The sign. -/
  sign : numeral.sign = [] ∨ numeral.sign = ['+'] ∨ numeral.sign = ['-']
  /-- The mark. -/
  mark : numeral.mark = [] ∨ numeral.mark = ['0', 'x'] ∨ numeral.mark = ['0', 'X']
  /-- There are digits. -/
  digits : numeral.digits ≠ []
  /-- They are hexadecimal. -/
  hexadecimal : ∀ digit ∈ numeral.digits, isDigitOf 16 digit = true

/-- An input begins with a number behind white space: all of its digits, and not a zero that a mark
begins with. -/
structure Begins (numeral : Numeral) (input rest : Text) : Prop where
  /-- The number is proper. -/
  proper : numeral.Proper
  /-- It stands behind white space. -/
  front : ∃ spaces, (∀ letter ∈ spaces, isSpace letter = true) ∧
    input = spaces ++ (numeral.text ++ rest)
  /-- No digit follows. -/
  ends : ∀ next more, rest = next :: more → isDigitOf 16 next = false
  /-- A zero does not begin a mark. -/
  unmarked : numeral.mark = [] → numeral.digits = ['0'] →
    ∀ next more, rest = next :: more → next ≠ 'x' ∧ next ≠ 'X'

/-- An input begins with two numbers, which are these words. -/
def BeginsTwo (input : Text) (address value : Word) : Prop :=
  ∃ first second rest unread, Begins first input rest ∧ Begins second rest unread ∧
    first.word = address ∧ second.word = value

/-- Whatever the variables held, two numbers that `scanf` converts are written, the second where
the first says, and where it converts fewer, nothing is sought or written. -/
structure OnlyTyped (input : Text) : Prop where
  /-- Two numbers are written as they were typed. -/
  typed : ∀ address value, BeginsTwo input address value → ∀ writeAddress writeValue,
    (Typed.writeMemory input writeAddress writeValue).1 = [.write address value]
  /-- Nothing else is. -/
  nothing : ∀ writeAddress writeValue, (scanf input writeAddress writeValue).converted < 2 →
    (Typed.writeMemory input writeAddress writeValue).1 = []

/-- A sign that is taken is one letter at the front. -/
theorem takeSign_parts (text : Text) :
    ∃ sign, (sign = [] ∨ sign = ['+'] ∨ sign = ['-']) ∧ text = sign ++ (takeSign text).2 ∧
      (takeSign text).1 = (sign == ['-']) := by
  unfold takeSign
  split
  · exact ⟨['-'], .inr (.inr rfl), rfl, rfl⟩
  · exact ⟨['+'], .inr (.inl rfl), rfl, rfl⟩
  · exact ⟨[], .inl rfl, rfl, rfl⟩

/-- A mark that is passed over is `0x` or `0X`. -/
theorem takeHexMark_parts (text : Text) :
    ∃ mark, (mark = [] ∨ mark = ['0', 'x'] ∨ mark = ['0', 'X']) ∧
      text = mark ++ takeHexMark text ∧
      (mark = [] → ∀ next more, text = '0' :: next :: more → next ≠ 'x' ∧ next ≠ 'X') := by
  match text with
  | zero :: next :: rest =>
    by_cases marked : zero = '0' ∧ (next = 'x' ∨ next = 'X')
    · have passed : takeHexMark (zero :: next :: rest) = rest := if_pos marked
      obtain ⟨rfl, mark⟩ := marked
      rw [passed]
      cases mark with
      | inl small =>
        rw [small]
        exact ⟨['0', 'x'], .inr (.inl rfl), rfl, fun none => (nomatch none)⟩
      | inr large =>
        rw [large]
        exact ⟨['0', 'X'], .inr (.inr rfl), rfl, fun none => (nomatch none)⟩
    · have kept : takeHexMark (zero :: next :: rest) = zero :: next :: rest := if_neg marked
      rw [kept]
      refine ⟨[], .inl rfl, rfl, fun _ other more same => ?_⟩
      rw [List.cons.injEq, List.cons.injEq] at same
      obtain ⟨rfl, rfl, -⟩ := same
      exact ⟨fun small => marked ⟨rfl, .inl small⟩, fun large => marked ⟨rfl, .inr large⟩⟩
  | [] | [_] => exact ⟨[], .inl rfl, rfl, fun _ _ _ same => (nomatch same)⟩

/-- A sign is taken from the text in front of which it stands. -/
theorem takeSign_sign {sign : Text} (proper : sign = [] ∨ sign = ['+'] ∨ sign = ['-'])
    {letter : Char} (digit : isDigitOf 16 letter = true) (more : Text) :
    takeSign (sign ++ letter :: more) = (sign == ['-'], letter :: more) := by
  obtain ⟨-, minus, plus⟩ := digit_apart digit
  rcases proper with rfl | rfl | rfl
  · exact takeSign_unsigned minus plus more
  · rfl
  · rfl

/-- A mark is passed over, and a number without one is left. -/
theorem takeHexMark_mark {numeral : Numeral} {input rest : Text}
    (begins : Begins numeral input rest) :
    takeHexMark (numeral.mark ++ (numeral.digits ++ rest)) = numeral.digits ++ rest := by
  rcases begins.proper.mark with none | small | large
  · obtain ⟨digit, digits, shape⟩ := List.exists_cons_of_ne_nil begins.proper.digits
    rw [none, shape, List.nil_append, List.cons_append]
    cases after : digits ++ rest with
    | nil => rfl
    | cons next more =>
      apply if_neg
      rintro ⟨zero, mark⟩
      cases digits with
      | nil =>
        have apart := begins.unmarked none (by rw [shape, zero]) next more after
        exact mark.elim apart.1 apart.2
      | cons second others =>
        rw [List.cons_append, List.cons.injEq] at after
        have hex := begins.proper.hexadecimal second (by rw [shape]; simp)
        have apart : isDigitOf 16 'x' = false ∧ isDigitOf 16 'X' = false := by decide
        rw [after.1] at hex
        cases mark with
        | inl small =>
          rw [small, apart.1] at hex
          cases hex
        | inr large =>
          rw [large, apart.2] at hex
          cases hex
  · rw [small]
    rfl
  · rw [large]
    rfl

/-- The text of a number without its sign begins with a digit. -/
theorem body_digit {numeral : Numeral} (proper : numeral.Proper) (rest : Text) :
    ∃ letter more, numeral.mark ++ (numeral.digits ++ rest) = letter :: more ∧
      isDigitOf 16 letter = true := by
  have zero : isDigitOf 16 '0' = true := by decide
  rcases proper.mark with none | small | large
  · obtain ⟨digit, digits, shape⟩ := List.exists_cons_of_ne_nil proper.digits
    refine ⟨digit, digits ++ rest, ?_, ?_⟩
    · rw [none, shape]
      rfl
    · apply proper.hexadecimal
      rw [shape]
      exact List.mem_cons_self
  · rw [small]
    exact ⟨'0', _, rfl, zero⟩
  · rw [large]
    exact ⟨'0', _, rfl, zero⟩

/-- A conversion reads the number that its input begins with, and leaves the rest. -/
theorem scanHex_begins {numeral : Numeral} {input rest : Text}
    (begins : Begins numeral input rest) : scanHex input = (some numeral.word, rest) := by
  obtain ⟨spaces, blank, shape⟩ := begins.front
  obtain ⟨letter, more, body, digit⟩ := body_digit begins.proper rest
  have text : numeral.text ++ rest = numeral.sign ++ letter :: more := by
    rw [Numeral.text, List.append_assoc, List.append_assoc, body]
  have skipped : (numeral.sign ++ letter :: more).dropWhile isSpace =
      numeral.sign ++ letter :: more := by
    rcases begins.proper.sign with none | plus | minus
    · have solid : ¬isSpace letter = true := by simp [(digit_apart digit).1]
      rw [none, List.nil_append, List.dropWhile_cons_of_neg solid]
    · rw [plus]
      rfl
    · rw [minus]
      rfl
  have stop : rest.takeWhile (isDigitOf 16) = [] ∧ rest.dropWhile (isDigitOf 16) = rest := by
    cases rest with
    | nil => exact ⟨rfl, rfl⟩
    | cons next others =>
      have other : ¬isDigitOf 16 next = true := by simp [begins.ends next others rfl]
      exact ⟨List.takeWhile_cons_of_neg other, List.dropWhile_cons_of_neg other⟩
  have hexadecimal := begins.proper.hexadecimal
  unfold scanHex
  rw [shape, text, List.dropWhile_append_of_pos blank, skipped,
    takeSign_sign begins.proper.sign digit, ← body]
  dsimp only
  rw [takeHexMark_mark begins, List.takeWhile_append_of_pos hexadecimal,
    List.dropWhile_append_of_pos hexadecimal, stop.1, stop.2, List.append_nil,
    if_neg begins.proper.digits]
  rfl

/-- **What a conversion takes.** It stores a word and leaves an input exactly when its input begins
with a number of that word and is left behind it. -/
theorem scanHex_iff (input : Text) (word : Word) (rest : Text) :
    scanHex input = (some word, rest) ↔
      ∃ numeral, Begins numeral input rest ∧ numeral.word = word := by
  constructor
  · intro scanned
    obtain ⟨sign, signed, unsigned, negative⟩ := takeSign_parts (input.dropWhile isSpace)
    obtain ⟨mark, marked, subject, unmarked⟩ :=
      takeHexMark_parts (takeSign (input.dropWhile isSpace)).2
    have digits := List.takeWhile_append_dropWhile (p := isDigitOf 16)
      (l := takeHexMark (takeSign (input.dropWhile isSpace)).2)
    unfold scanHex at scanned
    dsimp only at scanned
    rw [Prod.mk.injEq] at scanned
    obtain ⟨stored, left⟩ := scanned
    split at stored
    · cases stored
    · next nonempty =>
      rw [left] at digits
      refine ⟨⟨sign, mark, _⟩, ⟨⟨signed, marked, nonempty, ?_⟩, ?_, ?_, ?_⟩, ?_⟩
      · intro digit inside
        exact List.mem_takeWhile_imp inside
      · refine ⟨input.takeWhile isSpace, fun letter inside => List.mem_takeWhile_imp inside, ?_⟩
        rw [Numeral.text, List.append_assoc, List.append_assoc, digits, ← subject, ← unsigned,
          List.takeWhile_append_dropWhile]
      · intro next more after
        rw [← left] at after
        have stopped := List.head_dropWhile_not (isDigitOf 16)
          (List.ne_nil_of_mem (after ▸ List.mem_cons_self))
        simp only [after, List.head_cons] at stopped
        exact stopped
      · intro none zero next more after
        dsimp only at none zero
        rw [zero, after] at digits
        rw [none, ← digits] at subject
        exact unmarked none next more subject
      · rw [Numeral.word, ← negative]
        exact Option.some.inj stored
  · rintro ⟨numeral, begins, rfl⟩
    exact scanHex_begins begins

/-- White space in front of a conversion makes no difference. -/
theorem scanHex_skip (input : Text) : scanHex (input.dropWhile isSpace) = scanHex input := by
  unfold scanHex
  rw [List.dropWhile_idempotent]

/-- `scanf` stores the two numbers its input begins with. -/
theorem scanf_two {first second : Numeral} {input rest unread : Text}
    (front : Begins first input rest) (back : Begins second rest unread)
    (writeAddress writeValue : Word) :
    scanf input writeAddress writeValue = ⟨2, first.word, second.word, unread⟩ := by
  unfold scanf
  rw [scanHex_begins front]
  dsimp only
  rw [scanHex_skip, scanHex_begins back]

/-- `scanf` makes two conversions exactly on an input that begins with two numbers, and never
more. -/
theorem scanf_converted (input : Text) (writeAddress writeValue : Word) :
    (scanf input writeAddress writeValue).converted < 2 ↔
      ¬∃ address value, BeginsTwo input address value := by
  constructor
  · rintro few ⟨address, value, first, second, rest, unread, front, back, -⟩
    rw [scanf_two front back] at few
    exact Nat.lt_irrefl _ few
  · intro none
    unfold scanf
    cases first : scanHex input with
    | mk address rest =>
      cases address with
      | none => exact Nat.zero_lt_two
      | some address =>
        dsimp only
        rw [scanHex_skip]
        cases second : scanHex rest with
        | mk value unread =>
          cases value with
          | none => exact Nat.one_lt_two
          | some value =>
            obtain ⟨front, frontBegins, frontWord⟩ := (scanHex_iff input address rest).mp first
            obtain ⟨back, backBegins, backWord⟩ := (scanHex_iff rest value unread).mp second
            exact absurd ⟨address, value, front, back, rest, unread, frontBegins, backBegins,
              frontWord, backWord⟩ none

/-- **When the scanner writes only what was typed.** For every input and whatever the variables
held before, exactly when the input begins with two hexadecimal numbers. -/
theorem onlyTyped_iff (input : Text) :
    OnlyTyped input ↔ ∃ address value, BeginsTwo input address value := by
  constructor
  · intro only
    by_contra none
    have few := (scanf_converted input 0 0).mpr none
    exact List.cons_ne_nil _ _ (only.nothing 0 0 few)
  · intro two
    constructor
    · rintro address value ⟨first, second, rest, unread, front, back, rfl, rfl⟩ writeAddress
        writeValue
      unfold Typed.writeMemory
      rw [scanf_two front back]
      rfl
    · intro writeAddress writeValue few
      exact absurd two ((scanf_converted input writeAddress writeValue).mp few)

/-- A letter that is no digit makes `writeMemory` write what its variables held. -/
theorem untyped_write : ¬OnlyTyped ['z', '\n'] := by
  intro only
  have few : (scanf ['z', '\n'] 0x1000 1).converted < 2 := by decide
  exact List.cons_ne_nil _ _ (only.nothing 0x1000 1 few)

end A64dbg.TypedWrites
