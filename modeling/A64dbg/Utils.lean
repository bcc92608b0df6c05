import A64dbg.Library.Fields
import A64dbg.Tracee

/-!
# Strings and numbers

`splitString` and `stringToU64`. A `std::string` is the list of its characters, and a position
in one is a number or, for `npos`, none. `splitString_eq` says that the scan of `splitString`
over positions finds the fields of its string.

`stringToU64` catches exceptions of type `const char*` only. `std::stoull` throws none of these,
so what it throws leaves `stringToU64` and ends the program; the result is then none.
-/

namespace A64dbg

open Fields

/-- A `std::string`. -/
abbrev Text := List Char

/-- The first position from `pos` on whose character passes the test. -/
def findFrom (test : Char → Bool) (str : Text) (pos : Nat) : Option Nat :=
  ((str.drop pos).findIdx? test).map (pos + ·)

/-- `str.find_first_not_of(delim, pos)`. -/
def findFirstNotOf (str : Text) (delim : Char) (pos : Option Nat) : Option Nat :=
  pos.bind (findFrom (fun letter => !(letter == delim)) str)

/-- `str.find(delim, pos)`. -/
def find (str : Text) (delim : Char) (pos : Nat) : Option Nat :=
  findFrom (fun letter => letter == delim) str pos

/-- `str.substr(start, end - start)`; the difference from `npos` covers the rest of the string. -/
def substr (str : Text) (start : Nat) (stop : Option Nat) : Text :=
  match stop with
  | none => str.drop start
  | some stop => (str.drop start).take (stop - start)

/-- What a search that fails says of the characters it passed. -/
theorem findFrom_none {test : Char → Bool} {str : Text} {pos : Nat}
    (found : findFrom test str pos = none) : ∀ letter ∈ str.drop pos, test letter = false := by
  unfold findFrom at found
  rw [Option.map_eq_none_iff, List.findIdx?_eq_none_iff] at found
  exact found

/-- A search that succeeds stops at the first character that passes the test. -/
theorem findFrom_some {test : Char → Bool} {str : Text} {pos index : Nat}
    (found : findFrom test str pos = some index) :
    pos ≤ index ∧ index < str.length ∧
      (str.drop pos).takeWhile (fun letter => !test letter) =
        (str.drop pos).take (index - pos) ∧
      (str.drop pos).dropWhile (fun letter => !test letter) = str.drop index := by
  unfold findFrom at found
  obtain ⟨distance, first, rfl⟩ := Option.map_eq_some_iff.mp found
  obtain ⟨inside, distance_eq⟩ := List.findIdx?_eq_some_iff_findIdx_eq.mp first
  rw [List.length_drop] at inside
  have passed : (str.drop pos).findIdx (fun letter => !!test letter) = distance := by
    simpa only [Bool.not_not] using distance_eq
  refine ⟨Nat.le_add_right _ _, by omega, ?_, ?_⟩
  · rw [List.takeWhile_eq_take_findIdx_not, passed, Nat.add_sub_cancel_left]
  · rw [List.dropWhile_eq_drop_findIdx_not, passed, List.drop_drop]

/-- The character at which a search stops passes the test. -/
theorem findFrom_test {test : Char → Bool} {str : Text} {pos index : Nat}
    (found : findFrom test str pos = some index) :
    ∃ first rest, str.drop index = first :: rest ∧ test first = true := by
  obtain ⟨-, inside, -, after⟩ := findFrom_some found
  have shape := List.drop_eq_getElem_cons inside
  refine ⟨_, _, shape, ?_⟩
  rw [shape] at after
  have stopped := List.head_dropWhile_not (fun letter => !test letter)
    (List.ne_nil_of_mem (after ▸ List.mem_cons_self))
  simp only [after, List.head_cons, Bool.not_eq_false'] at stopped
  exact stopped

/-- The characters a search from a position has before it. -/
def ahead (str : Text) : Option Nat → Nat
  | none => 0
  | some pos => str.length + 1 - pos

/-- The scan of `splitString` advances. -/
theorem find_advances {str : Text} {delim : Char} {pos : Option Nat} {start : Nat}
    (found : findFirstNotOf str delim pos = some start) :
    ahead str (find str delim start) < ahead str pos := by
  obtain ⟨pos, rfl, found⟩ := Option.bind_eq_some_iff.mp found
  obtain ⟨later, inside, -, -⟩ := findFrom_some found
  unfold ahead
  cases next : find str delim start with
  | none =>
    dsimp only
    omega
  | some stop =>
    obtain ⟨after, before, -, -⟩ := findFrom_some next
    obtain ⟨first, rest, here, other⟩ := findFrom_test found
    obtain ⟨first', rest', there, same⟩ := findFrom_test next
    have apart : stop ≠ start := by
      rintro rfl
      rw [here, List.cons.injEq] at there
      rw [there.1, same] at other
      cases other
    dsimp only
    omega

/-- The loop of `splitString`, from `end` on. -/
def splitFrom (str : Text) (delim : Char) (pos : Option Nat) : List Text :=
  match _found : findFirstNotOf str delim pos with
  | none => []
  | some start =>
    substr str start (find str delim start) :: splitFrom str delim (find str delim start)
termination_by ahead str pos
decreasing_by exact find_advances _found

/-- `splitString`. -/
def splitString (str : Text) (delim : Char) : List Text := splitFrom str delim (some 0)

/-- The scan of `splitString` ends where no other character follows. -/
theorem splitFrom_none {str : Text} {delim : Char} {pos : Option Nat}
    (found : findFirstNotOf str delim pos = none) : splitFrom str delim pos = [] := by
  rw [splitFrom]
  split
  · rfl
  · next other => cases found.symm.trans other

/-- One pass of the loop of `splitString`. -/
theorem splitFrom_some {str : Text} {delim : Char} {pos : Option Nat} {start : Nat}
    (found : findFirstNotOf str delim pos = some start) :
    splitFrom str delim pos =
      substr str start (find str delim start) :: splitFrom str delim (find str delim start) := by
  rw [splitFrom]
  split
  · next other => cases found.symm.trans other
  · next other =>
    cases found.symm.trans other
    rfl

/-- A run that begins at a position, as `find` and `substr` cut it, and the rest after it. -/
theorem substr_find (str : Text) (delim : Char) (start : Nat) :
    substr str start (find str delim start) =
        (str.drop start).takeWhile (fun letter => !(letter == delim)) ∧
      (str.drop start).dropWhile (fun letter => !(letter == delim)) =
        match find str delim start with
        | none => []
        | some stop => str.drop stop := by
  unfold substr
  cases next : find str delim start with
  | none =>
    have clean : ∀ letter ∈ str.drop start, (!(letter == delim)) = true := by
      intro letter member
      rw [findFrom_none next letter member]
      rfl
    exact ⟨(List.takeWhile_eq_self_iff.mpr clean).symm, List.dropWhile_eq_nil_iff.mpr clean⟩
  | some stop =>
    obtain ⟨-, -, run, rest⟩ := findFrom_some next
    exact ⟨run.symm, rest⟩

/-- From a position on the scan finds the fields from there on. -/
theorem splitFrom_eq (str : Text) (delim : Char) (pos : Option Nat) :
    splitFrom str delim pos =
      match pos with
      | none => []
      | some pos => fields (fun letter => letter == delim) (str.drop pos) := by
  induction pos using splitFrom.induct str delim with
  | case1 pos found =>
    rw [splitFrom_none found]
    cases pos with
    | none => rfl
    | some pos =>
      have clean : ∀ letter ∈ str.drop pos, (letter == delim) = true := by
        intro letter member
        have skipped := findFrom_none found letter member
        rwa [Bool.not_eq_false'] at skipped
      dsimp only
      rw [← fields_skip, List.dropWhile_eq_nil_iff.mpr clean, fields_nil]
  | case2 pos start found ih =>
    rw [splitFrom_some found, ih]
    obtain ⟨pos, rfl, found⟩ := Option.bind_eq_some_iff.mp found
    obtain ⟨-, -, -, skipped⟩ := findFrom_some found
    obtain ⟨first, rest, here, other⟩ := findFrom_test found
    obtain ⟨run, after⟩ := substr_find str delim start
    simp only [Bool.not_not] at skipped
    dsimp only
    rw [← fields_skip, skipped, run, here, fields_run (by simpa using other), ← here, after]
    cases find str delim start with
    | none => rfl
    | some stop => rfl

/-- **`splitString` finds the fields of its string.** -/
theorem splitString_eq (str : Text) (delim : Char) :
    splitString str delim = fields (fun letter => letter == delim) str :=
  splitFrom_eq str delim (some 0)

/-- `isspace`. -/
def isSpace (letter : Char) : Bool :=
  letter.toNat == 32 || (9 ≤ letter.toNat && letter.toNat ≤ 13)

/-- The value of a digit, in any base up to 36. -/
def digitValue (letter : Char) : Option Nat :=
  if letter.isDigit then some (letter.toNat - 48)
  else if letter.isLower then some (letter.toNat - 97 + 10)
  else if letter.isUpper then some (letter.toNat - 65 + 10)
  else none

/-- A digit of this base. -/
def isDigitOf (base : Nat) (letter : Char) : Bool := (digitValue letter).any (· < base)

/-- The number that digits spell. -/
def numberOf (base : Nat) (digits : Text) : Nat :=
  digits.foldl (fun number letter => base * number + (digitValue letter).getD 0) 0

/-- The sign at the front of a subject of `strtoull`, and what follows it. -/
def takeSign : Text → Bool × Text
  | '-' :: rest => (true, rest)
  | '+' :: rest => (false, rest)
  | rest => (false, rest)

/-- In base 16 `0x` before a digit is passed over. -/
def skipHexMark (base : Nat) : Text → Text
  | zero :: mark :: digit :: rest =>
    if base = 16 ∧ zero = '0' ∧ (mark = 'x' ∨ mark = 'X') ∧ isDigitOf 16 digit then digit :: rest
    else zero :: mark :: digit :: rest
  | rest => rest

/-- `std::stoull(str.c_str(), nullptr, base)`: the number at the front, or none where it throws
`std::invalid_argument` or `std::out_of_range`. -/
def stoull (str : Text) (base : Nat) : Option Word :=
  let subject := (str.takeWhile fun letter => letter.toNat != 0).dropWhile isSpace
  let (negative, unsigned) := takeSign subject
  let digits := (skipHexMark base unsigned).takeWhile (isDigitOf base)
  if digits = [] then none
  else
    let number := numberOf base digits
    if number < 2 ^ 64 then
      some (if negative then -BitVec.ofNat 64 number else BitVec.ofNat 64 number)
    else none

/-- `stringToU64`, or none where an exception leaves it. -/
def stringToU64 (str : Text) : Option Word :=
  if str.take 2 == ['0', 'x'] then stoull str 16 else stoull str 10

end A64dbg
