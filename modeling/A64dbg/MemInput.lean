import A64dbg.MemChecking
import A64dbg.Utils

/-!
# What the user types to the scanner

Behind the letter of its command, `writeMemory` lets `scanf` take two numbers from the standard
input, into two variables that were not written before, and looks at no result; what `scanf` leaves
is read as commands again.

A conversion of `scanf` skips white space, takes the longest text that begins a number as the C
standard has it, and fails when that is no number; then its variable is as it was, and no further
conversion is tried. A number beyond a word is stored as the largest word.
-/

namespace A64dbg

/-- The mark `0x` in front of hexadecimal digits is passed over. -/
def takeHexMark : Text → Text
  | zero :: mark :: rest =>
    if zero = '0' ∧ (mark = 'x' ∨ mark = 'X') then rest else zero :: mark :: rest
  | rest => rest

/-- The word that `%lx` stores. -/
def hexWord (negative : Bool) (digits : Text) : Word :=
  let number := numberOf 16 digits
  if number < 2 ^ 64 then
    if negative then -BitVec.ofNat 64 number else BitVec.ofNat 64 number
  else -1

/-- A conversion by `%lx`: the word to store, unless it fails, and the input left. -/
def scanHex (input : Text) : Option Word × Text :=
  let (negative, unsigned) := takeSign (input.dropWhile isSpace)
  let subject := takeHexMark unsigned
  let digits := subject.takeWhile (isDigitOf 16)
  (if digits = [] then none else some (hexWord negative digits),
    subject.dropWhile (isDigitOf 16))

/-- What a call of `scanf` leaves. -/
structure Scanned where
  /-- The number of conversions; `read` is this number, or `EOF`, and is not used. -/
  converted : Nat
  /-- `write_address`. -/
  writeAddress : Word
  /-- `write_value`. -/
  writeValue : Word
  /-- The input left. -/
  unread : Text

/-- `scanf("%lx %lx", &write_address, &write_value)`, by what the variables held before. -/
def scanf (input : Text) (writeAddress writeValue : Word) : Scanned :=
  match scanHex input with
  | (none, unread) => ⟨0, writeAddress, writeValue, unread⟩
  | (some writeAddress, rest) =>
    match scanHex (rest.dropWhile isSpace) with
    | (none, unread) => ⟨1, writeAddress, writeValue, unread⟩
    | (some writeValue, unread) => ⟨2, writeAddress, writeValue, unread⟩

namespace Typed

/-- `writeMemory`, by what its variables hold before `scanf`: the accesses and the input left. -/
def writeMemory (input : Text) (writeAddress writeValue : Word) : List Access × Text :=
  let scanned := scanf input writeAddress writeValue
  (A64dbg.writeMemory scanned.writeAddress scanned.writeValue, scanned.unread)

end Typed

end A64dbg
