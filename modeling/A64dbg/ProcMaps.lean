import A64dbg.Library.Chains
import A64dbg.MemInput

/-!
# The memory map of a process

`pmparser.c` reads `/proc/pid/maps` line by line into a chained list. A line is cut into words that
are copied to arrays of fixed sizes, by loops that look for a stop and for nothing else; a read
beyond the end of an array and a write beyond it have no meaning: they fail. The arrays keep what
they held before where a line is shorter.

The loop of `pmparser_parse` goes on until a read met the end of the file. A call of `fgets` that
reads nothing leaves the line before in its array, and that line is taken once more. What
`malloc` delivers, and what fresh storage and arrays hold, are inputs.
-/

namespace A64dbg

open Chains

/-- `procmaps_struct`, without `next`. -/
structure ProcmapsStruct where
  /-- `addr_start`. -/
  addrStart : Word
  /-- `addr_end`. -/
  addrEnd : Word
  /-- `length`. -/
  length : Word
  /-- `perm`. -/
  perm : Text
  /-- `is_r`. -/
  isR : Bool
  /-- `is_w`. -/
  isW : Bool
  /-- `is_x`. -/
  isX : Bool
  /-- `is_p`. -/
  isP : Bool
  /-- `offset`. -/
  offset : Word
  /-- `dev`. -/
  dev : Text
  /-- `inode`. -/
  inode : BitVec 32
  /-- `pathname`. -/
  pathname : Text
deriving DecidableEq

/-- `PATH_MAX`. -/
def pathMax : Nat := 4096

/-- `PROCMAPS_LINE_MAX_LENGTH`. -/
def procmapsLineMaxLength : Nat := pathMax + 100

/-- The letters `fgets` takes, at most `count` of them and none behind a newline; what it leaves of
the file, and whether it met the end of it. -/
def takeLine : Nat → Text → Text × Text × Bool
  | 0, file => ([], file, false)
  | _ + 1, [] => ([], [], true)
  | count + 1, letter :: rest =>
    if letter = '\n' then ([letter], rest, false)
    else
      let (line, left, ended) := takeLine count rest
      (letter :: line, left, ended)

/-- What is left is shorter, unless the end was met. -/
theorem takeLine_shorter {count : Nat} {file line left : Text}
    (taken : takeLine (count + 1) file = (line, left, false)) : left.length < file.length := by
  induction count generalizing file line left with
  | zero =>
    cases file with
    | nil => simp [takeLine] at taken
    | cons letter rest =>
      by_cases newline : letter = '\n'
      · simp only [takeLine, newline, if_true, Prod.mk.injEq] at taken
        simp [← taken.2.1]
      · simp only [takeLine, newline, if_false, Prod.mk.injEq] at taken
        simp [← taken.2.1]
  | succ count ih =>
    cases file with
    | nil => simp [takeLine] at taken
    | cons letter rest =>
      rw [takeLine] at taken
      by_cases newline : letter = '\n'
      · simp only [newline, if_true, Prod.mk.injEq] at taken
        simp [← taken.2.1]
      · simp only [newline, if_false, Prod.mk.injEq] at taken
        have shorter := @ih rest _ left (Prod.ext rfl (Prod.ext taken.2.1 taken.2.2))
        simp only [List.length_cons]
        omega

/-- What the passes of the loop of `pmparser_parse` read, one after the other; an empty text where
`fgets` fails. -/
def passes (file : Text) : List Text :=
  match _taken : takeLine (procmapsLineMaxLength - 1) file with
  | (line, _, true) => [line]
  | (line, left, false) => line :: passes left
termination_by file.length
decreasing_by exact @takeLine_shorter 4194 _ _ _ _taken

/-- A string written to the front of an array. -/
def overwrite (array text : Text) : Text := text ++ '\x00' :: array.drop (text.length + 1)

/-- The string at the front of an array. -/
def cString (array : Text) : Text := array.takeWhile fun letter => letter != '\x00'

/-- The tab and the space. -/
def blank (letter : Char) : Bool := letter == '\t' || letter == ' '

/-- A loop that copies letters to an array of a size, up to the first stop. -/
def copyUntil (stops : Char → Bool) (size : Nat) (buf : Text) : Option (Text × Text) :=
  let word := buf.takeWhile fun letter => !stops letter
  let rest := buf.dropWhile fun letter => !stops letter
  if rest ≠ [] ∧ word.length < size then some (word, rest) else none

/-- What `_pmparser_split_line` copies. -/
structure MapsWords where
  /-- `addr1`. -/
  addr1 : Text
  /-- `addr2`. -/
  addr2 : Text
  /-- `perm`. -/
  perm : Text
  /-- `offset`. -/
  offset : Text
  /-- `device`. -/
  device : Text
  /-- `inode`. -/
  inode : Text
  /-- `pathname`. -/
  pathname : Text
deriving DecidableEq

/-- `_pmparser_split_line`, for arrays of the sizes that `pmparser_parse` gives it. -/
def pmparserSplitLine (buf : Text) : Option MapsWords := do
  let (addr1, rest) ← copyUntil (fun letter => letter == '-') 20 buf
  let (addr2, rest) ← copyUntil blank 20 rest.tail
  let (perm, rest) ← copyUntil blank 8 (rest.dropWhile blank)
  let (offset, rest) ← copyUntil blank 20 (rest.dropWhile blank)
  let (device, rest) ← copyUntil blank 10 (rest.dropWhile blank)
  let (inode, rest) ← copyUntil blank 30 (rest.dropWhile blank)
  let (pathname, _) ← copyUntil (fun letter => blank letter || letter == '\n') pathMax
    (rest.dropWhile blank)
  return ⟨addr1, addr2, perm, offset, device, inode, pathname⟩

/-- `sscanf(str, "%lx", &value)`, by what the variable held. -/
def sscanHex (str : Text) (value : Word) : Word := (scanHex str).1.getD value

/-- `atoi`, as the low bits of what `strtol` returns; the C standard leaves it open outside the
range of an `int`. -/
def atoi (str : Text) : BitVec 32 :=
  let (negative, unsigned) := takeSign (str.dropWhile isSpace)
  let number := numberOf 10 (unsigned.takeWhile (isDigitOf 10))
  BitVec.ofInt 32 (if negative then max (-number) (-2 ^ 63) else min number (2 ^ 63 - 1))

/-- A node of `pmparser_parse` as it is filled, from what its storage held; `perm` is the array. The
strings are copied to arrays of five, of twelve and of 600 letters. -/
def fillNode (storage : ProcmapsStruct) (perm : Text) (words : MapsWords) :
    Option ProcmapsStruct :=
  let addrStart := sscanHex (cString words.addr1) storage.addrStart
  let addrEnd := sscanHex (cString words.addr2) storage.addrEnd
  if (cString perm).length < 5 ∧ (cString words.device).length < 12 ∧
      (cString words.pathname).length < 600 then
    some {
      addrStart := addrStart
      addrEnd := addrEnd
      length := addrEnd - addrStart
      perm := cString perm
      isR := perm[0]? == some 'r'
      isW := perm[1]? == some 'w'
      isX := perm[2]? == some 'x'
      isP := perm[3]? == some 'p'
      offset := sscanHex (cString words.offset) storage.offset
      dev := cString words.device
      inode := atoi (cString words.inode)
      pathname := cString words.pathname }
  else none

/-- The variables of `pmparser_parse` between two passes of its loop, and the nodes. -/
structure MapsParser where
  /-- The nodes allocated. -/
  heap : Heap ProcmapsStruct
  /-- `list_maps`. -/
  listMaps : Option Nat
  /-- `current_node`. -/
  currentNode : Option Nat
  /-- `ind`. -/
  ind : Nat
  /-- `buf`. -/
  buf : Text
  /-- `perm`. -/
  perm : Text

/-- What `malloc` delivers and what the storage holds, node by node. -/
structure Storage where
  /-- The addresses, which are different. -/
  place : Nat ↪ Nat
  /-- What is found there. -/
  found : Nat → ProcmapsStruct

/-- Attach a node: the first one is the list, and each is the next of the current one, which is
itself for the first. -/
def MapsParser.attach (parser : MapsParser) (tmp : Nat) (value : ProcmapsStruct) :
    Option MapsParser := do
  let heap := Function.update parser.heap tmp (some ⟨value, none⟩)
  let listMaps := if parser.ind = 0 then some tmp else parser.listMaps
  let currentNode := if parser.ind = 0 then some tmp else parser.currentNode
  let place ← currentNode
  let heap ← link heap place (some tmp)
  return { parser with
    heap := heap
    listMaps := listMaps
    currentNode := some tmp
    ind := parser.ind + 1 }

/-- A pass of the loop of `pmparser_parse`, by the letters `fgets` takes. -/
def MapsParser.pass (storage : Storage) (parser : MapsParser) (line : Text) :
    Option MapsParser := do
  let buf := if line = [] then parser.buf else overwrite parser.buf line
  let words ← pmparserSplitLine buf
  let perm := overwrite parser.perm words.perm
  let value ← fillNode (storage.found parser.ind) perm words
  { parser with buf := buf, perm := perm }.attach (storage.place parser.ind) value

/-- `procmaps_iterator`. -/
structure ProcmapsIterator where
  /-- `head`. -/
  head : Option Nat
  /-- `current`. -/
  current : Option Nat

/-- The variables before the first pass. -/
def MapsParser.initial (buf perm : Text) : MapsParser := ⟨fun _ => none, none, none, 0, buf, perm⟩

/-- `pmparser_parse`, from what its arrays hold at first; none where it has no meaning. It returns
no iterator where the file cannot be opened. -/
def pmparserParse (storage : Storage) (buf perm : Text) (file : Option Text) :
    Option (Heap ProcmapsStruct × Option ProcmapsIterator) :=
  match file with
  | none => some (fun _ => none, none)
  | some file =>
    ((passes file).foldlM (MapsParser.pass storage) (.initial buf perm)).map fun parser =>
      (parser.heap, some ⟨parser.listMaps, parser.listMaps⟩)

/-- `pmparser_next`: the node it returns and the iterator it leaves. -/
def pmparserNext (heap : Heap ProcmapsStruct) (iterator : ProcmapsIterator) :
    Option (Option Nat × ProcmapsIterator) :=
  match iterator.current with
  | none => some (none, iterator)
  | some current =>
    (heap current).map fun node => (some current, { iterator with current := node.next })

/-- The loop of `pmparser_free`. -/
inductive FreeLoop where
  /-- Before a test of the loop. -/
  | running (heap : Heap ProcmapsStruct) (act nxt : Option Nat)
  /-- It returned. -/
  | returned (heap : Heap ProcmapsStruct)
  /-- It used or released what is not allocated. -/
  | fault

/-- A turn of the loop of `pmparser_free`. -/
def FreeLoop.turn : FreeLoop → FreeLoop
  | .running heap none _ => .returned heap
  | .running heap (some act) nxt =>
    match heap act with
    | none => .fault
    | some _ =>
      let heap := Function.update heap act none
      match nxt with
      | none => .running heap none none
      | some place =>
        match heap place with
        | none => .fault
        | some node => .running heap (some place) node.next
  | .returned heap => .returned heap
  | .fault => .fault

/-- `pmparser_free`, up to its loop. -/
def pmparserFree (heap : Heap ProcmapsStruct) (iterator : ProcmapsIterator) : FreeLoop :=
  match iterator.head with
  | none => .returned heap
  | some mapsList =>
    match heap mapsList with
    | none => .fault
    | some node => .running heap (some mapsList) node.next

end A64dbg
