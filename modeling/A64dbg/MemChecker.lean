import A64dbg.Tracee

/-!
# The memory scanner

`mem_checker.c` reads a list of areas and then, round by round, discards the words that stayed
the same, or those that changed. An access to a buffer that is not allocated, or beyond its
end, and the release of a buffer that is not allocated have no meaning: they fail. What
`readMem` delivers from the tracee is an input of each round, for each area by its place in
the list. `seekToMem` ends the scanner when it fails, so the areas here could be sought.
-/

namespace A64dbg

/-- A buffer of the heap. -/
structure Buffer (α : Type) where
  /-- Its entries. -/
  cells : Nat → α
  /-- Their number. -/
  size : Nat
  /-- Whether it is allocated. -/
  live : Bool

namespace Buffer

variable {α : Type}

/-- Read an entry. -/
def read (buffer : Buffer α) (index : Nat) : Option α :=
  if buffer.live = true ∧ index < buffer.size then some (buffer.cells index) else none

/-- Write an entry. -/
def write (buffer : Buffer α) (index : Nat) (value : α) : Option (Buffer α) :=
  if buffer.live = true ∧ index < buffer.size then
    some { buffer with cells := Function.update buffer.cells index value }
  else none

/-- `free`. -/
def free (buffer : Buffer α) : Option (Buffer α) :=
  if buffer.live = true then some { buffer with live := false } else none

end Buffer

/-- `struct observer_area`. -/
structure ObserverArea where
  /-- `addr_start`. -/
  addrStart : Word
  /-- `length`, in bytes. -/
  length : Word
  /-- `pathname`. -/
  pathname : String
  /-- `invalid`. -/
  invalid : Bool
  /-- `mem_ptr`: the words last read. -/
  memPtr : Buffer Word
  /-- `cmp_ptr`: 1 for a word that is out. -/
  cmpPtr : Buffer (BitVec 8)

/-- The number of 64-bit words of an area, `length/8`. -/
def ObserverArea.words (area : ObserverArea) : Nat := area.length.toNat / 8

/-- An area as a caller lists it, without buffers. -/
def ObserverArea.unread (addrStart length : Word) (pathname : String) : ObserverArea where
  addrStart := addrStart
  length := length
  pathname := pathname
  invalid := false
  memPtr := ⟨fun _ => 0, 0, false⟩
  cmpPtr := ⟨fun _ => 0, 0, false⟩

/-- What `readMem` delivers for an area. -/
structure AreaRead where
  /-- Whether it read the whole area. -/
  complete : Bool
  /-- The words read. -/
  words : Nat → Word

/-- `UNCHANGED` and `CHANGED`. -/
inductive Mode where
  /-- Keep the words that stayed the same. -/
  | unchanged
  /-- Keep the words that changed. -/
  | changed
deriving DecidableEq, Repr

/-- Whether a round in this mode discards a word, by its value before and now. -/
def Mode.discards (mode : Mode) (before now : Word) : Bool :=
  match mode with
  | .changed => before == now
  | .unchanged => before != now

/-- One entry of `addr`, `orig`, `modd` and `name`. -/
structure Hit where
  /-- Address of the word. -/
  addr : Word
  /-- Its value at the previous read. -/
  orig : Word
  /-- Its value now. -/
  modd : Word
  /-- Name of its area. -/
  name : String
deriving DecidableEq

/-- `MAX_HIT_PRINT`. -/
def maxHitPrint : Int := 300

/-- The counter and the table of a round. -/
structure Hits where
  /-- The words counted; the variable `hits` holds this number as a 32-bit `int`. -/
  count : Nat
  /-- `addr`, `orig`, `modd` and `name`. -/
  table : Int → Option Hit

/-- The value of the variable `hits`. -/
def Hits.index (hits : Hits) : Int := (BitVec.ofNat 32 hits.count).toInt

/-- Save a word for printing and count it. -/
def Hits.record (hits : Hits) (hit : Hit) : Hits where
  count := hits.count + 1
  table := if hits.index < maxHitPrint then Function.update hits.table hits.index (some hit)
    else hits.table

/-- The globals of the scanner. -/
structure Scanner where
  /-- `obs_list`. -/
  obsList : List ObserverArea
  /-- `hits` and its table. -/
  hits : Hits

/-- The first read of one area. -/
def initialRead (area : ObserverArea) (read : AreaRead) : ObserverArea :=
  { area with
    memPtr := ⟨read.words, area.words, true⟩
    cmpPtr := ⟨fun _ => 0, area.words, true⟩
    invalid := !read.complete }

/-- `initialMemoryread`. -/
def initialMemoryread (reads : Nat → AreaRead) (areas : List ObserverArea) : Scanner where
  obsList := areas.zipIdx.map fun (area, place) => initialRead area (reads place)
  hits := ⟨0, fun _ => none⟩

/-- The body of the loop of `checkForChanges` over the words of an area. -/
def scanWord (mode : Mode) (tmpMem : Nat → Word) (scan : Hits × ObserverArea) (i : Nat) :
    Option (Hits × ObserverArea) := do
  let (hits, area) := scan
  let out ← area.cmpPtr.read i
  if out = 1 then return (hits, area)
  else
    let orig ← area.memPtr.read i
    if mode.discards orig (tmpMem i) then
      let cmpPtr ← area.cmpPtr.write i 1
      return (hits, { area with cmpPtr := cmpPtr })
    else
      let hits := hits.record
        ⟨area.addrStart + BitVec.ofNat 64 (i * 8), orig, tmpMem i, area.pathname⟩
      let memPtr ← area.memPtr.write i (tmpMem i)
      return (hits, { area with memPtr := memPtr })

/-- The body of the loop of `checkForChanges` over the areas. -/
def scanArea (mode : Mode) (read : AreaRead) (hits : Hits) (area : ObserverArea) :
    Option (Hits × ObserverArea) :=
  if area.invalid then some (hits, area)
  else if read.complete then
    (List.range area.words).foldlM (scanWord mode read.words) (hits, area)
  else some (hits, { area with invalid := true })

/-- The loop of `checkForChanges` over the areas from a place on. -/
def scanAreas (mode : Mode) (reads : Nat → AreaRead) :
    Nat → Hits → List ObserverArea → Option (Hits × List ObserverArea)
  | _, hits, [] => some (hits, [])
  | place, hits, area :: rest => do
    let (hits, area) ← scanArea mode (reads place) hits area
    let (hits, rest) ← scanAreas mode reads (place + 1) hits rest
    return (hits, area :: rest)

/-- The body of the loop of `invalidateMemory`: release an area without candidates. -/
def invalidateArea (area : ObserverArea) : Option ObserverArea :=
  if area.invalid then some area
  else do
    let allInvalid ← (List.range area.words).allM fun i => do
      let out ← area.cmpPtr.read i
      return out != 0
    if allInvalid then
      let memPtr ← area.memPtr.free
      let cmpPtr ← area.cmpPtr.free
      return { area with memPtr := memPtr, cmpPtr := cmpPtr, invalid := true }
    else return area

/-- `invalidateMemory`. -/
def invalidateMemory (areas : List ObserverArea) : Option (List ObserverArea) :=
  areas.mapM invalidateArea

/-- `checkForChanges`. -/
def checkForChanges (mode : Mode) (reads : Nat → AreaRead) (scanner : Scanner) :
    Option Scanner := do
  let (hits, areas) ← scanAreas mode reads 0 { scanner.hits with count := 0 } scanner.obsList
  let areas ← invalidateMemory areas
  return ⟨areas, hits⟩

/-- The scanner after its first read and `rounds` rounds, where `contents j` is read, and
`modes j` the mode, in round `j`. -/
def scanRounds (contents : Nat → Nat → AreaRead) (modes : Nat → Mode)
    (areas : List ObserverArea) : Nat → Option Scanner
  | 0 => some (initialMemoryread (contents 0) areas)
  | rounds + 1 => do
    let scanner ← scanRounds contents modes areas rounds
    checkForChanges (modes (rounds + 1)) (contents (rounds + 1)) scanner

end A64dbg
