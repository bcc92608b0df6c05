import A64dbg.MemChecking
import A64dbg.RegsMap

/-!
# What a round of the scanner prints

`checkForChanges` prints a line for each area that it could not read whole, then for each area that
was read whether it is active or released, then the number of hits, and the hits themselves if there
are fewer than the table holds. `pathname` is printed as it is.
-/

namespace A64dbg.Output

/-- An address printed by `%p`. -/
def pointer (address : Word) : Text := '0' :: 'x' :: hex 0 address.toNat

/-- `readMem`, for an area; `got` is what `fread` returns. -/
def readMem (read : AreaRead) (got memSize : Word) : Text :=
  if read.complete then []
  else "didnt read enough from Area! ".toList ++ decimal got.toNat ++ " != ".toList ++
    decimal memSize.toNat ++ "\n".toList

/-- The loop of `checkForChanges` over the areas. -/
def scanAreas (reads : Nat → AreaRead) (got : Nat → Word) (areas : List ObserverArea) : Text :=
  areas.zipIdx.flatMap fun (area, place) =>
    if area.invalid then [] else readMem (reads place) (got place) area.length

/-- The front of the line of an area, by `all_invalid`. -/
def areaFront : Bool → Text
  | true => "Release Area: ".toList
  | false => "Area active: ".toList

/-- The body of the loop of `invalidateMemory`. -/
def invalidateArea (area : ObserverArea) : Option Text :=
  if area.invalid then some []
  else do
    let allInvalid ← (List.range area.words).allM fun i => do
      let out ← area.cmpPtr.read i
      return out != 0
    return areaFront allInvalid ++ pointer area.addrStart ++ "\t".toList ++
      area.pathname.toList ++ "\n".toList

/-- `invalidateMemory`. -/
def invalidateMemory (areas : List ObserverArea) : Option Text :=
  (areas.mapM invalidateArea).map List.flatten

/-- The front of the line of the number of hits. -/
def countFront : Mode → Text
  | .changed => "Changed Memory Locations: ".toList
  | .unchanged => "UNchanged Memory Locations: ".toList

/-- The number of hits. -/
def hitCount (mode : Mode) (hits : Hits) : Text :=
  countFront mode ++ signedDecimal (BitVec.ofNat 32 hits.count) ++ "\n".toList

/-- One hit. -/
def hitLine (hit : Hit) : Text :=
  hex 16 hit.addr.toNat ++ " ".toList ++ hex 16 hit.orig.toNat ++ " -> ".toList ++
    hex 16 hit.modd.toNat ++ "\t".toList ++ hit.name.toList ++ "\n".toList

/-- The hits, unless there are too many. -/
def hitLines (hits : Hits) : Text :=
  if maxHitPrint ≤ hits.index then []
  else (List.range hits.index.toNat).flatMap fun i => hitLine (hits.cell i)

/-- `checkForChanges`. -/
def checkForChanges (mode : Mode) (reads : Nat → AreaRead) (got : Nat → Word)
    (scanner : Scanner) : Option Text := do
  let (hits, areas) ←
    A64dbg.scanAreas mode reads 0 { scanner.hits with count := 0 } scanner.obsList
  let released ← invalidateMemory areas
  return scanAreas reads got scanner.obsList ++ released ++ hitCount mode hits ++ hitLines hits

end A64dbg.Output
