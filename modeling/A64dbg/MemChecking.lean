import A64dbg.MemChecker

/-!
# The commands of the scanner

`runMemChecking` reads the areas once and then does what the user asks: a round, a write of one
word, a restore of the words the last round saved, or an observation of them. Restoring and
observing walk the table of the round, and refuse when it did not hold all hits. What a command
asks of the memory of the tracee outside a round is its list of accesses, each a seek and a read
or write of eight bytes. The addresses in the table are of words that were read, so they can be
sought.
-/

namespace A64dbg

/-- One access of eight bytes, after `seekToMem`. -/
inductive Access where
  /-- `fread` from `proc_mem_read`. -/
  | read (addr : Word)
  /-- `fwrite` to `proc_mem_write`. -/
  | write (addr value : Word)
deriving DecidableEq

/-- What `addr`, `orig`, `modd` and `name` hold at an index; they are zero at first. -/
def Hits.cell (hits : Hits) (i : Nat) : Hit := (hits.table i).getD ⟨0, 0, 0, ""⟩

/-- The loop over the hits of the last round, unless they are too many. -/
def Hits.each (hits : Hits) (body : Hit → Access) : List Access :=
  if maxHitPrint < hits.index then []
  else (List.range hits.index.toNat).map fun i => body (hits.cell i)

/-- `writeMemory`, for the address and the value that `scanf` left. -/
def writeMemory (writeAddress writeValue : Word) : List Access :=
  [.write writeAddress writeValue]

/-- `restoreMemory`. -/
def restoreMemory (hits : Hits) : List Access := hits.each fun hit => .write hit.addr hit.orig

/-- `observeMemory`. -/
def observeMemory (hits : Hits) : List Access := hits.each fun hit => .read hit.addr

/-- What the user asks for. -/
inductive Operation where
  /-- A round in a mode, with what `readMem` delivers for each area. -/
  | check (mode : Mode) (reads : Nat → AreaRead)
  /-- `WRITE_OP`. -/
  | write (writeAddress writeValue : Word)
  /-- `RESTORE_OP`. -/
  | restore
  /-- `OBSERVE_OP`. -/
  | observe

/-- One turn of the loop of `runMemChecking`; only a round changes the scanner. -/
def Scanner.operate (scanner : Scanner) : Operation → Option Scanner
  | .check mode reads => checkForChanges mode reads scanner
  | .write _ _ | .restore | .observe => some scanner

/-- `runMemChecking` on what the user asks for, with what the first read delivers. -/
def runMemChecking (first : Nat → AreaRead) (areas : List ObserverArea)
    (operations : List Operation) : Option Scanner :=
  operations.foldlM Scanner.operate (initialMemoryread first areas)

end A64dbg
