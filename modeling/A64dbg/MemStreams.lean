import A64dbg.Library.Runs
import A64dbg.Library.Streams
import A64dbg.MemChecking

/-!
# The streams of the scanner

`getMemHandle` opens the memory of the tracee twice: `proc_mem_read` and `proc_mem_write` are
buffered streams of the C library, and the tracee may write its memory at any time. The scanner
here has both streams and the memory, and what a round reads and what an observation prints come
through the stream. `seekToMem` ends the scanner when `fseek` fails, also for a word that cannot
be written out. The result of `fwrite` is not looked at.

A request is a seek and a read; between two requests of one operation the tracee may write too.
`run_scanner` says that whatever the streams do, the scanner is one that `runMemChecking` reaches
on what they deliver.
-/

namespace A64dbg

open ByteMemory Streams

/-- What the program relies on in the streams of the C library. -/
structure Stdio where
  /-- Whether `fseek` can go to an address. -/
  seekable : Word → Bool
  /-- The size of the buffer of a stream. -/
  capacity : Nat
  /-- A word does not fill it. -/
  room : 8 < capacity

/-- Buffers of 1024 bytes, and addresses that are not negative as offsets of a file. -/
def Stdio.usual : Stdio where
  seekable address := !address.msb
  capacity := 1024
  room := by decide

/-- What an access asks of `proc_mem_read`. -/
def Access.asks : Access → Option (Word × Nat)
  | .read addr => some (addr, 8)
  | .write _ _ => none

/-- What an access gives to `proc_mem_write`. -/
def Access.puts : Access → Option (Chunk 64 8)
  | .read _ => none
  | .write addr value => some (addr, value)

/-- The number of bytes `fread` delivers: those before the first that cannot be read. -/
def delivered (view : Memory) (addr : Word) (size : Nat) : Nat :=
  ((List.range size).takeWhile fun index => (view (above addr index)).isSome).length

/-- `readMem`, of an area. -/
def readMem (view : Memory) (addr : Word) (size : Nat) : AreaRead where
  complete := delivered view addr size == size
  words i := load view (above addr (i * 8)) 8

/-- `fread` of eight bytes into a variable; a byte not delivered stays as it was. -/
def freadWord (view : Memory) (addr : Word) (value : Word) : Word :=
  load (fun address =>
    if offset addr address < delivered view addr 8 then view address
    else some (byteOf value (offset addr address))) addr 8

/-- The scanner with its streams, over a tracee. -/
structure Checker where
  /-- The globals of the scanner. -/
  scanner : Scanner
  /-- The memory of the tracee. -/
  memory : Memory
  /-- `proc_mem_read`, with the block it keeps. -/
  reader : Option (Block 64)
  /-- `proc_mem_write`, with the words it keeps. -/
  writer : Writer 64 8

/-- One turn of the loop of `runMemChecking`, or a write of the tracee. -/
inductive Turn where
  /-- The tracee writes its memory. -/
  | tracee (memory : Memory)
  /-- `WRITE_OP`. -/
  | write (writeAddress writeValue : Word)
  /-- `RESTORE_OP`. -/
  | restore
  /-- `OBSERVE_OP`, with what `read_value` holds at first and what each request finds. -/
  | observe (stack : Word) (during : Nat → Moment 64)
  /-- A round, with what the request for each area finds. -/
  | check (mode : Mode) (during : Nat → Moment 64)

namespace Checker

/-- The requests of `initialMemoryread`, by the place of the area. -/
def firstAsked (areas : List ObserverArea) (place : Nat) : Option (Word × Nat) :=
  (areas[place]?).map fun area => (area.addrStart, area.length.toNat)

/-- The requests of a turn: an observation reads each hit, a round each area that is valid. -/
def asked (checker : Checker) (turn : Turn) (place : Nat) : Option (Word × Nat) :=
  match turn with
  | .observe _ _ => ((observeMemory checker.scanner.hits)[place]?).bind Access.asks
  | .check _ _ =>
    ((checker.scanner.obsList)[place]?).bind fun area =>
      if area.invalid then none else some (area.addrStart, area.length.toNat)
  | .tracee _ | .write _ _ | .restore => none

/-- The words a turn gives to `proc_mem_write`, oldest first. -/
def written (checker : Checker) (turn : Turn) : List (Chunk 64 8) :=
  match turn with
  | .write writeAddress writeValue => (writeMemory writeAddress writeValue).filterMap Access.puts
  | .restore => (restoreMemory checker.scanner.hits).filterMap Access.puts
  | .tracee _ | .observe _ _ | .check _ _ => []

/-- Requests at the first `count` places, each after `seekToMem`; the tracee writes meanwhile. -/
def serve (stdio : Stdio) (checker : Checker) (during : Nat → Moment 64)
    (asked : Nat → Option (Word × Nat)) (count : Nat) : Option Checker :=
  if ∀ place < count, ∀ request ∈ asked place, stdio.seekable request.1 = true then
    some { checker with
      memory := (during count).file
      reader := readerAt during asked checker.reader count }
  else none

/-- Words given to `proc_mem_write`, each after `seekToMem`. -/
def put (stdio : Stdio) (checker : Checker) (words : List (Chunk 64 8)) : Option Checker :=
  (Writer.putAll stdio.seekable stdio.capacity (checker.memory, checker.writer) words).map
    fun file => { checker with memory := file.1, writer := file.2 }

/-- What `readMem` delivers for each area, from the block kept at first. -/
def areaReads (reader : Option (Block 64)) (during : Nat → Moment 64)
    (asked : Nat → Option (Word × Nat)) (place : Nat) : AreaRead :=
  match asked place with
  | some (addr, size) => readMem (viewAt during asked reader place) addr size
  | none => ⟨false, fun _ => 0⟩

/-- The value of `read_value` after the requests of `observeMemory` before a place; the one after
the request at a place is the value printed there. -/
def readValue (checker : Checker) (stack : Word) (during : Nat → Moment 64) : Nat → Word
  | 0 => stack
  | place + 1 =>
    match checker.asked (.observe stack during) place with
    | some (addr, _) =>
      freadWord (viewAt during (checker.asked (.observe stack during)) checker.reader place) addr
        (readValue checker stack during place)
    | none => readValue checker stack during place

/-- What a turn does; it fails when the scanner ends. -/
def step (stdio : Stdio) (checker : Checker) (turn : Turn) : Option Checker :=
  match turn with
  | .tracee memory => some { checker with memory := memory }
  | .write _ _ | .restore => checker.put stdio (checker.written turn)
  | .observe _ during =>
    checker.serve stdio during (checker.asked turn) (observeMemory checker.scanner.hits).length
  | .check mode during => do
    let served ← checker.serve stdio during (checker.asked turn) checker.scanner.obsList.length
    let scanner ← checkForChanges mode (areaReads checker.reader during (checker.asked turn))
      checker.scanner
    return { served with scanner := scanner }

/-- The streams as `getMemHandle` leaves them. -/
def opened (areas : List ObserverArea) (memory : Memory) : Checker where
  scanner := ⟨areas, ⟨0, fun _ => none⟩⟩
  memory := memory
  reader := none
  writer := ⟨0, []⟩

/-- The scanner when the loop of `runMemChecking` starts. -/
def start (stdio : Stdio) (areas : List ObserverArea) (during : Nat → Moment 64) :
    Option Checker := do
  let served ← (opened areas (during 0).file).serve stdio during (firstAsked areas) areas.length
  return { served with
    scanner := initialMemoryread (areaReads none during (firstAsked areas)) areas }

/-- One turn of a run, unless the scanner has ended. -/
def advance (stdio : Stdio) (checker : Option Checker) (turn : Turn) : Option Checker :=
  checker.bind fun checker => checker.step stdio turn

/-- What a turn does to the scanner, by what the streams deliver; a write of the tracee does
nothing to it. -/
def operation (checker : Checker) (turn : Turn) : List Operation :=
  match turn with
  | .tracee _ => []
  | .write writeAddress writeValue => [.write writeAddress writeValue]
  | .restore => [.restore]
  | .observe _ _ => [.observe]
  | .check mode during => [.check mode (areaReads checker.reader during (checker.asked turn))]

variable {stdio : Stdio} {checker next : Checker}

/-- Requests leave the scanner alone. -/
theorem serve_scanner {during : Nat → Moment 64} {asked : Nat → Option (Word × Nat)} {count : Nat}
    (served : checker.serve stdio during asked count = some next) :
    next.scanner = checker.scanner := by
  unfold serve at served
  split at served
  · cases served
    rfl
  · cases served

/-- Writes leave the scanner alone. -/
theorem put_scanner {words : List (Chunk 64 8)} (put : checker.put stdio words = some next) :
    next.scanner = checker.scanner := by
  obtain ⟨file, -, rfl⟩ := Option.map_eq_some_iff.mp put
  rfl

/-- A turn does to the scanner what its operation does. -/
theorem step_scanner {turn : Turn} (stepped : checker.step stdio turn = some next) :
    (checker.operation turn).foldlM Scanner.operate checker.scanner = some next.scanner := by
  cases turn with
  | tracee memory =>
    cases stepped
    rfl
  | write writeAddress writeValue =>
    rw [put_scanner stepped]
    rfl
  | restore =>
    rw [put_scanner stepped]
    rfl
  | observe stack during =>
    rw [serve_scanner stepped]
    rfl
  | check mode during =>
    obtain ⟨served, -, rest⟩ := Option.bind_eq_some_iff.mp stepped
    obtain ⟨scanner, checked, left⟩ := Option.bind_eq_some_iff.mp rest
    cases left
    simp only [operation, List.foldlM_cons, List.foldlM_nil, Scanner.operate, checked]
    rfl

/-- **The scanner behind the streams.** After any turns the scanner is one that `runMemChecking`
reaches. -/
theorem run_scanner {areas : List ObserverArea} {first : Nat → Moment 64} {run : List Turn}
    (reached : Runs.after (advance stdio) (start stdio areas first) run = some checker) :
    ∃ operations, runMemChecking (areaReads none first (firstAsked areas)) areas operations =
      some checker.scanner := by
  induction run using List.reverseRecOn generalizing checker with
  | nil =>
    obtain ⟨served, -, left⟩ := Option.bind_eq_some_iff.mp reached
    cases left
    exact ⟨[], rfl⟩
  | append_singleton run turn ih =>
    rw [Runs.after_append] at reached
    obtain ⟨before, earlier, stepped⟩ := Option.bind_eq_some_iff.mp reached
    obtain ⟨operations, ran⟩ := ih earlier
    refine ⟨operations ++ before.operation turn, ?_⟩
    rw [runMemChecking, List.foldlM_append]
    exact (Option.bind_eq_some_iff.mpr ⟨before.scanner, ran, step_scanner stepped⟩)

end Checker

end A64dbg
