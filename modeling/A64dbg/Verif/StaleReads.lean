import A64dbg.Library.Runs
import A64dbg.MemStreams

/-!
# Reads that come from a buffer

A seek of `proc_mem_read` may keep the block the stream has, and then a read takes its bytes from
there, whenever the block was read. `seen_along` says what keeps the scanner to the memory of its
own operation: when no word asked for is taken outdated, and each observed word can be read,
every value printed and every word compared was in the memory of the tracee when the same
operation made a request.
-/

namespace A64dbg.StaleReads

open ByteMemory Streams Runs

/-- What the requests of a turn find. -/
def moments : Turn → Option (Nat → Moment 64)
  | .observe _ during | .check _ during => some during
  | .tracee _ | .write _ _ | .restore => none

/-- The words a turn has from the request at a place: the word an observation prints, or the words
of an area read completely, which the round compares unless they are out. -/
def taken (checker : Checker) (turn : Turn) (place : Nat) : List (Chunk 64 8) :=
  match turn, checker.asked turn place with
  | .observe stack during, some (addr, _) => [(addr, checker.readValue stack during (place + 1))]
  | .check _ during, some (addr, size) =>
    let read := Checker.areaReads checker.reader during (checker.asked turn) place
    if read.complete then (List.range (size / 8)).map fun i => (above addr (i * 8), read.words i)
    else []
  | _, _ => []

/-- No seek of a turn has failed up to the request at a place. -/
def Reached (stdio : Stdio) (checker : Checker) (turn : Turn) (place : Nat) : Prop :=
  ∀ earlier ≤ place, ∀ request ∈ checker.asked turn earlier, stdio.seekable request.1 = true

/-- Each word a turn prints or compares was in the memory of the tracee when the turn made a
request. -/
def Seen (stdio : Stdio) (state : Option Checker) (turn : Turn) : Prop :=
  ∀ checker ∈ state, ∀ during ∈ moments turn, ∀ place, Reached stdio checker turn place →
    ∀ word ∈ taken checker turn place, ∃ moment ≤ place,
      (checker.asked turn moment).isSome = true ∧ Holds (during moment).file word.1 8 word.2

/-- An observed word can be read, from the block kept or from the memory. -/
def Readable (checker : Checker) (turn : Turn) (place : Nat) : Prop :=
  match turn, checker.asked turn place with
  | .observe _ during, some (addr, _) => ∀ index < 8,
    (viewAt during (checker.asked turn) checker.reader place (above addr index)).isSome = true
  | _, _ => True

/-- No word a turn asks for is outdated, and the observed words can be read. -/
def Fresh (stdio : Stdio) (state : Option Checker) (turn : Turn) : Prop :=
  ∀ checker ∈ state, ∀ during ∈ moments turn, ∀ place, Reached stdio checker turn place →
    (∀ request ∈ checker.asked turn place, ∀ i < request.2 / 8,
      FreshAt during (checker.asked turn) checker.reader place (above request.1 (i * 8)) 8) ∧
    Readable checker turn place

/-- A complete read has found every byte. -/
theorem delivered_all {view : Memory} {addr : Word} {size : Nat} :
    delivered view addr size = size ↔ ∀ index < size, (view (above addr index)).isSome = true := by
  have whole : delivered view addr size = size ↔
      (List.range size).takeWhile (fun index => (view (above addr index)).isSome) =
        List.range size := by
    constructor
    · intro complete
      apply (List.takeWhile_prefix _).eq_of_length
      rw [List.length_range]
      exact complete
    · intro same
      rw [delivered, same, List.length_range]
  rw [whole, List.takeWhile_eq_self_iff]
  simp only [List.mem_range]

/-- A word read completely is the one seen. -/
theorem freadWord_holds {view : Memory} {addr : Word} (value : Word)
    (there : ∀ index < 8, (view (above addr index)).isSome = true) :
    Holds view addr 8 (freadWord view addr value) := by
  have all : delivered view addr 8 = 8 := delivered_all.mpr there
  intro index inside
  have here : offset addr (above addr index) < 8 := by
    rw [offset_above _ _ (by omega)]
    exact inside
  have loaded : byteOf (freadWord view addr value) index =
      (view (above addr index)).getD 0 := by
    unfold freadWord
    rw [byteOf_load _ _ inside, all, if_pos here]
  obtain ⟨byte, read⟩ := Option.isSome_iff_exists.mp (there index inside)
  rw [loaded, read, Option.getD_some]

/-- Each word of a complete read is one seen. -/
theorem readMem_holds {view : Memory} {addr : Word} {size i : Nat}
    (complete : (readMem view addr size).complete = true) (inside : i < size / 8) :
    Holds view (above addr (i * 8)) 8 ((readMem view addr size).words i) := by
  have there := delivered_all.mp (beq_iff_eq.mp complete)
  apply holds_load
  intro index small
  rw [above_above]
  exact there (i * 8 + index) (by omega)

/-- An observation asks for words. -/
theorem asked_word {checker : Checker} {stack : Word} {during : Nat → Moment 64} {place : Nat}
    {request : Word × Nat}
    (asks : checker.asked (.observe stack during) place = some request) : request.2 = 8 := by
  obtain ⟨access, -, made⟩ := Option.bind_eq_some_iff.mp asks
  cases access with
  | read addr =>
    cases made
    rfl
  | write addr value => cases made

section Turn

variable {checker : Checker} {during : Nat → Moment 64} {place : Nat} {request : Word × Nat}

/-- What an observation prints is the word it sees. -/
theorem observed_holds {stack : Word}
    (asks : checker.asked (.observe stack during) place = some request)
    (readable : Readable checker (.observe stack during) place) :
    ∀ word ∈ taken checker (.observe stack during) place, ∃ i < request.2 / 8,
      word.1 = above request.1 (i * 8) ∧
        Holds (viewAt during (checker.asked (.observe stack during)) checker.reader place) word.1 8
          word.2 := by
  intro word inside
  simp only [Readable, asks] at readable
  simp only [taken, asks, Checker.readValue, List.mem_singleton] at inside
  have size : request.2 = 8 := asked_word asks
  refine ⟨0, by omega, ?_, ?_⟩
  · rw [inside, Nat.zero_mul, above_zero]
  · rw [inside]
    exact freadWord_holds _ readable

/-- What a round compares are words it sees. -/
theorem compared_holds {mode : Mode}
    (asks : checker.asked (.check mode during) place = some request) :
    ∀ word ∈ taken checker (.check mode during) place, ∃ i < request.2 / 8,
      word.1 = above request.1 (i * 8) ∧
        Holds (viewAt during (checker.asked (.check mode during)) checker.reader place) word.1 8
          word.2 := by
  intro word inside
  simp only [taken, asks, Checker.areaReads] at inside
  split at inside
  next complete =>
    obtain ⟨i, small, rfl⟩ := List.mem_map.mp inside
    rw [List.mem_range] at small
    exact ⟨i, small, rfl, readMem_holds complete small⟩
  next => cases inside

/-- A turn that makes requests is an observation or a round. -/
theorem moments_cases {turn : Turn} (found : moments turn = some during) :
    (∃ stack, turn = .observe stack during) ∨ ∃ mode, turn = .check mode during := by
  cases turn with
  | tracee memory => cases found
  | write writeAddress writeValue => cases found
  | restore => cases found
  | observe stack during =>
    cases found
    exact .inl ⟨stack, rfl⟩
  | check mode during =>
    cases found
    exact .inr ⟨mode, rfl⟩

/-- A turn takes words of its requests, and they are the ones it sees. -/
theorem taken_holds {turn : Turn} (found : moments turn = some during)
    (readable : Readable checker turn place) {word : Chunk 64 8}
    (inside : word ∈ taken checker turn place) :
    ∃ request ∈ checker.asked turn place, ∃ i < request.2 / 8,
      word.1 = above request.1 (i * 8) ∧
        Holds (viewAt during (checker.asked turn) checker.reader place) word.1 8 word.2 := by
  rcases moments_cases found with ⟨stack, rfl⟩ | ⟨mode, rfl⟩
  · cases asks : checker.asked (.observe stack during) place with
    | none => simp [taken, asks] at inside
    | some request => exact ⟨request, rfl, observed_holds asks readable word inside⟩
  · cases asks : checker.asked (.check mode during) place with
    | none => simp [taken, asks] at inside
    | some request => exact ⟨request, rfl, compared_holds asks word inside⟩

end Turn

/-- A turn whose requests are fresh sees the memory of its own time. -/
theorem seen_step {stdio : Stdio} {state : Option Checker} {turn : Turn}
    (fresh : Fresh stdio state turn) : Seen stdio state turn := by
  intro checker running during found place reached word inside
  obtain ⟨unchanged, readable⟩ := fresh checker running during found place reached
  obtain ⟨request, asks, i, small, here, seen⟩ := taken_holds found readable inside
  have made : (checker.asked turn place).isSome = true := Option.isSome_of_mem asks
  obtain ⟨moment, before, earlier, agree⟩ := fresh_view made (unchanged request asks i small)
  rw [← here] at agree
  exact ⟨moment, before, earlier, agree.holds seen⟩

/-- **Fresh requests see current memory.** In every run from the start of the scanner, whatever the
tracee writes before and during each operation, if no word that an observation or a round asks for
is outdated and the observed words can be read, every word printed and every word compared
was in the memory of the tracee when the same operation made a request. -/
theorem seen_along (stdio : Stdio) (areas : List ObserverArea) (first : Nat → Moment 64)
    (run : List Turn)
    (fresh : Along (Checker.advance stdio) (Fresh stdio) (Checker.start stdio areas first) run) :
    Along (Checker.advance stdio) (Seen stdio) (Checker.start stdio areas first) run :=
  fresh.mono fun _ _ here => seen_step here

/-- Requests that find one byte everywhere. -/
def finding (byte : BitVec 8) (keeps : Bool) (_ : Nat) : Moment 64 where
  file := fun _ => some byte
  keeps := keeps
  refill := (0x1000, 1024)

/-- An area of one word. -/
def wordArea : ObserverArea := .unread 0x1000 8 "heap"

/-- The block a scanner keeps, if it does, holds one byte everywhere. -/
def Steady (byte : BitVec 8) (state : Option Checker) : Prop :=
  ∀ checker ∈ state, ∀ block ∈ checker.reader, block.seen = fun _ => some byte

section Finding

variable {byte : BitVec 8} {keeps : Bool} {asked : Nat → Option (Word × Nat)}
  {reader : Option (Block 64)}

/-- Requests that find one byte everywhere leave no block with another. -/
theorem readerAt_finding (steady : ∀ block ∈ reader, block.seen = fun _ => some byte)
    (place : Nat) :
    ∀ block ∈ readerAt (finding byte keeps) asked reader place,
      block.seen = fun _ => some byte := by
  induction place with
  | zero => exact steady
  | succ place ih =>
    intro block held
    rw [Option.mem_def] at held
    cases here : asked place with
    | none =>
      rw [readerAt_skip here] at held
      exact ih block held
    | some request =>
      rw [readerAt_request here, refilled] at held
      split at held
      · exact ih block (readerAt_kept held)
      · exact Block.read_seen held

/-- A block kept for such a request holds the byte. -/
theorem keptAt_finding (steady : ∀ block ∈ reader, block.seen = fun _ => some byte) {place : Nat}
    {block : Block 64} (kept : keptAt (finding byte keeps) asked reader place = some block) :
    block.seen = fun _ => some byte :=
  readerAt_finding steady place block (readerAt_kept kept)

/-- Such a request sees the byte, from the block or from the memory. -/
theorem viewAt_finding (steady : ∀ block ∈ reader, block.seen = fun _ => some byte)
    (place : Nat) : viewAt (finding byte keeps) asked reader place = fun _ => some byte := by
  funext address
  unfold viewAt view
  cases kept : keptAt (finding byte keeps) asked reader place with
  | none => rfl
  | some block =>
    dsimp only
    rw [keptAt_finding steady kept]
    exact ite_self _

/-- A turn over a tracee that holds one byte everywhere is fresh, whatever block is kept. -/
theorem fresh_finding {turn : Turn} (found : moments turn = some (finding byte keeps))
    {state : Option Checker} (steady : Steady byte state) : Fresh .usual state turn := by
  intro checker running during same place _
  cases found.symm.trans same
  have here := steady checker running
  have current (base : Word) (count : Nat) :
      FreshAt (finding byte keeps) (checker.asked turn) checker.reader place base count := by
    left
    intro index _ block kept _
    rw [keptAt_finding here kept]
    rfl
  refine ⟨fun _ _ _ _ => current _ _, ?_⟩
  rcases moments_cases found with ⟨stack, rfl⟩ | ⟨mode, rfl⟩
  · cases asks : checker.asked (.observe stack (finding byte keeps)) place with
    | none => simp only [Readable, asks]
    | some request =>
      simp only [Readable, asks, viewAt_finding here, Option.isSome_some, implies_true]
  · trivial

/-- Requests that find the byte leave no block with another. -/
theorem serve_steady {checker next : Checker}
    (steady : ∀ block ∈ checker.reader, block.seen = fun _ => some byte) {count : Nat}
    (served : checker.serve .usual (finding byte keeps) asked count = some next) :
    ∀ block ∈ next.reader, block.seen = fun _ => some byte := by
  unfold Checker.serve at served
  split at served
  · cases served
    exact readerAt_finding steady count
  · cases served

/-- A turn over such a tracee leaves no block with another byte. -/
theorem steady_step {turn : Turn} (found : moments turn = some (finding byte keeps))
    {state : Option Checker} (steady : Steady byte state) :
    Steady byte (Checker.advance .usual state turn) := by
  intro next reached
  obtain ⟨checker, running, stepped⟩ := Option.bind_eq_some_iff.mp reached
  have here := steady checker running
  rcases moments_cases found with ⟨stack, rfl⟩ | ⟨mode, rfl⟩
  · exact serve_steady here stepped
  · obtain ⟨served, asks, rest⟩ := Option.bind_eq_some_iff.mp stepped
    obtain ⟨scanner, -, left⟩ := Option.bind_eq_some_iff.mp rest
    cases left
    have kept := serve_steady here asks
    exact kept

/-- The scanner starts with no block kept. -/
theorem steady_start (areas : List ObserverArea) :
    Steady byte (Checker.start .usual areas (finding byte keeps)) := by
  intro checker started
  obtain ⟨served, asks, left⟩ := Option.bind_eq_some_iff.mp started
  cases left
  have none : ∀ block ∈ (Checker.opened areas ((finding byte keeps) 0).file).reader,
      block.seen = fun _ => some byte := by
    intro block held
    cases held
  have kept := serve_steady none asks
  exact kept

end Finding

/-- A round and an observation of a word, which both keep the block of the first read. -/
theorem seen_once :
    Along (Checker.advance .usual) (Seen .usual)
      (Checker.start .usual [wordArea] (finding 1 true))
      [.check .unchanged (finding 1 true), .observe 0 (finding 1 true)] ∧
    (after (Checker.advance .usual) (Checker.start .usual [wordArea] (finding 1 true))
      [.check .unchanged (finding 1 true)]).map (fun checker =>
        (keptAt (finding 1 true) (checker.asked (.observe 0 (finding 1 true))) checker.reader
          0).isSome) = some true := by
  constructor
  · have finds : ∀ turn ∈ [Turn.check .unchanged (finding 1 true), .observe 0 (finding 1 true)],
        moments turn = some (finding 1 true) := by
      intro turn inside
      rcases List.mem_cons.mp inside with rfl | last
      · rfl
      · rw [List.mem_singleton.mp last]
        rfl
    apply seen_along
    have along : Along (Checker.advance .usual)
        (fun _ turn => moments turn = some (finding 1 true))
        (Checker.start .usual [wordArea] (finding 1 true))
        [.check .unchanged (finding 1 true), .observe 0 (finding 1 true)] :=
      along_of_mem _ (fun turn inside _ => finds turn inside) _
    apply along.imp (steady_start [wordArea])
    · exact fun _ _ steady found => steady_step found steady
    · exact fun _ _ steady found => fresh_finding found steady
  · decide +kernel

/-- A round that finds a word of ones; then the tracee writes twos. -/
def overwriting : List Turn := [.check .unchanged (finding 1 true), .tracee fun _ => some 2]

/-- The scanner after its round and the write of the tracee. -/
def overwritten : Option Checker :=
  after (Checker.advance .usual) (Checker.start .usual [wordArea] (finding 1 true)) overwriting

/-- A word of ones is found by a round, the tracee writes twos, and an observation whose seek keeps
the block prints the ones. -/
theorem ones_stale :
    overwritten.map (fun checker => taken checker (.observe 0 (finding 2 true)) 0) =
      some [(0x1000, 0x0101010101010101)] ∧
    ¬Along (Checker.advance .usual) (Seen .usual)
      (Checker.start .usual [wordArea] (finding 1 true))
      (overwriting ++ [.observe 0 (finding 2 true)]) := by
  have printed : overwritten.map (fun checker => taken checker (.observe 0 (finding 2 true)) 0) =
      some [(0x1000, 0x0101010101010101)] := by decide +kernel
  have sought : overwritten.map (fun checker => checker.asked (.observe 0 (finding 2 true)) 0) =
      some (some (0x1000, 8)) := by decide +kernel
  refine ⟨printed, ?_⟩
  intro along
  rw [along_append, along_cons] at along
  have seen : Seen .usual overwritten (.observe 0 (finding 2 true)) := along.2.1
  obtain ⟨checker, running, words⟩ := Option.map_eq_some_iff.mp printed
  have asks : checker.asked (.observe 0 (finding 2 true)) 0 = some (0x1000, 8) := by
    rw [running, Option.map_some, Option.some.injEq] at sought
    exact sought
  have reached : Reached .usual checker (.observe 0 (finding 2 true)) 0 := by
    intro earlier bound request made
    rw [Nat.le_zero.mp bound, asks] at made
    cases made
    rfl
  have inside : ((0x1000, 0x0101010101010101) : Chunk 64 8) ∈
      taken checker (.observe 0 (finding 2 true)) 0 := by
    rw [words]
    exact List.mem_singleton_self _
  obtain ⟨moment, -, -, holds⟩ := seen checker running (finding 2 true) rfl 0 reached _ inside
  have one : byteOf (0x0101010101010101 : Word) 0 = 1 := by decide
  have two : some (2 : BitVec 8) = some 1 := by
    rw [← one]
    exact holds 0 (by decide)
  exact absurd two (by decide)

end A64dbg.StaleReads
