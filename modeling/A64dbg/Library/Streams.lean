import A64dbg.Library.ByteMemory

/-!
# Buffered streams over a byte memory

A file whose bytes are a memory may change at any time, and a stream keeps bytes of it.

A stream for reading keeps the last block it read. A seek into the block may keep it, and a read
then takes from it what it covers and the rest from the file. `fresh_view` says when some bytes a
request sees are bytes the file held during the sequence of requests it belongs to: when those it
takes from the block are still those of the file, or when all of them come from a block that the
sequence has read.

A stream for writing keeps words until a seek, or until it is full. So of the words of a sequence,
each written after a seek, all but the last have reached the file (`putAll_eq`), and `holds_all_iff`
says when the file holds all of them nevertheless.
-/

namespace Streams

open ByteMemory

variable {width : Nat}

/-! ## Reading -/

/-- A block of bytes read at one moment. -/
structure Block (width : Nat) where
  /-- The bytes of the file at that moment. -/
  seen : Memory width
  /-- The first address of the block. -/
  base : BitVec width
  /-- The number of its bytes. -/
  count : Nat
  /-- All of them were there. -/
  mapped : Mapped seen base count

/-- Read a block; this fails when some byte is not there. -/
def Block.read (file : Memory width) (base : BitVec width) (count : Nat) : Option (Block width) :=
  if mapped : Mapped file base count then some ⟨file, base, count, mapped⟩ else none

/-- The block has the byte at an address. -/
abbrev Block.Covers (block : Block width) (address : BitVec width) : Prop :=
  offset block.base address < block.count

/-- The block has all bytes of a request. -/
abbrev Block.Spans (block : Block width) (target : BitVec width) (count : Nat) : Prop :=
  offset block.base target + count ≤ block.count

/-- What a request finds: the file, and what the stream does where it may choose. -/
structure Moment (width : Nat) where
  /-- The bytes of the file. -/
  file : Memory width
  /-- Whether a seek into the block keeps it. -/
  keeps : Bool
  /-- The block to read when the one there is does not span the request. -/
  refill : BitVec width × Nat

/-- The block after a seek. -/
def seek (reader : Option (Block width)) (target : BitVec width) (keeps : Bool) :
    Option (Block width) :=
  reader.filter fun block => keeps && decide (block.Covers target)

/-- What a reader sees: the bytes of its block, and the file elsewhere. -/
def view (kept : Option (Block width)) (file : Memory width) : Memory width := fun address =>
  match kept with
  | some block => if block.Covers address then block.seen address else file address
  | none => file address

/-- All bytes of a request are in the block kept. -/
def spans (kept : Option (Block width)) (target : BitVec width) (count : Nat) : Bool :=
  kept.any fun block => block.Spans target count

/-- The block after a request: the one kept if it has all of it, else the one read for it. -/
def refilled (kept : Option (Block width)) (moment : Moment width) (target : BitVec width)
    (count : Nat) : Option (Block width) :=
  if spans kept target count then kept else Block.read moment.file moment.refill.1 moment.refill.2

section Requests

-- What is found at each place of a sequence, and what is asked for there.
variable (during : Nat → Moment width) (asked : Nat → Option (BitVec width × Nat))

/-- The block before the request at a place. -/
def readerAt (reader : Option (Block width)) : Nat → Option (Block width)
  | 0 => reader
  | place + 1 =>
    match asked place with
    | none => readerAt reader place
    | some (target, count) =>
      refilled (seek (readerAt reader place) target (during place).keeps) (during place) target
        count

/-- The block kept for the request at a place. -/
def keptAt (reader : Option (Block width)) (place : Nat) : Option (Block width) :=
  match asked place with
  | none => none
  | some (target, _) => seek (readerAt during asked reader place) target (during place).keeps

/-- The bytes that the request at a place can see. -/
def viewAt (reader : Option (Block width)) (place : Nat) : Memory width :=
  view (keptAt during asked reader place) (during place).file

/-- The request at a place is served from the block alone. -/
def ServedAt (reader : Option (Block width)) (place : Nat) : Prop :=
  ∀ request, asked place = some request →
    spans (keptAt during asked reader place) request.1 request.2 = true

/-- An earlier request of the sequence has read a block. -/
def RecentAt (reader : Option (Block width)) (place : Nat) : Prop :=
  ∃ earlier < place, ¬ServedAt during asked reader earlier

/-- What the request at a place takes from the block, among some bytes, is what the file holds
now. -/
def CurrentAt (reader : Option (Block width)) (place : Nat) (base : BitVec width) (count : Nat) :
    Prop :=
  ∀ index < count, ∀ block ∈ keptAt during asked reader place, block.Covers (above base index) →
    block.seen (above base index) = (during place).file (above base index)

/-- The request at a place takes nothing outdated, among some bytes: the block is current where it
is used, or this sequence has read it and it has all of them. -/
def FreshAt (reader : Option (Block width)) (place : Nat) (base : BitVec width) (count : Nat) :
    Prop :=
  CurrentAt during asked reader place base count ∨
    RecentAt during asked reader place ∧
      ∃ block ∈ keptAt during asked reader place, block.Spans base count

end Requests

variable {during : Nat → Moment width} {asked : Nat → Option (BitVec width × Nat)}
  {reader : Option (Block width)} {place : Nat}

/-- A block holds the file it was read from. -/
theorem Block.read_seen {file : Memory width} {base : BitVec width} {count : Nat}
    {block : Block width} (read : Block.read file base count = some block) :
    block.seen = file := by
  unfold Block.read at read
  split at read
  · cases read
    rfl
  · cases read

/-- A block that spans a request covers each byte of it. -/
theorem Block.Spans.covers {block : Block width} {target : BitVec width} {count index : Nat}
    (spanned : block.Spans target count) (inside : index < count) :
    block.Covers (above target index) := by
  have bound : block.base.toNat + block.count ≤ 2 ^ width := block.mapped.1
  have shifted : above target index = above block.base (offset block.base target + index) := by
    rw [← above_above, above_offset]
  unfold Block.Covers
  rw [shifted, offset_above _ _ (by omega)]
  omega

/-- A seek keeps no block that was not there. -/
theorem mem_of_seek {target : BitVec width} {keeps : Bool} {block : Block width}
    (kept : seek reader target keeps = some block) : reader = some block := by
  unfold seek at kept
  rw [Option.filter_eq_some_iff] at kept
  exact kept.1

/-- Without a block the file is seen. -/
@[simp]
theorem view_none (file : Memory width) : view none file = file := rfl

/-- A request keeps the block of the reader if its seek does. -/
theorem keptAt_some {request : BitVec width × Nat} (here : asked place = some request) :
    keptAt during asked reader place =
      seek (readerAt during asked reader place) request.1 (during place).keeps := by
  simp only [keptAt, here]

/-- The block after a place where nothing is asked for. -/
theorem readerAt_skip (idle : asked place = none) :
    readerAt during asked reader (place + 1) = readerAt during asked reader place := by
  simp only [readerAt, idle]

/-- A request leaves the block that it keeps or reads. -/
theorem readerAt_request {request : BitVec width × Nat} (here : asked place = some request) :
    readerAt during asked reader (place + 1) =
      refilled (keptAt during asked reader place) (during place) request.1 request.2 := by
  rw [keptAt_some here]
  simp only [readerAt, here]

/-- Once the sequence has read a block, the block is one that it has read. -/
theorem RecentAt.block (recent : RecentAt during asked reader place) {block : Block width}
    (held : readerAt during asked reader place = some block) :
    ∃ earlier < place, (asked earlier).isSome = true ∧ block.seen = (during earlier).file := by
  induction place with
  | zero =>
    obtain ⟨earlier, before, -⟩ := recent
    omega
  | succ place ih =>
    obtain ⟨earlier, before, unserved⟩ := recent
    have later (served : ServedAt during asked reader place)
        (same : readerAt during asked reader place = some block) :
        ∃ earlier < place + 1, (asked earlier).isSome = true ∧
          block.seen = (during earlier).file := by
      have different : earlier ≠ place := by
        rintro rfl
        exact unserved served
      obtain ⟨first, bound, made, seen⟩ := ih ⟨earlier, by omega, unserved⟩ same
      exact ⟨first, by omega, made, seen⟩
    cases here : asked place with
    | none =>
      rw [readerAt_skip here] at held
      apply later _ held
      intro request asks
      cases here.symm.trans asks
    | some request =>
      rw [readerAt_request here] at held
      unfold refilled at held
      split at held
      next served =>
        rw [keptAt_some here] at held
        apply later _ (mem_of_seek held)
        intro other asks
        cases here.symm.trans asks
        exact served
      next =>
        have seen : block.seen = (during place).file := Block.read_seen held
        exact ⟨place, Nat.lt_succ_self place, by rw [here, Option.isSome_some], seen⟩

/-- The block kept for a request is the one before it. -/
theorem readerAt_kept {block : Block width} (kept : keptAt during asked reader place = some block) :
    readerAt during asked reader place = some block := by
  unfold keptAt at kept
  split at kept
  · cases kept
  · exact mem_of_seek kept

/-- **What a fresh request sees.** It sees bytes that the file held when a request of its sequence
was made, itself or one before it. -/
theorem fresh_view {base : BitVec width} {count : Nat} (made : (asked place).isSome = true)
    (fresh : FreshAt during asked reader place base count) :
    ∃ moment ≤ place, (asked moment).isSome = true ∧
      Agree (during moment).file (viewAt during asked reader place) base count := by
  rcases fresh with current | ⟨recent, block, kept, spanned⟩
  · refine ⟨place, Nat.le_refl place, made, fun index inside => ?_⟩
    cases kept : keptAt during asked reader place with
    | none => rw [viewAt, kept, view_none]
    | some block =>
      have same := current index inside block kept
      simp only [viewAt, kept, view]
      split
      next covered => exact (same covered).symm
      next => rfl
  · obtain ⟨moment, before, asks, seen⟩ := recent.block (readerAt_kept kept)
    refine ⟨moment, by omega, asks, fun index inside => ?_⟩
    have held : keptAt during asked reader place = some block := kept
    have covered : block.Covers (above base index) := spanned.covers inside
    simp only [viewAt, held, view, if_pos covered, seen]

/-! ## Writing -/

/-- A word at an address. -/
abbrev Chunk (width count : Nat) := BitVec width × BitVec (8 * count)

variable {count : Nat}

/-- Write words in order, as long as their addresses are there; return those that remain. -/
def writeOut (memory : Memory width) : List (Chunk width count) →
    Memory width × List (Chunk width count)
  | [] => (memory, [])
  | chunk :: rest =>
    if Mapped memory chunk.1 count then writeOut (store memory chunk.1 count chunk.2) rest
    else (memory, chunk :: rest)

/-- A stream for writing. -/
structure Writer (width count : Nat) where
  /-- Where the next word goes. -/
  position : BitVec width
  /-- The words kept, oldest first. -/
  pending : List (Chunk width count)

/-- Seek, if the library can go there; this writes out what the stream keeps, and fails if some of
it cannot be written. -/
def Writer.seek (seekable : BitVec width → Bool) (file : Memory width × Writer width count)
    (target : BitVec width) : Option (Memory width × Writer width count) :=
  let (memory, remaining) := writeOut file.1 file.2.pending
  if remaining = [] ∧ seekable target = true then some (memory, ⟨target, []⟩) else none

/-- Write a word; the stream keeps it, and writes out what it keeps when that fills it. -/
def Writer.write (capacity : Nat) (file : Memory width × Writer width count)
    (word : BitVec (8 * count)) : Memory width × Writer width count :=
  let kept := file.2.pending ++ [(file.2.position, word)]
  let position := above file.2.position count
  if capacity ≤ count * kept.length then
    let (memory, remaining) := writeOut file.1 kept
    (memory, ⟨position, remaining⟩)
  else (file.1, ⟨position, kept⟩)

/-- Write a word after a seek to its address. -/
def Writer.put (seekable : BitVec width → Bool) (capacity : Nat)
    (file : Memory width × Writer width count) (word : Chunk width count) :
    Option (Memory width × Writer width count) :=
  (Writer.seek seekable file word.1).map fun file => Writer.write capacity file word.2

/-- Write words, each after a seek to its address. -/
def Writer.putAll (seekable : BitVec width → Bool) (capacity : Nat)
    (file : Memory width × Writer width count) (words : List (Chunk width count)) :
    Option (Memory width × Writer width count) :=
  words.foldlM (Writer.put seekable capacity) file

/-- The file with words written in order. -/
def storeAll (memory : Memory width) (words : List (Chunk width count)) : Memory width :=
  words.foldl (fun memory word => store memory word.1 count word.2) memory

/-- The byte a word has at an address. -/
def spells (word : Chunk width count) (address : BitVec width) : Option (BitVec 8) :=
  if offset word.1 address < count then some (byteOf word.2 (offset word.1 address)) else none

/-- No two of the words differ at an address. -/
def Consistent (words : List (Chunk width count)) : Prop :=
  ∀ first ∈ words, ∀ second ∈ words, ∀ address byte byte',
    spells first address = some byte → spells second address = some byte' → byte = byte'

variable {memory : Memory width} {words early : List (Chunk width count)}
  {word last : Chunk width count}

/-- A write keeps and adds no mapped range when its own is mapped. -/
theorem mapped_store_iff (there : Mapped memory word.1 count) (base : BitVec width) (size : Nat) :
    Mapped (store memory word.1 count word.2) base size ↔ Mapped memory base size := by
  constructor
  · rintro ⟨inside, mapped⟩
    refine ⟨inside, fun index small => ?_⟩
    by_cases hit : offset word.1 (above base index) < count
    · have held := there.2 _ hit
      rwa [above_offset] at held
    · rw [← mapped index small, store_apart _ _ _ (by omega)]
  · intro mapped
    exact mapped.store word.1 count word.2

/-- After the first write the addresses of the others are there. -/
theorem mapped_later (there : ∀ other ∈ word :: words, Mapped memory other.1 count) :
    ∀ other ∈ words, Mapped (store memory word.1 count word.2) other.1 count := by
  intro other inside
  have here : Mapped memory word.1 count := there word List.mem_cons_self
  rw [mapped_store_iff here]
  exact there other (List.mem_cons_of_mem word inside)

/-- Writes keep and add no mapped range when their own are mapped. -/
theorem mapped_storeAll (there : ∀ word ∈ words, Mapped memory word.1 count) (base : BitVec width)
    (size : Nat) : Mapped (storeAll memory words) base size ↔ Mapped memory base size := by
  induction words generalizing memory with
  | nil => exact Iff.rfl
  | cons word rest ih =>
    have here : Mapped memory word.1 count := there word List.mem_cons_self
    exact (ih (mapped_later there)).trans (mapped_store_iff here base size)

/-- Words whose addresses are there are all written. -/
theorem writeOut_all (there : ∀ word ∈ words, Mapped memory word.1 count) :
    writeOut memory words = (storeAll memory words, []) := by
  induction words generalizing memory with
  | nil => rfl
  | cons word rest ih =>
    have here : Mapped memory word.1 count := there word List.mem_cons_self
    rw [writeOut, if_pos here, ih (mapped_later there)]
    rfl

/-- If nothing remains, the addresses are there. -/
theorem mapped_of_writeOut (none : (writeOut memory words).2 = []) :
    ∀ word ∈ words, Mapped memory word.1 count := by
  induction words generalizing memory with
  | nil => exact fun word inside => (nomatch inside)
  | cons word rest ih =>
    by_cases here : Mapped memory word.1 count
    · rw [writeOut, if_pos here] at none
      intro other inside
      rcases List.mem_cons.mp inside with rfl | later
      · exact here
      · exact (mapped_store_iff here _ _).mp (ih none other later)
    · rw [writeOut, if_neg here] at none
      cases none

/-- A seek writes out all that the stream keeps, or fails. -/
theorem Writer.seek_eq (seekable : BitVec width → Bool) (file : Memory width × Writer width count)
    (target : BitVec width) :
    Writer.seek seekable file target =
      if (∀ word ∈ file.2.pending, Mapped file.1 word.1 count) ∧ seekable target = true then
        some (storeAll file.1 file.2.pending, ⟨target, []⟩)
      else none := by
  unfold Writer.seek
  by_cases there : ∀ word ∈ file.2.pending, Mapped file.1 word.1 count
  · simp only [writeOut_all there, true_and, and_iff_right there]
  · have left : ¬(writeOut file.1 file.2.pending).2 = [] := fun none =>
      there (mapped_of_writeOut none)
    rw [if_neg fun both => there both.1]
    exact if_neg fun both => left both.1

/-- A stream with room keeps the one word written after a seek. -/
theorem Writer.write_eq {capacity : Nat} (room : count < capacity) (memory : Memory width)
    (target : BitVec width) (word : BitVec (8 * count)) :
    Writer.write capacity (memory, ⟨target, []⟩) word =
      (memory, ⟨above target count, [(target, word)]⟩) := by
  have small : ¬capacity ≤ count * 1 := by omega
  exact if_neg small

/-- The library can go to the address of each word, and those to be written out are mapped: what
the stream keeps, and all words but the last. -/
def Writer.Completes (seekable : BitVec width → Bool) (file : Memory width × Writer width count)
    (early : List (Chunk width count)) (last : Chunk width count) : Prop :=
  (∀ word ∈ file.2.pending ++ early, Mapped file.1 word.1 count) ∧
    (∀ word ∈ early, seekable word.1 = true) ∧ seekable last.1 = true

instance (seekable : BitVec width → Bool) (file : Memory width × Writer width count)
    (early : List (Chunk width count)) (last : Chunk width count) :
    Decidable (Writer.Completes seekable file early last) := by
  unfold Writer.Completes
  infer_instance

section Put

variable {seekable : BitVec width → Bool} {capacity : Nat}
  {file : Memory width × Writer width count}

/-- One word more is written behind those before it. -/
theorem Writer.putAll_append (words : List (Chunk width count)) (word : Chunk width count) :
    Writer.putAll seekable capacity file (words ++ [word]) =
      (Writer.putAll seekable capacity file words).bind fun file =>
        Writer.put seekable capacity file word := by
  simp only [Writer.putAll, List.foldlM_append, List.foldlM_cons, List.foldlM_nil, bind_pure]
  rfl

/-- One word reaches the stream when what it keeps can be written out. -/
theorem Writer.completes_one (word : Chunk width count) :
    Writer.Completes seekable file [] word ↔
      (∀ word ∈ file.2.pending, Mapped file.1 word.1 count) ∧ seekable word.1 = true := by
  simp only [Writer.Completes, List.append_nil, List.not_mem_nil, false_implies, implies_true,
    true_and]

/-- One word after a seek is kept by the stream. -/
theorem Writer.put_eq (room : count < capacity) (word : Chunk width count) :
    Writer.put seekable capacity file word =
      if Writer.Completes seekable file [] word then
        some (storeAll file.1 file.2.pending, ⟨above word.1 count, [word]⟩)
      else none := by
  rw [Writer.put, Writer.seek_eq, if_congr (Writer.completes_one word) rfl rfl]
  split
  · exact congrArg some (Writer.write_eq room _ _ _)
  · rfl

/-- **All words but the last are written.** The stream keeps the last word alone. -/
theorem Writer.putAll_eq (room : count < capacity) (early : List (Chunk width count))
    (last : Chunk width count) :
    Writer.putAll seekable capacity file (early ++ [last]) =
      if Writer.Completes seekable file early last then
        some (storeAll file.1 (file.2.pending ++ early), ⟨above last.1 count, [last]⟩)
      else none := by
  induction early using List.reverseRecOn generalizing last with
  | nil =>
    rw [Writer.putAll_append, List.append_nil, ← Writer.put_eq room last]
    rfl
  | append_singleton early word ih =>
    rw [Writer.putAll_append, ih word]
    have both : Writer.Completes seekable file (early ++ [word]) last ↔
        Writer.Completes seekable file early word ∧ Mapped file.1 word.1 count ∧
          seekable last.1 = true := by
      simp only [Writer.Completes, ← List.append_assoc, List.forall_mem_append,
        List.forall_mem_singleton]
      tauto
    by_cases reached : Writer.Completes seekable file early word
    · have next : storeAll (storeAll file.1 (file.2.pending ++ early)) [word] =
          storeAll file.1 (file.2.pending ++ (early ++ [word])) := by
        simp only [storeAll, List.foldl_append]
      have later : Writer.Completes seekable
          (storeAll file.1 (file.2.pending ++ early), ⟨above word.1 count, [word]⟩) [] last ↔
            Mapped file.1 word.1 count ∧ seekable last.1 = true := by
        rw [Writer.completes_one, List.forall_mem_singleton, mapped_storeAll reached.1]
      rw [if_pos reached, Option.bind_some, Writer.put_eq room, next]
      exact if_congr (later.trans (both.trans (and_iff_right reached)).symm) rfl rfl
    · rw [if_neg reached, if_neg fun all => reached (both.mp all).1]
      rfl

end Put

/-- A word written leaves its bytes, and the others as they were. -/
theorem store_spells (memory : Memory width) (word : Chunk width count) (address : BitVec width) :
    store memory word.1 count word.2 address = (spells word address).or (memory address) := by
  unfold store spells
  split
  · rfl
  · rfl

/-- A memory holds a word when it has each byte of it. -/
theorem holds_iff_spells (fits : count ≤ 2 ^ width) :
    Holds memory word.1 count word.2 ↔
      ∀ address byte, spells word address = some byte → memory address = some byte := by
  constructor
  · intro holds address byte spelled
    unfold spells at spelled
    split at spelled
    next inside =>
      have held := holds _ inside
      rwa [above_offset, spelled] at held
    next => cases spelled
  · intro bytes index inside
    apply bytes
    rw [spells, offset_above _ _ (by omega), if_pos inside]

/-- Where no word has a byte, writing the words leaves the byte that was there. -/
theorem storeAll_apart {address : BitVec width}
    (apart : ∀ word ∈ words, spells word address = none) :
    storeAll memory words address = memory address := by
  induction words using List.reverseRecOn with
  | nil => rfl
  | append_singleton words word ih =>
    rw [List.forall_mem_append, List.forall_mem_singleton] at apart
    have last : storeAll memory (words ++ [word]) address =
        (spells word address).or (storeAll memory words address) := by
      rw [storeAll, List.foldl_append]
      exact store_spells _ _ _
    rw [last, apart.2, Option.none_or, ih apart.1]

/-- Where words have bytes, writing the words leaves the byte of one of them. -/
theorem storeAll_covered (memory : Memory width) {address : BitVec width} {byte : BitVec 8}
    (inside : word ∈ words) (spelled : spells word address = some byte) :
    ∃ other ∈ words, ∃ left, spells other address = some left ∧
      storeAll memory words address = some left := by
  induction words using List.reverseRecOn generalizing word byte with
  | nil => cases inside
  | append_singleton words later ih =>
    have last : storeAll memory (words ++ [later]) address =
        (spells later address).or (storeAll memory words address) := by
      rw [storeAll, List.foldl_append]
      exact store_spells _ _ _
    cases here : spells later address with
    | some found =>
      refine ⟨later, List.mem_append_right words (List.mem_singleton_self later), found, here, ?_⟩
      rw [last, here, Option.some_or]
    | none =>
      rcases List.mem_append.mp inside with early | same
      · obtain ⟨other, among, left, found, stored⟩ := ih early spelled
        refine ⟨other, List.mem_append_left [later] among, left, found, ?_⟩
        rw [last, here, Option.none_or, stored]
      · rw [List.mem_singleton.mp same, here] at spelled
        cases spelled

/-- **When a file holds all words though the last is not written.** The words agree with each
other, and the file had the bytes of the last that no earlier word has. -/
theorem holds_all_iff (fits : count ≤ 2 ^ width) :
    (∀ word ∈ early ++ [last], Holds (storeAll memory early) word.1 count word.2) ↔
      Consistent (early ++ [last]) ∧
        ∀ address byte, spells last address = some byte →
          (∀ word ∈ early, spells word address = none) → memory address = some byte := by
  simp only [holds_iff_spells fits]
  constructor
  · intro holds
    constructor
    · intro first among second others address byte byte' spelled spelled'
      have left := holds first among address byte spelled
      have right := holds second others address byte' spelled'
      exact Option.some.inj (left.symm.trans right)
    · intro address byte spelled apart
      have held := holds last (List.mem_append_right early (List.mem_singleton_self last)) address
        byte spelled
      rwa [storeAll_apart apart] at held
  · rintro ⟨consistent, there⟩ word among address byte spelled
    by_cases covered : ∀ other ∈ early, spells other address = none
    · rcases List.mem_append.mp among with inside | same
      · cases spelled.symm.trans (covered word inside)
      · rw [List.mem_singleton.mp same] at spelled
        rw [storeAll_apart covered, there address byte spelled covered]
    · push Not at covered
      obtain ⟨other, inside, has⟩ := covered
      obtain ⟨found, has⟩ := Option.ne_none_iff_exists'.mp has
      obtain ⟨writer, wrote, left, spelled', stored⟩ := storeAll_covered memory inside has
      rw [stored, consistent writer (List.mem_append_left [last] wrote) word among address left byte
        spelled' spelled]

end Streams
