import A64dbg.Dump

/-!
# The layout of a memory dump

`readTraceeMemory` opens every row but the first from inside the row before it, at its fifth word,
unless that word is the last. `prints_range` says that the rows come out right whenever the read
delivers the whole range: there are as many rows as the words need, each is labelled with the
address of its first word, each word stands once, where its address puts it, and no row is empty.
When the last row is full a blank line follows it.

One `pread` moves no more than `maxRwCount` bytes, and none at an address that is negative as an
`off_t`; `readTraceeMemory` neither asks for the rest nor looks at what came back. `layout_iff` says
of readable memory that its dump is exact where one `pread` moves it and nowhere else: there the
message of `readProcMemory` comes before the rows.
-/

namespace A64dbg.DumpLayout

open ByteMemory Numerals Tables

/-- The word with this index in the range at an address. -/
def word (memory : Memory) (address : Word) (j : Nat) : Nat :=
  (load memory (above address (4 * j)) 4).toNat

/-- Row `k` of a range: the address of word `5 * k` and the words from there on. -/
def rangeRow (memory : Memory) (address : Word) (n k : Nat) : Word × List Nat :=
  (above address (20 * k),
    (List.range' (5 * k) (min (5 * k + 5) n - 5 * k)).map (word memory address))

/-- The rows of a range. -/
def rangeRows (memory : Memory) (address : Word) (n : Nat) : List (Word × List Nat) :=
  (List.range ((n + 4) / 5)).map (rangeRow memory address n)

/-- A text is the dump of a range. -/
structure Exact (memory : Memory) (address : Word) (n : Nat) (text : Text) : Prop where
  /-- It is the table of the rows, and a blank line when the last one is full. -/
  printed : text = table ' ' '\n' ((rangeRows memory address n).map (rowWords 8)) ++
    List.replicate (if n % 5 = 0 then 1 else 0) '\n'
  /-- The rows that can be read off it are those of the range. -/
  rows : shown text = rangeRows memory address n
  /-- No row is empty. -/
  filled : ∀ row ∈ rangeRows memory address n, row.2 ≠ []
  /-- Every word stands once, in order. -/
  once : (rangeRows memory address n).flatMap Prod.snd = (List.range n).map (word memory address)
  /-- A word stands in the row and the column of its address. -/
  place : ∀ j < n, ∃ row, (rangeRows memory address n)[j / 5]? = some row ∧
    row.2[j % 5]? = some (word memory address j) ∧
    above row.1 (4 * (j % 5)) = above address (4 * j)

/-- A word of storage that the read filled is the one in memory. -/
theorem dword_stored (fresh : Int → BitVec 8) (memory : Memory) (address : Word) {count j : Nat}
    (inside : 4 * j + 4 ≤ count) :
    (dword (storageAfter fresh memory address (.delivered count)) j).toNat =
      word memory address j := by
  have same : (dword (storageAfter fresh memory address (.delivered count)) j : BitVec (8 * 4)) =
      load memory (above address (4 * j)) 4 := by
    refine @word_ext 4 _ _ fun index small => ?_
    have stored : 0 ≤ 4 * (j : Int) + index ∧
        4 * (j : Int) + index < (MemRead.delivered count).stored := by
      dsimp only [MemRead.stored]
      omega
    have place : (4 * (j : Int) + index).toNat = 4 * j + index := by omega
    rw [byteOf_dword _ _ small, byteOf_load _ _ small, above_above, storageAfter,
      if_pos stored, place]
  exact congrArg BitVec.toNat same

/-- Row `k` of `n` numbers holds at most five of them, from number `5 * k` on. -/
theorem rowAt_range (number : Nat → Nat) (n k : Nat) :
    rowAt 5 ((List.range n).map number) k =
      (List.range' (5 * k) (min (5 * k + 5) n - 5 * k)).map number := by
  have length : min (5 * k + 5) n - 5 * k = min 5 (n - 5 * k) := by omega
  rw [rowAt, ← List.map_drop, ← List.map_take, List.range_eq_range', List.drop_range', length]
  simp only [Nat.zero_add, Nat.mul_one]
  by_cases full : 5 ≤ n - 5 * k
  · rw [List.take_range'_of_length_ge full, Nat.min_eq_left full]
  · rw [List.take_range'_of_length_le (by omega), Nat.min_eq_right (by omega)]

section Range

variable (memory : Memory) (address : Word) {n : Nat} (positive : 1 ≤ n)
include positive

/-- The rows of a dump of a range are those of the range. -/
theorem dumpRows_range :
    dumpRows address ((List.range n).map (word memory address)) = rangeRows memory address n := by
  have count : max 1 (rowCount 5 n) = (n + 4) / 5 := by
    unfold rowCount
    omega
  unfold dumpRows rangeRows rangeRow
  rw [List.length_map, List.length_range, count]
  simp only [rowAt_range]

/-- A blank line follows a full row. -/
theorem blankLines_range :
    blankLines ((List.range n).map (word memory address)) = if n % 5 = 0 then 1 else 0 := by
  have nonempty : (List.range n).map (word memory address) ≠ [] := by
    rw [Ne, List.map_eq_nil_iff, List.range_eq_nil]
    omega
  unfold blankLines
  rw [List.length_map, List.length_range]
  simp only [nonempty, ne_eq, not_false_eq_true, true_and]

end Range

/-- No row of a range is empty. -/
theorem rangeRows_filled (memory : Memory) (address : Word) (n : Nat) :
    ∀ row ∈ rangeRows memory address n, row.2 ≠ [] := by
  intro row inside
  obtain ⟨k, small, rfl⟩ := List.mem_map.mp inside
  rw [List.mem_range] at small
  rw [rangeRow, Ne, List.map_eq_nil_iff, List.range'_eq_nil_iff]
  omega

/-- A word of a range stands where its address puts it. -/
theorem rangeRows_place (memory : Memory) (address : Word) {n j : Nat} (inside : j < n) :
    ∃ row, (rangeRows memory address n)[j / 5]? = some row ∧
      row.2[j % 5]? = some (word memory address j) ∧
      above row.1 (4 * (j % 5)) = above address (4 * j) := by
  have row : j / 5 < (n + 4) / 5 := by omega
  have there : ((List.range n).map (word memory address))[j]? = some (word memory address j) := by
    rw [List.getElem?_map, List.getElem?_range inside]
    rfl
  have get := rowAt_get (by decide : 0 < 5) ((List.range n).map (word memory address)) j
  rw [rowAt_range, there] at get
  have distance : 20 * (j / 5) + 4 * (j % 5) = 4 * j := by omega
  refine ⟨rangeRow memory address n (j / 5), ?_, get, ?_⟩
  · rw [rangeRows, List.getElem?_map, List.getElem?_range row]
    rfl
  · rw [rangeRow, above_above, distance]

/-- A full read of a range prints exactly its dump. -/
theorem prints_range {host : Host} {addrText sizeText : Text} {address size : Word}
    (addr : stringToU64 addrText = some address) (count : stringToU64 sizeText = some size)
    (positive : 1 ≤ size.toNat) (bounded : size.toNat < 2 ^ 31) (reads : host.reads size = true)
    (fresh : Int → BitVec 8) (memory : Memory) :
    ∃ text, Output.readTraceeMemory host fresh memory (.delivered (4 * size.toNat))
        [addrText, sizeText] = some text ∧ Exact memory address size.toNat text := by
  have allocated : allocates host size = true := by
    rw [allocates, reads, decide_eq_true (by omega)]
    rfl
  have complete : BitVec.ofNat 64 (4 * size.toNat) = size * 4 := by
    apply BitVec.eq_of_toNat_eq
    rw [BitVec.toNat_ofNat, BitVec.toNat_mul, Nat.mul_comm]
    rfl
  have silent : Output.readProcMemory (size * 4) (.delivered (4 * size.toNat)) = [] := by
    rw [Output.readProcMemory, Output.notEnoughRead, complete, if_neg (not_not.mpr rfl)]
  have all : printed size = size.toNat := by
    unfold printed
    omega
  have words : (List.range (printed size)).map (fun j : Nat =>
      (dword (storageAfter fresh memory address (.delivered (4 * size.toNat))) j).toNat) =
      (List.range size.toNat).map (word memory address) := by
    rw [all]
    apply List.map_congr_left
    intro j inside
    rw [List.mem_range] at inside
    exact dword_stored fresh memory address (by omega)
  have rows := dumpRows_range memory address positive
  have prints := Output.readTraceeMemory_prints addr count allocated fresh memory
    (.delivered (4 * size.toNat))
  rw [silent, List.nil_append] at prints
  refine ⟨_, prints, ?_⟩
  constructor
  · rw [dump_table (by omega) 8 fun i => (dword (storageAfter fresh memory address _) i).toNat,
      words, rows, blankLines_range memory address positive]
  · rw [shown_dump (by omega) 8 fun i => (dword (storageAfter fresh memory address _) i).toNat,
      words, rows]
  · exact rangeRows_filled memory address size.toNat
  · rw [← rows, dumpRows_numbers]
  · intro j inside
    exact rangeRows_place memory address inside

/-- The dump of a range starts with a digit of its first label. -/
theorem Exact.front {memory : Memory} {address : Word} {n : Nat} {text : Text}
    (exact : Exact memory address n text) (positive : 1 ≤ n) :
    ∃ digit < 16, text.head? = some (Nat.digitChar digit) := by
  obtain ⟨k, rows⟩ : ∃ k, (n + 4) / 5 = k + 1 := ⟨(n + 4) / 5 - 1, by omega⟩
  obtain ⟨letter, label, spelled⟩ :=
    List.exists_cons_of_ne_nil (padded_nonempty 16 16 (above address 0).toNat)
  obtain ⟨digit, small, same⟩ :=
    padded_letters (by decide : 1 < 16) 16 (above address 0).toNat letter
      (by rw [spelled]; exact List.mem_cons_self)
  refine ⟨digit, small, ?_⟩
  rw [exact.printed, rangeRows, rows, List.range_succ_eq_map]
  simp only [List.map_cons, rangeRow, rowWords, table, line, List.flatMap_cons, hex]
  rw [spelled, same]
  rfl

section Reading

variable {host : Host} {addrText sizeText : Text} {address size : Word}

/-- A range below `2 ^ 31` words has four bytes for each. -/
theorem size_bytes (bounded : size.toNat < 2 ^ 31) : (size * 4).toNat = 4 * size.toNat := by
  rw [BitVec.toNat_mul, show (4 : Word).toNat = 4 by decide]
  omega

/-- What is printed behind the message of a short read is no dump of the range. -/
theorem short_inexact (addr : stringToU64 addrText = some address)
    (count : stringToU64 sizeText = some size) (positive : 1 ≤ size.toNat)
    (fresh : Int → BitVec 8) (memory : Memory) {read : MemRead} {got : Word}
    (message : Output.readProcMemory (size * 4) read = Output.notEnoughRead got (size * 4))
    (differs : got ≠ size * 4) {text : Text}
    (prints : Output.readTraceeMemory host fresh memory read [addrText, sizeText] = some text) :
    ¬Exact memory address size.toNat text := by
  intro exact
  have allocated : allocates host size = true := by
    by_contra refused
    rw [Output.readTraceeMemory, addr, count, Option.bind_some, Option.bind_some,
      if_neg refused] at prints
    cases prints
  rw [Output.readTraceeMemory_prints addr count allocated, message, Output.notEnoughRead,
    if_pos differs, Option.some.injEq] at prints
  obtain ⟨digit, small, first⟩ := exact.front positive
  have letters : ∀ digit < 16, some '[' ≠ some (Nat.digitChar digit) := by decide
  rw [← prints] at first
  exact letters digit small first

/-- A read that delivers less than the range does not deliver its size. -/
theorem delivered_differs (bounded : size.toNat < 2 ^ 31) {delivered : Nat}
    (short : delivered < 4 * size.toNat) : BitVec.ofNat 64 delivered ≠ size * 4 := by
  intro same
  have counts := congrArg BitVec.toNat same
  rw [BitVec.toNat_ofNat, size_bytes bounded] at counts
  omega

/-- A read that fails does not return the size of the range. -/
theorem failed_differs (bounded : size.toNat < 2 ^ 31) : (-1 : Word) ≠ size * 4 := by
  intro same
  have counts := congrArg BitVec.toNat same
  rw [size_bytes bounded, show (-1 : Word).toNat = 2 ^ 64 - 1 by decide] at counts
  omega

/-- **The layout of a dump.** For every address and every number of words that are readable, when
the allocation succeeds `readTraceeMemory` prints exactly their dump if and only if one read can
move them. -/
theorem layout_iff (addr : stringToU64 addrText = some address)
    (count : stringToU64 sizeText = some size) (positive : 1 ≤ size.toNat)
    (bounded : size.toNat < 2 ^ 31) (reads : host.reads size = true) (fresh : Int → BitVec 8)
    {memory : Memory} (readable : Readable memory address (4 * size.toNat)) :
    (∃ text, Output.readTraceeMemory host fresh memory (pread memory address (size * 4))
        [addrText, sizeText] = some text ∧ Exact memory address size.toNat text) ↔
      address.toNat < 2 ^ 63 ∧ size.toNat ≤ 536869888 := by
  by_cases low : address.toNat < 2 ^ 63
  · have bytes := @size_bytes size bounded
    have answer : pread memory address (size * 4) =
        .delivered (min (4 * size.toNat) maxRwCount) := by
      rw [← bytes] at readable ⊢
      exact pread_readable (by omega) low (by omega) readable
    rw [answer, and_iff_right low]
    constructor
    · rintro ⟨text, prints, exact⟩
      by_contra more
      have short : min (4 * size.toNat) maxRwCount < 4 * size.toNat := by
        unfold maxRwCount
        omega
      exact short_inexact addr count positive fresh memory rfl (delivered_differs bounded short)
        prints exact
    · intro fits
      have full : min (4 * size.toNat) maxRwCount = 4 * size.toNat := by
        unfold maxRwCount
        omega
      rw [full]
      exact prints_range addr count positive bounded reads fresh memory
  · rw [pread_high memory (size * 4) (not_lt.mp low)]
    refine iff_of_false ?_ fun both => low both.1
    rintro ⟨text, prints, exact⟩
    exact short_inexact addr count positive fresh memory rfl (failed_differs bounded) prints exact

end Reading

/-- A tracee with every byte readable. -/
def lowBytes : Memory := fun address => some (address.setWidth 8)

/-- `readm 0x10 6` prints a full row and one of a single word. -/
theorem layout_six :
    ∃ text, Output.readTraceeMemory ⟨fun _ => none, fun size => size == 6⟩ (fun _ => 0) lowBytes
        (pread lowBytes 16 (6 * 4)) [['0', 'x', '1', '0'], ['6']] = some text ∧
      Exact lowBytes 16 6 text := by
  have addr : stringToU64 ['0', 'x', '1', '0'] = some 16 := by decide
  have count : stringToU64 ['6'] = some 6 := by decide
  exact (layout_iff addr count (by decide) (by decide) rfl _ fun _ _ => rfl).mpr (by decide)

/-- `readm 0x10 536869889` asks for one word more than a read moves: what it prints of memory that
is readable everywhere is no dump of it. -/
theorem layout_cut :
    Readable lowBytes 16 (4 * 536869889) ∧
    ∃ text, Output.readTraceeMemory ⟨fun _ => none, fun _ => true⟩ (fun _ => 0) lowBytes
        (pread lowBytes 16 (536869889 * 4))
        [['0', 'x', '1', '0'], ['5', '3', '6', '8', '6', '9', '8', '8', '9']] = some text ∧
      ¬Exact lowBytes 16 536869889 text := by
  have addr : stringToU64 ['0', 'x', '1', '0'] = some 16 := by decide
  have count : stringToU64 ['5', '3', '6', '8', '6', '9', '8', '8', '9'] = some 536869889 := by
    decide
  have answer : pread lowBytes 16 (536869889 * 4) = .delivered maxRwCount :=
    pread_readable (by decide) (by decide) (by decide) fun _ _ => rfl
  have allocated : allocates ⟨fun _ => none, fun _ => true⟩ 536869889 = true := by decide
  have prints := Output.readTraceeMemory_prints addr count allocated (fun _ => 0) lowBytes
    (.delivered maxRwCount)
  have differs : BitVec.ofNat 64 maxRwCount ≠ (536869889 : Word) * 4 := by decide
  constructor
  · exact fun _ _ => rfl
  · rw [answer]
    exact ⟨_, prints,
      short_inexact addr count (by decide) (fun _ => 0) lowBytes rfl differs prints⟩

end A64dbg.DumpLayout
