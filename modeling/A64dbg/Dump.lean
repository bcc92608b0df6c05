import A64dbg.Library.Numerals
import A64dbg.Library.Tables
import A64dbg.Main

/-!
# Memory dumps

`hexdump` and `readTraceeMemory` with the text they print. Both run one loop over the elements of
an array, under an `int` that is compared as a `uint64_t`; a row is opened by the element before
it. `Output.readTraceeMemory` prints from storage it has just allocated, so the contents of fresh
storage are an argument of it, and what `pread` delivers is an input.

`dump_table` says what the loop prints: the table whose rows are `dumpRows`, and a blank line when
the last row is full. `shown_dump` says that these rows can be read off the text.
-/

namespace A64dbg

open ByteMemory Numerals Tables

/-- A number printed by `%02x`, `%08x` or `%016lx`. -/
def hex (width number : Nat) : Text := padded 16 width number

/-- A number printed by `%lu`. -/
def decimal (number : Nat) : Text := Nat.toDigits 10 number

/-- An address printed by `"%016lx: "`. -/
def rowLabel (offset : Word) : Text := hex 16 offset.toNat ++ [':', ' ']

/-- The index of the loop is below the largest `int` that is compared as a `uint64_t`. -/
theorem index_below {i : BitVec 32} {len : Word} (inside : i.signExtend 64 < len) :
    i.toNat + 1 < 2 ^ 32 := by
  by_contra last
  have top : i = BitVec.allOnes 32 := by
    apply BitVec.eq_of_toNat_eq
    rw [BitVec.toNat_allOnes]
    omega
  rw [top, BitVec.lt_def, show ((BitVec.allOnes 32).signExtend 64).toNat = 2 ^ 64 - 1 by decide]
    at inside
  omega

/-- The loop over the elements, from `i` on; `cell` prints one of them. -/
def dumpLoop (cell : Int → Text) (len offset : Word) (i : BitVec 32) : Text :=
  if _inside : i.signExtend 64 < len then
    if i.toInt.tmod 5 = 4 then
      if i.signExtend 64 = len - 1 then
        cell i.toInt ++ ['\n'] ++ dumpLoop cell len offset (i + 1)
      else
        cell i.toInt ++ ['\n'] ++ rowLabel (offset + 20) ++
          dumpLoop cell len (offset + 20) (i + 1)
    else cell i.toInt ++ dumpLoop cell len offset (i + 1)
  else []
termination_by 2 ^ 32 - i.toNat
decreasing_by
  all_goals
    have below := index_below _inside
    rw [BitVec.toNat_add, show (1 : BitVec 32).toNat = 1 by decide]
    omega

/-- The label of the first row, the loop and the newline behind it. -/
def dump (cell : Int → Text) (offset len : Word) : Text :=
  rowLabel offset ++ dumpLoop cell len offset 0 ++ ['\n']

/-- `((uint32_t*)data)[i]`. -/
def dword (data : Int → BitVec 8) (i : Int) : BitVec 32 :=
  data (4 * i + 3) ++ data (4 * i + 2) ++ data (4 * i + 1) ++ data (4 * i)

/-- A word of an array has the bytes at its place. -/
theorem byteOf_dword (data : Int → BitVec 8) (i : Int) {index : Nat} (inside : index < 4) :
    byteOf (dword data i) index = data (4 * i + index) := by
  have top : byteOf (data (4 * i + 3)) 0 = data (4 * i + 3) := by
    simp [byteOf]
  unfold dword
  interval_cases index
  · rw [byteOf_append_zero]
    simp
  · rw [byteOf_append_succ, byteOf_append_zero]
    rfl
  · rw [byteOf_append_succ, byteOf_append_succ, byteOf_append_zero]
    rfl
  · rw [byteOf_append_succ, byteOf_append_succ, byteOf_append_succ, top]
    rfl

/-- How `pread` on `/proc/pid/mem` ends for `readProcMemory`. -/
inductive MemRead where
  /-- `getMemFd` has no descriptor. -/
  | noFd
  /-- `pread` returns -1. -/
  | failed
  /-- `pread` delivers this many bytes. -/
  | delivered (count : Nat)
deriving DecidableEq, Repr

/-- The bytes that are stored. -/
def MemRead.stored : MemRead → Nat
  | .noFd | .failed => 0
  | .delivered count => count

/-- The most bytes that Linux moves in one read, `MAX_RW_COUNT`. -/
def maxRwCount : Nat := 0x7ffff000

/-- The bytes from an address on are readable. -/
def Readable (memory : Memory) (address : Word) (count : Nat) : Prop :=
  ∀ index < count, (memory (above address index)).isSome = true

/-- How many bytes can be read from an address on before one cannot, up to a number of them. -/
def readableBytes (memory : Memory) (address : Word) (count : Nat) : Nat :=
  ((List.range count).takeWhile fun index => (memory (above address index)).isSome).length

/-- What `pread` on `/proc/pid/mem` answers for a tracee with this memory: it stops at the first
byte that cannot be read and at the limit of one read, and returns -1 when that leaves nothing of a
size that is not zero, when the size is no `ssize_t`, or when the address is negative as an
`off_t`. -/
def pread (memory : Memory) (address size : Word) : MemRead :=
  let count := readableBytes memory address (min size.toNat maxRwCount)
  if 2 ^ 63 ≤ size.toNat ∨ 2 ^ 63 ≤ address.toNat ∨ count = 0 ∧ size ≠ 0 then .failed
  else .delivered count

/-- Bytes that are all readable are all counted. -/
theorem readableBytes_all {memory : Memory} {address : Word} {count : Nat}
    (readable : Readable memory address count) : readableBytes memory address count = count := by
  have all : ∀ index ∈ List.range count, (memory (above address index)).isSome = true := by
    intro index inside
    exact readable index (List.mem_range.mp inside)
  unfold readableBytes
  rw [List.takeWhile_eq_self_iff.mpr all, List.length_range]

/-- A read of memory that is all readable delivers everything up to the limit. -/
theorem pread_readable {memory : Memory} {address size : Word} (bounded : size.toNat < 2 ^ 63)
    (low : address.toNat < 2 ^ 63) (positive : 0 < size.toNat)
    (readable : Readable memory address size.toNat) :
    pread memory address size = .delivered (min size.toNat maxRwCount) := by
  have counted : readableBytes memory address (min size.toNat maxRwCount) =
      min size.toNat maxRwCount := by
    apply readableBytes_all
    intro index inside
    exact readable index (by omega)
  have some : min size.toNat maxRwCount ≠ 0 := by
    unfold maxRwCount
    omega
  have moves : ¬(2 ^ 63 ≤ size.toNat ∨ 2 ^ 63 ≤ address.toNat ∨
      min size.toNat maxRwCount = 0 ∧ size ≠ 0) := by
    omega
  unfold pread
  rw [counted]
  exact if_neg moves

/-- No read is made at an address that is negative as an `off_t`. -/
theorem pread_high (memory : Memory) {address : Word} (size : Word)
    (high : 2 ^ 63 ≤ address.toNat) : pread memory address size = .failed :=
  if_pos (Or.inr (Or.inl high))

/-- The storage behind `mem_storage` after the read, from what it held before. -/
def storageAfter (fresh : Int → BitVec 8) (memory : Memory) (offset : Word) (read : MemRead)
    (i : Int) : BitVec 8 :=
  if 0 ≤ i ∧ i < read.stored then (memory (above offset i.toNat)).getD 0 else fresh i

/-- `new uint32_t[r_size]` succeeds; an array of more than `PTRDIFF_MAX` bytes it refuses. -/
def allocates (host : Host) (rSize : Word) : Bool :=
  decide (4 * rSize.toNat < 2 ^ 63) && host.reads rSize

namespace Output

/-- What the loop of `hexdump` prints for one element. -/
def hexdumpCell (data : Int → BitVec 8) (format : BitVec 8) (i : Int) : Text :=
  if format = 1 then hex 2 (data i).toNat ++ [' ']
  else if format = 4 then hex 8 (dword data i).toNat ++ [' ']
  else []

/-- `hexdump`. -/
def hexdump (data : Int → BitVec 8) (offset len : Word) (format : BitVec 8) : Text :=
  if format ≠ 1 ∧ format ≠ 4 then "[!] Invalid hexdump format, no printing\n".toList
  else dump (hexdumpCell data format) offset (if format = 4 then len / 4 else len)

/-- The message of `readProcMemory` about the result of `pread`. -/
def notEnoughRead (read memSize : Word) : Text :=
  if read ≠ memSize then
    "[Memory] not enough read! ".toList ++ decimal read.toNat ++ " != ".toList ++
      decimal memSize.toNat ++ ['\n']
  else []

/-- `readProcMemory`. -/
def readProcMemory (memSize : Word) : MemRead → Text
  | .noFd => []
  | .failed => notEnoughRead (-1) memSize
  | .delivered count => notEnoughRead (BitVec.ofNat 64 count) memSize

/-- `readTraceeMemory`, or none where an exception leaves it. -/
def readTraceeMemory (host : Host) (fresh : Int → BitVec 8) (memory : Memory) (read : MemRead) :
    List Text → Option Text
  | [rAddr, rSize] =>
    (stringToU64 rAddr).bind fun rAddr =>
      (stringToU64 rSize).bind fun rSize =>
        if allocates host rSize then
          let storage := dword (storageAfter fresh memory rAddr read)
          some (readProcMemory (rSize * 4) read ++
            dump (fun i => hex 8 (storage i).toNat ++ [' ']) rAddr rSize)
        else none
  | _ => some "[!] Invalid amount of arguments for reading memory!\n".toList

/-- `readTraceeMemory` prints the message of the read and the dump where no exception leaves it. -/
theorem readTraceeMemory_prints {host : Host} {addrText sizeText : Text} {rAddr rSize : Word}
    (addr : stringToU64 addrText = some rAddr) (size : stringToU64 sizeText = some rSize)
    (allocated : allocates host rSize = true) (fresh : Int → BitVec 8) (memory : Memory)
    (read : MemRead) :
    readTraceeMemory host fresh memory read [addrText, sizeText] =
      some (readProcMemory (rSize * 4) read ++
        dump (fun i => hex 8 (dword (storageAfter fresh memory rAddr read) i).toNat ++ [' '])
          rAddr rSize) := by
  rw [readTraceeMemory, addr, size, Option.bind_some, Option.bind_some, if_pos allocated]

end Output

/-- What the loop prints for numbers behind this many of their row. -/
def rowsText (width column : Nat) (offset : Word) : List Nat → Text
  | [] => []
  | number :: rest =>
    hex width number ++ [' '] ++
      if column = 4 then
        if rest = [] then ['\n']
        else ['\n'] ++ rowLabel (offset + 20) ++ rowsText width 0 (offset + 20) rest
      else rowsText width (column + 1) offset rest

/-- The number of elements the loop prints: the index stays an `int`. -/
def printed (len : Word) : Nat := min len.toNat (2 ^ 31)

section Loop

variable {len : Word} {i : Nat}

/-- An index that was printed, as an `int`. -/
theorem index_toInt (small : i < 2 ^ 31) : (BitVec.ofNat 32 i).toInt = i := by
  rw [BitVec.toInt_ofNat', Int.bmod]
  omega

/-- An index that was printed, as the loop compares it. -/
theorem index_extend (small : i < 2 ^ 31) :
    (BitVec.ofNat 32 i).signExtend 64 = BitVec.ofNat 64 i := by
  apply BitVec.eq_of_toInt_eq
  rw [BitVec.toInt_signExtend_of_le (by omega), index_toInt small, BitVec.toInt_ofNat', Int.bmod]
  omega

/-- The loop goes on exactly while there is another word to print. -/
theorem index_inside (bounded : len.toNat ≤ 2 ^ 64 - 2 ^ 31) (reached : i ≤ printed len) :
    (BitVec.ofNat 32 i).signExtend 64 < len ↔ i < printed len := by
  unfold printed at reached ⊢
  by_cases small : i < 2 ^ 31
  · rw [index_extend small, BitVec.lt_def, BitVec.toNat_ofNat]
    omega
  · have top : i = 2 ^ 31 := by omega
    rw [top, BitVec.lt_def,
      show ((BitVec.ofNat 32 (2 ^ 31)).signExtend 64).toNat = 2 ^ 64 - 2 ^ 31 by decide]
    omega

/-- At the end of a full row the test for the last element holds exactly at the last word. -/
theorem index_last (inside : i < printed len) (full : i % 5 = 4) :
    (BitVec.ofNat 32 i).signExtend 64 = len - 1 ↔ i + 1 = printed len := by
  unfold printed at inside ⊢
  have small : i < 2 ^ 31 := by omega
  have fits : i < 2 ^ 64 := by omega
  have positive : (1 : Word) ≤ len := by
    rw [BitVec.le_def, show (1 : Word).toNat = 1 by decide]
    omega
  rw [index_extend small, ← BitVec.toNat_inj, BitVec.toNat_ofNat, Nat.mod_eq_of_lt fits,
    BitVec.toNat_sub_of_le positive, show (1 : Word).toNat = 1 by decide]
  omega

end Loop

/-- The loop prints the numbers from its index on. -/
theorem dumpLoop_eq {len : Word} (bounded : len.toNat ≤ 2 ^ 64 - 2 ^ 31) (width : Nat)
    (number : Int → Nat) (rest : Nat) {i : Nat} (reached : i + rest = printed len)
    (offset : Word) :
    dumpLoop (fun i => hex width (number i) ++ [' ']) len offset (BitVec.ofNat 32 i) =
      rowsText width (i % 5) offset ((List.range' i rest).map fun j : Nat => number j) := by
  induction rest generalizing i offset with
  | zero =>
    have done : ¬(BitVec.ofNat 32 i).signExtend 64 < len := by
      rw [index_inside bounded (by omega)]
      omega
    rw [dumpLoop, dif_neg done]
    rfl
  | succ rest ih =>
    have inside : i < printed len := by omega
    have small : i < 2 ^ 31 := by
      unfold printed at inside
      omega
    have index : (BitVec.ofNat 32 i).toInt = i := index_toInt small
    have column : (i : Int).tmod 5 = 4 ↔ i % 5 = 4 := by
      rw [Int.tmod_eq_emod_of_nonneg (by omega)]
      omega
    have next : BitVec.ofNat 32 i + 1 = BitVec.ofNat 32 (i + 1) := (BitVec.ofNat_add i 1).symm
    have last : (List.range' (i + 1) rest).map (fun j : Nat => number j) = [] ↔ rest = 0 := by
      simp
    rw [dumpLoop, dif_pos ((index_inside bounded (by omega)).mpr inside), index, next,
      List.range'_succ, List.map_cons, rowsText]
    by_cases full : i % 5 = 4
    · have first : (i + 1) % 5 = 0 := by omega
      have lastTest := index_last inside full
      rw [if_pos (column.mpr full), if_pos full]
      by_cases ends : rest = 0
      · rw [if_pos (lastTest.mpr (by omega)), if_pos (last.mpr ends), ih (by omega),
          last.mpr ends, rowsText, List.append_nil, List.append_assoc]
      · rw [if_neg (mt lastTest.mp (by omega)), if_neg (mt last.mp ends), ih (by omega), first]
        simp only [List.append_assoc]
    · have later : (i + 1) % 5 = i % 5 + 1 := by omega
      rw [if_neg (mt column.mp full), if_neg full, ih (by omega), later]

/-- The rows of a dump, the label of each and its numbers; the first has its label even when there
are no numbers. -/
def dumpRows (offset : Word) (numbers : List Nat) : List (Word × List Nat) :=
  (List.range (max 1 (rowCount 5 numbers.length))).map fun k =>
    (offset + BitVec.ofNat 64 (20 * k), rowAt 5 numbers k)

/-- The words of a row, as they are printed. -/
def rowWords (width : Nat) (row : Word × List Nat) : List Text :=
  (hex 16 row.1.toNat ++ [':']) :: row.2.map (hex width)

/-- The blank lines behind the rows: one when the last row is full. -/
def blankLines (numbers : List Nat) : Nat :=
  if numbers ≠ [] ∧ numbers.length % 5 = 0 then 1 else 0

/-- The rest of a row that has been opened, and what follows it. -/
theorem rowsText_cut (width : Nat) {column : Nat} (inside : column < 5) (offset : Word)
    (numbers : List Nat) :
    rowsText width column offset numbers =
      line ' ' ((numbers.take (5 - column)).map (hex width)) ++
        if numbers.length < 5 - column then []
        else if numbers.drop (5 - column) = [] then ['\n']
        else ['\n'] ++ rowLabel (offset + 20) ++
          rowsText width 0 (offset + 20) (numbers.drop (5 - column)) := by
  induction numbers generalizing column with
  | nil =>
    have short : ([] : List Nat).length < 5 - column := by
      rw [List.length_nil]
      omega
    rw [if_pos short, List.take_nil, rowsText]
    rfl
  | cons number rest ih =>
    obtain ⟨left, cut⟩ : ∃ left, 5 - column = left + 1 := ⟨4 - column, by omega⟩
    have front : line ' ' (((number :: rest).take (left + 1)).map (hex width)) =
        hex width number ++ [' '] ++ line ' ' ((rest.take left).map (hex width)) := rfl
    have short : (number :: rest).length < left + 1 ↔ rest.length < left := by
      rw [List.length_cons]
      omega
    rw [rowsText, cut, front, List.drop_succ_cons, List.append_assoc _ (line _ _)]
    congr 1
    by_cases last : column = 4
    · have none : left = 0 := by omega
      have filled : ¬(number :: rest).length < 0 + 1 := by
        rw [List.length_cons]
        omega
      rw [if_pos last, none, if_neg filled]
      rfl
    · have next : 5 - (column + 1) = left := by omega
      rw [if_neg last, ih (by omega), next]
      simp only [short]

/-- Numbers that fit in one row. -/
theorem dumpRows_one (offset : Word) {numbers : List Nat} (fits : numbers.length ≤ 5) :
    dumpRows offset numbers = [(offset, numbers)] := by
  have one : max 1 (rowCount 5 numbers.length) = 1 := by
    unfold rowCount
    omega
  unfold dumpRows
  rw [one, List.range_one, List.map_singleton, rowAt_zero, List.take_of_length_le fits]
  simp

/-- More than five numbers are a full row and the rows of the rest. -/
theorem dumpRows_more (offset : Word) {numbers : List Nat} (more : 5 < numbers.length) :
    dumpRows offset numbers =
      (offset, numbers.take 5) :: dumpRows (offset + 20) (numbers.drop 5) := by
  have count : max 1 (rowCount 5 numbers.length) =
      max 1 (rowCount 5 (numbers.drop 5).length) + 1 := by
    rw [List.length_drop]
    unfold rowCount
    omega
  have label (k : Nat) : offset + BitVec.ofNat 64 (20 * (k + 1)) =
      offset + 20 + BitVec.ofNat 64 (20 * k) := by
    rw [BitVec.add_assoc, Nat.mul_succ, Nat.add_comm, BitVec.ofNat_add]
    rfl
  unfold dumpRows
  rw [count, List.range_succ_eq_map, List.map_cons, List.map_map, rowAt_zero]
  simp [Function.comp_def, label, rowAt_succ]

/-- The rows and the blank line as they are printed. -/
theorem rowsText_table (width : Nat) (offset : Word) (numbers : List Nat) :
    rowLabel offset ++ rowsText width 0 offset numbers ++ ['\n'] =
      table ' ' '\n' ((dumpRows offset numbers).map (rowWords width)) ++
        List.replicate (blankLines numbers) '\n' := by
  induction length : numbers.length using Nat.strong_induction_on generalizing offset numbers with
  | _ count ih =>
    have cut := rowsText_cut width (by decide : 0 < 5) offset numbers
    by_cases fits : count ≤ 5
    · rw [dumpRows_one offset (by omega), cut, List.take_of_length_le (by omega)]
      by_cases short : count < 5
      · have ragged : blankLines numbers = 0 := by
          apply if_neg
          rintro ⟨nonempty, full⟩
          have positive := List.length_pos_iff.mpr nonempty
          omega
        rw [if_pos (by omega), ragged]
        simp [table, line, rowWords, rowLabel]
      · have full : blankLines numbers = 1 := by
          apply if_pos
          constructor
          · apply List.ne_nil_of_length_pos
            omega
          · omega
        have rest : numbers.drop (5 - 0) = [] := List.drop_of_length_le (by omega)
        rw [if_neg (by omega), if_pos rest, full]
        simp [table, line, rowWords, rowLabel]
    · have rest : numbers.drop (5 - 0) ≠ [] := by
        rw [Ne, List.drop_eq_nil_iff]
        omega
      have blank : blankLines numbers = blankLines (numbers.drop 5) := by
        have nonempty : numbers ≠ [] := by
          apply List.ne_nil_of_length_pos
          omega
        have left : numbers.drop 5 ≠ [] := rest
        have full : (numbers.drop 5).length % 5 = 0 ↔ numbers.length % 5 = 0 := by
          rw [List.length_drop]
          omega
        simp only [blankLines, ne_eq, nonempty, left, full]
      have later := ih (count - 5) (by omega) (offset + 20) (numbers.drop 5)
        (by rw [List.length_drop, length])
      rw [dumpRows_more offset (by omega), cut, if_neg (by omega), if_neg rest, blank,
        List.map_cons]
      simp only [table, List.flatMap_cons, List.append_assoc] at later ⊢
      rw [← later]
      simp [line, rowWords, rowLabel]

/-- **What a dump prints.** -/
theorem dump_table {len : Word} (bounded : len.toNat ≤ 2 ^ 64 - 2 ^ 31) (width : Nat)
    (number : Int → Nat) (offset : Word) :
    dump (fun i => hex width (number i) ++ [' ']) offset len =
      table ' ' '\n' ((dumpRows offset ((List.range (printed len)).map fun j : Nat => number j)).map
          (rowWords width)) ++
        List.replicate (blankLines ((List.range (printed len)).map fun j : Nat => number j))
          '\n' := by
  rw [← rowsText_table, List.range_eq_range',
    ← dumpLoop_eq bounded width number (printed len) (Nat.zero_add _) offset]
  rfl

/-- The row that the words of a line spell. -/
def shownRow (words : List Text) : Word × List Nat :=
  (BitVec.ofNat 64 (numberOf 16 (words.headD []).dropLast), words.tail.map (numberOf 16))

/-- The rows that can be read off a text. -/
def shown (text : Text) : List (Word × List Nat) := (read ' ' '\n' text).map shownRow

/-- A printed number is read as itself. -/
theorem numberOf_hex (width number : Nat) : numberOf 16 (hex width number) = number := by
  have reads : ∀ d < 16, (digitValue (Nat.digitChar d)).getD 0 = d := by decide
  exact value_padded (by decide) reads width number

/-- A printed number fills a cell. -/
theorem hex_cell (width number : Nat) : Cell ' ' '\n' (hex width number) := by
  constructor
  · exact padded_nonempty 16 width number
  · intro letter inside
    obtain ⟨d, small, rfl⟩ := padded_letters (by decide) width number letter inside
    have clean : ∀ d < 16, Nat.digitChar d ≠ ' ' ∧ Nat.digitChar d ≠ '\n' := by decide
    exact clean d small

/-- The words of a row fill cells. -/
theorem rowWords_cell (width : Nat) (row : Word × List Nat) :
    rowWords width row ≠ [] ∧ ∀ word ∈ rowWords width row, Cell ' ' '\n' word := by
  unfold rowWords
  constructor
  · exact List.cons_ne_nil _ _
  · rw [List.forall_mem_cons]
    constructor
    · obtain ⟨-, letters⟩ := hex_cell 16 row.1.toNat
      constructor
      · simp
      · intro letter inside
        rw [List.mem_append, List.mem_singleton] at inside
        cases inside with
        | inl digits => exact letters letter digits
        | inr colon =>
          rw [colon]
          decide
    · intro word inside
      obtain ⟨number, -, rfl⟩ := List.mem_map.mp inside
      exact hex_cell width number

/-- The words of a row spell it. -/
theorem shownRow_words (width : Nat) (row : Word × List Nat) :
    shownRow (rowWords width row) = row := by
  have spelled : (row.2.map (hex width)).map (numberOf 16) = row.2 := by
    rw [List.map_map]
    exact List.map_id'' (numberOf_hex width) row.2
  unfold shownRow rowWords
  rw [List.headD_cons, List.tail_cons, List.dropLast_concat, numberOf_hex, spelled,
    BitVec.ofNat_toNat, BitVec.setWidth_eq]

/-- **The rows of a dump can be read off its text.** -/
theorem shown_dump {len : Word} (bounded : len.toNat ≤ 2 ^ 64 - 2 ^ 31) (width : Nat)
    (number : Int → Nat) (offset : Word) :
    shown (dump (fun i => hex width (number i) ++ [' ']) offset len) =
      dumpRows offset ((List.range (printed len)).map fun j : Nat => number j) := by
  have cells : ∀ row ∈ (dumpRows offset ((List.range (printed len)).map fun j : Nat =>
      number j)).map (rowWords width), row ≠ [] ∧ ∀ word ∈ row, Cell ' ' '\n' word := by
    intro words inside
    obtain ⟨row, -, rfl⟩ := List.mem_map.mp inside
    exact rowWords_cell width row
  unfold shown
  rw [dump_table bounded, read_table (by decide) cells, List.map_map]
  exact List.map_id'' (shownRow_words width) _

/-- The rows hold the numbers in order. -/
theorem dumpRows_numbers (offset : Word) (numbers : List Nat) :
    (dumpRows offset numbers).flatMap Prod.snd = numbers := by
  by_cases empty : numbers = []
  · rw [empty]
    rfl
  · have positive := List.length_pos_iff.mpr empty
    have count : max 1 (rowCount 5 numbers.length) = rowCount 5 numbers.length := by
      unfold rowCount
      omega
    unfold dumpRows
    rw [count, List.flatMap_map]
    exact rows_flatten (by decide) numbers

/-- The rows before a row hold five numbers each and give it its label. -/
theorem dumpRows_split {offset : Word} {numbers : List Nat}
    {before after : List (Word × List Nat)} {row : Word × List Nat}
    (split : dumpRows offset numbers = before ++ row :: after) :
    row = (offset + BitVec.ofNat 64 (20 * before.length), rowAt 5 numbers before.length) ∧
      before.flatMap Prod.snd = numbers.take (5 * before.length) := by
  unfold dumpRows at split
  have inside : before.length < max 1 (rowCount 5 numbers.length) := by
    have lengths := congrArg List.length split
    rw [List.length_map, List.length_range, List.length_append, List.length_cons] at lengths
    omega
  constructor
  · have here := congrArg (fun rows => rows[before.length]?) split
    simp only [List.getElem?_map, List.getElem?_range inside, Option.map_some,
      List.getElem?_append_right (Nat.le_refl _), Nat.sub_self, List.getElem?_cons_zero,
      Option.some.injEq] at here
    exact here.symm
  · have front := congrArg (List.take before.length) split
    rw [List.take_left, ← List.map_take, List.take_range, Nat.min_eq_left (by omega)] at front
    have flat := congrArg (List.flatMap Prod.snd) front
    rw [List.flatMap_map] at flat
    exact flat.symm.trans (rows_take numbers before.length)

/-- The first row of a dump is labelled with its offset. -/
theorem dumpRows_first (offset : Word) (numbers : List Nat) :
    ∃ after, dumpRows offset numbers = (offset, numbers.take 5) :: after := by
  by_cases fits : numbers.length ≤ 5
  · rw [dumpRows_one offset fits, List.take_of_length_le fits]
    exact ⟨[], rfl⟩
  · exact ⟨_, dumpRows_more offset (by omega)⟩

end A64dbg
