import A64dbg.Dump

/-!
# What a hex dump shows

`hexdump` prints bytes or words of four of them, five in a row, and both ways the label of the next
row is 20 further; the number of words is the length divided by four. So the labels of the rows of
bytes are wrong from the second row on, and the bytes behind the last whole word are not shown.
`faithful_iff` says that the dump is right exactly where neither happens: when it shows at most one
row of bytes, or words, and as many bytes as its words have.
-/

namespace A64dbg.Hexdump

open ByteMemory Tables

/-- The bytes that a printed number stands for, least significant first. -/
def numberBytes (format : BitVec 8) (number : Nat) : List (BitVec 8) :=
  (List.range format.toNat).map fun index => byteOf (BitVec.ofNat 32 number) index

/-- The bytes that rows show, in order. -/
def rowsBytes (format : BitVec 8) (rows : List (Word × List Nat)) : List (BitVec 8) :=
  (rows.flatMap Prod.snd).flatMap (numberBytes format)

/-- A text shows a buffer, and labels the rows in which it shows something. -/
structure Faithful (data : Int → BitVec 8) (offset len : Word) (format : BitVec 8)
    (text : Text) : Prop where
  /-- Every byte is shown once, in order. -/
  bytes : rowsBytes format (shown text) = (List.range len.toNat).map fun i : Nat => data i
  /-- A label is the offset of the first byte of its row. -/
  labels : ∀ before row after, shown text = before ++ row :: after → row.2 ≠ [] →
    row.1 = offset + BitVec.ofNat 64 (rowsBytes format before).length

/-- The numbers `hexdump` prints. -/
def numbers (data : Int → BitVec 8) (len : Word) (format : BitVec 8) : List Nat :=
  if format = 4 then (List.range (len.toNat / 4)).map fun i : Nat => (dword data i).toNat
  else (List.range len.toNat).map fun i : Nat => (data i).toNat

section Shown

variable (data : Int → BitVec 8) (offset : Word) {len : Word} {format : BitVec 8}

/-- A hex dump shows the rows of its numbers. -/
theorem shown_hexdump (formats : format = 1 ∨ format = 4) (bounded : len.toNat < 2 ^ 31) :
    shown (Output.hexdump data offset len format) = dumpRows offset (numbers data len format) := by
  unfold numbers
  cases formats with
  | inl bytes =>
    have all : printed len = len.toNat := by
      unfold printed
      omega
    have cells : Output.hexdumpCell data 1 = fun i => hex 2 (data i).toNat ++ [' '] := rfl
    rw [bytes, Output.hexdump, if_neg (by decide), if_neg (by decide), if_neg (by decide), cells,
      shown_dump (by omega) 2 fun i => (data i).toNat, all]
  | inr words =>
    have quarter : (len / 4).toNat = len.toNat / 4 := by
      rw [BitVec.toNat_udiv]
      rfl
    have all : printed (len / 4) = len.toNat / 4 := by
      unfold printed
      omega
    have cells : Output.hexdumpCell data 4 = fun i => hex 8 (dword data i).toNat ++ [' '] := rfl
    rw [words, Output.hexdump, if_neg (by decide), if_pos rfl, if_pos rfl, cells,
      shown_dump (by omega) 8 fun i => (dword data i).toNat, all]

/-- Each number stands for as many bytes as the format says. -/
theorem numberBytes_length (format : BitVec 8) (numbers : List Nat) :
    (numbers.flatMap (numberBytes format)).length = format.toNat * numbers.length := by
  simp [numberBytes, List.length_flatMap, Nat.mul_comm]

/-- A printed byte is read as itself. -/
theorem numberBytes_byte (byte : BitVec 8) : numberBytes 1 byte.toNat = [byte] := by
  have same : byteOf (BitVec.ofNat 32 byte.toNat) 0 = byte := by
    apply BitVec.eq_of_toNat_eq
    simp [byteOf, byte.isLt]
  exact congrArg (fun byte => [byte]) same

/-- A printed word is read as its bytes. -/
theorem numberBytes_dword (i : Nat) :
    numberBytes 4 (dword data i).toNat =
      (List.range 4).map fun index => data ((4 * i + index : Nat) : Int) := by
  unfold numberBytes
  rw [BitVec.ofNat_toNat, BitVec.setWidth_eq]
  apply List.map_congr_left
  intro index inside
  rw [byteOf_dword data i (List.mem_range.mp inside)]
  push_cast
  rfl

/-- A dump shows all the bytes, or those of the whole words. -/
theorem rowsBytes_numbers (formats : format = 1 ∨ format = 4) :
    rowsBytes format (dumpRows offset (numbers data len format)) =
      (List.range (format.toNat * (len.toNat / format.toNat))).map fun i : Nat => data i := by
  unfold rowsBytes numbers
  rw [dumpRows_numbers]
  cases formats with
  | inl bytes =>
    have whole : (1 : BitVec 8).toNat * (len.toNat / (1 : BitVec 8).toNat) = len.toNat := by
      rw [show (1 : BitVec 8).toNat = 1 by decide, Nat.div_one, Nat.one_mul]
    rw [bytes, whole, if_neg (by decide), List.flatMap_map]
    simp only [numberBytes_byte]
    exact List.map_eq_flatMap.symm
  | inr words =>
    rw [words, if_pos rfl, List.flatMap_map]
    simp only [numberBytes_dword]
    exact range_blocks (fun i : Nat => data i) (len.toNat / 4)

end Shown

section Rows

variable {data : Int → BitVec 8} {offset len : Word} {format : BitVec 8}

/-- The bytes of the rows before one that shows something. -/
theorem rowsBytes_before {before after : List (Word × List Nat)} {row : Word × List Nat}
    {numbers : List Nat} (split : dumpRows offset numbers = before ++ row :: after)
    (shows : row.2 ≠ []) :
    (rowsBytes format before).length = format.toNat * (5 * before.length) := by
  obtain ⟨same, front⟩ := dumpRows_split split
  rw [same, rowAt_nonempty (by decide)] at shows
  rw [rowsBytes, front, numberBytes_length, List.length_take, Nat.min_eq_left (by omega)]

/-- The second row of a dump is labelled 20 behind the first. -/
theorem dumpRows_second {numbers : List Nat} (more : 5 < numbers.length) :
    ∃ after, dumpRows offset numbers =
      [(offset, numbers.take 5)] ++ (offset + 20, (numbers.drop 5).take 5) :: after := by
  obtain ⟨after, rest⟩ := dumpRows_first (offset + 20) (numbers.drop 5)
  rw [dumpRows_more offset more, rest]
  exact ⟨after, rfl⟩

/-- The second row of a dump of bytes is labelled wrongly. -/
theorem bytes_mislabelled (more : 5 < len.toNat) (bounded : len.toNat < 2 ^ 31) :
    ¬Faithful data offset len 1 (Output.hexdump data offset len 1) := by
  intro faithful
  have count : (numbers data len 1).length = len.toNat := by
    rw [numbers, if_neg (by decide), List.length_map, List.length_range]
  have long : 5 < (numbers data len 1).length := by omega
  obtain ⟨after, split⟩ := @dumpRows_second offset (numbers data len 1) long
  have shows : ((numbers data len 1).drop 5).take 5 ≠ [] := by
    apply List.ne_nil_of_length_pos
    rw [List.length_take, List.length_drop, count]
    omega
  have shownRows := shown_hexdump data offset (.inl rfl) bounded
  have label := faithful.labels _ _ _ (shownRows.trans split) shows
  rw [rowsBytes_before split shows, List.length_singleton] at label
  exact absurd ((BitVec.add_right_inj offset).mp label) (by decide)

/-- Where the bytes are right there is no byte behind the last whole element. -/
theorem words_whole (formats : format = 1 ∨ format = 4) (bounded : len.toNat < 2 ^ 31)
    (bytes : rowsBytes format (shown (Output.hexdump data offset len format)) =
      (List.range len.toNat).map fun i : Nat => data i) : format.toNat ∣ len.toNat := by
  rw [shown_hexdump data offset formats bounded, rowsBytes_numbers data offset formats] at bytes
  have lengths := congrArg List.length bytes
  rw [List.length_map, List.length_map, List.length_range, List.length_range] at lengths
  exact ⟨_, lengths.symm⟩

end Rows

/-- **When a hex dump is right.** For every buffer and offset, every length below `2 ^ 31` and both
formats, the dump shows the buffer and labels its rows rightly exactly when it is one of at most
five bytes or one of whole words. -/
theorem faithful_iff (data : Int → BitVec 8) (offset : Word) {len : Word} {format : BitVec 8}
    (formats : format = 1 ∨ format = 4) (bounded : len.toNat < 2 ^ 31) :
    Faithful data offset len format (Output.hexdump data offset len format) ↔
      format = 1 ∧ len.toNat ≤ 5 ∨ format = 4 ∧ 4 ∣ len.toNat := by
  have shownRows := shown_hexdump data offset formats bounded
  have shownBytes := @rowsBytes_numbers data offset len format formats
  constructor
  · intro faithful
    have whole := words_whole formats bounded faithful.bytes
    cases formats with
    | inl bytes =>
      rw [bytes] at faithful
      by_cases more : 5 < len.toNat
      · exact absurd faithful (bytes_mislabelled more bounded)
      · exact .inl ⟨bytes, by omega⟩
    | inr words =>
      rw [words] at whole
      exact .inr ⟨words, whole⟩
  · intro condition
    have whole : format.toNat ∣ len.toNat := by
      cases condition with
      | inl bytes =>
        rw [bytes.1]
        exact Nat.one_dvd _
      | inr words =>
        rw [words.1]
        exact words.2
    constructor
    · rw [shownRows, shownBytes, Nat.mul_div_cancel' whole]
    · intro before row after split shows
      rw [shownRows] at split
      obtain ⟨same, -⟩ := dumpRows_split split
      rw [rowsBytes_before split shows]
      rw [same] at shows ⊢
      cases condition with
      | inl bytes =>
        -- There is one row only.
        obtain ⟨rfl, few⟩ := bytes
        rw [rowAt_nonempty (by decide), numbers, if_neg (by decide), List.length_map,
          List.length_range] at shows
        have first : before.length = 0 := by omega
        rw [first]
        rfl
      | inr words =>
        obtain ⟨rfl, -⟩ := words
        have distance : 20 * before.length = (4 : BitVec 8).toNat * (5 * before.length) := by
          rw [show (4 : BitVec 8).toNat = 4 by decide]
          omega
        exact congrArg (fun far => offset + BitVec.ofNat 64 far) distance

/-- A dump of two words is right. -/
theorem faithful_words :
    Faithful (fun i => BitVec.ofInt 8 i) 0x1000 8 4
      (Output.hexdump (fun i => BitVec.ofInt 8 i) 0x1000 8 4) :=
  (faithful_iff (fun i => BitVec.ofInt 8 i) 0x1000 (.inr rfl) (by decide)).mpr
    (.inr ⟨rfl, by decide⟩)

/-- A dump of six bytes is labelled wrongly as bytes, and not complete as words. -/
theorem six_bytes :
    ¬Faithful (fun i => BitVec.ofInt 8 i) 0x1000 6 1
      (Output.hexdump (fun i => BitVec.ofInt 8 i) 0x1000 6 1) ∧
    ¬Faithful (fun i => BitVec.ofInt 8 i) 0x1000 6 4
      (Output.hexdump (fun i => BitVec.ofInt 8 i) 0x1000 6 4) := by
  constructor
  · exact bytes_mislabelled (by decide) (by decide)
  · intro faithful
    exact absurd (words_whole (.inr rfl) (by decide) faithful.bytes) (by decide)

end A64dbg.Hexdump
