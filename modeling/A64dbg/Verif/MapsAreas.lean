import A64dbg.Library.Numerals
import A64dbg.Verif.MapsLine
import A64dbg.Verif.TypedWrites

/-!
# The areas of a memory map

The kernel writes a line for each area of a process: its addresses and its offset in hexadecimal
with at least eight digits, its device in at least two, its inode in decimal, and behind blanks the
path of its file, if it has one. `parse_areas` is the round trip: `pmparser_parse` makes a list of
the areas out of such a file, whatever its arrays and its storage held before, and adds the last one
once more. It takes a path to end at its first blank, so an area comes back whole exactly when its
path has none.
-/

namespace A64dbg.MapsAreas

open Chains MapsList MapsLine Numerals

/-- An area as the kernel knows it. -/
structure Area where
  /-- Its first address. -/
  addrStart : Word
  /-- The address behind it. -/
  addrEnd : Word
  /-- It may be read. -/
  isR : Bool
  /-- It may be written. -/
  isW : Bool
  /-- It may be executed. -/
  isX : Bool
  /-- It is private, or else shared. -/
  isP : Bool
  /-- The offset in its file. -/
  offset : Word
  /-- The major number of the device. -/
  major : Nat
  /-- The minor number of the device. -/
  minor : Nat
  /-- The inode of its file. -/
  inode : Nat
  /-- The spaces in front of the path, without the first. -/
  pad : Nat
  /-- Its path, which may hold blanks. -/
  pathname : Text

namespace Area

/-- Its permissions as they are written. -/
def perm (area : Area) : Text :=
  [if area.isR then 'r' else '-', if area.isW then 'w' else '-', if area.isX then 'x' else '-',
    if area.isP then 'p' else 's']

/-- Its device as it is written. -/
def dev (area : Area) : Text := padded 16 2 area.major ++ ':' :: padded 16 2 area.minor

/-- Its line, as the kernel writes it. -/
def text (area : Area) : Text :=
  padded 16 8 area.addrStart.toNat ++ ['-'] ++ padded 16 8 area.addrEnd.toNat ++ [' '] ++
    area.perm ++ [' '] ++ padded 16 8 area.offset.toNat ++ [' '] ++ area.dev ++ [' '] ++
    padded 10 0 area.inode ++ List.replicate (area.pad + 1) ' ' ++ area.pathname ++ ['\n']

/-- Its path up to the first blank. -/
def firstWord (area : Area) : Text := area.pathname.takeWhile fun letter => !blank letter

/-- Its line, cut into words. -/
def line (area : Area) : Spelled where
  words := {
    addr1 := padded 16 8 area.addrStart.toNat
    addr2 := padded 16 8 area.addrEnd.toNat
    perm := area.perm
    offset := padded 16 8 area.offset.toNat
    device := area.dev
    inode := padded 10 0 area.inode
    pathname := area.firstWord }
  afterEnd := [' ']
  afterPerm := [' ']
  afterOffset := [' ']
  afterDevice := [' ']
  afterInode := List.replicate (area.pad + 1) ' '
  tail := area.pathname.dropWhile fun letter => !blank letter

/-- The node that tells all of it. -/
def node (area : Area) : ProcmapsStruct where
  addrStart := area.addrStart
  addrEnd := area.addrEnd
  length := area.addrEnd - area.addrStart
  perm := area.perm
  isR := area.isR
  isW := area.isW
  isX := area.isX
  isP := area.isP
  offset := area.offset
  dev := area.dev
  inode := BitVec.ofNat 32 area.inode
  pathname := area.pathname

/-- The node that tells of it as far as the first blank of its path. -/
def seen (area : Area) : ProcmapsStruct := { area.node with pathname := area.firstWord }

/-- The fields of an area, set behind each other, are the text of its line. -/
theorem line_text (area : Area) : area.line.text = area.text := by
  have path := List.takeWhile_append_dropWhile
    (p := fun letter => !blank letter) (l := area.pathname)
  unfold Spelled.text line text firstWord
  dsimp only
  conv_rhs => rw [← path]
  simp only [List.append_assoc, List.cons_append, List.nil_append]

/-- A path is all before its first blank exactly when it has none. -/
theorem seen_iff (area : Area) :
    area.seen = area.node ↔ ∀ letter ∈ area.pathname, blank letter = false := by
  have path : area.seen = area.node ↔ area.firstWord = area.pathname := by
    constructor
    · exact fun same => congrArg ProcmapsStruct.pathname same
    · intro same
      rw [seen, same]
      rfl
  rw [path, firstWord, List.takeWhile_eq_self_iff]
  simp only [Bool.not_eq_true']

end Area

/-- Its numbers are those of the kernel, its inode is an `int`, and its path up to the first blank
fits in a node. -/
structure Lawful (area : Area) : Prop where
  /-- The major number has 12 bits. -/
  major : area.major < 2 ^ 12
  /-- The minor number has 20 bits. -/
  minor : area.minor < 2 ^ 20
  /-- The inode is not negative as an `int`. -/
  inode : area.inode < 2 ^ 31
  /-- The path is a string of one line. -/
  printable : '\n' ∉ area.pathname ∧ '\x00' ∉ area.pathname
  /-- It does not begin with a blank. -/
  front : ∀ letter ∈ area.pathname.head?, blank letter = false
  /-- Its part before the first blank fits. -/
  room : area.firstWord.length < 600
  /-- The line is read whole. -/
  whole : area.text.length < procmapsLineMaxLength

/-- A number has no more digits than fit. -/
theorem padded_length {base width size number : Nat} (positive : 0 < size)
    (small : number < base ^ size) (narrow : width ≤ size) :
    (padded base width number).length ≤ size := by
  have digits := Nat.toDigits_length base number size positive small
  simp only [padded, List.leftpad, List.length_append, List.length_replicate]
  omega

/-- The digits of a number are letters of a word. -/
theorem padded_solid {base : Nat} (large : 1 < base) (small : base ≤ 16) (width number : Nat) :
    Solid (padded base width number) ∧ '-' ∉ padded base width number := by
  have clean : ∀ d < 16, (blank (Nat.digitChar d) = false ∧ Nat.digitChar d ≠ '\n' ∧
      Nat.digitChar d ≠ '\x00') ∧ Nat.digitChar d ≠ '-' := by decide
  constructor
  · intro letter inside
    obtain ⟨d, bound, rfl⟩ := padded_letters large width number letter inside
    exact (clean d (by omega)).1
  · intro inside
    obtain ⟨d, bound, minus⟩ := padded_letters large width number '-' inside
    exact (clean d (by omega)).2 minus.symm

/-- `sscanf` gets a hexadecimal number back, whatever the variable held. -/
theorem sscanHex_padded (width : Nat) (word value : Word) :
    sscanHex (padded 16 width word.toNat) value = word := by
  have reads : ∀ d < 16, (digitValue (Nat.digitChar d)).getD 0 = d := by decide
  have hexadecimal : ∀ d < 16, isDigitOf 16 (Nat.digitChar d) = true := by decide
  have number : numberOf 16 (padded 16 width word.toNat) = word.toNat :=
    @value_padded 16 (fun letter => (digitValue letter).getD 0) (by decide) reads width word.toNat
  have begins : TypedWrites.Begins ⟨[], [], padded 16 width word.toNat⟩
      (padded 16 width word.toNat) [] := by
    refine ⟨⟨Or.inl rfl, Or.inl rfl, padded_nonempty _ _ _, ?_⟩, ⟨[], ?_, ?_⟩, ?_, ?_⟩
    · intro digit inside
      obtain ⟨d, bound, rfl⟩ := padded_letters (by decide) width word.toNat digit inside
      exact hexadecimal d bound
    · simp
    · simp [TypedWrites.Numeral.text]
    · simp
    · simp
  rw [sscanHex, TypedWrites.scanHex_begins begins]
  simp [TypedWrites.Numeral.word, hexWord, number, word.isLt]

/-- `atoi` gets a decimal number back. -/
theorem atoi_padded {number : Nat} (small : number < 2 ^ 31) :
    atoi (padded 10 0 number) = BitVec.ofNat 32 number := by
  have reads : ∀ d < 10, (digitValue (Nat.digitChar d)).getD 0 = d := by decide
  have clean : ∀ d < 10, isDigitOf 10 (Nat.digitChar d) = true ∧
      isSpace (Nat.digitChar d) = false ∧ Nat.digitChar d ≠ '-' ∧ Nat.digitChar d ≠ '+' := by
    decide
  have letters := padded_letters (show 1 < 10 by decide) 0 number
  have value : numberOf 10 (padded 10 0 number) = number :=
    @value_padded 10 (fun letter => (digitValue letter).getD 0) (by decide) reads 0 number
  have digits : (padded 10 0 number).takeWhile (isDigitOf 10) = padded 10 0 number := by
    apply List.takeWhile_eq_self_iff.mpr
    intro letter inside
    obtain ⟨d, bound, rfl⟩ := letters letter inside
    exact (clean d bound).1
  obtain ⟨first, rest, shape⟩ := List.exists_cons_of_ne_nil (padded_nonempty 10 0 number)
  obtain ⟨d, bound, digit⟩ := letters first (by simp [shape])
  have front := (clean d bound).2
  rw [← digit] at front
  have skipped : (padded 10 0 number).dropWhile isSpace = padded 10 0 number := by
    rw [shape, List.dropWhile_cons_of_neg (by simp [front.1])]
  have unsigned : takeSign (padded 10 0 number) = (false, padded 10 0 number) := by
    rw [shape]
    exact Numbers.takeSign_unsigned front.2.1 front.2.2 rest
  have least : min (number : Int) (2 ^ 63 - 1) = number := by omega
  rw [atoi, skipped, unsigned]
  simp only [digits, value, Bool.false_eq_true, if_false, least]
  exact BitVec.ofInt_natCast 32 number

variable {area : Area} (lawful : Lawful area)
include lawful

/-- The part of its path before the first blank is a word. -/
theorem firstWord_solid : Solid area.firstWord := by
  intro letter inside
  have free : blank letter = false := by simpa using List.mem_takeWhile_imp inside
  have member : letter ∈ area.pathname := List.takeWhile_subset _ inside
  refine ⟨free, ?_, ?_⟩
  · intro newline
    exact lawful.printable.1 (newline ▸ member)
  · intro zero
    exact lawful.printable.2 (zero ▸ member)

/-- The part of a path from its first blank on begins with a blank, if it is there. -/
theorem line_tail : area.line.tail = [] ∨ area.line.words.pathname ≠ [] ∧
    ∃ letter rest, area.line.tail = letter :: rest ∧ blank letter = true ∧ '\n' ∉ rest := by
  cases behind : area.line.tail with
  | nil => exact Or.inl rfl
  | cons letter rest =>
    have cut : area.pathname.dropWhile (fun letter => !blank letter) = letter :: rest := behind
    have stop : blank letter = true := Fields.run_ends area.pathname cut
    have members : letter :: rest ⊆ area.pathname := by
      rw [← cut]
      exact List.dropWhile_subset _
    have nonempty : area.firstWord ≠ [] := by
      intro empty
      have path := List.takeWhile_append_dropWhile
        (p := fun letter => !blank letter) (l := area.pathname)
      rw [cut, show area.pathname.takeWhile _ = [] from empty, List.nil_append] at path
      have first := lawful.front letter (by rw [← path]; rfl)
      rw [stop] at first
      cases first
    have oneLine : '\n' ∉ rest := by
      intro newline
      exact lawful.printable.1 (members (List.mem_cons_of_mem _ newline))
    exact Or.inr ⟨nonempty, letter, rest, rfl, stop, oneLine⟩

/-- The fields of a line are separated by blanks. -/
theorem line_separated : Separated area.line := by
  have hex (width number : Nat) : Solid (padded 16 width number) ∧ '-' ∉ padded 16 width number :=
    padded_solid (by decide) (by decide) width number
  have decimal : Solid (padded 10 0 area.inode) :=
    (padded_solid (by decide) (by decide) 0 area.inode).1
  have perm : Solid area.perm := by
    intro letter inside
    have some_flag : letter ∈ ['r', 'w', 'x', 'p', 's', '-'] := by
      simp only [Area.perm, List.mem_cons, List.not_mem_nil, or_false] at inside
      rcases inside with rfl | rfl | rfl | rfl
      · by_cases set : area.isR = true <;> simp [set]
      · by_cases set : area.isW = true <;> simp [set]
      · by_cases set : area.isX = true <;> simp [set]
      · by_cases set : area.isP = true <;> simp [set]
    have clean : ∀ letter ∈ ['r', 'w', 'x', 'p', 's', '-'],
        blank letter = false ∧ letter ≠ '\n' ∧ letter ≠ '\x00' := by simp [blank]
    exact clean letter some_flag
  have colon : blank ':' = false ∧ ':' ≠ '\n' ∧ ':' ≠ '\x00' := by decide
  have dev : Solid area.dev := by
    intro letter inside
    rw [Area.dev, List.mem_append, List.mem_cons] at inside
    rcases inside with major | rfl | minor
    · exact (hex 2 area.major).1 letter major
    · exact colon
    · exact (hex 2 area.minor).1 letter minor
  have space : Gap [' '] := by
    constructor
    · simp
    · simp [blank]
  have spaces : Gap (List.replicate (area.pad + 1) ' ') := by
    constructor
    · simp
    · intro letter inside
      rw [List.eq_of_mem_replicate inside]
      decide
  exact {
    addr1 := (hex 8 _).1
    minus := (hex 8 _).2
    addr2 := (hex 8 _).1
    perm := ⟨perm, by simp [Area.line, Area.perm]⟩
    offset := ⟨(hex 8 _).1, padded_nonempty _ _ _⟩
    device := ⟨dev, by simp [Area.line, Area.dev]⟩
    inode := ⟨decimal, padded_nonempty _ _ _⟩
    pathname := firstWord_solid lawful
    gaps := ⟨space, space, space, space, spaces⟩
    tail := line_tail lawful }

/-- The words of its line fit, the longest device just so. -/
theorem line_fits : Fits area.line.words := by
  have word (value : Word) : (padded 16 8 value.toNat).length < 20 := by
    have digits := @padded_length 16 8 16 value.toNat (by decide) value.isLt (by decide)
    omega
  have major := @padded_length 16 2 3 area.major (by decide) lawful.major (by decide)
  have minor := @padded_length 16 2 5 area.minor (by decide) lawful.minor (by decide)
  have decimal : (padded 10 0 area.inode).length ≤ 10 :=
    padded_length (by decide) (Nat.lt_of_lt_of_le lawful.inode (by decide)) (by decide)
  have device : area.dev.length < 10 := by
    simp only [Area.dev, List.length_append, List.length_cons]
    omega
  have inode : (padded 10 0 area.inode).length < 30 := by omega
  exact ⟨word _, word _, by simp [Area.line, Area.perm], word _, device, inode, lawful.room⟩

/-- The node stored for its line tells of it, whatever was there before. -/
theorem line_stored {value : ProcmapsStruct} (stored : Stored area.line value) :
    value = area.seen := by
  obtain ⟨found, array, filled⟩ := stored
  have separated := line_separated lawful
  have fits := line_fits lawful
  have perm : cString (overwrite array area.perm) = area.perm :=
    cString_overwrite separated.perm.1 array
  have addr1 : cString (padded 16 8 area.addrStart.toNat) = _ := cString_solid separated.addr1
  have addr2 : cString (padded 16 8 area.addrEnd.toNat) = _ := cString_solid separated.addr2
  have offset : cString (padded 16 8 area.offset.toNat) = _ := cString_solid separated.offset.1
  have device : cString area.dev = _ := cString_solid separated.device.1
  have inode : cString (padded 10 0 area.inode) = _ := cString_solid separated.inode.1
  have pathname : cString area.firstWord = _ := cString_solid separated.pathname
  have flags : (overwrite array area.perm)[0]? = some (if area.isR then 'r' else '-') ∧
      (overwrite array area.perm)[1]? = some (if area.isW then 'w' else '-') ∧
      (overwrite array area.perm)[2]? = some (if area.isX then 'x' else '-') ∧
      (overwrite array area.perm)[3]? = some (if area.isP then 'p' else 's') := by
    simp [overwrite, Area.perm]
  obtain ⟨readable, writable, executable, isPrivate⟩ := flags
  rw [fillNode] at filled
  simp only [Area.line, perm, addr1, addr2, offset, device, inode, pathname, sscanHex_padded,
    atoi_padded lawful.inode, readable, writable, executable, isPrivate] at filled
  split at filled
  · rw [Option.some.injEq] at filled
    rw [← filled, Area.seen, Area.node]
    dsimp only
    congr 1
    · cases area.isR <;> decide
    · cases area.isW <;> decide
    · cases area.isX <;> decide
    · cases area.isP <;> decide
  · cases filled

omit lawful

/-- The nodes stored for lines are those of their areas. -/
theorem lines_stored {areas : List Area} {values : List ProcmapsStruct}
    (lawful : ∀ area ∈ areas, Lawful area)
    (stored : List.Forall₂ (fun area value => Stored area.line value) areas values) :
    values = areas.map Area.seen := by
  induction stored with
  | nil => rfl
  | cons here later ih =>
    rw [List.map_cons, line_stored (lawful _ List.mem_cons_self) here,
      ih fun area inside => lawful area (List.mem_cons_of_mem _ inside)]

/-- **The memory map comes back.** For every file of areas, one or more, and whatever the arrays
and the storage held, the list holds the areas in the order of the file and the last one twice, each
up to the first blank of its path; that is all of it exactly when the path has no blank. -/
theorem parse_areas {areas : List Area} {last : Area} (ends : areas.getLast? = some last)
    (lawful : ∀ area ∈ areas, Lawful area) (storage : Storage) (buf perm : Text) :
    ∃ heap iterator, pmparserParse storage buf perm
        (some (areas.flatMap Area.text)) = some (heap, some iterator) ∧
      Chain heap iterator.head (nodes storage ((areas ++ [last]).map Area.seen)) none ∧
      iterator.current = iterator.head ∧
      ∀ area ∈ areas, (area.seen = area.node ↔ ∀ letter ∈ area.pathname, blank letter = false) := by
  have fit : ∀ line ∈ areas.map Area.line, Separated line ∧ Fits line.words := by
    intro line inside
    obtain ⟨area, member, rfl⟩ := List.mem_map.mp inside
    exact ⟨line_separated (lawful area member), line_fits (lawful area member)⟩
  have whole : ∀ line ∈ areas.map Area.line, line.text.length < procmapsLineMaxLength := by
    intro line inside
    obtain ⟨area, member, rfl⟩ := List.mem_map.mp inside
    rw [Area.line_text]
    exact (lawful area member).whole
  have lastLine : (areas.map Area.line).getLast? = some last.line := by
    rw [List.getLast?_map, ends]
    rfl
  obtain ⟨heap, values, parsed, stored, chain⟩ :=
    @parse_lines storage _ _ lastLine fit whole buf perm
  have member : last ∈ areas := List.mem_of_getLast? ends
  have law : ∀ area ∈ areas ++ [last], Lawful area := by
    intro area inside
    rw [List.mem_append, List.mem_singleton] at inside
    cases inside with
    | inl listed => exact lawful area listed
    | inr same => exact same ▸ lawful last member
  have shape : (areas.map Area.line) ++ [last.line] = (areas ++ [last]).map Area.line := by simp
  rw [shape, List.forall₂_map_left_iff] at stored
  rw [lines_stored law stored] at chain
  simp only [List.flatMap_map, Area.line_text] at parsed
  exact ⟨heap, _, parsed, chain, rfl, fun area _ => area.seen_iff⟩

/-- The code of a program whose file was deleted. -/
def codeArea : Area where
  addrStart := 0x400000
  addrEnd := 0x452000
  isR := true
  isW := false
  isX := true
  isP := true
  offset := 0
  major := 8
  minor := 2
  inode := 173521
  pad := 3
  pathname := ['/', 'b', 'i', 'n', '/', 'a', ' ', '(', 'd', ')']

/-- The heap behind it. -/
def heapArea : Area where
  addrStart := 0x453000
  addrEnd := 0x475000
  isR := true
  isW := true
  isX := false
  isP := true
  offset := 0
  major := 0
  minor := 0
  inode := 0
  pad := 20
  pathname := ['[', 'h', 'e', 'a', 'p', ']']

/-- Both come back, the code up to the blank of its path and the heap twice. -/
theorem parse_areas_codeArea : Lawful codeArea ∧ Lawful heapArea ∧ ∃ heap iterator,
    pmparserParse blankStorage [] [] (some (codeArea.text ++ heapArea.text)) =
        some (heap, some iterator) ∧
      Chain heap iterator.head [(0, codeArea.seen), (1, heapArea.node), (2, heapArea.node)]
        none := by
  have code : Lawful codeArea :=
    ⟨by decide, by decide, by decide, by simp [codeArea],
      by simp [codeArea, blank], by decide, by decide +kernel⟩
  have data : Lawful heapArea :=
    ⟨by decide, by decide, by decide, by simp [heapArea],
      by simp [heapArea, blank], by decide, by decide +kernel⟩
  have all : ∀ area ∈ [codeArea, heapArea], Lawful area := by
    intro area inside
    rw [List.mem_pair] at inside
    cases inside with
    | inl first => exact first ▸ code
    | inr second => exact second ▸ data
  have last : [codeArea, heapArea].getLast? = some heapArea := rfl
  obtain ⟨heap, iterator, parsed, chain, -, whole⟩ := parse_areas last all blankStorage [] []
  have same : heapArea.seen = heapArea.node :=
    (whole heapArea (by simp)).mpr (by simp [heapArea, blank])
  rw [List.flatMap_cons, List.flatMap_singleton] at parsed
  simp only [List.cons_append, List.nil_append, List.map_cons, List.map_nil, same] at chain
  exact ⟨code, data, heap, iterator, parsed, chain⟩

end A64dbg.MapsAreas
