import A64dbg.Verif.MapsList

/-!
# The lines of a memory map

A line of `/proc/pid/maps` is seven words with a minus behind the first and blanks behind the
others. `_pmparser_split_line` and the copies behind it have no bounds of their own: `parse_iff`
says of every file of such lines, whatever the arrays and the storage held, that it is parsed
without a write beyond the end of an array exactly when each word of each line fits. The room that a
word has is the least of the arrays it goes through.
-/

namespace A64dbg.MapsLine

open Chains MapsList

/-- The words of a line and what stands between them. -/
structure Spelled where
  /-- The seven words. -/
  words : MapsWords
  /-- The blanks behind the second address. -/
  afterEnd : Text
  /-- The blanks behind the permissions. -/
  afterPerm : Text
  /-- The blanks behind the offset. -/
  afterOffset : Text
  /-- The blanks behind the device. -/
  afterDevice : Text
  /-- The blanks behind the inode. -/
  afterInode : Text
  /-- What stands behind the path, up to the newline. -/
  tail : Text

namespace Spelled

/-- A line as it is written. -/
def text (line : Spelled) : Text :=
  line.words.addr1 ++ '-' :: (line.words.addr2 ++ (line.afterEnd ++ (line.words.perm ++
    (line.afterPerm ++ (line.words.offset ++ (line.afterOffset ++ (line.words.device ++
      (line.afterDevice ++ (line.words.inode ++ (line.afterInode ++ (line.words.pathname ++
        (line.tail ++ ['\n']))))))))))))

end Spelled

/-- Letters of a word. -/
def Solid (word : Text) : Prop :=
  ∀ letter ∈ word, blank letter = false ∧ letter ≠ '\n' ∧ letter ≠ '\x00'

/-- A gap between words. -/
def Gap (gap : Text) : Prop := gap ≠ [] ∧ ∀ letter ∈ gap, blank letter = true

/-- The words of a line are words, and the gaps are gaps. A line may have no path, and a path may
have a tail that begins with a blank. -/
structure Separated (line : Spelled) : Prop where
  /-- The first address. -/
  addr1 : Solid line.words.addr1
  /-- It holds no minus. -/
  minus : '-' ∉ line.words.addr1
  /-- The second address. -/
  addr2 : Solid line.words.addr2
  /-- The permissions. -/
  perm : Solid line.words.perm ∧ line.words.perm ≠ []
  /-- The offset. -/
  offset : Solid line.words.offset ∧ line.words.offset ≠ []
  /-- The device. -/
  device : Solid line.words.device ∧ line.words.device ≠ []
  /-- The inode. -/
  inode : Solid line.words.inode ∧ line.words.inode ≠ []
  /-- The path. -/
  pathname : Solid line.words.pathname
  /-- The gaps. -/
  gaps : Gap line.afterEnd ∧ Gap line.afterPerm ∧ Gap line.afterOffset ∧ Gap line.afterDevice ∧
    Gap line.afterInode
  /-- The tail. -/
  tail : line.tail = [] ∨ line.words.pathname ≠ [] ∧
    ∃ letter rest, line.tail = letter :: rest ∧ blank letter = true ∧ '\n' ∉ rest

/-- The words fit in the arrays they are copied to. -/
structure Fits (words : MapsWords) : Prop where
  /-- `addr1[20]`. -/
  addr1 : words.addr1.length < 20
  /-- `addr2[20]`. -/
  addr2 : words.addr2.length < 20
  /-- `perm[8]`, and the `perm[5]` of a node. -/
  perm : words.perm.length < 5
  /-- `offset[20]`. -/
  offset : words.offset.length < 20
  /-- `dev[10]`. -/
  device : words.device.length < 10
  /-- `inode[30]`. -/
  inode : words.inode.length < 30
  /-- The `pathname[600]` of a node. -/
  pathname : words.pathname.length < 600

/-- A word up to a stop is copied when the array has room for it. -/
theorem copyUntil_word {stops : Char → Bool} {word : Text}
    (free : ∀ letter ∈ word, stops letter = false) {next : Char} (stop : stops next = true)
    (size : Nat) (more : Text) :
    copyUntil stops size (word ++ next :: more) =
      if word.length < size then some (word, next :: more) else none := by
  have kept : ∀ letter ∈ word, (!stops letter) = true := by
    intro letter inside
    rw [free letter inside, Bool.not_false]
  have halt : ¬(!stops next) = true := by simp [stop]
  have taken : (word ++ next :: more).takeWhile (fun letter => !stops letter) = word := by
    rw [List.takeWhile_append_of_pos kept,
      @List.takeWhile_cons_of_neg _ (fun letter => !stops letter) _ _ halt, List.append_nil]
  have left : (word ++ next :: more).dropWhile (fun letter => !stops letter) = next :: more := by
    rw [List.dropWhile_append_of_pos kept,
      @List.dropWhile_cons_of_neg _ (fun letter => !stops letter) _ _ halt]
  simp only [copyUntil, taken, left, ne_eq, List.cons_ne_nil, not_false_eq_true, true_and]

/-- A word before a gap is copied when the array has room for it. -/
theorem copyUntil_gap {word gap : Text} (solid : Solid word) (between : Gap gap) (size : Nat)
    (more : Text) :
    copyUntil blank size (word ++ (gap ++ more)) =
      if word.length < size then some (word, gap ++ more) else none := by
  obtain ⟨first, rest, rfl⟩ := List.exists_cons_of_ne_nil between.1
  have stop : blank first = true := between.2 first List.mem_cons_self
  exact copyUntil_word (fun letter inside => (solid letter inside).1) stop size (rest ++ more)

/-- The blanks before a word are skipped. -/
theorem skip_gap {gap text : Text} (between : Gap gap)
    (solid : ∀ next more, text = next :: more → blank next = false) :
    (gap ++ text).dropWhile blank = text := by
  rw [List.dropWhile_append_of_pos between.2]
  cases text with
  | nil => simp
  | cons next more =>
    have kept : ¬blank next = true := by simp [solid next more rfl]
    rw [List.dropWhile_cons_of_neg kept]

/-- A word between two gaps is copied when the array has room for it. -/
theorem copyUntil_next {before word gap : Text} (first : Gap before)
    (solid : Solid word ∧ word ≠ []) (between : Gap gap) (size : Nat) (more : Text) :
    copyUntil blank size ((before ++ (word ++ (gap ++ more))).dropWhile blank) =
      if word.length < size then some (word, gap ++ more) else none := by
  have front : ∀ next rest, word ++ (gap ++ more) = next :: rest → blank next = false := by
    intro next rest shape
    obtain ⟨letter, others, same⟩ := List.exists_cons_of_ne_nil solid.2
    rw [same, List.cons_append, List.cons.injEq] at shape
    have member : letter ∈ word := by simp [same]
    rw [← shape.1]
    exact (solid.1 letter member).1
  rw [skip_gap first front]
  exact copyUntil_gap solid.1 between size more

/-- A copy that may have no room, and what comes behind it. -/
theorem bind_room {α β : Type} (room : Prop) [Decidable room] (copied : α)
    (behind : α → Option β) :
    ((if room then some copied else none) >>= behind) = if room then behind copied else none := by
  by_cases fits : room
  · simp [fits]
  · simp [fits]

section Split

variable {line : Spelled} (separated : Separated line)
include separated

/-- The path is copied up to the blank or the newline behind it. -/
theorem copyUntil_path (stale : Text) :
    copyUntil (fun letter => blank letter || letter == '\n') pathMax
        ((line.afterInode ++
          (line.words.pathname ++ (line.tail ++ '\n' :: stale))).dropWhile blank) =
      if line.words.pathname.length < pathMax then
        some (line.words.pathname, line.tail ++ '\n' :: stale)
      else none := by
  have free : ∀ letter ∈ line.words.pathname, (blank letter || letter == '\n') = false := by
    intro letter inside
    obtain ⟨solid, newline, -⟩ := separated.pathname letter inside
    simp [solid, newline]
  obtain ⟨next, more, behind, stop⟩ : ∃ next more, line.tail ++ '\n' :: stale = next :: more ∧
      (blank next || next == '\n') = true := by
    rcases separated.tail with none | ⟨-, letter, rest, shape, stop, -⟩
    · exact ⟨'\n', stale, by simp [none], by simp⟩
    · exact ⟨letter, _, by rw [shape, List.cons_append], by simp [stop]⟩
  have front : ∀ first rest, line.words.pathname ++ next :: more = first :: rest →
      blank first = false := by
    intro first rest shape
    by_cases empty : line.words.pathname = []
    · have none : line.tail = [] := by
        rcases separated.tail with none | ⟨path, -⟩
        · exact none
        · exact absurd empty path
      have newline : blank '\n' = false := by decide
      rw [none, List.nil_append, List.cons.injEq] at behind
      rw [empty, List.nil_append, List.cons.injEq] at shape
      rw [← shape.1, ← behind.1, newline]
    · obtain ⟨letter, others, same⟩ := List.exists_cons_of_ne_nil empty
      rw [same, List.cons_append, List.cons.injEq] at shape
      have member : letter ∈ line.words.pathname := by simp [same]
      rw [← shape.1]
      exact (separated.pathname letter member).1
  have gap := separated.gaps.2.2.2.2
  rw [behind, skip_gap gap front]
  exact copyUntil_word free stop pathMax more

/-- **How a line is split.** Whatever stands behind it in the array, its words are copied when each
array has room. -/
theorem split_text (stale : Text) :
    pmparserSplitLine (line.text ++ stale) =
      if line.words.addr1.length < 20 ∧ line.words.addr2.length < 20 ∧
          line.words.perm.length < 8 ∧ line.words.offset.length < 20 ∧
          line.words.device.length < 10 ∧ line.words.inode.length < 30 ∧
          line.words.pathname.length < pathMax then some line.words
      else none := by
  obtain ⟨gap1, gap2, gap3, gap4, gap5⟩ := separated.gaps
  have first : ∀ letter ∈ line.words.addr1, (letter == '-') = false := by
    intro letter inside
    rw [beq_eq_false_iff_ne]
    rintro rfl
    exact separated.minus inside
  have shape : line.text ++ stale = line.words.addr1 ++ '-' :: (line.words.addr2 ++
      (line.afterEnd ++ (line.words.perm ++ (line.afterPerm ++ (line.words.offset ++
        (line.afterOffset ++ (line.words.device ++ (line.afterDevice ++ (line.words.inode ++
          (line.afterInode ++ (line.words.pathname ++ (line.tail ++ '\n' :: stale)))))))))))) := by
    simp [Spelled.text]
  have minus : ('-' == '-') = true := by decide
  rw [pmparserSplitLine, shape, copyUntil_word first minus]
  simp only [bind_room, List.tail_cons, copyUntil_gap separated.addr2 gap1,
    copyUntil_next gap1 separated.perm gap2, copyUntil_next gap2 separated.offset gap3,
    copyUntil_next gap3 separated.device gap4, copyUntil_next gap4 separated.inode gap5,
    copyUntil_path separated, ite_and]
  rfl

end Split

/-- A word behind other letters of an array is the string at its front. -/
theorem cString_overwrite {word : Text} (solid : Solid word) (array : Text) :
    cString (overwrite array word) = word := by
  have kept : ∀ letter ∈ word, (letter != '\x00') = true := by
    intro letter inside
    simpa using (solid letter inside).2.2
  have halt : ¬('\x00' != '\x00') = true := by decide
  rw [cString, overwrite, List.takeWhile_append_of_pos kept,
    @List.takeWhile_cons_of_neg _ (fun letter => letter != '\x00') _ _ halt, List.append_nil]

/-- A word is the string it holds. -/
theorem cString_solid {word : Text} (solid : Solid word) : cString word = word := by
  apply List.takeWhile_eq_self_iff.mpr
  intro letter inside
  simpa using (solid letter inside).2.2

/-- A node is filled when the arrays in it have room. -/
theorem fillNode_room {line : Spelled} (separated : Separated line) (found : ProcmapsStruct)
    (array : Text) :
    (fillNode found (overwrite array line.words.perm) line.words).isSome = true ↔
      line.words.perm.length < 5 ∧ line.words.device.length < 12 ∧
        line.words.pathname.length < 600 := by
  have perm := cString_overwrite separated.perm.1 array
  have device := cString_solid separated.device.1
  have pathname := cString_solid separated.pathname
  rw [fillNode, perm, device, pathname]
  by_cases room : line.words.perm.length < 5 ∧ line.words.device.length < 12 ∧
      line.words.pathname.length < 600
  · simp [room]
  · simp only [room, if_false, iff_false]
    simp

/-- The node of a line, from some storage and with some array before. -/
def Stored (line : Spelled) (value : ProcmapsStruct) : Prop :=
  ∃ found array, fillNode found (overwrite array line.words.perm) line.words = some value

variable {storage : Storage}

/-- A pass over a line whose words fit stores its node behind the others. The array may hold the
line already when the read brings nothing. -/
theorem pass_fits {line : Spelled} (separated : Separated line) (fits : Fits line.words)
    {parser : MapsParser} {all : List ProcmapsStruct} (holds : Holds storage parser all)
    {read : Text}
    (source : read = line.text ∨ read = [] ∧ ∃ stale, parser.buf = line.text ++ stale) :
    ∃ next value, parser.pass storage read = some next ∧ Stored line value ∧
      Holds storage next (all ++ [value]) ∧ ∃ stale, next.buf = line.text ++ stale := by
  obtain ⟨stale, buffer⟩ : ∃ stale,
      (if read = [] then parser.buf else overwrite parser.buf read) = line.text ++ stale := by
    have written : line.text ≠ [] := by simp [Spelled.text]
    rcases source with rfl | ⟨rfl, stale, kept⟩
    · rw [if_neg written]
      exact ⟨_, rfl⟩
    · rw [if_pos rfl]
      exact ⟨stale, kept⟩
  have path : line.words.pathname.length < pathMax :=
    Nat.lt_of_lt_of_le fits.pathname (by decide)
  have perm : line.words.perm.length < 8 := Nat.lt_of_lt_of_le fits.perm (by decide)
  have device : line.words.device.length < 12 := Nat.lt_of_lt_of_le fits.device (by decide)
  have words := split_text separated stale
  rw [if_pos ⟨fits.addr1, fits.addr2, perm, fits.offset, fits.device, fits.inode, path⟩] at words
  obtain ⟨value, filled⟩ := Option.isSome_iff_exists.mp
    ((fillNode_room separated (storage.found parser.ind) parser.perm).mpr
      ⟨fits.perm, device, fits.pathname⟩)
  have same : Holds storage { parser with
      buf := line.text ++ stale
      perm := overwrite parser.perm line.words.perm } all := by
    rcases holds with start | ⟨values, last, shape, linked⟩
    · exact Or.inl start
    · exact Or.inr ⟨values, last, shape, linked.ind, linked.listMaps, linked.currentNode,
        linked.chain, linked.node, linked.others⟩
  obtain ⟨next, attached, extended⟩ := attach_holds same value
  have passed : parser.pass storage read = some next := by
    rw [MapsParser.pass, buffer, words]
    simp only [Option.bind_eq_bind, Option.bind_some, filled]
    exact attached
  refine ⟨next, value, passed, ⟨_, _, filled⟩, extended, stale, ?_⟩
  exact attach_buf attached

/-- A pass over a line that is read has a meaning only when its words fit. -/
theorem pass_only {line : Spelled} (separated : Separated line) {parser next : MapsParser}
    (passed : parser.pass storage line.text = some next) : Fits line.words := by
  have written : line.text ≠ [] := by simp [Spelled.text]
  rw [MapsParser.pass, if_neg written] at passed
  obtain ⟨words, split, later⟩ := Option.bind_eq_some_iff.mp passed
  obtain ⟨value, filled, -⟩ := Option.bind_eq_some_iff.mp later
  rw [overwrite, split_text separated] at split
  by_cases room : line.words.addr1.length < 20 ∧ line.words.addr2.length < 20 ∧
      line.words.perm.length < 8 ∧ line.words.offset.length < 20 ∧
      line.words.device.length < 10 ∧ line.words.inode.length < 30 ∧
      line.words.pathname.length < pathMax
  · rw [if_pos room, Option.some.injEq] at split
    rw [← split] at filled
    have inner := (fillNode_room separated (storage.found parser.ind) parser.perm).mp
      (Option.isSome_iff_exists.mpr ⟨value, filled⟩)
    obtain ⟨addr1, addr2, -, offset, device, inode, -⟩ := room
    exact ⟨addr1, addr2, inner.1, offset, device, inode, inner.2.2⟩
  · rw [if_neg room] at split
    cases split

/-- A line ends with its only newline. -/
theorem text_ends {line : Spelled} (separated : Separated line) :
    ∃ front, '\n' ∉ front ∧ line.text = front ++ ['\n'] := by
  have solid {word : Text} (solid : Solid word) : '\n' ∉ word :=
    fun inside => (solid _ inside).2.1 rfl
  have gap {between : Text} (gap : Gap between) : '\n' ∉ between := by
    intro inside
    have blank := gap.2 _ inside
    revert blank
    decide
  have tail : '\n' ∉ line.tail := by
    rcases separated.tail with none | ⟨-, letter, rest, shape, stop, free⟩
    · simp [none]
    · have other : letter ≠ '\n' := by
        rintro rfl
        revert stop
        decide
      simp [shape, other.symm, free]
  refine ⟨line.words.addr1 ++ '-' :: (line.words.addr2 ++ (line.afterEnd ++ (line.words.perm ++
    (line.afterPerm ++ (line.words.offset ++ (line.afterOffset ++ (line.words.device ++
      (line.afterDevice ++ (line.words.inode ++ (line.afterInode ++ (line.words.pathname ++
        line.tail))))))))))), ?_, ?_⟩
  · obtain ⟨gap1, gap2, gap3, gap4, gap5⟩ := separated.gaps
    simp [solid separated.addr1, solid separated.addr2, solid separated.perm.1,
      solid separated.offset.1, solid separated.device.1, solid separated.inode.1,
      solid separated.pathname, gap gap1, gap gap2, gap gap3, gap gap4, gap gap5, tail]
  · simp [Spelled.text]

/-- The passes over a file of lines: one for each, and one that reads nothing. -/
theorem passes_lines {lines : List Spelled} (separated : ∀ line ∈ lines, Separated line)
    (whole : ∀ line ∈ lines, line.text.length < procmapsLineMaxLength) :
    passes (lines.flatMap Spelled.text) = lines.map Spelled.text ++ [[]] := by
  induction lines with
  | nil => exact passes_nil
  | cons line rest ih =>
    have behind := ih (fun other inside => separated other (List.mem_cons_of_mem _ inside))
      (fun other inside => whole other (List.mem_cons_of_mem _ inside))
    obtain ⟨front, single, shape⟩ := text_ends (separated line List.mem_cons_self)
    have short := whole line List.mem_cons_self
    have room : front.length < procmapsLineMaxLength - 1 := by
      rw [shape, List.length_append, List.length_singleton] at short
      omega
    rw [List.flatMap_cons, shape, List.append_assoc, List.singleton_append,
      passes_line single room, behind, List.map_cons, shape, List.cons_append]

/-- **Passes over lines whose words fit.** Each stores its node, in order, and the array keeps the
last line. -/
theorem lines_hold {lines : List Spelled}
    (fit : ∀ line ∈ lines, Separated line ∧ Fits line.words) {parser : MapsParser}
    {before : List ProcmapsStruct} (holds : Holds storage parser before) :
    ∃ final values, (lines.map Spelled.text).foldlM (MapsParser.pass storage) parser = some final ∧
      List.Forall₂ Stored lines values ∧ Holds storage final (before ++ values) ∧
      ∀ line ∈ lines.getLast?, ∃ stale, final.buf = line.text ++ stale := by
  induction lines using List.reverseRecOn with
  | nil => exact ⟨parser, [], rfl, List.Forall₂.nil, by simpa using holds, by simp⟩
  | append_singleton front line ih =>
    obtain ⟨middle, values, run, stored, held, -⟩ :=
      ih fun other inside => fit other (List.mem_append_left _ inside)
    have last := fit line (by simp)
    obtain ⟨final, value, passed, here, extended, buffer⟩ :=
      pass_fits last.1 last.2 held (Or.inl rfl)
    refine ⟨final, values ++ [value], ?_, ?_, ?_, ?_⟩
    · rw [List.map_append, List.foldlM_append, run]
      simp [passed]
    · exact List.rel_append stored (List.Forall₂.cons here List.Forall₂.nil)
    · rw [← List.append_assoc]
      exact extended
    · simpa using buffer

/-- Passes over lines have a meaning only when their words fit. -/
theorem lines_only {lines : List Spelled} (separated : ∀ line ∈ lines, Separated line)
    {parser final : MapsParser}
    (run : (lines.map Spelled.text).foldlM (MapsParser.pass storage) parser = some final) :
    ∀ line ∈ lines, Fits line.words := by
  induction lines generalizing parser with
  | nil => simp
  | cons line rest ih =>
    rw [List.map_cons, List.foldlM_cons] at run
    obtain ⟨next, passed, later⟩ := Option.bind_eq_some_iff.mp run
    intro other inside
    rw [List.mem_cons] at inside
    cases inside with
    | inl here =>
      rw [here]
      exact pass_only (separated line List.mem_cons_self) passed
    | inr behind =>
      exact ih (fun other inside => separated other (List.mem_cons_of_mem _ inside)) later other
        behind

/-- **What a file of lines leaves.** The list holds the nodes of its lines, in order, and the node
of the last line once more. -/
theorem parse_lines {lines : List Spelled} {last : Spelled} (ends : lines.getLast? = some last)
    (fit : ∀ line ∈ lines, Separated line ∧ Fits line.words)
    (whole : ∀ line ∈ lines, line.text.length < procmapsLineMaxLength) (buf perm : Text) :
    ∃ heap values, pmparserParse storage buf perm (some (lines.flatMap Spelled.text)) =
        some (heap, some ⟨some (storage.place 0), some (storage.place 0)⟩) ∧
      List.Forall₂ Stored (lines ++ [last]) values ∧
      Chain heap (some (storage.place 0)) (nodes storage values) none := by
  have start : Holds storage (.initial buf perm) [] := Or.inl ⟨rfl, rfl, rfl⟩
  obtain ⟨middle, values, run, stored, held, buffer⟩ := lines_hold fit start
  have member : last ∈ lines := List.mem_of_getLast? ends
  obtain ⟨final, value, passed, here, extended, -⟩ :=
    pass_fits (fit last member).1 (fit last member).2 held (Or.inr ⟨rfl, buffer last ends⟩)
  have all : ((lines.map Spelled.text) ++ [[]]).foldlM (MapsParser.pass storage)
      (.initial buf perm) = some final := by
    rw [List.foldlM_append, run]
    simp [passed]
  have several : values ≠ [] := by
    rintro rfl
    rw [List.forall₂_nil_right_iff] at stored
    simp [stored] at ends
  rcases extended with ⟨empty, -⟩ | ⟨others, other, shape, linked⟩
  · simp at empty
  · have parts := List.append_inj' shape rfl
    rw [List.nil_append] at parts
    have chain := linked.list (by rw [← parts.1]; exact several)
    rw [← shape, List.nil_append] at chain
    refine ⟨final.heap, values ++ [value], ?_, ?_, chain⟩
    · rw [pmparserParse, passes_lines (fun line inside => (fit line inside).1) whole, all]
      simp [linked.listMaps]
    · exact List.rel_append stored (List.Forall₂.cons here List.Forall₂.nil)

/-- **When a memory map is parsed.** For every file of lines and whatever the arrays and the storage
held, exactly when each word of each line fits in the arrays it is copied to. -/
theorem parse_iff {lines : List Spelled} (something : lines ≠ [])
    (separated : ∀ line ∈ lines, Separated line)
    (whole : ∀ line ∈ lines, line.text.length < procmapsLineMaxLength) (storage : Storage)
    (buf perm : Text) :
    (pmparserParse storage buf perm (some (lines.flatMap Spelled.text))).isSome = true ↔
      ∀ line ∈ lines, Fits line.words := by
  constructor
  · intro parsed
    rw [pmparserParse, Option.isSome_map, passes_lines separated whole] at parsed
    obtain ⟨final, run⟩ := Option.isSome_iff_exists.mp parsed
    rw [List.foldlM_append] at run
    obtain ⟨middle, first, -⟩ := Option.bind_eq_some_iff.mp run
    exact lines_only separated first
  · intro fits
    have ends := List.getLast?_eq_some_getLast something
    obtain ⟨heap, values, parsed, -⟩ := @parse_lines storage lines _ ends
      (fun line inside => ⟨separated line inside, fits line inside⟩) whole buf perm
    rw [parsed]
    rfl

/-- A line without a path. -/
def shortLine : Spelled where
  words := ⟨['1'], ['2'], ['r'], ['0'], ['8'], ['7'], []⟩
  afterEnd := [' ']
  afterPerm := [' ']
  afterOffset := [' ']
  afterDevice := [' ']
  afterInode := [' ']
  tail := []

/-- It is parsed exactly when its words fit. -/
theorem parse_iff_shortLine :
    (pmparserParse blankStorage [] []
      (some ([shortLine].flatMap Spelled.text))).isSome = true ↔
        ∀ line ∈ [shortLine], Fits line.words := by
  have digit : ∀ letter ∈ ['1', '2', 'r', '0', '8', '7'],
      blank letter = false ∧ letter ≠ '\n' ∧ letter ≠ '\x00' := by simp [blank]
  have word {letter : Char} (inside : letter ∈ ['1', '2', 'r', '0', '8', '7']) :
      Solid [letter] := by
    intro other same
    rw [List.mem_singleton.mp same]
    exact digit letter inside
  have gap : Gap [' '] := by
    constructor
    · simp
    · simp [blank]
  have separated : ∀ line ∈ [shortLine], Separated line := by
    intro line inside
    rw [List.mem_singleton.mp inside]
    exact ⟨word (by simp), by simp [shortLine], word (by simp),
      ⟨word (by simp), by simp [shortLine]⟩, ⟨word (by simp), by simp [shortLine]⟩,
      ⟨word (by simp), by simp [shortLine]⟩, ⟨word (by simp), by simp [shortLine]⟩,
      by simp [Solid, shortLine], ⟨gap, gap, gap, gap, gap⟩, Or.inl rfl⟩
  exact parse_iff (by simp) separated (by simp [shortLine, Spelled.text, procmapsLineMaxLength,
    pathMax]) blankStorage [] []

end A64dbg.MapsLine
