import A64dbg.ScanReport
import A64dbg.Verif.HitTable

/-!
# Reading the report of a round

The report of `checkForChanges` is lines, and a line tells by its front what it is: the number of
hits, a hit, an area, or that an area was not read whole. `report_exact` says of every round, behind
any commands, that the number is that of the words which every round kept, that the hits are these
words with their values before and now, unless they are 300 or more, and that the areas are those
that were read, active while a word of theirs is left and released by the round that leaves none.

A name with a newline could look like a line of its own, so there is none in a name.
-/

namespace A64dbg.ScanReports

open Fields Numerals Output Scan HitTable Tables

/-- The lines of a text, without those that are empty. -/
def lines (text : Text) : List Text := fields (fun letter => letter == '\n') text

/-- What is behind the front of a line. -/
def behind (front line : Text) : Option Text :=
  if front.isPrefixOf line then some (line.drop front.length) else none

/-- The word that 16 digits spell. -/
def wordAt (place : Nat) (line : Text) : Word :=
  BitVec.ofNat 64 (numberOf 16 ((line.drop place).take 16))

/-- The hit that a line tells of: a line that begins with 16 digits. -/
def hitOf (line : Text) : Option Hit :=
  if (line.take 16).all (isDigitOf 16) then
    some ⟨wordAt 0 line, wordAt 17 line, wordAt 37 line, String.ofList (line.drop 54)⟩
  else none

/-- The number of hits that a line tells of, and the mode. -/
def countOf (line : Text) : Option (Mode × Nat) :=
  ((behind (countFront .changed) line).map fun number => (Mode.changed, numberOf 10 number)).or
  ((behind (countFront .unchanged) line).map fun number => (Mode.unchanged, numberOf 10 number))

/-- The start and the name that are behind the front of a line of an area. -/
def labelOf (rest : Text) : Word × String :=
  (BitVec.ofNat 64 (numberOf 16 ((rest.takeWhile fun letter => letter != '\t').drop 2)),
    String.ofList ((rest.dropWhile fun letter => letter != '\t').drop 1))

/-- The area that a line tells of, and whether it is released. -/
def areaOf (line : Text) : Option (Bool × Word × String) :=
  ((behind (areaFront false) line).map fun rest => (false, labelOf rest)).or
  ((behind (areaFront true) line).map fun rest => (true, labelOf rest))

/-- The line of an area that was not read whole. -/
def noticeLine (got memSize : Word) : Text :=
  "didnt read enough from Area! ".toList ++ decimal got.toNat ++ " != ".toList ++
    decimal memSize.toNat

/-- The line of an area. -/
def areaLine (area : Bool × Word × String) : Text :=
  areaFront area.1 ++ (pointer area.2.1 ++ "\t".toList ++ area.2.2.toList)

/-- The line of a number of hits. -/
def countLine (mode : Mode) (count : Nat) : Text := countFront mode ++ decimal count

/-- The line of a hit. -/
def lineOf (hit : Hit) : Text :=
  hex 16 hit.addr.toNat ++ " ".toList ++ hex 16 hit.orig.toNat ++ " -> ".toList ++
    hex 16 hit.modd.toNat ++ "\t".toList ++ hit.name.toList

/-- A word of an area survives a round. -/
def Active (contents : Nat → Nat → AreaRead) (modes : Nat → Mode) (round : Nat)
    (listed : ObserverArea × Nat) : Prop :=
  ∃ i < listed.1.words, Survives contents modes listed.2 round i

instance (contents : Nat → Nat → AreaRead) (modes : Nat → Mode) (round : Nat)
    (listed : ObserverArea × Nat) : Decidable (Active contents modes round listed) :=
  decidable_of_iff
    (∃ i ∈ List.range listed.1.words, Survives contents modes listed.2 round i)
    (by simp only [List.mem_range, Active])

/-- An area is scanned in a round: no read of it failed, and every earlier round left a word. -/
def Live (contents : Nat → Nat → AreaRead) (modes : Nat → Mode) (round : Nat)
    (listed : ObserverArea × Nat) : Prop :=
  (∀ j ≤ round, (contents j listed.2).complete = true) ∧
    ∀ j ∈ Finset.Icc 1 (round - 1), Active contents modes j listed

instance (contents : Nat → Nat → AreaRead) (modes : Nat → Mode) (round : Nat)
    (listed : ObserverArea × Nat) : Decidable (Live contents modes round listed) :=
  have : Decidable (∀ j ∈ Finset.Icc 1 (round - 1), Active contents modes j listed) :=
    inferInstance
  inferInstanceAs (Decidable (_ ∧ _))

/-- What becomes of an area in a round: nothing if it is not scanned; else it is released or stays
active, as no word of it survives the round or one does. -/
def outcome (contents : Nat → Nat → AreaRead) (modes : Nat → Mode) (round : Nat)
    (listed : ObserverArea × Nat) : Option (Bool × Word × String) :=
  if Live contents modes round listed then
    some (!decide (Active contents modes round listed), label listed.1)
  else none

/-- What is behind the front of a line is the rest of it. -/
theorem behind_front (front rest : Text) : behind front (front ++ rest) = some rest := by
  have begins : front.isPrefixOf (front ++ rest) = true := by simp
  rw [behind, if_pos begins, List.drop_left]

/-- A line that begins with another letter has nothing behind the front. -/
theorem behind_other {first other : Char} (differ : first ≠ other) (front rest : Text) :
    behind (first :: front) (other :: rest) = none := by
  simp [behind, differ]

/-- A printed word has 16 digits. -/
theorem hex_length (word : Word) : (hex 16 word.toNat).length = 16 := by
  have digits : (Nat.toDigits 16 word.toNat).length ≤ 16 :=
    Nat.toDigits_length 16 word.toNat 16 (by decide) word.isLt
  simp only [hex, padded, List.leftpad, List.length_append, List.length_replicate]
  omega

/-- A printed word is read at its place. -/
theorem wordAt_hex {place : Nat} {front : Text} (behind : front.length = place) (word : Word)
    (rest : Text) : wordAt place (front ++ (hex 16 word.toNat ++ rest)) = word := by
  rw [wordAt, ← behind, List.drop_left, List.take_left' (hex_length word), numberOf_hex,
    BitVec.ofNat_toNat, BitVec.setWidth_eq]

/-- The letters of a printed number are digits, and no front begins with one. -/
theorem digit_letter {base : Nat} (large : 1 < base) (small : base ≤ 16) {width number : Nat}
    {letter : Char} (inside : letter ∈ padded base width number) :
    isDigitOf 16 letter = true ∧ letter ∉ ['\n', '\t', 'A', 'C', 'R', 'U'] := by
  have digits : ∀ d < 16, isDigitOf 16 (Nat.digitChar d) = true ∧
      Nat.digitChar d ∉ ['\n', '\t', 'A', 'C', 'R', 'U'] := by decide
  obtain ⟨d, bound, rfl⟩ := padded_letters large width number letter inside
  exact digits d (by omega)

/-- **A hit is read back from its line.** -/
theorem hitOf_lineOf (hit : Hit) : hitOf (lineOf hit) = some hit := by
  have space : " ".toList = [' '] := rfl
  have arrow : " -> ".toList = [' ', '-', '>', ' '] := rfl
  have tab : "\t".toList = ['\t'] := rfl
  have addr := hex_length hit.addr
  have orig := hex_length hit.orig
  have modd := hex_length hit.modd
  have digits : ((lineOf hit).take 16).all (isDigitOf 16) = true := by
    rw [lineOf, List.append_assoc, List.append_assoc, List.append_assoc, List.append_assoc,
      List.append_assoc, List.take_left' addr, List.all_eq_true]
    exact fun letter inside => (digit_letter (by decide) (by decide) inside).1
  have first : wordAt 0 (lineOf hit) = hit.addr := by
    have shape : lineOf hit = [] ++ (hex 16 hit.addr.toNat ++ (" ".toList ++
        hex 16 hit.orig.toNat ++ " -> ".toList ++ hex 16 hit.modd.toNat ++ "\t".toList ++
        hit.name.toList)) := by
      simp only [lineOf, List.append_assoc, List.nil_append]
    rw [shape]
    exact wordAt_hex List.length_nil hit.addr _
  have second : wordAt 17 (lineOf hit) = hit.orig := by
    have shape : lineOf hit = (hex 16 hit.addr.toNat ++ " ".toList) ++
        (hex 16 hit.orig.toNat ++ (" -> ".toList ++ hex 16 hit.modd.toNat ++ "\t".toList ++
        hit.name.toList)) := by
      simp only [lineOf, List.append_assoc]
    rw [shape]
    exact wordAt_hex (by simp [addr, space]) hit.orig _
  have third : wordAt 37 (lineOf hit) = hit.modd := by
    have shape : lineOf hit = (hex 16 hit.addr.toNat ++ " ".toList ++ hex 16 hit.orig.toNat ++
        " -> ".toList) ++ (hex 16 hit.modd.toNat ++ ("\t".toList ++ hit.name.toList)) := by
      simp only [lineOf, List.append_assoc]
    rw [shape]
    exact wordAt_hex (by simp [addr, orig, space, arrow]) hit.modd _
  have name : (lineOf hit).drop 54 = hit.name.toList := by
    rw [lineOf]
    apply List.drop_left'
    simp [addr, orig, modd, space, arrow, tab]
  rw [hitOf, if_pos digits, first, second, third, name, String.ofList_toList]

/-- A line whose first letter is no digit tells of no hit. -/
theorem hitOf_first {first : Char} (other : isDigitOf 16 first = false) (rest : Text) :
    hitOf (first :: rest) = none := by
  simp [hitOf, other]

/-- A line whose second letter is no digit tells of no hit. -/
theorem hitOf_other {second : Char} (other : isDigitOf 16 second = false) (first : Char)
    (rest : Text) : hitOf (first :: second :: rest) = none := by
  simp [hitOf, other]

/-- The fronts of the lines differ in their first two letters. -/
theorem fronts :
    countFront .changed = 'C' :: 'h' :: "anged Memory Locations: ".toList ∧
    countFront .unchanged = 'U' :: 'N' :: "changed Memory Locations: ".toList ∧
    areaFront false = 'A' :: 'r' :: "ea active: ".toList ∧
    areaFront true = 'R' :: 'e' :: "lease Area: ".toList := by
  decide +kernel

/-- A line with another first letter tells of no number of hits. -/
theorem countOf_other {first : Char} (changed : first ≠ 'C') (unchanged : first ≠ 'U')
    (rest : Text) : countOf (first :: rest) = none := by
  rw [countOf, fronts.1, fronts.2.1, behind_other changed.symm, behind_other unchanged.symm]
  rfl

/-- A line with another first letter tells of no area. -/
theorem areaOf_other {first : Char} (active : first ≠ 'A') (released : first ≠ 'R')
    (rest : Text) : areaOf (first :: rest) = none := by
  rw [areaOf, fronts.2.2.1, fronts.2.2.2, behind_other active.symm, behind_other released.symm]
  rfl

/-- A decimal number is read back as printed. -/
theorem numberOf_decimal (number : Nat) : numberOf 10 (decimal number) = number := by
  have reads : ∀ d < 10, (digitValue (Nat.digitChar d)).getD 0 = d := by decide
  exact value_toDigits (by decide) reads number

/-- **A number of hits is read back from its line.** -/
theorem countOf_countLine (mode : Mode) (count : Nat) :
    countOf (countLine mode count) = some (mode, count) := by
  cases mode with
  | changed =>
    rw [countOf, countLine, behind_front, Option.map_some, Option.some_or, numberOf_decimal]
  | unchanged =>
    have changed : behind (countFront .changed) (countFront .unchanged ++ decimal count) =
        none := by
      rw [fronts.1, fronts.2.1, List.cons_append]
      exact behind_other (by decide) _ _
    rw [countOf, countLine, changed, behind_front, Option.map_none, Option.none_or,
      Option.map_some, numberOf_decimal]

/-- The start and the name of an area come back. -/
theorem labelOf_pointer (addrStart : Word) (name : String) :
    labelOf (pointer addrStart ++ "\t".toList ++ name.toList) = (addrStart, name) := by
  have tab : "\t".toList = ['\t'] := rfl
  have free : ∀ letter ∈ pointer addrStart, (letter != '\t') = true := by
    intro letter inside
    rw [pointer, List.mem_cons, List.mem_cons] at inside
    rcases inside with rfl | rfl | digit
    · decide
    · decide
    · have other := (digit_letter (by decide) (by decide) digit).2
      simp only [List.mem_cons, not_or] at other
      exact bne_iff_ne.mpr other.2.1
  have front : (pointer addrStart ++ ('\t' :: name.toList)).takeWhile
      (fun letter => letter != '\t') = pointer addrStart := by
    rw [List.takeWhile_append_of_pos free]
    simp
  have back : (pointer addrStart ++ ('\t' :: name.toList)).dropWhile
      (fun letter => letter != '\t') = '\t' :: name.toList := by
    rw [List.dropWhile_append_of_pos free]
    simp
  have digits : (pointer addrStart).drop 2 = hex 0 addrStart.toNat := rfl
  rw [labelOf, List.append_assoc, tab, List.singleton_append, front, back, digits, numberOf_hex,
    BitVec.ofNat_toNat, BitVec.setWidth_eq, List.drop_one, List.tail_cons, String.ofList_toList]

/-- **An area is read back from its line.** -/
theorem areaOf_areaLine (area : Bool × Word × String) : areaOf (areaLine area) = some area := by
  obtain ⟨allInvalid, addrStart, name⟩ := area
  cases allInvalid with
  | false =>
    rw [areaLine, areaOf, behind_front, Option.map_some, Option.some_or, labelOf_pointer]
  | true =>
    have active (rest : Text) : behind (areaFront false) (areaFront true ++ rest) = none := by
      rw [fronts.2.2.1, fronts.2.2.2, List.cons_append]
      exact behind_other (by decide) _ _
    rw [areaLine, areaOf, active, behind_front, Option.map_none, Option.none_or,
      Option.map_some, labelOf_pointer]

/-- A text that is one line. -/
structure OneLine (text : Text) : Prop where
  /-- It is not empty. -/
  nonempty : text ≠ []
  /-- It holds no newline. -/
  whole : '\n' ∉ text

/-- One-line texts with newlines behind them come back. -/
theorem lines_line {texts : List Text} (each : ∀ text ∈ texts, OneLine text) :
    lines (line '\n' texts) = texts := by
  apply @fields_line Char _ '\n' '\n'
  intro text inside
  obtain ⟨nonempty, whole⟩ := each text inside
  have other : ∀ letter ∈ text, letter ≠ '\n' := by
    intro letter here newline
    rw [newline] at here
    exact whole here
  exact ⟨nonempty, fun letter here => ⟨other letter here, other letter here⟩⟩

/-- A printed number holds no newline. -/
theorem digits_whole {base : Nat} (large : 1 < base) (small : base ≤ 16) (width number : Nat) :
    '\n' ∉ padded base width number := by
  intro inside
  have other := (digit_letter large small inside).2
  exact other List.mem_cons_self

/-- A printed decimal number holds no newline. -/
theorem decimal_whole (number : Nat) : '\n' ∉ decimal number := by
  intro inside
  obtain ⟨d, bound, newline⟩ := toDigits_letters (by decide) number '\n' inside
  have digits : ∀ d < 10, '\n' ≠ Nat.digitChar d := by decide
  exact digits d bound newline

/-- A notice is one line, and tells of nothing. -/
theorem noticeLine_read (got memSize : Word) :
    OneLine (noticeLine got memSize) ∧ hitOf (noticeLine got memSize) = none ∧
      countOf (noticeLine got memSize) = none ∧ areaOf (noticeLine got memSize) = none := by
  have front : "didnt read enough from Area! ".toList =
      'd' :: 'i' :: "dnt read enough from Area! ".toList ∧
      '\n' ∉ "didnt read enough from Area! ".toList ∧ '\n' ∉ " != ".toList := by
    decide +kernel
  have shape : noticeLine got memSize = 'd' :: 'i' :: ("dnt read enough from Area! ".toList ++
      decimal got.toNat ++ " != ".toList ++ decimal memSize.toNat) := by
    unfold noticeLine
    rw [front.1, List.cons_append, List.cons_append, List.cons_append,
      List.cons_append, List.cons_append, List.cons_append]
  have whole : '\n' ∉ noticeLine got memSize := by
    unfold noticeLine
    rw [List.mem_append, List.mem_append, List.mem_append, not_or, not_or, not_or]
    exact ⟨⟨⟨front.2.1, decimal_whole _⟩, front.2.2⟩, decimal_whole _⟩
  refine ⟨⟨?_, whole⟩, ?_, ?_, ?_⟩
  · rw [shape]
    exact List.cons_ne_nil _ _
  · rw [shape]
    exact hitOf_other (by decide) _ _
  · rw [shape]
    exact countOf_other (by decide) (by decide) _
  · rw [shape]
    exact areaOf_other (by decide) (by decide) _

/-- The line of an area is one line, and tells of no hits. -/
theorem areaLine_read (area : Bool × Word × String) (named : '\n' ∉ area.2.2.toList) :
    OneLine (areaLine area) ∧ hitOf (areaLine area) = none ∧ countOf (areaLine area) = none := by
  obtain ⟨allInvalid, addrStart, name⟩ := area
  have tab : '\n' ∉ "\t".toList := by decide
  have address : '\n' ∉ pointer addrStart := by
    rw [pointer, List.mem_cons, List.mem_cons, not_or, not_or]
    exact ⟨by decide, by decide, digits_whole (by decide) (by decide) _ _⟩
  have behind : '\n' ∉ pointer addrStart ++ "\t".toList ++ name.toList := by
    simp only [List.mem_append, not_or]
    exact ⟨⟨address, tab⟩, named⟩
  have front : '\n' ∉ areaFront allInvalid := by
    cases allInvalid <;> decide +kernel
  refine ⟨⟨?_, ?_⟩, ?_⟩
  · cases allInvalid <;> simp [areaLine, fronts]
  · rw [areaLine, List.mem_append, not_or]
    exact ⟨front, behind⟩
  · cases allInvalid with
    | false =>
      rw [areaLine, fronts.2.2.1]
      exact ⟨hitOf_other (by decide) _ _, countOf_other (by decide) (by decide) _⟩
    | true =>
      rw [areaLine, fronts.2.2.2]
      exact ⟨hitOf_first (by decide) _, countOf_other (by decide) (by decide) _⟩

/-- The line of a number is one line, and tells of no hit and no area. -/
theorem countLine_read (mode : Mode) (count : Nat) :
    OneLine (countLine mode count) ∧ hitOf (countLine mode count) = none ∧
      areaOf (countLine mode count) = none := by
  have front : '\n' ∉ countFront mode := by
    cases mode <;> decide +kernel
  refine ⟨⟨?_, ?_⟩, ?_⟩
  · cases mode <;> simp [countLine, fronts]
  · rw [countLine, List.mem_append, not_or]
    exact ⟨front, decimal_whole count⟩
  · cases mode with
    | changed =>
      rw [countLine, fronts.1]
      exact ⟨hitOf_other (by decide) _ _, areaOf_other (by decide) (by decide) _⟩
    | unchanged =>
      rw [countLine, fronts.2.1]
      exact ⟨hitOf_first (by decide) _, areaOf_other (by decide) (by decide) _⟩

/-- The line of a hit is one line, and tells of no number and no area. -/
theorem lineOf_read (hit : Hit) (named : '\n' ∉ hit.name.toList) :
    OneLine (lineOf hit) ∧ countOf (lineOf hit) = none ∧ areaOf (lineOf hit) = none := by
  have words : '\n' ∉ " ".toList ∧ '\n' ∉ " -> ".toList ∧ '\n' ∉ "\t".toList := by
    decide +kernel
  have digits (word : Word) : '\n' ∉ hex 16 word.toNat :=
    digits_whole (by decide) (by decide) 16 word.toNat
  have whole : '\n' ∉ lineOf hit := by
    simp only [lineOf, List.mem_append, not_or]
    exact ⟨⟨⟨⟨⟨⟨digits _, words.1⟩, digits _⟩, words.2.1⟩, digits _⟩, words.2.2⟩, named⟩
  obtain ⟨letter, rest, address⟩ :=
    List.exists_cons_of_ne_nil (padded_nonempty 16 16 hit.addr.toNat)
  have shape : lineOf hit = letter :: (rest ++ " ".toList ++ hex 16 hit.orig.toNat ++
      " -> ".toList ++ hex 16 hit.modd.toNat ++ "\t".toList ++ hit.name.toList) := by
    rw [lineOf, hex, address]
    rfl
  have inside : letter ∈ padded 16 16 hit.addr.toNat := by
    rw [address]
    exact List.mem_cons_self
  have other := (digit_letter (by decide) (by decide) inside).2
  simp only [List.mem_cons, List.not_mem_nil, or_false, not_or] at other
  refine ⟨⟨?_, whole⟩, ?_, ?_⟩
  · rw [shape]
    exact List.cons_ne_nil _ _
  · rw [shape]
    exact countOf_other other.2.2.2.1 other.2.2.2.2.2 _
  · rw [shape]
    exact areaOf_other other.2.2.1 other.2.2.2.2.1 _

/-- Lines of parts are the parts of the lines. -/
theorem line_flatMap {α : Type} (list : List α) (texts : α → List Text) :
    line '\n' (list.flatMap texts) = list.flatMap fun element => line '\n' (texts element) :=
  List.flatMap_assoc

/-- Lines behind lines are all of them in order. -/
theorem line_append (first second : List Text) :
    line '\n' (first ++ second) = line '\n' first ++ line '\n' second := List.flatMap_append

/-- A text with a newline behind it is one line. -/
theorem line_one (text : Text) : text ++ "\n".toList = line '\n' [text] :=
  (List.flatMap_singleton ..).symm

/-- The lines of the areas that were not read whole. -/
def notices (reads : Nat → AreaRead) (got : Nat → Word) (listed : ObserverArea × Nat) : List Text :=
  if listed.1.invalid || (reads listed.2).complete then []
  else [noticeLine (got listed.2) listed.1.length]

/-- The messages of the loop over the areas are these lines. -/
theorem scanAreas_line (reads : Nat → AreaRead) (got : Nat → Word) (areas : List ObserverArea) :
    Output.scanAreas reads got areas = line '\n' (areas.zipIdx.flatMap (notices reads got)) := by
  rw [line_flatMap, Output.scanAreas]
  congr 1
  funext listed
  obtain ⟨area, place⟩ := listed
  unfold notices Output.readMem noticeLine
  dsimp only
  cases area.invalid with
  | true => rfl
  | false =>
    cases (reads place).complete with
    | true => rfl
    | false =>
      rw [if_neg Bool.false_ne_true, if_neg Bool.false_ne_true, line_one, Bool.or_self,
        if_neg Bool.false_ne_true]

/-- The number of hits is printed on a line of its own. -/
theorem hitCount_line (mode : Mode) {hits : Hits} (small : hits.count < 2 ^ 31) :
    hitCount mode hits = line '\n' [countLine mode hits.count] := by
  have index : (BitVec.ofNat 32 hits.count).toInt = hits.count := index_eq small
  have number : (BitVec.ofNat 32 hits.count).toNat = hits.count := by
    rw [BitVec.toNat_ofNat]
    omega
  have positive : ¬(BitVec.ofNat 32 hits.count).toInt < 0 := by omega
  rw [hitCount, signedDecimal, if_neg positive, number, line_one, countLine]

/-- The hits are their lines, when the table holds them. -/
theorem hitLines_line {hits : Hits} {kept : List Hit} (index : hits.index = kept.length)
    (cells : ∀ k < min kept.length 300, kept[k]? = some (hits.cell k)) :
    hitLines hits = line '\n' ((if kept.length < 300 then kept else []).map lineOf) := by
  unfold hitLines
  rw [index]
  by_cases room : kept.length < 300
  · have held : (List.range kept.length).map hits.cell = kept := by
      apply List.ext_getElem?
      intro k
      rw [List.getElem?_map]
      by_cases inside : k < kept.length
      · rw [List.getElem?_range inside, cells k (by omega), Option.map_some]
      · rw [List.getElem?_eq_none (by simpa using inside), List.getElem?_eq_none (by omega),
          Option.map_none]
    have printed : ¬maxHitPrint ≤ (kept.length : Int) := by
      unfold maxHitPrint
      omega
    rw [if_neg printed, if_pos room, Int.toNat_natCast]
    calc
      (List.range kept.length).flatMap (fun i => hitLine (hits.cell i)) =
          ((List.range kept.length).map hits.cell).flatMap hitLine := (List.flatMap_map ..).symm
      _ = kept.flatMap hitLine := by rw [held]
      _ = line '\n' (kept.map lineOf) := by
        rw [line, List.flatMap_map]
        rfl
  · have refused : maxHitPrint ≤ (kept.length : Int) := by
      unfold maxHitPrint
      omega
    rw [if_pos refused, if_neg room]
    rfl

/-- A table of saved words holds the first 300 of them. -/
theorem recorded_cells {hits : Hits} {table : Int → Option Hit} {kept : List Hit}
    (recorded : hits = recordAll ⟨0, table⟩ kept) (bound : kept.length < 2 ^ 31) :
    hits.count = kept.length ∧ ∀ k < min kept.length 300, kept[k]? = some (hits.cell k) := by
  constructor
  · rw [recorded, recordAll_count]
    exact Nat.zero_add _
  · intro k inside
    have small : (⟨0, table⟩ : Hits).count + kept.length < 2 ^ 31 := by
      rw [Nat.zero_add]
      exact bound
    have entry := recordAll_table small k
    have inRange : k < kept.length := by omega
    rw [if_pos ⟨Nat.zero_le k, by rwa [Nat.zero_add]⟩, Nat.sub_zero] at entry
    rw [Hits.cell, recorded, entry, List.getElem?_eq_getElem inRange, Option.getD_some]

/-- The lines of a report: notes, areas, count and hits. -/
def report (notes : List Text) (told : List (Bool × Word × String)) (mode : Mode) (count : Nat)
    (hits : List Hit) : List Text :=
  notes ++ (told.map areaLine ++ ([countLine mode count] ++ hits.map lineOf))

/-- Values that are written and read one by one come back. -/
theorem written_read {α : Type} {write : α → Text} {read : Text → Option α}
    (back : ∀ value, read (write value) = some value) (values : List α) :
    (values.map write).filterMap read = values := by
  have each : read ∘ write = some := funext back
  rw [List.filterMap_map, each, List.filterMap_some]

/-- Of lines that tell of something else nothing is read. -/
theorem nothing_read {α : Type} {read : Text → Option α} {texts : List Text}
    (other : ∀ text ∈ texts, read text = none) : texts.filterMap read = [] :=
  List.filterMap_eq_nil_iff.mpr other

/-- **A report is read back from its lines.** -/
theorem report_read {notes : List Text} {told : List (Bool × Word × String)} {hits : List Hit}
    (notices : ∀ text ∈ notes, ∃ got memSize, text = noticeLine got memSize)
    (toldNamed : ∀ area ∈ told, '\n' ∉ area.2.2.toList)
    (hitsNamed : ∀ hit ∈ hits, '\n' ∉ hit.name.toList) (mode : Mode) (count : Nat) :
    lines (line '\n' (report notes told mode count hits)) = report notes told mode count hits ∧
      (report notes told mode count hits).filterMap countOf = [(mode, count)] ∧
      (report notes told mode count hits).filterMap hitOf = hits ∧
      (report notes told mode count hits).filterMap areaOf = told := by
  have notice : ∀ text ∈ notes, OneLine text ∧ hitOf text = none ∧ countOf text = none ∧
      areaOf text = none := by
    intro text inside
    obtain ⟨got, memSize, rfl⟩ := notices text inside
    exact noticeLine_read got memSize
  have area : ∀ text ∈ told.map areaLine, OneLine text ∧ hitOf text = none ∧
      countOf text = none := by
    intro text inside
    obtain ⟨area, member, rfl⟩ := List.mem_map.mp inside
    exact areaLine_read area (toldNamed area member)
  have number : ∀ text ∈ [countLine mode count], OneLine text ∧ hitOf text = none ∧
      areaOf text = none := by
    intro text inside
    rw [List.mem_singleton.mp inside]
    exact countLine_read mode count
  have hit : ∀ text ∈ hits.map lineOf, OneLine text ∧ countOf text = none ∧
      areaOf text = none := by
    intro text inside
    obtain ⟨hit, member, rfl⟩ := List.mem_map.mp inside
    exact lineOf_read hit (hitsNamed hit member)
  unfold report
  refine ⟨?_, ?_, ?_, ?_⟩
  · apply lines_line
    intro text inside
    rw [List.mem_append, List.mem_append, List.mem_append] at inside
    rcases inside with inside | inside | inside | inside
    · exact (notice text inside).1
    · exact (area text inside).1
    · exact (number text inside).1
    · exact (hit text inside).1
  · have counted : [countLine mode count].filterMap countOf = [(mode, count)] :=
      List.filterMap_cons_some (countOf_countLine mode count)
    rw [List.filterMap_append, List.filterMap_append, List.filterMap_append,
      nothing_read fun text inside => (notice text inside).2.2.1,
      nothing_read fun text inside => (area text inside).2.2, counted,
      nothing_read fun text inside => (hit text inside).2.1]
    rfl
  · rw [List.filterMap_append, List.filterMap_append, List.filterMap_append,
      nothing_read fun text inside => (notice text inside).2.1,
      nothing_read fun text inside => (area text inside).2.1,
      nothing_read fun text inside => (number text inside).2.1, written_read hitOf_lineOf]
    rfl
  · rw [List.filterMap_append, List.filterMap_append, List.filterMap_append,
      nothing_read fun text inside => (notice text inside).2.2.2,
      nothing_read fun text inside => (number text inside).2.2,
      nothing_read fun text inside => (hit text inside).2.2, written_read areaOf_areaLine,
      List.nil_append, List.append_nil, List.append_nil]

section Rounds

variable {contents : Nat → Nat → AreaRead} {modes : Nat → Mode}

/-- Some word of an area survives a round exactly when not all of its words are out. -/
theorem active_iff (round : Nat) (listed : ObserverArea × Nat) :
    Active contents modes round listed ↔
      ¬∀ i < listed.1.words, (searchOf contents modes listed.2 round).out i = true := by
  unfold Active
  simp only [← candidate_iff, not_forall, Bool.not_eq_true, exists_prop]

/-- An area is scanned in a round exactly when it is not gone and is read whole. -/
theorem live_iff (rounds : Nat) (listed : ObserverArea × Nat) :
    Live contents modes (rounds + 1) listed ↔
      ¬(Gone contents modes listed.2 listed.1.words rounds ∨
        (contents (rounds + 1) listed.2).complete = false) := by
  unfold Live Gone
  rw [Nat.add_sub_cancel]
  constructor
  · rintro ⟨complete, active⟩ ((⟨j, bound, failed⟩ | ⟨j, bounds, emptied⟩) | failed)
    · cases failed.symm.trans (complete j (Nat.le_succ_of_le bound))
    · exact (active_iff j listed).mp (active j bounds) emptied
    · cases failed.symm.trans (complete (rounds + 1) (Nat.le_refl _))
  · intro here
    rw [not_or, not_or, not_exists, not_exists] at here
    obtain ⟨⟨earlier, left⟩, last⟩ := here
    constructor
    · intro j bound
      rw [← Bool.not_eq_false]
      intro failed
      rcases Nat.le_succ_iff.mp bound with before | rfl
      · exact earlier j ⟨before, failed⟩
      · exact last failed
    · intro j bounds
      exact (active_iff j listed).mpr fun emptied => left j ⟨bounds, emptied⟩

/-- **The release prints one line for an area.** -/
theorem invalidateArea_line {rounds place : Nat} {observed area : ObserverArea}
    (scanned : Scan.Scanned contents modes rounds (observed, place) area)
    (labelled : label area = label observed) :
    Output.invalidateArea area = some (line '\n'
      ((outcome contents modes (rounds + 1) (observed, place)).toList.map areaLine)) := by
  have words : area.words = observed.words := congrArg (·.toNat / 8) scanned.length
  have live := @live_iff contents modes rounds (observed, place)
  have invalid := scanned.invalid
  rw [words] at invalid
  unfold Output.invalidateArea outcome
  cases gone : area.invalid with
  | true =>
    have notLive : ¬Live contents modes (rounds + 1) (observed, place) := by
      rw [live, not_not]
      exact invalid.mp gone
    rw [if_pos rfl, if_neg notLive]
    rfl
  | false =>
    have isLive : Live contents modes (rounds + 1) (observed, place) := by
      rw [live, ← invalid, gone]
      exact Bool.false_ne_true
    obtain ⟨answer, search, decides⟩ := allInvalid_spec (scanned.represents gone)
    have released : (!decide (Active contents modes (rounds + 1) (observed, place))) = answer := by
      rw [Bool.eq_iff_iff, Bool.not_eq_true', decide_eq_false_iff_not, active_iff, not_not,
        decides, words]
    rw [if_neg Bool.false_ne_true, search, if_pos isLive, released, ← labelled]
    simp only [Option.bind_eq_bind, Option.bind_some, Option.pure_def, Option.toList_some,
      List.map_cons, List.map_nil, label, areaLine, ← line_one, List.append_assoc]

/-- **The release prints one line for each area, in order.** -/
theorem invalidateMemory_line {rounds place : Nat} {observed areas : List ObserverArea}
    (scanned : List.Forall₂ (Scan.Scanned contents modes rounds) (observed.zipIdx place) areas)
    (labels : areas.map label = observed.map label) :
    Output.invalidateMemory areas = some (line '\n'
      (((observed.zipIdx place).filterMap (outcome contents modes (rounds + 1))).map
        areaLine)) := by
  unfold Output.invalidateMemory
  induction observed generalizing place areas with
  | nil =>
    cases scanned
    rfl
  | cons first observed ih =>
    rw [List.zipIdx_cons] at scanned ⊢
    cases scanned with
    | cons here later =>
      rw [List.map_cons, List.map_cons, List.cons.injEq] at labels
      obtain ⟨texts, rest, all⟩ := Option.map_eq_some_iff.mp (ih later labels.2)
      rw [List.mapM_cons, invalidateArea_line here labels.1, Option.bind_eq_bind,
        Option.bind_some, rest, Option.bind_eq_bind, Option.bind_some, Option.pure_def,
        Option.map_some, List.flatten_cons, all, ← line_append, ← List.map_append]
      cases became : outcome contents modes (rounds + 1) (first, place) with
      | none =>
        rw [List.filterMap_cons_none became]
        rfl
      | some area =>
        rw [List.filterMap_cons_some became]
        rfl

/-- What becomes of an area is told with its name. -/
theorem outcome_named {round : Nat} {areas : List ObserverArea}
    (named : ∀ area ∈ areas, '\n' ∉ area.pathname.toList) :
    ∀ told ∈ areas.zipIdx.filterMap (outcome contents modes round), '\n' ∉ told.2.2.toList := by
  intro told inside
  obtain ⟨listed, member, became⟩ := List.mem_filterMap.mp inside
  unfold outcome at became
  split at became
  · cases became
    exact named listed.1 (List.fst_mem_of_mem_zipIdx member)
  · cases became

/-- A surviving word has the name of its area. -/
theorem survivors_named {round : Nat} {areas : List ObserverArea}
    (named : ∀ area ∈ areas, '\n' ∉ area.pathname.toList) :
    ∀ hit ∈ survivors contents modes areas round, '\n' ∉ hit.name.toList := by
  intro hit inside
  unfold survivors at inside
  split at inside
  · cases inside
  · obtain ⟨listed, member, found⟩ := List.mem_flatMap.mp inside
    unfold survivorsOf at found
    split at found
    · obtain ⟨i, -, here⟩ := List.mem_flatMap.mp found
      split at here
      · rw [List.mem_singleton.mp here]
        exact named listed.1 (List.fst_mem_of_mem_zipIdx member)
      · cases here
    · cases found

end Rounds

section Round

variable (first : Nat → AreaRead) {areas : List ObserverArea} (operations : List Operation)
  (mode : Mode) (reads : Nat → AreaRead) (got : Nat → Word)

/-- **A round prints its report and nothing else.** -/
theorem checkForChanges_line (few : (areas.map ObserverArea.words).sum < 2 ^ 31) :
    let all := operations ++ [.check mode reads]
    let round := (rounds operations).length + 1
    let kept := survivors (contentsOf first all) (modesOf all) areas round
    ∃ scanner, runMemChecking first areas operations = some scanner ∧
      Output.checkForChanges mode reads got scanner = some (line '\n'
        (report (scanner.obsList.zipIdx.flatMap (notices reads got))
          (areas.zipIdx.filterMap (outcome (contentsOf first all) (modesOf all) round)) mode
          kept.length (if kept.length < 300 then kept else []))) := by
  intro all round kept
  have contents : contentsOf first all round = reads := by
    rw [contentsOf_check first operations mode reads _ (Nat.le_refl _), if_pos rfl]
  have modes : modesOf all round = mode := by
    rw [modesOf_check operations mode reads _ (Nat.le_refl _), if_pos rfl]
  obtain ⟨scanner, earlier, settled, labels, -⟩ :=
    @scanRounds_spec (contentsOf first all) (modesOf all) areas (rounds operations).length
  have run : runMemChecking first areas operations = some scanner := by
    rw [runMemChecking_eq, ← scanRounds_check first operations mode reads areas]
    exact earlier
  obtain ⟨scannedAreas, scan, scanned, scannedLabels⟩ :=
    scanAreas_spec ⟨0, scanner.hits.table⟩ settled
  obtain ⟨left, -, nextSettled, leftLabels, total⟩ := invalidateMemory_spec scanned
  have saved : scannedAreas.zipIdx.flatMap (savedOf (contentsOf first all) (modesOf all)
      (rounds operations).length) = kept := by
    have same := saved_survivors nextSettled (leftLabels.trans (scannedLabels.trans labels))
    rw [List.flatMap_def, ← total, ← List.flatMap_def, same]
    exact (if_neg (Nat.succ_ne_zero _)).symm
  rw [saved, contents, modes] at scan
  have bound : kept.length < 2 ^ 31 := Nat.lt_of_le_of_lt (survivors_length areas _) few
  obtain ⟨count, cells⟩ := @recorded_cells _ scanner.hits.table kept rfl bound
  have small : (recordAll ⟨0, scanner.hits.table⟩ kept).count < 2 ^ 31 := by omega
  have index : (recordAll ⟨0, scanner.hits.table⟩ kept).index = kept.length := by
    rw [index_eq small, count]
  have released := invalidateMemory_line scanned (scannedLabels.trans labels)
  refine ⟨scanner, run, ?_⟩
  unfold Output.checkForChanges report
  rw [scan]
  simp only [Option.bind_eq_bind, Option.bind_some, released, Option.pure_def]
  rw [scanAreas_line, hitCount_line mode small, count, hitLines_line index cells, line_append,
    line_append, line_append, List.append_assoc, List.append_assoc]

/-- **The report of a round is exact.** Behind any commands over fewer than `2 ^ 31` words, whatever
the reads deliver, a round reports the number of the words that every round kept, these words with
their values before and now if there are fewer than 300, and the areas that it scanned, each
released or active as no word of it is left or one is. -/
theorem report_exact (few : (areas.map ObserverArea.words).sum < 2 ^ 31)
    (named : ∀ area ∈ areas, '\n' ∉ area.pathname.toList) :
    let all := operations ++ [.check mode reads]
    let round := (rounds operations).length + 1
    let kept := survivors (contentsOf first all) (modesOf all) areas round
    ∃ scanner text, runMemChecking first areas operations = some scanner ∧
      Output.checkForChanges mode reads got scanner = some text ∧
      (lines text).filterMap countOf = [(mode, kept.length)] ∧
      (lines text).filterMap hitOf = (if kept.length < 300 then kept else []) ∧
      (lines text).filterMap areaOf =
        areas.zipIdx.filterMap (outcome (contentsOf first all) (modesOf all) round) := by
  intro all round kept
  obtain ⟨scanner, run, printed⟩ := checkForChanges_line first operations mode reads got few
  have notes : ∀ text ∈ scanner.obsList.zipIdx.flatMap (notices reads got),
      ∃ got memSize, text = noticeLine got memSize := by
    intro text inside
    obtain ⟨listed, -, here⟩ := List.mem_flatMap.mp inside
    unfold notices at here
    split at here
    · cases here
    · exact ⟨_, _, List.mem_singleton.mp here⟩
  have shown : ∀ hit ∈ (if kept.length < 300 then kept else []), '\n' ∉ hit.name.toList := by
    intro hit inside
    split at inside
    · exact survivors_named named hit inside
    · cases inside
  obtain ⟨back, counted, hits, told⟩ :=
    report_read notes (outcome_named named) shown mode kept.length
  refine ⟨scanner, _, run, printed, ?_⟩
  rw [back]
  exact ⟨counted, hits, told⟩

end Round

/-- A heap of one word. -/
def wordArea : ObserverArea := .unread 0x1000 8 "heap"

/-- One of two words changes, and the round says so. -/
theorem report_exact_once : ∃ scanner text,
    runMemChecking (reading 1) [wordArea, .unread 0x2000 8 "stack"] [] = some scanner ∧
    Output.checkForChanges .changed
      (fun place => ⟨true, fun _ => if place = 0 then 2 else 1⟩) (fun _ => 8) scanner =
        some text ∧
    (lines text).filterMap countOf = [(.changed, 1)] ∧
    (lines text).filterMap hitOf = [⟨0x1000, 1, 2, "heap"⟩] ∧
    (lines text).filterMap areaOf = [(false, 0x1000, "heap"), (true, 0x2000, "stack")] := by
  have few : ([wordArea, ObserverArea.unread 0x2000 8 "stack"].map ObserverArea.words).sum <
      2 ^ 31 := by decide
  have named : ∀ area ∈ [wordArea, ObserverArea.unread 0x2000 8 "stack"],
      '\n' ∉ area.pathname.toList := by decide
  exact report_exact (reading 1) [] .changed
    (fun place => ⟨true, fun _ => if place = 0 then 2 else 1⟩) (fun _ => 8) few named

end A64dbg.ScanReports
