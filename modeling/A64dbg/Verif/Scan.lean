import A64dbg.Library.Loops
import A64dbg.Library.Narrowing
import A64dbg.MemChecker

/-!
# What the memory scanner finds

Each area of the scanner is a search narrowed by successive readings. The loop of
`checkForChanges` over the words of an area is one round of it, and `invalidateMemory` drops
the areas whose search has no candidate left. `scan_exact` puts this together for any number of
areas and rounds, with reads that may fail.
-/

namespace A64dbg.Scan

open Loops Narrowing

/-- An allocated buffer is read at every index below its size. -/
theorem read_inside {α : Type} {buffer : Buffer α} {index : Nat} (live : buffer.live = true)
    (inside : index < buffer.size) : buffer.read index = some (buffer.cells index) :=
  if_pos ⟨live, inside⟩

/-- An allocated buffer is written at every index below its size. -/
theorem write_inside {α : Type} {buffer : Buffer α} {index : Nat} (value : α)
    (live : buffer.live = true) (inside : index < buffer.size) :
    buffer.write index value =
      some { buffer with cells := Function.update buffer.cells index value } :=
  if_pos ⟨live, inside⟩

/-- The scan of an area and the others is that of the area and then that of the others. -/
theorem scanAreas_cons {mode : Mode} {reads : Nat → AreaRead} {place : Nat} {hits hits' : Hits}
    {area : ObserverArea} {rest areas : List ObserverArea}
    (scan : scanAreas mode reads place hits (area :: rest) = some (hits', areas)) :
    ∃ middle area' rest', scanArea mode (reads place) hits area = some (middle, area') ∧
      scanAreas mode reads (place + 1) middle rest = some (hits', rest') ∧
      areas = area' :: rest' := by
  unfold scanAreas at scan
  obtain ⟨⟨middle, area'⟩, here, scan⟩ := Option.bind_eq_some_iff.mp scan
  obtain ⟨⟨last, rest'⟩, later, same⟩ := Option.bind_eq_some_iff.mp scan
  cases same
  exact ⟨middle, area', rest', here, later, rfl⟩

/-- A round is the scan of the areas and then their release. -/
theorem checkForChanges_cases {mode : Mode} {reads : Nat → AreaRead} {scanner scanner' : Scanner}
    (check : checkForChanges mode reads scanner = some scanner') :
    ∃ areas, scanAreas mode reads 0 { scanner.hits with count := 0 } scanner.obsList =
        some (scanner'.hits, areas) ∧
      invalidateMemory areas = some scanner'.obsList := by
  unfold checkForChanges at check
  obtain ⟨⟨hits, areas⟩, scan, check⟩ := Option.bind_eq_some_iff.mp check
  obtain ⟨areas', release, same⟩ := Option.bind_eq_some_iff.mp check
  cases same
  exact ⟨areas, scan, release⟩

/-- One round more is done on the scanner that the rounds before leave. -/
theorem scanRounds_next {contents : Nat → Nat → AreaRead} {modes : Nat → Mode}
    {areas : List ObserverArea} {rounds : Nat} {scanner scanner' : Scanner}
    (before : scanRounds contents modes areas rounds = some scanner)
    (after : scanRounds contents modes areas (rounds + 1) = some scanner') :
    checkForChanges (modes (rounds + 1)) (contents (rounds + 1)) scanner = some scanner' := by
  rw [scanRounds, before, Option.bind_eq_bind, Option.bind_some] at after
  exact after

/-- The buffers of an area hold a search. -/
structure Represents (area : ObserverArea) (search : Search Nat Word) : Prop where
  /-- `mem_ptr` is allocated. -/
  memLive : area.memPtr.live = true
  /-- `mem_ptr` has an entry for each word. -/
  memSize : area.memPtr.size = area.words
  /-- `cmp_ptr` is allocated. -/
  cmpLive : area.cmpPtr.live = true
  /-- `cmp_ptr` has an entry for each word. -/
  cmpSize : area.cmpPtr.size = area.words
  /-- `mem_ptr` has the values last seen. -/
  last : ∀ i < area.words, area.memPtr.cells i = search.last i
  /-- `cmp_ptr` marks the words that are out. -/
  out : ∀ i < area.words, area.cmpPtr.cells i = if search.out i then 1 else 0

/-- An area with the same place, size and state as another. -/
structure Alike (area other : ObserverArea) : Prop where
  /-- The same length. -/
  length : area.length = other.length
  /-- Both are valid or both are not. -/
  invalid : area.invalid = other.invalid

/-- Such areas have the same number of words. -/
theorem Alike.words {area other : ObserverArea} (alike : Alike area other) :
    area.words = other.words := congrArg (·.toNat / 8) alike.length

/-- The number of candidates below a bound. -/
def candidates (search : Search Nat Word) (bound : Nat) : Nat :=
  ((Finset.range bound).filter fun i => search.out i = false).card

/-- One place more is one candidate more unless it is out. -/
theorem candidates_succ (search : Search Nat Word) (bound : Nat) :
    candidates search (bound + 1) =
      candidates search bound + if search.out bound then 0 else 1 := by
  unfold candidates
  rw [Finset.range_add_one, Finset.filter_insert]
  cases out : search.out bound with
  | true => rfl
  | false =>
    rw [if_pos rfl, Finset.card_insert_of_notMem (by simp)]
    rfl

/-- Save words one after the other. -/
def recordAll (hits : Hits) (found : List Hit) : Hits := found.foldl Hits.record hits

/-- Every word that is saved is counted. -/
theorem recordAll_count (hits : Hits) (found : List Hit) :
    (recordAll hits found).count = hits.count + found.length := by
  induction found generalizing hits with
  | nil => rfl
  | cons hit rest ih =>
    rw [List.length_cons]
    exact (ih (hits.record hit)).trans (Nat.add_right_comm hits.count 1 rest.length)

/-- Words are saved in two parts, one after the other. -/
theorem recordAll_append (hits : Hits) (first second : List Hit) :
    recordAll hits (first ++ second) = recordAll (recordAll hits first) second :=
  List.foldl_append

/-- The start and the name of an area, which no round writes. -/
def label (area : ObserverArea) : Word × String := (area.addrStart, area.pathname)

/-- What a round saves of a word it keeps. -/
def hitAt (label : Word × String) (before : Search Nat Word) (values : Nat → Word) (i : Nat) :
    Hit := ⟨label.1 + BitVec.ofNat 64 (i * 8), before.last i, values i, label.2⟩

/-- What a round saves of one word. -/
def foundAt (mode : Mode) (label : Word × String) (before : Search Nat Word)
    (values : Nat → Word) (i : Nat) : List Hit :=
  if (before.round mode.discards values).out i then [] else [hitAt label before values i]

/-- What a round saves of the words below a bound. -/
def found (mode : Mode) (label : Word × String) (before : Search Nat Word) (values : Nat → Word)
    (bound : Nat) : List Hit := (List.range bound).flatMap (foundAt mode label before values)

/-- One word more finds what is found at that word. -/
theorem found_succ (mode : Mode) (label : Word × String) (before : Search Nat Word)
    (values : Nat → Word) (bound : Nat) :
    found mode label before values (bound + 1) =
      found mode label before values bound ++ foundAt mode label before values bound := by
  simp only [found, List.range_succ, List.flatMap_append, List.flatMap_singleton]

/-- A round saves as many words as it has candidates. -/
theorem found_length (mode : Mode) (label : Word × String) (before : Search Nat Word)
    (values : Nat → Word) (bound : Nat) :
    (found mode label before values bound).length =
      candidates (before.round mode.discards values) bound := by
  induction bound with
  | zero => rfl
  | succ bound ih =>
    rw [found_succ, List.length_append, ih, candidates_succ, foundAt]
    split <;> rfl

/-- An area represents whatever agrees with its search on its words. -/
theorem Represents.congr {area : ObserverArea} {search other : Search Nat Word}
    (represents : Represents area search)
    (same : ∀ i < area.words, other.out i = search.out i ∧ other.last i = search.last i) :
    Represents area other := by
  have last : ∀ i < area.words, area.memPtr.cells i = other.last i := by
    intro i inside
    rw [represents.last i inside, (same i inside).2]
  have out : ∀ i < area.words, area.cmpPtr.cells i = if other.out i then 1 else 0 := by
    intro i inside
    rw [represents.out i inside, (same i inside).1]
  exact { represents with last, out }

/-- An area changed at one place only, as a round does it, represents one place more. -/
theorem Represents.next {area area' : ObserverArea} {now before : Search Nat Word} {i : Nat}
    (represents : Represents area (now.upTo i before)) (words : area'.words = area.words)
    (memLive : area'.memPtr.live = area.memPtr.live)
    (memSize : area'.memPtr.size = area.memPtr.size)
    (cmpLive : area'.cmpPtr.live = area.cmpPtr.live)
    (cmpSize : area'.cmpPtr.size = area.cmpPtr.size)
    (last : area'.memPtr.cells = Function.update area.memPtr.cells i (now.last i))
    (out : area'.cmpPtr.cells =
      Function.update area.cmpPtr.cells i (if now.out i then 1 else 0)) :
    Represents area' (now.upTo (i + 1) before) := by
  have done := upTo_done (Nat.lt_succ_self i) now before
  constructor
  · exact memLive.trans represents.memLive
  · rw [memSize, words, represents.memSize]
  · exact cmpLive.trans represents.cmpLive
  · rw [cmpSize, words, represents.cmpSize]
  · intro j inside
    rw [words] at inside
    rw [last]
    by_cases here : j = i
    · subst here
      rw [Function.update_self, done.2]
    · rw [Function.update_of_ne here, (upTo_other here now before).2, represents.last j inside]
  · intro j inside
    rw [words] at inside
    rw [out]
    by_cases here : j = i
    · subst here
      rw [Function.update_self, done.1]
    · rw [Function.update_of_ne here, (upTo_other here now before).1, represents.out j inside]

/-- **One word of a round.** The body of the loop does its place of the round, and saves it
exactly when it is left a candidate. -/
theorem scanWord_spec {mode : Mode} {values : Nat → Word} {before : Search Nat Word}
    {area : ObserverArea} {i : Nat} (hits : Hits) (inside : i < area.words)
    (represents : Represents area ((before.round mode.discards values).upTo i before)) :
    ∃ area', scanWord mode values (hits, area) i =
        some (recordAll hits (foundAt mode (label area) before values i), area') ∧
      Alike area' area ∧ label area' = label area ∧
      Represents area' ((before.round mode.discards values).upTo (i + 1) before) := by
  have cmpInside : i < area.cmpPtr.size := represents.cmpSize ▸ inside
  have memInside : i < area.memPtr.size := represents.memSize ▸ inside
  have out := represents.out i inside
  have last := represents.last i inside
  obtain ⟨outBefore, lastBefore⟩ := upTo_self i (before.round mode.discards values) before
  rw [outBefore] at out
  rw [lastBefore] at last
  unfold scanWord foundAt
  simp only [read_inside represents.cmpLive cmpInside, read_inside represents.memLive memInside,
    Option.bind_eq_bind, Option.bind_some, Option.pure_def, out, last]
  cases wasOut : before.out i with
  | true =>
    rw [wasOut] at out
    obtain ⟨nowOut, nowLast⟩ := round_out mode.discards values
      (by rw [wasOut, Bool.true_or] : (before.out i || _) = true)
    rw [nowOut]
    refine ⟨area, rfl, ⟨rfl, rfl⟩, rfl, represents.next rfl rfl rfl rfl rfl ?_ ?_⟩
    · rw [nowLast, ← last, Function.update_eq_self]
    · rw [nowOut, ← out, Function.update_eq_self]
  | false =>
    rw [wasOut] at out
    rw [if_neg (by decide)]
    cases discarded : mode.discards (before.last i) (values i) with
    | true =>
      obtain ⟨nowOut, nowLast⟩ := round_out mode.discards values
        (by rw [discarded, Bool.or_true] : (before.out i || _) = true)
      rw [if_pos rfl, write_inside 1 represents.cmpLive cmpInside, nowOut]
      refine ⟨_, rfl, ⟨rfl, rfl⟩, rfl, represents.next rfl rfl rfl rfl rfl ?_ ?_⟩
      · rw [nowLast, ← last, Function.update_eq_self]
      · rw [nowOut]
        rfl
    | false =>
      obtain ⟨nowOut, nowLast⟩ := round_left mode.discards values
        (by rw [wasOut, discarded]; rfl : (before.out i || _) = false)
      rw [if_neg Bool.false_ne_true, write_inside _ represents.memLive memInside, nowOut]
      refine ⟨_, rfl, ⟨rfl, rfl⟩, rfl, represents.next rfl rfl rfl rfl rfl ?_ ?_⟩
      · rw [nowLast]
      · rw [nowOut, ← out, Function.update_eq_self]

/-- The loop over the words of an area before its pass `i`. -/
structure RoundTo (mode : Mode) (values : Nat → Word) (before : Search Nat Word)
    (start : Hits × ObserverArea) (i : Nat) (scan : Hits × ObserverArea) : Prop where
  /-- The area keeps its size and state. -/
  alike : Alike scan.2 start.2
  /-- The words below `i` are done. -/
  represents : Represents scan.2 ((before.round mode.discards values).upTo i before)
  /-- Their candidates are counted. -/
  count : scan.1.count = start.1.count + candidates (before.round mode.discards values) i

/-- What the loop over the words of an area has done and saved before its pass `i`. -/
structure FoundTo (mode : Mode) (values : Nat → Word) (before : Search Nat Word)
    (start : Hits × ObserverArea) (i : Nat) (scan : Hits × ObserverArea) : Prop where
  /-- The words below `i` are done and counted. -/
  round : RoundTo mode values before start i scan
  /-- The area keeps its start and its name. -/
  labelled : label scan.2 = label start.2
  /-- The words kept are saved in order. -/
  hits : scan.1 = recordAll start.1 (found mode (label start.2) before values i)

/-- A pass of the loop finds what is found at its word. -/
theorem FoundTo.next {mode : Mode} {values : Nat → Word} {before : Search Nat Word}
    {start scan : Hits × ObserverArea} {i : Nat} (inside : i < start.2.words)
    (done : FoundTo mode values before start i scan) :
    ∃ scan', scanWord mode values scan i = some scan' ∧
      FoundTo mode values before start (i + 1) scan' := by
  rw [← done.round.alike.words] at inside
  obtain ⟨area', pass, alike, labelled, kept⟩ :=
    scanWord_spec scan.1 inside done.round.represents
  have hits : recordAll scan.1 (foundAt mode (label scan.2) before values i) =
      recordAll start.1 (found mode (label start.2) before values (i + 1)) := by
    rw [found_succ, recordAll_append, ← done.hits, done.labelled]
  refine ⟨_, pass, ⟨⟨?_, ?_⟩, kept, ?_⟩, labelled.trans done.labelled, hits⟩
  · exact alike.length.trans done.round.alike.length
  · exact alike.invalid.trans done.round.alike.invalid
  · rw [hits, recordAll_count, found_length]

/-- **A round finds in one area the words that survive it.** -/
theorem scanWords_spec {mode : Mode} {values : Nat → Word} {before : Search Nat Word}
    {area : ObserverArea} (hits : Hits) (represents : Represents area before) :
    ∃ area', (List.range area.words).foldlM (scanWord mode values) (hits, area) =
        some (recordAll hits (found mode (label area) before values area.words), area') ∧
      Alike area' area ∧ label area' = label area ∧
      Represents area' (before.round mode.discards values) := by
  have initial : FoundTo mode values before (hits, area) 0 (hits, area) :=
    ⟨⟨⟨rfl, rfl⟩, represents, rfl⟩, rfl, rfl⟩
  obtain ⟨⟨hits', area'⟩, loop, saved⟩ :=
    foldlM_range initial fun _ inside _ earlier => earlier.next inside
  have done := saved.round
  have words := done.alike.words
  have represented : Represents area' (before.round mode.discards values) := by
    apply done.represents.congr
    intro i inside
    rw [words] at inside
    obtain ⟨out, last⟩ := upTo_done inside (before.round mode.discards values) before
    exact ⟨out.symm, last.symm⟩
  have recorded : hits' = recordAll hits (found mode (label area) before values area.words) :=
    saved.hits
  rw [recorded] at loop
  exact ⟨area', loop, done.alike, saved.labelled, represented⟩

section Rounds

variable (contents : Nat → Nat → AreaRead) (modes : Nat → Mode)

/-- The search over the words of an area. -/
def searchOf (place rounds : Nat) : Search Nat Word :=
  Narrowing.after (fun round => (modes round).discards)
    (fun round => (contents round place).words) rounds

/-- An area is gone once a read of it failed or a round left it no candidate. -/
def Gone (place words rounds : Nat) : Prop :=
  (∃ j ≤ rounds, (contents j place).complete = false) ∨
    ∃ j ∈ Finset.Icc 1 rounds, ∀ i < words, (searchOf contents modes place j).out i = true

/-- An area is gone after one round more if it was, or is not read, or has no candidate left. -/
theorem gone_succ (place words rounds : Nat) :
    Gone contents modes place words (rounds + 1) ↔
      Gone contents modes place words rounds ∨
      (contents (rounds + 1) place).complete = false ∨
      ∀ i < words, (searchOf contents modes place (rounds + 1)).out i = true := by
  unfold Gone
  simp only [Finset.mem_Icc]
  constructor
  · rintro (⟨j, bound, failed⟩ | ⟨j, ⟨first, bound⟩, emptied⟩)
    · rcases Nat.le_succ_iff.mp bound with earlier | rfl
      · exact .inl (.inl ⟨j, earlier, failed⟩)
      · exact .inr (.inl failed)
    · rcases Nat.le_succ_iff.mp bound with earlier | rfl
      · exact .inl (.inr ⟨j, ⟨first, earlier⟩, emptied⟩)
      · exact .inr (.inr emptied)
  · rintro ((⟨j, bound, failed⟩ | ⟨j, ⟨first, bound⟩, emptied⟩) | failed | emptied)
    · exact .inl ⟨j, Nat.le_succ_of_le bound, failed⟩
    · exact .inr ⟨j, ⟨first, Nat.le_succ_of_le bound⟩, emptied⟩
    · exact .inl ⟨rounds + 1, le_refl _, failed⟩
    · exact .inr ⟨rounds + 1, ⟨Nat.succ_le_succ (Nat.zero_le _), le_refl _⟩, emptied⟩

/-- An observed area, at its place in the list, after some rounds. -/
structure Settled (rounds : Nat) (observed : ObserverArea × Nat) (area : ObserverArea) :
    Prop where
  /-- Its length is never written. -/
  length : area.length = observed.1.length
  /-- It is invalid exactly when it is gone. -/
  invalid : area.invalid = true ↔ Gone contents modes observed.2 area.words rounds
  /-- While it is valid its buffers hold its search. -/
  represents : area.invalid = false →
    Represents area (searchOf contents modes observed.2 rounds)

/-- An observed area after its scan in the next round, before it may be released. -/
structure Scanned (rounds : Nat) (observed : ObserverArea × Nat) (area : ObserverArea) :
    Prop where
  /-- Its length is never written. -/
  length : area.length = observed.1.length
  /-- It is invalid exactly when it was, or this round could not read it. -/
  invalid : area.invalid = true ↔ Gone contents modes observed.2 area.words rounds ∨
    (contents (rounds + 1) observed.2).complete = false
  /-- While it is valid its buffers hold its search. -/
  represents : area.invalid = false →
    Represents area (searchOf contents modes observed.2 (rounds + 1))

/-- What an area adds to the hits of a round. -/
def credit (rounds : Nat) (listed : ObserverArea × Nat) : Nat :=
  if listed.1.invalid then 0
  else candidates (searchOf contents modes listed.2 rounds) listed.1.words

/-- What an area, by its place in the list, adds to the words saved in the round after some. -/
def savedOf (rounds : Nat) (listed : ObserverArea × Nat) : List Hit :=
  if listed.1.invalid then []
  else found (modes (rounds + 1)) (label listed.1) (searchOf contents modes listed.2 rounds)
    (contents (rounds + 1) listed.2).words listed.1.words

/-- The words an area adds are its candidates. -/
theorem savedOf_length (rounds : Nat) (listed : ObserverArea × Nat) :
    (savedOf contents modes rounds listed).length =
      credit contents modes (rounds + 1) listed := by
  unfold savedOf credit
  cases listed.1.invalid with
  | true => rfl
  | false => exact found_length _ _ _ _ _

variable {contents modes}

/-- **A round scans a settled area, or gives it up if it cannot be read.** -/
theorem scanArea_spec {rounds place : Nat} {observed area : ObserverArea} (hits : Hits)
    (settled : Settled contents modes rounds (observed, place) area) :
    ∃ area', scanArea (modes (rounds + 1)) (contents (rounds + 1) place) hits area =
        some (recordAll hits (savedOf contents modes rounds (area', place)), area') ∧
      Scanned contents modes rounds (observed, place) area' ∧ label area' = label area := by
  unfold scanArea
  cases invalid : area.invalid with
  | true =>
    have gone := settled.invalid.mp invalid
    have scanned : Scanned contents modes rounds (observed, place) area := by
      constructor
      · exact settled.length
      · exact iff_of_true invalid (.inl gone)
      · intro valid
        cases invalid.symm.trans valid
    refine ⟨area, ?_, scanned, rfl⟩
    unfold savedOf
    rw [invalid]
    rfl
  | false =>
    have represents := settled.represents invalid
    have here : ¬Gone contents modes place area.words rounds := fun gone => by
      cases invalid.symm.trans (settled.invalid.mpr gone)
    rw [if_neg Bool.false_ne_true]
    cases complete : (contents (rounds + 1) place).complete with
    | false =>
      have scanned : Scanned contents modes rounds (observed, place)
          { area with invalid := true } := by
        constructor
        · exact settled.length
        · exact iff_of_true rfl (.inr complete)
        · intro valid
          cases valid
      exact ⟨_, rfl, scanned, rfl⟩
    | true =>
      obtain ⟨area', loop, alike, labelled, kept⟩ := scanWords_spec hits represents
      have words := alike.words
      have valid : area'.invalid = false := alike.invalid.trans invalid
      have scanned : Scanned contents modes rounds (observed, place) area' := by
        constructor
        · exact alike.length.trans settled.length
        · rw [valid, words, complete]
          apply iff_of_false Bool.false_ne_true
          rintro (gone | failed)
          · exact here gone
          · cases failed
        · intro _
          exact kept
      refine ⟨area', ?_, scanned, labelled⟩
      unfold savedOf
      rw [valid, words, labelled]
      exact loop

/-- **A round scans all areas in order.** -/
theorem scanAreas_spec {rounds place : Nat} {observed areas : List ObserverArea} (hits : Hits)
    (settled : List.Forall₂ (Settled contents modes rounds) (observed.zipIdx place) areas) :
    ∃ areas', scanAreas (modes (rounds + 1)) (contents (rounds + 1)) place hits areas =
        some (recordAll hits ((areas'.zipIdx place).flatMap (savedOf contents modes rounds)),
          areas') ∧
      List.Forall₂ (Scanned contents modes rounds) (observed.zipIdx place) areas' ∧
      areas'.map label = areas.map label := by
  induction observed generalizing place areas hits with
  | nil =>
    cases settled
    exact ⟨[], rfl, .nil, rfl⟩
  | cons first observed ih =>
    rw [List.zipIdx_cons] at settled ⊢
    cases settled with
    | cons here later =>
      obtain ⟨area', pass, scanned, labelled⟩ := scanArea_spec hits here
      obtain ⟨areas', rest, all, labels⟩ :=
        ih (recordAll hits (savedOf contents modes rounds (area', place))) later
      refine ⟨area' :: areas', ?_, .cons scanned all, ?_⟩
      · unfold scanAreas
        rw [pass]
        simp only [Option.bind_eq_bind, Option.bind_some, rest, Option.pure_def,
          List.zipIdx_cons, List.flatMap_cons, recordAll_append]
      · rw [List.map_cons, List.map_cons, labelled, labels]

/-- The search in a valid area finds out whether every word is out. -/
theorem allInvalid_spec {area : ObserverArea} {search : Search Nat Word}
    (represents : Represents area search) :
    ∃ answer, ((List.range area.words).allM fun i => do
        let out ← area.cmpPtr.read i
        return out != 0) = some answer ∧
      (answer = true ↔ ∀ i < area.words, search.out i = true) := by
  refine allM_range fun i inside => ?_
  rw [read_inside represents.cmpLive (represents.cmpSize ▸ inside), represents.out i inside]
  cases search.out i with
  | true => exact ⟨true, rfl, iff_of_true rfl rfl⟩
  | false => exact ⟨false, rfl, Iff.rfl⟩

/-- An area without candidates has none to count. -/
theorem candidates_none {search : Search Nat Word} {bound : Nat}
    (none : ∀ i < bound, search.out i = true) : candidates search bound = 0 := by
  unfold candidates
  rw [Finset.card_eq_zero, Finset.filter_eq_empty_iff]
  intro i inside
  rw [none i (Finset.mem_range.mp inside)]
  exact Bool.noConfusion

/-- **The release settles a scanned area for the next round.** -/
theorem invalidateArea_spec {rounds place : Nat} {observed area : ObserverArea}
    (scanned : Scanned contents modes rounds (observed, place) area) :
    ∃ area', invalidateArea area = some area' ∧
      Settled contents modes (rounds + 1) (observed, place) area' ∧ label area' = label area ∧
      savedOf contents modes rounds (area', place) =
        savedOf contents modes rounds (area, place) := by
  unfold invalidateArea
  cases invalid : area.invalid with
  | true =>
    have before := scanned.invalid.mp invalid
    have settled : Settled contents modes (rounds + 1) (observed, place) area := by
      constructor
      · exact scanned.length
      · rw [gone_succ]
        exact iff_of_true invalid (before.imp_right .inl)
      · intro valid
        cases invalid.symm.trans valid
    exact ⟨area, rfl, settled, rfl, rfl⟩
  | false =>
    have represents := scanned.represents invalid
    have here : ¬(Gone contents modes place area.words rounds ∨
        (contents (rounds + 1) place).complete = false) := fun gone => by
      cases invalid.symm.trans (scanned.invalid.mpr gone)
    obtain ⟨answer, search, decides⟩ := allInvalid_spec represents
    rw [if_neg Bool.false_ne_true, search]
    cases answer with
    | true =>
      have none := decides.mp rfl
      have memFree : area.memPtr.free = some { area.memPtr with live := false } :=
        if_pos represents.memLive
      have cmpFree : area.cmpPtr.free = some { area.cmpPtr with live := false } :=
        if_pos represents.cmpLive
      rw [memFree, cmpFree]
      refine ⟨_, rfl, ?_, rfl, ?_⟩
      · constructor
        · exact scanned.length
        · exact iff_of_true rfl ((gone_succ ..).mpr (.inr (.inr none)))
        · intro valid
          cases valid
      · have length := savedOf_length contents modes rounds (area, place)
        unfold credit at length
        rw [invalid, if_neg Bool.false_ne_true, candidates_none none] at length
        exact (List.length_eq_zero_iff.mp length).symm
    | false =>
      have settled : Settled contents modes (rounds + 1) (observed, place) area := by
        constructor
        · exact scanned.length
        · rw [invalid, gone_succ]
          apply iff_of_false Bool.false_ne_true
          rintro (gone | failed | none)
          · exact here (.inl gone)
          · exact here (.inr failed)
          · cases decides.mpr none
        · intro _
          exact represents
      exact ⟨area, rfl, settled, rfl, rfl⟩

/-- **The release settles all areas for the next round.** -/
theorem invalidateMemory_spec {rounds place : Nat} {observed areas : List ObserverArea}
    (scanned : List.Forall₂ (Scanned contents modes rounds) (observed.zipIdx place) areas) :
    ∃ areas', invalidateMemory areas = some areas' ∧
      List.Forall₂ (Settled contents modes (rounds + 1)) (observed.zipIdx place) areas' ∧
      areas'.map label = areas.map label ∧
      (areas'.zipIdx place).map (savedOf contents modes rounds) =
        (areas.zipIdx place).map (savedOf contents modes rounds) := by
  unfold invalidateMemory
  induction observed generalizing place areas with
  | nil =>
    cases scanned
    exact ⟨[], rfl, .nil, rfl, rfl⟩
  | cons first observed ih =>
    rw [List.zipIdx_cons] at scanned ⊢
    cases scanned with
    | cons here later =>
      obtain ⟨area', pass, settled, labelled, saved⟩ := invalidateArea_spec here
      obtain ⟨areas', rest, all, labels, total⟩ := ih later
      refine ⟨area' :: areas', ?_, .cons settled all, ?_, ?_⟩
      · rw [List.mapM_cons, pass]
        simp only [Option.bind_eq_bind, Option.bind_some, rest, Option.pure_def]
      · rw [List.map_cons, List.map_cons, labelled, labels]
      · rw [List.zipIdx_cons, List.zipIdx_cons, List.map_cons, List.map_cons, saved, total]

/-- The first read settles every area. -/
theorem initialMemoryread_spec (observed : List ObserverArea) (place : Nat) :
    List.Forall₂ (Settled contents modes 0) (observed.zipIdx place)
      ((observed.zipIdx place).map fun (area, place) =>
        initialRead area (contents 0 place)) := by
  induction observed generalizing place with
  | nil => exact .nil
  | cons first observed ih =>
    rw [List.zipIdx_cons, List.map_cons]
    refine .cons ?_ (ih _)
    constructor
    · rfl
    · unfold Gone
      change (!(contents 0 place).complete) = true ↔ _
      simp
    · intro _
      exact ⟨rfl, rfl, rfl, rfl, fun _ _ => rfl, fun _ _ => rfl⟩

/-- The first read keeps the start and the name of every area. -/
theorem initialMemoryread_label (observed : List ObserverArea) (reads : Nat → AreaRead) :
    (initialMemoryread reads observed).obsList.map label = observed.map label := by
  have same : label ∘ (fun listed : ObserverArea × Nat => initialRead listed.1 (reads listed.2)) =
      label ∘ Prod.fst := rfl
  change (observed.zipIdx.map _).map label = _
  rw [List.map_map, same, ← List.map_map, List.zipIdx_map_fst]

/-- The words the last of some rounds saved, over all areas. -/
def saved (contents : Nat → Nat → AreaRead) (modes : Nat → Mode) (areas : List ObserverArea) :
    Nat → List Hit
  | 0 => []
  | rounds + 1 => areas.zipIdx.flatMap (savedOf contents modes rounds)

/-- **All rounds.** The scanner never fails, settles every area, keeps its start and its name, and
in its last round saves what the valid areas add. -/
theorem scanRounds_spec (observed : List ObserverArea) (rounds : Nat) :
    ∃ scanner, scanRounds contents modes observed rounds = some scanner ∧
      List.Forall₂ (Settled contents modes rounds) observed.zipIdx scanner.obsList ∧
      scanner.obsList.map label = observed.map label ∧
      ∃ table, scanner.hits =
        recordAll ⟨0, table⟩ (saved contents modes scanner.obsList rounds) := by
  induction rounds with
  | zero =>
    exact ⟨_, rfl, initialMemoryread_spec observed 0, initialMemoryread_label observed _, _, rfl⟩
  | succ rounds ih =>
    obtain ⟨scanner, earlier, settled, labels, -⟩ := ih
    obtain ⟨areas, scan, scanned, scannedLabels⟩ :=
      scanAreas_spec ⟨0, scanner.hits.table⟩ settled
    obtain ⟨areas', release, all, releasedLabels, total⟩ := invalidateMemory_spec scanned
    let hits := recordAll ⟨0, scanner.hits.table⟩
      (areas.zipIdx.flatMap (savedOf contents modes rounds))
    refine ⟨⟨areas', hits⟩, ?_, all, ?_, scanner.hits.table, ?_⟩
    · unfold scanRounds checkForChanges
      rw [earlier]
      simp only [Option.bind_eq_bind, Option.bind_some, scan, release, Option.pure_def, hits]
    · rw [releasedLabels, scannedLabels, labels]
    · simp only [hits, saved, List.flatMap_def, total]

/-- The words saved are the candidates of the valid areas. -/
theorem saved_length (areas : List ObserverArea) (rounds : Nat) :
    (saved contents modes areas rounds).length =
      if rounds = 0 then 0 else (areas.zipIdx.map (credit contents modes rounds)).sum := by
  cases rounds with
  | zero => rfl
  | succ rounds =>
    rw [if_neg (Nat.succ_ne_zero rounds)]
    simp only [saved, List.length_flatMap, savedOf_length]

/-- A word that a round in this mode keeps, by its values at the last read and at this one. -/
def Kept (mode : Mode) (before now : Word) : Prop :=
  match mode with
  | .changed => now ≠ before
  | .unchanged => now = before

instance (mode : Mode) (before now : Word) : Decidable (Kept mode before now) :=
  match mode with
  | .changed => inferInstanceAs (Decidable (_ ≠ _))
  | .unchanged => inferInstanceAs (Decidable (_ = _))

variable (contents modes)

/-- A word that every round so far kept. -/
def Survives (place rounds i : Nat) : Prop :=
  ∀ j ∈ Finset.Icc 1 rounds,
    Kept (modes j) ((contents (j - 1) place).words i) ((contents j place).words i)

instance (place rounds i : Nat) : Decidable (Survives contents modes place rounds i) :=
  inferInstanceAs (Decidable (∀ j ∈ Finset.Icc 1 rounds, _))

/-- What is due of an area, by its place in the list, after some rounds. -/
structure AreaExact (rounds : Nat) (observed : ObserverArea × Nat) (area : ObserverArea) :
    Prop where
  /-- The area has its length. -/
  length : area.length = observed.1.length
  /-- It is invalid exactly when one of its reads failed, or some round ended with all of its
  words excluded. -/
  invalid : area.invalid = true ↔
    (∃ j ≤ rounds, (contents j observed.2).complete = false) ∨
      ∃ j ∈ Finset.Icc 1 rounds, ∀ i < area.words, ¬Survives contents modes observed.2 j i
  /-- While it is valid, its candidates are the words that every round kept. -/
  candidate : area.invalid = false → ∀ i < area.words,
    ∃ out, area.cmpPtr.read i = some out ∧
      (out = 0 ↔ Survives contents modes observed.2 rounds i)

variable {contents modes}

/-- A round rejects what it does not keep. -/
theorem discards_iff (mode : Mode) (before now : Word) :
    mode.discards before now = false ↔ Kept mode before now := by
  cases mode with
  | changed => exact beq_eq_false_iff_ne.trans ne_comm
  | unchanged => exact bne_eq_false_iff_eq.trans eq_comm

/-- The candidates of a search are the words that every round kept. -/
theorem candidate_iff (place rounds i : Nat) :
    (searchOf contents modes place rounds).out i = false ↔
      Survives contents modes place rounds i := by
  unfold searchOf
  rw [out_iff]
  unfold Survives Narrowing.Survives
  simp only [discards_iff, Finset.mem_Icc]
  constructor
  · rintro kept j ⟨first, bound⟩
    have step := kept (j - 1) (by omega)
    rwa [Nat.sub_add_cancel first] at step
  · intro kept round earlier
    exact kept (round + 1) ⟨Nat.succ_le_succ (Nat.zero_le _), earlier⟩

/-- A settled area holds exactly the words that survived. -/
theorem Settled.exact {rounds : Nat} {observed : ObserverArea × Nat} {area : ObserverArea}
    (settled : Settled contents modes rounds observed area) :
    AreaExact contents modes rounds observed area := by
  refine ⟨settled.length, ?_, fun valid i inside => ?_⟩
  · rw [settled.invalid]
    unfold Gone
    simp only [← candidate_iff, Bool.not_eq_false]
  · have represents := settled.represents valid
    refine ⟨_, read_inside represents.cmpLive (represents.cmpSize ▸ inside), ?_⟩
    rw [represents.out i inside, ← candidate_iff]
    cases (searchOf contents modes observed.2 rounds).out i <;> decide

/-- **The memory scan is exact.** For any areas, any modes, and any reads that may fail, the
scanner never fails; after any number of rounds each area has exactly the candidates that every
round kept, is invalid exactly when a read failed or a round excluded all of its words, and the
hits of the last round are the candidates of the valid areas. -/
theorem scan_exact (contents : Nat → Nat → AreaRead) (modes : Nat → Mode)
    (observed : List ObserverArea) (rounds : Nat) :
    ∃ scanner, scanRounds contents modes observed rounds = some scanner ∧
      List.Forall₂ (AreaExact contents modes rounds) observed.zipIdx scanner.obsList ∧
      scanner.hits.count =
        if rounds = 0 then 0
        else (scanner.obsList.zipIdx.map fun listed =>
          if listed.1.invalid then 0
          else ((Finset.range listed.1.words).filter
            (Survives contents modes listed.2 rounds)).card).sum := by
  obtain ⟨scanner, run, settled, -, table, hits⟩ := scanRounds_spec observed rounds
  refine ⟨scanner, run, settled.imp fun _ _ => Settled.exact, ?_⟩
  have count : scanner.hits.count = if rounds = 0 then 0
      else (scanner.obsList.zipIdx.map (credit contents modes rounds)).sum := by
    rw [hits, recordAll_count, saved_length]
    exact Nat.zero_add _
  have credits : credit contents modes rounds = fun listed =>
      if listed.1.invalid then 0
      else ((Finset.range listed.1.words).filter
        (Survives contents modes listed.2 rounds)).card := by
    funext listed
    unfold credit candidates
    simp only [candidate_iff]
  rw [count, credits]

end Rounds

end A64dbg.Scan
