import A64dbg.Verif.HitTable

/-!
# The hit counter

`hits` is an `int` that is only compared from above with the size of the table, and the words a
round may count are bounded by the lengths of the areas only. `counter_iff` says exactly when it
stays right: as long as every round counts fewer than `2 ^ 31` words. From there on it is negative,
and the table is written in front of its start.
-/

namespace A64dbg.HitCounter

open Scan HitTable

/-- The counter and the table at some point of the loops of `checkForChanges` over areas from a
place on: before an area, behind some words of one that is read, or behind the last. -/
inductive Reaches (mode : Mode) (reads : Nat → AreaRead) :
    Nat → Hits → List ObserverArea → Hits → Prop where
  /-- Before the first area, or behind the last. -/
  | here (place : Nat) (hits : Hits) (areas : List ObserverArea) :
    Reaches mode reads place hits areas hits
  /-- Behind the first words of the first area. -/
  | within {place : Nat} {hits hits' : Hits} {area area' : ObserverArea} (rest : List ObserverArea)
    (i : Nat) (valid : area.invalid = false) (complete : (reads place).complete = true)
    (inside : i ≤ area.words)
    (words : (List.range i).foldlM (scanWord mode (reads place).words) (hits, area) =
      some (hits', area')) : Reaches mode reads place hits (area :: rest) hits'
  /-- Behind the first area. -/
  | behind {place : Nat} {hits middle hits' : Hits} {area area' : ObserverArea}
    {rest : List ObserverArea}
    (first : scanArea mode (reads place) hits area = some (middle, area'))
    (later : Reaches mode reads (place + 1) middle rest hits') :
    Reaches mode reads place hits (area :: rest) hits'

/-- A point of a round. -/
def Point (mode : Mode) (reads : Nat → AreaRead) (scanner : Scanner) (hits : Hits) : Prop :=
  Reaches mode reads 0 { scanner.hits with count := 0 } scanner.obsList hits

/-- The counter is right, and where it admits a word to the table, it is an index of the table. -/
structure Sound (hits : Hits) : Prop where
  /-- The variable `hits` is the number of the words counted. -/
  exact : hits.index = hits.count
  /-- A word is saved at an index of the table. -/
  store : hits.index < maxHitPrint → 0 ≤ hits.index ∧ hits.index ≤ 299

/-- The counter is right as long as the number of words is an `int`. -/
theorem sound_iff (hits : Hits) : Sound hits ↔ hits.count < 2 ^ 31 := by
  constructor
  · intro sound
    have below : hits.index < 2 ^ 31 := by
      have top := @BitVec.toInt_lt 32 (BitVec.ofNat 32 hits.count)
      exact top
    rw [sound.exact] at below
    omega
  · intro small
    have index := index_eq small
    constructor
    · exact index
    · intro admitted
      unfold maxHitPrint at admitted
      omega

section Counts

variable {mode : Mode}

/-- A word does not take from the count. -/
theorem scanWord_count {values : Nat → Word} {scan scan' : Hits × ObserverArea} {i : Nat}
    (word : scanWord mode values scan i = some scan') : scan.1.count ≤ scan'.1.count := by
  obtain ⟨hits, area⟩ := scan
  unfold scanWord at word
  obtain ⟨out, -, word⟩ := Option.bind_eq_some_iff.mp word
  split at word
  · cases word
    exact Nat.le_refl _
  · obtain ⟨orig, -, word⟩ := Option.bind_eq_some_iff.mp word
    split at word
    · obtain ⟨cmpPtr, -, same⟩ := Option.bind_eq_some_iff.mp word
      cases same
      exact Nat.le_refl _
    · obtain ⟨memPtr, -, same⟩ := Option.bind_eq_some_iff.mp word
      cases same
      exact Nat.le_succ _

/-- Words do not take from the count. -/
theorem scanWords_count {values : Nat → Word} {places : List Nat} {scan scan' : Hits × ObserverArea}
    (words : places.foldlM (scanWord mode values) scan = some scan') :
    scan.1.count ≤ scan'.1.count := by
  induction places generalizing scan with
  | nil =>
    cases words
    exact Nat.le_refl _
  | cons i rest ih =>
    rw [List.foldlM_cons] at words
    obtain ⟨middle, word, later⟩ := Option.bind_eq_some_iff.mp words
    exact Nat.le_trans (scanWord_count word) (ih later)

/-- An area does not take from the count. -/
theorem scanArea_count {read : AreaRead} {hits hits' : Hits} {area area' : ObserverArea}
    (scan : scanArea mode read hits area = some (hits', area')) : hits.count ≤ hits'.count := by
  unfold scanArea at scan
  split at scan
  · cases scan
    exact Nat.le_refl _
  · split at scan
    · exact scanWords_count scan
    · cases scan
      exact Nat.le_refl _

variable {reads : Nat → AreaRead}

/-- The areas do not take from the count. -/
theorem scanAreas_count {place : Nat} {hits hits' : Hits} {areas areas' : List ObserverArea}
    (scan : scanAreas mode reads place hits areas = some (hits', areas')) :
    hits.count ≤ hits'.count := by
  induction areas generalizing place hits areas' with
  | nil =>
    cases scan
    exact Nat.le_refl _
  | cons area rest ih =>
    obtain ⟨middle, area', rest', here, later, -⟩ := scanAreas_cons scan
    exact Nat.le_trans (scanArea_count here) (ih later)

/-- At no point more words are counted than in the end. -/
theorem reaches_count {place : Nat} {hits hits' last : Hits} {areas areas' : List ObserverArea}
    (reached : Reaches mode reads place hits areas hits')
    (scan : scanAreas mode reads place hits areas = some (last, areas')) :
    hits'.count ≤ last.count := by
  induction reached generalizing areas' with
  | here place hits areas => exact scanAreas_count scan
  | @within place hits hits' area area' rest i valid complete inside words =>
    obtain ⟨middle, area'', rest', first, later, -⟩ := scanAreas_cons scan
    obtain ⟨others, length⟩ := Nat.exists_eq_add_of_le inside
    have usable : ¬area.invalid = true := by
      rw [valid]
      exact Bool.false_ne_true
    rw [scanArea, if_neg usable, if_pos complete, length, List.range_add, List.foldlM_append,
      words] at first
    exact Nat.le_trans (scanWords_count first) (scanAreas_count later)
  | behind first later ih =>
    obtain ⟨middle', area'', rest', here, others, -⟩ := scanAreas_cons scan
    rw [first] at here
    cases here
    exact ih others

/-- A round ends at one of its points. -/
theorem reaches_last {place : Nat} {hits last : Hits} {areas areas' : List ObserverArea}
    (scan : scanAreas mode reads place hits areas = some (last, areas')) :
    Reaches mode reads place hits areas last := by
  induction areas generalizing place hits areas' with
  | nil =>
    cases scan
    exact .here place _ []
  | cons area rest ih =>
    obtain ⟨middle, area', rest', here, later, -⟩ := scanAreas_cons scan
    exact .behind here (ih later)

/-- The counter is right at every point of a round exactly when it is at the end. -/
theorem round_sound {scanner scanner' : Scanner}
    (check : checkForChanges mode reads scanner = some scanner') :
    (∀ hits, Point mode reads scanner hits → Sound hits) ↔ scanner'.hits.count < 2 ^ 31 := by
  obtain ⟨areas, scan, -⟩ := checkForChanges_cases check
  constructor
  · intro sound
    have last : Point mode reads scanner scanner'.hits := reaches_last scan
    exact (sound_iff scanner'.hits).mp (sound scanner'.hits last)
  · intro small hits' point
    exact (sound_iff hits').mpr (Nat.lt_of_le_of_lt (reaches_count point scan) small)

end Counts

section Rounds

variable (contents : Nat → Nat → AreaRead) (modes : Nat → Mode) (areas : List ObserverArea)

/-- The counter is right at every point of a round after some others. -/
def RoundSound (round : Nat) : Prop :=
  ∀ scanner, scanRounds contents modes areas round = some scanner →
    ∀ hits, Point (modes (round + 1)) (contents (round + 1)) scanner hits → Sound hits

/-- A round counts the surviving words. -/
theorem scanRounds_count {round : Nat} {scanner : Scanner}
    (run : scanRounds contents modes areas round = some scanner) :
    scanner.hits.count = (survivors contents modes areas round).length := by
  obtain ⟨other, same, settled, labels, table, hits⟩ := @scanRounds_spec contents modes areas round
  rw [run, Option.some.injEq] at same
  rw [same, hits, saved_eq settled labels, recordAll_count]
  exact Nat.zero_add _

/-- A round keeps the counter right exactly when fewer than `2 ^ 31` words survive it. -/
theorem roundSound_iff (round : Nat) :
    RoundSound contents modes areas round ↔
      (survivors contents modes areas (round + 1)).length < 2 ^ 31 := by
  obtain ⟨scanner, before, -⟩ := @scanRounds_spec contents modes areas round
  obtain ⟨scanner', after, -⟩ := @scanRounds_spec contents modes areas (round + 1)
  have check := scanRounds_next before after
  rw [← scanRounds_count contents modes areas after, ← round_sound check]
  unfold RoundSound
  rw [before]
  constructor
  · intro sound
    exact sound scanner rfl
  · intro sound other same
    cases same
    exact sound

end Rounds

/-- **When the hit counter is right.** For any areas, any modes and any reads, `hits` is the number
of words counted at every point of some rounds, and every word saved is saved at an index of the
table, exactly when fewer than `2 ^ 31` words survive each of these rounds. -/
theorem counter_iff (contents : Nat → Nat → AreaRead) (modes : Nat → Mode)
    (areas : List ObserverArea) (rounds : Nat) :
    (∀ round < rounds, RoundSound contents modes areas round) ↔
      ∀ round < rounds, (survivors contents modes areas (round + 1)).length < 2 ^ 31 :=
  forall_congr' fun round => forall_congr' fun _ => roundSound_iff contents modes areas round

/-- An area of `2 ^ 31` words. -/
def largeArea : ObserverArea := .unread 0x1000 (2 ^ 34) "heap"

/-- Every word is the number of the round. -/
def counting (round : Nat) : Nat → AreaRead := fun _ => ⟨true, fun _ => BitVec.ofNat 64 round⟩

/-- All words of the large area survive a first round that looks for changes. -/
theorem large_survivors :
    (survivors counting (fun _ => .changed) [largeArea] 1).length = 2 ^ 31 := by
  have survives (i : Nat) : Survives counting (fun _ => .changed) 0 1 i := by
    intro j inside
    have one : j = 1 := by
      have bounds := Finset.mem_Icc.mp inside
      omega
    have changed : (1 : Word) ≠ 0 := by decide
    rw [one]
    exact changed
  have words : largeArea.words = 2 ^ 31 := by decide
  have complete : ∀ j ≤ 1, (counting j 0).complete = true := fun _ _ => rfl
  rw [survivors, if_neg Nat.one_ne_zero, List.zipIdx_singleton, List.flatMap_singleton,
    survivorsOf, if_pos complete, words]
  simp only [survives, if_true, List.length_flatMap, List.length_singleton, List.map_const',
    List.length_range, List.sum_replicate, smul_eq_mul, Nat.mul_one]

/-- When all words of the large area change in the first round, the counter wraps. -/
theorem counter_wraps : ¬RoundSound counting (fun _ => .changed) [largeArea] 0 := by
  rw [roundSound_iff, large_survivors]
  exact Nat.lt_irrefl _

end A64dbg.HitCounter
