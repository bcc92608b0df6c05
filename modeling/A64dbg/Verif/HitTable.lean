import A64dbg.MemChecking
import A64dbg.Verif.Scan

/-!
# The table of hits

A round counts the words it keeps and saves the first 300 of them. `table_faithful` says what the
table holds after any operations: the surviving words of the last round in order, each with its
value at the previous read and at this one. A restore then writes each of them once, an
observation reads each of them once, and neither touches anything when there were more than the
table holds.
-/

namespace A64dbg.HitTable

open Narrowing Scan

/-- The rounds among some operations. -/
def rounds (operations : List Operation) : List (Mode × (Nat → AreaRead)) :=
  operations.filterMap fun operation => match operation with
    | .check mode reads => some (mode, reads)
    | _ => none

/-- What is read in each round, the first read being round zero. -/
def contentsOf (first : Nat → AreaRead) (operations : List Operation) : Nat → Nat → AreaRead
  | 0 => first
  | round + 1 => ((rounds operations)[round]?).elim first Prod.snd

/-- The mode of each round. -/
def modesOf (operations : List Operation) (round : Nat) : Mode :=
  ((rounds operations)[round - 1]?).elim .changed Prod.fst

/-- A surviving word: its address, its value at the previous read and at this one. -/
def survivor (contents : Nat → Nat → AreaRead) (round : Nat) (listed : ObserverArea × Nat)
    (i : Nat) : Hit where
  addr := listed.1.addrStart + BitVec.ofNat 64 (i * 8)
  orig := (contents (round - 1) listed.2).words i
  modd := (contents round listed.2).words i
  name := listed.1.pathname

/-- The surviving words of an area: those that every round kept, if every read was complete. -/
def survivorsOf (contents : Nat → Nat → AreaRead) (modes : Nat → Mode) (round : Nat)
    (listed : ObserverArea × Nat) : List Hit :=
  if ∀ j ≤ round, (contents j listed.2).complete = true then
    (List.range listed.1.words).flatMap fun i =>
      if Survives contents modes listed.2 round i then [survivor contents round listed i] else []
  else []

/-- The surviving words of a round, in the order of the areas and then of their words; there are
none before the first round. -/
def survivors (contents : Nat → Nat → AreaRead) (modes : Nat → Mode)
    (areas : List ObserverArea) (round : Nat) : List Hit :=
  if round = 0 then [] else areas.zipIdx.flatMap (survivorsOf contents modes round)

/-- The counter is its value while it fits. -/
theorem index_eq {hits : Hits} (small : hits.count < 2 ^ 31) : hits.index = hits.count := by
  unfold Hits.index
  rw [BitVec.toInt_eq_toNat_of_lt, BitVec.toNat_ofNat, Nat.mod_eq_of_lt (by omega)]
  rw [BitVec.toNat_ofNat, Nat.mod_eq_of_lt (by omega)]
  omega

/-- Saving a word changes only the entry at the count, and only below 300. -/
theorem record_table {hits : Hits} (small : hits.count < 2 ^ 31) (hit : Hit) (k : Nat) :
    (hits.record hit).table k =
      if k = hits.count ∧ k < 300 then some hit else hits.table k := by
  simp only [Hits.record, index_eq small, maxHitPrint]
  by_cases room : (hits.count : Int) < 300
  · rw [if_pos room]
    by_cases here : k = hits.count
    · rw [here, Function.update_self, if_pos ⟨rfl, by omega⟩]
    · rw [Function.update_of_ne (by exact_mod_cast here), if_neg fun both => here both.1]
  · rw [if_neg room, if_neg fun both => room (by omega)]

/-- **The table after any words.** It holds the first 300 at the indices the counter went through,
and is as before elsewhere. -/
theorem recordAll_table {hits : Hits} {found : List Hit}
    (small : hits.count + found.length < 2 ^ 31) (k : Nat) :
    (recordAll hits found).table k =
      if hits.count ≤ k ∧ k < min (hits.count + found.length) 300 then found[k - hits.count]?
      else hits.table k := by
  induction found generalizing hits with
  | nil =>
    have none : ¬(hits.count ≤ k ∧ k < min (hits.count + 0) 300) := by omega
    exact (if_neg none).symm
  | cons hit rest ih =>
    rw [List.length_cons] at small ⊢
    have step : (hits.record hit).count = hits.count + 1 := rfl
    change (recordAll (hits.record hit) rest).table k = _
    rw [ih (by omega), step, record_table (by omega)]
    by_cases here : k = hits.count
    · subst here
      rw [if_neg (by omega)]
      by_cases room : hits.count < 300
      · rw [if_pos ⟨rfl, room⟩, if_pos (by omega), Nat.sub_self, List.getElem?_cons_zero]
      · rw [if_neg fun both => room both.2, if_neg (by omega)]
    · rw [if_neg fun both : k = hits.count ∧ k < 300 => here both.1]
      by_cases inside : hits.count + 1 ≤ k ∧ k < min (hits.count + 1 + rest.length) 300
      · have later : k - hits.count = k - (hits.count + 1) + 1 := by omega
        rw [if_pos inside, if_pos (by omega), later, List.getElem?_cons_succ]
      · rw [if_neg inside, if_neg (by omega)]

/-- A word that every round kept was kept by the earlier ones. -/
theorem Survives.earlier {contents : Nat → Nat → AreaRead} {modes : Nat → Mode}
    {place round earlier i : Nat} (survives : Survives contents modes place round i)
    (before : earlier ≤ round) : Survives contents modes place earlier i := by
  intro j inside
  have bounds := Finset.mem_Icc.mp inside
  exact survives j (Finset.mem_Icc.mpr (by omega))

section Rounds

variable {contents : Nat → Nat → AreaRead} {modes : Nat → Mode}

/-- A round saves a word exactly when it survives the round. -/
theorem foundAt_survivor (round place : Nat) (area : ObserverArea) (i : Nat) :
    foundAt (modes (round + 1)) (label area) (searchOf contents modes place round)
        (contents (round + 1) place).words i =
      if Survives contents modes place (round + 1) i then
        [survivor contents (round + 1) (area, place) i] else [] := by
  have next : (searchOf contents modes place round).round (modes (round + 1)).discards
      (contents (round + 1) place).words = searchOf contents modes place (round + 1) := rfl
  unfold foundAt
  rw [next]
  by_cases survives : Survives contents modes place (round + 1) i
  · have left := (candidate_iff place (round + 1) i).mpr survives
    have before := (candidate_iff place round i).mpr (Survives.earlier survives (Nat.le_succ _))
    have last : (searchOf contents modes place round).last i = (contents round place).words i :=
      last_eq before
    rw [left, if_neg Bool.false_ne_true, if_pos survives, hitAt, last]
    rfl
  · have out : (searchOf contents modes place (round + 1)).out i = true := by
      rw [← Bool.not_eq_false, candidate_iff]
      exact survives
    rw [out, if_pos rfl, if_neg survives]

/-- A round saves of an area its surviving words. -/
theorem savedOf_survivors {round place : Nat} {observed area : ObserverArea}
    (settled : Settled contents modes (round + 1) (observed, place) area)
    (labelled : label area = label observed) :
    savedOf contents modes round (area, place) =
      survivorsOf contents modes (round + 1) (observed, place) := by
  have words : area.words = observed.words := congrArg (·.toNat / 8) settled.length
  have each : foundAt (modes (round + 1)) (label observed) (searchOf contents modes place round)
      (contents (round + 1) place).words = fun i =>
        if Scan.Survives contents modes place (round + 1) i then
          [survivor contents (round + 1) (observed, place) i] else [] :=
    funext (foundAt_survivor round place observed)
  unfold savedOf survivorsOf found
  simp only [labelled, words, each]
  by_cases complete : ∀ j ≤ round + 1, (contents j place).complete = true
  · rw [if_pos complete]
    cases invalid : area.invalid with
    | false => rfl
    | true =>
      -- A round excluded every word, and none of them came back.
      rcases settled.invalid.mp invalid with ⟨j, bound, failed⟩ | ⟨j, bounds, emptied⟩
      · cases failed.symm.trans (complete j bound)
      · have earlier : j ≤ round + 1 := (Finset.mem_Icc.mp bounds).2
        symm
        rw [if_pos rfl, List.flatMap_eq_nil_iff]
        intro i inside
        rw [words] at emptied
        have out := emptied i (List.mem_range.mp inside)
        apply if_neg
        intro survives
        have left := (candidate_iff place j i).mpr (Survives.earlier survives earlier)
        cases left.symm.trans out
  · rw [if_neg complete, if_pos]
    rw [settled.invalid]
    push Not at complete
    obtain ⟨j, bound, failed⟩ := complete
    exact .inl ⟨j, bound, Bool.not_eq_true _ ▸ failed⟩

/-- A round saves the surviving words of all areas. -/
theorem saved_survivors {round place : Nat} {observed areas : List ObserverArea}
    (settled : List.Forall₂ (Settled contents modes (round + 1)) (observed.zipIdx place) areas)
    (labels : areas.map label = observed.map label) :
    (areas.zipIdx place).flatMap (savedOf contents modes round) =
      (observed.zipIdx place).flatMap (survivorsOf contents modes (round + 1)) := by
  induction observed generalizing place areas with
  | nil =>
    cases settled
    rfl
  | cons first observed ih =>
    rw [List.zipIdx_cons] at settled
    cases settled with
    | cons here later =>
      rw [List.map_cons, List.map_cons, List.cons.injEq] at labels
      rw [List.zipIdx_cons, List.zipIdx_cons, List.flatMap_cons, List.flatMap_cons,
        savedOf_survivors here labels.1, ih later labels.2]

/-- The last of some rounds saves the words that survive them all. -/
theorem saved_eq {round : Nat} {observed areas : List ObserverArea}
    (settled : List.Forall₂ (Settled contents modes round) observed.zipIdx areas)
    (labels : areas.map label = observed.map label) :
    saved contents modes areas round = survivors contents modes observed round := by
  cases round with
  | zero => rfl
  | succ round => exact saved_survivors settled labels

/-- An area has no more surviving words than words. -/
theorem survivorsOf_length (round : Nat) (listed : ObserverArea × Nat) :
    (survivorsOf contents modes round listed).length ≤ listed.1.words := by
  have below (bound : Nat) : ((List.range bound).flatMap fun i =>
      if Scan.Survives contents modes listed.2 round i then [survivor contents round listed i]
      else []).length ≤ bound := by
    induction bound with
    | zero => exact Nat.le_refl 0
    | succ bound ih =>
      rw [List.range_succ, List.flatMap_append, List.length_append, List.flatMap_singleton]
      have one : (if Scan.Survives contents modes listed.2 round bound then
          [survivor contents round listed bound] else []).length ≤ 1 := by
        split
        · exact Nat.le_refl 1
        · exact Nat.zero_le 1
      omega
  unfold survivorsOf
  split
  · exact below listed.1.words
  · exact Nat.zero_le _

/-- There are no more surviving words than words observed. -/
theorem survivors_length (areas : List ObserverArea) (round : Nat) :
    (survivors contents modes areas round).length ≤ (areas.map ObserverArea.words).sum := by
  have below (place : Nat) :
      ((areas.zipIdx place).flatMap (survivorsOf contents modes round)).length ≤
        (areas.map ObserverArea.words).sum := by
    induction areas generalizing place with
    | nil => exact Nat.le_refl 0
    | cons area rest ih =>
      rw [List.zipIdx_cons, List.flatMap_cons, List.length_append, List.map_cons, List.sum_cons]
      have here : (survivorsOf contents modes round (area, place)).length ≤ area.words :=
        survivorsOf_length round (area, place)
      have later := ih (place + 1)
      omega
  unfold survivors
  split
  · exact Nat.zero_le _
  · exact below 0

end Rounds

/-- The rounds so far depend on what they read and on their modes only. -/
theorem scanRounds_congr {contents contents' : Nat → Nat → AreaRead} {modes modes' : Nat → Mode}
    (areas : List ObserverArea) {bound : Nat} (reads : ∀ j ≤ bound, contents j = contents' j)
    (same : ∀ j < bound, modes (j + 1) = modes' (j + 1)) :
    scanRounds contents modes areas bound = scanRounds contents' modes' areas bound := by
  induction bound with
  | zero =>
    unfold scanRounds
    rw [reads 0 (Nat.le_refl 0)]
  | succ bound ih =>
    have earlier := ih (fun j small => reads j (Nat.le_succ_of_le small))
      fun j small => same j (Nat.lt_succ_of_lt small)
    unfold scanRounds
    rw [earlier, reads (bound + 1) (Nat.le_refl _), same bound (Nat.lt_succ_self bound)]

/-- One more operation is done on the scanner that the others leave. -/
theorem runMemChecking_append (first : Nat → AreaRead) (areas : List ObserverArea)
    (operations : List Operation) (operation : Operation) :
    runMemChecking first areas (operations ++ [operation]) =
      (runMemChecking first areas operations).bind fun scanner => scanner.operate operation := by
  simp only [runMemChecking, List.foldlM_append, List.foldlM_cons, List.foldlM_nil,
    Option.bind_eq_bind, Option.pure_def, Option.bind_fun_some]

section Round

variable (first : Nat → AreaRead) (operations : List Operation) (mode : Mode)
  (reads : Nat → AreaRead)

/-- A check adds its round to those before it. -/
theorem rounds_check :
    rounds (operations ++ [.check mode reads]) = rounds operations ++ [(mode, reads)] := by
  simp [rounds]

/-- A check reads in its own round, and the rounds before it read as they did. -/
theorem contentsOf_check (round : Nat) (bound : round ≤ (rounds operations).length + 1) :
    contentsOf first (operations ++ [.check mode reads]) round =
      if round = (rounds operations).length + 1 then reads
      else contentsOf first operations round := by
  cases round with
  | zero => rfl
  | succ round =>
    rw [contentsOf, rounds_check]
    by_cases last : round = (rounds operations).length
    · rw [if_pos (by omega), last, List.getElem?_concat_length, Option.elim_some]
    · rw [if_neg (by omega), List.getElem?_append_left (by omega), contentsOf]

/-- A check has its mode in its own round, and the rounds before it keep theirs. -/
theorem modesOf_check (round : Nat) (bound : round ≤ (rounds operations).length) :
    modesOf (operations ++ [.check mode reads]) (round + 1) =
      if round = (rounds operations).length then mode else modesOf operations (round + 1) := by
  rw [modesOf, rounds_check, Nat.add_sub_cancel]
  by_cases last : round = (rounds operations).length
  · rw [if_pos last, last, List.getElem?_concat_length, Option.elim_some]
  · rw [if_neg last, List.getElem?_append_left (by omega), modesOf, Nat.add_sub_cancel]

/-- The rounds before the last one are as they were. -/
theorem scanRounds_check (areas : List ObserverArea) :
    scanRounds (contentsOf first (operations ++ [.check mode reads]))
        (modesOf (operations ++ [.check mode reads])) areas (rounds operations).length =
      scanRounds (contentsOf first operations) (modesOf operations) areas
        (rounds operations).length := by
  apply scanRounds_congr
  · intro j bound
    rw [contentsOf_check first operations mode reads j (by omega), if_neg (by omega)]
  · intro j small
    rw [modesOf_check operations mode reads j (by omega), if_neg (by omega)]

end Round

/-- An operation that is no round changes neither what is read nor the modes. -/
theorem unrounded {operations : List Operation} {operation : Operation}
    (same : rounds (operations ++ [operation]) = rounds operations) (first : Nat → AreaRead) :
    contentsOf first (operations ++ [operation]) = contentsOf first operations ∧
      modesOf (operations ++ [operation]) = modesOf operations := by
  constructor
  · funext round
    cases round with
    | zero => rfl
    | succ round => rw [contentsOf, same, contentsOf]
  · funext round
    rw [modesOf, same, modesOf]

/-- Operations run the rounds among them. -/
theorem runMemChecking_eq (first : Nat → AreaRead) (areas : List ObserverArea)
    (operations : List Operation) :
    runMemChecking first areas operations =
      scanRounds (contentsOf first operations) (modesOf operations) areas
        (rounds operations).length := by
  induction operations using List.reverseRecOn with
  | nil => rfl
  | append_singleton operations operation ih =>
    have quiet (same : rounds (operations ++ [operation]) = rounds operations)
        (idle : (fun scanner : Scanner => scanner.operate operation) = some) :
        runMemChecking first areas (operations ++ [operation]) =
          scanRounds (contentsOf first (operations ++ [operation]))
            (modesOf (operations ++ [operation])) areas
            (rounds (operations ++ [operation])).length := by
      obtain ⟨contents, modes⟩ := unrounded same first
      rw [runMemChecking_append, idle, contents, modes, same, ← ih, Option.bind_fun_some]
    cases operation with
    | write writeAddress writeValue => exact quiet (by simp [rounds]) rfl
    | restore => exact quiet (by simp [rounds]) rfl
    | observe => exact quiet (by simp [rounds]) rfl
    | check mode reads =>
      have length : (rounds (operations ++ [.check mode reads])).length =
          (rounds operations).length + 1 := by
        rw [rounds_check, List.length_append, List.length_singleton]
      rw [runMemChecking_append, length, scanRounds, scanRounds_check, ← ih,
        contentsOf_check first operations mode reads _ (Nat.le_refl _),
        modesOf_check operations mode reads _ (Nat.le_refl _), if_pos rfl, if_pos rfl]
      rfl

/-- A walk over the table visits what the table holds, unless there is more. -/
theorem each_eq {hits : Hits} {kept : List Hit} (index : hits.index = kept.length)
    (cells : ∀ k < min kept.length 300, kept[k]? = some (hits.cell k)) (body : Hit → Access) :
    hits.each body = if kept.length ≤ 300 then kept.map body else [] := by
  unfold Hits.each
  rw [index]
  by_cases room : kept.length ≤ 300
  · have held : (List.range kept.length).map hits.cell = kept := by
      apply List.ext_getElem?
      intro k
      rw [List.getElem?_map]
      by_cases inside : k < kept.length
      · rw [List.getElem?_range inside, cells k (by omega), Option.map_some]
      · rw [List.getElem?_eq_none (by simpa using inside), List.getElem?_eq_none (by omega),
          Option.map_none]
    have open_ : ¬maxHitPrint < (kept.length : Int) := by
      unfold maxHitPrint
      omega
    rw [if_neg open_, if_pos room, Int.toNat_natCast]
    calc
      (List.range kept.length).map (fun i => body (hits.cell i)) =
          ((List.range kept.length).map hits.cell).map body := (List.map_map).symm
      _ = kept.map body := by rw [held]
  · have refused : maxHitPrint < (kept.length : Int) := by
      unfold maxHitPrint
      omega
    rw [if_pos refused, if_neg room]

/-- **The table of hits is faithful, and a restore uses exactly it.** After any operations, over
fewer than `2 ^ 31` words, the scanner has counted the surviving words of the last round, and the
table holds the first 300 of them in order, each with its address, its value at the previous read
and its value at this one. A restore writes the previous value of each surviving word at its
address, in order, and an observation reads the same addresses, when there are at most 300; both
touch nothing when there are more, and before the first round. -/
theorem table_faithful (first : Nat → AreaRead) (areas : List ObserverArea)
    (operations : List Operation) (few : (areas.map ObserverArea.words).sum < 2 ^ 31) :
    ∃ scanner, runMemChecking first areas operations = some scanner ∧
      let kept := survivors (contentsOf first operations) (modesOf operations) areas
        (rounds operations).length
      scanner.hits.index = kept.length ∧
      (∀ k < min kept.length 300, kept[k]? = some (scanner.hits.cell k)) ∧
      restoreMemory scanner.hits =
        (if kept.length ≤ 300 then kept.map fun hit => .write hit.addr hit.orig else []) ∧
      observeMemory scanner.hits =
        (if kept.length ≤ 300 then kept.map fun hit => .read hit.addr else []) ∧
      (rounds operations = [] →
        restoreMemory scanner.hits = [] ∧ observeMemory scanner.hits = []) := by
  obtain ⟨scanner, run, settled, labels, table, hits⟩ :=
    scanRounds_spec areas (rounds operations).length
  refine ⟨scanner, (runMemChecking_eq first areas operations).trans run, ?_⟩
  intro kept
  have recorded : scanner.hits = recordAll ⟨0, table⟩ kept := by
    rw [hits, saved_eq settled labels]
  have bound : kept.length < 2 ^ 31 := Nat.lt_of_le_of_lt (survivors_length areas _) few
  have count : scanner.hits.count = kept.length := by
    rw [recorded, recordAll_count]
    exact Nat.zero_add _
  have index : scanner.hits.index = kept.length := by
    rw [index_eq (by omega), count]
  have cells : ∀ k < min kept.length 300, kept[k]? = some (scanner.hits.cell k) := by
    intro k inside
    have first : (⟨0, table⟩ : Hits).count + kept.length < 2 ^ 31 := by
      rw [Nat.zero_add]
      exact bound
    have entry := recordAll_table first k
    rw [if_pos ⟨Nat.zero_le k, by rwa [Nat.zero_add]⟩, Nat.sub_zero] at entry
    have inRange : k < kept.length := by omega
    rw [Hits.cell, recorded, entry, List.getElem?_eq_getElem inRange, Option.getD_some]
  refine ⟨index, cells, each_eq index cells _, each_eq index cells _, ?_⟩
  intro unrounded
  have none : kept = [] := by
    have zero : (rounds operations).length = 0 := by rw [unrounded, List.length_nil]
    exact if_pos zero
  have untouched (body : Hit → Access) : scanner.hits.each body = [] := by
    rw [each_eq index cells body, none]
    rfl
  exact ⟨untouched _, untouched _⟩

/-- A heap of two words, a stack of one, and an area that cannot be read. -/
def threeAreas : List ObserverArea :=
  [.unread 0x1000 16 "heap", .unread 0x3000 8 "stack", .unread 0x5000 8 "device"]

/-- The first word of each area is this one and the others are 7; the third area is not read. -/
def reading (value : Word) : Nat → AreaRead :=
  fun place => ⟨place != 2, fun i => if i = 0 then value else 7⟩

/-- Of two words that changed from 1 to 2, one that did not and one that was not read, the first two
are restored to 1. -/
theorem table_once :
    ∃ scanner, runMemChecking (reading 1) threeAreas [.check .changed (reading 2)] =
        some scanner ∧
      restoreMemory scanner.hits = [.write 0x1000 1, .write 0x3000 1] := by
  have few : (threeAreas.map ObserverArea.words).sum < 2 ^ 31 := by decide
  obtain ⟨scanner, run, -, -, restored, -⟩ :=
    table_faithful (reading 1) threeAreas [.check .changed (reading 2)] few
  have kept : survivors (contentsOf (reading 1) [.check .changed (reading 2)])
      (modesOf [.check .changed (reading 2)]) threeAreas 1 =
        [⟨0x1000, 1, 2, "heap"⟩, ⟨0x3000, 1, 2, "stack"⟩] := by
    decide
  refine ⟨scanner, run, ?_⟩
  rw [restored]
  change (if (survivors _ _ _ 1).length ≤ 300 then (survivors _ _ _ 1).map _ else []) = _
  rw [kept]
  rfl

end A64dbg.HitTable
