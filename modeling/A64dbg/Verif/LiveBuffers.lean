import A64dbg.Verif.Scan

/-!
# The life of the scan buffers

An area becomes invalid when its first read fails, when a later read fails, or when a round leaves
it no word, and only then are its buffers released; every loop goes by the flag alone. An access to
a buffer that is not allocated or beyond its end fails, and so does the release of one that is not
allocated. `buffers_alive` says that no round fails, whatever the lengths of the areas and whichever
reads fail, and that an area that is invalid is left as it is from then on.
-/

namespace A64dbg.LiveBuffers

open Scan

/-- The buffers of an area that is valid are allocated, `mem_ptr` with entries of eight bytes
inside the bytes of the area and `cmp_ptr` with one entry for each. -/
structure Alive (area : ObserverArea) : Prop where
  /-- `mem_ptr` is allocated. -/
  memLive : area.memPtr.live = true
  /-- Its entries are inside its bytes. -/
  memSize : 8 * area.memPtr.size ≤ area.length.toNat
  /-- `cmp_ptr` is allocated. -/
  cmpLive : area.cmpPtr.live = true
  /-- It has its entries. -/
  cmpSize : area.cmpPtr.size = area.length.toNat / 8

/-- An area that was invalid is as it was, its buffers included. -/
def Left (before after : ObserverArea) : Prop := before.invalid = true → after = before

/-- The scan of a round leaves an invalid area. -/
theorem scanAreas_left {mode : Mode} {reads : Nat → AreaRead} {place : Nat} {hits hits' : Hits}
    {areas areas' : List ObserverArea}
    (scan : scanAreas mode reads place hits areas = some (hits', areas')) :
    List.Forall₂ Left areas areas' := by
  induction areas generalizing place hits areas' with
  | nil =>
    cases scan
    exact .nil
  | cons area rest ih =>
    obtain ⟨middle, area', rest', here, later, same⟩ := scanAreas_cons scan
    rw [same]
    apply List.Forall₂.cons
    · intro invalid
      rw [scanArea, if_pos invalid] at here
      cases here
      rfl
    · exact ih later

/-- The release leaves every invalid area as it was. -/
theorem invalidateMemory_left {areas areas' : List ObserverArea}
    (release : invalidateMemory areas = some areas') : List.Forall₂ Left areas areas' := by
  unfold invalidateMemory at release
  induction areas generalizing areas' with
  | nil =>
    cases release
    exact .nil
  | cons area rest ih =>
    rw [List.mapM_cons] at release
    obtain ⟨area', here, release⟩ := Option.bind_eq_some_iff.mp release
    obtain ⟨rest', later, same⟩ := Option.bind_eq_some_iff.mp release
    cases same
    apply List.Forall₂.cons
    · intro invalid
      rw [invalidateArea, if_pos invalid] at here
      cases here
      rfl
    · exact ih later

/-- What two rounds in turn leave is left by both together. -/
theorem left_trans {before middle after : List ObserverArea}
    (first : List.Forall₂ Left before middle) (second : List.Forall₂ Left middle after) :
    List.Forall₂ Left before after := by
  induction first generalizing after with
  | nil => exact second
  | cons here rest ih =>
    cases second with
    | cons next others =>
      apply List.Forall₂.cons
      · intro invalid
        have same := here invalid
        rw [same] at next
        exact next invalid
      · exact ih others

/-- A round leaves the invalid areas. -/
theorem checkForChanges_left {mode : Mode} {reads : Nat → AreaRead} {scanner scanner' : Scanner}
    (check : checkForChanges mode reads scanner = some scanner') :
    List.Forall₂ Left scanner.obsList scanner'.obsList := by
  obtain ⟨areas, scan, release⟩ := checkForChanges_cases check
  exact left_trans (scanAreas_left scan) (invalidateMemory_left release)

section Rounds

variable {contents : Nat → Nat → AreaRead} {modes : Nat → Mode}

/-- The valid areas of a scanner that is settled have their buffers. -/
theorem settled_alive {rounds : Nat} {observed : List (ObserverArea × Nat)}
    {areas : List ObserverArea}
    (settled : List.Forall₂ (Settled contents modes rounds) observed areas) :
    ∀ area ∈ areas, area.invalid = false → Alive area := by
  induction settled with
  | nil => exact fun area inside => (nomatch inside)
  | cons here rest ih =>
    rw [List.forall_mem_cons]
    constructor
    · intro valid
      have buffers := here.represents valid
      constructor
      · exact buffers.memLive
      · rw [buffers.memSize, ObserverArea.words]
        omega
      · exact buffers.cmpLive
      · exact buffers.cmpSize
    · exact ih

/-- Further rounds leave the areas that are invalid. -/
theorem scanRounds_left {areas : List ObserverArea} {rounds : Nat} {scanner : Scanner}
    (run : scanRounds contents modes areas rounds = some scanner) (more : Nat) :
    ∃ later, scanRounds contents modes areas (rounds + more) = some later ∧
      List.Forall₂ Left scanner.obsList later.obsList := by
  induction more with
  | zero => exact ⟨scanner, run, List.forall₂_same.mpr fun _ _ _ => rfl⟩
  | succ more ih =>
    obtain ⟨middle, before, left⟩ := ih
    obtain ⟨later, after, -⟩ := @scanRounds_spec contents modes areas (rounds + (more + 1))
    have check := scanRounds_next before after
    exact ⟨later, after, left_trans left (checkForChanges_left check)⟩

end Rounds

/-- **Buffers are used only while they are alive.** For any areas, any modes and any reads that may
fail, no round uses a buffer that is not allocated or beyond its end, or releases one twice; the
areas that are valid have their buffers, and one that is invalid is left, with its buffers, as it
is by all further rounds. -/
theorem buffers_alive (contents : Nat → Nat → AreaRead) (modes : Nat → Mode)
    (areas : List ObserverArea) (rounds : Nat) :
    ∃ scanner, scanRounds contents modes areas rounds = some scanner ∧
      (∀ area ∈ scanner.obsList, area.invalid = false → Alive area) ∧
      ∀ more, ∃ later, scanRounds contents modes areas (rounds + more) = some later ∧
        List.Forall₂ Left scanner.obsList later.obsList := by
  obtain ⟨scanner, run, settled, -⟩ := scanRounds_spec areas rounds
  exact ⟨scanner, run, settled_alive settled, scanRounds_left run⟩

end A64dbg.LiveBuffers
