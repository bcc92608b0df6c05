import Mathlib

/-!
# Pages and their protections

A request for a protection names a first address and a length. The first address is a multiple
of the page size and the length is rounded up to whole pages, so a request covers a page whole
or not at all. `protect_page_iff` says what a request leaves of a page whose protection was good.
Addresses are numbers: a request that would wrap around an address space is none here.
-/

namespace Pages

variable {π : Type*} {bytes start len : Nat}

/-- A length rounded up to whole pages. -/
def roundUp (bytes len : Nat) : Nat := (len + bytes - 1) / bytes * bytes

/-- The rounded range of a request contains an address. -/
def Covers (bytes start len addr : Nat) : Prop :=
  start ≤ addr ∧ addr < start + roundUp bytes len

instance (bytes start len addr : Nat) : Decidable (Covers bytes start len addr) :=
  inferInstanceAs (Decidable (_ ∧ _))

/-- Give the rounded range of a request a protection. -/
def protect (bytes : Nat) (protections : Nat → π) (start len : Nat) (protection : π) : Nat → π :=
  fun addr => if Covers bytes start len addr then protection else protections addr

/-- The page of an address has only good protections. -/
def PageIs (bytes : Nat) (good : π → Prop) (protections : Nat → π) (page : Nat) : Prop :=
  ∀ addr, addr / bytes = page / bytes → good (protections addr)

/-- Rounding up is to a multiple of the page size. -/
theorem dvd_roundUp (bytes len : Nat) : bytes ∣ roundUp bytes len := Nat.dvd_mul_left _ _

/-- Rounding up keeps the length inside. -/
theorem le_roundUp (positive : 0 < bytes) (len : Nat) : len ≤ roundUp bytes len := by
  have quotient := Nat.lt_div_mul_add positive (a := len + bytes - 1)
  unfold roundUp
  omega

/-- Addresses of one page are covered alike. -/
theorem covers_page (positive : 0 < bytes) (aligned : bytes ∣ start) {left right : Nat}
    (same : left / bytes = right / bytes) :
    Covers bytes start len left ↔ Covers bytes start len right := by
  obtain ⟨first, rfl⟩ := aligned
  obtain ⟨count, rounded⟩ := dvd_roundUp bytes len
  have byPage (addr : Nat) :
      Covers bytes (bytes * first) len addr ↔
        first ≤ addr / bytes ∧ addr / bytes < first + count := by
    unfold Covers
    rw [rounded, ← Nat.mul_add, Nat.le_div_iff_mul_le positive, Nat.div_lt_iff_lt_mul positive,
      Nat.mul_comm bytes first, Nat.mul_comm bytes (first + count)]
  rw [byPage, byPage, same]

/-- A request that is not empty covers its first page. -/
theorem covers_start (positive : 0 < bytes) (nonempty : 0 < len) :
    Covers bytes start len start := by
  have rounded := le_roundUp positive len
  exact ⟨le_refl start, by omega⟩

/-- **What a request leaves of a page.** A page that was good is good after a request exactly
when the request does not cover it or asks for a good protection. -/
theorem protect_page_iff {good : π → Prop} {protections : Nat → π} {protection : π} {page : Nat}
    (positive : 0 < bytes) (aligned : bytes ∣ start) (was : PageIs bytes good protections page) :
    PageIs bytes good (protect bytes protections start len protection) page ↔
      (Covers bytes start len page → good protection) := by
  unfold PageIs protect
  constructor
  · intro kept covered
    have here := kept page rfl
    rwa [if_pos covered] at here
  · intro spared addr same
    by_cases covered : Covers bytes start len addr
    · rw [if_pos covered]
      exact spared ((covers_page positive aligned same).mp covered)
    · rw [if_neg covered]
      exact was addr same

/-- A request gives its first page its protection. -/
theorem protect_start {good : π → Prop} {protection : π} (protections : Nat → π)
    (positive : 0 < bytes) (aligned : bytes ∣ start) (nonempty : 0 < len) (fit : good protection) :
    PageIs bytes good (protect bytes protections start len protection) start := by
  intro addr same
  have covered := (covers_page positive aligned same).mpr (covers_start positive nonempty)
  unfold protect
  rwa [if_pos covered]

end Pages
