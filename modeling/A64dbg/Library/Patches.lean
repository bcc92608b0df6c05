import A64dbg.Library.ByteMemory

/-!
# Memories patched at a set of sites

`Patched` says that a memory is an original memory with one fixed word written at each site of
a set. Only the bytes of a region are described, so that others may change freely. Where the
words at two sites share no address, a patch may be put on or taken off in any order:
`Patched.set` and `Patched.restore` follow a single write, and `Patched.eq_original` says that a
memory without patches is the original.
-/

namespace ByteMemory

variable {width count : Nat}

/-- The words of `count` bytes at two bases share no address. -/
def Apart (count : Nat) (left right : BitVec width) : Prop :=
  ∀ address, count ≤ offset left address ∨ count ≤ offset right address

/-- Inside the region, the memory is the original with a word at each site. -/
structure Patched (region : BitVec width → Prop) (original : Memory width)
    (sites : BitVec width → Prop) (count : Nat) (word : BitVec (8 * count))
    (memory : Memory width) : Prop where
  /-- Each site holds the word. -/
  patched : ∀ site, sites site → ∀ index < count, region (above site index) →
    memory (above site index) = some (byteOf word index)
  /-- Every other byte is original. -/
  elsewhere : ∀ address, region address → (∀ site, sites site → count ≤ offset site address) →
    memory address = original address

variable {region sites : BitVec width → Prop} {original memory : Memory width}
  {word : BitVec (8 * count)}

/-- An original memory is patched nowhere. -/
theorem patched_start (region : BitVec width → Prop) (memory : Memory width)
    (absent : ∀ site, ¬sites site) : Patched region memory sites count word memory :=
  ⟨fun site inside => absurd inside (absent site), fun _ _ _ => rfl⟩

/-- A memory patched nowhere is the original. -/
theorem Patched.eq_original (patched : Patched region original sites count word memory)
    (absent : ∀ site, ¬sites site) {address : BitVec width} (inside : region address) :
    memory address = original address :=
  patched.elsewhere address inside fun site member => absurd member (absent site)

/-- Only the region and the sites matter. -/
theorem Patched.congr {other : Memory width} {others : BitVec width → Prop}
    (patched : Patched region original sites count word memory)
    (same : ∀ address, region address → other address = memory address)
    (sameSites : ∀ site, others site ↔ sites site) :
    Patched region original others count word other := by
  refine ⟨fun site member index small inside => ?_, fun address inside outside => ?_⟩
  · rw [same _ inside, patched.patched site ((sameSites site).mp member) index small inside]
  · rw [same _ inside]
    exact patched.elsewhere address inside fun site member =>
      outside site ((sameSites site).mpr member)

/-- Writing the word at a site apart from the others patches it. -/
theorem Patched.set {others : BitVec width → Prop} {site : BitVec width}
    (patched : Patched region original sites count word memory) (fits : count ≤ 2 ^ width)
    (apart : ∀ other, sites other → other ≠ site → Apart count other site)
    (sameSites : ∀ other, others other ↔ other = site ∨ sites other) :
    Patched region original others count word (store memory site count word) := by
  refine ⟨fun other member index small inside => ?_, fun address inside outside => ?_⟩
  · by_cases here : other = site
    · rw [here]
      exact store_at memory site word small fits
    · have old := ((sameSites other).mp member).resolve_left here
      rw [store_apart _ _ _ ((apart other old here _).resolve_left ?_)]
      · exact patched.patched other old index small inside
      · rw [offset_above other index (by omega)]
        omega
  · rw [store_apart _ _ _ (outside site ((sameSites site).mpr (.inl rfl)))]
    exact patched.elsewhere address inside fun other old =>
      outside other ((sameSites other).mpr (.inr old))

/-- Writing the original word at a site apart from the others takes its patch off. -/
theorem Patched.restore {others : BitVec width → Prop} {site : BitVec width}
    {data : BitVec (8 * count)} (patched : Patched region original sites count word memory)
    (fits : count ≤ 2 ^ width)
    (apart : ∀ other, sites other → other ≠ site → Apart count other site)
    (saved : ∀ index < count, region (above site index) →
      original (above site index) = some (byteOf data index))
    (sameSites : ∀ other, others other ↔ other ≠ site ∧ sites other) :
    Patched region original others count word (store memory site count data) := by
  refine ⟨fun other member index small inside => ?_, fun address inside outside => ?_⟩
  · obtain ⟨elsewhere, old⟩ := (sameSites other).mp member
    rw [store_apart _ _ _ ((apart other old elsewhere _).resolve_left ?_)]
    · exact patched.patched other old index small inside
    · rw [offset_above other index (by omega)]
      omega
  · by_cases hit : offset site address < count
    · have place := (above_offset site address).symm
      rw [place] at inside ⊢
      rw [store_at memory site data hit fits, saved _ hit inside]
    · rw [store_apart _ _ _ (by omega)]
      refine patched.elsewhere address inside fun other old => ?_
      by_cases here : other = site
      · rw [here]
        omega
      · exact outside other ((sameSites other).mpr ⟨here, old⟩)

end ByteMemory
