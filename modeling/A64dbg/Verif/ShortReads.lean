import A64dbg.Dump

/-!
# What a short read shows

`readTraceeMemory` prints all of the storage it allocated, whatever `readProcMemory` returns. So
after a short read the text depends on what the storage held before. `independent_iff` says exactly
when it does not: when nothing is printed from storage, or the read stored every byte of the words
that are printed.
-/

namespace A64dbg.ShortReads

open ByteMemory

/-- The text does not depend on what fresh storage holds. -/
def Independent (host : Host) (memory : Memory) (read : MemRead) (args : List Text) : Prop :=
  ∀ fresh fresh' : Int → BitVec 8, Output.readTraceeMemory host fresh memory read args =
    Output.readTraceeMemory host fresh' memory read args

/-- The read stored every byte of the words that are printed, if any are. -/
def Covered (host : Host) (read : MemRead) (args : List Text) : Prop :=
  ∀ addrText sizeText rAddr rSize, args = [addrText, sizeText] →
    stringToU64 addrText = some rAddr → stringToU64 sizeText = some rSize →
    allocates host rSize = true → 4 * printed rSize ≤ read.stored

/-- The words that are printed. -/
def words (memory : Memory) (read : MemRead) (rAddr rSize : Word) (fresh : Int → BitVec 8) :
    List Nat :=
  (List.range (printed rSize)).map fun j : Nat =>
    (dword (storageAfter fresh memory rAddr read) j).toNat

section Words

variable {memory : Memory} {read : MemRead} {rAddr rSize : Word}

/-- Two texts are the same when the words printed are. -/
theorem dump_words (bounded : rSize.toNat ≤ 2 ^ 64 - 2 ^ 31) (fresh fresh' : Int → BitVec 8) :
    dump (fun i => hex 8 (dword (storageAfter fresh memory rAddr read) i).toNat ++ [' ']) rAddr
        rSize =
      dump (fun i => hex 8 (dword (storageAfter fresh' memory rAddr read) i).toNat ++ [' ']) rAddr
        rSize ↔
    words memory read rAddr rSize fresh = words memory read rAddr rSize fresh' := by
  constructor
  · intro same
    have rows := congrArg shown same
    rw [shown_dump bounded 8 fun i => (dword (storageAfter fresh memory rAddr read) i).toNat,
      shown_dump bounded 8 fun i => (dword (storageAfter fresh' memory rAddr read) i).toNat] at rows
    have flat := congrArg (List.flatMap Prod.snd) rows
    rwa [dumpRows_numbers, dumpRows_numbers] at flat
  · intro same
    unfold words at same
    rw [dump_table bounded 8 fun i => (dword (storageAfter fresh memory rAddr read) i).toNat,
      dump_table bounded 8 fun i => (dword (storageAfter fresh' memory rAddr read) i).toNat, same]

/-- A byte of a word behind the bytes stored is that of the fresh storage. -/
theorem dword_fresh {j : Nat} (behind : read.stored ≤ 4 * j + 3) (fresh : Int → BitVec 8) :
    byteOf (dword (storageAfter fresh memory rAddr read) j) 3 = fresh (4 * j + 3) := by
  have outside : ¬(0 ≤ 4 * (j : Int) + (3 : Nat) ∧ 4 * (j : Int) + (3 : Nat) < read.stored) := by
    omega
  rw [byteOf_dword _ _ (by decide), storageAfter, if_neg outside]
  rfl

/-- A word whose bytes are all stored does not depend on fresh storage. -/
theorem dword_covered {j : Nat} (covered : 4 * j + 4 ≤ read.stored)
    (fresh fresh' : Int → BitVec 8) :
    dword (storageAfter fresh memory rAddr read) j =
      dword (storageAfter fresh' memory rAddr read) j := by
  refine @word_ext 4 _ _ fun index small => ?_
  have stored : 0 ≤ 4 * (j : Int) + index ∧ 4 * (j : Int) + index < read.stored := by omega
  rw [byteOf_dword _ _ small, byteOf_dword _ _ small, storageAfter, storageAfter, if_pos stored,
    if_pos stored]

/-- The words do not depend on fresh storage exactly when the read stored all of them. -/
theorem words_independent :
    (∀ fresh fresh', words memory read rAddr rSize fresh = words memory read rAddr rSize fresh') ↔
      4 * printed rSize ≤ read.stored := by
  constructor
  · intro same
    by_contra short
    -- The last byte printed is one of fresh storage.
    obtain ⟨last, count⟩ : ∃ last, printed rSize = last + 1 := ⟨printed rSize - 1, by omega⟩
    have word := List.map_inj_left.mp (same (fun _ => 0) fun _ => 1) last
      (List.mem_range.mpr (by omega))
    have byte := congrArg (fun word => byteOf word 3) (BitVec.eq_of_toNat_eq word)
    simp only [dword_fresh (by omega : read.stored ≤ 4 * last + 3)]
      at byte
    exact absurd byte (by decide)
  · intro covered fresh fresh'
    apply List.map_congr_left
    intro j inside
    rw [List.mem_range] at inside
    rw [dword_covered (by omega) fresh fresh']

end Words

section Parsed

variable {host : Host} {addrText sizeText : Text} {rAddr rSize : Word}

/-- Where words are printed, the text does not depend on fresh storage exactly when the read stored
all of them. -/
theorem independent_parsed (addr : stringToU64 addrText = some rAddr)
    (size : stringToU64 sizeText = some rSize) (allocated : allocates host rSize = true)
    (memory : Memory) (read : MemRead) :
    Independent host memory read [addrText, sizeText] ↔ 4 * printed rSize ≤ read.stored := by
  have bounded : rSize.toNat ≤ 2 ^ 64 - 2 ^ 31 := by
    rw [allocates, Bool.and_eq_true, decide_eq_true_eq] at allocated
    omega
  have prints := Output.readTraceeMemory_prints addr size allocated
  rw [← @words_independent memory read rAddr rSize]
  unfold Independent
  refine forall_congr' fun fresh => forall_congr' fun fresh' => ?_
  rw [prints, prints, Option.some.injEq, List.append_cancel_left_eq, dump_words bounded]

end Parsed

/-- **When a memory dump shows nothing else.** For all arguments, every memory and every result of
the read, what `readTraceeMemory` prints does not depend on what the fresh storage holds exactly
when the read stored all the words that are printed. -/
theorem independent_iff (host : Host) (memory : Memory) (read : MemRead) (args : List Text) :
    Independent host memory read args ↔ Covered host read args := by
  constructor
  · rintro independent addrText sizeText rAddr rSize rfl addr size allocated
    exact (independent_parsed addr size allocated memory read).mp independent
  · intro covered
    match args with
    | [addrText, sizeText] =>
      cases addr : stringToU64 addrText with
      | none =>
        intro fresh fresh'
        simp only [Output.readTraceeMemory, addr, Option.bind_none]
      | some rAddr =>
        cases size : stringToU64 sizeText with
        | none =>
          intro fresh fresh'
          simp only [Output.readTraceeMemory, addr, size, Option.bind_some, Option.bind_none]
        | some rSize =>
          cases allocated : allocates host rSize with
          | false =>
            intro fresh fresh'
            simp [Output.readTraceeMemory, addr, size, allocated]
          | true =>
            exact (independent_parsed addr size allocated memory read).mpr
              (covered _ _ _ _ rfl addr size allocated)
    | [] | [_] | _ :: _ :: _ :: _ => exact fun _ _ => rfl

/-- `readm 0x10 1` prints a word of the fresh storage when the read fails. -/
theorem failed_read :
    ¬Independent ⟨fun _ => none, fun size => size == 1⟩ (fun _ => none) .failed
      [['0', 'x', '1', '0'], ['1']] := by
  have addr : stringToU64 ['0', 'x', '1', '0'] = some 16 := by decide
  have size : stringToU64 ['1'] = some 1 := by decide
  rw [independent_parsed addr size (by decide)]
  decide

end A64dbg.ShortReads
