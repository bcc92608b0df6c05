import Mathlib

/-!
# Chains of nodes in a heap

A heap holds nodes at addresses, and a node has a value and the address of the next one. A chain
is what is met on the way from one link to another: the addresses and values in order. A chain that
ends with the null pointer is the only one from its start, so it meets no node twice, and a node
that points to itself begins none. Writes at other addresses leave a chain, and `chain_extend` says
how a node is put behind the last one.
-/

namespace Chains

/-- A node. -/
structure Node (α : Type*) where
  /-- Its value. -/
  value : α
  /-- The address of the next node, or none for the null pointer. -/
  next : Option Nat
deriving DecidableEq

/-- A heap; nothing is allocated at the other addresses. -/
abbrev Heap (α : Type*) := Nat → Option (Node α)

variable {α : Type*}

/-- The nodes met from one link to another, each with its address and its value. -/
def Chain (heap : Heap α) : Option Nat → List (Nat × α) → Option Nat → Prop
  | start, [], finish => start = finish
  | start, (place, value) :: rest, finish =>
    start = some place ∧ ∃ next, heap place = some ⟨value, next⟩ ∧ Chain heap next rest finish

/-- Write the link of a node. -/
def link (heap : Heap α) (place : Nat) (next : Option Nat) : Option (Heap α) :=
  (heap place).map fun node => Function.update heap place (some { node with next := next })

variable {heap other : Heap α} {start middle finish : Option Nat} {entries : List (Nat × α)}
  {place : Nat} {value : α}

/-- A chain of no nodes goes nowhere. -/
@[simp]
theorem chain_nil : Chain heap start [] finish ↔ start = finish := Iff.rfl

/-- A chain in two parts meets at some link. -/
theorem chain_append {first second : List (Nat × α)} :
    Chain heap start (first ++ second) finish ↔
      ∃ middle, Chain heap start first middle ∧ Chain heap middle second finish := by
  induction first generalizing start with
  | nil => simp
  | cons entry rest ih =>
    obtain ⟨place, value⟩ := entry
    simp only [List.cons_append, Chain, ih]
    constructor
    · rintro ⟨here, next, node, middle, left, right⟩
      exact ⟨middle, ⟨here, next, node, left⟩, right⟩
    · rintro ⟨middle, ⟨here, next, node, left⟩, right⟩
      exact ⟨here, next, node, middle, left, right⟩

/-- A chain does not depend on what is at other addresses. -/
theorem chain_congr (same : ∀ entry ∈ entries, other entry.1 = heap entry.1)
    (chain : Chain heap start entries finish) : Chain other start entries finish := by
  induction entries generalizing start with
  | nil => exact chain
  | cons entry rest ih =>
    obtain ⟨place, value⟩ := entry
    obtain ⟨here, next, node, later⟩ := chain
    have kept : other place = heap place := same (place, value) List.mem_cons_self
    have rest_same : ∀ entry ∈ rest, other entry.1 = heap entry.1 :=
      fun entry inside => same entry (List.mem_cons_of_mem _ inside)
    exact ⟨here, next, by rw [kept, node], ih rest_same later⟩

/-- A write at another address leaves a chain. -/
theorem chain_update (apart : place ∉ entries.map Prod.fst) (node : Option (Node α))
    (chain : Chain heap start entries finish) :
    Chain (Function.update heap place node) start entries finish := by
  apply chain_congr _ chain
  intro entry inside
  have differ : entry.1 ≠ place := by
    rintro rfl
    exact apart (List.mem_map_of_mem inside)
  exact Function.update_of_ne differ _ _

/-- The nodes of a chain are allocated. -/
theorem Chain.allocated (chain : Chain heap start entries finish) :
    ∀ entry ∈ entries, ∃ next, heap entry.1 = some ⟨entry.2, next⟩ := by
  induction entries generalizing start with
  | nil => simp
  | cons entry rest ih =>
    obtain ⟨here, next, node, later⟩ := chain
    rw [List.forall_mem_cons]
    exact ⟨⟨next, node⟩, ih later⟩

/-- From a link there is one list only. -/
theorem chain_unique {entries' : List (Nat × α)} (chain : Chain heap start entries none)
    (chain' : Chain heap start entries' none) : entries = entries' := by
  induction entries generalizing start entries' with
  | nil =>
    cases entries' with
    | nil => rfl
    | cons entry rest =>
      have null : start = none := chain
      have place : start = some entry.1 := chain'.1
      simp [null] at place
  | cons entry rest ih =>
    obtain ⟨here, next, node, later⟩ := chain
    cases entries' with
    | nil =>
      have null : start = none := chain'
      simp [null] at here
    | cons entry' rest' =>
      obtain ⟨here', next', node', later'⟩ := chain'
      have place : entry.1 = entry'.1 := by
        rw [here, Option.some.injEq] at here'
        exact here'
      rw [place, node', Option.some.injEq, Node.mk.injEq] at node
      have first : entry = entry' := Prod.ext place node.1.symm
      have links : next = next' := node.2.symm
      rw [links] at later
      rw [first, ih later later']

/-- A list meets no node twice. -/
theorem chain_nodup (chain : Chain heap start entries none) : (entries.map Prod.fst).Nodup := by
  induction entries generalizing start with
  | nil => simp
  | cons entry rest ih =>
    have whole := chain
    obtain ⟨here, next, node, later⟩ := chain
    rw [List.map_cons, List.nodup_cons]
    refine ⟨fun again => ?_, ih later⟩
    -- The part of the list from the second meeting on would be the whole list.
    obtain ⟨second, inside, same⟩ := List.mem_map.mp again
    obtain ⟨before, behind, split⟩ := List.append_of_mem inside
    rw [split, chain_append] at later
    obtain ⟨middle, -, suffix⟩ := later
    have reached : middle = start := by rw [suffix.1, here, same]
    rw [reached] at suffix
    have equal := congrArg List.length (chain_unique whole suffix)
    simp only [split, List.length_cons, List.length_append] at equal
    omega

/-- A node that points to itself begins no list. -/
theorem not_chain_of_loop (loop : heap place = some ⟨value, some place⟩) :
    ¬Chain heap (some place) entries none := by
  induction entries with
  | nil => simp
  | cons entry rest ih =>
    rintro ⟨here, next, node, later⟩
    have same : place = entry.1 := Option.some.inj here
    rw [← same, loop, Option.some.injEq, Node.mk.injEq] at node
    rw [← node.2] at later
    exact ih later

/-- A new node is put behind the one a chain leads to. -/
theorem chain_extend {last new : Nat} {next : Option Nat} (newValue : α)
    (chain : Chain heap start entries (some last)) (node : heap last = some ⟨value, next⟩)
    (lastApart : last ∉ entries.map Prod.fst) (newApart : new ∉ entries.map Prod.fst)
    (differ : last ≠ new) :
    ∃ heap', link (Function.update heap new (some ⟨newValue, none⟩)) last (some new) =
        some heap' ∧
      Chain heap' start (entries ++ [(last, value)]) (some new) ∧
      heap' new = some ⟨newValue, none⟩ ∧
      ∀ address, address ≠ last → address ≠ new → heap' address = heap address := by
  have there : Function.update heap new (some ⟨newValue, none⟩) last = some ⟨value, next⟩ := by
    rw [Function.update_of_ne differ, node]
  refine ⟨_, by rw [link, there, Option.map_some], ?_, ?_, ?_⟩
  · have front := chain_update lastApart (some ⟨value, some new⟩)
      (chain_update newApart (some ⟨newValue, none⟩) chain)
    rw [chain_append]
    refine ⟨some last, front, rfl, some new, ?_, rfl⟩
    rw [Function.update_self]
  · rw [Function.update_of_ne differ.symm, Function.update_self]
  · intro address notLast notNew
    rw [Function.update_of_ne notLast, Function.update_of_ne notNew]

end Chains
