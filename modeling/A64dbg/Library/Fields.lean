import Mathlib

/-!
# Fields between separators

The fields of a text are its longest runs without a separator, in order; separators at either
end and repeated ones separate nothing. `fields_skip` and `fields_run` read them off from the
front: separators are skipped, and the run up to the next separator is the first field, and
`fields_rec` is the induction along these two. `fields_flatten` and `same_field_iff` say that the
fields hold the letters that are no separators, in order, and when two of them share a field;
`fields_pieces` that joined words come back. `initial_iff` says when a word without separators
begins a text.
-/

namespace Fields

variable {α : Type*} {separates : α → Bool}

/-- The longest runs of a text without a separator, in order. -/
def fields (separates : α → Bool) (text : List α) : List (List α) :=
  (text.splitOnP separates).filter fun field => !field.isEmpty

/-- No text, no fields. -/
@[simp]
theorem fields_nil (separates : α → Bool) : fields separates ([] : List α) = [] := rfl

/-- A separator at the front separates nothing. -/
theorem fields_separator {first : α} (separator : separates first = true) (text : List α) :
    fields separates (first :: text) = fields separates text := by
  unfold fields
  rw [List.splitOnP_cons_eq_if_modifyHead, if_pos separator]
  rfl

/-- Separators at the front are skipped. -/
theorem fields_skip (text : List α) :
    fields separates (text.dropWhile separates) = fields separates text := by
  induction text with
  | nil => rfl
  | cons first rest ih =>
    by_cases separator : separates first = true
    · rw [List.dropWhile_cons_of_pos separator, ih, fields_separator separator]
    · rw [List.dropWhile_cons_of_neg separator]

/-- A run that ends with the text or at a separator is the first field. -/
theorem fields_word {word rest : List α} (nonempty : word ≠ [])
    (free : ∀ letter ∈ word, separates letter = false)
    (ends : ∀ next more, rest = next :: more → separates next = true) :
    fields separates (word ++ rest) = word :: fields separates rest := by
  have kept (more : List (List α)) : (word :: more).filter (fun field => !field.isEmpty) =
      word :: more.filter fun field => !field.isEmpty := by
    apply List.filter_cons_of_pos
    rw [Bool.not_eq_true', List.isEmpty_eq_false_iff]
    exact nonempty
  cases rest with
  | nil =>
    unfold fields
    rw [List.append_nil, List.splitOnP_eq_singleton free, kept]
    rfl
  | cons next more =>
    have separator := ends next more rfl
    rw [fields_separator separator]
    unfold fields
    rw [List.splitOnP_append_cons_of_forall_mem free next separator, kept]

/-- Of two texts with a separator between them the fields of the first come first. -/
theorem fields_append {separator : α} (separated : separates separator = true)
    (front back : List α) :
    fields separates (front ++ separator :: back) =
      fields separates front ++ fields separates back := by
  unfold fields
  rw [List.splitOnP_append_cons _ _ separated, List.filter_append]

/-- The letters before the first separator hold none. -/
theorem run_free (text : List α) :
    ∀ letter ∈ text.takeWhile (fun letter => !separates letter), separates letter = false := by
  intro letter member
  have inside := List.mem_takeWhile_imp member
  rwa [Bool.not_eq_true'] at inside

/-- What follows the letters before the first separator begins with it. -/
theorem run_ends (text : List α) {next : α} {more : List α}
    (after : text.dropWhile (fun letter => !separates letter) = next :: more) :
    separates next = true := by
  have stopped := List.head_dropWhile_not (fun letter => !separates letter)
    (List.ne_nil_of_mem (after ▸ List.mem_cons_self))
  simp only [after, List.head_cons, Bool.not_eq_false'] at stopped
  exact stopped

/-- A text that begins with no separator has letters before the first one. -/
theorem run_nonempty {first : α} (inside : separates first = false) (rest : List α) :
    (first :: rest).takeWhile (fun letter => !separates letter) ≠ [] := by
  rw [List.takeWhile_cons_of_pos (by rw [inside]; rfl)]
  exact List.cons_ne_nil _ _

/-- A text that begins with no separator begins with its first field. -/
theorem fields_run {first : α} (inside : separates first = false) (rest : List α) :
    fields separates (first :: rest) =
      (first :: rest).takeWhile (fun letter => !separates letter) ::
        fields separates ((first :: rest).dropWhile fun letter => !separates letter) := by
  have parts := List.takeWhile_append_dropWhile
    (p := fun letter => !separates letter) (l := first :: rest)
  nth_rewrite 1 [← parts]
  apply fields_word (run_nonempty inside rest) (run_free _)
  intro next more after
  exact run_ends _ after

/-- A word without separators begins a text exactly when it begins the text's first run. -/
theorem initial_iff {word : List α} (free : ∀ letter ∈ word, separates letter = false)
    (text : List α) :
    word <+: text ↔ word <+: text.takeWhile fun letter => !separates letter := by
  constructor
  · rintro ⟨rest, rfl⟩
    rw [List.takeWhile_append_of_pos]
    · exact List.prefix_append _ _
    · intro letter member
      rw [free letter member]
      rfl
  · intro initial
    exact initial.trans (List.takeWhile_prefix _)

/-- A text is met by induction on a separator or a field at a time. -/
theorem fields_rec (separates : α → Bool) {motive : List α → Prop} (nil : motive [])
    (separator : ∀ first rest, separates first = true → motive rest → motive (first :: rest))
    (field : ∀ word rest, word ≠ [] → (∀ letter ∈ word, separates letter = false) →
      (∀ next more, rest = next :: more → separates next = true) → motive rest →
      motive (word ++ rest)) (text : List α) : motive text := by
  induction length : text.length using Nat.strong_induction_on generalizing text with
  | _ size ih =>
    cases text with
    | nil => exact nil
    | cons first rest =>
      cases inside : separates first with
      | true =>
        have shorter : rest.length < size := by
          rw [← length, List.length_cons]
          exact Nat.lt_succ_self _
        exact separator first rest inside (ih _ shorter rest rfl)
      | false =>
        have parts := List.takeWhile_append_dropWhile
          (p := fun letter => !separates letter) (l := first :: rest)
        have nonempty := run_nonempty inside rest
        have shorter : ((first :: rest).dropWhile fun letter => !separates letter).length <
            size := by
          have lengths := congrArg List.length parts
          have positive := List.length_pos_iff.mpr nonempty
          rw [List.length_append, length] at lengths
          omega
        rw [← parts]
        exact field _ _ nonempty (run_free _) (fun next more after => run_ends _ after)
          (ih _ shorter _ rfl)

/-- A field is not empty and holds no separator. -/
theorem fields_free (text : List α) :
    ∀ part ∈ fields separates text, part ≠ [] ∧ ∀ letter ∈ part, separates letter = false := by
  induction text using fields_rec separates with
  | nil => exact fun part member => (nomatch member)
  | separator first rest separator ih =>
    rw [fields_separator separator]
    exact ih
  | field word rest nonempty free ends ih =>
    rw [fields_word nonempty free ends, List.forall_mem_cons]
    exact ⟨⟨nonempty, free⟩, ih⟩

/-- The fields hold the letters that are no separators, in order. -/
theorem fields_flatten (text : List α) :
    (fields separates text).flatten = text.filter fun letter => !separates letter := by
  induction text using fields_rec separates with
  | nil => rfl
  | separator first rest separator ih =>
    rw [fields_separator separator, ih, List.filter_cons_of_neg (by simp [separator])]
  | field word rest nonempty free ends ih =>
    have kept : word.filter (fun letter => !separates letter) = word := by
      rw [List.filter_eq_self]
      intro letter member
      rw [free letter member]
      rfl
    rw [fields_word nonempty free ends, List.flatten_cons, ih, List.filter_append, kept]

/-- The letter at a position is no separator. -/
def Inside (separates : α → Bool) (text : List α) (position : Nat) : Prop :=
  ∃ letter, text[position]? = some letter ∧ separates letter = false

/-- The place of the letter at a position among those that are no separators. -/
def place (separates : α → Bool) (text : List α) (position : Nat) : Nat :=
  (text.take position).countP fun letter => !separates letter

/-- The number of the part that holds the letter at a place of the whole. -/
def owner : List (List α) → Nat → Nat
  | [], _ => 0
  | part :: rest, place => if place < part.length then 0 else owner rest (place - part.length) + 1

/-- A position behind a separator lies inside as it does in the rest. -/
theorem inside_separator (first : α) (rest : List α) (position : Nat) :
    Inside separates (first :: rest) (1 + position) ↔ Inside separates rest position := by
  unfold Inside
  rw [Nat.add_comm, List.getElem?_cons_succ]

/-- What is inside lies behind a separator. -/
theorem behind_separator {first : α} (separator : separates first = true) {rest : List α}
    {position : Nat} (inside : Inside separates (first :: rest) position) :
    ∃ later, position = 1 + later ∧ Inside separates rest later := by
  cases position with
  | zero =>
    obtain ⟨letter, here, free⟩ := inside
    rw [List.getElem?_cons_zero, Option.some.injEq] at here
    rw [← here, separator] at free
    cases free
  | succ later =>
    rw [Nat.add_comm] at inside ⊢
    exact ⟨later, rfl, (inside_separator first rest later).mp inside⟩

/-- A separator takes no place. -/
theorem place_separator {first : α} (separator : separates first = true) (rest : List α)
    (position : Nat) :
    place separates (first :: rest) (1 + position) = place separates rest position := by
  unfold place
  rw [Nat.add_comm, List.take_succ_cons, List.countP_cons_of_neg (by simp [separator])]

section Word

variable {word : List α} (free : ∀ letter ∈ word, separates letter = false) (rest : List α)

/-- A position behind a word lies inside as it does in the rest. -/
theorem inside_word (position : Nat) :
    Inside separates (word ++ rest) (word.length + position) ↔ Inside separates rest position := by
  unfold Inside
  rw [List.getElem?_append_right (Nat.le_add_right _ _), Nat.add_sub_cancel_left]

include free

/-- The positions of a word at the front are inside. -/
theorem inside_front {position : Nat} (here : position < word.length) :
    Inside separates (word ++ rest) position := by
  refine ⟨word[position], ?_, free _ (List.getElem_mem here)⟩
  rw [List.getElem?_append_left here, List.getElem?_eq_getElem here]

/-- The letters of a word are counted one by one. -/
theorem countP_free {initial : List α} (part : initial <+: word) :
    (initial.countP fun letter => !separates letter) = initial.length := by
  rw [List.countP_eq_length]
  intro letter member
  rw [free letter (part.subset member)]
  rfl

/-- A position in a word at the front keeps its place. -/
theorem place_word {position : Nat} (here : position ≤ word.length) :
    place separates (word ++ rest) position = position := by
  unfold place
  rw [List.take_append_of_le_length here, countP_free free (List.take_prefix _ _),
    List.length_take, Nat.min_eq_left here]

/-- A position behind a word has the place it has in the rest, behind that word. -/
theorem place_behind (position : Nat) :
    place separates (word ++ rest) (word.length + position) =
      word.length + place separates rest position := by
  unfold place
  rw [List.take_length_add_append, List.countP_append, countP_free free (List.prefix_refl _)]

end Word

/-- The places of the first part belong to it. -/
theorem owner_first {part : List α} {place : Nat} (here : place < part.length)
    (rest : List (List α)) : owner (part :: rest) place = 0 := if_pos here

/-- The places behind the first part belong to the others. -/
theorem owner_behind (part : List α) (rest : List (List α)) (place : Nat) :
    owner (part :: rest) (part.length + place) = owner rest place + 1 := by
  rw [owner, if_neg (by omega), Nat.add_sub_cancel_left]

/-- The position where a word ends is not inside. -/
theorem border_apart {word rest : List α}
    (ends : ∀ next more, rest = next :: more → separates next = true) :
    ¬Inside separates (word ++ rest) (word.length + 0) := by
  rw [inside_word]
  rintro ⟨letter, here, inside⟩
  cases rest with
  | nil => cases here
  | cons next more =>
    rw [List.getElem?_cons_zero, Option.some.injEq] at here
    rw [← here, ends next more rfl] at inside
    cases inside

/-- Two positions have only letters between them when they have so without what is in front. -/
theorem between_shift {text rest : List α} {shift first second : Nat}
    (same : ∀ position, Inside separates text (shift + position) ↔ Inside separates rest position) :
    (∀ between, shift + first < between → between < shift + second →
        Inside separates text between) ↔
      ∀ between, first < between → between < second → Inside separates rest between := by
  constructor
  · intro inside between after before
    exact (same between).mp (inside (shift + between) (by omega) (by omega))
  · intro inside between after before
    obtain ⟨later, rfl⟩ : ∃ later, between = shift + later := ⟨between - shift, by omega⟩
    exact (same later).mpr (inside later (by omega) (by omega))

/-- **When two letters share a field.** Two letters that are no separators are in the same field
exactly when no separator lies between them. -/
theorem same_field_iff (text : List α) {first second : Nat} (ordered : first ≤ second)
    (firstInside : Inside separates text first) (secondInside : Inside separates text second) :
    owner (fields separates text) (place separates text first) =
        owner (fields separates text) (place separates text second) ↔
      ∀ between, first < between → between < second → Inside separates text between := by
  induction text using fields_rec separates generalizing first second with
  | nil =>
    obtain ⟨letter, here, -⟩ := firstInside
    cases here
  | separator head rest separator ih =>
    obtain ⟨earlier, rfl, firstBehind⟩ := behind_separator separator firstInside
    obtain ⟨later, rfl, secondBehind⟩ := behind_separator separator secondInside
    rw [fields_separator separator, place_separator separator, place_separator separator,
      ih (by omega) firstBehind secondBehind]
    exact (between_shift (inside_separator head rest)).symm
  | field word rest nonempty free ends ih =>
    rw [fields_word nonempty free ends]
    by_cases secondHere : second < word.length
    · have firstHere : first < word.length := by omega
      rw [place_word free rest (Nat.le_of_lt firstHere),
        place_word free rest (Nat.le_of_lt secondHere), owner_first firstHere,
        owner_first secondHere]
      exact iff_of_true rfl fun between _ before => inside_front free rest (by omega)
    · obtain ⟨later, rfl⟩ : ∃ later, second = word.length + later :=
        ⟨second - word.length, by omega⟩
      rw [place_behind free, owner_behind]
      by_cases firstHere : first < word.length
      · -- The separator behind the word lies between the two letters.
        rw [place_word free rest (Nat.le_of_lt firstHere), owner_first firstHere]
        apply iff_of_false (Nat.succ_ne_zero _).symm
        intro inside
        have beyond : later ≠ 0 := by
          rintro rfl
          exact border_apart ends secondInside
        exact border_apart ends (inside (word.length + 0) (by omega) (by omega))
      · obtain ⟨earlier, rfl⟩ : ∃ earlier, first = word.length + earlier :=
          ⟨first - word.length, by omega⟩
        rw [inside_word] at firstInside secondInside
        rw [place_behind free, owner_behind, Nat.add_right_cancel_iff,
          ih (by omega) firstInside secondInside]
        exact (between_shift (inside_word rest)).symm

/-- Words with separators behind each. -/
def pieces (separator : α) (words : List (List α × Nat)) : List α :=
  words.flatMap fun word => word.1 ++ List.replicate word.2 separator

/-- Separators in front add no field. -/
theorem fields_replicate {separator : α} (separated : separates separator = true) (count : Nat)
    (text : List α) :
    fields separates (List.replicate count separator ++ text) = fields separates text := by
  induction count with
  | zero => rfl
  | succ count ih => rw [List.replicate_succ, List.cons_append, fields_separator separated, ih]

/-- **Joined words come back.** -/
theorem fields_pieces {separator : α} (separated : separates separator = true)
    {words : List (List α × Nat)}
    (free : ∀ word ∈ words, word.1 ≠ [] ∧ ∀ letter ∈ word.1, separates letter = false)
    (apart : ∀ word ∈ words.dropLast, 0 < word.2) :
    fields separates (pieces separator words) = words.map Prod.fst := by
  induction words with
  | nil => rfl
  | cons word rest ih =>
    obtain ⟨here, later⟩ := List.forall_mem_cons.mp free
    have rests : fields separates (pieces separator rest) = rest.map Prod.fst := by
      apply ih later
      intro other member
      cases rest with
      | nil => cases member
      | cons next more =>
        exact apart other (List.mem_cons_of_mem word member)
    have shape : pieces separator (word :: rest) =
        word.1 ++ (List.replicate word.2 separator ++ pieces separator rest) := by
      rw [pieces, List.flatMap_cons, List.append_assoc]
      rfl
    rw [shape, fields_word here.1 here.2, fields_replicate separated, rests, List.map_cons]
    intro next more start
    cases count : word.2 with
    | succ count =>
      rw [count, List.replicate_succ, List.cons_append, List.cons.injEq] at start
      rw [← start.1, separated]
    | zero =>
      -- Only the last word may have no separator behind it.
      cases rest with
      | nil =>
        rw [count] at start
        cases start
      | cons other others =>
        have positive := apart word List.mem_cons_self
        omega

end Fields
