import A64dbg.Library.Fields

/-!
# Tables of words

A table is a list of rows, a row a list of words; it is written with a gap behind each word and an
ending behind each row. `read_table` says that the words come back, row by row, and that endings
behind the table add nothing. A list is cut into rows of a size: `rowAt` is one row of it,
`rows_flatten` says that the rows hold the list in order, and `rowAt_get` where each entry stands.
-/

namespace Tables

open Fields

section Text

variable {α : Type*}

/-- Words with a gap behind each. -/
def line (gap : α) (words : List (List α)) : List α := words.flatMap fun word => word ++ [gap]

/-- Rows with an ending behind each. -/
def table (gap ending : α) (rows : List (List (List α))) : List α :=
  rows.flatMap fun row => line gap row ++ [ending]

variable [DecidableEq α]

/-- The words of a text, line by line. -/
def read (gap ending : α) (text : List α) : List (List (List α)) :=
  (fields (fun letter => letter == ending) text).map (fields fun letter => letter == gap)

/-- A word that fills a cell of a table. -/
def Cell (gap ending : α) (word : List α) : Prop :=
  word ≠ [] ∧ ∀ letter ∈ word, letter ≠ gap ∧ letter ≠ ending

variable {gap ending : α}

/-- A word with a separator behind it is the first field. -/
theorem fields_before {separator : α} {word : List α} (nonempty : word ≠ [])
    (free : ∀ letter ∈ word, (letter == separator) = false) (rest : List α) :
    fields (fun letter => letter == separator) (word ++ separator :: rest) =
      word :: fields (fun letter => letter == separator) rest := by
  have after : fields (fun letter => letter == separator) (separator :: rest) =
      fields (fun letter => letter == separator) rest := by
    apply fields_separator
    exact beq_self_eq_true separator
  have behind : ∀ next more, separator :: rest = next :: more → (next == separator) = true := by
    intro next more here
    rw [List.cons.injEq] at here
    exact beq_iff_eq.mpr here.1.symm
  rw [fields_word nonempty free behind, after]

/-- The words of a line come back. -/
theorem fields_line {words : List (List α)} (clean : ∀ word ∈ words, Cell gap ending word) :
    fields (fun letter => letter == gap) (line gap words) = words := by
  induction words with
  | nil => rfl
  | cons word rest ih =>
    obtain ⟨⟨nonempty, free⟩, later⟩ := List.forall_mem_cons.mp clean
    have shape : line gap (word :: rest) = word ++ gap :: line gap rest := by
      simp [line]
    have apart : ∀ letter ∈ word, (letter == gap) = false := by
      intro letter inside
      exact beq_eq_false_iff_ne.mpr (free letter inside).1
    rw [shape, fields_before nonempty apart, ih later]

/-- A line of words is not empty and holds no ending. -/
theorem line_free (apart : gap ≠ ending) {words : List (List α)} (nonempty : words ≠ [])
    (clean : ∀ word ∈ words, Cell gap ending word) :
    line gap words ≠ [] ∧ ∀ letter ∈ line gap words, (letter == ending) = false := by
  constructor
  · obtain ⟨word, rest, rfl⟩ := List.exists_cons_of_ne_nil nonempty
    simp [line]
  · intro letter inside
    obtain ⟨word, member, here⟩ := List.mem_flatMap.mp inside
    rw [List.mem_append, List.mem_singleton] at here
    apply beq_eq_false_iff_ne.mpr
    cases here with
    | inl letters => exact ((clean word member).2 letter letters).2
    | inr last => rwa [last]

/-- **A table comes back**, whatever endings follow it. -/
theorem read_table (apart : gap ≠ ending) {rows : List (List (List α))}
    (clean : ∀ row ∈ rows, row ≠ [] ∧ ∀ word ∈ row, Cell gap ending word) (blank : Nat) :
    read gap ending (table gap ending rows ++ List.replicate blank ending) = rows := by
  induction rows with
  | nil =>
    have blanks : fields (fun letter => letter == ending) (List.replicate blank ending ++ []) =
        fields (fun letter => letter == ending) [] := by
      apply fields_replicate
      exact beq_self_eq_true ending
    rw [List.append_nil, fields_nil] at blanks
    simp [read, table, blanks]
  | cons row rest ih =>
    obtain ⟨⟨nonempty, words⟩, later⟩ := List.forall_mem_cons.mp clean
    obtain ⟨filled, free⟩ := line_free apart nonempty words
    have shape : table gap ending (row :: rest) ++ List.replicate blank ending =
        line gap row ++ ending :: (table gap ending rest ++ List.replicate blank ending) := by
      simp [table]
    have others := ih later
    unfold read at others ⊢
    rw [shape, fields_before filled free, List.map_cons, others, fields_line words]

end Text

section Rows

variable {β : Type*} {size : Nat}

/-- Row `k` of a list cut into rows of a size. -/
def rowAt (size : Nat) (words : List β) (k : Nat) : List β := (words.drop (size * k)).take size

/-- The number of rows of a size for a number of words. -/
def rowCount (size count : Nat) : Nat := (count + (size - 1)) / size

/-- The first row holds the first words. -/
theorem rowAt_zero (words : List β) : rowAt size words 0 = words.take size := rfl

/-- The rows after the first are those of the rest. -/
theorem rowAt_succ (words : List β) (k : Nat) :
    rowAt size words (k + 1) = rowAt size (words.drop size) k := by
  unfold rowAt
  rw [List.drop_drop, Nat.mul_succ, Nat.add_comm]

/-- The first rows hold the first words. -/
theorem rows_take (words : List β) (k : Nat) :
    (List.range k).flatMap (rowAt size words) = words.take (size * k) := by
  induction k with
  | zero =>
    rw [Nat.mul_zero, List.take_zero]
    rfl
  | succ k ih =>
    have last : [k].flatMap (rowAt size words) = (words.drop (size * k)).take size := by
      rw [List.flatMap_singleton, rowAt]
    rw [List.range_succ, List.flatMap_append, ih, last, Nat.mul_succ, List.take_add]

/-- A range is its blocks of a size, one behind the other. -/
theorem range_blocks (number : Nat → β) (count : Nat) :
    (List.range count).flatMap (fun i => (List.range size).map fun j => number (size * i + j)) =
      (List.range (size * count)).map number := by
  induction count with
  | zero => rfl
  | succ count ih =>
    rw [List.range_succ, List.flatMap_append, ih, List.flatMap_singleton, Nat.mul_succ,
      List.range_add, List.map_append, List.map_map]
    rfl

/-- A row holds words when the rows before it leave some. -/
theorem rowAt_nonempty (positive : 0 < size) (words : List β) (k : Nat) :
    rowAt size words k ≠ [] ↔ size * k < words.length := by
  rw [← List.length_pos_iff, rowAt, List.length_take, List.length_drop]
  omega

variable (positive : 0 < size)
include positive

/-- **The rows hold the words in order.** -/
theorem rows_flatten (words : List β) :
    (List.range (rowCount size words.length)).flatMap (rowAt size words) = words := by
  have whole : words.length ≤ size * rowCount size words.length := by
    have rounded : words.length + (size - 1) <
        (words.length + (size - 1)) / size * size + size := Nat.lt_div_mul_add positive
    rw [rowCount, Nat.mul_comm]
    omega
  rw [rows_take, List.take_of_length_le whole]

/-- Each word stands in the row and the column that its place gives. -/
theorem rowAt_get (words : List β) (j : Nat) :
    (rowAt size words (j / size))[j % size]? = words[j]? := by
  unfold rowAt
  rw [List.getElem?_take, if_pos (Nat.mod_lt j positive), List.getElem?_drop, Nat.div_add_mod]

end Rows

end Tables
