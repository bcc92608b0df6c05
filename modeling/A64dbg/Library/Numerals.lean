import Mathlib

/-!
# Numerals

A number printed in a base, filled up with zeros to a width, and the number that a text of digits
spells. A base and a reading of its digits are parameters; `value_padded` says that a printed
number comes back, whatever the width.
-/

namespace Numerals

/-- The number that letters spell, the most significant first. -/
def value (base : Nat) (digit : Char → Nat) (text : List Char) : Nat :=
  text.foldl (fun number letter => base * number + digit letter) 0

/-- A number, filled up with zeros to a width. -/
def padded (base width number : Nat) : List Char := (Nat.toDigits base number).leftpad width '0'

variable {base : Nat} {digit : Char → Nat}

/-- One more digit multiplies the value by the base and adds its own. -/
theorem value_concat (text : List Char) (letter : Char) :
    value base digit (text ++ [letter]) = base * value base digit text + digit letter := by
  unfold value
  rw [List.foldl_append]
  rfl

/-- Zeros in front spell nothing. -/
theorem value_zeros (zero : digit '0' = 0) (count : Nat) (text : List Char) :
    value base digit (List.replicate count '0' ++ text) = value base digit text := by
  induction count with
  | zero => rfl
  | succ count ih =>
    have front : value base digit ('0' :: (List.replicate count '0' ++ text)) =
        value base digit (List.replicate count '0' ++ text) := by
      simp [value, zero]
    rw [List.replicate_succ, List.cons_append, front, ih]

section Printed

variable (large : 1 < base)
include large

/-- **A printed number comes back.** -/
theorem value_toDigits (reads : ∀ d < base, digit (Nat.digitChar d) = d) (number : Nat) :
    value base digit (Nat.toDigits base number) = number := by
  induction number using Nat.strong_induction_on with
  | _ number ih =>
    rw [Nat.toDigits_eq_if large]
    by_cases small : number < base
    · rw [if_pos small]
      simp [value, reads number small]
    · have shorter : number / base < number := Nat.div_lt_self (by omega) large
      rw [if_neg small, value_concat, ih _ shorter, reads _ (Nat.mod_lt _ (by omega))]
      exact Nat.div_add_mod number base

/-- Every letter of a printed number is a digit. -/
theorem toDigits_letters (number : Nat) :
    ∀ letter ∈ Nat.toDigits base number, ∃ d < base, letter = Nat.digitChar d := by
  induction number using Nat.strong_induction_on with
  | _ number ih =>
    intro letter inside
    rw [Nat.toDigits_eq_if large] at inside
    by_cases small : number < base
    · rw [if_pos small, List.mem_singleton] at inside
      exact ⟨number, small, inside⟩
    · rw [if_neg small, List.mem_append, List.mem_singleton] at inside
      have shorter : number / base < number := Nat.div_lt_self (by omega) large
      cases inside with
      | inl front => exact ih _ shorter letter front
      | inr last => exact ⟨number % base, Nat.mod_lt _ (by omega), last⟩

/-- A number filled up with zeros comes back. -/
theorem value_padded (reads : ∀ d < base, digit (Nat.digitChar d) = d) (width number : Nat) :
    value base digit (padded base width number) = number := by
  have zero : digit '0' = 0 := reads 0 (by omega)
  unfold padded List.leftpad
  rw [value_zeros zero, value_toDigits large reads]

/-- Every letter of a number filled up with zeros is a digit. -/
theorem padded_letters (width number : Nat) :
    ∀ letter ∈ padded base width number, ∃ d < base, letter = Nat.digitChar d := by
  intro letter inside
  unfold padded List.leftpad at inside
  rw [List.mem_append] at inside
  cases inside with
  | inl front => exact ⟨0, by omega, List.eq_of_mem_replicate front⟩
  | inr back => exact toDigits_letters large number letter back

end Printed

/-- A printed number is not empty. -/
theorem padded_nonempty (base width number : Nat) : padded base width number ≠ [] := by
  intro empty
  unfold padded List.leftpad at empty
  rw [List.append_eq_nil_iff] at empty
  exact Nat.toDigits_ne_nil empty.2

end Numerals
