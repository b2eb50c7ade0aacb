import Mathlib.Data.Nat.Digits.Defs

/-!
# Decimal digits

A list of decimal digits, the highest first, by its value and without its leading zeros. Two lists have
one value exactly when they are the same without their leading zeros.
-/

namespace SogeconApp.Library

namespace Digits

def value (digits : List Nat) : Nat := digits.foldl (fun number digit => 10 * number + digit) 0

def significant (digits : List Nat) : List Nat := digits.dropWhile (· = 0)

theorem value_eq_ofDigits (digits : List Nat) : value digits = Nat.ofDigits 10 digits.reverse := by
  rw [value, Nat.ofDigits_eq_foldr, List.foldr_reverse]
  congr 1
  funext number digit
  exact Nat.add_comm _ _

theorem value_significant (digits : List Nat) : value (significant digits) = value digits := by
  induction digits with
  | nil => rfl
  | cons digit digits ih =>
    by_cases zero : digit = 0
    · subst zero
      exact ih
    · rw [significant, List.dropWhile_cons_of_neg (by simpa using zero)]

/-- The value of a list gives its significant digits. -/
theorem significant_eq_digits {digits : List Nat} (small : ∀ digit ∈ digits, digit < 10) :
    (significant digits).reverse = Nat.digits 10 (value digits) := by
  rw [← value_significant, value_eq_ofDigits]
  refine (Nat.digits_ofDigits 10 (by decide) _ ?_ ?_).symm
  · intro digit member
    exact small digit (List.dropWhile_sublist _ |>.subset (List.mem_reverse.mp member))
  · intro some
    have some' : significant digits ≠ [] := fun empty => some (by rw [empty]; rfl)
    have nonzero : (significant digits).head some' ≠ 0 := of_decide_eq_false (List.head_dropWhile_not _ some')
    rw [List.getLast_reverse]
    exact nonzero

/-- Numerals without leading zeros are unique: equal values come from the same significant digits. -/
theorem value_eq_iff {first second : List Nat} (small : ∀ digit ∈ first, digit < 10)
    (small' : ∀ digit ∈ second, digit < 10) :
    value first = value second ↔ significant first = significant second := by
  constructor
  · intro same
    rw [← List.reverse_inj, significant_eq_digits small, significant_eq_digits small', same]
  · intro same
    rw [← value_significant first, same, value_significant]

end Digits

end SogeconApp.Library
