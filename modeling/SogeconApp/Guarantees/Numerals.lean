import SogeconApp.Library.Digits
import SogeconApp.Source.Numerals

/-!
# The digits of a numeral

A positive number that is read from a text is the value of the decimal digits in it, whatever the script,
the sign, the blanks and the underscores. Two texts of positive numbers are read as one number exactly
when they have the same digits without the leading zeros.
-/

namespace SogeconApp.Guarantees.Numerals

open Library Source.MediaPaths Source.Numerals

/-- The decimal digits of a text, in any script. -/
def decimals (text : Text) : List Nat := text.filterMap decimal

theorem decimal_lt {char : Char} {value : Nat} (found : decimal char = some value) : value < 10 := by
  obtain ⟨start, within, rfl⟩ := Option.map_eq_some_iff.mp found
  have bounds := List.find?_some within
  simp only [decide_eq_true_eq] at bounds
  omega

theorem decimals_lt (text : Text) : ∀ digit ∈ decimals text, digit < 10 := by
  intro digit member
  obtain ⟨char, -, found⟩ := List.mem_filterMap.mp member
  exact decimal_lt found

/-- No blank is a digit. -/
theorem decimal_of_isSpace {char : Char} (space : isSpace char = true) : decimal char = none := by
  have apart : ∀ start ∈ zeros, ¬(start ≤ char.toNat ∧ char.toNat < start + 10) := by
    simp only [isSpace, decide_eq_true_eq] at space
    simp only [zeros, List.forall_mem_cons, List.not_mem_nil, false_implies, implies_true, and_true]
    omega
  have missing : (zeros.find? fun start => start ≤ char.toNat ∧ char.toNat < start + 10) = none :=
    List.find?_eq_none.mpr fun start member within => apart start member (of_decide_eq_true within)
  rw [decimal, missing, Option.map_none]

/-- In ASCII the digits are those from 0 to 9. -/
theorem decimal_of_ascii {char : Char} (ascii : char.toNat < 128) : decimal char = digit char := by
  have later : ∀ start ∈ zeros.tail, ¬(start ≤ char.toNat ∧ char.toNat < start + 10) := by
    have beyond : ∀ start ∈ zeros.tail, 128 ≤ start := by decide
    intro start member within
    have := beyond start member
    omega
  have missing : (zeros.tail.find? fun start => start ≤ char.toNat ∧ char.toNat < start + 10) = none :=
    List.find?_eq_none.mpr fun start member within => later start member (of_decide_eq_true within)
  have first : zeros = 0x30 :: zeros.tail := rfl
  rw [decimal, first, List.find?_cons, missing, digit]
  by_cases within : 0x30 ≤ char.toNat ∧ char.toNat < 0x30 + 10
  · rw [decide_eq_true within, if_pos (by omega)]
    rfl
  · rw [decide_eq_false within, if_neg (by omega)]
    rfl

theorem digit_asciiOf (char : Char) : digit (asciiOf char) = decimal char := by
  unfold asciiOf
  split
  · rename_i ascii
    exact (decimal_of_ascii (by omega)).symm
  · split
    · rename_i space
      rw [decimal_of_isSpace space]
      decide
    · cases found : decimal char with
      | none => decide
      | some value =>
        have letters : ∀ value < 10, digit (Char.ofNat (0x30 + value)) = some value := by decide
        exact letters value (decimal_lt found)

theorem filterMap_toAscii (text : Text) : (toAscii text).filterMap digit = decimals text := by
  unfold toAscii
  split
  · rename_i ascii
    apply List.filterMap_congr
    intro char member
    exact (decimal_of_ascii (by simpa using List.all_eq_true.mp ascii char member)).symm
  · rw [List.filterMap_map]
    exact List.filterMap_congr fun char _ => digit_asciiOf char

/-- What is stripped from both ends has no digits. -/
theorem filterMap_strip {f : Char → Option Nat} {blank : Char → Bool}
    (silent : ∀ char, blank char = true → f char = none) (text : Text) :
    ((text.dropWhile blank).rdropWhile blank).filterMap f = text.filterMap f := by
  have front (text : Text) : (text.dropWhile blank).filterMap f = text.filterMap f := by
    induction text with
    | nil => rfl
    | cons char text ih =>
      cases stripped : blank char with
      | true =>
        rw [List.dropWhile_cons_of_pos stripped, List.filterMap_cons_none (silent char stripped), ih]
      | false => rw [List.dropWhile_cons_of_neg (by simp [stripped])]
  rw [List.rdropWhile, List.filterMap_reverse, front, ← List.filterMap_reverse, List.reverse_reverse, front]

theorem decimals_strip (text : Text) : decimals (strip text) = decimals text :=
  filterMap_strip (fun _ => decimal_of_isSpace) text

theorem digit_of_isBlank (char : Char) (blank : isBlank char = true) : digit char = none := by
  have outside : ¬(0x30 ≤ char.toNat ∧ char.toNat ≤ 0x39) := by
    simp only [isBlank, decide_eq_true_eq] at blank
    rcases blank with control | space
    · omega
    · rw [space]
      decide
  rw [digit, if_neg outside]

/-- The digits that are read are all of the text. -/
theorem digits_eq {text : Text} {values : List Nat} (read : digits text = some values) :
    text.filterMap digit = values := by
  induction text using digits.induct generalizing values with
  | case1 => cases read
  | case2 char =>
    obtain ⟨value, found, rfl⟩ := Option.map_eq_some_iff.mp read
    rw [List.filterMap_cons_some found, List.filterMap_nil]
  | case3 char rest ih =>
    simp only [digits, bind, pure, Option.bind_eq_some_iff, Option.some.injEq] at read
    obtain ⟨value, found, others, later, rfl⟩ := read
    have underscore : digit '_' = none := by decide
    rw [List.filterMap_cons_some found, List.filterMap_cons_none underscore, ih later]
  | case4 char rest more plain ih =>
    rw [digits] at read
    · simp only [bind, pure, Option.bind_eq_some_iff, Option.some.injEq] at read
      obtain ⟨value, found, others, later, rfl⟩ := read
      rw [List.filterMap_cons_some found, ih later]
    all_goals assumption

theorem natural_eq {text : Text} {number : Nat} (read : natural text = some number) :
    number = Digits.value (text.filterMap digit) := by
  simp only [natural, bind, Option.bind_eq_some_iff] at read
  obtain ⟨values, found, read⟩ := read
  split at read
  · cases read
  · rw [digits_eq found]
    exact (Option.some.inj read).symm

/-- A positive number is the value of the digits. -/
theorem int_eq_value {text : Text} {number : Int} (read : int text = some number) (positive : 1 ≤ number) :
    number = Digits.value (decimals text) := by
  have stripped := filterMap_strip digit_of_isBlank (toAscii text)
  rw [filterMap_toAscii] at stripped
  rw [← stripped]
  unfold int at read
  split at read
  · rename_i rest numeral
    obtain ⟨magnitude, found, rfl⟩ := Option.map_eq_some_iff.mp read
    have sign : digit '+' = none := by decide
    rw [numeral, List.filterMap_cons_none sign, ← natural_eq found]
    rfl
  · rename_i rest numeral
    obtain ⟨magnitude, found, rfl⟩ := Option.map_eq_some_iff.mp read
    have negative : -(magnitude : Int) ≤ 0 := by omega
    exact absurd (positive.trans negative) (by decide)
  · obtain ⟨magnitude, found, rfl⟩ := Option.map_eq_some_iff.mp read
    rw [← natural_eq found]
    rfl

/-- The text of a positive number has its digits. -/
theorem value_toString {number : Int} (positive : 1 ≤ number) :
    (Digits.value (decimals (toString number).toList) : Int) = number := by
  obtain ⟨magnitude, rfl⟩ := Int.eq_ofNat_of_zero_le (by omega : 0 ≤ number)
  have text : (toString (magnitude : Int)).toList = Nat.toDigits 10 magnitude := Nat.toList_repr
  have read : decimals (Nat.toDigits 10 magnitude) =
      (Nat.toDigits 10 magnitude).map fun char => char.toNat - 48 := by
    rw [← List.filterMap_eq_map]
    apply List.filterMap_congr
    intro char member
    have within := Nat.isDigit_of_mem_toDigits (by decide) (by decide) member
    simp only [Char.isDigit, Bool.and_eq_true, decide_eq_true_eq, ge_iff_le, UInt32.le_iff_toNat_le] at within
    have bounds : 0x30 ≤ char.toNat ∧ char.toNat ≤ 0x39 := within
    rw [decimal_of_ascii (by omega), digit, if_pos bounds]
    rfl
  have digits : Nat.ofDigitChars 10 (Nat.toDigits 10 magnitude) 0 = magnitude := Nat.ofDigitChars_ten_toDigits
  rw [Nat.ofDigitChars_eq_foldl] at digits
  rw [text, read, Digits.value, List.foldl_map]
  exact congrArg Nat.cast digits

/-- A positive number that is read from one text is the number of another text exactly when the digits
agree. -/
theorem int_eq_iff {text : Text} {number other : Int} (read : int text = some number) (positive : 1 ≤ number) :
    number = other ↔ 1 ≤ other ∧
      Digits.significant (decimals text) = Digits.significant (decimals (toString other).toList) := by
  rw [← Digits.value_eq_iff (decimals_lt _) (decimals_lt _)]
  have here := int_eq_value read positive
  constructor
  · intro same
    subst same
    exact ⟨positive, by exact_mod_cast here.symm.trans (value_toString positive).symm⟩
  · intro ⟨positive', same⟩
    rw [here, same, value_toString positive']

end SogeconApp.Guarantees.Numerals
