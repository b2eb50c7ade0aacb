import Mathlib.Algebra.Group.Nat.Defs
import Mathlib.Data.List.Induction
import SogeconApp.Library.Digits

/-!
# Fixed layouts

Texts of numerals of fixed widths, with leading zeros, and of signs between them. What is written in
a layout is read back from it, and what is read from a text is written as that text.
-/

namespace SogeconApp.Library

namespace Digits

/-- The last digits of a number, the highest first. -/
def padded : Nat → Nat → List Nat
  | 0, _ => []
  | width + 1, number => padded width (number / 10) ++ [number % 10]

@[simp] theorem length_padded (width number : Nat) : (padded width number).length = width := by
  induction width generalizing number with
  | zero => rfl
  | succ width ih => rw [padded, List.length_append, ih, List.length_singleton]

theorem padded_lt (width number : Nat) : ∀ digit ∈ padded width number, digit < 10 := by
  induction width generalizing number with
  | zero => simp [padded]
  | succ width ih =>
    intro digit member
    rw [padded, List.mem_append, List.mem_singleton] at member
    rcases member with earlier | rfl
    · exact ih _ digit earlier
    · exact Nat.mod_lt _ (by decide)

theorem value_append_singleton (digits : List Nat) (last : Nat) :
    value (digits ++ [last]) = 10 * value digits + last := by
  rw [value, List.foldl_append]
  rfl

/-- A number that fits into the width is the value of its digits with leading zeros. -/
theorem value_padded {width number : Nat} (fits : number < 10 ^ width) :
    value (padded width number) = number := by
  induction width generalizing number with
  | zero =>
    have zero : number = 0 := by simpa using fits
    rw [zero]
    rfl
  | succ width ih =>
    have shorter : number / 10 < 10 ^ width := by
      apply Nat.div_lt_of_lt_mul
      rwa [Nat.pow_succ, Nat.mul_comm] at fits
    rw [padded, value_append_singleton, ih shorter]
    omega

/-- Digits as many as the width are those of their value, the leading zeros included. -/
theorem padded_value {width : Nat} {digits : List Nat} (long : digits.length = width)
    (small : ∀ digit ∈ digits, digit < 10) : padded width (value digits) = digits := by
  induction width generalizing digits with
  | zero => rw [List.length_eq_zero_iff.mp long, padded]
  | succ width ih =>
    obtain ⟨front, last, rfl⟩ : ∃ front last, digits = front ++ [last] := by
      refine ⟨digits.dropLast, digits.getLast ?_, (List.dropLast_concat_getLast _).symm⟩
      intro empty
      rw [empty] at long
      cases long
    rw [List.length_append, List.length_singleton] at long
    have low : last < 10 := small last (by simp)
    have quotient : (10 * value front + last) / 10 = value front := by omega
    have rest : (10 * value front + last) % 10 = last := by omega
    rw [value_append_singleton, padded, quotient, rest,
      ih (by omega) fun digit member => small digit (List.mem_append_left _ member)]

theorem value_lt {digits : List Nat} (small : ∀ digit ∈ digits, digit < 10) :
    value digits < 10 ^ digits.length := by
  induction digits using List.reverseRecOn with
  | nil => decide
  | append_singleton front last ih =>
    have low : last < 10 := small last (by simp)
    have less := ih fun digit member => small digit (List.mem_append_left _ member)
    rw [value_append_singleton, List.length_append, List.length_singleton, Nat.pow_succ]
    omega

end Digits

/-! ## Numerals -/

namespace Layouts

/-- The value of a decimal digit. -/
def digitOf (char : Char) : Option Nat := if char.isDigit then some (char.toNat - 48) else none

theorem digitOf_digitChar {digit : Nat} (small : digit < 10) : digitOf (Nat.digitChar digit) = some digit := by
  revert digit
  decide

theorem digitOf_eq_some {char : Char} {digit : Nat} (reads : digitOf char = some digit) :
    digit < 10 ∧ Nat.digitChar digit = char := by
  by_cases decimal : char.isDigit
  · rw [digitOf, if_pos decimal, Option.some.injEq] at reads
    have bounds : 48 ≤ char.toNat ∧ char.toNat ≤ 57 := by
      simp only [Char.isDigit, Bool.and_eq_true, decide_eq_true_eq, UInt32.le_iff_toNat_le] at decimal
      exact decimal
    have low : digit < 10 := by omega
    refine ⟨low, Char.toNat_inj.mp ?_⟩
    rw [Nat.toNat_digitChar_of_lt_ten low]
    omega
  · rw [digitOf, if_neg decimal] at reads
    cases reads

def numeral (width number : Nat) : List Char := (Digits.padded width number).map Nat.digitChar

/-- The value of a numeral of this width. -/
def readNumeral (width : Nat) (text : List Char) : Option Nat :=
  if text.length = width then (text.mapM digitOf).map Digits.value else none

@[simp] theorem length_numeral (width number : Nat) : (numeral width number).length = width := by
  rw [numeral, List.length_map, Digits.length_padded]

theorem mapM_digitChar {digits : List Nat} (small : ∀ digit ∈ digits, digit < 10) :
    (digits.map Nat.digitChar).mapM digitOf = some digits := by
  induction digits with
  | nil => rfl
  | cons digit digits ih =>
    rw [List.map_cons, List.mapM_cons, digitOf_digitChar (small digit List.mem_cons_self),
      ih fun other member => small other (List.mem_cons_of_mem _ member)]
    rfl

theorem mapM_digitOf_eq_some {text : List Char} {digits : List Nat}
    (reads : text.mapM digitOf = some digits) :
    (∀ digit ∈ digits, digit < 10) ∧ digits.map Nat.digitChar = text := by
  induction text generalizing digits with
  | nil =>
    cases reads
    exact ⟨by simp, rfl⟩
  | cons char text ih =>
    rw [List.mapM_cons] at reads
    obtain ⟨digit, first, reads⟩ := Option.bind_eq_some_iff.mp reads
    obtain ⟨others, later, reads⟩ := Option.bind_eq_some_iff.mp reads
    cases reads
    obtain ⟨low, same⟩ := digitOf_eq_some first
    obtain ⟨lows, sames⟩ := ih later
    refine ⟨?_, by rw [List.map_cons, same, sames]⟩
    intro other member
    rcases List.mem_cons.mp member with rfl | member
    · exact low
    · exact lows other member

/-- A number that fits is read back from its numeral. -/
theorem readNumeral_numeral {width number : Nat} (fits : number < 10 ^ width) :
    readNumeral width (numeral width number) = some number := by
  rw [readNumeral, if_pos (length_numeral _ _), numeral, mapM_digitChar (Digits.padded_lt _ _),
    Option.map_some, Digits.value_padded fits]

/-- The numeral that is read is the one that would be written, so there is only one for each number. -/
theorem readNumeral_eq_some {width number : Nat} {text : List Char}
    (reads : readNumeral width text = some number) :
    number < 10 ^ width ∧ numeral width number = text := by
  by_cases long : text.length = width
  · rw [readNumeral, if_pos long] at reads
    obtain ⟨digits, found, rfl⟩ := Option.map_eq_some_iff.mp reads
    obtain ⟨small, same⟩ := mapM_digitOf_eq_some found
    have width_ : digits.length = width := by rw [← long, ← same, List.length_map]
    refine ⟨by rw [← width_]; exact Digits.value_lt small, ?_⟩
    rw [numeral, Digits.padded_value width_ small, same]
  · rw [readNumeral, if_neg long] at reads
    cases reads

end Layouts

/-! ## Layouts -/

inductive Part where
  | numeral (width : Nat)
  | sign (char : Char)
  deriving DecidableEq, Repr

abbrev Layout := List Part

namespace Layout

/-- One number for each numeral, none too long for its width. -/
def Fits : Layout → List Nat → Prop
  | [], numbers => numbers = []
  | .sign _ :: rest, numbers => Fits rest numbers
  | .numeral _ :: _, [] => False
  | .numeral width :: rest, number :: numbers => number < 10 ^ width ∧ Fits rest numbers

def write : Layout → List Nat → List Char
  | [], _ => []
  | .sign char :: rest, numbers => char :: write rest numbers
  | .numeral width :: rest, numbers =>
    Layouts.numeral width (numbers.headD 0) ++ write rest numbers.tail

def read : Layout → List Char → Option (List Nat)
  | [], text => if text = [] then some [] else none
  | .sign char :: rest, text => if text.head? = some char then read rest text.tail else none
  | .numeral width :: rest, text =>
    (Layouts.readNumeral width (text.take width)).bind fun number =>
      (read rest (text.drop width)).map (number :: ·)

/-- Numbers that fit their layout are read back from the text that is written for them. -/
theorem read_write {layout : Layout} {numbers : List Nat} (fits : Fits layout numbers) :
    read layout (write layout numbers) = some numbers := by
  induction layout generalizing numbers with
  | nil =>
    rw [Fits] at fits
    rw [fits]
    rfl
  | cons part rest ih =>
    cases part with
    | sign char =>
      rw [Fits] at fits
      rw [write, read, List.head?_cons, if_pos rfl, List.tail_cons, ih fits]
    | numeral width =>
      cases numbers with
      | nil => exact fits.elim
      | cons number numbers =>
        have long : (Layouts.numeral width number).length = width := Layouts.length_numeral _ _
        rw [write, read, List.headD_cons, List.tail_cons, List.take_left' long, List.drop_left' long,
          Layouts.readNumeral_numeral fits.1, Option.bind_some, ih fits.2, Option.map_some]

/-- A text that is read is the one that would be written for its numbers, which fit the layout. -/
theorem read_eq_some {layout : Layout} {text : List Char} {numbers : List Nat}
    (reads : read layout text = some numbers) : Fits layout numbers ∧ write layout numbers = text := by
  induction layout generalizing text numbers with
  | nil =>
    rw [read] at reads
    split at reads
    · next empty =>
      cases reads
      exact ⟨rfl, by rw [empty]; rfl⟩
    · cases reads
  | cons part rest ih =>
    cases part with
    | sign char =>
      rw [read] at reads
      split at reads
      · next first =>
        obtain ⟨tail, rfl⟩ := List.head?_eq_some_iff.mp first
        obtain ⟨fits, same⟩ := ih reads
        exact ⟨fits, by rw [write, same]; rfl⟩
      · cases reads
    | numeral width =>
      rw [read] at reads
      obtain ⟨number, first, reads⟩ := Option.bind_eq_some_iff.mp reads
      obtain ⟨others, later, rfl⟩ := Option.map_eq_some_iff.mp reads
      obtain ⟨small, same⟩ := Layouts.readNumeral_eq_some first
      obtain ⟨fits, sames⟩ := ih later
      refine ⟨⟨small, fits⟩, ?_⟩
      rw [write, List.headD_cons, List.tail_cons, same, sames, List.take_append_drop]

/-- The first numerals and signs of a text. -/
theorem write_append {first second : Layout} {numbers others : List Nat} (fits : Fits first numbers) :
    write (first ++ second) (numbers ++ others) = write first numbers ++ write second others := by
  induction first generalizing numbers with
  | nil =>
    rw [Fits] at fits
    rw [fits]
    rfl
  | cons part rest ih =>
    cases part with
    | sign char =>
      rw [List.cons_append, write, write, ih fits]
      rfl
    | numeral width =>
      cases numbers with
      | nil => exact fits.elim
      | cons number numbers =>
        rw [List.cons_append, List.cons_append, write, write, List.headD_cons, List.tail_cons,
          List.headD_cons, List.tail_cons, ih fits.2, List.append_assoc]

def width : Layout → Nat
  | [] => 0
  | .sign _ :: rest => width rest + 1
  | .numeral length :: rest => length + width rest

theorem length_write (layout : Layout) (numbers : List Nat) :
    (write layout numbers).length = width layout := by
  induction layout generalizing numbers with
  | nil => rfl
  | cons part rest ih =>
    cases part with
    | sign char => rw [write, List.length_cons, ih, width]
    | numeral length => rw [write, List.length_append, Layouts.length_numeral, ih, width]

end Layout

end SogeconApp.Library
