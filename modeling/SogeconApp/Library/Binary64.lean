import Mathlib.Data.Int.Log
import Mathlib.Data.Rat.Floor
import Mathlib.Tactic.Linarith
import Mathlib.Tactic.Positivity

/-!
# Magnitudes of binary64 numbers

The finite values of the format without their sign, and rounding to the nearest of them, ties to an even
significand. A value of the format is its own rounding, and its floor is a value of the format.
-/

namespace SogeconApp.Library.Binary64

def IsBinary64 (value : ℚ) : Prop :=
  ∃ (significand : ℕ) (exponent : ℤ), significand < 2 ^ 53 ∧ -1074 ≤ exponent ∧
    value = significand * 2 ^ exponent ∧ value < 2 ^ 1024

abbrev Magnitude := { value : ℚ // IsBinary64 value }

def roundHalfEven (value : ℚ) : ℤ :=
  let rest := value - ⌊value⌋
  if rest < 1 / 2 then ⌊value⌋
  else if 1 / 2 < rest then ⌊value⌋ + 1
  else if Even ⌊value⌋ then ⌊value⌋
  else ⌊value⌋ + 1

/-- The exponent of the last place of the values next to this one. -/
def lastPlace (value : ℚ) : ℤ := max (Int.log 2 value - 52) (-1074)

def nearest (value : ℚ) : ℚ := roundHalfEven (value / 2 ^ lastPlace value) * 2 ^ lastPlace value

variable {value : ℚ}

theorem two_zpow_pos (exponent : ℤ) : (0 : ℚ) < 2 ^ exponent := zpow_pos (by norm_num) exponent

/-! ## Rounding to an integer -/

theorem roundHalfEven_intCast (number : ℤ) : roundHalfEven number = number := by
  simp [roundHalfEven]

theorem floor_le_roundHalfEven (value : ℚ) : ⌊value⌋ ≤ roundHalfEven value := by
  unfold roundHalfEven
  extract_lets rest
  split_ifs <;> omega

theorem roundHalfEven_le (value : ℚ) : roundHalfEven value ≤ ⌊value⌋ + 1 := by
  unfold roundHalfEven
  extract_lets rest
  split_ifs <;> omega

theorem roundHalfEven_nonneg (nonneg : 0 ≤ value) : 0 ≤ roundHalfEven value :=
  (Int.floor_nonneg.mpr nonneg).trans (floor_le_roundHalfEven value)

theorem roundHalfEven_le_of_lt {bound : ℤ} (less : value < bound) : roundHalfEven value ≤ bound := by
  have below : ⌊value⌋ < bound := Int.floor_lt.mpr less
  have above := roundHalfEven_le value
  omega

/-! ## Values of the format -/

/-- Every natural number that fits into the significand is a value of the format. -/
theorem isBinary64_natCast {number : ℕ} (small : number < 2 ^ 53) : IsBinary64 number := by
  have large : (2 : ℚ) ^ 53 ≤ 2 ^ 1024 := pow_le_pow_right₀ (by norm_num) (by norm_num)
  have less : (number : ℚ) < 2 ^ 53 := by exact_mod_cast small
  exact ⟨number, 0, small, by decide, by simp, less.trans_le large⟩

/-- The last place of a value is no finer than that of its significand. -/
theorem lastPlace_le {significand : ℕ} {exponent : ℤ} (positive : 0 < significand) (small : significand < 2 ^ 53)
    (low : -1074 ≤ exponent) : lastPlace (significand * 2 ^ exponent) ≤ exponent := by
  have positive' : (0 : ℚ) < significand * 2 ^ exponent :=
    mul_pos (Nat.cast_pos.mpr positive) (two_zpow_pos exponent)
  have below : (significand : ℚ) * 2 ^ exponent < 2 ^ (53 + exponent) := by
    rw [zpow_add₀ (by norm_num)]
    have less : (significand : ℚ) < 2 ^ (53 : ℤ) := by exact_mod_cast small
    exact mul_lt_mul_of_pos_right less (two_zpow_pos exponent)
  have log := (Int.zpow_log_le_self (b := 2) (by norm_num) positive').trans_lt below
  push_cast at log
  have least := (zpow_lt_zpow_iff_right₀ (by norm_num : (1 : ℚ) < 2)).mp log
  unfold lastPlace
  omega

/-- In units of its last place a value of the format is whole. -/
theorem IsBinary64.whole (representable : IsBinary64 value) :
    ∃ number : ℤ, value = number * 2 ^ lastPlace value := by
  obtain ⟨significand, exponent, small, low, same, -⟩ := representable
  rcases Nat.eq_zero_or_pos significand with zero | positive
  · exact ⟨0, by simp [same, zero]⟩
  · have coarse := lastPlace_le positive small low
    rw [← same] at coarse
    obtain ⟨steps, apart⟩ := Int.le.dest coarse
    refine ⟨significand * 2 ^ steps, ?_⟩
    have split : (2 : ℚ) ^ exponent = 2 ^ steps * 2 ^ lastPlace value := by
      rw [← apart, add_comm, zpow_add₀ (by norm_num), zpow_natCast]
    conv_lhs => rw [same, split]
    push_cast
    ring

/-- A value of the format is an integer in its last place, and so its own rounding. -/
theorem nearest_of_isBinary64 (representable : IsBinary64 value) : nearest value = value := by
  obtain ⟨number, same⟩ := representable.whole
  have units : value / 2 ^ lastPlace value = number := (div_eq_iff (two_zpow_pos _).ne').mpr same
  rw [nearest, units, roundHalfEven_intCast, ← same]

/-- In its last place a number is less than the significand's bound, so the rounded one fits into 53
bits. -/
theorem scaled_lt (value : ℚ) : value / 2 ^ lastPlace value < (2 ^ 53 : ℤ) := by
  have above := Int.lt_zpow_succ_log_self (b := 2) (by norm_num) value
  rw [div_lt_iff₀ (two_zpow_pos _)]
  calc value
    _ < 2 ^ (Int.log 2 value + 1) := by exact_mod_cast above
    _ ≤ 2 ^ (53 + lastPlace value) := by
      refine zpow_le_zpow_right₀ (by norm_num) ?_
      unfold lastPlace
      omega
    _ = (2 ^ 53 : ℤ) * 2 ^ lastPlace value := by
      rw [zpow_add₀ (by norm_num)]
      norm_num

/-- What rounding gives is a value of the format, if it is not too large. -/
theorem isBinary64_nearest (nonneg : 0 ≤ value) (finite : nearest value < 2 ^ 1024) :
    IsBinary64 (nearest value) := by
  obtain ⟨significand, same⟩ := Int.eq_ofNat_of_zero_le
    (roundHalfEven_nonneg (div_nonneg nonneg (two_zpow_pos (lastPlace value)).le))
  have bound := roundHalfEven_le_of_lt (scaled_lt value)
  have fine : -1074 ≤ lastPlace value := le_max_right _ _
  rcases lt_or_eq_of_le bound with less | full
  · refine ⟨significand, lastPlace value, by omega, fine, ?_, finite⟩
    rw [nearest, same]
    rfl
  · -- The carry out of the significand.
    refine ⟨2 ^ 52, lastPlace value + 1, by norm_num, by omega, ?_, finite⟩
    rw [nearest, full, zpow_add₀ (by norm_num)]
    push_cast
    ring

/-- The floor of a value of the format is one. -/
theorem isBinary64_floor (representable : IsBinary64 value) : IsBinary64 (⌊value⌋₊ : ℚ) := by
  obtain ⟨significand, exponent, small, low, same, finite⟩ := representable
  rcases le_or_gt 0 exponent with whole | fraction
  · obtain ⟨steps, rfl⟩ := Int.eq_ofNat_of_zero_le whole
    have natural : value = ((significand * 2 ^ steps : ℕ) : ℚ) := by
      rw [same]
      push_cast
      rw [zpow_natCast]
    have floor : (⌊value⌋₊ : ℚ) = value := by rw [natural, Nat.floor_natCast]
    rw [floor]
    exact ⟨significand, steps, small, low, same, finite⟩
  · refine isBinary64_natCast (lt_of_le_of_lt ?_ small)
    refine Nat.floor_le_of_le ?_
    rw [same]
    have smaller : (2 : ℚ) ^ exponent ≤ 1 := zpow_le_one_of_nonpos₀ (by norm_num) fraction.le
    exact mul_le_of_le_one_right (Nat.cast_nonneg _) smaller

/-! ## Rounding -/

/-- The nearest value of the format; none if the magnitude overflows to infinity. -/
def round (value : ℚ) (nonneg : 0 ≤ value) : Option Magnitude :=
  if finite : nearest value < 2 ^ 1024 then some ⟨nearest value, isBinary64_nearest nonneg finite⟩ else none

theorem round_of_isBinary64 (representable : IsBinary64 value) (nonneg : 0 ≤ value) :
    round value nonneg = some ⟨value, representable⟩ := by
  have same := nearest_of_isBinary64 representable
  have finite : nearest value < 2 ^ 1024 := by
    obtain ⟨-, -, -, -, -, finite⟩ := representable
    rwa [same]
  rw [round, dif_pos finite]
  exact congrArg some (Subtype.ext same)

end SogeconApp.Library.Binary64
