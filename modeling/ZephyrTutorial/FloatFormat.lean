import Mathlib.Algebra.Order.Field.Power
import Mathlib.Data.Int.Log
import Mathlib.Data.Rat.Floor
import Mathlib.Tactic.Linarith

/-! Binary floating-point formats over the rationals. A number is rounded to the nearest multiple of the unit
in its last place, and to the even one of two that are as near. The exponents have no upper bound, so that
there is no infinity. -/

namespace ZephyrTutorial.FloatFormat

def nearestEven (value : ℚ) : Int :=
  if value - ⌊value⌋ < 1 / 2 then ⌊value⌋
  else if 1 / 2 < value - ⌊value⌋ then ⌊value⌋ + 1
  else if ⌊value⌋ % 2 = 0 then ⌊value⌋
  else ⌊value⌋ + 1

theorem floor_le_nearestEven (value : ℚ) : ⌊value⌋ ≤ nearestEven value := by
  unfold nearestEven
  split_ifs <;> omega

theorem nearestEven_le_floor (value : ℚ) : nearestEven value ≤ ⌊value⌋ + 1 := by
  unfold nearestEven
  split_ifs <;> omega

@[simp]
theorem nearestEven_intCast (whole : Int) : nearestEven whole = whole := by
  simp [nearestEven]

theorem nearestEven_mono {small large : ℚ} (ordered : small ≤ large) : nearestEven small ≤ nearestEven large := by
  rcases (Int.floor_mono ordered).lt_or_eq with less | same
  · have upper := nearestEven_le_floor small
    have lower := floor_le_nearestEven large
    omega
  · unfold nearestEven
    rw [same]
    split_ifs <;> first | omega | linarith

structure Format where
  /-- How many bits a number has, the leading one included. -/
  precision : Nat
  /-- The exponent of the least number that has all of them. -/
  minExponent : Int
  positive : 0 < precision

namespace Format
variable (format : Format)

/-- The exponent of the last place. -/
def lastPlace (value : ℚ) : Int := max (Int.log 2 |value|) format.minExponent - (format.precision - 1 : Int)

def ulp (value : ℚ) : ℚ := 2 ^ format.lastPlace value

def round (value : ℚ) : ℚ := nearestEven (value / format.ulp value) * format.ulp value

variable {format}

theorem ulp_pos (value : ℚ) : 0 < format.ulp value := zpow_pos two_pos _

theorem lastPlace_mono {small large : ℚ} (positive : 0 < small) (ordered : small ≤ large) :
    format.lastPlace small ≤ format.lastPlace large := by
  have logs : Int.log 2 |small| ≤ Int.log 2 |large| := by
    rw [abs_of_pos positive, abs_of_pos (positive.trans_le ordered)]
    exact Int.log_mono_right positive ordered
  unfold lastPlace
  omega

/-- A power of two is a whole number of each place that is not above it. -/
private theorem pow_div_ulp {value : ℚ} {exponent : Int} (above : format.lastPlace value ≤ exponent) :
    (2 : ℚ) ^ exponent / format.ulp value = ((2 ^ (exponent - format.lastPlace value).toNat : Int) : ℚ) := by
  rw [ulp, ← zpow_sub₀ two_ne_zero]
  push_cast
  rw [← zpow_natCast, Int.toNat_of_nonneg (by omega)]

/-- A power of two is not passed in rounding. -/
theorem le_round {value : ℚ} {exponent : Int} (above : format.lastPlace value ≤ exponent)
    (reached : 2 ^ exponent ≤ value) : 2 ^ exponent ≤ format.round value := by
  have unit := format.ulp_pos value
  have places := nearestEven_mono (div_le_div_of_nonneg_right reached unit.le)
  rw [pow_div_ulp above, nearestEven_intCast] at places
  rw [round, ← div_le_iff₀ unit, pow_div_ulp above]
  exact Int.cast_le.mpr places

theorem round_le {value : ℚ} {exponent : Int} (above : format.lastPlace value ≤ exponent)
    (below : value ≤ 2 ^ exponent) : format.round value ≤ 2 ^ exponent := by
  have unit := format.ulp_pos value
  have places := nearestEven_mono (div_le_div_of_nonneg_right below unit.le)
  rw [pow_div_ulp above, nearestEven_intCast] at places
  rw [round, ← le_div_iff₀ unit, pow_div_ulp above]
  exact Int.cast_le.mpr places

theorem round_nonneg {value : ℚ} (nonneg : 0 ≤ value) : 0 ≤ format.round value := by
  have unit := format.ulp_pos value
  have places := nearestEven_mono (div_nonneg nonneg unit.le)
  rw [← Int.cast_zero, nearestEven_intCast] at places
  exact mul_nonneg (Int.cast_nonneg places) unit.le

/-- Numbers keep their order when they are rounded, also where the places get wider. -/
theorem round_mono {small large : ℚ} (nonneg : 0 ≤ small) (ordered : small ≤ large) :
    format.round small ≤ format.round large := by
  rcases nonneg.eq_or_lt with rfl | positive
  · have zero : format.round 0 = 0 := by simp [round, nearestEven]
    rw [zero]
    exact round_nonneg ordered
  have larger : 0 < large := positive.trans_le ordered
  have places : format.lastPlace small ≤ format.lastPlace large := lastPlace_mono positive ordered
  rcases places.lt_or_eq with wider | same
  · -- A power of two lies between the two numbers, at the begin of the wider places.
    have logs : Int.log 2 small < Int.log 2 large ∧ format.minExponent ≤ Int.log 2 large := by
      unfold lastPlace at wider
      rw [abs_of_pos positive, abs_of_pos larger] at wider
      omega
    have bits := format.positive
    have place : format.lastPlace large ≤ Int.log 2 large := by
      unfold lastPlace
      rw [abs_of_pos larger]
      omega
    have reached : (2 : ℚ) ^ Int.log 2 large ≤ large := by
      exact_mod_cast Int.zpow_log_le_self (by decide) larger
    have below : small ≤ 2 ^ Int.log 2 large := by
      have next : small < (2 : ℚ) ^ (Int.log 2 small + 1) := by
        exact_mod_cast Int.lt_zpow_succ_log_self (by decide) small
      exact next.le.trans (zpow_le_zpow_right₀ one_le_two logs.1)
    exact (round_le (wider.le.trans place) below).trans (le_round place reached)
  · have unit := format.ulp_pos large
    rw [round, round, ulp, same]
    exact mul_le_mul_of_nonneg_right
      (Int.cast_le.mpr (nearestEven_mono (div_le_div_of_nonneg_right ordered unit.le))) unit.le

end Format

/-- The format of a `float`. -/
def binary32 : Format := ⟨24, -126, by decide⟩

example : binary32.round (1 / 10) = 13421773 / 134217728 := by decide +kernel

end ZephyrTutorial.FloatFormat
