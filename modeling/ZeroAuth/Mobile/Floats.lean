/-
  ZeroAuth.Mobile.Floats

  `Float` arithmetic of Kotlin over the rationals: the result of an operation is the
  nearest float to the exact value, of two nearest ones the even one.  Overflow to
  infinity is not modelled by `toFloat`; no caller comes near it.
-/

import Mathlib.Data.Int.Log
import Mathlib.Data.Rat.Floor
import Mathlib.Tactic.Linarith
import Mathlib.Tactic.Positivity
import Mathlib.Tactic.FieldSimp
import Mathlib.Tactic.Ring

namespace ZeroAuth.Mobile

/-- A `Float`; a finite one is its value. -/
inductive KFloat
  | nan
  | infinite (negative : Bool)
  | finite (value : ℚ)
  deriving DecidableEq

/-- The nearest integer, of two nearest ones the even one. -/
def roundEven (x : ℚ) : ℤ :=
  let f := ⌊x⌋
  if x - f < 1 / 2 then f else if 1 / 2 < x - f then f + 1 else f + f % 2

/-- The distance of the floats around `x`: 24 significant bits, and no bit below
    `2 ^ -149`. -/
def floatUnit (x : ℚ) : ℚ := 2 ^ max (Int.log 2 |x| - 23) (-149)

/-- The result of an arithmetic operation whose exact value is `x`. -/
def toFloat (x : ℚ) : ℚ := roundEven (x / floatUnit x) * floatUnit x

/-- `x.roundToInt()`: ties go up. -/
def roundToInt (x : ℚ) : ℤ := ⌊x + 1 / 2⌋

/-- `x.toInt()`: towards zero, and to the nearest `Int` where there is none. -/
def toInt (x : ℚ) : ℤ := max (-2 ^ 31) (min (2 ^ 31 - 1) (if 0 ≤ x then ⌊x⌋ else ⌈x⌉))

/-! ## Rounding -/

theorem floatUnit_pos (x : ℚ) : 0 < floatUnit x := zpow_pos (by norm_num) _

theorem roundEven_nonneg {x : ℚ} (h : 0 ≤ x) : 0 ≤ roundEven x := by
  have hf : 0 ≤ ⌊x⌋ := Int.floor_nonneg.mpr h
  simp only [roundEven]
  split_ifs <;> omega

/-- Rounding at most doubles. -/
theorem roundEven_le {x : ℚ} (h : 0 ≤ x) : (roundEven x : ℚ) ≤ 2 * x := by
  have hf : (⌊x⌋ : ℚ) ≤ x := Int.floor_le x
  have h0 : (0 : ℚ) ≤ ⌊x⌋ := by exact_mod_cast Int.floor_nonneg.mpr h
  simp only [roundEven]
  split_ifs with hlow hhigh
  · linarith
  · push_cast
    linarith
  · -- a tie: the even neighbour is the upper one only above 1
    have hmod : ⌊x⌋ % 2 = 0 ∨ ⌊x⌋ % 2 = 1 := Int.emod_two_eq_zero_or_one _
    rcases hmod with hmod | hmod <;> rw [hmod] <;> push_cast <;> linarith

theorem roundEven_intCast (n : ℤ) : roundEven n = n := by
  simp [roundEven]

theorem toFloat_nonneg {x : ℚ} (h : 0 ≤ x) : 0 ≤ toFloat x := by
  have hu := floatUnit_pos x
  have hr : (0 : ℚ) ≤ roundEven (x / floatUnit x) := by
    exact_mod_cast roundEven_nonneg (div_nonneg h hu.le)
  exact mul_nonneg hr hu.le

theorem toFloat_le {x : ℚ} (h : 0 ≤ x) : toFloat x ≤ 2 * x := by
  have hu := floatUnit_pos x
  have hr := roundEven_le (div_nonneg h hu.le)
  calc toFloat x = roundEven (x / floatUnit x) * floatUnit x := rfl
    _ ≤ 2 * (x / floatUnit x) * floatUnit x := mul_le_mul_of_nonneg_right hr hu.le
    _ = 2 * x := by field_simp

/-- Integers of 24 bits are floats. -/
theorem toFloat_intCast {n : ℤ} (h : |n| < 2 ^ 24) : toFloat n = n := by
  by_cases h0 : n = 0
  · subst h0
    have hz : roundEven ((0 : ℚ) / floatUnit 0) = 0 := by rw [zero_div]; exact roundEven_intCast 0
    rw [toFloat, Int.cast_zero, hz]
    simp
  · have hlog : Int.log 2 |(n : ℚ)| ≤ 23 := by
      have hpos : (0 : ℚ) < |(n : ℚ)| := abs_pos.mpr (by exact_mod_cast h0)
      have hlt : |(n : ℚ)| < (2 : ℕ) ^ (24 : ℤ) := by exact_mod_cast h
      have := (Int.lt_zpow_iff_log_lt (by norm_num : 1 < 2) hpos).mp hlt
      omega
    obtain ⟨k, hk⟩ : ∃ k : ℕ, max (Int.log 2 |(n : ℚ)| - 23) (-149) = -(k : ℤ) := by
      refine ⟨(-(max (Int.log 2 |(n : ℚ)| - 23) (-149))).toNat, ?_⟩
      omega
    have hunit : floatUnit (n : ℚ) = (2 ^ k)⁻¹ := by
      rw [floatUnit, hk, zpow_neg, zpow_natCast]
    have hdiv : (n : ℚ) / (2 ^ k)⁻¹ = ((n * 2 ^ k : ℤ) : ℚ) := by
      rw [div_inv_eq_mul]
      push_cast
      rfl
    rw [toFloat, hunit, hdiv, roundEven_intCast]
    push_cast
    field_simp

theorem toInt_of_nonneg {x : ℚ} (h : 0 ≤ x) (hlt : x < 2 ^ 31) : toInt x = ⌊x⌋ := by
  have hfloor : 0 ≤ ⌊x⌋ := Int.floor_nonneg.mpr h
  have hlt' : ⌊x⌋ < 2 ^ 31 := Int.floor_lt.mpr (by exact_mod_cast hlt)
  rw [toInt, if_pos h]
  omega

end ZeroAuth.Mobile
