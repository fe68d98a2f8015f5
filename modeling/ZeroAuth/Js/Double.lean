/-
  ZeroAuth.Js.Double

  `Number(n)` of a non-negative BigInt: the nearest double, which has 53
  significant bits; of two nearest ones the even one.
-/

import Mathlib.Algebra.Group.Nat.Defs
import Mathlib.Data.Nat.Log

namespace ZeroAuth.Js

/-- How many low bits of `n` do not fit into a double. -/
def excessBits (n : ℕ) : ℕ := Nat.log 2 n - 52

def toNumber (n : ℕ) : ℕ :=
  let unit := 2 ^ excessBits n
  let quotient := n / unit
  let remainder := n % unit
  if 2 * remainder < unit then quotient * unit
  else if unit < 2 * remainder then (quotient + 1) * unit
  else (quotient + quotient % 2) * unit

/-- A BigInt with at most 53 significant bits is kept. -/
theorem toNumber_of_dvd {n : ℕ} (h : 2 ^ excessBits n ∣ n) : toNumber n = n := by
  have hpos : 0 < 2 ^ excessBits n := Nat.two_pow_pos _
  have hzero : n % 2 ^ excessBits n = 0 := Nat.mod_eq_zero_of_dvd h
  rw [toNumber, hzero, if_pos (by omega), Nat.div_mul_cancel h]

/-- What a conversion answers has at most 53 significant bits; the others are
    changed. -/
theorem toNumber_eq_self_iff {n : ℕ} : toNumber n = n ↔ 2 ^ excessBits n ∣ n := by
  refine ⟨fun h => ?_, toNumber_of_dvd⟩
  rw [toNumber] at h
  split at h
  · exact ⟨_, by rw [Nat.mul_comm]; exact h.symm⟩
  · split at h
    · exact ⟨_, by rw [Nat.mul_comm]; exact h.symm⟩
    · exact ⟨_, by rw [Nat.mul_comm]; exact h.symm⟩

theorem excessBits_eq_zero {n : ℕ} (h : n < 2 ^ 53) : excessBits n = 0 := by
  have hlog : Nat.log 2 n < 53 := Nat.log_lt_of_lt_pow' (by omega) h
  rw [excessBits]
  omega

theorem toNumber_of_le {n : ℕ} (h : n ≤ 2 ^ 53) : toNumber n = n := by
  rcases Nat.lt_or_ge n (2 ^ 53) with hlt | hge
  · refine toNumber_of_dvd ?_
    rw [excessBits_eq_zero hlt, Nat.pow_zero]
    exact Nat.one_dvd n
  · obtain rfl : n = 2 ^ 53 := le_antisymm h hge
    rfl

/-- Rounding does not go below `2 ^ 53`. -/
theorem two_pow_le_toNumber {n : ℕ} (h : 2 ^ 53 ≤ n) : 2 ^ 53 ≤ toNumber n := by
  have hlog : 53 ≤ Nat.log 2 n := Nat.le_log_of_pow_le (by decide) h
  have hunit : 2 ^ 52 * 2 ^ excessBits n = 2 ^ Nat.log 2 n := by
    rw [← Nat.pow_add, excessBits]
    congr 1
    omega
  have hpow : 2 ^ Nat.log 2 n ≤ n := Nat.pow_log_le_self 2 (by omega)
  have hquotient : 2 ^ 52 ≤ n / 2 ^ excessBits n :=
    (Nat.le_div_iff_mul_le (Nat.two_pow_pos _)).mpr (by rw [hunit]; exact hpow)
  have hkeep : ∀ q, n / 2 ^ excessBits n ≤ q → 2 ^ 53 ≤ q * 2 ^ excessBits n := by
    intro q hq
    calc 2 ^ 53 ≤ 2 ^ Nat.log 2 n := Nat.pow_le_pow_right (by decide) hlog
      _ = 2 ^ 52 * 2 ^ excessBits n := hunit.symm
      _ ≤ q * 2 ^ excessBits n := Nat.mul_le_mul_right _ (hquotient.trans hq)
  rw [toNumber]
  split
  · exact hkeep _ (Nat.le_refl _)
  · split
    · exact hkeep _ (Nat.le_add_right _ _)
    · exact hkeep _ (Nat.le_add_right _ _)

example : toNumber (2 ^ 53 + 1) = 2 ^ 53 := rfl

end ZeroAuth.Js
