/-
  ZeroAuth.Lib.Words

  Numbers of a fixed width: their bytes, most significant first, and the blocks
  of addresses that agree with a base address in their leading bits.
-/

import Mathlib.Data.BitVec
import Mathlib.Data.List.Basic
import Mathlib.Tactic.Ring

namespace ZeroAuth.Lib

/-! ## Bytes -/

/-- The lowest `k` bytes of a number. -/
def bigEndian (k n : ℕ) : List UInt8 := (List.range k).reverse.map fun i => UInt8.ofNat (n >>> (8 * i))

/-- Shift one more byte in at the low end. -/
def shiftIn (v : ℕ) (b : UInt8) : ℕ := v <<< 8 ||| b.toNat

theorem shiftIn_eq (v : ℕ) (b : UInt8) : shiftIn v b = v * 256 + b.toNat := by
  have hb : b.toNat < 2 ^ 8 := b.toNat_lt
  rw [shiftIn, ← Nat.shiftLeft_add_eq_or_of_lt hb, Nat.shiftLeft_eq]

theorem bigEndian_succ (k n : ℕ) :
    bigEndian (k + 1) n = UInt8.ofNat (n / 256 ^ k) :: bigEndian k n := by
  rw [bigEndian, List.range_succ, List.reverse_append, List.reverse_singleton, List.singleton_append,
    List.map_cons, Nat.shiftRight_eq_div_pow, Nat.pow_mul]
  rfl

@[simp] theorem length_bigEndian (k n : ℕ) : (bigEndian k n).length = k := by simp [bigEndian]

/-- Shifting the bytes in again gives the number modulo its width. -/
theorem foldl_shiftIn_bigEndian (k n v : ℕ) :
    (bigEndian k n).foldl shiftIn v = v * 256 ^ k + n % 256 ^ k := by
  induction k generalizing v with
  | zero => simp [bigEndian, Nat.mod_one]
  | succ k ih =>
      have hbyte : (UInt8.ofNat (n / 256 ^ k)).toNat = n / 256 ^ k % 256 := by simp
      rw [bigEndian_succ, List.foldl_cons, ih, shiftIn_eq, hbyte, Nat.mod_pow_succ, Nat.pow_succ]
      ring

/-! ## Blocks of addresses, in CIDR notation -/

/-- `base/length`. -/
structure AddressBlock (w : ℕ) where
  base : BitVec w
  length : ℕ

namespace AddressBlock

variable {w : ℕ}

/-- The leading bits are those of the base. -/
def Contains (block : AddressBlock w) (address : BitVec w) : Prop :=
  address >>> (w - block.length) = block.base >>> (w - block.length)

instance (block : AddressBlock w) (address : BitVec w) : Decidable (block.Contains address) :=
  inferInstanceAs (Decidable (_ = _))

/-- A block as an interval of numbers, cut by a division. -/
theorem contains_iff {block : AddressBlock w} {address : BitVec w} :
    block.Contains address ↔
      address.toNat / 2 ^ (w - block.length) = block.base.toNat / 2 ^ (w - block.length) := by
  unfold Contains
  rw [BitVec.toNat_eq, BitVec.toNat_ushiftRight, BitVec.toNat_ushiftRight,
    Nat.shiftRight_eq_div_pow, Nat.shiftRight_eq_div_pow]

end AddressBlock

end ZeroAuth.Lib
