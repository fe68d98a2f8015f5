/-
  ZeroAuth.Js.Hex

  Numbers of a fixed number of bytes, and their texts of a fixed number of hex
  digits: `n.toString(16).padStart(2 * k, '0')`; the escapes of `encodeURIComponent`.
-/

import ZeroAuth.Js.Number
import ZeroAuth.Lib.Words

namespace ZeroAuth.Js

open ZeroAuth.Lib

/-- The lowest `w` digits of a number in base `b`, the highest first. -/
def lowDigits (b w n : ℕ) : JsString :=
  (List.range w).reverse.map fun i => digitUnit (n / b ^ i % b)

@[simp] theorem length_lowDigits (b w n : ℕ) : (lowDigits b w n).length = w := by
  simp [lowDigits]

theorem lowDigits_succ (b w n : ℕ) :
    lowDigits b (w + 1) n = digitUnit (n / b ^ w % b) :: lowDigits b w n := by
  rw [lowDigits, List.range_succ, List.reverse_append, List.reverse_singleton,
    List.singleton_append, List.map_cons, lowDigits]

/-- A text that is padded to `w` digits has exactly the `w` lowest digits. -/
theorem padStart_numText {b w n : ℕ} (hb : 1 < b) (hw : 0 < w) (hn : n < b ^ w) :
    padStart w (numText b n) = lowDigits b w n := by
  have hrev : (padStart w (numText b n)).reverse =
      (List.range w).map fun i => digitUnit (n / b ^ i % b) := by
    by_cases h0 : n = 0
    · -- the one digit that is printed for 0 is a digit of padding
      subst h0
      have hone : w - 1 + 1 = w := by omega
      have hpad : padStart w (numText b 0) = List.replicate w 48 := by
        rw [numText, if_pos rfl, padStart, List.length_singleton, ← List.replicate_succ', hone]
      rw [hpad, List.reverse_replicate]
      apply List.ext_getElem
      · simp
      · intro i h₁ h₂
        simp [digitUnit]
    · have hlen : (Nat.digits b n).length ≤ w := (Nat.digits_length_le_iff hb n).mpr hn
      rw [numText, if_neg h0, padStart, List.reverse_append, List.reverse_reverse,
        List.reverse_replicate, List.length_reverse, List.length_map]
      apply List.ext_getElem
      · simp only [List.length_append, List.length_map, List.length_replicate, List.length_range]
        omega
      · intro i h₁ h₂
        have hdigit := Nat.getD_digits n i (b := b) hb
        rw [List.getElem_map, List.getElem_range, ← hdigit, List.getElem_append]
        split
        · next hi =>
            rw [List.length_map] at hi
            rw [List.getElem_map, List.getD_eq_getElem?_getD, List.getElem?_eq_getElem hi, Option.getD_some]
        · next hi =>
            rw [List.length_map] at hi
            rw [List.getElem_replicate, List.getD_eq_getElem?_getD, List.getElem?_eq_none (by omega),
              Option.getD_none]
            rfl
  rw [lowDigits, List.map_reverse, ← hrev, List.reverse_reverse]

theorem hexBytes_cons (x : UInt8) (bs : List UInt8) :
    hexBytes (x :: bs) =
      digitUnit (x.toNat / 16) :: digitUnit (x.toNat % 16) :: hexBytes bs := rfl

theorem length_hexBytes (bs : List UInt8) : (hexBytes bs).length = 2 * bs.length := by
  induction bs with
  | nil => rfl
  | cons x bs ih =>
      rw [hexBytes_cons, List.length_cons, List.length_cons, ih, List.length_cons]
      omega

/-- Two hex digits for each byte. -/
theorem hexBytes_bigEndian (k n : ℕ) : hexBytes (bigEndian k n) = lowDigits 16 (2 * k) n := by
  induction k with
  | zero => rfl
  | succ k ih =>
      have hpow : 256 ^ k = 16 ^ (2 * k) := by
        rw [pow_mul]
        norm_num
      have hbyte : (UInt8.ofNat (n / 256 ^ k)).toNat = n / 256 ^ k % 256 := by simp
      have hhi : n / 16 ^ (2 * k) % 256 / 16 = n / 16 ^ (2 * k + 1) % 16 := by
        rw [pow_succ, ← Nat.div_div_eq_div_mul]
        omega
      have hlo : n / 16 ^ (2 * k) % 256 % 16 = n / 16 ^ (2 * k) % 16 := by omega
      rw [bigEndian_succ, hexBytes_cons, hbyte, ih, hpow, hhi, hlo, Nat.mul_succ, lowDigits_succ,
        lowDigits_succ]

/-- The hex text of a number of at most `k` bytes, padded, is that of its `k` bytes. -/
theorem padStart_hex {k n : ℕ} (hk : 0 < k) (hn : n < 256 ^ k) :
    padStart (2 * k) (numText 16 n) = hexBytes (bigEndian k n) := by
  have hlt : n < 16 ^ (2 * k) := by
    rw [pow_mul]
    exact hn
  rw [hexBytes_bigEndian, padStart_numText (by omega) (by omega) hlt]

theorem mem_lowDigits {b w n : ℕ} (hb : 0 < b) {u : CodeUnit} (hu : u ∈ lowDigits b w n) :
    ∃ d < b, u = digitUnit d := by
  obtain ⟨i, -, rfl⟩ := List.mem_map.mp hu
  exact ⟨_, Nat.mod_lt _ hb, rfl⟩

/-- Padded digits are read back. -/
theorem readDigits_lowDigits {b w n : ℕ} (hb₂ : 2 ≤ b) (hb : b ≤ 36) (hw : 0 < w) (hn : n < b ^ w) :
    readDigits b (lowDigits b w n) = some n := by
  have hdigits : ∀ d ∈ (List.range w).reverse.map (fun i => n / b ^ i % b), d < b := by
    intro d hd
    obtain ⟨i, -, rfl⟩ := List.mem_map.mp hd
    exact Nat.mod_lt _ (by omega)
  have hmap : lowDigits b w n =
      ((List.range w).reverse.map fun i => n / b ^ i % b).map digitUnit := by
    rw [lowDigits, List.map_map]
    rfl
  have hne : lowDigits b w n ≠ [] := by
    intro h
    have hlen := length_lowDigits b w n
    rw [h, List.length_nil] at hlen
    omega
  have hval (k : ℕ) : Nat.ofDigits b ((List.range k).map fun i => n / b ^ i % b) = n % b ^ k := by
    induction k with
    | zero => simp [Nat.mod_one]
    | succ k ih =>
        rw [List.range_succ, List.map_append, Nat.ofDigits_append, ih, List.length_map,
          List.length_range, List.map_singleton, Nat.ofDigits_singleton, Nat.mod_pow_succ]
  rw [readDigits, if_neg hne, hmap, mapM_digitIn hb hdigits, Option.map_some, ← List.map_reverse,
    List.reverse_reverse, hval, Nat.mod_eq_of_lt hn]

/-! ## Escapes of a URI -/

/-- The letters, digits and marks that `encodeURIComponent` leaves as they are. -/
def isUriUnreserved (b : UInt8) : Bool :=
  (65 ≤ b && b ≤ 90) || (97 ≤ b && b ≤ 122) || (48 ≤ b && b ≤ 57) ||
    [45, 95, 46, 33, 126, 42, 39, 40, 41].contains b

/-- `none` is the URIError for a lone surrogate. -/
def encodeURIComponent (s : JsString) : Option JsString :=
  if WellFormed s then
    some ((utf8 s).flatMap fun b =>
      if isUriUnreserved b then [Fin.ofNat _ b.toNat]
      else 37 :: [b.toNat / 16, b.toNat % 16].map fun d => asciiUpper (digitUnit d))
  else none

end ZeroAuth.Js
