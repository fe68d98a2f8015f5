/-
  ZeroAuth.Android.FieldBytes

  `fieldToBytes32`, `toFieldElement`, `hex` and `unhex` of android/.../sec/Crypto.kt, over all
  `BigInteger`s, byte arrays and strings.

  `toByteArray` writes a number in two's complement with room for its sign; below 2^256
  it has 1 to 33 bytes, and `fieldToBytes32` pads or strips it to 32.
-/

import ZeroAuth.Android.Crypto
import Mathlib.Data.Nat.Digits.Defs

namespace ZeroAuth.Android

namespace Crypto

open ZeroAuth.Js ZeroAuth.Lib

/-! ## Numbers -/

/-- `n.bitLength()`. -/
def bitLength (n : ℤ) : ℕ := Nat.size (if 0 ≤ n then n.toNat else (-n - 1).toNat)

/-- `n.toByteArray()`. -/
def twosComplement (n : ℤ) : List UInt8 :=
  let len := bitLength n / 8 + 1
  bigEndian len (n % 256 ^ len).toNat

def fieldToBytes32 (n : ℤ) : Except JsString (List UInt8) :=
  if n < 0 then .error (js "fieldToBytes32: negative input")
  else
    let raw := twosComplement n
    let srcOffset := if raw.length = 33 ∧ raw.head? = some 0 then 1 else 0
    let srcLen := raw.length - srcOffset
    if 32 < srcLen then .error (js "fieldToBytes32: value larger than 32 bytes")
    else .ok (List.replicate (32 - srcLen) 0 ++ (raw.drop srcOffset).take srcLen)

/-- The number that bytes denote, the first one being the highest. -/
def denoted (bytes : List UInt8) : ℕ := Nat.ofDigits 256 (bytes.map UInt8.toNat).reverse

theorem bigInteger_eq (bytes : List UInt8) : bigInteger bytes = denoted bytes := by
  have hfold : ∀ v : ℕ, bytes.foldl shiftIn v = v * 256 ^ bytes.length + denoted bytes := by
    induction bytes with
    | nil =>
        intro v
        show v = v * 1 + 0
        omega
    | cons b bytes ih =>
        intro v
        have hsplit : denoted (b :: bytes) = denoted bytes + 256 ^ bytes.length * b.toNat := by
          rw [denoted, List.map_cons, List.reverse_cons, Nat.ofDigits_append, List.length_reverse,
            List.length_map, Nat.ofDigits_singleton]
          rfl
        rw [List.foldl_cons, ih, shiftIn_eq, hsplit, List.length_cons, Nat.pow_succ]
        ring
  rw [bigInteger, hfold 0, zero_mul, zero_add]

theorem denoted_lt (bytes : List UInt8) : denoted bytes < 256 ^ bytes.length := by
  have hlt := Nat.ofDigits_lt_base_pow_length (b := 256)
    (l := (bytes.map UInt8.toNat).reverse) (by omega) (fun d hd => ?_)
  · rwa [List.length_reverse, List.length_map] at hlt
  · obtain ⟨b, -, rfl⟩ := List.mem_map.mp (List.mem_reverse.mp hd)
    exact b.toNat_lt

/-- A number that is not negative has the bytes that the derivations use. -/
theorem twosComplement_natCast (n : ℕ) : twosComplement n = bigIntegerBytes n := by
  have hbits : bitLength n = Nat.size n := by
    rw [bitLength, if_pos (Int.natCast_nonneg n), Int.toNat_natCast]
  have hlt : n < 256 ^ (Nat.size n / 8 + 1) := bigIntegerBytes_lt n
  have hmod : ((n : ℤ) % 256 ^ (Nat.size n / 8 + 1)).toNat = n := by
    rw [Int.emod_eq_of_lt (Int.natCast_nonneg n) (by exact_mod_cast hlt), Int.toNat_natCast]
  show bigEndian (bitLength n / 8 + 1) ((n : ℤ) % 256 ^ (bitLength n / 8 + 1)).toNat = _
  rw [hbits, hmod, bigIntegerBytes]

/-- On these the two `fieldToBytes32` are one function. -/
theorem fieldToBytes32_natCast (n : ℕ) : fieldToBytes32 n = Android.fieldToBytes32 n := by
  rw [fieldToBytes32, if_neg (by omega), Android.fieldToBytes32, twosComplement_natCast]
  have hpos : 0 < (bigIntegerBytes n).length := by
    rw [bigIntegerBytes, length_bigEndian]
    omega
  dsimp only
  by_cases hsign : (bigIntegerBytes n).length = 33 ∧ (bigIntegerBytes n).head? = some 0
  · -- the sign byte is stripped
    rw [if_pos hsign, if_pos hsign, List.length_drop, hsign.1]
    rw [if_neg (by omega), if_pos (by omega), List.take_of_length_le]
    rw [List.length_drop, hsign.1]
  · rw [if_neg hsign, if_neg hsign, Nat.sub_zero, List.drop_zero]
    by_cases hlong : 32 < (bigIntegerBytes n).length
    · rw [if_pos hlong, if_neg (by omega)]
    · rw [if_neg hlong, if_pos (by omega), List.take_length]

/-- Above 2^256 there is no sign byte to strip, or one more byte. -/
theorem fieldToBytes32_of_le {n : ℕ} (h : 2 ^ 256 ≤ n) :
    fieldToBytes32 n = .error (js "fieldToBytes32: value larger than 32 bytes") := by
  have hsize : 256 < Nat.size n := Nat.lt_size.mpr h
  have hlength : (bigIntegerBytes n).length = Nat.size n / 8 + 1 := length_bigEndian _ _
  have hnot : ¬ ((bigIntegerBytes n).length = 33 ∧ (bigIntegerBytes n).head? = some 0) := by
    rintro ⟨hlen, hhead⟩
    rw [hlength] at hlen
    -- the first of 33 bytes is not zero
    have hlt := bigIntegerBytes_lt n
    rw [hlen] at hlt
    rw [bigIntegerBytes, hlen, bigEndian_succ, List.head?_cons] at hhead
    have hbyte := congrArg UInt8.toNat (Option.some.inj hhead)
    have hdiv : n / 256 ^ 32 < 256 := Nat.div_lt_of_lt_mul (by rw [← Nat.pow_succ]; exact hlt)
    have hpow : (256 : ℕ) ^ 32 = 2 ^ 256 := by norm_num
    have hone : 0 < n / 256 ^ 32 := Nat.div_pos (hpow ▸ h) (by positivity)
    simp only [UInt8.toNat_ofNat', UInt8.toNat_ofNat] at hbyte
    omega
  rw [fieldToBytes32_natCast, Android.fieldToBytes32, if_neg hnot, if_neg (by omega)]

/-! ## Hex -/

/-- `joinToString("") { "%02x".format(it) }`. -/
def hex (buf : List UInt8) : JsString := hexBytes buf

/-- `Character.digit(c, 16)`; `other` is its table beyond ASCII. -/
def characterDigit (other : CodeUnit → Option (Fin 16)) (c : CodeUnit) : Option ℕ :=
  if c.val < 128 then digitIn 16 c else (other c).map Fin.val

/-- The loop, from byte `i` on. -/
def unhexFrom (other : CodeUnit → Option (Fin 16)) (i : ℕ) : JsString → Except JsString (List UInt8)
  | hi :: lo :: s =>
      match characterDigit other hi, characterDigit other lo with
      | some hi, some lo => do return UInt8.ofNat (hi <<< 4 ||| lo) :: (← unhexFrom other (i + 1) s)
      | _, _ => .error (js "unhex: invalid character at " ++ numText 10 i)
  | _ => .ok []

def unhex (other : CodeUnit → Option (Fin 16)) (s : JsString) : Except JsString (List UInt8) :=
  if s.length % 2 ≠ 0 then .error (js "unhex: odd length string") else unhexFrom other 0 s

/-- `0`-`9`, `A`-`F`, `a`-`f`. -/
def IsHexDigit (u : CodeUnit) : Prop :=
  (48 ≤ u.val ∧ u.val ≤ 57) ∨ (65 ≤ u.val ∧ u.val ≤ 70) ∨ (97 ≤ u.val ∧ u.val ≤ 102)

section

variable {other : CodeUnit → Option (Fin 16)}

theorem characterDigit_digitUnit {d : ℕ} (hd : d < 16) :
    characterDigit other (digitUnit d) = some d := by
  rw [characterDigit, if_pos (digitUnit_lt hd)]
  exact digitIn_digitUnit (by omega) hd

/-- A hex digit has a value, and is its digit up to the case. -/
theorem characterDigit_of_isHexDigit (other : CodeUnit → Option (Fin 16)) {u : CodeUnit} (hu : IsHexDigit u) :
    ∃ d < 16, characterDigit other u = some d ∧ digitUnit d = asciiLower u := by
  have hascii : u.val < 128 := by
    rcases hu with hu | hu | hu <;> omega
  have hall : ∀ n < 128, (48 ≤ n ∧ n ≤ 57) ∨ (65 ≤ n ∧ n ≤ 70) ∨ (97 ≤ n ∧ n ≤ 102) →
      ∃ d < 16, digitIn 16 (Fin.ofNat 0x10000 n) = some d ∧
        digitUnit d = asciiLower (Fin.ofNat 0x10000 n) := by decide
  obtain ⟨d, hd, hdigit, hlower⟩ := hall u.val hascii hu
  have hself : Fin.ofNat 0x10000 u.val = u := Fin.ofNat_val_eq_self u
  rw [hself] at hdigit hlower
  refine ⟨d, hd, ?_, hlower⟩
  rw [characterDigit, if_pos hascii, hdigit]

/-- Two digits are one byte. -/
theorem toNat_pair {h l : ℕ} (hh : h < 16) (hl : l < 16) :
    (UInt8.ofNat (h <<< 4 ||| l)).toNat = 16 * h + l := by
  have hor : h <<< 4 ||| l = 16 * h + l := by
    rw [← Nat.shiftLeft_add_eq_or_of_lt (by omega : l < 2 ^ 4), Nat.shiftLeft_eq]
    omega
  rw [hor, UInt8.toNat_ofNat']
  exact Nat.mod_eq_of_lt (by omega)

theorem unhexFrom_hex (buf : List UInt8) (i : ℕ) : unhexFrom other i (hex buf) = .ok buf := by
  induction buf generalizing i with
  | nil => rfl
  | cons b buf ih =>
      have hhi : b.toNat / 16 < 16 := by
        have := b.toNat_lt
        omega
      have hlo : b.toNat % 16 < 16 := Nat.mod_lt _ (by omega)
      have hbyte : UInt8.ofNat ((b.toNat / 16) <<< 4 ||| b.toNat % 16) = b := by
        apply UInt8.toNat_inj.mp
        rw [toNat_pair hhi hlo]
        omega
      have ih : unhexFrom other (i + 1) (hexBytes buf) = .ok buf := ih (i + 1)
      rw [hex, hexBytes_cons, unhexFrom, characterDigit_digitUnit hhi, characterDigit_digitUnit hlo]
      dsimp only
      rw [hbyte, ih]
      rfl

theorem unhex_hex (buf : List UInt8) : unhex other (hex buf) = .ok buf := by
  have hlength : (hex buf).length = 2 * buf.length := length_hexBytes buf
  rw [unhex, if_neg (by omega)]
  exact unhexFrom_hex buf 0

theorem hex_unhexFrom (n i : ℕ) (s : JsString) (hlength : s.length = 2 * n)
    (hs : ∀ u ∈ s, IsHexDigit u) :
    ∃ buf, unhexFrom other i s = .ok buf ∧ hex buf = s.map asciiLower := by
  induction n generalizing i s with
  | zero =>
      obtain rfl : s = [] := List.length_eq_zero_iff.mp hlength
      exact ⟨[], rfl, rfl⟩
  | succ n ih =>
      match s, hlength, hs with
      | hi :: lo :: s, hlength, hs =>
          obtain ⟨h, hh, hhi, hlowerHi⟩ := characterDigit_of_isHexDigit other
            (hs hi List.mem_cons_self)
          obtain ⟨l, hl, hlo, hlowerLo⟩ := characterDigit_of_isHexDigit other
            (hs lo (List.mem_cons_of_mem _ List.mem_cons_self))
          have hrest : s.length = 2 * n := by
            rw [List.length_cons, List.length_cons] at hlength
            omega
          obtain ⟨buf, hbuf, hmap⟩ := ih (i + 1) s hrest fun u hu =>
            hs u (List.mem_cons_of_mem _ (List.mem_cons_of_mem _ hu))
          refine ⟨UInt8.ofNat (h <<< 4 ||| l) :: buf, ?_, ?_⟩
          · rw [unhexFrom, hhi, hlo]
            dsimp only
            rw [hbuf]
            rfl
          · have hdiv : (16 * h + l) / 16 = h := by omega
            have hmod : (16 * h + l) % 16 = l := by omega
            rw [hex, hexBytes_cons, toNat_pair hh hl, hdiv, hmod, hlowerHi, hlowerLo]
            show asciiLower hi :: asciiLower lo :: hex buf = _
            rw [hmap]
            rfl

end

/-! ## Byte forms -/

/-- Field elements and byte strings survive their byte and hex forms. -/
theorem byte_forms (other : CodeUnit → Option (Fin 16)) :
    (∀ n : ℕ, n < 2 ^ 256 → ∃ bytes, fieldToBytes32 n = .ok bytes ∧ bytes.length = 32 ∧
      bigInteger bytes = n) ∧
    (∀ n : ℤ, n < 0 ∨ 2 ^ 256 ≤ n → ∃ e, fieldToBytes32 n = .error e) ∧
    (∀ buf, unhex other (hex buf) = .ok buf) ∧
    (∀ s : JsString, s.length % 2 = 0 → (∀ u ∈ s, IsHexDigit u) →
      ∃ buf, unhex other s = .ok buf ∧ hex buf = s.map asciiLower) ∧
    (∀ buf : List UInt8, 31 ≤ buf.length → toFieldElement buf = .ok (denoted (buf.take 31)) ∧
      denoted (buf.take 31) < 2 ^ 248) := by
  refine ⟨fun n hn => ?_, fun n hn => ?_, unhex_hex, fun s hlength hs => ?_, fun buf hlength => ?_⟩
  · have hlt : n < 256 ^ 32 := by
      calc n < 2 ^ 256 := hn
        _ = 256 ^ 32 := by norm_num
    refine ⟨bigEndian 32 n, ?_, length_bigEndian 32 n, bigInteger_bigEndian hlt⟩
    rw [fieldToBytes32_natCast, fieldToBytes32_eq hlt]
  · rcases hn with hneg | hlarge
    · exact ⟨_, if_pos hneg⟩
    · obtain ⟨m, rfl⟩ := Int.eq_ofNat_of_zero_le (le_trans (by positivity) hlarge)
      exact ⟨_, fieldToBytes32_of_le (by exact_mod_cast hlarge)⟩
  · rw [unhex, if_neg (by omega)]
    exact hex_unhexFrom (s.length / 2) 0 s (by omega) hs
  · have htake : (buf.take 31).length = 31 := by
      rw [List.length_take]
      omega
    have hlt := denoted_lt (buf.take 31)
    rw [htake] at hlt
    constructor
    · show (if 31 ≤ buf.length then _ else _) = _
      rw [if_pos hlength, bigInteger_eq]
      rfl
    · calc denoted (buf.take 31) < 256 ^ 31 := hlt
        _ = 2 ^ 248 := by norm_num

end Crypto

end ZeroAuth.Android
