/-
  ZeroAuth.Js.Number

  Integers as text: `toString(10)`, `toString(16)`, `padStart`, `BigInt(string)`
  and the hex encoding of bytes (`digest('hex')`, `Buffer.from(s, 'hex')`).
-/

import Mathlib.Data.Nat.Digits.Lemmas
import ZeroAuth.Js.Text

namespace ZeroAuth.Js

/-- The digit `d`, as `toString` prints it. -/
def digitUnit (d : ℕ) : CodeUnit := Fin.ofNat _ (if d < 10 then 48 + d else 87 + d)

/-- The value of a digit: `0`-`9`, then letters of either case. -/
def digitValue (u : CodeUnit) : Option ℕ :=
  if 48 ≤ u.val ∧ u.val ≤ 57 then some (u.val - 48)
  else if 97 ≤ u.val ∧ u.val ≤ 122 then some (u.val - 87)
  else if 65 ≤ u.val ∧ u.val ≤ 90 then some (u.val - 55)
  else none

/-- The value of a digit of base `b`. -/
def digitIn (b : ℕ) (u : CodeUnit) : Option ℕ := (digitValue u).filter (· < b)

/-- `n.toString(b)`. -/
def numText (b n : ℕ) : JsString :=
  if n = 0 then [48] else ((Nat.digits b n).map digitUnit).reverse

/-- The number that a non-empty string of base-`b` digits denotes. -/
def readDigits (b : ℕ) (s : JsString) : Option ℕ :=
  if s = [] then none else (s.mapM (digitIn b)).map fun ds => Nat.ofDigits b ds.reverse

/-- `s.padStart(n, '0')`. -/
def padStart (n : ℕ) (s : JsString) : JsString := List.replicate (n - s.length) 48 ++ s

def signedText (b : ℕ) (i : ℤ) : JsString :=
  if i < 0 then 45 :: numText b i.natAbs else numText b i.natAbs

/-- `BigInt(s)` for a string: white space is trimmed, the empty string is 0,
    decimal digits may carry a sign, and `0x`, `0o`, `0b` introduce other bases.
    `none` is the SyntaxError. -/
def bigIntOf (s : JsString) : Option ℤ :=
  match trim s with
  | [] => some 0
  | 45 :: ds => (readDigits 10 ds).map fun n => -(n : ℤ)
  | 43 :: ds => (readDigits 10 ds).map fun n => (n : ℤ)
  | 48 :: x :: ds =>
      if x = 120 ∨ x = 88 then (readDigits 16 ds).map fun n => (n : ℤ)
      else if x = 111 ∨ x = 79 then (readDigits 8 ds).map fun n => (n : ℤ)
      else if x = 98 ∨ x = 66 then (readDigits 2 ds).map fun n => (n : ℤ)
      else (readDigits 10 (48 :: x :: ds)).map fun n => (n : ℤ)
  | ds => (readDigits 10 ds).map fun n => (n : ℤ)

/-- `digest('hex')`. -/
def hexBytes (bs : List UInt8) : JsString :=
  bs.flatMap fun b => [digitUnit (b.toNat / 16), digitUnit (b.toNat % 16)]

/-- `Buffer.from(s, 'hex')`: decoding stops at the first pair that is not two
    hex digits; an odd last digit is dropped. -/
def bufferFromHex : JsString → List UInt8
  | a :: b :: s =>
      match digitIn 16 a, digitIn 16 b with
      | some x, some y => UInt8.ofNat (16 * x + y) :: bufferFromHex s
      | _, _ => []
  | _ => []

/-! ## Printing and reading back -/

theorem digitIn_digitUnit {b d : ℕ} (hb : b ≤ 36) (hd : d < b) :
    digitIn b (digitUnit d) = some d := by
  have hall : ∀ d < 36, digitValue (digitUnit d) = some d := by decide
  simp [digitIn, hall d (by omega), hd]

theorem mapM_digitIn {b : ℕ} (hb : b ≤ 36) {ds : List ℕ} (hds : ∀ d ∈ ds, d < b) :
    (ds.map digitUnit).mapM (digitIn b) = some ds := by
  induction ds with
  | nil => rfl
  | cons d ds ih =>
      rw [List.map_cons, List.mapM_cons, digitIn_digitUnit hb (hds d (by simp)),
        ih fun d' hd' => hds d' (by simp [hd'])]
      rfl

theorem readDigits_numText {b : ℕ} (hb₂ : 2 ≤ b) (hb : b ≤ 36) (n : ℕ) :
    readDigits b (numText b n) = some n := by
  by_cases hn : n = 0
  · subst hn
    have h0 : digitIn b 48 = some 0 := digitIn_digitUnit hb (d := 0) (by omega)
    simp [numText, readDigits, h0]
  · have hne : ((Nat.digits b n).map digitUnit).reverse ≠ [] := by
      simpa using Nat.digits_ne_nil_iff_ne_zero.mpr hn
    rw [numText, if_neg hn, readDigits, if_neg hne, ← List.map_reverse,
      mapM_digitIn hb fun d hd => Nat.digits_lt_base (by omega) (List.mem_reverse.mp hd)]
    simp [Nat.ofDigits_digits]

theorem mem_numText {b : ℕ} (hb : 2 ≤ b) {n : ℕ} {u : CodeUnit} (hu : u ∈ numText b n) :
    ∃ d < b, u = digitUnit d := by
  unfold numText at hu
  split at hu
  · exact ⟨0, by omega, List.mem_singleton.mp hu⟩
  · rw [List.mem_reverse, List.mem_map] at hu
    obtain ⟨d, hd, rfl⟩ := hu
    exact ⟨d, Nat.digits_lt_base (by omega) hd, rfl⟩

theorem numText_ne_nil (b n : ℕ) : numText b n ≠ [] := by
  unfold numText
  split
  · simp
  · next hn => simpa using Nat.digits_ne_nil_iff_ne_zero.mpr hn

theorem val_digitUnit {d : ℕ} (hd : d < 10) : (digitUnit d).val = 48 + d := by
  have hall : ∀ d < 10, (digitUnit d).val = 48 + d := by decide
  exact hall d hd

/-- Decimal digits are neither white space nor signs. -/
theorem val_of_mem_numText {n : ℕ} {u : CodeUnit} (hu : u ∈ numText 10 n) :
    48 ≤ u.val ∧ u.val < 58 := by
  obtain ⟨d, hd, rfl⟩ := mem_numText (by omega) hu
  rw [val_digitUnit hd]
  omega

theorem isWhiteSpace_of_digit {u : CodeUnit} (h : 48 ≤ u.val ∧ u.val < 58) :
    isWhiteSpace u = false := by
  simp only [isWhiteSpace, Bool.or_eq_false_iff, Bool.and_eq_false_iff, decide_eq_false_iff_not,
    beq_eq_false_iff_ne]
  omega

theorem trim_numText (n : ℕ) : trim (numText 10 n) = numText 10 n :=
  trim_of_forall fun _ hu => isWhiteSpace_of_digit (val_of_mem_numText hu)

/-- `BigInt` reads decimal digits. -/
theorem bigIntOf_numText (n : ℕ) : bigIntOf (numText 10 n) = some (n : ℤ) := by
  have hread : (readDigits 10 (numText 10 n)).map (fun n => (n : ℤ)) = some (n : ℤ) := by
    rw [readDigits_numText (by omega) (by omega)]
    rfl
  have hdigit : ∀ u ∈ numText 10 n, 48 ≤ u.val ∧ u.val < 58 := fun _ => val_of_mem_numText
  unfold bigIntOf
  rw [trim_numText]
  split
  · next heq => exact absurd heq (numText_ne_nil 10 n)
  · next ds heq =>
      have h45 := hdigit 45 (by rw [heq]; simp)
      exact absurd h45 (by decide)
  · next ds heq =>
      have h43 := hdigit 43 (by rw [heq]; simp)
      exact absurd h43 (by decide)
  · next x ds heq =>
      -- a leading zero is followed by a digit, not by the letter of a base
      have hx := hdigit x (by rw [heq]; simp)
      have hne : ∀ v : CodeUnit, 58 ≤ v.val → x ≠ v := by
        rintro v hv rfl
        omega
      rw [if_neg (not_or.mpr ⟨hne 120 (by decide), hne 88 (by decide)⟩),
        if_neg (not_or.mpr ⟨hne 111 (by decide), hne 79 (by decide)⟩),
        if_neg (not_or.mpr ⟨hne 98 (by decide), hne 66 (by decide)⟩), ← heq]
      exact hread
  · exact hread

/-- `BigInt(i.toString())` is `i`. -/
theorem bigIntOf_signedText (i : ℤ) : bigIntOf (signedText 10 i) = some i := by
  rw [signedText]
  by_cases hi : i < 0
  · have htrim : trim (45 :: numText 10 i.natAbs) = 45 :: numText 10 i.natAbs := by
      refine trim_of_forall fun u hu => ?_
      rcases List.mem_cons.mp hu with rfl | hu
      · decide
      · exact isWhiteSpace_of_digit (val_of_mem_numText hu)
    have habs : -(i.natAbs : ℤ) = i := by omega
    rw [if_pos hi, bigIntOf, htrim]
    simp only [readDigits_numText (b := 10) (by omega) (by omega)]
    exact congrArg some habs
  · rw [if_neg hi, bigIntOf_numText, Option.some.injEq]
    omega

theorem signedText_injective : Function.Injective (signedText 10) := by
  intro i j h
  have hi := bigIntOf_signedText i
  rw [h, bigIntOf_signedText j] at hi
  exact (Option.some.inj hi).symm

theorem mem_padStart {n : ℕ} {s : JsString} {u : CodeUnit} (hu : u ∈ padStart n s) :
    u = 48 ∨ u ∈ s := by
  rcases List.mem_append.mp hu with hu | hu
  · exact .inl (List.eq_of_mem_replicate hu)
  · exact .inr hu

theorem digitUnit_lt {d : ℕ} (hd : d < 16) : (digitUnit d).val < 0x80 := by
  have hall : ∀ d < 16, (digitUnit d).val < 0x80 := by decide
  exact hall d hd

theorem mem_hexBytes {bs : List UInt8} {u : CodeUnit} (hu : u ∈ hexBytes bs) :
    ∃ d < 16, u = digitUnit d := by
  obtain ⟨b, -, hu⟩ := List.mem_flatMap.mp hu
  have hb : b.toNat < 256 := b.toNat_lt
  rcases List.mem_pair.mp hu with rfl | rfl
  · exact ⟨_, by omega, rfl⟩
  · exact ⟨_, by omega, rfl⟩

theorem isAscii_hexBytes (bs : List UInt8) : IsAscii (hexBytes bs) := by
  intro u hu
  obtain ⟨d, hd, rfl⟩ := mem_hexBytes hu
  exact digitUnit_lt hd

/-- Digits are letters and decimal digits of ASCII. -/
theorem val_of_digitIn {b : ℕ} {u : CodeUnit} (h : (digitIn b u).isSome = true) :
    48 ≤ u.val ∧ u.val ≤ 122 ∧ u.val ≠ 58 := by
  by_contra hne
  have hnone : digitValue u = none := by
    unfold digitValue
    rw [if_neg (by omega), if_neg (by omega), if_neg (by omega)]
  rw [digitIn, hnone] at h
  cases h

theorem bufferFromHex_hexBytes (bs : List UInt8) : bufferFromHex (hexBytes bs) = bs := by
  induction bs with
  | nil => rfl
  | cons b bs ih =>
      have hb : b.toNat < 256 := b.toNat_lt
      have hhi : digitIn 16 (digitUnit (b.toNat / 16)) = some (b.toNat / 16) :=
        digitIn_digitUnit (by omega) (by omega)
      have hlo : digitIn 16 (digitUnit (b.toNat % 16)) = some (b.toNat % 16) :=
        digitIn_digitUnit (by omega) (by omega)
      have hval : UInt8.ofNat (16 * (b.toNat / 16) + b.toNat % 16) = b := by
        rw [Nat.div_add_mod, UInt8.ofNat_toNat]
      rw [hexBytes, List.flatMap_cons, List.cons_append, List.cons_append, List.nil_append,
        bufferFromHex, hhi, hlo, ← hexBytes, ih]
      exact congrArg (· :: bs) hval

theorem hexBytes_injective : Function.Injective hexBytes :=
  Function.LeftInverse.injective bufferFromHex_hexBytes

end ZeroAuth.Js
