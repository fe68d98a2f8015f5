/-
  ZeroAuth.Android.Text

  Kotlin strings.  They are sequences of UTF-16 code units, as in JavaScript; a
  lone surrogate is encoded as `?`.
-/

import ZeroAuth.Js.Number

namespace ZeroAuth.Android

open ZeroAuth.Js

/-- The character of a code unit that is not part of a pair, as `getBytes` sees
    it. -/
def byteChar (u : CodeUnit) : Char := if isSurrogate u then '?' else Char.ofNat u.val

/-- The characters that `toByteArray(Charsets.UTF_8)` encodes. -/
def byteChars : JsString → List Char
  | [] => []
  | [u] => [byteChar u]
  | h :: l :: s =>
      if isHigh h && isLow l then pairChar h l :: byteChars s else byteChar h :: byteChars (l :: s)

def toByteArray (s : JsString) : List UInt8 := (byteChars s).flatMap String.utf8EncodeChar

theorem byteChar_eq {u : CodeUnit} (h : isSurrogate u = false) : byteChar u = unitChar u := by
  rw [byteChar, unitChar, h, if_neg (by simp), if_neg (by simp)]

theorem byteChars_eq {s : JsString} (h : WellFormed s = true) : byteChars s = scalars s := by
  induction s using scalars.induct with
  | case1 => rfl
  | case2 u =>
      simp only [WellFormed, Bool.not_eq_true'] at h
      rw [byteChars, scalars, byteChar_eq h]
  | case3 a b s hp ih =>
      simp only [WellFormed, hp, if_true] at h
      rw [byteChars, if_pos hp, scalars, if_pos hp, ih h]
  | case4 a b s hp ih =>
      simp only [WellFormed, hp, Bool.and_eq_true, Bool.not_eq_true', Bool.false_eq_true,
        if_false] at h
      rw [byteChars, if_neg hp, scalars, if_neg hp, byteChar_eq h.1, ih h.2]

/-- Without lone surrogates the two languages encode a string alike. -/
theorem toByteArray_eq_utf8 {s : JsString} (h : WellFormed s = true) : toByteArray s = utf8 s :=
  congrArg (List.flatMap String.utf8EncodeChar) (byteChars_eq h)

/-- Case folding, exact where the other side is ASCII: U+0130, U+0131, U+017F and
    U+212A are the other characters that fold to a letter of ASCII. -/
def foldCase (u : CodeUnit) : CodeUnit :=
  if u.val = 0x130 ∨ u.val = 0x131 then 73
  else if u.val = 0x17F then 83
  else if u.val = 0x212A then 75
  else asciiUpper u

/-- `equals(other, ignoreCase = true)` where one of the strings is ASCII. -/
def equalsIgnoreCase (s other : JsString) : Bool := s.map foldCase == other.map foldCase

theorem equalsIgnoreCase_self (s : JsString) : equalsIgnoreCase s s = true := beq_self_eq_true _

end ZeroAuth.Android
