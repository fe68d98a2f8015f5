/-
  ZeroAuth.Js.Text

  JavaScript strings: sequences of UTF-16 code units, with the string
  operations the services use, and their UTF-8 form (what `Buffer.from(s)` and
  `hash.update(s, 'utf8')` see; a lone surrogate is encoded as U+FFFD).
-/

import Mathlib.Data.List.Lex
import Mathlib.Data.Fin.Basic

namespace ZeroAuth.Js

/-- A UTF-16 code unit. -/
abbrev CodeUnit := Fin 0x10000

abbrev JsString := List CodeUnit

instance (priority := 2000) neZeroUnits : @NeZero ℕ Zero.ofOfNat0 0x10000 := ⟨by decide⟩

instance (priority := 2000) lawfulBEqJsString : LawfulBEq JsString := inferInstance

/-- The code units of one character. -/
def charUnits (c : Char) : JsString :=
  if c.toNat < 0x10000 then [Fin.ofNat _ c.toNat]
  else [Fin.ofNat _ (0xD800 + (c.toNat - 0x10000) / 0x400),
    Fin.ofNat _ (0xDC00 + (c.toNat - 0x10000) % 0x400)]

/-- A string literal. -/
def js (s : String) : JsString := s.toList.flatMap charUnits

/-! ## Surrogates and UTF-8 -/

def isHigh (u : CodeUnit) : Bool := 0xD800 ≤ u.val && u.val < 0xDC00

def isLow (u : CodeUnit) : Bool := 0xDC00 ≤ u.val && u.val < 0xE000

def isSurrogate (u : CodeUnit) : Bool := isHigh u || isLow u

/-- The character of a surrogate pair. -/
def pairChar (h l : CodeUnit) : Char :=
  Char.ofNat (0x10000 + (h.val - 0xD800) * 0x400 + (l.val - 0xDC00))

/-- The character of a code unit that is not part of a pair. -/
def unitChar (u : CodeUnit) : Char :=
  if isSurrogate u then Char.ofNat 0xFFFD else Char.ofNat u.val

/-- The characters of a string, every lone surrogate replaced by U+FFFD. -/
def scalars : JsString → List Char
  | [] => []
  | [u] => [unitChar u]
  | h :: l :: s =>
      if isHigh h && isLow l then pairChar h l :: scalars s else unitChar h :: scalars (l :: s)

/-- The UTF-8 encoding of a string. -/
def utf8 (s : JsString) : List UInt8 := (scalars s).flatMap String.utf8EncodeChar

/-- No lone surrogates. -/
def WellFormed : JsString → Bool
  | [] => true
  | [u] => !isSurrogate u
  | h :: l :: s =>
      if isHigh h && isLow l then WellFormed s else !isSurrogate h && WellFormed (l :: s)

def IsAscii (s : JsString) : Prop := ∀ u ∈ s, u.val < 0x80

instance (s : JsString) : Decidable (IsAscii s) :=
  decidable_of_iff ((s.all fun u => u.val < 0x80) = true) (by simp [IsAscii])

theorem isSurrogate_eq_false_of_lt {u : CodeUnit} (h : u.val < 0xD800) : isSurrogate u = false := by
  simp only [isSurrogate, isHigh, isLow, Bool.or_eq_false_iff, Bool.and_eq_false_iff,
    decide_eq_false_iff_not]
  omega

theorem charUnits_pairChar {h l : CodeUnit} (hh : isHigh h = true) (hl : isLow l = true) :
    charUnits (pairChar h l) = [h, l] := by
  simp only [isHigh, isLow, Bool.and_eq_true, decide_eq_true_eq] at hh hl
  have hv : (0x10000 + (h.val - 0xD800) * 0x400 + (l.val - 0xDC00)).isValidChar := by
    right
    omega
  have ht : (pairChar h l).toNat = 0x10000 + (h.val - 0xD800) * 0x400 + (l.val - 0xDC00) := by
    rw [pairChar, Char.ofNat, dif_pos hv]
    exact UInt32.toNat_ofNatLT
  have h₁ : Fin.ofNat 0x10000 (0xD800 + ((pairChar h l).toNat - 0x10000) / 0x400) = h := by
    rw [ht, Fin.ext_iff, Fin.val_ofNat]
    omega
  have h₂ : Fin.ofNat 0x10000 (0xDC00 + ((pairChar h l).toNat - 0x10000) % 0x400) = l := by
    rw [ht, Fin.ext_iff, Fin.val_ofNat]
    omega
  rw [charUnits, if_neg (by omega), h₁, h₂]

theorem charUnits_unitChar {u : CodeUnit} (h : isSurrogate u = false) :
    charUnits (unitChar u) = [u] := by
  have hs := h
  simp only [isSurrogate, isHigh, isLow, Bool.or_eq_false_iff, Bool.and_eq_false_iff,
    decide_eq_false_iff_not] at hs
  have hv : u.val.isValidChar := by
    have := u.isLt
    unfold Nat.isValidChar
    omega
  have ht : (unitChar u).toNat = u.val := by
    rw [unitChar, h, if_neg (by simp), Char.ofNat, dif_pos hv]
    exact UInt32.toNat_ofNatLT
  rw [charUnits, ht, if_pos u.isLt]
  simp

/-- A string without lone surrogates is given by its characters. -/
theorem flatMap_scalars {s : JsString} (h : WellFormed s = true) :
    (scalars s).flatMap charUnits = s := by
  induction s using scalars.induct with
  | case1 => rfl
  | case2 u =>
      simp only [WellFormed, Bool.not_eq_true'] at h
      simp [scalars, charUnits_unitChar h]
  | case3 a b s hp ih =>
      have hpair := hp
      simp only [Bool.and_eq_true] at hpair
      simp only [WellFormed, hp, if_true] at h
      simp [scalars, hp, charUnits_pairChar hpair.1 hpair.2, ih h]
  | case4 a b s hp ih =>
      simp only [WellFormed, hp, Bool.and_eq_true, Bool.not_eq_true', Bool.false_eq_true,
        if_false] at h
      rw [scalars, if_neg hp, List.flatMap_cons, charUnits_unitChar h.1, ih h.2]
      rfl

/-- A prefix without lone surrogates is read the same whatever follows. -/
theorem scalars_append {s : JsString} (h : WellFormed s = true) (x : JsString) :
    scalars (s ++ x) = scalars s ++ scalars x := by
  induction s using scalars.induct with
  | case1 => rfl
  | case2 u =>
      simp only [WellFormed, Bool.not_eq_true'] at h
      have hh : isHigh u = false := by
        simp only [isSurrogate, Bool.or_eq_false_iff] at h
        exact h.1
      cases x with
      | nil => rfl
      | cons v x => simp [scalars, hh]
  | case3 a b s hp ih =>
      simp only [WellFormed, hp, if_true] at h
      simp [scalars, hp, ih h]
  | case4 a b s hp ih =>
      simp only [WellFormed, hp, Bool.and_eq_true, Bool.not_eq_true', Bool.false_eq_true,
        if_false] at h
      have ih := ih h.2
      simp only [List.cons_append] at ih ⊢
      rw [scalars, if_neg hp, scalars, if_neg hp, ih]
      rfl

theorem wellFormed_append {s x : JsString} (h : WellFormed s = true) :
    WellFormed (s ++ x) = WellFormed x := by
  induction s using scalars.induct with
  | case1 => rfl
  | case2 u =>
      simp only [WellFormed, Bool.not_eq_true'] at h
      have hh : isHigh u = false := by
        simp only [isSurrogate, Bool.or_eq_false_iff] at h
        exact h.1
      cases x with
      | nil => simp [WellFormed, h]
      | cons v x => simp [WellFormed, hh, h]
  | case3 a b s hp ih =>
      simp only [WellFormed, hp, if_true] at h
      simp [WellFormed, hp, ih h]
  | case4 a b s hp ih =>
      simp only [WellFormed, hp, Bool.and_eq_true, Bool.not_eq_true', Bool.false_eq_true,
        if_false] at h
      have ih := ih h.2
      simp only [List.cons_append] at ih ⊢
      rw [WellFormed, if_neg hp, ih, h.1]
      rfl

theorem wellFormed_cons_of_not_surrogate {u : CodeUnit} {s : JsString} (h : isSurrogate u = false) :
    WellFormed (u :: s) = WellFormed s :=
  wellFormed_append (s := [u]) (by simp [WellFormed, h])

/-- A character is never half of a surrogate pair. -/
theorem wellFormed_charUnits (c : Char) : WellFormed (charUnits c) = true := by
  have hvalid : c.toNat < 0xD800 ∨ 0xDFFF < c.toNat ∧ c.toNat < 0x110000 := c.valid
  unfold charUnits
  by_cases hsmall : c.toNat < 0x10000
  · rw [if_pos hsmall, WellFormed, Bool.not_eq_true', isSurrogate, isHigh, isLow]
    simp only [Fin.val_ofNat, Nat.mod_eq_of_lt hsmall, Bool.or_eq_false_iff,
      Bool.and_eq_false_iff, decide_eq_false_iff_not]
    omega
  · rw [if_neg hsmall]
    have hhigh : isHigh (Fin.ofNat 0x10000 (0xD800 + (c.toNat - 0x10000) / 0x400)) = true := by
      simp only [isHigh, Fin.val_ofNat, Bool.and_eq_true, decide_eq_true_eq]
      omega
    have hlow : isLow (Fin.ofNat 0x10000 (0xDC00 + (c.toNat - 0x10000) % 0x400)) = true := by
      simp only [isLow, Fin.val_ofNat, Bool.and_eq_true, decide_eq_true_eq]
      omega
    rw [WellFormed, hhigh, hlow]
    rfl

theorem wellFormed_flatMap_charUnits (cs : List Char) :
    WellFormed (cs.flatMap charUnits) = true := by
  induction cs with
  | nil => rfl
  | cons c cs ih => rw [List.flatMap_cons, wellFormed_append (wellFormed_charUnits c), ih]

theorem IsAscii.wellFormed {s : JsString} (h : IsAscii s) : WellFormed s = true := by
  induction s with
  | nil => rfl
  | cons u s ih =>
      have hu : u.val < 0x80 := h u (by simp)
      rw [wellFormed_cons_of_not_surrogate (isSurrogate_eq_false_of_lt (by omega))]
      exact ih fun v hv => h v (by simp [hv])

theorem scalars_eq_of_utf8_eq {s s' : JsString} (h : utf8 s = utf8 s') : scalars s = scalars s' := by
  have henc : (scalars s).utf8Encode = (scalars s').utf8Encode := congrArg List.toByteArray h
  have hdec := congrArg ByteArray.utf8Decode? henc
  rw [List.utf8Decode?_utf8Encode, List.utf8Decode?_utf8Encode] at hdec
  exact Array.toList_inj.mpr (Option.some.inj hdec)

/-- UTF-8 is faithful on strings without lone surrogates. -/
theorem utf8_injective_of_wellFormed {s s' : JsString} (hs : WellFormed s = true)
    (hs' : WellFormed s' = true) (h : utf8 s = utf8 s') : s = s' := by
  rw [← flatMap_scalars hs, ← flatMap_scalars hs', scalars_eq_of_utf8_eq h]

/-- Concatenation keeps ASCII. -/
theorem IsAscii.append {s s' : JsString} (h : IsAscii s) (h' : IsAscii s') : IsAscii (s ++ s') := by
  intro u hu
  rcases List.mem_append.mp hu with hu | hu
  · exact h u hu
  · exact h' u hu

/-! ## String methods -/

/-- White space and line terminators, as `String.prototype.trim` removes them. -/
def isWhiteSpace (u : CodeUnit) : Bool :=
  (9 ≤ u.val && u.val ≤ 13) || u.val == 0x20 || u.val == 0xA0 || u.val == 0x1680 ||
    (0x2000 ≤ u.val && u.val ≤ 0x200A) || u.val == 0x2028 || u.val == 0x2029 ||
    u.val == 0x202F || u.val == 0x205F || u.val == 0x3000 || u.val == 0xFEFF

def trim (s : JsString) : JsString :=
  ((s.dropWhile isWhiteSpace).reverse.dropWhile isWhiteSpace).reverse

theorem trim_of_forall {s : JsString} (h : ∀ u ∈ s, isWhiteSpace u = false) : trim s = s := by
  have hd : ∀ l : JsString, (∀ u ∈ l, isWhiteSpace u = false) → l.dropWhile isWhiteSpace = l := by
    intro l hl
    cases l with
    | nil => rfl
    | cons u l => simp [hl u (by simp)]
  rw [trim, hd s h, hd _ (by simpa using h), List.reverse_reverse]

/-- `s.includes(part)`. -/
def includes (s part : JsString) : Bool := s.tails.any part.isPrefixOf

def asciiLower (u : CodeUnit) : CodeUnit :=
  if 0x41 ≤ u.val ∧ u.val ≤ 0x5A then u + 0x20 else u

def asciiUpper (u : CodeUnit) : CodeUnit :=
  if 0x61 ≤ u.val ∧ u.val ≤ 0x7A then u - 0x20 else u

/-- The Unicode case mappings behind `toLowerCase` and `toUpperCase`; on ASCII
    strings they are the ASCII ones. -/
structure CaseMapping where
  toLowerCase : JsString → JsString
  toUpperCase : JsString → JsString
  lower_ascii : ∀ s, IsAscii s → toLowerCase s = s.map asciiLower
  upper_ascii : ∀ s, IsAscii s → toUpperCase s = s.map asciiUpper

/-- The case mappings restricted to ASCII. -/
def CaseMapping.ascii : CaseMapping :=
  ⟨List.map asciiLower, List.map asciiUpper, fun _ _ => rfl, fun _ _ => rfl⟩

end ZeroAuth.Js
