/-
  ZeroAuth.Js.Json

  JSON values and the text that `JSON.stringify` writes for them.

  The text determines the value, also when more text follows
  (`Json.readable_print`): no two values share a text, and no value's text is cut
  short by another's.  This is what makes the text usable as the input of a
  hash.
-/

import Mathlib.Data.List.Sort
import Mathlib.Data.List.TakeWhile
import ZeroAuth.Js.Number

namespace ZeroAuth.Js

/-! ## Numbers and strings -/

def isDigit (u : CodeUnit) : Bool := 48 ≤ u.val && u.val ≤ 57

/-- The characters of a number's text: digits, `.`, `e`, `+` and `-`. -/
def isNumberUnit (u : CodeUnit) : Bool :=
  isDigit u || u == 46 || u == 101 || u == 43 || u == 45

/-- An exponent, or nothing. -/
def isExponent : JsString → Bool
  | [] => true
  | 101 :: sign :: ds => (sign == 43 || sign == 45) && !ds.isEmpty && ds.all isDigit
  | _ => false

/-- A number without its sign: digits, a fraction if any, an exponent if any. -/
def isUnsigned (s : JsString) : Bool :=
  !(s.takeWhile isDigit).isEmpty &&
    match s.dropWhile isDigit with
    | 46 :: r => !(r.takeWhile isDigit).isEmpty && isExponent (r.dropWhile isDigit)
    | r => isExponent r

/-- The shape of `Number::toString` of a finite number. -/
def isNumberText : JsString → Bool
  | 45 :: s => isUnsigned s
  | s => isUnsigned s

/-- A finite number, given by its text: what `Number::toString` writes for it.  The type also
    has texts that are written for no number, as `1.0`, `007` or `-0`; what is proved for all
    texts holds for those that are written. -/
structure JsNumber where
  text : JsString
  valid : isNumberText text = true
  deriving DecidableEq

theorem isUnsigned_of_digits {s : JsString} (hne : s ≠ []) (h : ∀ u ∈ s, isDigit u = true) :
    isUnsigned s = true := by
  have htake : s.takeWhile isDigit = s := List.takeWhile_eq_self_iff.mpr h
  have hdrop : s.dropWhile isDigit = [] := List.dropWhile_eq_nil_iff.mpr h
  rw [isUnsigned, htake, hdrop]
  simp [hne, isExponent]

theorem isDigit_of_mem_numText {n : ℕ} : ∀ u ∈ numText 10 n, isDigit u = true := by
  have hall : ∀ d < 10, isDigit (digitUnit d) = true := by decide
  intro u hu
  rw [numText] at hu
  split at hu
  · obtain rfl := List.mem_singleton.mp hu
    rfl
  · obtain ⟨d, hd, rfl⟩ := List.mem_map.mp (List.mem_reverse.mp hu)
    exact hall d (Nat.digits_lt_base (by omega) hd)

theorem isUnsigned_numText (n : ℕ) : isUnsigned (numText 10 n) = true := by
  refine isUnsigned_of_digits ?_ isDigit_of_mem_numText
  rw [numText]
  split
  · simp
  · next hn => simpa using Nat.digits_ne_nil_iff_ne_zero.mpr hn

/-- An integer that JavaScript prints without an exponent. -/
def JsNumber.ofInt (i : ℤ) : JsNumber where
  text := signedText 10 i
  valid := by
    rw [signedText]
    split
    · exact isUnsigned_numText _
    · have hdigits := isUnsigned_numText i.natAbs
      unfold isNumberText
      split
      · next s heq =>
          have hminus := isDigit_of_mem_numText (n := i.natAbs) 45 (by rw [heq]; simp)
          exact absurd hminus (by decide)
      · exact hdigits

theorem JsNumber.ofInt_injective : Function.Injective JsNumber.ofInt :=
  fun _ _ h => signedText_injective (congrArg JsNumber.text h)

/-- The four hex digits of a `\u` escape. -/
def hex4 (u : CodeUnit) : JsString :=
  [digitUnit (u.val / 4096), digitUnit (u.val / 256 % 16), digitUnit (u.val / 16 % 16),
    digitUnit (u.val % 16)]

/-- How `JSON.stringify` writes a code unit that is not part of a pair. -/
def escapeUnit (u : CodeUnit) : JsString :=
  if u = 8 then [92, 98]
  else if u = 9 then [92, 116]
  else if u = 10 then [92, 110]
  else if u = 12 then [92, 102]
  else if u = 13 then [92, 114]
  else if u = 34 then [92, 34]
  else if u = 92 then [92, 92]
  else if u.val < 0x20 ∨ isSurrogate u = true then 92 :: 117 :: hex4 u
  else [u]

def escape : JsString → JsString
  | [] => []
  | [u] => escapeUnit u
  | h :: l :: s =>
      if isHigh h && isLow l then h :: l :: escape s else escapeUnit h ++ escape (l :: s)

/-- `JSON.stringify` of a string. -/
def quote (s : JsString) : JsString := 34 :: escape s ++ [34]

/-! ## Values -/

/-- A JSON value; the properties of an object are in insertion order. -/
inductive Json
  | null
  | bool (b : Bool)
  | num (n : JsNumber)
  | str (s : JsString)
  | arr (items : List Json)
  | obj (props : List (JsString × Json))

/-- `parts.join(',')`. -/
def joinComma : List JsString → JsString
  | [] => []
  | [x] => x
  | x :: y :: xs => x ++ 44 :: joinComma (y :: xs)

/-- One property of an object's text. -/
def property (k text : JsString) : JsString := quote k ++ 58 :: text

namespace Json

mutual

/-- `JSON.stringify` of a JSON value. -/
def print : Json → JsString
  | null => js "null"
  | bool true => js "true"
  | bool false => js "false"
  | num n => n.text
  | str s => quote s
  | arr items => 91 :: joinComma (printItems items) ++ [93]
  | obj props => 123 :: joinComma (printProps props) ++ [125]

def printItems : List Json → List JsString
  | [] => []
  | v :: vs => print v :: printItems vs

def printProps : List (JsString × Json) → List JsString
  | [] => []
  | (k, v) :: ps => property k (print v) :: printProps ps

end

/-- Properties sorted by key, in the order of UTF-16 code units. -/
def sortProps {α : Type} (ps : List (JsString × α)) : List (JsString × α) :=
  ps.insertionSort fun p q => p.1 ≤ q.1

mutual

/-- The value with the keys of every object sorted. -/
def norm : Json → Json
  | null => null
  | bool b => bool b
  | num n => num n
  | str s => str s
  | arr items => arr (normItems items)
  | obj props => obj (sortProps (normProps props))

def normItems : List Json → List Json
  | [] => []
  | v :: vs => norm v :: normItems vs

def normProps : List (JsString × Json) → List (JsString × Json)
  | [] => []
  | (k, v) :: ps => (k, norm v) :: normProps ps

end

/-- Equal up to the order of keys. -/
def Same (a b : Json) : Prop := norm a = norm b

theorem Same.refl (a : Json) : a.Same a := rfl

/-- The value of a key, as `obj[key]` reads it. -/
def get? (key : JsString) : Json → Option Json
  | obj props => props.lookup key
  | _ => none

end Json

/-! ## The text determines the value -/

def readHex4 (a b c d : CodeUnit) : Option CodeUnit := do
  let x ← digitIn 16 a
  let y ← digitIn 16 b
  let z ← digitIn 16 c
  let w ← digitIn 16 d
  return Fin.ofNat _ (((x * 16 + y) * 16 + z) * 16 + w)

/-- The code unit behind a two-character escape. -/
def simpleEscape (c : CodeUnit) : Option CodeUnit :=
  if c = 98 then some 8 else if c = 116 then some 9 else if c = 110 then some 10
  else if c = 102 then some 12 else if c = 114 then some 13
  else if c = 34 ∨ c = 92 ∨ c = 47 then some c else none

/-- Read the rest of a string literal: its content and what follows it.  Control characters
    have to be escaped. -/
def unescape : JsString → Option (JsString × JsString)
  | [] => none
  | u :: s =>
      if u = 34 then some ([], s)
      else if u.val < 0x20 then none
      else if u = 92 then
        match s with
        | [] => none
        | e :: r =>
            if e = 117 then
              match r with
              | a :: b :: c :: d :: r => do
                  let v ← readHex4 a b c d
                  let p ← unescape r
                  return (v :: p.1, p.2)
              | _ => none
            else do
              let v ← simpleEscape e
              let p ← unescape r
              return (v :: p.1, p.2)
      else (unescape s).map fun p => (u :: p.1, p.2)

theorem readHex4_hex4 (u : CodeUnit) :
    readHex4 (digitUnit (u.val / 4096)) (digitUnit (u.val / 256 % 16))
      (digitUnit (u.val / 16 % 16)) (digitUnit (u.val % 16)) = some u := by
  have hu := u.isLt
  simp only [readHex4, digitIn_digitUnit (b := 16) (by omega) (show u.val / 4096 < 16 by omega),
    digitIn_digitUnit (b := 16) (by omega) (show u.val / 256 % 16 < 16 by omega),
    digitIn_digitUnit (b := 16) (by omega) (show u.val / 16 % 16 < 16 by omega),
    digitIn_digitUnit (b := 16) (by omega) (show u.val % 16 < 16 by omega)]
  simp only [Option.bind_eq_bind, Option.bind_some, Option.pure_def, Option.some.injEq, Fin.ext_iff,
    Fin.val_ofNat]
  omega

theorem unescape_quote (s : JsString) : unescape (34 :: s) = some ([], s) := by
  rw [unescape.eq_def]
  rfl

theorem unescape_plain {u : CodeUnit} (h₃₄ : u ≠ 34) (h₉₂ : u ≠ 92) (h₃₂ : ¬ u.val < 0x20)
    (s : JsString) : unescape (u :: s) = (unescape s).map fun p => (u :: p.1, p.2) := by
  rw [unescape.eq_def]
  simp only [h₃₄, h₉₂, h₃₂, if_false]

theorem unescape_simple {e u : CodeUnit} (h : e ≠ 117) (he : simpleEscape e = some u)
    (r : JsString) : unescape (92 :: e :: r) = (unescape r).map fun p => (u :: p.1, p.2) := by
  rw [unescape.eq_def]
  simp only [h, he, if_false]
  cases unescape r <;> rfl

theorem unescape_hex4 (u : CodeUnit) (r : JsString) :
    unescape (92 :: 117 :: (hex4 u ++ r)) = (unescape r).map fun p => (u :: p.1, p.2) := by
  rw [unescape.eq_def]
  simp only [hex4, List.cons_append, List.nil_append, readHex4_hex4]
  cases unescape r <;> rfl

theorem unescape_escapeUnit (u : CodeUnit) (x : JsString) :
    unescape (escapeUnit u ++ x) = (unescape x).map fun p => (u :: p.1, p.2) := by
  unfold escapeUnit
  split_ifs with h₁ h₂ h₃ h₄ h₅ h₆ h₇ h₈
  · subst h₁
    exact unescape_simple (by decide) (by decide) x
  · subst h₂
    exact unescape_simple (by decide) (by decide) x
  · subst h₃
    exact unescape_simple (by decide) (by decide) x
  · subst h₄
    exact unescape_simple (by decide) (by decide) x
  · subst h₅
    exact unescape_simple (by decide) (by decide) x
  · subst h₆
    exact unescape_simple (by decide) (by decide) x
  · subst h₇
    exact unescape_simple (by decide) (by decide) x
  · exact unescape_hex4 u x
  · exact unescape_plain h₆ h₇ (fun h => h₈ (.inl h)) x

theorem unescape_escape (s r : JsString) : unescape (escape s ++ 34 :: r) = some (s, r) := by
  induction s using escape.induct with
  | case1 => exact unescape_quote r
  | case2 u => rw [escape, unescape_escapeUnit, unescape_quote, Option.map_some]
  | case3 h l s hp ih =>
      have hpair := hp
      simp only [isHigh, isLow, Bool.and_eq_true, decide_eq_true_eq] at hpair
      have hne : ∀ u : CodeUnit, 0xD800 ≤ u.val → u ≠ 34 ∧ u ≠ 92 ∧ ¬ u.val < 0x20 := by
        intro u hu
        refine ⟨?_, ?_, by omega⟩ <;> (rintro rfl; revert hu; decide)
      obtain ⟨h34, h92, h32⟩ := hne h hpair.1.1
      obtain ⟨l34, l92, l32⟩ := hne l (by omega)
      rw [escape, if_pos hp, List.cons_append, List.cons_append, unescape_plain h34 h92 h32,
        unescape_plain l34 l92 l32, ih]
      rfl
  | case4 h l s hp ih =>
      rw [escape, if_neg hp, List.append_assoc, unescape_escapeUnit, ih]
      rfl

theorem quote_append_inj {s s' r r' : JsString} (h : quote s ++ r = quote s' ++ r') :
    s = s' ∧ r = r' := by
  have h' : unescape (escape s ++ 34 :: r) = unescape (escape s' ++ 34 :: r') := by
    simp only [quote, List.cons_append, List.append_assoc, List.nil_append, List.cons.injEq,
      true_and] at h
    rw [h]
  rw [unescape_escape, unescape_escape] at h'
  exact Prod.mk.injEq _ _ _ _ ▸ Option.some.inj h'

/-- What follows a number's text does not continue it. -/
def NumberEnd (r : JsString) : Prop := ∀ u ∈ r.head?, isNumberUnit u = false

theorem numberEnd_cons {u : CodeUnit} {r : JsString} (h : isNumberUnit u = false) :
    NumberEnd (u :: r) := by
  intro v hv
  cases hv
  exact h

theorem isNumberUnit_of_isDigit {u : CodeUnit} (h : isDigit u = true) : isNumberUnit u = true := by
  simp [isNumberUnit, h]

theorem isNumberUnit_of_isExponent {s : JsString} (h : isExponent s = true) :
    ∀ u ∈ s, isNumberUnit u = true := by
  match s, h with
  | [], _ => simp
  | x :: [], h => simp [isExponent] at h
  | x :: sign :: ds, h =>
      simp only [isExponent] at h
      split at h
      · next heq => cases heq
      · next heq =>
          cases heq
          simp only [Bool.and_eq_true, Bool.or_eq_true, beq_iff_eq, List.all_eq_true] at h
          intro u hu
          simp only [List.mem_cons] at hu
          rcases hu with rfl | rfl | hu
          · decide
          · rcases h.1.1 with rfl | rfl <;> decide
          · exact isNumberUnit_of_isDigit (h.2 u hu)
      · cases h

theorem isNumberUnit_of_isUnsigned {s : JsString} (h : isUnsigned s = true) :
    ∀ u ∈ s, isNumberUnit u = true := by
  have htake : ∀ l : JsString, ∀ u ∈ l.takeWhile isDigit, isNumberUnit u = true := fun l u hu =>
    isNumberUnit_of_isDigit (List.mem_takeWhile_imp hu)
  rw [isUnsigned, Bool.and_eq_true] at h
  intro u hu
  rw [← List.takeWhile_append_dropWhile (p := isDigit) (l := s), List.mem_append] at hu
  rcases hu with hu | hu
  · exact htake s u hu
  · have h₂ := h.2
    split at h₂
    · next r heq =>
        rw [heq, List.mem_cons] at hu
        rw [Bool.and_eq_true] at h₂
        rcases hu with rfl | hu
        · decide
        · rw [← List.takeWhile_append_dropWhile (p := isDigit) (l := r), List.mem_append] at hu
          rcases hu with hu | hu
          · exact htake r u hu
          · exact isNumberUnit_of_isExponent h₂.2 u hu
    · exact isNumberUnit_of_isExponent h₂ u hu

/-- A number's text begins with a digit or a minus sign. -/
theorem isNumberText_head {s : JsString} (h : isNumberText s = true) :
    ∃ u r, s = u :: r ∧ (isDigit u = true ∨ u = 45) := by
  have hu : ∀ r, isUnsigned r = true → ∃ u r', r = u :: r' ∧ isDigit u = true := by
    intro r hr
    cases r with
    | nil => simp [isUnsigned] at hr
    | cons u r' =>
        refine ⟨u, r', rfl, ?_⟩
        by_contra hd
        simp [isUnsigned, hd] at hr
  unfold isNumberText at h
  split at h
  · exact ⟨45, _, rfl, .inr rfl⟩
  · obtain ⟨u, r', rfl, hd⟩ := hu _ h
    exact ⟨u, r', rfl, .inl hd⟩

theorem isNumberUnit_of_isNumberText {s : JsString} (h : isNumberText s = true) :
    ∀ u ∈ s, isNumberUnit u = true := by
  unfold isNumberText at h
  split at h
  · intro u hu
    rcases List.mem_cons.mp hu with rfl | hu
    · decide
    · exact isNumberUnit_of_isUnsigned h u hu
  · exact isNumberUnit_of_isUnsigned h

theorem JsNumber.text_append_inj {n n' : JsNumber} {r r' : JsString} (hr : NumberEnd r)
    (hr' : NumberEnd r') (h : n.text ++ r = n'.text ++ r') : n = n' ∧ r = r' := by
  have hcut : ∀ (m : JsNumber) (x : JsString), NumberEnd x →
      (m.text ++ x).takeWhile isNumberUnit = m.text := by
    intro m x hx
    rw [List.takeWhile_append_of_pos (isNumberUnit_of_isNumberText m.valid)]
    cases x with
    | nil => simp
    | cons u x => simp [hx u rfl]
  have htext : n.text = n'.text := by rw [← hcut n r hr, h, hcut n' r' hr']
  refine ⟨?_, ?_⟩
  · cases n
    cases n'
    exact JsNumber.mk.injEq _ _ _ _ ▸ htext
  · rw [htext] at h
    exact List.append_cancel_left h

namespace Json

/-- The first code unit of a value's text tells its kind. -/
def kind : Json → ℕ
  | null => 0
  | bool true => 1
  | bool false => 2
  | num _ => 3
  | str _ => 4
  | arr _ => 5
  | obj _ => 6

/-- The kind that a first code unit announces. -/
def kindOf (u : CodeUnit) : ℕ :=
  if u = 110 then 0 else if u = 116 then 1 else if u = 102 then 2 else if u = 34 then 4
  else if u = 91 then 5 else if u = 123 then 6 else 3

theorem print_head (v : Json) :
    ∃ u r, print v = u :: r ∧ kindOf u = kind v ∧ u ≠ 93 ∧ u ≠ 125 := by
  cases v with
  | null => exact ⟨110, js "ull", by decide, rfl, by decide, by decide⟩
  | bool b =>
      cases b with
      | true => exact ⟨116, js "rue", by decide, rfl, by decide, by decide⟩
      | false => exact ⟨102, js "alse", by decide, rfl, by decide, by decide⟩
  | num n =>
      obtain ⟨u, r, htext, hu⟩ := isNumberText_head n.valid
      have hall : ∀ u : CodeUnit, (isDigit u = true ∨ u = 45) →
          kindOf u = 3 ∧ u ≠ 93 ∧ u ≠ 125 := by
        intro u hu
        refine ⟨?_, ?_, ?_⟩
        · unfold kindOf
          split_ifs <;> first | rfl | (subst_vars; revert hu; decide)
        · rintro rfl
          revert hu
          decide
        · rintro rfl
          revert hu
          decide
      exact ⟨u, r, by rw [print, htext], hall u hu⟩
  | str s => exact ⟨34, _, rfl, rfl, by decide, by decide⟩
  | arr items => exact ⟨91, _, by rw [print]; rfl, rfl, by decide, by decide⟩
  | obj props => exact ⟨123, _, by rw [print]; rfl, rfl, by decide, by decide⟩

theorem kind_eq_of_print {v v' : Json} {r r' : JsString} (h : print v ++ r = print v' ++ r') :
    kind v = kind v' := by
  obtain ⟨u, x, hx, hk, -⟩ := print_head v
  obtain ⟨u', x', hx', hk', -⟩ := print_head v'
  rw [hx, hx', List.cons_append, List.cons_append] at h
  rw [← hk, ← hk', (List.cons.inj h).1]

theorem printItems_eq_map (l : List Json) : printItems l = l.map print := by
  induction l with
  | nil => rfl
  | cons v l ih => rw [printItems, ih, List.map_cons]

theorem printProps_eq_map (l : List (JsString × Json)) :
    printProps l = l.map fun p => property p.1 (print p.2) := by
  induction l with
  | nil => rfl
  | cons p l ih => rw [printProps, ih, List.map_cons]

theorem joinComma_cons (x : JsString) (xs : List JsString) :
    joinComma (x :: xs) = x ++ xs.flatMap (44 :: ·) := by
  induction xs generalizing x with
  | nil => simp [joinComma]
  | cons y xs ih => rw [joinComma, ih, List.flatMap_cons, List.cons_append]

theorem numberEnd_tail {close : CodeUnit} (hclose : isNumberUnit close = false)
    (xs : List JsString) (r : JsString) : NumberEnd (xs.flatMap (44 :: ·) ++ close :: r) := by
  cases xs with
  | nil => exact numberEnd_cons hclose
  | cons x xs => exact numberEnd_cons (by decide)

/-- The text of `a` can be cut off whatever follows it. -/
def Readable {α : Type} (text : α → JsString) (a : α) : Prop :=
  ∀ (a' : α) (r r' : JsString), NumberEnd r → NumberEnd r' → text a ++ r = text a' ++ r' →
    a = a' ∧ r = r'

section Join

variable {α : Type} {text : α → JsString} {close : CodeUnit} {l : List α}

theorem tail_append_inj (hclose : isNumberUnit close = false) (hne : close ≠ 44)
    (hl : ∀ a ∈ l, Readable text a) {l' : List α} {r r' : JsString}
    (h : (l.map text).flatMap (44 :: ·) ++ close :: r =
      (l'.map text).flatMap (44 :: ·) ++ close :: r') : l = l' ∧ r = r' := by
  induction l generalizing l' with
  | nil =>
      cases l' with
      | nil => exact ⟨rfl, (List.cons.inj h).2⟩
      | cons a' l' => exact absurd (List.cons.inj h).1 hne
  | cons a l ih =>
      cases l' with
      | nil => exact absurd (List.cons.inj h).1.symm hne
      | cons a' l' =>
          simp only [List.map_cons, List.flatMap_cons, List.cons_append, List.append_assoc,
            List.cons.injEq, true_and] at h
          obtain ⟨rfl, hrest⟩ := hl a (by simp) a' _ _ (numberEnd_tail hclose _ _)
            (numberEnd_tail hclose _ _) h
          obtain ⟨rfl, hr⟩ := ih (fun b hb => hl b (by simp [hb])) hrest
          exact ⟨rfl, hr⟩

/-- A list between brackets can be read back, element by element. -/
theorem join_append_inj (hclose : isNumberUnit close = false) (hne : close ≠ 44)
    (hhead : ∀ a, ∃ u x, text a = u :: x ∧ u ≠ close)
    (hl : ∀ a ∈ l, Readable text a) {l' : List α} {r r' : JsString}
    (h : joinComma (l.map text) ++ close :: r = joinComma (l'.map text) ++ close :: r') :
    l = l' ∧ r = r' := by
  cases l with
  | nil =>
      cases l' with
      | nil => exact ⟨rfl, (List.cons.inj h).2⟩
      | cons a' l' =>
          obtain ⟨u, x, hx, hu⟩ := hhead a'
          rw [List.map_cons, joinComma_cons, hx] at h
          exact absurd (List.cons.inj h).1.symm hu
  | cons a l =>
      cases l' with
      | nil =>
          obtain ⟨u, x, hx, hu⟩ := hhead a
          rw [List.map_cons, joinComma_cons, hx] at h
          exact absurd (List.cons.inj h).1 hu
      | cons a' l' =>
          simp only [List.map_cons, joinComma_cons, List.append_assoc] at h
          obtain ⟨rfl, hrest⟩ := hl a (by simp) a' _ _ (numberEnd_tail hclose _ _)
            (numberEnd_tail hclose _ _) h
          obtain ⟨rfl, hr⟩ := tail_append_inj hclose hne (fun b hb => hl b (by simp [hb])) hrest
          exact ⟨rfl, hr⟩

end Join

theorem readable_property {k : JsString} {v : Json} (hv : Readable print v) :
    Readable (fun p : JsString × Json => property p.1 (print p.2)) (k, v) := by
  rintro ⟨k', v'⟩ r r' hr hr' h
  simp only [property, List.append_assoc, List.cons_append] at h
  obtain ⟨rfl, hrest⟩ := quote_append_inj h
  obtain ⟨rfl, hr⟩ := hv v' r r' hr hr' (List.cons.inj hrest).2
  exact ⟨rfl, hr⟩

mutual

/-- The text of a JSON value determines the value and where it ends. -/
theorem readable_print : ∀ v : Json, Readable print v
  | null, v', r, r', _, _, h => by
      have hk := kind_eq_of_print h
      cases v' with
      | null => exact ⟨rfl, List.append_cancel_left h⟩
      | bool b => cases b <;> cases hk
      | _ => cases hk
  | bool b, v', r, r', _, _, h => by
      have hk := kind_eq_of_print h
      cases v' with
      | bool b' =>
          have hb : b = b' := by cases b <;> cases b' <;> first | rfl | cases hk
          subst hb
          exact ⟨rfl, List.append_cancel_left h⟩
      | _ => cases b <;> cases hk
  | num n, v', r, r', hr, hr', h => by
      have hk := kind_eq_of_print h
      cases v' with
      | num n' =>
          rw [print, print] at h
          obtain ⟨rfl, hrest⟩ := JsNumber.text_append_inj hr hr' h
          exact ⟨rfl, hrest⟩
      | bool b => cases b <;> cases hk
      | _ => cases hk
  | str s, v', r, r', _, _, h => by
      have hk := kind_eq_of_print h
      cases v' with
      | str s' =>
          rw [print, print] at h
          obtain ⟨rfl, hrest⟩ := quote_append_inj h
          exact ⟨rfl, hrest⟩
      | bool b => cases b <;> cases hk
      | _ => cases hk
  | arr items, v', r, r', _, _, h => by
      have hk := kind_eq_of_print h
      cases v' with
      | arr items' =>
          simp only [print, printItems_eq_map, List.cons_append, List.append_assoc,
            List.nil_append, List.cons.injEq, true_and] at h
          obtain ⟨rfl, hrest⟩ := join_append_inj (by decide) (by decide)
            (fun a => by
              obtain ⟨u, x, hx, -, hu, -⟩ := print_head a
              exact ⟨u, x, hx, hu⟩) (readable_items items) h
          exact ⟨rfl, hrest⟩
      | bool b => cases b <;> cases hk
      | _ => cases hk
  | obj props, v', r, r', _, _, h => by
      have hk := kind_eq_of_print h
      cases v' with
      | obj props' =>
          simp only [print, printProps_eq_map, List.cons_append, List.append_assoc,
            List.nil_append, List.cons.injEq, true_and] at h
          obtain ⟨rfl, hrest⟩ := join_append_inj (by decide) (by decide)
            (fun p => ⟨34, _, rfl, by decide⟩) (readable_props props) h
          exact ⟨rfl, hrest⟩
      | bool b => cases b <;> cases hk
      | _ => cases hk

theorem readable_items : ∀ items : List Json, ∀ a ∈ items, Readable print a
  | [], _, h => absurd h (by simp)
  | v :: vs, a, h => by
      rcases List.mem_cons.mp h with heq | h
      · exact heq ▸ readable_print v
      · exact readable_items vs a h

theorem readable_props : ∀ props : List (JsString × Json), ∀ p ∈ props,
    Readable (fun p : JsString × Json => property p.1 (print p.2)) p
  | [], _, h => absurd h (by simp)
  | (k, v) :: ps, p, h => by
      rcases List.mem_cons.mp h with heq | h
      · exact heq ▸ readable_property (readable_print v)
      · exact readable_props ps p h

end

/-- The text of an object ends with its brace, whatever follows. -/
theorem print_obj_append_inj {props props' : List (JsString × Json)} {r r' : JsString}
    (h : print (.obj props) ++ r = print (.obj props') ++ r') : props = props' ∧ r = r' := by
  simp only [print, printProps_eq_map, List.cons_append, List.append_assoc, List.nil_append,
    List.cons.injEq, true_and] at h
  exact join_append_inj (by decide) (by decide) (fun p => ⟨34, _, rfl, by decide⟩)
    (readable_props props) h

end Json

/-! ## The text has no lone surrogates -/

theorem wellFormed_hex4 (u : CodeUnit) : WellFormed (hex4 u) = true := by
  have hd : ∀ d < 16, (digitUnit d).val < 0x80 := by decide
  have hu := u.isLt
  refine IsAscii.wellFormed fun v hv => ?_
  simp only [hex4, List.mem_cons, List.not_mem_nil, or_false] at hv
  rcases hv with rfl | rfl | rfl | rfl <;> exact hd _ (by omega)

theorem wellFormed_escapeUnit (u : CodeUnit) : WellFormed (escapeUnit u) = true := by
  unfold escapeUnit
  split_ifs with h₁ h₂ h₃ h₄ h₅ h₆ h₇ h₈
  · decide
  · decide
  · decide
  · decide
  · decide
  · decide
  · decide
  · rw [wellFormed_cons_of_not_surrogate (by decide), wellFormed_cons_of_not_surrogate (by decide)]
    exact wellFormed_hex4 u
  · rw [not_or, Bool.not_eq_true] at h₈
    simp [WellFormed, h₈.2]

theorem wellFormed_escape (s : JsString) : WellFormed (escape s) = true := by
  induction s using escape.induct with
  | case1 => rfl
  | case2 u => exact wellFormed_escapeUnit u
  | case3 h l s hp ih => rw [escape, if_pos hp, WellFormed, if_pos hp, ih]
  | case4 h l s hp ih =>
      rw [escape, if_neg hp, wellFormed_append (wellFormed_escapeUnit h), ih]

theorem wellFormed_quote (s : JsString) : WellFormed (quote s) = true := by
  rw [quote, List.cons_append, wellFormed_cons_of_not_surrogate (by decide),
    wellFormed_append (wellFormed_escape s)]
  decide

theorem wellFormed_joinComma {xs : List JsString} (h : ∀ x ∈ xs, WellFormed x = true) :
    WellFormed (joinComma xs) = true := by
  cases xs with
  | nil => rfl
  | cons x xs =>
      rw [Json.joinComma_cons, wellFormed_append (h x (by simp))]
      have hxs : ∀ y ∈ xs, WellFormed y = true := fun y hy => h y (by simp [hy])
      clear h
      induction xs with
      | nil => rfl
      | cons y ys ih =>
          rw [List.flatMap_cons, List.cons_append, wellFormed_cons_of_not_surrogate (by decide),
            wellFormed_append (hxs y (by simp))]
          exact ih fun z hz => hxs z (by simp [hz])

/-- A bracketed list of well-formed texts is well formed. -/
theorem wellFormed_bracket {o c : CodeUnit} (ho : isSurrogate o = false) (hc : isSurrogate c = false)
    {xs : List JsString} (h : ∀ x ∈ xs, WellFormed x = true) :
    WellFormed (o :: joinComma xs ++ [c]) = true := by
  rw [List.cons_append, wellFormed_cons_of_not_surrogate ho,
    wellFormed_append (wellFormed_joinComma h)]
  simp [WellFormed, hc]

theorem wellFormed_property {k x : JsString} (h : WellFormed x = true) :
    WellFormed (property k x) = true := by
  rw [property, wellFormed_append (wellFormed_quote k), wellFormed_cons_of_not_surrogate (by decide),
    h]

theorem JsNumber.wellFormed (n : JsNumber) : WellFormed n.text = true := by
  refine IsAscii.wellFormed fun u hu => ?_
  have hn := isNumberUnit_of_isNumberText n.valid u hu
  simp only [isNumberUnit, isDigit, Bool.or_eq_true, Bool.and_eq_true, decide_eq_true_eq,
    beq_iff_eq] at hn
  rcases hn with (((hn | rfl) | rfl) | rfl) | rfl
  · omega
  · decide
  · decide
  · decide
  · decide

namespace Json

mutual

theorem wellFormed_print : ∀ v : Json, WellFormed (print v) = true
  | null => by decide
  | bool true => by decide
  | bool false => by decide
  | num n => n.wellFormed
  | str s => wellFormed_quote s
  | arr items => by
      rw [print]
      exact wellFormed_bracket (by decide) (by decide) (wellFormed_printItems items)
  | obj props => by
      rw [print]
      exact wellFormed_bracket (by decide) (by decide) (wellFormed_printProps props)

theorem wellFormed_printItems : ∀ items : List Json, ∀ x ∈ printItems items, WellFormed x = true
  | [], _, h => absurd h (by simp [printItems])
  | v :: vs, x, h => by
      rcases List.mem_cons.mp h with rfl | h
      · exact wellFormed_print v
      · exact wellFormed_printItems vs x h

theorem wellFormed_printProps : ∀ props : List (JsString × Json), ∀ x ∈ printProps props,
    WellFormed x = true
  | [], _, h => absurd h (by simp [printProps])
  | (k, v) :: ps, x, h => by
      rcases List.mem_cons.mp h with rfl | h
      · exact wellFormed_property (wellFormed_print v)
      · exact wellFormed_printProps ps x h

end

end Json

end ZeroAuth.Js
