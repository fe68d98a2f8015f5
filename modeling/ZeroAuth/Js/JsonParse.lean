/-
  ZeroAuth.Js.JsonParse

  `JSON.parse`.

  The value of a number literal is a parameter: a number is rounded to a double.
  Otherwise what `JSON.stringify` writes is read back as it was, as long as the keys
  of every object are distinct and none of them is an array index, which an object
  enumerates first (`Json.parse_print`).
-/

import ZeroAuth.Js.Json

namespace ZeroAuth.Js

/-! ## The properties of an object -/

/-- A canonical number below `2 ^ 32 - 1`. -/
def isArrayIndex (key : JsString) : Bool :=
  match readDigits 10 key with
  | some n => decide (key = numText 10 n ∧ n < 4294967295)
  | none => false

/-- A key that comes again keeps its place and gets the new value. -/
def setProperty {α : Type} (props : List (JsString × α)) (p : JsString × α) :
    List (JsString × α) :=
  if p.1 ∈ props.map Prod.fst then props.map fun q => if q.1 = p.1 then p else q
  else props ++ [p]

/-- The properties that a text gives to an object, in the order in which the object
    enumerates them. -/
def ownProperties {α : Type} (entries : List (JsString × α)) : List (JsString × α) :=
  let props := entries.foldl setProperty []
  (props.filter fun p => isArrayIndex p.1).insertionSort
      (fun p q => (readDigits 10 p.1).getD 0 ≤ (readDigits 10 q.1).getD 0) ++
    props.filter fun p => !isArrayIndex p.1

theorem foldl_setProperty {α : Type} {entries props : List (JsString × α)}
    (h : ((props ++ entries).map Prod.fst).Nodup) :
    entries.foldl setProperty props = props ++ entries := by
  induction entries generalizing props with
  | nil => simp
  | cons p entries ih =>
      have hnew : p.1 ∉ props.map Prod.fst := by
        intro hmem
        rw [List.map_append] at h
        exact List.disjoint_of_nodup_append h hmem (by simp)
      have hset : setProperty props p = props ++ [p] := by
        rw [setProperty, if_neg hnew]
      rw [List.foldl_cons, hset, ih (by simpa using h), List.append_assoc, List.singleton_append]

theorem ownProperties_eq {α : Type} {entries : List (JsString × α)}
    (hnodup : (entries.map Prod.fst).Nodup) (hindex : ∀ p ∈ entries, isArrayIndex p.1 = false) :
    ownProperties entries = entries := by
  have hfold : entries.foldl setProperty [] = entries := @foldl_setProperty α entries [] hnodup
  have hnone : (entries.filter fun p => isArrayIndex p.1) = [] :=
    List.filter_eq_nil_iff.mpr fun p hp => by simp [hindex p hp]
  have hall : (entries.filter fun p => !isArrayIndex p.1) = entries :=
    List.filter_eq_self.mpr fun p hp => by simp [hindex p hp]
  rw [ownProperties, hfold, hnone, hall]
  rfl

/-! ## The parser -/

/-- White space of JSON. -/
def skipSpace (s : JsString) : JsString :=
  s.dropWhile fun u => u = 32 ∨ u = 9 ∨ u = 10 ∨ u = 13

/-- The characters of a number literal. -/
def isLiteralUnit (u : CodeUnit) : Bool := isNumberUnit u || u == 69

/-- The exponent of a literal, or nothing. -/
def isLiteralExponent : JsString → Bool
  | [] => true
  | u :: r =>
      let digits := match r with
        | 43 :: ds | 45 :: ds => ds
        | ds => ds
      (u == 101 || u == 69) && !digits.isEmpty && digits.all isDigit

/-- A number literal: no leading zeros, a fraction if any, an exponent if any. -/
def isNumberLiteral (s : JsString) : Bool :=
  let r := match s with
    | 45 :: r => r
    | r => r
  let digits := r.takeWhile isDigit
  !digits.isEmpty && (digits.length = 1 || digits.head? != some 48) &&
    match r.dropWhile isDigit with
    | 46 :: f => !(f.takeWhile isDigit).isEmpty && isLiteralExponent (f.dropWhile isDigit)
    | e => isLiteralExponent e

namespace Json

mutual

/-- Read a value; `literal` gives that of a number. -/
def parseValue (literal : JsString → Json) : ℕ → JsString → Option (Json × JsString)
  | 0, _ => none
  | fuel + 1, s =>
      match skipSpace s with
      | 34 :: r => (unescape r).map fun p => (str p.1, p.2)
      | 91 :: r =>
          match skipSpace r with
          | 93 :: r => some (arr [], r)
          | r => (parseItems literal fuel r).map fun p => (arr p.1, p.2)
      | 123 :: r =>
          match skipSpace r with
          | 125 :: r => some (obj [], r)
          | r => (parseProps literal fuel r).map fun p => (obj (ownProperties p.1), p.2)
      | 110 :: 117 :: 108 :: 108 :: r => some (null, r)
      | 116 :: 114 :: 117 :: 101 :: r => some (bool true, r)
      | 102 :: 97 :: 108 :: 115 :: 101 :: r => some (bool false, r)
      | r =>
          let text := r.takeWhile isLiteralUnit
          if isNumberLiteral text then some (literal text, r.dropWhile isLiteralUnit) else none

/-- The rest of an array. -/
def parseItems (literal : JsString → Json) : ℕ → JsString → Option (List Json × JsString)
  | 0, _ => none
  | fuel + 1, s => do
      let (v, r) ← parseValue literal fuel s
      match skipSpace r with
      | 44 :: r => (parseItems literal fuel r).map fun p => (v :: p.1, p.2)
      | 93 :: r => some ([v], r)
      | _ => none

/-- The rest of an object. -/
def parseProps (literal : JsString → Json) :
    ℕ → JsString → Option (List (JsString × Json) × JsString)
  | 0, _ => none
  | fuel + 1, s =>
      match skipSpace s with
      | 34 :: r => do
          let (k, r) ← unescape r
          match skipSpace r with
          | 58 :: r =>
              let (v, r) ← parseValue literal fuel r
              match skipSpace r with
              | 44 :: r => (parseProps literal fuel r).map fun p => ((k, v) :: p.1, p.2)
              | 125 :: r => some ([(k, v)], r)
              | _ => none
          | _ => none
      | _ => none

end

/-- `JSON.parse(s)`; `none` is the SyntaxError.  No value needs more fuel than twice its
    text. -/
def parse (literal : JsString → Json) (s : JsString) : Option Json :=
  match parseValue literal (2 * s.length + 2) s with
  | some (v, r) => if skipSpace r = [] then some v else none
  | none => none

/-! ## Reading back -/

mutual

/-- The values that are read back as they were written. -/
def Stable (literal : JsString → Json) : Json → Prop
  | num n => isNumberLiteral n.text = true ∧ literal n.text = num n
  | arr items => StableItems literal items
  | obj props => (props.map Prod.fst).Nodup ∧ (∀ p ∈ props, isArrayIndex p.1 = false) ∧
      StableProps literal props
  | _ => True

def StableItems (literal : JsString → Json) : List Json → Prop
  | [] => True
  | v :: vs => Stable literal v ∧ StableItems literal vs

def StableProps (literal : JsString → Json) : List (JsString × Json) → Prop
  | [] => True
  | (_, v) :: ps => Stable literal v ∧ StableProps literal ps

end

mutual

/-- The fuel that reading a value back takes. -/
def size : Json → ℕ
  | arr items => 1 + sizeItems items
  | obj props => 1 + sizeProps props
  | _ => 1

def sizeItems : List Json → ℕ
  | [] => 0
  | v :: vs => 1 + size v + sizeItems vs

def sizeProps : List (JsString × Json) → ℕ
  | [] => 0
  | (_, v) :: ps => 1 + size v + sizeProps ps

end

/-- What follows a value does not continue a number. -/
def LiteralEnd (r : JsString) : Prop := ∀ u ∈ r.head?, isLiteralUnit u = false

theorem literalEnd_cons {u : CodeUnit} {r : JsString} (h : isLiteralUnit u = false) :
    LiteralEnd (u :: r) := by
  intro v hv
  cases hv
  exact h

theorem skipSpace_cons {u : CodeUnit} (h : ¬ (u = 32 ∨ u = 9 ∨ u = 10 ∨ u = 13)) (r : JsString) :
    skipSpace (u :: r) = u :: r :=
  List.dropWhile_cons_of_neg (by simpa using h)

/-- A value begins with its own first character. -/
theorem print_start (v : Json) : ∃ u r, print v = u :: r ∧ u ≠ 93 ∧ u ≠ 125 ∧
    ¬ (u = 32 ∨ u = 9 ∨ u = 10 ∨ u = 13) := by
  obtain ⟨u, r, hprint, hkind, h93, h125⟩ := print_head v
  refine ⟨u, r, hprint, h93, h125, fun hspace => ?_⟩
  have hthree : kindOf u = 3 := by
    rcases hspace with rfl | rfl | rfl | rfl <;> decide
  rw [hthree] at hkind
  cases v with
  | num n =>
      obtain ⟨u', r', htext, hu⟩ := isNumberText_head n.valid
      rw [print, htext] at hprint
      obtain rfl := (List.cons.inj hprint).1
      rcases hspace with rfl | rfl | rfl | rfl <;> exact absurd hu (by decide)
  | bool b => cases b <;> cases hkind
  | _ => cases hkind

theorem skipSpace_print (v : Json) (r : JsString) : skipSpace (print v ++ r) = print v ++ r := by
  obtain ⟨u, t, hprint, -, -, hspace⟩ := print_start v
  rw [hprint, List.cons_append, skipSpace_cons hspace]

/-- A number's text up to what follows it. -/
theorem span_number (n : JsNumber) {r : JsString} (hr : LiteralEnd r) :
    (n.text ++ r).takeWhile isLiteralUnit = n.text ∧ (n.text ++ r).dropWhile isLiteralUnit = r := by
  have hall : ∀ u ∈ n.text, isLiteralUnit u = true := fun u hu => by
    rw [isLiteralUnit, isNumberUnit_of_isNumberText n.valid u hu, Bool.true_or]
  rw [List.takeWhile_append_of_pos hall, List.dropWhile_append_of_pos hall]
  cases r with
  | nil => simp
  | cons u r => simp [hr u rfl]

/-- A number is read as its literal. -/
theorem parseValue_number {literal : JsString → Json} {n : JsNumber}
    (hn : isNumberLiteral n.text = true) (fuel : ℕ) {r : JsString} (hr : LiteralEnd r) :
    parseValue literal (fuel + 1) (n.text ++ r) = some (literal n.text, r) := by
  obtain ⟨u, t, htext, hu⟩ := isNumberText_head n.valid
  have hskip := skipSpace_print (num n) r
  rw [print] at hskip
  obtain ⟨htake, hdrop⟩ := span_number n hr
  rw [parseValue, hskip]
  -- none of the other values begins with a digit or a minus sign
  have hother : u ≠ 34 ∧ u ≠ 91 ∧ u ≠ 123 ∧ u ≠ 110 ∧ u ≠ 116 ∧ u ≠ 102 := by
    refine ⟨?_, ?_, ?_, ?_, ?_, ?_⟩ <;> (rintro rfl; exact absurd hu (by decide))
  have hcons : n.text ++ r = u :: (t ++ r) := by rw [htext, List.cons_append]
  rw [hcons] at htake hdrop ⊢
  split
  · next heq => exact absurd (List.cons.inj heq).1 hother.1
  · next heq => exact absurd (List.cons.inj heq).1 hother.2.1
  · next heq => exact absurd (List.cons.inj heq).1 hother.2.2.1
  · next heq => exact absurd (List.cons.inj heq).1 hother.2.2.2.1
  · next heq => exact absurd (List.cons.inj heq).1 hother.2.2.2.2.1
  · next heq => exact absurd (List.cons.inj heq).1 hother.2.2.2.2.2
  · simp only [htake, hdrop, hn, if_true]

theorem joinComma_items_start (v : Json) (vs : List Json) :
    ∃ u t, joinComma (printItems (v :: vs)) = u :: t ∧ u ≠ 93 ∧
      ¬ (u = 32 ∨ u = 9 ∨ u = 10 ∨ u = 13) := by
  obtain ⟨u, t, hprint, h93, -, hspace⟩ := print_start v
  cases vs with
  | nil => exact ⟨u, t, by rw [printItems, printItems, joinComma, hprint], h93, hspace⟩
  | cons w ws =>
      exact ⟨u, _, by rw [printItems, printItems, joinComma, hprint, List.cons_append], h93, hspace⟩

theorem joinComma_props_start (p : JsString × Json) (ps : List (JsString × Json)) :
    ∃ t, joinComma (printProps (p :: ps)) = 34 :: t := by
  obtain ⟨k, v⟩ := p
  cases ps with
  | nil => exact ⟨_, rfl⟩
  | cons q qs =>
      obtain ⟨k', v'⟩ := q
      exact ⟨_, rfl⟩

section Stable

variable {literal : JsString → Json}

mutual

/-- A stable value is read back, and what follows it is left. -/
theorem parseValue_print : ∀ (v : Json), Stable literal v → ∀ (fuel : ℕ) (r : JsString),
    size v ≤ fuel → LiteralEnd r → parseValue literal fuel (print v ++ r) = some (v, r)
  | null, _, 0, _, hfuel, _ => by simp [size] at hfuel
  | null, _, fuel + 1, r, _, _ => by
      rw [parseValue, skipSpace_print]
      rfl
  | bool b, _, 0, _, hfuel, _ => by simp [size] at hfuel
  | bool b, _, fuel + 1, r, _, _ => by
      rw [parseValue, skipSpace_print]
      cases b <;> rfl
  | num n, _, 0, _, hfuel, _ => by simp [size] at hfuel
  | num n, hstable, fuel + 1, r, _, hr => by
      obtain ⟨hn, hliteral⟩ := hstable
      rw [print, parseValue_number hn fuel hr, hliteral]
  | str s, _, 0, _, hfuel, _ => by simp [size] at hfuel
  | str s, _, fuel + 1, r, _, _ => by
      have htext : print (str s) ++ r = 34 :: (escape s ++ 34 :: r) := by
        rw [print, quote, List.cons_append, List.cons_append, List.append_assoc,
          List.singleton_append]
      rw [parseValue, skipSpace_print, htext]
      simp only [unescape_escape, Option.map_some]
  | arr items, _, 0, _, hfuel, _ => by simp [size] at hfuel
  | arr items, hstable, fuel + 1, r, hfuel, _ => by
      have htext : print (arr items) ++ r = 91 :: (joinComma (printItems items) ++ 93 :: r) := by
        rw [print, List.cons_append, List.cons_append, List.append_assoc, List.singleton_append]
      rw [parseValue, skipSpace_print, htext]
      cases items with
      | nil => rfl
      | cons v vs =>
          have hitems := parseItems_print (v :: vs) (List.cons_ne_nil v vs) hstable fuel r
            (by rw [size] at hfuel; omega)
          obtain ⟨u, t, hstart, h93, hspace⟩ := joinComma_items_start v vs
          rw [hstart, List.cons_append] at hitems ⊢
          simp only [skipSpace_cons hspace]
          split
          · next heq => exact absurd (List.cons.inj heq).1 h93
          · rw [hitems, Option.map_some]
  | obj props, _, 0, _, hfuel, _ => by simp [size] at hfuel
  | obj props, hstable, fuel + 1, r, hfuel, _ => by
      obtain ⟨hnodup, hindex, hstable⟩ := hstable
      have htext : print (obj props) ++ r = 123 :: (joinComma (printProps props) ++ 125 :: r) := by
        rw [print, List.cons_append, List.cons_append, List.append_assoc, List.singleton_append]
      rw [parseValue, skipSpace_print, htext]
      cases props with
      | nil => rfl
      | cons p ps =>
          have hprops := parseProps_print (p :: ps) (List.cons_ne_nil p ps) hstable fuel r
            (by rw [size] at hfuel; omega)
          obtain ⟨t, hstart⟩ := joinComma_props_start p ps
          rw [hstart, List.cons_append] at hprops ⊢
          simp only [skipSpace_cons (u := 34) (by decide)]
          rw [hprops, Option.map_some, ownProperties_eq hnodup hindex]

theorem parseItems_print : ∀ (items : List Json), items ≠ [] → StableItems literal items →
    ∀ (fuel : ℕ) (r : JsString), sizeItems items ≤ fuel →
      parseItems literal fuel (joinComma (printItems items) ++ 93 :: r) = some (items, r)
  | [], hne, _, _, _, _ => absurd rfl hne
  | v :: vs, _, _, 0, _, hfuel => by rw [sizeItems] at hfuel; omega
  | v :: vs, _, hstable, fuel + 1, r, hfuel => by
      obtain ⟨hv, hvs⟩ := hstable
      rw [sizeItems] at hfuel
      rw [parseItems]
      cases vs with
      | nil =>
          have hvalue := parseValue_print v hv fuel (93 :: r) (by omega) (literalEnd_cons (by decide))
          rw [printItems, printItems, joinComma, hvalue]
          rfl
      | cons w ws =>
          have hvalue := parseValue_print v hv fuel (44 :: (joinComma (printItems (w :: ws)) ++ 93 :: r))
            (by omega) (literalEnd_cons (by decide))
          have hrest := parseItems_print (w :: ws) (List.cons_ne_nil w ws) hvs fuel r (by omega)
          have htext : joinComma (printItems (v :: w :: ws)) ++ 93 :: r =
              print v ++ 44 :: (joinComma (printItems (w :: ws)) ++ 93 :: r) := by
            rw [printItems, printItems, joinComma, List.append_assoc, List.cons_append]
          rw [htext, hvalue]
          show (parseItems literal fuel (joinComma (printItems (w :: ws)) ++ 93 :: r)).map _ = _
          rw [hrest, Option.map_some]

theorem parseProps_print : ∀ (props : List (JsString × Json)), props ≠ [] →
    StableProps literal props → ∀ (fuel : ℕ) (r : JsString), sizeProps props ≤ fuel →
      parseProps literal fuel (joinComma (printProps props) ++ 125 :: r) = some (props, r)
  | [], hne, _, _, _, _ => absurd rfl hne
  | (k, v) :: ps, _, _, 0, _, hfuel => by rw [sizeProps] at hfuel; omega
  | (k, v) :: ps, _, hstable, fuel + 1, r, hfuel => by
      obtain ⟨hv, hps⟩ := hstable
      rw [sizeProps] at hfuel
      -- the key and the colon, whatever follows
      have hkey : ∀ t : JsString, parseProps literal (fuel + 1) (property k (print v) ++ t) =
          (parseValue literal fuel (print v ++ t)).bind fun p =>
            match skipSpace p.2 with
            | 44 :: r => (parseProps literal fuel r).map fun q => ((k, p.1) :: q.1, q.2)
            | 125 :: r => some ([(k, p.1)], r)
            | _ => none := by
        intro t
        have htext : property k (print v) ++ t = 34 :: (escape k ++ 34 :: 58 :: (print v ++ t)) := by
          simp [property, quote]
        rw [parseProps, htext, skipSpace_cons (by decide)]
        simp only [unescape_escape, Option.bind_eq_bind, Option.bind_some]
        rfl
      cases ps with
      | nil =>
          have hvalue := parseValue_print v hv fuel (125 :: r) (by omega)
            (literalEnd_cons (by decide))
          rw [printProps, printProps, joinComma, hkey, hvalue]
          rfl
      | cons q qs =>
          have hvalue := parseValue_print v hv fuel
            (44 :: (joinComma (printProps (q :: qs)) ++ 125 :: r)) (by omega)
            (literalEnd_cons (by decide))
          have hrest := parseProps_print (q :: qs) (List.cons_ne_nil q qs) hps fuel r (by omega)
          have htext : joinComma (printProps ((k, v) :: q :: qs)) ++ 125 :: r =
              property k (print v) ++ 44 :: (joinComma (printProps (q :: qs)) ++ 125 :: r) := by
            obtain ⟨k', v'⟩ := q
            rw [printProps, printProps, joinComma, List.append_assoc, List.cons_append]
          rw [htext, hkey, hvalue]
          show (parseProps literal fuel (joinComma (printProps (q :: qs)) ++ 125 :: r)).map _ = _
          rw [hrest, Option.map_some]

end

mutual

/-- The text of a value is long enough for its fuel. -/
theorem size_le : ∀ v : Json, size v ≤ 2 * (print v).length
  | null => by decide
  | bool true => by decide
  | bool false => by decide
  | num n => by
      obtain ⟨u, t, htext, -⟩ := isNumberText_head n.valid
      show 1 ≤ _
      rw [print, htext, List.length_cons]
      omega
  | str s => by
      show 1 ≤ _
      rw [print, quote, List.cons_append, List.length_cons]
      omega
  | arr items => by
      have h := sizeItems_le items
      rw [size, print, List.cons_append, List.length_cons, List.length_append, List.length_singleton]
      omega
  | obj props => by
      have h := sizeProps_le props
      rw [size, print, List.cons_append, List.length_cons, List.length_append, List.length_singleton]
      omega

theorem sizeItems_le : ∀ items : List Json,
    sizeItems items ≤ 2 * (joinComma (printItems items)).length + 1
  | [] => by simp [sizeItems]
  | v :: vs => by
      have hv := size_le v
      have hvs := sizeItems_le vs
      cases vs with
      | nil =>
          rw [sizeItems, sizeItems, printItems, printItems, joinComma]
          omega
      | cons w ws =>
          rw [printItems] at hvs
          rw [sizeItems, printItems, printItems, joinComma, List.length_append, List.length_cons]
          omega

theorem sizeProps_le : ∀ props : List (JsString × Json),
    sizeProps props ≤ 2 * (joinComma (printProps props)).length + 1
  | [] => by simp [sizeProps]
  | (k, v) :: ps => by
      have hv := size_le v
      have hps := sizeProps_le ps
      have hlength : (print v).length ≤ (property k (print v)).length := by
        rw [property, List.length_append, List.length_cons]
        omega
      cases ps with
      | nil =>
          rw [sizeProps, sizeProps, printProps, printProps, joinComma]
          omega
      | cons q qs =>
          obtain ⟨k', v'⟩ := q
          rw [printProps] at hps
          rw [sizeProps, printProps, printProps, joinComma, List.length_append, List.length_cons]
          omega

end

/-- `JSON.parse` reads back what `JSON.stringify` wrote for a stable value. -/
theorem parse_print {v : Json} (h : Stable literal v) : parse literal v.print = some v := by
  have hsize := size_le v
  have hvalue := parseValue_print v h (2 * v.print.length + 2) [] (by omega)
    (fun u hu => by cases hu)
  rw [List.append_nil] at hvalue
  rw [parse, hvalue]
  rfl

end Stable

end Json

end ZeroAuth.Js
