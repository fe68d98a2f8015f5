/-
  ZeroAuth.Audit.Canonical

  `canonicalize` of src/services/audit.ts, and what it gives on plain data: the
  text that `JSON.stringify` would write with the keys of every object sorted.

  On JSON data the text says what the data is, up to the order of keys, and where
  it ends, so that a separator after it cannot be mistaken
  (`canonicalize_unambiguous`).
-/

import ZeroAuth.Js.JsonOrder
import ZeroAuth.Js.Value

namespace ZeroAuth.Audit

open ZeroAuth.Js

/-- `'{' + keys.sort().map(…).join(',') + '}'`, given the text of every value. -/
def canonicalObject (props : List (JsString × JsString)) : JsString :=
  123 :: joinComma ((Json.sortProps props).map fun p => property p.1 p.2) ++ [125]

mutual

/-- `canonicalize(value)`; `none` is the value `undefined`, which
    `JSON.stringify(undefined)` answers. -/
def canonicalize : JsVal → Option JsString
  | .undef => none
  | .null => some (js "null")
  | .bool b => some (Json.bool b).print
  | .num n => some n.text
  | .nonFinite => some (js "null")
  | .str s => some (quote s)
  | .arr items => some (91 :: joinComma (canonicalizeItems items) ++ [93])
  -- `Object.keys` sees the own properties; a `toJSON` method is not called here
  | .obj props | .boxed props _ => some (canonicalObject (canonicalizeProps props))

/-- `value.map(canonicalize)`; `join` writes `undefined` as the empty string. -/
def canonicalizeItems : List JsVal → List JsString
  | [] => []
  | v :: vs => (canonicalize v).getD [] :: canonicalizeItems vs

/-- The keys with the text of their values; `':' + undefined` is `:undefined`. -/
def canonicalizeProps : List (JsString × JsVal) → List (JsString × JsString)
  | [] => []
  | (k, v) :: ps => (k, (canonicalize v).getD (js "undefined")) :: canonicalizeProps ps

end

/-! ## Plain data -/

/-- Sorting looks at the keys only. -/
theorem sortProps_map {α β : Type} (f : α → β) (ps : List (JsString × α)) :
    Json.sortProps (ps.map fun p => (p.1, f p.2)) =
      (Json.sortProps ps).map fun p => (p.1, f p.2) := by
  unfold Json.sortProps
  exact (List.map_insertionSort (fun p q : JsString × α => p.1 ≤ q.1)
    (fun p q : JsString × β => p.1 ≤ q.1) _ ps fun _ _ _ _ => Iff.rfl).symm

theorem canonicalObject_print (ps : List (JsString × Json)) :
    canonicalObject (ps.map fun p => (p.1, p.2.print)) = (Json.obj (Json.sortProps ps)).print := by
  rw [canonicalObject, sortProps_map, Json.print, Json.printProps_eq_map, List.map_map]
  rfl

mutual

/-- On plain data `canonicalize` and `JSON.stringify` agree up to the order of
    keys. -/
theorem canonicalize_of_plain : ∀ v : JsVal, v.Plain = true →
    ∃ j, v.toJson = some j ∧ canonicalize v = some j.norm.print
  | .undef, h => by simp [JsVal.Plain] at h
  | .null, _ => ⟨.null, rfl, rfl⟩
  | .bool b, _ => ⟨.bool b, rfl, rfl⟩
  | .num n, _ => ⟨.num n, rfl, rfl⟩
  | .nonFinite, _ => ⟨.null, rfl, rfl⟩
  | .str s, _ => ⟨.str s, rfl, rfl⟩
  | .arr items, h => ⟨_, rfl, by
      rw [canonicalize, canonicalizeItems_of_plain items h, Json.norm, Json.print]⟩
  | .obj props, h => ⟨_, rfl, by
      rw [canonicalize, canonicalizeProps_of_plain props h, canonicalObject_print, Json.norm]⟩
  | .boxed _ _, h => by simp [JsVal.Plain] at h

theorem canonicalizeItems_of_plain : ∀ items : List JsVal, JsVal.PlainItems items = true →
    canonicalizeItems items = Json.printItems (Json.normItems (JsVal.toJsonItems items))
  | [], _ => rfl
  | v :: vs, h => by
      rw [JsVal.PlainItems, Bool.and_eq_true] at h
      obtain ⟨j, hj, hc⟩ := canonicalize_of_plain v h.1
      rw [canonicalizeItems, hc, canonicalizeItems_of_plain vs h.2, JsVal.toJsonItems, hj]
      rfl

theorem canonicalizeProps_of_plain : ∀ props : List (JsString × JsVal),
    JsVal.PlainProps props = true →
    canonicalizeProps props =
      (Json.normProps (JsVal.toJsonProps props)).map fun p => (p.1, p.2.print)
  | [], _ => rfl
  | (k, v) :: ps, h => by
      rw [JsVal.PlainProps, Bool.and_eq_true] at h
      obtain ⟨j, hj, hc⟩ := canonicalize_of_plain v h.1
      rw [canonicalizeProps, hc, canonicalizeProps_of_plain ps h.2, JsVal.toJsonProps, hj]
      rfl

end

/-! ## JSON data -/

theorem canonicalize_ofJson (j : Json) : canonicalize (.ofJson j) = some j.norm.print := by
  obtain ⟨j', hj', hc⟩ := canonicalize_of_plain _ (JsVal.plain_ofJson j)
  rw [JsVal.toJson_ofJson] at hj'
  cases hj'
  exact hc

/-- Two values that differ in the order of keys have one text.  And if the texts
    of two values, each with a `'|'` and a string behind it, are equal, the
    strings are equal and the values differ in the order of keys only. -/
theorem canonicalize_unambiguous (p q : JsonData) : ∃ s t : JsString,
    canonicalize (.ofJson p.value) = some s ∧ canonicalize (.ofJson q.value) = some t ∧
    (p.value.SameValue q.value ↔ s = t) ∧
    ∀ a b : JsString, s ++ js "|" ++ a = t ++ js "|" ++ b ↔ a = b ∧ p.value.SameValue q.value := by
  have hread : ∀ a b : JsString,
      p.value.norm.print ++ js "|" ++ a = q.value.norm.print ++ js "|" ++ b →
      p.value.norm = q.value.norm ∧ a = b := by
    intro a b h
    rw [List.append_assoc, List.append_assoc] at h
    -- no number goes on with `|`
    have hend : ∀ x : JsString, NumberEnd (js "|" ++ x) := fun x => numberEnd_cons (by decide)
    obtain ⟨hnorm, hrest⟩ := Json.readable_print _ _ _ _ (hend a) (hend b) h
    exact ⟨hnorm, List.append_cancel_left hrest⟩
  refine ⟨_, _, canonicalize_ofJson _, canonicalize_ofJson _, ?_, fun a b => ?_⟩
  · rw [p.sameValue_iff_norm_eq q]
    constructor
    · intro h
      rw [h]
    · intro h
      exact (hread [] [] (by rw [h])).1
  · rw [p.sameValue_iff_norm_eq q]
    constructor
    · intro h
      exact (hread a b h).symm
    · rintro ⟨rfl, h⟩
      rw [h]

end ZeroAuth.Audit
