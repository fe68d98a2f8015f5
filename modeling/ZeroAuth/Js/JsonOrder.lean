/-
  ZeroAuth.Js.JsonOrder

  JSON values that differ in the order of object keys only.

  A JavaScript object has no key twice (`JsonData`); then sorting the keys picks
  one value of every class (`sameValue_iff_norm_eq`).
-/

import ZeroAuth.Js.Json

namespace ZeroAuth.Js

namespace Json

mutual

/-- Equal as JSON values: the properties of an object may stand in any order. -/
def SameValue : Json → Json → Prop
  | null, null => True
  | bool b, bool c => b = c
  | num m, num n => m = n
  | str s, str t => s = t
  | arr xs, arr ys => SameItems xs ys
  | obj ps, obj qs => SameProps ps qs
  | _, _ => False

def SameItems : List Json → List Json → Prop
  | [], [] => True
  | x :: xs, y :: ys => SameValue x y ∧ SameItems xs ys
  | _, _ => False

/-- Every property has a partner in the other list, and none is left over there. -/
def SameProps : List (JsString × Json) → List (JsString × Json) → Prop
  | [], qs => qs = []
  | (k, v) :: ps, qs => ∃ a w b, qs = a ++ (k, w) :: b ∧ SameValue v w ∧ SameProps ps (a ++ b)

end

mutual

/-- No object has a key twice, at any depth. -/
def Distinct : Json → Prop
  | arr items => DistinctItems items
  | obj props => (props.map Prod.fst).Nodup ∧ DistinctProps props
  | _ => True

def DistinctItems : List Json → Prop
  | [] => True
  | v :: vs => Distinct v ∧ DistinctItems vs

def DistinctProps : List (JsString × Json) → Prop
  | [] => True
  | (_, v) :: ps => Distinct v ∧ DistinctProps ps

end

theorem normProps_eq_map (ps : List (JsString × Json)) :
    normProps ps = ps.map fun p => (p.1, norm p.2) := by
  induction ps with
  | nil => rfl
  | cons p ps ih => rw [normProps, ih, List.map_cons]

theorem distinctProps_iff {ps : List (JsString × Json)} :
    DistinctProps ps ↔ ∀ p ∈ ps, Distinct p.2 := by
  induction ps with
  | nil => simp [DistinctProps]
  | cons p ps ih => simp [DistinctProps, ih]

/-- A property may be moved to the front. -/
theorem perm_normProps_middle (a b : List (JsString × Json)) (k : JsString) (w : Json) :
    (normProps (a ++ (k, w) :: b)).Perm ((k, norm w) :: normProps (a ++ b)) := by
  simp only [normProps_eq_map, List.map_append, List.map_cons]
  exact List.perm_middle

/-! ## Sorting picks one of the orders -/

theorem perm_sortProps (ps : List (JsString × Json)) : (sortProps ps).Perm ps :=
  List.perm_insertionSort _ ps

/-- Lists with the same properties are sorted alike, if no key comes twice. -/
theorem sortProps_eq_of_perm {ps qs : List (JsString × Json)} (h : ps.Perm qs)
    (hps : (ps.map Prod.fst).Nodup) : sortProps ps = sortProps qs := by
  have hsorted : ∀ l : List (JsString × Json),
      (sortProps l).Pairwise fun p q => p.1 ≤ q.1 := fun l =>
    List.pairwise_insertionSort _ l
  have hperm : (sortProps ps).Perm (sortProps qs) :=
    ((perm_sortProps ps).trans h).trans (perm_sortProps qs).symm
  refine hperm.eq_of_pairwise (fun p q hp hq hpq hqp => ?_) (hsorted ps) (hsorted qs)
  have hkey : p.1 = q.1 := le_antisymm hpq hqp
  have hp' : p ∈ ps := (perm_sortProps ps).subset hp
  have hq' : q ∈ ps := h.symm.subset ((perm_sortProps qs).subset hq)
  exact List.inj_on_of_nodup_map hps hp' hq' hkey

/-- The keys of a normal form are those of the value. -/
theorem map_fst_normProps (ps : List (JsString × Json)) :
    (normProps ps).map Prod.fst = ps.map Prod.fst := by
  rw [normProps_eq_map, List.map_map]
  rfl

mutual

/-- Values with one normal form differ in the order of keys only. -/
theorem sameValue_of_norm_eq : ∀ v w : Json, norm v = norm w → SameValue v w
  | null, w, h => by
      cases w with
      | null => trivial
      | _ => cases h
  | bool b, w, h => by
      cases w with
      | bool c => exact Json.bool.inj h
      | _ => cases h
  | num m, w, h => by
      cases w with
      | num n => exact Json.num.inj h
      | _ => cases h
  | str s, w, h => by
      cases w with
      | str t => exact Json.str.inj h
      | _ => cases h
  | arr xs, w, h => by
      cases w with
      | arr ys => exact sameItems_of_norm_eq xs ys (Json.arr.inj h)
      | _ => cases h
  | obj ps, w, h => by
      cases w with
      | obj qs =>
          have hsort : sortProps (normProps ps) = sortProps (normProps qs) := Json.obj.inj h
          have hperm : (normProps ps).Perm (normProps qs) := by
            have hsorted := (perm_sortProps (normProps ps)).symm
            rw [hsort] at hsorted
            exact hsorted.trans (perm_sortProps (normProps qs))
          exact sameProps_of_perm ps qs hperm
      | _ => cases h

theorem sameItems_of_norm_eq : ∀ xs ys : List Json, normItems xs = normItems ys → SameItems xs ys
  | [], ys, h => by
      cases ys with
      | nil => trivial
      | cons => cases h
  | x :: xs, ys, h => by
      cases ys with
      | nil => cases h
      | cons y ys =>
          obtain ⟨hx, hxs⟩ := List.cons.inj h
          exact ⟨sameValue_of_norm_eq x y hx, sameItems_of_norm_eq xs ys hxs⟩

theorem sameProps_of_perm : ∀ ps qs : List (JsString × Json),
    (normProps ps).Perm (normProps qs) → SameProps ps qs
  | [], qs, h => by
      have hnil : normProps qs = [] := List.nil_perm.mp h
      rw [normProps_eq_map, List.map_eq_nil_iff] at hnil
      exact hnil
  | (k, v) :: ps, qs, h => by
      -- the partner of the first property
      have hmem : (k, norm v) ∈ normProps qs := h.subset (List.mem_cons_self ..)
      rw [normProps_eq_map] at hmem
      obtain ⟨⟨k', w⟩, hw, heq⟩ := List.mem_map.mp hmem
      obtain ⟨rfl, hnorm⟩ := Prod.mk.inj heq
      obtain ⟨a, b, rfl⟩ := List.append_of_mem hw
      have hrest : (normProps ps).Perm (normProps (a ++ b)) := by
        have hboth := h.trans (perm_normProps_middle a b k' w)
        rw [normProps, hnorm] at hboth
        exact hboth.cons_inv
      exact ⟨a, w, b, rfl, sameValue_of_norm_eq v w hnorm.symm, sameProps_of_perm ps (a ++ b) hrest⟩

end

mutual

/-- Where no key comes twice, values that differ in the order of keys have one
    normal form. -/
theorem norm_eq_of_sameValue : ∀ v w : Json, v.Distinct → w.Distinct → SameValue v w →
    norm v = norm w
  | null, w, _, _, h => by
      cases w with
      | null => rfl
      | _ => exact h.elim
  | bool b, w, _, _, h => by
      cases w with
      | bool c => exact congrArg Json.bool h
      | _ => exact h.elim
  | num m, w, _, _, h => by
      cases w with
      | num n => exact congrArg Json.num h
      | _ => exact h.elim
  | str s, w, _, _, h => by
      cases w with
      | str t => exact congrArg Json.str h
      | _ => exact h.elim
  | arr xs, w, hv, hw, h => by
      cases w with
      | arr ys => exact congrArg Json.arr (normItems_eq_of_sameItems xs ys hv hw h)
      | _ => exact h.elim
  | obj ps, w, hv, hw, h => by
      cases w with
      | obj qs =>
          have hperm := perm_of_sameProps ps qs hv.2 (distinctProps_iff.mp hw.2) h
          have hkeys : ((normProps ps).map Prod.fst).Nodup := by
            rw [map_fst_normProps]
            exact hv.1
          exact congrArg Json.obj (sortProps_eq_of_perm hperm hkeys)
      | _ => exact h.elim

theorem normItems_eq_of_sameItems : ∀ xs ys : List Json, DistinctItems xs → DistinctItems ys →
    SameItems xs ys → normItems xs = normItems ys
  | [], ys, _, _, h => by
      cases ys with
      | nil => rfl
      | cons => exact h.elim
  | x :: xs, ys, hx, hy, h => by
      cases ys with
      | nil => exact h.elim
      | cons y ys =>
          rw [normItems, normItems, norm_eq_of_sameValue x y hx.1 hy.1 h.1,
            normItems_eq_of_sameItems xs ys hx.2 hy.2 h.2]

theorem perm_of_sameProps : ∀ ps qs : List (JsString × Json), DistinctProps ps →
    (∀ q ∈ qs, Distinct q.2) → SameProps ps qs → (normProps ps).Perm (normProps qs)
  | [], qs, _, _, h => by
      have hnil : qs = [] := h
      rw [hnil]
  | (k, v) :: ps, qs, hps, hqs, h => by
      obtain ⟨a, w, b, rfl, hvw, hrest⟩ := h
      have hnorm := norm_eq_of_sameValue v w hps.1 (hqs (k, w) (by simp)) hvw
      have hperm := perm_of_sameProps ps (a ++ b) hps.2
        (fun q hq => hqs q (by rcases List.mem_append.mp hq with hq | hq <;> simp [hq])) hrest
      rw [normProps, hnorm]
      exact (hperm.cons _).trans (perm_normProps_middle a b k w).symm

end

/-! ## Keys -/

theorem lookup_of_mem {α : Type} {l : List (JsString × α)} (hl : (l.map Prod.fst).Nodup)
    {key : JsString} {v : α} (h : (key, v) ∈ l) : l.lookup key = some v := by
  obtain ⟨a, b, rfl⟩ := List.append_of_mem h
  rw [List.lookup_eq_some_iff]
  refine ⟨a, b, rfl, fun p hp => ?_⟩
  rw [List.map_append, List.map_cons, List.nodup_append] at hl
  have hne := hl.2.2 p.1 (List.mem_map_of_mem hp) key List.mem_cons_self
  exact bne_iff_ne.mpr (Ne.symm hne)

theorem mem_of_lookup {α : Type} {l : List (JsString × α)} {key : JsString} {v : α}
    (h : l.lookup key = some v) : (key, v) ∈ l := by
  obtain ⟨a, b, rfl, -⟩ := List.lookup_eq_some_iff.mp h
  exact List.mem_append_right _ List.mem_cons_self

/-- The properties of a value with the same normal form. -/
theorem Same.props {a : Json} {qs : List (JsString × Json)} (h : a.Same (.obj qs)) :
    ∃ ps, a = .obj ps ∧ (normProps ps).Perm (normProps qs) := by
  have hnorm : norm a = .obj (sortProps (normProps qs)) := h
  cases a with
  | obj ps =>
      have hsort : sortProps (normProps ps) = sortProps (normProps qs) := Json.obj.inj hnorm
      have hperm := (perm_sortProps (normProps ps)).symm
      rw [hsort] at hperm
      exact ⟨ps, rfl, hperm.trans (perm_sortProps (normProps qs))⟩
  | _ => cases hnorm

/-- A value stays under its key when the keys of an object are put in another order. -/
theorem Same.get?_some {a : Json} {qs : List (JsString × Json)} (h : a.Same (.obj qs))
    (hqs : (qs.map Prod.fst).Nodup) {key : JsString} {v : Json}
    (hget : (obj qs).get? key = some v) : ∃ v', a.get? key = some v' ∧ v'.Same v := by
  obtain ⟨ps, rfl, hperm⟩ := h.props
  have hkeys := hperm.map Prod.fst
  rw [map_fst_normProps, map_fst_normProps] at hkeys
  have hmem : (key, norm v) ∈ normProps ps := by
    refine hperm.symm.subset ?_
    rw [normProps_eq_map]
    exact List.mem_map_of_mem (f := fun p : JsString × Json => (p.1, norm p.2)) (mem_of_lookup hget)
  rw [normProps_eq_map] at hmem
  obtain ⟨⟨key', v'⟩, hv, heq⟩ := List.mem_map.mp hmem
  obtain ⟨rfl, hnorm⟩ := Prod.mk.inj heq
  exact ⟨v', lookup_of_mem (hkeys.nodup_iff.mpr hqs) hv, hnorm⟩

theorem Same.eq_str {a : Json} {s : JsString} (h : a.Same (.str s)) : a = .str s := by
  cases a with
  | str t => exact h
  | _ => cases h

theorem Same.eq_null {a : Json} (h : a.Same .null) : a = .null := by
  cases a with
  | null => rfl
  | _ => cases h

theorem Same.get?_none {a b : Json} (h : a.Same b) {key : JsString} (hget : b.get? key = none) :
    a.get? key = none := by
  cases a with
  | obj ps =>
      cases b with
      | obj qs =>
          obtain ⟨ps', heq, hperm⟩ := h.props
          obtain rfl := Json.obj.inj heq
          have hkeys := hperm.map Prod.fst
          rw [map_fst_normProps, map_fst_normProps] at hkeys
          cases hps : ps.lookup key with
          | none => exact hps
          | some v =>
              have hmem : key ∈ qs.map Prod.fst :=
                hkeys.subset (List.mem_map_of_mem (f := Prod.fst) (mem_of_lookup hps))
              obtain ⟨q, hq, rfl⟩ := List.mem_map.mp hmem
              have hne := List.lookup_eq_none_iff.mp hget q hq
              exact absurd rfl (bne_iff_ne.mp hne)
      | _ => cases h
  | _ => rfl

end Json

/-- A JSON value as JavaScript holds it: no object has a key twice. -/
structure JsonData where
  value : Json
  distinct : value.Distinct

/-- Equal up to the order of keys: the same value with its keys sorted. -/
theorem JsonData.sameValue_iff_norm_eq (p q : JsonData) :
    p.value.SameValue q.value ↔ p.value.norm = q.value.norm :=
  ⟨Json.norm_eq_of_sameValue _ _ p.distinct q.distinct, Json.sameValue_of_norm_eq _ _⟩

end ZeroAuth.Js
