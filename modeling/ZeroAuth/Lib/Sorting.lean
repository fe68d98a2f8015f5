/-
  ZeroAuth.Lib.Sorting

  Insertion sort and filters.  A filter goes through the sort, and a list that is
  sorted by a key falls into the part below a value of the key, the part at it
  and the part above it.  A listing that is sorted downwards and cut after `k`
  rows shows a row for sure exactly when fewer than `k` others may come before it.
-/

import Mathlib.Data.List.Nodup
import Mathlib.Data.List.Sort

namespace ZeroAuth.Lib

variable {α κ : Type}

section Filter

variable {r : α → α → Prop} [DecidableRel r]

theorem orderedInsert_eq_cons {a : α} {l : List α} (h : ∀ b ∈ l, r a b) :
    l.orderedInsert r a = a :: l := by
  cases l with
  | nil => rfl
  | cons b l => rw [List.orderedInsert_cons, if_pos (h b (by simp))]

theorem filter_orderedInsert [IsTrans α r] {a : α} {l : List α} (hl : l.Pairwise r)
    (p : α → Bool) :
    (l.orderedInsert r a).filter p =
      if p a then (l.filter p).orderedInsert r a else l.filter p := by
  induction l with
  | nil => cases hp : p a <;> simp [hp]
  | cons b l ih =>
      rw [List.pairwise_cons] at hl
      by_cases hab : r a b
      · -- `a` comes first, and stays first among what the filter leaves
        have hall : ∀ c ∈ (b :: l).filter p, r a c := by
          intro c hc
          rcases List.mem_cons.mp (List.mem_of_mem_filter hc) with rfl | hc
          · exact hab
          · exact IsTrans.trans a b c hab (hl.1 c hc)
        rw [List.orderedInsert_cons, if_pos hab, orderedInsert_eq_cons hall, List.filter_cons]
      · rw [List.orderedInsert_cons, if_neg hab, List.filter_cons, ih hl.2, List.filter_cons]
        by_cases hb : p b = true
        · rw [if_pos hb, if_pos hb, List.orderedInsert_cons, if_neg hab]
          by_cases ha : p a = true
          · rw [if_pos ha, if_pos ha]
          · rw [if_neg ha, if_neg ha]
        · rw [if_neg hb, if_neg hb]

/-- A filter goes through the sort. -/
theorem filter_insertionSort [IsTrans α r] [Std.Total r] (l : List α) (p : α → Bool) :
    (l.insertionSort r).filter p = (l.filter p).insertionSort r := by
  induction l with
  | nil => rfl
  | cons a l ih =>
      rw [List.insertionSort_cons, filter_orderedInsert (List.pairwise_insertionSort r l), ih,
        List.filter_cons]
      by_cases ha : p a = true
      · rw [if_pos ha, if_pos ha, List.insertionSort_cons]
      · rw [if_neg ha, if_neg ha]

end Filter

/-- The parts of a list that is sorted by a key. -/
theorem eq_append_of_pairwise_key [LinearOrder κ] {f : α → κ} {l : List α}
    (h : l.Pairwise fun a b => f a ≤ f b) (k : κ) :
    l = (l.filter fun a => f a < k) ++ (l.filter fun a => f a = k) ++
      l.filter fun a => k < f a := by
  induction l with
  | nil => rfl
  | cons a l ih =>
      rw [List.pairwise_cons] at h
      have hl := ih h.2
      have hbelow : k ≤ f a → (l.filter fun b => decide (f b < k)) = [] := by
        intro hka
        refine List.filter_eq_nil_iff.mpr fun b hb => ?_
        simpa using hka.trans (h.1 b hb)
      have hat : k < f a → (l.filter fun b => decide (f b = k)) = [] := by
        intro hka
        refine List.filter_eq_nil_iff.mpr fun b hb => ?_
        simpa using (hka.trans_le (h.1 b hb)).ne'
      rcases lt_trichotomy (f a) k with hlt | rfl | hgt
      · simp only [List.filter_cons, hlt, hlt.ne, hlt.not_gt, decide_true, decide_false, if_true,
          Bool.false_eq_true, if_false, List.cons_append]
        exact congrArg (a :: ·) hl
      · rw [hbelow le_rfl, List.nil_append] at hl
        simp only [List.filter_cons, hbelow le_rfl, lt_irrefl, decide_true, decide_false, if_true,
          Bool.false_eq_true, if_false, List.nil_append, List.cons_append]
        exact congrArg (a :: ·) hl
      · rw [hbelow hgt.le, hat hgt, List.nil_append, List.nil_append] at hl
        simp only [List.filter_cons, hbelow hgt.le, hat hgt, hgt, hgt.ne', hgt.not_gt, decide_true,
          decide_false, if_true, Bool.false_eq_true, if_false, List.nil_append]
        exact congrArg (a :: ·) hl

/-! ## Capped listings -/

section Listing

variable {ι : Type} [DecidableEq ι] {id : α → ι} {key : α → ℕ} {rows l : List α} {x : α} {k : ℕ}

/-- `ORDER BY key DESC LIMIT k`; rows with one key come in any order. -/
def IsListing (key : α → ℕ) (rows : List α) (k : ℕ) (l : List α) : Prop :=
  ∃ full : List α, full.Perm rows ∧ full.Pairwise (fun a b => key b ≤ key a) ∧ l = full.take k

/-- The other rows that a listing may show before `x`. -/
def crowd (id : α → ι) (key : α → ℕ) (rows : List α) (x : α) : ℕ :=
  rows.countP fun y => id y ≠ id x ∧ key x ≤ key y

theorem exists_listing (key : α → ℕ) (rows : List α) (k : ℕ) : ∃ l, IsListing key rows k l := by
  have : IsTrans α fun a b => key b ≤ key a := ⟨fun a b c hab hbc => le_trans hbc hab⟩
  have : Std.Total fun a b : α => key b ≤ key a := ⟨fun a b => le_total (key b) (key a)⟩
  exact ⟨_, rows.insertionSort fun a b => key b ≤ key a, List.perm_insertionSort _ _,
    List.pairwise_insertionSort _ _, rfl⟩

theorem IsListing.subset (h : IsListing key rows k l) {y : α} (hy : y ∈ l) : y ∈ rows := by
  obtain ⟨full, hperm, -, rfl⟩ := h
  exact hperm.mem_iff.mp (List.mem_of_mem_take hy)

/-- What stands before `x` is counted by `crowd`. -/
theorem mem_listing_of_crowd (hnd : (rows.map id).Nodup) (hx : x ∈ rows)
    (hlt : crowd id key rows x < k) (h : IsListing key rows k l) : x ∈ l := by
  obtain ⟨full, hperm, hsorted, rfl⟩ := h
  obtain ⟨pre, post, rfl⟩ := List.append_of_mem (hperm.mem_iff.mpr hx)
  have hnd' : ((pre ++ x :: post).map id).Nodup := (hperm.map id).nodup_iff.mpr hnd
  have hpre : pre.countP (fun y => id y ≠ id x ∧ key x ≤ key y) = pre.length := by
    rw [List.countP_eq_length]
    intro y hy
    have hid : id y ≠ id x := by
      rw [List.map_append, List.nodup_append] at hnd'
      exact hnd'.2.2 _ (List.mem_map_of_mem hy) _ (List.mem_map_of_mem List.mem_cons_self)
    have hkey : key x ≤ key y := (List.pairwise_append.mp hsorted).2.2 y hy x List.mem_cons_self
    exact decide_eq_true ⟨hid, hkey⟩
  have hlen : pre.length < k := by
    have hcount : crowd id key rows x = crowd id key (pre ++ x :: post) x :=
      (hperm.countP_eq _).symm
    rw [hcount, crowd, List.countP_append, hpre] at hlt
    omega
  rw [List.mem_take_iff_getElem]
  exact ⟨pre.length, by simp; omega, by simp⟩

/-- Some order shows everything that `crowd` counts before `x`. -/
theorem exists_listing_of_crowd (hnd : (rows.map id).Nodup) (hx : x ∈ rows)
    (hle : k ≤ crowd id key rows x) : ∃ l, IsListing key rows k l ∧ x ∉ l := by
  let before : α → Bool := fun y => id y ≠ id x ∧ key x ≤ key y
  have hbefore : ∀ y, before y = true ↔ id y ≠ id x ∧ key x ≤ key y := fun y => decide_eq_true_iff
  have : IsTrans α fun a b => key b ≤ key a := ⟨fun a b c hab hbc => le_trans hbc hab⟩
  have : Std.Total fun a b : α => key b ≤ key a := ⟨fun a b => le_total (key b) (key a)⟩
  let ahead := (rows.filter before).insertionSort fun a b => key b ≤ key a
  let behind := (rows.filter fun y => ! before y).insertionSort fun a b => key b ≤ key a
  have hahead : ahead.Perm (rows.filter before) := List.perm_insertionSort _ _
  have hbehind : behind.Perm (rows.filter fun y => ! before y) := List.perm_insertionSort _ _
  have hlen : k ≤ ahead.length := by
    rw [hahead.length_eq, ← List.countP_eq_length_filter]
    exact hle
  refine ⟨(ahead ++ behind).take k, ⟨ahead ++ behind, ?_, ?_, rfl⟩, ?_⟩
  · exact (hahead.append hbehind).trans (List.filter_append_perm before rows)
  · rw [List.pairwise_append]
    refine ⟨List.pairwise_insertionSort _ _, List.pairwise_insertionSort _ _, ?_⟩
    intro a ha b hb
    have hka : key x ≤ key a := ((hbefore a).mp (List.of_mem_filter (hahead.mem_iff.mp ha))).2
    obtain ⟨hb, hnot⟩ := List.mem_filter.mp (hbehind.mem_iff.mp hb)
    -- what is not before `x` is `x` itself or older
    by_cases hid : id b = id x
    · rw [List.inj_on_of_nodup_map hnd hb hx hid]
      exact hka
    · have hnb : ¬ (id b ≠ id x ∧ key x ≤ key b) := fun h => by simp [(hbefore b).mpr h] at hnot
      have hkb : key b < key x := not_le.mp fun hle => hnb ⟨hid, hle⟩
      omega
  · intro hmem
    rw [List.take_append_of_le_length hlen] at hmem
    have hx' := List.of_mem_filter (hahead.mem_iff.mp (List.mem_of_mem_take hmem))
    exact ((hbefore x).mp hx').1 rfl

end Listing

end ZeroAuth.Lib
