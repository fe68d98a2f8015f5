/-
  ZeroAuth.Lib.Scan

  The numbers below a bound that a predicate holds of, in increasing order, and loops that
  collect them.

  A loop inside a loop scans the product of the two bounds (`scan_mul`).
-/

import Mathlib.Data.List.Range
import Mathlib.Data.List.Basic
import Mathlib.Data.List.Nodup
import Mathlib.Order.RelClasses
import Mathlib.Tactic.Ring

namespace ZeroAuth.Lib

/-- The numbers below `n` that `p` holds of, in order. -/
def scan (n : ℕ) (p : ℕ → Bool) : List ℕ := (List.range n).filter p

variable {n s : ℕ} {p : ℕ → Bool}

@[simp] theorem mem_scan : s ∈ scan n p ↔ s < n ∧ p s = true := by
  unfold scan
  rw [List.mem_filter, List.mem_range]

theorem scan_increasing (n : ℕ) (p : ℕ → Bool) : (scan n p).Pairwise (· < ·) :=
  List.pairwise_lt_range.filter p

theorem scan_add (a b : ℕ) (p : ℕ → Bool) :
    scan (a + b) p = scan a p ++ (scan b fun j => p (a + j)).map (a + ·) := by
  unfold scan
  rw [List.range_add, List.filter_append, List.filter_map]
  rfl

theorem scan_mul (a b : ℕ) (p : ℕ → Bool) :
    scan (a * b) p =
      (List.range a).flatMap fun i => (scan b fun j => p (i * b + j)).map (i * b + ·) := by
  induction a with
  | zero => simp [scan]
  | succ a ih => rw [Nat.succ_mul, scan_add, ih, List.range_succ, List.flatMap_append,
      List.flatMap_singleton]

/-- An increasing list is determined by its members. -/
theorem eq_of_increasing {l m : List ℕ} (hl : l.Pairwise (· < ·)) (hm : m.Pairwise (· < ·))
    (h : ∀ s, s ∈ l ↔ s ∈ m) : l = m := by
  have hperm : l.Perm m :=
    (List.perm_ext_iff_of_nodup (hl.imp Nat.ne_of_lt) (hm.imp Nat.ne_of_lt)).mpr h
  exact hperm.eq_of_pairwise (fun a b _ _ hab hba => absurd hab (Nat.lt_asymm hba)) hl hm

/-- A smaller bound leaves the list as it is when nothing lies in between. -/
theorem scan_eq_scan_iff {m : ℕ} (h : n ≤ m) :
    scan m p = scan n p ↔ ∀ s, n ≤ s → s < m → p s = false := by
  constructor
  · intro heq s hn hm
    by_contra hp
    have hs : s ∈ scan m p := mem_scan.mpr ⟨hm, Bool.eq_true_of_not_eq_false hp⟩
    rw [heq] at hs
    have := (mem_scan.mp hs).1
    omega
  · intro hclear
    apply eq_of_increasing (scan_increasing m p) (scan_increasing n p)
    intro s
    rw [mem_scan, mem_scan]
    constructor
    · rintro ⟨hm, hp⟩
      refine ⟨?_, hp⟩
      by_contra hn
      -- the number would lie between the two bounds
      rw [hclear s (by omega) hm] at hp
      cases hp
    · rintro ⟨hn, hp⟩
      exact ⟨by omega, hp⟩

/-- A loop that pushes a value for each number found. -/
theorem foldl_push {α : Type} (f : ℕ → α) (acc : List α) :
    (List.range n).foldl (fun acc i => if p i then acc ++ [f i] else acc) acc =
      acc ++ (scan n p).map f := by
  induction n with
  | zero => simp [scan]
  | succ n ih =>
    have hsucc : scan (n + 1) p = scan n p ++ [n].filter p := by
      unfold scan
      rw [List.range_succ, List.filter_append]
    rw [List.range_succ, List.foldl_append, ih, hsucc, List.map_append, ← List.append_assoc]
    show (if p n then _ else _) = _
    by_cases h : p n
    · rw [if_pos h, List.filter_cons_of_pos h]
      rfl
    · rw [if_neg h, List.filter_cons_of_neg h]
      exact (List.append_nil _).symm

end ZeroAuth.Lib
