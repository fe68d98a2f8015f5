/-
  ZeroAuth.Lib.Trim

  Trimming a list at both ends, and how the results for two sets of elements
  compare: where one set contains the other, the larger one removes more only if the
  rest begins or ends with one of its own elements.
-/

import Mathlib.Data.List.DropRight

namespace ZeroAuth.Lib

variable {α : Type*} {p q : α → Bool}

/-- The elements that satisfy `p` go at the head, then at the end. -/
def trimBy (p : α → Bool) (s : List α) : List α := (s.dropWhile p).rdropWhile p

/-- What is removed at the ends, and what is left between them. -/
theorem trimBy_split (p : α → Bool) (s : List α) :
    ∃ a b, s = a ++ trimBy p s ++ b ∧ (∀ x ∈ a, p x = true) ∧ ∀ x ∈ b, p x = true := by
  refine ⟨s.takeWhile p, (s.dropWhile p).rtakeWhile p, ?_, ?_, ?_⟩
  · rw [trimBy, List.append_assoc, List.rdropWhile_append_rtakeWhile, List.takeWhile_append_dropWhile]
  · intro x hx
    exact List.mem_takeWhile_imp hx
  · intro x hx
    exact List.mem_rtakeWhile_imp hx

theorem dropWhile_append_of_forall {a : List α} (ha : ∀ x ∈ a, p x = true) (s : List α) :
    (a ++ s).dropWhile p = s.dropWhile p := by
  induction a with
  | nil => rfl
  | cons x a ih =>
      rw [List.cons_append, List.dropWhile_cons_of_pos (ha x List.mem_cons_self)]
      exact ih fun y hy => ha y (List.mem_cons_of_mem x hy)

theorem rdropWhile_append_of_forall {b : List α} (hb : ∀ x ∈ b, p x = true) (s : List α) :
    (s ++ b).rdropWhile p = s.rdropWhile p := by
  rw [List.rdropWhile, List.reverse_append, dropWhile_append_of_forall, ← List.rdropWhile]
  intro x hx
  exact hb x (List.mem_reverse.mp hx)

theorem dropWhile_of_head {s : List α} (h : ∀ x ∈ s.head?, p x = false) : s.dropWhile p = s := by
  cases s with
  | nil => rfl
  | cons x s => exact List.dropWhile_cons_of_neg (by simp [h x rfl])

theorem rdropWhile_of_last {s : List α} (h : ∀ x ∈ s.getLast?, p x = false) :
    s.rdropWhile p = s := by
  rw [List.rdropWhile, dropWhile_of_head, List.reverse_reverse]
  intro x hx
  rw [List.head?_reverse] at hx
  exact h x hx

/-- The rest is found by its ends. -/
theorem trimBy_of_split {a m b : List α} (ha : ∀ x ∈ a, p x = true) (hb : ∀ x ∈ b, p x = true)
    (hhead : ∀ x ∈ m.head?, p x = false) (hlast : ∀ x ∈ m.getLast?, p x = false) :
    trimBy p (a ++ m ++ b) = m := by
  rw [trimBy, List.append_assoc, dropWhile_append_of_forall ha]
  by_cases hm : m = []
  · have hall : b.dropWhile p = [] := by
      have hnil := dropWhile_append_of_forall hb []
      rwa [List.append_nil] at hnil
    rw [hm, List.nil_append, hall]
    rfl
  · have hkeep : ∀ x ∈ (m ++ b).head?, p x = false := by
      intro x hx
      rw [List.head?_append_of_ne_nil m hm] at hx
      exact hhead x hx
    rw [dropWhile_of_head hkeep, rdropWhile_append_of_forall hb, rdropWhile_of_last hlast]

theorem last_trimBy {s : List α} : ∀ x ∈ (trimBy p s).getLast?, p x = false := by
  intro x hx
  have hne : trimBy p s ≠ [] := by
    intro hnil
    rw [hnil] at hx
    cases hx
  have hnot := List.rdropWhile_last_not p (s.dropWhile p) hne
  rw [List.getLast?_eq_some_getLast hne] at hx
  obtain rfl := Option.some.inj hx
  exact Bool.eq_false_iff.mpr hnot

theorem head_trimBy {s : List α} : ∀ x ∈ (trimBy p s).head?, p x = false := by
  intro x hx
  have hne : s.dropWhile p ≠ [] := by
    intro hnil
    rw [trimBy, hnil] at hx
    cases hx
  have hmem : x ∈ (s.dropWhile p).head? := by
    obtain ⟨rest, hrest⟩ := List.rdropWhile_prefix p (s.dropWhile p)
    rw [← hrest, List.head?_append]
    change x ∈ ((trimBy p s).head?).or _
    rw [hx]
    rfl
  have hnot := List.head_dropWhile_not p hne
  rw [List.head?_eq_some_head hne] at hmem
  obtain rfl := Option.some.inj hmem
  exact hnot

/-- The order of the two ends does not matter. -/
theorem trimBy_reverse (p : α → Bool) (s : List α) :
    trimBy p s.reverse = (trimBy p s).reverse := by
  obtain ⟨a, b, hsplit, ha, hb⟩ := trimBy_split p s
  conv_lhs => rw [hsplit, List.reverse_append, List.reverse_append, ← List.append_assoc]
  refine trimBy_of_split ?_ ?_ ?_ ?_
  · exact fun x hx => hb x (List.mem_reverse.mp hx)
  · exact fun x hx => ha x (List.mem_reverse.mp hx)
  · rw [List.head?_reverse]
    exact last_trimBy
  · rw [List.getLast?_reverse]
    exact head_trimBy

section

variable (hpq : ∀ x, p x = true → q x = true)

include hpq

/-- The larger set removes no more if the rest neither begins nor ends with one of its
    elements. -/
theorem trimBy_eq_of_ends {s : List α} (hhead : ∀ x ∈ (trimBy p s).head?, q x = false)
    (hlast : ∀ x ∈ (trimBy p s).getLast?, q x = false) : trimBy q s = trimBy p s := by
  obtain ⟨a, b, hsplit, ha, hb⟩ := trimBy_split p s
  conv_lhs => rw [hsplit]
  exact trimBy_of_split (fun x hx => hpq x (ha x hx)) (fun x hx => hpq x (hb x hx)) hhead hlast

/-- A first element that the larger set spares stays the first. -/
theorem head?_trimBy {s : List α} {x : α} (h : (trimBy p s).head? = some x) (hx : q x = false) :
    (trimBy q s).head? = some x := by
  obtain ⟨a, b, hsplit, ha, hb⟩ := trimBy_split p s
  obtain ⟨m, hm⟩ : ∃ m, trimBy p s = x :: m := List.head?_eq_some_iff.mp h
  have hb' : ∀ y ∈ b, q y = true := fun y hy => hpq y (hb y hy)
  have ha' : ∀ y ∈ a, q y = true := fun y hy => hpq y (ha y hy)
  rw [hsplit, hm, trimBy, List.append_assoc, dropWhile_append_of_forall ha', List.cons_append,
    List.dropWhile_cons_of_neg (by simp [hx]), ← List.cons_append, rdropWhile_append_of_forall hb',
    List.rdropWhile, List.reverse_cons, List.dropWhile_append]
  split
  · rw [List.dropWhile_cons_of_neg (by simp [hx])]
    rfl
  · rw [List.reverse_append, List.head?_append]
    rfl

theorem getLast?_trimBy {s : List α} {x : α} (h : (trimBy p s).getLast? = some x)
    (hx : q x = false) : (trimBy q s).getLast? = some x := by
  have hhead : (trimBy p s.reverse).head? = some x := by
    rw [trimBy_reverse, List.head?_reverse, h]
  have hkept := head?_trimBy hpq hhead hx
  rwa [trimBy_reverse, List.head?_reverse] at hkept

end

end ZeroAuth.Lib
