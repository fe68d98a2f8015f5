/-
  ZeroAuth.Lib.HashChain

  Chains of entries in which every entry names the hash of the one before it.

  `Linked first l` is a chain that begins at `first`; `headOf first l` is where
  it ends, the value the next entry has to name.  `suffix_of_headOf_eq` is the
  tamper argument: when hashes determine entries, two chains that end in the
  same value agree backwards from there until one of them begins.
-/

import Mathlib.Data.List.Forall2
import Mathlib.Data.List.Induction

namespace ZeroAuth.Lib.HashChain

variable {ρ η : Type} (prev hash : ρ → η)

/-- Each entry names the hash of the entry before it, the first one `first`. -/
def Linked (first : η) : List ρ → Prop
  | [] => True
  | r :: rs => prev r = first ∧ Linked (hash r) rs

instance decidableLinked [DecidableEq η] : (first : η) → (l : List ρ) →
    Decidable (Linked prev hash first l)
  | _, [] => .isTrue trivial
  | _, r :: rs =>
      have := decidableLinked (hash r) rs
      inferInstanceAs (Decidable (_ ∧ _))

/-- The hash of the last entry, or `first` for an empty chain. -/
def headOf (first : η) : List ρ → η
  | [] => first
  | r :: rs => headOf (hash r) rs

@[simp] theorem headOf_append_singleton (first : η) (l : List ρ) (r : ρ) :
    headOf hash first (l ++ [r]) = hash r := by
  induction l generalizing first with
  | nil => rfl
  | cons s l ih => exact ih _

theorem headOf_eq_getLast {first : η} {l : List ρ} (h : l ≠ []) :
    headOf hash first l = hash (l.getLast h) := by
  conv_lhs => rw [← List.dropLast_append_getLast h]
  exact headOf_append_singleton hash first _ _

theorem linked_append {first : η} {l l' : List ρ} :
    Linked prev hash first (l ++ l') ↔
      Linked prev hash first l ∧ Linked prev hash (headOf hash first l) l' := by
  induction l generalizing first with
  | nil => simp [Linked, headOf]
  | cons s l ih => simp only [List.cons_append, Linked, headOf, ih, and_assoc]

theorem linked_append_singleton {first : η} {l : List ρ} {r : ρ} :
    Linked prev hash first (l ++ [r]) ↔
      Linked prev hash first l ∧ prev r = headOf hash first l := by
  simp [linked_append, Linked]

/-- What an entry names is where the chain begins or the hash of an entry. -/
theorem Linked.forall_prev {P : η → Prop} {first : η} {l : List ρ}
    (h : Linked prev hash first l) (hfirst : P first) (hhash : ∀ r ∈ l, P (hash r)) :
    ∀ r ∈ l, P (prev r) := by
  induction l generalizing first with
  | nil => simp
  | cons s l ih =>
      intro r hr
      rcases List.mem_cons.mp hr with rfl | hr
      · exact h.1 ▸ hfirst
      · exact ih h.2 (hhash s (by simp)) (fun r hr => hhash r (by simp [hr])) r hr

/-- Two chains whose hashes determine their entries, which begin and end in the same
    values: they have an end in common, and what is before it in each leads back to
    the beginning. -/
theorem common_end_of_headOf_eq {g : η} {l s : List ρ} (hl : Linked prev hash g l)
    (hs : Linked prev hash g s) (hinj : ∀ a ∈ l, ∀ b ∈ s, hash a = hash b → a = b)
    (h : headOf hash g l = headOf hash g s) :
    ∃ l₁ s₁ rest, l = l₁ ++ rest ∧ s = s₁ ++ rest ∧ headOf hash g l₁ = g ∧ headOf hash g s₁ = g := by
  induction s using List.reverseRecOn generalizing l with
  | nil => exact ⟨l, [], [], by simp, rfl, h, rfl⟩
  | append_singleton s b ih =>
      obtain rfl | ⟨l, a, rfl⟩ := List.eq_nil_or_concat l
      · exact ⟨[], s ++ [b], [], rfl, by simp, rfl, h.symm⟩
      rw [List.concat_eq_append] at *
      rw [headOf_append_singleton, headOf_append_singleton] at h
      obtain rfl := hinj a (by simp) b (by simp) h
      obtain ⟨hl', hpa⟩ := (linked_append_singleton prev hash).mp hl
      obtain ⟨hs', hpb⟩ := (linked_append_singleton prev hash).mp hs
      obtain ⟨l₁, s₁, rest, rfl, rfl, hends⟩ := ih hl' hs'
        (fun a' ha' b' hb' => hinj a' (by simp [ha']) b' (by simp [hb'])) (hpa.symm.trans hpb)
      exact ⟨l₁, s₁, rest ++ [a], by simp, by simp, hends⟩

/-- A chain that ends where it begins is empty, if no entry hashes to its
    beginning. -/
theorem eq_nil_of_headOf_eq {g : η} {l : List ρ} (hne : ∀ a ∈ l, hash a ≠ g)
    (h : headOf hash g l = g) : l = [] := by
  by_contra hnil
  rw [headOf_eq_getLast hash hnil] at h
  exact hne _ (List.getLast_mem hnil) h

end ZeroAuth.Lib.HashChain
