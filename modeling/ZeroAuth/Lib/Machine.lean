/-
  ZeroAuth.Lib.Machine

  A machine with one state and one kind of step, for components whose calls do not
  suspend: `Machine.step` is executable, `Later good` collects the runs whose
  every step satisfies a condition on the state before it.
-/

import Mathlib.Logic.Relation

namespace ZeroAuth.Lib

structure Machine (W L : Type) where
  step : W → L → Option W

namespace Machine

variable {W L : Type} {M : Machine W L} {good : W → L → Prop} {w w' : W}

/-- Run a schedule. -/
def run (M : Machine W L) (w : W) : List L → Option W
  | [] => some w
  | l :: ls => (M.step w l).bind fun w' => M.run w' ls

theorem run_cons {l : L} (hs : M.step w l = some w') (ls : List L) : M.run w (l :: ls) = M.run w' ls := by
  show (M.step w l).bind _ = _
  rw [hs]
  rfl

theorem run_append (ls more : List L) :
    M.run w (ls ++ more) = (M.run w ls).bind fun w' => M.run w' more := by
  induction ls generalizing w with
  | nil => rfl
  | cons l ls ih =>
      show (M.step w l).bind (fun w₁ => M.run w₁ (ls ++ more)) = _
      rw [funext fun w₁ => ih (w := w₁), ← Option.bind_assoc]
      rfl

theorem run_snoc (ls : List L) (l : L) :
    M.run w (ls ++ [l]) = (M.run w ls).bind fun w' => M.step w' l := by
  have hone : ∀ w', M.run w' [l] = M.step w' l := fun w' => Option.bind_fun_some _
  rw [run_append, funext hone]

/-- Run a schedule whose every step passes a test where it is taken. -/
def runChecked (M : Machine W L) (test : W → L → Bool) (w : W) : List L → Option W
  | [] => some w
  | l :: ls => if test w l then (M.step w l).bind fun w' => M.runChecked test w' ls else none

/-- Every step of a schedule satisfies `good` where it is taken. -/
def Keeps (M : Machine W L) (good : W → L → Prop) (w : W) : List L → Prop
  | [] => True
  | l :: ls => good w l ∧ ∀ w', M.step w l = some w' → M.Keeps good w' ls

def Next (M : Machine W L) (good : W → L → Prop) (w w' : W) : Prop :=
  ∃ l, good w l ∧ M.step w l = some w'

/-- `w'` is reached from `w` by steps that all satisfy `good`. -/
abbrev Later (M : Machine W L) (good : W → L → Prop) : W → W → Prop :=
  Relation.ReflTransGen (M.Next good)

/-- A test that is sound wherever an invariant of the good steps holds. -/
theorem later_of_runChecked_of_invariant {I : W → Prop} {test : W → L → Bool}
    (htest : ∀ w l, I w → test w l = true → good w l)
    (hstep : ∀ w l w', I w → good w l → M.step w l = some w' → I w') (hI : I w)
    {ls : List L} (hr : M.runChecked test w ls = some w') : M.Later good w w' := by
  induction ls generalizing w with
  | nil =>
      cases hr
      exact .refl
  | cons l ls ih =>
      simp only [runChecked, Option.ite_none_right_eq_some] at hr
      obtain ⟨hl, hr⟩ := hr
      obtain ⟨w₁, hs, hr⟩ := Option.bind_eq_some_iff.mp hr
      have hgood := htest w l hI hl
      exact (ih (hstep w l w₁ hI hgood hs) hr).head ⟨l, hgood, hs⟩

theorem later_of_runChecked {test : W → L → Bool} (htest : ∀ w l, test w l = true → good w l)
    {ls : List L} (hr : M.runChecked test w ls = some w') : M.Later good w w' :=
  later_of_runChecked_of_invariant (I := fun _ => True) (fun w l _ => htest w l)
    (fun _ _ _ _ _ _ => trivial) trivial hr

theorem later_of_run {ls : List L} (hr : M.run w ls = some w') :
    M.Later (fun _ _ => True) w w' := by
  induction ls generalizing w with
  | nil =>
      cases hr
      exact .refl
  | cons l ls ih =>
      obtain ⟨w₁, hs, hr⟩ := Option.bind_eq_some_iff.mp hr
      exact (ih hr).head ⟨l, trivial, hs⟩

/-- What every step keeps, every run keeps. -/
theorem Later.invariant {I : W → Prop}
    (hstep : ∀ w l w', I w → good w l → M.step w l = some w' → I w')
    (h : M.Later good w w') (hI : I w) : I w' := by
  induction h with
  | refl => exact hI
  | tail _ hn ih =>
      obtain ⟨l, hg, hs⟩ := hn
      exact hstep _ l _ ih hg hs

/-- A relation between the ends of a run: one step at a time. -/
theorem Later.lift {X : Type} {R : X → X → Prop} {f : W → X}
    (hstep : ∀ w l w', good w l → M.step w l = some w' → Relation.ReflTransGen R (f w) (f w'))
    (h : M.Later good w w') : Relation.ReflTransGen R (f w) (f w') := by
  induction h with
  | refl => exact .refl
  | tail _ hn ih =>
      obtain ⟨l, hg, hs⟩ := hn
      exact ih.trans (hstep _ l _ hg hs)

end Machine

end ZeroAuth.Lib
