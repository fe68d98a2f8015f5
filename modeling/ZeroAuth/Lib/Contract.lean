/-
  ZeroAuth.Lib.Contract

  A contract that anyone may call: a call changes the storage or reverts and leaves
  it as it was.  What every successful call keeps, every sequence of calls keeps,
  also with a record of the calls that succeeded.
-/

import Mathlib.Data.List.Basic

namespace ZeroAuth.Lib

/-- What a call by a sender does to the storage, or the error it reverts with. -/
structure Contract (A C E S : Type) where
  exec : A → C → S → Except E S

namespace Contract

variable {A C E S : Type} (K : Contract A C E S)

/-- One call, which may revert. -/
def apply (s : S) (x : A × C) : S :=
  match K.exec x.1 x.2 s with
  | .ok s' => s'
  | .error _ => s

/-- The storage after a sequence of calls. -/
def after (s : S) (xs : List (A × C)) : S := xs.foldl K.apply s

/-- The calls of a sequence that do not revert, in order. -/
def succeeded : S → List (A × C) → List (A × C)
  | _, [] => []
  | s, x :: xs =>
      match K.exec x.1 x.2 s with
      | .ok s' => x :: succeeded s' xs
      | .error _ => succeeded s xs

variable {K} {s s' : S} {x : A × C}

theorem apply_ok (h : K.exec x.1 x.2 s = .ok s') : K.apply s x = s' := by rw [apply, h]

theorem apply_error {e : E} (h : K.exec x.1 x.2 s = .error e) : K.apply s x = s := by rw [apply, h]

theorem after_append (s : S) (xs ys : List (A × C)) :
    K.after s (xs ++ ys) = K.after (K.after s xs) ys := by
  rw [after, List.foldl_append]
  rfl

theorem after_cons (s : S) (x : A × C) (xs : List (A × C)) :
    K.after s (x :: xs) = K.after (K.apply s x) xs := rfl

/-- A property of the storage and of the calls that have succeeded: what each successful
    call keeps, every sequence keeps. -/
theorem after_trace {R : List (A × C) → S → Prop}
    (hstep : ∀ tr s x s', R tr s → K.exec x.1 x.2 s = .ok s' → R (tr ++ [x]) s')
    (tr : List (A × C)) (h : R tr s) (xs : List (A × C)) :
    R (tr ++ K.succeeded s xs) (K.after s xs) := by
  induction xs generalizing s tr with
  | nil =>
      rw [succeeded, List.append_nil]
      exact h
  | cons x xs ih =>
      rw [after_cons, succeeded]
      cases hx : K.exec x.1 x.2 s with
      | ok s' =>
          rw [apply_ok hx]
          have hrest := ih (tr ++ [x]) (hstep tr s x s' h hx)
          rw [List.append_assoc, List.singleton_append] at hrest
          exact hrest
      | error e =>
          rw [apply_error hx]
          exact ih tr h

/-- What each successful call keeps, every sequence keeps. -/
theorem after_invariant {I : S → Prop}
    (hstep : ∀ s (x : A × C) s', I s → K.exec x.1 x.2 s = .ok s' → I s')
    (h : I s) (xs : List (A × C)) : I (K.after s xs) := by
  have htrace := after_trace (K := K) (R := fun _ => I) (fun _ s x s' => hstep s x s') [] h xs
  exact htrace

end Contract

end ZeroAuth.Lib
