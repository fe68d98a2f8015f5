/-
  ZeroAuth.Lib.Returns

  What is known when a program returns.

  `Returns Q p` leaves out the runs of `p` that throw, so only the branches that
  go on have to be followed.
-/

import ZeroAuth.Lib.Async

namespace ZeroAuth.Lib.Prog

variable {S : Sig} {ε α β : Type}

/-- Whatever the answers are: if the program returns, its history and its result
    satisfy `Q`. -/
def Returns (Q : List (Act S ε) → α → Prop) (p : Prog S ε α) : Prop :=
  Ends (fun es out => ∀ a, out = .ok a → Q es a) p

section

variable {Q R : List (Act S ε) → α → Prop} {p : Prog S ε α}

theorem returns_ret {a : α} (h : Q [] a) : Returns Q (ret a : Prog S ε α) := by
  intro b hb
  cases hb
  exact h

theorem returns_raise {e : ε} : Returns Q (raise e : Prog S ε α) := by
  intro b hb
  cases hb

theorem Returns.mono (h : Returns Q p) (hQ : ∀ es a, Q es a → R es a) : Returns R p := by
  apply Ends.mono h
  intro es out hout a ha
  exact hQ es a (hout a ha)

theorem returns_of_forall (h : ∀ es a, Q es a) : Returns Q p :=
  ends_of_forall fun es _ a _ => h es a

theorem Returns.and (h : Returns Q p) (h' : Returns R p) :
    Returns (fun es a => Q es a ∧ R es a) p := by
  apply (Ends.and h h').mono
  intro es out hout a ha
  exact ⟨hout.1 a ha, hout.2 a ha⟩

theorem returns_ofExcept {x : Except ε α} (h : ∀ a, x = .ok a → Q [] a) :
    Returns Q (ofExcept x : Prog S ε α) :=
  ends_ofExcept.mpr h

/-- Sequencing: both parts have returned. -/
theorem Returns.bind {P : List (Act S ε) → β → Prop} {f : α → Prog S ε β} (h : Returns Q p)
    (hf : ∀ es a, Q es a → Returns (fun es' b => P (es ++ es') b) (f a)) :
    Returns P (p >>= f) := by
  refine Ends.bind h (fun es a ha => hf es a (ha a rfl)) fun es e _ b hb => ?_
  cases hb

/-- A first part of which nothing is needed. -/
theorem returns_bind {P : List (Act S ε) → β → Prop} {f : α → Prog S ε β}
    (hf : ∀ es a, Returns (fun es' b => P (es ++ es') b) (f a)) : Returns P (p >>= f) :=
  Returns.bind (Q := fun _ _ => True) (returns_of_forall fun _ _ => trivial)
    fun es a _ => hf es a

theorem returns_perform_bind {o : S.Op} {P : List (Act S ε) → β → Prop}
    {f : S.Resp o → Prog S ε β}
    (hf : ∀ a, Returns (fun es b => P (⟨o, .ok a⟩ :: es) b) (f a)) :
    Returns P (perform o >>= f) := by
  refine ends_perform_bind.mpr ⟨hf, fun e b hb => ?_⟩
  cases hb

end

end ZeroAuth.Lib.Prog
