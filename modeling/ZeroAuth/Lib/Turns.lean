/-
  ZeroAuth.Lib.Turns

  Loops whose turns only add to what is collected.

  Such a turn is a program of its own, which does not see what the others have
  collected; its result is merged into the collection.  A run of the loop is then
  a run of every turn by itself, one after the other (`ends_turns`).
-/

import ZeroAuth.Lib.Async

namespace ZeroAuth.Lib.Prog

variable {S : Sig} {ε α β γ σ : Type}

/-! ## Laws of sequencing -/

theorem bind_ret (p : Prog S ε α) : (p >>= ret) = p := by
  induction p with
  | ret a => rfl
  | raise e => rfl
  | await o k ih =>
      rw [await_bind]
      congr 1
      funext r
      exact ih r

theorem bind_bind (p : Prog S ε α) (f : α → Prog S ε β) (g : β → Prog S ε γ) :
    (p >>= f >>= g) = (p >>= fun a => f a >>= g) := by
  induction p with
  | ret a => rfl
  | raise e => rfl
  | await o k ih =>
      rw [await_bind, await_bind, await_bind]
      congr 1
      funext r
      exact ih r

instance : LawfulMonad (Prog S ε) := LawfulMonad.mk' _ bind_ret (fun _ _ => rfl) bind_bind

/-- What is done to the result may be done on either side of a handler. -/
theorem tryCatch_bind_ret (p : Prog S ε α) (h : ε → Prog S ε α) (g : α → β) :
    (p.tryCatch h >>= fun a => ret (g a)) =
      (p >>= fun a => ret (g a)).tryCatch fun e => h e >>= fun a => ret (g a) := by
  induction p with
  | ret a => rfl
  | raise e => rfl
  | await o k ih =>
      rw [tryCatch, await_bind, await_bind, tryCatch]
      congr 1
      funext r
      exact ih r

/-! ## Complete runs -/

/-- `p`, given the answers in `es`, ends with `out`. -/
def Runs : Prog S ε α → List (Act S ε) → Except ε α → Prop
  | ret a, es, out => es = [] ∧ out = .ok a
  | raise e, es, out => es = [] ∧ out = .error e
  | await o k, es, out => ∃ r rest, es = ⟨o, r⟩ :: rest ∧ Runs (k r) rest out

/-- The answers decide the outcome. -/
theorem Runs.outcome_unique {p : Prog S ε α} {es : List (Act S ε)} {out out' : Except ε α}
    (h : Runs p es out) (h' : Runs p es out') : out = out' := by
  induction p generalizing es with
  | ret a => exact h.2.trans h'.2.symm
  | raise e => exact h.2.trans h'.2.symm
  | await o k ih =>
      obtain ⟨r, rest, rfl, hr⟩ := h
      obtain ⟨r', rest', heq, hr'⟩ := h'
      cases heq
      exact ih r hr hr'

theorem ends_runs (p : Prog S ε α) : Ends (Runs p) p := by
  induction p with
  | ret a => exact ⟨rfl, rfl⟩
  | raise e => exact ⟨rfl, rfl⟩
  | await o k ih =>
      intro r
      exact (ih r).mono fun es out hout => ⟨r, es, rfl, hout⟩

/-- What holds at the end of every run holds of this one. -/
theorem Runs.ends {p : Prog S ε α} {es : List (Act S ε)} {out : Except ε α} (h : Runs p es out)
    {Φ : List (Act S ε) → Except ε α → Prop} (hΦ : Ends Φ p) : Φ es out := by
  induction p generalizing es Φ with
  | ret a =>
      obtain ⟨rfl, rfl⟩ := h
      exact hΦ
  | raise e =>
      obtain ⟨rfl, rfl⟩ := h
      exact hΦ
  | await o k ih =>
      obtain ⟨r, rest, rfl, hr⟩ := h
      exact ih r hr (hΦ r)

/-! ## Loops -/

/-- One turn: its item, what it awaited, and what it adds. -/
structure Turn (S : Sig) (ε σ γ : Type) where
  item : σ
  acts : List (Act S ε)
  result : γ

/-- The loop is a run of every turn by itself, and merges what they add. -/
theorem ends_turns {body : β → σ → Prog S ε β} {turn : σ → Prog S ε γ} {merge : β → γ → β}
    (hbody : ∀ b x, body b x = turn x >>= fun c => ret (merge b c))
    (hturn : ∀ x, Ends (fun _ out => ∃ c, out = .ok c) (turn x)) (l : List σ) (b : β) :
    Ends (fun es out => ∃ turns : List (Turn S ε σ γ), turns.map Turn.item = l ∧
      es = turns.flatMap Turn.acts ∧ out = .ok ((turns.map Turn.result).foldl merge b) ∧
      ∀ t ∈ turns, Runs (turn t.item) t.acts (.ok t.result)) (l.foldlM body b) := by
  induction l generalizing b with
  | nil => exact ⟨[], rfl, rfl, rfl, fun t ht => absurd ht List.not_mem_nil⟩
  | cons x l ih =>
      rw [List.foldlM_cons, hbody, bind_bind]
      refine Ends.bind (Ends.and (ends_runs (turn x)) (hturn x)) ?_ ?_
      · rintro es c ⟨hrun, -⟩
        rw [ret_bind]
        apply (ih (merge b c)).mono
        rintro es' out ⟨turns, hitems, rfl, rfl, hturns⟩
        refine ⟨⟨x, es, c⟩ :: turns, ?_, rfl, rfl, ?_⟩
        · rw [List.map_cons, hitems]
        · intro t ht
          rcases List.mem_cons.mp ht with rfl | ht
          · exact hrun
          · exact hturns t ht
      · rintro es e ⟨-, c, hc⟩
        cases hc

end ZeroAuth.Lib.Prog
