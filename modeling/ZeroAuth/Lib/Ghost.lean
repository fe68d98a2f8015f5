/-
  ZeroAuth.Lib.Ghost

  A ghost state of a program: a value folded over the history of its operations.
  `Leads δ G Q s p` says of every run of `p` that begins in the ghost state `s`: each
  operation is awaited in a ghost state that satisfies `G` with it, and a complete run
  ends in a ghost state and an outcome that satisfy `Q`.
-/

import ZeroAuth.Lib.Interleaving

namespace ZeroAuth.Lib

variable {S : Sig} {ε α β σ : Type} {δ : σ → Act S ε → σ} {G : σ → S.Op → Prop} {s : σ}

namespace Prog

def Leads (δ : σ → Act S ε → σ) (G : σ → S.Op → Prop) (Q : σ → Except ε α → Prop) :
    σ → Prog S ε α → Prop
  | s, ret a => Q s (.ok a)
  | s, raise e => Q s (.error e)
  | s, await o k => G s o ∧ ∀ r, Leads δ G Q (δ s ⟨o, r⟩) (k r)

theorem Leads.mono {Q R : σ → Except ε α → Prop} {p : Prog S ε α} (h : Leads δ G Q s p)
    (hQ : ∀ s out, Q s out → R s out) : Leads δ G R s p := by
  induction p generalizing s with
  | ret a => exact hQ _ _ h
  | raise e => exact hQ _ _ h
  | await o k ih => exact ⟨h.1, fun r => ih r (h.2 r)⟩

theorem Leads.bind {R : σ → Except ε α → Prop} {Q : σ → Except ε β → Prop} {p : Prog S ε α}
    {f : α → Prog S ε β} (h : Leads δ G R s p)
    (hok : ∀ s' a, R s' (.ok a) → Leads δ G Q s' (f a))
    (herr : ∀ s' e, R s' (.error e) → Q s' (.error e)) : Leads δ G Q s (p >>= f) := by
  induction p generalizing s with
  | ret a => exact hok _ _ h
  | raise e => exact herr _ _ h
  | await o k ih => exact ⟨h.1, fun r => ih r (h.2 r)⟩

theorem Leads.tryCatch {R Q : σ → Except ε α → Prop} {p : Prog S ε α} {g : ε → Prog S ε α}
    (h : Leads δ G R s p) (hok : ∀ s' a, R s' (.ok a) → Q s' (.ok a))
    (herr : ∀ s' e, R s' (.error e) → Leads δ G Q s' (g e)) : Leads δ G Q s (p.tryCatch g) := by
  induction p generalizing s with
  | ret a => exact hok _ _ h
  | raise e => exact herr _ _ h
  | await o k ih => exact ⟨h.1, fun r => ih r (h.2 r)⟩

theorem leads_perform {o : S.Op} {Q : σ → Except ε (S.Resp o) → Prop} :
    Leads δ G Q s (perform o) ↔
      G s o ∧ (∀ a, Q (δ s ⟨o, .ok a⟩) (.ok a)) ∧ ∀ e, Q (δ s ⟨o, .error e⟩) (.error e) := by
  refine and_congr_right fun _ => ⟨fun h => ⟨fun a => h (.ok a), fun e => h (.error e)⟩, ?_⟩
  rintro ⟨hok, herr⟩ (e | a)
  · exact herr e
  · exact hok a

theorem leads_perform_bind {o : S.Op} {f : S.Resp o → Prog S ε β} {Q : σ → Except ε β → Prop} :
    Leads δ G Q s (perform o >>= f) ↔
      G s o ∧ (∀ a, Leads δ G Q (δ s ⟨o, .ok a⟩) (f a)) ∧
        ∀ e, Q (δ s ⟨o, .error e⟩) (.error e) := by
  refine and_congr_right fun _ => ⟨fun h => ⟨fun a => h (.ok a), fun e => h (.error e)⟩, ?_⟩
  rintro ⟨hok, herr⟩ (e | a)
  · exact herr e
  · exact hok a

theorem leads_ofExcept {Q : σ → Except ε α → Prop} {x : Except ε α} :
    Leads δ G Q s (ofExcept x) ↔ Q s x := by
  cases x <;> rfl

/-- A program that has run for a while leads on from the ghost state of its history. -/
theorem Trace.leads {p q : Prog S ε α} {es : List (Act S ε)} (ht : Trace p es q)
    {Q : σ → Except ε α → Prop} (h : Leads δ G Q s p) : Leads δ G Q (es.foldl δ s) q := by
  induction ht with
  | refl => exact h
  | snoc _ r ih =>
      rw [List.foldl_append]
      exact ih.2 r

end Prog

namespace System

variable {γ W Ω E : Type} {Y : System S ε α γ W Ω E} {init : W → Prop}
  {good : Config S ε α γ W → Label γ Ω E → Prop} {c : Config S ε α γ W}

/-- The ghost state of a call that has ended. -/
theorem Reach.leads_outcome (h : Y.Reach init good c) {t : ℕ} {th : Thread S ε α γ}
    (hth : c.threads[t]? = some th) {Q : σ → Except ε α → Prop}
    (hQ : Prog.Leads δ G Q s (Y.code th.call)) {out : Except ε α}
    (hout : th.rest.outcome? = some out) : Q (th.past.foldl δ s) out := by
  have hrest := (h.trace hth).leads hQ
  cases hp : th.rest with
  | await o k =>
      rw [hp] at hout
      cases hout
  | _ =>
      rw [hp] at hrest hout
      cases hout
      exact hrest

/-- The ghost state in which a call awaits an operation. -/
theorem Reach.leads_await (h : Y.Reach init good c) {t : ℕ} {a : γ} {past : List (Act S ε)}
    {o : S.Op} {k : Except ε (S.Resp o) → Prog S ε α}
    (hth : c.threads[t]? = some ⟨a, past, .await o k⟩) {Q : σ → Except ε α → Prop}
    (hQ : Prog.Leads δ G Q s (Y.code a)) : G (past.foldl δ s) o :=
  ((h.trace hth).leads hQ).1

end System

end ZeroAuth.Lib
