/-
  ZeroAuth.Lib.RelyGuarantee

  Reasoning about one thread at a time in an interleaved system.

  A `Discipline` says what holds of the world at every moment (`inv`) and what
  a thread may rely on while other threads and the environment run (`rely`).
  `Safe t Q p w` is a weakest precondition with interference: from `w`, every
  operation that `p` awaits keeps `inv`, is within what all other threads rely
  on, and every end of `p` satisfies `Q`.  It is a recursion over the program, so
  sequencing and exception handling have their usual rules.

  `Reach.safe` puts the threads together: if every call's code is safe from a
  fresh thread, the invariant holds in every configuration of every run.
-/

import ZeroAuth.Lib.Interleaving

namespace ZeroAuth.Lib

variable {S : Sig} {ε α β γ W Ω E : Type}

/-- The invariant of the world and what each thread may rely on.  `fresh t` says
    that thread `t` has left no trace in the world yet. -/
structure Discipline (Y : System S ε α γ W Ω E) where
  inv : W → Prop
  rely : ℕ → W → W → Prop
  fresh : ℕ → W → Prop
  rely_refl : ∀ t w, rely t w w
  rely_trans : ∀ {t w₁ w₂ w₃}, rely t w₁ w₂ → rely t w₂ w₃ → rely t w₁ w₃
  fresh_rely : ∀ {t w w'}, fresh t w → rely t w w' → fresh t w'
  env_ok : ∀ {e w w'}, inv w → Y.env e w = some w' → inv w' ∧ ∀ t, rely t w w'

namespace Discipline

variable {Y : System S ε α γ W Ω E} (D : Discipline Y) {t : ℕ}

/-- Every run of `p` by thread `t` from `w`, with the others interfering as
    `rely t` allows, keeps the invariant, respects the other threads and ends in
    `Q`. -/
def Safe (t : ℕ) (Q : Except ε β → W → Prop) : Prog S ε β → W → Prop
  | .ret a, w => Q (.ok a) w
  | .raise e, w => Q (.error e) w
  | .await o k, w => ∀ w₁, D.inv w₁ → D.rely t w w₁ → ∀ ω r w₂,
      Y.exec t o ω w₁ = some (r, w₂) →
        D.inv w₂ ∧ (∀ t', t' ≠ t → D.rely t' w₁ w₂) ∧ Safe t Q (k r) w₂

variable {D}

@[simp] theorem safe_ret {Q : Except ε β → W → Prop} {a : β} {w : W} :
    D.Safe t Q (.ret a) w ↔ Q (.ok a) w := Iff.rfl

@[simp] theorem safe_raise {Q : Except ε β → W → Prop} {e : ε} {w : W} :
    D.Safe t Q (.raise e) w ↔ Q (.error e) w := Iff.rfl

theorem Safe.mono {p : Prog S ε β} {Q Q' : Except ε β → W → Prop} {w : W}
    (h : D.Safe t Q p w) (hQ : ∀ out w, Q out w → Q' out w) : D.Safe t Q' p w := by
  induction p generalizing w with
  | ret a => exact hQ _ _ h
  | raise e => exact hQ _ _ h
  | await o k ih =>
      intro w₁ hi hr ω r w₂ hx
      obtain ⟨hi₂, hg, hs⟩ := h w₁ hi hr ω r w₂ hx
      exact ⟨hi₂, hg, ih r hs⟩

/-- Sequencing: the second program starts where the first one ends. -/
theorem safe_bind {ζ : Type} {p : Prog S ε ζ} {f : ζ → Prog S ε β} {Q : Except ε β → W → Prop} {w : W}
    (h : D.Safe t (fun out w => match out with
      | .ok a => D.Safe t Q (f a) w
      | .error e => Q (.error e) w) p w) : D.Safe t Q (p >>= f) w := by
  induction p generalizing w with
  | ret a => exact h
  | raise e => exact h
  | await o k ih =>
      intro w₁ hi hr ω r w₂ hx
      obtain ⟨hi₂, hg, hs⟩ := h w₁ hi hr ω r w₂ hx
      exact ⟨hi₂, hg, ih r hs⟩

/-- Exception handling: the handler starts where the protected program throws. -/
theorem safe_tryCatch {p : Prog S ε β} {g : ε → Prog S ε β} {Q : Except ε β → W → Prop} {w : W}
    (h : D.Safe t (fun out w => match out with
      | .ok a => Q (.ok a) w
      | .error e => D.Safe t Q (g e) w) p w) : D.Safe t Q (p.tryCatch g) w := by
  induction p generalizing w with
  | ret a => exact h
  | raise e => exact h
  | await o k ih =>
      intro w₁ hi hr ω r w₂ hx
      obtain ⟨hi₂, hg, hs⟩ := h w₁ hi hr ω r w₂ hx
      exact ⟨hi₂, hg, ih r hs⟩

/-- One operation. -/
theorem safe_perform {o : S.Op} {Q : Except ε (S.Resp o) → W → Prop} {w : W}
    (h : ∀ w₁, D.inv w₁ → D.rely t w w₁ → ∀ ω r w₂, Y.exec t o ω w₁ = some (r, w₂) →
      D.inv w₂ ∧ (∀ t', t' ≠ t → D.rely t' w₁ w₂) ∧ Q r w₂) :
    D.Safe t Q (Prog.perform o) w := by
  intro w₁ hi hr ω r w₂ hx
  obtain ⟨hi₂, hg, hq⟩ := h w₁ hi hr ω r w₂ hx
  cases r with
  | ok a => exact ⟨hi₂, hg, hq⟩
  | error e => exact ⟨hi₂, hg, hq⟩

/-- Interference before the first operation does no harm. -/
theorem Safe.interfere {p : Prog S ε β} {Q : Except ε β → W → Prop} {w w' : W}
    (hQ : ∀ out w w', Q out w → D.rely t w w' → Q out w')
    (h : D.Safe t Q p w) (hr : D.rely t w w') : D.Safe t Q p w' := by
  cases p with
  | ret a => exact hQ _ _ _ h hr
  | raise e => exact hQ _ _ _ h hr
  | await o k =>
      intro w₁ hi hr₁
      exact h w₁ hi (D.rely_trans hr hr₁)

end Discipline

namespace System

variable {Y : System S ε α γ W Ω E} {init : W → Prop}
  {good : Config S ε α γ W → Label γ Ω E → Prop} {c : Config S ε α γ W}

/-- Soundness: when every call of a run is safe from a fresh thread, the
    invariant holds throughout and every thread is safe where it stands. -/
theorem Reach.safe {D : Discipline Y} {P : γ → Prop}
    {Q : γ → ℕ → Except ε α → W → Prop}
    (hinit : ∀ w, init w → D.inv w ∧ ∀ t, D.fresh t w)
    (hcode : ∀ a t w, P a → D.inv w → D.fresh t w → D.Safe t (Q a t) (Y.code a) w)
    (hQ : ∀ a t out w w', Q a t out w → D.rely t w w' → Q a t out w')
    (hgood : ∀ c a, good c (.start a) → P a) (h : Y.Reach init good c) :
    D.inv c.world ∧ (∀ t, c.threads.length ≤ t → D.fresh t c.world) ∧
    ∀ t th, c.threads[t]? = some th → D.Safe t (Q th.call t) th.rest c.world := by
  refine Reach.invariant (I := fun c => D.inv c.world ∧
    (∀ t, c.threads.length ≤ t → D.fresh t c.world) ∧
    ∀ t th, c.threads[t]? = some th → D.Safe t (Q th.call t) th.rest c.world) ?_ ?_ ?_ ?_ h
  · intro w hw
    obtain ⟨hi, hf⟩ := hinit w hw
    exact ⟨hi, fun t _ => hf t, fun t th hth => by cases hth⟩
  · rintro c a _ ⟨hi, hf, hs⟩ hg
    refine ⟨hi, fun t ht => ?_, fun t th hth => ?_⟩
    · simp only [spawn, List.length_append, List.length_singleton] at ht
      exact hf t (by omega)
    · obtain hth | ⟨rfl, rfl⟩ := getElem?_spawn hth
      · exact hs t th hth
      · exact hcode a _ _ (hgood _ _ hg) hi (hf _ (Nat.le_refl _))
  · rintro c t ω a past o k r w _ ⟨hi, hf, hs⟩ _ hth hx
    obtain ⟨hi₂, hg, hk⟩ := hs t _ hth _ hi (D.rely_refl t _) ω r w hx
    have hlt : t < c.threads.length := (List.getElem?_eq_some_iff.mp hth).1
    refine ⟨hi₂, fun t' ht' => ?_, fun t' th' hth' => ?_⟩
    · simp only [Config.answered, List.length_set] at ht'
      exact D.fresh_rely (hf t' ht') (hg t' (by omega))
    · rw [getElem?_answered, if_pos hlt] at hth'
      split at hth'
      · next heq =>
          cases hth'
          subst heq
          exact hk
      · next hne => exact (hs t' th' hth').interfere (hQ _ _) (hg t' (Ne.symm hne))
  · rintro c e w _ ⟨hi, hf, hs⟩ _ hw
    obtain ⟨hi₂, hr⟩ := D.env_ok hi hw
    exact ⟨hi₂, fun t ht => D.fresh_rely (hf t ht) (hr t),
      fun t th hth => (hs t th hth).interfere (hQ _ _) (hr t)⟩

/-- What the calls that are there do respects every number that no call has yet. -/
theorem Later.rely {D : Discipline Y} {P : γ → Prop} {Q : γ → ℕ → Except ε α → W → Prop}
    (hinit : ∀ w, init w → D.inv w ∧ ∀ t, D.fresh t w)
    (hcode : ∀ a t w, P a → D.inv w → D.fresh t w → D.Safe t (Q a t) (Y.code a) w)
    (hQ : ∀ a t out w w', Q a t out w → D.rely t w w' → Q a t out w')
    (hgood : ∀ c a, good c (.start a) → P a) (h : Y.Reach init good c)
    {c' : Config S ε α γ W} (hl : Y.Later good c c') {t : ℕ} (ht : c'.threads.length ≤ t) :
    D.rely t c.world c'.world := by
  induction hl with
  | refl => exact D.rely_refl t _
  | @tail c₁ c₂ hl hn ih =>
      have hlength := hn.length_le
      refine D.rely_trans (ih (by omega)) ?_
      obtain ⟨hi, -, hs⟩ := (h.later hl).safe hinit hcode hQ hgood
      obtain ⟨l, -, hstep⟩ := hn
      obtain ⟨a, -, rfl⟩ | ⟨t', ω, a, past, o, k, r, w, -, hth, hx, rfl⟩ | ⟨e, w, -, hw, rfl⟩ :=
        step_cases hstep
      · exact D.rely_refl t _
      · obtain ⟨-, hg, -⟩ := hs t' _ hth _ hi (D.rely_refl t' _) ω r w hx
        have hlt : t' < c₁.threads.length := (List.getElem?_eq_some_iff.mp hth).1
        exact hg t (by omega)
      · exact (D.env_ok hi hw).2 t

end System

end ZeroAuth.Lib
