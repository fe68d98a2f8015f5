/-
  ZeroAuth.Lib.Solo

  A program that runs by itself, as a big-step relation.

    * `R o w r w'` — awaiting `o` in `w`, the surroundings may answer `r` and
      leave `w'` behind;
    * `Prog.Solo R p w out w'` — begun in `w` and not interrupted, `p` may end with
      `out` in `w'`.

  There is one rule for each way of combining programs.  `Prog.Surely` says that
  there is such a run and that every one ends well.
-/

import ZeroAuth.Lib.Async

namespace ZeroAuth.Lib

namespace Prog

variable {S : Sig} {ε α β W : Type} {R : (o : S.Op) → W → Except ε (S.Resp o) → W → Prop}

def Solo (R : (o : S.Op) → W → Except ε (S.Resp o) → W → Prop) :
    Prog S ε α → W → Except ε α → W → Prop
  | ret a, w, out, w' => out = .ok a ∧ w' = w
  | raise e, w, out, w' => out = .error e ∧ w' = w
  | await o k, w, out, w' => ∃ r w₁, R o w r w₁ ∧ Solo R (k r) w₁ out w'

variable {w w' : W}

@[simp] theorem solo_ret {a : α} {out : Except ε α} :
    Solo R (ret a) w out w' ↔ out = .ok a ∧ w' = w := Iff.rfl

@[simp] theorem solo_raise {e : ε} {out : Except ε α} :
    Solo R (raise e) w out w' ↔ out = .error e ∧ w' = w := Iff.rfl

theorem solo_await {o : S.Op} {k : Except ε (S.Resp o) → Prog S ε α} {out : Except ε α} :
    Solo R (await o k) w out w' ↔ ∃ r w₁, R o w r w₁ ∧ Solo R (k r) w₁ out w' := Iff.rfl

theorem solo_perform {o : S.Op} {out : Except ε (S.Resp o)} :
    Solo R (perform o) w out w' ↔ R o w out w' := by
  constructor
  · rintro ⟨r, w₁, hR, hrest⟩
    cases r with
    | ok a =>
        obtain ⟨rfl, rfl⟩ := hrest
        exact hR
    | error e =>
        obtain ⟨rfl, rfl⟩ := hrest
        exact hR
  · intro hR
    cases out with
    | ok a => exact ⟨.ok a, w', hR, rfl, rfl⟩
    | error e => exact ⟨.error e, w', hR, rfl, rfl⟩

/-- Sequencing: the rest runs where the first part ended with a value. -/
theorem solo_bind {p : Prog S ε α} {f : α → Prog S ε β} {out : Except ε β} :
    Solo R (p >>= f) w out w' ↔
      (∃ a w₁, Solo R p w (.ok a) w₁ ∧ Solo R (f a) w₁ out w') ∨
      ∃ e, Solo R p w (.error e) w' ∧ out = .error e := by
  induction p generalizing w with
  | ret a => simp
  | raise e => simp [and_comm]
  | await o k ih =>
      simp only [await_bind, solo_await, ih]
      constructor
      · rintro ⟨r, w₁, hR, ⟨a, w₂, hp, hf⟩ | ⟨e, hp, rfl⟩⟩
        · exact .inl ⟨a, w₂, ⟨r, w₁, hR, hp⟩, hf⟩
        · exact .inr ⟨e, ⟨r, w₁, hR, hp⟩, rfl⟩
      · rintro (⟨a, w₂, ⟨r, w₁, hR, hp⟩, hf⟩ | ⟨e, ⟨r, w₁, hR, hp⟩, rfl⟩)
        · exact ⟨r, w₁, hR, .inl ⟨a, w₂, hp, hf⟩⟩
        · exact ⟨r, w₁, hR, .inr ⟨e, hp, rfl⟩⟩

theorem solo_perform_bind {o : S.Op} {f : S.Resp o → Prog S ε β} {out : Except ε β} :
    Solo R (perform o >>= f) w out w' ↔
      (∃ a w₁, R o w (.ok a) w₁ ∧ Solo R (f a) w₁ out w') ∨
      ∃ e, R o w (.error e) w' ∧ out = .error e := by
  simp only [solo_bind, solo_perform]

/-- Exception handling: the handler runs where the protected part has thrown. -/
theorem solo_tryCatch {p : Prog S ε α} {h : ε → Prog S ε α} {out : Except ε α} :
    Solo R (p.tryCatch h) w out w' ↔
      (∃ a, Solo R p w (.ok a) w' ∧ out = .ok a) ∨
      ∃ e w₁, Solo R p w (.error e) w₁ ∧ Solo R (h e) w₁ out w' := by
  induction p generalizing w with
  | ret a => simp [tryCatch, and_comm]
  | raise e => simp [tryCatch]
  | await o k ih =>
      simp only [tryCatch, solo_await, ih]
      constructor
      · rintro ⟨r, w₁, hR, ⟨a, hp, rfl⟩ | ⟨e, w₂, hp, hh⟩⟩
        · exact .inl ⟨a, ⟨r, w₁, hR, hp⟩, rfl⟩
        · exact .inr ⟨e, w₂, ⟨r, w₁, hR, hp⟩, hh⟩
      · rintro (⟨a, ⟨r, w₁, hR, hp⟩, rfl⟩ | ⟨e, w₂, ⟨r, w₁, hR, hp⟩, hh⟩)
        · exact ⟨r, w₁, hR, .inl ⟨a, hp, rfl⟩⟩
        · exact ⟨r, w₁, hR, .inr ⟨e, w₂, hp, hh⟩⟩

theorem solo_ofExcept {x out : Except ε α} : Solo R (ofExcept x) w out w' ↔ out = x ∧ w' = w := by
  cases x with
  | ok a => exact solo_ret
  | error e => exact solo_raise

/-- Where every operation can be answered, every program can run to its end. -/
theorem exists_solo (hR : ∀ (o : S.Op) (w : W), ∃ r w', R o w r w') (p : Prog S ε α) (w : W) :
    ∃ out w', Solo R p w out w' := by
  induction p generalizing w with
  | ret a => exact ⟨.ok a, w, rfl, rfl⟩
  | raise e => exact ⟨.error e, w, rfl, rfl⟩
  | await o k ih =>
      obtain ⟨r, w₁, hr⟩ := hR o w
      obtain ⟨out, w', hrest⟩ := ih r w₁
      exact ⟨out, w', r, w₁, hr, hrest⟩

/-- Begun in `w`, the program can run to its end, and whichever way it runs it ends with an
    outcome that satisfies `Q`. -/
def Surely (R : (o : S.Op) → W → Except ε (S.Resp o) → W → Prop) (p : Prog S ε α) (w : W)
    (Q : Except ε α → Prop) : Prop :=
  (∃ out w', Solo R p w out w') ∧ ∀ out w', Solo R p w out w' → Q out

end Prog

end ZeroAuth.Lib
