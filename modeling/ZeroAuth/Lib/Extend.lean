/-
  ZeroAuth.Lib.Extend

  A system with more operations.

  `S.sum T` has the operations of both signatures, and a program over `S` that
  throws `ε` is also one over the sum that throws `ε ⊕ ε'` (`Prog.lift`); the
  second summand is for what the new programs throw themselves.  The operations
  of `S` keep their meaning on their part of the world (`execSum`).  Programs over
  the second signature are lifted alike (`Prog.liftRight`).
-/

import ZeroAuth.Lib.Interleaving

namespace ZeroAuth.Lib

variable {S T : Sig} {ε ε' α β W V Ω : Type}

/-- The operations of `S` and those of `T`. -/
abbrev Sig.sum (S T : Sig) : Sig where
  Op := S.Op ⊕ T.Op
  Resp := Sum.elim S.Resp T.Resp

namespace Prog

/-- The same program, awaiting its operations as the first summand. -/
def lift : Prog S ε α → Prog (S.sum T) (ε ⊕ ε') α
  | ret a => ret a
  | raise e => raise (.inl e)
  | await o k => await (S := S.sum T) (.inl o) fun
      | .ok a => (k (.ok a)).lift
      | .error (.inl e) => (k (.error e)).lift
      | .error (.inr e) => raise (.inr e)

end Prog

/-- An operation of `S`, as one of the sum. -/
def Act.inl (x : Act S ε) : Act (S.sum T) (ε ⊕ ε') := ⟨.inl x.op, x.answer.mapError Sum.inl⟩

theorem Act.inl_injective : Function.Injective (Act.inl : Act S ε → Act (S.sum T) (ε ⊕ ε')) := by
  rintro ⟨o, a⟩ ⟨o', a'⟩ h
  obtain ⟨ho, ha⟩ := Act.mk.inj h
  obtain rfl := Sum.inl.inj ho
  have ha := eq_of_heq ha
  cases a with
  | error e =>
      cases a' with
      | error e' => rw [Sum.inl.inj (Except.error.inj ha)]
      | ok b => cases ha
  | ok b =>
      cases a' with
      | error e' => cases ha
      | ok b' => rw [Except.ok.inj ha]

/-- A run of the lifted program is one of the program itself, unless an operation throws
    what only the new programs throw. -/
theorem Prog.Ends.lift {p : Prog S ε α} {Ψ : List (Act S ε) → Except ε α → Prop}
    (h : Prog.Ends Ψ p) : Prog.Ends (fun es out =>
      (∃ es₀ out₀, es = es₀.map Act.inl ∧ out = out₀.mapError Sum.inl ∧ Ψ es₀ out₀) ∨
      ∃ o e, (⟨.inl o, .error (.inr e)⟩ : Act (S.sum T) (ε ⊕ ε')) ∈ es ∧ out = .error (.inr e))
      (p.lift : Prog (S.sum T) (ε ⊕ ε') α) := by
  induction p generalizing Ψ with
  | ret a => exact .inl ⟨[], .ok a, rfl, rfl, h⟩
  | raise e => exact .inl ⟨[], .error e, rfl, rfl, h⟩
  | await o k ih =>
      have hold : ∀ r : Except ε (S.Resp o), Prog.Ends (fun es out =>
          (∃ es₀ out₀, (⟨.inl o, r.mapError Sum.inl⟩ : Act (S.sum T) (ε ⊕ ε')) :: es =
            es₀.map Act.inl ∧ out = out₀.mapError Sum.inl ∧ Ψ es₀ out₀) ∨
          ∃ o' e, (⟨.inl o', .error (.inr e)⟩ : Act (S.sum T) (ε ⊕ ε')) ∈
            (⟨.inl o, r.mapError Sum.inl⟩ : Act (S.sum T) (ε ⊕ ε')) :: es ∧ out = .error (.inr e))
          ((k r).lift : Prog (S.sum T) (ε ⊕ ε') α) := by
        intro r
        apply (ih r (h r)).mono
        rintro es out (⟨es₀, out₀, rfl, rfl, hΨ⟩ | ⟨o', e, hmem, rfl⟩)
        · exact .inl ⟨⟨o, r⟩ :: es₀, out₀, rfl, rfl, hΨ⟩
        · exact .inr ⟨o', e, List.mem_cons_of_mem _ hmem, rfl⟩
      rw [Prog.lift, Prog.ends_await]
      intro r
      rcases r with (e | e) | a
      · exact hold (.error e)
      · exact .inr ⟨o, e, List.mem_cons_self, rfl⟩
      · exact hold (.ok a)

/-- The lifted program awaits no other operations. -/
theorem Prog.Only.lift {P : S.Op → Prop} {Q : (S.sum T).Op → Prop} {p : Prog S ε α}
    (h : Prog.Only P p) (hQ : ∀ o, P o → Q (.inl o)) :
    Prog.Only Q (p.lift : Prog (S.sum T) (ε ⊕ ε') α) := by
  induction p with
  | ret a => trivial
  | raise e => trivial
  | await o k ih =>
      rw [Prog.lift, Prog.Only, Prog.before_await]
      refine ⟨hQ o h.1, fun r => ?_⟩
      rcases r with (e | e) | a
      · exact ih (.error e) (h.2 _)
      · trivial
      · exact ih (.ok a) (h.2 _)

/-- What is known before every operation of a program is known before every operation of
    the lifted one; its answers are the lifted ones. -/
theorem Prog.Before.lift {p : Prog S ε α} {Ψ : List (Act S ε) → S.Op → Prop}
    {Ψ' : List (Act (S.sum T) (ε ⊕ ε')) → (S.sum T).Op → Prop} (h : Prog.Before Ψ p)
    (hΨ : ∀ es o, Ψ es o → Ψ' (es.map Act.inl) (.inl o)) :
    Prog.Before Ψ' (p.lift : Prog (S.sum T) (ε ⊕ ε') α) := by
  induction p generalizing Ψ Ψ' with
  | ret a => trivial
  | raise e => trivial
  | await o k ih =>
      have hrest : ∀ r : Except ε (S.Resp o), Prog.Before
          (fun es o' => Ψ' ((⟨.inl o, r.mapError Sum.inl⟩ : Act (S.sum T) (ε ⊕ ε')) :: es) o')
          ((k r).lift : Prog (S.sum T) (ε ⊕ ε') α) :=
        fun r => ih r (h.2 r) fun es o' ho => hΨ (⟨o, r⟩ :: es) o' ho
      rw [Prog.lift, Prog.before_await]
      refine ⟨hΨ [] o h.1, fun r => ?_⟩
      rcases r with (e | e) | a
      · exact hrest (.error e)
      · trivial
      · exact hrest (.ok a)

/-! ## The second signature -/

namespace Prog

/-- The same program, awaiting its operations as the second summand. -/
def liftRight : Prog T ε' α → Prog (S.sum T) (ε ⊕ ε') α
  | ret a => ret a
  | raise e => raise (.inr e)
  | await o k => await (S := S.sum T) (.inr o) fun
      | .ok a => (k (.ok a)).liftRight
      | .error (.inl e) => raise (.inl e)
      | .error (.inr e) => (k (.error e)).liftRight

end Prog

/-- An operation of `T`, as one of the sum. -/
def Act.inr (x : Act T ε') : Act (S.sum T) (ε ⊕ ε') := ⟨.inr x.op, x.answer.mapError Sum.inr⟩

theorem Prog.Before.liftRight {p : Prog T ε' α} {Ψ : List (Act T ε') → T.Op → Prop}
    {Ψ' : List (Act (S.sum T) (ε ⊕ ε')) → (S.sum T).Op → Prop} (h : Prog.Before Ψ p)
    (hΨ : ∀ es o, Ψ es o → Ψ' (es.map Act.inr) (.inr o)) :
    Prog.Before Ψ' (p.liftRight : Prog (S.sum T) (ε ⊕ ε') α) := by
  induction p generalizing Ψ Ψ' with
  | ret a => trivial
  | raise e => trivial
  | await o k ih =>
      have hrest : ∀ r : Except ε' (T.Resp o), Prog.Before
          (fun es o' => Ψ' ((⟨.inr o, r.mapError Sum.inr⟩ : Act (S.sum T) (ε ⊕ ε')) :: es) o')
          ((k r).liftRight : Prog (S.sum T) (ε ⊕ ε') α) :=
        fun r => ih r (h.2 r) fun es o' ho => hΨ (⟨o, r⟩ :: es) o' ho
      rw [Prog.liftRight, Prog.before_await]
      refine ⟨hΨ [] o h.1, fun r => ?_⟩
      rcases r with (e | e) | a
      · trivial
      · exact hrest (.error e)
      · exact hrest (.ok a)

/-! ## The world -/

/-- An operation of the first signature on the part of the world that `get` and
    `set` single out. -/
def execSum (exec : (o : S.Op) → W → Option (Except ε (S.Resp o) × W)) (get : V → W)
    (set : V → W → V) (o : S.Op) (v : V) : Option (Except (ε ⊕ ε') (S.Resp o) × V) :=
  (exec o (get v)).map fun (r, w) => (r.mapError Sum.inl, set v w)

theorem execSum_eq_some {exec : (o : S.Op) → W → Option (Except ε (S.Resp o) × W)} {get : V → W}
    {set : V → W → V} {o : S.Op} {v v' : V} {r : Except (ε ⊕ ε') (S.Resp o)}
    (h : execSum exec get set o v = some (r, v')) :
    ∃ r₀ w, exec o (get v) = some (r₀, w) ∧ r = r₀.mapError Sum.inl ∧ v' = set v w := by
  obtain ⟨⟨r₀, w⟩, hx, heq⟩ := Option.map_eq_some_iff.mp h
  obtain ⟨rfl, rfl⟩ := Prod.mk.inj heq
  exact ⟨r₀, w, hx, rfl, rfl⟩

/-- An operation of the second signature. -/
def execSumRight (exec : (o : T.Op) → W → Option (Except ε' (T.Resp o) × W)) (get : V → W)
    (set : V → W → V) (o : T.Op) (v : V) : Option (Except (ε ⊕ ε') (T.Resp o) × V) :=
  (exec o (get v)).map fun (r, w) => (r.mapError Sum.inr, set v w)

end ZeroAuth.Lib
