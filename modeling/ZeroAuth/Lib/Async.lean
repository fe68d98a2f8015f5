/-
  ZeroAuth.Lib.Async

  Asynchronous programs as a free monad.

  A program is a tree: it returns, it throws, or it awaits one operation and
  continues with the answer.  The code between two awaited operations is
  ordinary Lean, so it runs without a switch point; every awaited operation is
  a point where other programs may run.  An operation may be answered by a
  value or by an error, and an unhandled error ends the program.

  Three views of a program that runs by itself are given here:

    * `Prog.Trace p es q` — `p` awaits the operations `es` with the answers
      recorded in them and is then about to run `q`;
    * `Prog.Ends Φ p` — every complete run of `p`, whatever the answers, ends
      with a history and an outcome that satisfy `Φ`;
    * `Prog.Before Ψ p` — whenever a run of `p` awaits an operation, the history
      up to there and the operation satisfy `Ψ`.

  The last two are structural recursions with one rule for each way of
  combining programs.
-/

import Mathlib.Data.List.Basic

namespace ZeroAuth.Lib

/-- The operations a program may await, each with the type of its answer. -/
structure Sig where
  Op : Type
  Resp : Op → Type

/-- A program over the operations of `S` that throws `ε` or returns `α`. -/
inductive Prog (S : Sig) (ε α : Type) : Type
  | ret (a : α)
  | raise (e : ε)
  | await (o : S.Op) (k : Except ε (S.Resp o) → Prog S ε α)

/-- One awaited operation together with its answer. -/
structure Act (S : Sig) (ε : Type) where
  op : S.Op
  answer : Except ε (S.Resp op)

variable {S : Sig} {ε α β : Type}

namespace Prog

def bind : Prog S ε α → (α → Prog S ε β) → Prog S ε β
  | ret a, f => f a
  | raise e, _ => raise e
  | await o k, f => await o fun r => (k r).bind f

def tryCatch : Prog S ε α → (ε → Prog S ε α) → Prog S ε α
  | ret a, _ => ret a
  | raise e, h => h e
  | await o k, h => await o fun r => (k r).tryCatch h

/-- Await one operation and go on with its value; an error is thrown. -/
def perform (o : S.Op) : Prog S ε (S.Resp o) :=
  await o fun
    | .ok a => ret a
    | .error e => raise e

/-- Code without operations that may throw. -/
def ofExcept : Except ε α → Prog S ε α
  | .ok a => ret a
  | .error e => raise e

instance : Monad (Prog S ε) where
  pure := ret
  bind := bind

instance : MonadExceptOf ε (Prog S ε) where
  throw := raise
  tryCatch := tryCatch

@[simp] theorem pure_def (a : α) : (pure a : Prog S ε α) = ret a := rfl

@[simp] theorem throw_def (e : ε) : (throw e : Prog S ε α) = raise e := rfl

@[simp] theorem ret_bind (a : α) (f : α → Prog S ε β) : (ret a >>= f) = f a := rfl

@[simp] theorem raise_bind (e : ε) (f : α → Prog S ε β) : (raise e >>= f) = raise e := rfl

@[simp] theorem await_bind (o : S.Op) (k : Except ε (S.Resp o) → Prog S ε α)
    (f : α → Prog S ε β) : (await o k >>= f) = await o fun r => k r >>= f := rfl

/-! ## Histories of a program that runs by itself -/

/-- `p` awaits the operations `es`, with the answers recorded in them, and is
    then about to run `q`. -/
inductive Trace : Prog S ε α → List (Act S ε) → Prog S ε α → Prop
  | refl (p : Prog S ε α) : Trace p [] p
  | snoc {p : Prog S ε α} {es : List (Act S ε)} {o : S.Op}
      {k : Except ε (S.Resp o) → Prog S ε α} (h : Trace p es (await o k))
      (r : Except ε (S.Resp o)) : Trace p (es ++ [⟨o, r⟩]) (k r)

/-- Every complete run of the program ends with a history and an outcome that
    satisfy `Φ`, whatever the answers to its operations are. -/
def Ends (Φ : List (Act S ε) → Except ε α → Prop) : Prog S ε α → Prop
  | ret a => Φ [] (.ok a)
  | raise e => Φ [] (.error e)
  | await o k => ∀ r, Ends (fun es out => Φ (⟨o, r⟩ :: es) out) (k r)

@[simp] theorem ends_ret {Φ : List (Act S ε) → Except ε α → Prop} {a : α} :
    Ends Φ (ret a) ↔ Φ [] (.ok a) := Iff.rfl

@[simp] theorem ends_raise {Φ : List (Act S ε) → Except ε α → Prop} {e : ε} :
    Ends Φ (raise e) ↔ Φ [] (.error e) := Iff.rfl

@[simp] theorem ends_await {Φ : List (Act S ε) → Except ε α → Prop} {o : S.Op}
    {k : Except ε (S.Resp o) → Prog S ε α} :
    Ends Φ (await o k) ↔ ∀ r, Ends (fun es out => Φ (⟨o, r⟩ :: es) out) (k r) := Iff.rfl

theorem Ends.mono {p : Prog S ε α} {Φ Ψ : List (Act S ε) → Except ε α → Prop}
    (h : Ends Φ p) (hΦ : ∀ es out, Φ es out → Ψ es out) : Ends Ψ p := by
  induction p generalizing Φ Ψ with
  | ret a => exact hΦ _ _ h
  | raise e => exact hΦ _ _ h
  | await o k ih => exact fun r => ih r (h r) fun es out => hΦ _ _

/-- Sequencing: the continuation sees the history of the first part. -/
theorem ends_bind {p : Prog S ε α} {f : α → Prog S ε β}
    {Φ : List (Act S ε) → Except ε β → Prop} :
    Ends Φ (p >>= f) ↔
      Ends (fun es out => match out with
        | .ok a => Ends (fun es' out' => Φ (es ++ es') out') (f a)
        | .error e => Φ es (.error e)) p := by
  induction p generalizing Φ with
  | ret a => simp
  | raise e => simp
  | await o k ih =>
      simp only [await_bind, ends_await]
      exact forall_congr' fun r => by simpa using ih r

/-- Exception handling: the handler sees the history of the protected part. -/
theorem ends_tryCatch {p : Prog S ε α} {h : ε → Prog S ε α}
    {Φ : List (Act S ε) → Except ε α → Prop} :
    Ends Φ (p.tryCatch h) ↔
      Ends (fun es out => match out with
        | .ok a => Φ es (.ok a)
        | .error e => Ends (fun es' out' => Φ (es ++ es') out') (h e)) p := by
  induction p generalizing Φ with
  | ret a => simp [tryCatch]
  | raise e => simp [tryCatch]
  | await o k ih =>
      simp only [tryCatch, ends_await]
      exact forall_congr' fun r => by simpa using ih r

theorem ends_perform {o : S.Op} {Φ : List (Act S ε) → Except ε (S.Resp o) → Prop} :
    Ends Φ (perform o) ↔
      (∀ a, Φ [⟨o, .ok a⟩] (.ok a)) ∧ ∀ e, Φ [⟨o, .error e⟩] (.error e) := by
  constructor
  · intro h
    exact ⟨fun a => h (.ok a), fun e => h (.error e)⟩
  · rintro ⟨hok, herr⟩ (e | a)
    · exact herr e
    · exact hok a

/-- The rule of sequencing: what the first part ends with is what the rest may
    assume. -/
theorem Ends.bind {p : Prog S ε α} {f : α → Prog S ε β} {Ψ : List (Act S ε) → Except ε α → Prop}
    {Φ : List (Act S ε) → Except ε β → Prop} (h : Ends Ψ p)
    (hok : ∀ es a, Ψ es (.ok a) → Ends (fun es' out => Φ (es ++ es') out) (f a))
    (herr : ∀ es e, Ψ es (.error e) → Φ es (.error e)) : Ends Φ (p >>= f) := by
  refine ends_bind.mpr (h.mono fun es out hout => ?_)
  cases out with
  | ok a => exact hok es a hout
  | error e => exact herr es e hout

/-- The rule of exception handling. -/
theorem Ends.tryCatch {p : Prog S ε α} {g : ε → Prog S ε α}
    {Ψ Φ : List (Act S ε) → Except ε α → Prop} (h : Ends Ψ p)
    (hok : ∀ es a, Ψ es (.ok a) → Φ es (.ok a))
    (herr : ∀ es e, Ψ es (.error e) → Ends (fun es' out => Φ (es ++ es') out) (g e)) :
    Ends Φ (p.tryCatch g) := by
  refine ends_tryCatch.mpr (h.mono fun es out hout => ?_)
  cases out with
  | ok a => exact hok es a hout
  | error e => exact herr es e hout

theorem Ends.and {p : Prog S ε α} {Φ Ψ : List (Act S ε) → Except ε α → Prop} (h₁ : Ends Φ p)
    (h₂ : Ends Ψ p) : Ends (fun es out => Φ es out ∧ Ψ es out) p := by
  induction p generalizing Φ Ψ with
  | ret a => exact ⟨h₁, h₂⟩
  | raise e => exact ⟨h₁, h₂⟩
  | await o k ih => exact fun r => ih r (h₁ r) (h₂ r)

theorem ends_of_forall {p : Prog S ε α} {Φ : List (Act S ε) → Except ε α → Prop}
    (h : ∀ es out, Φ es out) : Ends Φ p := by
  induction p generalizing Φ with
  | ret a => exact h _ _
  | raise e => exact h _ _
  | await o k ih => exact fun r => ih r fun es out => h _ _

/-- A run of `await o; f` is the answer to `o` and, if that is a value, a run of
    `f`. -/
theorem ends_perform_bind {o : S.Op} {f : S.Resp o → Prog S ε β}
    {Φ : List (Act S ε) → Except ε β → Prop} :
    Ends Φ (perform o >>= f) ↔
      (∀ a, Ends (fun es out => Φ (⟨o, .ok a⟩ :: es) out) (f a)) ∧
        ∀ e, Φ [⟨o, .error e⟩] (.error e) := by
  rw [ends_bind, ends_perform]
  exact Iff.rfl

/-- The rule of loops: what a turn keeps, the loop keeps. -/
theorem Ends.foldlM {σ : Type} {f : β → σ → Prog S ε β} {I : List (Act S ε) → β → Prop}
    {l : List σ} (hf : ∀ x ∈ l, ∀ es b, I es b →
      Ends (fun es' out => ∃ b', out = .ok b' ∧ I (es ++ es') b') (f b x)) :
    ∀ {es : List (Act S ε)} {b : β}, I es b →
      Ends (fun es' out => ∃ b', out = .ok b' ∧ I (es ++ es') b') (l.foldlM f b) := by
  induction l with
  | nil =>
      intro es b hb
      rw [List.foldlM_nil, pure_def, ends_ret, List.append_nil]
      exact ⟨b, rfl, hb⟩
  | cons x l ih =>
      intro es b hb
      rw [List.foldlM_cons]
      refine Ends.bind (hf x (by simp) es b hb) ?_ ?_
      · rintro es₁ _ ⟨b₁, heq, hb₁⟩
        cases heq
        simp only [← List.append_assoc]
        exact ih (fun y hy => hf y (by simp [hy])) hb₁
      · rintro es₁ e ⟨b₁, heq, -⟩
        cases heq

theorem ends_ofExcept {Φ : List (Act S ε) → Except ε α → Prop} {x : Except ε α} :
    Ends Φ (ofExcept x) ↔ Φ [] x := by
  cases x <;> rfl

/-- The program throws exactly what its operations throw. -/
abbrev Forwards (p : Prog S ε α) : Prop :=
  Ends (fun es out => ∀ e, out = .error e ↔ ∃ x ∈ es, x.answer = .error e) p

theorem forwards_ret {a : α} : Forwards (ret a : Prog S ε α) := by
  intro e
  simp

theorem forwards_perform {o : S.Op} : Forwards (perform o : Prog S ε (S.Resp o)) :=
  ends_perform.mpr ⟨fun a e => by simp, fun e e' => by simp⟩

theorem Forwards.bind {p : Prog S ε α} {f : α → Prog S ε β} (h : Forwards p)
    (hf : ∀ a, Forwards (f a)) : Forwards (p >>= f) := by
  refine Ends.bind h (fun es a hes => (hf a).mono fun es' out hout e => ?_) fun es e hes e' => ?_
  · have hnone : ¬ ∃ x ∈ es, x.answer = .error e := fun hx => by cases (hes e).mpr hx
    rw [hout e]
    constructor
    · rintro ⟨x, hx, hans⟩
      exact ⟨x, List.mem_append_right _ hx, hans⟩
    · rintro ⟨x, hx, hans⟩
      rcases List.mem_append.mp hx with hx | hx
      · exact absurd ⟨x, hx, hans⟩ hnone
      · exact ⟨x, hx, hans⟩
  · rw [← hes e']
    simp

/-- A property of all complete runs transports along a partial run. -/
theorem Trace.ends {p q : Prog S ε α} {es : List (Act S ε)} (ht : Trace p es q)
    {Φ : List (Act S ε) → Except ε α → Prop} (h : Ends Φ p) :
    Ends (fun es' out => Φ (es ++ es') out) q := by
  induction ht with
  | refl => simpa using h
  | snoc _ r ih => simpa using ih r

/-- Every operation that the program ever awaits satisfies `Ψ`, together with the
    history before it. -/
def Before (Ψ : List (Act S ε) → S.Op → Prop) : Prog S ε α → Prop
  | ret _ => True
  | raise _ => True
  | await o k => Ψ [] o ∧ ∀ r, Before (fun es o' => Ψ (⟨o, r⟩ :: es) o') (k r)

@[simp] theorem before_ret {Ψ : List (Act S ε) → S.Op → Prop} {a : α} :
    Before Ψ (ret a : Prog S ε α) ↔ True := Iff.rfl

@[simp] theorem before_raise {Ψ : List (Act S ε) → S.Op → Prop} {e : ε} :
    Before Ψ (raise e : Prog S ε α) ↔ True := Iff.rfl

@[simp] theorem before_await {Ψ : List (Act S ε) → S.Op → Prop} {o : S.Op}
    {k : Except ε (S.Resp o) → Prog S ε α} :
    Before Ψ (await o k) ↔ Ψ [] o ∧ ∀ r, Before (fun es o' => Ψ (⟨o, r⟩ :: es) o') (k r) := Iff.rfl

theorem Before.mono {p : Prog S ε α} {Ψ Ψ' : List (Act S ε) → S.Op → Prop} (h : Before Ψ p)
    (hΨ : ∀ es o, Ψ es o → Ψ' es o) : Before Ψ' p := by
  induction p generalizing Ψ Ψ' with
  | ret a => trivial
  | raise e => trivial
  | await o k ih => exact ⟨hΨ _ _ h.1, fun r => ih r (h.2 r) fun es o => hΨ _ _⟩

theorem Before.and {p : Prog S ε α} {Ψ Ψ' : List (Act S ε) → S.Op → Prop} (h : Before Ψ p)
    (h' : Before Ψ' p) : Before (fun es o => Ψ es o ∧ Ψ' es o) p := by
  induction p generalizing Ψ Ψ' with
  | ret a => trivial
  | raise e => trivial
  | await o k ih => exact ⟨⟨h.1, h'.1⟩, fun r => ih r (h.2 r) (h'.2 r)⟩

theorem before_bind {p : Prog S ε α} {f : α → Prog S ε β} {Ψ : List (Act S ε) → S.Op → Prop} :
    Before Ψ (p >>= f) ↔ Before Ψ p ∧
      Ends (fun es out => ∀ a, out = .ok a → Before (fun es' o => Ψ (es ++ es') o) (f a)) p := by
  induction p generalizing Ψ with
  | ret a => simp
  | raise e => simp
  | await o k ih =>
      simp only [await_bind, before_await, ends_await, and_assoc, ← forall_and]
      exact and_congr_right fun _ => forall_congr' fun r => by simpa using ih r

theorem before_tryCatch {p : Prog S ε α} {h : ε → Prog S ε α}
    {Ψ : List (Act S ε) → S.Op → Prop} :
    Before Ψ (p.tryCatch h) ↔ Before Ψ p ∧
      Ends (fun es out => ∀ e, out = .error e → Before (fun es' o => Ψ (es ++ es') o) (h e)) p := by
  induction p generalizing Ψ with
  | ret a => simp [tryCatch]
  | raise e => simp [tryCatch]
  | await o k ih =>
      simp only [tryCatch, before_await, ends_await, and_assoc, ← forall_and]
      exact and_congr_right fun _ => forall_congr' fun r => by simpa using ih r

theorem before_perform {o : S.Op} {Ψ : List (Act S ε) → S.Op → Prop} :
    Before Ψ (perform o : Prog S ε (S.Resp o)) ↔ Ψ [] o := by
  refine ⟨fun h => h.1, fun h => ⟨h, fun r => ?_⟩⟩
  cases r <;> trivial

theorem before_perform_bind {o : S.Op} {f : S.Resp o → Prog S ε β}
    {Ψ : List (Act S ε) → S.Op → Prop} :
    Before Ψ (perform o >>= f) ↔
      Ψ [] o ∧ ∀ a, Before (fun es o' => Ψ (⟨o, .ok a⟩ :: es) o') (f a) := by
  rw [before_bind, before_perform, ends_perform]
  refine and_congr_right fun _ => ⟨fun h a => h.1 a a rfl, fun h => ⟨fun a b hb => ?_, fun e b hb => ?_⟩⟩
  · cases hb
    exact h a
  · cases hb

/-- A property that always holds. -/
theorem before_of_forall {p : Prog S ε α} {Ψ : List (Act S ε) → S.Op → Prop}
    (h : ∀ es o, Ψ es o) : Before Ψ p := by
  induction p generalizing Ψ with
  | ret a => trivial
  | raise e => trivial
  | await o k ih => exact ⟨h _ _, fun r => ih r fun es o => h _ _⟩

theorem before_ofExcept {Ψ : List (Act S ε) → S.Op → Prop} {x : Except ε α} :
    Before Ψ (ofExcept x : Prog S ε α) ↔ True := by
  cases x <;> rfl

theorem Trace.before {p q : Prog S ε α} {es : List (Act S ε)} (ht : Trace p es q)
    {Ψ : List (Act S ε) → S.Op → Prop} (h : Before Ψ p) :
    Before (fun es' o => Ψ (es ++ es') o) q := by
  induction ht with
  | refl => simpa using h
  | snoc _ r ih => simpa using ih.2 r

/-- Every operation in the history of a run satisfied `Ψ` when it was awaited. -/
theorem Trace.before_of_mem {p q : Prog S ε α} {es : List (Act S ε)} (ht : Trace p es q)
    {Ψ : List (Act S ε) → S.Op → Prop} (h : Before Ψ p) {x : Act S ε} (hx : x ∈ es) :
    ∃ pre, pre <+: es ∧ Ψ pre x.op := by
  induction ht with
  | refl => cases hx
  | @snoc es o k ht r ih =>
      rcases List.mem_append.mp hx with hx | hx
      · obtain ⟨pre, hpre, hΨ⟩ := ih hx
        exact ⟨pre, hpre.trans (List.prefix_append _ _), hΨ⟩
      · obtain rfl := List.mem_singleton.mp hx
        have hΨ : Ψ (es ++ []) o := (ht.before h).1
        exact ⟨es, List.prefix_append _ _, by rwa [List.append_nil] at hΨ⟩

theorem Before.bind {p : Prog S ε α} {f : α → Prog S ε β} {Ψ : List (Act S ε) → S.Op → Prop}
    {Φ : List (Act S ε) → Except ε α → Prop} (h : Before Ψ p) (he : Ends Φ p)
    (hf : ∀ es a, Φ es (.ok a) → Before (fun es' o => Ψ (es ++ es') o) (f a)) :
    Before Ψ (p >>= f) :=
  before_bind.mpr ⟨h, he.mono fun es _ hout a ha => hf es a (ha ▸ hout)⟩

theorem Before.tryCatch {p : Prog S ε α} {g : ε → Prog S ε α} {Ψ : List (Act S ε) → S.Op → Prop}
    {Φ : List (Act S ε) → Except ε α → Prop} (h : Before Ψ p) (he : Ends Φ p)
    (hg : ∀ es e, Φ es (.error e) → Before (fun es' o => Ψ (es ++ es') o) (g e)) :
    Before Ψ (p.tryCatch g) :=
  before_tryCatch.mpr ⟨h, he.mono fun es _ hout e hout' => hg es e (hout' ▸ hout)⟩

/-! ## Which operations a program awaits -/

/-- All operations that the program may await satisfy `P`. -/
abbrev Only (P : S.Op → Prop) (p : Prog S ε α) : Prop := Before (fun _ o => P o) p

theorem Only.bind {P : S.Op → Prop} {p : Prog S ε α} {f : α → Prog S ε β} (h : Only P p)
    (hf : ∀ a, Only P (f a)) : Only P (p >>= f) :=
  Before.bind (Φ := fun _ _ => True) h (ends_of_forall fun _ _ => trivial) fun _ a _ => hf a

theorem Only.tryCatch {P : S.Op → Prop} {p : Prog S ε α} {g : ε → Prog S ε α} (h : Only P p)
    (hg : ∀ e, Only P (g e)) : Only P (p.tryCatch g) :=
  Before.tryCatch (Φ := fun _ _ => True) h (ends_of_forall fun _ _ => trivial) fun _ e _ => hg e

theorem only_perform {P : S.Op → Prop} {o : S.Op} (h : P o) :
    Only P (perform o : Prog S ε (S.Resp o)) :=
  before_perform.mpr h

theorem Only.mono {P Q : S.Op → Prop} {p : Prog S ε α} (h : Only P p) (hPQ : ∀ o, P o → Q o) :
    Only Q p :=
  Before.mono h fun _ => hPQ

theorem Only.before {P : S.Op → Prop} {p : Prog S ε α} (h : Only P p)
    {Ψ : List (Act S ε) → S.Op → Prop} (hΨ : ∀ es o, P o → Ψ es o) : Before Ψ p :=
  Before.mono h hΨ

theorem only_ofExcept {P : S.Op → Prop} {x : Except ε α} : Only P (ofExcept x : Prog S ε α) :=
  before_ofExcept.mpr trivial

/-- Then its history has no other operations. -/
theorem Only.ends {P : S.Op → Prop} {p : Prog S ε α} (h : Only P p) :
    Ends (fun es _ => ∀ x ∈ es, P x.op) p := by
  induction p with
  | ret a => simp
  | raise e => simp
  | await o k ih =>
      intro r
      refine (ih r (h.2 r)).mono fun es out hes x hx => ?_
      rcases List.mem_cons.mp hx with rfl | hx
      · exact h.1
      · exact hes x hx

/-! ## Two phases -/

/-- The operations of the first phase satisfy `P`; once one does not, those that follow
    satisfy `Q`. -/
abbrev Phased (P Q : S.Op → Prop) (p : Prog S ε α) : Prop :=
  Before (fun es o => Q o ∨ ∀ x ∈ es, P x.op) p

theorem Phased.tryCatch {P Q : S.Op → Prop} {p : Prog S ε α} {g : ε → Prog S ε α}
    (h : Phased P Q p) (hg : ∀ e, Only Q (g e)) : Phased P Q (p.tryCatch g) :=
  Before.tryCatch (Φ := fun _ _ => True) h (ends_of_forall fun _ _ => trivial)
    fun _ e _ => Before.mono (hg e) fun _ _ hq => .inl hq

/-- The outcome of a finished program, if it has finished. -/
def outcome? : Prog S ε α → Option (Except ε α)
  | ret a => some (.ok a)
  | raise e => some (.error e)
  | await _ _ => none

/-- What holds at the end of every complete run holds of a finished run. -/
theorem Trace.ends_of_outcome {p q : Prog S ε α} {es : List (Act S ε)} (ht : Trace p es q)
    {Φ : List (Act S ε) → Except ε α → Prop} (h : Ends Φ p) {out : Except ε α}
    (hout : q.outcome? = some out) : Φ es out := by
  have hq := ht.ends h
  cases q with
  | ret a => cases hout; simpa using hq
  | raise e => cases hout; simpa using hq
  | await o k => cases hout

end Prog

end ZeroAuth.Lib
