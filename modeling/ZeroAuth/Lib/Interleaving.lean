/-
  ZeroAuth.Lib.Interleaving

  Any number of asynchronous programs over one shared world.

  A call starts a thread.  Between two awaited operations a thread runs
  alone; an awaited operation is one atomic step of the shared world, decided
  by the operation, the world and an oracle (random bytes, a service's answer,
  an injected failure).  Any thread may make the next step, and the environment
  (the clock, background work) may make steps of its own.

  `System.step` is executable.  `Reach init good` collects the configurations
  of all runs whose every step satisfies `good`, a condition on the state before
  the step; `fun _ _ => True` gives all runs.
-/

import ZeroAuth.Lib.Async
import Mathlib.Logic.Relation

namespace ZeroAuth.Lib

/-- The code of every call, and what an awaited operation does to the world.
    `exec` answers `none` when the operation cannot complete now. -/
structure System (S : Sig) (ε α γ W Ω E : Type) where
  code : γ → Prog S ε α
  exec : ℕ → (o : S.Op) → Ω → W → Option (Except ε (S.Resp o) × W)
  env : E → W → Option W

/-- One call: what was asked, the operations it has awaited so far, and the
    program that is left to run. -/
structure Thread (S : Sig) (ε α γ : Type) where
  call : γ
  past : List (Act S ε)
  rest : Prog S ε α

/-- An awaited operation together with the thread that awaited it. -/
structure Event (S : Sig) (ε : Type) where
  caller : ℕ
  act : Act S ε

/-- The shared world, everything that was awaited so far (oldest first), and
    the calls by number. -/
structure Config (S : Sig) (ε α γ W : Type) where
  world : W
  log : List (Event S ε)
  threads : List (Thread S ε α γ)

/-- What may happen next: a new call, the next operation of a call, or a step of
    the environment. -/
inductive Label (γ Ω E : Type)
  | start (a : γ)
  | resume (t : ℕ) (ω : Ω)
  | env (e : E)

variable {S : Sig} {ε α γ W Ω E : Type}

namespace Config

def init (w : W) : Config S ε α γ W := ⟨w, [], []⟩

/-- The configuration after thread `t`, asked for `a`, got the answer `r` to
    its operation `o` and left the world `w` behind. -/
def answered (c : Config S ε α γ W) (t : ℕ) (a : γ) (past : List (Act S ε)) {o : S.Op}
    (k : Except ε (S.Resp o) → Prog S ε α) (r : Except ε (S.Resp o)) (w : W) :
    Config S ε α γ W :=
  ⟨w, c.log ++ [⟨t, ⟨o, r⟩⟩], c.threads.set t ⟨a, past ++ [⟨o, r⟩], k r⟩⟩

end Config

namespace System

/-- A new call: its program has not awaited anything yet. -/
def spawn (Y : System S ε α γ W Ω E) (c : Config S ε α γ W) (a : γ) : Config S ε α γ W :=
  { c with threads := c.threads ++ [⟨a, [], Y.code a⟩] }

def step (Y : System S ε α γ W Ω E) (c : Config S ε α γ W) :
    Label γ Ω E → Option (Config S ε α γ W)
  | .start a => some (Y.spawn c a)
  | .resume t ω =>
      match c.threads[t]? with
      | some ⟨a, past, .await o k⟩ =>
          (Y.exec t o ω c.world).map fun (r, w) => c.answered t a past k r w
      | _ => none
  | .env e => (Y.env e c.world).map fun w => { c with world := w }

/-- Run a schedule. -/
def run (Y : System S ε α γ W Ω E) (c : Config S ε α γ W) :
    List (Label γ Ω E) → Option (Config S ε α γ W)
  | [] => some c
  | l :: ls => (Y.step c l).bind fun c' => Y.run c' ls

/-- Run a schedule whose every step passes a test where it is taken. -/
def runChecked (Y : System S ε α γ W Ω E) (test : Config S ε α γ W → Label γ Ω E → Bool)
    (c : Config S ε α γ W) : List (Label γ Ω E) → Option (Config S ε α γ W)
  | [] => some c
  | l :: ls => if test c l then (Y.step c l).bind fun c' => Y.runChecked test c' ls else none

/-- Every step of the schedule satisfies `good` where it is taken. -/
def Keeps (Y : System S ε α γ W Ω E) (good : Config S ε α γ W → Label γ Ω E → Prop)
    (c : Config S ε α γ W) : List (Label γ Ω E) → Prop
  | [] => True
  | l :: ls => good c l ∧ ∀ c', Y.step c l = some c' → Y.Keeps good c' ls

/-- The configurations of the runs that begin in an `init` world and whose
    steps all satisfy `good`. -/
inductive Reach (Y : System S ε α γ W Ω E) (init : W → Prop)
    (good : Config S ε α γ W → Label γ Ω E → Prop) : Config S ε α γ W → Prop
  | init {w : W} (h : init w) : Reach Y init good (.init w)
  | step {c c' : Config S ε α γ W} {l : Label γ Ω E} (hc : Reach Y init good c)
      (hg : good c l) (hs : Y.step c l = some c') : Reach Y init good c'

/-- One step of a run whose steps all satisfy `good`. -/
def Next (Y : System S ε α γ W Ω E) (good : Config S ε α γ W → Label γ Ω E → Prop)
    (c c' : Config S ε α γ W) : Prop :=
  ∃ l, good c l ∧ Y.step c l = some c'

/-- `c'` is reached from `c` by steps that all satisfy `good`. -/
abbrev Later (Y : System S ε α γ W Ω E) (good : Config S ε α γ W → Label γ Ω E → Prop) :
    Config S ε α γ W → Config S ε α γ W → Prop :=
  Relation.ReflTransGen (Y.Next good)

variable {Y : System S ε α γ W Ω E} {init : W → Prop}
  {good : Config S ε α γ W → Label γ Ω E → Prop} {c c' : Config S ε α γ W}

/-- Everything a step can do. -/
theorem step_cases {l : Label γ Ω E} (h : Y.step c l = some c') :
    (∃ a, l = .start a ∧ c' = Y.spawn c a) ∨
    (∃ t ω a past, ∃ o : S.Op, ∃ k r w, l = .resume t ω ∧
      c.threads[t]? = some ⟨a, past, .await o k⟩ ∧
      Y.exec t o ω c.world = some (r, w) ∧ c' = c.answered t a past k r w) ∨
    (∃ e w, l = .env e ∧ Y.env e c.world = some w ∧ c' = { c with world := w }) := by
  cases l with
  | start a => exact .inl ⟨a, rfl, (Option.some.inj h).symm⟩
  | resume t ω =>
      simp only [step] at h
      split at h
      · next a past o k hth =>
          obtain ⟨⟨r, w⟩, hx, rfl⟩ := Option.map_eq_some_iff.mp h
          exact .inr (.inl ⟨t, ω, a, past, o, k, r, w, rfl, hth, hx, rfl⟩)
      · cases h
  | env e =>
      obtain ⟨w, hw, rfl⟩ := Option.map_eq_some_iff.mp h
      exact .inr (.inr ⟨e, w, rfl, hw, rfl⟩)

theorem step_resume {t : ℕ} {ω : Ω} {a : γ} {past : List (Act S ε)} {o : S.Op}
    {k : Except ε (S.Resp o) → Prog S ε α} {r : Except ε (S.Resp o)} {w : W}
    (hth : c.threads[t]? = some ⟨a, past, .await o k⟩) (hx : Y.exec t o ω c.world = some (r, w)) :
    Y.step c (.resume t ω) = some (c.answered t a past k r w) := by
  simp only [step, hth, hx, Option.map_some]

/-! ## Runs -/

theorem Reach.later (h : Y.Reach init good c) (hl : Y.Later good c c') :
    Y.Reach init good c' := by
  induction hl with
  | refl => exact h
  | tail _ hn ih =>
      obtain ⟨l, hg, hs⟩ := hn
      exact ih.step hg hs

/-- A weaker condition on the steps allows more runs. -/
theorem Reach.mono {good' : Config S ε α γ W → Label γ Ω E → Prop}
    (h : Y.Reach init good c) (hgood : ∀ c l, good c l → good' c l) :
    Y.Reach init good' c := by
  induction h with
  | init h => exact .init h
  | step _ hg hs ih => exact ih.step (hgood _ _ hg) hs

/-- A schedule that runs and keeps `good` reaches its last configuration. -/
theorem Reach.run (h : Y.Reach init good c) {ls : List (Label γ Ω E)}
    (hk : Y.Keeps good c ls) (hr : Y.run c ls = some c') : Y.Reach init good c' := by
  induction ls generalizing c with
  | nil =>
      cases hr
      exact h
  | cons l ls ih =>
      obtain ⟨c₁, hs, hr⟩ := Option.bind_eq_some_iff.mp hr
      exact ih (h.step hk.1 hs) (hk.2 c₁ hs) hr

theorem keeps_of_forall {ls : List (Label γ Ω E)} (hg : ∀ c l, l ∈ ls → good c l) :
    Y.Keeps good c ls := by
  induction ls generalizing c with
  | nil => trivial
  | cons l ls ih =>
      exact ⟨hg c l (by simp), fun c' _ => ih fun c l hl => hg c l (by simp [hl])⟩

theorem later_of_runChecked {test : Config S ε α γ W → Label γ Ω E → Bool}
    (htest : ∀ c l, test c l = true → good c l) {ls : List (Label γ Ω E)}
    (hr : Y.runChecked test c ls = some c') : Y.Later good c c' := by
  induction ls generalizing c with
  | nil =>
      cases hr
      exact .refl
  | cons l ls ih =>
      simp only [System.runChecked, Option.ite_none_right_eq_some] at hr
      obtain ⟨hl, hr⟩ := hr
      obtain ⟨c₁, hs, hr⟩ := Option.bind_eq_some_iff.mp hr
      exact (ih hr).head ⟨l, htest c l hl, hs⟩

theorem Reach.runChecked (h : Y.Reach init good c) {test : Config S ε α γ W → Label γ Ω E → Bool}
    (htest : ∀ c l, test c l = true → good c l) {ls : List (Label γ Ω E)}
    (hr : Y.runChecked test c ls = some c') : Y.Reach init good c' :=
  h.later (later_of_runChecked htest hr)

/-- The condition that an operation completes only where `ok` allows it. -/
def OnlyWhere (ok : ℕ → S.Op → Ω → W → Prop) (c : Config S ε α γ W) : Label γ Ω E → Prop
  | .resume t ω => ∀ a past o k, c.threads[t]? = some ⟨a, past, .await o k⟩ → ok t o ω c.world
  | _ => True

def onlyWhereTest (test : ℕ → S.Op → Ω → W → Bool) (c : Config S ε α γ W) : Label γ Ω E → Bool
  | .resume t ω =>
      match c.threads[t]? with
      | some ⟨_, _, .await o _⟩ => test t o ω c.world
      | _ => true
  | _ => true

theorem onlyWhere_of_test {ok : ℕ → S.Op → Ω → W → Prop} {test : ℕ → S.Op → Ω → W → Bool}
    (htest : ∀ t o ω w, test t o ω w = true → ok t o ω w) {l : Label γ Ω E}
    (h : onlyWhereTest test c l = true) : OnlyWhere ok c l := by
  cases l with
  | resume t ω =>
      intro a past o k hth
      simp only [onlyWhereTest, hth] at h
      exact htest t o ω c.world h
  | start a => trivial
  | env e => trivial

open Classical in
/-- The same system, where an operation completes only when `ok` allows it. -/
noncomputable def guarded (Y : System S ε α γ W Ω E) (ok : ℕ → S.Op → Ω → W → Prop) :
    System S ε α γ W Ω E :=
  { Y with exec := fun t o ω w => if ok t o ω w then Y.exec t o ω w else none }

theorem exec_guarded {ok : ℕ → S.Op → Ω → W → Prop} {t : ℕ} {o : S.Op} {ω : Ω} {w w' : W}
    {r : Except ε (S.Resp o)} (h : (Y.guarded ok).exec t o ω w = some (r, w')) :
    ok t o ω w ∧ Y.exec t o ω w = some (r, w') := by
  simp only [guarded] at h
  rwa [Option.ite_none_right_eq_some] at h

theorem step_guarded {ok : ℕ → S.Op → Ω → W → Prop} {l : Label γ Ω E} (hs : Y.step c l = some c')
    (hok : ∀ t ω a past o k, l = .resume t ω → c.threads[t]? = some ⟨a, past, .await o k⟩ →
      ok t o ω c.world) : (Y.guarded ok).step c l = some c' := by
  obtain ⟨a, rfl, rfl⟩ | ⟨t, ω, a, past, o, k, r, w, rfl, hth, hx, rfl⟩ |
    ⟨e, w, rfl, hw, rfl⟩ := step_cases hs
  · rfl
  · apply step_resume hth
    simp only [System.guarded]
    rw [if_pos (hok t ω a past o k rfl hth), hx]
  · show (Y.env e _).map _ = _
    rw [hw]
    rfl

/-- A run that never does what `ok` forbids is a run of the guarded system. -/
theorem Reach.guarded {ok : ℕ → S.Op → Ω → W → Prop} (h : Y.Reach init good c)
    (hok : ∀ c t ω a past o k, good c (.resume t ω) →
      c.threads[t]? = some ⟨a, past, .await o k⟩ → ok t o ω c.world) :
    (Y.guarded ok).Reach init good c := by
  induction h with
  | init h => exact .init h
  | step hc hg hs ih =>
      refine ih.step hg (step_guarded hs fun t ω a past o k hl hth => ?_)
      exact hok _ t ω a past o k (hl ▸ hg) hth

theorem Later.guarded {ok : ℕ → S.Op → Ω → W → Prop} (h : Y.Later good c c')
    (hok : ∀ c t ω a past o k, good c (.resume t ω) →
      c.threads[t]? = some ⟨a, past, .await o k⟩ → ok t o ω c.world) :
    (Y.guarded ok).Later good c c' := by
  induction h with
  | refl => exact .refl
  | tail _ hn ih =>
      obtain ⟨l, hg, hs⟩ := hn
      refine ih.tail ⟨l, hg, step_guarded hs fun t ω a past o k hl hth => ?_⟩
      exact hok _ t ω a past o k (hl ▸ hg) hth

/-- Induction over runs: what holds at the start and is kept by a new call, by
    an answered operation and by the environment holds everywhere. -/
theorem Reach.invariant {I : Config S ε α γ W → Prop}
    (hinit : ∀ w, init w → I (.init w))
    (hstart : ∀ c a, Y.Reach init good c → I c → good c (.start a) → I (Y.spawn c a))
    (hresume : ∀ c t ω a past o k r w, Y.Reach init good c → I c → good c (.resume t ω) →
      c.threads[t]? = some ⟨a, past, .await o k⟩ → Y.exec t o ω c.world = some (r, w) →
      I (c.answered t a past k r w))
    (henv : ∀ c e w, Y.Reach init good c → I c → good c (.env e) →
      Y.env e c.world = some w → I { c with world := w })
    (h : Y.Reach init good c) : I c := by
  induction h with
  | init h => exact hinit _ h
  | step hc hg hs ih =>
      obtain ⟨a, rfl, rfl⟩ | ⟨t, ω, a, past, o, k, r, w, rfl, hth, hx, rfl⟩ |
        ⟨e, w, rfl, hw, rfl⟩ := step_cases hs
      · exact hstart _ a hc ih hg
      · exact hresume _ t ω a past o k r w hc ih hg hth hx
      · exact henv _ e w hc ih hg hw

/-- The rule for facts about the world and the history alone: the threads do not
    matter, only what an answered operation and the environment can do. -/
theorem Reach.world_invariant {I : W → List (Event S ε) → Prop}
    (hinit : ∀ w, init w → I w [])
    (hexec : ∀ w log t o ω r w', I w log → Y.exec t o ω w = some (r, w') →
      I w' (log ++ [⟨t, ⟨o, r⟩⟩]))
    (henv : ∀ w log e w', I w log → Y.env e w = some w' → I w' log)
    (h : Y.Reach init good c) : I c.world c.log :=
  h.invariant (I := fun c => I c.world c.log) hinit (fun _ _ _ hI _ => hI)
    (fun _ _ _ _ _ _ _ _ _ _ hI _ _ hx => hexec _ _ _ _ _ _ _ hI hx)
    (fun _ _ _ _ hI _ hw => henv _ _ _ _ hI hw)

/-- What every answered operation satisfies, every logged event satisfies. -/
theorem Reach.log_forall {P : Event S ε → Prop}
    (hexec : ∀ w t o ω r w', Y.exec t o ω w = some (r, w') → P ⟨t, ⟨o, r⟩⟩)
    (h : Y.Reach init good c) : ∀ e ∈ c.log, P e := by
  refine h.world_invariant (I := fun _ log => ∀ e ∈ log, P e) (fun _ _ _ he => by cases he)
    (fun w log t o ω r w' hI hx e he => ?_) (fun _ _ _ _ hI _ => hI)
  rcases List.mem_append.mp he with he | he
  · exact hI e he
  · obtain rfl := List.mem_singleton.mp he
    exact hexec w t o ω r w' hx

/-- What an answer makes true, and no later step makes false, is true of every logged event. -/
theorem Reach.log_holds {Q : Config S ε α γ W → Event S ε → Prop}
    (hkeep : ∀ c c' e, Y.Reach init good c → Y.Next good c c' → Q c e → Q c' e)
    (hexec : ∀ c t ω a past o k r w, Y.Reach init good c → good c (.resume t ω) →
      c.threads[t]? = some ⟨a, past, .await o k⟩ → Y.exec t o ω c.world = some (r, w) →
      Q (c.answered t a past k r w) ⟨t, ⟨o, r⟩⟩)
    (h : Y.Reach init good c) : ∀ e ∈ c.log, Q c e := by
  refine h.invariant (I := fun c => ∀ e ∈ c.log, Q c e) (fun w _ e he => by cases he)
    (fun c a hc ih hg e he => ?_) (fun c t ω a past o k r w hc ih hg hth hx e he => ?_)
    (fun c e' w hc ih hg hw e he => ?_)
  · exact hkeep c _ e hc ⟨.start a, hg, rfl⟩ (ih e he)
  · rcases List.mem_append.mp he with he | he
    · exact hkeep c _ e hc ⟨.resume t ω, hg, step_resume hth hx⟩ (ih e he)
    · rw [List.mem_singleton.mp he]
      exact hexec c t ω a past o k r w hc hg hth hx
  · refine hkeep c _ e hc ⟨.env e', hg, ?_⟩ (ih e he)
    show (Y.env e' c.world).map _ = _
    rw [hw]
    rfl

/-! ## The history of one thread -/

/-- The operations that thread `t` awaited, oldest first. -/
def own (t : ℕ) (log : List (Event S ε)) : List (Act S ε) :=
  log.filterMap fun e => if e.caller = t then some e.act else none

@[simp] theorem own_nil (t : ℕ) : own t ([] : List (Event S ε)) = [] := rfl

@[simp] theorem own_append (t : ℕ) (l₁ l₂ : List (Event S ε)) :
    own t (l₁ ++ l₂) = own t l₁ ++ own t l₂ := by
  simp [own]

@[simp] theorem own_singleton_self (t : ℕ) (x : Act S ε) : own t [⟨t, x⟩] = [x] := by
  simp [own]

theorem own_singleton_of_ne {t t' : ℕ} (h : t' ≠ t) (x : Act S ε) : own t [⟨t', x⟩] = [] := by
  simp [own, h]

theorem mem_own {t : ℕ} {log : List (Event S ε)} {x : Act S ε} :
    x ∈ own t log ↔ (⟨t, x⟩ : Event S ε) ∈ log := by
  simp only [own, List.mem_filterMap, Option.ite_none_right_eq_some, Option.some.injEq]
  constructor
  · rintro ⟨⟨t', x'⟩, hm, rfl, rfl⟩
    exact hm
  · exact fun hm => ⟨_, hm, rfl, rfl⟩

theorem getElem?_answered {c : Config S ε α γ W} {t t' : ℕ} {a : γ} {past : List (Act S ε)}
    {o : S.Op} {k : Except ε (S.Resp o) → Prog S ε α} {r : Except ε (S.Resp o)} {w : W} :
    (c.answered t a past k r w).threads[t']? =
      if t = t' then (if t < c.threads.length then some ⟨a, past ++ [⟨o, r⟩], k r⟩ else none)
      else c.threads[t']? := by
  rw [Config.answered, List.getElem?_set]

theorem getElem?_answered_self {c : Config S ε α γ W} {t : ℕ} {a : γ} {past : List (Act S ε)}
    {o : S.Op} {k : Except ε (S.Resp o) → Prog S ε α} {r : Except ε (S.Resp o)} {w : W}
    {th : Thread S ε α γ} (h : c.threads[t]? = some th) :
    (c.answered t a past k r w).threads[t]? = some ⟨a, past ++ [⟨o, r⟩], k r⟩ := by
  rw [getElem?_answered, if_pos rfl, if_pos (List.getElem?_eq_some_iff.mp h).1]

theorem getElem?_spawn {t : ℕ} {a : γ} {th : Thread S ε α γ}
    (h : (Y.spawn c a).threads[t]? = some th) :
    c.threads[t]? = some th ∨ (t = c.threads.length ∧ th = ⟨a, [], Y.code a⟩) := by
  simp only [spawn, List.getElem?_append] at h
  split at h
  · exact .inl h
  · next hlt =>
      obtain ⟨h0, rfl⟩ := List.getElem?_eq_some_iff.mp h
      simp only [List.length_singleton] at h0
      exact .inr ⟨by omega, by simp⟩

/-- What the condition asks of every call that begins is true of every call. -/
theorem Reach.call_good {P : γ → Prop} (hgood : ∀ c a, good c (.start a) → P a)
    (h : Y.Reach init good c) : ∀ {t : ℕ} {th : Thread S ε α γ}, c.threads[t]? = some th →
      P th.call := by
  refine h.invariant (I := fun c => ∀ {t : ℕ} {th : Thread S ε α γ}, c.threads[t]? = some th →
    P th.call) (fun w _ t th hth => by cases hth) ?_ ?_ (fun _ _ _ _ hI _ _ => hI)
  · intro c a _ hI hg t th hth
    obtain hth | ⟨-, rfl⟩ := getElem?_spawn hth
    · exact hI hth
    · exact hgood c a hg
  · intro c t ω a past o k r w _ hI _ hth _ t' th' hth'
    have hlt : t < c.threads.length := (List.getElem?_eq_some_iff.mp hth).1
    rw [getElem?_answered, if_pos hlt] at hth'
    split at hth'
    · cases hth'
      have ha : P (Thread.mk a past (.await o k)).call := hI hth
      exact ha
    · exact hI hth'

/-- A thread's past is a history of its code, and its rest is what that history
    leaves to run. -/
theorem Reach.trace (h : Y.Reach init good c) {t : ℕ} {th : Thread S ε α γ}
    (hth : c.threads[t]? = some th) : Prog.Trace (Y.code th.call) th.past th.rest := by
  refine Reach.invariant (I := fun c => ∀ t th, c.threads[t]? = some th →
    Prog.Trace (Y.code th.call) th.past th.rest) ?_ ?_ ?_ ?_ h t th hth
  · intro w _ t th hth
    cases hth
  · intro c a _ ih _ t th hth
    obtain h | ⟨-, rfl⟩ := getElem?_spawn hth
    · exact ih t th h
    · exact .refl _
  · intro c t' ω a past o k r w _ ih _ ht' _ t th hth
    rw [getElem?_answered] at hth
    split at hth
    · split at hth
      · cases hth
        exact (ih t' _ ht').snoc r
      · cases hth
    · exact ih t th hth
  · intro c e w _ ih _ _
    exact ih

/-- A thread's past is its part of the log, and only started threads log. -/
theorem Reach.past_eq_own (h : Y.Reach init good c) :
    (∀ e ∈ c.log, e.caller < c.threads.length) ∧
    ∀ t th, c.threads[t]? = some th → th.past = own t c.log := by
  refine Reach.invariant (I := fun c => (∀ e ∈ c.log, e.caller < c.threads.length) ∧
    ∀ t th, c.threads[t]? = some th → th.past = own t c.log) ?_ ?_ ?_ ?_ h
  · intro w _
    exact ⟨by simp [Config.init], fun t th hth => by cases hth⟩
  · intro c a _ ih _
    refine ⟨fun e he => ?_, fun t th hth => ?_⟩
    · have := ih.1 e he
      simp only [spawn, List.length_append, List.length_singleton]
      omega
    · obtain h | ⟨rfl, rfl⟩ := getElem?_spawn hth
      · exact ih.2 t th h
      · -- a new thread has no event yet, because all callers are older
        refine (List.filterMap_eq_nil_iff.mpr fun e he => ?_).symm
        have hlt := ih.1 e he
        exact if_neg (by omega)
  · intro c t' ω a past o k r w _ ih _ ht' _
    have hlt : t' < c.threads.length := (List.getElem?_eq_some_iff.mp ht').1
    refine ⟨fun e he => ?_, fun t th hth => ?_⟩
    · simp only [Config.answered, List.length_set, List.mem_append, List.mem_singleton] at he ⊢
      rcases he with he | rfl
      · exact ih.1 e he
      · exact hlt
    · rw [getElem?_answered] at hth
      simp only [Config.answered, own_append]
      split at hth
      · next heq =>
          cases hth
          subst heq
          rw [own_singleton_self, ← ih.2 t' _ ht']
      · next hne => rw [own_singleton_of_ne hne, List.append_nil, ih.2 t th hth]
  · intro c e w _ ih _ _
    exact ih

/-- The rule for facts about one call and its history: they hold of a new call
    and are kept by every answer. -/
theorem Reach.past_invariant {P : γ → List (Act S ε) → Prop} (hnil : ∀ a, P a [])
    (hstep : ∀ c t ω a past o k r w, Y.Reach init good c → good c (.resume t ω) →
      c.threads[t]? = some ⟨a, past, .await o k⟩ → Y.exec t o ω c.world = some (r, w) →
      P a past → P a (past ++ [⟨o, r⟩]))
    (h : Y.Reach init good c) {t : ℕ} {th : Thread S ε α γ} (hth : c.threads[t]? = some th) :
    P th.call th.past := by
  refine Reach.invariant (I := fun c => ∀ t th, c.threads[t]? = some th → P th.call th.past)
    ?_ ?_ ?_ ?_ h t th hth
  · intro w _ t th hth
    cases hth
  · intro c a _ ih _ t th hth
    obtain h | ⟨-, rfl⟩ := getElem?_spawn hth
    · exact ih t th h
    · exact hnil a
  · intro c t' ω a past o k r w hc ih hg ht' hx t th hth
    rw [getElem?_answered] at hth
    split at hth
    · split at hth
      · cases hth
        exact hstep c t' ω a past o k r w hc hg ht' hx (ih t' _ ht')
      · cases hth
    · exact ih t th hth
  · intro c e w _ ih _ _
    exact ih

theorem Reach.mem_log (h : Y.Reach init good c) {t : ℕ} {th : Thread S ε α γ}
    (hth : c.threads[t]? = some th) {x : Act S ε} :
    x ∈ th.past ↔ (⟨t, x⟩ : Event S ε) ∈ c.log := by
  rw [h.past_eq_own.2 t th hth, mem_own]

/-- Every logged event is in the past of the thread that caused it. -/
theorem Reach.exists_thread (h : Y.Reach init good c) {e : Event S ε} (he : e ∈ c.log) :
    ∃ th, c.threads[e.caller]? = some th ∧ e.act ∈ th.past := by
  have hlt := h.past_eq_own.1 e he
  exact ⟨c.threads[e.caller], List.getElem?_eq_getElem hlt,
    (h.mem_log (List.getElem?_eq_getElem hlt)).mpr he⟩

/-- What holds at the end of every run of a call's code holds of a finished call,
    whatever ran in between. -/
theorem Reach.ends (h : Y.Reach init good c) {t : ℕ} {th : Thread S ε α γ}
    (hth : c.threads[t]? = some th) {Φ : List (Act S ε) → Except ε α → Prop}
    (hΦ : Prog.Ends Φ (Y.code th.call)) {out : Except ε α} (hout : th.rest.outcome? = some out) :
    Φ th.past out :=
  (h.trace hth).ends_of_outcome hΦ hout

/-- What holds whenever the code awaits an operation holds of a thread that is
    about to await one. -/
theorem Reach.before (h : Y.Reach init good c) {t : ℕ} {a : γ} {past : List (Act S ε)} {o : S.Op}
    {k : Except ε (S.Resp o) → Prog S ε α} (hth : c.threads[t]? = some ⟨a, past, .await o k⟩)
    {Ψ : List (Act S ε) → S.Op → Prop} (hΨ : Prog.Before Ψ (Y.code a)) : Ψ past o := by
  have hΨo : Ψ (past ++ []) o := ((h.trace hth).before hΨ).1
  rwa [List.append_nil] at hΨo

/-- In every run each operation satisfies what the programs of all calls satisfy. -/
theorem Reach.onlyWhere {P : S.Op → Prop} (hcode : ∀ a, Prog.Only P (Y.code a))
    (h : Y.Reach init good c) :
    Y.Reach init (fun c l => good c l ∧ OnlyWhere (fun _ o _ _ => P o) c l) c := by
  induction h with
  | init h => exact .init h
  | @step c c' l hc hg hs ih =>
      refine ih.step ⟨hg, ?_⟩ hs
      cases l with
      | start a => trivial
      | env e => trivial
      | resume t ω =>
          intro a past o k hth
          exact hc.before hth (hcode a)

/-- Every operation in a thread's past satisfied `Ψ` when it was awaited. -/
theorem Reach.before_of_mem (h : Y.Reach init good c) {t : ℕ} {th : Thread S ε α γ}
    (hth : c.threads[t]? = some th) {Ψ : List (Act S ε) → S.Op → Prop}
    (hΨ : Prog.Before Ψ (Y.code th.call)) {x : Act S ε} (hx : x ∈ th.past) :
    ∃ pre, pre <+: th.past ∧ Ψ pre x.op :=
  (h.trace hth).before_of_mem hΨ hx

/-! ## What later configurations keep -/

theorem Next.log_prefix (h : Y.Next good c c') : c.log <+: c'.log := by
  obtain ⟨l, -, hs⟩ := h
  obtain ⟨a, -, rfl⟩ | ⟨t, ω, a, past, o, k, r, w, -, -, -, rfl⟩ | ⟨e, w, -, -, rfl⟩ := step_cases hs
  · exact List.prefix_refl _
  · exact List.prefix_append _ _
  · exact List.prefix_refl _

theorem Later.log_prefix (h : Y.Later good c c') : c.log <+: c'.log := by
  induction h with
  | refl => exact List.prefix_refl _
  | tail _ hn ih => exact ih.trans hn.log_prefix

/-- A thread keeps its call, and its past only grows; a thread that has ended
    stays as it is. -/
theorem Next.thread (h : Y.Next good c c') {t : ℕ} {th : Thread S ε α γ}
    (hth : c.threads[t]? = some th) :
    ∃ th', c'.threads[t]? = some th' ∧ th'.call = th.call ∧ th.past <+: th'.past ∧
      (th.rest.outcome?.isSome → th' = th) := by
  obtain ⟨l, -, hs⟩ := h
  obtain ⟨a, -, rfl⟩ | ⟨t', ω, a, past, o, k, r, w, -, ht', -, rfl⟩ | ⟨e, w, -, -, rfl⟩ :=
    step_cases hs
  · refine ⟨th, ?_, rfl, List.prefix_refl _, fun _ => rfl⟩
    have hlt := (List.getElem?_eq_some_iff.mp hth).1
    simp only [spawn]
    rw [List.getElem?_append_left hlt, hth]
  · rw [getElem?_answered]
    have hlt : t' < c.threads.length := (List.getElem?_eq_some_iff.mp ht').1
    by_cases heq : t' = t
    · subst heq
      rw [ht'] at hth
      cases hth
      refine ⟨⟨a, past ++ [⟨o, r⟩], k r⟩, ?_, rfl, List.prefix_append _ _, fun hf => ?_⟩
      · rw [if_pos rfl, if_pos hlt]
      · cases hf
    · exact ⟨th, by rw [if_neg heq, hth], rfl, List.prefix_refl _, fun _ => rfl⟩
  · exact ⟨th, hth, rfl, List.prefix_refl _, fun _ => rfl⟩

theorem Next.length_le (h : Y.Next good c c') : c.threads.length ≤ c'.threads.length := by
  obtain ⟨l, -, hs⟩ := h
  obtain ⟨a, -, rfl⟩ | ⟨t, ω, a, past, o, k, r, w, -, -, -, rfl⟩ | ⟨e, w, -, -, rfl⟩ := step_cases hs
  · simp only [spawn, List.length_append, List.length_singleton]
    omega
  · simp only [Config.answered, List.length_set, Nat.le_refl]
  · exact Nat.le_refl _

theorem Later.thread (h : Y.Later good c c') {t : ℕ} {th : Thread S ε α γ}
    (hth : c.threads[t]? = some th) :
    ∃ th', c'.threads[t]? = some th' ∧ th'.call = th.call ∧ th.past <+: th'.past ∧
      (th.rest.outcome?.isSome → th' = th) := by
  induction h with
  | refl => exact ⟨th, hth, rfl, List.prefix_refl _, fun _ => rfl⟩
  | tail _ hn ih =>
      obtain ⟨th₁, hth₁, hcall₁, hpast₁, hend₁⟩ := ih
      obtain ⟨th₂, hth₂, hcall₂, hpast₂, hend₂⟩ := hn.thread hth₁
      refine ⟨th₂, hth₂, hcall₂.trans hcall₁, hpast₁.trans hpast₂, fun hf => ?_⟩
      obtain rfl := hend₁ hf
      exact hend₂ hf

/-- A thread whose operations can be answered in every world can be run to its end. -/
theorem exists_finished {P : S.Op → Prop} (hgood : ∀ c l, good c l)
    (hP : ∀ t o w, P o → ∃ ω r w', Y.exec t o ω w = some (r, w')) {t : ℕ} {th : Thread S ε α γ}
    (hth : c.threads[t]? = some th) (hrest : Prog.Only P th.rest) :
    ∃ c' th', Y.Later good c c' ∧ c'.threads[t]? = some th' ∧ th'.call = th.call ∧
      th'.rest.outcome?.isSome := by
  obtain ⟨a, past, rest⟩ := th
  induction rest generalizing c past with
  | ret x => exact ⟨c, _, .refl, hth, rfl, rfl⟩
  | raise e => exact ⟨c, _, .refl, hth, rfl, rfl⟩
  | await o k ih =>
      obtain ⟨ω, r, w, hx⟩ := hP t o c.world hrest.1
      obtain ⟨c', th', hlater, hth', hcall, hended⟩ :=
        ih r _ (getElem?_answered_self hth) (hrest.2 r)
      exact ⟨c', th', hlater.head ⟨_, hgood _ _, step_resume hth hx⟩, hth', hcall, hended⟩

/-- The rule for the calls that start after `c`. -/
theorem Later.past_invariant {P : γ → List (Act S ε) → Prop} (hnil : ∀ a, P a [])
    (hstep : ∀ c₁ t ω a past o k r w, Y.Later good c c₁ → good c₁ (.resume t ω) →
      c₁.threads[t]? = some ⟨a, past, .await o k⟩ → Y.exec t o ω c₁.world = some (r, w) →
      P a past → P a (past ++ [⟨o, r⟩]))
    (h : Y.Later good c c') {t : ℕ} (ht : c.threads.length ≤ t) {th : Thread S ε α γ}
    (hth : c'.threads[t]? = some th) : P th.call th.past := by
  induction h generalizing th with
  | refl =>
      have hlt := (List.getElem?_eq_some_iff.mp hth).1
      omega
  | tail hl hn ih =>
      obtain ⟨l, hg, hs⟩ := hn
      obtain ⟨a, -, rfl⟩ | ⟨t', ω, a, past, o, k, r, w, rfl, ht', hx, rfl⟩ | ⟨e, w, -, -, rfl⟩ :=
        step_cases hs
      · obtain hth | ⟨-, rfl⟩ := getElem?_spawn hth
        · exact ih hth
        · exact hnil a
      · rw [getElem?_answered] at hth
        split at hth
        · next heq =>
            subst heq
            split at hth
            · cases hth
              exact hstep _ _ ω a past o k r w hl hg ht' hx (ih ht')
            · cases hth
        · exact ih hth
      · exact ih hth

end System

end ZeroAuth.Lib
