/-
  ZeroAuth.Lib.Dispatch

  Synchronous dispatch of events to listeners that may do anything while they run.

  An event goes to the listeners that are registered when it is emitted: a copy of the
  list is walked from its head, one call after the other.  While a listener runs
  it may register and remove listeners and emit events, whose deliveries are then
  nested in its own.  When it returns the walk goes on; when it throws the rest of
  the list is not called.

  The rule of the library: what holds of an event and of the listeners it is
  emitted to holds of the event and of the listeners that have been called when
  its delivery is over (`Keeps.finish`).
-/

import Mathlib.Data.List.Basic
import Mathlib.Data.List.Nodup

namespace ZeroAuth.Lib

/-- An event on its way: the listeners that have been called, the last of which may still be
    running, and those to come. -/
structure Delivery (σ ε : Type) where
  event : ε
  called : List σ
  running : Bool
  rest : List σ

/-- All the listeners that the event goes to. -/
def Delivery.audience {σ ε : Type} (d : Delivery σ ε) : List σ := d.called ++ d.rest

/-- Listeners by key, the deliveries that are under way (the innermost first), and those that
    are over, each with the listeners that were called. -/
structure Emitter (κ σ ε : Type) where
  listeners : List (κ × σ)
  deliveries : List (Delivery σ ε)
  finished : List (ε × List σ)

namespace Emitter

variable {κ σ ε : Type}

def init : Emitter κ σ ε := ⟨[], [], []⟩

/-- Code other than the walk over the listeners may run: no delivery is under way, or the
    innermost one has a listener running. -/
def idle (m : Emitter κ σ ε) : Bool :=
  match m.deliveries with
  | [] => true
  | d :: _ => d.running

def listenersOf [DecidableEq κ] (m : Emitter κ σ ε) (k : κ) : List σ :=
  (m.listeners.filter fun x => x.1 = k).map Prod.snd

def on (m : Emitter κ σ ε) (k : κ) (s : σ) : Emitter κ σ ε :=
  { m with listeners := m.listeners ++ [(k, s)] }

/-- The last registration of the listener goes. -/
def off [DecidableEq κ] [DecidableEq σ] (m : Emitter κ σ ε) (k : κ) (s : σ) : Emitter κ σ ε :=
  { m with listeners := (m.listeners.reverse.erase (k, s)).reverse }

def emit [DecidableEq κ] (m : Emitter κ σ ε) (k : κ) (e : ε) : Emitter κ σ ε :=
  { m with deliveries := ⟨e, [], false, m.listenersOf k⟩ :: m.deliveries }

/-- The walk calls the next listener. -/
def call (m : Emitter κ σ ε) : Option (Emitter κ σ ε) :=
  match m.deliveries with
  | ⟨e, called, false, s :: rest⟩ :: ds =>
      some { m with deliveries := ⟨e, called ++ [s], true, rest⟩ :: ds }
  | _ => none

/-- The listener that runs returns. -/
def ret (m : Emitter κ σ ε) : Option (Emitter κ σ ε) :=
  match m.deliveries with
  | ⟨e, called, true, rest⟩ :: ds =>
      some { m with deliveries := ⟨e, called, false, rest⟩ :: ds }
  | _ => none

/-- The listener that runs throws, which ends the walk. -/
def throws (m : Emitter κ σ ε) : Option (Emitter κ σ ε) :=
  match m.deliveries with
  | ⟨e, called, true, _⟩ :: ds =>
      some { m with deliveries := ⟨e, called, false, []⟩ :: ds }
  | _ => none

/-- The walk is over. -/
def finish (m : Emitter κ σ ε) : Option (Emitter κ σ ε) :=
  match m.deliveries with
  | ⟨e, called, false, []⟩ :: ds =>
      some { m with deliveries := ds, finished := m.finished ++ [(e, called)] }
  | _ => none

/-! ## Listeners that are registered once -/

section Registered

variable {m : Emitter κ σ ε} {k : κ} {s : σ}

theorem nodup_on (h : m.listeners.Nodup) (hnew : (k, s) ∉ m.listeners) :
    (m.on k s).listeners.Nodup := by
  show (m.listeners ++ [(k, s)]).Nodup
  rw [List.nodup_append]
  refine ⟨h, List.nodup_singleton _, fun x hx y hy => ?_⟩
  rw [List.mem_singleton.mp hy]
  exact fun heq => hnew (heq ▸ hx)

theorem mem_on {x : κ × σ} : x ∈ (m.on k s).listeners ↔ x ∈ m.listeners ∨ x = (k, s) := by
  show x ∈ m.listeners ++ [(k, s)] ↔ _
  rw [List.mem_append, List.mem_singleton]

variable [DecidableEq κ]

theorem mem_listenersOf : s ∈ m.listenersOf k ↔ (k, s) ∈ m.listeners := by
  unfold listenersOf
  rw [List.mem_map]
  constructor
  · rintro ⟨⟨k', s'⟩, hx, rfl⟩
    obtain ⟨hx, hk⟩ := List.mem_filter.mp hx
    rwa [show k' = k from of_decide_eq_true hk] at hx
  · exact fun hx => ⟨(k, s), List.mem_filter.mpr ⟨hx, decide_eq_true rfl⟩, rfl⟩

theorem nodup_listenersOf (h : m.listeners.Nodup) : (m.listenersOf k).Nodup := by
  apply List.Nodup.map_on
  · rintro ⟨k₁, s₁⟩ hx ⟨k₂, s₂⟩ hy heq
    have hk₁ : k₁ = k := of_decide_eq_true (List.mem_filter.mp hx).2
    have hk₂ : k₂ = k := of_decide_eq_true (List.mem_filter.mp hy).2
    rw [hk₁, hk₂, show s₁ = s₂ from heq]
  · exact h.filter _

variable [DecidableEq σ]

theorem nodup_off (h : m.listeners.Nodup) : (m.off k s).listeners.Nodup :=
  List.nodup_reverse.mpr ((List.nodup_reverse.mpr h).erase _)

theorem mem_off (h : m.listeners.Nodup) {x : κ × σ} :
    x ∈ (m.off k s).listeners ↔ x ∈ m.listeners ∧ x ≠ (k, s) := by
  show x ∈ (m.listeners.reverse.erase (k, s)).reverse ↔ _
  rw [List.mem_reverse, (List.nodup_reverse.mpr h).mem_erase_iff, List.mem_reverse, and_comm]

end Registered

/-! ## The calls of one listener -/

/-- Among events with the listeners that were called, once each, a listener's calls are the
    events that have it. -/
theorem calls_of_listener [DecidableEq σ] {l : List (ε × List σ)} (h : ∀ x ∈ l, x.2.Nodup)
    (s : σ) : ((l.flatMap fun x => x.2.map fun s' => (s', x.1)).filter fun y => y.1 = s).map
      Prod.snd = (l.filter fun x => s ∈ x.2).map Prod.fst := by
  induction l with
  | nil => rfl
  | cons x l ih =>
      have hx : x.2.Nodup := h x List.mem_cons_self
      have hown : (x.2.filter fun s' => s' = s) = if s ∈ x.2 then [s] else [] := by
        rw [List.filter_eq, hx.count]
        split <;> rfl
      rw [List.flatMap_cons, List.filter_append, List.map_append,
        ih fun y hy => h y (List.mem_cons_of_mem _ hy), List.filter_cons, List.filter_map,
        List.map_map]
      show (x.2.filter fun s' => s' = s).map (fun _ => x.1) ++ _ = _
      rw [hown]
      by_cases hs : s ∈ x.2
      · rw [if_pos hs, if_pos (decide_eq_true hs)]
        rfl
      · rw [if_neg hs, if_neg fun hd => hs (of_decide_eq_true hd)]
        rfl

/-! ## The audience of an event -/

/-- Every event satisfies `P` with its audience. -/
structure Keeps (P : ε → List σ → Prop) (m : Emitter κ σ ε) : Prop where
  underWay : ∀ d ∈ m.deliveries, P d.event d.audience
  ended : ∀ x ∈ m.finished, P x.1 x.2

variable {P : ε → List σ → Prop} {m m' : Emitter κ σ ε}

theorem keeps_init : Keeps P (init : Emitter κ σ ε) where
  underWay _ hd := nomatch hd
  ended _ hx := nomatch hx

theorem Keeps.mono {Q : ε → List σ → Prop} (h : Keeps P m) (hPQ : ∀ e l, P e l → Q e l) :
    Keeps Q m :=
  ⟨fun d hd => hPQ _ _ (h.underWay d hd), fun x hx => hPQ _ _ (h.ended x hx)⟩

theorem Keeps.on (h : Keeps P m) (k : κ) (s : σ) : Keeps P (m.on k s) := ⟨h.underWay, h.ended⟩

theorem Keeps.off [DecidableEq κ] [DecidableEq σ] (h : Keeps P m) (k : κ) (s : σ) :
    Keeps P (m.off k s) :=
  ⟨h.underWay, h.ended⟩

theorem Keeps.emit [DecidableEq κ] (h : Keeps P m) {k : κ} {e : ε} (he : P e (m.listenersOf k)) :
    Keeps P (m.emit k e) where
  underWay d hd := by
    rcases List.mem_cons.mp hd with rfl | hd
    · exact he
    · exact h.underWay d hd
  ended := h.ended

/-- Everything that `call` can do. -/
theorem call_cases (hc : m.call = some m') : ∃ e called s rest ds,
    m.deliveries = ⟨e, called, false, s :: rest⟩ :: ds ∧
      m' = { m with deliveries := ⟨e, called ++ [s], true, rest⟩ :: ds } := by
  unfold call at hc
  split at hc
  · next e called s rest ds hds =>
      injection hc with hc
      exact ⟨e, called, s, rest, ds, hds, hc.symm⟩
  · cases hc

theorem ret_cases (hc : m.ret = some m') : ∃ e called rest ds,
    m.deliveries = ⟨e, called, true, rest⟩ :: ds ∧
      m' = { m with deliveries := ⟨e, called, false, rest⟩ :: ds } := by
  unfold ret at hc
  split at hc
  · next e called rest ds hds =>
      injection hc with hc
      exact ⟨e, called, rest, ds, hds, hc.symm⟩
  · cases hc

theorem finish_cases (hc : m.finish = some m') : ∃ e called ds,
    m.deliveries = ⟨e, called, false, []⟩ :: ds ∧
      m' = { m with deliveries := ds, finished := m.finished ++ [(e, called)] } := by
  unfold finish at hc
  split at hc
  · next e called ds hds =>
      injection hc with hc
      exact ⟨e, called, ds, hds, hc.symm⟩
  · cases hc

theorem Keeps.call (h : Keeps P m) (hc : m.call = some m') : Keeps P m' := by
  obtain ⟨e, called, s, rest, ds, hds, rfl⟩ := call_cases hc
  refine ⟨fun d hd => ?_, h.ended⟩
  rcases List.mem_cons.mp hd with rfl | hd
  · -- the next listener moves from one part of the audience to the other
    have hd := h.underWay ⟨e, called, false, s :: rest⟩ (hds ▸ List.mem_cons_self)
    simpa [Delivery.audience] using hd
  · exact h.underWay d (hds ▸ List.mem_cons_of_mem _ hd)

theorem Keeps.ret (h : Keeps P m) (hc : m.ret = some m') : Keeps P m' := by
  obtain ⟨e, called, rest, ds, hds, rfl⟩ := ret_cases hc
  refine ⟨fun d hd => ?_, h.ended⟩
  rcases List.mem_cons.mp hd with rfl | hd
  · exact h.underWay ⟨e, called, true, rest⟩ (hds ▸ List.mem_cons_self)
  · exact h.underWay d (hds ▸ List.mem_cons_of_mem _ hd)

theorem Keeps.finish (h : Keeps P m) (hc : m.finish = some m') : Keeps P m' := by
  obtain ⟨e, called, ds, hds, rfl⟩ := finish_cases hc
  refine ⟨fun d hd => h.underWay d (hds ▸ List.mem_cons_of_mem _ hd), fun x hx => ?_⟩
  rcases List.mem_append.mp hx with hx | hx
  · exact h.ended x hx
  · cases List.mem_singleton.mp hx
    have hd := h.underWay ⟨e, called, false, []⟩ (hds ▸ List.mem_cons_self)
    rwa [Delivery.audience, List.append_nil] at hd

end Emitter

end ZeroAuth.Lib
