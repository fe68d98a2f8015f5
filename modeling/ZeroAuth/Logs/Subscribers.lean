/-
  ZeroAuth.Logs.Subscribers

  The whole log buffer of src/services/log-ring-buffer.ts: `push`, `clear`, `subscribe` and
  the `close` of a subscription, at the top level or from a listener that runs.

  A subscription is known to the emitter by its listener alone, so closing one takes the
  last registration of that listener.  As long as a subscription that is closed already is
  not closed again while another one with the same listener is open
  (`ClosesOwn`), a push calls every listener once for each of its open
  subscriptions; a second `close` takes the registration of the other one
  (`closed_by_other`).
-/

import ZeroAuth.Lib.Dispatch
import ZeroAuth.Lib.Machine
import ZeroAuth.Logs.RingBuffer

namespace ZeroAuth.Logs

open ZeroAuth.Lib ZeroAuth.Js

variable {σ : Type}

/-- An event of the channel `log`: the entry as it was pushed and as it is buffered, and the
    listeners of the subscriptions that were open. -/
structure LogEvent (σ : Type) where
  given : LogEntry
  entry : LogEntry
  subscribers : List σ

/-- What `subscribe` returns; `closed` remembers whether `close` has been called. -/
structure Subscription (σ : Type) where
  listener : σ
  closed : Bool

/-- `pushed` collects what has been pushed since the last `clear`, as it is buffered. -/
structure LogState (σ : Type) where
  ring : LogRingBuffer LogEntry
  emitter : Emitter Unit σ (LogEvent σ)
  subscriptions : List (Subscription σ)
  pushed : List LogEntry

inductive LogStep (σ : Type)
  | push (entry : LogEntry)
  | clear
  | subscribe (listener : σ)
  | close (i : ℕ)
  | call
  | ret
  | finish

namespace LogState

def openListeners (s : LogState σ) : List σ :=
  (s.subscriptions.filter fun x => ! x.closed).map Subscription.listener

def init (capacity : ℕ) (h : 1 ≤ capacity) : LogState σ :=
  ⟨.empty capacity h, .init, [], []⟩

def push (cm : CaseMapping) (s : LogState σ) (entry : LogEntry) : LogState σ :=
  { s with
    ring := s.ring.push (buffered cm entry)
    emitter := s.emitter.emit () ⟨entry, buffered cm entry, s.openListeners⟩
    pushed := s.pushed ++ [buffered cm entry] }

def clear (s : LogState σ) : LogState σ := { s with ring := s.ring.clear, pushed := [] }

def subscribe (s : LogState σ) (listener : σ) : LogState σ :=
  { s with
    emitter := s.emitter.on () listener
    subscriptions := s.subscriptions ++ [⟨listener, false⟩] }

def close [DecidableEq σ] (s : LogState σ) (i : ℕ) : Option (LogState σ) :=
  s.subscriptions[i]?.map fun x =>
    { s with
      emitter := s.emitter.off () x.listener
      subscriptions := s.subscriptions.set i { x with closed := true } }

/-- The operations run at the top level or in a listener. -/
def step [DecidableEq σ] (cm : CaseMapping) (s : LogState σ) : LogStep σ → Option (LogState σ)
  | .push entry => if s.emitter.idle then some (s.push cm entry) else none
  | .clear => if s.emitter.idle then some s.clear else none
  | .subscribe listener => if s.emitter.idle then some (s.subscribe listener) else none
  | .close i => if s.emitter.idle then s.close i else none
  | .call => s.emitter.call.map fun m => { s with emitter := m }
  | .ret => s.emitter.ret.map fun m => { s with emitter := m }
  | .finish => s.emitter.finish.map fun m => { s with emitter := m }

/-- A subscription is not closed again while another one with its listener is open. -/
def ClosesOwn (s : LogState σ) : LogStep σ → Prop
  | .close i => ∀ x ∈ s.subscriptions[i]?, x.closed = true → x.listener ∉ s.openListeners
  | _ => True

end LogState

def logMachine [DecidableEq σ] (cm : CaseMapping) : Machine (LogState σ) (LogStep σ) := ⟨LogState.step cm⟩

/-! ## What holds in every state -/

/-- The event carries its entry, and goes to the listeners once for each open subscription. -/
def Delivered (cm : CaseMapping) (e : LogEvent σ) (audience : List σ) : Prop :=
  e.entry = buffered cm e.given ∧ audience.Perm e.subscribers

structure LogInv (cm : CaseMapping) (capacity : ℕ) (s : LogState σ) : Prop where
  capacity : s.ring.capacity = capacity
  holds : s.ring.Holds s.pushed
  registered : (s.emitter.listenersOf ()).Perm s.openListeners
  delivered : s.emitter.Keeps (Delivered cm)

variable {cm : CaseMapping} {capacity : ℕ} {s s' : LogState σ}

theorem logInv_init (h : 1 ≤ capacity) : LogInv cm capacity (LogState.init capacity h : LogState σ) where
  capacity := rfl
  holds := LogRingBuffer.holds_empty capacity h
  registered := List.Perm.refl _
  delivered := Emitter.keeps_init

theorem LogInv.push (h : LogInv cm capacity s) (entry : LogEntry) :
    LogInv cm capacity (s.push cm entry) where
  capacity := h.capacity
  holds := h.holds.push _
  registered := h.registered
  delivered := h.delivered.emit ⟨rfl, h.registered⟩

theorem LogInv.clear (h : LogInv cm capacity s) : LogInv cm capacity s.clear where
  capacity := h.capacity
  holds := LogRingBuffer.holds_clear _
  registered := h.registered
  delivered := h.delivered

theorem LogInv.subscribe (h : LogInv cm capacity s) (listener : σ) :
    LogInv cm capacity (s.subscribe listener) where
  capacity := h.capacity
  holds := h.holds
  registered := by
    have hl : (s.subscribe listener).emitter.listenersOf () = s.emitter.listenersOf () ++ [listener] := by
      simp [LogState.subscribe, Emitter.on, Emitter.listenersOf]
    have ho : (s.subscribe listener).openListeners = s.openListeners ++ [listener] := by
      simp [LogState.subscribe, LogState.openListeners]
    rw [hl, ho]
    exact h.registered.append_right _
  delivered := h.delivered.on _ _

section Close

variable [DecidableEq σ]

/-- All keys are one, so `off` erases the listener. -/
theorem listenersOf_off (m : Emitter Unit σ (LogEvent σ)) (listener : σ) :
    ((m.off () listener).listenersOf ()).Perm ((m.listenersOf ()).erase listener) := by
  have hall : ∀ l : List (Unit × σ), (l.filter fun x => x.1 = ()) = l :=
    fun l => List.filter_eq_self.mpr fun x _ => decide_eq_true rfl
  have hinj : Function.Injective (Prod.snd : Unit × σ → σ) := by
    rintro ⟨⟨⟩, x⟩ ⟨⟨⟩, y⟩ hxy
    cases hxy
    rfl
  rw [Emitter.listenersOf, Emitter.listenersOf, hall, hall, Emitter.off]
  show ((m.listeners.reverse.erase ((), listener)).reverse.map Prod.snd).Perm _
  have herase := List.map_erase hinj (l := m.listeners) (a := ((), listener))
  rw [← herase]
  apply List.Perm.map
  exact (List.reverse_perm _).trans ((List.reverse_perm m.listeners).erase _)

/-- Closing an open subscription takes its listener off the open ones. -/
theorem openListeners_close {i : ℕ} {x : Subscription σ} (hx : s.subscriptions[i]? = some x)
    (hopen : x.closed = false) :
    ((s.subscriptions.set i { x with closed := true }).filter fun x => ! x.closed).map
      Subscription.listener |>.Perm (s.openListeners.erase x.listener) := by
  obtain ⟨hi, hget⟩ := List.getElem?_eq_some_iff.mp hx
  obtain ⟨before, after, heq, hlen⟩ : ∃ before after,
      s.subscriptions = before ++ x :: after ∧ before.length = i := by
    refine ⟨s.subscriptions.take i, s.subscriptions.drop (i + 1), ?_, by simp; omega⟩
    rw [← hget, ← List.drop_eq_getElem_cons hi, List.take_append_drop]
  have hset : s.subscriptions.set i { x with closed := true } =
      before ++ { x with closed := true } :: after := by
    rw [heq, ← hlen, List.set_append_right _ _ le_rfl, Nat.sub_self, List.set_cons_zero]
  let listeners := fun l : List (Subscription σ) =>
    (l.filter fun x => ! x.closed).map Subscription.listener
  have hleft : listeners (before ++ { x with closed := true } :: after) =
      listeners before ++ listeners after := by simp [listeners]
  have hright : s.openListeners = listeners before ++ x.listener :: listeners after := by
    rw [LogState.openListeners, heq]
    simp [listeners, hopen]
  rw [hset, hright]
  show (listeners _).Perm _
  rw [hleft]
  have hmiddle : (listeners before ++ x.listener :: listeners after).Perm
      (x.listener :: (listeners before ++ listeners after)) := List.perm_middle
  have herase := hmiddle.erase x.listener
  rw [List.erase_cons_head] at herase
  exact herase.symm

theorem LogInv.close (h : LogInv cm capacity s) {i : ℕ} (hg : s.ClosesOwn (.close i))
    (hs : s.close i = some s') : LogInv cm capacity s' := by
  obtain ⟨x, hx, rfl⟩ := Option.map_eq_some_iff.mp hs
  refine ⟨h.capacity, h.holds, ?_, h.delivered.off _ _⟩
  have hoff := (listenersOf_off s.emitter x.listener).trans (h.registered.erase x.listener)
  refine hoff.trans ?_
  by_cases hclosed : x.closed = true
  · -- closed before: neither the registrations nor the open subscriptions change
    have hnot : x.listener ∉ s.openListeners := hg x hx hclosed
    have hsame : s.subscriptions.set i { x with closed := true } = s.subscriptions := by
      obtain ⟨hi, hget⟩ := List.getElem?_eq_some_iff.mp hx
      have hx' : ({ x with closed := true } : Subscription σ) = s.subscriptions[i] := by
        rw [hget, ← hclosed]
      rw [hx', List.set_getElem_self]
    rw [List.erase_of_not_mem hnot]
    show s.openListeners.Perm (((s.subscriptions.set i _).filter _).map _)
    rw [hsame]
    exact List.Perm.refl _
  · exact (openListeners_close hx (by simpa using hclosed)).symm

theorem logInv_step (h : LogInv cm capacity s) {l : LogStep σ} (hg : s.ClosesOwn l)
    (hs : (logMachine cm).step s l = some s') : LogInv cm capacity s' := by
  cases l with
  | push entry =>
      obtain ⟨-, hs⟩ := Option.ite_none_right_eq_some.mp hs
      cases hs
      exact h.push entry
  | clear =>
      obtain ⟨-, hs⟩ := Option.ite_none_right_eq_some.mp hs
      cases hs
      exact h.clear
  | subscribe listener =>
      obtain ⟨-, hs⟩ := Option.ite_none_right_eq_some.mp hs
      cases hs
      exact h.subscribe listener
  | close i =>
      obtain ⟨-, hs⟩ := Option.ite_none_right_eq_some.mp hs
      exact h.close hg hs
  | call =>
      obtain ⟨m, hm, rfl⟩ := Option.map_eq_some_iff.mp hs
      obtain ⟨e, called, x, rest, ds, -, hm'⟩ := Emitter.call_cases hm
      exact ⟨h.capacity, h.holds, hm' ▸ h.registered, h.delivered.call hm⟩
  | ret =>
      obtain ⟨m, hm, rfl⟩ := Option.map_eq_some_iff.mp hs
      obtain ⟨e, called, rest, ds, -, hm'⟩ := Emitter.ret_cases hm
      exact ⟨h.capacity, h.holds, hm' ▸ h.registered, h.delivered.ret hm⟩
  | finish =>
      obtain ⟨m, hm, rfl⟩ := Option.map_eq_some_iff.mp hs
      obtain ⟨e, called, ds, -, hm'⟩ := Emitter.finish_cases hm
      exact ⟨h.capacity, h.holds, hm' ▸ h.registered, h.delivered.finish hm⟩

/-- What can be read off the buffer, and what a push that has returned has delivered. -/
theorem buffer_is_last_lines (h1 : 1 ≤ capacity)
    (hrun : (logMachine cm).Later LogState.ClosesOwn (LogState.init capacity h1 : LogState σ) s) :
    s.ring.size = min capacity s.pushed.length ∧
    (∀ n : ℤ, s.ring.tail n = (s.pushed.rtake (min n.toNat s.ring.size)).map some) ∧
    ∀ x ∈ s.emitter.finished, x.1.entry = buffered cm x.1.given ∧
      ∀ listener, x.2.count listener = x.1.subscribers.count listener := by
  have h : LogInv cm capacity s :=
    hrun.invariant (fun _ _ _ h hg hs => logInv_step h hg hs) (logInv_init h1)
  refine ⟨?_, h.holds.tail, fun x hx => ?_⟩
  · rw [← h.capacity]
    exact h.holds.size
  · obtain ⟨hentry, hperm⟩ := h.delivered.ended x hx
    exact ⟨hentry, fun listener => hperm.count_eq listener⟩

end Close

/-- The step closes no subscription that is closed already. -/
def closesOpen (s : LogState σ) : LogStep σ → Bool
  | .close i => s.subscriptions[i]?.all fun x => ! x.closed
  | _ => true

theorem closesOwn_of_closesOpen (s : LogState σ) (l : LogStep σ) (h : closesOpen s l = true) :
    s.ClosesOwn l := by
  cases l with
  | close i =>
      intro x hx hclosed
      rw [closesOpen, Option.mem_def.mp hx, Option.all_some, hclosed] at h
      cases h
  | _ => trivial

def sampleEntry : LogEntry := ⟨js "2026-01-01T00:00:00.000Z", js "info", js "started", none⟩

def notedEntry (message : JsString) : LogEntry := { sampleEntry with message := message }

/-- Three listeners, two of them the same.  The first one logs an entry while the first entry
    is delivered, and its subscription is closed while the last one is. -/
def nestedPush : List (LogStep ℕ) :=
  [.subscribe 7, .subscribe 7, .subscribe 8,
    .push sampleEntry, .call,
      .push (notedEntry (js "seen")), .call, .ret, .call, .ret, .call, .ret, .finish,
    .ret, .call, .ret, .call, .ret, .finish,
    .push (notedEntry (js "stopped")), .call, .close 0, .ret, .call, .ret, .call, .ret, .finish]

theorem buffer_is_last_lines_nested : ∃ s : LogState ℕ,
    s.pushed = [sampleEntry, notedEntry (js "seen"), notedEntry (js "stopped")].map
      (buffered .ascii) ∧
    s.emitter.finished.map (fun x => (x.1.subscribers, x.2)) =
      [([7, 7, 8], [7, 7, 8]), ([7, 7, 8], [7, 7, 8]), ([7, 7, 8], [7, 7, 8])] ∧
      (s.ring.size = min 2 s.pushed.length ∧
      (∀ n : ℤ, s.ring.tail n = (s.pushed.rtake (min n.toNat s.ring.size)).map some) ∧
      ∀ x ∈ s.emitter.finished, x.1.entry = buffered .ascii x.1.given ∧
        ∀ listener, x.2.count listener = x.1.subscribers.count listener) := by
  have hrun : ∃ s, (logMachine .ascii).runChecked closesOpen (LogState.init 2 (by decide))
      nestedPush = some s ∧
      s.pushed = [sampleEntry, notedEntry (js "seen"), notedEntry (js "stopped")].map
        (buffered .ascii) ∧
      s.emitter.finished.map (fun x => (x.1.subscribers, x.2)) =
        [([7, 7, 8], [7, 7, 8]), ([7, 7, 8], [7, 7, 8]), ([7, 7, 8], [7, 7, 8])] :=
    ⟨_, rfl, rfl, rfl⟩
  obtain ⟨s, hrun, hpushed, hfinished⟩ := hrun
  have hlater := Machine.later_of_runChecked closesOwn_of_closesOpen hrun
  exact ⟨s, hpushed, hfinished, buffer_is_last_lines (by decide) hlater⟩

/-! ## Closing a subscription twice -/

/-- Two subscriptions with one listener; the first one is closed twice, then an entry is pushed. -/
def closedTwice : List (LogStep ℕ) :=
  [.subscribe 7, .subscribe 7, .close 0, .close 0, .push sampleEntry, .finish]

/-- The second subscription is open when the entry is pushed, and its listener is not called. -/
theorem closed_by_other : ∃ s : LogState ℕ,
    (logMachine .ascii).run (LogState.init 1000 (by decide)) closedTwice = some s ∧
      ∃ x ∈ s.emitter.finished, x.1.subscribers = [7] ∧ x.2 = [] :=
  ⟨_, rfl, _, List.mem_singleton_self _, rfl, rfl⟩

end ZeroAuth.Logs
