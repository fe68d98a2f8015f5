/-
  ZeroAuth.Android.WebViewCalls

  What a `generate` call of WebViewMobileProver gets, over every interleaving of callers, main
  looper, page, timeouts and cancellations.

  Three things go wrong in the code: a message of an earlier run meets a later call
  (`stale_result`), the catch block of a TIMEOUT clears the slots after `pending` has been
  released, and the catch block of the start runnable releases `pending` before the call has
  left.  In the runs without them (`Orderly`) each call has its own proof and its own slots
  (`calls_served`).
-/

import ZeroAuth.Android.WebViewProver

namespace ZeroAuth.Android

namespace WebViewMobileProver

open ZeroAuth.Lib ZeroAuth.Js

variable {ρ : Type}

/-! ## The property -/

/-- The steps of `k` alone bring a call to its end: fewer are left after each. -/
def Phase.left : Phase ρ → ℕ
  | entering => 7
  | holding => 6
  | suspended => 5
  | resumed _ | aborted => 4
  | leaving _ => 3
  | clearingFlight => 2
  | clearingQueued => 1
  | ended _ => 0

/-- Each call has its own proof, progress and slots, and comes to an end. -/
structure Served (s : State ρ) : Prop where
  own : ∀ k call out, s.calls k = some call → call.phase = .ended (.returned out) →
    out.run = k ∧ out.did = call.did
  progressed : ∀ x ∈ s.progressed, x.1 = x.2
  cleared : ∀ x ∈ s.cleared, x.1 = x.2
  busy : s.pending = true → ∃ j, s.inside j = true
  ends : ∀ k call, s.calls k = some call → 0 < call.phase.left → call.deadline ≤ s.clock →
    ∃ l ∈ [Step.run k, .timeout k], ∃ s' call', step s l = some s' ∧ s'.calls k = some call' ∧
      call'.phase.left < call.phase.left
  kept : ∀ l s' k call, step s l = some s' → s.calls k = some call →
    ∃ call', s'.calls k = some call' ∧ call'.deadline = call.deadline ∧
      call'.phase.left ≤ call.phase.left
  cancelled : ∀ k call, s.calls k = some call → call.phase = .ended .cancelled →
    call.cause = some .cancellation

/-- No call takes `pending` while another is inside; the catch block of a TIMEOUT runs while no
    call that is inside has a slot; a progress or result message that meets a call is about
    its own payload. -/
def Orderly (s : State ρ) : Step ρ → Prop
  | .run k => ∀ call, s.calls k = some call → match call.phase with
      | .entering => s.pending = false → ∀ j, s.inside j = false
      | .clearingFlight => ∀ j, s.inFlight.map Prod.fst = some j → s.inside j = false
      | .clearingQueued => ∀ j, s.queuedPayload = some j → s.inside j = false
      | _ => True
  | .main _ => s.current = [] → ∀ m queue, s.queue = .dispatch m :: queue →
      ∀ flight, s.inFlight = some flight → match m with
        | .progress run _ => run = flight.1
        | .result run _ => s.suspended flight.1 = true → run = flight.1
        | _ => True
  | _ => True

/-! ## Whose actions are where -/

def Action.call? : Action ρ → Option ℕ
  | ensureWebView k | setFlight k | setQueued k | load k | release k => some k
  | clearFlight owner | clearQueued owner => owner
  | _ => none

def Runnable.call? : Runnable ρ → Option ℕ
  | start k | clear k => some k
  | _ => none

/-- A slot holds the call, or an action for it is under way. -/
def State.Near (s : State ρ) (j : ℕ) : Prop :=
  s.inFlight.map Prod.fst = some j ∨ s.queuedPayload = some j ∨ ∃ a ∈ s.current, a.call? = some j

/-- No action for another call is under way or waits. -/
structure State.Only (s : State ρ) (j : ℕ) : Prop where
  current : ∀ a ∈ s.current, ∀ k, a.call? = some k → k = j
  queue : ∀ r ∈ s.queue, ∀ k, r.call? = some k → k = j

/-- The call has not taken `pending` yet. -/
def State.untouched (s : State ρ) (k : ℕ) : Bool :=
  (s.calls k).all fun call => match call.phase with
    | .entering => true
    | _ => false

/-- Behind a runnable for a call that is inside, none for another call waits. -/
def State.InOrder (s : State ρ) (queue : List (Runnable ρ)) : Prop :=
  queue.Pairwise fun r r' => ∀ j, s.inside j = true → r.call? = some j →
    ∀ k, r'.call? = some k → k = j

structure Slots (s : State ρ) : Prop where
  unmade : ∀ k, s.made ≤ k → s.calls k = none
  pending : s.pending = true → ∃ j, s.inside j = true
  single : ∀ i j, s.inside i = true → s.inside j = true → i = j
  fresh : ∀ k, s.untouched k = true → ¬ s.Near k ∧ ∀ r ∈ s.queue, r.call? ≠ some k
  near : ∀ j, s.inside j = true → s.Near j → s.Only j
  order : s.InOrder s.queue
  cleared : ∀ x ∈ s.cleared, x.1 = x.2

theorem slots_initial (ρ : Type) : Slots (State.initial ρ) where
  unmade _ _ := rfl
  pending h := nomatch h
  single _ _ h := nomatch h
  fresh := by
    refine fun k _ => ⟨?_, fun r hr => nomatch hr⟩
    rintro (h | h | ⟨a, ha, -⟩)
    · cases h
    · cases h
    · cases ha
  near _ h := nomatch h
  order := List.Pairwise.nil
  cleared _ hx := nomatch hx

section Frame

variable {s s' : State ρ}

theorem State.InOrder.mono {queue : List (Runnable ρ)} (h : s.InOrder queue)
    (hinside : ∀ j, s'.inside j = true → s.inside j = true) : s'.InOrder queue :=
  h.imp fun hr j hj => hr j (hinside j hj)

/-- The callers have moved on, the looper has not. -/
theorem Slots.of_calls (h : Slots s) (hunmade : ∀ k, s'.made ≤ k → s'.calls k = none)
    (hflight : s'.inFlight = s.inFlight) (hqueued : s'.queuedPayload = s.queuedPayload)
    (hcurrent : s'.current = s.current) (hqueue : s'.queue = s.queue)
    (hcleared : s'.cleared = s.cleared)
    (hpending : s'.pending = true → ∃ j, s'.inside j = true)
    (hinside : ∀ j, s'.inside j = true → s.inside j = true)
    (huntouched : ∀ k, s'.untouched k = true → s.untouched k = true) : Slots s' := by
  have hnear : ∀ j, s'.Near j ↔ s.Near j := by
    intro j
    unfold State.Near
    rw [hflight, hqueued, hcurrent]
  refine ⟨hunmade, hpending, fun i j hi hj => h.single i j (hinside i hi) (hinside j hj),
    fun k hk => ?_, fun j hj hn => ?_, ?_, ?_⟩
  · rw [hnear, hqueue]
    exact h.fresh k (huntouched k hk)
  · obtain ⟨hcurrent', hqueue'⟩ := h.near j (hinside j hj) ((hnear j).mp hn)
    exact ⟨hcurrent ▸ hcurrent', hqueue ▸ hqueue'⟩
  · rw [hqueue]
    exact h.order.mono hinside
  · rw [hcleared]
    exact h.cleared

end Frame

/-! ## Steps of the callers -/

section Callers

variable {s : State ρ} {k : ℕ} {call : Call ρ}

theorem setPhase_eq (hc : s.calls k = some call) (phase : Phase ρ) :
    s.setPhase k phase = s.setCall k { call with phase := phase } := by
  rw [State.setPhase, hc]

theorem setCall_calls (s : State ρ) (k : ℕ) (call : Call ρ) (j : ℕ) :
    (s.setCall k call).calls j = if j = k then some call else s.calls j := by
  show Function.update s.calls k (some call) j = _
  rw [Function.update_apply]

theorem setCall_inside (s : State ρ) (k : ℕ) (call : Call ρ) (j : ℕ) :
    (s.setCall k call).inside j = if j = k then call.phase.inside else s.inside j := by
  rw [State.inside, setCall_calls]
  split <;> rfl

theorem setCall_untouched_of_ne {j : ℕ} (hne : j ≠ k) :
    (s.setCall k call).untouched j = s.untouched j := by
  rw [State.untouched, setCall_calls, if_neg hne, State.untouched]

theorem inside_eq (hc : s.calls k = some call) : s.inside k = call.phase.inside := by
  rw [State.inside, hc]
  rfl

theorem not_untouched_of_inside (h : s.inside k = true) : s.untouched k = false := by
  unfold State.inside at h
  unfold State.untouched
  cases hc : s.calls k with
  | none =>
      rw [hc] at h
      cases h
  | some call =>
      rw [hc] at h
      show (match call.phase with
        | .entering => true
        | _ => false) = false
      have hphase : call.phase.inside = true := h
      split
      · next he =>
          rw [he] at hphase
          cases hphase
      · rfl

/-- A call has been made once it is anywhere. -/
theorem Slots.unmade_setCall (h : Slots s) (hc : s.calls k = some call) (call' : Call ρ) :
    ∀ j, (s.setCall k call').made ≤ j → (s.setCall k call').calls j = none := by
  intro j hj
  rw [setCall_calls]
  split
  · next heq =>
      subst heq
      have hnone := h.unmade j hj
      rw [hc] at hnone
      cases hnone
  · exact h.unmade j hj

/-- A call moves on inside, or outside. -/
theorem Slots.setCall (h : Slots s) (hc : s.calls k = some call) {call' : Call ρ}
    (hinside : call'.phase.inside = call.phase.inside)
    (huntouched : (s.setCall k call').untouched k = true → s.untouched k = true) :
    Slots (s.setCall k call') := by
  have hsame : ∀ j, (s.setCall k call').inside j = s.inside j := by
    intro j
    rw [setCall_inside]
    split
    · next heq =>
        subst heq
        rw [hinside, inside_eq hc]
    · rfl
  refine h.of_calls (h.unmade_setCall hc call') rfl rfl rfl rfl rfl (fun hp => ?_)
    (fun j hj => (hsame j) ▸ hj) fun j hj => ?_
  · obtain ⟨j, hj⟩ := h.pending hp
    exact ⟨j, (hsame j).trans hj⟩
  · by_cases hne : j = k
    · subst hne
      exact huntouched hj
    · rwa [setCall_untouched_of_ne hne] at hj

/-- Calls that are inside post their runnables; the page and `destroy` post others. -/
theorem Slots.enqueue (h : Slots s) {rs : List (Runnable ρ)}
    (hrs : ∀ r ∈ rs, ∀ k, r.call? = some k → s.inside k = true) :
    Slots { s with queue := s.queue ++ rs } := by
  refine ⟨h.unmade, h.pending, h.single, fun k hk => ⟨(h.fresh k hk).1, fun r hr heq => ?_⟩,
    fun j hj hn => ⟨(h.near j hj hn).current, fun r hr k hcall => ?_⟩, ?_, h.cleared⟩
  · rcases List.mem_append.mp hr with hr | hr
    · exact (h.fresh k hk).2 r hr heq
    · have huntouched : s.untouched k = false := not_untouched_of_inside (hrs r hr k heq)
      exact Bool.false_ne_true (huntouched.symm.trans hk)
  · rcases List.mem_append.mp hr with hr | hr
    · exact (h.near j hj hn).queue r hr k hcall
    · exact h.single k j (hrs r hr k hcall) hj
  · refine List.pairwise_append.mpr ⟨h.order, ?_, fun r _ r' hr' j hj _ k hk => ?_⟩
    · refine List.pairwise_of_forall_sublist fun {r r'} hsub j hj _ k hk => ?_
      have hr' : r' ∈ rs := hsub.subset (List.mem_cons_of_mem _ List.mem_cons_self)
      exact h.single k j (hrs r' hr' k hk) hj
    · exact h.single k j (hrs r' hr' k hk) hj

theorem Slots.generate (h : Slots s) (did : JsString) (invalid : Option JsString) :
    Slots (generate s did invalid) := by
  have hnone : s.calls s.made = none := h.unmade _ (le_refl _)
  have hinside : ∀ j, (WebViewMobileProver.generate s did invalid).inside j = s.inside j := by
    intro j
    refine (setCall_inside s s.made ⟨did, _, s.clock + proveTimeoutMs, none⟩ j).trans ?_
    split
    · next heq =>
        subst heq
        rw [State.inside, hnone]
        cases invalid <;> rfl
    · rfl
  refine h.of_calls (fun j hj => ?_) rfl rfl rfl rfl rfl (fun hp => ?_)
    (fun j hj => (hinside j) ▸ hj) fun j hj => ?_
  · have hne : j ≠ s.made := Nat.ne_of_gt hj
    show Function.update s.calls s.made _ j = none
    rw [Function.update_of_ne hne]
    exact h.unmade j (Nat.le_of_succ_le hj)
  · obtain ⟨j, hj⟩ := h.pending hp
    exact ⟨j, (hinside j).trans hj⟩
  · by_cases hne : j = s.made
    · subst hne
      rw [State.untouched, hnone]
      rfl
    · exact (setCall_untouched_of_ne hne).symm.trans hj

/-- A slot is cleared by the call that it may hold. -/
theorem Slots.cleared_noteClear (h : Slots s) {owner slot : Option ℕ}
    (hown : ∀ k j, owner = some k → slot = some j → s.inside j = true → k = j) :
    ∀ x ∈ (s.noteClear owner slot).cleared, x.1 = x.2 := by
  intro x hx
  unfold State.noteClear at hx
  split at hx
  · next k j =>
      split at hx
      · next hj =>
          rcases List.mem_append.mp hx with hx | hx
          · exact h.cleared x hx
          · rw [List.mem_singleton.mp hx]
            exact hown k j rfl rfl hj
      · exact h.cleared x hx
  · exact h.cleared x hx

theorem noteClear_fields (s : State ρ) (owner slot : Option ℕ) :
    ∃ cleared, s.noteClear owner slot = { s with cleared := cleared } := by
  unfold State.noteClear
  split
  · split
    · exact ⟨_, rfl⟩
    · exact ⟨_, rfl⟩
  · exact ⟨_, rfl⟩

/-- Emptying slots, with a sound note of it. -/
theorem Slots.empty (h : Slots s) {inFlight : Option (ℕ × Bool)} {queuedPayload : Option ℕ}
    {cleared : List (ℕ × ℕ)}
    (hflight : ∀ j, inFlight.map Prod.fst = some j → s.inFlight.map Prod.fst = some j)
    (hqueued : ∀ j, queuedPayload = some j → s.queuedPayload = some j)
    (hcleared : ∀ x ∈ cleared, x.1 = x.2) :
    Slots { s with inFlight := inFlight, queuedPayload := queuedPayload, cleared := cleared } := by
  have hnear : ∀ j, State.Near { s with
      inFlight := inFlight, queuedPayload := queuedPayload, cleared := cleared } j → s.Near j := by
    rintro j (hj | hj | hj)
    · exact .inl (hflight j hj)
    · exact .inr (.inl (hqueued j hj))
    · exact .inr (.inr hj)
  exact ⟨h.unmade, h.pending, h.single, fun k hk => ⟨fun hn => (h.fresh k hk).1 (hnear k hn),
    (h.fresh k hk).2⟩, fun j hj hn => ⟨(h.near j hj (hnear j hn)).current,
    (h.near j hj (hnear j hn)).queue⟩, h.order, hcleared⟩

theorem Slots.clearFlight (h : Slots s) {owner : Option ℕ} (hown : ∀ k j, owner = some k →
    s.inFlight.map Prod.fst = some j → s.inside j = true → k = j) : Slots (s.clearFlight owner) := by
  have hcleared := h.cleared_noteClear hown
  obtain ⟨cleared, heq⟩ := noteClear_fields s owner (s.inFlight.map Prod.fst)
  rw [heq] at hcleared
  rw [State.clearFlight, heq]
  exact h.empty (fun _ hj => nomatch hj) (fun _ hj => hj) hcleared

theorem Slots.clearQueued (h : Slots s) {owner : Option ℕ} (hown : ∀ k j, owner = some k →
    s.queuedPayload = some j → s.inside j = true → k = j) : Slots (s.clearQueued owner) := by
  have hcleared := h.cleared_noteClear hown
  obtain ⟨cleared, heq⟩ := noteClear_fields s owner s.queuedPayload
  rw [heq] at hcleared
  rw [State.clearQueued, heq]
  exact h.empty (fun _ hj => hj) (fun _ hj => nomatch hj) hcleared

/-- A call takes `pending` while nobody is inside. -/
theorem Slots.enter (h : Slots s) (hc : s.calls k = some call) (hphase : call.phase = .entering)
    (hnone : ∀ j, s.inside j = false) :
    Slots { s.setCall k { call with phase := .holding } with pending := true } := by
  have huntouched : s.untouched k = true := by
    rw [State.untouched, hc]
    show (match call.phase with
      | .entering => true
      | _ => false) = true
    rw [hphase]
  have hinside : ∀ j, (s.setCall k { call with phase := .holding }).inside j = true → j = k := by
    intro j hj
    rw [setCall_inside] at hj
    split at hj
    · next heq => exact heq
    · rw [hnone j] at hj
      cases hj
  have hk : (s.setCall k { call with phase := .holding }).inside k = true := by
    rw [setCall_inside, if_pos rfl]
    rfl
  obtain ⟨hfar, hqueue⟩ := h.fresh k huntouched
  refine ⟨h.unmade_setCall hc _, fun _ => ⟨k, hk⟩, fun i j hi hj => ?_, fun j hj => ?_,
    fun j hj hn => ?_, ?_, h.cleared⟩
  · rw [hinside i hi, hinside j hj]
  · have hne : j ≠ k := by
      rintro rfl
      have hfalse := not_untouched_of_inside hk
      exact Bool.false_ne_true (hfalse.symm.trans hj)
    exact h.fresh j ((setCall_untouched_of_ne hne).symm.trans hj)
  · -- the call has no slot and no runnable yet
    rw [hinside j hj] at hn
    exact absurd hn hfar
  · refine List.pairwise_of_forall_sublist fun {r r'} hsub j hj hr => ?_
    rw [hinside j hj] at hr
    exact absurd hr (hqueue r (hsub.subset List.mem_cons_self))

/-- The `finally` block. -/
theorem Slots.leave (h : Slots s) (hc : s.calls k = some call) {call' : Call ρ}
    (houtside : call'.phase.inside = false)
    (huntouched : (s.setCall k call').untouched k = true → s.untouched k = true) :
    Slots { s.setCall k call' with pending := false } := by
  refine h.of_calls (h.unmade_setCall hc call') rfl rfl rfl rfl rfl (fun hp => nomatch hp)
    (fun j hj => ?_) fun j hj => ?_
  · have hj' : (s.setCall k call').inside j = true := hj
    rw [setCall_inside] at hj'
    split at hj'
    · rw [houtside] at hj'
      cases hj'
    · exact hj'
  · by_cases hne : j = k
    · subst hne
      exact huntouched hj
    · exact (setCall_untouched_of_ne hne).symm.trans hj

theorem untouched_setCall (s : State ρ) (k : ℕ) (call : Call ρ) :
    (s.setCall k call).untouched k = match call.phase with
      | .entering => true
      | _ => false := by
  rw [State.untouched, setCall_calls, if_pos rfl]
  rfl

theorem clearFlight_calls (s : State ρ) (owner : Option ℕ) :
    (s.clearFlight owner).calls = s.calls := by
  obtain ⟨cleared, heq⟩ := noteClear_fields s owner (s.inFlight.map Prod.fst)
  rw [State.clearFlight, heq]

theorem clearQueued_calls (s : State ρ) (owner : Option ℕ) :
    (s.clearQueued owner).calls = s.calls := by
  obtain ⟨cleared, heq⟩ := noteClear_fields s owner s.queuedPayload
  rw [State.clearQueued, heq]

theorem Slots.runCall {s' : State ρ} (h : Slots s) (hgood : Orderly s (.run k))
    (hc : s.calls k = some call) (hr : runCall s k call = some s') : Slots s' := by
  have hgood := hgood call hc
  obtain ⟨did, phase, deadline, cause⟩ := call
  cases phase with
  | entering =>
      simp only [WebViewMobileProver.runCall] at hr
      split at hr
      · obtain rfl := Option.some.inj hr
        rw [setPhase_eq hc]
        refine h.setCall hc rfl fun hu => ?_
        rw [untouched_setCall] at hu
        cases hu
      · next hpending =>
          obtain rfl := Option.some.inj hr
          rw [setPhase_eq hc]
          exact h.enter hc rfl (hgood (Bool.eq_false_iff.mpr hpending))
  | holding =>
      obtain rfl := Option.some.inj hr
      cases cause with
      | some cause =>
          dsimp only
          rw [setPhase_eq hc]
          have hset : Slots (s.setCall k ⟨did, .aborted, deadline, some cause⟩) := by
            refine h.setCall hc rfl fun hu => ?_
            rw [untouched_setCall] at hu
            cases hu
          refine hset.enqueue fun r hr j hj => ?_
          have hjk : j = k := by
            simp only [List.mem_cons, List.not_mem_nil, or_false] at hr
            rcases hr with rfl | rfl <;> exact (Option.some.inj hj).symm
          rw [hjk, setCall_inside, if_pos rfl]
          rfl
      | none =>
          dsimp only
          rw [setPhase_eq hc]
          have hset : Slots (s.setCall k ⟨did, .suspended, deadline, none⟩) := by
            refine h.setCall hc rfl fun hu => ?_
            rw [untouched_setCall] at hu
            cases hu
          refine hset.enqueue fun r hr j hj => ?_
          rw [List.mem_singleton.mp hr] at hj
          rw [← Option.some.inj hj, setCall_inside, if_pos rfl]
          rfl
  | suspended => cases hr
  | resumed r =>
      obtain rfl := Option.some.inj hr
      rw [setPhase_eq hc]
      -- what the handler posts is for the call that is still inside
      have hpost : Slots { s with
          queue := s.queue ++ if r.isOk && cause.isSome then [.clear k] else [] } := by
        refine h.enqueue fun r' hr' j hj => ?_
        split at hr'
        · rw [List.mem_singleton.mp hr'] at hj
          rw [← Option.some.inj hj, inside_eq hc]
          rfl
        · cases hr'
      refine hpost.leave hc rfl fun hu => ?_
      rw [untouched_setCall] at hu
      cases hu
  | aborted =>
      obtain rfl := Option.some.inj hr
      rw [setPhase_eq hc]
      refine h.leave hc rfl fun hu => ?_
      rw [untouched_setCall] at hu
      cases hu
  | leaving r =>
      have hset : ∀ phase : Phase ρ, phase.inside = false →
          (∀ e : Phase ρ, e = .entering → phase ≠ e) → Slots (s.setPhase k phase) := by
        intro phase hout hne
        rw [setPhase_eq hc]
        refine h.setCall hc hout fun hu => ?_
        rw [untouched_setCall] at hu
        dsimp only at hu
        split at hu
        · exact absurd rfl (hne _ rfl)
        · cases hu
      simp only [WebViewMobileProver.runCall] at hr
      split at hr
      all_goals
        obtain rfl := Option.some.inj hr
        exact hset _ rfl fun e he => by rw [he]; nofun
  | clearingFlight =>
      obtain rfl := Option.some.inj hr
      have hclear : Slots (s.clearFlight (some k)) := h.clearFlight fun _ j _ hj hinside =>
        absurd ((hgood j hj).symm.trans hinside) Bool.false_ne_true
      have hc' : (s.clearFlight (some k)).calls k = some ⟨did, .clearingFlight, deadline, cause⟩ := by
        rw [clearFlight_calls]
        exact hc
      rw [setPhase_eq hc']
      refine hclear.setCall hc' rfl fun hu => ?_
      rw [untouched_setCall] at hu
      cases hu
  | clearingQueued =>
      obtain rfl := Option.some.inj hr
      have hclear : Slots (s.clearQueued (some k)) := h.clearQueued fun _ j _ hj hinside =>
        absurd ((hgood j hj).symm.trans hinside) Bool.false_ne_true
      have hc' : (s.clearQueued (some k)).calls k = some ⟨did, .clearingQueued, deadline, cause⟩ := by
        rw [clearQueued_calls]
        exact hc
      rw [setPhase_eq hc']
      refine hclear.setCall hc' rfl fun hu => ?_
      rw [untouched_setCall] at hu
      cases hu
  | ended o => cases hr

theorem Slots.cancelCall {s' : State ρ} {cause : Cause} (h : Slots s) (hc : s.calls k = some call)
    (hr : cancelCall s k call cause = some s') : Slots s' := by
  unfold WebViewMobileProver.cancelCall at hr
  split at hr
  · next hcause hphase =>
      obtain rfl := Option.some.inj hr
      have hset : Slots (s.setCall k { call with phase := .aborted, cause := some cause }) := by
        refine h.setCall hc ?_ fun hu => ?_
        · rw [hphase]
          rfl
        · rw [untouched_setCall] at hu
          cases hu
      refine hset.enqueue fun r hr j hj => ?_
      rw [List.mem_singleton.mp hr] at hj
      rw [← Option.some.inj hj, setCall_inside, if_pos rfl]
      rfl
  all_goals
    try
      obtain rfl := Option.some.inj hr
      refine h.setCall hc rfl fun hu => ?_
      rw [untouched_setCall] at hu
      rw [State.untouched, hc]
      exact hu
  cases hr

end Callers

/-! ## Steps of the main looper -/

section Looper

variable {s : State ρ}

/-- A runnable has actions for its own call only. -/
theorem call_of_mem_actions {r : Runnable ρ} {a : Action ρ} (ha : a ∈ actions s r) {j : ℕ}
    (hj : a.call? = some j) : r.call? = some j := by
  cases r with
  | start k =>
      simp only [actions, List.mem_cons, List.not_mem_nil, or_false] at ha
      rcases ha with rfl | rfl | rfl | rfl <;> exact hj
  | clear k =>
      simp only [actions, List.mem_cons, List.not_mem_nil, or_false] at ha
      rcases ha with rfl | rfl <;> exact hj
  | destroy =>
      simp only [actions, List.mem_cons, List.not_mem_nil, or_false] at ha
      rcases ha with rfl | rfl | rfl <;> cases hj
  | dispatch m =>
      -- what a message makes the page do names no call
      simp only [actions, dispatch] at ha
      split at ha
      · cases ha
      · cases m with
        | ready =>
            dsimp only at ha
            split at ha
            · cases ha
            · rw [List.mem_singleton.mp ha] at hj
              cases hj
        | progress run percent =>
            rw [List.mem_singleton.mp ha] at hj
            cases hj
        | result run envelope =>
            dsimp only at ha
            split at ha
            · simp only [List.mem_cons, List.not_mem_nil, or_false] at ha
              rcases ha with rfl | rfl <;> cases hj
            · cases ha
        | error code message =>
            dsimp only at ha
            split at ha
            · simp only [List.mem_cons, List.not_mem_nil, or_false] at ha
              rcases ha with rfl | rfl <;> cases hj
            · cases ha

theorem Slots.begin (h : Slots s) {r : Runnable ρ} {queue : List (Runnable ρ)}
    (hq : s.queue = r :: queue) : Slots { s with queue := queue, current := actions s r } := by
  have hr : r ∈ s.queue := hq ▸ List.mem_cons_self
  have htail : ∀ r' ∈ queue, r' ∈ s.queue := fun r' hr' => hq ▸ List.mem_cons_of_mem _ hr'
  have horder := h.order
  rw [hq] at horder
  obtain ⟨hhead, hrest⟩ := List.pairwise_cons.mp horder
  refine ⟨h.unmade, h.pending, h.single, fun k hk => ?_, fun j hj hn => ?_, hrest, h.cleared⟩
  · obtain ⟨hfar, hqueue⟩ := h.fresh k hk
    refine ⟨?_, fun r' hr' => hqueue r' (htail r' hr')⟩
    rintro (hn | hn | ⟨a, ha, hn⟩)
    · exact hfar (.inl hn)
    · exact hfar (.inr (.inl hn))
    · exact hqueue r hr (call_of_mem_actions ha hn)
  · have hcases : s.Near j ∨ r.call? = some j := by
      rcases hn with hn | hn | ⟨a, ha, hn⟩
      · exact .inl (.inl hn)
      · exact .inl (.inr (.inl hn))
      · exact .inr (call_of_mem_actions ha hn)
    rcases hcases with hn | hown
    · obtain ⟨-, hqueue⟩ := h.near j hj hn
      exact ⟨fun a ha k hk => hqueue r hr k (call_of_mem_actions ha hk),
        fun r' hr' => hqueue r' (htail r' hr')⟩
    · -- the queue is in order behind the runnable of a call that is inside
      refine ⟨fun a ha k hk => ?_, fun r' hr' => hhead r' hr' j hj hown⟩
      exact Option.some.inj ((call_of_mem_actions ha hk).symm.trans hown)

/-- The actions that are left are fewer, or those of the catch block of the same call. -/
theorem Slots.withCurrent (h : Slots s) {current : List (Action ρ)}
    (hsub : ∀ a ∈ current, ∀ k, a.call? = some k → ∃ a' ∈ s.current, a'.call? = some k) :
    Slots { s with current := current } := by
  have hnear : ∀ j, State.Near { s with current := current } j → s.Near j := by
    rintro j (hn | hn | ⟨a, ha, hn⟩)
    · exact .inl hn
    · exact .inr (.inl hn)
    · exact .inr (.inr (hsub a ha j hn))
  refine ⟨h.unmade, h.pending, h.single, fun k hk => ?_, fun j hj hn => ?_, h.order, h.cleared⟩
  · exact ⟨fun hn => (h.fresh k hk).1 (hnear k hn), (h.fresh k hk).2⟩
  · obtain ⟨hcurrent, hqueue⟩ := h.near j hj (hnear j hn)
    refine ⟨fun a ha k hk => ?_, hqueue⟩
    obtain ⟨a', ha', hk'⟩ := hsub a ha k hk
    exact hcurrent a' ha' k hk'

theorem call_of_mem_startFailed {k : ℕ} {message : JsString} {a : Action ρ}
    (ha : a ∈ startFailed k message) {j : ℕ} (hj : a.call? = some j) : k = j := by
  simp only [startFailed, List.mem_cons, List.not_mem_nil, or_false] at ha
  rcases ha with rfl | rfl | rfl | rfl
  · exact Option.some.inj hj
  · exact Option.some.inj hj
  · exact Option.some.inj hj
  · cases hj

/-- A slot is given to a call whose runnable is under way. -/
theorem Slots.give (h : Slots s) {k : ℕ} (hnear : s.Near k) {inFlight : Option (ℕ × Bool)}
    {queuedPayload : Option ℕ}
    (hflight : ∀ j, inFlight.map Prod.fst = some j → j = k ∨ s.Near j)
    (hqueued : ∀ j, queuedPayload = some j → j = k ∨ s.Near j) :
    Slots { s with inFlight := inFlight, queuedPayload := queuedPayload } := by
  have hcases : ∀ j, State.Near { s with
      inFlight := inFlight, queuedPayload := queuedPayload } j → s.Near j := by
    rintro j (hn | hn | hn)
    · rcases hflight j hn with rfl | hn
      · exact hnear
      · exact hn
    · rcases hqueued j hn with rfl | hn
      · exact hnear
      · exact hn
    · exact .inr (.inr hn)
  exact ⟨h.unmade, h.pending, h.single, fun j hj => ⟨fun hn => (h.fresh j hj).1 (hcases j hn),
    (h.fresh j hj).2⟩, fun j hj hn => ⟨(h.near j hj (hcases j hn)).current,
    (h.near j hj (hcases j hn)).queue⟩, h.order, h.cleared⟩

theorem suspended_cases {k : ℕ} (h : s.suspended k = true) :
    ∃ call, s.calls k = some call ∧ call.phase = .suspended := by
  obtain ⟨call, hc, hphase⟩ := (Option.any_eq_true _ _).mp h
  refine ⟨call, hc, ?_⟩
  split at hphase
  · next heq => exact heq
  · cases hphase

/-- Fields that no slot depends on. -/
theorem Slots.of_eq (h : Slots s) {s' : State ρ} (hmade : s'.made = s.made)
    (hcalls : s'.calls = s.calls) (hpending : s'.pending = true → s.pending = true)
    (hflight : s'.inFlight = s.inFlight) (hqueued : s'.queuedPayload = s.queuedPayload)
    (hcurrent : s'.current = s.current) (hqueue : s'.queue = s.queue)
    (hcleared : s'.cleared = s.cleared) : Slots s' := by
  have hinside : ∀ j, s'.inside j = s.inside j := by
    intro j
    rw [State.inside, State.inside, hcalls]
  refine h.of_calls (fun k hk => ?_) hflight hqueued hcurrent hqueue hcleared (fun hp => ?_)
    (fun j hj => (hinside j) ▸ hj) fun k hk => ?_
  · rw [hcalls]
    exact h.unmade k (hmade ▸ hk)
  · obtain ⟨j, hj⟩ := h.pending (hpending hp)
    exact ⟨j, (hinside j).trans hj⟩
  · rw [State.untouched, hcalls] at hk
    exact hk

theorem Slots.act (h : Slots s) {a : Action ρ} {current : List (Action ρ)}
    (ha : s.current = a :: current) (failure : Option JsString) :
    Slots (act { s with current := current } failure a) := by
  have hmem : a ∈ s.current := ha ▸ List.mem_cons_self
  have htail : ∀ a' ∈ current, ∀ k, a'.call? = some k → ∃ a'' ∈ s.current, a''.call? = some k :=
    fun a' ha' k hk => ⟨a', ha ▸ List.mem_cons_of_mem _ ha', hk⟩
  -- the action is taken off the list, which brings no call nearer to the slots
  have hdrop : Slots { s with current := current } := h.withCurrent htail
  -- what fails while a call starts is replaced by the clean-up of that call
  have hfailed : ∀ k message, a.call? = some k →
      Slots { s with current := startFailed k message } := by
    intro k message hk
    refine h.withCurrent fun a' ha' j hj => ⟨a, hmem, ?_⟩
    rw [hk, call_of_mem_startFailed ha' hj]
  cases a with
  | ensureWebView k =>
      cases failure with
      | some message => exact hfailed k message rfl
      | none => exact hdrop.of_eq rfl rfl id rfl rfl rfl rfl rfl
  | load k =>
      cases failure with
      | some message => exact hfailed k message rfl
      | none => exact hdrop
  | setFlight k =>
      -- the action under way is the call's own, so it may take the slot
      have hnear : s.Near k := .inr (.inr ⟨_, hmem, rfl⟩)
      have hgive : Slots { s with inFlight := some (k, false), queuedPayload := s.queuedPayload } :=
        h.give hnear (fun j hj => .inl (Option.some.inj hj).symm) fun j hj => .inr (.inr (.inl hj))
      exact hgive.withCurrent htail
  | setQueued k =>
      have hnear : s.Near k := .inr (.inr ⟨_, hmem, rfl⟩)
      have hgive : Slots { s with inFlight := s.inFlight, queuedPayload := some k } :=
        h.give hnear (fun j hj => .inr (.inl hj)) fun j hj => .inl (Option.some.inj hj).symm
      exact hgive.withCurrent htail
  | release k => exact hdrop.of_eq rfl rfl (fun hp => nomatch hp) rfl rfl rfl rfl rfl
  | clearFlight owner =>
      refine hdrop.clearFlight fun k j hk hj hinside => ?_
      exact (h.near j hinside (.inl hj)).current _ hmem k hk
  | clearQueued owner =>
      refine hdrop.clearQueued fun k j hk hj hinside => ?_
      exact (h.near j hinside (.inr (.inl hj))).current _ hmem k hk
  | send k =>
      -- sending marks the slot and empties the queue, the holder stays
      have hflight : ∀ j, (s.inFlight.map fun flight =>
          if flight.1 = k then (k, true) else flight).map Prod.fst = some j →
            s.inFlight.map Prod.fst = some j := by
        intro j hj
        rw [Option.map_map] at hj
        rw [← hj]
        congr 1
        funext flight
        show flight.1 = (if flight.1 = k then (k, true) else flight).1
        split
        · next heq => exact heq
        · rfl
      have hempty := hdrop.empty hflight (fun _ (hj : (none : Option ℕ) = some _) => nomatch hj)
        h.cleared
      exact hempty.of_eq rfl rfl id rfl rfl rfl rfl rfl
  | onProgress k run percent => exact hdrop.of_eq rfl rfl id rfl rfl rfl rfl rfl
  | resume k r =>
      show Slots (if _ then _ else _)
      split
      · next hsuspended =>
          -- only a suspended call is resumed, others have gone on by themselves
          obtain ⟨call, hc, hphase⟩ := suspended_cases hsuspended
          rw [setPhase_eq hc]
          refine hdrop.setCall hc ?_ fun hu => ?_
          · rw [hphase]
            rfl
          · rw [untouched_setCall] at hu
            cases hu
      · exact hdrop
  | dropWebView => exact hdrop.of_eq rfl rfl id rfl rfl rfl rfl rfl

/-- The renderer dies between two runnables. -/
theorem Slots.renderGone (h : Slots s) (message : JsString) :
    Slots { s with current := [.clearFlight none, .clearQueued none] ++
      (s.inFlight.map fun flight =>
        Action.resume flight.1 (.error ⟨.webviewCrashed, message⟩)).toList ++ [.dropWebView] } := by
  refine h.withCurrent fun a ha k hk => ?_
  cases hflight : s.inFlight with
  | none =>
      rw [hflight] at ha
      simp only [Option.map_none, Option.toList_none, List.append_nil, List.mem_append,
        List.mem_cons, List.not_mem_nil, or_false] at ha
      rcases ha with (rfl | rfl) | rfl <;> cases hk
  | some flight =>
      rw [hflight] at ha
      simp only [Option.map_some, Option.toList_some, List.mem_append, List.mem_cons,
        List.not_mem_nil, or_false] at ha
      rcases ha with ((rfl | rfl) | rfl) | rfl <;> cases hk

theorem Slots.step {s' : State ρ} (h : Slots s) {l : Step ρ} (hgood : Orderly s l)
    (hs : step s l = some s') : Slots s' := by
  cases l with
  | generate did invalid =>
      obtain rfl := Option.some.inj hs
      exact h.generate did invalid
  | run k =>
      obtain ⟨call, hc, hr⟩ := Option.bind_eq_some_iff.mp hs
      exact h.runCall hgood hc hr
  | timeout k =>
      obtain ⟨call, hc, hr⟩ := Option.bind_eq_some_iff.mp hs
      exact h.cancelCall hc (Option.ite_none_right_eq_some.mp hr).2
  | cancel k =>
      obtain ⟨call, hc, hr⟩ := Option.bind_eq_some_iff.mp hs
      exact h.cancelCall hc hr
  | main failure =>
      simp only [WebViewMobileProver.step] at hs
      split at hs
      · next queue a current ha =>
          obtain rfl := Option.some.inj hs
          exact h.act ha failure
      · next r queue hcurrent hq =>
          obtain rfl := Option.some.inj hs
          exact h.begin hq
      · cases hs
  | post m =>
      obtain ⟨-, heq⟩ := Option.ite_none_right_eq_some.mp hs
      obtain rfl := Option.some.inj heq
      refine h.enqueue fun r hr k hk => ?_
      rw [List.mem_singleton.mp hr] at hk
      cases hk
  | renderGone message =>
      simp only [WebViewMobileProver.step] at hs
      split at hs
      · obtain rfl := Option.some.inj hs
        exact h.renderGone message
      · cases hs
  | destroy =>
      obtain rfl := Option.some.inj hs
      refine h.enqueue fun r hr k hk => ?_
      rw [List.mem_singleton.mp hr] at hk
      cases hk
  | tick ms =>
      obtain rfl := Option.some.inj hs
      exact h.of_eq rfl rfl id rfl rfl rfl rfl rfl

end Looper

/-! ## Whose proof a call gets -/

/-- The value that a call is about to return, or has returned. -/
def Phase.value : Phase ρ → Option (GenerateOutput ρ)
  | resumed (.ok out) | leaving (some (.ok out)) | ended (.returned out) => some out
  | _ => none

/-- What has cancelled a call in this phase. -/
def Phase.Caused : Phase ρ → Option Cause → Prop
  | suspended, cause => cause = none
  | aborted, cause | leaving none, cause => cause ≠ none
  | ended .cancelled, cause => cause = some .cancellation
  | _, _ => True

structure Answers (s : State ρ) : Prop where
  own : ∀ k call, s.calls k = some call → ∀ out, call.phase.value = some out →
    out.run = k ∧ out.did = call.did
  caused : ∀ k call, s.calls k = some call → call.phase.Caused call.cause
  resumes : ∀ k out, Action.resume k (.ok out) ∈ s.current →
    out.run = k ∧ ∃ call, s.calls k = some call ∧ out.did = call.did
  progresses : ∀ k run percent, Action.onProgress k run percent ∈ s.current → k = run
  progressed : ∀ x ∈ s.progressed, x.1 = x.2

section Answers

variable {s : State ρ} {k : ℕ} {call : Call ρ}

/-- One call moves on. -/
theorem Answers.setCall (h : Answers s) (hc : s.calls k = some call) {call' : Call ρ}
    (hdid : call'.did = call.did)
    (hvalue : ∀ out, call'.phase.value = some out → out.run = k ∧ out.did = call.did)
    (hcaused : call'.phase.Caused call'.cause) : Answers (s.setCall k call') := by
  -- `j` is the call that moves, or it is as it was
  refine ⟨fun j c hj out hout => ?_, fun j c hj => ?_, fun j out hmem => ?_, h.progresses,
    h.progressed⟩
  · rw [setCall_calls] at hj
    split at hj
    · next heq =>
        subst heq
        obtain rfl := Option.some.inj hj
        rw [hdid]
        exact hvalue out hout
    · exact h.own j c hj out hout
  · rw [setCall_calls] at hj
    split at hj
    · obtain rfl := Option.some.inj hj
      exact hcaused
    · exact h.caused j c hj
  · obtain ⟨hrun, c, hj, hd⟩ := h.resumes j out hmem
    refine ⟨hrun, ?_⟩
    rw [setCall_calls]
    split
    · next heq =>
        subst heq
        obtain rfl := Option.some.inj (hc.symm.trans hj)
        exact ⟨call', rfl, hd.trans hdid.symm⟩
    · exact ⟨c, hj, hd⟩

/-- The callers are the same, the looper has at most new sound actions. -/
theorem Answers.of_looper (h : Answers s) {s' : State ρ} (hcalls : s'.calls = s.calls)
    (hprogressed : s'.progressed = s.progressed)
    (hresumes : ∀ k out, Action.resume k (.ok out) ∈ s'.current →
      out.run = k ∧ ∃ call, s.calls k = some call ∧ out.did = call.did)
    (hprogresses : ∀ k run percent, Action.onProgress k run percent ∈ s'.current → k = run) :
    Answers s' := by
  refine ⟨?_, ?_, ?_, hprogresses, ?_⟩
  · rw [hcalls]
    exact h.own
  · rw [hcalls]
    exact h.caused
  · rw [hcalls]
    exact hresumes
  · rw [hprogressed]
    exact h.progressed

/-- Nothing that matters has changed. -/
theorem Answers.of_eq (h : Answers s) {s' : State ρ} (hcalls : s'.calls = s.calls)
    (hprogressed : s'.progressed = s.progressed) (hcurrent : s'.current = s.current) : Answers s' :=
  h.of_looper hcalls hprogressed (hcurrent ▸ h.resumes) (hcurrent ▸ h.progresses)

theorem Answers.generate (h : Answers s) (hnone : s.calls s.made = none) (did : JsString)
    (invalid : Option JsString) : Answers (generate s did invalid) := by
  -- a call that is refused has ended at once; neither phase holds an answer
  obtain ⟨phase, hphase, hcalls⟩ : ∃ phase : Phase ρ,
      (phase = .entering ∨ ∃ failure, phase = .ended (.thrown failure)) ∧
      ∀ j, (WebViewMobileProver.generate s did invalid).calls j =
        if j = s.made then some ⟨did, phase, s.clock + proveTimeoutMs, none⟩ else s.calls j := by
    cases invalid with
    | none => exact ⟨_, .inl rfl, setCall_calls s _ _⟩
    | some message => exact ⟨_, .inr ⟨_, rfl⟩, setCall_calls s _ _⟩
  refine ⟨fun j c hj out hout => ?_, fun j c hj => ?_, fun j out hmem => ?_, h.progresses,
    h.progressed⟩
  · rw [hcalls] at hj
    split at hj
    · obtain rfl := Option.some.inj hj
      obtain rfl | ⟨failure, rfl⟩ := hphase
      · cases hout
      · cases hout
    · exact h.own j c hj out hout
  · rw [hcalls] at hj
    split at hj
    · obtain rfl := Option.some.inj hj
      obtain rfl | ⟨failure, rfl⟩ := hphase
      · trivial
      · trivial
    · exact h.caused j c hj
  · obtain ⟨hrun, c, hj, hd⟩ := h.resumes j out hmem
    -- a call with an answer on its way was made before
    have hne : j ≠ s.made := by
      rintro rfl
      rw [hnone] at hj
      cases hj
    refine ⟨hrun, c, ?_, hd⟩
    rw [hcalls, if_neg hne]
    exact hj

theorem answers_initial (ρ : Type) : Answers (State.initial ρ) where
  own _ _ hc := nomatch hc
  caused _ _ hc := nomatch hc
  resumes _ _ ha := nomatch ha
  progresses _ _ _ ha := nomatch ha
  progressed _ hx := nomatch hx

theorem Answers.setPhase (h : Answers s) (hc : s.calls k = some call) {phase : Phase ρ}
    (hvalue : ∀ out, phase.value = some out → call.phase.value = some out)
    (hcaused : phase.Caused call.cause) : Answers (s.setPhase k phase) := by
  rw [setPhase_eq hc]
  exact h.setCall hc rfl (fun out hout => h.own k call hc out (hvalue out hout)) hcaused

theorem Answers.clearFlight (h : Answers s) (owner : Option ℕ) :
    Answers (s.clearFlight owner) := by
  obtain ⟨cleared, heq⟩ := noteClear_fields s owner (s.inFlight.map Prod.fst)
  rw [State.clearFlight, heq]
  exact h.of_eq rfl rfl rfl

theorem Answers.clearQueued (h : Answers s) (owner : Option ℕ) :
    Answers (s.clearQueued owner) := by
  obtain ⟨cleared, heq⟩ := noteClear_fields s owner s.queuedPayload
  rw [State.clearQueued, heq]
  exact h.of_eq rfl rfl rfl

theorem Answers.runCall {s' : State ρ} (h : Answers s) (hc : s.calls k = some call)
    (hr : runCall s k call = some s') : Answers s' := by
  have hcaused := h.caused k call hc
  obtain ⟨did, phase, deadline, cause⟩ := call
  cases phase with
  | entering =>
      simp only [WebViewMobileProver.runCall] at hr
      split at hr
      · obtain rfl := Option.some.inj hr
        exact h.setPhase hc (fun out hout => nomatch hout) trivial
      · obtain rfl := Option.some.inj hr
        have hset : Answers (s.setPhase k .holding) :=
          h.setPhase hc (fun out hout => nomatch hout) trivial
        exact hset.of_eq rfl rfl rfl
  | holding =>
      obtain rfl := Option.some.inj hr
      cases cause with
      | some cause =>
          have hset : Answers (s.setPhase k .aborted) :=
            h.setPhase hc (fun out hout => nomatch hout) (Option.some_ne_none cause)
          exact hset.of_eq rfl rfl rfl
      | none =>
          have hset : Answers (s.setPhase k .suspended) :=
            h.setPhase hc (fun out hout => nomatch hout) rfl
          exact hset.of_eq rfl rfl rfl
  | suspended => cases hr
  | resumed r =>
      obtain rfl := Option.some.inj hr
      refine Answers.of_eq (s := s.setPhase k _) (h.setPhase hc (fun out hout => ?_) ?_) rfl rfl rfl
      · -- a value that is passed on is the one that the call was resumed with
        cases r with
        | error e => cases hout
        | ok out' =>
            cases cause with
            | some cause => cases hout
            | none => exact hout
      · cases r with
        | error e => trivial
        | ok out =>
            cases cause with
            | some cause => exact Option.some_ne_none cause
            | none => trivial
  | aborted =>
      obtain rfl := Option.some.inj hr
      have hset : Answers (s.setPhase k (.leaving none)) :=
        h.setPhase hc (fun out hout => nomatch hout) hcaused
      exact hset.of_eq rfl rfl rfl
  | leaving r =>
      simp only [WebViewMobileProver.runCall] at hr
      split at hr
      · obtain rfl := Option.some.inj hr
        exact h.setPhase hc (fun out hout => nomatch hout) trivial
      · obtain rfl := Option.some.inj hr
        exact h.setPhase hc (fun out hout => hout) trivial
      · obtain rfl := Option.some.inj hr
        exact h.setPhase hc (fun out hout => nomatch hout) trivial
      · next hthrown htimeout hreturned =>
          obtain rfl := Option.some.inj hr
          refine h.setPhase hc (fun out hout => nomatch hout) ?_
          show cause = some .cancellation
          rcases cause with _ | (_ | _)
          · -- a call that nothing has cancelled leaves with what it was resumed with
            rcases r with _ | (e | out)
            · exact absurd rfl hcaused
            · exact (hthrown e rfl).elim
            · exact (hreturned out rfl rfl).elim
          · exact (htimeout rfl).elim
          · rfl
  | clearingFlight =>
      obtain rfl := Option.some.inj hr
      have hc' : (s.clearFlight (some k)).calls k = some ⟨did, .clearingFlight, deadline, cause⟩ := by
        rw [clearFlight_calls]
        exact hc
      exact (h.clearFlight (some k)).setPhase hc' (fun out hout => nomatch hout) trivial
  | clearingQueued =>
      obtain rfl := Option.some.inj hr
      have hc' : (s.clearQueued (some k)).calls k = some ⟨did, .clearingQueued, deadline, cause⟩ := by
        rw [clearQueued_calls]
        exact hc
      exact (h.clearQueued (some k)).setPhase hc' (fun out hout => nomatch hout) trivial
  | ended o => cases hr

theorem Answers.cancelCall {s' : State ρ} {cause : Cause} (h : Answers s)
    (hc : s.calls k = some call) (hr : cancelCall s k call cause = some s') : Answers s' := by
  have hvalue := h.own k call hc
  unfold WebViewMobileProver.cancelCall at hr
  split at hr
  · obtain rfl := Option.some.inj hr
    have hset : Answers (s.setCall k { call with phase := .aborted, cause := some cause }) :=
      h.setCall hc rfl (fun out hout => nomatch hout) (Option.some_ne_none cause)
    exact hset.of_eq rfl rfl rfl
  · next hphase =>
      obtain rfl := Option.some.inj hr
      exact h.setCall hc rfl hvalue (by rw [hphase]; trivial)
  · next hphase =>
      obtain rfl := Option.some.inj hr
      exact h.setCall hc rfl hvalue (by rw [hphase]; trivial)
  · next hphase =>
      obtain rfl := Option.some.inj hr
      exact h.setCall hc rfl hvalue (by rw [hphase]; trivial)
  · next r hcause hphase =>
      obtain rfl := Option.some.inj hr
      refine h.setCall hc rfl hvalue ?_
      rw [hphase]
      cases r with
      | none => exact Option.some_ne_none cause
      | some r => trivial
  · cases hr

/-- What a message makes of the call in flight is about the payload of that call. -/
theorem Answers.begin (h : Answers s) {r : Runnable ρ} {queue : List (Runnable ρ)}
    (hflight : ∀ m, r = .dispatch m → ∀ flight, s.inFlight = some flight → match m with
      | .progress run _ => run = flight.1
      | .result run _ => s.suspended flight.1 = true → run = flight.1
      | _ => True) : Answers { s with queue := queue, current := actions s r } := by
  cases r with
  | start k =>
      refine h.of_looper rfl rfl (fun j out hmem => ?_) fun j run percent hmem => ?_
      · simp [actions] at hmem
      · simp [actions] at hmem
  | clear k =>
      refine h.of_looper rfl rfl (fun j out hmem => ?_) fun j run percent hmem => ?_
      · simp [actions] at hmem
      · simp [actions] at hmem
  | destroy =>
      refine h.of_looper rfl rfl (fun j out hmem => ?_) fun j run percent hmem => ?_
      · simp [actions] at hmem
      · simp [actions] at hmem
  | dispatch m =>
      have hm := hflight m rfl
      cases hslot : s.inFlight with
      | none =>
          have hempty : actions s (.dispatch m) = [] := by
            show dispatch s m = []
            rw [dispatch, hslot]
          refine h.of_looper rfl rfl (fun j out hmem => ?_) fun j run percent hmem => ?_
          · dsimp only at hmem
            rw [hempty] at hmem
            cases hmem
          · dsimp only at hmem
            rw [hempty] at hmem
            cases hmem
      | some flight =>
          obtain ⟨k, ready⟩ := flight
          have hm := hm _ hslot
          refine h.of_looper rfl rfl (fun j out hmem => ?_) fun j run percent hmem => ?_
          · simp only [actions, dispatch, hslot] at hmem
            cases m with
            | ready => cases ready <;> simp at hmem
            | progress run percent => simp at hmem
            | result run envelope =>
                dsimp only at hmem hm
                split at hmem
                · next hsuspended =>
                    obtain ⟨call, hc, -⟩ := suspended_cases hsuspended
                    have hrun : run = k := hm hsuspended
                    simp only [hc, parseResult, List.mem_cons, reduceCtorEq, List.not_mem_nil,
                      or_false, false_or, Action.resume.injEq, Option.map_some,
                      Option.getD_some] at hmem
                    obtain ⟨rfl, hout⟩ := hmem
                    -- a defect is thrown, never returned
                    cases envelope with
                    | error message => cases hout
                    | ok envelope =>
                        obtain rfl := Except.ok.inj hout
                        exact ⟨hrun, call, hc, rfl⟩
                · cases hmem
            | error code message =>
                dsimp only at hmem
                split at hmem <;> simp at hmem
          · simp only [actions, dispatch, hslot] at hmem
            cases m with
            | ready => cases ready <;> simp at hmem
            | progress run' percent' =>
                simp only [List.mem_singleton, Action.onProgress.injEq] at hmem
                obtain ⟨rfl, rfl, -⟩ := hmem
                exact hm.symm
            | result run' envelope =>
                dsimp only at hmem
                split at hmem <;> simp at hmem
            | error code message =>
                dsimp only at hmem
                split at hmem <;> simp at hmem

/-- The catch block of the start runnable resumes with an error. -/
theorem Answers.startFailed (h : Answers s) (k : ℕ) (message : JsString) :
    Answers { s with current := startFailed k message } := by
  refine h.of_looper rfl rfl (fun j out hmem => ?_) fun j run percent hmem => ?_
  · simp [WebViewMobileProver.startFailed] at hmem
  · simp [WebViewMobileProver.startFailed] at hmem

theorem Answers.act (h : Answers s) {a : Action ρ} {current : List (Action ρ)}
    (ha : s.current = a :: current) (failure : Option JsString) :
    Answers (act { s with current := current } failure a) := by
  have hmem : a ∈ s.current := ha ▸ List.mem_cons_self
  have htail : ∀ a' ∈ current, a' ∈ s.current := fun a' ha' => ha ▸ List.mem_cons_of_mem _ ha'
  have hdrop : Answers { s with current := current } :=
    h.of_looper rfl rfl (fun k out hk => h.resumes k out (htail _ hk))
      fun k run percent hk => h.progresses k run percent (htail _ hk)
  cases a with
  | ensureWebView k =>
      cases failure with
      | some message => exact h.startFailed k message
      | none => exact hdrop.of_eq rfl rfl rfl
  | load k =>
      cases failure with
      | some message => exact h.startFailed k message
      | none => exact hdrop
  | setFlight k => exact hdrop.of_eq rfl rfl rfl
  | setQueued k => exact hdrop.of_eq rfl rfl rfl
  | release k => exact hdrop.of_eq rfl rfl rfl
  | clearFlight owner => exact hdrop.clearFlight owner
  | clearQueued owner => exact hdrop.clearQueued owner
  | send k => exact hdrop.of_eq rfl rfl rfl
  | onProgress k run percent =>
      refine ⟨hdrop.own, hdrop.caused, hdrop.resumes, hdrop.progresses, fun x hx => ?_⟩
      rcases List.mem_append.mp hx with hx | hx
      · exact h.progressed x hx
      · rw [List.mem_singleton.mp hx]
        exact h.progresses k run percent hmem
  | resume k r =>
      show Answers (if _ then _ else _)
      split
      · next hsuspended =>
          obtain ⟨call, hc, -⟩ := suspended_cases hsuspended
          rw [setPhase_eq hc]
          refine hdrop.setCall hc rfl (fun out hout => ?_) trivial
          -- the value that the call is resumed with is its own
          cases r with
          | error e => cases hout
          | ok out' =>
              obtain rfl := Option.some.inj hout
              obtain ⟨hrun, c, hk, hdid⟩ := h.resumes k _ hmem
              obtain rfl := Option.some.inj (hk.symm.trans hc)
              exact ⟨hrun, hdid⟩
      · exact hdrop
  | dropWebView => exact hdrop.of_eq rfl rfl rfl

theorem Answers.renderGone (h : Answers s) (message : JsString) :
    Answers { s with current := [.clearFlight none, .clearQueued none] ++
      (s.inFlight.map fun flight =>
        Action.resume flight.1 (.error ⟨.webviewCrashed, message⟩)).toList ++ [.dropWebView] } := by
  refine h.of_looper rfl rfl (fun j out hmem => ?_) fun j run percent hmem => ?_
  · simp at hmem
  · simp at hmem

theorem Answers.step {s' : State ρ} (h : Answers s) (hslots : Slots s) {l : Step ρ}
    (hgood : Orderly s l) (hs : step s l = some s') : Answers s' := by
  cases l with
  | generate did invalid =>
      obtain rfl := Option.some.inj hs
      exact h.generate (hslots.unmade _ (le_refl _)) did invalid
  | run k =>
      obtain ⟨call, hc, hr⟩ := Option.bind_eq_some_iff.mp hs
      exact h.runCall hc hr
  | timeout k =>
      obtain ⟨call, hc, hr⟩ := Option.bind_eq_some_iff.mp hs
      exact h.cancelCall hc (Option.ite_none_right_eq_some.mp hr).2
  | cancel k =>
      obtain ⟨call, hc, hr⟩ := Option.bind_eq_some_iff.mp hs
      exact h.cancelCall hc hr
  | main failure =>
      simp only [WebViewMobileProver.step] at hs
      split at hs
      · next queue a current ha =>
          obtain rfl := Option.some.inj hs
          exact h.act ha failure
      · next r queue hcurrent hq =>
          obtain rfl := Option.some.inj hs
          refine h.begin fun m hm flight hflight => ?_
          exact hgood hcurrent m queue (hm ▸ hq) flight hflight
      · cases hs
  | post m =>
      obtain ⟨-, heq⟩ := Option.ite_none_right_eq_some.mp hs
      obtain rfl := Option.some.inj heq
      exact h.of_eq rfl rfl rfl
  | renderGone message =>
      simp only [WebViewMobileProver.step] at hs
      split at hs
      · obtain rfl := Option.some.inj hs
        exact h.renderGone message
      · cases hs
  | destroy =>
      obtain rfl := Option.some.inj hs
      exact h.of_eq rfl rfl rfl
  | tick ms =>
      obtain rfl := Option.some.inj hs
      exact h.of_eq rfl rfl rfl

end Answers

/-! ## How calls come to an end -/

section Ends

variable {s s' : State ρ} {k : ℕ} {call : Call ρ}

/-- No call is forgotten, and none goes back. -/
def Onward (s s' : State ρ) : Prop :=
  ∀ k call, s.calls k = some call → ∃ call', s'.calls k = some call' ∧
    call'.deadline = call.deadline ∧ call'.phase.left ≤ call.phase.left

theorem Onward.of_eq (hcalls : s'.calls = s.calls) : Onward s s' := by
  intro k call hc
  exact ⟨call, hcalls ▸ hc, rfl, le_refl _⟩

theorem Onward.of_setCall (hc : s.calls k = some call) {call' : Call ρ}
    (hcalls : s'.calls = (s.setCall k call').calls) (hdeadline : call'.deadline = call.deadline)
    (hleft : call'.phase.left ≤ call.phase.left) : Onward s s' := by
  intro j c hj
  rw [hcalls, setCall_calls]
  split
  · next heq =>
      subst heq
      obtain rfl := Option.some.inj (hc.symm.trans hj)
      exact ⟨call', rfl, hdeadline, hleft⟩
  · exact ⟨c, hj, rfl, le_refl _⟩

/-- The coroutine goes on from every phase but the suspension. -/
theorem runCall_left (hc : s.calls k = some call) (hr : runCall s k call = some s') :
    ∃ phase : Phase ρ, s'.calls = (s.setCall k { call with phase := phase }).calls ∧
      phase.left < call.phase.left := by
  -- every phase but the suspension is left for a later one
  have hset : ∀ phase, (s.setPhase k phase).calls =
      (s.setCall k { call with phase := phase }).calls := fun phase => by rw [setPhase_eq hc]
  obtain ⟨did, phase, deadline, cause⟩ := call
  cases phase with
  | entering =>
      simp only [runCall] at hr
      split at hr
      · obtain rfl := Option.some.inj hr
        exact ⟨_, hset _, by simp [Phase.left]⟩
      · obtain rfl := Option.some.inj hr
        exact ⟨_, hset _, by simp [Phase.left]⟩
  | holding =>
      obtain rfl := Option.some.inj hr
      cases cause with
      | some cause => exact ⟨_, hset _, by simp [Phase.left]⟩
      | none => exact ⟨_, hset _, by simp [Phase.left]⟩
  | suspended => cases hr
  | resumed r =>
      obtain rfl := Option.some.inj hr
      exact ⟨_, hset _, by simp [Phase.left]⟩
  | aborted =>
      obtain rfl := Option.some.inj hr
      exact ⟨_, hset _, by simp [Phase.left]⟩
  | leaving r =>
      simp only [runCall] at hr
      split at hr
      all_goals
        obtain rfl := Option.some.inj hr
        exact ⟨_, hset _, by simp [Phase.left]⟩
  | clearingFlight =>
      obtain rfl := Option.some.inj hr
      -- to clear a slot does not touch the calls
      have hcleared := clearFlight_calls s (some k)
      refine ⟨.clearingQueued, ?_, by simp [Phase.left]⟩
      rw [setPhase_eq (hcleared ▸ hc)]
      show Function.update (s.clearFlight (some k)).calls k _ = Function.update s.calls k _
      rw [hcleared]
  | clearingQueued =>
      obtain rfl := Option.some.inj hr
      have hcleared := clearQueued_calls s (some k)
      refine ⟨.ended (.thrown tookTooLong), ?_, by simp [Phase.left]⟩
      rw [setPhase_eq (hcleared ▸ hc)]
      show Function.update (s.clearQueued (some k)).calls k _ = Function.update s.calls k _
      rw [hcleared]
  | ended o => cases hr

theorem runCall_isSome (s : State ρ) (k : ℕ) (call : Call ρ) (hleft : 0 < call.phase.left)
    (hsuspended : call.phase ≠ .suspended) : ∃ s', runCall s k call = some s' := by
  obtain ⟨did, phase, deadline, cause⟩ := call
  cases phase with
  | entering =>
      simp only [runCall]
      split
      · exact ⟨_, rfl⟩
      · exact ⟨_, rfl⟩
  | holding => exact ⟨_, rfl⟩
  | suspended => exact absurd rfl hsuspended
  | resumed r => exact ⟨_, rfl⟩
  | aborted => exact ⟨_, rfl⟩
  | leaving r =>
      simp only [runCall]
      split
      all_goals exact ⟨_, rfl⟩
  | clearingFlight => exact ⟨_, rfl⟩
  | clearingQueued => exact ⟨_, rfl⟩
  | ended o => exact absurd hleft (lt_irrefl 0)

theorem cancelCall_left {cause : Cause} (hr : cancelCall s k call cause = some s') :
    ∃ phase : Phase ρ,
      s'.calls = (s.setCall k { call with phase := phase, cause := some cause }).calls ∧
      phase.left ≤ call.phase.left := by
  unfold cancelCall at hr
  split at hr
  · next hphase =>
      obtain rfl := Option.some.inj hr
      refine ⟨.aborted, rfl, ?_⟩
      rw [hphase]
      show 4 ≤ 5
      omega
  · obtain rfl := Option.some.inj hr
    exact ⟨call.phase, rfl, le_refl _⟩
  · obtain rfl := Option.some.inj hr
    exact ⟨call.phase, rfl, le_refl _⟩
  · obtain rfl := Option.some.inj hr
    exact ⟨call.phase, rfl, le_refl _⟩
  · obtain rfl := Option.some.inj hr
    exact ⟨call.phase, rfl, le_refl _⟩
  · cases hr

theorem onward_act (s : State ρ) (failure : Option JsString) (a : Action ρ) :
    Onward s (act s failure a) := by
  cases a with
  | ensureWebView k => cases failure <;> exact .of_eq rfl
  | load k => cases failure <;> exact .of_eq rfl
  | clearFlight owner => exact .of_eq (clearFlight_calls s owner)
  | clearQueued owner => exact .of_eq (clearQueued_calls s owner)
  | resume k r =>
      show Onward s (if _ then _ else _)
      split
      · next hsuspended =>
          obtain ⟨call, hc, hphase⟩ := suspended_cases hsuspended
          -- the one action that moves a call, from suspended to resumed
          let resumed : Call ρ := { call with phase := .resumed r }
          have hdeadline : resumed.deadline = call.deadline := rfl
          have hleft : resumed.phase.left ≤ call.phase.left := by
            rw [hphase]
            show 4 ≤ 5
            omega
          refine .of_setCall hc ?_ hdeadline hleft
          rw [setPhase_eq hc]
      · exact .of_eq rfl
  | setFlight k => exact .of_eq rfl
  | setQueued k => exact .of_eq rfl
  | release k => exact .of_eq rfl
  | send k => exact .of_eq rfl
  | onProgress k run percent => exact .of_eq rfl
  | dropWebView => exact .of_eq rfl

theorem onward_step (hslots : Slots s) {l : Step ρ} (hs : step s l = some s') : Onward s s' := by
  cases l with
  | generate did invalid =>
      obtain rfl := Option.some.inj hs
      intro k call hc
      -- the new call has a number of its own
      have hne : k ≠ s.made := by
        rintro rfl
        rw [hslots.unmade _ (le_refl _)] at hc
        cases hc
      refine ⟨call, ?_, rfl, le_refl _⟩
      show Function.update s.calls s.made _ k = _
      rw [Function.update_of_ne hne, hc]
  | run k =>
      obtain ⟨call, hc, hr⟩ := Option.bind_eq_some_iff.mp hs
      obtain ⟨phase, hcalls, hlt⟩ := runCall_left hc hr
      exact .of_setCall hc hcalls rfl (Nat.le_of_lt hlt)
  | timeout k =>
      obtain ⟨call, hc, hr⟩ := Option.bind_eq_some_iff.mp hs
      obtain ⟨phase, hcalls, hle⟩ := cancelCall_left (Option.ite_none_right_eq_some.mp hr).2
      exact .of_setCall hc hcalls rfl hle
  | cancel k =>
      obtain ⟨call, hc, hr⟩ := Option.bind_eq_some_iff.mp hs
      obtain ⟨phase, hcalls, hle⟩ := cancelCall_left hr
      exact .of_setCall hc hcalls rfl hle
  | main failure =>
      simp only [step] at hs
      split at hs
      · next queue a current ha =>
          obtain rfl := Option.some.inj hs
          intro k call hc
          exact onward_act { s with current := current } failure a k call hc
      · obtain rfl := Option.some.inj hs
        exact .of_eq rfl
      · cases hs
  | post m =>
      obtain ⟨-, heq⟩ := Option.ite_none_right_eq_some.mp hs
      obtain rfl := Option.some.inj heq
      exact .of_eq rfl
  | renderGone message =>
      simp only [step] at hs
      split at hs
      · obtain rfl := Option.some.inj hs
        exact .of_eq rfl
      · cases hs
  | destroy =>
      obtain rfl := Option.some.inj hs
      exact .of_eq rfl
  | tick ms =>
      obtain rfl := Option.some.inj hs
      exact .of_eq rfl

/-- Once its time is over, a call goes on by itself or is timed out. -/
theorem Answers.ends (h : Answers s) (hc : s.calls k = some call) (hleft : 0 < call.phase.left)
    (hdeadline : call.deadline ≤ s.clock) :
    ∃ l ∈ [Step.run k, .timeout k], ∃ s' call', WebViewMobileProver.step s l = some s' ∧
      s'.calls k = some call' ∧ call'.phase.left < call.phase.left := by
  by_cases hsuspended : call.phase = .suspended
  · have hcaused := h.caused k call hc
    rw [hsuspended] at hcaused
    have hnone : call.cause = none := hcaused
    have hcancel : ∃ s', WebViewMobileProver.cancelCall s k call .timeout = some s' ∧
        s'.calls = (s.setCall k { call with phase := .aborted, cause := some .timeout }).calls := by
      simp only [WebViewMobileProver.cancelCall, hnone, hsuspended]
      exact ⟨_, rfl, rfl⟩
    obtain ⟨s', hr, hcalls⟩ := hcancel
    refine ⟨.timeout k, List.mem_cons_of_mem _ List.mem_cons_self, s',
      { call with phase := .aborted, cause := some .timeout }, ?_, ?_, ?_⟩
    · show (s.calls k).bind _ = _
      rw [hc]
      exact (if_pos hdeadline).trans hr
    · rw [hcalls, setCall_calls, if_pos rfl]
    · rw [hsuspended]
      show 4 < 5
      omega
  · obtain ⟨s', hr⟩ := runCall_isSome s k call hleft hsuspended
    obtain ⟨phase, hcalls, hlt⟩ := runCall_left hc hr
    refine ⟨.run k, List.mem_cons_self, s', { call with phase := phase }, ?_, ?_, hlt⟩
    · show (s.calls k).bind _ = _
      rw [hc]
      exact hr
    · rw [hcalls, setCall_calls, if_pos rfl]

end Ends

/-- In a run without the three defects every call has its own proof, progress and slots, and
    comes to an end. -/
theorem calls_served {s : State ρ} (h : (prover ρ).Later Orderly (State.initial ρ) s) :
    Served s := by
  have hinv : Slots s ∧ Answers s := by
    refine h.invariant (I := fun s => Slots s ∧ Answers s) (fun w l w' hw hgood hs => ?_) ⟨slots_initial ρ, answers_initial ρ⟩
    exact ⟨hw.1.step hgood hs, hw.2.step hw.1 hgood hs⟩
  obtain ⟨hslots, hanswers⟩ := hinv
  refine ⟨fun k call out hc hphase => ?_, hanswers.progressed, hslots.cleared, hslots.pending,
    fun k call hc hleft hdeadline => hanswers.ends hc hleft hdeadline,
    fun l s' k call hs hc => onward_step hslots hs k call hc, fun k call hc hphase => ?_⟩
  · refine hanswers.own k call hc out ?_
    rw [hphase]
    rfl
  · have hcaused := hanswers.caused k call hc
    rwa [hphase] at hcaused

/-- A test for `Orderly`. -/
def quiet (s : State ρ) : Step ρ → Bool
  | .run k => (s.calls k).all fun call => match call.phase with
      | .entering => s.pending || (List.range s.made).all fun j => !s.inside j
      | .clearingFlight => s.inFlight.all fun flight => !s.inside flight.1
      | .clearingQueued => s.queuedPayload.all fun j => !s.inside j
      | _ => true
  | .main _ => !s.current.isEmpty || match s.queue with
      | .dispatch (.progress run _) :: _ | .dispatch (.result run _) :: _ =>
          s.inFlight.all fun flight => run == flight.1
      | _ => true
  | _ => true

theorem orderly_of_quiet {s : State ρ} {l : Step ρ} (hslots : Slots s) (h : quiet s l = true) :
    Orderly s l := by
  cases l with
  | run k =>
      intro call hc
      simp only [quiet, hc, Option.all_some] at h
      split
      · next hphase =>
          intro hpending j
          simp only [hphase, hpending, Bool.false_or, List.all_eq_true, List.mem_range,
            Bool.not_eq_true'] at h
          by_cases hj : j < s.made
          · exact h j hj
          · -- a call that has not been made is not inside
            rw [State.inside, hslots.unmade j (Nat.not_lt.mp hj)]
            rfl
      · next hphase =>
          intro j hj
          obtain ⟨flight, hflight, rfl⟩ := Option.map_eq_some_iff.mp hj
          rw [hphase, hflight] at h
          simpa using h
      · next hphase =>
          intro j hqueued
          simpa only [hphase, hqueued, Option.all_some, Bool.not_eq_true'] using h
      · trivial
  | main failure =>
      intro hcurrent m queue hq flight hflight
      simp only [quiet, hcurrent, hq, hflight] at h
      cases m with
      | ready => trivial
      | progress run percent => exact eq_of_beq h
      | result run envelope => exact fun _ => eq_of_beq h
      | error code message => trivial
  | generate did invalid => trivial
  | timeout k => trivial
  | cancel k => trivial
  | post m => trivial
  | renderGone message => trivial
  | destroy => trivial
  | tick ms => trivial

/-- Of which run the proof is that a call has returned. -/
def State.returned? (s : State ρ) (k : ℕ) : Option ℕ :=
  match (s.calls k).map Call.phase with
  | some (.ended (.returned out)) => some out.run
  | _ => none

def State.thrown? (s : State ρ) (k : ℕ) : Option Code :=
  match (s.calls k).map Call.phase with
  | some (.ended (.thrown e)) => some e.code
  | _ => none

/-- The main looper goes on. -/
def mainSteps (n : ℕ) : List (Step Unit) := List.replicate n (.main none)

/-- Call `k` enters, and its start runnable has been run. -/
def started (k : ℕ) : List (Step Unit) :=
  .generate [] none :: .run k :: .run k :: mainSteps 5

/-- The page gets the payload of call `k`, and its result comes back. -/
def answered (k : ℕ) : List (Step Unit) :=
  .post .ready :: mainSteps 2 ++ .post (.progress k 40) :: mainSteps 2 ++
    .post (.result k (.ok ())) :: mainSteps 3 ++ [.run k, .run k]

def timedOut (k : ℕ) : List (Step Unit) := [.tick 30000, .timeout k, .run k, .run k, .run k, .run k]

/-- The second call comes while the first one is inside, the third one afterwards, and the page
    never answers the fourth. -/
def fourCalls : List (Step Unit) :=
  List.flatten [started 0, [.generate [] none, .run 1], answered 0, started 2, answered 2,
    started 3, timedOut 3, mainSteps 3]

theorem calls_served_of_four : ∃ s : State Unit,
    (prover Unit).runChecked quiet (State.initial Unit) fourCalls = some s ∧ Served s ∧
      s.returned? 0 = some 0 ∧ s.thrown? 1 = some .proverFailed ∧ s.returned? 2 = some 2 ∧
        s.thrown? 3 = some .timeout := by
  have hrun : ((prover Unit).runChecked quiet (State.initial Unit) fourCalls).map
      (fun s => (s.returned? 0, s.thrown? 1, s.returned? 2, s.thrown? 3)) =
        some (some 0, some .proverFailed, some 2, some .timeout) := by
    rfl
  obtain ⟨s, hs, hends⟩ := Option.map_eq_some_iff.mp hrun
  simp only [Prod.mk.injEq] at hends
  exact ⟨s, hs, calls_served (Machine.later_of_runChecked_of_invariant
    (fun _ _ hslots hquiet => orderly_of_quiet hslots hquiet)
    (fun _ _ _ hslots hgood hstep => hslots.step hgood hstep) (slots_initial Unit) hs), hends⟩

/-- The result of the first call comes after its TIMEOUT, while the second call is inside. -/
def staleRun : List (Step Unit) :=
  List.flatten [started 0, .post .ready :: mainSteps 2, timedOut 0,
    [.generate [] none, .run 1, .run 1, .post (.result 0 (.ok ()))], mainSteps 11,
    [.run 1, .run 1]]

/-- After a TIMEOUT the page of the first call posts its result, and the second call returns it
    as its own. -/
theorem stale_result : ¬ ∀ s : State Unit,
    (prover Unit).Later (fun _ _ => True) (State.initial Unit) s → Served s := by
  intro hall
  have hrun : ((prover Unit).run (State.initial Unit) staleRun).map (State.returned? · 1) =
      some (some 0) := by
    rfl
  obtain ⟨s, hs, hstale⟩ := Option.map_eq_some_iff.mp hrun
  unfold State.returned? at hstale
  split at hstale
  · next out hphase =>
      obtain ⟨call, hc, hphase⟩ := Option.map_eq_some_iff.mp hphase
      have hrun := ((hall s (Machine.later_of_run hs)).own 1 call out hc hphase).1
      rw [hrun] at hstale
      cases hstale
  · cases hstale

end WebViewMobileProver

end ZeroAuth.Android
