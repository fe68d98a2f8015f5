/-
  ZeroAuth.Android.ProverSlot

  The slot of the prover service, `inFlight` of android/.../prover/ProverService.kt.  The main
  looper takes one message at a time and writes the slot after `scope.launch` has returned;
  the proof coroutines run on another dispatcher and empty it in their `finally` block,
  whosever it is by then.

  The service does not wedge in the runs in which no coroutine ends before the assignment of its
  own slot or while the slot is held by a later one, and nothing is launched in a cancelled
  scope (`never_wedges`).
-/

import ZeroAuth.Lib.Machine
import Mathlib.Logic.Function.Basic
import Mathlib.Data.Nat.Notation
import Mathlib.Tactic.SplitIfs

namespace ZeroAuth.Android

namespace ProverService

open ZeroAuth.Lib

/-! ## The service -/

inductive JobPhase
  | queued
  | running
  | ended
  deriving DecidableEq

/-- A coroutine that `handleProveRequest` has launched. -/
structure ProofJob where
  phase : JobPhase
  cancelled : Bool
  deriving DecidableEq

/-- Where the main looper is. -/
inductive MainLooper
  /-- Between two messages. -/
  | idle
  /-- `scope.launch` has returned this job; `inFlight` is not written yet. -/
  | assigning (job : ℕ)
  /-- `teardownWebView` has cancelled the job of the slot and not emptied the slot yet. -/
  | tearingDown (destroying : Bool)
  /-- `onDestroy` is about to cancel the scope. -/
  | cancellingScope
  deriving DecidableEq

structure State where
  inFlight : Option ℕ
  jobs : ℕ → Option ProofJob
  /-- How many jobs have been launched. -/
  launched : ℕ
  main : MainLooper
  scopeCancelled : Bool

def State.onCreate : State := ⟨none, fun _ => none, 0, .idle, false⟩

inductive Reply
  | dropped
  | witnessInvalid
  | busy
  | started (job : ℕ)
  deriving DecidableEq

/-- `handleProveRequest` up to the launch; the arguments say whether the message has a `replyTo`
    and a request that can be parsed. A job of a cancelled scope is cancelled from the start. -/
def handleProveRequest (s : State) (replyTo request : Bool) : Reply × State :=
  if !replyTo then (.dropped, s)
  else if !request then (.witnessInvalid, s)
  else if s.inFlight.isSome then (.busy, s)
  else (.started s.launched,
    { s with
      jobs := Function.update s.jobs s.launched (some ⟨.queued, s.scopeCancelled⟩)
      launched := s.launched + 1
      main := .assigning s.launched })

def ProofJob.cancel (job : ProofJob) : ProofJob := { job with cancelled := true }

/-- `inFlight?.cancel()`, the first line of `teardownWebView`. -/
def teardownWebView (s : State) (destroying : Bool) : State :=
  { s with
    jobs := match s.inFlight with
      | none => s.jobs
      | some j => Function.update s.jobs j ((s.jobs j).map ProofJob.cancel)
    main := .tearingDown destroying }

inductive Step
  | proveRequest (replyTo request : Bool)
  /-- `inFlight = ` the launched job. -/
  | assign
  | onUnbind
  | onDestroy
  /-- `inFlight = null` of `teardownWebView`. -/
  | clear
  /-- `scope.cancel()`. -/
  | cancelScope
  /-- The dispatcher starts a queued job. -/
  | start (job : ℕ)
  /-- The dispatcher drops a job that was cancelled before it started: no part of it runs. -/
  | discard (job : ℕ)
  /-- The `finally` block of a running job, cancelled or not: `inFlight = null`. -/
  | finish (job : ℕ)
  deriving DecidableEq

def State.setJob (s : State) (j : ℕ) (job : ProofJob) : State :=
  { s with jobs := Function.update s.jobs j (some job) }

def service : Machine State Step where
  step s
    | .proveRequest replyTo request =>
        if s.main = .idle then some (handleProveRequest s replyTo request).2 else none
    -- the main thread between `launch` and the assignment of `inFlight`
    | .assign =>
        match s.main with
        | .assigning j => some { s with inFlight := some j, main := .idle }
        | _ => none
    | .onUnbind => if s.main = .idle then some (teardownWebView s false) else none
    | .onDestroy => if s.main = .idle then some (teardownWebView s true) else none
    -- the main thread inside `teardownWebView`
    | .clear =>
        match s.main with
        | .tearingDown destroying =>
            some { s with inFlight := none, main := if destroying then .cancellingScope else .idle }
        | _ => none
    | .cancelScope =>
        if s.main = .cancellingScope then
          some { s with
            jobs := fun j => (s.jobs j).map ProofJob.cancel
            scopeCancelled := true
            main := .idle }
        else none
    -- the jobs, each on its own thread
    | .start j => if s.jobs j = some ⟨.queued, false⟩ then some (s.setJob j ⟨.running, false⟩) else none
    | .discard j => if s.jobs j = some ⟨.queued, true⟩ then some (s.setJob j ⟨.ended, true⟩) else none
    | .finish j =>
        match s.jobs j with
        | some ⟨.running, cancelled⟩ => some { s.setJob j ⟨.ended, cancelled⟩ with inFlight := none }
        | _ => none

/-! ## The property -/

/-- A proof coroutine that has been launched and has not ended. -/
def State.Active (s : State) (j : ℕ) : Prop := ∃ job, s.jobs j = some job ∧ job.phase ≠ .ended

/-- It has not been cancelled either. -/
def State.Live (s : State) (j : ℕ) : Prop :=
  ∃ job, s.jobs j = some job ∧ job.phase ≠ .ended ∧ job.cancelled = false

/-- Inside `teardownWebView`. -/
def MainLooper.inTeardown : MainLooper → Prop
  | tearingDown _ => True
  | _ => False

/-- What the claim of the slot comes to in one state.  `empty` leaves out the states inside a
    teardown, where the slot still holds the job that was cancelled; the teardown empties it
    before the looper takes the next message. -/
structure NeverWedges (s : State) : Prop where
  empty : ¬ s.main.inTeardown → (∀ j, ¬ s.Active j) → s.inFlight = none
  accepts : (∀ j, ¬ s.Active j) → s.main = .idle →
    (handleProveRequest s true true).1 = .started s.launched
  single : ∀ i j, s.Live i → s.Live j → i = j

/-- A request is not launched in a cancelled scope; a coroutine does not end before its slot is
    assigned, nor while the slot is held by another one that is not cancelled. -/
def Orderly (s : State) : Step → Prop
  | .proveRequest replyTo request =>
      replyTo = true → request = true → s.inFlight = none → s.scopeCancelled = false
  | .finish j => s.main ≠ .assigning j ∧
      ∀ k job, s.inFlight = some k → s.jobs k = some job → job.cancelled = false → k = j
  | _ => True

/-! ## The invariant -/

/-- Outside a teardown the slot holds a job that is neither over nor cancelled, and every such job
    holds the slot or is about to. -/
structure SlotInv (s : State) : Prop where
  fresh : ∀ j, s.launched ≤ j → s.jobs j = none
  held : ¬ s.main.inTeardown → ∀ j, s.inFlight = some j → s.Live j
  torn : s.main.inTeardown → ∀ j, s.inFlight = some j → ¬ s.Live j
  owner : ∀ j, s.Live j → s.inFlight = some j ∨ s.main = .assigning j
  assigning : ∀ j, s.main = .assigning j → s.inFlight = none ∧ s.Live j
  scope : s.main = .cancellingScope → s.inFlight = none

theorem slotInv_onCreate : SlotInv .onCreate where
  fresh _ _ := rfl
  held := by
    intro _ j hj
    cases hj
  torn := by
    intro h
    cases h
  owner := by
    rintro j ⟨job, hjob, -⟩
    cases hjob
  assigning := by
    intro j hj
    cases hj
  scope := by
    intro h
    cases h

theorem SlotInv.neverWedges {s : State} (h : SlotInv s) : NeverWedges s := by
  have hempty : ¬ s.main.inTeardown → (∀ j, ¬ s.Active j) → s.inFlight = none := by
    intro hmain hnone
    rw [Option.eq_none_iff_forall_ne_some]
    intro j hj
    obtain ⟨job, hjob, hphase, -⟩ := h.held hmain j hj
    exact hnone j ⟨job, hjob, hphase⟩
  refine ⟨hempty, ?_, ?_⟩
  · intro hnone hidle
    have hslot : s.inFlight = none := hempty (by rw [hidle]; exact id) hnone
    simp [handleProveRequest, hslot]
  · intro i j hi hj
    rcases h.owner i hi with hi' | hi' <;> rcases h.owner j hj with hj' | hj'
    · exact Option.some.inj (hi'.symm.trans hj')
    · rw [(h.assigning j hj').1] at hi'
      cases hi'
    · rw [(h.assigning i hi').1] at hj'
      cases hj'
    · exact MainLooper.assigning.inj (hi'.symm.trans hj')

/-! ## The steps -/

theorem live_setJob {s : State} {i j : ℕ} {job : ProofJob} :
    (s.setJob j job).Live i ↔
      if i = j then job.phase ≠ .ended ∧ job.cancelled = false else s.Live i := by
  rw [State.Live, State.setJob]
  split
  next h =>
    subst h
    simp
  next h =>
    simp only [Function.update_of_ne h]
    rfl

/-- A step of a coroutine that changes neither what is live nor the slot. -/
theorem SlotInv.of_live {s s' : State} (h : SlotInv s) (hlive : ∀ j, s'.Live j ↔ s.Live j)
    (hfresh : ∀ j, s'.launched ≤ j → s'.jobs j = none) (hslot : s'.inFlight = s.inFlight)
    (hmain : s'.main = s.main) : SlotInv s' where
  fresh := hfresh
  held := by
    rw [hmain, hslot]
    exact fun hm j hj => (hlive j).mpr (h.held hm j hj)
  torn := by
    rw [hmain, hslot]
    exact fun hm j hj hl => h.torn hm j hj ((hlive j).mp hl)
  owner := by
    rw [hmain, hslot]
    exact fun j hj => h.owner j ((hlive j).mp hj)
  assigning := by
    rw [hmain, hslot]
    exact fun j hj => ⟨(h.assigning j hj).1, (hlive j).mpr (h.assigning j hj).2⟩
  scope := by
    rw [hmain, hslot]
    exact h.scope

theorem SlotInv.lt_launched {s : State} (h : SlotInv s) {j : ℕ} {job : ProofJob}
    (hj : s.jobs j = some job) : j < s.launched := by
  by_contra hge
  rw [h.fresh j (Nat.not_lt.mp hge)] at hj
  cases hj

theorem fresh_setJob {s : State} (h : SlotInv s) {j : ℕ} {old : ProofJob}
    (hj : s.jobs j = some old) (job : ProofJob) :
    ∀ i, (s.setJob j job).launched ≤ i → (s.setJob j job).jobs i = none := by
  intro i hi
  have hlt := h.lt_launched hj
  have hi : s.launched ≤ i := hi
  show Function.update s.jobs j _ i = none
  rw [Function.update_of_ne (by omega), h.fresh i hi]

theorem slotInv_start {s : State} (h : SlotInv s) {j : ℕ} (hj : s.jobs j = some ⟨.queued, false⟩) :
    SlotInv (s.setJob j ⟨.running, false⟩) := by
  refine h.of_live (fun i => ?_) (fresh_setJob h hj _) rfl rfl
  rw [live_setJob]
  split
  next hij =>
    subst hij
    exact ⟨fun _ => ⟨_, hj, by decide, rfl⟩, fun _ => ⟨by decide, rfl⟩⟩
  next => exact Iff.rfl

theorem slotInv_discard {s : State} (h : SlotInv s) {j : ℕ} (hj : s.jobs j = some ⟨.queued, true⟩) :
    SlotInv (s.setJob j ⟨.ended, true⟩) := by
  refine h.of_live (fun i => ?_) (fresh_setJob h hj _) rfl rfl
  rw [live_setJob]
  split
  next hij =>
    subst hij
    refine ⟨fun hend => absurd rfl hend.1, ?_⟩
    rintro ⟨job, hjob, -, hlive⟩
    rw [hj] at hjob
    obtain rfl := Option.some.inj hjob
    cases hlive
  next => exact Iff.rfl

/-- The `finally` block empties the slot: it was the coroutine's own, or nobody's that matters. -/
theorem slotInv_finish {s : State} (h : SlotInv s) {j : ℕ} {cancelled : Bool}
    (hj : s.jobs j = some ⟨.running, cancelled⟩) (hgood : Orderly s (.finish j)) :
    SlotInv { s.setJob j ⟨.ended, cancelled⟩ with inFlight := none } := by
  obtain ⟨hmain, hslot⟩ := hgood
  have hlive : ∀ i, State.Live { s.setJob j ⟨.ended, cancelled⟩ with inFlight := none } i →
      i ≠ j ∧ s.Live i := by
    intro i hi
    have hi : (s.setJob j ⟨.ended, cancelled⟩).Live i := hi
    rw [live_setJob] at hi
    split at hi
    · exact absurd rfl hi.1
    next hij => exact ⟨hij, hi⟩
  refine ⟨fresh_setJob h hj _, ?_, ?_, ?_, ?_, fun _ => rfl⟩
  · intro _ i hi
    cases hi
  · intro _ i hi
    cases hi
  · intro i hi
    obtain ⟨hne, job, hjob, hphase, hcancelled⟩ := hlive i hi
    rcases h.owner i ⟨job, hjob, hphase, hcancelled⟩ with hown | hassigning
    · exact absurd (hslot i job hown hjob hcancelled) hne
    · exact .inr hassigning
  · intro i hi
    have hne : i ≠ j := by
      rintro rfl
      exact hmain hi
    refine ⟨rfl, ?_⟩
    show (s.setJob j ⟨.ended, cancelled⟩).Live i
    rw [live_setJob, if_neg hne]
    exact (h.assigning i hi).2

theorem slotInv_request {s : State} (h : SlotInv s) (hidle : s.main = .idle) (replyTo request : Bool)
    (hgood : Orderly s (.proveRequest replyTo request)) :
    SlotInv (handleProveRequest s replyTo request).2 := by
  rw [handleProveRequest]
  split_ifs with hreply hrequest hbusy
  · exact h
  · exact h
  · exact h
  have hslot : s.inFlight = none := by simpa using hbusy
  have hscope : s.scopeCancelled = false :=
    hgood (by simpa using hreply) (by simpa using hrequest) hslot
  -- nothing else is live: the slot is empty and the looper was idle
  have hnone : ∀ i, ¬ s.Live i := by
    intro i hi
    rcases h.owner i hi with hown | hassigning
    · rw [hslot] at hown
      cases hown
    · rw [hidle] at hassigning
      cases hassigning
  have hnew : State.Live (s.setJob s.launched ⟨.queued, s.scopeCancelled⟩) s.launched := by
    rw [live_setJob, if_pos rfl]
    exact ⟨fun hend => (nomatch hend), hscope⟩
  refine ⟨?_, ?_, ?_, ?_, ?_, ?_⟩
  · intro i hi
    have hi : s.launched + 1 ≤ i := hi
    show Function.update s.jobs s.launched _ i = none
    rw [Function.update_of_ne (by omega), h.fresh i (by omega)]
  · intro _ i hi
    exact absurd (hslot.symm.trans hi) (by simp)
  · intro hteardown
    exact hteardown.elim
  · intro i hi
    have hi : (s.setJob s.launched ⟨.queued, s.scopeCancelled⟩).Live i := hi
    rw [live_setJob] at hi
    split at hi
    next hij => exact .inr (by rw [hij])
    next => exact absurd hi (hnone i)
  · intro i hi
    obtain rfl := MainLooper.assigning.inj hi
    exact ⟨hslot, hnew⟩
  · intro hscope'
    cases hscope'

theorem slotInv_assign {s : State} (h : SlotInv s) {j : ℕ} (hj : s.main = .assigning j) :
    SlotInv { s with inFlight := some j, main := .idle } := by
  obtain ⟨hslot, hlive⟩ := h.assigning j hj
  refine ⟨h.fresh, ?_, fun hteardown => hteardown.elim, ?_, ?_, ?_⟩
  · intro _ i hi
    obtain rfl := Option.some.inj hi
    exact hlive
  · intro i hi
    rcases h.owner i hi with hown | hassigning
    · rw [hslot] at hown
      cases hown
    · obtain rfl := MainLooper.assigning.inj (hj.symm.trans hassigning)
      exact .inl rfl
  · intro i hi
    cases hi
  · intro hscope
    cases hscope

theorem slotInv_teardown {s : State} (h : SlotInv s) (hidle : s.main = .idle) (destroying : Bool) :
    SlotInv (teardownWebView s destroying) := by
  have hidle' : ¬ s.main.inTeardown := by
    rw [hidle]
    exact id
  have hnone : ∀ i, ¬ (teardownWebView s destroying).Live i := by
    rintro i ⟨job, hjob, hphase, hcancelled⟩
    -- the one live job is the one in the slot, and it has been cancelled
    have hlive : s.Live i ∧ s.inFlight ≠ some i := by
      simp only [teardownWebView] at hjob
      cases hslot : s.inFlight with
      | none =>
          rw [hslot] at hjob
          exact ⟨⟨job, hjob, hphase, hcancelled⟩, by simp⟩
      | some k =>
          rw [hslot] at hjob
          dsimp only at hjob
          by_cases hik : i = k
          · subst hik
            rw [Function.update_self] at hjob
            obtain ⟨old, -, rfl⟩ := Option.map_eq_some_iff.mp hjob
            cases hcancelled
          · rw [Function.update_of_ne hik] at hjob
            exact ⟨⟨job, hjob, hphase, hcancelled⟩, fun heq => hik (Option.some.inj heq).symm⟩
    rcases h.owner i hlive.1 with hown | hassigning
    · exact hlive.2 hown
    · rw [hidle] at hassigning
      cases hassigning
  refine ⟨?_, fun hm => absurd trivial hm, fun _ i _ => hnone i, fun i hi => absurd hi (hnone i), ?_, ?_⟩
  · intro i hi
    have hi : s.launched ≤ i := hi
    show (match s.inFlight with
      | none => s.jobs
      | some j => Function.update s.jobs j ((s.jobs j).map ProofJob.cancel)) i = none
    cases hslot : s.inFlight with
    | none => exact h.fresh i hi
    | some j =>
        obtain ⟨job, hjob, -⟩ := h.held hidle' j hslot
        have hlt := h.lt_launched hjob
        show Function.update s.jobs j _ i = none
        rw [Function.update_of_ne (by omega), h.fresh i hi]
  · intro i hi
    cases hi
  · intro hscope
    cases hscope

theorem slotInv_clear {s : State} (h : SlotInv s) {destroying : Bool}
    (hm : s.main = .tearingDown destroying) : SlotInv { s with
      inFlight := none, main := if destroying then .cancellingScope else .idle } := by
  have hteardown : s.main.inTeardown := by
    rw [hm]
    trivial
  have hnone : ∀ i, ¬ s.Live i := by
    intro i hi
    rcases h.owner i hi with hown | hassigning
    · exact h.torn hteardown i hown hi
    · rw [hm] at hassigning
      cases hassigning
  refine ⟨h.fresh, ?_, ?_, fun i hi => absurd hi (hnone i), ?_, fun _ => rfl⟩
  · intro _ i hi
    cases hi
  · intro _ i hi
    cases hi
  · intro i hi
    cases destroying <;> cases hi

theorem slotInv_cancelScope {s : State} (h : SlotInv s) (hm : s.main = .cancellingScope) :
    SlotInv { s with
      jobs := fun j => (s.jobs j).map ProofJob.cancel, scopeCancelled := true, main := .idle } := by
  refine ⟨?_, ?_, fun hteardown => hteardown.elim, ?_, ?_, ?_⟩
  · intro i hi
    show (s.jobs i).map _ = none
    rw [h.fresh i hi]
    rfl
  · intro _ i hi
    exact absurd ((h.scope hm).symm.trans hi) (by simp)
  · rintro i ⟨job, hjob, -, hcancelled⟩
    obtain ⟨old, -, rfl⟩ := Option.map_eq_some_iff.mp hjob
    cases hcancelled
  · intro i hi
    cases hi
  · intro hscope
    cases hscope

theorem slotInv_step {s s' : State} {st : Step} (h : SlotInv s) (hgood : Orderly s st)
    (hs : service.step s st = some s') : SlotInv s' := by
  cases st with
  | proveRequest replyTo request =>
      obtain ⟨hidle, hs⟩ := Option.ite_none_right_eq_some.mp hs
      cases hs
      exact slotInv_request h hidle replyTo request hgood
  | assign =>
      simp only [service] at hs
      split at hs
      next j hj =>
        cases hs
        exact slotInv_assign h hj
      next => cases hs
  | onUnbind =>
      obtain ⟨hidle, hs⟩ := Option.ite_none_right_eq_some.mp hs
      cases hs
      exact slotInv_teardown h hidle false
  | onDestroy =>
      obtain ⟨hidle, hs⟩ := Option.ite_none_right_eq_some.mp hs
      cases hs
      exact slotInv_teardown h hidle true
  | clear =>
      simp only [service] at hs
      split at hs
      next destroying hm =>
        cases hs
        exact slotInv_clear h hm
      next => cases hs
  | cancelScope =>
      obtain ⟨hm, hs⟩ := Option.ite_none_right_eq_some.mp hs
      cases hs
      exact slotInv_cancelScope h hm
  | start j =>
      obtain ⟨hj, hs⟩ := Option.ite_none_right_eq_some.mp hs
      cases hs
      exact slotInv_start h hj
  | discard j =>
      obtain ⟨hj, hs⟩ := Option.ite_none_right_eq_some.mp hs
      cases hs
      exact slotInv_discard h hj
  | finish j =>
      simp only [service] at hs
      split at hs
      next cancelled hj =>
        cases hs
        exact slotInv_finish h hj hgood
      next => cases hs

/-- In every run whose steps are all orderly. -/
theorem never_wedges {s : State} (h : service.Later Orderly .onCreate s) : NeverWedges s :=
  (h.invariant (fun _ _ _ hI hgood hs => slotInv_step hI hgood hs) slotInv_onCreate).neverWedges

/-- A test for `Orderly`. -/
def inOrder (s : State) : Step → Bool
  | .proveRequest replyTo request => !(replyTo && request && s.inFlight.isNone && s.scopeCancelled)
  | .finish j => s.main != .assigning j &&
      match s.inFlight with
      | none => true
      | some k => k == j || (s.jobs k).all ProofJob.cancelled
  | _ => true

theorem orderly_of_inOrder {s : State} {st : Step} (h : inOrder s st = true) : Orderly s st := by
  cases st with
  | proveRequest replyTo request =>
      rintro rfl rfl hslot
      simpa [inOrder, hslot] using h
  | finish j =>
      simp only [inOrder, Bool.and_eq_true, bne_iff_ne] at h
      refine ⟨h.1, fun k job hk hjob hcancelled => ?_⟩
      have hrest := h.2
      rw [hk] at hrest
      simpa [hjob, hcancelled] using hrest
  | _ => trivial

/-- A proof that is cancelled by an unbind and ends, then one that runs to its end. -/
def twoProofs : List Step :=
  [.proveRequest true true, .assign, .start 0, .onUnbind, .clear, .finish 0,
    .proveRequest true true, .assign, .start 1, .finish 1]

theorem never_wedges_twoProofs : ∃ s, service.run .onCreate twoProofs = some s ∧ s.launched = 2 ∧
    s.inFlight = none ∧ NeverWedges s := by
  have hrun : service.runChecked inOrder .onCreate twoProofs =
      service.run .onCreate twoProofs := rfl
  exact ⟨_, rfl, rfl, rfl, never_wedges (Machine.later_of_runChecked
    (fun _ _ => orderly_of_inOrder) hrun)⟩

/-- A coroutine that fails before its slot is assigned. -/
def fastFailure : List Step := [.proveRequest true true, .start 0, .finish 0, .assign]

theorem wedges : ¬ ∀ (ls : List Step) (s : State), service.run .onCreate ls = some s →
    NeverWedges s := by
  intro h
  have hslot := (h fastFailure _ rfl).empty (by exact id) ?_
  · cases hslot
  · rintro j ⟨job, hjob, hphase⟩
    by_cases hj : j = 0
    · subst hj
      cases hjob
      exact hphase rfl
    · change Function.update (Function.update (Function.update (fun _ => none) 0 _) 0 _) 0 _ j =
        some job at hjob
      rw [Function.update_of_ne hj, Function.update_of_ne hj, Function.update_of_ne hj] at hjob
      cases hjob

end ProverService

end ZeroAuth.Android
