/-
  ZeroAuth.Android.ScanSecrets

  What becomes of the face secrets of the sign-in view model (android/.../ui/scan/
  ScanViewModel.kt).  `onFaceCaptureSucceeded` hands its copy to the deferred that a coroutine
  awaits, and only that coroutine's resumption overwrites it.  A copy is lost when the deferred
  has an outcome already, and when the coroutine is cancelled between the completion and its
  resumption; in the runs without these no copy and no credential survives (`secrets_gone`).
-/

import ZeroAuth.Android.ScanFlow

namespace ZeroAuth.Android

open ZeroAuth.Js ZeroAuth.Lib

namespace ScanViewModel

/-! ## The property and the condition -/

/-- No coroutine of the view model is left. -/
def Quiet (vm : ScanViewModel) : Prop := ∀ j job, vm.jobs j = some job → job.point = .ended

/-- Every copy holds zeros only, and every credential has been closed. -/
structure SecretsGone (vm : ScanViewModel) : Prop where
  zeroed : ∀ c bytes, vm.secrets c = some bytes → ∀ b ∈ bytes, b = 0
  closed : ∀ k closed, vm.credentials k = some closed → closed = true

/-- The coroutine awaits a deferred that has been completed with a secret: it is to be resumed with it. -/
def HoldsSecret (vm : ScanViewModel) (j : ℕ) : Prop :=
  ∃ d challenge cancelled secret, vm.jobs j = some ⟨.awaitingFace d challenge, cancelled⟩ ∧
    vm.deferreds d = some (.succeeded secret)

/-- A secret comes only for a capture that has no outcome yet and whose coroutine has not been cancelled,
    and no coroutine is cancelled between the completion of its capture and its resumption. -/
def Careful (vm : ScanViewModel) : ScanEvent → Prop
  | .onFaceCaptureSucceeded secret => secret.length = 32 → ∀ d, vm.pendingFaceCapture = some d →
      vm.deferreds d = none ∧ ∃ j challenge, vm.jobs j = some ⟨.awaitingFace d challenge, false⟩
  | .onBiometricApproved _ _ _ => ∀ challenge, vm.state = .challengeParsed challenge →
      ∀ j, vm.inFlightJob = some j → ¬ vm.HoldsSecret j
  | .authorizeOnPhone _ _ => ∀ qrText sessionId, vm.state = .proofReady qrText sessionId →
      ∀ j, vm.inFlightJob = some j → ¬ vm.HoldsSecret j
  | .retry _ _ => ∀ j, vm.inFlightJob = some j → ¬ vm.HoldsSecret j
  | .onCleared => ∀ j, ¬ vm.HoldsSecret j
  | _ => True

/-! ## The invariant -/

/-- Every copy that is not zero is on its way to a coroutine, and every open credential is in the hands of
    one. -/
structure SecretInv (vm : ScanViewModel) : Prop where
  fresh : ∀ i, vm.next ≤ i → vm.deferreds i = none ∧ vm.jobs i = none ∧ vm.secrets i = none ∧
    vm.credentials i = none
  pending : ∀ d, vm.pendingFaceCapture = some d → d < vm.next
  awaited : ∀ j d challenge cancelled, vm.jobs j = some ⟨.awaitingFace d challenge, cancelled⟩ →
    d < vm.next
  generating : ∀ j k challenge cancelled, vm.jobs j = some ⟨.generating k challenge, cancelled⟩ →
    k < vm.next
  owned : ∀ c bytes, vm.secrets c = some bytes → (∃ b ∈ bytes, b ≠ 0) →
    ∃ j d challenge, vm.jobs j = some ⟨.awaitingFace d challenge, false⟩ ∧
      vm.deferreds d = some (.succeeded c)
  opened : ∀ k, vm.credentials k = some false →
    ∃ j challenge cancelled, vm.jobs j = some ⟨.generating k challenge, cancelled⟩

theorem secretInv_create : SecretInv create where
  fresh _ _ := ⟨rfl, rfl, rfl, rfl⟩
  pending := by
    intro d hd
    cases hd
  awaited := by
    intro j d challenge cancelled hj
    cases hj
  generating := by
    intro j k challenge cancelled hj
    cases hj
  owned := by
    intro c bytes hc
    cases hc
  opened := by
    intro k hk
    cases hk

theorem SecretInv.secretsGone {vm : ScanViewModel} (h : SecretInv vm) (hquiet : vm.Quiet) :
    SecretsGone vm where
  zeroed := by
    intro c bytes hc b hb
    by_contra hne
    obtain ⟨j, d, challenge, hj, -⟩ := h.owned c bytes hc ⟨b, hb, hne⟩
    cases hquiet j _ hj
  closed := by
    intro k closed hk
    cases closed with
    | true => rfl
    | false =>
        obtain ⟨j, challenge, cancelled, hj⟩ := h.opened k hk
        cases hquiet j _ hj

variable {vm : ScanViewModel}

theorem SecretInv.lt_of_job (h : SecretInv vm) {j : ℕ} {job : ScanJob} (hj : vm.jobs j = some job) :
    j < vm.next := by
  by_contra hge
  rw [(h.fresh j (Nat.not_lt.mp hge)).2.1] at hj
  cases hj

/-! ## What leaves the copies alone -/

/-- The screen state, the slot and the pending capture may change. -/
theorem SecretInv.congr {vm' : ScanViewModel} (h : SecretInv vm) (hdeferreds : vm'.deferreds = vm.deferreds)
    (hjobs : vm'.jobs = vm.jobs) (hsecrets : vm'.secrets = vm.secrets)
    (hcredentials : vm'.credentials = vm.credentials) (hnext : vm'.next = vm.next)
    (hpending : ∀ d, vm'.pendingFaceCapture = some d → d < vm.next) : SecretInv vm' where
  fresh := by
    rw [hdeferreds, hjobs, hsecrets, hcredentials, hnext]
    exact h.fresh
  pending := by
    rw [hnext]
    exact hpending
  awaited := by
    rw [hjobs, hnext]
    exact h.awaited
  generating := by
    rw [hjobs, hnext]
    exact h.generating
  owned := by
    rw [hsecrets, hjobs, hdeferreds]
    exact h.owned
  opened := by
    rw [hcredentials, hjobs]
    exact h.opened

theorem SecretInv.setState (h : SecretInv vm) (state : ScanState) : SecretInv { vm with state := state } :=
  h.congr rfl rfl rfl rfl rfl h.pending

theorem SecretInv.noPending (h : SecretInv vm) : SecretInv { vm with pendingFaceCapture := none } :=
  h.congr rfl rfl rfl rfl rfl fun _ hd => (nomatch hd)

/-! ## One object -/

theorem secretInv_fillZero (h : SecretInv vm) (c : ℕ) : SecretInv (vm.fillZero c) where
  fresh i hi := by
    obtain ⟨hd, hj, hs, hk⟩ := h.fresh i hi
    refine ⟨hd, hj, ?_, hk⟩
    show Function.update vm.secrets c _ i = none
    by_cases hic : i = c
    · subst hic
      rw [Function.update_self, hs]
      rfl
    · rw [Function.update_of_ne hic, hs]
  pending := h.pending
  awaited := h.awaited
  generating := h.generating
  owned := by
    intro c' bytes hc' hne
    have hc' : Function.update vm.secrets c _ c' = some bytes := hc'
    by_cases hcc : c' = c
    · -- the overwritten copy is not to be owned
      subst hcc
      rw [Function.update_self] at hc'
      obtain ⟨old, -, rfl⟩ := Option.map_eq_some_iff.mp hc'
      obtain ⟨b, hb, hb0⟩ := hne
      obtain ⟨_, -, rfl⟩ := List.mem_map.mp hb
      exact absurd rfl hb0
    · rw [Function.update_of_ne hcc] at hc'
      exact h.owned c' bytes hc' hne
  opened := h.opened

theorem zero_of_fillZero {c : ℕ} {bytes : List UInt8} (hc : (vm.fillZero c).secrets c = some bytes) :
    ∀ b ∈ bytes, b = 0 := by
  have hc : Function.update vm.secrets c _ c = some bytes := hc
  rw [Function.update_self] at hc
  obtain ⟨old, -, rfl⟩ := Option.map_eq_some_iff.mp hc
  intro b hb
  obtain ⟨_, -, rfl⟩ := List.mem_map.mp hb
  rfl

theorem secretInv_closeCredential (h : SecretInv vm) {k : ℕ} (hk : k < vm.next) :
    SecretInv (vm.closeCredential k) where
  fresh i hi := by
    obtain ⟨hd, hj, hs, hc⟩ := h.fresh i hi
    have hi : vm.next ≤ i := hi
    refine ⟨hd, hj, hs, ?_⟩
    show Function.update vm.credentials k _ i = none
    rw [Function.update_of_ne (by omega), hc]
  pending := h.pending
  awaited := h.awaited
  generating := h.generating
  owned := h.owned
  opened := by
    intro k' hk'
    have hk' : Function.update vm.credentials k _ k' = some false := hk'
    by_cases hkk : k' = k
    · subst hkk
      rw [Function.update_self] at hk'
      cases hk'
    · rw [Function.update_of_ne hkk] at hk'
      exact h.opened k' hk'

theorem secretInv_complete (h : SecretInv vm) {d : ℕ} (hd : d < vm.next) (outcome : FaceCaptureOutcome) :
    SecretInv (vm.complete d outcome) := by
  rw [complete]
  cases hold : vm.deferreds d with
  | some _ => exact h
  | none =>
      refine ⟨fun i hi => ?_, h.pending, h.awaited, h.generating, ?_, h.opened⟩
      · obtain ⟨hdi, hj, hs, hc⟩ := h.fresh i hi
        have hi : vm.next ≤ i := hi
        refine ⟨?_, hj, hs, hc⟩
        show Function.update vm.deferreds d _ i = none
        rw [Function.update_of_ne (by omega), hdi]
      · intro c bytes hc hne
        obtain ⟨j, d', challenge, hj, hd'⟩ := h.owned c bytes hc hne
        refine ⟨j, d', challenge, hj, ?_⟩
        show Function.update vm.deferreds d _ d' = _
        rw [Function.update_of_ne, hd']
        rintro rfl
        rw [hold] at hd'
        cases hd'

/-- A job may change when it has no copy to overwrite and keeps its open credential. -/
theorem SecretInv.setJob (h : SecretInv vm) {j : ℕ} (hj : j < vm.next) {job : ScanJob}
    (hpoint : ∀ d challenge, job.point = .awaitingFace d challenge → d < vm.next)
    (hpoint' : ∀ k challenge, job.point = .generating k challenge → k < vm.next)
    (hsecret : ∀ d challenge c bytes, vm.jobs j = some ⟨.awaitingFace d challenge, false⟩ →
      vm.deferreds d = some (.succeeded c) → vm.secrets c = some bytes → ∀ b ∈ bytes, b = 0)
    (hcredential : ∀ k challenge cancelled, vm.jobs j = some ⟨.generating k challenge, cancelled⟩ →
      vm.credentials k = some false → ∃ challenge cancelled, job = ⟨.generating k challenge, cancelled⟩) :
    SecretInv (vm.setJob j job) where
  fresh i hi := by
    obtain ⟨hd, hji, hs, hc⟩ := h.fresh i hi
    have hi : vm.next ≤ i := hi
    refine ⟨hd, ?_, hs, hc⟩
    show Function.update vm.jobs j _ i = none
    rw [Function.update_of_ne (by omega), hji]
  pending := h.pending
  awaited := by
    intro i d challenge cancelled hi
    have hi : Function.update vm.jobs j _ i = some _ := hi
    by_cases hij : i = j
    · subst hij
      rw [Function.update_self] at hi
      exact hpoint d challenge (by rw [Option.some.inj hi])
    · rw [Function.update_of_ne hij] at hi
      exact h.awaited i d challenge cancelled hi
  generating := by
    intro i k challenge cancelled hi
    have hi : Function.update vm.jobs j _ i = some _ := hi
    by_cases hij : i = j
    · subst hij
      rw [Function.update_self] at hi
      exact hpoint' k challenge (by rw [Option.some.inj hi])
    · rw [Function.update_of_ne hij] at hi
      exact h.generating i k challenge cancelled hi
  owned := by
    -- a copy that is not yet zero belongs to another job
    intro c bytes hc hne
    obtain ⟨i, d, challenge, hi, hd⟩ := h.owned c bytes hc hne
    refine ⟨i, d, challenge, ?_, hd⟩
    show Function.update vm.jobs j _ i = _
    rw [Function.update_of_ne, hi]
    rintro rfl
    obtain ⟨b, hb, hb0⟩ := hne
    exact hb0 (hsecret d challenge c bytes hi hd hc b hb)
  opened := by
    intro k hk
    obtain ⟨i, challenge, cancelled, hi⟩ := h.opened k hk
    by_cases hij : i = j
    · subst hij
      -- the job keeps its open credential
      obtain ⟨challenge', cancelled', hjob⟩ := hcredential k challenge cancelled hi hk
      refine ⟨i, challenge', cancelled', ?_⟩
      show Function.update vm.jobs i _ i = _
      rw [Function.update_self, hjob]
    · refine ⟨i, challenge, cancelled, ?_⟩
      show Function.update vm.jobs j _ i = _
      rw [Function.update_of_ne hij, hi]

/-- A job may end when it has no copy to overwrite and its credential is closed. -/
theorem SecretInv.endJob (h : SecretInv vm) {j : ℕ} {job : ScanJob} (hj : vm.jobs j = some job)
    (hsecret : ∀ d challenge c bytes, job = ⟨.awaitingFace d challenge, false⟩ →
      vm.deferreds d = some (.succeeded c) → vm.secrets c = some bytes → ∀ b ∈ bytes, b = 0)
    (hcredential : ∀ k challenge, job.point = .generating k challenge → vm.credentials k ≠ some false)
    (cancelled : Bool) : SecretInv (vm.endJob j cancelled) := by
  refine h.setJob (h.lt_of_job hj) (fun _ _ hp => (nomatch hp)) (fun _ _ hp => (nomatch hp)) ?_ ?_
  · intro d challenge c bytes hj'
    exact hsecret d challenge c bytes (Option.some.inj (hj.symm.trans hj'))
  · intro k challenge cancelled' hj' hopen
    exact absurd hopen (hcredential k challenge (by rw [Option.some.inj (hj.symm.trans hj')]))

theorem credentials_closeCredential (k : ℕ) : (vm.closeCredential k).credentials k ≠ some false := by
  show Function.update vm.credentials k (some true) k ≠ some false
  rw [Function.update_self]
  simp

/-! ## Exceptions and cancellation -/

/-- A cancelled job holds no copy; it ends with its credential closed. -/
theorem SecretInv.throwAt (h : SecretInv vm) {j : ℕ} {point : SuspensionPoint}
    (hj : vm.jobs j = some ⟨point, true⟩) (code message : JsString) :
    SecretInv (vm.throwAt j ⟨point, true⟩ code message) := by
  have hcancelled : ∀ d challenge, (⟨point, true⟩ : ScanJob) ≠ ⟨.awaitingFace d challenge, false⟩ := by
    intro d challenge heq
    cases congrArg ScanJob.cancelled heq
  cases point with
  | awaitingFace d challenge =>
      refine SecretInv.endJob (h.noPending.setState _) hj
        (fun d' challenge' _ _ heq => absurd heq (hcancelled d' challenge')) ?_ true
      intro k challenge' hpoint
      cases hpoint
  | generating k challenge =>
      have hk := h.generating j k challenge true hj
      refine SecretInv.endJob (secretInv_closeCredential (h.setState (.error code message)) hk) hj
        (fun d' challenge' _ _ heq => absurd heq (hcancelled d' challenge')) ?_ true
      intro k' challenge' hpoint
      cases hpoint
      exact credentials_closeCredential k
  | submitting =>
      refine SecretInv.endJob (h.setState (.error code message)) hj
        (fun d' challenge' _ _ heq => absurd heq (hcancelled d' challenge')) ?_ true
      intro k challenge' hpoint
      cases hpoint
  | ended => exact h

theorem SecretInv.cancelInFlight (h : SecretInv vm)
    (hholds : ∀ j, vm.inFlightJob = some j → ¬ vm.HoldsSecret j) (atOnce : Bool) (message : JsString) :
    SecretInv (vm.cancelInFlight atOnce message) := by
  rw [ScanViewModel.cancelInFlight]
  cases hslot : vm.inFlightJob with
  | none => exact h
  | some j =>
      dsimp only
      cases hj : vm.jobs j with
      | none => exact h
      | some job =>
          have hmarked : SecretInv (vm.setJob j { job with cancelled := true }) := by
            refine h.setJob (h.lt_of_job hj) ?_ ?_ ?_ ?_
            · intro d challenge hpoint
              exact h.awaited j d challenge job.cancelled (by rw [hj, ← hpoint])
            · intro k challenge hpoint
              exact h.generating j k challenge job.cancelled (by rw [hj, ← hpoint])
            · intro d challenge c bytes hj' hd
              exact absurd ⟨d, challenge, false, c, hj', hd⟩ (hholds j hslot)
            · intro k challenge cancelled hj' _
              obtain rfl := Option.some.inj (hj.symm.trans hj')
              exact ⟨challenge, true, rfl⟩
          dsimp only
          split
          · exact hmarked.throwAt (Function.update_self j _ vm.jobs) _ message
          · exact hmarked

/-! ## The callbacks -/

/-- A new job that holds nothing. -/
theorem SecretInv.launch {vm' : ScanViewModel} (h : SecretInv vm) {job : ScanJob}
    (hjobs : vm'.jobs = Function.update vm.jobs vm.next (some job))
    (hdeferreds : vm'.deferreds = vm.deferreds) (hsecrets : vm'.secrets = vm.secrets)
    (hcredentials : vm'.credentials = vm.credentials) (hnext : vm.next < vm'.next)
    (hpending : ∀ d, vm'.pendingFaceCapture = some d → d < vm'.next)
    (hpoint : ∀ d challenge, job.point = .awaitingFace d challenge → d < vm'.next)
    (hpoint' : ∀ k challenge, job.point ≠ .generating k challenge) : SecretInv vm' := by
  -- the job that begins has a new number, so the others stay
  have hkept : ∀ {i : ℕ} {old : ScanJob}, vm.jobs i = some old → vm'.jobs i = some old := by
    intro i old hi
    have hlt := h.lt_of_job hi
    rw [hjobs, Function.update_of_ne (by omega), hi]
  -- and a job is the new one or an old one
  have hcases : ∀ {i : ℕ} {found : ScanJob}, vm'.jobs i = some found →
      found = job ∨ vm.jobs i = some found := by
    intro i found hi
    rw [hjobs] at hi
    by_cases hin : i = vm.next
    · subst hin
      rw [Function.update_self] at hi
      exact .inl (Option.some.inj hi).symm
    · rw [Function.update_of_ne hin] at hi
      exact .inr hi
  refine ⟨fun i hi => ?_, hpending, ?_, ?_, ?_, ?_⟩
  · obtain ⟨hd, hj, hs, hc⟩ := h.fresh i (by omega)
    rw [hdeferreds, hsecrets, hcredentials, hjobs, Function.update_of_ne (by omega)]
    exact ⟨hd, hj, hs, hc⟩
  · intro i d challenge cancelled hi
    rcases hcases hi with heq | hi
    · exact hpoint d challenge (by rw [← heq])
    · exact (h.awaited i d challenge cancelled hi).trans hnext
  · intro i k challenge cancelled hi
    rcases hcases hi with heq | hi
    · exact absurd (by rw [← heq]) (hpoint' k challenge)
    · exact (h.generating i k challenge cancelled hi).trans hnext
  · intro c bytes hc hne
    rw [hsecrets] at hc
    obtain ⟨i, d, challenge, hi, hd⟩ := h.owned c bytes hc hne
    exact ⟨i, d, challenge, hkept hi, by rw [hdeferreds, hd]⟩
  · intro k hk
    rw [hcredentials] at hk
    obtain ⟨i, challenge, cancelled, hi⟩ := h.opened k hk
    exact ⟨i, challenge, cancelled, hkept hi⟩

theorem SecretInv.launchProofFlow (h : SecretInv vm) (email : JsString) (challenge : DesktopChallenge) :
    SecretInv (vm.launchProofFlow email challenge) := by
  have hpending : ∀ d, vm.pendingFaceCapture = some d → d < vm.next + 1 :=
    fun d hd => Nat.lt_succ_of_lt (h.pending d hd)
  rw [ScanViewModel.launchProofFlow]
  split
  · -- a launch in a cancelled scope: the body never runs
    exact h.launch rfl rfl rfl rfl (Nat.lt_succ_self _) hpending (fun _ _ hp => (nomatch hp))
      fun _ _ hp => (nomatch hp)
  · refine h.launch rfl rfl rfl rfl (show vm.next < vm.next + 2 by omega) ?_ ?_
      fun _ _ hp => (nomatch hp)
    · intro d hd
      obtain rfl := Option.some.inj hd
      exact Nat.lt_succ_self _
    · intro d challenge' hp
      cases hp
      exact Nat.lt_succ_self _

theorem SecretInv.launchAuthorize (h : SecretInv vm) : SecretInv vm.launchAuthorize := by
  have hpending : ∀ d, vm.pendingFaceCapture = some d → d < vm.next + 1 :=
    fun d hd => Nat.lt_succ_of_lt (h.pending d hd)
  rw [ScanViewModel.launchAuthorize]
  split
  · exact h.launch rfl rfl rfl rfl (Nat.lt_succ_self _) hpending (fun _ _ hp => (nomatch hp))
      fun _ _ hp => (nomatch hp)
  · exact h.launch rfl rfl rfl rfl (Nat.lt_succ_self _) hpending (fun _ _ hp => (nomatch hp))
      fun _ _ hp => (nomatch hp)

theorem SecretInv.dropPending (h : SecretInv vm) : SecretInv vm.dropPending := by
  refine SecretInv.noPending ?_
  rw [ScanViewModel.onFaceCaptureCancelled]
  cases hpending : vm.pendingFaceCapture with
  | none => exact h
  | some d => exact secretInv_complete h (h.pending d hpending) .cancelled

/-- A new copy: overwritten at once, or handed to the deferred that a coroutine awaits. -/
theorem SecretInv.onFaceCaptureSucceeded (h : SecretInv vm) {secret : List UInt8}
    (hgood : Careful vm (.onFaceCaptureSucceeded secret)) :
    SecretInv (vm.onFaceCaptureSucceeded secret) := by
  rw [ScanViewModel.onFaceCaptureSucceeded]
  split
  · exact h
  next hlength =>
  have hlength : secret.length = 32 := not_not.mp hlength
  have hfresh : ∀ i, vm.next + 1 ≤ i → vm.deferreds i = none ∧ vm.jobs i = none ∧
      Function.update vm.secrets vm.next (some secret) i = none ∧ vm.credentials i = none := by
    intro i hi
    obtain ⟨hd, hj, hs, hc⟩ := h.fresh i (by omega)
    exact ⟨hd, hj, by rw [Function.update_of_ne (by omega), hs], hc⟩
  have hpending : ∀ d, vm.pendingFaceCapture = some d → d < vm.next + 1 :=
    fun d hd => Nat.lt_succ_of_lt (h.pending d hd)
  have hawaited : ∀ j d challenge cancelled, vm.jobs j = some ⟨.awaitingFace d challenge, cancelled⟩ →
      d < vm.next + 1 :=
    fun j d challenge cancelled hj => Nat.lt_succ_of_lt (h.awaited j d challenge cancelled hj)
  have hgenerating : ∀ j k challenge cancelled, vm.jobs j = some ⟨.generating k challenge, cancelled⟩ →
      k < vm.next + 1 :=
    fun j k challenge cancelled hj => Nat.lt_succ_of_lt (h.generating j k challenge cancelled hj)
  dsimp only
  cases hslot : vm.pendingFaceCapture with
  | none =>
      have hdropped : SecretInv (ScanViewModel.fillZero { vm with
          secrets := Function.update vm.secrets vm.next (some secret)
          next := vm.next + 1 } vm.next) := by
        refine ⟨fun i hi => ?_, hpending, hawaited, hgenerating, ?_, h.opened⟩
        · obtain ⟨hd, hj, hs, hc⟩ := hfresh i hi
          have hi : vm.next + 1 ≤ i := hi
          refine ⟨hd, hj, ?_, hc⟩
          show Function.update (Function.update vm.secrets vm.next (some secret)) vm.next _ i = none
          rw [Function.update_of_ne (by omega), hs]
        · intro c bytes hc hne
          by_cases hcn : c = vm.next
          · subst hcn
            obtain ⟨b, hb, hb0⟩ := hne
            exact absurd (zero_of_fillZero hc b hb) hb0
          · have hc : Function.update (Function.update vm.secrets vm.next (some secret)) vm.next _ c =
                some bytes := hc
            rw [Function.update_of_ne hcn, Function.update_of_ne hcn] at hc
            exact h.owned c bytes hc hne
      dsimp only
      split
      · exact hdropped.congr rfl rfl rfl rfl rfl fun _ hd => (nomatch hd)
      · exact hdropped.congr rfl rfl rfl rfl rfl fun _ hd => (nomatch hd)
  | some d =>
      obtain ⟨hopen, j, challenge, hj⟩ := hgood hlength d hslot
      have hd := h.pending d hslot
      have hcompleted : ScanViewModel.complete { vm with
          pendingFaceCapture := some d
          secrets := Function.update vm.secrets vm.next (some secret)
          next := vm.next + 1 } d (.succeeded vm.next) = { vm with
          pendingFaceCapture := some d
          secrets := Function.update vm.secrets vm.next (some secret)
          next := vm.next + 1
          deferreds := Function.update vm.deferreds d (some (.succeeded vm.next)) } := by
        unfold complete
        simp only [hopen]
      show SecretInv (ScanViewModel.complete _ d _)
      rw [hcompleted]
      have hpending' : ∀ d', some d = some d' → d' < vm.next + 1 := by
        rw [← hslot]
        exact hpending
      refine ⟨fun i hi => ?_, hpending', hawaited, hgenerating, ?_, h.opened⟩
      · obtain ⟨hdi, hji, hs, hc⟩ := hfresh i hi
        have hi : vm.next + 1 ≤ i := hi
        refine ⟨?_, hji, hs, hc⟩
        show Function.update vm.deferreds d _ i = none
        rw [Function.update_of_ne (by omega), hdi]
      · intro c bytes hc hne
        have hc : Function.update vm.secrets vm.next (some secret) c = some bytes := hc
        by_cases hcn : c = vm.next
        · -- the new copy is in the deferred, and the coroutine is going to be resumed with it
          subst hcn
          exact ⟨j, d, challenge, hj, Function.update_self d _ vm.deferreds⟩
        · rw [Function.update_of_ne hcn] at hc
          obtain ⟨i, d', challenge', hi, hd'⟩ := h.owned c bytes hc hne
          refine ⟨i, d', challenge', hi, ?_⟩
          show Function.update vm.deferreds d _ d' = _
          rw [Function.update_of_ne, hd']
          rintro rfl
          rw [hopen] at hd'
          cases hd'

theorem SecretInv.onCleared (h : SecretInv vm) (hgood : Careful vm .onCleared) :
    SecretInv vm.onCleared := by
  -- first every job is marked as cancelled, then the capture is dropped
  have hmarked : SecretInv { vm with
      jobs := fun j => (vm.jobs j).map fun job => { job with cancelled := true }
      inFlightJob := none
      cleared := true } := by
    -- marking keeps the point where a job is suspended
    have hold : ∀ {i : ℕ} {point : SuspensionPoint} {cancelled : Bool},
        (vm.jobs i).map (fun job => ({ job with cancelled := true } : ScanJob)) =
          some ⟨point, cancelled⟩ → ∃ cancelled', vm.jobs i = some ⟨point, cancelled'⟩ := by
      intro i point cancelled hi
      obtain ⟨⟨point', cancelled'⟩, hjob, heq⟩ := Option.map_eq_some_iff.mp hi
      obtain ⟨rfl, -⟩ := ScanJob.mk.inj heq
      exact ⟨cancelled', hjob⟩
    refine ⟨fun i hi => ?_, h.pending, ?_, ?_, ?_, ?_⟩
    · obtain ⟨hd, hj, hs, hc⟩ := h.fresh i hi
      refine ⟨hd, ?_, hs, hc⟩
      show (vm.jobs i).map _ = none
      rw [hj]
      rfl
    · intro i d challenge cancelled hi
      obtain ⟨cancelled', hi⟩ := hold hi
      exact h.awaited i d challenge cancelled' hi
    · intro i k challenge cancelled hi
      obtain ⟨cancelled', hi⟩ := hold hi
      exact h.generating i k challenge cancelled' hi
    · intro c bytes hc hne
      obtain ⟨i, d, challenge, hi, hd⟩ := h.owned c bytes hc hne
      -- no copy waits for a job that can no longer overwrite it
      exact absurd ⟨d, challenge, false, c, hi, hd⟩ (hgood i)
    · intro k hk
      obtain ⟨i, challenge, cancelled, hi⟩ := h.opened k hk
      refine ⟨i, challenge, true, ?_⟩
      show (vm.jobs i).map _ = _
      rw [hi]
      rfl
  exact hmarked.dropPending

/-! ## The resumptions -/

/-- A job that has nothing gets a new credential. -/
theorem SecretInv.addCredential (h : SecretInv vm) {j : ℕ} {cancelled : Bool}
    (hj : vm.jobs j = some ⟨.ended, cancelled⟩) (challenge : DesktopChallenge) : SecretInv { vm with
      credentials := Function.update vm.credentials vm.next (some false)
      jobs := Function.update vm.jobs j (some ⟨.generating vm.next challenge, false⟩)
      next := vm.next + 1 } := by
  have hlt := h.lt_of_job hj
  -- a job is the one that goes on, with the new credential, or as it was
  have hold : ∀ {i : ℕ} {job : ScanJob}, Function.update vm.jobs j
      (some ⟨.generating vm.next challenge, false⟩) i = some job →
      job = ⟨.generating vm.next challenge, false⟩ ∨ vm.jobs i = some job := by
    intro i job hi
    by_cases hij : i = j
    · subst hij
      rw [Function.update_self] at hi
      exact .inl (Option.some.inj hi).symm
    · rw [Function.update_of_ne hij] at hi
      exact .inr hi
  -- every job with something to lose stays
  have hkept : ∀ {i : ℕ} {point : SuspensionPoint} {c : Bool}, vm.jobs i = some ⟨point, c⟩ →
      point ≠ .ended → Function.update vm.jobs j
        (some ⟨.generating vm.next challenge, false⟩) i = some ⟨point, c⟩ := by
    intro i point c hi hne
    rw [Function.update_of_ne, hi]
    rintro rfl
    rw [hj] at hi
    exact hne (ScanJob.mk.inj (Option.some.inj hi)).1.symm
  refine ⟨fun i hi => ?_, fun d hd => Nat.lt_succ_of_lt (h.pending d hd), ?_, ?_, ?_, ?_⟩
  · have hi : vm.next + 1 ≤ i := hi
    obtain ⟨hd, hji, hs, hc⟩ := h.fresh i (by omega)
    refine ⟨hd, ?_, hs, ?_⟩
    · show Function.update vm.jobs j _ i = none
      rw [Function.update_of_ne (by omega), hji]
    · show Function.update vm.credentials vm.next _ i = none
      rw [Function.update_of_ne (by omega), hc]
  · intro i d challenge' c hi
    rcases hold hi with heq | hi
    · cases heq
    · exact Nat.lt_succ_of_lt (h.awaited i d challenge' c hi)
  · intro i k challenge' c hi
    rcases hold hi with heq | hi
    · cases heq
      exact Nat.lt_succ_self _
    · exact Nat.lt_succ_of_lt (h.generating i k challenge' c hi)
  · intro c bytes hc hne
    obtain ⟨i, d, challenge', hi, hd⟩ := h.owned c bytes hc hne
    exact ⟨i, d, challenge', hkept hi (by simp), hd⟩
  · intro k hk
    have hk : Function.update vm.credentials vm.next (some false) k = some false := hk
    by_cases hkn : k = vm.next
    · subst hkn
      exact ⟨j, challenge, false, Function.update_self j _ vm.jobs⟩
    · rw [Function.update_of_ne hkn] at hk
      obtain ⟨i, challenge', c, hi⟩ := h.opened k hk
      exact ⟨i, challenge', c, hkept hi (by simp)⟩

theorem SecretInv.afterAwait (h : SecretInv vm) {j d : ℕ} {challenge : DesktopChallenge}
    (hj : vm.jobs j = some ⟨.awaitingFace d challenge, false⟩) {outcome : FaceCaptureOutcome}
    (hd : vm.deferreds d = some outcome) (derivation : Except JsString Unit) :
    SecretInv (vm.afterAwait j d challenge outcome derivation) := by
  have hlt := h.lt_of_job hj
  -- the inner `finally` block
  have hcleared : SecretInv (if vm.pendingFaceCapture = some d then
      { vm with pendingFaceCapture := none } else vm) := by
    split
    · exact h.noPending
    · exact h
  have hsame : (if vm.pendingFaceCapture = some d then
      { vm with pendingFaceCapture := none } else vm).jobs = vm.jobs ∧
      (if vm.pendingFaceCapture = some d then
      { vm with pendingFaceCapture := none } else vm).deferreds = vm.deferreds := by
    split <;> exact ⟨rfl, rfl⟩
  unfold ScanViewModel.afterAwait
  dsimp only
  generalize (if vm.pendingFaceCapture = some d then
    { vm with pendingFaceCapture := none } else vm) = vm₁ at hcleared hsame
  obtain ⟨hjobs, hdeferreds⟩ := hsame
  rw [← hjobs] at hj
  rw [← hdeferreds] at hd
  -- the job ends, or goes on, with its copy overwritten
  have hover : ∀ (vm₂ : ScanViewModel), SecretInv vm₂ → vm₂.jobs = vm₁.jobs →
      vm₂.deferreds = vm₁.deferreds →
      (∀ c bytes, outcome = .succeeded c → vm₂.secrets c = some bytes → ∀ b ∈ bytes, b = 0) →
      SecretInv (vm₂.endJob j false) := by
    intro vm₂ h₂ hjobs₂ hdeferreds₂ hzero
    refine SecretInv.endJob h₂ (by rw [hjobs₂, hj]) ?_ ?_ false
    · intro d' challenge' c bytes heq hd' hc
      cases heq
      rw [hdeferreds₂, hd] at hd'
      exact hzero c bytes (Option.some.inj hd') hc
    · intro k challenge' hpoint
      cases hpoint
  cases outcome with
  | cancelled => exact hover _ (hcleared.setState _) rfl rfl fun c bytes heq => (nomatch heq)
  | succeeded secret =>
      cases derivation with
      | error message =>
          refine hover _ (secretInv_fillZero (hcleared.setState _) secret) rfl rfl ?_
          intro c bytes heq hc
          cases heq
          exact zero_of_fillZero hc
      | ok _ =>
          have hended : SecretInv ((vm₁.fillZero secret).endJob j false) := by
            refine hover _ (secretInv_fillZero hcleared secret) rfl rfl ?_
            intro c bytes heq hc
            cases heq
            exact zero_of_fillZero hc
          have hcredential := hended.addCredential (Function.update_self j _ vm₁.jobs) challenge
          exact hcredential.congr rfl (Function.update_idem _ _ _).symm rfl rfl rfl hcredential.pending

theorem SecretInv.resume {vm' : ScanViewModel} (h : SecretInv vm) {j : ℕ}
    {derivation : Except JsString Unit} {message : JsString}
    (hs : vm.resume j derivation message = some vm') : SecretInv vm' := by
  rw [ScanViewModel.resume] at hs
  split at hs
  next d challenge hj =>
    obtain ⟨outcome, hd, rfl⟩ := Option.map_eq_some_iff.mp hs
    exact h.afterAwait hj hd derivation
  next d challenge hj =>
    cases hs
    exact h.throwAt hj _ message
  next => cases hs

theorem SecretInv.generateEnds {vm' : ScanViewModel} (h : SecretInv vm) {j : ℕ}
    {generated : Except ProverException GenerateOutput} {encoded : Except JsString JsString}
    (hs : vm.generateEnds j generated encoded = some vm') : SecretInv vm' := by
  unfold ScanViewModel.generateEnds at hs
  split at hs
  next k challenge cancelled hj =>
    cases hs
    have hk := h.generating j k challenge cancelled hj
    -- whatever the outcome shows, the `finally` block closes the credential
    have hclosed : ∀ state, SecretInv
        ((({ vm with state := state } : ScanViewModel).closeCredential k).endJob j cancelled) := by
      intro state
      refine SecretInv.endJob (secretInv_closeCredential (h.setState state) hk) hj ?_ ?_ cancelled
      · intro d challenge' c bytes heq
        cases heq
      · intro k' challenge' hpoint
        cases hpoint
        exact credentials_closeCredential k
    exact hclosed _
  next => cases hs

theorem SecretInv.submitEnds {vm' : ScanViewModel} (h : SecretInv vm) {j : ℕ}
    {answer : Except (JsString × JsString) Bool} (hs : vm.submitEnds j answer = some vm') :
    SecretInv vm' := by
  unfold ScanViewModel.submitEnds at hs
  split at hs
  next cancelled hj =>
    cases hs
    have hended : ∀ state, SecretInv (({ vm with state := state } : ScanViewModel).endJob j cancelled) := by
      intro state
      refine SecretInv.endJob (h.setState state) hj ?_ ?_ cancelled
      · intro d challenge c bytes heq
        cases heq
      · intro k challenge hpoint
        cases hpoint
    exact hended _
  next => cases hs

/-! ## Runs -/

theorem secretInv_step {vm vm' : ScanViewModel} {ev : ScanEvent} (h : SecretInv vm)
    (hgood : Careful vm ev) (hs : scan.step vm ev = some vm') : SecretInv vm' := by
  cases ev with
  | onPermissionGranted =>
      cases hs
      rw [ScanViewModel.onPermissionGranted]
      split
      · exact h.setState _
      · exact h.setState _
      · exact h
  | onPermissionDenied =>
      cases hs
      rw [ScanViewModel.onPermissionDenied]
      split
      · exact h
      · exact h.setState _
  | onQrDetected rawText =>
      cases hs
      rw [ScanViewModel.onQrDetected]
      split
      · split
        · exact h.setState _
        · exact h.setState _
      · exact h
  | onBiometricApproved email atOnce message =>
      cases hs
      rw [ScanViewModel.onBiometricApproved]
      split
      next challenge hstate =>
        -- the old flow is cancelled before the new one begins
        exact (h.cancelInFlight (hgood challenge hstate) atOnce message).launchProofFlow email challenge
      next => exact h
  | onFaceCaptureSucceeded secret =>
      cases hs
      exact h.onFaceCaptureSucceeded hgood
  | onFaceCaptureCancelled =>
      cases hs
      rw [ScanViewModel.onFaceCaptureCancelled]
      split
      · exact h
      next d hd => exact secretInv_complete h (h.pending d hd) .cancelled
  | authorizeOnPhone atOnce message =>
      cases hs
      rw [ScanViewModel.authorizeOnPhone]
      split
      next qrText sessionId hstate =>
        exact (h.cancelInFlight (hgood qrText sessionId hstate) atOnce message).launchAuthorize
      next => exact h
  | onProofShownToWebcam =>
      cases hs
      exact h.congr rfl rfl rfl rfl rfl h.pending
  | retry atOnce message =>
      cases hs
      -- `retry` cancels the flow, empties its slot, and drops the capture
      have hcancelled := h.cancelInFlight hgood atOnce message
      have hslot : SecretInv { vm.cancelInFlight atOnce message with inFlightJob := none } :=
        hcancelled.congr rfl rfl rfl rfl rfl hcancelled.pending
      exact hslot.dropPending.setState .idle
  | onChallengeCancelled =>
      cases hs
      rw [ScanViewModel.onChallengeCancelled]
      split
      · exact h.setState _
      · exact h
  | onCleared =>
      cases hs
      exact h.onCleared hgood
  | resume j derivation message => exact h.resume hs
  | onProgress j fraction =>
      have hs : vm.onProgress j fraction = some vm' := hs
      rw [ScanViewModel.onProgress] at hs
      split at hs
      · cases hs
        exact h.setState _
      · cases hs
  | generateEnds j generated encoded => exact h.generateEnds hs
  | submitEnds j answer => exact h.submitEnds hs

/-- In every run whose events are all careful: once no coroutine is left, neither is a secret. -/
theorem secrets_gone {vm : ScanViewModel} (h : scan.Later Careful create vm) (hquiet : vm.Quiet) :
    SecretsGone vm :=
  (h.invariant (fun _ _ _ hI hgood hs => secretInv_step hI hgood hs) secretInv_create).secretsGone hquiet

/-! ## Two sign-ins -/

/-- The state in which a QR code has been read. -/
def parsed (challenge : DesktopChallenge) : ScanViewModel :=
  { create with state := .challengeParsed challenge }

def sampleQr : JsString := Pairing.buildQrPayload sampleId (List.replicate 62 48) (js "zeroauth.dev")

theorem onQrDetected_ok {vm : ScanViewModel} {rawText : JsString} {challenge : DesktopChallenge}
    (hstate : vm.state = .scanning) (hparse : parseChallenge rawText = .ok challenge) :
    vm.onQrDetected rawText = { vm with state := .challengeParsed challenge } := by
  unfold ScanViewModel.onQrDetected
  simp only [hstate, hparse]

theorem exists_parsed : ∃ challenge, create.onPermissionGranted.onQrDetected sampleQr = parsed challenge := by
  have hparse : parseChallenge sampleQr =
      .ok (issuedChallenge sampleId (List.replicate 62 48) (js "zeroauth.dev")) :=
    parseChallenge_buildQrPayload (by decide) (by decide) (by decide) (by decide) (by decide)
  exact ⟨_, onQrDetected_ok rfl hparse⟩

theorem run_sampleQr {challenge : DesktopChallenge}
    (h : create.onPermissionGranted.onQrDetected sampleQr = parsed challenge) (ls : List ScanEvent) :
    scan.run create (.onPermissionGranted :: .onQrDetected sampleQr :: ls) =
      scan.run (parsed challenge) ls := by
  have hgranted : scan.step create .onPermissionGranted = some create.onPermissionGranted := rfl
  have hqr : scan.step create.onPermissionGranted (.onQrDetected sampleQr) = some (parsed challenge) :=
    congrArg some h
  rw [Machine.run_cons hgranted, Machine.run_cons hqr]

/-- Only one coroutine was launched, and it has ended. -/
theorem quiet_of_ended {vm : ScanViewModel} {launched resumed : Option ScanJob} {cancelled : Bool}
    (h : vm.jobs = Function.update (Function.update (Function.update (fun _ => none) 0 launched) 0 resumed)
      0 (some ⟨.ended, cancelled⟩)) : vm.Quiet := by
  intro j job hj
  rw [h, Function.update_idem, Function.update_idem] at hj
  by_cases hj0 : j = 0
  · subst hj0
    rw [Function.update_self] at hj
    cases hj
    rfl
  · rw [Function.update_of_ne hj0] at hj
    cases hj

/-- One capture, a proof that fails. -/
def signIn : List ScanEvent :=
  [.onBiometricApproved (js "a@b.c") true [], .onFaceCaptureSucceeded (List.replicate 32 7),
    .resume 0 (.ok ()) [], .generateEnds 0 (.error (.timeout [])) (.error [])]

/-- The same with a second callback before the coroutine is resumed. -/
def doubleCapture : List ScanEvent :=
  [.onBiometricApproved (js "a@b.c") true [], .onFaceCaptureSucceeded (List.replicate 32 7),
    .onFaceCaptureSucceeded (List.replicate 32 7), .resume 0 (.ok ()) [],
    .generateEnds 0 (.error (.timeout [])) (.error [])]

theorem secrets_gone_signIn : ∃ ls vm, scan.run create ls = some vm ∧
    vm.secrets 2 = some (List.replicate 32 0) ∧ vm.credentials 3 = some true ∧ vm.Quiet ∧
    SecretsGone vm := by
  obtain ⟨challenge, hread⟩ := exists_parsed
  let approved := (parsed challenge).onBiometricApproved (js "a@b.c") true []
  let captured := approved.onFaceCaptureSucceeded (List.replicate 32 7)
  let resumed := captured.afterAwait 0 1 challenge (.succeeded 2) (.ok ())
  have happroved : scan.Later Careful create approved := by
    have hgranted : scan.Later Careful create create.onPermissionGranted :=
      .single ⟨.onPermissionGranted, trivial, rfl⟩
    have hparsed : scan.Later Careful create (parsed challenge) := by
      rw [← hread]
      exact hgranted.tail ⟨.onQrDetected sampleQr, trivial, rfl⟩
    exact hparsed.tail ⟨.onBiometricApproved _ _ _, fun _ _ _ hj => (nomatch hj), rfl⟩
  -- the deferred 1 is open, and the coroutine 0 awaits it
  have hcaptured : scan.Later Careful create captured := by
    refine happroved.tail ⟨.onFaceCaptureSucceeded _, fun _ d hd => ?_, rfl⟩
    obtain rfl : 1 = d := Option.some.inj hd
    exact ⟨rfl, 0, challenge, rfl⟩
  have hresumed : scan.Later Careful create resumed :=
    hcaptured.tail ⟨.resume 0 (.ok ()) [], trivial, rfl⟩
  have hended := hresumed.tail ⟨.generateEnds 0 (.error (.timeout [])) (.error []), trivial, rfl⟩
  refine ⟨_, _, run_sampleQr hread signIn, rfl, rfl, ?_, secrets_gone hended ?_⟩
  all_goals exact quiet_of_ended rfl

/-- The second copy is not what the deferred was completed with: nobody overwrites it. -/
theorem secret_survives : ¬ ∀ ls vm, scan.run create ls = some vm → vm.Quiet → SecretsGone vm := by
  intro h
  obtain ⟨challenge, hread⟩ := exists_parsed
  have hgone := h _ _ (run_sampleQr hread doubleCapture) (quiet_of_ended rfl)
  exact absurd (hgone.zeroed 3 (List.replicate 32 7) rfl 7 (by decide)) (by decide)

end ScanViewModel

end ZeroAuth.Android
