/-
  ZeroAuth.Android.RegistrationScreen

  What the registration screen shows against the scans that led there.

  A spinner is always that of the latest scan.  But no coroutine asks whether its scan is still
  wanted: one that was launched before a `reset()` writes its result after it, and a QR code that
  is scanned twice sends its code twice, of which the server accepts one.  `follows_last_scan`
  is about the runs in which neither happens.
-/

import ZeroAuth.Android.RegistrationFlow

namespace ZeroAuth.Android

open ZeroAuth.Js ZeroAuth.Lib

/-! ## The property and the condition -/

def RegCall.Outstanding (call : RegCall) : Prop := ∀ failed, call.point ≠ .ended failed

structure FollowsLastScan (parseUri : JsString → Option Uri) (run : RegRun) : Prop where
  /-- Nothing that was launched before the last `reset()` changes the state. -/
  reset : ∀ ev j run', ev.resumed = some j → j < run.launchedAtReset →
    (registration parseUri).step run ev = some run' → run'.vm.state = run.vm.state
  /-- A spinner belongs to the call of the most recent scan. -/
  waiting : run.vm.state.IsWaiting → ∃ j call, run.latest = some j ∧ run.vm.calls[j]? = some call ∧
    call.Outstanding ∧ run.vm.state = RegistrationViewModel.waitingFor call.challenge.step
  /-- A second scan of a QR code has not failed where the first one succeeded. -/
  again : ∀ (i j : ℕ) (first second : RegCall), i < j → run.vm.calls[i]? = some first →
    run.vm.calls[j]? = some second → first.text = second.text → first.Succeeded →
    second.point ≠ .ended true

/-- `reset()` comes while no call is outstanding, and no QR code that the server has accepted or goes on to
    accept is scanned again. -/
def Unhurried (run : RegRun) : RegEvent → Prop
  | .reset => ∀ call ∈ run.vm.calls, ¬ call.Outstanding
  | .onQrText text _ => ∀ call ∈ run.vm.calls, call.text = text → ¬ call.Succeeded
  | .served j (.ok _) => ∀ i call later, run.vm.calls[j]? = some call → j < i →
      run.vm.calls[i]? = some later → later.text ≠ call.text
  | _ => True

/-! ## What a coroutine does -/

namespace RegistrationViewModel

variable {vm vm' : RegistrationViewModel} {j : ℕ} {call : RegCall}

/-- Either the call goes on and nothing is shown, or it ends and shows a result. -/
def Advance (vm : RegistrationViewModel) (j : ℕ) (call : RegCall) (vm' : RegistrationViewModel) : Prop :=
  ∃ call', vm'.calls = vm.calls.set j call' ∧ call'.text = call.text ∧
    call'.challenge = call.challenge ∧ call'.answer = call.answer ∧
    (vm'.state = vm.state ∧ call'.Outstanding ∨ ¬ vm'.state.IsWaiting ∧ ¬ call'.Outstanding)

theorem not_outstanding_ended {call : RegCall} {failed : Bool} (h : call.point = .ended failed) :
    ¬ call.Outstanding := fun hout => hout failed h

theorem outstanding_of_point {call : RegCall} {point : CallPoint} (h : call.point = point)
    (hpoint : ∀ failed, point ≠ .ended failed) : call.Outstanding := by
  intro failed heq
  exact hpoint failed (h.symm.trans heq)

theorem advance_onFailure (message : JsString) : Advance vm j call (vm.onFailure j call message) :=
  ⟨_, rfl, rfl, rfl, rfl, .inr ⟨id, not_outstanding_ended rfl⟩⟩

theorem advance_onSuccess (res : RegResponse) : Advance vm j call (vm.onSuccess j call res) := by
  refine ⟨_, rfl, rfl, rfl, rfl, .inr ⟨?_, not_outstanding_ended rfl⟩⟩
  show ¬ (vm.onSuccess j call res).state.IsWaiting
  unfold onSuccess
  cases call.challenge.step with
  | pair =>
      dsimp only
      split
      · exact id
      · exact id
  | enroll => exact id
  | verify => exact id

theorem advance_send (request : RegRequest) : Advance vm j call (vm.send j call request) :=
  ⟨_, rfl, rfl, rfl, rfl, .inl ⟨rfl, outstanding_of_point rfl (by simp)⟩⟩

theorem advance_withSecret (secret : List UInt8) : Advance vm j call (vm.withSecret j call secret) := by
  unfold withSecret
  split
  next message _ => exact advance_onFailure message
  next did commitment _ =>
    split
    · exact advance_send _
    · exact ⟨_, rfl, rfl, rfl, rfl, .inl ⟨rfl, outstanding_of_point rfl (by simp)⟩⟩

theorem advance_secretRead {secret : Except JsString (List UInt8)}
    (h : vm.secretRead j secret = some vm') :
    ∃ call, vm.calls[j]? = some call ∧ call.Outstanding ∧ Advance vm j call vm' := by
  unfold secretRead at h
  split at h
  · cases h
  next call hcall =>
    split at h
    next _ hpoint =>
      cases h
      exact ⟨call, hcall, outstanding_of_point hpoint (by simp), advance_withSecret _⟩
    next _ hpoint =>
      cases h
      exact ⟨call, hcall, outstanding_of_point hpoint (by simp), advance_onFailure _⟩
    next => cases h

theorem advance_proved {result : Except JsString ProofResult} (h : vm.proved j result = some vm') :
    ∃ call, vm.calls[j]? = some call ∧ call.Outstanding ∧ Advance vm j call vm' := by
  unfold proved at h
  split at h
  · cases h
  next call hcall =>
    split at h
    next _ hpoint =>
      cases h
      exact ⟨call, hcall, outstanding_of_point hpoint (by simp), advance_send _⟩
    next _ hpoint =>
      cases h
      exact ⟨call, hcall, outstanding_of_point hpoint (by simp), advance_onFailure _⟩
    next => cases h

theorem advance_returns {networkError : Option JsString} (h : vm.returns j networkError = some vm') :
    ∃ call, vm.calls[j]? = some call ∧ call.Outstanding ∧ Advance vm j call vm' := by
  unfold returns at h
  split at h
  · cases h
  next call hcall =>
    split at h
    next _ hpoint =>
      cases h
      exact ⟨call, hcall, outstanding_of_point hpoint (by simp), advance_onFailure _⟩
    next _ hpoint _ =>
      cases h
      exact ⟨call, hcall, outstanding_of_point hpoint (by simp), advance_onFailure _⟩
    next _ hpoint _ =>
      cases h
      exact ⟨call, hcall, outstanding_of_point hpoint (by simp), advance_onSuccess _⟩
    next => cases h

/-- What a scan launches: a coroutine that is waited for, or one that has failed already. -/
theorem launch_cases (vm : RegistrationViewModel) (text : JsString) (challenge : RegChallenge)
    (fingerprint : Except JsString JsString) :
    ∃ call, (vm.launch text challenge fingerprint).calls = vm.calls ++ [call] ∧ call.text = text ∧
      call.challenge = challenge ∧ call.answer = none ∧
      ((vm.launch text challenge fingerprint).state = waitingFor challenge.step ∧ call.Outstanding ∨
        ¬ (vm.launch text challenge fingerprint).state.IsWaiting ∧ ¬ call.Outstanding) := by
  -- the coroutine as it starts, and what its first lines make of it
  have hadvance : ∀ vm', Advance { vm with
      state := waitingFor challenge.step
      calls := vm.calls ++ [⟨text, challenge, .readingSecret, none, none⟩] } vm.calls.length
      ⟨text, challenge, .readingSecret, none, none⟩ vm' →
      ∃ call, vm'.calls = vm.calls ++ [call] ∧ call.text = text ∧ call.challenge = challenge ∧
        call.answer = none ∧ (vm'.state = waitingFor challenge.step ∧ call.Outstanding ∨
          ¬ vm'.state.IsWaiting ∧ ¬ call.Outstanding) := by
    rintro vm' ⟨call, hcalls, htext, hchallenge, hanswer, hend⟩
    refine ⟨call, ?_, htext, hchallenge, hanswer, hend⟩
    rw [hcalls, List.set_append_right _ _ le_rfl, Nat.sub_self]
    rfl
  unfold launch
  dsimp only
  split
  · split
    · exact hadvance _ (advance_onFailure _)
    · exact hadvance _ (advance_send _)
  · split
    · exact ⟨_, rfl, rfl, rfl, rfl, .inl ⟨rfl, outstanding_of_point rfl (by simp)⟩⟩
    · exact hadvance _ (advance_onFailure _)
    · exact hadvance _ (advance_withSecret _)

end RegistrationViewModel

/-! ## The spinner -/

/-- A spinner belongs to the call of the most recent scan. -/
def SpinnerOk (run : RegRun) : Prop :=
  run.vm.state.IsWaiting → ∃ j call, run.latest = some j ∧ run.vm.calls[j]? = some call ∧
    call.Outstanding ∧ run.vm.state = RegistrationViewModel.waitingFor call.challenge.step

section Steps

variable {run : RegRun} {vm' : RegistrationViewModel}

theorem getElem?_set_cases {l : List RegCall} {i j : ℕ} {a b : RegCall}
    (h : (l.set j a)[i]? = some b) : i = j ∧ b = a ∨ i ≠ j ∧ l[i]? = some b := by
  by_cases hij : i = j
  · subst hij
    left
    have hlt : i < (l.set i a).length := (List.getElem?_eq_some_iff.mp h).1
    rw [List.length_set] at hlt
    rw [List.getElem?_set_self hlt] at h
    exact ⟨rfl, (Option.some.inj h).symm⟩
  · right
    rw [List.getElem?_set_ne (Ne.symm hij)] at h
    exact ⟨hij, h⟩

theorem SpinnerOk.advance (h : SpinnerOk run) {j : ℕ} {call : RegCall}
    (hj : run.vm.calls[j]? = some call)
    (hadvance : RegistrationViewModel.Advance run.vm j call vm') : SpinnerOk { run with vm := vm' } := by
  obtain ⟨call', hcalls, -, hchallenge, -, hend⟩ := hadvance
  intro hwaiting
  have hwaiting : vm'.state.IsWaiting := hwaiting
  rcases hend with ⟨hstate, hout'⟩ | ⟨hstate, -⟩
  · rw [hstate] at hwaiting
    obtain ⟨k, c, hlatest, hc, houtc, hshown⟩ := h hwaiting
    by_cases hkj : k = j
    · -- the call of the spinner goes on
      subst hkj
      obtain rfl := Option.some.inj (hj.symm.trans hc)
      have hlt : k < run.vm.calls.length := (List.getElem?_eq_some_iff.mp hj).1
      refine ⟨k, call', hlatest, ?_, hout', ?_⟩
      · show vm'.calls[k]? = some call'
        rw [hcalls, List.getElem?_set_self hlt]
      · show vm'.state = _
        rw [hstate, hchallenge, hshown]
    · refine ⟨k, c, hlatest, ?_, houtc, hstate.trans hshown⟩
      show vm'.calls[k]? = some c
      rw [hcalls, List.getElem?_set_ne (Ne.symm hkj), hc]
  · exact absurd hwaiting hstate

/-- What the server does to a call is not seen yet. -/
theorem served_cases {j : ℕ} {answer : Except JsString RegResponse}
    (hs : run.vm.served j answer = some vm') : ∃ call, run.vm.calls[j]? = some call ∧
      vm' = run.vm.setCall j { call with answer := some answer } := by
  unfold RegistrationViewModel.served at hs
  split at hs
  · cases hs
  next call hj =>
    split at hs
    · cases hs
      exact ⟨call, hj, rfl⟩
    · cases hs

theorem SpinnerOk.served (h : SpinnerOk run) {j : ℕ} {answer : Except JsString RegResponse}
    (hs : run.vm.served j answer = some vm') : SpinnerOk { run with vm := vm' } := by
  obtain ⟨call, hj, rfl⟩ := served_cases hs
  intro hwaiting
  obtain ⟨k, c, hlatest, hc, hout, hshown⟩ := h hwaiting
  by_cases hkj : k = j
  · subst hkj
    obtain rfl := Option.some.inj (hj.symm.trans hc)
    have hlt : k < run.vm.calls.length := (List.getElem?_eq_some_iff.mp hj).1
    exact ⟨k, _, hlatest, List.getElem?_set_self hlt, hout, hshown⟩
  · refine ⟨k, c, hlatest, ?_, hout, hshown⟩
    show (run.vm.calls.set j _)[k]? = some c
    rw [List.getElem?_set_ne (Ne.symm hkj), hc]

theorem SpinnerOk.launch {text : JsString} {challenge : RegChallenge}
    {fingerprint : Except JsString JsString} :
    SpinnerOk { run with
      vm := run.vm.launch text challenge fingerprint
      latest := some run.vm.calls.length } := by
  obtain ⟨call, hcalls, -, hchallenge, -, hstate⟩ :=
    RegistrationViewModel.launch_cases run.vm text challenge fingerprint
  intro hwaiting
  rcases hstate with ⟨hshown, hout⟩ | ⟨hshown, -⟩
  · refine ⟨run.vm.calls.length, call, rfl, ?_, hout, ?_⟩
    · show (run.vm.launch text challenge fingerprint).calls[_]? = _
      rw [hcalls, List.getElem?_append_right le_rfl, Nat.sub_self]
      rfl
    · show (run.vm.launch text challenge fingerprint).state = _
      rw [hshown, hchallenge]
  · exact absurd hwaiting hshown

end Steps

/-! ## The scans -/

structure ScansOk (run : RegRun) : Prop where
  launched : run.launchedAtReset ≤ run.vm.calls.length
  /-- What had been launched at the last `reset()` has ended. -/
  ended : ∀ j call, j < run.launchedAtReset → run.vm.calls[j]? = some call → ¬ call.Outstanding
  /-- A QR code that has been scanned again was not accepted before. -/
  fresh : ∀ (i j : ℕ) (first second : RegCall), i < j → run.vm.calls[i]? = some first →
    run.vm.calls[j]? = some second → first.text = second.text → ¬ first.Succeeded

section Steps

variable {run : RegRun} {vm' : RegistrationViewModel}

/-- A callback that launches nothing. -/
theorem ScansOk.keep (h : ScansOk run) (state : RegState) (source : BiometricSecretSource)
    (latest : Option ℕ) : ScansOk { run with
      vm := { run.vm with state := state, secretSource := source }
      latest := latest } :=
  ⟨h.launched, h.ended, h.fresh⟩

/-- One coroutine goes on or ends. -/
theorem ScansOk.advance (h : ScansOk run) {j : ℕ} {call : RegCall} (hj : run.vm.calls[j]? = some call)
    (hout : call.Outstanding) (hadvance : RegistrationViewModel.Advance run.vm j call vm') :
    ScansOk { run with vm := vm' } := by
  obtain ⟨call', hcalls, htext, -, hanswer, -⟩ := hadvance
  -- texts and answers stay
  have hkept : ∀ {i : ℕ} {c : RegCall}, vm'.calls[i]? = some c →
      ∃ old, run.vm.calls[i]? = some old ∧ old.text = c.text ∧ old.answer = c.answer := by
    intro i c hc
    rw [hcalls] at hc
    rcases getElem?_set_cases hc with ⟨rfl, rfl⟩ | ⟨-, hc⟩
    · exact ⟨call, hj, htext.symm, hanswer.symm⟩
    · exact ⟨c, hc, rfl, rfl⟩
  constructor
  · show run.launchedAtReset ≤ vm'.calls.length
    rw [hcalls, List.length_set]
    exact h.launched
  · intro i c hi hc
    have hc : vm'.calls[i]? = some c := hc
    rw [hcalls] at hc
    rcases getElem?_set_cases hc with ⟨rfl, rfl⟩ | ⟨-, hc⟩
    · exact absurd hout (h.ended i call hi hj)
    · exact h.ended i c hi hc
  · rintro i k first second hik hfirst hsecond heq ⟨res, hres⟩
    obtain ⟨first', hfirst', htext₁, hanswer₁⟩ := hkept hfirst
    obtain ⟨second', hsecond', htext₂, -⟩ := hkept hsecond
    refine h.fresh i k first' second' hik hfirst' hsecond' ?_ ⟨res, hanswer₁.trans hres⟩
    rw [htext₁, heq, htext₂]

/-- The server answers. -/
theorem ScansOk.served (h : ScansOk run) {j : ℕ} {answer : Except JsString RegResponse}
    (hgood : Unhurried run (.served j answer)) (hs : run.vm.served j answer = some vm') :
    ScansOk { run with vm := vm' } := by
  obtain ⟨call, hj, rfl⟩ := served_cases hs
  constructor
  · show run.launchedAtReset ≤ (run.vm.calls.set j _).length
    rw [List.length_set]
    exact h.launched
  · intro i c hi hc
    rcases getElem?_set_cases hc with ⟨rfl, rfl⟩ | ⟨-, hc⟩
    · exact h.ended i call hi hj
    · exact h.ended i c hi hc
  · rintro i k first second hik hfirst hsecond heq ⟨res, hres⟩
    rcases getElem?_set_cases hfirst with ⟨rfl, rfl⟩ | ⟨-, hfirst'⟩
    · -- the answered call is the earlier one: nobody scanned its code again
      obtain rfl : answer = .ok res := Option.some.inj hres
      rcases getElem?_set_cases hsecond with ⟨rfl, -⟩ | ⟨-, hsecond'⟩
      · omega
      · exact hgood k call second hj hik hsecond' heq.symm
    · rcases getElem?_set_cases hsecond with ⟨rfl, rfl⟩ | ⟨-, hsecond'⟩
      · exact h.fresh i k first call hik hfirst' hj heq ⟨res, hres⟩
      · exact h.fresh i k first second hik hfirst' hsecond' heq ⟨res, hres⟩

/-- A scan launches a coroutine. -/
theorem ScansOk.launch (h : ScansOk run) {text : JsString} {challenge : RegChallenge}
    {fingerprint : Except JsString JsString}
    (hgood : ∀ call ∈ run.vm.calls, call.text = text → ¬ call.Succeeded) :
    ScansOk { run with
      vm := run.vm.launch text challenge fingerprint
      latest := some run.vm.calls.length } := by
  obtain ⟨call, hcalls, htext, -, hanswer, -⟩ :=
    RegistrationViewModel.launch_cases run.vm text challenge fingerprint
  -- the new call is the last one
  have hold : ∀ {i : ℕ} {c : RegCall}, (run.vm.launch text challenge fingerprint).calls[i]? = some c →
      run.vm.calls[i]? = some c ∨ i = run.vm.calls.length ∧ c = call := by
    intro i c hc
    rw [hcalls] at hc
    rcases Nat.lt_trichotomy i run.vm.calls.length with hi | hi | hi
    · rw [List.getElem?_append_left hi] at hc
      exact .inl hc
    · subst hi
      rw [List.getElem?_append_right le_rfl, Nat.sub_self] at hc
      exact .inr ⟨rfl, (Option.some.inj hc).symm⟩
    · rw [List.getElem?_eq_none (by rw [List.length_append]; exact hi)] at hc
      cases hc
  constructor
  · show run.launchedAtReset ≤ (run.vm.launch text challenge fingerprint).calls.length
    rw [hcalls, List.length_append]
    exact Nat.le_add_right_of_le h.launched
  · intro i c hi hc
    rcases hold hc with hc | ⟨rfl, -⟩
    · exact h.ended i c hi hc
    · exact absurd hi (Nat.not_lt.mpr h.launched)
  · rintro i k first second hik hfirst hsecond heq hres
    rcases hold hfirst with hfirst | ⟨rfl, rfl⟩
    · rcases hold hsecond with hsecond | ⟨rfl, rfl⟩
      · exact h.fresh i k first second hik hfirst hsecond heq hres
      · -- the text is that of an earlier call, which had not succeeded
        exact hgood first (List.mem_of_getElem? hfirst) (heq.trans htext) hres
    · obtain ⟨res, hres⟩ := hres
      rw [hanswer] at hres
      cases hres

end Steps

/-! ## Runs -/

section Runs

variable {parseUri : JsString → Option Uri} {run run' : RegRun}

/-- A coroutine is resumed only while it is outstanding. -/
theorem advance_of_resumed {ev : RegEvent} {j : ℕ} (hev : ev.resumed = some j)
    (hs : (registration parseUri).step run ev = some run') :
    ∃ vm' call, run' = { run with vm := vm' } ∧ run.vm.calls[j]? = some call ∧ call.Outstanding ∧
      RegistrationViewModel.Advance run.vm j call vm' := by
  cases ev with
  | secretRead i secret =>
      obtain rfl := Option.some.inj hev
      obtain ⟨vm', hvm, rfl⟩ := Option.map_eq_some_iff.mp hs
      obtain ⟨call, hcall⟩ := RegistrationViewModel.advance_secretRead hvm
      exact ⟨vm', call, rfl, hcall⟩
  | proved i result =>
      obtain rfl := Option.some.inj hev
      obtain ⟨vm', hvm, rfl⟩ := Option.map_eq_some_iff.mp hs
      obtain ⟨call, hcall⟩ := RegistrationViewModel.advance_proved hvm
      exact ⟨vm', call, rfl, hcall⟩
  | returns i networkError =>
      obtain rfl := Option.some.inj hev
      obtain ⟨vm', hvm, rfl⟩ := Option.map_eq_some_iff.mp hs
      obtain ⟨call, hcall⟩ := RegistrationViewModel.advance_returns hvm
      exact ⟨vm', call, rfl, hcall⟩
  | _ => cases hev

/-- A scan that launches nothing shows why, any other launches its call. -/
theorem onQrText_cases (parseUri : JsString → Option Uri) (run : RegRun) (text : JsString)
    (fingerprint : Except JsString JsString) :
    (∃ code message, (registration parseUri).step run (.onQrText text fingerprint) =
      some { run with vm := { run.vm with state := .failed code message }, latest := none }) ∨
    ∃ challenge, (registration parseUri).step run (.onQrText text fingerprint) =
      some { run with
        vm := run.vm.launch text challenge fingerprint
        latest := some run.vm.calls.length } := by
  have hstep : (registration parseUri).step run (.onQrText text fingerprint) = some { run with
      vm := run.vm.onQrText parseUri text fingerprint
      latest := if run.vm.calls.length < (run.vm.onQrText parseUri text fingerprint).calls.length
        then some run.vm.calls.length else none } := rfl
  rw [hstep]
  unfold RegistrationViewModel.onQrText
  split
  next ex _ =>
    refine .inl ⟨js "reg_qr_parse_failed", ex.message, ?_⟩
    rw [if_neg (Nat.lt_irrefl _)]
  next challenge _ =>
    split
    · refine .inl ⟨js "verify_failed", js "QR3 missing ?challenge", ?_⟩
      rw [if_neg (Nat.lt_irrefl _)]
    · obtain ⟨call, hcalls, -⟩ :=
        RegistrationViewModel.launch_cases run.vm text challenge fingerprint
      refine .inr ⟨challenge, ?_⟩
      rw [if_pos (by rw [hcalls, List.length_append]; exact Nat.lt_succ_self _)]

theorem spinnerOk_step {ev : RegEvent} (h : SpinnerOk run)
    (hs : (registration parseUri).step run ev = some run') : SpinnerOk run' := by
  -- a coroutine that goes on ends its spinner with its answer
  have hresumed : ∀ {j}, ev.resumed = some j → SpinnerOk run' := by
    intro j hev
    obtain ⟨vm', call, rfl, hj, -, hadvance⟩ := advance_of_resumed hev hs
    exact h.advance hj hadvance
  cases ev with
  | onQrText text fingerprint =>
      rcases onQrText_cases parseUri run text fingerprint with
        ⟨code, message, heq⟩ | ⟨challenge, heq⟩
      · obtain rfl := Option.some.inj (heq.symm.trans hs)
        intro hwaiting
        exact hwaiting.elim
      · obtain rfl := Option.some.inj (heq.symm.trans hs)
        exact SpinnerOk.launch
  | onFaceCaptured secret =>
      cases hs
      show SpinnerOk { run with vm := run.vm.onFaceCaptured secret }
      unfold RegistrationViewModel.onFaceCaptured
      split
      · split
        · exact h
        · intro hwaiting
          exact hwaiting.elim
      · intro hwaiting
        exact hwaiting.elim
  | onFaceCaptureCancelled | reset =>
      cases hs
      intro hwaiting
      exact hwaiting.elim
  | served j answer =>
      obtain ⟨vm', hvm, rfl⟩ := Option.map_eq_some_iff.mp hs
      exact h.served hvm
  | secretRead | proved | returns => exact hresumed rfl

theorem scansOk_step {ev : RegEvent} (h : ScansOk run) (hgood : Unhurried run ev)
    (hs : (registration parseUri).step run ev = some run') : ScansOk run' := by
  -- a coroutine that goes on keeps the scans apart
  have hresumed : ∀ {j}, ev.resumed = some j → ScansOk run' := by
    intro j hev
    obtain ⟨vm', call, rfl, hj, hout, hadvance⟩ := advance_of_resumed hev hs
    exact h.advance hj hout hadvance
  cases ev with
  | onQrText text fingerprint =>
      rcases onQrText_cases parseUri run text fingerprint with
        ⟨code, message, heq⟩ | ⟨challenge, heq⟩
      · obtain rfl := Option.some.inj (heq.symm.trans hs)
        exact h.keep _ run.vm.secretSource none
      · obtain rfl := Option.some.inj (heq.symm.trans hs)
        exact h.launch hgood
  | onFaceCaptured secret =>
      cases hs
      show ScansOk { run with vm := run.vm.onFaceCaptured secret }
      unfold RegistrationViewModel.onFaceCaptured
      split
      · split
        · exact h
        · exact h.keep _ _ run.latest
      · exact h.keep _ run.vm.secretSource run.latest
  | onFaceCaptureCancelled =>
      cases hs
      exact h.keep _ run.vm.secretSource run.latest
  | reset =>
      cases hs
      -- after a reset all calls so far belong to the flow before
      exact ⟨le_rfl, fun j call _ hj => hgood call (List.mem_of_getElem? hj), h.fresh⟩
  | served j answer =>
      obtain ⟨vm', hvm, rfl⟩ := Option.map_eq_some_iff.mp hs
      exact h.served hgood hvm
  | secretRead | proved | returns => exact hresumed rfl

/-- The spinner is that of the latest scan, however the calls and the callbacks interleave. -/
theorem spinnerOk_of_later {secretSource : BiometricSecretSource} {good : RegRun → RegEvent → Prop}
    (h : (registration parseUri).Later good (.create secretSource) run) : SpinnerOk run := by
  refine h.invariant (I := SpinnerOk) (fun _ _ _ hI _ hs => spinnerOk_step hI hs) ?_
  intro hwaiting
  exact hwaiting.elim

theorem scansOk_create (secretSource : BiometricSecretSource) : ScansOk (.create secretSource) where
  launched := le_rfl
  ended := by
    intro j call hj
    exact absurd hj (Nat.not_lt_zero j)
  fresh := by
    intro i j first second _ hfirst
    cases hfirst

end Runs

/-- In every run in which nobody resets or scans again too early. -/
theorem follows_last_scan (parseUri : JsString → Option Uri) (secretSource : BiometricSecretSource)
    (run : RegRun) (h : (registration parseUri).Later Unhurried (.create secretSource) run) :
    FollowsLastScan parseUri run := by
  have hscans : ScansOk run :=
    h.invariant (fun _ _ _ hI hgood hs => scansOk_step hI hgood hs) (scansOk_create secretSource)
  constructor
  · intro ev j run' hev hj hs
    obtain ⟨vm', call, rfl, hcall, hout, -⟩ := advance_of_resumed hev hs
    exact absurd hout (hscans.ended j call hj hcall)
  · exact spinnerOk_of_later h
  · intro i j first second hij hfirst hsecond heq hres
    exact absurd hres (hscans.fresh i j first second hij hfirst hsecond heq)

/-! ## Two ceremonies -/

def pairQr : JsString :=
  uriText (js "zeroauth") (js "reg")
    [(js "step", js "pair"), (js "session", js "s-1"), (js "code", js "ZA-2222-3333")]

/-- No face has been captured yet. -/
def newSource : BiometricSecretSource := .capturedFaceSecret none none

def scanPairQr : RegEvent := .onQrText pairQr (.ok (js "0123456789abcdef"))

/-- The coroutine of a scan of a pairing code, once it has sent its request. -/
def pairCall (text : JsString) (challenge : RegChallenge) (fingerprint : JsString) (point : CallPoint)
    (answer : Option (Except JsString RegResponse)) : RegCall :=
  ⟨text, challenge, point, some (.pairDevice challenge.code fingerprint (js "none")), answer⟩

/-- The server refuses the code of a scan and the operator starts over when this has been shown; then
    the code is scanned again, and is accepted. -/
def scannedAgain (text fingerprint : JsString) : List RegEvent :=
  [.onQrText text (.ok fingerprint), .served 0 (.error (js "Pairing failed")), .returns 0 none, .reset,
    .onQrText text (.ok fingerprint), .served 1 (.ok ⟨js "s-1", none⟩)]

section Again

variable {parseUri : JsString → Option Uri} {text : JsString} {challenge : RegChallenge}

theorem step_scan (hparse : parseRegQr parseUri text = .ok challenge) (hpair : challenge.step = .pair)
    (run : RegRun) (fingerprint : JsString) :
    (registration parseUri).step run (.onQrText text (.ok fingerprint)) =
      some ⟨⟨.pairing, run.vm.secretSource,
        run.vm.calls ++ [pairCall text challenge fingerprint .requesting none]⟩,
        run.launchedAtReset, some run.vm.calls.length⟩ := by
  simp [registration, RegistrationViewModel.onQrText, hparse, hpair, RegistrationViewModel.launch,
    RegistrationViewModel.send, RegistrationViewModel.setCall, RegistrationViewModel.waitingFor,
    pairCall]

/-- The two coroutines after such a run: the first has ended, the second has not. -/
def againCalls (text : JsString) (challenge : RegChallenge) (fingerprint : JsString) : List RegCall :=
  [pairCall text challenge fingerprint (.ended true) (some (.error (js "Pairing failed"))),
    pairCall text challenge fingerprint .requesting (some (.ok ⟨js "s-1", none⟩))]

/-- The server was asked twice and nothing was done too early. -/
theorem later_scannedAgain (hparse : parseRegQr parseUri text = .ok challenge)
    (hpair : challenge.step = .pair) (fingerprint : JsString) :
    (registration parseUri).run (.create newSource) (scannedAgain text fingerprint) =
      some ⟨⟨.pairing, newSource, againCalls text challenge fingerprint⟩, 1, some 1⟩ ∧
    (registration parseUri).Later Unhurried (.create newSource)
      ⟨⟨.pairing, newSource, againCalls text challenge fingerprint⟩, 1, some 1⟩ := by
  have hscan := step_scan hparse hpair (.create newSource) fingerprint
  have hrefuse : (registration parseUri).step ⟨⟨.pairing, newSource,
      [pairCall text challenge fingerprint .requesting none]⟩, 0, some 0⟩
        (.served 0 (.error (js "Pairing failed"))) = some ⟨⟨.pairing, newSource,
          [pairCall text challenge fingerprint .requesting (some (.error (js "Pairing failed")))]⟩,
          0, some 0⟩ := rfl
  have hfail : (registration parseUri).step ⟨⟨.pairing, newSource,
      [pairCall text challenge fingerprint .requesting (some (.error (js "Pairing failed")))]⟩,
      0, some 0⟩ (.returns 0 none) = some ⟨⟨.failed (RegistrationViewModel.failureCode challenge.step)
        (js "Pairing failed"), newSource,
        [pairCall text challenge fingerprint (.ended true) (some (.error (js "Pairing failed")))]⟩,
        0, some 0⟩ := rfl
  have hagain := step_scan hparse hpair ⟨⟨.idle, newSource,
    [pairCall text challenge fingerprint (.ended true) (some (.error (js "Pairing failed")))]⟩,
    1, some 0⟩ fingerprint
  have haccept : (registration parseUri).step ⟨⟨.pairing, newSource,
      [pairCall text challenge fingerprint (.ended true) (some (.error (js "Pairing failed")))] ++
        [pairCall text challenge fingerprint .requesting none]⟩, 1, some 1⟩
        (.served 1 (.ok ⟨js "s-1", none⟩)) =
      some ⟨⟨.pairing, newSource, againCalls text challenge fingerprint⟩, 1, some 1⟩ := rfl
  constructor
  · exact (Machine.run_cons hscan _).trans ((Machine.run_cons hrefuse _).trans
      ((Machine.run_cons hfail _).trans ((Machine.run_cons rfl _).trans
        ((Machine.run_cons hagain _).trans (Machine.run_cons haccept [])))))
  · have hended : ∀ call ∈ [pairCall text challenge fingerprint (.ended true)
        (some (.error (js "Pairing failed")))], ¬ call.Outstanding :=
      List.forall_mem_singleton.mpr fun hout => hout true rfl
    -- the first scan was refused, so its code may be scanned again
    have hrefused : ∀ call ∈ [pairCall text challenge fingerprint (.ended true)
        (some (.error (js "Pairing failed")))], call.text = text → ¬ call.Succeeded :=
      List.forall_mem_singleton.mpr fun _ ⟨_, hres⟩ => nomatch hres
    have hlatest : ∀ i call later, [pairCall text challenge fingerprint (.ended true)
          (some (.error (js "Pairing failed"))),
        pairCall text challenge fingerprint .requesting none][1]? = some call → 1 < i →
        [pairCall text challenge fingerprint (.ended true) (some (.error (js "Pairing failed"))),
          pairCall text challenge fingerprint .requesting none][i]? = some later →
        later.text ≠ call.text := by
      intro i call later _ hi hlater
      have hlt : i < 2 := (List.getElem?_eq_some_iff.mp hlater).1
      omega
    have hscanned : (registration parseUri).Later Unhurried (.create newSource) _ :=
      .single ⟨.onQrText text (.ok fingerprint), fun call hcall => (nomatch hcall), hscan⟩
    have hanswered := hscanned.tail ⟨.served 0 (.error (js "Pairing failed")), trivial, hrefuse⟩
    have hshown := hanswered.tail ⟨.returns 0 none, trivial, hfail⟩
    have hreset := hshown.tail ⟨.reset, hended, rfl⟩
    have hrescanned := hreset.tail ⟨.onQrText text (.ok fingerprint), hrefused, hagain⟩
    exact hrescanned.tail ⟨.served 1 (.ok ⟨js "s-1", none⟩), hlatest, haccept⟩

end Again

/-- A second scan after a reset: nothing of the first call is shown any more, the spinner is that of the
    second, and this one does not fail. -/
theorem follows_last_scan_again : ∃ run run',
    (registration plainUri).run (.create newSource) (scannedAgain pairQr (js "0123456789abcdef")) =
      some run ∧
    run.vm.state = .pairing ∧ run.launchedAtReset = 1 ∧ run.latest = some 1 ∧
    FollowsLastScan plainUri run ∧
    (registration plainUri).step run (.returns 1 none) = some run' ∧
    run'.vm.state = .awaitingFaceCapture (js "s-1") 2 ∧ FollowsLastScan plainUri run' := by
  obtain ⟨challenge, hparse, hpair⟩ :
      ∃ challenge, parseRegQr plainUri pairQr = .ok challenge ∧ challenge.step = .pair :=
    ⟨_, rfl, rfl⟩
  obtain ⟨hrun, hlater⟩ := later_scannedAgain hparse hpair (js "0123456789abcdef")
  obtain ⟨run', hreturns, hstate⟩ : ∃ run', (registration plainUri).step ⟨⟨.pairing, newSource,
      againCalls pairQr challenge (js "0123456789abcdef")⟩, 1, some 1⟩ (.returns 1 none) = some run' ∧
      run'.vm.state = .awaitingFaceCapture (js "s-1") 2 := by
    refine ⟨_, rfl, ?_⟩
    show RegistrationViewModel.state (RegistrationViewModel.onSuccess _ _ (pairCall _ _ _ _ _) _) = _
    simp only [RegistrationViewModel.onSuccess, pairCall, hpair]
    rfl
  exact ⟨_, run', hrun, rfl, rfl, rfl, follows_last_scan plainUri newSource _ hlater, hreturns,
    hstate, follows_last_scan plainUri newSource _
      (hlater.tail ⟨.returns 1 none, trivial, hreturns⟩)⟩

/-- The operator starts over while the first call is on its way; its result is shown all the same. -/
theorem late_result : ¬ ∀ (parseUri : JsString → Option Uri) (secretSource : BiometricSecretSource)
    (ls : List RegEvent) (run : RegRun),
    (registration parseUri).run (.create secretSource) ls = some run → FollowsLastScan parseUri run := by
  intro h
  have hfollows := h plainUri newSource
    [scanPairQr, .reset, .served 0 (.ok ⟨js "s-1", none⟩)] _ rfl
  have hidle := hfollows.reset (.returns 0 none) 0 _ rfl Nat.one_pos rfl
  cases hidle

end ZeroAuth.Android
