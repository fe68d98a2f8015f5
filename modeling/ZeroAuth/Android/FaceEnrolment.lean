/-
  ZeroAuth.Android.FaceEnrolment

  What the enrolment ceremony stores, over every order of frames, coroutines and effects.

  Three things go wrong in the code: the hold timer is carried over a stage change
  (`turn_not_held`), the effect may clear the latch while a capture is under way, and an exception
  of `cropFrameToFace` leaves the latch set.  In the runs without them (`Orderly`) each capture
  is held, the template is that of the four stages, and the ceremony can always be completed
  (`enrolment_sound`).
-/

import ZeroAuth.Android.FaceCeremony
import Mathlib.Algebra.Order.Ring.Abs

namespace ZeroAuth.Android

namespace FaceCeremony

open ZeroAuth.Lib
open ZeroAuth.Mobile (toFloat)

variable {ε σ : Type}

/-! ## The property -/

/-- The predicate held on every frame of the stage for `holdMillis`, up to the captured one. -/
def Capture.Held (c : Capture) : Prop :=
  ∃ a ∈ c.seen.takeWhile fun a => a.stage = c.stage && a.ok, a.time + c.stage.holdMillis ≤ c.time

instance (c : Capture) : Decidable c.Held :=
  inferInstanceAs (Decidable (∃ a ∈ c.seen.takeWhile _, a.time + c.stage.holdMillis ≤ c.time))

/-- What `onCaptured` is called with, and what is stored then. -/
def Enrolled (derive : ε → σ) (taken : List Capture) (f : σ × Option (Enrollment ε σ)) : Prop :=
  ∃ front left right blink : Anchor ε,
    f = (derive front.vector, some ⟨derive front.vector, [front, left, right, blink]⟩) ∧
    [front, left, right, blink].map (·.capture.stage) = [.front, .left, .right, .blink] ∧
    (∀ a ∈ [front, left, right, blink], a.capture ∈ taken) ∧
    left.capture.yaw * right.capture.yaw < 0

structure Sound (derive : ε → σ) (s : State ε σ) : Prop where
  stored : ∀ f ∈ s.fired, Enrolled derive s.taken f
  held : ∀ c ∈ s.taken, c.stage ≠ .blink → c.Held
  completes : s.fired = [] →
    ∃ s', (ceremony derive).Later (fun _ _ => True) s s' ∧ s'.fired ≠ []

/-- The latch is not cleared while a capture is under way; the conversion of a frame does not
    throw; the timer does not run already when the first frame of a stage satisfies the
    predicate. -/
def Orderly (s : State ε σ) : Step ε → Prop
  | .effect => s.inFlight = []
  | .result faces conversion => conversion ≠ .threw ∧
      ∀ frame fs, s.analysing = some frame → faces = some fs → s.currentStage ≠ .blink →
        s.accepts fs frame = true → s.stableSinceMs ≠ 0 →
          s.seen.head?.map Analysed.stage = some s.currentStage
  | _ => True

/-! ## The invariant -/

/-- The stages whose embeddings have been captured. -/
def CeremonyStage.before : CeremonyStage → List CeremonyStage
  | front => []
  | left => [.front]
  | right => [.front, .left]
  | blink => [.front, .left, .right]

/-- The yaw of a side capture is that of the left one, or opposite to it. -/
def Sided (leftYawSign : Option ℚ) (c : Capture) : Prop :=
  (c.stage = .left → leftYawSign = some c.yaw) ∧
    (c.stage = .right → ∃ yaw, leftYawSign = some yaw ∧ yaw * c.yaw < 0)

/-- A timer that runs was started on a frame, and the predicate has held since. -/
def Timed (s : State ε σ) : Prop :=
  s.currentStage ≠ .blink → s.stableSinceMs ≠ 0 → ∃ stage,
    ∃ a ∈ s.seen.takeWhile fun a => a.stage = stage && a.ok, a.time ≤ s.stableSinceMs

structure Inv (derive : ε → σ) (s : State ε σ) : Prop where
  idle : s.stageLatch = false → s.inFlight = []
  latched : s.stageLatch = true → s.fired = [] → s.inFlight ≠ []
  single : s.inFlight.length ≤ 1
  current : ∀ c ∈ s.inFlight, c.stage = s.currentStage
  before : s.fired = [] → s.capturedEmbeddings.map (·.capture.stage) = s.currentStage.before
  ended : s.fired ≠ [] → s.currentStage = .blink ∧ 4 ≤ s.capturedEmbeddings.length
  flying : ∀ c ∈ s.inFlight, c ∈ s.taken ∧ Sided s.leftYawSign c
  captured : ∀ a ∈ s.capturedEmbeddings, a.capture ∈ s.taken ∧ Sided s.leftYawSign a.capture
  turned : ∀ yaw, s.leftYawSign = some yaw → 15 ≤ |yaw|
  held : ∀ c ∈ s.taken, c.stage ≠ .blink → c.Held
  stored : ∀ f ∈ s.fired, Enrolled derive s.taken f
  timed : Timed s

theorem inv_initial (derive : ε → σ) : Inv derive (State.initial ε σ) where
  idle _ := rfl
  latched h := nomatch h
  single := Nat.zero_le 1
  current _ hc := nomatch hc
  before _ := rfl
  ended h := absurd rfl h
  flying _ hc := nomatch hc
  captured _ ha := nomatch ha
  turned _ h := nomatch h
  held _ hc := nomatch hc
  stored _ hf := nomatch hf
  timed _ h := absurd rfl h

section Invariant

variable {derive : ε → σ} {s : State ε σ}

/-- Fields that only the timer depends on, or that nothing does. -/
theorem Inv.of_eq (h : Inv derive s) {s' : State ε σ} (hstage : s'.currentStage = s.currentStage)
    (hcaptured : s'.capturedEmbeddings = s.capturedEmbeddings)
    (hyaw : s'.leftYawSign = s.leftYawSign) (hlatch : s'.stageLatch = s.stageLatch)
    (hflight : s'.inFlight = s.inFlight) (hfired : s'.fired = s.fired)
    (htaken : s'.taken = s.taken) (htimed : Timed s') : Inv derive s' := by
  refine ⟨?_, ?_, ?_, ?_, ?_, ?_, ?_, ?_, ?_, ?_, ?_, htimed⟩
  · rw [hlatch, hflight]
    exact h.idle
  · rw [hlatch, hfired, hflight]
    exact h.latched
  · rw [hflight]
    exact h.single
  · rw [hflight, hstage]
    exact h.current
  · rw [hfired, hcaptured, hstage]
    exact h.before
  · rw [hfired, hstage, hcaptured]
    exact h.ended
  · rw [hflight, htaken, hyaw]
    exact h.flying
  · rw [hcaptured, htaken, hyaw]
    exact h.captured
  · rw [hyaw]
    exact h.turned
  · rw [htaken]
    exact h.held
  · rw [hfired, htaken]
    exact h.stored

/-- Nothing is under way while a stage's first capture is still to come. -/
theorem Inv.fired_of_stage (h : Inv derive s) (hstage : s.currentStage ≠ .blink) : s.fired = [] := by
  by_contra hfired
  exact hstage (h.ended hfired).1

/-- The left capture is done before the right stage begins. -/
theorem Inv.left_of_right (h : Inv derive s) (hstage : s.currentStage = .right) :
    ∃ yaw, s.leftYawSign = some yaw := by
  have hbefore := h.before (h.fired_of_stage (by rw [hstage]; exact nofun))
  rw [hstage] at hbefore
  have hmem : CeremonyStage.left ∈ s.capturedEmbeddings.map (·.capture.stage) := by
    rw [hbefore]
    exact List.mem_cons_of_mem _ List.mem_cons_self
  obtain ⟨a, ha, hleft⟩ := List.mem_map.mp hmem
  exact ⟨_, ((h.captured a ha).2.1) hleft⟩

/-- A frame begins: it is noted, and the timer may run on. -/
theorem takeWhile_of_mem {seen : List Analysed} {stage : CeremonyStage} {entry a : Analysed}
    (hstage : entry.stage = stage) (hok : entry.ok = true)
    (ha : a ∈ seen.takeWhile fun a => a.stage = stage && a.ok) :
    a ∈ (entry :: seen).takeWhile fun a => a.stage = stage && a.ok := by
  rw [List.takeWhile_cons_of_pos]
  · exact List.mem_cons_of_mem _ ha
  · simp [hstage, hok]

/-- When a frame is accepted, the timer was started in this stage or starts now. -/
theorem Inv.started (h : Inv derive s) (hstage : s.currentStage ≠ .blink)
    (hhead : s.stableSinceMs ≠ 0 → s.seen.head?.map Analysed.stage = some s.currentStage) :
    ∃ a ∈ ((⟨s.currentStage, s.clock, true⟩ : Analysed) :: s.seen).takeWhile
        fun a => a.stage = s.currentStage && a.ok,
      a.time ≤ if s.stableSinceMs = 0 then s.clock else s.stableSinceMs := by
  by_cases hzero : s.stableSinceMs = 0
  · refine ⟨⟨s.currentStage, s.clock, true⟩, ?_, ?_⟩
    · rw [List.takeWhile_cons_of_pos]
      · exact List.mem_cons_self
      · simp
    · rw [if_pos hzero]
  · obtain ⟨stage, a, ha, htime⟩ := h.timed hstage hzero
    have hhead := hhead hzero
    -- the newest frame was accepted, so the run of accepted frames is of its stage
    have hsame : stage = s.currentStage := by
      cases hseen : s.seen with
      | nil =>
          rw [hseen] at ha
          cases ha
      | cons newest rest =>
          rw [hseen] at ha hhead
          have hnewest : newest.stage = s.currentStage := Option.some.inj hhead
          by_cases hp : newest.stage = stage
          · rw [← hp, hnewest]
          · rw [List.takeWhile_cons_of_neg (by simp [hp])] at ha
            cases ha
    subst hsame
    refine ⟨a, takeWhile_of_mem rfl rfl ha, ?_⟩
    rw [if_neg hzero]
    exact htime

/-! ## Frames -/

theorem handleFrontStage_eq (s : State ε σ) (face : Face) (conversion : Conversion) :
    handleFrontStage s face conversion =
      if predicate s.leftYawSign .front face = true then
        hold s .front face.headEulerAngleY conversion
      else { s with stableSinceMs := 0 } := by
  simp only [handleFrontStage, predicate, Bool.and_eq_true, decide_eq_true_eq]
  by_cases hyaw : 8 < |face.headEulerAngleY|
  · rw [if_pos hyaw, if_neg fun hok => absurd hok.1.1 (not_le.mpr hyaw)]
  · rw [if_neg hyaw]
    by_cases heyes : face.leftEyeOpenProbability.getD 1 < eyeThreshold ∨
        face.rightEyeOpenProbability.getD 1 < eyeThreshold
    · rw [if_pos heyes, if_neg]
      rintro ⟨⟨-, hleft⟩, hright⟩
      rcases heyes with heyes | heyes
      · exact absurd hleft (not_le.mpr heyes)
      · exact absurd hright (not_le.mpr heyes)
    · obtain ⟨hleft, hright⟩ := not_or.mp heyes
      rw [if_neg heyes, if_pos ⟨⟨not_lt.mp hyaw, not_lt.mp hleft⟩, not_lt.mp hright⟩]

theorem handleSideStage_eq (s : State ε σ) {stage : CeremonyStage} (face : Face)
    (conversion : Conversion) (hstage : stage = .left ∨ stage = .right) :
    handleSideStage s stage face conversion =
      if predicate s.leftYawSign stage face = true then
        hold s stage face.headEulerAngleY conversion
      else { s with stableSinceMs := 0 } := by
  rcases hstage with rfl | rfl
  · simp only [handleSideStage, predicate, decide_eq_true_eq, reduceCtorEq, false_and, if_false]
    by_cases hyaw : |face.headEulerAngleY| < 15
    · rw [if_pos hyaw, if_neg (not_le.mpr hyaw)]
    · rw [if_neg hyaw, if_pos (not_lt.mp hyaw)]
  · simp only [handleSideStage, predicate, Bool.and_eq_true, decide_eq_true_eq, true_and]
    by_cases hyaw : |face.headEulerAngleY| < 15
    · rw [if_pos hyaw, if_neg fun hok => absurd hok.1 (not_le.mpr hyaw)]
    · rw [if_neg hyaw]
      cases hsame : s.leftYawSign.any (sameSign · face.headEulerAngleY) with
      | true => rw [if_pos rfl, if_neg fun hok => Bool.false_ne_true hok.2]
      | false => rw [if_neg Bool.false_ne_true, if_pos ⟨not_lt.mp hyaw, rfl⟩]

/-- A frame outside the last stage is held, or resets the timer. -/
theorem handleResult_cases (s : State ε σ) (faces : List Face) (frame : Frame)
    (conversion : Conversion) (hstage : s.currentStage ≠ .blink) :
    (s.accepts faces frame = false ∧ handleResult s faces frame conversion =
      { s with seen := ⟨s.currentStage, s.clock, false⟩ :: s.seen, stableSinceMs := 0 }) ∨
    ∃ face, pickPrimaryFace faces frame = some face ∧ s.accepts faces frame = true ∧
      predicate s.leftYawSign s.currentStage face = true ∧
      handleResult s faces frame conversion =
        hold { s with seen := ⟨s.currentStage, s.clock, true⟩ :: s.seen } s.currentStage
          face.headEulerAngleY conversion := by
  cases hface : pickPrimaryFace faces frame with
  | none =>
      have haccepts : s.accepts faces frame = false := by rw [State.accepts, hface]; rfl
      refine .inl ⟨haccepts, ?_⟩
      rw [handleResult, hface, haccepts]
  | some face =>
      have haccepts : s.accepts faces frame = predicate s.leftYawSign s.currentStage face := by
        rw [State.accepts, hface]
        rfl
      -- the stages but the last one treat a frame alike
      have hresult : handleResult s faces frame conversion =
          if predicate s.leftYawSign s.currentStage face = true then
            hold { s with seen := ⟨s.currentStage, s.clock, s.accepts faces frame⟩ :: s.seen }
              s.currentStage face.headEulerAngleY conversion
          else { s with
            seen := ⟨s.currentStage, s.clock, s.accepts faces frame⟩ :: s.seen
            stableSinceMs := 0 } := by
        simp only [handleResult, hface]
        cases hcur : s.currentStage with
        | front => exact handleFrontStage_eq _ face conversion
        | left => exact handleSideStage_eq _ face conversion (.inl rfl)
        | right => exact handleSideStage_eq _ face conversion (.inr rfl)
        | blink => exact absurd hcur hstage
      cases hok : predicate s.leftYawSign s.currentStage face with
      | false =>
          rw [hok] at haccepts hresult
          refine .inl ⟨haccepts, ?_⟩
          rw [hresult, if_neg Bool.false_ne_true, haccepts]
      | true =>
          rw [hok] at haccepts hresult
          refine .inr ⟨face, rfl, haccepts, hok, ?_⟩
          rw [hresult, if_pos rfl, haccepts]

/-- The yaw of a left capture is noted before the frame is converted. -/
theorem Inv.turn (h : Inv derive s) (hlatch : s.stageLatch = false) {face : Face}
    (hok : predicate s.leftYawSign s.currentStage face = true) :
    Inv derive { s with leftYawSign :=
      if s.currentStage = .left then some face.headEulerAngleY else s.leftYawSign } := by
  by_cases hleft : s.currentStage = .left
  · have hflight := h.idle hlatch
    have hbefore := h.before (h.fired_of_stage (by rw [hleft]; exact nofun))
    rw [hleft] at hbefore
    rw [if_pos hleft]
    refine ⟨h.idle, h.latched, h.single, h.current, h.before, h.ended, ?_, fun a ha => ?_,
      fun yaw hyaw => ?_, h.held, h.stored, h.timed⟩
    · dsimp only
      rw [hflight]
      exact nofun
    · -- only the front capture is done
      refine ⟨(h.captured a ha).1, ?_⟩
      have hmem : a.capture.stage ∈ s.capturedEmbeddings.map (·.capture.stage) :=
        List.mem_map_of_mem ha
      rw [hbefore] at hmem
      have hfront : a.capture.stage = .front := List.mem_singleton.mp hmem
      rw [Sided, hfront]
      exact ⟨nofun, nofun⟩
    · obtain rfl := Option.some.inj hyaw
      rw [hleft] at hok
      exact of_decide_eq_true hok
  · rw [if_neg hleft]
    exact h

/-- The latch is taken and a coroutine is launched. -/
theorem Inv.capture (h : Inv derive s) (hlatch : s.stageLatch = false) {c : Capture}
    (hstage : c.stage = s.currentStage) (hsided : Sided s.leftYawSign c)
    (hheld : c.stage ≠ .blink → c.Held) :
    Inv derive { s with
      stageLatch := true, inFlight := s.inFlight ++ [c], taken := s.taken ++ [c] } := by
  have hflight : s.inFlight ++ [c] = [c] := by rw [h.idle hlatch, List.nil_append]
  have htaken : ∀ c' ∈ s.taken, c' ∈ s.taken ++ [c] := fun c' hc' => List.mem_append_left _ hc'
  refine ⟨nofun, fun _ _ => ?_, ?_, fun c' hc' => ?_, h.before, h.ended,
    fun c' hc' => ?_, fun a ha => ⟨htaken _ (h.captured a ha).1, (h.captured a ha).2⟩, h.turned,
    fun c' hc' hne => ?_, fun f hf => ?_, h.timed⟩
  · show s.inFlight ++ [c] ≠ []
    rw [hflight]
    exact List.cons_ne_nil _ _
  · show (s.inFlight ++ [c]).length ≤ 1
    rw [hflight]
    exact le_refl 1
  · have hc : c' = c := List.mem_singleton.mp (hflight ▸ hc')
    rw [hc]
    exact hstage
  · have hc : c' = c := List.mem_singleton.mp (hflight ▸ hc')
    rw [hc]
    exact ⟨List.mem_append_right _ (List.mem_singleton.mpr rfl), hsided⟩
  · rcases List.mem_append.mp hc' with hc' | hc'
    · exact h.held c' hc' hne
    · obtain rfl := List.mem_singleton.mp hc'
      exact hheld hne
  · obtain ⟨front, left, right, blink, hf, hstages, hmem, hyaws⟩ := h.stored f hf
    exact ⟨front, left, right, blink, hf, hstages, fun a ha => htaken _ (hmem a ha), hyaws⟩

/-- A right capture is opposite to the left one. -/
theorem mul_neg_of_not_sameSign {first yaw : ℚ} (hfirst : 15 ≤ |first|) (hyaw : 15 ≤ |yaw|)
    (hsame : sameSign first yaw = false) : first * yaw < 0 := by
  have hne : decide (0 < first) ≠ decide (0 < yaw) := by
    intro heq
    rw [sameSign, heq, beq_self_eq_true] at hsame
    cases hsame
  rcases le_abs.mp hfirst with hpos | hneg
  · have hfirst : 0 < first := by linarith
    rcases le_abs.mp hyaw with hyaw | hyaw
    · have hyaw : 0 < yaw := by linarith
      simp [hfirst, hyaw] at hne
    · exact mul_neg_of_pos_of_neg hfirst (by linarith)
  · have hfirst : first < 0 := by linarith
    rcases le_abs.mp hyaw with hyaw | hyaw
    · exact mul_neg_of_neg_of_pos hfirst (by linarith)
    · have hyaw : yaw < 0 := by linarith
      simp [not_lt.mpr hfirst.le, not_lt.mpr hyaw.le] at hne

/-- The yaw of a frame that is captured is that of its stage. -/
theorem Inv.sided (h : Inv derive s) {face : Face}
    (hok : predicate s.leftYawSign s.currentStage face = true) {c : Capture}
    (hstage : c.stage = s.currentStage) (hyaw : c.yaw = face.headEulerAngleY) :
    Sided (if s.currentStage = .left then some face.headEulerAngleY else s.leftYawSign) c := by
  rw [Sided, hstage, hyaw]
  refine ⟨fun hleft => by rw [if_pos hleft], fun hright => ?_⟩
  have hnot : s.currentStage ≠ .left := by
    rw [hright]
    exact nofun
  rw [if_neg hnot]
  obtain ⟨first, hfirst⟩ := h.left_of_right hright
  rw [hright, hfirst] at hok
  obtain ⟨habs, hsame⟩ := Bool.and_eq_true_iff.mp hok
  refine ⟨first, hfirst, mul_neg_of_not_sameSign (h.turned first hfirst) (of_decide_eq_true habs) ?_⟩
  exact Bool.not_eq_true' _ ▸ hsame

theorem Inv.hold (h : Inv derive s) (hstage : s.currentStage ≠ .blink) {face : Face}
    (hok : predicate s.leftYawSign s.currentStage face = true) {conversion : Conversion}
    (hconversion : conversion ≠ .threw)
    (hhead : s.stableSinceMs ≠ 0 → s.seen.head?.map Analysed.stage = some s.currentStage) :
    Inv derive (hold { s with seen := ⟨s.currentStage, s.clock, true⟩ :: s.seen } s.currentStage
      face.headEulerAngleY conversion) := by
  obtain ⟨a, ha, htime⟩ := h.started hstage hhead
  simp only [FaceCeremony.hold]
  generalize hstarted : (if s.stableSinceMs = 0 then s.clock else s.stableSinceMs) = started at htime
  have htimed : Timed { s with
      seen := ⟨s.currentStage, s.clock, true⟩ :: s.seen, stableSinceMs := started } :=
    fun _ _ => ⟨s.currentStage, a, ha, htime⟩
  have hnoted : Inv derive { s with
      seen := ⟨s.currentStage, s.clock, true⟩ :: s.seen, stableSinceMs := started } :=
    h.of_eq rfl rfl rfl rfl rfl rfl rfl htimed
  by_cases hshort : s.clock - started < s.currentStage.holdMillis
  · rw [if_pos hshort]
    exact hnoted
  · rw [if_neg hshort]
    cases hlatch : s.stageLatch with
    | true =>
        rw [if_pos rfl]
        exact hnoted.of_eq rfl rfl rfl hlatch.symm rfl rfl rfl htimed
    | false =>
        rw [if_neg Bool.false_ne_true]
        have hturned := hnoted.turn hlatch hok
        cases conversion with
        | threw => exact absurd rfl hconversion
        | null => exact hturned.of_eq rfl rfl rfl hlatch.symm rfl rfl rfl fun _ h0 => absurd rfl h0
        | bitmap =>
            refine hturned.capture hlatch rfl (h.sided hok rfl rfl) fun _ => ⟨a, ha, ?_⟩
            -- the timer is older than the hold
            show a.time + s.currentStage.holdMillis ≤ s.clock
            have hpos : 0 < s.currentStage.holdMillis := by
              cases hcur : s.currentStage with
              | blink => exact absurd hcur hstage
              | front => decide
              | left => decide
              | right => decide
            omega

theorem Inv.blinkStage (h : Inv derive s) (hstage : s.currentStage = .blink) (face : Face)
    {conversion : Conversion} (hconversion : conversion ≠ .threw) :
    Inv derive (handleBlinkStage s face conversion) := by
  -- only the machine of the blink and its clock move, unless a picture is taken
  have hsame : ∀ (blinkState : BlinkState) (last : ℕ), Inv derive { s with
      blinkState := blinkState, lastBlinkTransitionMs := last } := fun _ _ =>
    h.of_eq rfl rfl rfl rfl rfl rfl rfl fun hne => absurd hstage hne
  simp only [handleBlinkStage]
  split
  · exact h
  · split
    · split
      · exact hsame _ _
      · split
        · split
          · exact hsame _ _
          · exact h
        · split
          · exact hsame _ _
          · exact h
        · split
          · split
            · exact h
            · next hlatch =>
                have hlatch := Bool.eq_false_iff.mpr hlatch
                -- the second opening of the eyes takes the picture
                cases conversion with
                | threw => exact absurd rfl hconversion
                | null => exact hsame .waitingForOpen s.lastBlinkTransitionMs
                | bitmap =>
                    refine h.capture hlatch hstage.symm ⟨nofun, nofun⟩ fun hne => absurd rfl hne
          · exact h
    · exact h

theorem Inv.result (h : Inv derive s) {faces : List Face} {frame : Frame} {conversion : Conversion}
    (hconversion : conversion ≠ .threw)
    (hhead : s.currentStage ≠ .blink → s.accepts faces frame = true → s.stableSinceMs ≠ 0 →
      s.seen.head?.map Analysed.stage = some s.currentStage) :
    Inv derive (handleResult s faces frame conversion) := by
  by_cases hstage : s.currentStage = .blink
  · have hnoted : Inv derive { s with
        seen := ⟨s.currentStage, s.clock, s.accepts faces frame⟩ :: s.seen } :=
      h.of_eq rfl rfl rfl rfl rfl rfl rfl fun hne => absurd hstage hne
    cases hface : pickPrimaryFace faces frame with
    | none =>
        have hresult : handleResult s faces frame conversion =
            { s with
              seen := ⟨s.currentStage, s.clock, s.accepts faces frame⟩ :: s.seen
              stableSinceMs := 0 } := by rw [handleResult, hface]
        rw [hresult]
        exact hnoted.of_eq rfl rfl rfl rfl rfl rfl rfl fun _ h0 => absurd rfl h0
    | some face =>
        have hresult : handleResult s faces frame conversion = handleBlinkStage { s with
            seen := ⟨s.currentStage, s.clock, s.accepts faces frame⟩ :: s.seen } face conversion := by
          simp only [handleResult, hface, hstage]
        rw [hresult]
        exact hnoted.blinkStage hstage face hconversion
  · rcases handleResult_cases s faces frame conversion hstage with
      ⟨-, hresult⟩ | ⟨face, -, haccepts, hok, hresult⟩
    · rw [hresult]
      exact h.of_eq rfl rfl rfl rfl rfl rfl rfl fun _ h0 => absurd rfl h0
    · rw [hresult]
      exact h.hold hstage hok hconversion (hhead hstage haccepts)

/-! ## Coroutines -/

/-- Only one coroutine waits for the embedder. -/
theorem Inv.flight (h : Inv derive s) {i : ℕ} {c : Capture} (hc : s.inFlight[i]? = some c) :
    s.inFlight = [c] ∧ s.inFlight.eraseIdx i = [] := by
  have hsingle := h.single
  cases hflight : s.inFlight with
  | nil =>
      rw [hflight] at hc
      cases hc
  | cons c' rest =>
      rw [hflight, List.length_cons] at hsingle
      obtain rfl : rest = [] := List.length_eq_zero_iff.mp (by omega)
      rw [hflight] at hc
      cases i with
      | zero =>
          obtain rfl := Option.some.inj hc
          exact ⟨rfl, rfl⟩
      | succ i => cases hc

/-- The embedder has failed, or `require` has thrown. -/
theorem Inv.release (h : Inv derive s) : Inv derive { s with inFlight := [], stageLatch := false } where
  idle _ := rfl
  latched hl := nomatch hl
  single := Nat.zero_le 1
  current _ hc := nomatch hc
  before := h.before
  ended := h.ended
  flying _ hc := nomatch hc
  captured := h.captured
  turned := h.turned
  held := h.held
  stored := h.stored
  timed := h.timed

/-- A stage but the last is completed. -/
theorem Inv.advance (h : Inv derive s) {c : Capture} (hflight : s.inFlight = [c]) (e : ε)
    {next : CeremonyStage} (hstage : s.currentStage ≠ .blink)
    (hnext : next.before = s.currentStage.before ++ [s.currentStage]) :
    Inv derive (advance { s with
      inFlight := [], capturedEmbeddings := s.capturedEmbeddings ++ [⟨e, c⟩] } next) := by
  have hc : c ∈ s.inFlight := hflight ▸ List.mem_cons_self
  have hnone : s.fired = [] := h.fired_of_stage hstage
  refine ⟨fun _ => rfl, nofun, Nat.zero_le 1, nofun, fun _ => ?_, fun hfired => absurd hnone hfired,
    nofun, fun a ha => ?_, h.turned, h.held, h.stored, fun _ => h.timed hstage⟩
  · show (s.capturedEmbeddings ++ [(⟨e, c⟩ : Anchor ε)]).map (·.capture.stage) = next.before
    rw [List.map_append, h.before hnone, hnext]
    show _ ++ [c.stage] = _
    rw [h.current c hc]
  · rcases List.mem_append.mp ha with ha | ha
    · exact h.captured a ha
    · rw [List.mem_singleton.mp ha]
      exact h.flying c hc

/-- The anchors before the last stage's capture. -/
theorem Inv.anchors (h : Inv derive s) (hnone : s.fired = []) (hstage : s.currentStage = .blink) :
    ∃ front left right : Anchor ε, s.capturedEmbeddings = [front, left, right] ∧
      front.capture.stage = .front ∧ left.capture.stage = .left ∧ right.capture.stage = .right := by
  have hbefore := h.before hnone
  rw [hstage] at hbefore
  have hlength : s.capturedEmbeddings.length = 3 := by
    rw [← List.length_map, hbefore]
    rfl
  obtain ⟨front, left, right, hcaptured⟩ := List.length_eq_three.mp hlength
  rw [hcaptured] at hbefore
  obtain ⟨hfront, hrest⟩ := List.cons.inj hbefore
  obtain ⟨hleft, hrest⟩ := List.cons.inj hrest
  exact ⟨front, left, right, hcaptured, hfront, hleft, (List.cons.inj hrest).1⟩

/-- The last stage's capture: four anchors are stored, or more are refused. -/
theorem Inv.finalise (h : Inv derive s) {c : Capture} (hflight : s.inFlight = [c]) (e : ε)
    (hstage : s.currentStage = .blink) (written : Bool) :
    Inv derive (finaliseEnrollment derive { s with
      inFlight := [], capturedEmbeddings := s.capturedEmbeddings ++ [⟨e, c⟩] } written) := by
  have hc : c ∈ s.inFlight := hflight ▸ List.mem_cons_self
  have hmem : ∀ a ∈ s.capturedEmbeddings ++ [⟨e, c⟩],
      a.capture ∈ s.taken ∧ Sided s.leftYawSign a.capture := by
    intro a ha
    rcases List.mem_append.mp ha with ha | ha
    · exact h.captured a ha
    · rw [List.mem_singleton.mp ha]
      exact h.flying c hc
  by_cases hnone : s.fired = []
  · obtain ⟨front, left, right, hcaptured, hfront, hleft, hright⟩ := h.anchors hnone hstage
    rw [hcaptured] at hmem ⊢
    cases written with
    | false =>
        -- the last embedding is taken out again
        show Inv derive { s with
          inFlight := [], capturedEmbeddings := [front, left, right], stageLatch := false
          blinkState := .waitingForOpen }
        exact h.release.of_eq rfl hcaptured.symm rfl rfl rfl rfl rfl h.timed
    | true =>
        obtain ⟨yaw, hyaw, hneg⟩ := (hmem right (by simp)).2.2 hright
        have hl : left.capture.yaw = yaw :=
          Option.some.inj (((hmem left (by simp)).2.1 hleft).symm.trans hyaw)
        have hfired : Enrolled derive s.taken (derive front.vector,
            some ⟨derive front.vector, [front, left, right, ⟨e, c⟩]⟩) := by
          refine ⟨front, left, right, ⟨e, c⟩, rfl, ?_, fun a ha => (hmem a ha).1, ?_⟩
          · show [front.capture.stage, left.capture.stage, right.capture.stage, c.stage] = _
            rw [hfront, hleft, hright, h.current c hc, hstage]
          · rw [hl]
            exact hneg
        have hnonempty : s.fired ++ [(derive front.vector,
            some (⟨derive front.vector, [front, left, right, ⟨e, c⟩]⟩ : Enrollment ε σ))] ≠ [] :=
          List.append_ne_nil_of_right_ne_nil _ (List.cons_ne_nil _ _)
        refine ⟨fun _ => rfl, fun _ hf => absurd hf hnonempty, Nat.zero_le 1, nofun,
          fun hf => absurd hf hnonempty, fun _ => ⟨hstage, le_refl 4⟩, nofun, hmem, h.turned, h.held,
          fun f hf => ?_, h.timed⟩
        rcases List.mem_append.mp hf with hf | hf
        · exact h.stored f hf
        · rw [List.mem_singleton.mp hf]
          exact hfired
  · obtain ⟨-, hlength⟩ := h.ended hnone
    have hmany : finaliseEnrollment derive { s with
        inFlight := [], capturedEmbeddings := s.capturedEmbeddings ++ [⟨e, c⟩] } written =
        { s with
          inFlight := [], capturedEmbeddings := s.capturedEmbeddings ++ [⟨e, c⟩]
          stageLatch := false } := by
      simp only [finaliseEnrollment]
      split
      · next heq =>
          have hfour := congrArg List.length heq
          simp only [List.length_append, List.length_cons, List.length_nil] at hfour
          omega
      · rfl
    rw [hmany]
    refine ⟨fun _ => rfl, nofun, Nat.zero_le 1, nofun, fun hf => absurd hf hnone,
      fun _ => ⟨hstage, ?_⟩, nofun, hmem, h.turned, h.held, h.stored, h.timed⟩
    show 4 ≤ (s.capturedEmbeddings ++ [(⟨e, c⟩ : Anchor ε)]).length
    rw [List.length_append]
    omega

theorem Inv.embedded (h : Inv derive s) {i : ℕ} {c : Capture} (hc : s.inFlight[i]? = some c)
    (embedding : Option ε) (written : Bool) :
    Inv derive (embedded derive { s with inFlight := s.inFlight.eraseIdx i } c embedding written) := by
  obtain ⟨hflight, herase⟩ := h.flight hc
  rw [herase]
  have hstage : c.stage = s.currentStage := h.current c (hflight ▸ List.mem_cons_self)
  cases embedding with
  | none => exact h.release
  | some e =>
      simp only [FaceCeremony.embedded]
      cases hcur : c.stage with
      | front =>
          rw [hstage] at hcur
          exact h.advance hflight e (by rw [hcur]; exact nofun) (by rw [hcur]; rfl)
      | left =>
          rw [hstage] at hcur
          exact h.advance hflight e (by rw [hcur]; exact nofun) (by rw [hcur]; rfl)
      | right =>
          rw [hstage] at hcur
          exact h.advance hflight e (by rw [hcur]; exact nofun) (by rw [hcur]; rfl)
      | blink => exact h.finalise hflight e (hstage ▸ hcur) written

theorem Inv.step {s' : State ε σ} (h : Inv derive s) {l : Step ε} (hgood : Orderly s l)
    (hs : step derive s l = some s') : Inv derive s' := by
  cases l with
  | analyze frame =>
      simp only [FaceCeremony.step] at hs
      split at hs
      · cases hs
      · obtain rfl := Option.some.inj hs
        split
        · exact h
        · exact h.of_eq rfl rfl rfl rfl rfl rfl rfl h.timed
  | result faces conversion =>
      -- the answer of the detector belongs to the frame that is analysed
      obtain ⟨hconversion, hhead⟩ := hgood
      obtain ⟨frame, hframe, rfl⟩ := Option.map_eq_some_iff.mp hs
      have hclosed : Inv derive { s with analysing := none } :=
        h.of_eq rfl rfl rfl rfl rfl rfl rfl h.timed
      cases faces with
      | none => exact hclosed
      | some faces => exact hclosed.result hconversion (hhead frame faces hframe rfl)
  | embedded i embedding written =>
      obtain ⟨c, hc, rfl⟩ := Option.map_eq_some_iff.mp hs
      exact h.embedded hc embedding written
  | compose =>
      simp only [FaceCeremony.step] at hs
      split at hs
      · cases hs
      · obtain rfl := Option.some.inj hs
        exact h.of_eq rfl rfl rfl rfl rfl rfl rfl h.timed
  | effect =>
      obtain ⟨-, heq⟩ := Option.ite_none_right_eq_some.mp hs
      obtain rfl := Option.some.inj heq
      -- the screen goes when no embedding is under way
      have hflight : s.inFlight = [] := hgood
      exact h.release.of_eq rfl rfl rfl rfl hflight rfl rfl h.timed
  | tick ms =>
      obtain rfl := Option.some.inj hs
      exact h.of_eq rfl rfl rfl rfl rfl rfl rfl h.timed

end Invariant

/-! ## How the ceremony is completed -/

section Completion

variable {derive : ε → σ} {s : State ε σ}

/-- A frame can come in. -/
structure Ready (derive : ε → σ) (s : State ε σ) : Prop where
  inv : Inv derive s
  fired : s.fired = []
  latch : s.stageLatch = false
  analysing : s.analysing = none

def frame100 : Frame := ⟨100, 100, by decide, by decide⟩

/-- A face in the middle of `frame100`. -/
def centred (yaw eyes : ℚ) : Face := ⟨⟨30, 30, 70, 70⟩, yaw, some eyes, some eyes⟩

theorem pickPrimaryFace_centred (yaw eyes : ℚ) :
    pickPrimaryFace [centred yaw eyes] frame100 = some (centred yaw eyes) := by
  have hcentre : offCentre (exactCenter 30 70) 100 = false := by decide +kernel
  have hsize : ¬ (toFloat (toFloat (40 : ℤ) / toFloat (100 : ℤ)) < 10066330 / 67108864 ∨
      15938355 / 16777216 < toFloat (toFloat (40 : ℤ) / toFloat (100 : ℤ))) := by decide +kernel
  show (if offCentre (exactCenter 30 70) 100 = true then none
    else if offCentre (exactCenter 30 70) 100 = true then none
    else if _ then none else some _) = _
  rw [hcentre, if_neg Bool.false_ne_true, if_neg Bool.false_ne_true]
  exact if_neg hsize

/-- From every state one gets to where a frame can come in. -/
theorem Inv.ready (h : Inv derive s) (hfired : s.fired = []) :
    ∃ s', (ceremony derive).Later Orderly s s' ∧ Ready derive s' := by
  have hflush : ∃ s', (ceremony derive).Later Orderly s s' ∧ Inv derive s' ∧ s'.fired = [] ∧
      s'.stageLatch = false := by
    cases hlatch : s.stageLatch with
    | false => exact ⟨s, .refl, h, hfired, hlatch⟩
    | true =>
        -- the embedder fails on the capture that is under way
        obtain ⟨c, rest, hflight⟩ := List.exists_cons_of_ne_nil (h.latched hlatch hfired)
        have hc : s.inFlight[0]? = some c := by rw [hflight]; rfl
        have hs : (ceremony derive).step s (.embedded 0 none false) =
            some (FaceCeremony.embedded derive
              { s with inFlight := s.inFlight.eraseIdx 0 } c none false) := by
          show s.inFlight[0]?.map _ = _
          rw [hc]
          rfl
        exact ⟨_, .single ⟨.embedded 0 none false, trivial, hs⟩,
          h.step (l := .embedded 0 none false) trivial hs, hfired, rfl⟩
  obtain ⟨s₁, hlater, hinv, hnone, hlatch⟩ := hflush
  cases hanalysing : s₁.analysing with
  | none => exact ⟨s₁, hlater, hinv, hnone, hlatch, hanalysing⟩
  | some frame =>
      -- the detector fails on the frame that it has
      have hgood : Orderly s₁ (.result none .bitmap) := ⟨nofun, fun _ _ _ hf => nomatch hf⟩
      have hs : (ceremony derive).step s₁ (.result none .bitmap) =
          some { s₁ with analysing := none } := by
        show s₁.analysing.map _ = _
        rw [hanalysing]
        rfl
      exact ⟨_, hlater.tail ⟨_, hgood, hs⟩, hinv.step hgood hs, hnone, hlatch, rfl⟩

/-- A frame is analysed and evaluated. -/
theorem Ready.frame (h : Ready derive s) (faces : List Face) (frame : Frame)
    (hhead : s.currentStage ≠ .blink → s.accepts faces frame = true → s.stableSinceMs ≠ 0 →
      s.seen.head?.map Analysed.stage = some s.currentStage) :
    (ceremony derive).Later Orderly s (handleResult s faces frame .bitmap) ∧
      Inv derive (handleResult s faces frame .bitmap) := by
  have hanalysed : (ceremony derive).step s (.analyze frame) =
      some { s with analysing := some frame } := by
    show step derive s (.analyze frame) = _
    rw [step, h.analysing, h.latch]
    rfl
  have hresult : (ceremony derive).step { s with analysing := some frame }
      (.result (some faces) .bitmap) = some (handleResult s faces frame .bitmap) := by
    show some (handleResult { s with analysing := none } faces frame .bitmap) = _
    rw [← h.analysing]
  have hgood : Orderly { s with analysing := some frame } (.result (some faces) .bitmap) := by
    refine ⟨fun hthrew => (by cases hthrew), fun frame' fs hf hfs hstage haccepts hsince => ?_⟩
    obtain rfl := Option.some.inj hf
    obtain rfl := Option.some.inj hfs
    exact hhead hstage haccepts hsince
  have hinv : Inv derive { s with analysing := some frame } := h.inv.step (l := .analyze frame) trivial hanalysed
  exact ⟨.head ⟨.analyze frame, trivial, hanalysed⟩ (.single ⟨_, hgood, hresult⟩), hinv.step hgood hresult⟩

theorem Ready.tick (h : Ready derive s) (ms : ℕ) :
    (ceremony derive).Later Orderly s { s with clock := s.clock + ms } ∧
      Ready derive { s with clock := s.clock + ms } := by
  have hs : (ceremony derive).step s (.tick ms) = some { s with clock := s.clock + ms } := rfl
  exact ⟨.single ⟨.tick ms, trivial, hs⟩, h.inv.step (l := .tick ms) trivial hs, h.fired, h.latch, h.analysing⟩

/-- A frame without a face resets the timer. -/
theorem Ready.reset (h : Ready derive s) :
    ∃ s', (ceremony derive).Later Orderly s s' ∧ Ready derive s' ∧ s'.stableSinceMs = 0 ∧
      s'.currentStage = s.currentStage ∧ s'.leftYawSign = s.leftYawSign := by
  have hnobody : handleResult s [] frame100 .bitmap =
      { s with seen := ⟨s.currentStage, s.clock, false⟩ :: s.seen, stableSinceMs := 0 } := rfl
  obtain ⟨hlater, hinv⟩ := h.frame [] frame100 fun _ haccepts => nomatch haccepts
  rw [hnobody] at hlater hinv
  exact ⟨_, hlater, ⟨hinv, h.fired, h.latch, h.analysing⟩, rfl, rfl, rfl⟩

/-- Two frames with the hold between them are captured. -/
theorem Ready.captured (h : Ready derive s) (hstage : s.currentStage ≠ .blink) {yaw : ℚ}
    (hok : predicate s.leftYawSign s.currentStage (centred yaw 1) = true) :
    ∃ s' c, (ceremony derive).Later Orderly s s' ∧ Inv derive s' ∧ s'.fired = [] ∧
      s'.analysing = none ∧ s'.currentStage = s.currentStage ∧ s'.inFlight = [c] := by
  obtain ⟨s₁, hlater₁, hready₁, hzero, hstage₁, hyaw₁⟩ := h.reset
  obtain ⟨hlater₂, hready₂⟩ := hready₁.tick 1
  generalize hs₂ : { s₁ with clock := s₁.clock + 1 } = s₂ at hlater₂ hready₂
  have hstage₂ : s₂.currentStage = s.currentStage := by rw [← hs₂, hstage₁]
  have hyaw₂ : s₂.leftYawSign = s.leftYawSign := by rw [← hs₂, hyaw₁]
  have hzero₂ : s₂.stableSinceMs = 0 := by rw [← hs₂, hzero]
  have hclock₂ : s₂.clock ≠ 0 := by rw [← hs₂]; exact Nat.succ_ne_zero _
  have hne₂ : s₂.currentStage ≠ .blink := hstage₂ ▸ hstage
  have hok₂ : predicate s₂.leftYawSign s₂.currentStage (centred yaw 1) = true := by
    rw [hstage₂, hyaw₂]
    exact hok
  have hpos : 0 < s₂.currentStage.holdMillis := by
    cases hcur : s₂.currentStage with
    | blink => exact absurd hcur hne₂
    | front => decide
    | left => decide
    | right => decide
  -- the first frame starts the timer
  have hfirst : handleResult s₂ [centred yaw 1] frame100 .bitmap = { s₂ with
      seen := ⟨s₂.currentStage, s₂.clock, true⟩ :: s₂.seen, stableSinceMs := s₂.clock } := by
    rcases handleResult_cases s₂ [centred yaw 1] frame100 .bitmap hne₂ with
      ⟨hrejected, -⟩ | ⟨face, hface, -, -, hresult⟩
    · rw [State.accepts, pickPrimaryFace_centred] at hrejected
      exact absurd (hok₂.symm.trans hrejected) (by decide)
    · rw [hresult]
      simp only [hold, hzero₂, if_true, Nat.sub_self, if_pos hpos]
  obtain ⟨hlater₃, hinv₃⟩ := hready₂.frame [centred yaw 1] frame100
    fun _ _ hsince => absurd hzero₂ hsince
  rw [hfirst] at hlater₃ hinv₃
  have hready₃ : Ready derive { s₂ with
      seen := ⟨s₂.currentStage, s₂.clock, true⟩ :: s₂.seen, stableSinceMs := s₂.clock } :=
    ⟨hinv₃, hready₂.fired, hready₂.latch, hready₂.analysing⟩
  obtain ⟨hlater₄, hready₄⟩ := hready₃.tick s₂.currentStage.holdMillis
  generalize hs₄ : ({ s₂ with
      seen := ⟨s₂.currentStage, s₂.clock, true⟩ :: s₂.seen, stableSinceMs := s₂.clock
      clock := s₂.clock + s₂.currentStage.holdMillis } : State ε σ) = s₄ at hlater₄ hready₄
  have hstage₄ : s₄.currentStage = s₂.currentStage := by rw [← hs₄]
  -- the second frame is captured
  have hsecond : ∃ c, (handleResult s₄ [centred yaw 1] frame100 .bitmap).inFlight = [c] ∧
      (handleResult s₄ [centred yaw 1] frame100 .bitmap).currentStage = s₄.currentStage ∧
      (handleResult s₄ [centred yaw 1] frame100 .bitmap).fired = s₄.fired ∧
      (handleResult s₄ [centred yaw 1] frame100 .bitmap).analysing = s₄.analysing := by
    rcases handleResult_cases s₄ [centred yaw 1] frame100 .bitmap (hstage₄ ▸ hne₂) with
      ⟨hrejected, -⟩ | ⟨face, hface, -, -, hresult⟩
    · rw [State.accepts, pickPrimaryFace_centred, ← hs₄] at hrejected
      exact absurd (hok₂.symm.trans hrejected) (by decide)
    · have hlong : ¬ s₄.clock - s₄.stableSinceMs < s₄.currentStage.holdMillis := by
        rw [← hs₄]
        dsimp only
        omega
      have hsince : s₄.stableSinceMs ≠ 0 := by
        rw [← hs₄]
        exact hclock₂
      have hflight : s₄.inFlight = [] := hready₄.inv.idle hready₄.latch
      rw [hresult]
      simp only [hold, if_neg hsince, if_neg hlong, hready₄.latch, Bool.false_eq_true, if_false,
        onStageCapture, hflight, List.nil_append]
      exact ⟨_, rfl, trivial, trivial, trivial⟩
  obtain ⟨c, hflight, hcur, hnone, hanalysing⟩ := hsecond
  obtain ⟨hlater₅, hinv₅⟩ := hready₄.frame [centred yaw 1] frame100 fun _ _ _ => by
    rw [← hs₄]
    rfl
  refine ⟨_, c, hlater₁.trans (hlater₂.trans (hlater₃.trans (hlater₄.trans hlater₅))), hinv₅,
    hnone.trans hready₄.fired, hanalysing.trans hready₄.analysing, ?_, hflight⟩
  rw [hcur, hstage₄, hstage₂]

/-- Some yaw satisfies the predicate of a stage. -/
theorem Inv.exists_yaw (h : Inv derive s) (hstage : s.currentStage ≠ .blink) :
    ∃ yaw, predicate s.leftYawSign s.currentStage (centred yaw 1) = true := by
  cases hcur : s.currentStage with
  | blink => exact absurd hcur hstage
  | front =>
      refine ⟨0, ?_⟩
      show (decide (|(0 : ℚ)| ≤ 8) && decide (eyeThreshold ≤ 1) && decide (eyeThreshold ≤ 1)) = true
      decide +kernel
  | left =>
      refine ⟨20, ?_⟩
      show decide (15 ≤ |(20 : ℚ)|) = true
      decide +kernel
  | right =>
      -- the other way than the left capture
      obtain ⟨first, hfirst⟩ := h.left_of_right hcur
      have hturned : 15 ≤ |first| := h.turned first hfirst
      refine ⟨-first, ?_⟩
      rw [hfirst]
      show (decide (15 ≤ |-first|) && !(decide (0 < first) == decide (0 < -first))) = true
      rw [abs_neg, decide_eq_true hturned, Bool.true_and]
      rcases le_abs.mp hturned with hpos | hneg
      · have hfirst : 0 < first := by linarith
        have hother : ¬ 0 < -first := by linarith
        rw [decide_eq_true hfirst, decide_eq_false hother]
        rfl
      · have hfirst : ¬ 0 < first := by linarith
        have hother : 0 < -first := by linarith
        rw [decide_eq_false hfirst, decide_eq_true hother]
        rfl

/-- The embedder answers, and the next stage begins. -/
theorem Ready.next (h : Ready derive s) (e : ε) (hstage : s.currentStage ≠ .blink) :
    ∃ s', (ceremony derive).Later Orderly s s' ∧ Ready derive s' ∧
      s'.currentStage.before = s.currentStage.before ++ [s.currentStage] := by
  obtain ⟨yaw, hok⟩ := h.inv.exists_yaw hstage
  obtain ⟨s₁, c, hlater, hinv, hfired, hanalysing, hcur, hflight⟩ := h.captured hstage hok
  have hc : s₁.inFlight[0]? = some c := by rw [hflight]; rfl
  have hs : (ceremony derive).step s₁ (.embedded 0 (some e) true) =
      some (embedded derive { s₁ with inFlight := s₁.inFlight.eraseIdx 0 } c (some e) true) := by
    show s₁.inFlight[0]?.map _ = _
    rw [hc]
    rfl
  have hc' : c.stage = s.currentStage := by
    rw [hinv.current c (by rw [hflight]; exact List.mem_cons_self), hcur]
  have hnext : ∃ next : CeremonyStage, next.before = s.currentStage.before ++ [s.currentStage] ∧
      embedded derive { s₁ with inFlight := s₁.inFlight.eraseIdx 0 } c (some e) true =
        advance { s₁ with
          inFlight := s₁.inFlight.eraseIdx 0
          capturedEmbeddings := s₁.capturedEmbeddings ++ [⟨e, c⟩] } next := by
    simp only [embedded, hc']
    cases hstage' : s.currentStage with
    | front => exact ⟨.left, rfl, rfl⟩
    | left => exact ⟨.right, rfl, rfl⟩
    | right => exact ⟨.blink, rfl, rfl⟩
    | blink => exact absurd hstage' hstage
  obtain ⟨next, hbefore, heq⟩ := hnext
  rw [heq] at hs
  exact ⟨_, hlater.tail ⟨.embedded 0 (some e) true, trivial, hs⟩,
    ⟨hinv.step (l := .embedded 0 (some e) true) trivial hs, hfired, rfl, hanalysing⟩, hbefore⟩

theorem CeremonyStage.before_injective {stage stage' : CeremonyStage}
    (h : stage.before = stage'.before) : stage = stage' := by
  cases stage <;> cases stage' <;> first | rfl | cases h

/-- The last stage is reached. -/
theorem Ready.last (h : Ready derive s) (e : ε) :
    ∃ s', (ceremony derive).Later Orderly s s' ∧ Ready derive s' ∧ s'.currentStage = .blink := by
  have hright : ∀ s : State ε σ, Ready derive s → s.currentStage = .right →
      ∃ s', (ceremony derive).Later Orderly s s' ∧ Ready derive s' ∧ s'.currentStage = .blink := by
    intro s h hstage
    obtain ⟨s', hlater, hready, hbefore⟩ := h.next e (by rw [hstage]; exact nofun)
    rw [hstage] at hbefore
    exact ⟨s', hlater, hready, CeremonyStage.before_injective hbefore⟩
  have hleft : ∀ s : State ε σ, Ready derive s → s.currentStage = .left →
      ∃ s', (ceremony derive).Later Orderly s s' ∧ Ready derive s' ∧ s'.currentStage = .blink := by
    intro s h hstage
    obtain ⟨s₁, hlater, hready, hbefore⟩ := h.next e (by rw [hstage]; exact nofun)
    rw [hstage] at hbefore
    obtain ⟨s', hlater', hlast⟩ := hright s₁ hready
      (@CeremonyStage.before_injective _ .right hbefore)
    exact ⟨s', hlater.trans hlater', hlast⟩
  cases hstage : s.currentStage with
  | blink => exact ⟨s, .refl, h, hstage⟩
  | right => exact hright s h hstage
  | left => exact hleft s h hstage
  | front =>
      obtain ⟨s₁, hlater, hready, hbefore⟩ := h.next e (by rw [hstage]; exact nofun)
      rw [hstage] at hbefore
      obtain ⟨s', hlater', hlast⟩ := hleft s₁ hready
        (@CeremonyStage.before_injective _ .left hbefore)
      exact ⟨s', hlater.trans hlater', hlast⟩

/-! ## The blink -/

/-- A blink that has begun is given up. -/
def State.stale (s : State ε σ) : Prop :=
  s.blinkState ≠ .waitingForOpen ∧ 0 < s.lastBlinkTransitionMs ∧
    blinkWindowMs < s.clock - s.lastBlinkTransitionMs

theorem Ready.blinkFrame (h : Ready derive s) (hstage : s.currentStage = .blink) (eyes : ℚ) :
    ∃ entry, (ceremony derive).Later Orderly s (handleBlinkStage
        { s with seen := entry :: s.seen } (centred 0 eyes) .bitmap) ∧
      Inv derive (handleBlinkStage { s with seen := entry :: s.seen } (centred 0 eyes) .bitmap) := by
  obtain ⟨hlater, hinv⟩ := h.frame [centred 0 eyes] frame100 fun hne => absurd hstage hne
  have hresult : handleResult s [centred 0 eyes] frame100 .bitmap = handleBlinkStage { s with
      seen := ⟨s.currentStage, s.clock, s.accepts [centred 0 eyes] frame100⟩ :: s.seen }
        (centred 0 eyes) .bitmap := by
    simp only [handleResult, pickPrimaryFace_centred, hstage]
  rw [hresult] at hlater hinv
  exact ⟨_, hlater, hinv⟩

/-- Both eyes of the frame are open, or closed. -/
theorem handleBlinkStage_centred (s : State ε σ) (isOpen : Bool) :
    handleBlinkStage s (centred 0 (if isOpen then 1 else 0)) .bitmap =
      if s.blinkState ≠ .waitingForOpen ∧ 0 < s.lastBlinkTransitionMs ∧
          blinkWindowMs < s.clock - s.lastBlinkTransitionMs then
        { s with blinkState := .waitingForOpen, lastBlinkTransitionMs := 0 }
      else match s.blinkState with
        | .waitingForOpen =>
            if isOpen then { s with blinkState := .sawOpen, lastBlinkTransitionMs := s.clock } else s
        | .sawOpen =>
            if !isOpen then { s with blinkState := .sawClose, lastBlinkTransitionMs := s.clock } else s
        | .sawClose =>
            if isOpen then
              if s.stageLatch then s else onStageCapture { s with stageLatch := true } .blink 0
            else s := by
  -- the head looks ahead, and each eye is past its threshold
  have hyaw : ¬ (12 : ℚ) < |0| := by decide +kernel
  cases isOpen with
  | true =>
      have hopen : decide (openThreshold < 1) = true := by decide +kernel
      have hclosed : decide ((1 : ℚ) < closedThreshold) = false := by decide +kernel
      unfold handleBlinkStage centred
      show (if (12 : ℚ) < |0| then _ else _) = _
      rw [if_neg hyaw]
      cases s.blinkState <;> simp [hopen, hclosed]
  | false =>
      have hopen : decide (openThreshold < 0) = false := by decide +kernel
      have hclosed : decide ((0 : ℚ) < closedThreshold) = true := by decide +kernel
      unfold handleBlinkStage centred
      show (if (12 : ℚ) < |0| then _ else _) = _
      rw [if_neg hyaw]
      cases s.blinkState <;> simp [hopen, hclosed]

/-- The eyes open again: the capture is embedded, and the template is stored. -/
theorem Ready.opened (h : Ready derive s) (e : ε) (hstage : s.currentStage = .blink)
    (hblink : s.blinkState = .sawClose) (hstale : ¬ s.stale) :
    ∃ s', (ceremony derive).Later Orderly s s' ∧ s'.fired ≠ [] := by
  obtain ⟨entry, hlater, hinv⟩ := h.blinkFrame hstage (if true then 1 else 0)
  have hflight : s.inFlight = [] := h.inv.idle h.latch
  have hframe : ∃ c, handleBlinkStage { s with seen := entry :: s.seen }
      (centred 0 (if true then 1 else 0)) .bitmap = { s with
        seen := entry :: s.seen, stageLatch := true, inFlight := [c], taken := s.taken ++ [c] } := by
    refine ⟨⟨.blink, 0, s.clock, entry :: s.seen⟩, ?_⟩
    refine (handleBlinkStage_centred _ true).trans ((if_neg hstale).trans ?_)
    simp only [hblink, h.latch, onStageCapture, hflight, List.nil_append]
    rfl
  obtain ⟨c, hframe⟩ := hframe
  rw [hframe] at hlater hinv
  obtain ⟨front, left, right, hcaptured, -⟩ := h.inv.anchors h.fired hstage
  have hc : c.stage = .blink := (hinv.current c List.mem_cons_self).trans hstage
  generalize hs₁ : ({ s with
    seen := entry :: s.seen, stageLatch := true, inFlight := [c]
    taken := s.taken ++ [c] } : State ε σ) = s₁ at hlater
  have hcaptured₁ : s₁.capturedEmbeddings = [front, left, right] := by rw [← hs₁, hcaptured]
  have hs : (ceremony derive).step s₁ (.embedded 0 (some e) true) =
      some (embedded derive { s₁ with inFlight := [] } c (some e) true) := by
    rw [← hs₁]
    rfl
  refine ⟨_, hlater.tail ⟨.embedded 0 (some e) true, trivial, hs⟩, ?_⟩
  simp only [embedded, hc, finaliseEnrollment, hcaptured₁, List.cons_append, List.nil_append,
    if_true]
  exact List.append_ne_nil_of_right_ne_nil _ (List.cons_ne_nil _ _)

theorem Ready.closed (h : Ready derive s) (e : ε) (hstage : s.currentStage = .blink)
    (hblink : s.blinkState = .sawOpen) (hstale : ¬ s.stale) :
    ∃ s', (ceremony derive).Later Orderly s s' ∧ s'.fired ≠ [] := by
  obtain ⟨entry, hlater, hinv⟩ := h.blinkFrame hstage (if false then 1 else 0)
  have hframe : handleBlinkStage { s with seen := entry :: s.seen }
      (centred 0 (if false then 1 else 0)) .bitmap = { s with
        seen := entry :: s.seen, blinkState := .sawClose, lastBlinkTransitionMs := s.clock } := by
    refine (handleBlinkStage_centred _ false).trans ((if_neg hstale).trans ?_)
    simp only [hblink]
    rfl
  rw [hframe] at hlater hinv
  obtain ⟨s', hlater', hfired⟩ := Ready.opened ⟨hinv, h.fired, h.latch, h.analysing⟩ e hstage rfl
    fun hstale => absurd hstale.2.2 (by dsimp only; omega)
  exact ⟨s', hlater.trans hlater', hfired⟩

theorem Ready.waiting (h : Ready derive s) (e : ε) (hstage : s.currentStage = .blink)
    (hblink : s.blinkState = .waitingForOpen) :
    ∃ s', (ceremony derive).Later Orderly s s' ∧ s'.fired ≠ [] := by
  obtain ⟨entry, hlater, hinv⟩ := h.blinkFrame hstage (if true then 1 else 0)
  have hframe : handleBlinkStage { s with seen := entry :: s.seen }
      (centred 0 (if true then 1 else 0)) .bitmap = { s with
        seen := entry :: s.seen, blinkState := .sawOpen, lastBlinkTransitionMs := s.clock } := by
    have hstale : ¬ s.stale := fun hstale => hstale.1 hblink
    refine (handleBlinkStage_centred _ true).trans ((if_neg hstale).trans ?_)
    simp only [hblink]
    rfl
  rw [hframe] at hlater hinv
  obtain ⟨s', hlater', hfired⟩ := Ready.closed ⟨hinv, h.fired, h.latch, h.analysing⟩ e hstage rfl
    fun hstale => absurd hstale.2.2 (by dsimp only; omega)
  exact ⟨s', hlater.trans hlater', hfired⟩

/-- A blink completes the ceremony, whatever was seen before. -/
theorem Ready.blinked (h : Ready derive s) (e : ε) (hstage : s.currentStage = .blink) :
    ∃ s', (ceremony derive).Later Orderly s s' ∧ s'.fired ≠ [] := by
  by_cases hstale : s.stale
  · -- the next frame gives the old blink up
    obtain ⟨entry, hlater, hinv⟩ := h.blinkFrame hstage (if true then 1 else 0)
    have hframe : handleBlinkStage { s with seen := entry :: s.seen }
        (centred 0 (if true then 1 else 0)) .bitmap = { s with
          seen := entry :: s.seen, blinkState := .waitingForOpen, lastBlinkTransitionMs := 0 } :=
      (handleBlinkStage_centred _ true).trans (if_pos hstale)
    rw [hframe] at hlater hinv
    obtain ⟨s', hlater', hfired⟩ := Ready.waiting ⟨hinv, h.fired, h.latch, h.analysing⟩ e hstage rfl
    exact ⟨s', hlater.trans hlater', hfired⟩
  · cases hblink : s.blinkState with
    | waitingForOpen => exact h.waiting e hstage hblink
    | sawOpen => exact h.closed e hstage hblink hstale
    | sawClose => exact h.opened e hstage hblink hstale

end Completion

/-- In a run without the three defects every capture is held, the template is that of the four
    stages, and the ceremony can be completed. -/
theorem enrolment_sound [Inhabited ε] {derive : ε → σ} {s : State ε σ}
    (h : (ceremony derive).Later Orderly (State.initial ε σ) s) : Sound derive s := by
  have hinv : Inv derive s :=
    h.invariant (fun _ _ _ hw hgood hs => hw.step hgood hs) (inv_initial derive)
  refine ⟨hinv.stored, hinv.held, fun hfired => ?_⟩
  obtain ⟨s₁, hready, h₁⟩ := hinv.ready hfired
  obtain ⟨s₂, hlast, h₂, hstage⟩ := h₁.last default
  obtain ⟨s₃, hblinked, hfired₃⟩ := h₂.blinked default hstage
  have hlater : (ceremony derive).Later Orderly s s₃ := hready.trans (hlast.trans hblinked)
  refine ⟨s₃, hlater.lift (f := id) fun a l b _ hs => ?_, hfired₃⟩
  exact .single ⟨l, trivial, hs⟩

/-- A ceremony from its beginning to `onCaptured`. -/
theorem enrolment_sound_of_ceremony : ∃ s : State ℕ ℕ,
    (ceremony id).Later Orderly (State.initial ℕ ℕ) s ∧ Sound id s ∧ s.fired ≠ [] := by
  have hready : Ready id (State.initial ℕ ℕ) := ⟨inv_initial id, rfl, rfl, rfl⟩
  obtain ⟨s₁, hlast, h₁, hstage⟩ := hready.last 7
  obtain ⟨s, hblinked, hfired⟩ := h₁.blinked 7 hstage
  have hlater : (ceremony id).Later Orderly (State.initial ℕ ℕ) s := hlast.trans hblinked
  exact ⟨s, hlater, enrolment_sound hlater, hfired⟩

/-- Two frames of a face, with a hold between them. -/
def held (yaw : ℚ) (ms : ℕ) : List (Step ℕ) :=
  [.analyze frame100, .result (some [centred yaw 1]) .bitmap, .tick ms,
    .analyze frame100, .result (some [centred yaw 1]) .bitmap]

/-- The first frame after the front capture is taken as a left turn that has been held. -/
theorem turn_not_held : ¬ ∀ s : State ℕ ℕ,
    (ceremony id).Later (fun _ _ => True) (State.initial ℕ ℕ) s → Sound id s := by
  intro hall
  have hrun : ((ceremony id).run (State.initial ℕ ℕ)
      ([.compose, .effect, .tick 1] ++ held 0 1000 ++ [.embedded 0 (some 7) true, .compose, .effect,
        .tick 40, .analyze frame100, .result (some [centred 20 1]) .bitmap])).any
      (fun s => s.taken.any fun c => c.stage == .left && !decide c.Held) = true := by
    decide +kernel
  obtain ⟨s, hs, htaken⟩ := (Option.any_eq_true _ _).mp hrun
  obtain ⟨c, hc, hnot⟩ := List.any_eq_true.mp htaken
  obtain ⟨hstage, hnot⟩ := Bool.and_eq_true_iff.mp hnot
  have hleft : c.stage = .left := eq_of_beq hstage
  have hheld : c.Held := (hall s (Machine.later_of_run hs)).held c hc (by rw [hleft]; exact nofun)
  rw [decide_eq_true hheld] at hnot
  cases hnot

end FaceCeremony

end ZeroAuth.Android
