/-
  ZeroAuth.Android.FaceCeremony

  The four captures of an enrolment (android/.../ui/reg/RegistrationFaceCapture.kt):
  `CeremonyAnalyzer`, `onStageCapture` with its coroutines, `finaliseEnrollment`, and the effect
  that clears the latch after a stage change.

  The latch is read on the analysis thread when a frame comes in; the detector answers later,
  on the main thread, where also the coroutines go on after the embedder and the effect runs.
  Each step is one stretch of a thread between two points where another may run.
-/

import ZeroAuth.Android.FaceCrop
import ZeroAuth.Lib.Machine

namespace ZeroAuth.Android

namespace FaceCeremony

open ZeroAuth.Lib
open ZeroAuth.Mobile (toFloat)

inductive CeremonyStage
  | front
  | left
  | right
  | blink
  deriving DecidableEq

def CeremonyStage.holdMillis : CeremonyStage → ℕ
  | front => 1000
  | left => 600
  | right => 600
  | blink => 0

inductive BlinkState
  | waitingForOpen
  | sawOpen
  | sawClose
  deriving DecidableEq

def blinkWindowMs : ℕ := 3000

/-! ## Frames -/

/-- The angle and the probabilities are finite floats. -/
structure Face where
  boundingBox : Rect
  headEulerAngleY : ℚ
  leftEyeOpenProbability : Option ℚ
  rightEyeOpenProbability : Option ℚ

structure Frame where
  width : ℤ
  height : ℤ
  width_pos : 0 < width
  height_pos : 0 < height

/-- `exactCenterX()` and `exactCenterY()`, from the two edges. -/
def exactCenter (lo hi : ℤ) : ℚ := toFloat (i32 (lo + hi)) * (1 / 2)

/-- `c < size * 0.10f || c > size * 0.90f`. -/
def offCentre (c : ℚ) (size : ℤ) : Bool :=
  decide (c < toFloat (toFloat size * (13421773 / 134217728))) ||
    decide (toFloat (toFloat size * (15099494 / 16777216)) < c)

def pickPrimaryFace (faces : List Face) (frame : Frame) : Option Face :=
  match faces with
  | [f] =>
      let box := f.boundingBox
      if offCentre (exactCenter box.left box.right) frame.width then none
      else if offCentre (exactCenter box.top box.bottom) frame.height then none
      else
        let shorter := toFloat (min frame.width frame.height : ℤ)
        let faceSize := toFloat (max box.width box.height : ℤ)
        let sizeFrac := toFloat (faceSize / shorter)
        -- `0.15f` and `0.95f`
        if sizeFrac < 10066330 / 67108864 ∨ 15938355 / 16777216 < sizeFrac then none else some f
  | _ => none

/-- `0.6f`. -/
def eyeThreshold : ℚ := 10066330 / 16777216

/-- `0.7f`. -/
def openThreshold : ℚ := 11744051 / 16777216

/-- `0.3f`. -/
def closedThreshold : ℚ := 10066330 / 33554432

/-- `(firstSign > 0) == (yaw > 0)`. -/
def sameSign (firstSign yaw : ℚ) : Bool := decide (0 < firstSign) == decide (0 < yaw)

/-- What `cropFrameToFace` does, if it is called. -/
inductive Conversion
  | bitmap
  | null
  | threw
  deriving DecidableEq

/-! ## State -/

/-- A frame that has been evaluated: in which stage, when, and whether the predicate of the
    stage held on it. -/
structure Analysed where
  stage : CeremonyStage
  time : ℕ
  ok : Bool

/-- A call of `onStageCapture`, with the frames evaluated so far, the newest first. -/
structure Capture where
  stage : CeremonyStage
  yaw : ℚ
  time : ℕ
  seen : List Analysed

/-- An embedding, and the capture that it was made of. -/
structure Anchor (ε : Type) where
  vector : ε
  capture : Capture

/-- What `writeEnrollment` persists. -/
structure Enrollment (ε σ : Type) where
  secret : σ
  template : List (Anchor ε)

structure State (ε σ : Type) where
  currentStage : CeremonyStage
  capturedEmbeddings : List (Anchor ε)
  leftYawSign : Option ℚ
  blinkState : BlinkState
  stageLatch : Bool
  stableSinceMs : ℕ
  lastBlinkTransitionMs : ℕ
  /-- The frame that the detector has. -/
  analysing : Option Frame
  /-- The coroutines that wait for the embedder. -/
  inFlight : List Capture
  /-- The stage that the screen was last composed for. -/
  composed : Option CeremonyStage
  /-- `LaunchedEffect(currentStage)` has been launched and has not run. -/
  effect : Bool
  store : Option (Enrollment ε σ)
  /-- Each call of `onCaptured`, with what the store has then. -/
  fired : List (σ × Option (Enrollment ε σ))
  clock : ℕ
  seen : List Analysed
  taken : List Capture

def State.initial (ε σ : Type) : State ε σ :=
  ⟨.front, [], none, .waitingForOpen, false, 0, 0, none, [], none, false, none, [], 0, [], []⟩

section Steps

variable {ε σ : Type}

/-! ## The analyzer -/

/-- `onStageCapture` launches a coroutine. -/
def onStageCapture (s : State ε σ) (stage : CeremonyStage) (yaw : ℚ) : State ε σ :=
  let capture : Capture := ⟨stage, yaw, s.clock, s.seen⟩
  { s with inFlight := s.inFlight ++ [capture], taken := s.taken ++ [capture] }

/-- The end of `handleFrontStage` and of `handleSideStage`, once the predicate holds. -/
def hold (s : State ε σ) (stage : CeremonyStage) (yaw : ℚ) (conversion : Conversion) :
    State ε σ :=
  let started := if s.stableSinceMs = 0 then s.clock else s.stableSinceMs
  let s := { s with stableSinceMs := started }
  if s.clock - started < stage.holdMillis then s
  else if s.stageLatch then s
  else
    let s := { s with
      stageLatch := true
      leftYawSign := if stage = .left then some yaw else s.leftYawSign }
    match conversion with
    | .bitmap => onStageCapture s stage yaw
    | .null => { s with stageLatch := false, stableSinceMs := 0 }
    -- the exception is logged in `analyze`
    | .threw => s

def handleFrontStage (s : State ε σ) (face : Face) (conversion : Conversion) : State ε σ :=
  let yawAbs := |face.headEulerAngleY|
  let leftEyeProb := face.leftEyeOpenProbability.getD 1
  let rightEyeProb := face.rightEyeOpenProbability.getD 1
  if 8 < yawAbs then { s with stableSinceMs := 0 }
  else if leftEyeProb < eyeThreshold ∨ rightEyeProb < eyeThreshold then { s with stableSinceMs := 0 }
  else hold s .front face.headEulerAngleY conversion

def handleSideStage (s : State ε σ) (stage : CeremonyStage) (face : Face)
    (conversion : Conversion) : State ε σ :=
  let yaw := face.headEulerAngleY
  let yawAbs := |yaw|
  if yawAbs < 15 then { s with stableSinceMs := 0 }
  else if stage = .right ∧ s.leftYawSign.any (sameSign · yaw) = true then
    { s with stableSinceMs := 0 }
  else hold s stage yaw conversion

def handleBlinkStage (s : State ε σ) (face : Face) (conversion : Conversion) : State ε σ :=
  let yawAbs := |face.headEulerAngleY|
  if 12 < yawAbs then s
  else match face.leftEyeOpenProbability, face.rightEyeOpenProbability with
    | some leftEyeProb, some rightEyeProb =>
        let isOpen := decide (openThreshold < leftEyeProb) && decide (openThreshold < rightEyeProb)
        let closed := decide (leftEyeProb < closedThreshold) && decide (rightEyeProb < closedThreshold)
        -- too slow: begin again at open eyes
        if s.blinkState ≠ .waitingForOpen ∧ 0 < s.lastBlinkTransitionMs ∧
            blinkWindowMs < s.clock - s.lastBlinkTransitionMs then
          { s with blinkState := .waitingForOpen, lastBlinkTransitionMs := 0 }
        else match s.blinkState with
          -- open, closed, open again
          | .waitingForOpen =>
              if isOpen then { s with blinkState := .sawOpen, lastBlinkTransitionMs := s.clock } else s
          | .sawOpen =>
              if closed then { s with blinkState := .sawClose, lastBlinkTransitionMs := s.clock }
              else s
          | .sawClose =>
              if isOpen then
                -- the second opening takes the picture, once
                if s.stageLatch then s
                else match conversion with
                  | .bitmap => onStageCapture { s with stageLatch := true } .blink face.headEulerAngleY
                  | .null => { s with blinkState := .waitingForOpen }
                  | .threw => { s with stageLatch := true }
              else s
    | _, _ => s

/-- The predicate of a stage.  A blink is not held. -/
def predicate (leftYawSign : Option ℚ) (stage : CeremonyStage) (face : Face) : Bool :=
  let yaw := face.headEulerAngleY
  match stage with
  | .front => decide (|yaw| ≤ 8) && decide (eyeThreshold ≤ face.leftEyeOpenProbability.getD 1) &&
      decide (eyeThreshold ≤ face.rightEyeOpenProbability.getD 1)
  | .left => decide (15 ≤ |yaw|)
  | .right => decide (15 ≤ |yaw|) && !leftYawSign.any (sameSign · yaw)
  | .blink => true

/-- The predicate of the current stage holds on a frame with these faces. -/
def State.accepts (s : State ε σ) (faces : List Face) (frame : Frame) : Bool :=
  (pickPrimaryFace faces frame).any (predicate s.leftYawSign s.currentStage)

def handleResult (s : State ε σ) (faces : List Face) (frame : Frame) (conversion : Conversion) :
    State ε σ :=
  let s := { s with seen := ⟨s.currentStage, s.clock, s.accepts faces frame⟩ :: s.seen }
  match pickPrimaryFace faces frame with
  | none => { s with stableSinceMs := 0 }
  | some face =>
      match s.currentStage with
      | .front => handleFrontStage s face conversion
      | .left => handleSideStage s .left face conversion
      | .right => handleSideStage s .right face conversion
      | .blink => handleBlinkStage s face conversion

/-! ## The coroutines -/

variable (derive : ε → σ)

/-- `written` says whether the store could commit.  `derive` is SHA-256 of the quantised
    embedding, which is normalised. -/
def finaliseEnrollment (s : State ε σ) (written : Bool) : State ε σ :=
  match s.capturedEmbeddings with
  | [front, _, _, _] =>
      if written then
        let secret := derive front.vector
        let store := some ⟨secret, s.capturedEmbeddings⟩
        { s with store := store, fired := s.fired ++ [(secret, store)] }
      else
        -- `onError`
        { s with
          capturedEmbeddings := s.capturedEmbeddings.dropLast
          stageLatch := false
          blinkState := .waitingForOpen }
  -- `require` throws into the catch block of `onStageCapture`
  | _ => { s with stageLatch := false }

def advance (s : State ε σ) (next : CeremonyStage) : State ε σ :=
  { s with
    currentStage := next
    stageLatch := false
    blinkState := if next = .blink then .waitingForOpen else s.blinkState }

/-- The coroutine goes on with what the embedder has returned or thrown. -/
def embedded (s : State ε σ) (capture : Capture) (embedding : Option ε) (written : Bool) :
    State ε σ :=
  match embedding with
  | none => { s with stageLatch := false }
  | some e =>
      let s := { s with capturedEmbeddings := s.capturedEmbeddings ++ [⟨e, capture⟩] }
      match capture.stage with
      | .front => advance s .left
      | .left => advance s .right
      | .right => advance s .blink
      | .blink => finaliseEnrollment derive s written

inductive Step (ε : Type)
  | analyze (frame : Frame)
  /-- The detector has found faces, or has failed. -/
  | result (faces : Option (List Face)) (conversion : Conversion)
  | embedded (i : ℕ) (embedding : Option ε) (written : Bool)
  | compose
  | effect
  | tick (ms : ℕ)

def step (s : State ε σ) : Step ε → Option (State ε σ)
  | .analyze frame =>
      match s.analysing with
      -- the next frame comes when this one is closed
      | some _ => none
      | none => some (if s.stageLatch then s else { s with analysing := some frame })
  | .result faces conversion =>
      s.analysing.map fun frame =>
        let s := { s with analysing := none }
        match faces with
        | some faces => handleResult s faces frame conversion
        | none => s
  | .embedded i embedding written =>
      s.inFlight[i]?.map fun capture =>
        embedded derive { s with inFlight := s.inFlight.eraseIdx i } capture embedding written
  | .compose =>
      if s.composed = some s.currentStage then none
      else some { s with composed := some s.currentStage, effect := true }
  | .effect => if s.effect then some { s with effect := false, stageLatch := false } else none
  | .tick ms => some { s with clock := s.clock + ms }

def ceremony : Machine (State ε σ) (Step ε) := ⟨step derive⟩

end Steps

end FaceCeremony

end ZeroAuth.Android
