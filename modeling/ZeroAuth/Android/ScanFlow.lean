/-
  ZeroAuth.Android.ScanFlow

  The sign-in view model of the phone (android/.../ui/scan/ScanViewModel.kt): its screen
  state, the coroutine of the proof flow with its two suspension points, the coroutine that
  submits the proof, and the callbacks of the screen.

  Callbacks and resumptions run one at a time.  A `CompletableDeferred` that has been
  completed resumes its coroutine in a step of its own (the callback may come from another
  thread); a cancelled coroutine is resumed with an exception within the call that cancels it
  or later, as the event says.
-/

import ZeroAuth.Android.Challenge
import ZeroAuth.Android.Prover
import ZeroAuth.Lib.Machine

namespace ZeroAuth.Android

open ZeroAuth.Js ZeroAuth.Lib

/-! ## The view model -/

inductive ScanState
  | idle
  | permissionMissing
  | scanning
  | challengeParsed (challenge : DesktopChallenge)
  | awaitingFaceCapture (email : JsString)
  | proving (progress : ℚ)
  | proofReady (qrText sessionId : JsString)
  | authorizing
  | authorized
  | error (code message : JsString)

/-- `Succeeded` carries a buffer, which has an identity. -/
inductive FaceCaptureOutcome
  | succeeded (secret : ℕ)
  | cancelled
  deriving DecidableEq

/-- Where a coroutine of the view model is suspended. -/
inductive SuspensionPoint
  /-- In `deferred.await()` of `runProofFlow`. -/
  | awaitingFace (deferred : ℕ) (challenge : DesktopChallenge)
  /-- In `mobileProver.generate`, with a credential to close. -/
  | generating (credential : ℕ) (challenge : DesktopChallenge)
  /-- In `withContext(ioDispatcher)` of `authorizeOnPhone`. -/
  | submitting
  | ended

structure ScanJob where
  point : SuspensionPoint
  cancelled : Bool

structure ScanViewModel where
  state : ScanState
  inFlightJob : Option ℕ
  pendingFaceCapture : Option ℕ
  /-- What a deferred has been completed with. -/
  deferreds : ℕ → Option FaceCaptureOutcome
  jobs : ℕ → Option ScanJob
  /-- The bytes of the copies that `onFaceCaptureSucceeded` has made. -/
  secrets : ℕ → Option (List UInt8)
  /-- Whether `close()` has been called on a credential. -/
  credentials : ℕ → Option Bool
  /-- The next identity of an object. -/
  next : ℕ
  /-- `viewModelScope` has been cancelled. -/
  cleared : Bool

namespace ScanViewModel

def create : ScanViewModel :=
  ⟨.idle, none, none, fun _ => none, fun _ => none, fun _ => none, fun _ => none, 0, false⟩

variable (vm : ScanViewModel)

def setJob (j : ℕ) (job : ScanJob) : ScanViewModel :=
  { vm with jobs := Function.update vm.jobs j (some job) }

/-- `secret.fill(0)`. -/
def fillZero (c : ℕ) : ScanViewModel :=
  { vm with
    secrets := Function.update vm.secrets c ((vm.secrets c).map fun bytes => bytes.map fun _ => 0) }

def closeCredential (k : ℕ) : ScanViewModel :=
  { vm with credentials := Function.update vm.credentials k (some true) }

/-- `deferred.complete(outcome)`: a deferred keeps its first outcome. -/
def complete (d : ℕ) (outcome : FaceCaptureOutcome) : ScanViewModel :=
  match vm.deferreds d with
  | some _ => vm
  | none => { vm with deferreds := Function.update vm.deferreds d (some outcome) }

/-- The job `j` ends. -/
def endJob (j : ℕ) (cancelled : Bool) : ScanViewModel := vm.setJob j ⟨.ended, cancelled⟩

/-! ## Cancellation -/

/-- An exception at the suspension point of the job: the `catch` and `finally` blocks. The
    arguments are the error's code and message as these blocks make them. -/
def throwAt (j : ℕ) (job : ScanJob) (code message : JsString) : ScanViewModel :=
  match job.point with
  | .awaitingFace _ _ =>
      { vm with pendingFaceCapture := none, state := .error (js "face_capture_failed") message }.endJob
        j job.cancelled
  | .generating k _ =>
      (({ vm with state := .error code message }).closeCredential k).endJob j job.cancelled
  | .submitting => { vm with state := .error code message }.endJob j job.cancelled
  | .ended => vm

/-- Whether a coroutine that is being cancelled can be resumed at once: one whose deferred has been
    completed waits for the resumption that has been dispatched, one on the I/O dispatcher
    for that thread. -/
def resumesAtOnce (point : SuspensionPoint) : Bool :=
  match point with
  | .awaitingFace d _ => (vm.deferreds d).isNone
  | .generating _ _ => true
  | .submitting => false
  | .ended => false

/-- `inFlightJob?.cancel()`. -/
def cancelInFlight (atOnce : Bool) (message : JsString) : ScanViewModel :=
  match vm.inFlightJob with
  | none => vm
  | some j =>
      match vm.jobs j with
      | none => vm
      | some job =>
          let cancelled : ScanJob := { job with cancelled := true }
          if atOnce && vm.resumesAtOnce job.point && !job.cancelled then
            (vm.setJob j cancelled).throwAt j cancelled (js "prover_failed") message
          else vm.setJob j cancelled

/-! ## The callbacks -/

def onPermissionGranted : ScanViewModel :=
  match vm.state with
  | .permissionMissing | .idle => { vm with state := .scanning }
  | _ => vm

def onPermissionDenied : ScanViewModel :=
  match vm.state with
  | .permissionMissing => vm
  | _ => { vm with state := .permissionMissing }

def onQrDetected (rawText : JsString) : ScanViewModel :=
  match vm.state with
  | .scanning =>
      match parseChallenge rawText with
      | .ok challenge => { vm with state := .challengeParsed challenge }
      | .error _ => { vm with state := .scanning }
  | _ => vm

/-- `viewModelScope.launch { runProofFlow(..) }`: the body runs up to its first suspension,
    unless the scope has been cancelled. -/
def launchProofFlow (email : JsString) (challenge : DesktopChallenge) : ScanViewModel :=
  if vm.cleared then { vm with
    jobs := Function.update vm.jobs vm.next (some ⟨.ended, true⟩)
    inFlightJob := some vm.next
    next := vm.next + 1 }
  else { vm with
    pendingFaceCapture := some (vm.next + 1)
    state := .awaitingFaceCapture email
    jobs := Function.update vm.jobs vm.next (some ⟨.awaitingFace (vm.next + 1) challenge, false⟩)
    inFlightJob := some vm.next
    next := vm.next + 2 }

def onBiometricApproved (email : JsString) (atOnce : Bool) (message : JsString) : ScanViewModel :=
  match vm.state with
  | .challengeParsed challenge => (vm.cancelInFlight atOnce message).launchProofFlow email challenge
  | _ => vm

/-- The copy is `vm.next`. A secret of another size than 32 is refused by `require`. -/
def onFaceCaptureSucceeded (secret : List UInt8) : ScanViewModel :=
  if secret.length ≠ 32 then vm
  else
    let copied : ScanViewModel := { vm with
      secrets := Function.update vm.secrets vm.next (some secret)
      next := vm.next + 1 }
    match vm.pendingFaceCapture with
    | none =>
        let dropped := copied.fillZero vm.next
        match vm.state with
        | .awaitingFaceCapture _ => { dropped with
            state := .error (js "face_capture_out_of_order")
              (js "Face capture resolved without an active proof flow.") }
        | _ => dropped
    | some d => copied.complete d (.succeeded vm.next)

def onFaceCaptureCancelled : ScanViewModel :=
  match vm.pendingFaceCapture with
  | none => vm
  | some d => vm.complete d .cancelled

/-- `pendingFaceCapture?.complete(Cancelled); pendingFaceCapture = null`. -/
def dropPending : ScanViewModel :=
  { vm.onFaceCaptureCancelled with pendingFaceCapture := none }

def onProofShownToWebcam : ScanViewModel := { vm with inFlightJob := none, state := .idle }

def launchAuthorize : ScanViewModel :=
  if vm.cleared then { vm with
    jobs := Function.update vm.jobs vm.next (some ⟨.ended, true⟩)
    inFlightJob := some vm.next
    next := vm.next + 1 }
  else { vm with
    state := .authorizing
    jobs := Function.update vm.jobs vm.next (some ⟨.submitting, false⟩)
    inFlightJob := some vm.next
    next := vm.next + 1 }

def authorizeOnPhone (atOnce : Bool) (message : JsString) : ScanViewModel :=
  match vm.state with
  | .proofReady _ _ => (vm.cancelInFlight atOnce message).launchAuthorize
  | _ => vm

def retry (atOnce : Bool) (message : JsString) : ScanViewModel :=
  let cancelled : ScanViewModel := { vm.cancelInFlight atOnce message with inFlightJob := none }
  { cancelled.dropPending with state := .idle }

def onChallengeCancelled : ScanViewModel :=
  match vm.state with
  | .challengeParsed _ => { vm with state := .scanning }
  | _ => vm

/-- `viewModelScope` is cancelled, and with it every job of it, before `onCleared` runs. -/
def onCleared : ScanViewModel :=
  let cancelled : ScanViewModel := { vm with
    jobs := fun j => (vm.jobs j).map fun job => { job with cancelled := true }
    inFlightJob := none
    cleared := true }
  cancelled.dropPending

/-! ## The resumptions -/

/-- The rest of `runProofFlow` after `deferred.await()`, up to `mobileProver.generate`; the credential
    is `vm.next`. `derivation` is what `FaceSecretCredential.fromSecret` throws, if it does. -/
def afterAwait (j d : ℕ) (challenge : DesktopChallenge) (outcome : FaceCaptureOutcome)
    (derivation : Except JsString Unit) : ScanViewModel :=
  let vm : ScanViewModel := if vm.pendingFaceCapture = some d then { vm with pendingFaceCapture := none } else vm
  match outcome with
  | .cancelled =>
      { vm with state := .error (js "face_capture_cancelled") (js "Face capture was cancelled.") }.endJob
        j false
  | .succeeded secret =>
      match derivation with
      | .error message =>
          ({ vm with state := .error (js "credential_derivation_failed") message }.fillZero secret).endJob
            j false
      | .ok () =>
          { vm.fillZero secret with
            credentials := Function.update vm.credentials vm.next (some false)
            state := .proving 0
            jobs := Function.update vm.jobs j (some ⟨.generating vm.next challenge, false⟩)
            next := vm.next + 1 }

/-- The resumption of a coroutine in `deferred.await()`: a cancelled one gets an exception, whatever
    the deferred holds. -/
def resume (j : ℕ) (derivation : Except JsString Unit) (message : JsString) : Option ScanViewModel :=
  match vm.jobs j with
  | some ⟨.awaitingFace d challenge, false⟩ =>
      (vm.deferreds d).map fun outcome => vm.afterAwait j d challenge outcome derivation
  | some ⟨.awaitingFace d challenge, true⟩ =>
      some (vm.throwAt j ⟨.awaitingFace d challenge, true⟩ [] message)
  | _ => none

/-- `onProgress` of the call of the job; the callback does not ask who is current. -/
def onProgress (j : ℕ) (fraction : ℚ) : Option ScanViewModel :=
  match vm.jobs j with
  | some _ => some { vm with state := .proving (max 0 (min fraction 1)) }
  | none => none

/-- `mobileProver.generate` returns or throws, also as its job is cancelled; `encoded` is the outcome
    of `QrPayload.encodeProof`. -/
def generateEnds (j : ℕ) (generated : Except ProverException GenerateOutput)
    (encoded : Except JsString JsString) : Option ScanViewModel :=
  match vm.jobs j with
  | some ⟨.generating k challenge, cancelled⟩ =>
      let state : ScanState := match generated, encoded with
        | .error e, _ => .error e.code e.message
        | .ok _, .error message => .error (js "qr_encode_failed") message
        | .ok _, .ok qrText => .proofReady qrText challenge.sessionId
      some ((({ vm with state := state }).closeCredential k).endJob j cancelled)
  | _ => none

/-- The submission is over: the server's `ok`, or a failure as `decodeSubmitError` reports it. -/
def submitEnds (j : ℕ) (answer : Except (JsString × JsString) Bool) : Option ScanViewModel :=
  match vm.jobs j with
  | some ⟨.submitting, cancelled⟩ =>
      let state : ScanState := match answer with
        | .ok true => .authorized
        | .ok false => .error (js "authorize_failed")
            (js "The laptop didn't accept the sign-in. Try again.")
        | .error (code, message) => .error code message
      some ({ vm with state := state }.endJob j cancelled)
  | _ => none

end ScanViewModel

/-! ## Runs -/

inductive ScanEvent
  | onPermissionGranted
  | onPermissionDenied
  | onQrDetected (rawText : JsString)
  | onBiometricApproved (email : JsString) (atOnce : Bool) (message : JsString)
  | onFaceCaptureSucceeded (secret : List UInt8)
  | onFaceCaptureCancelled
  | authorizeOnPhone (atOnce : Bool) (message : JsString)
  | onProofShownToWebcam
  | retry (atOnce : Bool) (message : JsString)
  | onChallengeCancelled
  | onCleared
  | resume (job : ℕ) (derivation : Except JsString Unit) (message : JsString)
  | onProgress (job : ℕ) (fraction : ℚ)
  | generateEnds (job : ℕ) (generated : Except ProverException GenerateOutput)
      (encoded : Except JsString JsString)
  | submitEnds (job : ℕ) (answer : Except (JsString × JsString) Bool)

def scan : Machine ScanViewModel ScanEvent where
  step vm
    | .onPermissionGranted => some vm.onPermissionGranted
    | .onPermissionDenied => some vm.onPermissionDenied
    | .onQrDetected rawText => some (vm.onQrDetected rawText)
    | .onBiometricApproved email atOnce message => some (vm.onBiometricApproved email atOnce message)
    | .onFaceCaptureSucceeded secret => some (vm.onFaceCaptureSucceeded secret)
    | .onFaceCaptureCancelled => some vm.onFaceCaptureCancelled
    | .authorizeOnPhone atOnce message => some (vm.authorizeOnPhone atOnce message)
    | .onProofShownToWebcam => some vm.onProofShownToWebcam
    | .retry atOnce message => some (vm.retry atOnce message)
    | .onChallengeCancelled => some vm.onChallengeCancelled
    | .onCleared => some vm.onCleared
    | .resume j derivation message => vm.resume j derivation message
    | .onProgress j fraction => vm.onProgress j fraction
    | .generateEnds j generated encoded => vm.generateEnds j generated encoded
    | .submitEnds j answer => vm.submitEnds j answer

end ZeroAuth.Android
