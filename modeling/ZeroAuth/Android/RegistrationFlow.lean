/-
  ZeroAuth.Android.RegistrationFlow

  The registration view model of the phone (android/.../ui/reg/RegistrationViewModel.kt) with
  the secret source that it is wired to (RegistrationHelpers.kt).

  `viewModelScope` runs on the immediate main dispatcher: a coroutine that is launched runs up
  to its first suspension within the callback.  The server takes a request up at some time
  while it is on its way or after the phone has given up on it; the call of the phone ends with
  the server's answer, or with an error of the network at any time.
-/

import ZeroAuth.Android.Credential
import ZeroAuth.Android.RegQrPayload
import ZeroAuth.Lib.Machine

namespace ZeroAuth.Android

open ZeroAuth.Js ZeroAuth.Lib

/-! ## The screen -/

inductive RegState
  | idle
  | pairing
  | awaitingFaceCapture (sessionId : JsString) (step : ℕ)
  | awaitingEnrollScan (sessionId : JsString)
  | committing
  | awaitingVerifyScan (sessionId : JsString)
  | verifying
  | completed (sessionId : JsString) (tenantUser : Option Json)
  | failed (code message : JsString)

/-- `toString()`. -/
def RegState.text : RegState → JsString
  | idle => js "Idle"
  | pairing => js "Pairing"
  | awaitingFaceCapture sessionId step =>
      js "AwaitingFaceCapture(sessionId=" ++ sessionId ++ js ", step=" ++ numText 10 step ++ js ")"
  | awaitingEnrollScan sessionId => js "AwaitingEnrollScan(sessionId=" ++ sessionId ++ js ")"
  | committing => js "Committing"
  | awaitingVerifyScan sessionId => js "AwaitingVerifyScan(sessionId=" ++ sessionId ++ js ")"
  | verifying => js "Verifying"
  | completed sessionId tenantUser =>
      js "Completed(sessionId=" ++ sessionId ++ js ", tenantUser=" ++
        templateText (tenantUser.map Json.print) ++ js ")"
  | failed code message => js "Failed(code=" ++ code ++ js ", message=" ++ message ++ js ")"

/-- A spinner is shown: a call is on its way. -/
def RegState.IsWaiting : RegState → Prop
  | pairing | committing | verifying => True
  | _ => False

/-! ## The secret source -/

/-- `CapturedFaceSecret`, with the `secret_hex` slot that it writes for the login; any other source may
    suspend in `secret()`. -/
inductive BiometricSecretSource
  | capturedFaceSecret (captured : Option (List UInt8)) (secretHex : Option JsString)
  | other

namespace BiometricSecretSource

def hasCapturedSecret : BiometricSecretSource → Bool
  | capturedFaceSecret captured _ => captured.isSome
  | other => true

/-- The caller has checked the length. -/
def acceptCapturedSecret (secret : List UInt8) : BiometricSecretSource → BiometricSecretSource
  | capturedFaceSecret _ _ => capturedFaceSecret (some secret) (some (hexBytes secret))
  | other => other

/-- `secret()`, for a source that answers at once. -/
def secret : BiometricSecretSource → Option (Except JsString (List UInt8))
  | capturedFaceSecret (some captured) _ => some (.ok captured)
  | capturedFaceSecret none _ => some (.error
      (js "CapturedFaceSecret.secret() called before acceptCapturedSecret(). The face-capture composable must run between QR1 (pair) and QR2 (commit) so the secret is available to the submit-commitment step."))
  | other => none

end BiometricSecretSource

/-! ## The calls -/

inductive RegRequest
  | pairDevice (pairCode fingerprint attestationKind : JsString)
  | submitCommitment (enrollCode did commitment attestationKind : JsString)
  | complete (verifyCode challengeNonce : JsString) (proof : Groth16Proof)
      (publicSignals : List JsString)

/-- What the view model reads of a response. -/
structure RegResponse where
  sessionId : JsString
  tenantUser : Option Json

structure ProofResult where
  proof : Groth16Proof
  publicSignals : List JsString

inductive CallPoint
  /-- In `secretSource.secret()`. -/
  | readingSecret
  /-- In `proofGenerator.generate`. -/
  | proving
  /-- In `withContext(io)`. -/
  | requesting
  | ended (failed : Bool)
  deriving DecidableEq

/-- The coroutine of one scan. -/
structure RegCall where
  /-- The text that was scanned, and what it was parsed to. -/
  text : JsString
  challenge : RegChallenge
  point : CallPoint
  /-- The request that was sent, and what the server has made of it: a response, or the message of the
      exception that its refusal becomes. -/
  request : Option RegRequest
  answer : Option (Except JsString RegResponse)

/-- The server has done what was asked. -/
def RegCall.Succeeded (call : RegCall) : Prop := ∃ res, call.answer = some (.ok res)

structure RegistrationViewModel where
  state : RegState
  secretSource : BiometricSecretSource
  /-- The coroutines, in the order in which they were launched. -/
  calls : List RegCall

namespace RegistrationViewModel

def create (secretSource : BiometricSecretSource) : RegistrationViewModel := ⟨.idle, secretSource, []⟩

variable (vm : RegistrationViewModel)

def setCall (j : ℕ) (call : RegCall) : RegistrationViewModel := { vm with calls := vm.calls.set j call }

/-- What is shown while the call of a step is on its way. -/
def waitingFor : RegStep → RegState
  | .pair => .pairing
  | .enroll => .committing
  | .verify => .verifying

/-- The code of the `onFailure` block of a step. -/
def failureCode : RegStep → JsString
  | .pair => js "pair_failed"
  | .enroll => js "enroll_failed"
  | .verify => js "verify_failed"

/-- `onFailure`: `message` is the exception's, or the default of the block. -/
def onFailure (j : ℕ) (call : RegCall) (message : JsString) : RegistrationViewModel :=
  { vm.setCall j { call with point := .ended true } with
    state := .failed (failureCode call.challenge.step) message }

/-- `onSuccess` of the three steps. -/
def onSuccess (j : ℕ) (call : RegCall) (res : RegResponse) : RegistrationViewModel :=
  let state : RegState := match call.challenge.step with
    | .pair =>
        if vm.secretSource.hasCapturedSecret then .awaitingEnrollScan res.sessionId
        else .awaitingFaceCapture res.sessionId 2
    | .enroll => .awaitingVerifyScan res.sessionId
    | .verify => .completed res.sessionId res.tenantUser
  { vm.setCall j { call with point := .ended false } with state := state }

def send (j : ℕ) (call : RegCall) (request : RegRequest) : RegistrationViewModel :=
  vm.setCall j { call with point := .requesting, request := some request }

/-- The body of step 2 or 3 once `secret()` has returned. -/
def withSecret (j : ℕ) (call : RegCall) (secret : List UInt8) : RegistrationViewModel :=
  match deriveDidAndCommitment secret with
  | .error message => vm.onFailure j call message
  | .ok (did, commitment) =>
      match call.challenge.step with
      | .enroll => vm.send j call (.submitCommitment call.challenge.code did commitment (js "none"))
      | _ => vm.setCall j { call with point := .proving }

/-- `viewModelScope.launch` of a step: the body up to its first suspension. `fingerprint` is the outcome of
    `DeviceFingerprint.forCurrentInstall`. -/
def launch (text : JsString) (challenge : RegChallenge) (fingerprint : Except JsString JsString) :
    RegistrationViewModel :=
  let j := vm.calls.length
  let call : RegCall := ⟨text, challenge, .readingSecret, none, none⟩
  let launched : RegistrationViewModel :=
    { vm with state := waitingFor challenge.step, calls := vm.calls ++ [call] }
  match challenge.step with
  | .pair =>
      match fingerprint with
      | .error message => launched.onFailure j call message
      | .ok fingerprint => launched.send j call (.pairDevice challenge.code fingerprint (js "none"))
  | _ =>
      match vm.secretSource.secret with
      | none => launched
      | some (.error message) => launched.onFailure j call message
      | some (.ok secret) => launched.withSecret j call secret

/-! ## The callbacks -/

def onQrText (parseUri : JsString → Option Uri) (text : JsString)
    (fingerprint : Except JsString JsString) : RegistrationViewModel :=
  match parseRegQr parseUri text with
  | .error ex => { vm with state := .failed (js "reg_qr_parse_failed") ex.message }
  | .ok challenge =>
      -- `complete` looks at the nonce before it launches
      if challenge.step = .verify ∧ (notBlank challenge.challengeNonce).isNone then
        { vm with state := .failed (js "verify_failed") (js "QR3 missing ?challenge") }
      else vm.launch text challenge fingerprint

/-- A secret of another size than 32 is refused by `require`. -/
def onFaceCaptured (secret : List UInt8) : RegistrationViewModel :=
  match vm.state with
  | .awaitingFaceCapture sessionId _ =>
      if secret.length ≠ 32 then vm
      else { vm with
        secretSource := vm.secretSource.acceptCapturedSecret secret
        state := .awaitingEnrollScan sessionId }
  | current => { vm with
      state := .failed (js "face_capture_out_of_order")
        (js "onFaceCaptured fired while state=" ++ current.text ++ js "; expected AwaitingFaceCapture") }

def onFaceCaptureCancelled : RegistrationViewModel := { vm with
  state := .failed (js "face_capture_cancelled")
    (js "Face capture was cancelled. Re-scan QR1 to restart.") }

def reset : RegistrationViewModel := { vm with state := .idle }

/-! ## The resumptions -/

/-- `secret()` returns or throws. -/
def secretRead (j : ℕ) (secret : Except JsString (List UInt8)) : Option RegistrationViewModel :=
  match vm.calls[j]? with
  | none => none
  | some call =>
      match call.point, secret with
      | .readingSecret, .ok secret => some (vm.withSecret j call secret)
      | .readingSecret, .error message => some (vm.onFailure j call message)
      | _, _ => none

/-- `proofGenerator.generate` returns or throws. -/
def proved (j : ℕ) (result : Except JsString ProofResult) : Option RegistrationViewModel :=
  match vm.calls[j]? with
  | none => none
  | some call =>
      match call.point, result with
      | .proving, .ok result => some (vm.send j call (.complete call.challenge.code
          (templateText call.challenge.challengeNonce) result.proof result.publicSignals))
      | .proving, .error message => some (vm.onFailure j call message)
      | _, _ => none

/-- The server takes up a request that was sent, once. -/
def served (j : ℕ) (answer : Except JsString RegResponse) : Option RegistrationViewModel :=
  match vm.calls[j]? with
  | none => none
  | some call =>
      match call.request, call.answer with
      | some _, none => some (vm.setCall j { call with answer := some answer })
      | _, _ => none

/-- The call of the phone ends: with the answer (`none`), or with an error of the network. -/
def returns (j : ℕ) (networkError : Option JsString) : Option RegistrationViewModel :=
  match vm.calls[j]? with
  | none => none
  | some call =>
      match call.point, networkError, call.answer with
      | .requesting, some message, _ => some (vm.onFailure j call message)
      | .requesting, none, some (.error message) => some (vm.onFailure j call message)
      | .requesting, none, some (.ok res) => some (vm.onSuccess j call res)
      | _, _, _ => none

end RegistrationViewModel

/-! ## Runs -/

inductive RegEvent
  | onQrText (text : JsString) (fingerprint : Except JsString JsString)
  | onFaceCaptured (secret : List UInt8)
  | onFaceCaptureCancelled
  | reset
  | secretRead (j : ℕ) (secret : Except JsString (List UInt8))
  | proved (j : ℕ) (result : Except JsString ProofResult)
  | served (j : ℕ) (answer : Except JsString RegResponse)
  | returns (j : ℕ) (networkError : Option JsString)

/-- The coroutine that an event resumes; the server's work is not one. -/
def RegEvent.resumed : RegEvent → Option ℕ
  | secretRead j _ | proved j _ | returns j _ => some j
  | _ => none

/-- The view model with what has happened to it: how many coroutines had been launched at the last
    `reset()`, and the coroutine of the most recent `onQrText`, if it launched one. -/
structure RegRun where
  vm : RegistrationViewModel
  launchedAtReset : ℕ
  latest : Option ℕ

def RegRun.create (secretSource : BiometricSecretSource) : RegRun :=
  ⟨.create secretSource, 0, none⟩

def registration (parseUri : JsString → Option Uri) : Machine RegRun RegEvent where
  step run
    | .onQrText text fingerprint =>
        let vm := run.vm.onQrText parseUri text fingerprint
        some { run with
          vm := vm
          latest := if run.vm.calls.length < vm.calls.length then some run.vm.calls.length else none }
    | .onFaceCaptured secret => some { run with vm := run.vm.onFaceCaptured secret }
    | .onFaceCaptureCancelled => some { run with vm := run.vm.onFaceCaptureCancelled }
    | .reset => some { run with vm := run.vm.reset, launchedAtReset := run.vm.calls.length }
    | .secretRead j secret => (run.vm.secretRead j secret).map fun vm => { run with vm := vm }
    | .proved j result => (run.vm.proved j result).map fun vm => { run with vm := vm }
    | .served j answer => (run.vm.served j answer).map fun vm => { run with vm := vm }
    | .returns j networkError => (run.vm.returns j networkError).map fun vm => { run with vm := vm }

end ZeroAuth.Android
