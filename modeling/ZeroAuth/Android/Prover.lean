/-
  ZeroAuth.Android.Prover

  Proofs in another process: `IsolatedMobileProver` (the client, on the main
  looper), `ProverService` (the `:prover` process) and the two channels between
  their Messengers.

  A message carries no request id.  Where a job is named in a message of the model,
  it is for the statements only: no handler looks at it.
-/

import ZeroAuth.Android.ProofQr
import ZeroAuth.Lib.Machine

namespace ZeroAuth.Android

open ZeroAuth.Js ZeroAuth.Lib

/-! ## Data -/

deriving instance DecidableEq for Groth16Proof

structure UnlockedCredential where
  biometricSecret : JsString
  salt : JsString
  commitment : JsString
  didHash : JsString
  did : JsString
  deriving DecidableEq

structure GenerateInput where
  unlocked : UnlockedCredential
  sessionNonceHex : JsString
  deriving DecidableEq

structure GenerateOutput where
  proof : Groth16Proof
  publicSignals : List JsString
  did : JsString
  proofMs : Long
  deriving DecidableEq

structure ProverException where
  code : JsString
  message : JsString
  deriving DecidableEq

namespace ProverException

def proverFailed (message : JsString) : ProverException := ⟨js "prover_failed", message⟩

def witnessInvalid (message : JsString) : ProverException := ⟨js "prover_witness_invalid", message⟩

def webviewCrashed (message : JsString) : ProverException := ⟨js "prover_webview_crashed", message⟩

def timeout (message : JsString) : ProverException := ⟨js "prover_timeout", message⟩

end ProverException

structure ProverRequest where
  biometricSecret : JsString
  salt : JsString
  commitment : JsString
  didHash : JsString
  did : JsString
  sessionNonceHex : JsString
  deriving DecidableEq

/-! ## The request of a call -/

def fieldModulus : ℕ :=
  21888242871839275222246405745257275088548364400416034343698204186575808495617

def isDecimalDigit (u : CodeUnit) : Bool := 48 ≤ u.val && u.val ≤ 57

def parseFieldElement (name raw : JsString) : Except ProverException ℕ :=
  if raw = [] then .error (.witnessInvalid (name ++ js " must be a non-empty decimal string"))
  else if !raw.all isDecimalDigit then
    .error (.witnessInvalid (name ++ js " must be a decimal string of digits (got: " ++ raw.take 16 ++ js "…)"))
  else
    match readDigits 10 raw with
    | none => .error (.witnessInvalid (name ++ js " did not parse as a BigInteger"))
    | some n =>
        if n ≥ fieldModulus then .error (.witnessInvalid (name ++ js " out of BN128 field range"))
        else .ok n

/-- `Char.isWhitespace`. -/
def isWhitespace (u : CodeUnit) : Bool :=
  (9 ≤ u.val && u.val ≤ 13) || (28 ≤ u.val && u.val ≤ 32) || u.val = 0xA0 || u.val = 0x1680 ||
    (0x2000 ≤ u.val && u.val ≤ 0x200A) || u.val = 0x2028 || u.val = 0x2029 || u.val = 0x202F ||
    u.val = 0x205F || u.val = 0x3000

def buildRequest (input : GenerateInput) : Except ProverException ProverRequest := do
  let cred := input.unlocked
  let _ ← parseFieldElement (js "biometricSecret") cred.biometricSecret
  let _ ← parseFieldElement (js "salt") cred.salt
  let _ ← parseFieldElement (js "commitment") cred.commitment
  let _ ← parseFieldElement (js "didHash") cred.didHash
  let nonceHex := input.sessionNonceHex
  if nonceHex.length ≠ 62 then
    .error (.witnessInvalid
      (js "sessionNonceHex must be 62 hex chars (31 bytes); got " ++ numText 10 nonceHex.length))
  else if !nonceHex.all fun u => (digitIn 16 u).isSome then
    .error (.witnessInvalid (js "sessionNonceHex must be lower- or upper-case hex"))
  else if cred.did.all isWhitespace then .error (.witnessInvalid (js "did must not be blank"))
  else .ok ⟨cred.biometricSecret, cred.salt, cred.commitment, cred.didHash, cred.did, nonceHex⟩

/-! ## Both processes -/

/-- A request under way, with the call that has sent it. -/
structure Job where
  sender : ℕ
  request : ProverRequest
  deriving DecidableEq

/-- A `ProverResponse` under way.  `Success` has the fields of the output. -/
inductive Delivery
  | progress (job : Job) (fraction : ℚ)
  | success (job : Job) (out : GenerateOutput)
  | failure (error : ProverException)
  deriving DecidableEq

/-- What ends a call without an output. -/
inductive CallFailure
  | prover (error : ProverException)
  | cancelled
  deriving DecidableEq

abbrev CallResult := Except CallFailure GenerateOutput

/-- Where a `generate` stands: before the lock, in `ensureBound`, past it, in
    `invokeService`, resumed with a result, back at its caller. -/
inductive CallStatus
  | queued (request : ProverRequest)
  | connecting (request : ProverRequest)
  | connected (service : ℕ) (request : ProverRequest)
  | waiting
  | resumed (result : CallResult)
  | ended (result : CallResult)

structure Call where
  input : GenerateInput
  status : CallStatus

/-- What is posted to the main looper: the blocks of `ensureBound` and
    `invokeService`, and what their `invokeOnCancellation` posts. -/
inductive Runnable
  | bind (t : ℕ)
  | unstash
  | enter (t service : ℕ) (request : ProverRequest) (did : JsString)
  | clear

structure InFlightProof where
  cont : ℕ
  did : JsString

/-- The fields of `IsolatedMobileProver`, the service's process and the channels.  The
    coroutine of a running job still holds the slot after its last message. -/
structure ProverWorld where
  timeoutMs : ℕ
  calls : List Call
  generateMutex : Option ℕ
  posted : List Runnable
  outgoing : Option ℕ
  bound : Bool
  connectionContinuation : Option ℕ
  inFlight : Option InFlightProof
  requests : List Job
  responses : List Delivery
  /-- The number of the service process that is alive. -/
  process : ℕ
  running : Option (Job × Bool)
  /-- What `WebViewMobileProver.generate` has returned so far, and for which request. -/
  computed : List (ProverRequest × GenerateOutput)
  /-- The calls whose `onProgress` was invoked, and with whose progress. -/
  progressed : List (ℕ × Job)

def newProver (timeoutMs : ℕ) : ProverWorld :=
  ⟨timeoutMs, [], none, [], none, false, none, none, [], [], 0, none, [], []⟩

namespace ProverWorld

def setStatus (w : ProverWorld) (t : ℕ) (status : CallStatus) : ProverWorld :=
  { w with calls := w.calls.modify t fun c => { c with status := status } }

def status (w : ProverWorld) (t : ℕ) : Option CallStatus := w.calls[t]?.map Call.status

def post (w : ProverWorld) (r : Runnable) : ProverWorld := { w with posted := w.posted ++ [r] }

/-! ## The client -/

/-- `cont.resume…` of a call in `invokeService`, if it is still active. -/
def resume (w : ProverWorld) (t : ℕ) (result : CallResult) : ProverWorld :=
  match w.status t with
  | some .waiting => w.setStatus t (.resumed result)
  | _ => w

/-- `cont.resume…` of a call in `ensureBound`, if it is still active. -/
def resumeConnecting (w : ProverWorld) (t : ℕ) (r : Except ProverException ℕ) : ProverWorld :=
  match w.status t, r with
  | some (.connecting request), .ok service => w.setStatus t (.connected service request)
  | some (.connecting _), .error e => w.setStatus t (.resumed (.error (.prover e)))
  | _, _ => w

def failInFlight (w : ProverWorld) (e : ProverException) : ProverWorld :=
  match w.inFlight with
  | none => w
  | some flight => { w with inFlight := none }.resume flight.cont (.error (.prover e))

def failInFlightWithCrash (w : ProverWorld) : ProverWorld :=
  w.failInFlight (.webviewCrashed (js "ProverService process died mid-proof"))

/-- `connectionContinuation?.let { … }`. -/
def settleConnection (w : ProverWorld) (r : Except ProverException ℕ) : ProverWorld :=
  match w.connectionContinuation with
  | none => w
  | some t => { w with connectionContinuation := none }.resumeConnecting t r

def generate (w : ProverWorld) (input : GenerateInput) : ProverWorld :=
  let status : CallStatus :=
    match buildRequest input with
    | .ok request => .queued request
    | .error e => .ended (.error (.prover e))
  { w with calls := w.calls ++ [⟨input, status⟩] }

def invokeService (w : ProverWorld) (t : ℕ) (input : GenerateInput) (service : ℕ)
    (request : ProverRequest) : ProverWorld :=
  (w.setStatus t .waiting).post (.enter t service request input.unlocked.did)

/-- `generateMutex.withLock`, then `ensureBound`. -/
def lock (w : ProverWorld) (t : ℕ) : Option ProverWorld :=
  match w.calls[t]?, w.generateMutex with
  | some ⟨input, .queued request⟩, none =>
      match w.outgoing with
      | some service => some ({ w with generateMutex := some t }.invokeService t input service request)
      | none => some (({ w with generateMutex := some t }.setStatus t (.connecting request)).post (.bind t))
  | _, _ => none

/-- The coroutine of a call goes on. -/
def dispatch (w : ProverWorld) (t : ℕ) : Option ProverWorld :=
  match w.calls[t]? with
  | some ⟨input, .connected service request⟩ => some (w.invokeService t input service request)
  | some ⟨_, .resumed result⟩ => some ({ w with generateMutex := none }.setStatus t (.ended result))
  | _ => none

/-- A suspended call is cancelled; so is one whose continuation has been resumed and
    has not run yet. -/
def interrupt (w : ProverWorld) (t : ℕ) (failure : CallFailure) : Option ProverWorld :=
  match w.status t with
  | some (.connecting _) | some (.connected _ _) =>
      some ((w.setStatus t (.resumed (.error failure))).post .unstash)
  | some .waiting | some (.resumed (.ok _)) =>
      some ((w.setStatus t (.resumed (.error failure))).post .clear)
  | _ => none

def timeoutError (w : ProverWorld) : ProverException :=
  .timeout (js "Isolated prover timed out after " ++ numText 10 w.timeoutMs ++ js "ms")

def cancel (w : ProverWorld) (t : ℕ) : Option ProverWorld :=
  match w.status t with
  | some (.queued _) => some (w.setStatus t (.ended (.error .cancelled)))
  | _ => w.interrupt t .cancelled

/-- The block that `ensureBound` posts; `didBind` is the result of `bindService`. -/
def runBind (w : ProverWorld) (t : ℕ) (didBind : Bool) : ProverWorld :=
  match w.outgoing with
  | some service => w.resumeConnecting t (.ok service)
  | none =>
      if w.bound then { w with connectionContinuation := some t }
      else if didBind then { w with connectionContinuation := some t, bound := true }
      else { w with connectionContinuation := none }.resumeConnecting t
        (.error (.proverFailed (js "bindService returned false")))

/-- The block that `invokeService` posts; a Messenger to a dead process throws. -/
def runEnter (w : ProverWorld) (t service : ℕ) (request : ProverRequest) (did : JsString) :
    ProverWorld :=
  match w.inFlight with
  | some _ =>
      w.resume t (.error (.prover (.proverFailed (js "IsolatedMobileProver is busy with another proof"))))
  | none =>
      if service = w.process then
        { w with inFlight := some ⟨t, did⟩, requests := w.requests ++ [⟨t, request⟩] }
      else
        w.resume t (.error (.prover
          (.webviewCrashed (js "ProverService crashed before accepting request"))))

def runPosted (w : ProverWorld) (didBind : Bool) : Option ProverWorld :=
  match w.posted with
  | [] => none
  | .bind t :: rest => some ({ w with posted := rest }.runBind t didBind)
  | .unstash :: rest => some { w with posted := rest, connectionContinuation := none }
  | .enter t service request did :: rest =>
      some ({ w with posted := rest }.runEnter t service request did)
  | .clear :: rest => some { w with posted := rest, inFlight := none }

def onServiceConnected (w : ProverWorld) : ProverWorld :=
  { w with outgoing := some w.process }.settleConnection (.ok w.process)

def onServiceDisconnected (w : ProverWorld) : ProverWorld :=
  { w with outgoing := none }.failInFlightWithCrash

def onBindingDied (w : ProverWorld) : ProverWorld :=
  { w with outgoing := none, bound := false }.failInFlightWithCrash.settleConnection
    (.error (.webviewCrashed (js "ProverService binding died before first response")))

def onNullBinding (w : ProverWorld) : ProverWorld :=
  w.failInFlightWithCrash.settleConnection
    (.error (.proverFailed (js "ProverService returned a null Binder")))

/-- `handleMessage` of the client. -/
def handleResponse (w : ProverWorld) (response : Delivery) : ProverWorld :=
  match w.inFlight, response with
  | none, _ => w
  | some flight, .progress job _ => { w with progressed := w.progressed ++ [(flight.cont, job)] }
  | some flight, .success _ out =>
      { w with inFlight := none }.resume flight.cont (.ok { out with did := flight.did })
  | some flight, .failure error =>
      { w with inFlight := none }.resume flight.cont (.error (.prover error))

def deliver (w : ProverWorld) : Option ProverWorld :=
  match w.responses with
  | [] => none
  | response :: rest => some ({ w with responses := rest }.handleResponse response)

/-! ## The service -/

def send (w : ProverWorld) (response : Delivery) : ProverWorld :=
  { w with responses := w.responses ++ [response] }

/-- `handleProveRequest`. -/
def handleRequest (w : ProverWorld) : Option ProverWorld :=
  match w.requests, w.running with
  | [], _ => none
  | _ :: rest, some _ => some ({ w with requests := rest }.send
      (.failure (.proverFailed (js "ProverService is busy with another proof"))))
  | job :: rest, none => some { w with requests := rest, running := some (job, false) }

/-- `fraction.coerceIn(0f, 1f)`. -/
def coerceFraction (fraction : ℚ) : ℚ := max 0 (min fraction 1)

def onProgress (w : ProverWorld) (fraction : ℚ) : Option ProverWorld :=
  match w.running with
  | some (job, false) => some (w.send (.progress job (coerceFraction fraction)))
  | _ => none

/-- `prover.generate` has returned. -/
def complete (w : ProverWorld) (out : GenerateOutput) : Option ProverWorld :=
  match w.running with
  | some (job, false) => some ({ w with
      running := some (job, true)
      computed := w.computed ++ [(job.request, out)] }.send (.success job out))
  | _ => none

/-- `prover.generate` has thrown. -/
def fail (w : ProverWorld) (error : ProverException) : Option ProverWorld :=
  match w.running with
  | some (job, false) => some ({ w with running := some (job, true) }.send (.failure error))
  | _ => none

/-- The `finally` block of the coroutine. -/
def finish (w : ProverWorld) : Option ProverWorld :=
  match w.running with
  | some (_, true) => some { w with running := none }
  | _ => none

/-- The process dies with what it has not handled yet; a new one takes its place. -/
def die (w : ProverWorld) : ProverWorld :=
  { w with process := w.process + 1, requests := [], running := none }

end ProverWorld

inductive ProverEvent
  | generate (input : GenerateInput)
  | lock (t : ℕ)
  | dispatch (t : ℕ)
  | timeout (t : ℕ)
  | cancel (t : ℕ)
  | runPosted (didBind : Bool)
  | onServiceConnected
  | onServiceDisconnected
  | onBindingDied
  | onNullBinding
  | deliver
  | handleRequest
  | onProgress (fraction : ℚ)
  | complete (out : GenerateOutput)
  | fail (error : ProverException)
  | finish
  | die

def proverStep (w : ProverWorld) : ProverEvent → Option ProverWorld
  | .generate input => some (w.generate input)
  | .lock t => w.lock t
  | .dispatch t => w.dispatch t
  | .timeout t => w.interrupt t (.prover w.timeoutError)
  | .cancel t => w.cancel t
  | .runPosted didBind => w.runPosted didBind
  | .onServiceConnected => some w.onServiceConnected
  | .onServiceDisconnected => some w.onServiceDisconnected
  | .onBindingDied => some w.onBindingDied
  | .onNullBinding => some w.onNullBinding
  | .deliver => w.deliver
  | .handleRequest => w.handleRequest
  | .onProgress fraction => w.onProgress fraction
  | .complete out => w.complete out
  | .fail error => w.fail error
  | .finish => w.finish
  | .die => some w.die

abbrev prover : Machine ProverWorld ProverEvent := ⟨proverStep⟩

end ZeroAuth.Android
