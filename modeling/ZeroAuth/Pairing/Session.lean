/-
  ZeroAuth.Pairing.Session

  Rows of `proof_pairing_sessions`, the errors of src/services/proof-pairing.ts
  and its pure helpers, with the verdict gate of src/services/play-integrity.ts.
-/

import ZeroAuth.Audit.Event
import ZeroAuth.Js.Base64

namespace ZeroAuth.Pairing

open ZeroAuth.Lib ZeroAuth.Js ZeroAuth.Pg

def sessionTtlMs : ℕ := 5 * 60 * 1000

def maxPendingSessionsPerTenant : ℕ := 50

def maxFailuresBeforeLock : ℕ := 3

def latencyFloorMs : ℕ := 200

inductive SessionState
  | issued
  | consumed
  | expired
  | failed
  deriving DecidableEq

/-- A row of `proof_pairing_sessions`; times are in milliseconds. -/
structure SessionRow where
  id : Uuid
  tenantId : Uuid
  environment : JsString
  apiKeyId : Option Uuid
  nonceHex : JsString
  sessionBindTokenHash : JsString
  state : SessionState
  consumedUserId : Option Uuid
  proofHash : Option JsString
  lastErrorCode : Option JsString
  desktopIp : Option JsString
  desktopUserAgent : Option JsString
  failureCount : ℕ
  expiresAt : ℕ
  consumedAt : Option ℕ
  createdAt : ℕ
  deriving DecidableEq

/-! ## Errors -/

/-- The error classes of the service. -/
inductive PairingError
  | sessionNotFound
  | sessionExpired
  | sessionAlreadyBound
  | sessionLocked
  | sessionBindMismatch
  | nonceMismatch
  | didUnknown
  | proofInvalid
  | tenantMismatch
  | tooManyPendingSessions
  | verifierUnavailable
  | playIntegrityRequired
  | playIntegrityInsufficient
  deriving DecidableEq

namespace PairingError

def code : PairingError → JsString
  | sessionNotFound => js "pairing_session_not_found"
  | sessionExpired => js "pairing_session_expired"
  | sessionAlreadyBound => js "pairing_session_already_bound"
  | sessionLocked => js "pairing_session_locked"
  | sessionBindMismatch => js "pairing_session_bind_mismatch"
  | nonceMismatch => js "pairing_nonce_mismatch"
  | didUnknown => js "pairing_did_unknown"
  | proofInvalid => js "pairing_proof_invalid"
  | tenantMismatch => js "pairing_tenant_mismatch"
  | tooManyPendingSessions => js "too_many_pending_sessions"
  | verifierUnavailable => js "verifier_unavailable"
  | playIntegrityRequired => js "play_integrity_required"
  | playIntegrityInsufficient => js "play_integrity_insufficient"

/-- The default message. -/
def message : PairingError → JsString
  | sessionNotFound => js "Session not found"
  | sessionExpired => js "Session expired"
  | sessionAlreadyBound => js "Session already bound"
  | sessionLocked => js "Session locked after repeated failures"
  | sessionBindMismatch => js "Session bind cookie missing or wrong"
  | nonceMismatch => js "Public signals nonce mismatch"
  | didUnknown => js "DID does not resolve to a stored commitment"
  | proofInvalid => js "Groth16 proof verification failed"
  | tenantMismatch => js "Tenant mismatch"
  | tooManyPendingSessions => js "Too many open pairing sessions"
  | verifierUnavailable => js "Verifier loopback unavailable"
  | playIntegrityRequired => js "Tenant policy requires a Play Integrity verdict"
  | playIntegrityInsufficient =>
      js "Presented Play Integrity verdict is weaker than the tenant policy"

/-- The classes whose errors the `catch` of `submitProof` counts. -/
def isCounted : PairingError → Bool
  | sessionBindMismatch | didUnknown | nonceMismatch | proofInvalid => true
  | _ => false

end PairingError

/-- What is thrown: an error of the service, or any other (a failing query, a
    signing error). -/
inductive Failure
  | pairing (error : PairingError) (message : JsString)
  | other (message : JsString)
  deriving DecidableEq

/-- `new …()` with the default message. -/
def PairingError.thrown (e : PairingError) : Failure := .pairing e e.message

/-! ## Signals and encodings -/

/-- Two lower- or upper-case hex digits for each of 31 bytes. -/
def isNonceHex (s : JsString) : Bool := s.length == 62 && s.all fun u => (digitIn 16 u).isSome

def nonceHexToField (nonceHex : JsString) : Except Failure ℤ :=
  if isNonceHex nonceHex then
    match bigIntOf (js "0x" ++ nonceHex) with
    | some i => .ok i
    | none => .error (.other (js "Cannot convert to a BigInt"))
  else .error (.other (js "Invalid nonce hex (expected 62 chars)"))

/-- The bytes that are compared: hex digits padded to 64 and decoded again. -/
def signalBytes (i : ℤ) : List UInt8 := bufferFromHex (padStart 64 (signedText 16 i))

def timingSafeBigIntEqual (a b : ℤ) : Bool :=
  (signalBytes a).length == (signalBytes b).length && signalBytes a == signalBytes b

/-- `String(raw).trim()` has to be a text that `BigInt` accepts. -/
def parseBigIntText (raw : JsString) : Except Failure ℤ :=
  if trim raw = [] then .error (.pairing .proofInvalid (js "public signal is empty"))
  else
    match bigIntOf (trim raw) with
    | some i => .ok i
    | none => .error (.pairing .proofInvalid (js "public signal is not a valid bigint"))

def parseBigIntFromSignal : Json → Except Failure ℤ
  | .str s => parseBigIntText s
  | .num n => parseBigIntText n.text
  | _ => .error (.pairing .proofInvalid (js "public signal is not a bigint string"))

def sha256Hex (s : JsString) : JsString := hexBytes (sha256 (utf8 s))

def buildQrPayload (sessionId nonceHex tenantDomain : JsString) : JsString :=
  let tagInput := sessionId ++ js "|" ++ nonceHex ++ js "|" ++ tenantDomain
  let integrityTag := (sha256Hex tagInput).take 4
  js "za:pair:1:" ++ sessionId ++ js ":" ++ nonceHex ++ js ":" ++ tenantDomain ++ js ":" ++
    integrityTag

/-- `sha256(presented) === stored`, as bytes; a missing or empty cookie does not
    match. -/
def bindTokenMatches (presented : JsString) (storedHex : JsString) : Bool :=
  (sha256 (utf8 presented)).length == (bufferFromHex storedHex).length &&
    sha256 (utf8 presented) == bufferFromHex storedHex

/-! ## The Play Integrity gate -/

/-- Whether a field of a policy object counts as true. -/
def truthy : Option Json → Bool
  | some (.bool b) => b
  | some (.num n) => n.text ≠ js "0"
  | some (.str s) => s ≠ []
  | some (.arr _) | some (.obj _) => true
  | some .null | none => false

def verdictRank (v : JsString) : ℕ :=
  if v = js "MEETS_STRONG_INTEGRITY" then 4
  else if v = js "MEETS_DEVICE_INTEGRITY" then 3
  else if v = js "MEETS_BASIC_INTEGRITY" then 2
  else if v = js "INTEGRITY_NOT_EVALUATED" then 1
  else 0

def requiredRank (policy : Json) : ℕ :=
  if truthy (policy.get? (js "require_strong_integrity")) then 4
  else if truthy (policy.get? (js "require_device_integrity")) then 3
  else if truthy (policy.get? (js "require_basic_integrity")) then 2
  else 0

/-- `none` is `ok: true`; otherwise the error class and its message. -/
def evaluateVerdict (presented : Option Json) (policy : Json) : Option (PairingError × JsString) :=
  let required := requiredRank policy
  if required = 0 then none
  else
    let trimmed := match presented with
      | some (.str s) => trim s
      | _ => []
    if trimmed = [] then
      if truthy (policy.get? (js "allow_play_integrity_absent")) then none
      else some (.playIntegrityRequired,
        js "Tenant policy requires a Play Integrity verdict on the submit body.")
    else if verdictRank trimmed < required then
      some (.playIntegrityInsufficient,
        js "Presented Play Integrity verdict is weaker than the tenant's required rank (" ++
          numText 10 required ++ js ").")
    else none

/-- `raw && typeof raw === 'object' ? raw : {}`. -/
def policyOf : Option Json → Json
  | some (.obj props) => .obj props
  | some (.arr items) => .arr items
  | _ => .obj []

end ZeroAuth.Pairing
