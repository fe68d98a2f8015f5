/-
  ZeroAuth.Records.Program

  `createVerificationEvent` and `createAttendanceEvent` of src/services/platform.ts, as
  programs over the statements of `ZeroAuth.Tenant.Program` and those on the two tables
  of events.

  The UPDATEs of `last_seen_at` and `last_verified_at` are started and not awaited
  (`RecordOp.touch`).
-/

import ZeroAuth.Lib.Extend
import ZeroAuth.Tenant.System

namespace ZeroAuth.Records

open ZeroAuth.Lib ZeroAuth.Js ZeroAuth.Pg ZeroAuth.Tenant
open ZeroAuth.Audit (AuditInput ChainedAuditPayload ofNullable)

/-! ## Rows -/

inductive VerificationMethod
  | zkp
  | fingerprint
  | face
  | depth
  | saml
  | oidc
  | manual
  deriving DecidableEq

inductive VerificationResult
  | pass
  | fail
  | challenge
  deriving DecidableEq

inductive AttendanceEventType
  | checkIn
  | checkOut
  deriving DecidableEq

inductive AttendanceResult
  | accepted
  | rejected
  deriving DecidableEq

def VerificationMethod.text : VerificationMethod → JsString
  | zkp => js "zkp"
  | fingerprint => js "fingerprint"
  | face => js "face"
  | depth => js "depth"
  | saml => js "saml"
  | oidc => js "oidc"
  | manual => js "manual"

def VerificationResult.text : VerificationResult → JsString
  | pass => js "pass"
  | fail => js "fail"
  | challenge => js "challenge"

def AttendanceEventType.text : AttendanceEventType → JsString
  | checkIn => js "check_in"
  | checkOut => js "check_out"

def AttendanceResult.text : AttendanceResult → JsString
  | accepted => js "accepted"
  | rejected => js "rejected"

/-- A row of `verification_events`; times are in milliseconds. -/
structure VerificationRecord where
  id : Uuid
  tenantId : Uuid
  environment : JsString
  userId : Option Uuid
  deviceId : Option Uuid
  apiKeyId : Uuid
  method : VerificationMethod
  result : VerificationResult
  reason : Option JsString
  confidenceScore : Option JsNumber
  referenceId : Option JsString
  metadata : Json
  occurredAt : ℤ
  createdAt : ℕ

/-- A row of `attendance_events`. -/
structure AttendanceEvent where
  id : Uuid
  tenantId : Uuid
  environment : JsString
  userId : Uuid
  deviceId : Option Uuid
  verificationId : Option Uuid
  type : AttendanceEventType
  result : AttendanceResult
  metadata : Json
  occurredAt : ℤ
  createdAt : ℕ

/-- The values of the INSERT in `createVerificationEvent`. -/
structure NewVerification where
  userId : Option Uuid
  deviceId : Option Uuid
  apiKeyId : JsString
  method : VerificationMethod
  result : VerificationResult
  reason : Option JsString
  confidenceScore : Option JsNumber
  referenceId : Option JsString
  metadata : Json
  occurredAt : ℤ

/-- The values of the INSERT in `createAttendanceEvent`. -/
structure NewAttendance where
  userId : Uuid
  deviceId : Option Uuid
  verificationId : Option Uuid
  type : AttendanceEventType
  result : AttendanceResult
  metadata : Json
  occurredAt : ℤ

def NewVerification.row (v : NewVerification) (id tenantId apiKeyId : Uuid)
    (environment : JsString) (now : ℕ) : VerificationRecord :=
  { id := id
    tenantId := tenantId
    environment := environment
    userId := v.userId
    deviceId := v.deviceId
    apiKeyId := apiKeyId
    method := v.method
    result := v.result
    reason := v.reason
    confidenceScore := v.confidenceScore
    referenceId := v.referenceId
    metadata := v.metadata
    occurredAt := v.occurredAt
    createdAt := now }

def NewAttendance.row (v : NewAttendance) (id tenantId : Uuid) (environment : JsString)
    (now : ℕ) : AttendanceEvent :=
  { id := id
    tenantId := tenantId
    environment := environment
    userId := v.userId
    deviceId := v.deviceId
    verificationId := v.verificationId
    type := v.type
    result := v.result
    metadata := v.metadata
    occurredAt := v.occurredAt
    createdAt := now }

def VerificationRecord.isOwn (id tenantId : Uuid) (environment : JsString)
    (v : VerificationRecord) : Bool :=
  v.id = id ∧ v.tenantId = tenantId ∧ v.environment = environment

/-! ## Operations -/

/-- An UPDATE of `devices.last_seen_at` or of `tenant_users.last_verified_at`. -/
inductive Touch
  | device (id : Uuid) (tenantId : JsString) (occurredAt : ℤ)
  | user (id : Uuid) (tenantId : JsString) (occurredAt : ℤ)

inductive RecordOp
  | selectUser (userId tenantId environment : JsString)
  | selectVerification (verificationId tenantId environment : JsString)
  | insertVerification (tenantId environment : JsString) (v : NewVerification)
  | insertAttendance (tenantId environment : JsString) (v : NewAttendance)
  | touch (touch : Touch)

/-- `rows[0]` of the statement. -/
def RecordOp.Resp : RecordOp → Type
  | selectUser _ _ _ => Option TenantUser
  | selectVerification _ _ _ => Option VerificationRecord
  | insertVerification _ _ _ => VerificationRecord
  | insertAttendance _ _ _ => AttendanceEvent
  | touch _ => Unit

abbrev recordSig : Sig := Tenant.sig.sum ⟨RecordOp, RecordOp.Resp⟩

/-- What the services on events throw besides what those on devices and users throw. -/
structure RecordError where
  message : JsString
  deriving DecidableEq

abbrev RecordFailure := Tenant.Failure ⊕ RecordError

abbrev RecordProgram (α : Type) := Prog recordSig RecordFailure α

/-- Await one operation on the events. -/
abbrev record (o : RecordOp) : RecordProgram o.Resp := Prog.perform (S := recordSig) (.inr o)

/-! ## Verifications -/

def parseTimestamp (cfg : Settings) : Option JsString → RecordProgram ℤ
  | none | some [] => do
      let now : ℕ ← (Tenant.await .now).lift
      return now
  | some text =>
      match cfg.parseDate text with
      | some ms => return ms
      | none => throw (.inr ⟨js "Invalid ISO timestamp"⟩)

/-- `findTenantUser`, and an error when there is none. -/
def requireUser (tenantId environment userId : JsString) : RecordProgram TenantUser := do
  let user : Option TenantUser ← record (.selectUser userId tenantId environment)
  match user with
  | some user => return user
  | none => throw (.inr ⟨js "User not found for this tenant/environment"⟩)

/-- The user that the caller names, if any. -/
def findUser (tenantId environment : JsString) (userId : Option JsString) :
    RecordProgram (Option Uuid) :=
  match userId.filter (· ≠ []) with
  | none => return none
  | some userId => do
      let user ← requireUser tenantId environment userId
      return some user.id

/-- `void pool.query(…).catch(…)`, if there is a row to update. -/
def touchIf (id : Option Uuid) (touch : Uuid → Touch) : RecordProgram Unit :=
  match id with
  | some id => record (.touch (touch id))
  | none => return ()

/-- `void recordAuditEvent(…).catch(…)` about an event. -/
def auditRecord (tenantId environment apiKeyId : JsString) (action entityType : String)
    (entityId : Uuid) (failed : Bool) (summary : JsString) (metadata : List (JsString × JsVal)) :
    RecordProgram Unit :=
  (Tenant.await (.spawn (AuditInput.payload
    { environment := some environment
      actorType := js "api_key"
      actorId := some apiKeyId
      action := js action
      entityType := js entityType
      entityId := some entityId.text
      status := if failed then js "failure" else js "success"
      summary := summary
      metadata := .obj metadata } tenantId))).lift

structure VerificationInput where
  userId : Option JsString
  deviceId : Option JsString
  method : VerificationMethod
  result : VerificationResult
  reason : Option JsString
  confidenceScore : Option JsNumber
  referenceId : Option JsString
  metadata : Option Json
  occurredAt : Option JsString

def createVerificationEvent (cfg : Settings) (tenantId environment apiKeyId : JsString)
    (input : VerificationInput) : RecordProgram VerificationRecord := do
  let occurredAt : ℤ ← parseTimestamp cfg input.occurredAt
  let userId : Option Uuid ← findUser tenantId environment input.userId
  let deviceId : Option Uuid ← (findPrimaryDevice tenantId environment input.deviceId).lift
  -- the record first, then the two touches, each a statement of its own
  let verification : VerificationRecord ← record (.insertVerification tenantId environment
    { userId := userId
      deviceId := deviceId
      apiKeyId := apiKeyId
      method := input.method
      result := input.result
      reason := input.reason.bind fun s => orNull (trim s)
      confidenceScore := input.confidenceScore
      referenceId := input.referenceId.bind fun s => orNull (trim s)
      metadata := sanitizeMetadata input.metadata
      occurredAt := occurredAt })
  touchIf deviceId fun id => .device id tenantId occurredAt
  -- the user is touched only by a pass
  touchIf (if input.result = .pass then userId else none) fun id => .user id tenantId occurredAt
  auditRecord tenantId environment apiKeyId "verification.recorded" "verification" verification.id
    (verification.result = .fail)
    (verification.method.text ++ js " verification " ++ verification.result.text)
    [(js "userId", ofNullable (verification.userId.map Uuid.text)),
      (js "deviceId", ofNullable (verification.deviceId.map Uuid.text)),
      (js "referenceId", ofNullable verification.referenceId)]
  return verification

/-! ## Attendance -/

/-- The verification that the caller names, if any. -/
def findNamedVerification (tenantId environment : JsString) (verificationId : Option JsString) :
    RecordProgram (Option VerificationRecord) :=
  match verificationId.filter (· ≠ []) with
  | none => return none
  | some verificationId => do
      let verification : Option VerificationRecord ←
        record (.selectVerification verificationId tenantId environment)
      match verification with
      | some verification => return some verification
      | none => throw (.inr ⟨js "Verification not found for this tenant/environment"⟩)

/-- An explicit result, else the one of the verification, else `accepted`. -/
def derivedResult (result : Option AttendanceResult) (verification : Option VerificationRecord) :
    AttendanceResult :=
  match result, verification with
  | some result, _ => result
  | none, some verification => if verification.result = .pass then .accepted else .rejected
  | none, none => .accepted

structure AttendanceInput where
  userId : JsString
  deviceId : Option JsString
  verificationId : Option JsString
  type : AttendanceEventType
  result : Option AttendanceResult
  metadata : Option Json
  occurredAt : Option JsString

def createAttendanceEvent (cfg : Settings) (tenantId environment apiKeyId : JsString)
    (input : AttendanceInput) : RecordProgram AttendanceEvent := do
  let occurredAt : ℤ ← parseTimestamp cfg input.occurredAt
  let user ← requireUser tenantId environment input.userId
  let deviceId : Option Uuid ← (findPrimaryDevice tenantId environment input.deviceId).lift
  -- one of another tenant or environment is not found, and that throws
  let verification : Option VerificationRecord ←
    findNamedVerification tenantId environment input.verificationId
  let event : AttendanceEvent ← record (.insertAttendance tenantId environment
    { userId := user.id
      deviceId := deviceId
      verificationId := verification.map VerificationRecord.id
      type := input.type
      result := derivedResult input.result verification
      metadata := sanitizeMetadata input.metadata
      occurredAt := occurredAt })
  auditRecord tenantId environment apiKeyId "attendance.recorded" "attendance" event.id
    (event.result = .rejected) (event.type.text ++ js " " ++ event.result.text)
    [(js "userId", .str event.userId.text),
      (js "deviceId", ofNullable (event.deviceId.map Uuid.text)),
      (js "verificationId", ofNullable (event.verificationId.map Uuid.text))]
  return event

end ZeroAuth.Records
