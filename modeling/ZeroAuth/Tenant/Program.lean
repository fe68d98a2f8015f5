/-
  ZeroAuth.Tenant.Program

  Devices and users of src/services/platform.ts, `registerFaceFirstIdentity` of
  src/services/identity.ts, and the three-code registration ceremony of
  src/services/registration.ts, as programs over what they await.

  `pool.query` is a statement of its own (`Op.pool`); `client.query` belongs to
  the transaction that the call has opened (`Op.query`).  What a statement does is
  in `ZeroAuth.Tenant.System`.  The answer to a statement reaches the process some
  time after the database has executed it; so what the process then does to its
  map of demo codes is an operation of its own.
-/

import ZeroAuth.Audit.Event
import ZeroAuth.Lib.Async
import ZeroAuth.Tenant.Rows

namespace ZeroAuth.Tenant

open ZeroAuth.Lib ZeroAuth.Js ZeroAuth.Pg
open ZeroAuth.Audit (AuditInput ChainedAuditPayload ofNullable)

/-! ## Operations -/

inductive Sql
  | insertDevice (tenantId environment : JsString) (v : NewDevice)
  | insertSlot (tenantId environment : JsString) (v : NewSlot)
  | reissueCode (deviceId tenantId environment codeHash : JsString) (expiresAt : ℕ)
  | lockSlot (codeHash : JsString)
  | findCollision (tenantId : Uuid) (environment fpHash : JsString) (id : Uuid)
  | claimSlot (id : Uuid) (externalId fpHash attestationKind : JsString)
  | revoke (deviceId tenantId environment : JsString)
  | updateDevice (deviceId tenantId environment : JsString) (v : DeviceUpdate)
  | upsertDevice (v : PairedDevice)
  | selectDevice (deviceId tenantId environment : JsString)
  | selectDeviceById (id : Uuid)
  | insertSession (tenantId environment : JsString) (v : NewRegistration)
  | selectSession (sessionId tenantId environment : JsString)
  | lockSession (step : Step) (codeHash : JsString)
  | attachDevice (id deviceId : Uuid) (codeHash : JsString) (expiresAt : ℕ)
  | attachCommitment (id : Uuid) (did commitment codeHash : JsString) (expiresAt : ℕ)
      (nonce : JsString)
  | completeSession (id userId : Uuid)
  | abandonSession (sessionId tenantId environment : JsString)
  | insertUser (tenantId environment : JsString) (v : NewTenantUser)
  | registerUser (v : RegisteredUser)
  | insertFaceFirst (tenantId environment : JsString) (v : FaceFirstUser)
  | findDid (tenantId environment did : JsString)
  | updateUser (userId tenantId environment : JsString) (v : UserUpdate)

/-- `rows[0]` of the statement; `findCollision` answers `rowCount`, `findDid` whether there is
    a row. -/
def Sql.Resp : Sql → Type
  | insertDevice _ _ _ | insertSlot _ _ _ | upsertDevice _ => Device
  | reissueCode _ _ _ _ _ | lockSlot _ | claimSlot _ _ _ _ | revoke _ _ _ | updateDevice _ _ _ _
  | selectDevice _ _ _ | selectDeviceById _ => Option Device
  | findCollision _ _ _ _ => ℕ
  | insertSession _ _ _ => RegistrationSession
  | selectSession _ _ _ | lockSession _ _ | attachDevice _ _ _ _ | attachCommitment _ _ _ _ _ _
  | completeSession _ _ | abandonSession _ _ _ => Option RegistrationSession
  | insertUser _ _ _ | registerUser _ | insertFaceFirst _ _ _ => TenantUser
  | findDid _ _ _ => Bool
  | updateUser _ _ _ _ => Option TenantUser

inductive Op
  | now
  | uuidv4
  | randomInts (count bound : ℕ)
  | randomBytes (n : ℕ)
  | pool (q : Sql)
  | connect
  | begin
  | query (q : Sql)
  | commit
  | rollback
  | verifyProof (proof publicSignals : Json)
  | spawn (payload : ChainedAuditPayload)
  | cacheDemoCode (sessionId : JsString) (step : Step) (code deeplink : JsString)
      (challengeNonce : Option JsString)
  | peekDemoCode (sessionId : JsString)

def Op.Resp : Op → Type
  | now => ℕ
  | uuidv4 => Uuid
  | randomInts _ _ => List ℕ
  | randomBytes _ => List UInt8
  | pool q | query q => q.Resp
  | verifyProof _ _ => Bool
  | peekDemoCode _ => Option DemoPendingCode
  | _ => Unit

inductive EnrollmentClaimReason
  | invalidFingerprint
  | codeNotFoundOrExpired
  | fingerprintCollision
  deriving DecidableEq

inductive RegistrationReason
  | sessionNotFound
  | sessionExpired
  | wrongState
  | codeNotFoundOrExpired
  | invalidFingerprint
  | invalidCommitment
  | commitmentMismatch
  | challengeMismatch
  | proofVerificationFailed
  deriving DecidableEq

/-- What a call throws. -/
inductive Failure
  | enrollmentClaim (reason : EnrollmentClaimReason)
  | registrationState (reason : RegistrationReason)
  | identityValidation (code message : JsString)
  | identityAlreadyExists (did : JsString)
  | other (message : JsString)
  deriving DecidableEq

abbrev sig : Sig := ⟨Op, Op.Resp⟩

abbrev Program (α : Type) := Prog sig Failure α

/-- Await one operation. -/
abbrev await (o : Op) : Program o.Resp := Prog.perform (S := sig) o

/-- `pool.query`. -/
abbrev pool (q : Sql) : Program q.Resp := await (.pool q)

/-- `client.query`. -/
abbrev query (q : Sql) : Program q.Resp := await (.query q)

/-- `try { … } catch (err) { try { ROLLBACK } catch {} throw err }` around the use of a client. -/
def withClient {α : Type} (body : Program α) : Program α := do
  await .connect
  body.tryCatch fun err => do
    (await .rollback).tryCatch fun _ => pure ()
    throw err

/-- A rejection inside the transaction. -/
def reject {α : Type} (err : Failure) : Program α := do
  await .rollback
  throw err

/-- What the services take from their surroundings: the Unicode case mappings, Poseidon of one
    field element, `Date`, and whether `NODE_ENV` is `production`. -/
structure Settings where
  caseMapping : CaseMapping
  poseidon1 : ℤ → ℤ
  parseDate : JsString → Option ℤ
  toISOString : ℤ → JsString
  production : Bool

/-! ## Helpers of platform.ts -/

structure AuditActor where
  type : JsString
  id : Option JsString
  email : Option JsString

/-- `value || null` for a string. -/
def orNull (s : JsString) : Option JsString := if s = [] then none else some s

/-- Anything but an object is replaced by `{}`. -/
def sanitizeMetadata : Option Json → Json
  | some (.obj props) => .obj props
  | _ => .obj []

/-- `input.metadata ? sanitizeMetadata(input.metadata) : null`. -/
def metadataOrNull : Option Json → Option Json
  | none | some .null | some (.bool false) | some (.str []) => none
  | some (.num n) => if n.text = [48] then none else some (.obj [])
  | some m => some (sanitizeMetadata (some m))

def actorMetadata (actor : Option AuditActor) : List (JsString × JsVal) :=
  match actor.bind AuditActor.email with
  | some email => if email = [] then [] else [(js "actor_email", .str email)]
  | none => []

def defaultExternalId (name : JsString) (externalId : Option JsString) : Program JsString :=
  match externalId.filter fun s => trim s ≠ [] with
  | some s => return trim s
  | none => do
      let id : Uuid ← await .uuidv4
      return name ++ 95 :: shortId id.text

def generateEnrollmentCode : Program JsString := do
  let draws : List ℕ ← await (.randomInts (codeGroups * codeGroupLen) codeAlphabet.length)
  return enrollmentCodeOf draws

/-- `void recordAuditEvent(…).catch(…)` about a device. -/
def auditDevice (tenantId : JsString) (environment : JsString) (actorType : JsString)
    (actorId : Option JsString) (action : String) (device : Device) (summary : JsString)
    (metadata : List (JsString × JsVal)) : Program Unit :=
  await (.spawn (AuditInput.payload
    { environment := some environment
      actorType := actorType
      actorId := actorId
      action := js action
      entityType := js "device"
      entityId := some device.id.text
      status := js "success"
      summary := summary
      metadata := .obj metadata } tenantId))

def DeviceType.text : DeviceType → JsString
  | mobileAndroid => js "mobile_android"
  | mobileIos => js "mobile_ios"
  | kiosk => js "kiosk"
  | iotBridge => js "iot_bridge"
  | desktop => js "desktop"

def DeviceStatus.text : DeviceStatus → JsString
  | active => js "active"
  | inactive => js "inactive"
  | retired => js "retired"

/-! ## Devices -/

structure CreateDeviceInput where
  externalId : Option JsString
  name : JsString
  deviceType : Option DeviceType
  locationId : Option JsString
  batteryLevel : Option ℤ
  metadata : Option Json

def createDevice (tenantId environment : JsString) (input : CreateDeviceInput)
    (actor : Option AuditActor) : Program Device := do
  let externalId : JsString ← defaultExternalId (js "device") input.externalId
  let device : Device ← pool (.insertDevice tenantId environment
    { externalId := externalId
      name := trim input.name
      deviceType := input.deviceType.getD .kiosk
      locationId := input.locationId.bind fun s => orNull (trim s)
      batteryLevel := input.batteryLevel
      metadata := sanitizeMetadata input.metadata })
  auditDevice tenantId environment ((actor.map AuditActor.type).getD (js "api_key"))
    (actor.bind AuditActor.id) "device.created" device (js "Registered device " ++ device.externalId)
    ([(js "locationId", ofNullable device.locationId), (js "name", .str device.name),
      (js "deviceType", .str device.deviceType.text), (js "via", .str (js "trusted-service"))] ++
      actorMetadata actor)
  return device

structure IssueInput where
  name : JsString
  deviceType : DeviceType
  locationId : Option JsString
  metadata : Option Json

structure DeviceEnrollmentInvite where
  device : Device
  enrollmentCode : JsString
  expiresAt : ℕ

def issueEnrollmentCode (cfg : Settings) (tenantId environment : JsString) (input : IssueInput)
    (actor : Option AuditActor) : Program DeviceEnrollmentInvite := do
  let code : JsString ← generateEnrollmentCode
  let now : ℕ ← await .now
  let expiresAt := now + enrollmentCodeTtlMs
  -- a placeholder until the phone claims the slot
  let externalId : JsString ← defaultExternalId (js "pending") none
  let device : Device ← pool (.insertSlot tenantId environment
    { externalId := externalId
      name := trim input.name
      deviceType := input.deviceType
      codeHash := sha256Hex code
      expiresAt := expiresAt
      locationId := input.locationId.bind fun s => orNull (trim s)
      metadata := sanitizeMetadata input.metadata })
  auditDevice tenantId environment ((actor.map AuditActor.type).getD (js "console"))
    (actor.bind AuditActor.id) "device.enrollment_code_issued" device
    (js "Issued enrollment code for " ++ device.name)
    ([(js "deviceType", .str device.deviceType.text), (js "locationId", ofNullable device.locationId),
      (js "expiresAt", .str (cfg.toISOString expiresAt))] ++ actorMetadata actor)
  return ⟨device, code, expiresAt⟩

def regenerateEnrollmentCode (cfg : Settings) (tenantId environment deviceId : JsString)
    (actor : Option AuditActor) : Program (Option DeviceEnrollmentInvite) := do
  let code : JsString ← generateEnrollmentCode
  let now : ℕ ← await .now
  let expiresAt := now + enrollmentCodeTtlMs
  let device : Option Device ←
    pool (.reissueCode deviceId tenantId environment (sha256Hex code) expiresAt)
  match device with
  | none => return none
  | some device => do
      auditDevice tenantId environment ((actor.map AuditActor.type).getD (js "console"))
        (actor.bind AuditActor.id) "device.enrollment_code_reissued" device
        (js "Re-issued enrollment code for " ++ device.name)
        ((js "expiresAt", .str (cfg.toISOString expiresAt)) :: actorMetadata actor)
      return some ⟨device, code, expiresAt⟩

structure ClaimInput where
  enrollmentCode : JsString
  fingerprint : JsString
  attestationKind : Option JsString
  ip : Option JsString
  userAgent : Option JsString

/-- The part of `claimDeviceWithCode` inside `try`. -/
def claimBody (codeHash fpHash : JsString) (input : ClaimInput) : Program Device := do
  await .begin
  let found : Option Device ← query (.lockSlot codeHash)
  match found with
  | none => reject (.enrollmentClaim .codeNotFoundOrExpired)
  | some pending => do
      -- counted over committed rows and this transaction's own
      let collisions : ℕ ←
        query (.findCollision pending.tenantId pending.environment fpHash pending.id)
      if collisions > 0 then reject (.enrollmentClaim .fingerprintCollision)
      else do
        let updated : Option Device ← query (.claimSlot pending.id (deviceExternalId fpHash) fpHash
          (input.attestationKind.getD (js "none")))
        await .commit
        match updated with
        | none => throw (.other (js "Cannot read properties of undefined (reading 'tenant_id')"))
        | some device => do
            -- after the COMMIT
            auditDevice device.tenantId.text device.environment (js "device")
              (some device.id.text) "device.enrolled" device
              (js "Device " ++ device.name ++ js " enrolled")
              [(js "deviceType", .str device.deviceType.text),
                (js "attestationKind", ofNullable device.attestationKind),
                (js "enrollIp", ofNullable input.ip), (js "userAgent", ofNullable input.userAgent)]
            return device

def claimDeviceWithCode (cfg : Settings) (input : ClaimInput) : Program Device :=
  if !isValidFingerprint input.fingerprint then throw (.enrollmentClaim .invalidFingerprint)
  else withClient (claimBody
    (sha256Hex (normaliseEnrollmentCode cfg.caseMapping input.enrollmentCode))
    (fingerprintHash input.fingerprint) input)

def revokeDevice (tenantId environment deviceId : JsString) (actor : Option AuditActor) :
    Program (Option Device) := do
  let device : Option Device ← pool (.revoke deviceId tenantId environment)
  match device with
  | none => return none
  | some device => do
      auditDevice tenantId environment ((actor.map AuditActor.type).getD (js "console"))
        (actor.bind AuditActor.id) "device.revoked" device (js "Revoked device " ++ device.name)
        (actorMetadata actor)
      return some device

structure UpdateDeviceInput where
  name : Option JsString
  locationId : Option JsString
  batteryLevel : Option ℤ
  status : Option DeviceStatus
  metadata : Option Json
  lastSeenAt : Option JsString

/-- `value ? parseTimestamp(value).toISOString() : null`. -/
def parseLastSeen (cfg : Settings) : Option JsString → Except Failure (Option ℤ)
  | none | some [] => .ok none
  | some text =>
      match cfg.parseDate text with
      | some ms => .ok (some ms)
      | none => .error (.other (js "Invalid ISO timestamp"))

def updateDevice (cfg : Settings) (tenantId environment deviceId : JsString)
    (input : UpdateDeviceInput) (actor : Option AuditActor) : Program (Option Device) := do
  -- an unreadable date throws before the UPDATE
  let lastSeenAt : Option ℤ ← Prog.ofExcept (parseLastSeen cfg input.lastSeenAt)
  let device : Option Device ← pool (.updateDevice deviceId tenantId environment
    { name := input.name.bind fun s => orNull (trim s)
      locationId := input.locationId.bind fun s => orNull (trim s)
      batteryLevel := input.batteryLevel
      status := input.status
      metadata := metadataOrNull input.metadata
      lastSeenAt := lastSeenAt })
  match device with
  | none => return none
  | some device => do
      auditDevice tenantId environment ((actor.map AuditActor.type).getD (js "api_key"))
        (actor.bind AuditActor.id) "device.updated" device
        (js "Updated device " ++ device.externalId)
        ([(js "status", .str device.status.text),
          (js "batteryLevel", (device.batteryLevel.map fun n => .num (.ofInt n)).getD .null)] ++
          actorMetadata actor)
      return some device

/-! ## Users -/

/-- `void recordAuditEvent(…).catch(…)` about a user. -/
def auditUser (tenantId environment : JsString) (actor : Option AuditActor) (action : String)
    (user : TenantUser) (summary : JsString) (metadata : List (JsString × JsVal)) : Program Unit :=
  await (.spawn (AuditInput.payload
    { environment := some environment
      actorType := (actor.map AuditActor.type).getD (js "api_key")
      actorId := actor.bind AuditActor.id
      action := js action
      entityType := js "user"
      entityId := some user.id.text
      status := js "success"
      summary := summary
      metadata := .obj (metadata ++ actorMetadata actor) } tenantId))

/-- The device that the caller names as primary, if any. -/
def findPrimaryDevice (tenantId environment : JsString) (deviceId : Option JsString) :
    Program (Option Uuid) :=
  match deviceId.filter (· ≠ []) with
  | none => return none
  | some deviceId => do
      let device : Option Device ← pool (.selectDevice deviceId tenantId environment)
      match device with
      | none => throw (.other (js "Device not found for this tenant/environment"))
      | some device => return some device.id

/-- `s?.trim().toLowerCase() || null`. -/
def normaliseEmail (cfg : Settings) (email : Option JsString) : Option JsString :=
  email.bind fun s => orNull (cfg.caseMapping.toLowerCase (trim s))

structure CreateUserInput where
  externalId : Option JsString
  fullName : JsString
  email : Option JsString
  phone : Option JsString
  employeeCode : Option JsString
  primaryDeviceId : Option JsString
  metadata : Option Json

def createTenantUser (cfg : Settings) (tenantId environment : JsString) (input : CreateUserInput)
    (actor : Option AuditActor) : Program TenantUser := do
  let primaryDeviceId : Option Uuid ← findPrimaryDevice tenantId environment input.primaryDeviceId
  let externalId : JsString ← defaultExternalId (js "user") input.externalId
  let user : TenantUser ← pool (.insertUser tenantId environment
    { externalId := externalId
      fullName := trim input.fullName
      email := normaliseEmail cfg input.email
      phone := input.phone.bind fun s => orNull (trim s)
      employeeCode := input.employeeCode.bind fun s => orNull (trim s)
      primaryDeviceId := primaryDeviceId
      metadata := sanitizeMetadata input.metadata })
  auditUser tenantId environment actor "user.created" user (js "Enrolled user " ++ user.externalId)
    [(js "fullName", .str user.fullName),
      (js "primaryDeviceId", ofNullable (user.primaryDeviceId.map Uuid.text))]
  return user

structure UpdateUserInput where
  fullName : Option JsString
  email : Option JsString
  phone : Option JsString
  employeeCode : Option JsString
  status : Option JsString
  primaryDeviceId : Option JsString
  metadata : Option Json

def updateTenantUser (cfg : Settings) (tenantId environment userId : JsString)
    (input : UpdateUserInput) (actor : Option AuditActor) : Program (Option TenantUser) := do
  let primaryDeviceId : Option Uuid ← findPrimaryDevice tenantId environment input.primaryDeviceId
  let user : Option TenantUser ← pool (.updateUser userId tenantId environment
    { fullName := input.fullName.bind fun s => orNull (trim s)
      email := normaliseEmail cfg input.email
      phone := input.phone.bind fun s => orNull (trim s)
      employeeCode := input.employeeCode.bind fun s => orNull (trim s)
      status := input.status
      primaryDeviceId := primaryDeviceId
      metadata := metadataOrNull input.metadata })
  match user with
  | none => return none
  | some user => do
      auditUser tenantId environment actor "user.updated" user
        (js "Updated user " ++ user.externalId)
        [(js "status", .str user.status),
          (js "primaryDeviceId", ofNullable (user.primaryDeviceId.map Uuid.text))]
      return some user

/-- Lower-case hex digits, their number within the bounds. -/
def isHexRun (low high : ℕ) (s : JsString) : Bool :=
  low ≤ s.length && s.length ≤ high && s.all fun u => isDigit u || (97 ≤ u.val && u.val ≤ 102)

/-- `/^did:zeroauth:[a-z0-9…]+:[0-9a-f]{low,high}$/`, where `extra` are the units besides
    letters and digits that a method name may have. -/
def matchesDid (extra : List CodeUnit) (low high : ℕ) (did : JsString) : Bool :=
  let rest := did.drop (js "did:zeroauth:").length
  let method := rest.takeWhile fun u => (97 ≤ u.val && u.val ≤ 122) || isDigit u || extra.contains u
  (js "did:zeroauth:").isPrefixOf did && !method.isEmpty &&
    match rest.drop method.length with
    | 58 :: hex => isHexRun low high hex
    | _ => false

/-- `/^(0x)?[0-9a-f]{low,high}$/`. -/
def matchesCommitment (low high : ℕ) (s : JsString) : Bool :=
  isHexRun low high s || ((js "0x").isPrefixOf s && isHexRun low high (s.drop 2))

/-- `s.replace(/^0x/, '')`. -/
def withoutHexPrefix : JsString → JsString
  | 48 :: 120 :: s => s
  | s => s

structure FaceFirstRegistration where
  did : JsString
  commitment : JsString
  externalId : Option JsString

structure FaceFirstRegistrationResult where
  userId : Uuid
  did : JsString
  commitment : JsString
  createdAt : ℕ

def registerFaceFirstIdentity (cfg : Settings) (tenantId environment : JsString)
    (input : FaceFirstRegistration) : Program FaceFirstRegistrationResult :=
  if input.did = [] then
    throw (.identityValidation (js "invalid_did") (js "DID is required (string)."))
  -- both patterns ignore case
  else if !matchesDid [45] 20 80 (input.did.map asciiLower) then
    throw (.identityValidation (js "invalid_did_format")
      (js "DID must match did:zeroauth:<method>:<hex> pattern."))
  else if input.commitment = [] then
    throw (.identityValidation (js "invalid_commitment")
      (js "Commitment is required (hex string)."))
  else if !matchesCommitment 1 80 (input.commitment.map asciiLower) then
    throw (.identityValidation (js "invalid_commitment_format")
      (js "Commitment must be a hex string (0x-prefix optional)."))
  else do
    let taken : Bool ← pool (.findDid tenantId environment input.did)
    if taken = true then throw (.identityAlreadyExists input.did)
    else do
      let commitment := withoutHexPrefix (cfg.caseMapping.toLowerCase input.commitment)
      let row : TenantUser ← pool (.insertFaceFirst tenantId environment
        { externalId := input.externalId.getD input.did
          did := input.did
          commitment := commitment
          fullName := js "face-first" })
      return ⟨row.id, input.did, commitment, row.createdAt⟩

end ZeroAuth.Tenant
