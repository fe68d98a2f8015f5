/-
  ZeroAuth.Tenant.Rows

  Rows of `devices`, `registration_sessions` and `tenant_users`, and what the
  statements of src/services/platform.ts, src/services/registration.ts and
  src/services/identity.ts insert into them or set in them.

  The three tables are one `Lib.Keyed` table: a row's id names its table, and
  its names are the columns of the unique indexes (`external_id` of a device,
  `external_id` and `did` of a user, all per tenant and environment).
-/

import ZeroAuth.Lib.Table
import ZeroAuth.Pg.Columns
import ZeroAuth.Tenant.Enrollment

namespace ZeroAuth.Tenant

open ZeroAuth.Lib ZeroAuth.Js ZeroAuth.Pg

/-! ## Devices -/

inductive DeviceStatus
  | active
  | inactive
  | retired
  deriving DecidableEq

inductive DeviceEnrollmentState
  | pending
  | enrolled
  | revoked
  deriving DecidableEq

inductive DeviceType
  | mobileAndroid
  | mobileIos
  | kiosk
  | iotBridge
  | desktop
  deriving DecidableEq

structure Device where
  id : Uuid
  tenantId : Uuid
  environment : JsString
  externalId : JsString
  name : JsString
  deviceType : DeviceType
  locationId : Option JsString
  status : DeviceStatus
  enrollmentState : DeviceEnrollmentState
  enrollmentCodeHash : Option JsString
  enrollmentCodeExpiresAt : Option ℕ
  enrolledAt : Option ℕ
  fingerprintHash : Option JsString
  attestationKind : Option JsString
  batteryLevel : Option ℤ
  metadata : Json
  lastSeenAt : Option ℤ
  createdAt : ℕ
  updatedAt : ℕ

/-- The values of the INSERT in `createDevice`. -/
structure NewDevice where
  externalId : JsString
  name : JsString
  deviceType : DeviceType
  locationId : Option JsString
  batteryLevel : Option ℤ
  metadata : Json

/-- The values of the INSERT in `issueEnrollmentCode`. -/
structure NewSlot where
  externalId : JsString
  name : JsString
  deviceType : DeviceType
  codeHash : JsString
  expiresAt : ℕ
  locationId : Option JsString
  metadata : Json

/-- The values of the upsert in `pairDeviceForRegistration`. -/
structure PairedDevice where
  tenantId : Uuid
  environment : JsString
  externalId : JsString
  name : JsString
  fpHash : JsString
  attestationKind : JsString
  metadata : Json

/-- The values of the UPDATE in `updateDevice`; NULL keeps the column. -/
structure DeviceUpdate where
  name : Option JsString
  locationId : Option JsString
  batteryLevel : Option ℤ
  status : Option DeviceStatus
  metadata : Option Json
  lastSeenAt : Option ℤ

def NewDevice.row (v : NewDevice) (id tenantId : Uuid) (environment : JsString) (now : ℕ) :
    Device :=
  { id := id
    tenantId := tenantId
    environment := environment
    externalId := v.externalId
    name := v.name
    deviceType := v.deviceType
    locationId := v.locationId
    status := .active
    enrollmentState := .enrolled
    enrollmentCodeHash := none
    enrollmentCodeExpiresAt := none
    enrolledAt := some now
    fingerprintHash := none
    attestationKind := none
    batteryLevel := v.batteryLevel
    metadata := v.metadata
    lastSeenAt := some now
    createdAt := now
    updatedAt := now }

def NewSlot.row (v : NewSlot) (id tenantId : Uuid) (environment : JsString) (now : ℕ) : Device :=
  { id := id
    tenantId := tenantId
    environment := environment
    externalId := v.externalId
    name := v.name
    deviceType := v.deviceType
    locationId := v.locationId
    status := .active
    enrollmentState := .pending
    enrollmentCodeHash := some v.codeHash
    enrollmentCodeExpiresAt := some v.expiresAt
    enrolledAt := none
    fingerprintHash := none
    attestationKind := none
    batteryLevel := none
    metadata := v.metadata
    lastSeenAt := none
    createdAt := now
    updatedAt := now }

/-- The row that the upsert inserts. -/
def PairedDevice.row (v : PairedDevice) (id : Uuid) (now : ℕ) : Device :=
  { id := id
    tenantId := v.tenantId
    environment := v.environment
    externalId := v.externalId
    name := v.name
    deviceType := .mobileAndroid
    locationId := none
    status := .active
    enrollmentState := .enrolled
    enrollmentCodeHash := none
    enrollmentCodeExpiresAt := none
    enrolledAt := some now
    fingerprintHash := some v.fpHash
    attestationKind := some v.attestationKind
    batteryLevel := none
    metadata := v.metadata
    lastSeenAt := some now
    createdAt := now
    updatedAt := now }

namespace Device

/-- `ON CONFLICT … DO UPDATE SET` of the upsert. -/
def reenrolled (v : PairedDevice) (now : ℕ) (d : Device) : Device :=
  { d with
    enrollmentState := .enrolled
    fingerprintHash := some v.fpHash
    attestationKind := some v.attestationKind
    lastSeenAt := some now
    metadata := v.metadata
    updatedAt := now }

/-- The SET clause of `regenerateEnrollmentCode`. -/
def reissued (codeHash : JsString) (expiresAt now : ℕ) (d : Device) : Device :=
  { d with
    enrollmentCodeHash := some codeHash
    enrollmentCodeExpiresAt := some expiresAt
    updatedAt := now }

/-- The SET clause of `claimDeviceWithCode`. -/
def claimed (externalId fpHash attestationKind : JsString) (now : ℕ) (d : Device) : Device :=
  { d with
    externalId := externalId
    fingerprintHash := some fpHash
    attestationKind := some attestationKind
    enrollmentState := .enrolled
    enrolledAt := some now
    enrollmentCodeHash := none
    enrollmentCodeExpiresAt := none
    lastSeenAt := some now
    updatedAt := now }

/-- The SET clause of `revokeDevice`. -/
def revoked (now : ℕ) (d : Device) : Device :=
  { d with
    enrollmentState := .revoked
    status := .retired
    enrollmentCodeHash := none
    enrollmentCodeExpiresAt := none
    updatedAt := now }

/-- The SET clause of `updateDevice`. -/
def updated (v : DeviceUpdate) (now : ℕ) (d : Device) : Device :=
  { d with
    name := v.name.getD d.name
    locationId := v.locationId.or d.locationId
    batteryLevel := v.batteryLevel.or d.batteryLevel
    status := v.status.getD d.status
    metadata := v.metadata.getD d.metadata
    lastSeenAt := v.lastSeenAt.or d.lastSeenAt
    updatedAt := now }

/-- `id = $1 AND tenant_id = $2 AND environment = $3`. -/
def isOwn (id tenantId : Uuid) (environment : JsString) (d : Device) : Bool :=
  d.id = id ∧ d.tenantId = tenantId ∧ d.environment = environment

/-- `enrollment_code_hash = $1 AND enrollment_state = 'pending' AND
    enrollment_code_expires_at > NOW()`. -/
def claimable (codeHash : JsString) (now : ℕ) (d : Device) : Bool :=
  d.enrollmentCodeHash = some codeHash ∧ d.enrollmentState = .pending ∧
    d.enrollmentCodeExpiresAt.any (· > now)

end Device

/-! ## Registration sessions -/

inductive RegistrationState
  | awaitingDevice
  | awaitingCommitment
  | awaitingVerification
  | completed
  | abandoned
  deriving DecidableEq

structure RegistrationSession where
  id : Uuid
  tenantId : Uuid
  environment : JsString
  profile : Json
  state : RegistrationState
  deviceId : Option Uuid
  did : Option JsString
  commitment : Option JsString
  tenantUserId : Option Uuid
  pairCodeHash : Option JsString
  pairCodeExpiresAt : Option ℕ
  enrollCodeHash : Option JsString
  enrollCodeExpiresAt : Option ℕ
  verifyCodeHash : Option JsString
  verifyCodeExpiresAt : Option ℕ
  verifyChallengeNonce : Option JsString
  expiresAt : ℕ
  createdAt : ℕ
  updatedAt : ℕ

/-- The values of the INSERT in `startRegistration`. -/
structure NewRegistration where
  profile : Json
  pairCodeHash : JsString
  pairCodeExpiresAt : ℕ
  expiresAt : ℕ

def NewRegistration.row (v : NewRegistration) (id tenantId : Uuid) (environment : JsString)
    (now : ℕ) : RegistrationSession :=
  { id := id
    tenantId := tenantId
    environment := environment
    profile := v.profile
    state := .awaitingDevice
    deviceId := none
    did := none
    commitment := none
    tenantUserId := none
    pairCodeHash := some v.pairCodeHash
    pairCodeExpiresAt := some v.pairCodeExpiresAt
    enrollCodeHash := none
    enrollCodeExpiresAt := none
    verifyCodeHash := none
    verifyCodeExpiresAt := none
    verifyChallengeNonce := none
    expiresAt := v.expiresAt
    createdAt := now
    updatedAt := now }

/-- The three steps of the ceremony, each with a code of its own. -/
inductive Step
  | pair
  | enroll
  | verify
  deriving DecidableEq

namespace RegistrationSession

/-- The SET clause of `pairDeviceForRegistration`. -/
def paired (deviceId : Uuid) (codeHash : JsString) (expiresAt now : ℕ) (s : RegistrationSession) :
    RegistrationSession :=
  { s with
    deviceId := some deviceId
    state := .awaitingCommitment
    pairCodeHash := none
    pairCodeExpiresAt := none
    enrollCodeHash := some codeHash
    enrollCodeExpiresAt := some expiresAt
    updatedAt := now }

/-- The SET clause of `submitCommitmentForRegistration`. -/
def committed (did commitment codeHash : JsString) (expiresAt : ℕ) (nonce : JsString) (now : ℕ)
    (s : RegistrationSession) : RegistrationSession :=
  { s with
    did := some did
    commitment := some commitment
    enrollCodeHash := none
    enrollCodeExpiresAt := none
    verifyCodeHash := some codeHash
    verifyCodeExpiresAt := some expiresAt
    verifyChallengeNonce := some nonce
    state := .awaitingVerification
    updatedAt := now }

/-- The SET clause of `completeRegistration`. -/
def completed (userId : Uuid) (now : ℕ) (s : RegistrationSession) : RegistrationSession :=
  { s with
    tenantUserId := some userId
    state := .completed
    verifyCodeHash := none
    verifyCodeExpiresAt := none
    verifyChallengeNonce := none
    updatedAt := now }

/-- The SET clause of `abandonRegistration`. -/
def abandoned (now : ℕ) (s : RegistrationSession) : RegistrationSession :=
  { s with
    state := if s.state = .completed ∨ s.state = .abandoned then s.state else .abandoned
    pairCodeHash := none
    pairCodeExpiresAt := none
    enrollCodeHash := none
    enrollCodeExpiresAt := none
    verifyCodeHash := none
    verifyCodeExpiresAt := none
    verifyChallengeNonce := none
    updatedAt := now }

def isOwn (id tenantId : Uuid) (environment : JsString) (s : RegistrationSession) : Bool :=
  s.id = id ∧ s.tenantId = tenantId ∧ s.environment = environment

/-- The row is in `state` and its code for this step is alive. -/
def opens (s : RegistrationSession) (state : RegistrationState) (hash : Option JsString)
    (expiresAt : Option ℕ) (codeHash : JsString) (now : ℕ) : Bool :=
  hash = some codeHash ∧ s.state = state ∧ expiresAt.any (· > now) ∧ s.expiresAt > now

/-- The WHERE clause of the locking SELECT of each step. -/
def accepts (step : Step) (codeHash : JsString) (now : ℕ) (s : RegistrationSession) : Bool :=
  match step with
  | .pair => s.opens .awaitingDevice s.pairCodeHash s.pairCodeExpiresAt codeHash now
  | .enroll => s.opens .awaitingCommitment s.enrollCodeHash s.enrollCodeExpiresAt codeHash now
  | .verify => s.opens .awaitingVerification s.verifyCodeHash s.verifyCodeExpiresAt codeHash now

end RegistrationSession

/-- The plaintext code of the demo portal that a session waits for. -/
structure DemoPendingCode where
  step : Step
  code : JsString
  deeplink : JsString
  challengeNonce : Option JsString
  expiresAt : ℕ

/-! ## Users -/

/-- Registration creates them, pairing looks them up. -/
structure TenantUser where
  id : Uuid
  tenantId : Uuid
  environment : JsString
  externalId : JsString
  fullName : JsString
  email : Option JsString
  phone : Option JsString
  employeeCode : Option JsString
  status : JsString
  primaryDeviceId : Option Uuid
  did : Option JsString
  commitment : Option JsString
  metadata : Json
  lastVerifiedAt : Option ℤ
  createdAt : ℕ
  updatedAt : ℕ

/-- The values of the INSERT in `createTenantUser`. -/
structure NewTenantUser where
  externalId : JsString
  fullName : JsString
  email : Option JsString
  phone : Option JsString
  employeeCode : Option JsString
  primaryDeviceId : Option Uuid
  metadata : Json

/-- The values of the INSERT in `completeRegistration`. -/
structure RegisteredUser where
  tenantId : Uuid
  environment : JsString
  externalId : JsString
  fullName : JsString
  email : Option JsString
  phone : Option JsString
  employeeCode : Option JsString
  primaryDeviceId : Option Uuid
  did : Option JsString
  commitment : Option JsString
  metadata : Json

/-- The values of the INSERT in `registerFaceFirstIdentity`. -/
structure FaceFirstUser where
  externalId : JsString
  did : JsString
  commitment : JsString
  fullName : JsString

/-- The values of the UPDATE in `updateTenantUser`; NULL keeps the column. -/
structure UserUpdate where
  fullName : Option JsString
  email : Option JsString
  phone : Option JsString
  employeeCode : Option JsString
  status : Option JsString
  primaryDeviceId : Option Uuid
  metadata : Option Json

def NewTenantUser.row (v : NewTenantUser) (id tenantId : Uuid) (environment : JsString)
    (now : ℕ) : TenantUser :=
  { id := id
    tenantId := tenantId
    environment := environment
    externalId := v.externalId
    fullName := v.fullName
    email := v.email
    phone := v.phone
    employeeCode := v.employeeCode
    status := js "active"
    primaryDeviceId := v.primaryDeviceId
    did := none
    commitment := none
    metadata := v.metadata
    lastVerifiedAt := none
    createdAt := now
    updatedAt := now }

def RegisteredUser.row (v : RegisteredUser) (id : Uuid) (now : ℕ) : TenantUser :=
  { id := id
    tenantId := v.tenantId
    environment := v.environment
    externalId := v.externalId
    fullName := v.fullName
    email := v.email
    phone := v.phone
    employeeCode := v.employeeCode
    status := js "active"
    primaryDeviceId := v.primaryDeviceId
    did := v.did
    commitment := v.commitment
    metadata := v.metadata
    lastVerifiedAt := some now
    createdAt := now
    updatedAt := now }

def FaceFirstUser.row (v : FaceFirstUser) (id tenantId : Uuid) (environment : JsString)
    (now : ℕ) : TenantUser :=
  { id := id
    tenantId := tenantId
    environment := environment
    externalId := v.externalId
    fullName := v.fullName
    email := none
    phone := none
    employeeCode := none
    status := js "active"
    primaryDeviceId := none
    did := some v.did
    commitment := some v.commitment
    metadata := .obj []
    lastVerifiedAt := none
    createdAt := now
    updatedAt := now }

namespace TenantUser

/-- The SET clause of `updateTenantUser`. -/
def updated (v : UserUpdate) (now : ℕ) (u : TenantUser) : TenantUser :=
  { u with
    fullName := v.fullName.getD u.fullName
    email := v.email.or u.email
    phone := v.phone.or u.phone
    employeeCode := v.employeeCode.or u.employeeCode
    status := v.status.getD u.status
    primaryDeviceId := v.primaryDeviceId.or u.primaryDeviceId
    metadata := v.metadata.getD u.metadata
    updatedAt := now }

def isOwn (id tenantId : Uuid) (environment : JsString) (u : TenantUser) : Bool :=
  u.id = id ∧ u.tenantId = tenantId ∧ u.environment = environment

end TenantUser

/-! ## One table -/

inductive Row
  | device (d : Device)
  | session (s : RegistrationSession)
  | user (u : TenantUser)

inductive RowId
  | device (id : Uuid)
  | session (id : Uuid)
  | user (id : Uuid)
  deriving DecidableEq

/-- An entry of a unique index. -/
inductive Name
  | device (tenantId : Uuid) (environment externalId : JsString)
  | user (tenantId : Uuid) (environment externalId : JsString)
  | did (tenantId : Uuid) (environment did : JsString)
  deriving DecidableEq

namespace Row

def id : Row → RowId
  | device d => .device d.id
  | session s => .session s.id
  | user u => .user u.id

/-- `did` is indexed `WHERE did IS NOT NULL`. -/
def names : Row → List Name
  | device d => [.device d.tenantId d.environment d.externalId]
  | session _ => []
  | user u =>
      .user u.tenantId u.environment u.externalId ::
        (u.did.map (Name.did u.tenantId u.environment)).toList

def device? : Row → Option Device
  | device d => some d
  | _ => none

def session? : Row → Option RegistrationSession
  | session s => some s
  | _ => none

def user? : Row → Option TenantUser
  | user u => some u
  | _ => none

end Row

abbrev Key := RowKey RowId Name

abbrev Write := RowWrite Row

/-- The tables. -/
abbrev Db := List Row

def tables : Keyed Row RowId Name := ⟨Row.id, Row.names⟩

def Db.devices (db : Db) : List Device := db.filterMap Row.device?

def Db.sessions (db : Db) : List RegistrationSession := db.filterMap Row.session?

def Db.users (db : Db) : List TenantUser := db.filterMap Row.user?

theorem mem_devices {db : Db} {d : Device} : d ∈ Db.devices db ↔ Row.device d ∈ db := by
  rw [Db.devices, List.mem_filterMap]
  constructor
  · rintro ⟨r, hr, heq⟩
    cases r <;> cases heq
    exact hr
  · exact fun h => ⟨_, h, rfl⟩

theorem mem_sessions {db : Db} {s : RegistrationSession} :
    s ∈ Db.sessions db ↔ Row.session s ∈ db := by
  rw [Db.sessions, List.mem_filterMap]
  constructor
  · rintro ⟨r, hr, heq⟩
    cases r <;> cases heq
    exact hr
  · exact fun h => ⟨_, h, rfl⟩

theorem mem_users {db : Db} {u : TenantUser} : u ∈ Db.users db ↔ Row.user u ∈ db := by
  rw [Db.users, List.mem_filterMap]
  constructor
  · rintro ⟨r, hr, heq⟩
    cases r <;> cases heq
    exact hr
  · exact fun h => ⟨_, h, rfl⟩

end ZeroAuth.Tenant
