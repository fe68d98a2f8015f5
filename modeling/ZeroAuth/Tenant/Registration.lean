/-
  ZeroAuth.Tenant.Registration

  The three-code registration ceremony of src/services/registration.ts.

  Every step after the first runs in one transaction: it locks the session that its
  code opens, works, and moves the session on, or rolls back.  A code is only
  accepted by the step it was minted for, because each step looks it up in a
  column of its own.
-/

import ZeroAuth.Js.Hex
import ZeroAuth.Tenant.Program

namespace ZeroAuth.Tenant

open ZeroAuth.Lib ZeroAuth.Js ZeroAuth.Pg
open ZeroAuth.Audit (AuditInput ChainedAuditPayload ofNullable)

/-- Whole-session TTL: 30 minutes. -/
def registrationSessionTtlMs : ℕ := 30 * 60 * 1000

/-- 62 hex characters, 31 bytes. -/
def challengeNonceHexLen : ℕ := 62

/-! ## Profiles and commitments -/

/-- `image|template|pixel|depth|frame|biometric|photo|raw[_-]?face|raw[_-]?finger`. -/
def forbiddenProfileKeyTokens : List JsString :=
  [js "image", js "template", js "pixel", js "depth", js "frame", js "biometric", js "photo",
    js "rawface", js "raw_face", js "raw-face", js "rawfinger", js "raw_finger", js "raw-finger"]

/-- One of the tokens stands at the head, up to the end or an underscore. -/
def tokenAtHead (s : JsString) : Bool :=
  forbiddenProfileKeyTokens.any fun token =>
    token.isPrefixOf s && match s.drop token.length with
      | [] => true
      | u :: _ => u == 95

/-- A token stands at the head, or somewhere after an underscore. -/
def hasToken (s : JsString) : Bool :=
  tokenAtHead s || s.tails.any fun tail => match tail with
    | 95 :: rest => tokenAtHead rest
    | _ => false

/-- `sanitizeProfile`: keys that name raw biometric data are dropped. -/
def sanitizeProfile : Option Json → List (JsString × Json)
  | some (.obj props) => props.filter fun p => !hasToken (p.1.map asciiLower)
  | _ => []

/-- A commitment given in hex, with or without `0x`, or in decimal.  Digits alone are read as
    decimal. -/
def parseCommitmentText (raw : JsString) : Option ℤ :=
  let trimmed := trim raw
  if trimmed = [] then none
  else if (js "0x").isPrefixOf trimmed || (js "0X").isPrefixOf trimmed then bigIntOf trimmed
  else if trimmed.any fun u => 97 ≤ (asciiLower u).val && (asciiLower u).val ≤ 102 then
    bigIntOf (js "0x" ++ trimmed)
  else bigIntOf trimmed

def parseCommitmentBigInt : Json → Option ℤ
  | .str raw => parseCommitmentText raw
  | _ => none

/-- Equal as numbers, not as strings. -/
def commitmentsEqual (a b : Json) : Bool :=
  match parseCommitmentBigInt a, parseCommitmentBigInt b with
  | some x, some y => x = y
  | _, _ => false

/-! ## The steps -/

/-- `void recordAuditEvent(…).catch(…)` about a session. -/
def auditSession (tenantId environment actorType : JsString) (actorId : Option JsString)
    (action : String) (entityType : String) (entityId : Uuid) (summary : String)
    (metadata : List (JsString × JsVal)) : Program Unit :=
  await (.spawn (AuditInput.payload
    { environment := some environment
      actorType := actorType
      actorId := actorId
      action := js action
      entityType := js entityType
      entityId := some entityId.text
      status := js "success"
      summary := js summary
      metadata := .obj metadata } tenantId))

/-! ## Deeplinks and the demo portal -/

/-- `DEMO_PORTAL_TENANT_ID`: a hash, shaped as a UUID. -/
@[irreducible] def demoPortalTenantId : JsString :=
  let h := sha256Hex (js "zeroauth-demo-portal-tenant-v1")
  h.take 8 ++ 45 :: (h.drop 8).take 4 ++ 45 :: 52 :: (h.drop 13).take 3 ++
    45 :: 56 :: (h.drop 17).take 3 ++ 45 :: (h.drop 20).take 12

def shouldCacheDemoCode (cfg : Settings) (tenantId : JsString) : Bool :=
  !cfg.production || tenantId = demoPortalTenantId

def Step.text : Step → JsString
  | pair => js "pair"
  | enroll => js "enroll"
  | verify => js "verify"

/-- The link in the QR code of a step.  Codes have no lone surrogates, so they can be
    encoded. -/
def stepDeeplink (step : Step) (sessionId : Uuid) (code : JsString)
    (challengeNonce : Option JsString) : JsString :=
  js "zeroauth://reg?step=" ++ step.text ++ js "&session=" ++ sessionId.text ++ js "&code=" ++
    (encodeURIComponent code).getD [] ++
    (challengeNonce.map (js "&challenge=" ++ ·)).getD []

/-- `if (shouldCacheDemoCode(…)) cachePendingDemoCode(…)`. -/
def cachePendingDemoCode (cfg : Settings) (tenantId : JsString) (sessionId : Uuid) (step : Step)
    (code : JsString) (challengeNonce : Option JsString) : Program Unit :=
  if shouldCacheDemoCode cfg tenantId then
    await (.cacheDemoCode sessionId.text step code (stepDeeplink step sessionId code challengeNonce)
      challengeNonce)
  else pure ()

structure RegistrationStartResult where
  session : RegistrationSession
  pairCode : JsString
  pairCodeExpiresAt : ℕ
  pairDeeplink : JsString

/-- Step 0: open a session and mint the pair code. -/
def startRegistration (cfg : Settings) (tenantId environment : JsString) (profile : Option Json)
    (actor : AuditActor) : Program RegistrationStartResult := do
  let code : JsString ← generateEnrollmentCode
  let now : ℕ ← await .now
  let codeExpiresAt := now + enrollmentCodeTtlMs
  let sessionExpiresAt := now + registrationSessionTtlMs
  let props := sanitizeProfile profile
  let session : RegistrationSession ← pool (.insertSession tenantId environment
    { profile := .obj props
      pairCodeHash := sha256Hex code
      pairCodeExpiresAt := codeExpiresAt
      expiresAt := sessionExpiresAt })
  auditSession tenantId environment actor.type actor.id "registration.started"
    "registration_session" session.id "Registration session opened"
    ([(js "profileKeys", .arr (props.map fun p => .str p.1)),
      (js "sessionExpiresAt", .str (cfg.toISOString sessionExpiresAt)),
      (js "pairCodeExpiresAt", .str (cfg.toISOString codeExpiresAt))] ++ actorMetadata (some actor))
  cachePendingDemoCode cfg tenantId session.id .pair code none
  return ⟨session, code, codeExpiresAt, stepDeeplink .pair session.id code none⟩

structure RegistrationStepResult where
  session : Option RegistrationSession
  nextCode : JsString
  nextCodeExpiresAt : ℕ
  nextDeeplink : JsString
  challengeNonce : Option JsString

structure PairInput where
  pairCode : JsString
  fingerprint : JsString
  attestationKind : Option JsString
  ip : Option JsString
  userAgent : Option JsString

/-- The part of `pairDeviceForRegistration` inside `try`. -/
def pairBody (cfg : Settings) (pairCodeHash fpHash nextCode : JsString) (nextCodeExpiresAt : ℕ)
    (input : PairInput) : Program RegistrationStepResult := do
  await .begin
  let found : Option RegistrationSession ← query (.lockSession .pair pairCodeHash)
  match found with
  | none => reject (.registrationState .codeNotFoundOrExpired)
  | some session => do
      -- the same phone may pair again, so its row is met again
      let device : Device ← query (.upsertDevice
        { tenantId := session.tenantId
          environment := session.environment
          externalId := deviceExternalId fpHash
          name := js "Registration device (" ++ session.id.text.take 8 ++ js ")"
          fpHash := fpHash
          attestationKind := input.attestationKind.getD (js "none")
          metadata := .obj [(js "via", .str (js "registration")),
            (js "sessionId", .str session.id.text)] })
      -- the pair code is spent and the enrolment code issued in one UPDATE
      let updated : Option RegistrationSession ←
        query (.attachDevice session.id device.id (sha256Hex nextCode) nextCodeExpiresAt)
      await .commit
      -- after the COMMIT, so an entry never stands for a change rolled back
      auditSession session.tenantId.text session.environment (js "device") (some device.id.text)
        "registration.device_paired" "registration_session" session.id
        "Phone paired to registration session"
        [(js "deviceId", .str device.id.text),
          (js "attestationKind", .str (input.attestationKind.getD (js "none"))),
          (js "ip", ofNullable input.ip), (js "userAgent", ofNullable input.userAgent)]
      cachePendingDemoCode cfg session.tenantId.text session.id .enroll nextCode none
      return ⟨updated, nextCode, nextCodeExpiresAt, stepDeeplink .enroll session.id nextCode none,
        none⟩

/-- Step 1: the phone presents the pair code and its fingerprint. -/
def pairDeviceForRegistration (cfg : Settings) (input : PairInput) :
    Program RegistrationStepResult :=
  if !isValidFingerprint input.fingerprint then throw (.registrationState .invalidFingerprint)
  else do
    let nextCode : JsString ← generateEnrollmentCode
    let now : ℕ ← await .now
    withClient (pairBody cfg (sha256Hex (normaliseEnrollmentCode cfg.caseMapping input.pairCode))
      (fingerprintHash input.fingerprint) nextCode (now + enrollmentCodeTtlMs) input)

structure CommitmentInput where
  enrollCode : JsString
  did : JsString
  commitment : JsString
  attestationKind : Option JsString

/-- The part of `submitCommitmentForRegistration` inside `try`. -/
def commitmentBody (cfg : Settings) (codeHash didNorm commitmentNorm nextCode : JsString)
    (nextCodeExpiresAt : ℕ) (challengeNonce : JsString) (input : CommitmentInput) :
    Program RegistrationStepResult := do
  await .begin
  let found : Option RegistrationSession ← query (.lockSession .enroll codeHash)
  match found with
  | none => reject (.registrationState .codeNotFoundOrExpired)
  | some session => do
      -- the enrolment code is spent and the verify code issued in one UPDATE
      let updated : Option RegistrationSession ← query (.attachCommitment session.id didNorm
        commitmentNorm (sha256Hex nextCode) nextCodeExpiresAt challengeNonce)
      await .commit
      auditSession session.tenantId.text session.environment (js "device")
        (session.deviceId.map Uuid.text) "registration.commitment_submitted" "registration_session"
        session.id "Commitment received from device"
        [(js "did", .str didNorm), (js "commitmentPrefix", .str (commitmentNorm.take 16)),
          (js "attestationKind", .str (input.attestationKind.getD (js "none")))]
      cachePendingDemoCode cfg session.tenantId.text session.id .verify nextCode
        (some challengeNonce)
      return ⟨updated, nextCode, nextCodeExpiresAt,
        stepDeeplink .verify session.id nextCode (some challengeNonce), some challengeNonce⟩

/-- Step 2: the phone presents the enroll code with its DID and commitment. -/
def submitCommitmentForRegistration (cfg : Settings) (input : CommitmentInput) :
    Program RegistrationStepResult :=
  let didNorm := cfg.caseMapping.toLowerCase (trim input.did)
  let commitmentNorm := cfg.caseMapping.toLowerCase (trim input.commitment)
  if !matchesDid [95, 45] 8 80 didNorm then throw (.registrationState .invalidCommitment)
  else if !matchesCommitment 32 128 commitmentNorm then
    throw (.registrationState .invalidCommitment)
  else do
    let nextCode : JsString ← generateEnrollmentCode
    let now : ℕ ← await .now
    let nonceBytes : List UInt8 ← await (.randomBytes (challengeNonceHexLen / 2))
    withClient (commitmentBody cfg
      (sha256Hex (normaliseEnrollmentCode cfg.caseMapping input.enrollCode)) didNorm commitmentNorm
      nextCode (now + enrollmentCodeTtlMs) (hexBytes nonceBytes) input)

/-- The request of the last step; a missing field is `null`. -/
structure CompleteInput where
  verifyCode : Json
  challengeNonce : Json
  proof : Json
  publicSignals : Json

structure RegistrationCompleteResult where
  session : Option RegistrationSession
  tenantUser : TenantUser
  device : Option Device

/-- `typeof value === 'string' ? value : null`. -/
def stringProp (profile : Json) (key : String) : Option JsString :=
  match profile.get? (js key) with
  | some (.str s) => some s
  | _ => none

/-- The parameters of the INSERT into `tenant_users`. -/
def registeredUser (cfg : Settings) (session : RegistrationSession) (commitment : ℤ) :
    RegisteredUser :=
  { tenantId := session.tenantId
    environment := session.environment
    externalId := js "user_" ++ (session.id.text.take 12).filter (· ≠ 45)
    fullName := ((stringProp session.profile "full_name").or
      (stringProp session.profile "name")).getD (js "Unnamed")
    email := (stringProp session.profile "email").map cfg.caseMapping.toLowerCase
    phone := stringProp session.profile "phone"
    employeeCode := stringProp session.profile "employee_code"
    primaryDeviceId := session.deviceId
    did := session.did
    commitment := session.commitment
    metadata := .obj
      [(js "via", .str (js "registration")), (js "sessionId", .str session.id.text),
        (js "did", (session.did.map Json.str).getD .null),
        (js "did_hash", .str (signedText 10 (cfg.poseidon1 commitment))),
        (js "commitment", .str (signedText 10 commitment))] }

/-- From the accepted proof to the end of the transaction. -/
def finishRegistration (cfg : Settings) (session : RegistrationSession) (stored : JsString) :
    Program RegistrationCompleteResult :=
  match parseCommitmentText stored with
  | none => throw (.registrationState .commitmentMismatch)
  | some commitment => do
      -- user and session change in one transaction
      let tenantUser : TenantUser ← query (.registerUser (registeredUser cfg session commitment))
      let updated : Option RegistrationSession ← query (.completeSession session.id tenantUser.id)
      let device : Option Device ← match session.deviceId with
        | some id => query (.selectDeviceById id)
        | none => pure none
      await .commit
      auditSession session.tenantId.text session.environment (js "device")
        (session.deviceId.map Uuid.text) "registration.completed" "tenant_user" tenantUser.id
        "Registration ceremony complete; tenant_user created"
        [(js "sessionId", .str session.id.text),
          (js "deviceId", ofNullable (session.deviceId.map Uuid.text)),
          (js "did", ofNullable session.did)]
      return ⟨updated, tenantUser, device⟩

/-- The part of `completeRegistration` inside `try`. -/
def completeBody (cfg : Settings) (codeHash challengeNonce : JsString) (proof : Json)
    (signals : List Json) : Program RegistrationCompleteResult := do
  await .begin
  let found : Option RegistrationSession ← query (.lockSession .verify codeHash)
  match found with
  | none => reject (.registrationState .codeNotFoundOrExpired)
  | some session =>
      if session.verifyChallengeNonce ≠ some challengeNonce then
        reject (.registrationState .challengeMismatch)
      else
        match session.commitment.filter (· ≠ []) with
        | none => reject (.registrationState .commitmentMismatch)
        | some stored =>
            if !commitmentsEqual (signals.headD .null) (.str stored) then
              reject (.registrationState .commitmentMismatch)
            else do
              -- the heavy lift, inside the open transaction
              let ok : Bool ← await (.verifyProof proof (.arr signals))
              if ok = false then reject (.registrationState .proofVerificationFailed)
              else finishRegistration cfg session stored

/-- Step 3: the phone presents the verify code, the nonce and a proof. -/
def completeRegistration (cfg : Settings) (input : CompleteInput) :
    Program RegistrationCompleteResult :=
  match input.verifyCode with
  | .str (u :: verifyCode) =>
      match input.challengeNonce with
      | .str (v :: challengeNonce) =>
          match input.publicSignals with
          | .arr (signal :: signals) =>
              withClient (completeBody cfg
                (sha256Hex (normaliseEnrollmentCode cfg.caseMapping (u :: verifyCode)))
                (v :: challengeNonce) input.proof (signal :: signals))
          | _ => throw (.registrationState .proofVerificationFailed)
      | _ => throw (.registrationState .challengeMismatch)
  | _ => throw (.registrationState .codeNotFoundOrExpired)

/-- The tenant voids the codes of a session that is not over. -/
def abandonRegistration (tenantId environment sessionId : JsString) (actor : AuditActor) :
    Program (Option RegistrationSession) := do
  let session : Option RegistrationSession ←
    pool (.abandonSession sessionId tenantId environment)
  match session with
  | none => return none
  | some session => do
      auditSession tenantId environment actor.type actor.id "registration.abandoned"
        "registration_session" session.id "Registration session abandoned"
        (actorMetadata (some actor))
      return some session

/-- What the signup page is answered: the state, the link of the QR code that it is to
    show, and the step that this belongs to. -/
structure SignupView where
  state : RegistrationState
  currentDeeplink : Option JsString
  currentStep : Option Step

/-- GET /signup/:id of the demo portal; `none` is its 404. -/
def getSignup (sessionId : JsString) : Program (Option SignupView) := do
  let session : Option RegistrationSession ←
    pool (.selectSession sessionId demoPortalTenantId (js "live"))
  match session with
  | none => return none
  | some session => do
      let pending : Option DemoPendingCode ← await (.peekDemoCode sessionId)
      return some ⟨session.state, pending.map DemoPendingCode.deeplink,
        pending.map DemoPendingCode.step⟩

end ZeroAuth.Tenant
