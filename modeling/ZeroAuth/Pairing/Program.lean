/-
  ZeroAuth.Pairing.Program

  `createSession`, `submitProof`, `expireOverdueSessions` and the reads of
  src/services/proof-pairing.ts as programs over what they await.

  Reading the clock and drawing random values are operations too: between the
  answer to a query and the code that reads the clock next, time has passed.
  `void f().catch(…)` starts work that nobody awaits (`Op.spawn`).  The claim commits
  when it is carried out, and only then is its answer on the way (`Op.answer`).
-/

import ZeroAuth.Lib.Async
import ZeroAuth.Pairing.Session

namespace ZeroAuth.Pairing

open ZeroAuth.Lib ZeroAuth.Js ZeroAuth.Pg ZeroAuth.Audit

/-! ## Operations -/

/-- The values of the INSERT in `createSession`. -/
structure NewSession where
  id : Uuid
  tenantId : JsString
  environment : JsString
  apiKeyId : Option JsString
  nonceHex : JsString
  sessionBindTokenHash : JsString
  desktopIp : Option JsString
  desktopUserAgent : Option JsString
  expiresAt : ℕ

/-- The body of the request to the verifier. -/
structure VerifierRequest where
  proof : Json
  publicSignals : Json
  tenantId : JsString
  environment : JsString
  correlationId : JsString

/-- The verifier's answer: the HTTP status and, when it is ok, the body. -/
structure VerifierReply where
  ok : Bool
  status : ℕ
  verified : Bool
  structuralFallback : Bool

/-- The claims that `issueTokens` signs. -/
structure TokenPayload where
  sub : Uuid
  sessionId : Uuid
  provider : JsString
  verified : Bool
  did : JsString

/-- A pair of tokens; `iat` is the time of issue that both carry. -/
structure AuthToken where
  accessToken : JsString
  refreshToken : JsString
  expiresIn : ℕ
  iat : ℕ

/-- Work that is started and not awaited. -/
inductive Job
  | audit (payload : ChainedAuditPayload)
  | setProofHash (sessionId proofHash : JsString)

inductive Op
  | now
  | uuidv4
  | randomBytes (n : ℕ)
  | countOpen (tenantId environment : JsString)
  | insertSession (values : NewSession)
  | selectSession (sessionId tenantId environment : JsString)
  | selectSessionId (sessionId : JsString)
  | selectPolicy (tenantId : JsString)
  | selectUser (tenantId environment did : JsString)
  | incrementFailure (sessionId errorCode : JsString)
  | claim (sessionId : JsString) (userId : Uuid)
  | expireOverdue
  | fetchVerifier (request : VerifierRequest)
  | groth16Verify (proof publicSignals : Json)
  | issueTokens (payload : TokenPayload)
  | appendAudit (payload : ChainedAuditPayload)
  | spawn (job : Job)
  | sleep (ms : ℕ)
  | answer

/-- `selectUser` answers id and metadata, `incrementFailure` the new count of the
    row that matched, `claim` the row it changed, `expireOverdue` the id, tenant
    and environment of every row it changed, and `answer` that what the statement
    before it said has arrived. -/
def Op.Resp : Op → Type
  | now => ℕ
  | uuidv4 => Uuid
  | randomBytes _ => List UInt8
  | countOpen _ _ => ℕ
  | selectSession _ _ _ => Option SessionRow
  | selectSessionId _ => Bool
  | selectPolicy _ => Option Json
  | selectUser _ _ _ => Option (Uuid × Json)
  | incrementFailure _ _ => Option ℕ
  | claim _ _ => Option SessionRow
  | expireOverdue => List (Uuid × Uuid × JsString)
  | fetchVerifier _ => VerifierReply
  | groth16Verify _ _ => Bool
  | issueTokens _ => AuthToken
  | _ => Unit

abbrev sig : Sig := ⟨Op, Op.Resp⟩

abbrev Program (α : Type) := Prog sig Failure α

/-- Await one operation. -/
abbrev await (o : Op) : Program o.Resp := Prog.perform (S := sig) o

def recordAuditEvent (tenantId : JsString) (input : AuditInput) : Program Unit :=
  await (.appendAudit (input.payload tenantId))

/-- `….catch(() => undefined)`. -/
def ignoreFailure (p : Program Unit) : Program Unit := p.tryCatch fun _ => .ret ()

/-! ## Opening a session -/

/-- The deployment: the host name in QR codes, the verifier's URL if there is
    one, whether `initZKP` has loaded snarkjs and a verification key, and the hash of
    two field elements. -/
structure Settings where
  tenantDomain : JsString
  verifierUrl : Option JsString
  verificationKey : Bool
  poseidon2 : ℤ → ℤ → ℤ

structure CreateInput where
  tenantId : JsString
  environment : JsString
  apiKeyId : Option JsString
  desktopIp : Option JsString
  desktopUserAgent : Option JsString

structure CreateSessionResult where
  id : Uuid
  nonce : JsString
  sessionBindToken : JsString
  expiresAt : ℕ
  qrPayload : JsString

def createSession (cfg : Settings) (input : CreateInput) : Program CreateSessionResult := do
  let count : ℕ ← await (.countOpen input.tenantId input.environment)
  -- the count and the INSERT below are two statements, in no transaction
  if count ≥ maxPendingSessionsPerTenant then
    .raise (.pairing .tooManyPendingSessions (js "tenant has 50+ open pairing sessions"))
  else do
    let id : Uuid ← await .uuidv4
    let nonceBytes : List UInt8 ← await (.randomBytes 31)
    let nonceHex := hexBytes nonceBytes
    let bindBytes : List UInt8 ← await (.randomBytes 32)
    let bindToken := base64url bindBytes
    let now : ℕ ← await .now
    let expiresAt := now + sessionTtlMs
    await (.insertSession
      { id := id
        tenantId := input.tenantId
        environment := input.environment
        apiKeyId := input.apiKeyId
        nonceHex := nonceHex
        sessionBindTokenHash := sha256Hex bindToken
        desktopIp := input.desktopIp
        desktopUserAgent := input.desktopUserAgent.bind fun agent =>
          if agent = [] then none else some (agent.take 512)
        expiresAt := expiresAt })
    -- `void recordAuditEvent(…)`: not awaited
    let qrPayload := buildQrPayload (Uuid.text id) nonceHex cfg.tenantDomain
    await (.spawn (.audit (AuditInput.payload
      { environment := some input.environment
        actorType := if input.apiKeyId.any (· ≠ []) then js "api_key" else js "console"
        actorId := input.apiKeyId
        action := js "pairing.created"
        entityType := js "pairing_session"
        entityId := some (Uuid.text id)
        status := js "success"
        summary := js "Pairing session opened"
        metadata := .obj [(js "qrPayloadBytes", .ofJson (.num (.ofInt qrPayload.length)))] }
      input.tenantId)))
    return ⟨id, nonceHex, bindToken, expiresAt, qrPayload⟩

/-! ## Submitting a proof -/

structure SubmitInput where
  sessionId : JsString
  tenantId : JsString
  environment : JsString
  did : JsString
  proof : Json
  publicSignals : Json
  clientMeta : Json
  presentedSessionBindToken : Option JsString

/-- `rowToPublicView`, with the two fields that `submitProof` adds. -/
structure SessionPublicView where
  id : Uuid
  state : SessionState
  expiresAt : ℕ
  boundAt : Option ℕ
  userId : Option Uuid
  did : Option JsString

def rowToPublicView (row : SessionRow) : SessionPublicView :=
  ⟨row.id, row.state, row.expiresAt, row.consumedAt, row.consumedUserId, none⟩

structure SubmitResult where
  session : SessionPublicView
  verificationId : Uuid
  tokens : AuthToken

structure StoredUserCommitment where
  id : Uuid
  didHash : JsString
  commitment : JsString

/-- The audit events of a submit differ in these fields only. -/
def SubmitInput.auditInput (input : SubmitInput) (action status summary : JsString)
    (metadata : JsVal) : AuditInput :=
  { environment := some input.environment
    actorType := js "api_key"
    action := action
    entityType := js "pairing_session"
    entityId := some input.sessionId
    status := status
    summary := summary
    metadata := metadata }

def SubmitInput.record (input : SubmitInput) (action status summary : JsString)
    (metadata : JsVal) : Program Unit :=
  recordAuditEvent input.tenantId (input.auditInput action status summary metadata)

def incrementFailureCount (sessionId errorCode : JsString) : Program ℕ := do
  let count : Option ℕ ← await (.incrementFailure sessionId errorCode)
  return count.getD 0

def loadTenantSecurityPolicy (tenantId : JsString) : Program Json :=
  Prog.tryCatch (do
    let raw : Option Json ← await (.selectPolicy tenantId)
    return policyOf raw) fun _ => .ret (.obj [])

def findUserByDid (tenantId environment did : JsString) : Program (Option StoredUserCommitment) := do
  let row : Option (Uuid × Json) ← await (.selectUser tenantId environment did)
  match row with
  | none => return none
  | some (id, metadata) =>
      match metadata.get? (js "did_hash"), metadata.get? (js "commitment") with
      | some (.str didHash), some (.str commitment) =>
          return if didHash = [] ∨ commitment = [] then none else some ⟨id, didHash, commitment⟩
      | _, _ => return none

/-- No row: whether another tenant has one goes to the audit log only. -/
def missingSession (input : SubmitInput) : Program SessionRow := do
  let bareRow : Bool ← await (.selectSessionId input.sessionId)
  if bareRow = true then
    ignoreFailure (input.record (js "pairing.cross_tenant_blocked") (js "failure")
      (js "Pairing session id belongs to another tenant") .undef)
    .raise PairingError.sessionNotFound.thrown
  else .raise PairingError.sessionNotFound.thrown

/-- The state machine: rejected before any further work. -/
def checkOpen (row : SessionRow) : Program SessionRow :=
  if row.state = .consumed then .raise PairingError.sessionAlreadyBound.thrown
  else if row.state = .failed ∨ row.failureCount ≥ maxFailuresBeforeLock then
    .raise PairingError.sessionLocked.thrown
  else do
    let now : ℕ ← await .now
    if row.expiresAt ≤ now then .raise PairingError.sessionExpired.thrown
    else return row

/-- Check 2: the row, and whether it is still open. -/
def loadOpenSession (input : SubmitInput) : Program SessionRow := do
  let row : Option SessionRow ←
    await (.selectSession input.sessionId input.tenantId input.environment)
  match row with
  | none => missingSession input
  | some row => checkOpen row

/-- `x ?? false` for a field of the policy. -/
def policyField (policy : Json) (key : JsString) : JsVal :=
  match policy.get? key with
  | some .null | none => .bool false
  | some j => .ofJson j

/-- `clientMeta?.[key]`. -/
def metaField (clientMeta : Json) (key : JsString) : JsVal :=
  (clientMeta.get? key).elim .undef .ofJson

def presentedVerdict (clientMeta : Json) : JsVal :=
  match clientMeta.get? (js "playIntegrityVerdict") with
  | none => .null
  | some j => .ofJson j

/-- Check 3a: the tenant's Play Integrity policy. -/
def checkPlayIntegrity (input : SubmitInput) : Program Unit := do
  let policy ← loadTenantSecurityPolicy input.tenantId
  match evaluateVerdict (input.clientMeta.get? (js "playIntegrityVerdict")) policy with
  | none => return ()
  | some (error, message) => do
      ignoreFailure do
        let _ ← incrementFailureCount input.sessionId error.code
        return ()
      input.record (js "pairing.integrity_rejected") (js "failure")
        (js "Play Integrity rejection: " ++ error.code)
        (.obj [(js "presented_verdict", presentedVerdict input.clientMeta),
          (js "policy", .obj ([js "require_strong_integrity", js "require_device_integrity",
            js "require_basic_integrity", js "allow_play_integrity_absent"].map fun key =>
              (key, policyField policy key)))])
      .raise (.pairing error message)

/-- Check 3: the session_bind cookie. -/
def checkBindToken (input : SubmitInput) (row : SessionRow) : Program Unit :=
  match input.presentedSessionBindToken with
  | none | some [] => .raise (.pairing .sessionBindMismatch (js "cookie absent"))
  | some token =>
      if bindTokenMatches token row.sessionBindTokenHash = true then return ()
      else do
        ignoreFailure (input.record (js "pairing.session_bind_mismatch") (js "failure")
          (js "session_bind cookie mismatch on submit") .undef)
        .raise PairingError.sessionBindMismatch.thrown

/-- The three public signals, if there are three. -/
def threeSignals : Json → Option (Json × Json)
  | .arr [a, b, _] => some (a, b)
  | _ => none

/-- Checks 4 and 5: the user of the DID and its commitment. -/
def checkUser (input : SubmitInput) : Program (StoredUserCommitment × Json) := do
  match ← findUserByDid input.tenantId input.environment input.did with
  | none => .raise PairingError.didUnknown.thrown
  | some user =>
      match threeSignals input.publicSignals with
      | none => .raise (.pairing .proofInvalid (js "public signals shape"))
      | some (signal₀, signal₁) => do
          let signalCommitment ← Prog.ofExcept (parseBigIntFromSignal signal₀)
          let storedCommitment ← Prog.ofExcept (parseBigIntText user.commitment)
          if timingSafeBigIntEqual signalCommitment storedCommitment = true then
            return (user, signal₁)
          else .raise (.pairing .didUnknown (js "commitment mismatch"))

/-- Checks 6 and 7: the second signal is the hash of DID hash and nonce. -/
def checkNonce (cfg : Settings) (input : SubmitInput) (row : SessionRow)
    (user : StoredUserCommitment) (signal₁ : Json) : Program Unit := do
  let storedDidHash ← Prog.ofExcept (parseBigIntText user.didHash)
  let nonceField ← Prog.ofExcept (nonceHexToField row.nonceHex)
  let signalDidHashSession ← Prog.ofExcept (parseBigIntFromSignal signal₁)
  if timingSafeBigIntEqual signalDidHashSession (cfg.poseidon2 storedDidHash nonceField) = true then
    return ()
  else do
    ignoreFailure (input.record (js "pairing.replay_blocked") (js "failure")
      (js "publicSignals[1] mismatch — replay or wrong-session proof") .undef)
    .raise PairingError.nonceMismatch.thrown

def isText (expected : JsString) : Option Json → Bool
  | some (.str s) => s = expected
  | _ => false

/-- An array of `n`, each of which passes the test. -/
def isArrayOf (n : ℕ) (test : Json → Bool) : Option Json → Bool
  | some (.arr items) => items.length = n && items.all test
  | _ => false

/-- `typeof v === 'string' && v.length > 0`. -/
def isFilled : Json → Bool
  | .str s => s ≠ []
  | _ => false

/-- The structural check of zkp.ts; of `pi_b` it looks at the outer array only. -/
def isValidProofStructure (proof : Json) : Bool :=
  isText (js "groth16") (proof.get? (js "protocol")) &&
    isText (js "bn128") (proof.get? (js "curve")) &&
    isArrayOf 3 isFilled (proof.get? (js "pi_a")) &&
    isArrayOf 3 (fun _ => true) (proof.get? (js "pi_b")) &&
    isArrayOf 3 isFilled (proof.get? (js "pi_c"))

/-- `verifyProofOffChain` without a verifier service. -/
def verifyInline (cfg : Settings) (proof publicSignals : Json) : Program Bool :=
  if cfg.verificationKey = true then
    Prog.tryCatch (await (.groth16Verify proof publicSignals)) fun _ => .ret false
  else .ret (isValidProofStructure proof)

def verifierVerify (cfg : Settings) (input : SubmitInput) (correlationId : Uuid) : Program Bool :=
  match cfg.verifierUrl with
  | none | some [] => verifyInline cfg input.proof input.publicSignals
  | some _ =>
      Prog.tryCatch (do
        let reply : VerifierReply ← await (.fetchVerifier ⟨input.proof, input.publicSignals, input.tenantId,
          input.environment, correlationId.text⟩)
        match reply with
        | ⟨false, status, _, _⟩ =>
            .raise (.pairing .verifierUnavailable (js "verifier " ++ numText 10 status))
        | ⟨true, _, _, true⟩ => return false
        | ⟨true, _, verified, false⟩ => return verified) fun
        | .pairing error message => .raise (.pairing error message)
        | .other message => .raise (.pairing .verifierUnavailable message)

/-- Check 8: the verifier. -/
def checkProof (cfg : Settings) (input : SubmitInput) (correlationId : Uuid) : Program Unit := do
  let verified ← verifierVerify cfg input correlationId
  if verified = true then return () else .raise PairingError.proofInvalid.thrown

/-- Checks 3a to 8, on the row that was read. -/
def checkRow (cfg : Settings) (input : SubmitInput) (correlationId : Uuid) (row : SessionRow) :
    Program StoredUserCommitment := do
  checkPlayIntegrity input
  checkBindToken input row
  let (user, signal₁) ← checkUser input
  checkNonce cfg input row user signal₁
  checkProof cfg input correlationId
  return user

/-- Everything before the claim. -/
def runChecks (cfg : Settings) (input : SubmitInput) (correlationId : Uuid) :
    Program StoredUserCommitment := do
  let row ← loadOpenSession input
  checkRow cfg input correlationId row

/-- Wait until `latencyFloorMs` have passed since `start`. -/
def padToFloor (start : ℕ) : Program Unit := do
  let now : ℕ ← await .now
  if now - start ≥ latencyFloorMs then return ()
  else await (.sleep (latencyFloorMs - (now - start)))

/-- Check 9: the conditional UPDATE. -/
def claimSession (input : SubmitInput) (user : StoredUserCommitment) : Program SessionRow := do
  let claimed : Option SessionRow ← await (.claim input.sessionId user.id)
  await .answer
  match claimed with
  | some row => return row
  | none => do
      ignoreFailure (input.record (js "pairing.race_lost") (js "failure")
        (js "Lost the single-use UPDATE race") .undef)
      .raise PairingError.sessionAlreadyBound.thrown

/-- The event that goes with the tokens. -/
def SubmitInput.claimedEvent (input : SubmitInput) (user : StoredUserCommitment)
    (correlationId : Uuid) : ChainedAuditPayload :=
  (input.auditInput (js "pairing.claimed") (js "success")
    (js "Pairing session bound to user " ++ user.id.text)
    (.obj [(js "did_sha256", .str (sha256Hex input.did)),
      (js "proofMs", metaField input.clientMeta (js "proofMs")),
      (js "platform", metaField input.clientMeta (js "platform")),
      (js "playIntegrityVerdict", metaField input.clientMeta (js "playIntegrityVerdict")),
      (js "correlationId", .str correlationId.text)])).payload input.tenantId

/-- Check 10: tokens, then the audit event that has to be written before they
    are handed out. -/
def mintTokens (input : SubmitInput) (user : StoredUserCommitment) (correlationId : Uuid)
    (start : ℕ) (row : SessionRow) : Program SubmitResult := do
  await (.spawn (.setProofHash input.sessionId (sha256Hex input.proof.print)))
  let sessionUuid : Uuid ← await .uuidv4
  let tokens : AuthToken ← await (.issueTokens ⟨user.id, sessionUuid, js "zkp", true, input.did⟩)
  await (.appendAudit (input.claimedEvent user correlationId))
  padToFloor start
  return ⟨{ rowToPublicView row with userId := some user.id, did := some input.did }, sessionUuid,
    tokens⟩

/-- The part of `submitProof` inside `try`. -/
def submitBody (cfg : Settings) (input : SubmitInput) (correlationId : Uuid) (start : ℕ) :
    Program SubmitResult := do
  let user ← runChecks cfg input correlationId
  let row ← claimSession input user
  mintTokens input user correlationId start row

/-- Count a failed check on the session and report it. -/
def countFailure (input : SubmitInput) (correlationId : Uuid) (error : PairingError) :
    Program Unit := do
  let count ← Prog.tryCatch (do
    let count ← incrementFailureCount input.sessionId error.code
    return (count : ℤ)) fun _ => .ret (-1)
  await (.spawn (.audit ((input.auditInput (js "pairing.failed") (js "failure")
    (js "Submit failed: " ++ error.code)
    (.obj [(js "failureCount", .ofJson (.num (.ofInt count))), (js "code", .str error.code),
      (js "correlationId", .str correlationId.text)])).payload input.tenantId)))

/-- Which errors are counted: `instanceof` one of the four classes. -/
def Failure.counted? : Failure → Option PairingError
  | .pairing error _ => if error.isCounted then some error else none
  | .other _ => none

/-- The `catch` of `submitProof`. -/
def submitCatch (input : SubmitInput) (correlationId : Uuid) (start : ℕ) (failure : Failure) :
    Program SubmitResult := do
  match failure.counted? with
  | some error => do
      countFailure input correlationId error
      padToFloor start
      .raise failure
  | none => do
      padToFloor start
      .raise failure

def submitProof (cfg : Settings) (input : SubmitInput) : Program SubmitResult := do
  let start : ℕ ← await .now
  let correlationId : Uuid ← await .uuidv4
  Prog.tryCatch (submitBody cfg input correlationId start) (submitCatch input correlationId start)

/-! ## The sweep and the stream -/

/-- One `pairing.expired` event for each swept row. -/
def spawnExpired : List (Uuid × Uuid × JsString) → Program Unit
  | [] => .ret ()
  | (id, tenantId, environment) :: rows => do
      await (.spawn (.audit (AuditInput.payload
        { environment := some environment
          actorType := js "system"
          action := js "pairing.expired"
          entityType := js "pairing_session"
          entityId := some id.text
          status := js "failure"
          summary := js "Pairing session expired without consumption" }
        tenantId.text)))
      spawnExpired rows

def expireOverdueSessions : Program (List Uuid) := do
  let rows : List (Uuid × Uuid × JsString) ← await .expireOverdue
  spawnExpired rows
  return rows.map Prod.fst

inductive StreamEvent
  | sessionCreated (view : SessionPublicView)
  | sessionBound (view : SessionPublicView)
  | sessionExpired (view : SessionPublicView)
  | sessionError (error : JsString)

/-- The event that one poll of `subscribeStream` sends, given the row it read and
    the time after that; `none` goes on polling. -/
def pollEvent (next : Option SessionRow) (now : ℕ) : Option StreamEvent :=
  match next with
  | none => some (.sessionError PairingError.sessionNotFound.code)
  | some row =>
      match row.state with
      | .consumed => some (.sessionBound (rowToPublicView row))
      | .expired => some (.sessionExpired (rowToPublicView row))
      | .failed => some (.sessionError (row.lastErrorCode.getD (js "pairing_failed")))
      | .issued =>
          if row.expiresAt ≤ now then some (.sessionExpired (rowToPublicView row)) else none

end ZeroAuth.Pairing
