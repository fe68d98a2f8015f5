/-
  ZeroAuth.Pairing.System

  The world of the pairing service and what each operation does to it.

  Every statement is one transaction of its own.  A statement may fail, and then
  it has no effect; the claim may also be carried out and its answer be lost.  Time
  passes between any two steps; work that nobody awaits is done at any later time,
  or never.
-/

import ZeroAuth.Lib.Interleaving
import ZeroAuth.Pairing.Program
import ZeroAuth.Tenant.Rows

namespace ZeroAuth.Pairing

open ZeroAuth.Lib ZeroAuth.Js ZeroAuth.Pg ZeroAuth.Audit ZeroAuth.Tenant

structure World where
  sessions : List SessionRow
  users : List TenantUser
  policies : List (Uuid × Json)
  audit : List ChainedAuditPayload
  jobs : List Job
  clock : ℕ

/-- What the outside decides about one operation: whether it fails, and the
    values that the program does not compute itself. -/
structure Oracle where
  failure : Option JsString := none
  uuid : Uuid := .ofNat 0
  bytes : List UInt8 := []
  pick : ℕ := 0
  reply : VerifierReply := ⟨true, 200, true, false⟩
  verified : Bool := true
  tokens : AuthToken := ⟨[], [], 0, 0⟩

/-! ## Rows -/

/-- `UPDATE … WHERE p`. -/
def World.update (w : World) (p : SessionRow → Bool) (f : SessionRow → SessionRow) : World :=
  { w with sessions := w.sessions.map fun r => if p r then f r else r }

def NewSession.row (v : NewSession) (tenantId : Uuid) (apiKeyId : Option Uuid) (now : ℕ) :
    SessionRow :=
  { id := v.id
    tenantId := tenantId
    environment := v.environment
    apiKeyId := apiKeyId
    nonceHex := v.nonceHex
    sessionBindTokenHash := v.sessionBindTokenHash
    state := .issued
    consumedUserId := none
    proofHash := none
    lastErrorCode := none
    desktopIp := v.desktopIp
    desktopUserAgent := v.desktopUserAgent
    failureCount := 0
    expiresAt := v.expiresAt
    consumedAt := none
    createdAt := now }

/-- The SET clause of `incrementFailureCount`. -/
def SessionRow.incremented (errorCode : JsString) (r : SessionRow) : SessionRow :=
  { r with
    failureCount := r.failureCount + 1
    lastErrorCode := some errorCode
    state := if r.failureCount + 1 ≥ maxFailuresBeforeLock then .failed else r.state }

/-- The SET clause of the claim. -/
def SessionRow.consumedBy (userId : Uuid) (now : ℕ) (r : SessionRow) : SessionRow :=
  { r with state := .consumed, consumedUserId := some userId, consumedAt := some now }

/-- The SET clause of `expireOverdueSessions`. -/
def SessionRow.swept (r : SessionRow) : SessionRow :=
  { r with state := .expired, lastErrorCode := some (js "pairing_session_expired") }

def SessionRow.withProofHash (proofHash : JsString) (r : SessionRow) : SessionRow :=
  { r with proofHash := some proofHash }

/-- `id = $1 AND state IN ('issued','failed')`. -/
def SessionRow.canFail (id : Uuid) (r : SessionRow) : Bool :=
  r.id = id ∧ (r.state = .issued ∨ r.state = .failed)

/-- `id = $1 AND state = 'issued'`. -/
def SessionRow.canClaim (id : Uuid) (r : SessionRow) : Bool := r.id = id ∧ r.state = .issued

/-- `state = 'issued' AND expires_at < NOW()`. -/
def SessionRow.overdue (now : ℕ) (r : SessionRow) : Bool := r.state = .issued ∧ r.expiresAt < now

/-! ## Statements -/

def invalidUuid : Failure := .other (js "invalid input syntax for type uuid")

/-- A statement that fails has no effect. -/
def statement {α : Type} (ω : Oracle) (w : World) (run : Except Failure α × World) :
    Option (Except Failure α × World) :=
  match ω.failure with
  | some message => some (.error (.other message), w)
  | none => some run

/-- A parameter of type UUID, given as text. -/
def withUuid {α : Type} (text : JsString) (w : World) (run : Uuid → Except Failure α × World) :
    Except Failure α × World :=
  match Uuid.parse text with
  | some u => run u
  | none => (.error invalidUuid, w)

/-- A nullable parameter of type UUID. -/
def parseOptional : Option JsString → Option (Option Uuid)
  | none => some none
  | some text => (Uuid.parse text).map some

def World.insertSession (w : World) (v : NewSession) : Except Failure Unit × World :=
  match Uuid.parse v.tenantId, parseOptional v.apiKeyId with
  | some tenantId, some apiKeyId =>
      if w.sessions.any fun r => r.id = v.id ∨ (r.tenantId = tenantId ∧ r.nonceHex = v.nonceHex) then
        (.error (.other (js "duplicate key value violates unique constraint")), w)
      else (.ok (), { w with sessions := w.sessions ++ [v.row tenantId apiKeyId w.clock] })
  | _, _ => (.error invalidUuid, w)

/-- `failure_count` is a SMALLINT. -/
def World.incrementFailure (w : World) (id : Uuid) (errorCode : JsString) :
    Except Failure (Option ℕ) × World :=
  match w.sessions.find? (SessionRow.canFail id) with
  | none => (.ok none, w)
  | some r =>
      if r.failureCount + 1 > 32767 then (.error (.other (js "smallint out of range")), w)
      else (.ok (some (r.failureCount + 1)),
        w.update (SessionRow.canFail id) (SessionRow.incremented errorCode))

def World.claim (w : World) (id userId : Uuid) : Except Failure (Option SessionRow) × World :=
  match w.sessions.find? (SessionRow.canClaim id) with
  | none => (.ok none, w)
  | some r => (.ok (some (r.consumedBy userId w.clock)),
      w.update (SessionRow.canClaim id) (SessionRow.consumedBy userId w.clock))

def World.expireOverdue (w : World) :
    Except Failure (List (Uuid × Uuid × JsString)) × World :=
  (.ok ((w.sessions.filter (SessionRow.overdue w.clock)).map fun r =>
      (r.id, r.tenantId, r.environment)),
    w.update (SessionRow.overdue w.clock) SessionRow.swept)

/-- The rows that `findUserByDid` may be answered with. -/
def World.usersByDid (pg : Jsonb) (w : World) (tenantId : Uuid) (environment did : JsString) :
    List TenantUser :=
  w.users.filter fun u => u.tenantId = tenantId ∧ u.environment = environment ∧
    pg.arrowText (js "did") u.metadata = some did

def exec (pg : Jsonb) :
    (o : Op) → Oracle → World → Option (Except Failure o.Resp × World)
  | .now, _, w => some (.ok w.clock, w)
  | .uuidv4, ω, w => some (.ok ω.uuid, w)
  | .randomBytes n, ω, w => if ω.bytes.length = n then some (.ok ω.bytes, w) else none
  | .countOpen tenantId environment, ω, w =>
      statement ω w (withUuid tenantId w fun u =>
        (.ok (w.sessions.countP fun r => r.tenantId = u ∧ r.environment = environment ∧
          r.state = .issued ∧ r.expiresAt > w.clock), w))
  | .insertSession v, ω, w => statement ω w (w.insertSession v)
  | .selectSession sessionId tenantId environment, ω, w =>
      statement ω w (withUuid sessionId w fun id => withUuid tenantId w fun u =>
        (.ok (w.sessions.find? fun r => r.id = id ∧ r.tenantId = u ∧
          r.environment = environment), w))
  | .selectSessionId sessionId, ω, w =>
      statement ω w (withUuid sessionId w fun id => (.ok (w.sessions.any fun r => r.id = id), w))
  | .selectPolicy tenantId, ω, w =>
      statement ω w (withUuid tenantId w fun u => (.ok (w.policies.lookup u), w))
  | .selectUser tenantId environment did, ω, w =>
      statement ω w (withUuid tenantId w fun u =>
        -- `LIMIT 1` without ORDER BY: any of the rows
        let rows := w.usersByDid pg u environment did
        (.ok (rows[ω.pick % rows.length]?.map fun r => (r.id, r.metadata)), w))
  | .incrementFailure sessionId errorCode, ω, w =>
      statement ω w (withUuid sessionId w fun id => w.incrementFailure id errorCode)
  | .claim sessionId userId, ω, w =>
      statement ω w (withUuid sessionId w fun id => w.claim id userId)
  | .expireOverdue, ω, w => statement ω w w.expireOverdue
  -- outside the database
  | .fetchVerifier _, ω, w => statement ω w (.ok ω.reply, w)
  | .groth16Verify _ _, ω, w => statement ω w (.ok ω.verified, w)
  | .issueTokens _, ω, w => statement ω w (.ok { ω.tokens with iat := w.clock }, w)
  | .appendAudit payload, ω, w =>
      statement ω w (.ok (), { w with audit := w.audit ++ [payload] })
  -- a job that nobody waits for
  | .spawn job, _, w => some (.ok (), { w with jobs := w.jobs ++ [job] })
  | .sleep _, _, w => some (.ok (), w)
  | .answer, ω, w => statement ω w (.ok (), w)

/-! ## The environment and the calls -/

/-- Time passes, started work is done or fails, a user is enrolled, a tenant sets
    its policy. -/
inductive Env
  | tick (ms : ℕ)
  | job (i : ℕ) (succeeds : Bool)
  | enrol (user : TenantUser)
  | setPolicy (tenantId : Uuid) (policy : Json)

def World.runJob (w : World) : Job → World
  | .audit payload => { w with audit := w.audit ++ [payload] }
  | .setProofHash sessionId proofHash =>
      match Uuid.parse sessionId with
      | some id => w.update (·.id = id) (SessionRow.withProofHash proofHash)
      | none => w

def env : Env → World → Option World
  | .tick ms, w => some { w with clock := w.clock + ms }
  | .job i succeeds, w => w.jobs[i]?.map fun job =>
      { (if succeeds then w.runJob job else w) with jobs := w.jobs.eraseIdx i }
  | .enrol user, w => some { w with users := w.users ++ [user] }
  | .setPolicy tenantId policy, w => some { w with policies := (tenantId, policy) :: w.policies }

inductive Call
  | create (input : CreateInput)
  | submit (input : SubmitInput)
  | increment (sessionId errorCode : JsString)
  | expire

inductive Result
  | created (r : CreateSessionResult)
  | submitted (r : SubmitResult)
  | incremented (count : ℕ)
  | expired (ids : List Uuid)

def code (cfg : Settings) : Call → Program Result
  | .create input => do return .created (← createSession cfg input)
  | .submit input => do return .submitted (← submitProof cfg input)
  | .increment sessionId errorCode => do
      return .incremented (← incrementFailureCount sessionId errorCode)
  | .expire => do return .expired (← expireOverdueSessions)

abbrev system (cfg : Settings) (pg : Jsonb) :
    System sig Failure Result Call World Oracle Env :=
  { code := code cfg, exec := fun _ => exec pg, env := env }

abbrev State := Config sig Failure Result Call World

abbrev Event := Lib.Event sig Failure

/-- No session has been opened yet. -/
def Empty (w : World) : Prop := w.sessions = []

end ZeroAuth.Pairing
