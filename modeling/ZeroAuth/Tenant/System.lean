/-
  ZeroAuth.Tenant.System

  The database behind `ZeroAuth.Tenant.Program` and what each statement does to it.

  READ COMMITTED: a statement sees what is committed and the writes of its own
  transaction.  `SELECT … FOR UPDATE` and every write lock the row, and a write
  also the entries of the unique indexes that it takes or leaves; a statement that
  needs a lock of another transaction waits, and looks at the tables when it goes
  on.  `NOW()` is the time at which the transaction began.

  A statement may fail for reasons that are not modelled (a lost connection, a
  CHECK constraint, a foreign key); it then has no effect, and its transaction can only
  be rolled back.  A COMMIT, or a single statement that writes, may also be carried out
  while its answer is lost: then the caller sees an error.
-/

import ZeroAuth.Lib.RelyGuarantee
import ZeroAuth.Tenant.Registration

namespace ZeroAuth.Tenant

open ZeroAuth.Lib ZeroAuth.Js ZeroAuth.Pg
open ZeroAuth.Audit (ChainedAuditPayload)

/-- What the outside decides about one operation: whether it fails, whether its answer is lost,
    and the values that the program does not compute itself. -/
structure Oracle where
  failure : Option JsString := none
  lost : Option JsString := none
  uuid : Uuid := .ofNat 0
  ints : List ℕ := []
  bytes : List UInt8 := []
  pick : ℕ := 0
  verified : Bool := true

/-- What a statement answers, the row it locks besides those it writes, and its
    write. -/
structure Answer (α : Type) where
  value : α
  lock : Option RowId := none
  write : Option Write := none

namespace Answer

variable {α : Type}

/-- The keys that have to be free. -/
def keys (a : Answer α) : List Key :=
  (a.lock.map RowKey.row).toList ++ (a.write.map tables.keys).getD []

/-- `INSERT … RETURNING *`. -/
def insert (row : α → Row) (r : α) : Answer α := { value := r, write := some (.insert (row r)) }

/-- `UPDATE … WHERE p SET f RETURNING *`, for a condition that names one row. -/
def update (row : α → Row) (rows : List α) (p : α → Bool) (f : α → α) : Answer (Option α) :=
  match rows.find? p with
  | some r => { value := some (f r), write := some (.update (row r) (row (f r))) }
  | none => { value := none }

/-- `SELECT … WHERE p FOR UPDATE`.  A row that came to satisfy the condition while the
    statement waited may be missed. -/
def select (row : α → Row) (rows : List α) (p : α → Bool) (pick : ℕ) : Answer (Option α) :=
  match (rows.filter p)[pick]? with
  | some r => { value := some r, lock := some (row r).id }
  | none => { value := none }

end Answer

/-! ## Statements -/

def invalidUuid : Failure := .other (js "invalid input syntax for type uuid")

def duplicateKey : Failure := .other (js "duplicate key value violates unique constraint")

/-- A parameter of type UUID, given as text. -/
def withUuid {α : Type} (text : JsString) (run : Uuid → Answer α) : Except Failure (Answer α) :=
  match Uuid.parse text with
  | some u => .ok (run u)
  | none => .error invalidUuid

/-- `id = $1 AND tenant_id = $2 AND environment = $3`, both given as text. -/
def withOwner {α : Type} (id tenantId : JsString) (run : Uuid → Uuid → Answer α) :
    Except Failure (Answer α) :=
  match Uuid.parse id, Uuid.parse tenantId with
  | some i, some u => .ok (run i u)
  | _, _ => .error invalidUuid

/-- The row that an upsert meets. -/
def PairedDevice.meets (v : PairedDevice) (d : Device) : Bool :=
  d.tenantId = v.tenantId ∧ d.environment = v.environment ∧ d.externalId = v.externalId

def Sql.run (pg : Jsonb) (db : Db) (now : ℕ) (ω : Oracle) :
    (q : Sql) → Except Failure (Answer q.Resp)
  | insertDevice tenantId environment v =>
      withUuid tenantId fun u =>
        .insert .device ({ v with metadata := pg.store v.metadata }.row ω.uuid u environment now)
  | insertSlot tenantId environment v =>
      withUuid tenantId fun u =>
        .insert .device ({ v with metadata := pg.store v.metadata }.row ω.uuid u environment now)
  -- only a slot that is still pending gets a new code
  | reissueCode deviceId tenantId environment codeHash expiresAt =>
      withOwner deviceId tenantId fun id u =>
        .update .device (Db.devices db)
          (fun d => d.isOwn id u environment && d.enrollmentState = .pending)
          (Device.reissued codeHash expiresAt now)
  -- which of the rows that match is returned, and locked, is the oracle's choice
  | lockSlot codeHash => .ok (.select .device (Db.devices db) (Device.claimable codeHash now) ω.pick)
  | findCollision tenantId environment fpHash id =>
      .ok { value := (Db.devices db).countP fun d => d.tenantId = tenantId ∧
              d.environment = environment ∧ d.fingerprintHash = some fpHash ∧ d.id ≠ id }
  | claimSlot id externalId fpHash attestationKind =>
      .ok (.update .device (Db.devices db) (·.id = id)
        (Device.claimed externalId fpHash attestationKind now))
  | revoke deviceId tenantId environment =>
      withOwner deviceId tenantId fun id u =>
        .update .device (Db.devices db) (Device.isOwn id u environment) (Device.revoked now)
  | updateDevice deviceId tenantId environment v =>
      withOwner deviceId tenantId fun id u =>
        .update .device (Db.devices db) (Device.isOwn id u environment)
          (Device.updated { v with metadata := v.metadata.map pg.store } now)
  -- `ON CONFLICT (tenant_id, environment, external_id) DO UPDATE`
  | upsertDevice v =>
      let v : PairedDevice := { v with metadata := pg.store v.metadata }
      match (Db.devices db).find? v.meets with
      | some d => .ok { value := d.reenrolled v now
                        write := some (.update (.device d) (.device (d.reenrolled v now))) }
      | none => .ok (.insert .device (v.row ω.uuid now))
  | selectDevice deviceId tenantId environment =>
      withOwner deviceId tenantId fun id u =>
        { value := (Db.devices db).find? (Device.isOwn id u environment) }
  | selectDeviceById id => .ok { value := (Db.devices db).find? (·.id = id) }
  | insertSession tenantId environment v =>
      withUuid tenantId fun u =>
        .insert .session ({ v with profile := pg.store v.profile }.row ω.uuid u environment now)
  | selectSession sessionId tenantId environment =>
      withOwner sessionId tenantId fun id u =>
        { value := (Db.sessions db).find? (RegistrationSession.isOwn id u environment) }
  | lockSession step codeHash =>
      .ok (.select .session (Db.sessions db) (RegistrationSession.accepts step codeHash now) ω.pick)
  | attachDevice id deviceId codeHash expiresAt =>
      .ok (.update .session (Db.sessions db) (·.id = id)
        (RegistrationSession.paired deviceId codeHash expiresAt now))
  | attachCommitment id did commitment codeHash expiresAt nonce =>
      .ok (.update .session (Db.sessions db) (·.id = id)
        (RegistrationSession.committed did commitment codeHash expiresAt nonce now))
  | completeSession id userId =>
      .ok (.update .session (Db.sessions db) (·.id = id) (RegistrationSession.completed userId now))
  | abandonSession sessionId tenantId environment =>
      withOwner sessionId tenantId fun id u =>
        .update .session (Db.sessions db) (RegistrationSession.isOwn id u environment)
          (RegistrationSession.abandoned now)
  | insertUser tenantId environment v =>
      withUuid tenantId fun u =>
        .insert .user ({ v with metadata := pg.store v.metadata }.row ω.uuid u environment now)
  | registerUser v => .ok (.insert .user ({ v with metadata := pg.store v.metadata }.row ω.uuid now))
  | insertFaceFirst tenantId environment v =>
      withUuid tenantId fun u => .insert .user (v.row ω.uuid u environment now)
  | findDid tenantId environment did =>
      withUuid tenantId fun u =>
        { value := (Db.users db).any fun r => r.tenantId = u ∧ r.environment = environment ∧
            r.did = some did }
  | updateUser userId tenantId environment v =>
      withOwner userId tenantId fun id u =>
        .update .user (Db.users db) (TenantUser.isOwn id u environment)
          (TenantUser.updated { v with metadata := v.metadata.map pg.store } now)

/-! ## The world -/

/-- 30 minutes. -/
def demoCodeTtlMs : ℕ := 30 * 60 * 1000

/-- The started audit events and the codes of the demo portal name the call that they
    come from; `unanswered` are the calls that have not heard what became of their write. -/
structure World where
  store : Store Db Key Write
  clock : ℕ
  spawned : List (ℕ × ChainedAuditPayload)
  demoCodes : List (ℕ × JsString × DemoPendingCode)
  unanswered : List ℕ

namespace World

def setStore (w : World) (s : Store Db Key Write) : World := { w with store := s }

/-- What connection `t` sees. -/
def view (w : World) (t : ℕ) : Db := w.store.view tables.apply t

/-- The events that call `t` has started. -/
def spawnedBy (w : World) (t : ℕ) : List ChainedAuditPayload :=
  w.spawned.filterMap fun e => if e.1 = t then some e.2 else none

def dropDemoCode (w : World) (sessionId : JsString) : World :=
  { w with demoCodes := w.demoCodes.filter fun e => e.2.1 ≠ sessionId }

def demoCode (w : World) (sessionId : JsString) : Option DemoPendingCode :=
  (w.demoCodes.find? fun e => e.2.1 = sessionId).map fun e => e.2.2

/-- `demoPendingCodes.set`, by call `t`. -/
def setDemoCode (w : World) (t : ℕ) (sessionId : JsString) (entry : DemoPendingCode) : World :=
  { w with demoCodes := (t, sessionId, entry) :: (w.dropDemoCode sessionId).demoCodes }

/-- A statement that fails leaves a transaction that can only be rolled back. -/
def failed (w : World) (t : ℕ) : World := w.setStore (w.store.drop t .failed)

/-- Call `t` does not hear of its write. -/
def unheard (w : World) (t : ℕ) : World := { w with unanswered := t :: w.unanswered }

/-- The write of call `t` is carried out; its answer arrives, or is lost on its way. -/
def carriedOut {α : Type} (w : World) (t : ℕ) (ω : Oracle) (v : α) : Except Failure α × World :=
  match ω.lost with
  | none => (.ok v, w)
  | some message => (.error (.other message), w.unheard t)

/-- A statement outside any transaction; `none` while it has to wait. -/
def runPool {α : Type} (w : World) (t : ℕ) (ω : Oracle) (a : Answer α) :
    Option (Except Failure α × World) :=
  match a.write with
  | none => some (.ok a.value, w)
  | some write =>
      if (tables.keys write).all fun k => w.store.locks k = none then
        if tables.clashes w.store.db write then some (.error duplicateKey, w)
        else some ((w.setStore (w.store.autocommit tables.apply t write)).carriedOut t ω a.value)
      else none

/-- A statement of the open transaction of `t`; `none` while it has to wait. -/
def runQuery {α : Type} (w : World) (t : ℕ) (a : Answer α) : Option (Except Failure α × World) :=
  (w.store.acquireAll t a.keys).map fun s =>
    match a.write with
    | none => (.ok a.value, w.setStore s)
    | some write =>
        if tables.clashes (w.view t) write then (.error duplicateKey, w.failed t)
        else (.ok a.value, w.setStore (s.write t write))

end World

/-- A statement that fails for reasons of its own has no effect. -/
def orFail {α : Type} (ω : Oracle) (w : World) (run : Option (Except Failure α × World)) :
    Option (Except Failure α × World) :=
  match ω.failure with
  | some message => some (.error (.other message), w)
  | none => run

/-- A statement inside a transaction. -/
def inTransaction {α : Type} (t : ℕ) (ω : Oracle) (w : World)
    (run : Tx Write → Option (Except Failure α × World)) : Option (Except Failure α × World) :=
  match w.store.conns t with
  | .active tx => orFail ω (w.failed t) (run tx)
  | .failed => some (.error (.other (js "current transaction is aborted")), w)
  | .idle => some (.error (.other (js "no transaction in progress")), w)

def exec (pg : Jsonb) (t : ℕ) : (o : Op) → Oracle → World → Option (Except Failure o.Resp × World)
  | .now, _, w => some (.ok w.clock, w)
  | .uuidv4, ω, w => some (.ok ω.uuid, w)
  | .randomInts count bound, ω, w =>
      if ω.ints.length = count ∧ ω.ints.all (· < bound) then some (.ok ω.ints, w) else none
  | .randomBytes n, ω, w => if ω.bytes.length = n then some (.ok ω.bytes, w) else none
  -- `pool.query` commits by itself; `client.query` below sees and writes the transaction only
  | .pool q, ω, w =>
      orFail ω w (match q.run pg w.store.db w.clock ω with
        | .ok a => w.runPool t ω a
        | .error e => some (.error e, w))
  | .connect, ω, w => orFail ω w (some (.ok (), w))
  -- BEGIN inside a transaction is only a warning
  | .begin, ω, w =>
      orFail ω w (match w.store.conns t with
        | .idle => some (.ok (), w.setStore (w.store.begin t w.clock))
        | .active _ => some (.ok (), w)
        | .failed => some (.error (.other (js "current transaction is aborted")), w))
  | .query q, ω, w =>
      inTransaction t ω w fun tx =>
        match q.run pg (w.view t) tx.now ω with
        | .ok a => w.runQuery t a
        | .error e => some (.error e, w.failed t)
  | .commit, ω, w =>
      inTransaction t ω w fun _ =>
        some ((w.setStore (w.store.commit tables.apply t)).carriedOut t ω ())
  -- the transaction is dropped whether the answer arrives or not
  | .rollback, ω, w =>
      orFail ω (w.setStore (w.store.drop t .idle)) (some (.ok (), w.setStore (w.store.drop t .idle)))
  | .verifyProof _ _, ω, w => orFail ω w (some (.ok ω.verified, w))
  | .spawn payload, _, w => some (.ok (), { w with spawned := w.spawned ++ [(t, payload)] })
  | .cacheDemoCode sessionId step code deeplink challengeNonce, _, w =>
      some (.ok (), w.setDemoCode t sessionId
        ⟨step, code, deeplink, challengeNonce, w.clock + demoCodeTtlMs⟩)
  -- an entry past its time is dropped by the look itself
  | .peekDemoCode sessionId, _, w =>
      match w.demoCode sessionId with
      | none => some (.ok none, w)
      | some entry =>
          if entry.expiresAt < w.clock then some (.ok none, w.dropDemoCode sessionId)
          else some (.ok (some entry), w)

/-- Time passes, or a connection is lost. -/
inductive Env
  | tick (ms : ℕ)
  | cut (t : ℕ)

def env : Env → World → Option World
  | .tick ms, w => some { w with clock := w.clock + ms }
  | .cut t, w =>
      match w.store.conns t with
      | .active _ => some (w.failed t)
      | _ => some w

/-! ## The calls -/

inductive Call
  | createDevice (tenantId environment : JsString) (input : CreateDeviceInput)
      (actor : Option AuditActor)
  | issueEnrollmentCode (tenantId environment : JsString) (input : IssueInput)
      (actor : Option AuditActor)
  | regenerateEnrollmentCode (tenantId environment deviceId : JsString) (actor : Option AuditActor)
  | claimDeviceWithCode (input : ClaimInput)
  | revokeDevice (tenantId environment deviceId : JsString) (actor : Option AuditActor)
  | updateDevice (tenantId environment deviceId : JsString) (input : UpdateDeviceInput)
      (actor : Option AuditActor)
  | startRegistration (tenantId environment : JsString) (profile : Option Json) (actor : AuditActor)
  | pairDevice (input : PairInput)
  | submitCommitment (input : CommitmentInput)
  | completeRegistration (input : CompleteInput)
  | abandonRegistration (tenantId environment sessionId : JsString) (actor : AuditActor)
  | getSignup (sessionId : JsString)
  | createTenantUser (tenantId environment : JsString) (input : CreateUserInput)
      (actor : Option AuditActor)
  | updateTenantUser (tenantId environment userId : JsString) (input : UpdateUserInput)
      (actor : Option AuditActor)
  | registerFaceFirst (tenantId environment : JsString) (input : FaceFirstRegistration)

inductive Result
  | device (d : Device)
  | deviceOrNull (d : Option Device)
  | invite (i : Option DeviceEnrollmentInvite)
  | started (r : RegistrationStartResult)
  | stepped (r : RegistrationStepResult)
  | completed (r : RegistrationCompleteResult)
  | abandoned (s : Option RegistrationSession)
  | signup (view : Option SignupView)
  | user (u : Option TenantUser)
  | faceFirst (r : FaceFirstRegistrationResult)

def code (cfg : Settings) : Call → Program Result
  | .createDevice tenantId environment input actor => do
      return .device (← createDevice tenantId environment input actor)
  | .issueEnrollmentCode tenantId environment input actor => do
      return .invite (some (← issueEnrollmentCode cfg tenantId environment input actor))
  | .regenerateEnrollmentCode tenantId environment deviceId actor => do
      return .invite (← regenerateEnrollmentCode cfg tenantId environment deviceId actor)
  | .claimDeviceWithCode input => do return .device (← claimDeviceWithCode cfg input)
  | .revokeDevice tenantId environment deviceId actor => do
      return .deviceOrNull (← revokeDevice tenantId environment deviceId actor)
  | .updateDevice tenantId environment deviceId input actor => do
      return .deviceOrNull (← updateDevice cfg tenantId environment deviceId input actor)
  | .startRegistration tenantId environment profile actor => do
      return .started (← startRegistration cfg tenantId environment profile actor)
  | .pairDevice input => do return .stepped (← pairDeviceForRegistration cfg input)
  | .submitCommitment input => do return .stepped (← submitCommitmentForRegistration cfg input)
  | .completeRegistration input => do return .completed (← completeRegistration cfg input)
  | .abandonRegistration tenantId environment sessionId actor => do
      return .abandoned (← abandonRegistration tenantId environment sessionId actor)
  | .getSignup sessionId => do return .signup (← getSignup sessionId)
  | .createTenantUser tenantId environment input actor => do
      return .user (some (← createTenantUser cfg tenantId environment input actor))
  | .updateTenantUser tenantId environment userId input actor => do
      return .user (← updateTenantUser cfg tenantId environment userId input actor)
  | .registerFaceFirst tenantId environment input => do
      return .faceFirst (← registerFaceFirstIdentity cfg tenantId environment input)

/-- Any number of concurrent calls. -/
abbrev system (cfg : Settings) (pg : Jsonb) : System sig Failure Result Call World Oracle Env :=
  { code := code cfg, exec := exec pg, env := env }

abbrev State := Config sig Failure Result Call World

abbrev Event := Lib.Event sig Failure

/-- Empty tables, nothing started, nothing cached and nothing lost. -/
def Empty (w : World) : Prop :=
  w.store = .init [] ∧ w.spawned = [] ∧ w.demoCodes = [] ∧ w.unanswered = []

end ZeroAuth.Tenant
