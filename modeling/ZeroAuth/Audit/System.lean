/-
  ZeroAuth.Audit.System

  `appendAuditEvent` and `verifyAuditChain` of src/services/audit.ts as programs
  over their SQL statements, and the database they run against: transactions in
  READ COMMITTED, transaction-scoped advisory locks, and one id sequence that
  no rollback winds back.

  Every statement may fail (a lost connection, a violated constraint, a
  timeout); a failed statement has no effect and its transaction can only be
  rolled back.  A connection may also be cut off between two statements.
-/

import ZeroAuth.Audit.VerificationEvents
import ZeroAuth.Audit.Verify
import ZeroAuth.Lib.RelyGuarantee
import ZeroAuth.Lib.TxStore

namespace ZeroAuth.Audit

open ZeroAuth.Lib ZeroAuth.Js ZeroAuth.Pg

/-- What the services rely on in Postgres: `hashtext`, which may collide, and the
    JSONB column, which keeps a value up to the order of its keys. -/
structure Postgres where
  hashtext : JsString → ℤ
  jsonb : Json → Json
  jsonb_same : ∀ j, (jsonb j).Same j

/-- Why a statement is answered by an error. -/
inductive DbError
  | connectionLost
  | rejected
  | invalidText
  | nullValue
  | inFailedTransaction
  | noTransaction
  deriving DecidableEq

/-- What the outside decides about one statement. -/
inductive Oracle
  | proceed
  | fail (e : DbError)

/-! ## Statements and programs -/

/-- The values of the INSERT.  `metadata` is the JSON value whose text
    `JSON.stringify` sends; `none` is its answer `undefined`, sent as NULL. -/
structure InsertValues where
  tenantId : JsString
  environment : Option JsString
  actorType : JsString
  actorId : Option JsString
  action : JsString
  entityType : JsString
  entityId : Option JsString
  status : JsString
  summary : JsString
  metadata : Option Json
  previousHash : JsString
  eventHash : JsString

inductive Op
  | connect
  | begin
  | advisoryXactLock (tenantId : JsString)
  | selectHead (tenantId : JsString) (environment : Option JsString)
  | insert (values : InsertValues)
  | commit
  | rollback
  | emit (event : VerificationEvent)
  | selectChain (tenantId : JsString) (environment : Option JsString) (startId : JsString)
      (limit : ℕ)

/-- `selectHead` answers the `event_hash` of the first row, `insert` the new id
    as text. -/
def Op.Resp : Op → Type
  | selectHead _ _ => Option JsString
  | insert _ => JsString
  | selectChain _ _ _ _ => List AuditRow
  | _ => Unit

abbrev sig : Sig := ⟨Op, Op.Resp⟩

abbrev Program (α : Type) := Prog sig DbError α

def fetchPreviousHash (tenantId : JsString) (environment : Option JsString) : Program JsString := do
  let row ← Prog.perform (S := sig) (.selectHead tenantId environment)
  return Option.getD row genesisPreviousHash

structure Appended where
  id : JsString
  previousHash : JsString
  eventHash : JsString

/-- The parameters of the INSERT. -/
def insertValues (payload : ChainedAuditPayload) (previousHash eventHash : JsString) :
    InsertValues :=
  { tenantId := payload.tenantId
    environment := payload.environment
    actorType := payload.actorType
    actorId := payload.actorId
    action := payload.action
    entityType := payload.entityType
    entityId := payload.entityId
    status := payload.status
    summary := payload.summary
    metadata := payload.metadata.toJson
    previousHash := previousHash
    eventHash := eventHash }

/-- The part of `appendAuditEvent` between `try` and `catch`. -/
def appendBody (payload : ChainedAuditPayload) : Program Appended := do
  Prog.perform (S := sig) .begin
  Prog.perform (S := sig) (.advisoryXactLock payload.tenantId)
  let previousHash ← fetchPreviousHash payload.tenantId payload.environment
  let eventHash := computeEventHash payload previousHash
  let id ← Prog.perform (S := sig) (.insert (insertValues payload previousHash eventHash))
  Prog.perform (S := sig) .commit
  if isVerificationAction payload.action then
    Prog.perform (S := sig) (.emit (eventOf payload id))
  return ⟨id, previousHash, eventHash⟩

def appendAuditEvent (payload : ChainedAuditPayload) : Program Appended := do
  Prog.perform (S := sig) .connect
  (appendBody payload).tryCatch fun err => do
    -- `.catch(() => undefined)`: a failing ROLLBACK is ignored
    (Prog.perform (S := sig) .rollback).tryCatch fun _ => pure ()
    throw err

structure VerifyOptions where
  startId : Option JsString
  limit : Option ℕ

def verifyAuditChain (tenantId : JsString) (environment : Option JsString)
    (options : VerifyOptions) : Program AuditVerdict := do
  let rows ← Prog.perform (S := sig) (.selectChain tenantId environment
    (options.startId.getD (js "0")) (options.limit.getD 100000))
  return replay none rows

/-! ## The database -/

/-- The table `audit_events` (committed rows in commit order) with its open
    transactions and advisory locks, the id sequence, the clock and the events
    that were emitted. -/
structure World where
  store : Store (List AuditRow) ℤ AuditRow
  nextId : ℕ
  clock : ℕ
  emitted : List (ℕ × VerificationEvent)

/-- Insert a row. -/
def addRow (rows : List AuditRow) (row : AuditRow) : List AuditRow := rows ++ [row]

/-- The rows of one chain in id order. -/
def chainOf (rows : List AuditRow) (tenantId : Uuid) (environment : Option JsString) :
    List AuditRow :=
  (rows.filter fun r => r.tenantId = tenantId ∧ r.environment = environment).insertionSort
    fun r s => r.id ≤ s.id

/-- The `event_hash` of the newest row of a chain that has one. -/
def headHash (rows : List AuditRow) (tenantId : Uuid) (environment : Option JsString) :
    Option JsString :=
  ((chainOf rows tenantId environment).filterMap AuditRow.eventHash).getLast?

def InsertValues.row (pg : Postgres) (v : InsertValues) (id now : ℕ) (tenantId : Uuid)
    (metadata : Json) : AuditRow :=
  { id := id
    tenantId := tenantId
    environment := v.environment
    actorType := v.actorType
    actorId := v.actorId
    action := v.action
    entityType := v.entityType
    entityId := v.entityId
    status := v.status
    summary := v.summary
    metadata := pg.jsonb metadata
    createdAt := now
    previousHash := some v.previousHash
    eventHash := some v.eventHash }

/-- The input function of BIGINT for decimal text. -/
def parseBigint (s : JsString) : Option ℤ :=
  match s with
  | 45 :: ds => (readDigits 10 ds).map fun n => -(n : ℤ)
  | 43 :: ds => (readDigits 10 ds).map fun n => (n : ℤ)
  | ds => (readDigits 10 ds).map fun n => (n : ℤ)

namespace World

def setStore (w : World) (s : Store (List AuditRow) ℤ AuditRow) : World := { w with store := s }

/-- A statement that fails leaves a transaction that can only be rolled back. -/
def failed (w : World) (t : ℕ) : World := w.setStore (w.store.drop t .failed)

end World

/-- A statement inside a transaction. -/
def inTransaction {α : Type} (t : ℕ) (ω : Oracle) (w : World)
    (run : Tx AuditRow → Option (Except DbError α × World)) :
    Option (Except DbError α × World) :=
  match w.store.conns t, ω with
  | .active tx, .proceed => run tx
  | .active _, .fail e => some (.error e, w.failed t)
  | .failed, _ => some (.error .inFailedTransaction, w)
  | .idle, _ => some (.error .noTransaction, w)

/-- One statement of connection `t`. -/
def exec (pg : Postgres) (t : ℕ) :
    (o : Op) → Oracle → World → Option (Except DbError o.Resp × World)
  | .connect, .proceed, w => some (.ok (), w)
  | .connect, .fail e, w => some (.error e, w)
  | .begin, .proceed, w =>
      match w.store.conns t with
      | .idle => some (.ok (), w.setStore (w.store.begin t w.clock))
      | .active _ => some (.ok (), w)
      | .failed => some (.error .inFailedTransaction, w)
  | .begin, .fail e, w => some (.error e, w)
  | .advisoryXactLock tenantId, ω, w =>
      -- blocked while another transaction holds the key
      inTransaction t ω w fun _ =>
        (w.store.acquire t (pg.hashtext tenantId)).map fun s => (.ok (), w.setStore s)
  | .selectHead tenantId environment, ω, w =>
      inTransaction t ω w fun _ =>
        match Uuid.parse tenantId with
        | some u => some (.ok (headHash (w.store.view addRow t) u environment), w)
        | none => some (.error .invalidText, w.failed t)
  | .insert v, ω, w =>
      inTransaction t ω w fun tx =>
        match Uuid.parse v.tenantId, v.metadata with
        | some u, some m =>
            some (.ok (numText 10 w.nextId),
              { w.setStore (w.store.write t (v.row pg w.nextId tx.now u m)) with
                nextId := w.nextId + 1 })
        | none, _ => some (.error .invalidText, w.failed t)
        | some _, none => some (.error .nullValue, w.failed t)
  | .commit, ω, w =>
      inTransaction t ω w fun _ => some (.ok (), w.setStore (w.store.commit addRow t))
  | .rollback, .proceed, w => some (.ok (), w.setStore (w.store.drop t .idle))
  | .rollback, .fail e, w => some (.error e, w.setStore (w.store.drop t .idle))
  | .emit event, _, w => some (.ok (), { w with emitted := w.emitted ++ [(w.clock, event)] })
  | .selectChain tenantId environment startId limit, .proceed, w =>
      match Uuid.parse tenantId, parseBigint startId with
      | some u, some start =>
          some (.ok (((chainOf w.store.db u environment).filter fun r => start ≤ r.id).take limit), w)
      | _, _ => some (.error .invalidText, w)
  | .selectChain _ _ _ _, .fail e, w => some (.error e, w)

/-- Time passes, or a connection is lost. -/
inductive Env
  | tick (ms : ℕ)
  | cut (t : ℕ)

def env : Env → World → Option World
  | .tick ms, w => some { w with clock := w.clock + ms }
  | .cut t, w =>
      match w.store.conns t with
      | .active _ => some (w.failed t)
      | _ => some w

inductive Call
  | append (payload : ChainedAuditPayload)
  | verify (tenantId : JsString) (environment : Option JsString) (options : VerifyOptions)

inductive Result
  | appended (a : Appended)
  | verified (v : AuditVerdict)

def code : Call → Program Result
  | .append payload => do return .appended (← appendAuditEvent payload)
  | .verify tenantId environment options => do
      return .verified (← verifyAuditChain tenantId environment options)

/-- Any number of concurrent calls. -/
abbrev system (pg : Postgres) : System sig DbError Result Call World Oracle Env :=
  { code := code, exec := exec pg, env := env }

/-- An empty table. -/
def initial : World := ⟨.init [], 1, 0, []⟩

end ZeroAuth.Audit
