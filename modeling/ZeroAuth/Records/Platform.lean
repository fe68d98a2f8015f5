/-
  ZeroAuth.Records.Platform

  Devices, users, registrations, events and pairing sessions in one database.

  The services of `ZeroAuth.Tenant.System` and `ZeroAuth.Pairing.System` keep their
  meaning; pairing reads the users that the others write.  Every statement on the
  events is one transaction of its own.  The UPDATEs that nobody awaits run at any
  later time, or never; like any write they wait for a locked row.
-/

import ZeroAuth.Pairing.System
import ZeroAuth.Records.Program

namespace ZeroAuth.Records

open ZeroAuth.Lib ZeroAuth.Js ZeroAuth.Pg ZeroAuth.Tenant

/-- A touch names the call that has started it; the users and the clock in `pairing` are
    not used. -/
structure World where
  tenant : Tenant.World
  verifications : List VerificationRecord
  attendance : List AttendanceEvent
  touches : List (ℕ × Touch)
  pairing : Pairing.World

namespace World

def db (w : World) : Db := w.tenant.store.db

/-- What the pairing service works on. -/
def pairingView (w : World) : Pairing.World :=
  { w.pairing with users := Db.users w.db, clock := w.tenant.clock }

end World

/-- What the outside decides about one operation; the statements on the events take their
    share from that of the tenant services. -/
structure Oracle where
  tenant : Tenant.Oracle := {}
  pairing : Pairing.Oracle := {}

/-! ## Statements on the events -/

/-- A failing statement. -/
def recordError (message : JsString) : RecordFailure := .inr ⟨message⟩

def invalidUuid : RecordFailure := recordError (js "invalid input syntax for type uuid")

def duplicateKey : RecordFailure :=
  recordError (js "duplicate key value violates unique constraint")

/-- `… WHERE id = $1 AND tenant_id = $2 AND environment = $3`. -/
def selectOwn {α : Type} (rows : List α) (isOwn : Uuid → Uuid → JsString → α → Bool)
    (id tenantId environment : JsString) : Except RecordFailure (Option α) :=
  match Uuid.parse id, Uuid.parse tenantId with
  | some i, some u => .ok (rows.find? (isOwn i u environment))
  | _, _ => .error invalidUuid

def insertVerification (pg : Jsonb) (id : Uuid) (tenantId environment : JsString)
    (v : NewVerification) (w : World) : Except RecordFailure VerificationRecord × World :=
  match Uuid.parse tenantId, Uuid.parse v.apiKeyId with
  | some u, some apiKeyId =>
      if w.verifications.any fun r => r.id = id then (.error duplicateKey, w)
      else
        let row := { v with metadata := pg.store v.metadata }.row id u apiKeyId environment
          w.tenant.clock
        (.ok row, { w with verifications := w.verifications ++ [row] })
  | _, _ => (.error invalidUuid, w)

def insertAttendance (pg : Jsonb) (id : Uuid) (tenantId environment : JsString)
    (v : NewAttendance) (w : World) : Except RecordFailure AttendanceEvent × World :=
  match Uuid.parse tenantId with
  | some u =>
      if w.attendance.any fun r => r.id = id then (.error duplicateKey, w)
      else
        let row := { v with metadata := pg.store v.metadata }.row id u environment w.tenant.clock
        (.ok row, { w with attendance := w.attendance ++ [row] })
  | none => (.error invalidUuid, w)

/-- A statement that fails for reasons of its own has no effect. -/
def statement {α : Type} (ω : Oracle) (w : World) (run : Except RecordFailure α × World) :
    Option (Except RecordFailure α × World) :=
  match ω.tenant.failure with
  | some message => some (.error (recordError message), w)
  | none => some run

def recordExec (pg : Jsonb) (t : ℕ) : (o : RecordOp) → Oracle → World →
    Option (Except RecordFailure o.Resp × World)
  | .selectUser userId tenantId environment, ω, w =>
      statement ω w (selectOwn (Db.users w.db) TenantUser.isOwn userId tenantId environment, w)
  | .selectVerification verificationId tenantId environment, ω, w =>
      statement ω w (selectOwn w.verifications VerificationRecord.isOwn verificationId tenantId
        environment, w)
  | .insertVerification tenantId environment v, ω, w =>
      statement ω w (insertVerification pg ω.tenant.uuid tenantId environment v w)
  | .insertAttendance tenantId environment v, ω, w =>
      statement ω w (insertAttendance pg ω.tenant.uuid tenantId environment v w)
  | .touch touch, _, w => some (.ok (), { w with touches := w.touches ++ [(t, touch)] })

/-! ## The system -/

abbrev sig : Sig := recordSig.sum Pairing.sig

abbrev Failure := RecordFailure ⊕ Pairing.Failure

/-- One operation of call `t`. -/
def exec (pg : Jsonb) (t : ℕ) : (o : sig.Op) → Oracle → World →
    Option (Except Failure (sig.Resp o) × World)
  | .inl (.inl o), ω, w =>
      (Tenant.exec pg t o ω.tenant w.tenant).map fun (r, tenant) =>
        (r.mapError fun e => .inl (.inl e), { w with tenant := tenant })
  | .inl (.inr o), ω, w =>
      (recordExec pg t o ω w).map fun (r, w') => (r.mapError .inl, w')
  | .inr o, ω, w =>
      (Pairing.exec pg o ω.pairing w.pairingView).map fun (r, pairing) =>
        (r.mapError .inr, { w with pairing := pairing })

/-- The SET clause of a touch of a device. -/
def seen (occurredAt : ℤ) (now : ℕ) (d : Device) : Device :=
  { d with lastSeenAt := some occurredAt, updatedAt := now }

/-- The SET clause of a touch of a user. -/
def verifiedAt (occurredAt : ℤ) (now : ℕ) (u : TenantUser) : TenantUser :=
  { u with lastVerifiedAt := some occurredAt, updatedAt := now }

/-- `UPDATE … WHERE id = $1 AND tenant_id = $2`. -/
def Touch.answer (touch : Touch) (db : Db) (now : ℕ) : Option Write :=
  match touch with
  | .device id tenantId occurredAt => (Uuid.parse tenantId).bind fun u =>
      (Answer.update .device (Db.devices db) (fun d => d.id = id ∧ d.tenantId = u)
        (seen occurredAt now)).write
  | .user id tenantId occurredAt => (Uuid.parse tenantId).bind fun u =>
      (Answer.update .user (Db.users db) (fun r => r.id = id ∧ r.tenantId = u)
        (verifiedAt occurredAt now)).write

/-- Time passes, a connection is lost, started work is done or fails, a tenant sets its
    policy. -/
inductive Env
  | tenant (e : Tenant.Env)
  | touch (i : ℕ) (succeeds : Bool)
  | pairingJob (i : ℕ) (succeeds : Bool)
  | setPolicy (tenantId : Uuid) (policy : Json)

/-- Run a touch; `none` while its row is locked.  Nobody waits for its answer. -/
def World.runTouch (w : World) (t : ℕ) (touch : Touch) : Option World :=
  match touch.answer w.db w.tenant.clock with
  | none => some w
  | some write =>
      (w.tenant.runPool t {} { value := (), write := some write }).map fun (_, tenant) =>
        { w with tenant := tenant }

def env : Env → World → Option World
  | .tenant e, w => (Tenant.env e w.tenant).map fun tenant => { w with tenant := tenant }
  | .touch i succeeds, w => do
      let (t, touch) ← w.touches[i]?
      let w' ← if succeeds then w.runTouch t touch else some w
      return { w' with touches := w.touches.eraseIdx i }
  | .pairingJob i succeeds, w => (Pairing.env (.job i succeeds) w.pairingView).map fun pairing =>
      { w with pairing := pairing }
  | .setPolicy tenantId policy, w => (Pairing.env (.setPolicy tenantId policy) w.pairingView).map
      fun pairing => { w with pairing := pairing }

/-- The settings of the services. -/
structure Config where
  tenant : Tenant.Settings
  pairing : Pairing.Settings

inductive Call
  | tenant (a : Tenant.Call)
  | verification (tenantId environment apiKeyId : JsString) (input : VerificationInput)
  | attendance (tenantId environment apiKeyId : JsString) (input : AttendanceInput)
  | pairing (a : Pairing.Call)

inductive Result
  | tenant (r : Tenant.Result)
  | verification (r : VerificationRecord)
  | attendance (r : AttendanceEvent)
  | pairing (r : Pairing.Result)

abbrev Program (α : Type) := Prog sig Failure α

def code (cfg : Config) : Call → Program Result
  | .tenant a => do
      let p : RecordProgram Tenant.Result := (Tenant.code cfg.tenant a).lift
      return .tenant (← p.lift)
  | .verification tenantId environment apiKeyId input => do
      return .verification
        (← (createVerificationEvent cfg.tenant tenantId environment apiKeyId input).lift)
  | .attendance tenantId environment apiKeyId input => do
      return .attendance
        (← (createAttendanceEvent cfg.tenant tenantId environment apiKeyId input).lift)
  | .pairing a => do return .pairing (← (Pairing.code cfg.pairing a).liftRight)

/-- Any number of concurrent calls of all the services. -/
abbrev platform (cfg : Config) (pg : Jsonb) : System sig Failure Result Call World Oracle Env :=
  { code := code cfg, exec := exec pg, env := env }

abbrev State := Lib.Config sig Failure Result Call World

/-- Nothing has been written yet. -/
def Empty (w : World) : Prop :=
  Tenant.Empty w.tenant ∧ w.verifications = [] ∧ w.attendance = [] ∧ w.touches = [] ∧
    Pairing.Empty w.pairing

end ZeroAuth.Records
