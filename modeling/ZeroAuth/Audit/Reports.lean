/-
  ZeroAuth.Audit.Reports

  The readers of the audit chain: `renderCompliancePack` of
  src/services/compliance-pack.ts and the daily anchor job of
  src/services/anchor-job.ts, next to any number of appends.

  They read the committed rows one statement at a time, outside transactions.
  The tables `tenants` and `audit_anchors` may be changed by others at any time.
  Dates are read in UTC, also by Postgres.
-/

import ZeroAuth.Audit.Chain
import ZeroAuth.Js.Date
import ZeroAuth.Lib.Extend

namespace ZeroAuth.Audit

open ZeroAuth.Lib ZeroAuth.Js ZeroAuth.Pg

/-! ## Tables and statements -/

/-- A row of `tenants`; the policy is NULL or JSONB. -/
structure Tenant where
  id : Uuid
  status : JsString
  securityPolicy : Json

/-- The key of a row of `audit_anchors`; the day is a number of days. -/
structure AuditAnchor where
  tenantId : Uuid
  environment : Option JsString
  dayUtc : ℤ
  deriving DecidableEq

structure Reports where
  audit : World
  tenants : List Tenant
  anchors : List AuditAnchor

/-- The rows of one chain with `created_at` on one UTC day, in id order. -/
def dayRows (rows : List AuditRow) (tenantId : Uuid) (environment : Option JsString) (day : ℤ) :
    List AuditRow :=
  (chainOf rows tenantId environment).filter fun r => utcDay r.createdAt = day

/-- The SELECTs of the two services, and `new Date()`. -/
inductive Query
  | tenantById (tenantId : JsString)
  | countChain (tenantId environment : JsString)
  | snapshot (tenantId environment : JsString) (newestFirst : Bool) (limit : ℕ)
  | activeTenants
  | dayTerminal (tenantId : JsString) (environment : Option JsString) (day : ℤ)
  | existsAnchor (tenantId : JsString) (environment : Option JsString) (day : ℤ)
  | now

/-- `dayTerminal` answers the `event_hash` of the newest row of the day and the
    number of rows of the day. -/
def Query.Resp : Query → Type
  | tenantById _ => Option Tenant
  | countChain _ _ => ℕ
  | snapshot _ _ _ _ => List AuditRow
  | activeTenants => List (JsString × Json)
  | dayTerminal _ _ _ => Option (Option JsString × ℕ)
  | existsAnchor _ _ _ => Bool
  | now => ℕ

/-- A statement about the tenant that a text names. -/
def forTenant {α : Type} (text : JsString) (answer : Uuid → α) : Except DbError α :=
  match Uuid.parse text with
  | some u => .ok (answer u)
  | none => .error .invalidText

def Query.answer : (q : Query) → Reports → Except DbError q.Resp
  | .tenantById text, w => forTenant text fun u => w.tenants.find? fun t => t.id = u
  | .countChain text e, w =>
      forTenant text fun u => (chainOf w.audit.store.db u (some e)).length
  | .snapshot text e newestFirst limit, w =>
      forTenant text fun u =>
        let rows := chainOf w.audit.store.db u (some e)
        (if newestFirst then rows.reverse else rows).take limit
  | .activeTenants, w =>
      .ok ((w.tenants.filter fun t => t.status = js "active").map fun t =>
        (t.id.text, t.securityPolicy))
  | .dayTerminal text e day, w =>
      forTenant text fun u =>
        let rows := dayRows w.audit.store.db u e (utcDay day)
        rows.getLast?.map fun r => (r.eventHash, rows.length)
  | .existsAnchor text e day, w =>
      forTenant text fun u => decide (⟨u, e, utcDay day⟩ ∈ w.anchors)
  | .now, w => .ok w.audit.clock

abbrev reportsSig : Sig := sig.sum ⟨Query, Query.Resp⟩

/-- What the two services throw themselves. -/
inductive Thrown
  | tenantNotFound (tenantId : JsString)
  | invalidArgument (message : JsString)
  deriving DecidableEq

abbrev ReportError := DbError ⊕ Thrown

abbrev ReportProgram (α : Type) := Prog reportsSig ReportError α

def query (q : Query) : ReportProgram q.Resp := Prog.perform (S := reportsSig) (.inr q)

/-! ## Compliance packs -/

/-- `SNAPSHOT_ROW_LIMIT`. -/
def snapshotRowLimit : ℕ := 5

structure ChainSnapshotRow where
  id : JsString
  createdAt : ℕ
  action : JsString
  status : JsString
  entityType : JsString
  entityId : Option JsString
  summary : JsString
  previousHash : Option JsString
  eventHash : Option JsString

def toSnapshotRow (r : AuditRow) : ChainSnapshotRow :=
  { id := numText 10 r.id
    createdAt := r.createdAt
    action := r.action
    status := r.status
    entityType := r.entityType
    entityId := r.entityId
    summary := r.summary
    previousHash := r.previousHash
    eventHash := r.eventHash }

structure ChainSnapshot where
  totalRows : ℕ
  head : List ChainSnapshotRow
  tail : List ChainSnapshotRow
  currentHead : Option JsString

inductive IntegrityResult
  | ok (rowsChecked : ℕ)
  | broken (brokenAt reason : JsString)
  | replayError (e : ReportError)

/-- The blocks of the pack that speak about the chain. -/
structure EvidencePack where
  environment : JsString
  hashChainSnapshot : ChainSnapshot
  integrity : IntegrityResult

def fetchChainSnapshot (tenantId environment : JsString) : ReportProgram ChainSnapshot := do
  let totalRows : ℕ ← query (.countChain tenantId environment)
  if totalRows = 0 then
    return ⟨0, [], [], none⟩
  let headRows ← query (.snapshot tenantId environment false snapshotRowLimit)
  let tailRows ← query (.snapshot tenantId environment true snapshotRowLimit)
  let head := List.map toSnapshotRow headRows
  let tail := (List.reverse tailRows).map toSnapshotRow
  return ⟨totalRows, head, tail, tail.getLast?.bind ChainSnapshotRow.eventHash⟩

/-- The `try` around the replay. -/
def replayVerdict (tenantId environment : JsString) (chainLimit : Option ℕ)
    (snapshot : ChainSnapshot) : ReportProgram IntegrityResult :=
  Prog.tryCatch
    (do
      let verdict ← (verifyAuditChain tenantId (some environment)
        ⟨none, some (chainLimit.getD 100000)⟩).lift
      match verdict with
      | .ok => return .ok snapshot.totalRows
      | .broken brokenAt reason => return .broken brokenAt reason)
    fun err => return .replayError err

def renderCompliancePack (tenantId environment : JsString) (chainLimit : Option ℕ) :
    ReportProgram EvidencePack := do
  let tenantRow : Option Tenant ← query (.tenantById tenantId)
  if tenantRow.isNone then
    throw (.inr (.tenantNotFound tenantId))
  let snapshot ← fetchChainSnapshot tenantId environment
  let integrity ← replayVerdict tenantId environment chainLimit snapshot
  return ⟨environment, snapshot, integrity⟩

/-! ## Daily anchors -/

/-- What the anchor job relies on in ethers.  `encodeRecordAnchor` is
    `encodeFunctionData('recordAnchor', ..)`, which throws when an argument does
    not fit its type. -/
structure Ethers where
  keccak256 : List UInt8 → JsString
  encodeRecordAnchor : JsString → ℤ → JsString → ℕ → Except JsString JsString

structure AnchorPayload where
  tenantId : JsString
  tenantIdHash : JsString
  dayUtc : ℤ
  terminalHash : JsString
  rowCountAtAnchor : ℕ

structure AnchorTx where
  tenantId : JsString
  environment : JsString
  dayUtc : ℤ
  payload : AnchorPayload
  data : JsString

structure AnchorError where
  tenantId : JsString
  environment : JsString
  error : ReportError

structure AnchorJobReport where
  dayUtc : ℤ
  tenantsScanned : ℕ
  tenantsToAnchor : ℕ
  staged : List AnchorTx
  errors : List AnchorError

/-- `ENVIRONMENTS`. -/
def environments : List JsString := [js "live", js "test"]

def dayUtcAsYYYYMMDD (ms : ℤ) : ℤ :=
  let date := civilDate (utcDay ms)
  date.year * 10000 + date.month * 100 + date.day

/-- Yesterday's UTC midnight. -/
def yesterdayUtc (now : ℕ) : ℤ := floorToUtcMidnight now - msPerDay

def computeTenantIdHash (ethers : Ethers) (tenantId : JsString) (environment : Option JsString) :
    JsString :=
  ethers.keccak256 (utf8 (tenantId ++ js ":" ++ environment.getD []))

/-- The payload for what `dayTerminal` answers. -/
def anchorPayload (ethers : Ethers) (tenantId : JsString) (environment : Option JsString) (day : ℤ) :
    Option (Option JsString × ℕ) → Option AnchorPayload
  | none => none
  | some (none, _) => none
  | some (some terminalHash, total) =>
      if terminalHash = [] then none
      else some
        { tenantId := tenantId
          tenantIdHash := computeTenantIdHash ethers tenantId environment
          dayUtc := dayUtcAsYYYYMMDD day
          terminalHash := terminalHash
          rowCountAtAnchor := total }

def computeDailyAnchorPayload (ethers : Ethers) (tenantId : JsString)
    (environment : Option JsString) (dayUtc : ℤ) : ReportProgram (Option AnchorPayload) := do
  let day := floorToUtcMidnight dayUtc
  let row ← query (.dayTerminal tenantId environment day)
  return anchorPayload ethers tenantId environment day row

def encodeRecordAnchorCall (ethers : Ethers) (payload : AnchorPayload) :
    Except ReportError JsString :=
  (ethers.encodeRecordAnchor payload.tenantIdHash payload.dayUtc payload.terminalHash
    payload.rowCountAtAnchor).mapError fun message => .inr (.invalidArgument message)

def hasExistingAnchor (tenantId : JsString) (environment : Option JsString) (dayUtc : ℤ) :
    ReportProgram Bool :=
  query (.existsAnchor tenantId environment (floorToUtcMidnight dayUtc))

/-- The self-audit row of a staged anchor. -/
def stagedEvent (tx : AnchorTx) (day : ℤ) : ChainedAuditPayload :=
  { tenantId := tx.tenantId
    environment := some tx.environment
    actorType := js "system"
    actorId := some (js "anchor-job")
    action := js "audit.anchor.staged"
    entityType := js "audit_anchor"
    entityId := some (tx.tenantId ++ js ":" ++ tx.environment ++ js ":" ++
      signedText 10 tx.payload.dayUtc)
    status := js "success"
    summary := js "Staged daily anchor for " ++ isoDay day
    metadata := .obj [(js "day_utc", .str (signedText 10 tx.payload.dayUtc)),
      (js "terminal_hash", .str tx.payload.terminalHash),
      (js "row_count", .str (numText 10 tx.payload.rowCountAtAnchor)),
      (js "tx_data", .str tx.data)] }

/-- `errors.push` in the `catch`. -/
def AnchorJobReport.withError (report : AnchorJobReport) (tenantId environment : JsString)
    (error : ReportError) : AnchorJobReport :=
  { report with errors := report.errors ++ [⟨tenantId, environment, error⟩] }

/-- The body of the inner loop; it adds to `report`. -/
def anchorEnvironment (ethers : Ethers) (day : ℤ) (tenantId : JsString) (report : AnchorJobReport)
    (environment : JsString) : ReportProgram AnchorJobReport :=
  Prog.tryCatch
    (do
      let payload ← computeDailyAnchorPayload ethers tenantId (some environment) day
      match payload with
      | none => return report
      | some payload =>
          let alreadyAnchored ← hasExistingAnchor tenantId (some environment) day
          if alreadyAnchored = true then
            return report
          let data ← Prog.ofExcept (encodeRecordAnchorCall ethers payload)
          let tx : AnchorTx := ⟨tenantId, environment, payload.dayUtc, payload, data⟩
          -- the transaction stays in the report when the append fails
          let report := { report with staged := report.staged ++ [tx] }
          Prog.tryCatch
            (do
              let _ ← (appendAuditEvent (stagedEvent tx day)).lift
              return report)
            fun err => return report.withError tenantId environment err)
    fun err => return report.withError tenantId environment err

/-- `resolveProviders(policy).auditAnchorProvider`; unknown values mean `'none'`. -/
def auditAnchorProvider (securityPolicy : Json) : JsString :=
  match securityPolicy.get? (js "audit_anchor_provider") with
  | some (.str provider) =>
      if [js "signed-transcript", js "base-sepolia", js "base-mainnet",
        js "witness-cosign"].contains provider then provider else js "none"
  | _ => js "none"

/-- The body of the outer loop. -/
def anchorTenant (ethers : Ethers) (day : ℤ) (report : AnchorJobReport)
    (tenant : JsString × Json) : ReportProgram AnchorJobReport :=
  if auditAnchorProvider tenant.2 = js "none" then return report
  else environments.foldlM (anchorEnvironment ethers day tenant.1) report

/-- `floorToUtcMidnight(dayUtc ?? yesterdayUtc())`. -/
def anchorDay : Option ℤ → ReportProgram ℤ
  | some ms => return floorToUtcMidnight ms
  | none => do
      let now ← query .now
      return floorToUtcMidnight (yesterdayUtc now)

def runDailyAnchorJob (ethers : Ethers) (dayUtc : Option ℤ) : ReportProgram AnchorJobReport := do
  let day ← anchorDay dayUtc
  let tenants : List (JsString × Json) ← query .activeTenants
  let report ← tenants.foldlM (anchorTenant ethers day) ⟨day, tenants.length, 0, [], []⟩
  return { report with tenantsToAnchor := report.staged.length }

/-! ## The system -/

/-- One statement of thread `t`. -/
def reportsExec (pg : Postgres) (t : ℕ) : (o : reportsSig.Op) → Oracle → Reports →
    Option (Except ReportError (reportsSig.Resp o) × Reports)
  | .inl o, ω, w =>
      execSum (fun o w => exec pg t o ω w) Reports.audit (fun w a => { w with audit := a }) o w
  | .inr q, .proceed, w => some ((q.answer w).mapError .inl, w)
  | .inr _, .fail e, w => some (.error (.inl e), w)

/-- Steps of the chain's environment, and other writers of the two tables. -/
inductive ReportsEnv
  | audit (e : Env)
  | setTenants (tenants : List Tenant)
  | setAnchors (anchors : List AuditAnchor)

def reportsEnv : ReportsEnv → Reports → Option Reports
  | .audit e, w => (env e w.audit).map fun a => { w with audit := a }
  | .setTenants tenants, w => some { w with tenants := tenants }
  | .setAnchors anchors, w => some { w with anchors := anchors }

inductive ReportsCall
  | audit (a : Call)
  | pack (tenantId environment : JsString) (chainLimit : Option ℕ)
  | payload (tenantId : JsString) (environment : Option JsString) (dayUtc : ℤ)
  | job (dayUtc : Option ℤ)

inductive ReportsResult
  | audit (r : Result)
  | pack (p : EvidencePack)
  | payload (p : Option AnchorPayload)
  | job (r : AnchorJobReport)

def reportsCode (ethers : Ethers) : ReportsCall → ReportProgram ReportsResult
  | .audit a => do return .audit (← (code a).lift)
  | .pack tenantId environment chainLimit => do
      return .pack (← renderCompliancePack tenantId environment chainLimit)
  | .payload tenantId environment dayUtc => do
      return .payload (← computeDailyAnchorPayload ethers tenantId environment dayUtc)
  | .job dayUtc => do return .job (← runDailyAnchorJob ethers dayUtc)

/-- Any number of appends, replays, packs and anchor jobs. -/
abbrev reports (pg : Postgres) (ethers : Ethers) :
    System reportsSig ReportError ReportsResult ReportsCall Reports Oracle ReportsEnv :=
  { code := reportsCode ethers, exec := reportsExec pg, env := reportsEnv }

/-! ## What a step does to the table -/

/-- A statement that writes nothing: at most it ends a transaction, opens an empty
    one or takes a lock. -/
structure Quiet (w w' : World) : Prop where
  clock : w'.clock = w.clock
  nextId : w'.nextId = w.nextId
  db : w'.store.db = w.store.db
  conns : ∀ t tx, w'.store.conns t = .active tx →
    w.store.conns t = .active tx ∨ tx = ⟨w.clock, []⟩

theorem Quiet.refl (w : World) : Quiet w w := ⟨rfl, rfl, rfl, fun _ _ => .inl⟩

theorem quiet_drop (w : World) (t : ℕ) {c : Conn AuditRow} (hc : ∀ tx, c ≠ .active tx) :
    Quiet w (w.setStore (w.store.drop t c)) := by
  refine ⟨rfl, rfl, rfl, fun t' tx htx => ?_⟩
  have hconns : (w.store.drop t c).conns t' = .active tx := htx
  by_cases ht : t' = t
  · subst ht
    rw [Store.drop_conns_self] at hconns
    exact absurd hconns (hc tx)
  · exact .inl ((Store.drop_conns_of_ne ht c).symm.trans hconns)

theorem quiet_failed (w : World) (t : ℕ) : Quiet w (w.failed t) := quiet_drop w t fun tx => by simp

theorem quiet_begin (w : World) (t : ℕ) :
    Quiet w (w.setStore (w.store.begin t w.clock)) := by
  refine ⟨rfl, rfl, rfl, fun t' tx htx => ?_⟩
  have hconns : (w.store.begin t w.clock).conns t' = .active tx := htx
  by_cases ht : t' = t
  · subst ht
    rw [Store.begin_conns_self] at hconns
    cases hconns
    exact .inr rfl
  · exact .inl ((Store.setConn_conns_of_ne ht _).symm.trans hconns)

theorem quiet_acquire {w : World} {t : ℕ} {k : ℤ} {s : Store (List AuditRow) ℤ AuditRow}
    (h : w.store.acquire t k = some s) : Quiet w (w.setStore s) := by
  refine ⟨rfl, rfl, Store.acquire_db h, fun t' tx htx => .inl ?_⟩
  have hconns : s.conns t' = .active tx := htx
  rwa [Store.acquire_conns h] at hconns

/-- Everything a statement can do to the tables: nothing, one INSERT into an open
    transaction, or the COMMIT of one. -/
theorem exec_cases {pg : Postgres} {t : ℕ} {o : Op} {ω : Oracle} {w w' : World}
    {r : Except DbError o.Resp} (h : exec pg t o ω w = some (r, w')) :
    Quiet w w' ∨
    (∃ v tx u m, o = .insert v ∧ w.store.conns t = .active tx ∧
      w' = { w.setStore (w.store.write t (v.row pg w.nextId tx.now u m)) with
        nextId := w.nextId + 1 }) ∨
    (∃ tx, o = .commit ∧ w.store.conns t = .active tx ∧
      w' = w.setStore (w.store.commit addRow t)) := by
  have htx : ∀ {α : Type} {run : Tx AuditRow → Option (Except DbError α × World)}
      {r : Except DbError α}, inTransaction t ω w run = some (r, w') →
      (∃ tx, w.store.conns t = .active tx ∧ run tx = some (r, w')) ∨ Quiet w w' := by
    intro α run r hrun
    unfold inTransaction at hrun
    split at hrun
    · next tx hconn => exact .inl ⟨tx, hconn, hrun⟩
    · cases hrun
      exact .inr (quiet_failed w t)
    all_goals
      cases hrun
      exact .inr (.refl w)
  cases o with
  | connect => cases ω <;> cases h <;> exact .inl (.refl w)
  | begin =>
      cases ω with
      | fail e =>
          cases h
          exact .inl (.refl w)
      | proceed =>
          simp only [exec] at h
          split at h <;> cases h
          · exact .inl (quiet_begin w t)
          · exact .inl (.refl w)
          · exact .inl (.refl w)
  | advisoryXactLock tenantId =>
      obtain ⟨tx, -, hrun⟩ | hquiet := htx h
      · obtain ⟨s, hs, heq⟩ := Option.map_eq_some_iff.mp hrun
        cases heq
        exact .inl (quiet_acquire hs)
      · exact .inl hquiet
  | selectHead tenantId environment =>
      obtain ⟨tx, -, hrun⟩ | hquiet := htx h
      · split at hrun <;> cases hrun
        · exact .inl (.refl w)
        · exact .inl (quiet_failed w t)
      · exact .inl hquiet
  | insert v =>
      obtain ⟨tx, hconn, hrun⟩ | hquiet := htx h
      · split at hrun
        · next u m hu hm =>
            cases hrun
            exact .inr (.inl ⟨v, tx, u, m, rfl, hconn, rfl⟩)
        · cases hrun
          exact .inl (quiet_failed w t)
        · cases hrun
          exact .inl (quiet_failed w t)
      · exact .inl hquiet
  | commit =>
      obtain ⟨tx, hconn, hrun⟩ | hquiet := htx h
      · cases hrun
        exact .inr (.inr ⟨tx, rfl, hconn, rfl⟩)
      · exact .inl hquiet
  | rollback => cases ω <;> cases h <;> exact .inl (quiet_drop w t fun tx => by simp)
  | emit event => cases ω <;> cases h <;> exact .inl ⟨rfl, rfl, rfl, fun _ _ => .inl⟩
  | selectChain tenantId environment startId limit =>
      cases ω with
      | fail e =>
          cases h
          exact .inl (.refl w)
      | proceed =>
          simp only [exec] at h
          split at h <;> cases h <;> exact .inl (.refl w)

theorem commit_db {w : World} {t : ℕ} {tx : Tx AuditRow} (h : w.store.conns t = .active tx) :
    (w.setStore (w.store.commit addRow t)).store.db = w.store.db ++ tx.writes := by
  show (w.store.commit addRow t).db = w.store.db ++ tx.writes
  rw [Store.commit_of_active h]
  exact foldl_addRow _ _

/-- Only a COMMIT changes the committed rows: it adds those of its
    transaction. -/
theorem exec_db {pg : Postgres} {t : ℕ} {o : Op} {ω : Oracle} {w w' : World}
    {r : Except DbError o.Resp} (h : exec pg t o ω w = some (r, w')) :
    w'.store.db = w.store.db ∨ ∃ tx, o = .commit ∧ w.store.conns t = .active tx ∧
      w'.store.db = w.store.db ++ tx.writes := by
  obtain hquiet | ⟨v, tx, u, m, -, -, rfl⟩ | ⟨tx, rfl, hconn, rfl⟩ := exec_cases h
  · exact .inl hquiet.db
  · exact .inl (Store.write_db _ _ _)
  · exact .inr ⟨tx, rfl, hconn, commit_db hconn⟩

theorem exec_clock {pg : Postgres} {t : ℕ} {o : Op} {ω : Oracle} {w w' : World}
    {r : Except DbError o.Resp} (h : exec pg t o ω w = some (r, w')) : w'.clock = w.clock := by
  obtain hquiet | ⟨v, tx, u, m, -, -, rfl⟩ | ⟨tx, -, -, rfl⟩ := exec_cases h
  · exact hquiet.clock
  · rfl
  · rfl

section Steps

variable {pg : Postgres} {t : ℕ} {ω : Oracle} {w w' : Reports}

theorem reportsExec_inl {o : Op} {r : Except ReportError o.Resp}
    (h : reportsExec pg t (.inl o) ω w = some (r, w')) :
    ∃ r₀ a, exec pg t o ω w.audit = some (r₀, a) ∧ r = r₀.mapError Sum.inl ∧
      w' = { w with audit := a } := by
  have hsum : execSum (S := sig) (fun o w => exec pg t o ω w) Reports.audit
      (fun w a => { w with audit := a }) o w = some (r, w') := h
  exact execSum_eq_some hsum

theorem reportsExec_db {o : reportsSig.Op} {r : Except ReportError (reportsSig.Resp o)}
    (h : reportsExec pg t o ω w = some (r, w')) :
    w'.audit.store.db = w.audit.store.db ∨ ∃ tx, o = .inl .commit ∧
      w.audit.store.conns t = .active tx ∧
      w'.audit.store.db = w.audit.store.db ++ tx.writes := by
  cases o with
  | inl o =>
      obtain ⟨r₀, a, hx, -, rfl⟩ := reportsExec_inl h
      obtain hsame | ⟨tx, rfl, hconn, hdb⟩ := exec_db hx
      · exact .inl hsame
      · exact .inr ⟨tx, rfl, hconn, hdb⟩
  | inr q => cases ω <;> cases h <;> exact .inl rfl

theorem reportsEnv_db {e : ReportsEnv} (h : reportsEnv e w = some w') :
    w'.audit.store.db = w.audit.store.db := by
  cases e with
  | audit e =>
      obtain ⟨a, ha, rfl⟩ := Option.map_eq_some_iff.mp h
      cases e with
      | tick ms =>
          cases ha
          rfl
      | cut t =>
          simp only [env] at ha
          split at ha <;> cases ha <;> rfl
  | setTenants tenants =>
      cases h
      rfl
  | setAnchors anchors =>
      cases h
      rfl

/-- A SELECT changes nothing and answers from the tables as they are. -/
theorem reportsExec_query {q : Query} {r : Except ReportError q.Resp}
    (h : reportsExec pg t (.inr q) ω w = some (r, w')) :
    w' = w ∧ (r = (q.answer w).mapError .inl ∨ ∃ e, r = .error (.inl e)) := by
  cases ω with
  | proceed =>
      cases h
      exact ⟨rfl, .inl rfl⟩
  | fail e =>
      cases h
      exact ⟨rfl, .inr ⟨e, rfl⟩⟩

theorem reportsExec_query_ok {q : Query} {a : q.Resp}
    (h : reportsExec pg t (.inr q) ω w = some (.ok a, w')) : q.answer w = .ok a := by
  obtain ⟨-, hans | ⟨e, he⟩⟩ := reportsExec_query h
  · cases hq : q.answer w with
    | ok b =>
        rw [hq] at hans
        cases hans
        rfl
    | error e =>
        rw [hq] at hans
        cases hans
  · cases he

/-- An answer about the tenant that a text names. -/
theorem forTenant_eq_ok {α : Type} {text : JsString} {answer : Uuid → α} {a : α}
    (h : forTenant text answer = .ok a) : ∃ u, Uuid.parse text = some u ∧ a = answer u := by
  unfold forTenant at h
  split at h
  · next u hu =>
      cases h
      exact ⟨u, hu, rfl⟩
  · cases h

/-- The rows that the replay reads. -/
theorem reportsExec_selectChain {text startId : JsString} {e : Option JsString} {n : ℕ}
    {rows : List AuditRow}
    (h : reportsExec pg t (.inl (.selectChain text e startId n)) ω w = some (.ok rows, w')) :
    w' = w ∧ ∃ u start, Uuid.parse text = some u ∧ parseBigint startId = some start ∧
      rows = ((chainOf w.audit.store.db u e).filter fun r => start ≤ r.id).take n := by
  obtain ⟨r₀, a, hx, hr, rfl⟩ := reportsExec_inl h
  cases ω with
  | fail err =>
      cases hx
      cases hr
  | proceed =>
      simp only [exec] at hx
      split at hx
      · next u start hu hstart =>
          cases hx
          cases hr
          exact ⟨rfl, u, start, hu, hstart, rfl⟩
      · cases hx
        cases hr

end Steps

end ZeroAuth.Audit
