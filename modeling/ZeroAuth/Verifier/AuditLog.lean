/-
  ZeroAuth.Verifier.AuditLog

  The verifier's own audit log, src/verifier/src/audit-log.ts: one SQLite table
  and the two module variables that hold the end of its hash chain.

  SQLite keeps text as UTF-8, so a row is hashed before its strings are
  stored and may read back differently: a lone surrogate comes back as U+FFFD.
  An INSERT may fail and then has no effect.  A restart of the process loses the
  module variables and keeps the table.
-/

import ZeroAuth.Js.Json
import ZeroAuth.Lib.Sha256
import ZeroAuth.Pg.Columns

namespace ZeroAuth.Verifier

open ZeroAuth.Lib ZeroAuth.Js ZeroAuth.Pg

/-! ## Rows -/

/-- A TEXT value: UTF-8, so without lone surrogates. -/
structure SqlText where
  text : JsString
  wellFormed : WellFormed text = true
  deriving DecidableEq

/-- Bind a string. -/
def SqlText.ofString (s : JsString) : SqlText :=
  ⟨(scalars s).flatMap charUnits, wellFormed_flatMap_charUnits _⟩

/-- A row of `verifier_events` without its `entry_hash`; `τ` is the type of the
    text columns. -/
structure Entry (τ : Type) where
  id : τ
  sequence : ℤ
  tenantId : τ
  environment : τ
  circuitVersion : τ
  correlationId : τ
  verified : ℤ
  structuralFallback : ℤ
  proofHash : τ
  pubSignalsHash : τ
  latencyUs : ℤ
  createdAt : τ
  prevHash : τ
  deriving DecidableEq

structure AuditRow (τ : Type) extends Entry τ where
  entryHash : τ
  deriving DecidableEq

def Entry.map {τ σ : Type} (f : τ → σ) (e : Entry τ) : Entry σ :=
  ⟨f e.id, e.sequence, f e.tenantId, f e.environment, f e.circuitVersion, f e.correlationId,
    e.verified, e.structuralFallback, f e.proofHash, f e.pubSignalsHash, e.latencyUs,
    f e.createdAt, f e.prevHash⟩

def AuditRow.map {τ σ : Type} (f : τ → σ) (r : AuditRow τ) : AuditRow σ :=
  ⟨r.toEntry.map f, f r.entryHash⟩

/-- A row as SQLite holds it. -/
abbrev StoredRow := AuditRow SqlText

/-- A row as a SELECT reads it back. -/
def StoredRow.read (r : StoredRow) : AuditRow JsString := r.map SqlText.text

/-! ## The hash chain -/

/-- `'0'.repeat(64)`. -/
def genesisPrevHash : JsString := List.replicate 64 48

def Entry.props (e : Entry JsString) : List (JsString × Json) :=
  [(js "id", .str e.id), (js "sequence", .num (.ofInt e.sequence)),
    (js "tenant_id", .str e.tenantId), (js "environment", .str e.environment),
    (js "circuit_version", .str e.circuitVersion), (js "correlation_id", .str e.correlationId),
    (js "verified", .num (.ofInt e.verified)),
    (js "structural_fallback", .num (.ofInt e.structuralFallback)),
    (js "proof_hash", .str e.proofHash), (js "pub_signals_hash", .str e.pubSignalsHash),
    (js "latency_us", .num (.ofInt e.latencyUs)), (js "created_at", .str e.createdAt),
    (js "prev_hash", .str e.prevHash)]

/-- JSON with sorted keys. -/
def canonicalSerialize (row : Entry JsString) : JsString := (Json.obj (Json.sortProps row.props)).print

/-- The bytes that are hashed. -/
def preimage (row : Entry JsString) (prevHash : JsString) : List UInt8 :=
  utf8 (canonicalSerialize row ++ prevHash)

def computeEntryHash (row : Entry JsString) (prevHash : JsString) : JsString :=
  hexBytes (sha256 (preimage row prevHash))

structure ChainVerificationResult where
  ok : Bool
  rowsChecked : ℕ
  firstBadSequence : Option ℤ
  firstBadReason : Option JsString
  deriving DecidableEq

/-- The loop of `verifyChain`, at `prevHash` with `checked` rows behind it. -/
def verifyRows (prevHash : JsString) (checked : ℕ) :
    List (AuditRow JsString) → ChainVerificationResult
  | [] => ⟨true, checked, none, none⟩
  | row :: rows =>
      if row.prevHash ≠ prevHash then
        ⟨false, checked, some row.sequence, some (js "prev_hash mismatch: row claims prev=" ++
          row.prevHash.take 12 ++ js " but chain has prev=" ++ prevHash.take 12)⟩
      else
        let computed := computeEntryHash row.toEntry prevHash
        if computed ≠ row.entryHash then
          ⟨false, checked, some row.sequence, some (js "entry_hash mismatch: stored=" ++
            row.entryHash.take 12 ++ js " computed=" ++ computed.take 12)⟩
        else verifyRows row.entryHash (checked + 1) rows

/-! ## The process and its table -/

/-- The table, in insertion order, and the module variables. -/
structure Log where
  rows : List StoredRow
  opened : Bool
  nextSequence : ℤ
  lastEntryHash : JsString

/-- A process that has just started. -/
def Log.booted (rows : List StoredRow) : Log := ⟨rows, false, 0, genesisPrevHash⟩

inductive Failure
  | notInitialized
  | sqlite
  deriving DecidableEq

/-- What the outside decides about one INSERT: the new id, the time as
    `toISOString` prints it, and whether the statement fails. -/
structure Draw where
  id : Uuid
  createdAt : JsString
  isAscii : IsAscii createdAt
  fails : Bool

/-- The rows in `ORDER BY sequence`. -/
def bySequence (rows : List StoredRow) : List StoredRow :=
  rows.insertionSort fun r s => r.sequence ≤ s.sequence

/-- `id` is the primary key and `entry_hash` is unique. -/
def insertRow (d : Draw) (row : AuditRow JsString) (s : Log) : Except Failure Log :=
  let stored := row.map SqlText.ofString
  if s.opened = false then .error .notInitialized
  else if d.fails = true ∨ ∃ r ∈ s.rows, r.id = stored.id ∨ r.entryHash = stored.entryHash then
    .error .sqlite
  else .ok { s with rows := s.rows ++ [stored] }

/-- `{ ...partialRow, entry_hash }`. -/
def Entry.hashed (e : Entry JsString) (prevHash : JsString) : AuditRow JsString :=
  ⟨e, computeEntryHash e prevHash⟩

def genesisEntry (d : Draw) : Entry JsString :=
  { id := d.id.text
    sequence := 0
    tenantId := js "system"
    environment := js "system"
    circuitVersion := js "genesis"
    correlationId := d.id.text
    verified := 1
    structuralFallback := 0
    proofHash := genesisPrevHash
    pubSignalsHash := genesisPrevHash
    latencyUs := 0
    createdAt := d.createdAt
    prevHash := genesisPrevHash }

def insertGenesisRow (d : Draw) (s : Log) : Except Failure Unit × Log :=
  let row := (genesisEntry d).hashed genesisPrevHash
  match insertRow d row s with
  | .error e => (.error e, s)
  | .ok s' => (.ok (), { s' with nextSequence := 1, lastEntryHash := row.entryHash })

def initAuditLog (d : Draw) (s : Log) : Except Failure Unit × Log :=
  if s.opened = true then (.ok (), s)
  else
    let s := { s with opened := true }
    -- `MAX(sequence)` and the hash of the row that has it
    match (bySequence s.rows).getLast? with
    | none => insertGenesisRow d s
    | some last =>
        (.ok (), { s with nextSequence := last.sequence + 1, lastEntryHash := last.entryHash.text })

structure AuditAppendInput where
  tenantId : JsString
  environment : JsString
  circuitVersion : JsString
  correlationId : JsString
  verified : Bool
  structuralFallback : Bool
  proofHash : JsString
  pubSignalsHash : JsString
  latencyUs : ℕ

/-- The row that `appendEvent` builds. -/
def AuditAppendInput.entry (input : AuditAppendInput) (d : Draw) (sequence : ℤ)
    (prevHash : JsString) : Entry JsString :=
  { id := d.id.text
    sequence := sequence
    tenantId := input.tenantId
    environment := input.environment
    circuitVersion := input.circuitVersion
    correlationId := input.correlationId
    verified := if input.verified then 1 else 0
    structuralFallback := if input.structuralFallback then 1 else 0
    proofHash := input.proofHash
    pubSignalsHash := input.pubSignalsHash
    latencyUs := input.latencyUs
    createdAt := d.createdAt
    prevHash := prevHash }

def appendEvent (input : AuditAppendInput) (d : Draw) (s : Log) : Except Failure JsString × Log :=
  let row := (input.entry d s.nextSequence s.lastEntryHash).hashed s.lastEntryHash
  match insertRow d row s with
  | .error e => (.error e, s)
  | .ok s' =>
      (.ok d.id.text,
        { s' with nextSequence := s'.nextSequence + 1, lastEntryHash := row.entryHash })

/-- The loop of `verifyChain` over the rows that its SELECT answers. -/
def verifyTable (rows : List StoredRow) : ChainVerificationResult :=
  verifyRows genesisPrevHash 0 (rows.map StoredRow.read)

def verifyChain (s : Log) : Except Failure ChainVerificationResult :=
  if s.opened = false then .error .notInitialized
  else .ok (verifyTable (bySequence s.rows))

/-! ## The route -/

/-- `hashPayload`. -/
def hashPayload : Json → JsString
  | .str s => hexBytes (sha256 (utf8 s))
  | payload => hexBytes (sha256 (utf8 payload.print))

/-- The fields of the body of POST /verify that are recorded. -/
structure VerifyBody where
  proof : Json
  publicSignals : Json
  tenantId : Option JsString
  environment : Option JsString
  circuitVersion : Option JsString
  correlationId : Option JsString

/-- What the route knows after the verification. -/
structure Outcome where
  verified : Bool
  structuralFallback : Bool
  latencyUs : ℕ

/-- What the route passes to `appendEvent`; `circuitVersion` is the configured
    one. -/
def VerifyBody.appendInput (circuitVersion : JsString) (body : VerifyBody) (out : Outcome) :
    AuditAppendInput :=
  { tenantId := body.tenantId.getD (js "unspecified")
    environment := if body.environment = some (js "test") then js "test" else js "live"
    circuitVersion := body.circuitVersion.getD circuitVersion
    correlationId := body.correlationId.getD []
    verified := out.verified
    structuralFallback := out.structuralFallback
    proofHash := hashPayload body.proof
    pubSignalsHash := hashPayload body.publicSignals
    latencyUs := out.latencyUs }

/-! ## Runs -/

inductive Step
  | init (d : Draw)
  | verify (body : VerifyBody) (out : Outcome) (d : Draw)
  | restart

def Log.step (circuitVersion : JsString) (s : Log) : Step → Log
  | .init d => (initAuditLog d s).2
  | .verify body out d => (appendEvent (body.appendInput circuitVersion out) d s).2
  | .restart => .booted s.rows

/-- A run from an empty file. -/
def run (circuitVersion : JsString) (steps : List Step) : Log :=
  steps.foldl (Log.step circuitVersion) (.booted [])

end ZeroAuth.Verifier
