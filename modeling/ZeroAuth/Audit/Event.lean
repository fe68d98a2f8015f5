/-
  ZeroAuth.Audit.Event

  Audit payloads, their hash, and the rows of `audit_events`.

  The hashed bytes determine the payload up to the order of metadata keys and,
  as far as UTF-8 can tell, the previous hash (`samePayload_of_preimage`).
-/

import ZeroAuth.Audit.Canonical
import ZeroAuth.Lib.Sha256
import ZeroAuth.Pg.Columns

namespace ZeroAuth.Audit

open ZeroAuth.Lib ZeroAuth.Js ZeroAuth.Pg

/-- `GENESIS_PREVIOUS_HASH`. -/
def genesisPreviousHash : JsString := js "genesis"

/-- The fields that contribute to the event hash. -/
structure ChainedAuditPayload where
  tenantId : JsString
  environment : Option JsString
  actorType : JsString
  actorId : Option JsString
  action : JsString
  entityType : JsString
  entityId : Option JsString
  status : JsString
  summary : JsString
  metadata : JsVal

/-- A nullable string as a JSON value. -/
def nullable : Option JsString → Json
  | none => .null
  | some s => .str s

/-- The properties of a payload, with the given metadata. -/
def ChainedAuditPayload.props (p : ChainedAuditPayload) (metadata : Json) :
    List (JsString × Json) :=
  [(js "tenant_id", .str p.tenantId), (js "environment", nullable p.environment),
    (js "actor_type", .str p.actorType), (js "actor_id", nullable p.actorId),
    (js "action", .str p.action), (js "entity_type", .str p.entityType),
    (js "entity_id", nullable p.entityId), (js "status", .str p.status),
    (js "summary", .str p.summary), (js "metadata", metadata)]

def ofNullable : Option JsString → JsVal
  | none => .null
  | some s => .str s

/-- The payload as the object that `canonicalize` is given. -/
def ChainedAuditPayload.toVal (p : ChainedAuditPayload) : JsVal :=
  .obj [(js "tenant_id", .str p.tenantId), (js "environment", ofNullable p.environment),
    (js "actor_type", .str p.actorType), (js "actor_id", ofNullable p.actorId),
    (js "action", .str p.action), (js "entity_type", .str p.entityType),
    (js "entity_id", ofNullable p.entityId), (js "status", .str p.status),
    (js "summary", .str p.summary), (js "metadata", p.metadata)]

/-- The bytes that `computeEventHash` feeds to the hash. -/
def preimage (payload : ChainedAuditPayload) (previousHash : JsString) : List UInt8 :=
  utf8 ((canonicalize payload.toVal).getD (js "undefined")) ++ utf8 (js "|") ++ utf8 previousHash

def computeEventHash (payload : ChainedAuditPayload) (previousHash : JsString) : JsString :=
  js "0x" ++ hexBytes (sha256 (preimage payload previousHash))

/-- A row of `audit_events`.  The hash columns are nullable. -/
structure AuditRow where
  id : ℕ
  tenantId : Uuid
  environment : Option JsString
  actorType : JsString
  actorId : Option JsString
  action : JsString
  entityType : JsString
  entityId : Option JsString
  status : JsString
  summary : JsString
  metadata : Json
  createdAt : ℕ
  previousHash : Option JsString
  eventHash : Option JsString

/-- `row.metadata ?? {}`. -/
def metadataOrEmpty : Json → JsVal
  | .null => .obj []
  | j => .ofJson j

/-- The payload that replay rebuilds from a row. -/
def AuditRow.payload (row : AuditRow) : ChainedAuditPayload :=
  { tenantId := row.tenantId.text
    environment := row.environment
    actorType := row.actorType
    actorId := row.actorId
    action := row.action
    entityType := row.entityType
    entityId := row.entityId
    status := row.status
    summary := row.summary
    metadata := metadataOrEmpty row.metadata }

/-! ## What the hashed bytes determine -/

/-- Equal payloads, up to the order of keys inside the metadata. -/
structure SamePayload (p q : ChainedAuditPayload) : Prop where
  tenantId : p.tenantId = q.tenantId
  environment : p.environment = q.environment
  actorType : p.actorType = q.actorType
  actorId : p.actorId = q.actorId
  action : p.action = q.action
  entityType : p.entityType = q.entityType
  entityId : p.entityId = q.entityId
  status : p.status = q.status
  summary : p.summary = q.summary
  metadata : p.metadata.toJson.map Json.norm = q.metadata.toJson.map Json.norm

theorem plain_ofNullable (o : Option JsString) : (ofNullable o).Plain = true := by
  cases o <;> rfl

theorem toJson_ofNullable (o : Option JsString) : (ofNullable o).toJson = some (nullable o) := by
  cases o <;> rfl

theorem norm_nullable (o : Option JsString) : (nullable o).norm = nullable o := by
  cases o <;> rfl

theorem plain_metadataOrEmpty (j : Json) : (metadataOrEmpty j).Plain = true := by
  cases j with
  | null => rfl
  | _ => exact JsVal.plain_ofJson _

theorem ChainedAuditPayload.plain_toVal {p : ChainedAuditPayload} (h : p.metadata.Plain = true) :
    p.toVal.Plain = true := by
  simp [toVal, JsVal.Plain, JsVal.PlainProps, plain_ofNullable, h]

theorem ChainedAuditPayload.toJson_toVal {p : ChainedAuditPayload} {m : Json}
    (h : p.metadata.toJson = some m) : p.toVal.toJson = some (.obj (p.props m)) := by
  simp [toVal, props, JsVal.toJson, JsVal.toJsonProps, toJson_ofNullable, h]

/-- The properties in canonical order. -/
theorem ChainedAuditPayload.norm_props (p : ChainedAuditPayload) (m : Json) :
    (Json.obj (p.props m)).norm = .obj
      [(js "action", .str p.action), (js "actor_id", nullable p.actorId),
        (js "actor_type", .str p.actorType), (js "entity_id", nullable p.entityId),
        (js "entity_type", .str p.entityType), (js "environment", nullable p.environment),
        (js "metadata", m.norm), (js "status", .str p.status), (js "summary", .str p.summary),
        (js "tenant_id", .str p.tenantId)] := by
  simp only [props, Json.norm, Json.normProps, norm_nullable]
  rfl

/-- The canonical text of a payload with plain metadata. -/
theorem ChainedAuditPayload.canonicalize_toVal {p : ChainedAuditPayload}
    (h : p.metadata.Plain = true) :
    ∃ m, p.metadata.toJson = some m ∧
      canonicalize p.toVal = some (Json.obj (p.props m)).norm.print := by
  obtain ⟨m, hm, -⟩ := canonicalize_of_plain _ h
  obtain ⟨j, hj, hc⟩ := canonicalize_of_plain _ (plain_toVal h)
  rw [toJson_toVal hm] at hj
  cases hj
  exact ⟨m, hm, hc⟩

/-- Payloads that agree up to key order have the same canonical text. -/
theorem SamePayload.canonicalize_eq {p q : ChainedAuditPayload} (h : SamePayload p q)
    (hp : p.metadata.Plain = true) (hq : q.metadata.Plain = true) :
    canonicalize p.toVal = canonicalize q.toVal := by
  obtain ⟨m, hm, hpc⟩ := p.canonicalize_toVal hp
  obtain ⟨n, hn, hqc⟩ := q.canonicalize_toVal hq
  have hmn := h.metadata
  rw [hm, hn, Option.map_some, Option.map_some] at hmn
  rw [hpc, hqc, p.norm_props, q.norm_props, h.tenantId, h.environment, h.actorType, h.actorId,
    h.action, h.entityType, h.entityId, h.status, h.summary, Option.some.inj hmn]

theorem SamePayload.computeEventHash_eq {p q : ChainedAuditPayload} (h : SamePayload p q)
    (hp : p.metadata.Plain = true) (hq : q.metadata.Plain = true) (x : JsString) :
    computeEventHash p x = computeEventHash q x := by
  rw [computeEventHash, computeEventHash, preimage, preimage, h.canonicalize_eq hp hq]

/-- The input of `recordAuditEvent`; absent fields are `none` and `undefined`. -/
structure AuditInput where
  environment : Option JsString
  actorType : JsString
  actorId : Option JsString := none
  action : JsString
  entityType : JsString
  entityId : Option JsString
  status : JsString
  summary : JsString
  metadata : JsVal := JsVal.undef

/-- Anything but an object is replaced by `{}`. -/
def sanitizeMetadata : JsVal → JsVal
  | .obj props => .obj props
  | .boxed props json => .boxed props json
  | _ => .obj []

def AuditInput.payload (input : AuditInput) (tenantId : JsString) : ChainedAuditPayload :=
  { tenantId := tenantId
    environment := input.environment
    actorType := input.actorType
    actorId := input.actorId
    action := input.action
    entityType := input.entityType
    entityId := input.entityId
    status := input.status
    summary := input.summary
    metadata := sanitizeMetadata input.metadata }

end ZeroAuth.Audit
