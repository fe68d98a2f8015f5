/-
  ZeroAuth.Audit.VerificationEvents

  The per-tenant fan-out of src/services/verification-events.ts: which audit rows
  become events once they are committed, what an event carries, and what an open
  subscription is given of them.

  An event is built from the payload of the row, the id that the INSERT returned
  and the time after the COMMIT.
-/

import ZeroAuth.Audit.Event

namespace ZeroAuth.Audit

open ZeroAuth.Js

/-- `VERIFICATION_ACTIONS`. -/
def verificationActions : List JsString :=
  [js "verification.recorded", js "verification.verify_success",
    js "verification.verify_failure", js "auth.verify_success", js "auth.verify_failure"]

def isVerificationAction (action : JsString) : Bool := verificationActions.contains action

inductive EventEnvironment
  | live
  | test
  deriving DecidableEq

inductive EventStatus
  | success
  | failure
  deriving DecidableEq

/-- What an event says of its row. -/
structure VerificationEvent where
  tenantId : JsString
  auditId : JsString
  environment : Option EventEnvironment
  action : JsString
  status : EventStatus
  did : Option JsString
  latencyMs : Option JsVal
  proofHash : Option JsString
  reason : Option JsString

structure VerificationEventPayload extends VerificationEvent where
  createdAt : JsString

/-- `meta[key]`, where `meta` is `payload.metadata ?? {}`. -/
def metaProp (metadata : JsVal) (key : JsString) : JsVal :=
  match metadata with
  | .obj props | .boxed props _ => (props.lookup key).getD JsVal.undef
  | _ => JsVal.undef

/-- `typeof v === 'string' ? v : null`. -/
def stringOrNull : JsVal → Option JsString
  | .str s => some s
  | _ => none

/-- `typeof v === 'number' ? v : null`. -/
def numberOrNull : JsVal → Option JsVal
  | .num n => some (.num n)
  | .nonFinite => some .nonFinite
  | _ => none

/-- The event of a row, but for its time. -/
def eventOf (payload : ChainedAuditPayload) (auditId : JsString) : VerificationEvent :=
  let metadata := payload.metadata
  { tenantId := payload.tenantId
    auditId := auditId
    environment :=
      if payload.environment = some (js "live") then some .live
      else if payload.environment = some (js "test") then some .test
      else none
    action := payload.action
    status := if payload.status = js "failure" then .failure else .success
    did := stringOrNull (metaProp metadata (js "did"))
    latencyMs := (numberOrNull (metaProp metadata (js "latency_ms"))).or
      (numberOrNull (metaProp metadata (js "latencyMs")))
    proofHash := (stringOrNull (metaProp metadata (js "proof_hash"))).or
      (stringOrNull (metaProp metadata (js "proofHash")))
    reason := stringOrNull (metaProp metadata (js "reason")) }

/-- A row of `audit_events` whose transaction has committed. -/
structure CommittedRow where
  payload : ChainedAuditPayload
  id : JsString
  committedAt : JsString

/-- What `appendAuditEvent` emits after its COMMIT. -/
def verificationEvent (row : CommittedRow) : Option VerificationEventPayload :=
  if isVerificationAction row.payload.action = true then
    some { eventOf row.payload row.id with createdAt := row.committedAt }
  else none

/-- What a subscription of `tenantId` is given while `rows` are committed. -/
def received (tenantId : JsString) (rows : List CommittedRow) : List VerificationEventPayload :=
  (rows.filterMap verificationEvent).filter fun event => event.tenantId = tenantId

theorem verificationEvent_action {row : CommittedRow} {event : VerificationEventPayload}
    (h : verificationEvent row = some event) : isVerificationAction row.payload.action = true := by
  rw [verificationEvent, Option.ite_none_right_eq_some] at h
  exact h.1

theorem mem_received {tenantId : JsString} {rows : List CommittedRow}
    {event : VerificationEventPayload} :
    event ∈ received tenantId rows ↔
      (∃ row ∈ rows, verificationEvent row = some event) ∧ event.tenantId = tenantId := by
  rw [received, List.mem_filter, List.mem_filterMap, decide_eq_true_iff]

/-- Rows of other actions reach nobody. -/
theorem received_eq_nil {tenantId : JsString} {rows : List CommittedRow}
    (h : ∀ row ∈ rows, isVerificationAction row.payload.action = false) :
    received tenantId rows = [] := by
  apply List.eq_nil_iff_forall_not_mem.mpr
  intro event hevent
  obtain ⟨⟨row, hrow, hemit⟩, -⟩ := mem_received.mp hevent
  have haction := verificationEvent_action hemit
  rw [h row hrow] at haction
  exact absurd haction (by decide)

end ZeroAuth.Audit
