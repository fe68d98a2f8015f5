/-
  ZeroAuth.Console.PolicyUpdates

  POST /security-policy of src/routes/console-security-policy.ts: any number of
  concurrent requests over the tenants and their audit chains.

  A request reads the policy, merges its body in memory, writes the whole document
  and then appends its audit row.  What is written is written before the answer
  arrives, and the answer can be lost.  Requests that overlap may lose one another's
  fields; in the runs in which each request writes on top of what it has read, the
  rows come in the order of the writes, and no error comes after a write that has
  changed something, nothing is lost (`policy_updates_kept`).
-/

import ZeroAuth.Console.Policy
import ZeroAuth.Lib.Interleaving
import ZeroAuth.Pg.Columns

namespace ZeroAuth.Console

open ZeroAuth.Lib ZeroAuth.Js ZeroAuth.Pg

/-! ## The handler -/

/-- A request that has passed `requireConsoleAuth`. -/
structure PolicyRequest where
  tenantId : Uuid
  email : JsString
  body : Option Json

structure TenantRow where
  id : Uuid
  securityPolicy : Option Policy

/-- The provider slots of an audit row's `metadata`. -/
structure ProviderTriple where
  didProvider : JsString
  verifierProvider : JsString
  auditAnchorProvider : JsString

def ResolvedProviders.triple (r : ResolvedProviders) : ProviderTriple :=
  ⟨r.didProvider, r.verifierProvider, r.auditAnchorProvider⟩

/-- The `'security_policy.updated'` event. -/
structure PolicyEvent where
  tenantId : Uuid
  actorType : JsString
  action : JsString
  entityType : JsString
  status : JsString
  summary : JsString
  actorEmail : JsString
  before : ProviderTriple
  after : ProviderTriple
  policyAfter : Policy

def updatedEvent (req : PolicyRequest) (before after : Policy) : PolicyEvent where
  tenantId := req.tenantId
  actorType := js "console"
  action := js "security_policy.updated"
  entityType := js "tenant"
  status := js "success"
  summary := js "Security policy updated by " ++ req.email
  actorEmail := req.email
  before := (resolveProviders before).triple
  after := (resolveProviders after).triple
  policyAfter := after

@[simp] theorem updatedEvent_tenantId (req : PolicyRequest) (before after : Policy) :
    (updatedEvent req before after).tenantId = req.tenantId := rfl

inductive PolicyOp
  | getTenantById (tenantId : Uuid)
  | updatePolicy (policy : Policy) (tenantId : Uuid)
  | appendAuditEvent (event : PolicyEvent)
  | answer

/-- `answer`: that the UPDATE, or the COMMIT of the append, was carried out has arrived. -/
def PolicyOp.Resp : PolicyOp → Type
  | getTenantById _ => Option TenantRow
  | _ => Unit

abbrev policySig : Sig := ⟨PolicyOp, PolicyOp.Resp⟩

/-- The message of an error. -/
abbrev PolicyProgram (α : Type) := Prog policySig JsString α

def policyAwait (o : PolicyOp) : PolicyProgram o.Resp := Prog.perform (S := policySig) o

def tenantNotFound : PolicyResponse := .error 404 (js "tenant_not_found") (js "Tenant not found.")

def writeFailed : PolicyResponse :=
  .error 500 (js "security_policy_write_failed") (js "Failed to update security policy.")

/-- `tenant.security_policy ?? {}`. -/
def TenantRow.policy (tenant : TenantRow) : Policy := tenant.securityPolicy.getD ∅

def PolicyRequest.after (req : PolicyRequest) (before : Policy) : Policy :=
  mergePolicy before (requestBody req.body)

/-- The audit row and the answer. -/
def recordUpdate (req : PolicyRequest) (before : Policy) : PolicyProgram PolicyResponse := do
  policyAwait (.appendAuditEvent (updatedEvent req before (req.after before)))
  policyAwait .answer
  return .updated (policyView (req.after before))

/-- From the loaded tenant on. -/
def persistPolicy (req : PolicyRequest) (before : Policy) : PolicyProgram PolicyResponse := do
  policyAwait (.updatePolicy (req.after before) req.tenantId)
  policyAwait .answer
  recordUpdate req before

/-- The `catch` block. -/
def onError (p : PolicyProgram PolicyResponse) : PolicyProgram PolicyResponse :=
  p.tryCatch fun _ => return writeFailed

def postSecurityPolicy (req : PolicyRequest) : PolicyProgram PolicyResponse :=
  onError (match validate (requestBody req.body) with
    | some response => return response
    | none => do
        let tenant : Option TenantRow ← policyAwait (.getTenantById req.tenantId)
        match tenant with
        | none => return tenantNotFound
        | some tenant => persistPolicy req tenant.policy)

/-! ## The database -/

/-- The tenants, and the audit rows of all chains in the order of their ids. -/
structure PolicyWorld where
  tenants : List TenantRow
  audit : List PolicyEvent

/-- `UPDATE tenants SET security_policy = … WHERE id = …`. -/
def PolicyWorld.store (w : PolicyWorld) (policy : Policy) (tenantId : Uuid) : PolicyWorld :=
  { w with tenants := w.tenants.map fun r =>
      if r.id = tenantId then { r with securityPolicy := some policy } else r }

/-- A statement, or the transaction of an append, is carried out or fails; and so does the
    way of its answer. -/
inductive PolicyOracle
  | proceed
  | fail (message : JsString)
  deriving DecidableEq

def policyExec : (o : PolicyOp) → PolicyOracle → PolicyWorld →
    Option (Except JsString o.Resp × PolicyWorld)
  | .getTenantById tenantId, .proceed, w => some (.ok (w.tenants.find? fun r => r.id = tenantId), w)
  | .updatePolicy policy tenantId, .proceed, w => some (.ok (), w.store policy tenantId)
  | .appendAuditEvent event, .proceed, w => some (.ok (), { w with audit := w.audit ++ [event] })
  | .answer, .proceed, w => some (.ok (), w)
  | .getTenantById _, .fail message, w | .updatePolicy _ _, .fail message, w
  | .appendAuditEvent _, .fail message, w | .answer, .fail message, w => some (.error message, w)

abbrev policyEditing :
    System policySig JsString PolicyResponse PolicyRequest PolicyWorld PolicyOracle Empty :=
  { code := postSecurityPolicy, exec := fun _ => policyExec, env := fun e _ => e.elim }

abbrev PolicyConfig := Config policySig JsString PolicyResponse PolicyRequest PolicyWorld

def PolicyWorld.policy (w : PolicyWorld) (tenantId : Uuid) : Option Policy :=
  (w.tenants.find? fun r => r.id = tenantId).map TenantRow.policy

/-! ## What one request does -/

/-- The message that says that a write was carried out. -/
abbrev heard : Act policySig JsString := ⟨.answer, .ok ()⟩

/-- The append of a request that has read `before`. -/
abbrev appends (req : PolicyRequest) (before : Policy) : Act policySig JsString :=
  ⟨.appendAuditEvent (updatedEvent req before (req.after before)), .ok ()⟩

/-- Where a request stands that has written, given what it has awaited since. -/
inductive AfterWrite (req : PolicyRequest) (before : Policy) :
    List (Act policySig JsString) → PolicyProgram PolicyResponse → Prop
  | stored : AfterWrite req before [] (onError do
      policyAwait .answer
      recordUpdate req before)
  | written : AfterWrite req before [heard] (onError (recordUpdate req before))
  | appended : AfterWrite req before [heard, appends req before] (onError do
      policyAwait .answer
      return .updated (policyView (req.after before)))
  | audited : AfterWrite req before [heard, appends req before, heard]
      (.ret (.updated (policyView (req.after before))))
  | failed {acts : List (Act policySig JsString)} (herror : ∃ x ∈ acts, ∃ e, x.answer = .error e)
      (hacts : ∀ x ∈ acts, ∀ p id r, x ≠ ⟨.updatePolicy p id, r⟩) :
      AfterWrite req before acts (.ret writeFailed)

/-- The read and the write of a request. -/
abbrev readsWrites (req : PolicyRequest) (tenant : TenantRow) : List (Act policySig JsString) :=
  [⟨.getTenantById req.tenantId, .ok (some tenant)⟩,
    ⟨.updatePolicy (req.after tenant.policy) req.tenantId, .ok ()⟩]

/-- Where a request stands, given the operations it has awaited. -/
inductive Editing (req : PolicyRequest) :
    List (Act policySig JsString) → PolicyProgram PolicyResponse → Prop
  | begun : Editing req [] (postSecurityPolicy req)
  | loaded {tenant : TenantRow} : Editing req [⟨.getTenantById req.tenantId, .ok (some tenant)⟩]
      (onError (persistPolicy req tenant.policy))
  | wrote {tenant : TenantRow} {acts : List (Act policySig JsString)}
      {rest : PolicyProgram PolicyResponse} (h : AfterWrite req tenant.policy acts rest) :
      Editing req (readsWrites req tenant ++ acts) rest
  | refused {es : List (Act policySig JsString)} {response : PolicyResponse}
      (hstatus : response.status ≠ 200)
      (hes : ∀ x ∈ es, ∀ p id, x ≠ ⟨.updatePolicy p id, .ok ()⟩) :
      Editing req es (.ret response)

theorem answer_eq (p : PolicyProgram PolicyResponse) :
    onError (do
      policyAwait .answer
      p) = .await .answer fun
        | .ok _ => onError p
        | .error _ => .ret writeFailed := by
  refine congrArg (Prog.await (S := policySig) _) (funext fun r => ?_)
  cases r <;> rfl

theorem recordUpdate_eq (req : PolicyRequest) (before : Policy) :
    onError (recordUpdate req before) =
      .await (.appendAuditEvent (updatedEvent req before (req.after before))) fun
        | .ok _ => onError do
            policyAwait .answer
            return .updated (policyView (req.after before))
        | .error _ => .ret writeFailed := by
  refine congrArg (Prog.await (S := policySig) _) (funext fun r => ?_)
  cases r <;> rfl

theorem persistPolicy_eq (req : PolicyRequest) (before : Policy) :
    onError (persistPolicy req before) =
      .await (.updatePolicy (req.after before) req.tenantId) fun
        | .ok _ => onError do
            policyAwait .answer
            recordUpdate req before
        | .error _ => .ret writeFailed := by
  refine congrArg (Prog.await (S := policySig) _) (funext fun r => ?_)
  cases r <;> rfl

theorem postSecurityPolicy_eq {req : PolicyRequest} (h : validate (requestBody req.body) = none) :
    postSecurityPolicy req = .await (.getTenantById req.tenantId) fun
      | .ok none => .ret tenantNotFound
      | .ok (some tenant) => onError (persistPolicy req tenant.policy)
      | .error _ => .ret writeFailed := by
  rw [postSecurityPolicy, h]
  refine congrArg (Prog.await (S := policySig) _) (funext fun r => ?_)
  cases r with
  | error e => rfl
  | ok tenant => cases tenant <;> rfl

theorem postSecurityPolicy_refused {req : PolicyRequest} {response : PolicyResponse}
    (h : validate (requestBody req.body) = some response) :
    postSecurityPolicy req = .ret response := by
  rw [postSecurityPolicy, h]
  rfl

section After

variable {req : PolicyRequest} {before : Policy} {acts : List (Act policySig JsString)}
  {q : PolicyProgram PolicyResponse}

/-- There is one UPDATE in a request. -/
theorem AfterWrite.not_update (h : AfterWrite req before acts q) :
    ∀ x ∈ acts, ∀ p id r, x ≠ ⟨.updatePolicy p id, r⟩ := by
  cases h with
  | failed herror hacts => exact hacts
  | _ =>
      intro x hx p id r heq
      subst heq
      simp at hx

/-- Its error ends a request that has written. -/
theorem AfterWrite.unheard (h : AfterWrite req before acts q) {o : PolicyOp} {e : JsString}
    (ho : ∀ p id, o ≠ .updatePolicy p id) :
    AfterWrite req before (acts ++ [⟨o, .error e⟩]) (.ret writeFailed) := by
  refine .failed ⟨⟨o, .error e⟩, by simp, e, rfl⟩ fun x hx p id r heq => ?_
  rcases List.mem_append.mp hx with hx | hx
  · exact h.not_update x hx p id r heq
  · obtain rfl := List.mem_singleton.mp hx
    cases heq
    exact ho p id rfl

theorem AfterWrite.step {o : PolicyOp} {k : Except JsString o.Resp → PolicyProgram PolicyResponse}
    (h : AfterWrite req before acts (.await o k)) (r : Except JsString o.Resp) :
    AfterWrite req before (acts ++ [⟨o, r⟩]) (k r) := by
  have hall := @AfterWrite.unheard req before acts _ h
  generalize hq : (Prog.await o k : PolicyProgram PolicyResponse) = q at h
  cases h with
  | stored =>
      rw [answer_eq] at hq
      cases hq
      cases r with
      | ok u => exact .written
      | error e => exact hall nofun
  | written =>
      rw [recordUpdate_eq] at hq
      cases hq
      cases r with
      | ok u => exact .appended
      | error e => exact hall nofun
  | appended =>
      rw [answer_eq] at hq
      cases hq
      cases r with
      | ok u => exact .audited
      | error e => exact hall nofun
  | audited => cases hq
  | failed => cases hq

end After

/-- It awaits an answer or its append. -/
theorem AfterWrite.awaits {req : PolicyRequest} {before : Policy}
    {acts : List (Act policySig JsString)} {o : PolicyOp}
    {k : Except JsString o.Resp → PolicyProgram PolicyResponse}
    (h : AfterWrite req before acts (.await o k)) :
    o = .answer ∨ o = .appendAuditEvent (updatedEvent req before (req.after before)) := by
  generalize hq : (Prog.await o k : PolicyProgram PolicyResponse) = q at h
  cases h with
  | stored =>
      rw [answer_eq] at hq
      cases hq
      exact .inl rfl
  | written =>
      rw [recordUpdate_eq] at hq
      cases hq
      exact .inr rfl
  | appended =>
      rw [answer_eq] at hq
      cases hq
      exact .inl rfl
  | audited => cases hq
  | failed => cases hq

theorem editing_of_trace {req : PolicyRequest} {es : List (Act policySig JsString)}
    {q : PolicyProgram PolicyResponse} (h : Prog.Trace (postSecurityPolicy req) es q) :
    Editing req es q := by
  generalize hp : postSecurityPolicy req = p at h
  induction h with
  | refl => exact hp ▸ .begun
  | @snoc es o k h r ih =>
      clear hp
      generalize hq : Prog.await o k = q at ih
      cases ih with
      | begun =>
          cases hv : validate (requestBody req.body) with
          | some response =>
              rw [postSecurityPolicy_refused hv] at hq
              cases hq
          | none =>
              rw [postSecurityPolicy_eq hv] at hq
              cases hq
              have hes : ∀ x ∈ [] ++ [(⟨.getTenantById req.tenantId, r⟩ : Act policySig JsString)],
                  ∀ p id, x ≠ ⟨.updatePolicy p id, .ok ()⟩ := by
                intro x hx
                obtain rfl := List.mem_singleton.mp hx
                exact nofun
              cases r with
              | error e => exact .refused (by decide) hes
              | ok tenant =>
                  cases tenant with
                  | none => exact .refused (by decide) hes
                  | some tenant => exact .loaded
      | @loaded tenant =>
          rw [persistPolicy_eq] at hq
          cases hq
          cases r with
          | ok u =>
              cases u
              exact @Editing.wrote req tenant _ _ .stored
          | error e =>
              refine .refused (by decide) fun x hx => ?_
              rcases List.mem_pair.mp hx with rfl | rfl
              · exact nofun
              · intro _ _ heq
                cases heq
      | @wrote tenant acts _ hafter =>
          subst hq
          rw [List.append_assoc]
          exact .wrote (hafter.step r)
      | refused hstatus hes => cases hq

/-! ## Writes and rows, in the order of the log -/

/-- The UPDATEs of a tenant's policy that were carried out: who made each, and what
    it stored. -/
def writeOf (tenantId : Uuid) : Event policySig JsString → Option (ℕ × Policy)
  | ⟨t, ⟨.updatePolicy policy id, .ok _⟩⟩ => if id = tenantId then some (t, policy) else none
  | _ => none

def writes (tenantId : Uuid) (log : List (Event policySig JsString)) : List (ℕ × Policy) :=
  log.filterMap (writeOf tenantId)

/-- The audit rows of a tenant: who appended each, and its `policy_after`. -/
def rowOf (tenantId : Uuid) : Event policySig JsString → Option (ℕ × Policy)
  | ⟨t, ⟨.appendAuditEvent event, .ok _⟩⟩ =>
      if event.tenantId = tenantId then some (t, event.policyAfter) else none
  | _ => none

def rows (tenantId : Uuid) (log : List (Event policySig JsString)) : List (ℕ × Policy) :=
  log.filterMap (rowOf tenantId)

/-- The UPDATE of a request, if there was one, has written the policy that was read. -/
def ChangesNothing (past : List (Act policySig JsString)) : Prop :=
  ∀ (tenant : TenantRow) policy id, ⟨.getTenantById id, .ok (some tenant)⟩ ∈ past →
    (⟨.updatePolicy policy id, .ok ()⟩ : Act policySig JsString) ∈ past → policy = tenant.policy

/-- Thread `t` does not get into another's way: an UPDATE is carried out only while the
    policy is still the one that its request has read, rows come in the order of the
    UPDATEs, and a lost answer or a failing append comes only when the UPDATE has changed
    nothing. -/
def InTurn (c : PolicyConfig) (t : ℕ) (past : List (Act policySig JsString)) :
    PolicyOp → PolicyOracle → Prop
  | .updatePolicy _ id, .proceed => ∀ tenant : TenantRow,
      ⟨.getTenantById id, .ok (some tenant)⟩ ∈ past → c.world.policy id = some tenant.policy
  | .appendAuditEvent event, .proceed =>
      (rows event.tenantId c.log ++ [(t, event.policyAfter)]).Sublist (writes event.tenantId c.log)
  | .appendAuditEvent _, .fail _ | .answer, .fail _ => ChangesNothing past
  | _, _ => True

def InSequence (c : PolicyConfig) (l : Label PolicyRequest PolicyOracle Empty) : Prop :=
  ∀ t ω req past o k, l = .resume t ω → c.threads[t]? = some ⟨req, past, .await o k⟩ →
    InTurn c t past o ω

/-- The policy after some writes, from `p₀` on. -/
def lastPolicy (p₀ : Policy) (ws : List (ℕ × Policy)) : Policy := (ws.getLast?.map Prod.snd).getD p₀

@[simp] theorem lastPolicy_nil (p₀ : Policy) : lastPolicy p₀ [] = p₀ := rfl

@[simp] theorem lastPolicy_append (p₀ : Policy) (ws : List (ℕ × Policy)) (t : ℕ) (p : Policy) :
    lastPolicy p₀ (ws ++ [(t, p)]) = p := by
  simp [lastPolicy]

/-- The write of thread `t` merges its request's body onto the policy before it; if the
    thread has met an error, it changed nothing. -/
structure MergeAt (tenantId : Uuid) (p₀ : Policy) (c : PolicyConfig) (before : List (ℕ × Policy))
    (t : ℕ) (p : Policy) : Prop where
  thread : ∃ req past rest, c.threads[t]? = some ⟨req, past, rest⟩ ∧ req.tenantId = tenantId ∧
    p = req.after (lastPolicy p₀ before)
  read : ∀ tenant : TenantRow, (⟨t, ⟨.getTenantById tenantId, .ok (some tenant)⟩⟩ :
    Event policySig JsString) ∈ c.log → tenant.policy = lastPolicy p₀ before
  failed : ∀ x e, (⟨t, x⟩ : Event policySig JsString) ∈ c.log → x.answer = .error e →
    p = lastPolicy p₀ before

/-- What every configuration of an in-sequence run keeps. -/
structure Kept (tenantId : Uuid) (p₀ : Policy) (a₀ : List PolicyEvent) (c : PolicyConfig) : Prop where
  stored : c.world.policy tenantId = some (lastPolicy p₀ (writes tenantId c.log))
  merges : ∀ before t p later, writes tenantId c.log = before ++ (t, p) :: later →
    MergeAt tenantId p₀ c before t p
  once : ((writes tenantId c.log).map Prod.fst).Nodup
  ordered : (rows tenantId c.log).Sublist (writes tenantId c.log)
  audit : (c.world.audit.filter fun e => e.tenantId = tenantId).map PolicyEvent.policyAfter =
    (a₀.filter fun e => e.tenantId = tenantId).map PolicyEvent.policyAfter ++
      (rows tenantId c.log).map Prod.snd

section Steps

variable {tenantId : Uuid} {p₀ : Policy} {a₀ : List PolicyEvent} {c : PolicyConfig} {t : ℕ}
  {req : PolicyRequest} {past : List (Act policySig JsString)} {w : PolicyWorld} {o : PolicyOp}
  {k : Except JsString o.Resp → PolicyProgram PolicyResponse} {r : Except JsString o.Resp}

/-- A later operation of some thread: an earlier write stays the merge that it was. -/
theorem MergeAt.answered {before : List (ℕ × Policy)} {t' : ℕ} {p : Policy}
    (h : MergeAt tenantId p₀ c before t' p) (hth : c.threads[t]? = some ⟨req, past, .await o k⟩)
    (hread : t = t' → ∀ tenant : TenantRow, (⟨o, r⟩ : Act policySig JsString) ≠
      ⟨.getTenantById tenantId, .ok (some tenant)⟩)
    (hfail : t = t' → ∀ e, r = .error e → p = lastPolicy p₀ before) :
    MergeAt tenantId p₀ (c.answered t req past k r w) before t' p := by
  refine ⟨?_, fun tenant hmem => ?_, fun x e hmem hx => ?_⟩
  · obtain ⟨req', past', rest', hth', htenant, hp⟩ := h.thread
    by_cases htt : t = t'
    · subst htt
      rw [hth] at hth'
      cases hth'
      exact ⟨req, _, _, System.getElem?_answered_self hth, htenant, hp⟩
    · exact ⟨req', past', rest', by rw [System.getElem?_answered, if_neg htt, hth'], htenant, hp⟩
  · rcases List.mem_append.mp hmem with hmem | hmem
    · exact h.read tenant hmem
    · obtain ⟨rfl, hact⟩ := Event.mk.inj (List.mem_singleton.mp hmem)
      exact absurd hact.symm (hread rfl tenant)
  · rcases List.mem_append.mp hmem with hmem | hmem
    · exact h.failed x e hmem hx
    · obtain ⟨rfl, rfl⟩ := Event.mk.inj (List.mem_singleton.mp hmem)
      exact hfail rfl e hx

theorem writes_append_of_none (h : writeOf tenantId ⟨t, ⟨o, r⟩⟩ = none) :
    writes tenantId (c.log ++ [⟨t, ⟨o, r⟩⟩]) = writes tenantId c.log := by
  rw [writes, List.filterMap_append, List.filterMap_cons, h]
  simp [writes]

theorem writes_append_of_some {x : ℕ × Policy} (h : writeOf tenantId ⟨t, ⟨o, r⟩⟩ = some x) :
    writes tenantId (c.log ++ [⟨t, ⟨o, r⟩⟩]) = writes tenantId c.log ++ [x] := by
  rw [writes, List.filterMap_append, List.filterMap_cons, h]
  rfl

theorem rows_append_of_some {x : ℕ × Policy} (h : rowOf tenantId ⟨t, ⟨o, r⟩⟩ = some x) :
    rows tenantId (c.log ++ [⟨t, ⟨o, r⟩⟩]) = rows tenantId c.log ++ [x] := by
  rw [rows, List.filterMap_append, List.filterMap_cons, h]
  rfl

theorem rows_append_of_none (h : rowOf tenantId ⟨t, ⟨o, r⟩⟩ = none) :
    rows tenantId (c.log ++ [⟨t, ⟨o, r⟩⟩]) = rows tenantId c.log := by
  rw [rows, List.filterMap_append, List.filterMap_cons, h]
  simp [rows]

/-- A thread moves on, and nothing is written or appended. -/
theorem Kept.quiet (h : Kept tenantId p₀ a₀ c) (hth : c.threads[t]? = some ⟨req, past, .await o k⟩)
    (hpolicy : w.policy tenantId = c.world.policy tenantId)
    (haudit : w.audit.filter (fun e => e.tenantId = tenantId) =
      c.world.audit.filter fun e => e.tenantId = tenantId)
    (hwrite : writeOf tenantId ⟨t, ⟨o, r⟩⟩ = none) (hrow : rowOf tenantId ⟨t, ⟨o, r⟩⟩ = none)
    (hmerge : ∀ before p later, writes tenantId c.log = before ++ (t, p) :: later →
      (∀ tenant : TenantRow, (⟨o, r⟩ : Act policySig JsString) ≠
        ⟨.getTenantById tenantId, .ok (some tenant)⟩) ∧
      ∀ e, r = .error e → p = lastPolicy p₀ before) :
    Kept tenantId p₀ a₀ (c.answered t req past k r w) := by
  have hwrites : writes tenantId (c.answered t req past k r w).log = writes tenantId c.log :=
    writes_append_of_none hwrite
  have hrows : rows tenantId (c.answered t req past k r w).log = rows tenantId c.log :=
    rows_append_of_none hrow
  refine ⟨?_, fun before t' p later heq => ?_, ?_, ?_, ?_⟩
  · rw [hwrites]
    exact hpolicy.trans h.stored
  · rw [hwrites] at heq
    refine (h.merges before t' p later heq).answered hth (fun htt => ?_) fun htt => ?_
    · exact (hmerge before p later (htt ▸ heq)).1
    · exact (hmerge before p later (htt ▸ heq)).2
  · rw [hwrites]
    exact h.once
  · rw [hwrites, hrows]
    exact h.ordered
  · rw [hrows, ← h.audit, ← haudit]
    rfl

/-- A write on top of what its request has read. -/
theorem Kept.write (h : Kept tenantId p₀ a₀ c) {tenant : TenantRow}
    {k : Except JsString (PolicyOp.updatePolicy (req.after tenant.policy) tenantId).Resp →
      PolicyProgram PolicyResponse}
    (hth : c.threads[t]? = some ⟨req, past, .await (.updatePolicy (req.after tenant.policy) tenantId) k⟩)
    (htenant : req.tenantId = tenantId)
    (hnew : ∀ p, (t, p) ∉ writes tenantId c.log)
    (hread : ∀ tenant' : TenantRow, (⟨t, ⟨.getTenantById tenantId, .ok (some tenant')⟩⟩ :
      Event policySig JsString) ∈ c.log → tenant'.policy = tenant.policy)
    (hfail : ∀ x e, (⟨t, x⟩ : Event policySig JsString) ∈ c.log → x.answer ≠ .error e)
    (hcurrent : c.world.policy tenantId = some tenant.policy)
    (hpolicy : w.policy tenantId = some (req.after tenant.policy)) (haudit : w.audit = c.world.audit) :
    Kept tenantId p₀ a₀ (c.answered (o := .updatePolicy (req.after tenant.policy) tenantId) t req past k (.ok ()) w) := by
  have hwrites : writes tenantId (c.answered (o := .updatePolicy (req.after tenant.policy) tenantId) t req past k (.ok ()) w).log =
      writes tenantId c.log ++ [(t, req.after tenant.policy)] :=
    writes_append_of_some (if_pos rfl)
  have hrows : rows tenantId (c.answered (o := .updatePolicy (req.after tenant.policy) tenantId) t req past k (.ok ()) w).log = rows tenantId c.log :=
    rows_append_of_none rfl
  have hlast : lastPolicy p₀ (writes tenantId c.log) = tenant.policy :=
    Option.some.inj (h.stored.symm.trans hcurrent)
  refine ⟨?_, fun before t' p later heq => ?_, ?_, ?_, ?_⟩
  · rw [hwrites, lastPolicy_append]
    exact hpolicy
  · rw [hwrites] at heq
    obtain rfl | ⟨later, y, rfl⟩ := later.eq_nil_or_concat
    · obtain ⟨rfl, hlast'⟩ := List.append_inj' heq rfl
      obtain ⟨rfl, rfl⟩ := Prod.mk.inj (List.cons.inj hlast').1
      refine ⟨⟨req, _, _, System.getElem?_answered_self hth, htenant, by rw [hlast]⟩,
        fun tenant' hmem => ?_, fun x e hmem hx => ?_⟩
      · rcases List.mem_append.mp hmem with hmem | hmem
        · exact (hread tenant' hmem).trans hlast.symm
        · cases List.mem_singleton.mp hmem
      · rcases List.mem_append.mp hmem with hmem | hmem
        · exact absurd hx (hfail x e hmem)
        · cases List.mem_singleton.mp hmem
          cases hx
    · rw [List.concat_eq_append, ← List.cons_append, ← List.append_assoc] at heq
      refine (h.merges before t' p later (List.append_inj' heq rfl).1).answered hth
        (fun _ _ => nofun) fun _ _ => nofun
  · rw [hwrites, List.map_append, List.nodup_append]
    refine ⟨h.once, List.nodup_singleton _, ?_⟩
    rintro t' ht' _ hself rfl
    obtain ⟨⟨t'', p⟩, hmem, rfl⟩ := List.mem_map.mp ht'
    have htt : t'' = t := List.mem_singleton.mp hself
    exact hnew p (htt ▸ hmem)
  · rw [hwrites, hrows]
    exact h.ordered.trans (List.sublist_append_left _ _)
  · rw [hrows, ← h.audit, ← haudit]
    rfl

/-- A row in the order of the writes. -/
theorem Kept.append (h : Kept tenantId p₀ a₀ c) {event : PolicyEvent}
    {k : Except JsString (PolicyOp.appendAuditEvent event).Resp → PolicyProgram PolicyResponse}
    (hth : c.threads[t]? = some ⟨req, past, .await (.appendAuditEvent event) k⟩)
    (htenant : event.tenantId = tenantId)
    (hordered : (rows tenantId c.log ++ [(t, event.policyAfter)]).Sublist (writes tenantId c.log))
    (hpolicy : w.policy tenantId = c.world.policy tenantId)
    (haudit : w.audit = c.world.audit ++ [event]) :
    Kept tenantId p₀ a₀ (c.answered (o := .appendAuditEvent event) t req past k (.ok ()) w) := by
  have hwrites : writes tenantId (c.answered (o := .appendAuditEvent event) t req past k (.ok ()) w).log =
      writes tenantId c.log := writes_append_of_none rfl
  have hrows : rows tenantId (c.answered (o := .appendAuditEvent event) t req past k (.ok ()) w).log =
      rows tenantId c.log ++ [(t, event.policyAfter)] :=
    rows_append_of_some (if_pos htenant)
  refine ⟨?_, fun before t' p later heq => ?_, ?_, ?_, ?_⟩
  · rw [hwrites]
    exact hpolicy.trans h.stored
  · rw [hwrites] at heq
    exact (h.merges before t' p later heq).answered hth (fun _ _ => nofun) fun _ _ => nofun
  · rw [hwrites]
    exact h.once
  · rw [hwrites, hrows]
    exact hordered
  · rw [hrows, List.map_append, ← List.append_assoc, ← h.audit]
    show (w.audit.filter _).map _ = _
    rw [haudit, List.filter_append, List.map_append, List.filter_cons, htenant, if_pos (by simp)]
    rfl

theorem Kept.spawn (h : Kept tenantId p₀ a₀ c) (a : PolicyRequest) :
    Kept tenantId p₀ a₀ (policyEditing.spawn c a) := by
  refine ⟨h.stored, fun before t p later heq => ?_, h.once, h.ordered, h.audit⟩
  have hat := h.merges before t p later heq
  obtain ⟨req, past, rest, hth, htenant, hp⟩ := hat.thread
  refine ⟨⟨req, past, rest, ?_, htenant, hp⟩, hat.read, hat.failed⟩
  show (c.threads ++ [_])[t]? = _
  rw [List.getElem?_append_left (List.getElem?_eq_some_iff.mp hth).1, hth]

/-- The UPDATE, seen from one tenant. -/
theorem policy_update (w : PolicyWorld) (policy : Policy) (id : Uuid) :
    (w.store policy id).policy tenantId =
      if id = tenantId then (w.policy tenantId).map fun _ => policy else w.policy tenantId := by
  have hfind : (w.tenants.map fun r =>
      if r.id = id then { r with securityPolicy := some policy } else r).find?
        (fun r => r.id = tenantId) = (w.tenants.find? fun r => r.id = tenantId).map fun r =>
      if r.id = id then { r with securityPolicy := some policy } else r := by
    rw [List.find?_map]
    congr 2
    funext r
    simp only [Function.comp_apply]
    split <;> rfl
  rw [PolicyWorld.policy, PolicyWorld.store, hfind, PolicyWorld.policy]
  cases hr : w.tenants.find? fun r => r.id = tenantId with
  | none => simp
  | some r =>
      have hid : r.id = tenantId := by simpa using List.find?_some hr
      by_cases heq : id = tenantId
      · simp [hid, heq, TenantRow.policy]
      · simp [hid, heq, Ne.symm heq]

theorem mem_log_of_mem_writes {log : List (Event policySig JsString)} {p : Policy}
    (h : (t, p) ∈ writes tenantId log) :
    ∃ u, (⟨t, ⟨.updatePolicy p tenantId, .ok u⟩⟩ : Event policySig JsString) ∈ log := by
  obtain ⟨⟨t', o, r⟩, hmem, hwrite⟩ := List.mem_filterMap.mp h
  cases o with
  | updatePolicy policy id =>
      cases r with
      | error e => cases hwrite
      | ok u =>
          have hwrite : (if id = tenantId then some (t', policy) else none) = some (t, p) := hwrite
          split at hwrite
          · next heq =>
              cases hwrite
              exact ⟨u, heq ▸ hmem⟩
          · cases hwrite
  | _ => cases hwrite

theorem kept_of_reach
    (hc : policyEditing.Reach (fun w => w.policy tenantId = some p₀ ∧ w.audit = a₀) InSequence c) :
    Kept tenantId p₀ a₀ c := by
  refine hc.invariant (I := Kept tenantId p₀ a₀) (fun w hw => ?_) (fun c a _ hI _ => hI.spawn a)
    (fun c t ω req past o k r w hr hI hg hth hx => ?_) fun c e => e.elim
  · refine ⟨hw.1, fun before t p later heq => ?_, List.nodup_nil, List.Sublist.refl _, ?_⟩
    · exact absurd heq (by simp [writes, Config.init])
    · show (w.audit.filter _).map _ = _
      rw [hw.2]
      exact (List.append_nil _).symm
  · have hedit : Editing req past (.await o k) := editing_of_trace (hr.trace hth)
    -- the writes of this thread are in its past
    have hpast : ∀ p, (t, p) ∈ writes tenantId c.log → ∃ u,
        (⟨.updatePolicy p tenantId, .ok u⟩ : Act policySig JsString) ∈ past := by
      intro p hp
      obtain ⟨u, hmem⟩ := mem_log_of_mem_writes hp
      exact ⟨u, (hr.mem_log hth).mpr hmem⟩
    have hsplit : ∀ {before p later}, writes tenantId c.log = before ++ (t, p) :: later →
        (t, p) ∈ writes tenantId c.log := fun heq => heq ▸ by simp
    generalize hq : Prog.await o k = q at hedit
    cases hedit with
    | begun =>
        cases hv : validate (requestBody req.body) with
        | some response =>
            rw [postSecurityPolicy_refused hv] at hq
            cases hq
        | none =>
            rw [postSecurityPolicy_eq hv] at hq
            cases hq
            have hw : w = c.world := by
              cases ω <;> cases hx <;> rfl
            subst hw
            refine hI.quiet hth rfl rfl rfl rfl fun before p later heq => ?_
            obtain ⟨u, hmem⟩ := hpast p (hsplit heq)
            cases hmem
    | @loaded tenant =>
        rw [persistPolicy_eq] at hq
        cases hq
        have hnew : ∀ p, (t, p) ∉ writes tenantId c.log := by
          intro p hp
          obtain ⟨u, hmem⟩ := hpast p hp
          cases List.mem_singleton.mp hmem
        cases ω with
        | fail message =>
            cases hx
            exact hI.quiet hth rfl rfl rfl rfl fun before p later heq => absurd (hsplit heq) (hnew p)
        | proceed =>
            cases hx
            by_cases hid : req.tenantId = tenantId
            · subst hid
              have hcurrent : c.world.policy req.tenantId = some tenant.policy :=
                hg t _ req _ _ _ rfl hth tenant (List.mem_singleton.mpr rfl)
              refine hI.write hth rfl hnew (fun tenant' hmem => ?_) (fun x e hmem hx => ?_)
                hcurrent ?_ rfl
              · cases List.mem_singleton.mp ((hr.mem_log hth).mpr hmem)
                rfl
              · cases List.mem_singleton.mp ((hr.mem_log hth).mpr hmem)
                cases hx
              · rw [policy_update, if_pos rfl, hcurrent, Option.map_some]
            · refine hI.quiet hth ?_ rfl (if_neg hid) rfl fun before p later heq =>
                absurd (hsplit heq) (hnew p)
              rw [policy_update, if_neg hid]
    | @wrote tenant acts _ hafter =>
        subst hq
        have hmine : ∀ p, (t, p) ∈ writes tenantId c.log →
            req.tenantId = tenantId ∧ p = req.after tenant.policy := by
          intro p hp
          obtain ⟨u, hmem⟩ := hpast p hp
          rcases List.mem_append.mp hmem with hmem | hmem
          · rcases List.mem_pair.mp hmem with heq | heq
            · cases heq
            · cases heq
              exact ⟨rfl, rfl⟩
          · exact absurd rfl (hafter.not_update _ hmem _ _ _)
        have hread : (⟨t, ⟨.getTenantById req.tenantId, .ok (some tenant)⟩⟩ :
            Event policySig JsString) ∈ c.log := (hr.mem_log hth).mp (List.mem_cons_self)
        -- an error comes only after a write that has changed nothing
        have hunheard : ChangesNothing (readsWrites req tenant ++ acts) → ∀ before p later,
            writes tenantId c.log = before ++ (t, p) :: later → p = lastPolicy p₀ before := by
          intro hturn before p later heq
          obtain ⟨rfl, rfl⟩ := hmine p (hsplit heq)
          exact (hturn tenant _ _ List.mem_cons_self
            (List.mem_cons_of_mem _ List.mem_cons_self)).trans
              ((hI.merges before t _ later heq).read tenant hread)
        have hturn := hg t ω req _ o k rfl hth
        obtain rfl | rfl := hafter.awaits
        · cases ω with
          | fail message =>
              cases hx
              exact hI.quiet hth rfl rfl rfl rfl fun before p later heq =>
                ⟨fun _ hact => (by cases hact), fun _ _ => hunheard hturn before p later heq⟩
          | proceed =>
              cases hx
              exact hI.quiet hth rfl rfl rfl rfl fun _ _ _ _ =>
                ⟨fun _ hact => (by cases hact), fun _ herror => by cases herror⟩
        · cases ω with
          | fail message =>
              cases hx
              exact hI.quiet hth rfl rfl rfl rfl fun before p later heq =>
                ⟨fun _ hact => (by cases hact), fun _ _ => hunheard hturn before p later heq⟩
          | proceed =>
              cases hx
              by_cases hid : req.tenantId = tenantId
              · subst hid
                exact hI.append hth rfl hturn rfl rfl
              · refine hI.quiet hth rfl ?_ rfl (if_neg hid) fun before p later heq =>
                  absurd (hmine p (hsplit heq)).1 hid
                show (c.world.audit ++ [_]).filter _ = _
                simp [hid]
    | refused hstatus hes => cases hq

end Steps

/-! ## Nothing is lost -/

section Results

variable {tenantId : Uuid} {p₀ : Policy} {a₀ : List PolicyEvent} {c c' : PolicyConfig}

/-- Thread `t` is the request `req` of the tenant. -/
def RequestOf (c : PolicyConfig) (tenantId : Uuid) (t : ℕ) (req : PolicyRequest) : Prop :=
  ∃ past rest, c.threads[t]? = some ⟨req, past, rest⟩ ∧ req.tenantId = tenantId

def Answered (c : PolicyConfig) (t : ℕ) (response : PolicyResponse) : Prop :=
  ∃ req past, c.threads[t]? = some ⟨req, past, .ret response⟩

def PolicyRequest.change (req : PolicyRequest) (field : JsString) : Option (Option Json) :=
  Console.change (requestBody req.body) field

/-- A field that none of the writes changes, and one that only one thread changes. -/
theorem lookup_lastPolicy (h : Kept tenantId p₀ a₀ c) (f : JsString) {ws : List (ℕ × Policy)} :
    ∀ {later}, writes tenantId c.log = ws ++ later →
    ((∀ t req p, (t, p) ∈ ws → RequestOf c tenantId t req → req.change f = none) →
      (lastPolicy p₀ ws).lookup f = p₀.lookup f) ∧
    ∀ t req x, RequestOf c tenantId t req → req.change f = some x → (∃ p, (t, p) ∈ ws) →
      (∀ t' req', RequestOf c tenantId t' req' → t' ≠ t → req'.change f = none) →
      (lastPolicy p₀ ws).lookup f = x := by
  induction ws using List.reverseRecOn with
  | nil =>
      intro later _
      exact ⟨fun _ => rfl, fun t req x _ _ ⟨p, hp⟩ => by cases hp⟩
  | append_singleton ws y ih =>
      intro later heq
      obtain ⟨t₀, p⟩ := y
      rw [List.append_assoc, List.singleton_append] at heq
      -- the last write merges its request into what the writes before it left
      obtain ⟨req₀, past₀, rest₀, hth₀, htenant₀, hp⟩ := (h.merges ws t₀ p later heq).thread
      have hreq₀ : RequestOf c tenantId t₀ req₀ := ⟨past₀, rest₀, hth₀, htenant₀⟩
      have hlookup : (lastPolicy p₀ (ws ++ [(t₀, p)])).lookup f =
          (req₀.change f).getD ((lastPolicy p₀ ws).lookup f) := by
        rw [lastPolicy_append, hp]
        exact lookup_mergePolicy _ _ f
      obtain ⟨ihnone, ihone⟩ := ih heq
      refine ⟨fun hnone => ?_, fun t req x hreq hx ⟨p', hp'⟩ hother => ?_⟩
      · rw [hlookup, hnone t₀ req₀ p (by simp) hreq₀, Option.getD_none]
        exact ihnone fun t req p' hp' => hnone t req p' (List.mem_append_left _ hp')
      · rw [hlookup]
        -- either the last write is the thread's own, or it leaves the field alone
        by_cases htt : t₀ = t
        · subst htt
          obtain ⟨past, rest, hth, -⟩ := hreq
          rw [hth₀] at hth
          cases hth
          rw [hx, Option.getD_some]
        · rw [hother t₀ req₀ hreq₀ htt, Option.getD_none]
          refine ihone t req x hreq hx ⟨p', ?_⟩ hother
          rcases List.mem_append.mp hp' with hp' | hp'
          · exact hp'
          · exact absurd (congrArg Prod.fst (List.mem_singleton.mp hp')).symm htt

/-- Rows in the order of the writes: where every write without a row changed nothing, the
    last row has the last policy. -/
theorem lastPolicy_rows (h : Kept tenantId p₀ a₀ c) {ws : List (ℕ × Policy)} :
    ∀ {later rs}, writes tenantId c.log = ws ++ later → rs.Sublist ws → rs ≠ [] →
    (∀ t p, (t, p) ∈ ws → (t, p) ∈ rs ∨
      ∃ x e, (⟨t, x⟩ : Event policySig JsString) ∈ c.log ∧ x.answer = .error e) →
    lastPolicy p₀ rs = lastPolicy p₀ ws := by
  induction ws using List.reverseRecOn with
  | nil =>
      intro later rs _ hsub hne _
      exact absurd (List.sublist_nil.mp hsub) hne
  | append_singleton ws y ih =>
      intro later rs heq hsub hne hrow
      obtain ⟨t, p⟩ := y
      rw [List.append_assoc, List.singleton_append] at heq
      obtain ⟨r₁, r₂, rfl, h₁, h₂⟩ := List.sublist_append_iff.mp hsub
      rcases List.sublist_singleton.mp h₂ with rfl | rfl
      · -- the last write has no row, so its request has failed
        rw [List.append_nil] at hne hrow ⊢
        have hnotin : (t, p) ∉ ws := by
          intro hmem
          have honce := h.once
          rw [heq, List.map_append, List.nodup_append] at honce
          exact honce.2.2 t (List.mem_map.mpr ⟨_, hmem, rfl⟩) t (by simp) rfl
        obtain ⟨x, e, hx, herror⟩ :=
          (hrow t p (by simp)).resolve_left fun hmem => hnotin (h₁.subset hmem)
        rw [lastPolicy_append, (h.merges ws t p later heq).failed x e hx herror]
        exact ih heq h₁ hne fun t' p' hmem => hrow t' p' (List.mem_append_left _ hmem)
      · rw [lastPolicy_append, lastPolicy_append]

/-- A request that has ended, by its answer. -/
theorem editing_of_answered {init : PolicyWorld → Prop} {t : ℕ} {req : PolicyRequest}
    {past : List (Act policySig JsString)} {response : PolicyResponse}
    (hc : policyEditing.Reach init InSequence c)
    (hth : c.threads[t]? = some ⟨req, past, .ret response⟩) :
    (response.status = 200 ∧ ∃ tenant : TenantRow,
      past = readsWrites req tenant ++ [heard, appends req tenant.policy, heard]) ∨
    (response.status ≠ 200 ∧ ∃ (tenant : TenantRow) (acts : List (Act policySig JsString)),
      past = readsWrites req tenant ++ acts ∧ ∃ x ∈ acts, ∃ e, x.answer = .error e) ∨
    (response.status ≠ 200 ∧ ∀ x ∈ past, ∀ p id u, x ≠ ⟨.updatePolicy p id, .ok u⟩) := by
  have hedit : Editing req past (.ret response) := editing_of_trace (hc.trace hth)
  generalize hq : (Prog.ret response : PolicyProgram PolicyResponse) = q at hedit
  cases hedit with
  | begun =>
      -- a request that is answered at once was refused by the validation
      cases hv : validate (requestBody req.body) with
      | some refusal =>
          rw [postSecurityPolicy_refused hv] at hq
          cases hq
          refine .inr (.inr ⟨?_, fun x hx => by cases hx⟩)
          rw [status_of_validate hv]
          decide
      | none =>
          rw [postSecurityPolicy_eq hv] at hq
          cases hq
  | loaded =>
      rw [persistPolicy_eq] at hq
      cases hq
  | @wrote tenant acts _ hafter =>
      subst hq
      cases hafter with
      | audited => exact .inl ⟨rfl, tenant, rfl⟩
      | failed herror _ => exact .inr (.inl ⟨by decide, tenant, acts, rfl, herror⟩)
  | refused hstatus hes =>
      cases hq
      exact .inr (.inr ⟨hstatus, fun x hx p id _ => hes x hx p id⟩)

/-- A 200 has its row. -/
theorem mem_rows_of_past {init : PolicyWorld → Prop} {t : ℕ} {req : PolicyRequest}
    {tenant : TenantRow} {rest : PolicyProgram PolicyResponse}
    (hc : policyEditing.Reach init InSequence c)
    (hth : c.threads[t]? = some ⟨req,
      readsWrites req tenant ++ [heard, appends req tenant.policy, heard], rest⟩)
    (htenant : req.tenantId = tenantId) : (t, req.after tenant.policy) ∈ rows tenantId c.log := by
  have hmem : appends req tenant.policy ∈
      readsWrites req tenant ++ [heard, appends req tenant.policy, heard] := by simp
  exact List.mem_filterMap.mpr ⟨_, (hc.mem_log hth).mp hmem, if_pos htenant⟩

/-- The requests of the tenant that have ended: each write has a row, or its request has met an
    error. -/
theorem row_or_failed (hc : policyEditing.Reach
      (fun w => w.policy tenantId = some p₀ ∧ w.audit = a₀) InSequence c)
    (hended : ∀ t req, RequestOf c tenantId t req → ∃ response, Answered c t response)
    {t : ℕ} {p : Policy} (h : (t, p) ∈ writes tenantId c.log) :
    (t, p) ∈ rows tenantId c.log ∨
      ∃ x e, (⟨t, x⟩ : Event policySig JsString) ∈ c.log ∧ x.answer = .error e := by
  have hkept := kept_of_reach hc
  obtain ⟨before, later, hsplit⟩ := List.append_of_mem h
  obtain ⟨req, past, rest, hth, htenant, -⟩ := (hkept.merges before t p later hsplit).thread
  obtain ⟨response, req', past', hth'⟩ := hended t req ⟨past, rest, hth, htenant⟩
  rw [hth] at hth'
  cases hth'
  obtain ⟨u, hwrite⟩ := mem_log_of_mem_writes h
  have hmem := (hc.mem_log hth).mpr hwrite
  -- answered 200 with its row, failed after the write, or never written
  rcases editing_of_answered hc hth with ⟨-, tenant, rfl⟩ | ⟨-, tenant, acts, rfl, x, hx, e, he⟩ |
    ⟨-, hnone⟩
  · -- the only write in the past is the merge into the row that was read
    have hp : p = req.after tenant.policy := by
      simp only [List.mem_append, List.mem_cons, List.not_mem_nil, or_false] at hmem
      rcases hmem with (heq | heq) | heq | heq | heq
      · cases heq
      · cases heq
        rfl
      · cases heq
      · cases heq
      · cases heq
    subst hp
    exact .inl (mem_rows_of_past hc hth htenant)
  · exact .inr ⟨x, e, (hc.mem_log hth).mp (List.mem_append_right _ hx), he⟩
  · exact absurd rfl (hnone _ hmem p tenantId u)

/-- The requests of a tenant have all been answered 200, and no two of them change one field:
    the policy has every change, and otherwise what it had. -/
def NothingLost (c : PolicyConfig) (tenantId : Uuid) (p₀ : Policy) : Prop :=
  (∀ t req, RequestOf c tenantId t req → ∃ view, Answered c t (.updated view)) →
  (∀ t t' req req' f, RequestOf c tenantId t req → RequestOf c tenantId t' req' → t' ≠ t →
    req.change f = none ∨ req'.change f = none) →
  ∃ p, c.world.policy tenantId = some p ∧ ∀ f,
    (∀ t req x, RequestOf c tenantId t req → req.change f = some x → p.lookup f = x) ∧
    ((∀ t req, RequestOf c tenantId t req → req.change f = none) → p.lookup f = p₀.lookup f)

/-- The requests of a tenant have all ended, one at least with 200: the last row has the
    stored policy. -/
def LastRowStored (c : PolicyConfig) (tenantId : Uuid) : Prop :=
  (∀ t req, RequestOf c tenantId t req → ∃ response, Answered c t response) →
  (∃ t req view, RequestOf c tenantId t req ∧ Answered c t (.updated view)) →
  ∃ event, (c.world.audit.filter fun e => e.tenantId = tenantId).getLast? = some event ∧
    c.world.policy tenantId = some event.policyAfter

theorem nothingLost_of_reach (hc : policyEditing.Reach
      (fun w => w.policy tenantId = some p₀ ∧ w.audit = a₀) InSequence c) :
    NothingLost c tenantId p₀ := by
  intro hanswered hdisjoint
  have hkept := kept_of_reach hc
  refine ⟨_, hkept.stored, fun f => ?_⟩
  obtain ⟨hnone, hone⟩ := lookup_lastPolicy hkept f (List.append_nil _).symm
  refine ⟨fun t req x hreq hx => ?_, fun hall => hnone fun t req _ _ => hall t req⟩
  refine hone t req x hreq hx ?_ fun t' req' hreq' hne => ?_
  · obtain ⟨past, rest, hth, htenant⟩ := hreq
    obtain ⟨view, req', past', hth'⟩ := hanswered t req ⟨past, rest, hth, htenant⟩
    rw [hth] at hth'
    cases hth'
    rcases editing_of_answered hc hth with ⟨-, tenant, rfl⟩ | ⟨hstatus, -⟩ | ⟨hstatus, -⟩
    · exact ⟨_, hkept.ordered.subset (mem_rows_of_past hc hth htenant)⟩
    · exact absurd rfl hstatus
    · exact absurd rfl hstatus
  · refine (hdisjoint t t' req req' f hreq hreq' hne).resolve_left fun hnone => ?_
    rw [hx] at hnone
    cases hnone

theorem lastRowStored_of_reach (hc : policyEditing.Reach
      (fun w => w.policy tenantId = some p₀ ∧ w.audit = a₀) InSequence c) :
    LastRowStored c tenantId := by
  rintro hended ⟨t, req, view, ⟨past, rest, hth, htenant⟩, req', past', hth'⟩
  have hkept := kept_of_reach hc
  rw [hth] at hth'
  cases hth'
  have hrow : ∃ p, (t, p) ∈ rows tenantId c.log := by
    rcases editing_of_answered hc hth with ⟨-, tenant, rfl⟩ | ⟨hstatus, -⟩ | ⟨hstatus, -⟩
    · exact ⟨_, mem_rows_of_past hc hth htenant⟩
    · exact absurd rfl hstatus
    · exact absurd rfl hstatus
  obtain ⟨p, hrow⟩ := hrow
  have hlast := lastPolicy_rows hkept (List.append_nil _).symm hkept.ordered
    (List.ne_nil_of_mem hrow) fun t p hmem => row_or_failed hc hended hmem
  obtain hnil | ⟨rs, y, hrs⟩ := (rows tenantId c.log).eq_nil_or_concat
  · exact absurd hnil (List.ne_nil_of_mem hrow)
  rw [List.concat_eq_append] at hrs
  have haudit : ((c.world.audit.filter fun e => e.tenantId = tenantId).getLast?).map
      PolicyEvent.policyAfter = some y.2 := by
    rw [← List.getLast?_map, hkept.audit, hrs, List.map_append, ← List.append_assoc]
    exact List.getLast?_concat
  obtain ⟨event, hevent, hafter⟩ := Option.map_eq_some_iff.mp haudit
  refine ⟨event, hevent, ?_⟩
  rw [hkept.stored, ← hlast, hrs, hafter]
  exact congrArg some (lastPolicy_append p₀ rs y.1 y.2)

/-- A thread that awaits the UPDATE has read its tenant and done nothing else. -/
theorem of_awaits_update {init : PolicyWorld → Prop} {t : ℕ} {req : PolicyRequest}
    {past : List (Act policySig JsString)} {policy : Policy} {id : Uuid}
    {k : Except JsString (PolicyOp.updatePolicy policy id).Resp → PolicyProgram PolicyResponse}
    (hc : policyEditing.Reach init InSequence c)
    (hth : c.threads[t]? = some ⟨req, past, .await (.updatePolicy policy id) k⟩) :
    id = req.tenantId ∧ ∃ tenant : TenantRow, policy = req.after tenant.policy ∧
      past = [⟨.getTenantById req.tenantId, .ok (some tenant)⟩] := by
  have hedit : Editing req past (.await (.updatePolicy policy id) k) :=
    editing_of_trace (hc.trace hth)
  generalize hq : Prog.await (S := policySig) (.updatePolicy policy id) k = q at hedit
  cases hedit with
  | begun =>
      cases hv : validate (requestBody req.body) with
      | some refusal =>
          rw [postSecurityPolicy_refused hv] at hq
          cases hq
      | none =>
          rw [postSecurityPolicy_eq hv] at hq
          cases hq
  | @loaded tenant =>
      rw [persistPolicy_eq] at hq
      cases hq
      exact ⟨rfl, tenant, rfl, rfl⟩
  -- after the UPDATE the program awaits answers and the audit row only
  | wrote hafter =>
      subst hq
      obtain heq | heq := hafter.awaits
      · cases heq
      · cases heq
  | refused => cases hq

/-- A request that has written and ends with an error has written what it had read. -/
theorem after_eq_of_error {t : ℕ} {req : PolicyRequest} {tenant : TenantRow} {past : List (Act policySig JsString)}
    {rest : PolicyProgram PolicyResponse} {response : PolicyResponse}
    (hc : policyEditing.Reach (fun w => w.policy req.tenantId = some p₀ ∧ w.audit = a₀) InSequence c)
    (hth : c.threads[t]? = some ⟨req, past, rest⟩)
    (hpast : readsWrites req tenant <+: past)
    (hend : Answered c t response) (herror : response.status ≠ 200) :
    req.after tenant.policy = tenant.policy := by
  have hkept := kept_of_reach hc
  obtain ⟨req', past', hth'⟩ := hend
  rw [hth] at hth'
  cases hth'
  have hread := (hc.mem_log hth).mp (hpast.subset List.mem_cons_self)
  have hwrite := (hc.mem_log hth).mp (hpast.subset (List.mem_cons_of_mem _ (List.mem_singleton.mpr rfl)))
  have hwrites : (t, req.after tenant.policy) ∈ writes req.tenantId c.log :=
    List.mem_filterMap.mpr ⟨_, hwrite, if_pos rfl⟩
  obtain ⟨before, later, hsplit⟩ := List.append_of_mem hwrites
  have hmerge := hkept.merges before t _ later hsplit
  rcases editing_of_answered hc hth with ⟨hstatus, -⟩ | ⟨-, tenant', acts, rfl, x, hx, e, he⟩ |
    ⟨-, hnone⟩
  · exact absurd hstatus herror
  · have hfailed := (hc.mem_log hth).mp (List.mem_append_right _ hx)
    exact (hmerge.failed x e hfailed he).trans (hmerge.read tenant hread).symm
  · exact absurd rfl (hnone _ (hpast.subset (List.mem_cons_of_mem _ (List.mem_singleton.mpr rfl)))
      _ req.tenantId ())

/-- A step of a request that ends with an error leaves the policy as it is. -/
theorem policy_unchanged_of_error {c'' : PolicyConfig} {t : ℕ} {ω : PolicyOracle}
    {response : PolicyResponse}
    (hc : policyEditing.Reach (fun w => w.policy tenantId = some p₀ ∧ w.audit = a₀) InSequence c)
    (hg : InSequence c (.resume t ω)) (hs : policyEditing.step c (.resume t ω) = some c')
    (hl : policyEditing.Later InSequence c' c'') (hend : Answered c'' t response)
    (herror : response.status ≠ 200) : c'.world.policy tenantId = c.world.policy tenantId := by
  have hc' := hc.step hg hs
  have hc'' := hc'.later hl
  obtain ⟨a, heq, -⟩ | ⟨t', ω', req, past, o, k, r, w, heq, hth, hx, rfl⟩ | ⟨e, -⟩ :=
    System.step_cases hs
  · cases heq
  · cases heq
    show w.policy tenantId = c.world.policy tenantId
    -- no other statement touches the policy
    cases o with
    | getTenantById id => cases ω <;> cases hx <;> rfl
    | appendAuditEvent event => cases ω <;> cases hx <;> rfl
    | answer => cases ω <;> cases hx <;> rfl
    | updatePolicy policy id =>
        cases ω with
        | fail message =>
            cases hx
            rfl
        | proceed =>
            cases hx
            rw [policy_update]
            split
            · next hid =>
                subst hid
                obtain ⟨rfl, tenant, rfl, rfl⟩ := of_awaits_update hc hth
                -- in sequence, the UPDATE meets the row that its request has read
                have hcurrent : c.world.policy req.tenantId = some tenant.policy :=
                  hg t _ req _ _ _ rfl hth tenant (List.mem_singleton.mpr rfl)
                obtain ⟨⟨req'', past'', rest''⟩, hth'', rfl, hprefix, -⟩ :=
                  hl.thread (System.getElem?_answered_self hth)
                have hsame := after_eq_of_error hc'' hth'' hprefix hend herror
                rw [hcurrent, Option.map_some, hsame]
            · rfl
  · exact e.elim

/-- When every UPDATE meets the policy that its request has read, the rows come in the
    order of the UPDATEs, and no error comes after an UPDATE that has changed something: the
    changes of all requests are kept, the last row has the stored policy, and no step of
    a request that ends with an error changes the policy. -/
theorem policy_updates_kept (hc : policyEditing.Reach
      (fun w => w.policy tenantId = some p₀ ∧ w.audit = a₀) InSequence c) :
    NothingLost c tenantId p₀ ∧ LastRowStored c tenantId ∧
    ∀ t ω c' c'' response, InSequence c (.resume t ω) →
      policyEditing.step c (.resume t ω) = some c' → policyEditing.Later InSequence c' c'' →
      Answered c'' t response → response.status ≠ 200 →
      c'.world.policy tenantId = c.world.policy tenantId :=
  ⟨nothingLost_of_reach hc, lastRowStored_of_reach hc, fun _ _ _ _ _ hg hs hl hend herror =>
    policy_unchanged_of_error hc hg hs hl hend herror⟩

end Results

/-! ## One request after the other, and two that overlap -/

section Samples

variable {c : PolicyConfig} {t : ℕ} {req : PolicyRequest} {past : List (Act policySig JsString)}
  {tenant : TenantRow}

theorem step_load (hth : c.threads[t]? = some ⟨req, past, postSecurityPolicy req⟩)
    (hv : validate (requestBody req.body) = none)
    (hfind : c.world.tenants.find? (fun r => r.id = req.tenantId) = some tenant) :
    policyEditing.step c (.resume t .proceed) = some ⟨c.world,
      c.log ++ [⟨t, ⟨.getTenantById req.tenantId, .ok (some tenant)⟩⟩],
      c.threads.set t ⟨req, past ++ [⟨.getTenantById req.tenantId, .ok (some tenant)⟩],
        onError (persistPolicy req tenant.policy)⟩⟩ := by
  rw [postSecurityPolicy_eq hv] at hth
  rw [System.step_resume hth (congrArg some (congrArg₂ Prod.mk (congrArg Except.ok hfind) rfl))]
  rfl

theorem step_write {before : Policy}
    (hth : c.threads[t]? = some ⟨req, past, onError (persistPolicy req before)⟩) :
    policyEditing.step c (.resume t .proceed) = some ⟨c.world.store (req.after before) req.tenantId,
      c.log ++ [⟨t, ⟨.updatePolicy (req.after before) req.tenantId, .ok ()⟩⟩],
      c.threads.set t ⟨req, past ++ [⟨.updatePolicy (req.after before) req.tenantId, .ok ()⟩],
        onError do
          policyAwait .answer
          recordUpdate req before⟩⟩ := by
  rw [persistPolicy_eq] at hth
  rw [System.step_resume hth rfl]
  rfl

theorem step_answer {p : PolicyProgram PolicyResponse}
    (hth : c.threads[t]? = some ⟨req, past, onError do
      policyAwait .answer
      p⟩) :
    policyEditing.step c (.resume t .proceed) = some ⟨c.world, c.log ++ [⟨t, heard⟩],
      c.threads.set t ⟨req, past ++ [heard], onError p⟩⟩ := by
  rw [answer_eq] at hth
  rw [System.step_resume hth rfl]
  rfl

theorem step_append {before : Policy}
    (hth : c.threads[t]? = some ⟨req, past, onError (recordUpdate req before)⟩) :
    policyEditing.step c (.resume t .proceed) = some
      ⟨{ c.world with audit := c.world.audit ++ [updatedEvent req before (req.after before)] },
        c.log ++ [⟨t, appends req before⟩],
        c.threads.set t ⟨req, past ++ [appends req before], onError do
          policyAwait .answer
          return .updated (policyView (req.after before))⟩⟩ := by
  rw [recordUpdate_eq] at hth
  rw [System.step_resume hth rfl]
  rfl

def firstTenant : Uuid := .ofNat 1

/-- A request with one field. -/
def fieldRequest (field value : JsString) : PolicyRequest :=
  ⟨firstTenant, js "admin@example.com", some (.obj [(field, .str value)])⟩

theorem change_fieldRequest (field value f : JsString) : (fieldRequest field value).change f =
    if f = field then (if f ∈ stringFields ∨ f ∈ enumFields.map Prod.fst then
      some (some (.str value)) else none) else none := by
  have hget : (requestBody (fieldRequest field value).body).get? f =
      if f = field then some (.str value) else none := by
    show List.lookup f [(field, Json.str value)] = _
    rw [List.lookup_cons, List.lookup_nil]
    by_cases hf : f = field
    · rw [if_pos hf, hf, beq_self_eq_true]
    · rw [if_neg hf, beq_false_of_ne hf]
  rw [PolicyRequest.change, Console.change, stringChange, enumChange, hget]
  by_cases hf : f = field
  · simp only [if_pos hf]
    split_ifs <;> simp_all
  · simp only [if_neg hf]
    split_ifs <;> rfl

def newTenant : PolicyWorld := ⟨[⟨firstTenant, none⟩], []⟩

def didRequest : PolicyRequest := fieldRequest (js "did_provider") (js "base-mainnet")

def verifierRequest : PolicyRequest := fieldRequest (js "verifier_provider") (js "on-chain")

theorem validate_didRequest : validate (requestBody didRequest.body) = none :=
  Option.isNone_iff_eq_none.mp (rfl)

theorem validate_verifierRequest : validate (requestBody verifierRequest.body) = none :=
  Option.isNone_iff_eq_none.mp (rfl)

theorem inSequence_of_turn {rest : PolicyProgram PolicyResponse} {o : PolicyOp}
    {k : Except JsString o.Resp → PolicyProgram PolicyResponse} {ω : PolicyOracle}
    (hth : c.threads[t]? = some ⟨req, past, rest⟩) (hrest : rest = .await o k)
    (h : InTurn c t past o ω) : InSequence c (.resume t ω) := by
  intro t' ω' req' past' o' k' heq hth'
  cases heq
  rw [hth, hrest] at hth'
  cases hth'
  exact h

/-- A request that is alone from its start to its end is in sequence, if all rows of the
    writes before it are there; and then its row is there. -/
theorem answered_alone {init : PolicyWorld → Prop} (hc : policyEditing.Reach init InSequence c)
    (hrows : rows req.tenantId c.log = writes req.tenantId c.log)
    (hv : validate (requestBody req.body) = none)
    (hfind : c.world.tenants.find? (fun r => r.id = req.tenantId) = some tenant) :
    ∃ c', policyEditing.Reach init InSequence c' ∧
      c'.threads = c.threads ++ [⟨req,
        readsWrites req tenant ++ [heard, appends req tenant.policy, heard],
        .ret (.updated (policyView (req.after tenant.policy)))⟩] ∧
      rows req.tenantId c'.log = writes req.tenantId c'.log ∧
      c'.world.tenants = (c.world.store (req.after tenant.policy) req.tenantId).tenants := by
  have hset : ∀ th th' : Thread policySig JsString PolicyResponse PolicyRequest,
      (c.threads ++ [th]).set c.threads.length th' = c.threads ++ [th'] := by
    intro th th'
    rw [List.set_append_right _ _ (Nat.le_refl _), Nat.sub_self, List.set_cons_zero]
  have hget : ∀ th : Thread policySig JsString PolicyResponse PolicyRequest,
      (c.threads ++ [th])[c.threads.length]? = some th := fun th => List.getElem?_concat_length
  have hstored : c.world.policy req.tenantId = some tenant.policy := congrArg _ hfind
  have hwrite : writeOf req.tenantId ⟨c.threads.length,
      ⟨.updatePolicy (req.after tenant.policy) req.tenantId, .ok ()⟩⟩ =
      some (c.threads.length, req.after tenant.policy) := if_pos rfl
  have hrow : rowOf req.tenantId ⟨c.threads.length, appends req tenant.policy⟩ =
      some (c.threads.length, req.after tenant.policy) := if_pos rfl
  have h₁ := hc.step (l := .start req) (fun _ _ _ _ _ _ heq => by cases heq) rfl
  have h₂ := h₁.step (inSequence_of_turn (hget _) (postSecurityPolicy_eq hv) trivial)
    (step_load (hget _) hv hfind)
  rw [System.spawn, hset] at h₂
  have h₃ := h₂.step (inSequence_of_turn (hget _) (persistPolicy_eq _ _) ?_) (step_write (hget _))
  · rw [hset] at h₃
    have h₄ := h₃.step (inSequence_of_turn (hget _) (answer_eq _) (by trivial)) (step_answer (hget _))
    rw [hset] at h₄
    have h₅ := h₄.step (inSequence_of_turn (hget _) (recordUpdate_eq _ _) ?_) (step_append (hget _))
    · rw [hset] at h₅
      have h₆ := h₅.step (inSequence_of_turn (hget _) (answer_eq _) (by trivial)) (step_answer (hget _))
      rw [hset] at h₆
      refine ⟨_, h₆, rfl, ?_, rfl⟩
      rw [rows_append_of_none rfl, rows_append_of_some hrow, rows_append_of_none rfl,
        rows_append_of_none rfl, rows_append_of_none rfl, writes_append_of_none rfl,
        writes_append_of_none rfl, writes_append_of_none rfl, writes_append_of_some hwrite,
        writes_append_of_none rfl, hrows]
    · -- its write is the last one, and all before it have their rows
      rw [InTurn, updatedEvent_tenantId, rows_append_of_none rfl, rows_append_of_none rfl,
        rows_append_of_none rfl, writes_append_of_none rfl, writes_append_of_some hwrite,
        writes_append_of_none rfl, hrows]
      exact List.Sublist.refl _
  · intro tenant' hmem
    cases List.mem_singleton.mp hmem
    exact hstored

/-- Two requests, one after the other, that set a provider each. -/
theorem policy_updates_kept_of_two : ∃ c, policyEditing.Reach
      (fun w => w.policy firstTenant = some ∅ ∧ w.audit = []) InSequence c ∧
    (∃ view view', Answered c 0 (.updated view) ∧ Answered c 1 (.updated view')) ∧
    NothingLost c firstTenant ∅ ∧
    LastRowStored c firstTenant ∧ ∀ t ω c' c'' response, InSequence c (.resume t ω) →
      policyEditing.step c (.resume t ω) = some c' → policyEditing.Later InSequence c' c'' →
      Answered c'' t response → response.status ≠ 200 →
      c'.world.policy firstTenant = c.world.policy firstTenant := by
  have hstart : policyEditing.Reach (fun w => w.policy firstTenant = some ∅ ∧ w.audit = [])
      InSequence (.init newTenant) := .init ⟨rfl, rfl⟩
  obtain ⟨c₁, hc₁, hthreads₁, hrows₁, htenants₁⟩ :=
    answered_alone hstart rfl validate_didRequest rfl
  have hfind : c₁.world.tenants.find? (fun r => r.id = verifierRequest.tenantId) =
      some ⟨firstTenant, some (didRequest.after ∅)⟩ := by
    rw [htenants₁]
    rfl
  obtain ⟨c, hc, hthreads, -, -⟩ := answered_alone hc₁ hrows₁ validate_verifierRequest hfind
  rw [hthreads₁] at hthreads
  exact ⟨c, hc, ⟨_, _, ⟨_, _, congrArg (fun ths => ths[0]?) hthreads⟩,
    ⟨_, _, congrArg (fun ths => ths[1]?) hthreads⟩⟩, policy_updates_kept hc⟩

/-- Two requests that read the policy before either writes: the second one's document
    stands. -/
theorem reach_overlap {init : PolicyWorld → Prop} {w : PolicyWorld} {req₀ req₁ : PolicyRequest}
    {tenant : TenantRow} {before : Policy}
    (h₀ : policyEditing.Reach init (fun _ _ => True) (.init w)) (hbefore : tenant.policy = before)
    (hv₀ : validate (requestBody req₀.body) = none) (hv₁ : validate (requestBody req₁.body) = none)
    (hfind₀ : w.tenants.find? (fun r => r.id = req₀.tenantId) = some tenant)
    (hfind₁ : w.tenants.find? (fun r => r.id = req₁.tenantId) = some tenant)
    (hsame : req₀.tenantId = req₁.tenantId) :
    ∃ c, policyEditing.Reach init (fun _ _ => True) c ∧
    (∃ past past', c.threads = [⟨req₀, past, .ret (.updated (policyView (req₀.after before)))⟩,
      ⟨req₁, past', .ret (.updated (policyView (req₁.after before)))⟩]) ∧
    c.world.policy req₁.tenantId = some (req₁.after before) := by
  subst hbefore
  have h₁ := h₀.step (l := .start req₀) trivial rfl
  have h₂ := h₁.step (l := .start req₁) trivial rfl
  -- both read the row before either writes
  have h₃ := h₂.step trivial (step_load (t := 0) rfl hv₀ hfind₀)
  have h₄ := h₃.step trivial (step_load (t := 1) rfl hv₁ hfind₁)
  have h₅ := h₄.step trivial (step_write (t := 0) rfl)
  have h₆ := h₅.step trivial (step_write (t := 1) rfl)
  have h₇ := h₆.step trivial (step_answer (t := 0) rfl)
  have h₈ := h₇.step trivial (step_answer (t := 1) rfl)
  have h₉ := h₈.step trivial (step_append (t := 0) rfl)
  have h₁₀ := h₉.step trivial (step_append (t := 1) rfl)
  have h₁₁ := h₁₀.step trivial (step_answer (t := 0) rfl)
  have h₁₂ := h₁₁.step trivial (step_answer (t := 1) rfl)
  refine ⟨_, h₁₂, ⟨_, _, rfl⟩, ?_⟩
  have hstored : w.policy req₁.tenantId = some tenant.policy := congrArg _ hfind₁
  show ((w.store _ req₀.tenantId).store _ req₁.tenantId).policy req₁.tenantId = _
  rw [policy_update, if_pos rfl, policy_update, if_pos hsame, hstored, Option.map_some, Option.map_some]

/-- Both are answered 200, and the provider that the first one has set is lost. -/
theorem update_lost : ¬ ∀ (c : PolicyConfig) (tenantId : Uuid) (p₀ : Policy) (a₀ : List PolicyEvent),
    policyEditing.Reach (fun w => w.policy tenantId = some p₀ ∧ w.audit = a₀) (fun _ _ => True) c →
    NothingLost c tenantId p₀ ∧ LastRowStored c tenantId ∧
    ∀ t ω c' c'' response, policyEditing.step c (.resume t ω) = some c' →
      policyEditing.Later (fun _ _ => True) c' c'' → Answered c'' t response → response.status ≠ 200 →
      c'.world.policy tenantId = c.world.policy tenantId := by
  intro h
  have hinit : policyEditing.Reach (fun w => w.policy firstTenant = some ∅ ∧ w.audit = [])
      (fun _ _ => True) (.init newTenant) := .init ⟨rfl, rfl⟩
  have hbefore : (⟨firstTenant, none⟩ : TenantRow).policy = ∅ := rfl
  obtain ⟨c, hc, ⟨past₀, past₁, hthreads⟩, hworld⟩ := reach_overlap hinit hbefore
    validate_didRequest validate_verifierRequest rfl rfl rfl
  obtain ⟨hnothing, -⟩ := h c firstTenant ∅ [] hc
  have hget : ∀ t : ℕ, c.threads[t]? = ([⟨didRequest, past₀, _⟩, ⟨verifierRequest, past₁, _⟩] :
      List (Thread policySig JsString PolicyResponse PolicyRequest))[t]? :=
    fun t => congrArg (fun ths => ths[t]?) hthreads
  -- the run has these two requests and no other
  have hrequest : ∀ t req, RequestOf c firstTenant t req →
      (t = 0 ∧ req = didRequest) ∨ (t = 1 ∧ req = verifierRequest) := by
    rintro t req ⟨past, rest, hth, -⟩
    rw [hget] at hth
    match t, hth with
    | 0, hth =>
        cases hth
        exact .inl ⟨rfl, rfl⟩
    | 1, hth =>
        cases hth
        exact .inr ⟨rfl, rfl⟩
  -- and they change different fields
  have hdisjoint : ∀ f, didRequest.change f = none ∨ verifierRequest.change f = none := by
    intro f
    rw [didRequest, verifierRequest, change_fieldRequest, change_fieldRequest]
    by_cases hf : f = js "did_provider"
    · exact .inr (if_neg (hf ▸ by decide))
    · exact .inl (if_neg hf)
  have hanswered : ∀ t req, RequestOf c firstTenant t req → ∃ view, Answered c t (.updated view) := by
    intro t req hreq
    rcases hrequest t req hreq with ⟨rfl, rfl⟩ | ⟨rfl, rfl⟩
    · exact ⟨_, _, _, hget 0⟩
    · exact ⟨_, _, _, hget 1⟩
  obtain ⟨p, hstored, hfields⟩ := hnothing hanswered fun t t' req req' f hreq hreq' hne => by
    rcases hrequest t req hreq with ⟨rfl, rfl⟩ | ⟨rfl, rfl⟩ <;>
      rcases hrequest t' req' hreq' with ⟨rfl, rfl⟩ | ⟨rfl, rfl⟩
    · exact absurd rfl hne
    · exact hdisjoint f
    · exact (hdisjoint f).symm
    · exact absurd rfl hne
  -- nothing lost would mean that the first one's provider stands,
  have hkept : p.lookup (js "did_provider") = some (.str (js "base-mainnet")) := by
    refine (hfields _).1 0 didRequest _ ⟨_, _, hget 0, rfl⟩ ?_
    rw [didRequest, change_fieldRequest, if_pos rfl, if_pos (by decide)]
  -- but the second document was made from the empty policy
  have hlost : p.lookup (js "did_provider") = none := by
    have hp : p = verifierRequest.after ∅ := Option.some.inj (hstored.symm.trans hworld)
    rw [hp, PolicyRequest.after, lookup_mergePolicy]
    show (verifierRequest.change _).getD _ = _
    rw [verifierRequest, change_fieldRequest, if_neg (by decide)]
    exact Finmap.lookup_empty _
  rw [hlost] at hkept
  cases hkept

end Samples

end ZeroAuth.Console
