/-
  ZeroAuth.Console.Caps

  The tables `api_keys` and `tenant_webhooks` under any number of console requests, and the
  caps on open pairing sessions, active API keys and webhooks.

  Each request counts first and inserts in a later statement.  What other requests insert in
  between is not counted again, so a cap holds in every run in which no request inserts once
  its count, with the rows inserted since, has reached the cap (`caps_hold`).
-/

import ZeroAuth.Console.Requests
import ZeroAuth.Pairing.Cap
import ZeroAuth.Pairing.SingleUse

namespace ZeroAuth.Console

open ZeroAuth.Lib ZeroAuth.Lib.Prog ZeroAuth.Js ZeroAuth.Pg
open ZeroAuth.Audit (AuditInput)

/-! ## The world -/

structure World where
  tenants : List Uuid
  apiKeys : List ApiKey
  webhooks : List WebhookRow
  audit : List (JsString × AuditInput)
  clock : ℕ

/-- Whether a statement fails, and the values that the program does not compute itself. -/
structure Oracle where
  failure : Option JsString := none
  uuid : Uuid := .ofNat 0
  bytes : List UInt8 := []

/-- How the driver and the database read a value for a column VARCHAR(255) NOT NULL and one
    TEXT[] NOT NULL; `none` is refused. -/
structure Columns where
  varchar : Json → Option JsString
  textArray : Json → Option (List (Option JsString))

/-- `CHECK (environment IN ('live', 'test'))`. -/
def checkedEnvironment : Json → Option ApiKeyEnvironment
  | .str s => if s = js "live" then some .live else if s = js "test" then some .test else none
  | _ => none

def ApiKey.isActive (tenantId : Uuid) (r : ApiKey) : Bool :=
  r.tenantId = tenantId ∧ r.status = .active

def ApiKey.revokedAtTime (now : ℕ) (r : ApiKey) : ApiKey :=
  { r with status := .revoked, revokedAt := some now }

def ApiKey.canRevoke (keyId tenantId : Uuid) (r : ApiKey) : Bool :=
  r.id = keyId ∧ r.isActive tenantId = true

def WebhookRow.isIn (k : Uuid × ApiKeyEnvironment) (r : WebhookRow) : Bool :=
  r.tenantId = k.1 ∧ r.environment = k.2

/-! ## Statements -/

def invalidUuid : JsString := js "invalid input syntax for type uuid"

/-- A statement that fails has no effect. -/
def statement {α : Type} (ω : Oracle) (w : World) (run : Except JsString α × World) :
    Option (Except JsString α × World) :=
  match ω.failure with
  | some message => some (.error message, w)
  | none => some run

/-- A parameter of type UUID, given as text. -/
def withUuid {α : Type} (text : JsString) (w : World) (run : Uuid → Except JsString α × World) :
    Except JsString α × World :=
  match Uuid.parse text with
  | some u => run u
  | none => (.error invalidUuid, w)

/-- The row of the INSERT, unless a column refuses its value. -/
def NewApiKey.row (v : NewApiKey) (columns : Columns) (id tenantId : Uuid) (now : ℕ) :
    Option ApiKey := do
  let name ← columns.varchar v.name
  let scopes ← columns.textArray v.scopes
  let environment ← checkedEnvironment v.environment
  return ⟨id, tenantId, name, v.keyPrefix, v.keyHash, scopes, environment, .active, now, none⟩

/-- `key_hash` is unique, and the tenant has to exist. -/
def World.insertApiKey (w : World) (columns : Columns) (id : Uuid) (v : NewApiKey) :
    Except JsString ApiKey × World :=
  withUuid v.tenantId w fun tenantId =>
    match v.row columns id tenantId w.clock with
    | none => (.error (js "invalid value for a column of api_keys"), w)
    | some row =>
        if w.apiKeys.any fun r => r.id = id ∨ r.keyHash = row.keyHash then
          (.error (js "duplicate key value violates unique constraint"), w)
        else if w.tenants.contains tenantId = false then
          (.error (js "insert violates foreign key constraint"), w)
        else (.ok row, { w with apiKeys := w.apiKeys ++ [row] })

def Webhook.row (v : Webhook) (id tenantId : Uuid) (now : ℕ) : WebhookRow :=
  ⟨id, tenantId, v.environment, v.url, v.secret, v.eventFilter, v.enabled, v.description, now⟩

def World.insertWebhook (w : World) (id : Uuid) (v : Webhook) :
    Except JsString WebhookRow × World :=
  withUuid v.tenantId w fun tenantId =>
    if w.webhooks.any fun r => r.id = id then
      (.error (js "duplicate key value violates unique constraint"), w)
    else if w.tenants.contains tenantId = false then
      (.error (js "insert violates foreign key constraint"), w)
    else (.ok (v.row id tenantId w.clock), { w with webhooks := w.webhooks ++ [v.row id tenantId w.clock] })

def World.revokeApiKey (w : World) (keyId tenantId : Uuid) : Except JsString Bool × World :=
  (.ok (w.apiKeys.any (ApiKey.canRevoke keyId tenantId)),
    { w with apiKeys := w.apiKeys.map fun r =>
        if r.canRevoke keyId tenantId then r.revokedAtTime w.clock else r })

/-- `id = $1 AND tenant_id = $2 AND environment = $3`. -/
def WebhookRow.matches (id : Uuid) (k : Uuid × ApiKeyEnvironment) (r : WebhookRow) : Bool :=
  r.id = id ∧ r.isIn k = true

def World.deleteWebhook (w : World) (id : Uuid) (k : Uuid × ApiKeyEnvironment) :
    Except JsString (Option WebhookRow) × World :=
  (.ok (w.webhooks.find? (WebhookRow.matches id k)),
    { w with webhooks := w.webhooks.filter fun r => !r.matches id k })

def World.activeKeys (w : World) (tenantId : Uuid) : ℕ :=
  w.apiKeys.countP (ApiKey.isActive tenantId)

def World.webhookCount (w : World) (k : Uuid × ApiKeyEnvironment) : ℕ :=
  w.webhooks.countP (WebhookRow.isIn k)

def exec (columns : Columns) :
    (o : Op) → Oracle → World → Option (Except JsString o.Resp × World)
  | .randomBytes n, ω, w => if ω.bytes.length = n then some (.ok ω.bytes, w) else none
  | .countActiveKeys tenantId, ω, w =>
      statement ω w (withUuid tenantId w fun u => (.ok (w.activeKeys u), w))
  | .insertApiKey v, ω, w => statement ω w (w.insertApiKey columns ω.uuid v)
  | .revokeApiKey tenantId keyId, ω, w =>
      statement ω w (withUuid keyId w fun id => withUuid tenantId w fun u => w.revokeApiKey id u)
  | .countWebhooks tenantId environment, ω, w =>
      statement ω w (withUuid tenantId w fun u => (.ok (w.webhookCount (u, environment)), w))
  | .insertWebhook v, ω, w => statement ω w (w.insertWebhook ω.uuid v)
  | .deleteWebhook id tenantId environment, ω, w =>
      statement ω w (withUuid id w fun id => withUuid tenantId w fun u =>
        w.deleteWebhook id (u, environment))
  | .record tenantId input, _, w =>
      some (.ok (), { w with audit := w.audit ++ [(tenantId, input)] })

/-- Time passes. -/
inductive Env
  | tick (ms : ℕ)

def env : Env → World → Option World
  | .tick ms, w => some { w with clock := w.clock + ms }

inductive Call
  | createKey (req : KeyRequest)
  | revokeKey (tenantId keyId : JsString)
  | createWebhook (email : JsString) (req : WebhookRequest)
  | deleteWebhook (email : JsString) (req : DeleteRequest)

def code (cm : CaseMapping) (parse : JsString → Option Url) : Call → Program Reply
  | .createKey req => createKeyRoute req
  | .revokeKey tenantId keyId => revokeKeyRoute tenantId keyId
  | .createWebhook email req => createWebhookRoute cm parse email req
  | .deleteWebhook email req => deleteWebhookRoute email req

abbrev system (columns : Columns) (cm : CaseMapping) (parse : JsString → Option Url) :
    System sig JsString Reply Call World Oracle Env :=
  { code := code cm parse, exec := fun _ => exec columns, env := env }

abbrev State := Config sig JsString Reply Call World

/-! ## What is counted and what is inserted -/

def apiKeyQuota : Quota sig JsString World Uuid where
  load := World.activeKeys
  counted
    | ⟨.countActiveKeys tenantId, .ok n⟩ => (Uuid.parse tenantId).map fun u => (u, n)
    | _ => none
  inserts
    | .insertApiKey v => Uuid.parse v.tenantId
    | _ => none

def webhookQuota : Quota sig JsString World (Uuid × ApiKeyEnvironment) where
  load := World.webhookCount
  counted
    | ⟨.countWebhooks tenantId environment, .ok n⟩ =>
        (Uuid.parse tenantId).map fun u => ((u, environment), n)
    | _ => none
  inserts
    | .insertWebhook v => (Uuid.parse v.tenantId).map fun u => (u, v.environment)
    | _ => none

section Statements

variable {α : Type} {ω : Oracle} {w w' : World} {r : Except JsString α} {a : α}

theorem statement_cases {run : Except JsString α × World} (h : statement ω w run = some (r, w')) :
    (∃ message, r = .error message ∧ w' = w) ∨ run = (r, w') := by
  unfold statement at h
  split at h
  · next message _ =>
      cases h
      exact .inl ⟨message, rfl, rfl⟩
  · exact .inr (Option.some.inj h)

theorem withUuid_cases {text : JsString} {run : Uuid → Except JsString α × World}
    (h : withUuid text w run = (r, w')) :
    (∃ message, r = .error message ∧ w' = w) ∨
      ∃ u, Uuid.parse text = some u ∧ run u = (r, w') := by
  unfold withUuid at h
  split at h
  · next u hu => exact .inr ⟨u, hu, h⟩
  · cases h
    exact .inl ⟨_, rfl, rfl⟩

end Statements

/-- What an operation does to the two tables. -/
inductive Change (o : Op) (r : Except JsString o.Resp) (w w' : World) : Prop
  | same (hkeys : w'.apiKeys = w.apiKeys) (hhooks : w'.webhooks = w.webhooks)
  | keyInserted (v : NewApiKey) (row : ApiKey) (ho : o = .insertApiKey v) (hr : r.isOk = true)
      (htenant : Uuid.parse v.tenantId = some row.tenantId)
      (hkeys : w'.apiKeys = w.apiKeys ++ [row]) (hhooks : w'.webhooks = w.webhooks)
  | keysRevoked (keyId tenantId : Uuid) (ho : apiKeyQuota.inserts o = none)
      (hkeys : w'.apiKeys = w.apiKeys.map fun r =>
        if r.canRevoke keyId tenantId then r.revokedAtTime w.clock else r)
      (hhooks : w'.webhooks = w.webhooks)
  | webhookInserted (v : Webhook) (row : WebhookRow) (ho : o = .insertWebhook v)
      (hr : r.isOk = true) (htenant : Uuid.parse v.tenantId = some row.tenantId)
      (henvironment : row.environment = v.environment)
      (hkeys : w'.apiKeys = w.apiKeys) (hhooks : w'.webhooks = w.webhooks ++ [row])
  | webhooksDeleted (p : WebhookRow → Bool) (hkeys : w'.apiKeys = w.apiKeys)
      (hhooks : w'.webhooks = w.webhooks.filter p)

section Exec

variable {columns : Columns} {ω : Oracle} {w w' : World}

theorem change_insertApiKey {v : NewApiKey} {r : Except JsString ApiKey}
    (h : w.insertApiKey columns ω.uuid v = (r, w')) : Change (.insertApiKey v) r w w' := by
  obtain ⟨message, rfl, rfl⟩ | ⟨tenantId, htenant, h⟩ := withUuid_cases h
  · exact .same rfl rfl
  split at h
  · cases h
    exact .same rfl rfl
  next row hrow =>
    split at h
    · cases h
      exact .same rfl rfl
    split at h
    · cases h
      exact .same rfl rfl
    · cases h
      have hrowTenant : row.tenantId = tenantId := by
        unfold NewApiKey.row at hrow
        simp only [Option.bind_eq_bind, Option.bind_eq_some_iff, Option.pure_def] at hrow
        obtain ⟨name, -, scopes, -, environment, -, hrow⟩ := hrow
        cases hrow
        rfl
      exact .keyInserted v row rfl rfl (by rw [htenant, hrowTenant]) rfl rfl

theorem change_insertWebhook {v : Webhook} {r : Except JsString WebhookRow}
    (h : w.insertWebhook ω.uuid v = (r, w')) : Change (.insertWebhook v) r w w' := by
  obtain ⟨message, rfl, rfl⟩ | ⟨tenantId, htenant, h⟩ := withUuid_cases h
  · exact .same rfl rfl
  split at h
  · cases h
    exact .same rfl rfl
  split at h
  · cases h
    exact .same rfl rfl
  · cases h
    exact .webhookInserted v _ rfl rfl htenant rfl rfl rfl

/-- Everything an operation can do. -/
theorem exec_change {o : Op} {r : Except JsString o.Resp}
    (h : exec columns o ω w = some (r, w')) : Change o r w w' := by
  cases o with
  | randomBytes n =>
      simp only [exec, Option.ite_none_right_eq_some] at h
      cases h.2
      exact .same rfl rfl
  | countActiveKeys tenantId =>
      obtain ⟨message, rfl, rfl⟩ | h := statement_cases h
      · exact .same rfl rfl
      obtain ⟨message, rfl, rfl⟩ | ⟨u, -, h⟩ := withUuid_cases h
      · exact .same rfl rfl
      · cases h
        exact .same rfl rfl
  | insertApiKey v =>
      obtain ⟨message, rfl, rfl⟩ | h := statement_cases h
      · exact .same rfl rfl
      · exact change_insertApiKey h
  | revokeApiKey tenantId keyId =>
      obtain ⟨message, rfl, rfl⟩ | h := statement_cases h
      · exact .same rfl rfl
      obtain ⟨message, rfl, rfl⟩ | ⟨id, -, h⟩ := withUuid_cases h
      · exact .same rfl rfl
      obtain ⟨message, rfl, rfl⟩ | ⟨u, -, h⟩ := withUuid_cases h
      · exact .same rfl rfl
      · cases h
        exact .keysRevoked id u rfl rfl rfl
  | countWebhooks tenantId environment =>
      obtain ⟨message, rfl, rfl⟩ | h := statement_cases h
      · exact .same rfl rfl
      obtain ⟨message, rfl, rfl⟩ | ⟨u, -, h⟩ := withUuid_cases h
      · exact .same rfl rfl
      · cases h
        exact .same rfl rfl
  | insertWebhook v =>
      obtain ⟨message, rfl, rfl⟩ | h := statement_cases h
      · exact .same rfl rfl
      · exact change_insertWebhook h
  | deleteWebhook id tenantId environment =>
      obtain ⟨message, rfl, rfl⟩ | h := statement_cases h
      · exact .same rfl rfl
      obtain ⟨message, rfl, rfl⟩ | ⟨id, -, h⟩ := withUuid_cases h
      · exact .same rfl rfl
      obtain ⟨message, rfl, rfl⟩ | ⟨u, -, h⟩ := withUuid_cases h
      · exact .same rfl rfl
      · cases h
        exact .webhooksDeleted _ rfl rfl
  | record tenantId input =>
      cases h
      exact .same rfl rfl

end Exec

/-! ## API keys -/

section Keys

variable {columns : Columns} {cm : CaseMapping} {parse : JsString → Option Url} {w w' : World}

/-- A revocation never activates a key. -/
theorem isActive_of_revoked {keyId tenantId u : Uuid} {now : ℕ} {r : ApiKey}
    (h : (if r.canRevoke keyId tenantId then r.revokedAtTime now else r).isActive u = true) :
    r.isActive u = true := by
  split at h
  · have hactive : r.tenantId = u ∧ ApiKeyStatus.revoked = .active := of_decide_eq_true h
    cases hactive.2
  · exact h

theorem activeKeys_change {o : Op} {r : Except JsString o.Resp} (h : Change o r w w') (u : Uuid) :
    w'.activeKeys u ≤ w.activeKeys u + if apiKeyQuota.inserted ⟨o, r⟩ = some u then 1 else 0 := by
  -- a change that leaves the keys alone leaves their number
  have hsame : w'.apiKeys = w.apiKeys → w'.activeKeys u ≤ w.activeKeys u := by
    intro hkeys
    rw [World.activeKeys, hkeys]
    rfl
  cases h with
  | same hkeys hhooks =>
      have := hsame hkeys
      omega
  | webhookInserted v row ho hr htenant henvironment hkeys hhooks =>
      have := hsame hkeys
      omega
  | webhooksDeleted p hkeys hhooks =>
      have := hsame hkeys
      omega
  | keyInserted v row ho hr htenant hkeys hhooks =>
      subst ho
      obtain ⟨a, rfl⟩ : ∃ a, r = .ok a := by
        cases r with
        | error e => cases hr
        | ok a => exact ⟨a, rfl⟩
      -- the row counts for its tenant, if it is active
      have hkey : apiKeyQuota.inserted ⟨.insertApiKey v, .ok a⟩ = some row.tenantId := htenant
      rw [hkey, World.activeKeys, World.activeKeys, hkeys, List.countP_append, List.countP_singleton]
      by_cases hactive : row.isActive u = true
      · have hrow : row.tenantId = u ∧ _ := of_decide_eq_true hactive
        rw [if_pos hactive, if_pos (congrArg some hrow.1)]
      · rw [if_neg hactive]
        omega
  | keysRevoked keyId tenantId ho hkeys hhooks =>
      -- revoking makes no key active
      have hle : w'.activeKeys u ≤ w.activeKeys u := by
        rw [World.activeKeys, hkeys, List.countP_map]
        apply List.countP_mono_left
        intro r _ hr
        exact isActive_of_revoked hr
      omega

theorem sound_apiKeyQuota : apiKeyQuota.Sound (system columns cm parse) where
  counts := by
    intro t o ω w r w' k n h hcounted
    cases o with
    | countActiveKeys tenantId =>
        cases r with
        | error e => cases hcounted
        | ok m =>
            obtain ⟨message, hr, -⟩ | h := statement_cases h
            · cases hr
            obtain ⟨message, hr, -⟩ | ⟨u, hu, h⟩ := withUuid_cases h
            · cases hr
            have hcounted : (Uuid.parse tenantId).map (fun u => (u, m)) = some (k, n) := hcounted
            rw [hu] at hcounted
            cases hcounted
            cases h
            exact Nat.le_refl _
    | _ => cases hcounted
  grows := fun h k => activeKeys_change (exec_change h) k
  separate := by
    intro o r k n hcounted
    cases o with
    | countActiveKeys tenantId => rfl
    | _ => cases hcounted
  env := by
    intro e w w' h k
    cases e
    cases h
    exact Nat.le_refl _

end Keys

/-! ## Webhooks -/

section Webhooks

variable {columns : Columns} {cm : CaseMapping} {parse : JsString → Option Url} {w w' : World}

theorem webhookCount_change {o : Op} {r : Except JsString o.Resp} (h : Change o r w w')
    (k : Uuid × ApiKeyEnvironment) : w'.webhookCount k ≤
      w.webhookCount k + if webhookQuota.inserted ⟨o, r⟩ = some k then 1 else 0 := by
  -- a change that leaves the webhooks alone leaves their number
  have hsame : w'.webhooks = w.webhooks → w'.webhookCount k ≤ w.webhookCount k := by
    intro hhooks
    rw [World.webhookCount, hhooks]
    rfl
  cases h with
  | same hkeys hhooks =>
      have := hsame hhooks
      omega
  | keyInserted v row ho hr htenant hkeys hhooks =>
      have := hsame hhooks
      omega
  | keysRevoked keyId tenantId ho hkeys hhooks =>
      have := hsame hhooks
      omega
  | webhookInserted v row ho hr htenant henvironment hkeys hhooks =>
      subst ho
      obtain ⟨a, rfl⟩ : ∃ a, r = .ok a := by
        cases r with
        | error e => cases hr
        | ok a => exact ⟨a, rfl⟩
      -- the row counts for its tenant and environment
      have hkey : webhookQuota.inserted ⟨.insertWebhook v, .ok a⟩ =
          some (row.tenantId, row.environment) := by
        show (Uuid.parse v.tenantId).map _ = _
        rw [htenant, henvironment]
        rfl
      rw [hkey, World.webhookCount, World.webhookCount, hhooks, List.countP_append,
        List.countP_singleton]
      by_cases hin : row.isIn k = true
      · have hrow : row.tenantId = k.1 ∧ row.environment = k.2 := of_decide_eq_true hin
        rw [if_pos hin, if_pos (congrArg some (Prod.ext hrow.1 hrow.2))]
      · rw [if_neg hin]
        omega
  | webhooksDeleted p hkeys hhooks =>
      have hle : w'.webhookCount k ≤ w.webhookCount k := by
        rw [World.webhookCount, hhooks]
        exact List.filter_sublist.countP_le
      omega

theorem sound_webhookQuota : webhookQuota.Sound (system columns cm parse) where
  counts := by
    intro t o ω w r w' k n h hcounted
    cases o with
    | countWebhooks tenantId environment =>
        cases r with
        | error e => cases hcounted
        | ok m =>
            obtain ⟨message, hr, -⟩ | h := statement_cases h
            · cases hr
            obtain ⟨message, hr, -⟩ | ⟨u, hu, h⟩ := withUuid_cases h
            · cases hr
            have hcounted : (Uuid.parse tenantId).map (fun u => ((u, environment), m)) =
                some (k, n) := hcounted
            rw [hu] at hcounted
            cases hcounted
            cases h
            exact Nat.le_refl _
    | _ => cases hcounted
  grows := fun h k => webhookCount_change (exec_change h) k
  separate := by
    intro o r k n hcounted
    cases o with
    | countWebhooks tenantId environment => rfl
    | _ => cases hcounted
  env := by
    intro e w w' h k
    cases e
    cases h
    exact Nat.le_refl _

end Webhooks

/-! ## The requests count before they insert -/

section Routes

/-- A count is found among the operations awaited. -/
theorem apiKeyQuota_counted {es : List (Act sig JsString)} {tenantId : JsString} {n : ℕ}
    (hmem : ⟨.countActiveKeys tenantId, .ok n⟩ ∈ es) {v : NewApiKey} (hv : v.tenantId = tenantId) :
    apiKeyQuota.CountedFirst es (.insertApiKey v) := by
  intro k hk
  have hk : Uuid.parse v.tenantId = some k := hk
  refine ⟨_, hmem, n, ?_⟩
  show (Uuid.parse tenantId).map _ = _
  rw [← hv, hk]
  rfl

theorem webhookQuota_counted {es : List (Act sig JsString)} {tenantId : JsString}
    {environment : ApiKeyEnvironment} {n : ℕ}
    (hmem : ⟨.countWebhooks tenantId environment, .ok n⟩ ∈ es) {v : Webhook}
    (hv : v.tenantId = tenantId) (henvironment : v.environment = environment) :
    webhookQuota.CountedFirst es (.insertWebhook v) := by
  intro k hk
  have hk : (Uuid.parse v.tenantId).map (fun u => (u, v.environment)) = some k := hk
  refine ⟨_, hmem, n, ?_⟩
  show (Uuid.parse tenantId).map _ = _
  obtain ⟨u, hu, rfl⟩ := Option.map_eq_some_iff.mp hk
  rw [← hv, hu, henvironment]
  rfl

theorem before_createKeyRoute (req : KeyRequest) :
    Before apiKeyQuota.CountedFirst (createKeyRoute req) := by
  refine Before.tryCatch (Φ := fun _ _ => True) ?_ (ends_of_forall fun _ _ => trivial)
    fun _ _ _ => trivial
  refine before_perform_bind.mpr ⟨Quota.countedFirst_of_none rfl, fun (activeCount : ℕ) => ?_⟩
  show Before _ (if activeCount ≥ MAX_ACTIVE_KEYS then _ else _)
  split
  · trivial
  · refine Before.bind (Φ := fun _ _ => True) ?_ (ends_of_forall fun _ _ => trivial)
      fun _ _ _ => trivial
    refine before_perform_bind.mpr ⟨Quota.countedFirst_of_none rfl, fun random => ?_⟩
    refine before_perform_bind.mpr ⟨?_, fun row => ?_⟩
    · exact apiKeyQuota_counted (n := activeCount) (List.mem_cons_self) rfl
    · exact before_perform_bind.mpr ⟨Quota.countedFirst_of_none rfl, fun _ => trivial⟩

theorem only_createKeyRoute (req : KeyRequest) :
    Only (fun o => webhookQuota.inserts o = none) (createKeyRoute req) := by
  refine Only.tryCatch (Only.bind (only_perform rfl) fun (activeCount : ℕ) => ?_) fun _ => trivial
  show Only _ (if activeCount ≥ MAX_ACTIVE_KEYS then _ else _)
  split
  · trivial
  · exact Only.bind (Only.bind (only_perform rfl) fun _ => Only.bind (only_perform rfl) fun _ =>
      Only.bind (only_perform rfl) fun _ => trivial) fun _ => trivial

/-- A revocation inserts nothing. -/
theorem only_revokeKeyRoute {P : Op → Prop} {tenantId keyId : JsString}
    (hrevoke : P (.revokeApiKey tenantId keyId)) (hrecord : ∀ t input, P (.record t input)) :
    Only P (revokeKeyRoute tenantId keyId) := by
  refine Only.tryCatch (Only.bind (Only.bind (only_perform hrevoke) fun (revoked : Bool) => ?_)
    fun (revoked : Bool) => ?_) fun _ => trivial
  · cases revoked with
    | true => exact Only.bind (only_perform (hrecord _ _)) fun _ => trivial
    | false => trivial
  · cases revoked <;> trivial

variable {cm : CaseMapping} {parse : JsString → Option Url}

theorem before_createWebhookRoute (email : JsString) (req : WebhookRequest) :
    Before webhookQuota.CountedFirst (createWebhookRoute cm parse email req) := by
  unfold createWebhookRoute
  split
  · trivial
  next webhook hread =>
    refine Before.tryCatch (Φ := fun _ _ => True) ?_ (ends_of_forall fun _ _ => trivial)
      fun _ _ _ => trivial
    refine before_perform_bind.mpr ⟨Quota.countedFirst_of_none rfl, fun (current : ℕ) => ?_⟩
    show Before _ (if current ≥ MAX_WEBHOOKS_PER_ENV then _ else _)
    split
    · trivial
    · refine before_perform_bind.mpr ⟨Quota.countedFirst_of_none rfl, fun random => ?_⟩
      obtain ⟨htenant, henvironment, -⟩ := readWebhook_ok hread (generateWebhookSecret random)
      refine before_perform_bind.mpr ⟨?_, fun row => ?_⟩
      · exact webhookQuota_counted (n := current) (List.mem_cons_self) htenant henvironment
      · exact before_perform_bind.mpr ⟨Quota.countedFirst_of_none rfl, fun _ => trivial⟩

theorem only_createWebhookRoute (email : JsString) (req : WebhookRequest) :
    Only (fun o => apiKeyQuota.inserts o = none) (createWebhookRoute cm parse email req) := by
  unfold createWebhookRoute
  split
  · trivial
  · refine Only.tryCatch (Only.bind (only_perform rfl) fun (current : ℕ) => ?_) fun _ => trivial
    show Only _ (if current ≥ MAX_WEBHOOKS_PER_ENV then _ else _)
    split
    · trivial
    · exact Only.bind (only_perform rfl) fun _ => Only.bind (only_perform rfl) fun _ =>
        Only.bind (only_perform rfl) fun _ => trivial

/-- A deletion inserts nothing. -/
theorem only_deleteWebhookRoute {P : Op → Prop} {email : JsString} {req : DeleteRequest}
    (hdelete : P (.deleteWebhook req.id req.tenantId (parseEnv req.requested)))
    (hrecord : ∀ t input, P (.record t input)) : Only P (deleteWebhookRoute email req) := by
  unfold deleteWebhookRoute
  split
  · refine Only.tryCatch (Only.bind (only_perform hdelete) fun row => ?_) fun _ => trivial
    cases row with
    | some row => exact Only.bind (only_perform (hrecord _ _)) fun _ => trivial
    | none => exact Only.bind (only_perform (hrecord _ _)) fun _ => trivial
  · trivial

theorem before_code_keys (a : Call) : Before apiKeyQuota.CountedFirst (code cm parse a) := by
  cases a with
  | createKey req => exact before_createKeyRoute req
  | revokeKey tenantId keyId =>
      exact Quota.before_of_only (only_revokeKeyRoute rfl fun _ _ => rfl)
  | createWebhook email req => exact Quota.before_of_only (only_createWebhookRoute email req)
  | deleteWebhook email req =>
      exact Quota.before_of_only (only_deleteWebhookRoute rfl fun _ _ => rfl)

theorem before_code_webhooks (a : Call) : Before webhookQuota.CountedFirst (code cm parse a) := by
  cases a with
  | createKey req => exact Quota.before_of_only (only_createKeyRoute req)
  | revokeKey tenantId keyId =>
      exact Quota.before_of_only (only_revokeKeyRoute rfl fun _ _ => rfl)
  | createWebhook email req => exact before_createWebhookRoute email req
  | deleteWebhook email req =>
      exact Quota.before_of_only (only_deleteWebhookRoute rfl fun _ _ => rfl)

end Routes

/-! ## The caps -/

section Caps

variable {columns : Columns} {cm : CaseMapping} {parse : JsString → Option Url}
  {cfg : Pairing.Settings} {pg : Jsonb}

/-- No tenant has more active keys than allowed, and none more webhooks in an environment. -/
structure WithinCaps (w : World) : Prop where
  keys : ∀ u, w.activeKeys u ≤ MAX_ACTIVE_KEYS
  webhooks : ∀ k, w.webhookCount k ≤ MAX_WEBHOOKS_PER_ENV

def roomTest (c : State) (l : Label Call Oracle Env) : Bool :=
  apiKeyQuota.room MAX_ACTIVE_KEYS c l && webhookQuota.room MAX_WEBHOOKS_PER_ENV c l

/-- Nothing is inserted by a request whose count, with the rows inserted since, has reached the
    cap. -/
def Room (c : State) (l : Label Call Oracle Env) : Prop := roomTest c l = true

/-- The caps on open pairing sessions, active keys and webhooks. -/
theorem caps_hold {p : Pairing.State} {c : State}
    (hp : (Pairing.system cfg pg).Reach Pairing.WithinCap Pairing.SessionRoom p)
    (hc : (system columns cm parse).Reach WithinCaps Room c) :
    Pairing.WithinCap p.world ∧ WithinCaps c.world := by
  refine ⟨Pairing.open_le_cap hp, fun u => ?_, fun k => ?_⟩
  · have hkeys := hc.mono fun c l (h : Room c l) => ((Bool.and_eq_true _ _).mp h).1
    exact Quota.load_le_cap sound_apiKeyQuota before_code_keys (fun w hw => hw.keys) hkeys u
  · have hwebhooks := hc.mono fun c l (h : Room c l) => ((Bool.and_eq_true _ _).mp h).2
    exact Quota.load_le_cap sound_webhookQuota before_code_webhooks (fun w hw => hw.webhooks)
      hwebhooks k

end Caps

/-! ## Requests that overlap -/

/-- What the database makes of texts, and of arrays of texts. -/
def textColumns : Columns where
  varchar
    | .str s => if s.length ≤ 255 then some s else none
    | _ => none
  textArray
    | .arr items => items.mapM fun
        | .str s => some (some s)
        | _ => none
    | _ => none

def exampleDomain : DomainName where
  text := js "example.org"
  nonempty := by decide
  units := List.all_eq_true.mp (by decide)
  notNumber := by decide

/-- `new URL` on one text. -/
def parseHook (s : JsString) : Option Url :=
  if s = js "https://example.org/hook" then some ⟨js "https", .domain exampleDomain, nofun⟩ else none

def consoleTenant : Uuid := .ofNat 0x6ba7b8109dad11d180b400c04fd430c8

def newAccount : World := ⟨[consoleTenant], [], [], [], 0⟩

theorem withinCaps_newAccount : WithinCaps newAccount := ⟨fun _ => Nat.zero_le _, fun _ => Nat.zero_le _⟩

def keyRequest : Call := .createKey ⟨Pairing.tenantText, some (.str (js "Door")), none, none⟩

def hookRequest : Call :=
  .createWebhook (js "admin@example.org")
    { tenantId := Pairing.tenantText
      url := some (.str (js "https://example.org/hook"))
      eventFilter := some (.arr [.str (js "*")])
      enabled := none
      description := none
      environment := none
      queryEnvironment := none }

/-- Two requests for the same, in threads `t` and `t + 1`, that take turns. -/
def inTurns (request : Call) (t : ℕ) (answers : List (Oracle × Oracle)) :
    List (Label Call Oracle Env) :=
  .start request :: .start request :: answers.flatMap fun ω => [.resume t ω.1, .resume (t + 1) ω.2]

/-- Two keys and two webhooks. -/
def twoOfEach : List (Label Call Oracle Env) :=
  inTurns keyRequest 0 [({}, {}),
    ({ bytes := List.replicate 24 0 }, { bytes := List.replicate 24 1 }),
    ({}, { uuid := .ofNat 1 }), ({}, {})] ++
  inTurns hookRequest 2 [({}, {}),
    ({ bytes := List.replicate 32 0 }, { bytes := List.replicate 32 1 }),
    ({}, { uuid := .ofNat 1 }), ({}, {})]

def openCall : Pairing.Call := .create ⟨Pairing.tenantText, js "live", none, none, none⟩

/-- The draws of `createSession`; all their bytes are `b`. -/
def openAnswers (id : Uuid) (b : UInt8) : List Pairing.Oracle :=
  [{}, { uuid := id }, { bytes := List.replicate 31 b }, { bytes := List.replicate 32 b },
    {}, {}, {}]

/-- Two pairing sessions, opened in turns. -/
def twoOpenings : List (Label Pairing.Call Pairing.Oracle Pairing.Env) :=
  .start openCall :: .start openCall ::
    ((openAnswers (.ofNat 1) 2).zip (openAnswers (.ofNat 2) 3)).flatMap fun ω =>
      [.resume 0 ω.1, .resume 1 ω.2]

abbrev sampleSystem : System sig JsString Reply Call World Oracle Env :=
  system textColumns .ascii parseHook

theorem caps_hold_of_six : ∃ p c,
    (Pairing.system Pairing.settings Pairing.jsonb).runChecked
      (Pairing.openSessions.room Pairing.maxPendingSessionsPerTenant) (.init Pairing.initial)
      twoOpenings = some p ∧ p.world.sessions.length = 2 ∧
    sampleSystem.runChecked roomTest (.init newAccount) twoOfEach = some c ∧
    c.world.activeKeys consoleTenant = 2 ∧ c.world.webhookCount (consoleTenant, .live) = 2 ∧
    Pairing.WithinCap p.world ∧ WithinCaps c.world := by
  have hsession : ((Pairing.system Pairing.settings Pairing.jsonb).runChecked
      (Pairing.openSessions.room Pairing.maxPendingSessionsPerTenant) (.init Pairing.initial)
      twoOpenings).map (fun p => p.world.sessions.length) = some 2 := by
    decide +kernel
  have hconsole : (sampleSystem.runChecked roomTest (.init newAccount) twoOfEach).map
      (fun c => (c.world.activeKeys consoleTenant, c.world.webhookCount (consoleTenant, .live))) =
        some (2, 2) := by
    decide +kernel
  obtain ⟨p, hp, hlength⟩ := Option.map_eq_some_iff.mp hsession
  obtain ⟨c, hc, hcounts⟩ := Option.map_eq_some_iff.mp hconsole
  have hwithin : Pairing.WithinCap Pairing.initial := fun _ => Nat.zero_le _
  have hcaps := caps_hold (.runChecked (.init hwithin) (fun _ _ h => h) hp)
    (.runChecked (.init withinCaps_newAccount) (fun _ _ h => h) hc)
  exact ⟨p, c, hp, hlength, hc, congrArg Prod.fst hcounts, congrArg Prod.snd hcounts, hcaps⟩

/-- Eleven requests that all count before any of them inserts. -/
def overlapping : List (Label Call Oracle Env) :=
  List.replicate 11 (.start hookRequest) ++
    (List.range 11).map (.resume · {}) ++
    (List.range 11).map (.resume · { bytes := List.replicate 32 0 }) ++
    (List.finRange 11).map fun t => .resume t { uuid := ⟨t, by omega⟩ }

/-- All of them are answered by a row. -/
theorem eleven_webhooks : ¬ ∀ (columns : Columns) (cm : CaseMapping)
    (parse : JsString → Option Url) (c : State),
    (system columns cm parse).Reach WithinCaps (fun _ _ => True) c → WithinCaps c.world := by
  intro h
  have hrun : (sampleSystem.run (.init newAccount) overlapping).map
      (fun c => c.world.webhookCount (consoleTenant, .live)) = some 11 := by
    decide +kernel
  obtain ⟨c, hc, hcount⟩ := Option.map_eq_some_iff.mp hrun
  have hreach : sampleSystem.Reach WithinCaps (fun _ _ => True) c :=
    System.Reach.run (.init withinCaps_newAccount)
      (System.keeps_of_forall fun _ _ _ => trivial) hc
  have hle := (h _ _ _ c hreach).webhooks (consoleTenant, .live)
  rw [hcount] at hle
  exact absurd hle (by decide)

end ZeroAuth.Console
