/-
  ZeroAuth.Console.Requests

  `POST /keys` and `DELETE /keys/:keyId` of src/routes/console.ts, `POST /webhooks` and
  `DELETE /webhooks/:id` of src/routes/console-webhooks.ts, and what they call in
  src/services/api-keys.ts, as programs over what they await.

  Drawing random bytes is an operation too.  `void recordAuditEvent(…)` is started and not
  awaited (`Op.record`).

  `POST /webhooks` is also the function `postWebhook` on a table; the program, run on that
  table by itself, leaves the same rows and gives the same reply (`createWebhookRoute_solo`).
-/

import ZeroAuth.Lib.Solo
import ZeroAuth.Audit.Event
import ZeroAuth.Console.Webhooks
import ZeroAuth.Pairing.Session

namespace ZeroAuth.Console

open ZeroAuth.Lib ZeroAuth.Js ZeroAuth.Pg
open ZeroAuth.Audit (AuditInput)
open ZeroAuth.Pairing (sha256Hex truthy)

/-! ## Rows -/

inductive ApiKeyStatus
  | active
  | revoked
  deriving DecidableEq

/-- A row of `api_keys`; a scope may be NULL. -/
structure ApiKey where
  id : Uuid
  tenantId : Uuid
  name : JsString
  keyPrefix : JsString
  keyHash : JsString
  scopes : List (Option JsString)
  environment : ApiKeyEnvironment
  status : ApiKeyStatus
  createdAt : ℕ
  revokedAt : Option ℕ

/-- The values of the INSERT in `createApiKey`. -/
structure NewApiKey where
  tenantId : JsString
  name : Json
  keyPrefix : JsString
  keyHash : JsString
  scopes : Json
  environment : Json

/-- A row of `tenant_webhooks`. -/
structure WebhookRow where
  id : Uuid
  tenantId : Uuid
  environment : ApiKeyEnvironment
  url : JsString
  secret : JsString
  eventFilter : Json
  enabled : Bool
  description : Option JsString
  createdAt : ℕ

def ApiKeyEnvironment.text : ApiKeyEnvironment → JsString
  | live => js "live"
  | test => js "test"

/-! ## Operations -/

/-- `countWebhooks` counts the rows of the tenant and environment, `revokeApiKey` answers
    whether a row matched, `deleteWebhook` the row that it removed. -/
inductive Op
  | randomBytes (n : ℕ)
  | countActiveKeys (tenantId : JsString)
  | insertApiKey (values : NewApiKey)
  | revokeApiKey (tenantId keyId : JsString)
  | countWebhooks (tenantId : JsString) (environment : ApiKeyEnvironment)
  | insertWebhook (values : Webhook)
  | deleteWebhook (id tenantId : JsString) (environment : ApiKeyEnvironment)
  | record (tenantId : JsString) (input : AuditInput)

def Op.Resp : Op → Type
  | randomBytes _ => List UInt8
  | countActiveKeys _ => ℕ
  | insertApiKey _ => ApiKey
  | revokeApiKey _ _ => Bool
  | countWebhooks _ _ => ℕ
  | insertWebhook _ => WebhookRow
  | deleteWebhook _ _ _ => Option WebhookRow
  | record _ _ => Unit

abbrev sig : Sig := ⟨Op, Op.Resp⟩

/-- What is thrown is the message of the database. -/
abbrev Program (α : Type) := Prog sig JsString α

abbrev await (o : Op) : Program o.Resp := Prog.perform (S := sig) o

/-! ## API keys -/

mutual

/-- `${value}`. -/
def templateText : Json → JsString
  | .null => js "null"
  | .bool b => if b then js "true" else js "false"
  | .num n => n.text
  | .str s => s
  | .arr items => joinComma (itemTexts items)
  | .obj _ => js "[object Object]"

/-- `join` writes nothing for `null`. -/
def itemTexts : List Json → List JsString
  | [] => []
  | .null :: items => [] :: itemTexts items
  | item :: items => templateText item :: itemTexts items

end

def generateRawKey (environment : Json) (bytes : List UInt8) : JsString :=
  js "za_" ++ templateText environment ++ js "_" ++ hexBytes bytes

def hashKey (rawKey : JsString) : JsString := sha256Hex rawKey

def extractPrefix (rawKey : JsString) : JsString := rawKey.take 14

def defaultScopes : Json :=
  .arr (List.map Json.str [js "zkp:verify", js "zkp:register", js "identity:read",
    js "nonce:create", js "devices:read", js "devices:write", js "users:read", js "users:write",
    js "verifications:read", js "verifications:write", js "attendance:read",
    js "attendance:write", js "audit:read", js "proof_pairing:create", js "proof_pairing:claim"])

structure ApiKeyCreateResult where
  key : JsString
  id : Uuid
  name : JsString
  keyPrefix : JsString
  scopes : List (Option JsString)
  environment : ApiKeyEnvironment
  createdAt : ℕ

def createApiKey (tenantId : JsString) (name environment : Json) (scopes : Option Json) :
    Program ApiKeyCreateResult := do
  let random : List UInt8 ← await (.randomBytes 24)
  let rawKey := generateRawKey environment random
  let keyHash := hashKey rawKey
  let keyPrefix := extractPrefix rawKey
  let scopes := scopes.getD defaultScopes
  let row : ApiKey ← await (.insertApiKey ⟨tenantId, name, keyPrefix, keyHash, scopes, environment⟩)
  await (.record tenantId
    { environment := some (templateText environment)
      actorType := js "console"
      action := js "api_key.created"
      entityType := js "api_key"
      entityId := some row.id.text
      status := js "success"
      summary := js "Created " ++ templateText environment ++ js " API key " ++ templateText name
      metadata := .obj [(js "keyPrefix", .str keyPrefix), (js "scopes", .ofJson scopes)] })
  return ⟨rawKey, row.id, row.name, row.keyPrefix, row.scopes, row.environment, row.createdAt⟩

def revokeApiKey (tenantId keyId : JsString) : Program Bool := do
  let revoked : Bool ← await (.revokeApiKey tenantId keyId)
  if revoked = true then
    await (.record tenantId
      { environment := none
        actorType := js "console"
        action := js "api_key.revoked"
        entityType := js "api_key"
        entityId := some keyId
        status := js "success"
        summary := js "Revoked API key " ++ keyId })
    return true
  else return false

def countActiveKeys (tenantId : JsString) : Program ℕ := await (.countActiveKeys tenantId)

/-! ## The requests -/

structure ErrorReply where
  status : ℕ
  error : JsString
  message : Option JsString := none

def Refusal.reply (r : Refusal) : ErrorReply := ⟨r.status, r.error, some r.message⟩

inductive Reply
  | keyCreated (key : ApiKeyCreateResult)
  | keyRevoked (keyId : JsString)
  | webhookCreated (row : WebhookRow) (secret : JsString)
  | webhookDeleted (row : WebhookRow)
  | error (e : ErrorReply)

/-- `value || fallback`. -/
def orElse (value : Option Json) (fallback : JsString) : Json :=
  if truthy value = true then value.getD .null else .str fallback

/-- The body of `POST /keys`; `none` is `undefined`. -/
structure KeyRequest where
  tenantId : JsString
  name : Option Json
  environment : Option Json
  scopes : Option Json

def MAX_ACTIVE_KEYS : ℕ := 10

def keyLimitReached : ErrorReply :=
  ⟨400, js "key_limit_reached",
    some (js "Maximum 10 active API keys per account. Revoke unused keys first.")⟩

def createKeyRoute (req : KeyRequest) : Program Reply :=
  Prog.tryCatch (do
    let activeCount ← countActiveKeys req.tenantId
    if activeCount ≥ MAX_ACTIVE_KEYS then return .error keyLimitReached
    else do
      let key ← createApiKey req.tenantId (orElse req.name (js "API Key"))
        (orElse req.environment (js "live")) req.scopes
      return .keyCreated key)
    fun _ => .ret (.error ⟨500, js "Failed to create key.", none⟩)

def revokeKeyRoute (tenantId keyId : JsString) : Program Reply :=
  Prog.tryCatch (do
    let revoked ← revokeApiKey tenantId keyId
    if revoked = true then return .keyRevoked keyId
    else return .error ⟨404, js "Key not found or already revoked.", none⟩)
    fun _ => .ret (.error ⟨500, js "Failed to revoke key.", none⟩)

/-- The row without id, when the body is acceptable. -/
def readWebhook (cm : CaseMapping) (parse : JsString → Option Url) (req : WebhookRequest) :
    Except Refusal (JsString → Webhook) := do
  let url ← checkUrl cm parse req.url
  let eventFilter ← checkEventFilter req.eventFilter
  let enabled ← checkEnabled req.enabled
  let description ← checkDescription req.description
  return fun secret => ⟨req.tenantId, parseEnv req.requested, url, secret, eventFilter, enabled, description⟩

def generateWebhookSecret (bytes : List UInt8) : JsString := js "whsec_" ++ base64url bytes

def insertNewWebhook (email : JsString) (webhook : JsString → Webhook) : Program Reply := do
  let random : List UInt8 ← await (.randomBytes 32)
  let secret := generateWebhookSecret random
  let row : WebhookRow ← await (.insertWebhook (webhook secret))
  await (.record (webhook secret).tenantId
    { environment := some (webhook secret).environment.text
      actorType := js "console"
      actorId := some (webhook secret).tenantId
      action := js "webhook.created"
      entityType := js "webhook"
      entityId := some row.id.text
      status := js "success"
      summary := (js "Registered webhook for " ++ row.url).take 255
      metadata := .obj [(js "actor_email", .str email), (js "url", .str row.url),
        (js "event_filter", .ofJson row.eventFilter), (js "enabled", .bool row.enabled)] })
  return .webhookCreated row secret

def createWebhookRoute (cm : CaseMapping) (parse : JsString → Option Url) (email : JsString)
    (req : WebhookRequest) : Program Reply :=
  match readWebhook cm parse req with
  | .error refusal => return .error refusal.reply
  | .ok webhook =>
      Prog.tryCatch (do
        let current : ℕ ← await (.countWebhooks req.tenantId (parseEnv req.requested))
        if current ≥ MAX_WEBHOOKS_PER_ENV then return .error limitReached.reply
        else insertNewWebhook email webhook)
        fun _ => .ret (.error createFailed.reply)

/-- `DELETE /webhooks/:id`: the id, and the environment of the body or the query. -/
structure DeleteRequest where
  tenantId : JsString
  id : JsString
  environment : Option Json
  queryEnvironment : Option Json

/-- `req.body?.environment ?? req.query.environment`. -/
def DeleteRequest.requested (req : DeleteRequest) : Option Json :=
  match req.environment with
  | none | some .null => req.queryEnvironment
  | some v => some v

def isHexUnit (u : CodeUnit) : Bool :=
  isDigit u || (97 ≤ u.val && u.val ≤ 102) || (65 ≤ u.val && u.val ≤ 70)

/-- `/^[0-9a-f]{8}-[0-9a-f]{4}-[0-9a-f]{4}-[0-9a-f]{4}-[0-9a-f]{12}$/i`. -/
def isUuidText (s : JsString) : Bool :=
  (s.splitOn 45).map List.length == [8, 4, 4, 4, 12] && (s.splitOn 45).all (·.all isHexUnit)

def deleteFound (email : JsString) (req : DeleteRequest) (row : WebhookRow) : Program Reply := do
  await (.record req.tenantId
    { environment := some (parseEnv req.requested).text
      actorType := js "console"
      actorId := some req.tenantId
      action := js "webhook.deleted"
      entityType := js "webhook"
      entityId := some row.id.text
      status := js "success"
      summary := (js "Deleted webhook for " ++ row.url).take 255
      metadata := .obj [(js "actor_email", .str email), (js "url", .str row.url),
        (js "event_filter", .ofJson row.eventFilter), (js "was_enabled", .bool row.enabled)] })
  return .webhookDeleted row

def deleteMissing (email : JsString) (req : DeleteRequest) : Program Reply := do
  await (.record req.tenantId
    { environment := some (parseEnv req.requested).text
      actorType := js "console"
      actorId := some req.tenantId
      action := js "webhook.deleted"
      entityType := js "webhook"
      entityId := some req.id
      status := js "failure"
      summary := (js "Webhook not found or wrong tenant: " ++ req.id).take 255
      metadata := .obj [(js "actor_email", .str email), (js "requested_id", .str req.id)] })
  return .error ⟨404, js "webhook_not_found", some (js "Webhook not found.")⟩

def deleteWebhookRoute (email : JsString) (req : DeleteRequest) : Program Reply :=
  if isUuidText req.id = true then
    Prog.tryCatch (do
      let row : Option WebhookRow ←
        await (.deleteWebhook req.id req.tenantId (parseEnv req.requested))
      match row with
      | some row => deleteFound email req row
      | none => deleteMissing email req)
      fun _ => .ret (.error
        ⟨500, js "webhook_delete_failed", some (js "Failed to delete webhook.")⟩)
  else return .error ⟨400, js "invalid_webhook_id", some (js "Webhook id is not a valid UUID.")⟩

/-! ## The route on the table of `postWebhook` -/

section Table

variable {cm : CaseMapping} {parse : JsString → Option Url} {email : JsString}
  {req : WebhookRequest} {db db' : WebhookDb}

/-- The row that comes back for the values of an INSERT. -/
structure WebhookRow.Shows (row : WebhookRow) (v : Webhook) : Prop where
  tenantId : Uuid.parse v.tenantId = some row.tenantId
  environment : row.environment = v.environment
  url : row.url = v.url
  secret : row.secret = v.secret
  eventFilter : row.eventFilter = v.eventFilter
  enabled : row.enabled = v.enabled
  description : row.description = v.description

def WebhookDb.count (db : WebhookDb) (tenantId : JsString) (environment : ApiKeyEnvironment) : ℕ :=
  db.rows.countP fun row => row.tenantId == tenantId && row.environment == environment

/-- What the route awaits, answered by the table. -/
def WebhookDb.Serves : (o : Op) → WebhookDb → Except JsString o.Resp → WebhookDb → Prop
  | .randomBytes _, db, r, db' =>
      db' = db ∧ ∃ bytes, r = .ok bytes ∧ generateWebhookSecret bytes = db.secret
  | .countWebhooks tenantId environment, db, r, db' =>
      db' = db ∧ if db.countFails = true then ∃ e, r = .error e
        else r = .ok (db.count tenantId environment)
  | .insertWebhook v, db, r, db' =>
      if db.insertFails = true then db' = db ∧ ∃ e, r = .error e
      else db' = { db with rows := db.rows ++ [v] } ∧ ∃ row, r = .ok row ∧ row.Shows v
  | .record _ _, db, r, db' => db' = db ∧ r = .ok ()
  | _, _, _, _ => False

theorem serves_insertWebhook {v : Webhook} {r : Except JsString WebhookRow} :
    WebhookDb.Serves (.insertWebhook v) db r db' ↔
      if db.insertFails = true then db' = db ∧ ∃ e, r = .error e
      else db' = { db with rows := db.rows ++ [v] } ∧ ∃ row, r = .ok row ∧ row.Shows v := Iff.rfl

/-- The reply to what `postWebhook` returns. -/
def Reply.Says : Reply → Except Refusal Webhook → Prop
  | .webhookCreated row secret, .ok v => row.Shows v ∧ secret = v.secret
  | .error e, .error refusal => e = refusal.reply
  | _, _ => False

/-- The row of an acceptable body is one of the tenant and the environment asked for, with the
    secret that is drawn. -/
theorem readWebhook_ok {webhook : JsString → Webhook}
    (h : readWebhook cm parse req = .ok webhook) (secret : JsString) :
    (webhook secret).tenantId = req.tenantId ∧
      (webhook secret).environment = parseEnv req.requested ∧ (webhook secret).secret = secret := by
  unfold readWebhook at h
  cases hurl : checkUrl cm parse req.url with
  | error e =>
      rw [hurl] at h
      cases h
  | ok url =>
  cases hfilter : checkEventFilter req.eventFilter with
  | error e =>
      rw [hurl, hfilter] at h
      cases h
  | ok eventFilter =>
  cases henabled : checkEnabled req.enabled with
  | error e =>
      rw [hurl, hfilter, henabled] at h
      cases h
  | ok enabled =>
  cases hdescription : checkDescription req.description with
  | error e =>
      rw [hurl, hfilter, henabled, hdescription] at h
      cases h
  | ok description =>
      rw [hurl, hfilter, henabled, hdescription] at h
      cases h
      exact ⟨rfl, rfl, rfl⟩

theorem newWebhook_eq (db : WebhookDb) (req : WebhookRequest) : newWebhook cm parse db req =
    (readWebhook cm parse req).bind fun webhook =>
      if db.countFails = true then .error createFailed
      else if MAX_WEBHOOKS_PER_ENV ≤ db.count req.tenantId (parseEnv req.requested) then
        .error limitReached
      else if db.insertFails = true then .error createFailed
      else .ok (webhook db.secret) := by
  unfold newWebhook readWebhook
  cases checkUrl cm parse req.url with
  | error e => rfl
  | ok url =>
  cases checkEventFilter req.eventFilter with
  | error e => rfl
  | ok eventFilter =>
  cases checkEnabled req.enabled with
  | error e => rfl
  | ok enabled =>
  cases checkDescription req.description with
  | error e => rfl
  | ok description => rfl

/-- The insertion, its audit event and the reply. -/
theorem insertNewWebhook_solo {webhook : JsString → Webhook} {out : Except JsString Reply}
    (hown : (webhook db.secret).secret = db.secret)
    (h : Prog.Solo WebhookDb.Serves (insertNewWebhook email webhook) db out db') :
    if db.insertFails = true then db' = db ∧ ∃ e, out = .error e
    else db' = { db with rows := db.rows ++ [webhook db.secret] } ∧
      ∃ reply, out = .ok reply ∧ reply.Says (.ok (webhook db.secret)) := by
  unfold insertNewWebhook at h
  rcases Prog.solo_perform_bind.mp h with ⟨bytes, db₁, ⟨hdb₁, _, heq, hsecret⟩, hrest⟩ |
    ⟨e, ⟨-, _, heq, -⟩, -⟩
  · cases heq
    dsimp only at hrest
    rw [hdb₁, hsecret] at hrest
    rcases Prog.solo_perform_bind.mp hrest with ⟨row, db₂, hinsert, hrecord⟩ | ⟨e, hinsert, hout⟩
    · replace hinsert := serves_insertWebhook.mp hinsert
      split at hinsert
      · obtain ⟨-, e, heq⟩ := hinsert
        cases heq
      · next hfails =>
          obtain ⟨hdb₂, _, heq, hshows⟩ := hinsert
          cases heq
          rw [if_neg hfails]
          -- the audit event is started and not awaited, so the reply follows in any case
          rcases Prog.solo_perform_bind.mp hrecord with ⟨_, db₃, ⟨hdb₃, -⟩, hret⟩ | ⟨e, ⟨-, heq⟩, -⟩
          · obtain ⟨rfl, hdb'⟩ := hret
            exact ⟨hdb'.trans (hdb₃.trans hdb₂), _, rfl, hshows, hown.symm⟩
          · cases heq
    · replace hinsert := serves_insertWebhook.mp hinsert
      split at hinsert
      · next hfails =>
          rw [if_pos hfails]
          exact ⟨hinsert.1, e, hout⟩
      · obtain ⟨-, _, heq, -⟩ := hinsert
        cases heq
  · cases heq

/-- Run on the table, the route leaves the rows that `postWebhook` leaves and gives its reply. -/
theorem createWebhookRoute_solo {out : Except JsString Reply}
    (h : Prog.Solo WebhookDb.Serves (createWebhookRoute cm parse email req) db out db') :
    db' = (postWebhook cm parse db req).1 ∧
      ∃ reply, out = .ok reply ∧ reply.Says (postWebhook cm parse db req).2 := by
  unfold createWebhookRoute at h
  unfold postWebhook
  rw [newWebhook_eq]
  cases hread : readWebhook cm parse req with
  | error refusal =>
      rw [hread] at h
      obtain ⟨rfl, rfl⟩ := h
      exact ⟨rfl, _, rfl, rfl⟩
  | ok webhook =>
      have hown := (readWebhook_ok hread db.secret).2.2
      rw [hread] at h
      dsimp only [Except.bind] at h ⊢
      -- the count, the insertion, and the handler around both
      rcases Prog.solo_tryCatch.mp h with ⟨reply, hreply, rfl⟩ | ⟨e, db₁, hfail, hout, hdb'⟩
      · rcases Prog.solo_perform_bind.mp hreply with ⟨current, db₂, ⟨hdb₂, hcount⟩, hrest⟩ |
          ⟨e, -, heq⟩
        · split at hcount
          · obtain ⟨e, heq⟩ := hcount
            cases heq
          · next hfails =>
              cases hcount
              rw [hdb₂] at hrest
              rw [if_neg hfails]
              split at hrest
              · next hfull =>
                  obtain ⟨heq, hdb'⟩ := hrest
                  cases heq
                  rw [if_pos hfull]
                  exact ⟨hdb', _, rfl, rfl⟩
              · next hroom =>
                  have hinsert := insertNewWebhook_solo hown hrest
                  rw [if_neg hroom]
                  split at hinsert
                  · obtain ⟨-, e, heq⟩ := hinsert
                    cases heq
                  · next hinserts =>
                      rw [if_neg hinserts]
                      exact hinsert
        · cases heq
      · rcases Prog.solo_perform_bind.mp hfail with ⟨current, db₂, ⟨hdb₂, hcount⟩, hrest⟩ |
          ⟨e', ⟨hdb₂, hcount⟩, -⟩
        · split at hcount
          · obtain ⟨e, heq⟩ := hcount
            cases heq
          · next hfails =>
              cases hcount
              rw [hdb₂] at hrest
              rw [if_neg hfails]
              split at hrest
              · cases hrest.1
              · next hroom =>
                  have hinsert := insertNewWebhook_solo hown hrest
                  rw [if_neg hroom]
                  split at hinsert
                  · next hinserts =>
                      rw [if_pos hinserts]
                      exact ⟨hdb'.trans hinsert.1, _, hout, rfl⟩
                  · obtain ⟨-, _, heq, -⟩ := hinsert
                    cases heq
        · split at hcount
          · next hfails =>
              rw [if_pos hfails]
              exact ⟨hdb'.trans hdb₂, _, hout, rfl⟩
          · cases hcount

end Table

end ZeroAuth.Console
