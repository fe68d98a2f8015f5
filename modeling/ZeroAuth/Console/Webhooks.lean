/-
  ZeroAuth.Console.Webhooks

  `POST /webhooks` (src/routes/console-webhooks.ts): the checks of the body, the gate for
  the URL, and the insert.

  `new URL` is the parameter `parse`; what it returns is a `Url`.
-/

import ZeroAuth.Js.Url

namespace ZeroAuth.Console

open ZeroAuth.Js

/-! ## The URL gate -/

def blockedExact : List JsString :=
  [js "localhost", js "0.0.0.0", js "127.0.0.1", js "169.254.169.254", js "::1",
    js "metadata.google.internal"]

/-- `1[6-9]|2[0-9]|3[0-1]`. -/
def isSecondOctet (a b : CodeUnit) : Bool :=
  (a == 49 && 54 ≤ b.val && b.val ≤ 57) || (a == 50 && isDigit b) ||
    (a == 51 && 48 ≤ b.val && b.val ≤ 49)

/-- `/^172\.(1[6-9]|2[0-9]|3[0-1])\./`. -/
def isPrivate172 : JsString → Bool
  | 49 :: 55 :: 50 :: 46 :: a :: b :: 46 :: _ => isSecondOctet a b
  | _ => false

/-- One of the three patterns. -/
def isPrivate (host : JsString) : Bool :=
  (js "10.").isPrefixOf host || (js "192.168.").isPrefixOf host || isPrivate172 host

def blockedReason : JsString := js "url host is not allowed (loopback/metadata)"

def privateReason : JsString := js "url host is RFC 1918 private space"

/-- The error is the reason. -/
def isAllowedWebhookUrl (cm : CaseMapping) (parse : JsString → Option Url) (rawUrl : JsString) :
    Except JsString Unit :=
  match parse rawUrl with
  | none => .error (js "url is not a valid absolute URL")
  | some parsed =>
      if parsed.protocol ≠ js "https:" ∧ parsed.protocol ≠ js "http:" then
        .error (js "url must use http or https scheme")
      else
        let host := cm.toLowerCase parsed.hostname
        if host ∈ blockedExact then .error blockedReason
        else if isPrivate host then .error privateReason
        else .ok ()

/-! ## The event filter -/

def isLabelUnit (u : CodeUnit) : Bool := (97 ≤ u.val && u.val ≤ 122) || isDigit u || u == 95

/-- `[a-z0-9_]+`. -/
def isLabel (s : JsString) : Bool := !s.isEmpty && s.all isLabelUnit

/-- `(\.[a-z0-9_]+)*(\.\*)?`, split at the dots. -/
def areLabels : List JsString → Bool
  | [] => true
  | [s] => isLabel s || s == js "*"
  | s :: rest => isLabel s && areLabels rest

/-- `EVENT_FILTER_PATTERN.test(s)`. -/
def isEventPattern (s : JsString) : Bool :=
  s == js "*" ||
    match s.splitOn 46 with
    | (u :: label) :: rest => (97 ≤ u.val && u.val ≤ 122) && label.all isLabelUnit && areLabels rest
    | _ => false

def entryError : Json → Option JsString
  | .str s =>
      if isEventPattern s then none
      else some (js "event_filter entry " ++ quote s ++ js " is not a valid pattern")
  | _ => some (js "event_filter entries must be strings")

/-- `none` is acceptable. -/
def validateEventFilter : Option Json → Option JsString
  | some (.arr items) =>
      if items = [] then
        some (js "event_filter must contain at least one pattern (use [\"*\"] for all)")
      else if 32 < items.length then some (js "event_filter may contain at most 32 patterns")
      else items.findSome? entryError
  | _ => some (js "event_filter must be an array of action patterns")

/-! ## The request -/

inductive ApiKeyEnvironment
  | live
  | test
  deriving DecidableEq

def parseEnv : Option Json → ApiKeyEnvironment
  | some (.str s) => if s = js "test" then .test else .live
  | _ => .live

/-- The fields that are read; `none` is `undefined`. -/
structure WebhookRequest where
  tenantId : JsString
  url : Option Json
  eventFilter : Option Json
  enabled : Option Json
  description : Option Json
  environment : Option Json
  queryEnvironment : Option Json

structure Webhook where
  tenantId : JsString
  environment : ApiKeyEnvironment
  url : JsString
  secret : JsString
  eventFilter : Json
  enabled : Bool
  description : Option JsString

structure Refusal where
  status : ℕ
  error : JsString
  message : JsString

def MAX_WEBHOOKS_PER_ENV : ℕ := 10

def MAX_URL_LENGTH : ℕ := 2048

/-- The URL as it is stored. -/
def checkUrl (cm : CaseMapping) (parse : JsString → Option Url) :
    Option Json → Except Refusal JsString
  | some (.str url) =>
      if trim url = [] then .error ⟨400, js "invalid_request", js "url is required"⟩
      else if MAX_URL_LENGTH < url.length then
        .error ⟨400, js "invalid_url",
          js "url must be " ++ numText 10 MAX_URL_LENGTH ++ js " chars or fewer"⟩
      else
        match isAllowedWebhookUrl cm parse (trim url) with
        | .error reason => .error ⟨400, js "invalid_url", reason⟩
        | .ok () => .ok (trim url)
  | _ => .error ⟨400, js "invalid_request", js "url is required"⟩

def checkEventFilter (eventFilter : Option Json) : Except Refusal Json :=
  match validateEventFilter eventFilter with
  | some message => .error ⟨400, js "invalid_event_filter", message⟩
  | none => .ok (eventFilter.getD .null)

def checkEnabled : Option Json → Except Refusal Bool
  | none => .ok true
  | some (.bool b) => .ok b
  | some _ => .error ⟨400, js "invalid_request", js "enabled must be a boolean"⟩

def checkDescription : Option Json → Except Refusal (Option JsString)
  | none => .ok none
  | some (.str s) =>
      if s.length ≤ 255 then .ok (some (trim s))
      else .error ⟨400, js "invalid_request", js "description must be a string up to 255 chars"⟩
  | some _ => .error ⟨400, js "invalid_request", js "description must be a string up to 255 chars"⟩

/-- `req.body?.environment ?? req.query.environment`. -/
def WebhookRequest.requested (req : WebhookRequest) : Option Json :=
  match req.environment with
  | none | some .null => req.queryEnvironment
  | some v => some v

/-- The table `tenant_webhooks`, the secret that is drawn, and whether the count and the
    insert fail. -/
structure WebhookDb where
  rows : List Webhook
  secret : JsString
  countFails : Bool
  insertFails : Bool

def createFailed : Refusal := ⟨500, js "webhook_create_failed", js "Failed to create webhook."⟩

def limitReached : Refusal :=
  ⟨400, js "webhook_limit_reached",
    js "Maximum " ++ numText 10 MAX_WEBHOOKS_PER_ENV ++
      js " webhooks per environment. Delete unused destinations first."⟩

/-- The row that is inserted. -/
def newWebhook (cm : CaseMapping) (parse : JsString → Option Url) (db : WebhookDb)
    (req : WebhookRequest) : Except Refusal Webhook := do
  let environment := parseEnv req.requested
  let url ← checkUrl cm parse req.url
  let eventFilter ← checkEventFilter req.eventFilter
  let enabled ← checkEnabled req.enabled
  let description ← checkDescription req.description
  if db.countFails then throw createFailed
  let current := db.rows.countP fun row =>
    row.tenantId == req.tenantId && row.environment == environment
  if MAX_WEBHOOKS_PER_ENV ≤ current then throw limitReached
  if db.insertFails then throw createFailed
  return ⟨req.tenantId, environment, url, db.secret, eventFilter, enabled, description⟩

/-- `POST /webhooks`: 201 with the row, or an error. -/
def postWebhook (cm : CaseMapping) (parse : JsString → Option Url) (db : WebhookDb)
    (req : WebhookRequest) : WebhookDb × Except Refusal Webhook :=
  match newWebhook cm parse db req with
  | .ok row => ({ db with rows := db.rows ++ [row] }, .ok row)
  | .error refusal => (db, .error refusal)

end ZeroAuth.Console
