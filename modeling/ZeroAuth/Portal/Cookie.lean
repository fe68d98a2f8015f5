/-
  ZeroAuth.Portal.Cookie

  Requests and cookies of src/routes/demo-portal.ts: how a cookie is read from a
  request, and the signed payload of the session cookie.
-/

import ZeroAuth.Js.JsonParse
import ZeroAuth.Pairing.Program
import ZeroAuth.Portal.RoundTrip

namespace ZeroAuth.Portal

open ZeroAuth.Lib ZeroAuth.Lib.Sha256 ZeroAuth.Js ZeroAuth.Pairing ZeroAuth.Android

/-- The deployment.  `literal` is the value that `JSON.parse` gives to a number literal,
    which it rounds to a double, and `isoDate` is `new Date(ms).toISOString()`; `none`
    is an exception. -/
structure PortalSettings where
  pairing : Settings
  gzip : Gzip
  jwtSecret : JsString
  literal : JsString → Json
  isoDate : JsNumber → Option JsString

/-! ## Requests -/

/-- What the routes read of a request: the string values of `req.cookies`, the
    raw `Cookie` header, `req.ip` and the `User-Agent` header. -/
structure Request where
  cookies : JsString → Option JsString
  cookieHeader : Option JsString
  ip : Option JsString
  userAgent : Option JsString

def demoCookieName : JsString := js "demo_portal_session"

def demoClaimCookieName : JsString := js "demo_portal_claim"

/-- `part.trim().split('=')`: the name, and the rest joined again. -/
def cookiePart (part : JsString) : JsString × JsString :=
  ((trim part).takeWhile (· ≠ 61), ((trim part).dropWhile (· ≠ 61)).tail)

def readNamedCookie (req : Request) (name : JsString) : Option JsString :=
  match req.cookies name, req.cookieHeader with
  | some value, _ => some value
  | none, none | none, some [] => none
  | none, some raw => ((raw.splitOn 59).map cookiePart).lookup name

/-! ## The session cookie -/

structure DemoCookiePayload where
  userId : JsString
  pairingSessionId : JsString
  startedAtMs : JsNumber

/-- `crypto.createHmac('sha256', key)`, for keys of at most one block. -/
def hmacSha256 (key message : List UInt8) : List UInt8 :=
  let block := key ++ List.replicate (64 - key.length) 0
  sha256 (block.map (· ^^^ 0x5c) ++ sha256 (block.map (· ^^^ 0x36) ++ message))

def DemoCookiePayload.json (payload : DemoCookiePayload) : Json :=
  .obj [(js "userId", .str payload.userId), (js "pairingSessionId", .str payload.pairingSessionId),
    (js "startedAtMs", .num payload.startedAtMs)]

namespace PortalSettings

variable (cfg : PortalSettings)

def getCookieHmacKey : List UInt8 :=
  sha256 (utf8 (js "demo-portal::" ++
    if cfg.jwtSecret = [] then js "dev-secret-change-me" else cfg.jwtSecret))

/-- The signature of a cookie's body. -/
def cookieMac (body : JsString) : JsString :=
  base64url (hmacSha256 cfg.getCookieHmacKey (utf8 body))

def encodeCookie (payload : DemoCookiePayload) : JsString :=
  let body := base64url (utf8 payload.json.print)
  body ++ js "." ++ cfg.cookieMac body

/-- The type checks on the parsed payload. -/
def payloadOf (parsed : Json) : Option DemoCookiePayload :=
  match parsed.get? (js "userId"), parsed.get? (js "pairingSessionId"),
    parsed.get? (js "startedAtMs") with
  | some (.str userId), some (.str sessionId), some (.num ms) => some ⟨userId, sessionId, ms⟩
  | _, _, _ => none

/-- A cookie is a body and its signature, with a dot between them. -/
def decodeCookie (raw : Option JsString) : Option DemoCookiePayload := do
  let raw ← raw
  let body := raw.takeWhile (· ≠ 46)
  let presentedMac := (raw.dropWhile (· ≠ 46)).tail
  if body = [] ∨ presentedMac = [] then none
  else if utf8 presentedMac ≠ utf8 (cfg.cookieMac body) then none
  else do
    let parsed ← Json.parse cfg.literal (decodeUtf8 (bufferFromBase64url body))
    payloadOf parsed

/-- base64url has no dot. -/
theorem dot_notMem_base64url (bs : List UInt8) : ∀ u ∈ base64url bs, u ≠ 46 := by
  have hall : ∀ n < 64, base64Unit n ≠ 46 := by decide
  intro u hu
  obtain ⟨n, hn, rfl⟩ := exists_base64Unit hu
  exact hall n hn

theorem base64url_ne_nil {bs : List UInt8} (h : bs ≠ []) : base64url bs ≠ [] := by
  intro hnil
  have hback := bufferFromBase64url_base64url bs
  rw [hnil] at hback
  exact h hback.symm

/-- The time of a payload is printed as a number literal, and the literal is read as that
    number.  So it is for every text that `Number::toString` gives to a finite number. -/
def ReadsTime (payload : DemoCookiePayload) : Prop :=
  isNumberLiteral payload.startedAtMs.text = true ∧
    cfg.literal payload.startedAtMs.text = .num payload.startedAtMs

/-- `JSON.parse` reads a payload back: its keys differ and none is an array index. -/
theorem parse_print_json {payload : DemoCookiePayload} (htime : cfg.ReadsTime payload) :
    Json.parse cfg.literal payload.json.print = some payload.json := by
  have hkeys : [js "userId", js "pairingSessionId", js "startedAtMs"].Nodup ∧
      ∀ key ∈ [js "userId", js "pairingSessionId", js "startedAtMs"],
        isArrayIndex key = false := by
    decide
  obtain ⟨hnodup, hindex⟩ := hkeys
  refine Json.parse_print ⟨hnodup, ?_, trivial, trivial, htime, trivial⟩
  rintro ⟨key, value⟩ hp
  exact hindex key (List.mem_map_of_mem (f := Prod.fst) hp)

/-- The server reads its own cookies. -/
theorem decodeCookie_encodeCookie {payload : DemoCookiePayload} (htime : cfg.ReadsTime payload) :
    cfg.decodeCookie (some (cfg.encodeCookie payload)) = some payload := by
  have hdot : js "." = [46] := by decide
  have hne : ∀ (bs : List UInt8), ∀ u ∈ base64url bs, decide (u ≠ 46) = true :=
    fun bs u hu => decide_eq_true (dot_notMem_base64url bs u hu)
  have hbody : base64url (utf8 payload.json.print) ≠ [] := by
    refine base64url_ne_nil fun hnil => ?_
    have hback := decodeUtf8_utf8 (Json.wellFormed_print payload.json)
    rw [hnil] at hback
    cases hback
  have hmac : cfg.cookieMac (base64url (utf8 payload.json.print)) ≠ [] := by
    refine base64url_ne_nil fun hnil => ?_
    have hlen := congrArg List.length hnil
    rw [hmacSha256, length_sha256] at hlen
    cases hlen
  have hpayload : payloadOf payload.json = some payload := rfl
  simp only [decodeCookie, encodeCookie, hdot, List.append_assoc, List.singleton_append,
    Option.bind_eq_bind, Option.bind_some]
  rw [List.takeWhile_append_of_pos (hne _), List.dropWhile_append_of_pos (hne _)]
  simp only [ne_eq, not_true_eq_false, decide_false, Bool.false_eq_true, not_false_eq_true,
    List.takeWhile_cons_of_neg, List.dropWhile_cons_of_neg, List.append_nil, List.tail_cons, hbody,
    hmac, or_self, if_false, bufferFromBase64url_base64url,
    decodeUtf8_utf8 (Json.wellFormed_print payload.json), cfg.parse_print_json htime,
    Option.bind_some, hpayload]

end PortalSettings

/-! ## Cookies of a response -/

/-- The `Set-Cookie` header of a response: `buildSetCookieHeader`, whose value is
    `encodeCookie`, `buildClearCookieHeader` or `buildClaimCookieHeader`. -/
inductive SetCookie
  | session (payload : DemoCookiePayload)
  | clear
  | claim (token : JsString)

end ZeroAuth.Portal
