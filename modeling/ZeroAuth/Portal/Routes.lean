/-
  ZeroAuth.Portal.Routes

  The sign-in routes of src/routes/demo-portal.ts as programs over what they
  await, next to the pairing service.

  Access to the variables and maps of the process is an operation too, and so is
  sending the head of a response and what follows it.  A route that polls gets
  the number of turns that its loops may make; a run that needs more stops.

  What a route sends is told by what it has awaited before (`before_getMe`,
  `before_postInitLogin`).
-/

import ZeroAuth.Js.Hex
import ZeroAuth.Lib.Extend
import ZeroAuth.Lib.Returns
import ZeroAuth.Portal.Cookie

namespace ZeroAuth.Portal

open ZeroAuth.Lib ZeroAuth.Js ZeroAuth.Pg ZeroAuth.Audit ZeroAuth.Pairing ZeroAuth.Android

/-! ## Operations -/

structure PairingRowSlim where
  id : Uuid
  state : SessionState
  consumedUserId : Option Uuid
  consumedAt : Option ℕ
  expiresAt : ℕ
  lastErrorCode : Option JsString
  tenantId : Uuid

structure DemoUserRow where
  id : Uuid
  externalId : JsString
  fullName : JsString
  did : Option JsString

/-- What is written after the head: a JSON body or one event of a stream. -/
inductive Chunk
  | json (body : Json)
  | event (name : JsString) (data : Json)

/-- `cachedTenantId` and `cacheTenantId` read and set the variable; the four
    operations on tokens are the functions of the source. -/
inductive PortalOp
  | cachedTenantId
  | cacheTenantId (id : Uuid)
  | tenantById (id : JsString)
  | tenantByEmail (email : JsString)
  | pairingRow (sessionId tenantId : JsString)
  | demoUser (userId tenantId : JsString)
  | rememberBindToken (sessionId : Uuid) (token : JsString)
  | consumeBindToken (sessionId : JsString)
  | mintClaimToken (sessionId : Uuid)
  | verifyAndConsumeClaimToken (sessionId : JsString) (presented : Option JsString)
  | isClosed
  | writeHead (status : ℕ) (setCookie : Option SetCookie)
  | write (chunk : Chunk)

def PortalOp.Resp : PortalOp → Type
  | cachedTenantId => Option Uuid
  | tenantById _ => Option Uuid
  | tenantByEmail _ => Option Uuid
  | pairingRow _ _ => Option PairingRowSlim
  | demoUser _ _ => Option DemoUserRow
  | consumeBindToken _ => Option JsString
  | mintClaimToken _ => JsString
  | verifyAndConsumeClaimToken _ _ => Bool
  | isClosed => Bool
  | _ => Unit

abbrev portalSig : Sig := Pairing.sig.sum ⟨PortalOp, PortalOp.Resp⟩

/-- Errors of the pairing service and of a query, and others by their message. -/
abbrev PortalError := Failure ⊕ JsString

abbrev PortalProgram (α : Type) := Prog portalSig PortalError α

/-- Await one operation of the router. -/
def portal (o : PortalOp) : PortalProgram o.Resp := Prog.perform (S := portalSig) (.inr o)

/-- `Date.now()`. -/
def dateNow : PortalProgram ℕ := (Pairing.await .now).lift

/-- `….catch(() => null)`. -/
def orNull {α : Type} (p : PortalProgram (Option α)) : PortalProgram (Option α) :=
  p.tryCatch fun _ => .ret none

/-- Send the whole response. -/
def respond (status : ℕ) (setCookie : Option SetCookie) (body : Json) : PortalProgram Unit := do
  portal (.writeHead status setCookie)
  portal (.write (.json body))

/-- `res.status(status).json({ error, message })`. -/
def refuse (status : ℕ) (error message : JsString) : PortalProgram Unit :=
  respond status none (.obj [(js "error", .str error), (js "message", .str message)])

/-! ## The tenant -/

def demoEnvironment : JsString := js "live"

/-- `DEMO_PORTAL_TENANT_ID`: a UUID made from a hash. -/
def deterministicTenantId : JsString :=
  let h := sha256Hex (js "zeroauth-demo-portal-tenant-v1")
  h.take 8 ++ js "-" ++ (h.drop 8).take 4 ++ js "-4" ++ (h.drop 13).take 3 ++ js "-8" ++
    (h.drop 17).take 3 ++ js "-" ++ (h.drop 20).take 12

example : deterministicTenantId = js "67ef58b3-683b-4033-83be-0b90d6dee38c" := by
  rw [deterministicTenantId, sha256Hex, sha256_eq_flat]
  rfl

/-- Both addresses are in lower case already, as `getTenantByEmail` wants them. -/
def resolveDemoPortalTenantId : PortalProgram (Option Uuid) := do
  let cached : Option Uuid ← portal .cachedTenantId
  match cached with
  | some id => return some id
  | none => do
      -- the id of the seed module
      let deterministic : Option Uuid ← orNull (portal (.tenantById deterministicTenantId))
      match deterministic with
      | some id => do
          portal (.cacheTenantId id)
          return some id
      | none => do
          -- a tenant provisioned by hand
          let byEmail : Option Uuid ← orNull (portal (.tenantByEmail (js "demo-portal@zeroauth.dev")))
          match byEmail with
          | some id => do
              portal (.cacheTenantId id)
              return some id
          | none => do
              -- the tenant of the other demo
              let fallback : Option Uuid ←
                orNull (portal (.tenantByEmail (js "anchor-bank-demo@zeroauth.dev")))
              match fallback with
              | some id => do
                  portal (.cacheTenantId id)
                  return some id
              | none => return none

def notProvisioned : PortalProgram Unit :=
  refuse 503 (js "demo_portal_not_provisioned")
    (js "The demo portal is not yet provisioned on this deployment.")

/-! ## POST /init-login -/

def buildDeeplink (qrPayload : JsString) : Option JsString :=
  (encodeURIComponent qrPayload).map (js "zeroauth://pair?p=" ++ ·)

def initLoginFailed : JsString × JsString :=
  (js "init_login_failed", js "Could not start a demo sign-in session.")

def postInitLogin (cfg : PortalSettings) (req : Request) : PortalProgram Unit :=
  Prog.tryCatch (do
    let tenantId ← resolveDemoPortalTenantId
    match tenantId with
    | none => notProvisioned
    | some tenantId => do
        let result ← (createSession cfg.pairing
          ⟨tenantId.text, demoEnvironment, none, req.ip, req.userAgent⟩).lift
        portal (.rememberBindToken result.id result.sessionBindToken)
        let claimToken : JsString ← portal (.mintClaimToken result.id)
        match buildDeeplink result.qrPayload with
        | none =>
            -- the `catch` answers with the header that is set already
            respond 500 (some (.claim claimToken)) (.obj [(js "error", .str initLoginFailed.1),
              (js "message", .str initLoginFailed.2)])
        | some deeplink =>
            respond 201 (some (.claim claimToken)) (.obj [
              (js "session_id", .str result.id.text), (js "sessionId", .str result.id.text),
              (js "deeplink", .str deeplink), (js "qr_payload", .str result.qrPayload),
              (js "qrPayload", .str result.qrPayload),
              (js "expires_at", .num (.ofInt result.expiresAt)),
              (js "expiresAt", .num (.ofInt result.expiresAt))])) fun
    | .inl (.pairing .tooManyPendingSessions _) =>
        refuse 429 (js "too_many_pending_sessions")
          (js "Too many open demo sign-in sessions. Try again in a minute.")
    | _ => refuse 500 initLoginFailed.1 initLoginFailed.2

/-! ## GET /me and POST /logout -/

def notAuthenticated (setCookie : Option SetCookie) : PortalProgram Unit :=
  respond 401 setCookie (.obj [(js "error", .str (js "not_authenticated")),
    (js "message", .str (js "No demo session."))])

def getMe (cfg : PortalSettings) (req : Request) : PortalProgram Unit :=
  Prog.tryCatch (do
    match cfg.decodeCookie (readNamedCookie req demoCookieName) with
    | none => notAuthenticated none
    | some payload => do
        let tenantId ← resolveDemoPortalTenantId
        match tenantId with
        | none => notAuthenticated none
        | some tenantId => do
            let user : Option DemoUserRow ← portal (.demoUser payload.userId tenantId.text)
            match user with
            -- a cookie whose user is gone is cleared
            | none => notAuthenticated (some .clear)
            | some user =>
                let displayName :=
                  if trim user.fullName ≠ [] ∧ user.fullName ≠ js "face-first" then user.fullName
                  else js "demo user"
                -- `toISOString` throws outside the range of dates
                match cfg.isoDate payload.startedAtMs with
                | none => .raise (.inr (js "Invalid time value"))
                | some startedAtIso =>
                    respond 200 none (.obj [
                      (js "user_id", .str user.id.text), (js "userId", .str user.id.text),
                      (js "did", .str (user.did.getD [])), (js "name", .str displayName),
                      (js "session_started_at", .str startedAtIso),
                      (js "sessionStartedAt", .str startedAtIso),
                      (js "sessionsLast24h", .num (.ofInt 3)),
                      (js "user", .obj [(js "id", .str user.id.text),
                        (js "displayName", .str displayName),
                        (js "email", .str (js "demo@anchor-bank.example")),
                        (js "createdAt", .str startedAtIso)])])) fun
    | _ => notAuthenticated none

def postLogout : PortalProgram Unit :=
  respond 200 (some .clear) (.obj [(js "ok", .bool true)])

/-! ## What the routes send -/

section Sent

variable {cfg : PortalSettings} {req : Request}

theorem before_respond {Ψ : List (Act portalSig PortalError) → portalSig.Op → Prop} {status : ℕ}
    {setCookie : Option SetCookie} {body : Json} (hhead : Ψ [] (.inr (.writeHead status setCookie)))
    (hbody : ∀ es, Ψ es (.inr (.write (.json body)))) :
    Prog.Before Ψ (respond status setCookie body) :=
  Prog.before_perform_bind.mpr ⟨hhead, fun _ => Prog.before_perform.mpr (hbody _)⟩

/-- The operations of `resolveDemoPortalTenantId`. -/
def Resolves : portalSig.Op → Prop
  | .inr .cachedTenantId | .inr (.cacheTenantId _) | .inr (.tenantById _)
  | .inr (.tenantByEmail _) => True
  | _ => False

theorem only_resolveDemoPortalTenantId : Prog.Only Resolves resolveDemoPortalTenantId := by
  have hcache (id : Uuid) : Prog.Only Resolves
      (do portal (.cacheTenantId id); return some id : PortalProgram (Option Uuid)) :=
    Prog.Only.bind (Prog.only_perform trivial) fun _ => trivial
  refine Prog.Only.bind (Prog.only_perform trivial) fun cached => ?_
  cases cached with
  | some id => trivial
  | none =>
      refine Prog.Only.bind (Prog.Only.tryCatch (Prog.only_perform trivial) fun _ => trivial)
        fun deterministic => ?_
      cases deterministic with
      | some id => exact hcache id
      | none =>
          refine Prog.Only.bind (Prog.Only.tryCatch (Prog.only_perform trivial) fun _ => trivial)
            fun byEmail => ?_
          cases byEmail with
          | some id => exact hcache id
          | none =>
              refine Prog.Only.bind (Prog.Only.tryCatch (Prog.only_perform trivial)
                fun _ => trivial) fun fallback => ?_
              cases fallback with
              | some id => exact hcache id
              | none => trivial

/-- Behind the lookup of a user stands a cookie of that user, and behind a page a user who was
    found so. -/
def PageOf (cfg : PortalSettings) (req : Request) (es : List (Act portalSig PortalError)) :
    portalSig.Op → Prop
  | .inr (.demoUser userId _) => ∃ payload,
      cfg.decodeCookie (readNamedCookie req demoCookieName) = some payload ∧ payload.userId = userId
  | .inr (.writeHead status _) => status = 200 → ∃ payload tenantId user,
      cfg.decodeCookie (readNamedCookie req demoCookieName) = some payload ∧
        ⟨.inr (.demoUser payload.userId tenantId), .ok (some user : Option DemoUserRow)⟩ ∈ es
  | _ => True

theorem pageOf_of_resolves {es : List (Act portalSig PortalError)} {o : portalSig.Op}
    (h : Resolves o) : PageOf cfg req es o := by
  rcases o with o | o
  · cases h
  · cases o <;> trivial

theorem pageOf_notAuthenticated {es : List (Act portalSig PortalError)}
    (setCookie : Option SetCookie) :
    Prog.Before (fun es' => PageOf cfg req (es ++ es')) (notAuthenticated setCookie) :=
  before_respond (fun h => by cases h) fun _ => trivial

/-- GET /me shows nobody but the user of the cookie. -/
theorem before_getMe : Prog.Before (PageOf cfg req) (getMe cfg req) := by
  refine Prog.Before.tryCatch (Φ := fun _ _ => True) ?_ (Prog.ends_of_forall fun _ _ => trivial)
    fun es e _ => pageOf_notAuthenticated none
  split
  · exact before_respond (fun h => by cases h) fun _ => trivial
  · next payload hpayload =>
      refine Prog.Before.bind (Φ := fun _ _ => True)
        (only_resolveDemoPortalTenantId.before fun _ _ ho => pageOf_of_resolves ho)
        (Prog.ends_of_forall fun _ _ => trivial) fun es tenantId _ => ?_
      cases tenantId with
      | none => exact pageOf_notAuthenticated none
      | some tenantId =>
          refine Prog.before_perform_bind.mpr ⟨⟨payload, hpayload, rfl⟩, fun user => ?_⟩
          cases user with
          | none => exact before_respond (fun h => by cases h) fun _ => trivial
          | some user =>
              dsimp only
              split
              · trivial
              · refine before_respond (fun _ => ?_) fun _ => trivial
                exact ⟨payload, tenantId.text, user, hpayload, by simp⟩

/-- The server's own cookie leads to the page of its user. -/
theorem before_getMe_encoded {payload : DemoCookiePayload} (htime : cfg.ReadsTime payload)
    (hcookie : readNamedCookie req demoCookieName = some (cfg.encodeCookie payload)) :
    Prog.Before (fun es (o : portalSig.Op) => ∀ setCookie, o = .inr (.writeHead 200 setCookie) →
      ∃ tenantId user, (⟨.inr (.demoUser payload.userId tenantId),
        .ok (some user : Option DemoUserRow)⟩ : Act portalSig PortalError) ∈ es)
      (getMe cfg req) := by
  refine before_getMe.mono fun es o h setCookie ho => ?_
  subst ho
  obtain ⟨payload', tenantId, user, hpayload, hfound⟩ := h rfl
  rw [hcookie, cfg.decodeCookie_encodeCookie htime] at hpayload
  obtain rfl := Option.some.inj hpayload
  exact ⟨tenantId, user, hfound⟩

/-- What the service returns, it has returned by itself. -/
theorem returns_lift {α : Type} {Q : List (Act Pairing.sig Failure) → α → Prop}
    {p : Prog Pairing.sig Failure α} (h : Prog.Returns Q p) :
    Prog.Returns (fun es a => ∃ es₀, es = es₀.map Act.inl ∧ Q es₀ a)
      (p.lift : PortalProgram α) := by
  refine (Prog.Ends.lift h).mono fun es out hout a ha => ?_
  subst ha
  rcases hout with ⟨es₀, out₀, hes, hout, hQ⟩ | ⟨o, e, -, hout⟩
  · cases out₀ with
    | error e => cases hout
    | ok b =>
        cases hout
        exact ⟨es₀, hes, hQ _ rfl⟩
  · cases hout

/-- A session was inserted with the hash of this bind token. -/
def Inserted (id : Uuid) (bindToken : JsString) (es : List (Act Pairing.sig Failure)) : Prop :=
  ∃ values, (⟨.insertSession values, .ok ()⟩ : Act Pairing.sig Failure) ∈ es ∧ values.id = id ∧
    values.sessionBindTokenHash = sha256Hex bindToken

theorem returns_createSession_inserted {settings : Settings} {input : CreateInput} :
    Prog.Returns (fun es result => Inserted result.id result.sessionBindToken es)
      (createSession settings input) := by
  apply Prog.returns_perform_bind
  intro count
  split
  · exact Prog.returns_raise
  · refine Prog.returns_perform_bind fun id => Prog.returns_perform_bind fun nonceBytes => ?_
    refine Prog.returns_perform_bind fun bindBytes => Prog.returns_perform_bind fun now => ?_
    refine Prog.returns_perform_bind fun _ => Prog.returns_perform_bind fun _ => ?_
    exact Prog.returns_ret ⟨_, .tail _ (.tail _ (.tail _ (.tail _ (.tail _ (.head _))))), rfl, rfl⟩

/-- Behind a claim cookie stands the session for which its token was minted: the same request
    has inserted it and has remembered its bind token. -/
def ClaimOf (es : List (Act portalSig PortalError)) : portalSig.Op → Prop
  | .inr (.writeHead _ (some (.claim token))) => ∃ id bindToken es₀,
      es₀.map Act.inl ⊆ es ∧ Inserted id bindToken es₀ ∧
        ⟨.inr (.rememberBindToken id bindToken), .ok ()⟩ ∈ es ∧
        ⟨.inr (.mintClaimToken id), .ok token⟩ ∈ es
  | .inr (.writeHead _ (some (.session _))) => False
  | _ => True

theorem claimOf_of_resolves {es : List (Act portalSig PortalError)} {o : portalSig.Op}
    (h : Resolves o) : ClaimOf es o := by
  rcases o with o | o
  · cases h
  · cases o <;> trivial

theorem claimOf_refuse {es : List (Act portalSig PortalError)} (status : ℕ)
    (error message : JsString) :
    Prog.Before (fun es' => ClaimOf (es ++ es')) (refuse status error message) :=
  before_respond trivial fun _ => trivial

/-- POST /init-login sets no cookie but the claim cookie of the session that it has opened. -/
theorem before_postInitLogin : Prog.Before ClaimOf (postInitLogin cfg req) := by
  refine Prog.Before.tryCatch (Φ := fun _ _ => True) ?_ (Prog.ends_of_forall fun _ _ => trivial)
    fun es e _ => ?_
  · refine Prog.Before.bind (Φ := fun _ _ => True)
      (only_resolveDemoPortalTenantId.before fun _ _ ho => claimOf_of_resolves ho)
      (Prog.ends_of_forall fun _ _ => trivial) fun es tenantId _ => ?_
    cases tenantId with
    | none => exact claimOf_refuse _ _ _
    | some tenantId =>
        have hcreate : Prog.Only (fun _ => True) (createSession cfg.pairing
            ⟨tenantId.text, demoEnvironment, none, req.ip, req.userAgent⟩) :=
          Prog.before_of_forall fun _ _ => trivial
        refine Prog.Before.bind ((hcreate.lift (Q := fun o => ∀ es, ClaimOf es o)
          fun _ _ _ => trivial).before fun _ _ h => h _)
          (returns_lift returns_createSession_inserted) fun es₁ result hout => ?_
        obtain ⟨es₀, rfl, hinserted⟩ := hout _ rfl
        refine Prog.before_perform_bind.mpr ⟨trivial, fun _ => ?_⟩
        refine Prog.before_perform_bind.mpr ⟨trivial, fun token => ?_⟩
        split
        all_goals
          refine before_respond ?_ fun _ => trivial
          exact ⟨result.id, result.sessionBindToken, es₀, fun x hx => by simp [hx], hinserted,
            List.mem_append_right _ (List.mem_append_right _ List.mem_cons_self), by simp⟩
  · split
    · exact claimOf_refuse _ _ _
    · exact claimOf_refuse _ _ _

end Sent

end ZeroAuth.Portal
