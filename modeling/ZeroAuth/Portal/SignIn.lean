/-
  ZeroAuth.Portal.SignIn

  The routes of src/routes/demo-portal.ts that finish a sign-in: the event stream,
  `/submit-proof` and the claim of the desktop.

  All three may set the session cookie.  Each sends it only for a session that was consumed, by
  the user of the cookie (`before_getEvents`, `before_postSubmitProof`, `before_postClaim`).
  Heartbeats of the stream are left out.
-/

import ZeroAuth.Pairing.Submit
import ZeroAuth.Portal.Routes

namespace ZeroAuth.Portal

open ZeroAuth.Lib ZeroAuth.Js ZeroAuth.Pg ZeroAuth.Audit ZeroAuth.Pairing ZeroAuth.Android

/-! ## Requests -/

/-- `/^[0-9a-fA-F-]{8,64}$/`. -/
def isSessionId (s : JsString) : Bool :=
  8 ≤ s.length ∧ s.length ≤ 64 ∧ s.all fun u => (digitIn 16 u).isSome ∨ u = 45

/-- `Date.toISOString()` of a date of the database or of now. -/
def isoText (cfg : PortalSettings) (ms : ℕ) : PortalProgram JsString :=
  match cfg.isoDate (.ofInt ms) with
  | some text => return text
  | none => .raise (.inr (js "Invalid time value"))

def invalidSessionId : PortalProgram Unit :=
  refuse 400 (js "invalid_session_id") (js "Session id is malformed.")

/-! ## GET /sessions/:id/events -/

def pollMs : ℕ := 500

def streamDeadlineMs : ℕ := 6 * 60 * 1000

def initialPollBudgetMs : ℕ := 2000

def SessionState.text : SessionState → JsString
  | .issued => js "issued"
  | .consumed => js "consumed"
  | .expired => js "expired"
  | .failed => js "failed"

/-- The name that the stream shows. -/
def streamName : Option DemoUserRow → JsString
  | some user =>
      if user.fullName ≠ [] ∧ user.fullName ≠ js "face-first" then user.fullName
      else js "demo user"
  | none => js "demo user"

structure SuccessTerminal where
  cookie : DemoCookiePayload
  payload : List (JsString × Json)

/-- `consumed_at?.toISOString() ?? new Date().toISOString()`. -/
def boundAt (cfg : PortalSettings) (row : PairingRowSlim) : PortalProgram JsString :=
  match row.consumedAt with
  | some ms => isoText cfg ms
  | none => do
      let now ← dateNow
      isoText cfg now

def resolveSuccess (cfg : PortalSettings) (row : PairingRowSlim) (tenantId : Uuid) :
    PortalProgram (Option SuccessTerminal) :=
  match row.state, row.consumedUserId with
  | .consumed, some userId => do
      let user : Option DemoUserRow ← portal (.demoUser userId.text tenantId.text)
      let startedAt ← dateNow
      let boundAt ← boundAt cfg row
      return some
        { cookie := ⟨userId.text, row.id.text, .ofInt startedAt⟩
          payload := [(js "userId", .str userId.text), (js "user_id", .str userId.text),
            (js "did", .str ((user.bind DemoUserRow.did).getD [])),
            (js "userEmail", .str (js "demo user")), (js "userName", .str (streamName user)),
            (js "boundAt", .str boundAt)] }
  | _, _ => return none

/-- Nothing is written once the client has gone. -/
def writeEvent (name : JsString) (data : List (JsString × Json)) : PortalProgram Unit := do
  let closed : Bool ← portal .isClosed
  if closed = true then return ()
  else portal (.write (.event name (.obj data)))

def writeError (error message : JsString) : PortalProgram Unit :=
  writeEvent (js "session_error") [(js "error", .str error), (js "message", .str message)]

def writeExpired (id reason : JsString) : PortalProgram Unit :=
  writeEvent (js "session_expired") [(js "id", .str id), (js "reason", .str reason)]

def writeSuccess (success : SuccessTerminal) : PortalProgram Unit := do
  writeEvent (js "session_bound") success.payload
  writeEvent (js "authenticated") (success.payload ++ [(js "type", .str (js "authenticated"))])

/-- Phase 1: poll until the row is final or the budget is spent. -/
def quickPoll (sessionId : JsString) (tenantId : Uuid) (deadline : ℕ) :
    ℕ → PairingRowSlim → PortalProgram (Option PairingRowSlim)
  | 0, _ => return none
  | turns + 1, row =>
      if row.state ≠ .issued then return some row
      else do
        let now ← dateNow
        if deadline ≤ now then return some row
        else do
          (Pairing.await (.sleep pollMs)).lift
          let next : Option PairingRowSlim ← orNull (portal (.pairingRow sessionId tenantId.text))
          match next with
          | none =>
              return some { row with
                state := .failed
                lastErrorCode := some (js "pairing_session_not_found") }
          | some next => quickPoll sessionId tenantId deadline turns next

/-- The last frame for a row that is final when the head is sent. -/
def writeTerminal (row : PairingRowSlim) : Option SuccessTerminal → PortalProgram Unit
  | some success => writeSuccess success
  | none =>
      match row.state with
      | .expired => writeExpired row.id.text (js "expired")
      | .failed =>
          writeError (row.lastErrorCode.getD (js "pairing_failed")) (js "Pairing failed.")
      | state =>
          writeError (js "pairing_unexpected_state")
            (js "Unexpected state: " ++ SessionState.text state)

/-- Phase 2: poll until a final event is sent, the client has gone or the deadline has passed.
    The head has been sent, so `setHeader` throws, and that is ignored. -/
def longPoll (cfg : PortalSettings) (sessionId : JsString) (tenantId : Uuid) (deadline : ℕ) :
    ℕ → PortalProgram Unit
  | 0 => return ()
  | turns + 1 => do
      -- the test of the loop, then one poll
      let closed : Bool ← portal .isClosed
      let now ← dateNow
      if closed = true ∨ deadline ≤ now then return ()
      else do
        (Pairing.await (.sleep pollMs)).lift
        let next : Option PairingRowSlim ← orNull (portal (.pairingRow sessionId tenantId.text))
        match next with
        | none =>
            -- every branch that writes an event breaks
            writeError (js "pairing_session_not_found") (js "Pairing session disappeared.")
        | some next =>
            if next.state = .consumed ∧ next.consumedUserId.isSome then do
              let success ← resolveSuccess cfg next tenantId
              match success with
              | some success => writeSuccess success
              | none => return ()
            else if next.state = .expired then writeExpired next.id.text (js "expired")
            else if next.state = .failed then
              writeError (next.lastErrorCode.getD (js "pairing_failed")) (js "Pairing failed.")
            else do
              -- still issued: over when its own time is
              let now ← dateNow
              if next.expiresAt ≤ now then writeExpired next.id.text (js "ttl")
              else longPoll cfg sessionId tenantId deadline turns

/-- The loop, and what follows it past the deadline. -/
def streamRest (cfg : PortalSettings) (sessionId : JsString) (tenantId : Uuid) (deadline : ℕ)
    (turns : ℕ) : PortalProgram Unit :=
  Prog.tryCatch (do
    longPoll cfg sessionId tenantId deadline turns
    let now ← dateNow
    if deadline ≤ now then writeExpired sessionId (js "stream_deadline") else return ()) fun
    | .inl (.pairing .sessionNotFound _) =>
        writeError PairingError.sessionNotFound.code (js "Session unavailable.")
    | .inl (.pairing .sessionBindMismatch _) =>
        writeError PairingError.sessionBindMismatch.code (js "Session unavailable.")
    | _ => writeError (js "pairing_failed") (js "Stream interrupted.")

/-- From the row that the first phase ends with. -/
def streamFrom (cfg : PortalSettings) (sessionId : JsString) (tenantId : Uuid) (deadline : ℕ)
    (turns : ℕ) (row : PairingRowSlim) : PortalProgram Unit := do
  let success ← resolveSuccess cfg row tenantId
  portal (.writeHead 200 (success.map fun s => .session s.cookie))
  let expiresAt ← isoText cfg row.expiresAt
  writeEvent (js "session_created") [(js "id", .str row.id.text),
    (js "state", .str (SessionState.text row.state)), (js "expiresAt", .str expiresAt)]
  if row.state ≠ .issued then writeTerminal row success
  else streamRest cfg sessionId tenantId deadline turns

def getEvents (cfg : PortalSettings) (sessionId : JsString) (turns : ℕ) : PortalProgram Unit :=
  if isSessionId sessionId = false then invalidSessionId
  else do
    let tenantId ← resolveDemoPortalTenantId
    match tenantId with
    | none => notProvisioned
    | some tenantId => do
        let initialRow : Option PairingRowSlim ←
          orNull (portal (.pairingRow sessionId tenantId.text))
        match initialRow with
        | none => refuse 404 (js "pairing_session_not_found") (js "No such pairing session.")
        | some initialRow => do
            -- the stream's deadline counts from before the quick poll
            let opened ← dateNow
            let begun ← dateNow
            let row ← quickPoll sessionId tenantId (begun + initialPollBudgetMs) turns initialRow
            match row with
            | none => return ()
            | some row =>
                streamFrom cfg sessionId tenantId (opened + streamDeadlineMs) turns row

/-! ## POST /submit-proof -/

/-- The value of the first of two keys that holds a string. -/
def textField (body : Json) (snake camel : JsString) : JsString :=
  match body.get? snake, body.get? camel with
  | some (.str s), _ => s
  | _, some (.str s) => s
  | _, _ => []

def proofJson (proof : Groth16Proof) : Json :=
  .obj [(js "pi_a", .arr (proof.pi_a.map .str)),
    (js "pi_b", .arr (proof.pi_b.map fun row => .arr (row.map .str))),
    (js "pi_c", .arr (proof.pi_c.map .str)), (js "protocol", .str proof.protocol),
    (js "curve", .str proof.curve)]

/-- A key that is there only with a value. -/
def optionalProp (key : JsString) (value : Option Json) : List (JsString × Json) :=
  match value with
  | some j => [(key, j)]
  | none => []

def clientMetaJson (m : DecodedClientMeta) : Json :=
  .obj ((js "source", .str (js "demo-portal")) ::
    (optionalProp (js "appVersion") (m.appVersion.map .str) ++
      optionalProp (js "platform") (m.platform.map .str) ++
      optionalProp (js "model") (m.model.map .str) ++
      optionalProp (js "proofMs") (m.proofMs.map fun n => .num (.ofInt n)) ++
      optionalProp (js "playIntegrityVerdict") (m.playIntegrityVerdict.map .str)))

/-- What the route passes on to the pairing service. -/
def submitInput (sessionId : JsString) (tenantId : Uuid) (d : DecodedProofEnvelope)
    (bindToken : JsString) : SubmitInput :=
  { sessionId := sessionId
    tenantId := tenantId.text
    environment := demoEnvironment
    did := d.did
    proof := proofJson d.proof
    publicSignals := .arr (d.publicSignals.map .str)
    clientMeta := clientMetaJson d.clientMeta
    presentedSessionBindToken := some bindToken }

/-- Status and message for an error of the service; `none` is the message of the error. -/
def submitRefusal : PairingError → Option (ℕ × Option JsString)
  | .sessionNotFound => some (404, some (js "Pairing session not found."))
  | .sessionExpired => some (410, some (js "Pairing session expired."))
  | .sessionAlreadyBound => some (409, some (js "Pairing session already bound."))
  | .sessionLocked => some (423, some (js "Pairing session locked after repeated failures."))
  | .sessionBindMismatch => some (403, some (js "Session bind mismatch."))
  | .nonceMismatch => some (400, some (js "Public-signals nonce mismatch."))
  | .didUnknown => some (400, some (js "DID does not resolve for this tenant."))
  | .proofInvalid => some (401, some (js "Proof verification failed."))
  | .playIntegrityRequired => some (400, none)
  | .playIntegrityInsufficient => some (401, none)
  | .verifierUnavailable => some (503, some (js "Verifier loopback unavailable."))
  | .tooManyPendingSessions | .tenantMismatch => none

def submitCaught : PortalError → PortalProgram Unit
  | .inl (.pairing error message) =>
      match submitRefusal error with
      | some (status, text) => refuse status error.code (text.getD message)
      | none => refuse 500 (js "proof_failed") (js "Proof submission failed.")
  | _ => refuse 500 (js "proof_failed") (js "Proof submission failed.")

/-- A nullable date in a response; `toJSON` of an invalid date is null. -/
def dateJson (cfg : PortalSettings) (date : Option ℕ) : Json :=
  nullable (date.bind fun ms => cfg.isoDate (.ofInt ms))

/-- The answer to a proof that was accepted. -/
def answerSubmit (cfg : PortalSettings) (sessionId : JsString) (view : SessionPublicView) :
    PortalProgram Unit := do
  let startedAt ← dateNow
  respond 200 (some (.session ⟨(view.userId.map Uuid.text).getD [], sessionId, .ofInt startedAt⟩))
    (.obj [(js "ok", .bool true), (js "redirect", .str (js "/dashboard")),
      (js "session", .obj [(js "userId", nullable (view.userId.map Uuid.text)),
        (js "did", nullable view.did), (js "boundAt", dateJson cfg view.boundAt)])])

/-- With a proof that has been decoded. -/
def submitDecoded (cfg : PortalSettings) (sessionId : JsString) (d : DecodedProofEnvelope) :
    PortalProgram Unit := do
  let tenantId ← resolveDemoPortalTenantId
  match tenantId with
  | none => notProvisioned
  | some tenantId => do
      let bindToken : Option JsString ← portal (.consumeBindToken sessionId)
      match bindToken with
      | none | some [] =>
          refuse 410 (js "pairing_session_expired")
            (js "This sign-in session has expired or was already used. Try again.")
      | some token => do
          let result ← (submitProof cfg.pairing (submitInput sessionId tenantId d token)).lift
          answerSubmit cfg sessionId result.session

def postSubmitProof (cfg : PortalSettings) (body : Json) : PortalProgram Unit :=
  let sessionId := textField body (js "session_id") (js "sessionId")
  let qrPayload := textField body (js "qr_payload") (js "qrPayload")
  Prog.tryCatch (
    -- what is refused before the text is decoded
    if isSessionId sessionId = false then
      refuse 400 (js "invalid_request") (js "session_id is required and must be a UUID.")
    else if qrPayload = [] then
      refuse 400 (js "invalid_request") (js "qr_payload is required.")
    else
      match decodeProofQr cfg.gzip qrPayload with
      | .error message => refuse 400 (js "invalid_request") message
      | .ok decoded =>
          -- a proof for another session than the one asked for
          if decoded.sessionId ≠ sessionId then
            refuse 400 (js "invalid_request")
              (js "Proof QR session id does not match the desktop session.")
          else submitDecoded cfg sessionId decoded) submitCaught

/-! ## POST /sessions/:id/claim -/

def notReady : PortalProgram Unit :=
  refuse 409 (js "pairing_not_ready") (js "This sign-in is not complete yet.")

/-- `x ? sha256(x) : null`. -/
def hashOrNull (text : Option JsString) : JsVal :=
  match text with
  | none | some [] => .null
  | some s => .str (sha256Hex s)

def claimedAudit (req : Request) (row : PairingRowSlim) (userId : Uuid) : AuditInput :=
  { environment := some demoEnvironment
    actorType := js "system"
    action := js "pairing.desktop_claimed"
    entityType := js "pairing_session"
    entityId := some row.id.text
    status := js "success"
    summary := js "Desktop claimed session cookie for user " ++ userId.text
    metadata := .obj [(js "client_ip_sha256", hashOrNull req.ip),
      (js "user_agent_sha256", hashOrNull req.userAgent)] }

/-- `row.consumed_at ?? new Date()`. -/
def claimStart (row : PairingRowSlim) : PortalProgram ℕ :=
  match row.consumedAt with
  | some ms => return ms
  | none => dateNow

/-- After the token: the event has to be written before the cookie is set. -/
def finishClaim (req : Request) (tenantId : Uuid) (row : PairingRowSlim) (userId : Uuid) :
    PortalProgram Unit := do
  let user : Option DemoUserRow ← portal (.demoUser userId.text tenantId.text)
  (recordAuditEvent tenantId.text (claimedAudit req row userId)).lift
  let startedAt ← claimStart row
  respond 200 (some (.session ⟨userId.text, row.id.text, .ofInt startedAt⟩))
    (.obj [(js "ok", .bool true), (js "userId", .str userId.text),
      (js "did", .str ((user.bind DemoUserRow.did).getD [])),
      (js "redirect", .str (js "/dashboard"))])

/-- The row is checked before the token, so that an open session does not use it up. -/
def claimRow (req : Request) (sessionId : JsString) (tenantId : Uuid) (row : PairingRowSlim) :
    PortalProgram Unit :=
  match row.state, row.consumedUserId with
  | .consumed, some userId => do
      let verified : Bool ← portal
        (.verifyAndConsumeClaimToken sessionId (readNamedCookie req demoClaimCookieName))
      if verified = true then finishClaim req tenantId row userId else notReady
  | _, _ => notReady

def postClaim (req : Request) (sessionId : JsString) : PortalProgram Unit :=
  Prog.tryCatch (
    if isSessionId sessionId = false then invalidSessionId
    else do
      let tenantId ← resolveDemoPortalTenantId
      match tenantId with
      | none => notProvisioned
      | some tenantId => do
          let row : Option PairingRowSlim ← portal (.pairingRow sessionId tenantId.text)
          match row with
          | none => notReady
          | some row => claimRow req sessionId tenantId row) fun
    | _ => refuse 500 (js "claim_failed") (js "Could not claim the sign-in session.")

/-! ## Who is given a session cookie -/

section Cookies

variable {cfg : PortalSettings} {req : Request} {sessionId : JsString} {tenantId : Uuid}

/-- No session cookie is sent. -/
def NoSession : portalSig.Op → Prop
  | .inr (.writeHead _ (some (.session _))) => False
  | _ => True

theorem noSession_of_resolves {o : portalSig.Op} (h : Resolves o) : NoSession o := by
  rcases o with o | o
  · trivial
  · cases o <;> trivial

theorem only_refuse (status : ℕ) (error message : JsString) :
    Prog.Only NoSession (refuse status error message) :=
  before_respond trivial fun _ => trivial

theorem only_isoText (ms : ℕ) : Prog.Only NoSession (isoText cfg ms) := by
  unfold isoText
  split <;> trivial

theorem only_lift {α : Type} (p : Prog Pairing.sig Failure α) :
    Prog.Only NoSession (p.lift : PortalProgram α) :=
  Prog.Only.lift (P := fun _ => True) (Prog.before_of_forall fun _ _ => trivial) fun _ _ => trivial

theorem only_dateNow : Prog.Only NoSession dateNow := only_lift _

theorem only_orNull_pairingRow (id tenant : JsString) :
    Prog.Only NoSession (orNull (portal (.pairingRow id tenant))) :=
  Prog.Only.tryCatch (Prog.only_perform trivial) fun _ => trivial

theorem only_boundAt (row : PairingRowSlim) : Prog.Only NoSession (boundAt cfg row) := by
  unfold boundAt
  split
  · exact only_isoText _
  · exact Prog.Only.bind only_dateNow fun _ => only_isoText _

theorem only_resolveSuccess (row : PairingRowSlim) :
    Prog.Only NoSession (resolveSuccess cfg row tenantId) := by
  unfold resolveSuccess
  split
  · refine Prog.Only.bind (Prog.only_perform trivial) fun user => ?_
    refine Prog.Only.bind only_dateNow fun startedAt => ?_
    exact Prog.Only.bind (only_boundAt row) fun _ => trivial
  · trivial

theorem only_writeEvent (name : JsString) (data : List (JsString × Json)) :
    Prog.Only NoSession (writeEvent name data) := by
  refine Prog.Only.bind (Prog.only_perform trivial) fun closed => ?_
  cases closed with
  | true => trivial
  | false => exact Prog.only_perform trivial

theorem only_writeSuccess (success : SuccessTerminal) :
    Prog.Only NoSession (writeSuccess success) :=
  Prog.Only.bind (only_writeEvent _ _) fun _ => only_writeEvent _ _

theorem only_writeTerminal (row : PairingRowSlim) (success : Option SuccessTerminal) :
    Prog.Only NoSession (writeTerminal row success) := by
  unfold writeTerminal
  split
  · exact only_writeSuccess _
  · split <;> exact only_writeEvent _ _

theorem only_quickPoll (deadline : ℕ) (turns : ℕ) (row : PairingRowSlim) :
    Prog.Only NoSession (quickPoll sessionId tenantId deadline turns row) := by
  induction turns generalizing row with
  | zero => trivial
  | succ turns ih =>
      unfold quickPoll
      split
      · trivial
      · refine Prog.Only.bind only_dateNow fun now => ?_
        split
        · trivial
        · refine Prog.Only.bind (only_lift _) fun _ => ?_
          refine Prog.Only.bind (only_orNull_pairingRow _ _) fun next => ?_
          cases next with
          | none => trivial
          | some next => exact ih next

theorem only_longPoll (deadline : ℕ) (turns : ℕ) :
    Prog.Only NoSession (longPoll cfg sessionId tenantId deadline turns) := by
  induction turns with
  | zero => trivial
  | succ turns ih =>
      refine Prog.Only.bind (Prog.only_perform trivial) fun closed => ?_
      refine Prog.Only.bind only_dateNow fun now => ?_
      split
      · trivial
      · refine Prog.Only.bind (only_lift _) fun _ => ?_
        refine Prog.Only.bind (only_orNull_pairingRow _ _) fun next => ?_
        cases next with
        | none => exact only_writeEvent _ _
        | some next =>
            dsimp only
            split
            · refine Prog.Only.bind (only_resolveSuccess next) fun success => ?_
              cases success with
              | none => trivial
              | some success => exact only_writeSuccess success
            · split
              · exact only_writeEvent _ _
              · split
                · exact only_writeEvent _ _
                · refine Prog.Only.bind only_dateNow fun now => ?_
                  split
                  · exact only_writeEvent _ _
                  · exact ih

theorem only_streamRest (deadline turns : ℕ) :
    Prog.Only NoSession (streamRest cfg sessionId tenantId deadline turns) := by
  refine Prog.Only.tryCatch (Prog.Only.bind (only_longPoll deadline turns) fun _ =>
    Prog.Only.bind only_dateNow fun now => ?_) fun e => ?_
  · split
    · exact only_writeEvent _ _
    · trivial
  · split <;> exact only_writeEvent _ _

/-- The read of a session. -/
def rowRead (id tenant : JsString) (row : PairingRowSlim) : Act portalSig PortalError :=
  ⟨.inr (.pairingRow id tenant), .ok (some row : Option PairingRowSlim)⟩

/-- The claim token of the request was good. -/
def tokenTaken (req : Request) (sessionId : JsString) : Act portalSig PortalError :=
  ⟨.inr (.verifyAndConsumeClaimToken sessionId (readNamedCookie req demoClaimCookieName)), .ok true⟩

/-- An audit event was written. -/
def entryWritten (entry : ChainedAuditPayload) : Act portalSig PortalError :=
  ⟨.inl (.appendAudit entry), .ok ()⟩

def ReadRow (row : PairingRowSlim) (es : List (Act portalSig PortalError)) : Prop :=
  ∃ id tenant, rowRead id tenant row ∈ es

theorem ReadRow.mono {row : PairingRowSlim} {es es' : List (Act portalSig PortalError)}
    (h : ReadRow row es) (hsub : es ⊆ es') : ReadRow row es' := by
  obtain ⟨id, tenant, hmem⟩ := h
  exact ⟨id, tenant, hsub hmem⟩

/-- The session of a cookie was read as consumed, by the user of the cookie. -/
def ReadConsumed (payload : DemoCookiePayload) (es : List (Act portalSig PortalError)) : Prop :=
  ∃ row userId, ReadRow row es ∧ row.state = .consumed ∧ row.consumedUserId = some userId ∧
    payload.userId = userId.text ∧ payload.pairingSessionId = row.id.text

/-- `P` holds where a session cookie is sent. -/
def AtSession (P : DemoCookiePayload → List (Act portalSig PortalError) → Prop)
    (es : List (Act portalSig PortalError)) : portalSig.Op → Prop
  | .inr (.writeHead _ (some (.session payload))) => P payload es
  | _ => True

variable {P : DemoCookiePayload → List (Act portalSig PortalError) → Prop}

theorem atSession_of_noSession {es : List (Act portalSig PortalError)} {o : portalSig.Op}
    (h : NoSession o) : AtSession P es o := by
  unfold AtSession
  split
  · cases h
  · trivial

theorem before_start {α : Type} {p : PortalProgram α} (h : Prog.Only NoSession p) :
    Prog.Before (AtSession P) p :=
  h.before fun _ _ => atSession_of_noSession

theorem before_of_noSession {α : Type} {p : PortalProgram α} (h : Prog.Only NoSession p)
    {es : List (Act portalSig PortalError)} : Prog.Before (fun es' => AtSession P (es ++ es')) p :=
  h.before fun _ _ => atSession_of_noSession

/-- The tenant of the demo portal, and then the rest. -/
theorem before_resolve {f : Option Uuid → PortalProgram Unit}
    (h : ∀ es tenantId, Prog.Before (fun es' => AtSession P (es ++ es')) (f tenantId)) :
    Prog.Before (AtSession P) (resolveDemoPortalTenantId >>= f) :=
  Prog.Before.bind (Φ := fun _ _ => True)
    (only_resolveDemoPortalTenantId.before fun _ _ ho =>
      atSession_of_noSession (noSession_of_resolves ho))
    (Prog.ends_of_forall fun _ _ => trivial) fun es tenantId _ => h es tenantId

theorem returns_recordAuditEvent {tenant : JsString} {input : AuditInput} :
    Prog.Returns (fun es _ => ∃ entry, entryWritten entry ∈ es)
      ((recordAuditEvent tenant input).lift : PortalProgram Unit) := by
  have haudit : Prog.Returns (fun es _ => ∃ entry, (⟨.appendAudit entry, .ok ()⟩ :
      Act Pairing.sig Failure) ∈ es) (recordAuditEvent tenant input) := by
    intro r
    cases r with
    | error e => exact fun _ h => by cases h
    | ok a => exact fun _ _ => ⟨_, List.mem_cons_self⟩
  refine (returns_lift haudit).mono fun es _ h => ?_
  obtain ⟨es₀, rfl, entry, hentry⟩ := h
  exact ⟨entry, List.mem_map_of_mem hentry⟩

/-- A desktop is given the cookie of a consumed session for the claim token of the session, and
    the claim has been written to the audit log before. -/
theorem before_postClaim : Prog.Before (AtSession fun payload es => ReadConsumed payload es ∧
    tokenTaken req sessionId ∈ es ∧ ∃ entry, entryWritten entry ∈ es)
    (postClaim req sessionId) := by
  refine Prog.Before.tryCatch (Φ := fun _ _ => True) ?_ (Prog.ends_of_forall fun _ _ => trivial)
    fun es e _ => before_of_noSession (only_refuse _ _ _)
  split
  · exact before_start (only_refuse _ _ _)
  · refine before_resolve fun es tenantId => ?_
    cases tenantId with
    | none => exact before_of_noSession (only_refuse _ _ _)
    | some tenantId =>
        refine Prog.before_perform_bind.mpr ⟨trivial, fun row => ?_⟩
        -- the row is read, the token taken, the audit entry written, and only then the answer given
        cases row with
        | none => exact before_respond trivial fun _ => trivial
        | some row =>
            dsimp only [claimRow]
            split
            · next userId hstate huser =>
                refine Prog.before_perform_bind.mpr ⟨trivial, fun verified => ?_⟩
                split
                · next hverified =>
                    subst hverified
                    refine Prog.before_perform_bind.mpr ⟨trivial, fun user => ?_⟩
                    refine Prog.Before.bind
                      ((only_lift _).before fun _ _ => atSession_of_noSession)
                      returns_recordAuditEvent fun es₁ _ haudit => ?_
                    obtain ⟨entry, hentry⟩ := haudit _ rfl
                    have hstart : Prog.Only NoSession (claimStart row) := by
                      unfold claimStart
                      split
                      · trivial
                      · exact only_dateNow
                    refine Prog.Before.bind (Φ := fun _ _ => True)
                      (hstart.before fun _ _ => atSession_of_noSession)
                      (Prog.ends_of_forall fun _ _ => trivial) fun es₂ startedAt _ => ?_
                    refine before_respond ⟨⟨row, userId, ⟨sessionId, tenantId.text, ?_⟩, hstate,
                      huser, rfl, rfl⟩, ?_, entry, ?_⟩ fun _ => trivial
                    · exact List.mem_append_right _ (.head _)
                    · exact List.mem_append_right _ (.tail _ (.head _))
                    · exact List.mem_append_right _ (.tail _ (.tail _ (.tail _
                        (List.mem_append_left _ hentry))))
                · exact before_respond trivial fun _ => trivial
            · exact before_respond trivial fun _ => trivial

theorem returns_orNull_pairingRow {id tenant : JsString} :
    Prog.Returns (fun es next => ∀ row, next = some row → ReadRow row es)
      (orNull (portal (.pairingRow id tenant))) := by
  refine Prog.Ends.tryCatch (Ψ := fun es out => ∀ next, out = .ok next →
    ∀ row, next = some row → ReadRow row es) ?_ (fun _ _ h => h)
    fun es e _ next hnext row hrow => ?_
  · apply (Prog.ends_perform (S := portalSig) (o := .inr (.pairingRow id tenant))).mpr
    constructor
    · intro next next' hnext row hrow
      obtain rfl : next = next' := Except.ok.inj hnext
      subst hrow
      exact ⟨id, tenant, List.mem_singleton_self _⟩
    · intro e next hnext
      cases hnext
  · cases hnext
    cases hrow

/-- The first phase ends with the row that it has begun with, one that it has read, or one that
    it takes for failed. -/
theorem returns_quickPoll (deadline : ℕ) (turns : ℕ) (row : PairingRowSlim) :
    Prog.Returns (fun es last => ∀ row', last = some row' →
      row' = row ∨ ReadRow row' es ∨ row'.state = .failed)
      (quickPoll sessionId tenantId deadline turns row) := by
  induction turns generalizing row with
  | zero => exact Prog.returns_ret fun _ h => by cases h
  | succ turns ih =>
      unfold quickPoll
      split
      · exact Prog.returns_ret fun _ h => .inl (Option.some.inj h).symm
      · refine Prog.returns_bind fun es₁ now => ?_
        split
        · exact Prog.returns_ret fun _ h => .inl (Option.some.inj h).symm
        · refine Prog.returns_bind fun es₂ _ => ?_
          refine returns_orNull_pairingRow.bind fun es₃ next hread => ?_
          cases next with
          | none => exact Prog.returns_ret fun _ h => .inr (.inr (Option.some.inj h ▸ rfl))
          | some next =>
              refine (ih next).mono fun es₄ last hlast row' hrow' => ?_
              rcases hlast row' hrow' with rfl | hlater | hfailed
              · exact .inr (.inl ((hread _ rfl).mono fun x hx => by simp [hx]))
              · exact .inr (.inl (hlater.mono fun x hx => by simp [hx]))
              · exact .inr (.inr hfailed)

theorem returns_resolveSuccess (row : PairingRowSlim) :
    Prog.Returns (fun _ success => ∀ s, success = some s → ∃ userId, row.state = .consumed ∧
      row.consumedUserId = some userId ∧ s.cookie.userId = userId.text ∧
      s.cookie.pairingSessionId = row.id.text) (resolveSuccess cfg row tenantId) := by
  unfold resolveSuccess
  split
  · next userId hstate huser =>
      refine Prog.returns_bind fun _ _ => Prog.returns_bind fun _ _ => ?_
      refine Prog.returns_bind fun _ _ => Prog.returns_ret fun s hs => ?_
      cases hs
      exact ⟨userId, hstate, huser, rfl, rfl⟩
  · exact Prog.returns_ret fun s hs => by cases hs

/-- The stream sends a cookie for a session that it has read as consumed. -/
theorem before_getEvents (turns : ℕ) :
    Prog.Before (AtSession ReadConsumed) (getEvents cfg sessionId turns) := by
  unfold getEvents
  split
  · exact before_start (only_refuse _ _ _)
  · refine before_resolve fun es tenantId => ?_
    cases tenantId with
    | none => exact before_of_noSession (only_refuse _ _ _)
    | some tenantId =>
        refine Prog.Before.bind (before_of_noSession (only_orNull_pairingRow _ _))
          returns_orNull_pairingRow fun es₁ row hrow => ?_
        cases row with
        | none => exact before_respond trivial fun _ => trivial
        | some row =>
            -- the first read is for the caller's session; the polls read it again
            have hread := hrow _ rfl _ rfl
            refine Prog.Before.bind (Φ := fun _ _ => True) (only_dateNow.before fun _ _ =>
              atSession_of_noSession) (Prog.ends_of_forall fun _ _ => trivial)
              fun es₂ opened _ => ?_
            refine Prog.Before.bind (Φ := fun _ _ => True) (only_dateNow.before fun _ _ =>
              atSession_of_noSession) (Prog.ends_of_forall fun _ _ => trivial) fun es₃ begun _ => ?_
            refine Prog.Before.bind ((only_quickPoll _ _ _).before fun _ _ =>
              atSession_of_noSession) (returns_quickPoll _ _ _) fun es₄ last hlast => ?_
            cases last with
            | none => trivial
            | some last =>
                have hlast := hlast _ rfl last rfl
                refine Prog.Before.bind ((only_resolveSuccess last).before fun _ _ =>
                  atSession_of_noSession) (returns_resolveSuccess last)
                  fun es₅ success hsuccess => ?_
                have hrest : Prog.Only NoSession (do
                    let expiresAt ← isoText cfg last.expiresAt
                    writeEvent (js "session_created") [(js "id", .str last.id.text),
                      (js "state", .str (SessionState.text last.state)),
                      (js "expiresAt", .str expiresAt)]
                    if last.state ≠ .issued then writeTerminal last success
                    else streamRest cfg sessionId tenantId (opened + streamDeadlineMs) turns) := by
                  refine Prog.Only.bind (only_isoText _) fun _ => ?_
                  refine Prog.Only.bind (only_writeEvent _ _) fun _ => ?_
                  split
                  · exact only_writeTerminal _ _
                  · exact only_streamRest _ _
                refine Prog.before_perform_bind.mpr ⟨?_, fun _ =>
                  hrest.before fun _ _ => atSession_of_noSession⟩
                cases success with
                | none => trivial
                | some success =>
                    -- a cookie is sent with `issued` only, so the last read has found the session
                    -- consumed
                    obtain ⟨userId, hstate, huser, hcookie, hid⟩ := hsuccess _ rfl _ rfl
                    refine ⟨last, userId, ?_, hstate, huser, hcookie, hid⟩
                    rcases hlast with rfl | hlater | hfailed
                    · exact hread.mono fun x hx => by simp [hx]
                    · exact hlater.mono fun x hx => by simp [hx]
                    · rw [hfailed] at hstate
                      cases hstate

/-- The bind token that `/submit-proof` takes from the server's map. -/
def bindTokenTaken (sessionId token : JsString) : Act portalSig PortalError :=
  ⟨.inr (.consumeBindToken sessionId), .ok (some token : Option JsString)⟩

/-- The row of the session was claimed for this user. -/
def sessionClaimed (sessionId : JsString) (userId : Uuid) (row : SessionRow) :
    Act Pairing.sig Failure :=
  ⟨.claim sessionId userId, .ok (some row : Option SessionRow)⟩

theorem returns_submitCatch {input : SubmitInput} (correlationId : Uuid) (start : ℕ) (e : Failure) :
    Prog.Returns (fun _ _ => False) (submitCatch input correlationId start e) := by
  unfold submitCatch
  split
  · exact Prog.returns_bind fun _ _ => Prog.returns_bind fun _ _ => Prog.returns_raise
  · exact Prog.returns_bind fun _ _ => Prog.returns_raise

theorem returns_submitProof_claimed {settings : Settings} {input : SubmitInput} :
    Prog.Returns (fun es result => ∃ userId row, sessionClaimed input.sessionId userId row ∈ es ∧
      result.session.userId = some userId) (submitProof settings input) := by
  refine Prog.returns_perform_bind fun start => Prog.returns_perform_bind fun correlationId => ?_
  refine Prog.Ends.tryCatch (ends_submitBody settings input correlationId start)
    (fun es result hrun result' hresult => ?_) fun es e _ => ?_
  · cases hresult
    cases hrun with
    | claimed _ _ _ _ hok =>
        exact ⟨_, _, .tail _ (.tail _ (List.mem_append_right _ (.head _))), (hok _ rfl).1⟩
  · exact (returns_submitCatch correlationId start e).mono fun _ _ h => h.elim

/-- A browser that has sent a proof is given the cookie of the user for whom its session was
    claimed, once the bind token of the session was taken. -/
theorem before_postSubmitProof {body : Json} :
    Prog.Before (AtSession fun payload es => ∃ token userId row,
      bindTokenTaken payload.pairingSessionId token ∈ es ∧ token ≠ [] ∧
        (sessionClaimed payload.pairingSessionId userId row).inl ∈ es ∧
        payload.userId = userId.text) (postSubmitProof cfg body) := by
  refine Prog.Before.tryCatch (Φ := fun _ _ => True) ?_ (Prog.ends_of_forall fun _ _ => trivial)
    fun es e _ => before_of_noSession ?_
  · split
    · exact before_start (only_refuse _ _ _)
    · split
      · exact before_start (only_refuse _ _ _)
      · split
        · exact before_start (only_refuse _ _ _)
        · split
          · exact before_start (only_refuse _ _ _)
          · refine before_resolve fun es tenantId => ?_
            cases tenantId with
            | none => exact before_of_noSession (only_refuse _ _ _)
            | some tenantId =>
                -- the bind token is taken before the submission
                refine Prog.before_perform_bind.mpr ⟨trivial, fun token => ?_⟩
                rcases token with _ | _ | ⟨u, us⟩
                · exact before_respond trivial fun _ => trivial
                · exact before_respond trivial fun _ => trivial
                · refine Prog.Before.bind ((only_lift _).before fun _ _ => atSession_of_noSession)
                    (returns_lift returns_submitProof_claimed) fun es₁ result hresult => ?_
                  -- which claims the session for its user
                  obtain ⟨es₀, rfl, userId, row, hclaimed, huser⟩ := hresult _ rfl
                  unfold answerSubmit
                  refine Prog.Before.bind (Φ := fun _ _ => True) (only_dateNow.before fun _ _ =>
                    atSession_of_noSession) (Prog.ends_of_forall fun _ _ => trivial)
                    fun es₂ startedAt _ => ?_
                  refine before_respond ⟨u :: us, userId, row, ?_, List.cons_ne_nil _ _, ?_, ?_⟩
                    fun _ => trivial
                  · exact List.mem_append_right _ (.head _)
                  · exact List.mem_append_right _ (.tail _
                      (List.mem_append_left _ (List.mem_map_of_mem hclaimed)))
                  · rw [huser]
                    rfl
  · unfold submitCaught
    split
    · split <;> exact only_refuse _ _ _
    · exact only_refuse _ _ _

end Cookies

end ZeroAuth.Portal
