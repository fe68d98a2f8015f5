/-
  ZeroAuth.Pairing.SingleUse

  A pairing session is consumed at most once, by one user, and its columns agree
  with its state.
-/

import ZeroAuth.Pairing.Calls

namespace ZeroAuth.Pairing

open ZeroAuth.Lib ZeroAuth.Js ZeroAuth.Pg ZeroAuth.Audit ZeroAuth.Tenant

section

variable {ws : List (ℕ × Uuid)} {r : SessionRow}

theorem RowOk.consumed_iff (h : RowOk ws r) :
    (r.state = .consumed ↔ r.consumedUserId.isSome) ∧
      (r.state = .consumed ↔ r.consumedAt.isSome) := by
  unfold RowOk at h
  split at h
  · next hs => simp [hs, h.2.1, h.2.2.1]
  · next hs =>
      obtain ⟨t, userId, -, huser, hat⟩ := h
      simp [hs, huser, hat]
  · next hs => simp [hs, h.2.1, h.2.2]
  · next hs => simp [hs, h.2.1, h.2.2.1]

theorem RowOk.winner (h : RowOk ws r) (hs : r.state = .consumed) :
    ∃ t userId, ws = [(t, userId)] ∧ r.consumedUserId = some userId := by
  simp only [RowOk, hs] at h
  obtain ⟨t, userId, hws, huser, -⟩ := h
  exact ⟨t, userId, hws, huser⟩

theorem RowOk.failures (h : RowOk ws r) :
    (r.state = .failed → maxFailuresBeforeLock ≤ r.failureCount) ∧
      (r.state = .issued → r.failureCount < maxFailuresBeforeLock) := by
  unfold RowOk at h
  split at h <;> next hs => simp_all

/-- A session that somebody won is consumed. -/
theorem RowOk.consumed_of_mem (h : RowOk ws r) {x : ℕ × Uuid} (hx : x ∈ ws) :
    r.state = .consumed ∧ ws = [x] ∧ r.consumedUserId = some x.2 := by
  unfold RowOk at h
  split at h
  · rw [h.1] at hx
    cases hx
  · next hs =>
      obtain ⟨t, userId, rfl, huser, -⟩ := h
      obtain rfl := List.mem_singleton.mp hx
      exact ⟨hs, rfl, huser⟩
  · rw [h.1] at hx
    cases hx
  · rw [h.1] at hx
    cases hx

end

variable {cfg : Settings} {pg : Jsonb} {c : State}

/-- The row of a session that somebody won. -/
theorem row_of_winner {good : State → Label Call Oracle Env → Prop}
    (h : (system cfg pg).Reach Empty good c) {s : Uuid} {x : ℕ × Uuid}
    (hx : x ∈ winners c.log s) :
    ∃ r ∈ c.world.sessions, r.id = s ∧ r.state = .consumed ∧ winners c.log s = [x] ∧
      r.consumedUserId = some x.2 := by
  have hok := sessionsOk_of_reach h
  by_cases hrow : ∃ r ∈ c.world.sessions, r.id = s
  · obtain ⟨r, hr, rfl⟩ := hrow
    exact ⟨r, hr, rfl, (hok.rows r hr).consumed_of_mem hx⟩
  · rw [hok.none s fun r hr hid => hrow ⟨r, hr, hid⟩] at hx
    cases hx

/-- Single use and agreement of a pairing session, over all runs. -/
theorem single_use (h : (system cfg pg).Reach Empty (fun _ _ => True) c) :
    -- at most one call on a session returns tokens
    (∀ t t' input input' res res', Ended c t input (.ok res) → Ended c t' input' (.ok res') →
      Uuid.parse input.sessionId = Uuid.parse input'.sessionId → t = t') ∧
    -- its row is consumed, by the user of that call
    (∀ t input res, Ended c t input (.ok res) → ∃ r ∈ c.world.sessions,
      Uuid.parse input.sessionId = some r.id ∧ r.state = .consumed ∧
        r.consumedUserId = res.session.userId) ∧
    -- the columns go with the state
    (∀ r ∈ c.world.sessions,
      (r.state = .consumed ↔ r.consumedUserId.isSome) ∧
      (r.state = .consumed ↔ r.consumedAt.isSome) ∧
      (r.state = .consumed → ∃ t userId, winners c.log r.id = [(t, userId)] ∧
        r.consumedUserId = some userId) ∧
      (r.state = .failed → maxFailuresBeforeLock ≤ r.failureCount) ∧
      (r.state = .issued → r.failureCount < maxFailuresBeforeLock)) ∧
    -- only an issued session moves, and no session goes away
    ∀ c', (system cfg pg).Later (fun _ _ => True) c c' → ∀ r ∈ c.world.sessions,
      (∃ r' ∈ c'.world.sessions, r'.id = r.id) ∧
      ∀ r' ∈ c'.world.sessions, r'.id = r.id → r'.state = r.state ∨ r.state = .issued := by
  have hok := sessionsOk_of_reach h
  refine ⟨fun t t' input input' res res' hend hend' hsame => ?_, fun t input res hend => ?_,
    fun r hr => ?_, fun c' hl r hr => ?_⟩
  · obtain ⟨s, userId, hs, hwin, -⟩ := winner_of_returned h hend
    obtain ⟨s', userId', hs', hwin', -⟩ := winner_of_returned h hend'
    obtain rfl : s = s' := Option.some.inj (hs.symm.trans (hsame.trans hs'))
    obtain ⟨r, -, -, -, hws, -⟩ := row_of_winner h hwin
    rw [hws] at hwin'
    cases List.mem_singleton.mp hwin'
    rfl
  · obtain ⟨s, userId, hs, hwin, hres⟩ := winner_of_returned h hend
    obtain ⟨r, hr, rfl, hstate, -, huser⟩ := row_of_winner h hwin
    exact ⟨r, hr, hs, hstate, huser.trans hres.symm⟩
  · have hrow := hok.rows r hr
    exact ⟨hrow.consumed_iff.1, hrow.consumed_iff.2, hrow.winner, hrow.failures.1,
      hrow.failures.2⟩
  · obtain ⟨r₁, hr₁, hid, -, hstate⟩ := row_of_later hl hr
    refine ⟨⟨r₁, hr₁, hid⟩, fun r' hr' hid' => ?_⟩
    obtain rfl := (sessionsOk_of_reach (h.later hl)).unique hr' hr₁ (hid'.trans hid.symm)
    exact hstate

/-! ## A session and a user -/

def tenantText : JsString := js "6ba7b810-9dad-11d1-80b4-00c04fd430c8"

def jsonb : Jsonb := ⟨id, Json.Same.refl, Json.print⟩

/-- The second public signal: the hash of the DID hash 1 and the nonce 2. -/
def didHashSession : JsString :=
  js "7853200120776062878684798364095072458815029376092732009249414926327459813530"

def settings : Settings :=
  ⟨js "zeroauth.dev", none, true, fun _ _ => (bigIntOf didHashSession).getD 0⟩

def enrolled : TenantUser :=
  { id := .ofNat 2
    tenantId := .ofNat 0x6ba7b8109dad11d180b400c04fd430c8
    environment := js "live"
    externalId := js "user_1"
    fullName := js "Asha"
    email := none
    phone := none
    employeeCode := none
    status := js "active"
    primaryDeviceId := none
    did := none
    commitment := none
    metadata := .obj [(js "did", .str (js "did:zeroauth:face:00")), (js "did_hash", .str (js "1")),
      (js "commitment", .str (js "5"))]
    lastVerifiedAt := none
    createdAt := 0
    updatedAt := 0 }

def initial : World := ⟨[], [enrolled], [], [], [], 1000⟩

theorem empty_initial : Empty initial := rfl

def sessionUuid : Uuid := .ofNat 1

/-- One call of `createSession`, to its end: the nonce is 2, the cookie is that of
    32 zero bytes. -/
def opening : List (Label Call Oracle Env) :=
  .start (.create ⟨tenantText, js "live", none, none, none⟩) ::
    ([{}, { uuid := sessionUuid }, { bytes := List.replicate 30 0 ++ [2] },
      { bytes := List.replicate 32 0 }, {}, {}, {}] : List Oracle).map (.resume 0)

def bindCookie : JsString := base64url (List.replicate 32 0)

/-- A submit that passes every check when it presents the cookie. -/
def submitWith (cookie : Option JsString) : SubmitInput :=
  { sessionId := sessionUuid.text
    tenantId := tenantText
    environment := js "live"
    did := js "did:zeroauth:face:00"
    proof := .obj []
    publicSignals := .arr [.str (js "5"), .str didHashSession, .str (js "0")]
    clientMeta := .obj []
    presentedSessionBindToken := cookie }

def secondUuid : Uuid := .ofNat 3

/-- A second session, opened by call 1 with the nonce 3. -/
def secondOpening : List (Label Call Oracle Env) :=
  .start (.create ⟨tenantText, js "live", none, none, none⟩) ::
    ([{}, { uuid := secondUuid }, { bytes := List.replicate 30 0 ++ [3] },
      { bytes := List.replicate 32 0 }, {}, {}, {}] : List Oracle).map (.resume 1)

/-- The submit on the second session. -/
def secondSubmit (signal : JsString) : SubmitInput :=
  { submitWith (some bindCookie) with
    sessionId := secondUuid.text
    publicSignals := .arr [.str (js "5"), .str signal, .str (js "0")] }

/-- Submits on the session of `opening`, numbered from 1, whose operations are
    answered in the order `turns`. -/
def submits (cookies : List (Option JsString)) (turns : List ℕ) :
    List (Label Call Oracle Env) :=
  opening ++ cookies.map (fun cookie => .start (.submit (submitWith cookie))) ++
    turns.map fun t => .resume t {}

/-- Both submits are at their claim when the first one makes it. -/
def race : List ℕ := List.replicate 7 1 ++ List.replicate 7 2 ++ List.replicate 8 1 ++
  List.replicate 5 2

/-- Two submits in a race: one returns, the other loses, and the row names the
    user of the first. -/
theorem single_use_of_two : ∃ c input res, (system settings jsonb).run (.init initial)
      (submits [some bindCookie, some bindCookie] race) = some c ∧
    Ended c 1 input (.ok res) ∧ thrown c 2 .sessionAlreadyBound = true ∧
    ∃ r ∈ c.world.sessions, Uuid.parse input.sessionId = some r.id ∧ r.state = .consumed ∧
      r.consumedUserId = res.session.userId := by
  have hrun : (((system settings jsonb).run (.init initial)
      (submits [some bindCookie, some bindCookie] race)).map fun c =>
      decide (returned c 1 = true ∧ thrown c 2 .sessionAlreadyBound = true)) = some true := by
    decide +kernel
  obtain ⟨c, hc, hends⟩ := Option.map_eq_some_iff.mp hrun
  obtain ⟨hreturned, hthrown⟩ := of_decide_eq_true hends
  obtain ⟨input, res, hend⟩ := ended_of_returned hreturned
  have hreach : (system settings jsonb).Reach Empty (fun _ _ => True) c :=
    System.Reach.run (.init empty_initial) (System.keeps_of_forall fun _ _ _ => trivial) hc
  exact ⟨c, input, res, hc, hend, hthrown, (single_use hreach).2.1 1 input res hend⟩

end ZeroAuth.Pairing
