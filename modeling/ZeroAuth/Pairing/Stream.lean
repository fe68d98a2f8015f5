/-
  ZeroAuth.Pairing.Stream

  `subscribeStream` of src/services/proof-pairing.ts, the event source of the desktop: the
  state of the row as the stream opens, then one poll after the other until an event ends it.

  The stream goes on beside the calls of the service.  `Around` says what it meets: the
  configuration in which each load of the row is made, the loads that fail, and what the
  clock reads.  `stream_truthful` says when the stream ends with the truth about the row.
-/

import ZeroAuth.Pairing.Calls
import ZeroAuth.Pairing.Invariant
import ZeroAuth.Pairing.SingleUse

namespace ZeroAuth.Pairing

open ZeroAuth.Lib ZeroAuth.Js ZeroAuth.Pg Prog

def streamMaxLifetimeMs : ℕ := sessionTtlMs + 30000

structure StreamInput where
  sessionId : JsString
  tenantId : JsString
  environment : JsString
  presentedSessionBindToken : Option JsString

/-! ## What the stream meets -/

/-- The calls of the routes and of the sweep; a count is only made within a submit. -/
def ServiceCalls (_ : State) : Label Call Oracle Env → Prop
  | .start (.increment _ _) => False
  | _ => True

structure Around (cfg : Settings) (pg : Jsonb) where
  /-- The service as the row is loaded: 0 for the cookie check, then one load for each poll. -/
  config : ℕ → State
  reach : (system cfg pg).Reach Empty ServiceCalls (config 0)
  later : ∀ k, (system cfg pg).Later ServiceCalls (config k) (config (k + 1))
  /-- The error with which a load fails. -/
  failure : ℕ → Option JsString
  /-- `Date.now()` after the load: for the deadline at 0, for the expiry of the row in a poll. -/
  now : ℕ → ℕ
  /-- `Date.now()` in the test of the loop that comes next. -/
  tested : ℕ → ℕ
  now_le_tested : ∀ k, now k ≤ tested k
  /-- The next load comes after a `setTimeout` of 500 ms; how exact the timer is does not matter. -/
  waits : ∀ k, tested k < (config (k + 1)).world.clock
  loads : ∀ k, (config k).world.clock ≤ now k

/-! ## The stream -/

def World.loadSessionRow (w : World) (input : StreamInput) (failure : Option JsString) :
    Except Failure (Option SessionRow) :=
  match failure with
  | some message => .error (.other message)
  | none => (withUuid input.sessionId w fun id => withUuid input.tenantId w fun u =>
      (.ok (w.sessions.find? fun r => r.id = id ∧ r.tenantId = u ∧
        r.environment = input.environment), w)).1

/-- The statement is the one of `submitProof`. -/
theorem exec_selectSession (pg : Jsonb) (input : StreamInput) (ω : Oracle) (w : World) :
    exec pg (.selectSession input.sessionId input.tenantId input.environment) ω w =
      some (w.loadSessionRow input ω.failure, w) := by
  cases hω : ω.failure with
  | some message =>
      simp only [exec, statement, World.loadSessionRow, hω]
      rfl
  | none =>
      simp only [exec, statement, World.loadSessionRow, hω, withUuid]
      cases Uuid.parse input.sessionId with
      | none => rfl
      | some id =>
          cases Uuid.parse input.tenantId with
          | none => rfl
          | some u => rfl

/-- The cookie check, the same as in `getSession`. -/
def checkCookie (presentedSessionBindToken : Option JsString) (row : SessionRow) : Except Failure Unit :=
  match presentedSessionBindToken with
  | none | some [] => .error (.pairing .sessionBindMismatch (js "cookie absent"))
  | some token =>
      if bindTokenMatches token row.sessionBindTokenHash = true then .ok ()
      else .error PairingError.sessionBindMismatch.thrown

variable {cfg : Settings} {pg : Jsonb} (around : Around cfg pg) (input : StreamInput)

/-- Load `k` of the row. -/
def Around.loadSessionRow (k : ℕ) : Except Failure (Option SessionRow) :=
  (around.config k).world.loadSessionRow input (around.failure k)

/-- `loadSessionRow(..).catch(() => null)`, and what the poll makes of it. -/
def Around.poll (k : ℕ) : Option StreamEvent :=
  pollEvent (match around.loadSessionRow input k with
    | .ok next => next
    | .error _ => none) (around.now k)

/-- The loop after `k` polls. An event is given with the number of polls before it; `none` stands for
    a loop that has not ended after `fuel` turns. -/
def pollLoop (deadline : ℕ) (fuel k : ℕ) : Option (List (ℕ × StreamEvent)) :=
  if around.tested k < deadline then
    match fuel with
    | 0 => none
    | fuel + 1 =>
        match around.poll input (k + 1) with
        | some event => some [(k + 1, event)]
        | none => pollLoop deadline fuel (k + 1)
  else some []

def subscribeStream : Except Failure (Option (List (ℕ × StreamEvent))) := do
  match ← around.loadSessionRow input 0 with
  | none => throw PairingError.sessionNotFound.thrown
  | some row =>
      checkCookie input.presentedSessionBindToken row
      let created : ℕ × StreamEvent := (0, .sessionCreated (rowToPublicView row))
      if row.state ≠ .issued then
        let last : StreamEvent :=
          if row.state = .consumed then .sessionBound (rowToPublicView row)
          else .sessionExpired (rowToPublicView row)
        return some [created, (0, last)]
      else
        let deadline := around.now 0 + streamMaxLifetimeMs
        return (pollLoop around input deadline streamMaxLifetimeMs 0).map (created :: ·)

/-! ## The truth about a row -/

/-- The last event says what the row is at time `now`, and does not deny it. -/
structure Tells (row : SessionRow) (now : ℕ) (event : StreamEvent) : Prop where
  bound : (∃ view, event = .sessionBound view) ↔ row.state = .consumed
  expired : (∃ view, event = .sessionExpired view) ↔
    row.state = .expired ∨ row.state = .issued ∧ row.expiresAt ≤ now
  error : ∀ error, event = .sessionError error ↔
    row.state = .failed ∧ row.lastErrorCode = some error
  found : event ≠ .sessionError PairingError.sessionNotFound.code

/-- `session_created`, then one event that tells the truth about the row as it stands at the last load. -/
def EndsWithTruth : Prop :=
  ∃ opened k row event, around.loadSessionRow input 0 = .ok (some opened) ∧
    subscribeStream around input =
      .ok (some [(0, .sessionCreated (rowToPublicView opened)), (k, event)]) ∧
    (around.config k).world.loadSessionRow input none = .ok (some row) ∧
    Tells row (around.now k) event

/-- Nothing more is to be waited for. -/
def SessionRow.Over (row : SessionRow) (now : ℕ) : Prop :=
  row.state ≠ .issued ∨ row.expiresAt ≤ now

/-- The row has been consumed or expired as the stream opens; or it is open, and a poll that is made before
    the deadline finds it over, no load up to that one having failed. -/
def SeesTheEnd (opened : SessionRow) : Prop :=
  opened.state = .consumed ∨ opened.state = .expired ∨
    opened.state = .issued ∧ ∃ k, around.tested k < around.now 0 + streamMaxLifetimeMs ∧
      (∀ j ≤ k, around.failure (j + 1) = none) ∧
      ∃ row, (around.config (k + 1)).world.loadSessionRow input none = .ok (some row) ∧
        row.Over (around.now (k + 1))

/-! ## The loop -/

section Loop

variable {around} {input}

theorem Around.tested_lt (k : ℕ) : around.tested k < around.tested (k + 1) :=
  calc around.tested k < (around.config (k + 1)).world.clock := around.waits k
    _ ≤ around.now (k + 1) := around.loads (k + 1)
    _ ≤ around.tested (k + 1) := around.now_le_tested (k + 1)

theorem Around.tested_mono {j k : ℕ} (h : j ≤ k) : around.tested j ≤ around.tested k :=
  monotone_nat_of_le_succ (fun n => (around.tested_lt n).le) h

/-- The polls of the loop after `k` polls go on until the deadline has passed or one of them has an event,
    and they come to that. -/
theorem pollLoop_cases {deadline fuel k : ℕ} (hfuel : deadline ≤ around.tested k + fuel) :
    ∃ m, k ≤ m ∧ (∀ j, k ≤ j → j < m → around.tested j < deadline ∧ around.poll input (j + 1) = none) ∧
      (deadline ≤ around.tested m ∧ pollLoop around input deadline fuel k = some [] ∨
        around.tested m < deadline ∧ ∃ event, around.poll input (m + 1) = some event ∧
          pollLoop around input deadline fuel k = some [(m + 1, event)]) := by
  induction fuel generalizing k with
  | zero =>
      have hdeadline : ¬ around.tested k < deadline := by omega
      refine ⟨k, le_rfl, fun j hj hjk => by omega, .inl ⟨by omega, ?_⟩⟩
      rw [pollLoop, if_neg hdeadline]
  | succ fuel ih =>
      by_cases hdeadline : around.tested k < deadline
      · cases hpoll : around.poll input (k + 1) with
        | some event =>
            refine ⟨k, le_rfl, fun j hj hjk => by omega, .inr ⟨hdeadline, event, hpoll, ?_⟩⟩
            rw [pollLoop, if_pos hdeadline]
            simp only [hpoll]
        | none =>
            have hlater := around.tested_lt k
            obtain ⟨m, hkm, hnone, hend⟩ := ih (k := k + 1) (by omega)
            have hturn : pollLoop around input deadline (fuel + 1) k =
                pollLoop around input deadline fuel (k + 1) := by
              rw [pollLoop, if_pos hdeadline]
              simp only [hpoll]
            refine ⟨m, by omega, fun j hj hjm => ?_, by rwa [hturn]⟩
            by_cases hjk : j = k
            · subst hjk
              exact ⟨hdeadline, hpoll⟩
            · exact hnone j (by omega) hjm
      · refine ⟨k, le_rfl, fun j hj hjk => by omega, .inl ⟨by omega, ?_⟩⟩
        rw [pollLoop, if_neg hdeadline]

theorem Around.poll_of_failure {k : ℕ} {message : JsString} (h : around.failure k = some message) :
    around.poll input k = some (.sessionError PairingError.sessionNotFound.code) := by
  simp only [Around.poll, Around.loadSessionRow, World.loadSessionRow, h]
  rfl

theorem Around.poll_of_row {k : ℕ} (h : around.failure k = none) {row : SessionRow}
    (hrow : (around.config k).world.loadSessionRow input none = .ok (some row)) :
    around.poll input k = pollEvent (some row) (around.now k) := by
  simp only [Around.poll, Around.loadSessionRow, h, hrow]

end Loop

/-! ## The rows of the service -/

/-- A failed row says why, and no row says that it does not exist. -/
def RowCoded (r : SessionRow) : Prop :=
  (r.state = .failed → r.lastErrorCode.isSome) ∧
    r.lastErrorCode ≠ some PairingError.sessionNotFound.code

/-- A count of a failure names another error than the missing session. -/
def Op.NamesFailure (o : Op) : Prop :=
  ∀ sessionId errorCode, o = .incrementFailure sessionId errorCode →
    errorCode ≠ PairingError.sessionNotFound.code

theorem namesFailure_of_kind {o : Op} (h : o.kind ≠ .increment) : o.NamesFailure := by
  rintro sessionId errorCode rfl
  exact absurd rfl h

theorem Op.Within.namesFailure {sessionId : JsString} {ks : List OpKind} {o : Op}
    (h : o.Within sessionId ks) (hk : .increment ∉ ks) : o.NamesFailure :=
  namesFailure_of_kind (h.kind_ne hk)

theorem code_ne_of_ne {error : PairingError} (h : error ≠ .sessionNotFound) :
    error.code ≠ PairingError.sessionNotFound.code := by
  cases error with
  | sessionNotFound => exact absurd rfl h
  | _ => decide

theorem evaluateVerdict_error {presented : Option Json} {policy : Json} {error : PairingError}
    {message : JsString} (h : evaluateVerdict presented policy = some (error, message)) :
    error ≠ .sessionNotFound := by
  rintro rfl
  unfold evaluateVerdict at h
  dsimp only at h
  -- every branch that answers an error names one of the two classes
  split_ifs at h
  all_goals cases h

theorem counted?_error {failure : Failure} {error : PairingError} (h : failure.counted? = some error) :
    error ≠ .sessionNotFound := by
  rintro rfl
  cases failure with
  | other message => cases h
  | pairing error message =>
      simp only [Failure.counted?, Option.ite_none_right_eq_some, Option.some.injEq] at h
      obtain ⟨hcounted, rfl⟩ := h
      cases hcounted

theorem only_namesFailure_increment (sessionId : JsString) {error : PairingError}
    (h : error ≠ .sessionNotFound) :
    Only Op.NamesFailure (incrementFailureCount sessionId error.code) := by
  refine Only.bind (only_perform ?_) fun _ => trivial
  intro sessionId' errorCode heq
  cases heq
  exact code_ne_of_ne h

section Codes

variable {cfg : Settings} {input : SubmitInput}

theorem only_namesFailure_checkPlayIntegrity : Only Op.NamesFailure (checkPlayIntegrity input) := by
  have hpolicy : Only Op.NamesFailure (loadTenantSecurityPolicy input.tenantId) := by
    refine Only.tryCatch (Only.bind (only_perform ?_) fun _ => trivial) fun _ => trivial
    exact namesFailure_of_kind (by simp [Op.kind])
  refine Only.bind hpolicy fun policy => ?_
  split
  · trivial
  next error message hverdict =>
    refine Only.bind (only_ignoreFailure ?_) fun _ => ?_
    · exact Only.bind (only_namesFailure_increment _ (evaluateVerdict_error hverdict)) fun _ => trivial
    · refine Only.bind ?_ fun _ => trivial
      have hrecord : ∀ {status summary : JsString} {metadata : JsVal},
          Only (Op.Within input.sessionId [.plain])
            (input.record (js "pairing.integrity_rejected") status summary metadata) :=
        only_record (by decide) (by decide)
      exact hrecord.mono fun _ ho => ho.namesFailure (by decide)

theorem only_namesFailure_runChecks (correlationId : Uuid) :
    Only Op.NamesFailure (runChecks cfg input correlationId) := by
  refine Only.bind (only_loadOpenSession.mono fun _ ho => ho.namesFailure (by decide)) fun row => ?_
  refine Only.bind only_namesFailure_checkPlayIntegrity fun _ => ?_
  refine Only.bind ((only_checkBindToken row).mono fun _ ho => ho.namesFailure (by decide)) fun _ => ?_
  refine Only.bind (only_checkUser.mono fun _ ho => ho.namesFailure (by decide)) fun user => ?_
  refine Only.bind ((only_checkNonce row _ _).mono fun _ ho => ho.namesFailure (by decide)) fun _ => ?_
  exact Only.bind ((only_checkProof correlationId).mono fun _ ho => ho.namesFailure (by decide))
    fun _ => trivial

theorem only_namesFailure_submitCatch (correlationId : Uuid) (start : ℕ) (failure : Failure) :
    Only Op.NamesFailure (submitCatch input correlationId start failure) := by
  have hplain : Only (Op.Within input.sessionId [.plain]) (padToFloor start) :=
    only_padToFloor start (by decide)
  have hpad : Only Op.NamesFailure (padToFloor start) :=
    hplain.mono fun _ ho => ho.namesFailure (by decide)
  unfold submitCatch
  split
  next error hcounted =>
    refine Only.bind ?_ fun _ => Only.bind hpad fun _ => trivial
    refine Only.bind ?_ fun count => only_perform (namesFailure_of_kind (by simp [Op.kind]))
    refine Only.tryCatch (Only.bind ?_ fun _ => trivial) fun _ => trivial
    exact only_namesFailure_increment _ (counted?_error hcounted)
  next => exact Only.bind hpad fun _ => trivial

theorem only_namesFailure_submitProof : Only Op.NamesFailure (submitProof cfg input) := by
  refine Only.bind (only_perform (namesFailure_of_kind (by simp [Op.kind]))) fun start => ?_
  refine Only.bind (only_perform (namesFailure_of_kind (by simp [Op.kind]))) fun correlationId => ?_
  refine Only.tryCatch ?_ fun failure => only_namesFailure_submitCatch correlationId start failure
  refine Only.bind (only_namesFailure_runChecks correlationId) fun user => ?_
  refine Only.bind ((only_claimSession user).mono fun _ ho => ho.namesFailure (by decide)) fun row => ?_
  exact (only_mintTokens user correlationId start row).mono fun _ ho => ho.namesFailure (by decide)

/-- Every call of the service counts failures under their own names. -/
theorem only_namesFailure_code {a : Call} (h : ∀ sessionId errorCode, a ≠ .increment sessionId errorCode) :
    Only Op.NamesFailure (code cfg a) := by
  cases a with
  | create input =>
      refine Only.bind (only_createSession.mono fun o ho => namesFailure_of_kind ?_) fun _ => trivial
      intro heq
      rw [heq] at ho
      exact absurd ho (by decide)
  | submit input => exact Only.bind only_namesFailure_submitProof fun _ => trivial
  | increment sessionId errorCode => exact absurd rfl (h sessionId errorCode)
  | expire =>
      refine Only.bind (Only.bind ?_ fun rows => ?_) fun _ => trivial
      · exact only_perform (namesFailure_of_kind (by simp [Op.kind]))
      · refine Only.bind ((only_spawnExpired rows).mono fun o ho => namesFailure_of_kind ?_) fun _ => trivial
        rw [ho]
        decide

end Codes

section Rows

variable {cfg : Settings} {pg : Jsonb}

/-- An UPDATE keeps the rows coded when its SET clause does. -/
theorem coded_update {w : World} {p : SessionRow → Bool} {f : SessionRow → SessionRow}
    (hrows : ∀ r ∈ w.sessions, RowCoded r) (hf : ∀ r, RowCoded r → p r = true → RowCoded (f r)) :
    ∀ r ∈ (w.update p f).sessions, RowCoded r := by
  intro r' hr'
  obtain ⟨r, hr, rfl⟩ := mem_update.mp hr'
  split
  next hp => exact hf r (hrows r hr) hp
  next => exact hrows r hr

theorem coded_exec {o : Op} {ω : Oracle} {w w' : World} {r : Except Failure o.Resp}
    (h : exec pg o ω w = some (r, w')) (hcoded : o.NamesFailure) (hrows : ∀ r ∈ w.sessions, RowCoded r) :
    ∀ r ∈ w'.sessions, RowCoded r := by
  cases r with
  -- an error leaves the rows as they are
  | error e =>
      rw [(exec_error h).1]
      exact hrows
  | ok a =>
      cases o with
      | now | uuidv4 | spawn | sleep =>
          cases h
          exact hrows
      | randomBytes n =>
          simp only [exec] at h
          split at h <;> cases h
          exact hrows
      | insertSession v =>
          obtain ⟨tenantId, apiKeyId, -, rfl⟩ := insertSession_ok (statement_ok h)
          intro r hr
          rcases List.mem_append.mp hr with hr | hr
          · exact hrows r hr
          · obtain rfl := List.mem_singleton.mp hr
            exact ⟨fun hfailed => (by cases hfailed), fun hcode => by cases hcode⟩
      | incrementFailure text errorCode =>
          obtain ⟨id, -, hrun⟩ := withUuid_ok (statement_ok h)
          rw [incrementFailure_ok hrun]
          -- a counted failure leaves the code with the state that it belongs to
          refine coded_update hrows fun r _ _ => ⟨fun _ => rfl, fun heq => ?_⟩
          exact hcoded text errorCode rfl (Option.some.inj heq)
      | claim text user =>
          obtain ⟨id, -, hrun⟩ := withUuid_ok (statement_ok h)
          obtain ⟨-, rfl, -⟩ | ⟨r, -, -, -, rfl⟩ := claim_ok hrun
          · exact hrows
          · exact coded_update hrows fun r hr _ => ⟨fun hfailed => (by cases hfailed), hr.2⟩
      | expireOverdue =>
          cases statement_ok h
          refine coded_update hrows fun r _ _ => ⟨fun hfailed => (by cases hfailed), fun heq => ?_⟩
          exact absurd (Option.some.inj heq) (by decide)
      | selectSession =>
          rw [(selectSession_ok h).1]
          exact hrows
      | countOpen | selectSessionId | selectPolicy | selectUser =>
          obtain ⟨u, -, hrun⟩ := withUuid_ok (statement_ok h)
          cases hrun
          exact hrows
      | fetchVerifier | groth16Verify | issueTokens | appendAudit | answer =>
          cases statement_ok h
          exact hrows

theorem coded_env {ev : Env} {w w' : World} (h : env ev w = some w')
    (hrows : ∀ r ∈ w.sessions, RowCoded r) : ∀ r ∈ w'.sessions, RowCoded r := by
  cases ev with
  | tick | enrol | setPolicy =>
      cases h
      exact hrows
  | job i succeeds =>
      obtain ⟨job, -, rfl⟩ := Option.map_eq_some_iff.mp h
      cases succeeds with
      | false => exact hrows
      | true =>
          cases job with
          | audit payload => exact hrows
          | setProofHash sessionId x =>
              simp only [World.runJob, if_true]
              split
              · exact coded_update hrows fun r hr _ => hr
              · exact hrows

/-- In the runs of the service every row is coded. -/
theorem coded_of_reach {c : State} (h : (system cfg pg).Reach Empty ServiceCalls c) :
    ∀ r ∈ c.world.sessions, RowCoded r := by
  have hall : (∀ th ∈ c.threads, ∀ sessionId errorCode, th.call ≠ .increment sessionId errorCode) ∧
      ∀ r ∈ c.world.sessions, RowCoded r := by
    refine h.invariant (I := fun c => (∀ th ∈ c.threads, ∀ sessionId errorCode,
      th.call ≠ .increment sessionId errorCode) ∧ ∀ r ∈ c.world.sessions, RowCoded r) ?_ ?_ ?_ ?_
    · intro w hw
      have hw : w.sessions = [] := hw
      refine ⟨fun th hth => (nomatch hth), fun r hr => ?_⟩
      have hr : r ∈ w.sessions := hr
      rw [hw] at hr
      cases hr
    · rintro c a - ⟨hcalls, hrows⟩ hgood
      refine ⟨fun th hth => ?_, hrows⟩
      rcases List.mem_append.mp hth with hth | hth
      · exact hcalls th hth
      · obtain rfl := List.mem_singleton.mp hth
        rintro sessionId errorCode rfl
        exact hgood
    · rintro c t ω a past o k r w hreach ⟨hcalls, hrows⟩ - hth hx
      have ha := hcalls _ (List.mem_of_getElem? hth)
      refine ⟨fun th hth' => ?_, ?_⟩
      · rcases List.mem_or_eq_of_mem_set hth' with hth' | rfl
        · exact hcalls th hth'
        · exact ha
      · exact coded_exec hx (hreach.before hth (only_namesFailure_code ha)) hrows
    · rintro c e w - ⟨hcalls, hrows⟩ - hw
      exact ⟨hcalls, coded_env hw hrows⟩
  exact hall.2

/-! ## The row stays -/

theorem RowStep.scope_eq {now : ℕ} {r r' : SessionRow} (h : RowStep now r r') :
    r'.id = r.id ∧ r'.tenantId = r.tenantId ∧ r'.environment = r.environment := by
  cases h <;> exact ⟨rfl, rfl, rfl⟩

theorem scope_of_later {good : State → Label Call Oracle Env → Prop} {c c' : State}
    (h : (system cfg pg).Later good c c') {r : SessionRow} (hr : r ∈ c.world.sessions) :
    ∃ r' ∈ c'.world.sessions, r'.id = r.id ∧ r'.tenantId = r.tenantId ∧
      r'.environment = r.environment := by
  induction h with
  | refl => exact ⟨r, hr, rfl, rfl, rfl⟩
  | tail _ hn ih =>
      obtain ⟨r₁, hr₁, hid, htenant, henvironment⟩ := ih
      obtain ⟨r₂, hr₂, hstep⟩ := (rows_of_next hn).1.1 r₁ hr₁
      obtain ⟨hid₂, htenant₂, henvironment₂⟩ := hstep.scope_eq
      exact ⟨r₂, hr₂, hid₂.trans hid, htenant₂.trans htenant, henvironment₂.trans henvironment⟩

theorem loadSessionRow_eq_some {w : World} {input : StreamInput} {row : SessionRow}
    (h : w.loadSessionRow input none = .ok (some row)) :
    ∃ id u, Uuid.parse input.sessionId = some id ∧ Uuid.parse input.tenantId = some u ∧
      (w.sessions.find? fun r => r.id = id ∧ r.tenantId = u ∧
        r.environment = input.environment) = some row := by
  simp only [World.loadSessionRow, withUuid] at h
  cases hid : Uuid.parse input.sessionId with
  | none =>
      rw [hid] at h
      cases h
  | some id =>
      cases hu : Uuid.parse input.tenantId with
      | none =>
          rw [hid, hu] at h
          cases h
      | some u =>
          rw [hid, hu] at h
          exact ⟨id, u, rfl, rfl, Except.ok.inj h⟩

/-- A row that is there stays there. -/
theorem loadSessionRow_of_later {good : State → Label Call Oracle Env → Prop} {c c' : State}
    {input : StreamInput} {row : SessionRow} (h : c.world.loadSessionRow input none = .ok (some row))
    (hl : (system cfg pg).Later good c c') :
    ∃ row', c'.world.loadSessionRow input none = .ok (some row') := by
  obtain ⟨id, u, hid, hu, hfound⟩ := loadSessionRow_eq_some h
  have hscope := List.find?_some hfound
  obtain ⟨rfl, rfl, henvironment⟩ := of_decide_eq_true hscope
  obtain ⟨r', hr', hid', htenant', henvironment'⟩ := scope_of_later hl (List.mem_of_find?_eq_some hfound)
  have hsome : (c'.world.sessions.find? fun r => r.id = row.id ∧ r.tenantId = row.tenantId ∧
      r.environment = input.environment).isSome := by
    rw [List.find?_isSome]
    exact ⟨r', hr', by simp [hid', htenant', henvironment', henvironment]⟩
  obtain ⟨row', hrow'⟩ := Option.isSome_iff_exists.mp hsome
  refine ⟨row', ?_⟩
  simp only [World.loadSessionRow, withUuid, hid, hu, hrow']

end Rows

section Truth

variable {cfg : Settings} {pg : Jsonb} {around : Around cfg pg} {input : StreamInput} {opened : SessionRow}

theorem Around.reach_config (k : ℕ) : (system cfg pg).Reach Empty ServiceCalls (around.config k) := by
  induction k with
  | zero => exact around.reach
  | succ k ih => exact ih.later (around.later k)

theorem Around.coded {k : ℕ} {row : SessionRow}
    (h : (around.config k).world.loadSessionRow input none = .ok (some row)) : RowCoded row := by
  obtain ⟨id, u, -, -, hfound⟩ := loadSessionRow_eq_some h
  exact coded_of_reach (around.reach_config k) row (List.mem_of_find?_eq_some hfound)

/-- The load of the cookie check did not fail. -/
theorem Around.opened_row (h : around.loadSessionRow input 0 = .ok (some opened)) :
    (around.config 0).world.loadSessionRow input none = .ok (some opened) := by
  cases hfailure : around.failure 0 with
  | some message =>
      simp only [Around.loadSessionRow, World.loadSessionRow, hfailure] at h
      cases h
  | none => simpa only [Around.loadSessionRow, hfailure] using h

theorem Around.exists_row (h : around.loadSessionRow input 0 = .ok (some opened)) (k : ℕ) :
    ∃ row, (around.config k).world.loadSessionRow input none = .ok (some row) := by
  induction k with
  | zero => exact ⟨opened, around.opened_row h⟩
  | succ k ih =>
      obtain ⟨row, hrow⟩ := ih
      exact loadSessionRow_of_later hrow (around.later k)

/-! ## What a poll says -/

theorem pollEvent_isSome {row : SessionRow} {now : ℕ} :
    (pollEvent (some row) now).isSome ↔ row.Over now := by
  unfold pollEvent SessionRow.Over
  cases hstate : row.state with
  | issued =>
      simp only [hstate]
      by_cases hexpired : row.expiresAt ≤ now
      · simp [hexpired]
      · simp [hexpired]
  | _ => simp [hstate]

/-- The event of a poll that loads the row is the truth about it. -/
theorem tells_pollEvent {row : SessionRow} {now : ℕ} {event : StreamEvent} (hcoded : RowCoded row)
    (h : pollEvent (some row) now = some event) : Tells row now event := by
  unfold pollEvent at h
  cases hstate : row.state with
  | consumed =>
      simp only [hstate] at h
      cases h
      exact ⟨by simp [hstate], by simp [hstate], by simp [hstate], by simp⟩
  | expired =>
      simp only [hstate] at h
      cases h
      exact ⟨by simp [hstate], by simp [hstate], by simp [hstate], by simp⟩
  | failed =>
      simp only [hstate] at h
      cases h
      obtain ⟨error, herror⟩ := Option.isSome_iff_exists.mp (hcoded.1 hstate)
      have hne := hcoded.2
      rw [herror] at hne
      refine ⟨by simp [hstate], by simp [hstate], fun error' => ?_, ?_⟩
      · simp [hstate, herror]
      · intro heq
        rw [herror] at heq
        exact hne (congrArg some (StreamEvent.sessionError.inj heq))
  | issued =>
      simp only [hstate, Option.ite_none_right_eq_some, Option.some.injEq] at h
      obtain ⟨hexpired, rfl⟩ := h
      exact ⟨by simp [hstate], by simp [hstate, hexpired], by simp [hstate], by simp⟩

/-! ## The stream -/

theorem subscribeStream_over (hopened : around.loadSessionRow input 0 = .ok (some opened))
    (hcookie : checkCookie input.presentedSessionBindToken opened = .ok ())
    (hstate : opened.state ≠ .issued) : subscribeStream around input =
      .ok (some [(0, .sessionCreated (rowToPublicView opened)),
        (0, if opened.state = .consumed then .sessionBound (rowToPublicView opened)
          else .sessionExpired (rowToPublicView opened))]) := by
  unfold subscribeStream
  rw [hopened]
  show (checkCookie _ opened >>= _) = _
  rw [hcookie]
  show (if _ then _ else _) = _
  rw [if_pos hstate]
  rfl

theorem subscribeStream_issued (hopened : around.loadSessionRow input 0 = .ok (some opened))
    (hcookie : checkCookie input.presentedSessionBindToken opened = .ok ())
    (hstate : opened.state = .issued) : subscribeStream around input =
      .ok ((pollLoop around input (around.now 0 + streamMaxLifetimeMs) streamMaxLifetimeMs 0).map
        ((0, .sessionCreated (rowToPublicView opened)) :: ·)) := by
  unfold subscribeStream
  rw [hopened]
  show (checkCookie _ opened >>= _) = _
  rw [hcookie]
  show (if _ then _ else _) = _
  rw [if_neg (not_not.mpr hstate)]
  rfl

/-- A row that is over as the stream opens: a failed one is reported as expired. -/
theorem truthful_of_over (hopened : around.loadSessionRow input 0 = .ok (some opened))
    (hcookie : checkCookie input.presentedSessionBindToken opened = .ok ())
    (hstate : opened.state ≠ .issued) : EndsWithTruth around input ↔ opened.state ≠ .failed := by
  have hevents := subscribeStream_over hopened hcookie hstate
  have hrow := around.opened_row hopened
  constructor
  · rintro ⟨opened', k, row, event, -, hends, hrow', htells⟩ hfailed
    rw [hevents] at hends
    simp only [Except.ok.injEq, Option.some.injEq, List.cons.injEq, Prod.mk.injEq, and_true,
      true_and] at hends
    obtain ⟨-, rfl, hevent⟩ := hends
    rw [hrow] at hrow'
    obtain rfl := Option.some.inj (Except.ok.inj hrow')
    rw [hfailed, if_neg (by simp)] at hevent
    -- the event says expired, and the row has failed
    rcases htells.expired.mp ⟨_, hevent.symm⟩ with h | ⟨h, -⟩
    · rw [hfailed] at h
      cases h
    · exact hstate h
  · intro hfailed
    refine ⟨opened, 0, opened, _, hopened, hevents, hrow, ?_⟩
    cases hopen : opened.state with
    | issued => exact absurd hopen hstate
    | failed => exact absurd hopen hfailed
    | consumed => exact ⟨by simp [hopen], by simp [hopen], by simp [hopen], by simp⟩
    | expired => exact ⟨by simp [hopen], by simp [hopen], by simp [hopen], by simp⟩

/-- An open row: the loop tells the truth just when it sees the row over before a load fails and before the
    deadline. -/
theorem truthful_of_issued (hopened : around.loadSessionRow input 0 = .ok (some opened))
    (hcookie : checkCookie input.presentedSessionBindToken opened = .ok ())
    (hstate : opened.state = .issued) : EndsWithTruth around input ↔
      ∃ k, around.tested k < around.now 0 + streamMaxLifetimeMs ∧
        (∀ j ≤ k, around.failure (j + 1) = none) ∧
        ∃ row, (around.config (k + 1)).world.loadSessionRow input none = .ok (some row) ∧
          row.Over (around.now (k + 1)) := by
  have hevents := subscribeStream_issued hopened hcookie hstate
  have hstart := around.now_le_tested 0
  have hfuel : around.now 0 + streamMaxLifetimeMs ≤ around.tested 0 + streamMaxLifetimeMs := by omega
  obtain ⟨m, -, hnone, hend⟩ := @pollLoop_cases cfg pg around input _ _ _ hfuel
  constructor
  · rintro ⟨opened', k, row, event, -, hends, hrow, htells⟩
    rw [hevents] at hends
    rcases hend with ⟨-, hloop⟩ | ⟨hdeadline, event', hpoll, hloop⟩
    · rw [hloop] at hends
      simp at hends
    · rw [hloop] at hends
      simp only [Option.map_some, Except.ok.injEq, Option.some.injEq, List.cons.injEq, Prod.mk.injEq,
        and_true, true_and] at hends
      obtain ⟨-, rfl, rfl⟩ := hends
      have hloaded : ∀ j ≤ m, around.failure (j + 1) = none := by
        intro j hj
        cases hfailure : around.failure (j + 1) with
        | none => rfl
        | some message =>
            have hfailed : around.poll input (j + 1) = _ := around.poll_of_failure hfailure
            rcases Nat.lt_or_eq_of_le hj with hj | rfl
            · rw [(hnone j (Nat.zero_le j) hj).2] at hfailed
              cases hfailed
            · -- the last load: the event denies the row
              rw [hpoll] at hfailed
              exact absurd (Option.some.inj hfailed) htells.found
      refine ⟨m, hdeadline, hloaded, row, hrow, pollEvent_isSome.mp ?_⟩
      rw [← around.poll_of_row (hloaded m le_rfl) hrow, hpoll]
      rfl
  · rintro ⟨k, hdeadline, hloaded, row, hrow, hover⟩
    have hm : m ≤ k := by
      by_contra hlt
      have hquiet := (hnone k (Nat.zero_le k) (by omega)).2
      rw [around.poll_of_row (hloaded k le_rfl) hrow] at hquiet
      have hsome := pollEvent_isSome.mpr hover
      rw [hquiet] at hsome
      cases hsome
    rcases hend with ⟨hpassed, -⟩ | ⟨-, event, hpoll, hloop⟩
    · have hmono := around.tested_mono hm
      omega
    · obtain ⟨row', hrow'⟩ := around.exists_row hopened (m + 1)
      rw [hloop] at hevents
      refine ⟨opened, m + 1, row', event, hopened, hevents, hrow', ?_⟩
      rw [around.poll_of_row (hloaded m hm) hrow'] at hpoll
      exact tells_pollEvent (around.coded hrow') hpoll

/-- The stream of a subscriber with the right cookie ends with the truth if and only if it sees the end. -/
theorem stream_truthful (cfg : Settings) (pg : Jsonb) (around : Around cfg pg) (input : StreamInput)
    (opened : SessionRow) (hopened : around.loadSessionRow input 0 = .ok (some opened))
    (hcookie : checkCookie input.presentedSessionBindToken opened = .ok ()) :
    EndsWithTruth around input ↔ SeesTheEnd around input opened := by
  unfold SeesTheEnd
  by_cases hstate : opened.state = .issued
  · rw [truthful_of_issued hopened hcookie hstate]
    simp [hstate]
  · rw [truthful_of_over hopened hcookie hstate]
    cases hopen : opened.state with
    | issued => exact absurd hopen hstate
    | _ => simp

end Truth

/-! ## Two streams -/

/-- From the configuration `c` on only time passes, `ms` between two loads. -/
def idle {cfg : Settings} {pg : Jsonb} (c : State) (h : (system cfg pg).Reach Empty ServiceCalls c) (ms : ℕ)
    (hms : 0 < ms) : Around cfg pg where
  config k := { c with world := { c.world with clock := c.world.clock + k * ms } }
  reach := by
    rw [Nat.zero_mul]
    exact h
  later k := by
    refine .single ⟨.env (.tick ms), trivial, ?_⟩
    have hclock : c.world.clock + k * ms + ms = c.world.clock + (k + 1) * ms := by
      rw [Nat.succ_mul, Nat.add_assoc]
    show some _ = some _
    rw [← hclock]
  failure _ := none
  now k := c.world.clock + k * ms
  tested k := c.world.clock + k * ms
  now_le_tested _ := le_rfl
  waits k := by
    show c.world.clock + k * ms < c.world.clock + (k + 1) * ms
    rw [Nat.succ_mul]
    omega
  loads _ := le_rfl

theorem bindTokenMatches_self (token : JsString) : bindTokenMatches token (sha256Hex token) = true := by
  rw [bindTokenMatches, sha256Hex, bufferFromHex_hexBytes, Bool.and_eq_true]
  exact ⟨beq_self_eq_true _, beq_self_eq_true _⟩

/-- The desktop that opened the session of `opening`. -/
def desktop : StreamInput := ⟨sessionUuid.text, tenantText, js "live", some bindCookie⟩

/-- Its row as it has been opened. -/
def openedRow : SessionRow :=
  { id := sessionUuid
    tenantId := .ofNat 0x6ba7b8109dad11d180b400c04fd430c8
    environment := js "live"
    apiKeyId := none
    nonceHex := hexBytes (List.replicate 30 0 ++ [2])
    sessionBindTokenHash := sha256Hex bindCookie
    state := .issued
    consumedUserId := none
    proofHash := none
    lastErrorCode := none
    desktopIp := none
    desktopUserAgent := none
    failureCount := 0
    expiresAt := 1000 + sessionTtlMs
    consumedAt := none
    createdAt := 1000 }

/-- Its row after three submits without the cookie. -/
def lockedRow : SessionRow :=
  { openedRow with
    state := .failed
    lastErrorCode := some PairingError.sessionBindMismatch.code
    failureCount := 3 }

/-- A test for `ServiceCalls`. -/
def serviceCall (_ : State) : Label Call Oracle Env → Bool
  | .start (.increment _ _) => false
  | _ => true

theorem serviceCalls_of_test {c : State} {l : Label Call Oracle Env} (h : serviceCall c l = true) :
    ServiceCalls c l := by
  cases l with
  | start a =>
      cases a with
      | increment sessionId errorCode => cases h
      | create input => trivial
      | submit input => trivial
      | expire => trivial
  | resume t ω => trivial
  | env e => trivial

/-- A run of the service that leaves the row behind, and an idle service from there on. -/
theorem exists_idle {ls : List (Label Call Oracle Env)} {row : SessionRow}
    (hrun : ((system settings jsonb).runChecked serviceCall (.init initial) ls).map (fun c =>
      (c.world.loadSessionRow desktop none, c.world.clock)) = some (.ok (some row), 1000)) {ms : ℕ}
    (hms : 0 < ms) : ∃ around : Around settings jsonb, (∀ k, around.failure k = none) ∧
      (∀ k, (around.config k).world.loadSessionRow desktop none = .ok (some row)) ∧
      ∀ k, around.now k = 1000 + k * ms ∧ around.tested k = 1000 + k * ms := by
  obtain ⟨c, hc, hends⟩ := Option.map_eq_some_iff.mp hrun
  obtain ⟨hload, hclock⟩ := Prod.mk.inj hends
  have hreach : (system settings jsonb).Reach Empty ServiceCalls c :=
    System.Reach.runChecked (.init empty_initial) (fun _ _ h => serviceCalls_of_test h) hc
  refine ⟨idle c hreach ms hms, fun _ => rfl, fun _ => hload, fun k => ?_⟩
  rw [← hclock]
  exact ⟨rfl, rfl⟩

theorem checkCookie_openedRow : checkCookie desktop.presentedSessionBindToken openedRow = .ok () := by
  have hmatch : bindTokenMatches bindCookie openedRow.sessionBindTokenHash = true :=
    bindTokenMatches_self bindCookie
  have hne : ∃ u us, bindCookie = u :: us := ⟨_, _, rfl⟩
  obtain ⟨u, us, hcons⟩ := hne
  show checkCookie (some bindCookie) openedRow = .ok ()
  rw [hcons] at hmatch ⊢
  show (if bindTokenMatches (u :: us) _ = true then _ else _) = _
  rw [if_pos hmatch]

/-- Nobody scans the QR code: the stream reports the expiry at its first poll, five minutes later. -/
theorem stream_truthful_idle : ∃ around : Around settings jsonb,
    around.loadSessionRow desktop 0 = .ok (some openedRow) ∧ EndsWithTruth around desktop := by
  have hrun : ((system settings jsonb).runChecked serviceCall (.init initial) opening).map (fun c =>
      (c.world.loadSessionRow desktop none, c.world.clock)) = some (.ok (some openedRow), 1000) := by
    rfl
  obtain ⟨around, hfailure, hrow, hclock⟩ := exists_idle hrun (show 0 < sessionTtlMs by decide)
  have hopened : around.loadSessionRow desktop 0 = .ok (some openedRow) := by
    rw [Around.loadSessionRow, hfailure]
    exact hrow 0
  refine ⟨around, hopened, (stream_truthful settings jsonb around desktop openedRow hopened
    checkCookie_openedRow).mpr (.inr (.inr ⟨rfl, 0, ?_, fun j _ => hfailure (j + 1), openedRow, hrow 1, ?_⟩))⟩
  · rw [(hclock 0).1, (hclock 0).2]
    decide
  · refine .inr ?_
    rw [(hclock 1).1]
    decide

/-- Three wrong submits lock the session before the desktop subscribes: the stream says that it expired. -/
theorem locked_reported_expired : ¬ ∀ (cfg : Settings) (pg : Jsonb) (around : Around cfg pg)
    (input : StreamInput) (opened : SessionRow), around.loadSessionRow input 0 = .ok (some opened) →
    checkCookie input.presentedSessionBindToken opened = .ok () → EndsWithTruth around input := by
  intro h
  have hrun : ((system settings jsonb).runChecked serviceCall (.init initial)
      (submits [none, none, none] (List.replicate 9 1 ++ List.replicate 9 2 ++
        List.replicate 9 3))).map (fun c => (c.world.loadSessionRow desktop none, c.world.clock)) =
      some (.ok (some lockedRow), 1000) := by
    rfl
  obtain ⟨around, hfailure, hrow, -⟩ := exists_idle hrun Nat.one_pos
  have hopened : around.loadSessionRow desktop 0 = .ok (some lockedRow) := by
    rw [Around.loadSessionRow, hfailure]
    exact hrow 0
  have hlies := h settings jsonb around desktop lockedRow hopened checkCookie_openedRow
  exact (truthful_of_over hopened checkCookie_openedRow (by decide)).mp hlies rfl

end ZeroAuth.Pairing
