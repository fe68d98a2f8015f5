/-
  ZeroAuth.Pairing.Events

  Pairing logins and the live verifications view: every audit row that the pairing
  service writes has a `pairing.` action, and none of these is on the list that
  feeds the view.
-/

import ZeroAuth.Audit.VerificationEvents
import ZeroAuth.Pairing.SingleUse

namespace ZeroAuth.Pairing

open ZeroAuth.Lib ZeroAuth.Js ZeroAuth.Pg ZeroAuth.Audit Prog

/-- The audit row that an operation writes or leaves to be written. -/
def Op.auditRow? : Op → Option ChainedAuditPayload
  | .appendAudit payload => some payload
  | .spawn (.audit payload) => some payload
  | _ => none

/-- An operation that brings nothing into the view. -/
def Op.Quiet (o : Op) : Prop :=
  ∀ payload, o.auditRow? = some payload → isVerificationAction payload.action = false

/-! ## What the calls write -/

section Code

variable {cfg : Settings} {input : SubmitInput}

theorem quiet_of_none {o : Op} (h : o.auditRow? = none) : o.Quiet := by
  intro payload heq
  rw [h] at heq
  cases heq

theorem only_quiet {o : Op} (h : o.auditRow? = none) : Only Op.Quiet (await o) :=
  only_perform (quiet_of_none h)

theorem only_quiet_row {o : Op} {payload : ChainedAuditPayload}
    (h : o.auditRow? = some payload) (ha : isVerificationAction payload.action = false) :
    Only Op.Quiet (await o) := by
  apply only_perform
  intro payload' heq
  rw [h] at heq
  cases heq
  exact ha

theorem only_quiet_record {action status summary : JsString} {metadata : JsVal}
    (ha : isVerificationAction action = false) :
    Only Op.Quiet (input.record action status summary metadata) :=
  only_quiet_row rfl ha

theorem only_quiet_increment (sessionId errorCode : JsString) :
    Only Op.Quiet (incrementFailureCount sessionId errorCode) :=
  Only.bind (only_quiet rfl) fun _ => trivial

theorem only_quiet_createSession {input : CreateInput} :
    Only Op.Quiet (createSession cfg input) := by
  apply Only.bind (only_quiet rfl)
  intro (count : ℕ)
  by_cases hcap : count ≥ maxPendingSessionsPerTenant
  · simp only [hcap]
    trivial
  · simp only [hcap]
    apply Only.bind (only_quiet rfl)
    intro id
    apply Only.bind (only_quiet rfl)
    intro nonceBytes
    apply Only.bind (only_quiet rfl)
    intro bindBytes
    apply Only.bind (only_quiet rfl)
    intro now
    apply Only.bind (only_quiet rfl)
    intro _
    apply Only.bind (only_quiet_row rfl
      (show isVerificationAction (js "pairing.created") = false by decide))
    intro _
    trivial

theorem only_quiet_loadOpenSession : Only Op.Quiet (loadOpenSession input) := by
  have hmissing : Only Op.Quiet (missingSession input) := by
    apply Only.bind (only_quiet rfl)
    intro bareRow
    split
    · exact Only.bind (only_ignoreFailure (only_quiet_record (by decide))) fun _ => trivial
    · trivial
  have hopen : ∀ row, Only Op.Quiet (checkOpen row) := by
    intro row
    unfold checkOpen
    split
    · trivial
    · split
      · trivial
      · apply Only.bind (only_quiet rfl)
        intro now
        split <;> trivial
  apply Only.bind (only_quiet rfl)
  intro row
  cases row with
  | none => exact hmissing
  | some row => exact hopen row

theorem only_quiet_checkPlayIntegrity : Only Op.Quiet (checkPlayIntegrity input) := by
  have hpolicy : Only Op.Quiet (loadTenantSecurityPolicy input.tenantId) :=
    Only.tryCatch (Only.bind (only_quiet rfl) fun _ => trivial) fun _ => trivial
  apply Only.bind hpolicy
  intro policy
  split
  · trivial
  · next error message _ =>
      have hcount : Only Op.Quiet (do
          let _ ← incrementFailureCount input.sessionId error.code
          return () : Program Unit) :=
        Only.bind (only_quiet_increment _ _) fun _ => trivial
      exact Only.bind (only_ignoreFailure hcount) fun _ =>
        Only.bind (only_quiet_record (by decide)) fun _ => trivial

theorem only_quiet_checkBindToken (row : SessionRow) :
    Only Op.Quiet (checkBindToken input row) := by
  unfold checkBindToken
  split
  · trivial
  · trivial
  · split
    · trivial
    · exact Only.bind (only_ignoreFailure (only_quiet_record (by decide))) fun _ => trivial

theorem only_quiet_checkUser : Only Op.Quiet (checkUser input) := by
  have hfind : Only Op.Quiet (findUserByDid input.tenantId input.environment input.did) := by
    apply Only.bind (only_quiet rfl)
    intro row
    cases row with
    | none => trivial
    | some row =>
        obtain ⟨id, metadata⟩ := row
        simp only
        split <;> trivial
  apply Only.bind hfind
  intro user
  split
  · trivial
  · split
    · trivial
    · refine Only.bind only_ofExcept fun _ => Only.bind only_ofExcept fun _ => ?_
      split <;> trivial

theorem only_quiet_checkNonce (row : SessionRow) (user : StoredUserCommitment) (signal₁ : Json) :
    Only Op.Quiet (checkNonce cfg input row user signal₁) := by
  refine Only.bind only_ofExcept fun _ => Only.bind only_ofExcept fun _ =>
    Only.bind only_ofExcept fun _ => ?_
  split
  · trivial
  · exact Only.bind (only_ignoreFailure (only_quiet_record (by decide))) fun _ => trivial

theorem only_quiet_checkRow (correlationId : Uuid) (row : SessionRow) :
    Only Op.Quiet (checkRow cfg input correlationId row) := by
  -- the verifier is asked, and asking it writes no row
  have hproof : Only Op.Quiet (checkProof cfg input correlationId) := by
    apply (only_checkProof correlationId).mono
    intro o ho
    apply quiet_of_none
    have hkind := ho.1
    cases o <;> simp_all [Op.kind, Op.auditRow?]
    split at hkind <;> simp at hkind
  apply Only.bind only_quiet_checkPlayIntegrity
  intro _
  apply Only.bind (only_quiet_checkBindToken row)
  intro _
  apply Only.bind only_quiet_checkUser
  intro user
  apply Only.bind (only_quiet_checkNonce row _ _)
  intro _
  exact Only.bind hproof fun _ => trivial

theorem only_quiet_claimSession (user : StoredUserCommitment) :
    Only Op.Quiet (claimSession input user) := by
  apply Only.bind (only_quiet rfl)
  intro claimed
  apply Only.bind (only_quiet rfl)
  intro _
  split
  · trivial
  · exact Only.bind (only_ignoreFailure (only_quiet_record (by decide))) fun _ => trivial

theorem only_quiet_padToFloor (start : ℕ) : Only Op.Quiet (padToFloor start) := by
  apply Only.bind (only_quiet rfl)
  intro (now : ℕ)
  by_cases hfloor : now - start ≥ latencyFloorMs
  · simp only [hfloor]
    trivial
  · simp only [hfloor]
    exact only_quiet rfl

theorem only_quiet_mintTokens (user : StoredUserCommitment) (correlationId : Uuid) (start : ℕ)
    (row : SessionRow) : Only Op.Quiet (mintTokens input user correlationId start row) := by
  have hclaimed :
      isVerificationAction (input.claimedEvent user correlationId).action = false := by
    have haction : (input.claimedEvent user correlationId).action = js "pairing.claimed" := rfl
    rw [haction]
    decide
  apply Only.bind (only_quiet rfl)
  intro _
  apply Only.bind (only_quiet rfl)
  intro sessionUuid
  apply Only.bind (only_quiet rfl)
  intro tokens
  apply Only.bind (only_quiet_row rfl hclaimed)
  intro _
  exact Only.bind (only_quiet_padToFloor start) fun _ => trivial

theorem only_quiet_submitCatch (correlationId : Uuid) (start : ℕ) (failure : Failure) :
    Only Op.Quiet (submitCatch input correlationId start failure) := by
  have hend : ∀ e : Failure, Only Op.Quiet (do
      padToFloor start
      .raise e : Program SubmitResult) :=
    fun e => Only.bind (only_quiet_padToFloor start) fun _ => trivial
  unfold submitCatch
  split
  · next error _ =>
      have hcount : Only Op.Quiet (countFailure input correlationId error) := by
        refine Only.bind (Only.tryCatch ?_ fun _ => trivial) fun count => ?_
        · exact Only.bind (only_quiet_increment _ _) fun _ => trivial
        · exact only_quiet_row rfl (show isVerificationAction (js "pairing.failed") = false by decide)
      exact Only.bind hcount fun _ => hend failure
  · exact hend failure

theorem only_quiet_submitProof : Only Op.Quiet (submitProof cfg input) := by
  apply Only.bind (only_quiet rfl)
  intro start
  apply Only.bind (only_quiet rfl)
  intro correlationId
  apply Only.tryCatch
  · apply Only.bind
    · exact Only.bind only_quiet_loadOpenSession fun row => only_quiet_checkRow correlationId row
    · intro user
      apply Only.bind (only_quiet_claimSession user)
      intro row
      exact only_quiet_mintTokens user correlationId start row
  · exact only_quiet_submitCatch correlationId start

theorem only_quiet_spawnExpired (rows : List (Uuid × Uuid × JsString)) :
    Only Op.Quiet (spawnExpired rows) := by
  induction rows with
  | nil => trivial
  | cons row rows ih =>
      exact Only.bind (only_quiet_row rfl
        (show isVerificationAction (js "pairing.expired") = false by decide)) fun _ => ih

/-- No call of the service writes a row that the view is fed with. -/
theorem only_quiet_code (a : Call) : Only Op.Quiet (code cfg a) := by
  cases a with
  | create input => exact Only.bind only_quiet_createSession fun _ => trivial
  | submit input => exact Only.bind only_quiet_submitProof fun _ => trivial
  | increment sessionId errorCode =>
      exact Only.bind (only_quiet_increment sessionId errorCode) fun _ => trivial
  | expire =>
      refine Only.bind (Only.bind (only_quiet rfl) fun rows => ?_) fun _ => trivial
      exact Only.bind (only_quiet_spawnExpired rows) fun _ => trivial

end Code

/-! ## What a subscription is given -/

/-- The rows that a call has written or left to be written. -/
def auditRows (past : List (Act sig Failure)) : List ChainedAuditPayload :=
  past.filterMap fun x => x.op.auditRow?

/-- The row is in the audit log, or a job that nobody awaits will write it. -/
def Written (w : World) (payload : ChainedAuditPayload) : Prop :=
  payload ∈ w.audit ∨ .audit payload ∈ w.jobs

/-- Nothing has been written or is left to be written, and no session is open. -/
def Fresh (w : World) : Prop := Empty w ∧ w.audit = [] ∧ w.jobs = []

/-- The call was accepted, or one of its proof checks has failed: the bind token,
    the user and its commitment, the nonce, the proof. -/
def Decided : Except Failure SubmitResult → Prop
  | .ok _ => True
  | .error e => e.counted? ≠ none

/-- The event that the view is to show for a decided call. -/
def IsEventOf (out : Except Failure SubmitResult) (event : VerificationEventPayload) : Prop :=
  match out with
  | .ok _ => event.status = .success
  | .error e => event.status = .failure ∧ event.reason = e.counted?.map PairingError.code

/-- A subscription of `tenantId` that is open while the rows of call `t` are
    committed is given exactly one event by them, and it shows the outcome. -/
def ShowsOutcome (c : State) (tenantId : JsString) (t : ℕ)
    (out : Except Failure SubmitResult) : Prop :=
  ∀ th, c.threads[t]? = some th → ∀ rows : List CommittedRow,
    rows.map CommittedRow.payload = auditRows th.past →
    ∃ event, received tenantId rows = [event] ∧ IsEventOf out event

section Runs

variable {cfg : Settings} {pg : Jsonb} {good : State → Label Call Oracle Env → Prop} {c : State}

/-- The rows of every call are outside the list. -/
theorem quiet_auditRows (h : (system cfg pg).Reach Fresh good c) {t : ℕ}
    {th : Thread sig Failure Result Call} (hth : c.threads[t]? = some th) :
    ∀ payload ∈ auditRows th.past, isVerificationAction payload.action = false := by
  intro payload hpayload
  obtain ⟨x, hx, hrow⟩ := List.mem_filterMap.mp hpayload
  obtain ⟨pre, -, hquiet⟩ := h.before_of_mem hth (only_quiet_code th.call) hx
  exact hquiet payload hrow

/-- An operation adds no other row than its own. -/
theorem written_of_exec {o : Op} {ω : Oracle} {w w' : World} {r : Except Failure o.Resp}
    (hx : exec pg o ω w = some (r, w')) {payload : ChainedAuditPayload}
    (hw : Written w' payload) : Written w payload ∨ o.auditRow? = some payload := by
  cases r with
  | error e =>
      rw [(exec_error hx).1] at hw
      exact .inl hw
  | ok a =>
      cases o with
      | now | uuidv4 | sleep =>
          cases hx
          exact .inl hw
      -- a row may be written later by a job that is started here
      | spawn job =>
          cases hx
          rcases hw with hw | hw
          · exact .inl (.inl hw)
          · rcases List.mem_append.mp hw with hw | hw
            · exact .inl (.inr hw)
            · obtain rfl := List.mem_singleton.mp hw
              exact .inr rfl
      | randomBytes n =>
          simp only [exec] at hx
          split at hx <;> cases hx
          exact .inl hw
      | insertSession v =>
          obtain ⟨tenantId, apiKeyId, -, rfl⟩ := insertSession_ok (statement_ok hx)
          exact .inl hw
      | incrementFailure text code =>
          obtain ⟨id, -, hrun⟩ := withUuid_ok (statement_ok hx)
          have heq := incrementFailure_ok hrun
          rw [heq] at hw
          exact .inl hw
      | claim text user =>
          obtain ⟨id, -, hrun⟩ := withUuid_ok (statement_ok hx)
          obtain ⟨-, rfl, -⟩ | ⟨r, -, -, -, rfl⟩ := claim_ok hrun
          · exact .inl hw
          · exact .inl hw
      | selectSession =>
          rw [(selectSession_ok hx).1] at hw
          exact .inl hw
      | countOpen | selectSessionId | selectPolicy | selectUser =>
          obtain ⟨u, -, hrun⟩ := withUuid_ok (statement_ok hx)
          cases hrun
          exact .inl hw
      | appendAudit payload' =>
          cases statement_ok hx
          rcases hw with hw | hw
          · rcases List.mem_append.mp hw with hw | hw
            · exact .inl (.inl hw)
            · obtain rfl := List.mem_singleton.mp hw
              exact .inr rfl
          · exact .inl (.inr hw)
      | expireOverdue | fetchVerifier | groth16Verify | issueTokens | answer =>
          cases statement_ok hx
          exact .inl hw

/-- The environment only writes what waits. -/
theorem written_of_env {e : Env} {w w' : World} (he : env e w = some w')
    {payload : ChainedAuditPayload} (hw : Written w' payload) : Written w payload := by
  cases e with
  | tick ms =>
      cases he
      exact hw
  | enrol user =>
      cases he
      exact hw
  | setPolicy tenantId policy =>
      cases he
      exact hw
  | job i succeeds =>
      obtain ⟨job, hjob, rfl⟩ := Option.map_eq_some_iff.mp he
      have hmem : job ∈ w.jobs := List.mem_of_getElem? hjob
      -- the other jobs go on waiting
      have herase : ∀ j ∈ w.jobs.eraseIdx i, j ∈ w.jobs := fun j hj => List.mem_of_mem_eraseIdx hj
      rcases hw with hw | hw
      · cases succeeds with
        | false => exact .inl hw
        | true =>
            cases job with
            | audit payload' =>
                rcases List.mem_append.mp hw with hw | hw
                · exact .inl hw
                · obtain rfl := List.mem_singleton.mp hw
                  exact .inr hmem
            | setProofHash sessionId proofHash =>
                -- the job that stores a proof hash writes no row
                have haudit : (w.runJob (.setProofHash sessionId proofHash)).audit = w.audit := by
                  cases hid : Uuid.parse sessionId with
                  | none => simp only [World.runJob, hid]
                  | some id => simp only [World.runJob, hid, World.update]
                have hw : payload ∈ (w.runJob (.setProofHash sessionId proofHash)).audit := hw
                rw [haudit] at hw
                exact .inl hw
      · exact .inr (herase _ hw)

/-- What is in the audit log, or waits to be written there, was put there by an
    operation of some call. -/
theorem row_of_written (h : (system cfg pg).Reach Fresh good c) :
    ∀ payload, Written c.world payload →
      ∃ e : Event, e ∈ c.log ∧ e.act.op.auditRow? = some payload := by
  refine System.Reach.world_invariant (I := fun w log =>
    ∀ payload, Written w payload →
      ∃ e : Event, e ∈ log ∧ e.act.op.auditRow? = some payload) ?_ ?_ ?_ h
  · rintro w ⟨-, haudit, hjobs⟩ payload (hw | hw)
    · rw [haudit] at hw
      cases hw
    · rw [hjobs] at hw
      cases hw
  · intro w log t o ω r w' hI hx payload hw
    rcases written_of_exec hx hw with hw | hrow
    · obtain ⟨e, he, hrow⟩ := hI payload hw
      exact ⟨e, List.mem_append_left _ he, hrow⟩
    · exact ⟨⟨t, ⟨o, r⟩⟩, List.mem_append_right _ (List.mem_singleton_self _), hrow⟩
  · intro w log e w' hI he payload hw
    exact hI payload (written_of_env he hw)

/-- The whole audit log of a run is outside the list. -/
theorem quiet_audit (h : (system cfg pg).Reach Fresh good c) :
    ∀ payload ∈ c.world.audit, isVerificationAction payload.action = false := by
  intro payload hpayload
  obtain ⟨e, he, hrow⟩ := row_of_written h payload (.inl hpayload)
  obtain ⟨th, hth, hmem⟩ := h.exists_thread he
  exact quiet_auditRows h hth payload (List.mem_filterMap.mpr ⟨e.act, hmem, hrow⟩)

/-- A subscription of whatever tenant is given nothing by the rows of a call. -/
theorem not_showsOutcome (h : (system cfg pg).Reach Fresh good c) (tenantId : JsString) {t : ℕ}
    {input : SubmitInput} {out : Except Failure SubmitResult} (hend : Ended c t input out) :
    ¬ ShowsOutcome c tenantId t out := by
  intro hshows
  obtain ⟨th, hth, -, -⟩ := hend
  have hrows : ((auditRows th.past).map fun payload => (⟨payload, [], []⟩ : CommittedRow)).map
      CommittedRow.payload = auditRows th.past := by
    rw [List.map_map]
    exact List.map_id _
  obtain ⟨event, hevent, -⟩ := hshows th hth _ hrows
  have hquiet := quiet_auditRows h hth
  rw [← hrows] at hquiet
  rw [received_eq_nil fun row hrow => hquiet _ (List.mem_map_of_mem hrow)] at hevent
  cases hevent

/-- No decided call is ever shown: a subscription, whenever it was opened and of
    whatever tenant, is given nothing while the service runs. -/
theorem no_outcome_shown (h : (system cfg pg).Reach Fresh (fun _ _ => True) c)
    (tenantId : JsString) :
    (∀ t input out, Ended c t input out → Decided out → ¬ ShowsOutcome c tenantId t out) ∧
    ∀ opened rows, rows.map CommittedRow.payload = c.world.audit.drop opened →
      received tenantId rows = [] := by
  constructor
  · intro t input out hend _
    exact not_showsOutcome h tenantId hend
  · intro opened rows hrows
    apply received_eq_nil
    intro row hrow
    apply quiet_audit h
    have hdrop : row.payload ∈ c.world.audit.drop opened := hrows ▸ List.mem_map_of_mem hrow
    exact List.mem_of_mem_drop hdrop

/-! ## An accepted login -/

/-- Nothing fails: no operation of a call, and no work that it leaves behind. -/
def nothingFails (_ : State) : Label Call Oracle Env → Bool
  | .resume _ ω => ω.failure.isNone
  | .env (.job _ succeeds) => succeeds
  | _ => true

def NothingFails (c : State) (l : Label Call Oracle Env) : Prop := nothingFails c l = true

theorem fresh_initial : Fresh initial := ⟨rfl, rfl, rfl⟩

/-- One submit that is accepted, and everything that it leaves to be done. -/
def oneLogin : List (Label Call Oracle Env) :=
  submits [some bindCookie] (List.replicate 15 1) ++ [.env (.job 0 true), .env (.job 0 true)]

theorem oneLogin_runs : ∃ c input res,
    (system settings jsonb).runChecked nothingFails (.init initial) oneLogin = some c ∧
    Ended c 1 input (.ok res) ∧ c.world.jobs.length = 0 ∧ c.world.audit.length = 2 := by
  have hrun : (((system settings jsonb).runChecked nothingFails (.init initial) oneLogin).map
      fun c => decide (returned c 1 = true ∧ c.world.jobs.length = 0 ∧
        c.world.audit.length = 2)) = some true := by
    decide +kernel
  obtain ⟨c, hc, hends⟩ := Option.map_eq_some_iff.mp hrun
  obtain ⟨hreturned, hjobs, haudit⟩ := of_decide_eq_true hends
  have hend : ∃ input res, Ended c 1 input (.ok res) := ended_of_returned hreturned
  obtain ⟨input, res, hend⟩ := hend
  exact ⟨c, input, res, hc, hend, hjobs, haudit⟩

theorem no_outcome_shown_of_one : ∃ c input res,
    (system settings jsonb).runChecked nothingFails (.init initial) oneLogin = some c ∧
    Ended c 1 input (.ok res) ∧ ¬ ShowsOutcome c tenantText 1 (.ok res) := by
  obtain ⟨c, input, res, hc, hend, -⟩ := oneLogin_runs
  have hreach : (system settings jsonb).Reach Fresh (fun _ _ => True) c :=
    System.Reach.runChecked (.init fresh_initial) (fun _ _ _ => trivial) hc
  exact ⟨c, input, res, hc, hend, (no_outcome_shown hreach tenantText).1 1 input _ hend trivial⟩

/-- The login is accepted, its audit rows are all written, and the tenant's
    subscription is given no event. -/
theorem accepted_unseen : ¬ ∀ (cfg : Settings) (pg : Jsonb) (c : State) (t : ℕ)
    (input : SubmitInput) (out : Except Failure SubmitResult),
    (system cfg pg).Reach Fresh NothingFails c → c.world.jobs.length = 0 → Ended c t input out →
    Decided out → ShowsOutcome c input.tenantId t out := by
  intro h
  obtain ⟨c, input, res, hc, hend, hjobs, -⟩ := oneLogin_runs
  have hreach : (system settings jsonb).Reach Fresh NothingFails c :=
    System.Reach.runChecked (.init fresh_initial) (fun _ _ hl => hl) hc
  have hshows := h settings jsonb c 1 input _ hreach hjobs hend trivial
  exact not_showsOutcome hreach input.tenantId hend hshows

end Runs

end ZeroAuth.Pairing
