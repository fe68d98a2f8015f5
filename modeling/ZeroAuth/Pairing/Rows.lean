/-
  ZeroAuth.Pairing.Rows

  Everything that a step can do to the rows of `proof_pairing_sessions`.

  `Change` is the inversion of `exec` for this table, with one case for each
  statement that writes it; all invariants are derived from it.  `RowStep` is
  what it means for one row.
-/

import ZeroAuth.Pairing.System

namespace ZeroAuth.Pairing

open ZeroAuth.Lib ZeroAuth.Js ZeroAuth.Pg ZeroAuth.Audit ZeroAuth.Tenant

/-- A claim that changed its row: the session and the user. -/
def won : Act sig Failure → Option (Uuid × Uuid)
  | ⟨.claim sessionId userId, .ok (some _)⟩ => (Uuid.parse sessionId).map fun id => (id, userId)
  | _ => none

/-- What an answered operation does to the sessions. -/
inductive Change (w w' : World) (a : Act sig Failure) : Prop
  | same (hs : w'.sessions = w.sessions) (hw : won a = none)
  | inserted (v : NewSession) (tenantId : Uuid) (apiKeyId : Option Uuid)
      (hid : ∀ r ∈ w.sessions, r.id ≠ v.id)
      (hs : w'.sessions = w.sessions ++ [v.row tenantId apiKeyId w.clock]) (hw : won a = none)
      (hop : a.op = .insertSession v)
  | incremented (id : Uuid) (errorCode : JsString)
      (hs : w'.sessions =
        (w.update (SessionRow.canFail id) (SessionRow.incremented errorCode)).sessions)
      (hw : won a = none)
  | claimed (id userId : Uuid) (r : SessionRow) (hr : r ∈ w.sessions) (hc : r.canClaim id = true)
      (hs : w'.sessions =
        (w.update (SessionRow.canClaim id) (SessionRow.consumedBy userId w.clock)).sessions)
      (hw : won a = some (id, userId))
  | swept
      (hs : w'.sessions = (w.update (SessionRow.overdue w.clock) SessionRow.swept).sessions)
      (hw : won a = none)

/-- Reading the clock, drawing random values and starting work do not fail. -/
def Op.mayFail : Op → Bool
  | .now | .uuidv4 | .randomBytes _ | .spawn _ | .sleep _ => false
  | _ => true

section Exec

variable {pg : Jsonb} {ω : Oracle} {w w' : World}

theorem statement_cases {α : Type} {run : Except Failure α × World} {r : Except Failure α}
    (h : statement ω w run = some (r, w')) :
    (∃ m, ω.failure = some m ∧ r = .error (.other m) ∧ w' = w) ∨
      (ω.failure = none ∧ run = (r, w')) := by
  unfold statement at h
  split at h
  · next m hm =>
      cases h
      exact .inl ⟨m, hm, rfl, rfl⟩
  · next hm => exact .inr ⟨hm, Option.some.inj h⟩

theorem withUuid_cases {α : Type} {text : JsString} {run : Uuid → Except Failure α × World}
    {r : Except Failure α} (h : withUuid text w run = (r, w')) :
    (∃ u, Uuid.parse text = some u ∧ run u = (r, w')) ∨ (r = .error invalidUuid ∧ w' = w) := by
  unfold withUuid at h
  split at h
  · next u hu => exact .inl ⟨u, hu, h⟩
  · cases h
    exact .inr ⟨rfl, rfl⟩

/-- A failed operation is a statement or another service, changes nothing, and
    does not fail with an error class of this service. -/
theorem exec_error {o : Op} {e : Failure} (h : exec pg o ω w = some (.error e, w')) :
    w' = w ∧ o.mayFail = true ∧ ∃ m, e = .other m := by
  cases o with
  | now | uuidv4 | spawn | sleep => cases h
  | randomBytes n =>
      simp only [exec] at h
      split at h <;> cases h
  | insertSession v =>
      obtain ⟨m, -, he, hw⟩ | ⟨-, hrun⟩ := statement_cases h
      · exact ⟨hw, rfl, m, Except.error.inj he⟩
      · unfold World.insertSession at hrun
        split at hrun
        · split at hrun <;> cases hrun
          exact ⟨rfl, rfl, _, rfl⟩
        · cases hrun
          exact ⟨rfl, rfl, _, rfl⟩
  | incrementFailure text code =>
      obtain ⟨m, -, he, hw⟩ | ⟨-, hrun⟩ := statement_cases h
      · exact ⟨hw, rfl, m, Except.error.inj he⟩
      · obtain ⟨u, -, hrun⟩ | ⟨he, hw⟩ := withUuid_cases hrun
        · unfold World.incrementFailure at hrun
          split at hrun
          · cases hrun
          · split at hrun <;> cases hrun
            exact ⟨rfl, rfl, _, rfl⟩
        · exact ⟨hw, rfl, _, Except.error.inj he⟩
  | claim text user =>
      obtain ⟨m, -, he, hw⟩ | ⟨-, hrun⟩ := statement_cases h
      · exact ⟨hw, rfl, m, Except.error.inj he⟩
      · obtain ⟨u, -, hrun⟩ | ⟨he, hw⟩ := withUuid_cases hrun
        · unfold World.claim at hrun
          split at hrun <;> cases hrun
        · exact ⟨hw, rfl, _, Except.error.inj he⟩
  | selectSession text tenant environment =>
      obtain ⟨m, -, he, hw⟩ | ⟨-, hrun⟩ := statement_cases h
      · exact ⟨hw, rfl, m, Except.error.inj he⟩
      · obtain ⟨u, -, hrun⟩ | ⟨he, hw⟩ := withUuid_cases hrun
        · obtain ⟨u', -, hrun⟩ | ⟨he, hw⟩ := withUuid_cases hrun
          · cases hrun
          · exact ⟨hw, rfl, _, Except.error.inj he⟩
        · exact ⟨hw, rfl, _, Except.error.inj he⟩
  | countOpen | selectSessionId | selectPolicy | selectUser =>
      obtain ⟨m, -, he, hw⟩ | ⟨-, hrun⟩ := statement_cases h
      · exact ⟨hw, rfl, m, Except.error.inj he⟩
      · obtain ⟨u, -, hrun⟩ | ⟨he, hw⟩ := withUuid_cases hrun
        · cases hrun
        · exact ⟨hw, rfl, _, Except.error.inj he⟩
  | expireOverdue | fetchVerifier | groth16Verify | issueTokens | appendAudit | answer =>
      obtain ⟨m, -, he, hw⟩ | ⟨-, hrun⟩ := statement_cases h
      · exact ⟨hw, rfl, m, Except.error.inj he⟩
      · cases hrun

theorem statement_ok {α : Type} {run : Except Failure α × World} {a : α}
    (h : statement ω w run = some (.ok a, w')) : run = (.ok a, w') := by
  obtain ⟨m, -, hr, -⟩ | ⟨-, hrun⟩ := statement_cases h
  · cases hr
  · exact hrun

theorem withUuid_ok {α : Type} {text : JsString} {run : Uuid → Except Failure α × World} {a : α}
    (h : withUuid text w run = (.ok a, w')) :
    ∃ u, Uuid.parse text = some u ∧ run u = (.ok a, w') := by
  obtain hu | ⟨hr, -⟩ := withUuid_cases h
  · exact hu
  · cases hr

theorem insertSession_ok {v : NewSession} {a : Unit} (h : w.insertSession v = (.ok a, w')) :
    ∃ tenantId apiKeyId, (∀ r ∈ w.sessions, r.id ≠ v.id) ∧
      w' = { w with sessions := w.sessions ++ [v.row tenantId apiKeyId w.clock] } := by
  unfold World.insertSession at h
  split at h
  · next tenantId apiKeyId _ _ =>
      split at h
      · cases h
      · next hnew =>
          cases h
          refine ⟨tenantId, apiKeyId, fun r hr heq => hnew ?_, rfl⟩
          exact List.any_eq_true.mpr ⟨r, hr, by simp [heq]⟩
  · cases h

theorem update_of_forall {p : SessionRow → Bool} (h : ∀ r ∈ w.sessions, p r = false)
    (f : SessionRow → SessionRow) : w.update p f = w := by
  have hsame : (w.sessions.map fun r => if p r then f r else r) = w.sessions :=
    (List.map_congr_left fun r hr => by simp [h r hr]).trans (List.map_id' _)
  rw [World.update, hsame]

theorem incrementFailure_ok {id : Uuid} {errorCode : JsString} {a : Option ℕ}
    (h : w.incrementFailure id errorCode = (.ok a, w')) :
    w' = w.update (SessionRow.canFail id) (SessionRow.incremented errorCode) := by
  unfold World.incrementFailure at h
  split at h
  · next hnone =>
      cases h
      have hall : ∀ r ∈ w.sessions, r.canFail id = false := by simpa using hnone
      exact (update_of_forall hall _).symm
  · split at h
    · cases h
    · cases h
      rfl

/-- The claim answers the changed row, or nothing when no row is open. -/
theorem claim_ok {id userId : Uuid} {a : Option SessionRow} (h : w.claim id userId = (.ok a, w')) :
    (a = none ∧ w' = w ∧ ∀ r ∈ w.sessions, r.canClaim id = false) ∨
    ∃ r ∈ w.sessions, r.canClaim id = true ∧ a = some (r.consumedBy userId w.clock) ∧
      w' = w.update (SessionRow.canClaim id) (SessionRow.consumedBy userId w.clock) := by
  unfold World.claim at h
  split at h
  · next hnone =>
      cases h
      exact .inl ⟨rfl, rfl, by simpa using hnone⟩
  · next r hr =>
      cases h
      exact .inr ⟨r, List.mem_of_find?_eq_some hr, List.find?_some hr, rfl, rfl⟩

theorem selectSession_ok {text tenant environment : JsString} {a : Option SessionRow}
    (h : exec pg (.selectSession text tenant environment) ω w = some (.ok a, w')) :
    w' = w ∧ ∃ id, Uuid.parse text = some id ∧ ∀ r, a = some r → r ∈ w.sessions ∧ r.id = id := by
  obtain ⟨id, hid, hrun⟩ := withUuid_ok (statement_ok h)
  obtain ⟨u, -, hrun⟩ := withUuid_ok hrun
  cases hrun
  refine ⟨rfl, id, hid, fun r hr => ⟨List.mem_of_find?_eq_some hr, ?_⟩⟩
  have hfound := List.find?_some hr
  exact (of_decide_eq_true hfound).1

/-- Everything that an operation can do to the sessions. -/
theorem exec_change {o : Op} {r : Except Failure o.Resp} (h : exec pg o ω w = some (r, w')) :
    Change w w' ⟨o, r⟩ := by
  cases r with
  | error e =>
      refine .same (congrArg World.sessions (exec_error h).1) ?_
      cases o <;> rfl
  | ok a =>
      cases o with
      | now | uuidv4 | spawn | sleep =>
          cases h
          exact .same rfl rfl
      | randomBytes n =>
          simp only [exec] at h
          split at h <;> cases h
          exact .same rfl rfl
      | insertSession v =>
          obtain ⟨tenantId, apiKeyId, hid, rfl⟩ := insertSession_ok (statement_ok h)
          exact .inserted v tenantId apiKeyId hid rfl rfl rfl
      | incrementFailure text code =>
          obtain ⟨id, -, hrun⟩ := withUuid_ok (statement_ok h)
          exact .incremented id code (congrArg World.sessions (incrementFailure_ok hrun)) rfl
      | claim text user =>
          obtain ⟨id, hid, hrun⟩ := withUuid_ok (statement_ok h)
          obtain ⟨rfl, rfl, -⟩ | ⟨r, hr, hc, rfl, rfl⟩ := claim_ok hrun
          · exact .same rfl rfl
          · exact .claimed id user r hr hc rfl (by simp [won, hid])
      | expireOverdue =>
          cases statement_ok h
          exact .swept rfl rfl
      | selectSession =>
          exact .same (congrArg World.sessions (selectSession_ok h).1) rfl
      | countOpen | selectSessionId | selectPolicy | selectUser =>
          obtain ⟨u, -, hrun⟩ := withUuid_ok (statement_ok h)
          cases hrun
          exact .same rfl rfl
      | fetchVerifier | groth16Verify | issueTokens | appendAudit | answer =>
          cases statement_ok h
          exact .same rfl rfl

/-- An operation takes no time and enrols nobody, and what is written to the audit
    log stays. -/
theorem exec_frame {o : Op} {r : Except Failure o.Resp} (h : exec pg o ω w = some (r, w')) :
    w'.clock = w.clock ∧ w.audit <+: w'.audit ∧ w'.users = w.users := by
  cases r with
  | error e =>
      rw [(exec_error h).1]
      exact ⟨rfl, List.prefix_refl _, rfl⟩
  | ok a =>
      cases o with
      | now | uuidv4 | spawn | sleep =>
          cases h
          exact ⟨rfl, List.prefix_refl _, rfl⟩
      | randomBytes n =>
          simp only [exec] at h
          split at h <;> cases h
          exact ⟨rfl, List.prefix_refl _, rfl⟩
      | insertSession v =>
          obtain ⟨tenantId, apiKeyId, -, rfl⟩ := insertSession_ok (statement_ok h)
          exact ⟨rfl, List.prefix_refl _, rfl⟩
      | incrementFailure text code =>
          obtain ⟨id, -, hrun⟩ := withUuid_ok (statement_ok h)
          rw [incrementFailure_ok hrun]
          exact ⟨rfl, List.prefix_refl _, rfl⟩
      | claim text user =>
          obtain ⟨id, -, hrun⟩ := withUuid_ok (statement_ok h)
          obtain ⟨-, rfl, -⟩ | ⟨r, -, -, -, rfl⟩ := claim_ok hrun
          · exact ⟨rfl, List.prefix_refl _, rfl⟩
          · exact ⟨rfl, List.prefix_refl _, rfl⟩
      | selectSession =>
          rw [(selectSession_ok h).1]
          exact ⟨rfl, List.prefix_refl _, rfl⟩
      | countOpen | selectSessionId | selectPolicy | selectUser =>
          obtain ⟨u, -, hrun⟩ := withUuid_ok (statement_ok h)
          cases hrun
          exact ⟨rfl, List.prefix_refl _, rfl⟩
      -- the one operation that writes to the audit log
      | appendAudit payload =>
          cases statement_ok h
          exact ⟨rfl, List.prefix_append _ _, rfl⟩
      | expireOverdue | fetchVerifier | groth16Verify | issueTokens | answer =>
          cases statement_ok h
          exact ⟨rfl, List.prefix_refl _, rfl⟩

end Exec

/-! ## One row -/

/-- What can happen to a row at time `now`. -/
inductive RowStep (now : ℕ) (r : SessionRow) : SessionRow → Prop
  | same : RowStep now r r
  | incremented (errorCode : JsString) (h : r.state = .issued ∨ r.state = .failed) :
      RowStep now r (r.incremented errorCode)
  | consumed (userId : Uuid) (h : r.state = .issued) : RowStep now r (r.consumedBy userId now)
  | swept (h : r.state = .issued) (hlt : r.expiresAt < now) : RowStep now r r.swept
  | proofHash (x : JsString) : RowStep now r (r.withProofHash x)

namespace RowStep

variable {now : ℕ} {r r' : SessionRow}

theorem id_eq (h : RowStep now r r') : r'.id = r.id := by
  cases h <;> rfl

theorem expiresAt_eq (h : RowStep now r r') : r'.expiresAt = r.expiresAt := by
  cases h <;> rfl

theorem nonceHex_eq (h : RowStep now r r') : r'.nonceHex = r.nonceHex := by
  cases h <;> rfl

/-- Only an issued row changes its state. -/
theorem state (h : RowStep now r r') : r'.state = r.state ∨ r.state = .issued := by
  cases h with
  | same => exact .inl rfl
  | incremented code h =>
      rcases h with h | h
      · exact .inr h
      · refine .inl ?_
        simp [SessionRow.incremented, h]
  | consumed user h => exact .inr h
  | swept h => exact .inr h
  | proofHash x => exact .inl rfl

end RowStep

section Update

variable {w w' : World} {p : SessionRow → Bool} {f : SessionRow → SessionRow} {now : ℕ}
  {r r' : SessionRow}

theorem mem_update : r' ∈ (w.update p f).sessions ↔
    ∃ r ∈ w.sessions, r' = if p r = true then f r else r := by
  simp only [World.update, List.mem_map, eq_comm]

/-- The rows of an UPDATE step one by one. -/
theorem rowStep_update (hstep : ∀ r, p r = true → RowStep now r (f r)) :
    (∀ r ∈ w.sessions, ∃ r' ∈ (w.update p f).sessions, RowStep now r r') ∧
    ∀ r' ∈ (w.update p f).sessions, ∃ r ∈ w.sessions, RowStep now r r' := by
  have hone : ∀ r, RowStep now r (if p r = true then f r else r) := by
    intro r
    split
    · next hp => exact hstep r hp
    · exact .same
  refine ⟨fun r hr => ⟨_, mem_update.mpr ⟨r, hr, rfl⟩, hone r⟩, fun r' hr' => ?_⟩
  obtain ⟨r, hr, rfl⟩ := mem_update.mp hr'
  exact ⟨r, hr, hone r⟩

/-- A row that has just been inserted. -/
def IsNew (r : SessionRow) : Prop :=
  r.state = .issued ∧ r.failureCount = 0 ∧ r.consumedUserId = none ∧ r.consumedAt = none

/-- The rows before and after: each old row steps, and nothing else but a new row
    appears. -/
def RowsStep (now : ℕ) (old new : List SessionRow) : Prop :=
  (∀ r ∈ old, ∃ r' ∈ new, RowStep now r r') ∧
    ∀ r' ∈ new, (∃ r ∈ old, RowStep now r r') ∨ IsNew r'

theorem RowsStep.refl (now : ℕ) (l : List SessionRow) : RowsStep now l l :=
  ⟨fun r hr => ⟨r, hr, .same⟩, fun r hr => .inl ⟨r, hr, .same⟩⟩

theorem RowsStep.of_update (hstep : ∀ r, p r = true → RowStep now r (f r))
    (hs : w'.sessions = (w.update p f).sessions) : RowsStep now w.sessions w'.sessions := by
  rw [hs]
  exact ⟨(rowStep_update hstep).1, fun r' hr' => .inl ((rowStep_update hstep).2 r' hr')⟩

theorem Change.rows {a : Act sig Failure} (h : Change w w' a) :
    RowsStep w.clock w.sessions w'.sessions := by
  cases h with
  | same hs => exact hs ▸ .refl _ _
  | inserted v tenantId apiKeyId hid hs =>
      rw [hs]
      refine ⟨fun r hr => ⟨r, by simp [hr], .same⟩, fun r' hr' => ?_⟩
      rcases List.mem_append.mp hr' with hr' | hr'
      · exact .inl ⟨r', hr', .same⟩
      · obtain rfl := List.mem_singleton.mp hr'
        exact .inr ⟨rfl, rfl, rfl, rfl⟩
  | incremented id code hs =>
      refine .of_update (fun r hr => .incremented code ?_) hs
      exact (of_decide_eq_true hr).2
  | claimed id user r hr hc hs =>
      exact .of_update (fun r hr => .consumed user (of_decide_eq_true hr).2) hs
  | swept hs =>
      exact .of_update (fun r hr => .swept (of_decide_eq_true hr).1 (of_decide_eq_true hr).2) hs

/-- The environment inserts no row. -/
theorem env_kept {e : Env} (h : env e w = some w') :
    (∀ r ∈ w.sessions, ∃ r' ∈ w'.sessions, RowStep w.clock r r') ∧
      ∀ r' ∈ w'.sessions, ∃ r ∈ w.sessions, RowStep w.clock r r' := by
  have hsame : ∀ l : List SessionRow, (∀ r ∈ l, ∃ r' ∈ l, RowStep w.clock r r') ∧
      ∀ r' ∈ l, ∃ r ∈ l, RowStep w.clock r r' :=
    fun l => ⟨fun r hr => ⟨r, hr, .same⟩, fun r hr => ⟨r, hr, .same⟩⟩
  cases e with
  | tick | enrol | setPolicy =>
      cases h
      exact hsame _
  | job i succeeds =>
      obtain ⟨job, -, rfl⟩ := Option.map_eq_some_iff.mp h
      cases succeeds with
      | false => exact hsame _
      | true =>
          cases job with
          | audit payload => exact hsame _
          | setProofHash sessionId x =>
              simp only [World.runJob, if_true]
              split
              · exact rowStep_update fun r _ => .proofHash x
              · exact hsame _

theorem env_frame {e : Env} (h : env e w = some w') :
    w.clock ≤ w'.clock ∧ w.audit <+: w'.audit ∧ w.users <+: w'.users := by
  have hsame : w.clock ≤ w.clock ∧ w.audit <+: w.audit ∧ w.users <+: w.users :=
    ⟨Nat.le_refl _, List.prefix_refl _, List.prefix_refl _⟩
  cases e with
  | tick ms =>
      cases h
      exact ⟨Nat.le_add_right _ _, List.prefix_refl _, List.prefix_refl _⟩
  | enrol user =>
      cases h
      exact ⟨Nat.le_refl _, List.prefix_refl _, List.prefix_append _ _⟩
  | setPolicy tenantId policy =>
      cases h
      exact hsame
  | job i succeeds =>
      obtain ⟨job, -, rfl⟩ := Option.map_eq_some_iff.mp h
      cases succeeds with
      | false => exact hsame
      | true =>
          cases job with
          | audit payload => exact ⟨Nat.le_refl _, List.prefix_append _ _, List.prefix_refl _⟩
          | setProofHash sessionId x =>
              simp only [World.runJob, if_true]
              split <;> exact hsame

theorem env_rows {e : Env} (h : env e w = some w') :
    RowsStep w.clock w.sessions w'.sessions ∧ w.clock ≤ w'.clock ∧ w.audit <+: w'.audit := by
  obtain ⟨hnew, hold⟩ := env_kept h
  obtain ⟨hclock, haudit, -⟩ := env_frame h
  exact ⟨⟨hnew, fun r' hr' => .inl (hold r' hr')⟩, hclock, haudit⟩

end Update

/-! ## Runs -/

section Runs

variable {cfg : Settings} {pg : Jsonb} {good : State → Label Call Oracle Env → Prop} {c c' : State}

theorem rows_of_next (h : (system cfg pg).Next good c c') :
    RowsStep c.world.clock c.world.sessions c'.world.sessions ∧ c.world.clock ≤ c'.world.clock ∧
      c.world.audit <+: c'.world.audit := by
  obtain ⟨l, -, hs⟩ := h
  obtain ⟨a, -, rfl⟩ | ⟨t, ω, a, past, o, k, r, w, -, -, hx, rfl⟩ | ⟨e, w, -, he, rfl⟩ :=
    System.step_cases hs
  · exact ⟨.refl _ _, Nat.le_refl _, List.prefix_refl _⟩
  · obtain ⟨hclock, haudit, -⟩ := exec_frame hx
    exact ⟨(exec_change hx).rows, hclock.ge, haudit⟩
  · exact env_rows he

/-- Sessions are not deleted, keep their expiry, and once they are consumed,
    failed or expired they stay so. -/
theorem row_of_later (h : (system cfg pg).Later good c c') {r : SessionRow}
    (hr : r ∈ c.world.sessions) :
    ∃ r' ∈ c'.world.sessions, r'.id = r.id ∧ r'.expiresAt = r.expiresAt ∧
      (r'.state = r.state ∨ r.state = .issued) := by
  induction h with
  | refl => exact ⟨r, hr, rfl, rfl, .inl rfl⟩
  | tail _ hn ih =>
      obtain ⟨r₁, hr₁, hid₁, hexp₁, hstate₁⟩ := ih
      obtain ⟨r₂, hr₂, hstep⟩ := (rows_of_next hn).1.1 r₁ hr₁
      refine ⟨r₂, hr₂, hstep.id_eq.trans hid₁, hstep.expiresAt_eq.trans hexp₁, ?_⟩
      rcases hstate₁ with h₁ | h₁
      · rcases hstep.state with h₂ | h₂
        · exact .inl (h₂.trans h₁)
        · exact .inr (h₁ ▸ h₂)
      · exact .inr h₁

end Runs

end ZeroAuth.Pairing
