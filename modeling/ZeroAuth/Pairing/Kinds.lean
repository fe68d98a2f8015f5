/-
  ZeroAuth.Pairing.Kinds

  Which operations the parts of `submitProof` await.

  The operations that matter to a session fall into kinds (`Op.kind`); each part
  of the program awaits some kinds only, and names no session but its own.
-/

import ZeroAuth.Pairing.Rows

namespace ZeroAuth.Pairing

open ZeroAuth.Lib ZeroAuth.Js ZeroAuth.Pg ZeroAuth.Audit Prog

/-! ## Kinds of operations -/

/-- What an operation is to a session; `trail` is what follows a claim: its answer, the
    tokens and the `pairing.claimed` event. -/
inductive OpKind
  | load
  | insert
  | verify
  | increment
  | claim
  | trail
  | plain
  deriving DecidableEq

def Op.kind : Op → OpKind
  | .selectSession _ _ _ => .load
  | .insertSession _ => .insert
  | .fetchVerifier _ | .groth16Verify _ _ => .verify
  | .incrementFailure _ _ => .increment
  | .claim _ _ => .claim
  | .issueTokens _ | .answer => .trail
  | .appendAudit payload => if payload.action = js "pairing.claimed" then .trail else .plain
  | _ => .plain

/-- The session that an operation reads or writes. -/
def Op.target : Op → Option JsString
  | .selectSession sessionId _ _ | .incrementFailure sessionId _ | .claim sessionId _ =>
      some sessionId
  | _ => none

/-- Operations of the kinds `ks`, on no other session than `sessionId`. -/
def Op.Within (sessionId : JsString) (ks : List OpKind) (o : Op) : Prop :=
  o.kind ∈ ks ∧ ∀ s, o.target = some s → s = sessionId

theorem Op.Within.mono {sessionId : JsString} {ks ks' : List OpKind} {o : Op}
    (h : o.Within sessionId ks) (hks : ks ⊆ ks') : o.Within sessionId ks' :=
  ⟨hks h.1, h.2⟩

theorem Op.Within.kind_ne {sessionId : JsString} {ks : List OpKind} {o : Op} {k : OpKind}
    (h : o.Within sessionId ks) (hk : k ∉ ks) : o.kind ≠ k :=
  fun heq => hk (heq ▸ h.1)

/-- An operation that names no session. -/
theorem only_await {sessionId : JsString} {ks : List OpKind} {o : Op} (hk : o.kind ∈ ks)
    (ht : o.target = none) : Only (Op.Within sessionId ks) (await o) := by
  refine only_perform ⟨hk, fun s hs => ?_⟩
  rw [ht] at hs
  cases hs

/-- An operation that names the session. -/
theorem only_await_self {sessionId : JsString} {ks : List OpKind} {o : Op} (hk : o.kind ∈ ks)
    (ht : o.target = some sessionId) : Only (Op.Within sessionId ks) (await o) :=
  only_perform ⟨hk, fun _ hs => Option.some.inj (hs.symm.trans ht)⟩

section Kinds

variable {cfg : Settings} {input : SubmitInput} {ks : List OpKind}

theorem only_record {action status summary : JsString} {metadata : JsVal}
    (ha : action ≠ js "pairing.claimed") (hk : .plain ∈ ks) :
    Only (Op.Within input.sessionId ks) (input.record action status summary metadata) := by
  have hne : ((input.auditInput action status summary metadata).payload input.tenantId).action ≠
      js "pairing.claimed" := ha
  exact only_await (by simpa only [Op.kind, hne, if_false] using hk) rfl

theorem only_ignoreFailure {P : Op → Prop} {p : Program Unit} (h : Only P p) :
    Only P (ignoreFailure p) :=
  h.tryCatch fun _ => trivial

theorem only_incrementFailureCount (errorCode : JsString) (hk : .increment ∈ ks) :
    Only (Op.Within input.sessionId ks) (incrementFailureCount input.sessionId errorCode) :=
  Only.bind (only_await_self hk rfl) fun _ => trivial

theorem only_missingSession :
    Only (Op.Within input.sessionId [.plain]) (missingSession input) := by
  refine Only.bind (only_await (by simp [Op.kind]) rfl) fun bareRow => ?_
  split
  · exact Only.bind (only_ignoreFailure (only_record (by decide) (by decide))) fun _ => trivial
  · trivial

theorem only_checkOpen (row : SessionRow) :
    Only (Op.Within input.sessionId [.plain]) (checkOpen row) := by
  unfold checkOpen
  split
  · trivial
  · split
    · trivial
    · refine Only.bind (only_await (by simp [Op.kind]) rfl) fun now => ?_
      split <;> trivial

theorem only_loadOpenSession :
    Only (Op.Within input.sessionId [.load, .plain]) (loadOpenSession input) := by
  refine Only.bind (only_await_self (by simp [Op.kind]) rfl) fun row => ?_
  cases row with
  | none => exact only_missingSession.mono fun _ ho => ho.mono (by simp)
  | some row => exact (only_checkOpen row).mono fun _ ho => ho.mono (by simp)

theorem only_checkPlayIntegrity :
    Only (Op.Within input.sessionId [.increment, .plain]) (checkPlayIntegrity input) := by
  have hpolicy : Only (Op.Within input.sessionId [.increment, .plain])
      (loadTenantSecurityPolicy input.tenantId) :=
    Only.tryCatch (Only.bind (only_await (by simp [Op.kind]) rfl)
      fun _ => trivial) fun _ => trivial
  refine Only.bind hpolicy fun policy => ?_
  split
  · trivial
  · refine Only.bind (only_ignoreFailure ?_) fun _ => ?_
    · exact Only.bind (only_incrementFailureCount _ (by decide)) fun _ => trivial
    · exact Only.bind (only_record (by decide) (by decide)) fun _ => trivial

theorem only_checkBindToken (row : SessionRow) :
    Only (Op.Within input.sessionId [.plain]) (checkBindToken input row) := by
  unfold checkBindToken
  split
  · trivial
  · trivial
  · split
    · trivial
    · exact Only.bind (only_ignoreFailure (only_record (by decide) (by decide))) fun _ => trivial

theorem only_checkUser : Only (Op.Within input.sessionId [.plain]) (checkUser input) := by
  have hfind : Only (Op.Within input.sessionId [.plain])
      (findUserByDid input.tenantId input.environment input.did) := by
    refine Only.bind (only_await (by simp [Op.kind]) rfl) fun row => ?_
    cases row with
    | none => trivial
    | some row =>
        obtain ⟨id, metadata⟩ := row
        simp only
        split <;> trivial
  refine Only.bind hfind fun user => ?_
  split
  · trivial
  · split
    · trivial
    · refine Only.bind only_ofExcept fun _ => Only.bind only_ofExcept fun _ => ?_
      split <;> trivial

theorem only_checkNonce (row : SessionRow) (user : StoredUserCommitment) (signal₁ : Json) :
    Only (Op.Within input.sessionId [.plain]) (checkNonce cfg input row user signal₁) := by
  refine Only.bind only_ofExcept fun _ => Only.bind only_ofExcept fun _ =>
    Only.bind only_ofExcept fun _ => ?_
  split
  · trivial
  · exact Only.bind (only_ignoreFailure (only_record (by decide) (by decide))) fun _ => trivial

theorem only_verifyInline (proof publicSignals : Json) :
    Only (Op.Within input.sessionId [.verify]) (verifyInline cfg proof publicSignals) := by
  unfold verifyInline
  split
  · exact Only.tryCatch (only_await (by simp [Op.kind]) rfl) fun _ => trivial
  · trivial

theorem only_checkProof (correlationId : Uuid) :
    Only (Op.Within input.sessionId [.verify]) (checkProof cfg input correlationId) := by
  have hverify : Only (Op.Within input.sessionId [.verify])
      (verifierVerify cfg input correlationId) := by
    rcases hurl : cfg.verifierUrl with _ | ⟨_ | ⟨u, us⟩⟩ <;> simp only [verifierVerify, hurl]
    · exact only_verifyInline _ _
    · exact only_verifyInline _ _
    · refine Only.tryCatch ?_ fun e => ?_
      · refine Only.bind (only_await (by simp [Op.kind]) rfl) fun reply => ?_
        split <;> trivial
      · split <;> trivial
  refine Only.bind hverify fun verified => ?_
  split <;> trivial

theorem only_checkRow (correlationId : Uuid) (row : SessionRow) :
    Only (Op.Within input.sessionId [.plain, .increment, .verify])
      (checkRow cfg input correlationId row) := by
  refine Only.bind (only_checkPlayIntegrity.mono fun _ ho => ho.mono (by simp)) fun _ => ?_
  refine Only.bind ((only_checkBindToken row).mono fun _ ho => ho.mono (by simp)) fun _ => ?_
  refine Only.bind (only_checkUser.mono fun _ ho => ho.mono (by simp)) fun user => ?_
  refine Only.bind ((only_checkNonce row _ _).mono fun _ ho => ho.mono (by simp)) fun _ => ?_
  exact Only.bind ((only_checkProof correlationId).mono fun _ ho => ho.mono (by simp))
    fun _ => trivial

theorem only_runChecks (correlationId : Uuid) :
    Only (Op.Within input.sessionId [.load, .plain, .increment, .verify])
      (runChecks cfg input correlationId) :=
  Only.bind (only_loadOpenSession.mono fun _ ho => ho.mono (by simp)) fun row =>
    (only_checkRow correlationId row).mono fun _ ho => ho.mono (by simp)

theorem only_claimSession (user : StoredUserCommitment) :
    Only (Op.Within input.sessionId [.claim, .trail, .plain]) (claimSession input user) := by
  refine Only.bind (only_await_self (by simp [Op.kind]) rfl)
    fun claimed => Only.bind (only_await (by simp [Op.kind]) rfl) fun _ => ?_
  split
  · trivial
  · exact Only.bind (only_ignoreFailure (only_record (by decide) (by decide))) fun _ => trivial

theorem only_padToFloor (start : ℕ) (hk : .plain ∈ ks) :
    Only (Op.Within input.sessionId ks) (padToFloor start) := by
  refine Only.bind (only_await hk rfl) fun now => ?_
  by_cases hfloor : now - start ≥ latencyFloorMs
  · simp only [hfloor]
    trivial
  · simp only [hfloor]
    exact only_await hk rfl

theorem only_mintTokens (user : StoredUserCommitment) (correlationId : Uuid) (start : ℕ)
    (row : SessionRow) :
    Only (Op.Within input.sessionId [.trail, .plain])
      (mintTokens input user correlationId start row) := by
  refine Only.bind (only_await (by simp [Op.kind]) rfl) fun _ => ?_
  refine Only.bind (only_await (by simp [Op.kind]) rfl) fun sessionUuid => ?_
  refine Only.bind (only_await (by simp [Op.kind]) rfl) fun tokens => ?_
  have hact : (input.claimedEvent user correlationId).action = js "pairing.claimed" := rfl
  refine Only.bind (only_await (by simp [Op.kind, hact]) rfl) fun _ => ?_
  exact Only.bind (only_padToFloor start (by decide)) fun _ => trivial

/-- After the claim only the trail can fail. -/
theorem only_mintTokens_trail (user : StoredUserCommitment) (correlationId : Uuid) (start : ℕ)
    (row : SessionRow) :
    Only (fun o : Op => o.mayFail = true → o.kind = .trail)
      (mintTokens input user correlationId start row) := by
  have hpad : Only (fun o : Op => o.mayFail = true → o.kind = .trail) (padToFloor start) := by
    refine Only.bind (only_perform (by simp [Op.mayFail])) fun now => ?_
    by_cases hfloor : now - start ≥ latencyFloorMs
    · simp only [hfloor]
      trivial
    · simp only [hfloor]
      exact only_perform (by simp [Op.mayFail])
  have hact : (input.claimedEvent user correlationId).action = js "pairing.claimed" := rfl
  refine Only.bind (only_perform (by simp [Op.mayFail])) fun _ => ?_
  refine Only.bind (only_perform (by simp [Op.mayFail])) fun sessionUuid => ?_
  refine Only.bind (only_perform fun _ => rfl) fun tokens => ?_
  refine Only.bind (only_perform fun _ => by simp [Op.kind, hact]) fun _ => ?_
  exact Only.bind hpad fun _ => trivial

theorem only_submitCatch (correlationId : Uuid) (start : ℕ) (failure : Failure) :
    Only (Op.Within input.sessionId [.increment, .plain])
      (submitCatch input correlationId start failure) := by
  unfold submitCatch
  split
  · refine Only.bind ?_ fun _ => Only.bind (only_padToFloor start (by decide)) fun _ => trivial
    refine Only.bind ?_ fun count => only_await (by simp [Op.kind]) rfl
    exact Only.tryCatch (Only.bind (only_incrementFailureCount _ (by decide)) fun _ => trivial)
      fun _ => trivial
  · exact Only.bind (only_padToFloor start (by decide)) fun _ => trivial

end Kinds

end ZeroAuth.Pairing
