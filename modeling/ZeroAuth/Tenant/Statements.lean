/-
  ZeroAuth.Tenant.Statements

  The parameters of the statements that the services make.

  `Sql.Shaped` says what the parameters of one statement have to do with each other, whatever
  call it comes from: a slot is named `pending_…`, a device with a fingerprint after the hash of
  that, and a registered user after its session.
-/

import ZeroAuth.Tenant.System

namespace ZeroAuth.Tenant

open ZeroAuth.Lib ZeroAuth.Lib.Prog ZeroAuth.Js ZeroAuth.Pg

/-- The first characters of the name of a slot. -/
def slotPrefix : JsString := js "pending_"

def Sql.Shaped (cfg : Settings) : Sql → Prop
  | insertSlot _ _ v => slotPrefix <+: v.externalId
  | claimSlot _ externalId fpHash _ => externalId = deviceExternalId fpHash
  | upsertDevice v => v.externalId = deviceExternalId v.fpHash
  | attachCommitment _ did commitment _ _ _ =>
      matchesDid [95, 45] 8 80 did = true ∧ matchesCommitment 32 128 commitment = true
  | registerUser v => ∃ s text n, s.commitment = some text ∧ parseCommitmentText text = some n ∧
      v = registeredUser cfg s n
  | _ => True

def Op.Shaped (cfg : Settings) : Op → Prop
  | .pool q | .query q => q.Shaped cfg
  | _ => True

section Programs

variable {cfg : Settings} {α β : Type}

theorem shaped_reject {err : Failure} : Only (Op.Shaped cfg) (reject err : Program α) :=
  Only.bind (only_perform trivial) fun _ => trivial

theorem shaped_withClient {body : Program α} (h : Only (Op.Shaped cfg) body) :
    Only (Op.Shaped cfg) (withClient body) := by
  refine Only.bind (only_perform trivial) fun _ => Only.tryCatch h fun err => ?_
  refine Only.bind (Only.tryCatch (only_perform trivial) fun _ => ?_) fun _ => ?_
  · trivial
  · trivial

theorem shaped_defaultExternalId (name : JsString) (externalId : Option JsString) :
    Only (Op.Shaped cfg) (defaultExternalId name externalId) := by
  unfold defaultExternalId
  split
  · trivial
  · exact Only.bind (only_perform trivial) fun _ => trivial

theorem shaped_generateEnrollmentCode : Only (Op.Shaped cfg) generateEnrollmentCode :=
  Only.bind (only_perform trivial) fun _ => trivial

theorem shaped_cachePendingDemoCode {tenantId : JsString} {id : Uuid} {step : Step}
    {code : JsString} {nonce : Option JsString} :
    Only (Op.Shaped cfg) (cachePendingDemoCode cfg tenantId id step code nonce) := by
  by_cases hcache : shouldCacheDemoCode cfg tenantId = true
  · have heq : cachePendingDemoCode cfg tenantId id step code nonce = await (.cacheDemoCode
        id.text step code (stepDeeplink step id code nonce) nonce) := if_pos hcache
    rw [heq]
    exact only_perform trivial
  · have heq : cachePendingDemoCode cfg tenantId id step code nonce = pure () := if_neg hcache
    rw [heq]
    trivial

/-- The last part of most calls: an event, and the result. -/
theorem shaped_event {payload : Audit.ChainedAuditPayload} {p : Program β}
    (hp : Only (Op.Shaped cfg) p) :
    Only (Op.Shaped cfg) (do
      await (.spawn payload)
      p) :=
  Only.bind (only_perform trivial) fun _ => hp

/-! ## Devices -/

theorem shaped_createDevice {tenantId environment : JsString} {input : CreateDeviceInput}
    {actor : Option AuditActor} :
    Only (Op.Shaped cfg) (createDevice tenantId environment input actor) := by
  refine Only.bind (shaped_defaultExternalId _ _) fun externalId => ?_
  exact Only.bind (only_perform trivial) fun device => shaped_event trivial

/-- A slot is named after nothing but a random value. -/
theorem ends_slotName : Ends (fun _ out => ∀ name, out = .ok name → slotPrefix <+: name)
    (defaultExternalId (js "pending") none) := by
  intro r
  cases r with
  | ok id =>
      rintro name ⟨⟩
      exact ⟨shortId (Uuid.text id), rfl⟩
  | error e => rintro name ⟨⟩

theorem shaped_issueEnrollmentCode {tenantId environment : JsString} {input : IssueInput}
    {actor : Option AuditActor} :
    Only (Op.Shaped cfg) (issueEnrollmentCode cfg tenantId environment input actor) := by
  refine Only.bind shaped_generateEnrollmentCode fun code => ?_
  refine Only.bind (only_perform trivial) fun now => ?_
  refine Before.bind (shaped_defaultExternalId _ _) ends_slotName fun es externalId hname => ?_
  refine Only.bind (only_perform ?_) fun device => shaped_event trivial
  exact hname externalId rfl

theorem shaped_regenerateEnrollmentCode {tenantId environment deviceId : JsString}
    {actor : Option AuditActor} :
    Only (Op.Shaped cfg) (regenerateEnrollmentCode cfg tenantId environment deviceId actor) := by
  refine Only.bind shaped_generateEnrollmentCode fun code => ?_
  refine Only.bind (only_perform trivial) fun now => ?_
  refine Only.bind (only_perform trivial) fun device => ?_
  cases device with
  | none => trivial
  | some device => exact shaped_event trivial

theorem shaped_claimDeviceWithCode {input : ClaimInput} :
    Only (Op.Shaped cfg) (claimDeviceWithCode cfg input) := by
  unfold claimDeviceWithCode
  split
  · trivial
  · apply shaped_withClient
    refine Only.bind (only_perform trivial) fun _ => Only.bind (only_perform trivial) fun found => ?_
    cases found with
    | none => exact shaped_reject
    | some pending =>
        refine Only.bind (only_perform trivial) fun (collisions : ℕ) => ?_
        show Only _ (if collisions > 0 then _ else _)
        split
        · exact shaped_reject
        · refine Only.bind (only_perform rfl) fun updated => Only.bind (only_perform trivial) fun _ => ?_
          cases updated with
          | none => trivial
          | some device => exact shaped_event trivial

theorem shaped_revokeDevice {tenantId environment deviceId : JsString} {actor : Option AuditActor} :
    Only (Op.Shaped cfg) (revokeDevice tenantId environment deviceId actor) := by
  refine Only.bind (only_perform trivial) fun device => ?_
  cases device with
  | none => trivial
  | some device => exact shaped_event trivial

theorem shaped_updateDevice {tenantId environment deviceId : JsString} {input : UpdateDeviceInput}
    {actor : Option AuditActor} :
    Only (Op.Shaped cfg) (updateDevice cfg tenantId environment deviceId input actor) := by
  refine Only.bind (only_ofExcept) fun lastSeenAt => ?_
  refine Only.bind (only_perform trivial) fun device => ?_
  cases device with
  | none => trivial
  | some device => exact shaped_event trivial

/-! ## Registrations -/

theorem shaped_startRegistration {tenantId environment : JsString} {profile : Option Json}
    {actor : AuditActor} :
    Only (Op.Shaped cfg) (startRegistration cfg tenantId environment profile actor) := by
  refine Only.bind shaped_generateEnrollmentCode fun code => ?_
  refine Only.bind (only_perform trivial) fun now => ?_
  refine Only.bind (only_perform trivial) fun session => ?_
  exact shaped_event (Only.bind shaped_cachePendingDemoCode fun _ => trivial)

theorem shaped_pairDevice {input : PairInput} :
    Only (Op.Shaped cfg) (pairDeviceForRegistration cfg input) := by
  unfold pairDeviceForRegistration
  split
  · trivial
  · refine Only.bind shaped_generateEnrollmentCode fun code => ?_
    refine Only.bind (only_perform trivial) fun now => shaped_withClient ?_
    refine Only.bind (only_perform trivial) fun _ => Only.bind (only_perform trivial) fun found => ?_
    cases found with
    | none => exact shaped_reject
    | some session =>
        refine Only.bind (only_perform rfl) fun device => ?_
        refine Only.bind (only_perform trivial) fun updated => ?_
        refine Only.bind (only_perform trivial) fun _ => ?_
        exact shaped_event (Only.bind shaped_cachePendingDemoCode fun _ => trivial)

theorem shaped_submitCommitment {input : CommitmentInput} :
    Only (Op.Shaped cfg) (submitCommitmentForRegistration cfg input) := by
  unfold submitCommitmentForRegistration
  simp only
  split
  · trivial
  next hdid =>
    split
    · trivial
    next hcommitment =>
      refine Only.bind shaped_generateEnrollmentCode fun code => ?_
      refine Only.bind (only_perform trivial) fun now => ?_
      refine Only.bind (only_perform trivial) fun nonceBytes => shaped_withClient ?_
      refine Only.bind (only_perform trivial) fun _ =>
        Only.bind (only_perform trivial) fun found => ?_
      cases found with
      | none => exact shaped_reject
      | some session =>
          refine Only.bind (only_perform ?_) fun updated => ?_
          · exact ⟨by simpa using hdid, by simpa using hcommitment⟩
          · refine Only.bind (only_perform trivial) fun _ => ?_
            exact shaped_event (Only.bind shaped_cachePendingDemoCode fun _ => trivial)

theorem shaped_finishRegistration {session : RegistrationSession} {stored : JsString}
    (hstored : session.commitment = some stored) :
    Only (Op.Shaped cfg) (finishRegistration cfg session stored) := by
  unfold finishRegistration
  split
  · trivial
  next commitment hcommitment =>
    refine Only.bind (only_perform ?_) fun user => Only.bind (only_perform trivial) fun updated => ?_
    · exact ⟨session, stored, commitment, hstored, hcommitment, rfl⟩
    · cases session.deviceId with
      | none =>
          show Only _ (await .commit >>= fun _ => _)
          exact Only.bind (only_perform trivial) fun _ => shaped_event trivial
      | some id =>
          refine Only.bind (only_perform trivial) fun device => ?_
          exact Only.bind (only_perform trivial) fun _ => shaped_event trivial

theorem shaped_completeRegistration {input : CompleteInput} :
    Only (Op.Shaped cfg) (completeRegistration cfg input) := by
  unfold completeRegistration
  split
  · split
    · split
      · apply shaped_withClient
        refine Only.bind (only_perform trivial) fun _ =>
          Only.bind (only_perform trivial) fun found => ?_
        cases found with
        | none => exact shaped_reject
        | some session =>
            dsimp only
            split
            · exact shaped_reject
            · split
              · exact shaped_reject
              next stored hstored =>
                split
                · exact shaped_reject
                · refine Only.bind (only_perform trivial) fun ok => ?_
                  split
                  · exact shaped_reject
                  · exact shaped_finishRegistration (Option.filter_eq_some_iff.mp hstored).1
      · trivial
    · trivial
  · trivial

theorem shaped_abandonRegistration {tenantId environment sessionId : JsString} {actor : AuditActor} :
    Only (Op.Shaped cfg) (abandonRegistration tenantId environment sessionId actor) := by
  refine Only.bind (only_perform trivial) fun session => ?_
  cases session with
  | none => trivial
  | some session => exact shaped_event trivial

theorem shaped_getSignup {sessionId : JsString} : Only (Op.Shaped cfg) (getSignup sessionId) := by
  refine Only.bind (only_perform trivial) fun session => ?_
  cases session with
  | none => trivial
  | some session => exact Only.bind (only_perform trivial) fun _ => trivial

/-! ## Users -/

theorem shaped_findPrimaryDevice {tenantId environment : JsString} {deviceId : Option JsString} :
    Only (Op.Shaped cfg) (findPrimaryDevice tenantId environment deviceId) := by
  unfold findPrimaryDevice
  split
  · trivial
  · refine Only.bind (only_perform trivial) fun device => ?_
    cases device <;> trivial

theorem shaped_createTenantUser {tenantId environment : JsString} {input : CreateUserInput}
    {actor : Option AuditActor} :
    Only (Op.Shaped cfg) (createTenantUser cfg tenantId environment input actor) := by
  refine Only.bind shaped_findPrimaryDevice fun primaryDeviceId => ?_
  refine Only.bind (shaped_defaultExternalId _ _) fun externalId => ?_
  exact Only.bind (only_perform trivial) fun user => shaped_event trivial

theorem shaped_updateTenantUser {tenantId environment userId : JsString} {input : UpdateUserInput}
    {actor : Option AuditActor} :
    Only (Op.Shaped cfg) (updateTenantUser cfg tenantId environment userId input actor) := by
  refine Only.bind shaped_findPrimaryDevice fun primaryDeviceId => ?_
  refine Only.bind (only_perform trivial) fun user => ?_
  cases user with
  | none => trivial
  | some user => exact shaped_event trivial

theorem shaped_registerFaceFirst {tenantId environment : JsString} {input : FaceFirstRegistration} :
    Only (Op.Shaped cfg) (registerFaceFirstIdentity cfg tenantId environment input) := by
  unfold registerFaceFirstIdentity
  split
  · trivial
  split
  · trivial
  split
  · trivial
  split
  · trivial
  · refine Only.bind (only_perform trivial) fun taken => ?_
    split
    · trivial
    · exact Only.bind (only_perform trivial) fun row => trivial

end Programs

/-! ## The calls -/

theorem shaped_code {cfg : Settings} (a : Call) : Only (Op.Shaped cfg) (code cfg a) := by
  cases a with
  | createDevice => exact Only.bind shaped_createDevice fun _ => trivial
  | issueEnrollmentCode => exact Only.bind shaped_issueEnrollmentCode fun _ => trivial
  | regenerateEnrollmentCode => exact Only.bind shaped_regenerateEnrollmentCode fun _ => trivial
  | claimDeviceWithCode => exact Only.bind shaped_claimDeviceWithCode fun _ => trivial
  | revokeDevice => exact Only.bind shaped_revokeDevice fun _ => trivial
  | updateDevice => exact Only.bind shaped_updateDevice fun _ => trivial
  | startRegistration => exact Only.bind shaped_startRegistration fun _ => trivial
  | pairDevice => exact Only.bind shaped_pairDevice fun _ => trivial
  | submitCommitment => exact Only.bind shaped_submitCommitment fun _ => trivial
  | completeRegistration => exact Only.bind shaped_completeRegistration fun _ => trivial
  | abandonRegistration => exact Only.bind shaped_abandonRegistration fun _ => trivial
  | getSignup => exact Only.bind shaped_getSignup fun _ => trivial
  | createTenantUser => exact Only.bind shaped_createTenantUser fun _ => trivial
  | updateTenantUser => exact Only.bind shaped_updateTenantUser fun _ => trivial
  | registerFaceFirst => exact Only.bind shaped_registerFaceFirst fun _ => trivial

/-- Every statement of a run has the parameters that the services give it. -/
theorem reach_shaped {cfg : Settings} {pg : Jsonb} {init : World → Prop}
    {good : State → Label Call Oracle Env → Prop} {c : State}
    (h : (system cfg pg).Reach init good c) :
    (system cfg pg).Reach init
      (fun c l => good c l ∧ System.OnlyWhere (fun _ o _ _ => Op.Shaped cfg o) c l) c :=
  h.onlyWhere shaped_code

end ZeroAuth.Tenant
