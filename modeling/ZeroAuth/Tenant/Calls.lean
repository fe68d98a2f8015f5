/-
  ZeroAuth.Tenant.Calls

  The calls that make single statements: each has its effect, or none and throws, or has its
  write and throws because the answer was lost.
-/

import ZeroAuth.Tenant.Effects

namespace ZeroAuth.Tenant

open ZeroAuth.Lib ZeroAuth.Js ZeroAuth.Pg
open ZeroAuth.Audit (ChainedAuditPayload)

/-! ## Single statements -/

section Pool

variable {cfg : Settings} {pg : Jsonb} {ok : ℕ → Op → Oracle → World → Prop}
  {extra : Write → Prop} {t : ℕ} {w : World}

theorem safe_startRegistration (hg : Guards pg ok extra) {tenantId environment : JsString}
    {profile : Option Json} {actor : AuditActor} (h : Done t [] [] w) :
    (discipline cfg pg ok extra).Safe t
      (Outcome (fun res ws ps => ws = [.insert (.session res.session)] ∧ Unfinal ps ∧
        res.session.pairCodeHash = some (sha256Hex res.pairCode)) t)
      (startRegistration cfg tenantId environment profile actor) w := by
  apply Discipline.safe_bind
  apply safe_values plain_generateEnrollmentCode h
  intro out w₁ h₁
  cases out with
  | error e => exact .inl h₁
  | ok code =>
  apply Discipline.safe_bind
  apply safe_plain_done (o := .now) trivial h₁
  intro r w₂ h₂
  cases r with
  | error e => exact .inl h₂
  | ok now =>
  apply Discipline.safe_bind
  refine safe_pool hg h₂ (fun _ => trivial) (fun db now' ω a w₃ ha h₃ => ?_)
    (fun e w₃ h₃ => .inl h₃) fun db now' ω a write e w₃ ha _ h₃ hlost => ?_
  case refine_2 =>
    obtain ⟨u, -, rfl⟩ := withUuid_ok ha
    exact .inr ⟨hlost, ⟨_, code, 0, []⟩, _, [], h₃, rfl,
      unfinal_nil, rfl⟩
  obtain ⟨u, -, rfl⟩ := withUuid_ok ha
  refine safe_unfinal "registration.started" rfl (by decide) h₃ fun w₄ h₄ hunfinal => ?_
  apply Discipline.safe_bind
  refine safe_cachePendingDemoCode _ h₄ (List.mem_singleton_self _) rfl rfl rfl rfl fun w₅ h₅ => ?_
  exact ⟨_, _, h₅, rfl, hunfinal, rfl⟩

/-- One insert of a device, and an event about it. -/
theorem safe_createDevice (hg : Guards pg ok extra) {tenantId environment : JsString}
    {input : CreateDeviceInput} {actor : Option AuditActor} (h : Done t [] [] w) :
    (discipline cfg pg ok extra).Safe t
      (Outcome (fun d ws ps => DeviceInserted d ws ∧ Unfinal ps) t)
      (createDevice tenantId environment input actor) w := by
  apply Discipline.safe_bind
  apply safe_values (plain_defaultExternalId _ _) h
  intro out w₁ h₁
  cases out with
  | error e => exact .inl h₁
  | ok externalId =>
  apply Discipline.safe_bind
  refine safe_pool hg h₁ (fun _ => trivial) (fun db now ω a w₂ ha h₂ => ?_)
    (fun e w₂ h₂ => .inl h₂) fun db now ω a write e w₂ ha _ h₂ hlost => ?_
  · obtain ⟨u, -, rfl⟩ := withUuid_ok ha
    refine safe_unfinal "device.created" rfl (by decide) h₂ fun w₃ h₃ hunfinal => ?_
    exact ⟨_, _, h₃, rfl, hunfinal⟩
  · obtain ⟨u, -, rfl⟩ := withUuid_ok ha
    exact .inr ⟨hlost, _, _, [], h₂, rfl, unfinal_nil⟩

theorem safe_issueEnrollmentCode (hg : Guards pg ok extra) {tenantId environment : JsString}
    {input : IssueInput} {actor : Option AuditActor} (h : Done t [] [] w) :
    (discipline cfg pg ok extra).Safe t
      (Outcome (fun i ws ps => DeviceInserted i.device ws ∧ Unfinal ps ∧
        i.device.enrollmentCodeHash = some (sha256Hex i.enrollmentCode)) t)
      (issueEnrollmentCode cfg tenantId environment input actor) w := by
  apply Discipline.safe_bind
  -- the code, its time and the external id are drawn before the statement
  apply safe_values plain_generateEnrollmentCode h
  intro out w₁ h₁
  cases out with
  | error e => exact .inl h₁
  | ok code =>
  apply Discipline.safe_bind
  apply safe_plain_done (o := .now) trivial h₁
  intro r w₂ h₂
  cases r with
  | error e => exact .inl h₂
  | ok now =>
  apply Discipline.safe_bind
  apply safe_values (plain_defaultExternalId _ _) h₂
  intro out w₃ h₃
  cases out with
  | error e => exact .inl h₃
  | ok externalId =>
  apply Discipline.safe_bind
  -- the INSERT and the audit event; when the answer is lost, the row without the event
  refine safe_pool hg h₃ (fun _ => trivial) (fun db now' ω a w₄ ha h₄ => ?_)
    (fun e w₄ h₄ => .inl h₄) fun db now' ω a write e w₄ ha _ h₄ hlost => ?_
  · obtain ⟨u, -, rfl⟩ := withUuid_ok ha
    refine safe_unfinal "device.enrollment_code_issued" rfl (by decide) h₄ fun w₅ h₅ hunfinal => ?_
    exact ⟨_, _, h₅, rfl, hunfinal, rfl⟩
  · obtain ⟨u, -, rfl⟩ := withUuid_ok ha
    exact .inr ⟨hlost, ⟨_, code, (show ℕ from now) + enrollmentCodeTtlMs⟩, _, [], h₄, rfl,
      unfinal_nil, rfl⟩

/-- What an UPDATE … RETURNING * answers and writes. -/
theorem deviceChanged_of_update {db : Db} {p : Device → Bool} {f : ℕ → Device → Device} {now : ℕ} :
    DeviceChanged f (Answer.update .device (Db.devices db) p (f now)).value
      (Answer.update .device (Db.devices db) p (f now)).write.toList := by
  rcases update_cases .device (Db.devices db) p (f now) with
    ⟨d, -, -, heq⟩ | heq
  · rw [heq]
    exact .inr ⟨d, now, rfl, rfl⟩
  · rw [heq]
    exact .inl ⟨rfl, rfl⟩

theorem DeviceChanged.of_none {f : ℕ → Device → Device} {ws : List Write}
    (h : DeviceChanged f none ws) : ws = [] := by
  rcases h with ⟨-, rfl⟩ | ⟨d, now, hnone, -⟩
  · rfl
  · cases hnone

theorem safe_regenerateEnrollmentCode (hg : Guards pg ok extra)
    {tenantId environment deviceId : JsString} {actor : Option AuditActor} (h : Done t [] [] w) :
    (discipline cfg pg ok extra).Safe t
      (Outcome (fun i ws ps => (i = none ∧ ws = [] ∧ ps = []) ∨ ∃ i', i = some i' ∧ Unfinal ps ∧
        DeviceChanged (fun now => Device.reissued (sha256Hex i'.enrollmentCode) i'.expiresAt now)
          (some i'.device) ws) t)
      (regenerateEnrollmentCode cfg tenantId environment deviceId actor) w := by
  apply Discipline.safe_bind
  -- the code and its time are drawn before the statement
  apply safe_values plain_generateEnrollmentCode h
  intro out w₁ h₁
  cases out with
  | error e => exact .inl h₁
  | ok code =>
  apply Discipline.safe_bind
  apply safe_plain_done (o := .now) trivial h₁
  intro r w₂ h₂
  cases r with
  | error e => exact .inl h₂
  | ok now =>
  apply Discipline.safe_bind
  -- the UPDATE concerns the device that the caller owns
  have hrun : ∀ {db now' ω a}, (Sql.reissueCode deviceId tenantId environment (sha256Hex code)
      ((show ℕ from now) + enrollmentCodeTtlMs)).run pg db now' ω = .ok a →
      DeviceChanged (fun now' => Device.reissued (sha256Hex code)
        ((show ℕ from now) + enrollmentCodeTtlMs) now') a.value a.write.toList := by
    intro db now' ω a ha
    obtain ⟨id, u, -, -, rfl⟩ := withOwner_ok ha
    exact deviceChanged_of_update
  -- the UPDATE and the audit event; when the answer is lost, the change without the event
  refine safe_pool hg h₂ (fun _ => trivial) (fun db now' ω a w₃ ha h₃ => ?_)
    (fun e w₃ h₃ => .inl h₃) fun db now' ω a write e w₃ ha hwrite h₃ hlost => ?_
  case refine_2 =>
    have hchanged := hrun ha
    cases hv : a.value with
    | none =>
        rw [hv, hwrite] at hchanged
        cases hchanged.of_none
    | some d =>
        rw [hv] at hchanged
        exact .inr ⟨hlost, some ⟨d, code, (show ℕ from now) + enrollmentCodeTtlMs⟩, _, [], h₃,
          .inr ⟨_, rfl, unfinal_nil, hchanged⟩⟩
  have hchanged := hrun ha
  cases hv : a.value with
  | none =>
      rw [hv] at hchanged
      rw [hchanged.of_none] at h₃
      exact ⟨_, _, h₃, .inl ⟨rfl, rfl, rfl⟩⟩
  | some d =>
      rw [hv] at hchanged
      refine safe_unfinal "device.enrollment_code_reissued" rfl (by decide) h₃ fun w₄ h₄ hunfinal => ?_
      exact ⟨_, _, h₄, .inr ⟨_, rfl,
        hunfinal, hchanged⟩⟩

theorem safe_revokeDevice (hg : Guards pg ok extra) {tenantId environment deviceId : JsString}
    {actor : Option AuditActor} (h : Done t [] [] w) :
    (discipline cfg pg ok extra).Safe t
      (Outcome (fun d ws ps => DeviceChanged Device.revoked d ws ∧ Unfinal ps) t)
      (revokeDevice tenantId environment deviceId actor) w := by
  apply Discipline.safe_bind
  have hrun : ∀ {db now ω a}, (Sql.revoke deviceId tenantId environment).run pg db now ω = .ok a →
      DeviceChanged Device.revoked a.value a.write.toList := by
    intro db now ω a ha
    obtain ⟨id, u, -, -, rfl⟩ := withOwner_ok ha
    exact deviceChanged_of_update
  refine safe_pool hg h (fun _ => trivial) (fun db now ω a w₁ ha h₁ => ?_)
    (fun e w₁ h₁ => .inl h₁) fun db now ω a write e w₁ ha _ h₁ hlost =>
      .inr ⟨hlost, _, _, [], h₁, hrun ha, unfinal_nil⟩
  have hchanged := hrun ha
  cases hv : a.value with
  | none =>
      rw [hv] at hchanged
      exact ⟨_, _, h₁, hchanged, unfinal_nil⟩
  | some d =>
      rw [hv] at hchanged
      refine safe_unfinal "device.revoked" rfl (by decide) h₁ fun w₂ h₂ hunfinal => ?_
      exact ⟨_, _, h₂, hchanged, hunfinal⟩

theorem safe_updateDevice (hg : Guards pg ok extra) {tenantId environment deviceId : JsString}
    {input : UpdateDeviceInput} {actor : Option AuditActor} (h : Done t [] [] w) :
    (discipline cfg pg ok extra).Safe t
      (Outcome (fun d ws ps => (∃ v, DeviceChanged (Device.updated v) d ws) ∧ Unfinal ps) t)
      (updateDevice cfg tenantId environment deviceId input actor) w := by
  apply Discipline.safe_bind
  cases hseen : parseLastSeen cfg input.lastSeenAt with
  | error e => exact .inl h
  | ok lastSeenAt =>
  apply Discipline.safe_bind
  have hrun : ∀ {v : DeviceUpdate} {db now ω a},
      (Sql.updateDevice deviceId tenantId environment v).run pg db now ω = .ok a →
      ∃ v, DeviceChanged (Device.updated v) a.value a.write.toList := by
    intro v db now ω a ha
    obtain ⟨id, u, -, -, rfl⟩ := withOwner_ok ha
    exact ⟨_, deviceChanged_of_update⟩
  refine safe_pool hg h (fun _ => trivial) (fun db now ω a w₁ ha h₁ => ?_)
    (fun e w₁ h₁ => .inl h₁) fun db now ω a write e w₁ ha _ h₁ hlost =>
      .inr ⟨hlost, _, _, [], h₁, hrun ha, unfinal_nil⟩
  obtain ⟨v, hchanged⟩ := hrun ha
  cases hv : a.value with
  | none =>
      rw [hv] at hchanged
      exact ⟨_, _, h₁, ⟨_, hchanged⟩, unfinal_nil⟩
  | some d =>
      rw [hv] at hchanged
      refine safe_unfinal "device.updated" rfl (by decide) h₁ fun w₂ h₂ hunfinal => ?_
      exact ⟨_, _, h₂, ⟨_, hchanged⟩, hunfinal⟩

theorem safe_abandonRegistration (hg : Guards pg ok extra)
    {tenantId environment sessionId : JsString} {actor : AuditActor} (h : Done t [] [] w) :
    (discipline cfg pg ok extra).Safe t (Outcome AbandonEffect t)
      (abandonRegistration tenantId environment sessionId actor) w := by
  apply Discipline.safe_bind
  refine safe_pool hg h (fun _ => trivial) (fun db now ω a w₁ ha h₁ => ?_)
    (fun e w₁ h₁ => .inl h₁) fun db now ω a write e w₁ ha hwrite h₁ hlost => ?_
  case refine_2 =>
    obtain ⟨id, u, -, -, rfl⟩ := withOwner_ok ha
    obtain ⟨s, -, -, rfl⟩ := update_write hwrite
    obtain ⟨p, hp⟩ := exists_abandonedEntry s.id
    rw [hwrite] at h₁
    exact .inr ⟨hlost, _, _, [p], h₁, .inr ⟨s, now, p, rfl, rfl, rfl, hp⟩⟩
  obtain ⟨id, u, -, -, rfl⟩ := withOwner_ok ha
  rcases update_cases .session (Db.sessions db)
    (RegistrationSession.isOwn id u environment) (RegistrationSession.abandoned now) with
    ⟨s, -, -, heq⟩ | heq
  · rw [heq] at h₁ ⊢
    refine safe_event h₁ (fun id' state hr => ?_) fun w₂ h₂ => ?_
    · obtain ⟨rfl, rfl⟩ := @IsAbandonedEntry.reports s.id _ _ _ ⟨rfl, rfl⟩ hr
      exact ⟨_, List.mem_singleton_self _, s, now, rfl, rfl⟩
    · exact ⟨_, _, h₂, .inr ⟨s, now, _, rfl, rfl, rfl, rfl, rfl⟩⟩
  · rw [heq] at h₁ ⊢
    exact ⟨_, _, h₁, .inl ⟨rfl, rfl, rfl⟩⟩

theorem safe_getSignup {sessionId : JsString} (h : Done t [] [] w) :
    (discipline cfg pg ok extra).Safe t (Outcome (fun _ ws ps => ws = [] ∧ ps = []) t)
      (getSignup sessionId) w := by
  apply Discipline.safe_bind
  refine safe_pool_read h (fun db now ω a ha => ?_) (fun db now ω a w₁ ha h₁ => ?_)
    fun e w₁ h₁ => .inl h₁
  · obtain ⟨id, u, -, -, rfl⟩ := withOwner_ok ha
    rfl
  obtain ⟨id, u, -, -, rfl⟩ := withOwner_ok ha
  simp only
  cases (Db.sessions db).find? (RegistrationSession.isOwn id u (js "live")) with
  | none => exact ⟨_, _, h₁, rfl, rfl⟩
  | some s =>
      apply Discipline.safe_bind
      apply safe_plain_done (o := .peekDemoCode sessionId) trivial h₁
      intro r w₂ h₂
      cases r with
      | error e => exact .inl h₂
      | ok pending => exact ⟨_, _, h₂, rfl, rfl⟩

/-! ## Users -/

/-- The device that a caller names is only read. -/
theorem safe_findPrimaryDevice {tenantId environment : JsString}
    {deviceId : Option JsString} {Q : Except Failure (Option Uuid) → World → Prop}
    (h : Done t [] [] w) (hQ : ∀ out w', Done t [] [] w' → Q out w') :
    (discipline cfg pg ok extra).Safe t Q (findPrimaryDevice tenantId environment deviceId) w := by
  unfold findPrimaryDevice
  split
  · exact hQ _ _ h
  · apply Discipline.safe_bind
    refine safe_pool_read h (fun db now ω a ha => ?_) (fun db now ω a w₁ ha h₁ => ?_)
      fun e w₁ h₁ => hQ _ _ h₁
    · obtain ⟨id, u, -, -, rfl⟩ := withOwner_ok ha
      rfl
    obtain ⟨id, u, -, -, rfl⟩ := withOwner_ok ha
    simp only
    cases (Db.devices db).find? (Device.isOwn id u environment) with
    | none => exact hQ _ _ h₁
    | some d => exact hQ _ _ h₁

theorem userChanged_insert (u : TenantUser) : UserChanged [.insert (.user u)] := by
  intro write hwrite
  rw [List.mem_singleton.mp hwrite]
  exact ⟨u, rfl⟩

theorem userChanged_update {db : Db} {p : TenantUser → Bool} {f : TenantUser → TenantUser} :
    UserChanged (Answer.update .user (Db.users db) p f).write.toList := by
  intro write hwrite
  obtain ⟨r, -, -, rfl⟩ := update_write (Option.mem_toList.mp hwrite)
  exact ⟨_, rfl⟩

theorem safe_createTenantUser (hg : Guards pg ok extra) {tenantId environment : JsString}
    {input : CreateUserInput} {actor : Option AuditActor} (h : Done t [] [] w) :
    (discipline cfg pg ok extra).Safe t
      (Outcome (fun _ ws ps => UserChanged ws ∧ Unfinal ps) t)
      (createTenantUser cfg tenantId environment input actor) w := by
  apply Discipline.safe_bind
  apply safe_findPrimaryDevice h
  intro out w₁ h₁
  cases out with
  | error e => exact .inl h₁
  | ok primaryDeviceId =>
  apply Discipline.safe_bind
  apply safe_values (plain_defaultExternalId _ _) h₁
  intro out w₂ h₂
  cases out with
  | error e => exact .inl h₂
  | ok externalId =>
  apply Discipline.safe_bind
  refine safe_pool hg h₂ (fun _ => trivial) (fun db now ω a w₃ ha h₃ => ?_)
    (fun e w₃ h₃ => .inl h₃) fun db now ω a write e w₃ ha _ h₃ hlost => ?_
  · obtain ⟨u, -, rfl⟩ := withUuid_ok ha
    refine safe_unfinal "user.created" rfl (by decide) h₃ fun w₄ h₄ hunfinal => ?_
    exact ⟨_, _, h₄, userChanged_insert _, hunfinal⟩
  · have hchanged : UserChanged a.write.toList := by
      obtain ⟨u, -, rfl⟩ := withUuid_ok ha
      exact userChanged_insert _
    exact .inr ⟨hlost, a.value, _, [], h₃, hchanged, unfinal_nil⟩

theorem safe_updateTenantUser (hg : Guards pg ok extra) {tenantId environment userId : JsString}
    {input : UpdateUserInput} {actor : Option AuditActor} (h : Done t [] [] w) :
    (discipline cfg pg ok extra).Safe t
      (Outcome (fun _ ws ps => UserChanged ws ∧ Unfinal ps) t)
      (updateTenantUser cfg tenantId environment userId input actor) w := by
  apply Discipline.safe_bind
  apply safe_findPrimaryDevice h
  intro out w₁ h₁
  cases out with
  | error e => exact .inl h₁
  | ok primaryDeviceId =>
  apply Discipline.safe_bind
  have hrun : ∀ {v : UserUpdate} {db now ω a},
      (Sql.updateUser userId tenantId environment v).run pg db now ω = .ok a →
      UserChanged a.write.toList := by
    intro v db now ω a ha
    obtain ⟨id, u, -, -, rfl⟩ := withOwner_ok ha
    exact userChanged_update
  refine safe_pool hg h₁ (fun _ => trivial) (fun db now ω a w₂ ha h₂ => ?_)
    (fun e w₂ h₂ => .inl h₂) fun db now ω a write e w₂ ha _ h₂ hlost =>
      .inr ⟨hlost, a.value, _, [], h₂, hrun ha, unfinal_nil⟩
  have hchanged := hrun ha
  cases hv : a.value with
  | none => exact ⟨_, _, h₂, hchanged, unfinal_nil⟩
  | some user =>
      refine safe_unfinal "user.updated" rfl (by decide) h₂ fun w₃ h₃ hunfinal => ?_
      exact ⟨_, _, h₃, hchanged, hunfinal⟩

theorem safe_registerFaceFirst (hg : Guards pg ok extra) {tenantId environment : JsString}
    {input : FaceFirstRegistration} (h : Done t [] [] w) :
    (discipline cfg pg ok extra).Safe t
      (Outcome (fun _ ws ps => UserChanged ws ∧ Unfinal ps) t)
      (registerFaceFirstIdentity cfg tenantId environment input) w := by
  unfold registerFaceFirstIdentity
  split
  · exact .inl h
  split
  · exact .inl h
  split
  · exact .inl h
  split
  · exact .inl h
  apply Discipline.safe_bind
  refine safe_pool_read h (fun db now ω a ha => ?_) (fun db now ω a w₁ ha h₁ => ?_)
    fun e w₁ h₁ => .inl h₁
  · obtain ⟨u, -, rfl⟩ := withUuid_ok ha
    rfl
  obtain ⟨u, -, rfl⟩ := withUuid_ok ha
  simp only
  split
  · exact .inl h₁
  apply Discipline.safe_bind
  refine safe_pool hg h₁ (fun _ => trivial) (fun db now ω a w₂ ha h₂ => ?_)
    (fun e w₂ h₂ => .inl h₂) fun db now ω a write e w₂ ha _ h₂ hlost => ?_
  · obtain ⟨u, -, rfl⟩ := withUuid_ok ha
    exact ⟨_, _, h₂, userChanged_insert _, unfinal_nil⟩
  · obtain ⟨u, -, rfl⟩ := withUuid_ok ha
    exact .inr ⟨hlost, ⟨Uuid.ofNat 0, [], [], 0⟩, _, [], h₂, userChanged_insert _, unfinal_nil⟩

end Pool

end ZeroAuth.Tenant
