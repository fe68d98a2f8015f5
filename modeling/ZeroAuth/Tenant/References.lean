/-
  ZeroAuth.Tenant.References

  What a row refers to.

  `registration_sessions` and `tenant_users` name devices and users by id alone, and no foreign
  key compares tenants.  That a reference never leaves its tenant and environment is kept by the
  code.  A session takes its device and its user from the transaction that writes them.  A
  user takes its primary device from its session, or from a SELECT that the same call has made
  in its own name (`NamesSelected`).
-/

import ZeroAuth.Tenant.Completion

namespace ZeroAuth.Tenant

open ZeroAuth.Lib ZeroAuth.Lib.Prog ZeroAuth.Js ZeroAuth.Pg

/-- Every reference is to a row of the same owner. -/
structure ReferencesOk (db : Db) : Prop where
  sessionDevice : ∀ s ∈ Db.sessions db, ∀ id, s.deviceId = some id →
    ∃ d ∈ Db.devices db, d.id = id ∧ (Row.device d).owner = (Row.session s).owner
  sessionUser : ∀ s ∈ Db.sessions db, ∀ id, s.tenantUserId = some id →
    ∃ u ∈ Db.users db, u.id = id ∧ (Row.user u).owner = (Row.session s).owner
  userDevice : ∀ u ∈ Db.users db, ∀ id, u.primaryDeviceId = some id →
    ∃ d ∈ Db.devices db, d.id = id ∧ (Row.device d).owner = (Row.user u).owner

/-! ## Sessions -/

/-- The row is a session that is paired with this device. -/
def Row.PairedWith (deviceId : Uuid) : Row → Prop
  | .session s => s.deviceId = some deviceId
  | _ => False

/-- Only the first step gives a session a device. -/
theorem pairs_of_gains {pg : Jsonb} {q : Sql} {write : Write} (h : Change pg q write)
    {deviceId : Uuid} (hgain : write.Gains (Row.PairedWith deviceId)) :
    ∃ s codeHash expiresAt now, s.state = .awaitingDevice ∧
      write = .update (.session s) (.session (s.paired deviceId codeHash expiresAt now)) := by
  cases h with
  | sessionStarted id u now => cases hgain
  | @sessionPaired deviceId' codeHash expiresAt s now haccepts =>
      obtain ⟨hash, n, haccepts⟩ := haccepts
      obtain rfl : deviceId' = deviceId := Option.some.inj hgain.2
      exact ⟨s, codeHash, expiresAt, now, RegistrationSession.state_of_accepts haccepts, rfl⟩
  | sessionCommitted now haccepts => exact absurd hgain.2 hgain.1
  | sessionCompleted now haccepts => exact absurd hgain.2 hgain.1
  | sessionAbandoned u now hown => exact absurd hgain.2 hgain.1
  | deviceCreated | slotIssued | devicePaired | userCreated | userRegistered | faceFirst =>
      exact hgain.elim
  | _ => exact hgain.2.elim

section Reach

variable {cfg : Settings} {pg : Jsonb} {c : State} {t : ℕ} {write : Write}

/-- What the first step has committed. -/
theorem pairs_by (h : (system cfg pg).Reach Empty (fun _ _ => True) c) {s : RegistrationSession}
    {deviceId : Uuid} {codeHash : JsString} {expiresAt now : ℕ}
    (hw : (t, .update (.session s) (.session (s.paired deviceId codeHash expiresAt now))) ∈
      c.world.store.journal) (hstate : s.state = .awaitingDevice) :
    ∃ input res, PairEffect cfg pg input res (c.world.store.committedBy t) := by
  -- the step changes the state, so its statement went by a locked row
  have hmoved : (s.paired deviceId codeHash expiresAt now).state ≠ s.state := by
    rw [hstate]
    show RegistrationState.awaitingCommitment ≠ .awaitingDevice
    decide
  have hopen : (s.paired deviceId codeHash expiresAt now).state ≠ .abandoned := by
    show RegistrationState.awaitingCommitment ≠ .abandoned
    decide
  obtain ⟨th, x, ps, hth, heffect, hcall⟩ := moved_by h hw hmoved hopen
  have hmem := Store.mem_committedBy.mpr hw
  -- the later steps leave another state behind
  rcases hcall with ⟨input, hcall⟩ | ⟨input, hcall⟩ | ⟨input, hcall⟩
  · rw [hcall] at heffect
    cases x with
    | stepped res => exact ⟨input, res, heffect.1⟩
    | _ => exact heffect.elim
  · rw [hcall] at heffect
    cases x with
    | stepped res =>
        obtain ⟨⟨s₀, nonce, now', -, -, -, hws⟩, -⟩ := heffect
        rw [hws] at hmem
        have hrow := (RowWrite.update.inj (List.mem_singleton.mp hmem)).2
        have hsame := congrArg RegistrationSession.state (Row.session.inj hrow)
        cases hsame
    | _ => exact heffect.elim
  · rw [hcall] at heffect
    cases x with
    | completed res =>
        obtain ⟨s₀, text, n, id, now', -, -, -, hws, -⟩ := heffect
        rw [hws] at hmem
        rcases List.mem_cons.mp hmem with heq | hmem
        · cases heq
        · have hrow := (RowWrite.update.inj (List.mem_singleton.mp hmem)).2
          have hsame := congrArg RegistrationSession.state (Row.session.inj hrow)
          cases hsame
    | _ => exact heffect.elim

/-- A device stays, with its owner. -/
theorem device_now (h : (system cfg pg).Reach Empty (fun _ _ => True) c) {d : Device}
    (hw : (t, write) ∈ c.world.store.journal) (hd : newRow write = .device d) :
    ∃ d' ∈ Db.devices c.world.store.db, d'.id = d.id ∧
      (Row.device d').owner = (Row.device d).owner := by
  have hkept : ∀ q old new, Change pg q (.update old new) → ShapedWrite cfg pg (.update old new) →
      old.device?.isSome ∧ old.owner = (Row.device d).owner →
      new.device?.isSome ∧ new.owner = (Row.device d).owner := by
    intro q old new hchange _ hold
    refine ⟨?_, (owner_of_change hchange).trans hold.2⟩
    cases hchange <;> first | rfl | exact hold.1
  have hnow : (newRow write).device?.isSome ∧ (newRow write).owner = (Row.device d).owner := by
    rw [hd]
    exact ⟨rfl, rfl⟩
  obtain ⟨r, hr, hid, hsome, howner⟩ := (inv_shaped h).persists hkept hw hnow
  rw [hd] at hid
  cases r with
  | device d' => exact ⟨d', mem_devices.mpr hr, RowId.device.inj hid, howner⟩
  | session s => cases hsome
  | user u => cases hsome

/-- Two rows that a session has had belong to one owner. -/
theorem session_owner (h : (system cfg pg).Reach Empty (fun _ _ => True) c)
    {s s' : RegistrationSession} (hs : Known c (.session s)) (hs' : Known c (.session s'))
    (hid : s.id = s'.id) : (Row.session s).owner = (Row.session s').owner := by
  obtain ⟨e, he, hrow⟩ := hs
  obtain ⟨e', he', hrow'⟩ := hs'
  obtain ⟨s₁, hs₁, hid₁, -, hforward⟩ := session_now h he hrow
  obtain ⟨s₁', hs₁', hid₁', -, hforward'⟩ := session_now h he' hrow'
  have hsame := (inv_shaped h).distinct.unique (mem_sessions.mp hs₁) (mem_sessions.mp hs₁')
    (congrArg RowId.session (hid₁.trans (hid.trans hid₁'.symm)))
  obtain rfl := Row.session.inj hsame
  exact Prod.ext (hforward.tenantId.symm.trans hforward'.tenantId)
    (hforward.environment.symm.trans hforward'.environment)

/-- The device of a session, also of one that has been in the tables before. -/
theorem device_of_session (h : (system cfg pg).Reach Empty (fun _ _ => True) c)
    {s : RegistrationSession} (hs : Known c (.session s)) {id : Uuid} (hid : s.deviceId = some id) :
    ∃ d ∈ Db.devices c.world.store.db, d.id = id ∧
      (Row.device d).owner = (Row.session s).owner := by
  have hi := inv_shaped h
  obtain ⟨e₀, he₀, hnew⟩ := hs
  have hpaired : (newRow e₀.2).PairedWith id := by
    rw [hnew]
    exact hid
  obtain ⟨write, hwrite, hgain, hsame⟩ := Keyed.exists_gain hi.serial.history
    (List.mem_map_of_mem he₀) hpaired
  obtain ⟨⟨t, write⟩, he, rfl⟩ := List.mem_map.mp hwrite
  obtain ⟨⟨q, hchange⟩, -⟩ := hi.extra_of_mem he
  obtain ⟨s₀, codeHash, expiresAt, now, hstate, rfl⟩ := pairs_of_gains hchange hgain
  obtain ⟨input, res, s₁, write₁, d, now', -, hupsert, hd, -, hws⟩ := pairs_by h he hstate
  have hmem := Store.mem_committedBy.mpr he
  rw [hws] at hmem
  rcases List.mem_cons.mp hmem with heq | hmem
  · rw [← heq] at hd
    cases hd
  · -- the device was written by the same call
    obtain ⟨hold, hrow⟩ := RowWrite.update.inj (List.mem_singleton.mp hmem)
    obtain rfl := Row.session.inj hold
    have hdevice := congrArg RegistrationSession.deviceId (Row.session.inj hrow)
    obtain rfl : id = d.id := Option.some.inj hdevice
    have hwrite₁ : (t, write₁) ∈ c.world.store.journal :=
      Store.mem_committedBy.mp (hws ▸ List.mem_cons_self)
    obtain ⟨d', hd', hid', howner⟩ := device_now h hwrite₁ hd
    have hpair := owner_of_paired hupsert
    rw [hd] at hpair
    have hsession : (Row.session s₀).owner = (Row.session s).owner := by
      refine session_owner h (known_of_update h he) ⟨e₀, he₀, hnew⟩ ?_
      rw [hnew] at hsame
      exact RowId.session.inj hsame
    exact ⟨d', hd', hid', howner.trans (hpair.trans hsession)⟩

end Reach

/-! ## Users -/

/-- The SELECT has answered this device. -/
def selected (deviceId tenantId environment : JsString) (d : Device) : Act sig Failure :=
  ⟨.pool (.selectDevice deviceId tenantId environment), .ok (some d : Option Device)⟩

/-- A primary device that the statement names was answered before to a SELECT in the name of this
    tenant and environment. -/
def NamesSelected (tenantId environment : JsString) (es : List (Act sig Failure)) (o : Op) : Prop :=
  ∀ q id, (o = .pool q ∨ o = .query q) → q.primaryDevice = some id →
    ∃ deviceId d, selected deviceId tenantId environment d ∈ es ∧ d.id = id

section Programs

variable {cfg : Settings} {tenantId environment : JsString}

theorem namesSelected_of_in {scope : Option (JsString × JsString)} {o : Op}
    (h : o.In scope false) (es : List (Act sig Failure)) :
    NamesSelected tenantId environment es o := by
  rintro q id (rfl | rfl) hid
  · rcases h.2 with hnone | hfalse
    · rw [hnone] at hid
      cases hid
    · cases hfalse
  · rcases h.2 with hnone | hfalse
    · rw [hnone] at hid
      cases hid
    · cases hfalse

theorem ends_findPrimaryDevice {deviceId : Option JsString} :
    Ends (fun es out => ∀ id, out = .ok (some id) →
      ∃ deviceId d, selected deviceId tenantId environment d ∈ es ∧ d.id = id)
      (findPrimaryDevice tenantId environment deviceId) := by
  unfold findPrimaryDevice
  split
  · intro id hid
    cases hid
  · next deviceId _ =>
      refine ends_perform_bind.mpr ⟨fun (device : Option Device) => ?_, fun e id hid => ?_⟩
      · cases device with
        | none =>
            intro id hid
            cases hid
        | some d =>
            intro id hid
            cases hid
            exact ⟨deviceId, d, List.mem_cons_self, rfl⟩
      · cases hid

theorem namesSelected_createTenantUser {input : CreateUserInput} {actor : Option AuditActor} :
    Before (NamesSelected tenantId environment)
      (createTenantUser cfg tenantId environment input actor) := by
  have hfind : Only (Op.In (some (tenantId, environment)) false)
      (findPrimaryDevice tenantId environment input.primaryDeviceId) := in_findPrimaryDevice
  refine Before.bind (hfind.before fun es o ho => namesSelected_of_in ho es) ends_findPrimaryDevice
    fun es primaryDeviceId hselected => ?_
  have hname : Only (Op.In none false) (defaultExternalId (js "user") input.externalId) :=
    in_defaultExternalId _ _
  refine Before.bind (hname.before fun es' o ho => namesSelected_of_in ho _)
    (ends_of_forall (Φ := fun _ _ => True) fun _ _ => trivial) fun es' externalId _ => ?_
  refine before_perform_bind.mpr ⟨?_, fun user => before_perform_bind.mpr ⟨?_, fun _ => trivial⟩⟩
  · rintro q id (heq | heq) hid
    · cases heq
      obtain ⟨deviceId, d, hd, hdid⟩ := hselected id (congrArg Except.ok hid)
      exact ⟨deviceId, d, List.mem_append_left _ hd, hdid⟩
    · cases heq
  · rintro q id (heq | heq)
    · cases heq
    · cases heq

theorem namesSelected_updateTenantUser {userId : JsString} {input : UpdateUserInput}
    {actor : Option AuditActor} :
    Before (NamesSelected tenantId environment)
      (updateTenantUser cfg tenantId environment userId input actor) := by
  have hfind : Only (Op.In (some (tenantId, environment)) false)
      (findPrimaryDevice tenantId environment input.primaryDeviceId) := in_findPrimaryDevice
  refine Before.bind (hfind.before fun es o ho => namesSelected_of_in ho es) ends_findPrimaryDevice
    fun es primaryDeviceId hselected => ?_
  refine before_perform_bind.mpr ⟨?_, fun (user : Option TenantUser) => ?_⟩
  · rintro q id (heq | heq) hid
    · cases heq
      obtain ⟨deviceId, d, hd, hdid⟩ := hselected id (congrArg Except.ok hid)
      exact ⟨deviceId, d, List.mem_append_left _ hd, hdid⟩
    · cases heq
  · cases user with
    | none => trivial
    | some user =>
        refine before_perform_bind.mpr ⟨?_, fun _ => trivial⟩
        rintro q id (heq | heq)
        · cases heq
        · cases heq

/-- A call that takes a primary device has asked for it in its own name. -/
theorem namesSelected_code {a : Call} (h : a.takesDevice = true)
    (hscope : a.scope = some (tenantId, environment)) :
    Before (NamesSelected tenantId environment) (code cfg a) := by
  cases a with
  | createTenantUser =>
      cases hscope
      exact Before.bind namesSelected_createTenantUser
        (ends_of_forall (Φ := fun _ _ => True) fun _ _ => trivial) fun _ _ _ => trivial
  | updateTenantUser =>
      cases hscope
      exact Before.bind namesSelected_updateTenantUser
        (ends_of_forall (Φ := fun _ _ => True) fun _ _ => trivial) fun _ _ _ => trivial
  | _ => cases h

end Programs

/-- The row is a user with this primary device. -/
def Row.HasPrimary (deviceId : Uuid) : Row → Prop
  | .user u => u.primaryDeviceId = some deviceId
  | _ => False

section Users

variable {cfg : Settings} {pg : Jsonb} {c : State} {t : ℕ} {write : Write}

/-- The statement that gives a user a primary device names the device, or registers the user of a
    session. -/
theorem primary_of_gains {db : Db} {now : ℕ} {ω : Oracle} {q : Sql} {a : Answer q.Resp} {id : Uuid}
    (h : q.run pg db now ω = .ok a) (hw : a.write = some write)
    (hgain : write.Gains (Row.HasPrimary id)) :
    q.primaryDevice = some id ∨ (∃ u, write = .insert (.user u)) ∧ q.scope = none := by
  cases q with
  | insertUser =>
      obtain ⟨u, -, rfl⟩ := withUuid_ok h
      cases hw
      exact .inl hgain
  | updateUser userId tenantId environment v =>
      obtain ⟨i, u, -, -, rfl⟩ := withOwner_ok h
      obtain ⟨r, -, -, rfl⟩ := update_write hw
      obtain ⟨hold, hnew⟩ := hgain
      -- a device that the update leaves out is kept
      have hor : v.primaryDeviceId.or r.primaryDeviceId = some id := hnew
      left
      show v.primaryDeviceId = some id
      cases hv : v.primaryDeviceId with
      | none =>
          rw [hv, Option.none_or] at hor
          exact absurd hor hold
      | some id' =>
          rw [hv, Option.some_or] at hor
          exact hor
  | registerUser v =>
      cases h
      cases hw
      exact .inr ⟨⟨_, rfl⟩, rfl⟩
  | insertFaceFirst =>
      obtain ⟨u, -, rfl⟩ := withUuid_ok h
      cases hw
      cases hgain
  -- no other statement writes the device of a user
  | insertDevice | insertSlot | insertSession =>
      obtain ⟨u, -, rfl⟩ := withUuid_ok h
      cases hw
      exact hgain.elim
  | findDid =>
      obtain ⟨u, -, rfl⟩ := withUuid_ok h
      cases hw
  | reissueCode | revoke | updateDevice | abandonSession =>
      obtain ⟨i, u, -, -, rfl⟩ := withOwner_ok h
      obtain ⟨r, -, -, rfl⟩ := update_write hw
      exact hgain.2.elim
  | selectDevice | selectSession =>
      obtain ⟨i, u, -, -, rfl⟩ := withOwner_ok h
      cases hw
  | claimSlot | attachDevice | attachCommitment | completeSession =>
      cases h
      obtain ⟨r, -, -, rfl⟩ := update_write hw
      exact hgain.2.elim
  | upsertDevice v =>
      simp only [Sql.run] at h
      split at h
      · cases h
        cases hw
        exact hgain.2.elim
      · cases h
        cases hw
        exact hgain.elim
  | lockSlot | lockSession =>
      cases h
      rw [select_write] at hw
      cases hw
  | findCollision | selectDeviceById =>
      cases h
      cases hw

/-- A device that a SELECT has answered was in the tables, and of the tenant that had asked. -/
theorem known_of_selected (h : (system cfg pg).Reach Empty (fun _ _ => True) c) {t : ℕ}
    {deviceId tenantId environment : JsString} {d : Device}
    (he : (⟨t, selected deviceId tenantId environment d⟩ : Event) ∈ c.log) :
    Known c (.device d) ∧ Uuid.parse tenantId = some d.tenantId ∧ d.environment = environment := by
  refine h.log_holds (Q := fun c e => ∀ deviceId tenantId environment d,
    e.act = selected deviceId tenantId environment d →
      Known c (.device d) ∧ Uuid.parse tenantId = some d.tenantId ∧ d.environment = environment)
    ?_ ?_ _ he deviceId tenantId environment d rfl
  · intro c c' e hc hnext hold deviceId tenantId environment d heq
    obtain ⟨hknown, hrest⟩ := hold deviceId tenantId environment d heq
    exact ⟨hknown.later hc (.single hnext), hrest⟩
  · intro c t ω a past o k r w hc hg hth hx deviceId tenantId environment d heq
    cases heq
    obtain ⟨e, herr, -⟩ | ⟨answer, ha, hanswer, -⟩ := exec_pool hx
    · cases herr
    · obtain ⟨id, u, -, hu, rfl⟩ := withOwner_ok ha
      have hfound : (Db.devices c.world.store.db).find? (Device.isOwn id u environment) = some d :=
        (Except.ok.inj hanswer).symm
      have hown : Device.isOwn id u environment d = true :=
        List.find?_some (p := Device.isOwn id u environment) hfound
      obtain ⟨-, htenant, henv⟩ := of_decide_eq_true hown
      have hknown := known_of_mem hc (mem_devices.mp (List.mem_of_find?_eq_some hfound))
      refine ⟨hknown.later hc (.single ⟨.resume t ω, hg, System.step_resume hth hx⟩), ?_, henv⟩
      rw [hu, htenant]

/-- The primary device of a user. -/
theorem device_of_user (h : (system cfg pg).Reach Empty (fun _ _ => True) c) {u : TenantUser}
    (hu : u ∈ Db.users c.world.store.db) {id : Uuid} (hid : u.primaryDeviceId = some id) :
    ∃ d ∈ Db.devices c.world.store.db, d.id = id ∧ (Row.device d).owner = (Row.user u).owner := by
  have hi := inv_shaped h
  obtain ⟨t₀, write₀, he₀, hnew⟩ := hi.origin (mem_users.mp hu)
  have hprimary : (newRow write₀).HasPrimary id := by
    rw [hnew]
    exact hid
  obtain ⟨write, hwrite, hgain, hsame⟩ := Keyed.exists_gain hi.serial.history
    (List.mem_map_of_mem he₀) hprimary
  obtain ⟨⟨t, write⟩, he, rfl⟩ := List.mem_map.mp hwrite
  -- the user as the write has left it
  obtain ⟨u₁, hu₁⟩ : ∃ u₁, newRow write = .user u₁ := by
    have hholds := hgain.holds
    cases hrow : newRow write with
    | user u₁ => exact ⟨u₁, rfl⟩
    | device d =>
        rw [hrow] at hholds
        exact hholds.elim
    | session s =>
        rw [hrow] at hholds
        exact hholds.elim
  have howner : (Row.user u₁).owner = (Row.user u).owner := by
    obtain ⟨u', hu', hid', -, -, howner⟩ := user_now h he hu₁
    have hids : RowId.user u'.id = RowId.user u.id := by
      rw [hid']
      have hchain : (newRow write).id = (newRow write₀).id := hsame
      rw [hu₁, hnew] at hchain
      exact hchain
    obtain rfl := Row.user.inj (hi.distinct.unique (mem_users.mp hu') (mem_users.mp hu) hids)
    exact howner.symm
  obtain ⟨th, q, db, now, ω, a, hth, ha, hw, hscope, hnames, x, hx, hq⟩ := issued_of_committed h he
  rcases primary_of_gains ha hw hgain with hprimary | ⟨⟨u₂, rfl⟩, hnone⟩
  · -- the device was asked for in the name of the call
    have htakes : th.call.takesDevice = true := by
      rcases hnames with hnames | hnames
      · rw [hnames] at hprimary
        cases hprimary
      · exact hnames
    obtain ⟨tenantId, environment, hcall⟩ : ∃ tenantId environment,
        th.call.scope = some (tenantId, environment) := by
      cases hcall : th.call with
      | createTenantUser tenantId environment => exact ⟨tenantId, environment, rfl⟩
      | updateTenantUser tenantId environment => exact ⟨tenantId, environment, rfl⟩
      | _ =>
          rw [hcall] at htakes
          cases htakes
    obtain ⟨pre, hpre, hselected⟩ :=
      h.before_of_mem hth (namesSelected_code htakes hcall) hx
    obtain ⟨deviceId, d, hd, rfl⟩ := hselected q id hq hprimary
    obtain ⟨⟨e, hde, hdnew⟩, htenant, henv⟩ :=
      known_of_selected h ((h.mem_log hth).mp (hpre.subset hd))
    obtain ⟨d', hd', hid', hdowner⟩ := device_now h hde hdnew
    obtain ⟨v, hv, hrows⟩ := owner_of_scope ha hw (hscope.trans hcall)
    have hwritten := hrows _ (newRow_mem_rows write)
    rw [hu₁] at hwritten
    refine ⟨d', hd', hid', hdowner.trans (Eq.trans ?_ howner)⟩
    rw [hwritten]
    exact Prod.ext (Option.some.inj (htenant.symm.trans hv)) henv
  · -- the user was registered, with the device of its session
    obtain rfl := Row.user.inj hu₁
    obtain ⟨th', x', ps, hth', heffect⟩ := effect_of_committed h he
    obtain rfl : th = th' := Option.some.inj (hth.symm.trans hth')
    have hmem := Store.mem_committedBy.mpr he
    have hcallNone : th.call.scope = none := hscope.symm.trans hnone
    cases hcall : th.call with
    | completeRegistration input =>
        rw [hcall] at heffect
        cases x' with
        | completed res =>
            obtain ⟨s, text, n, userId, now', -, hres, -, hws, -⟩ := heffect
            have hupdate := Store.mem_committedBy.mp
              (hws ▸ List.mem_cons_of_mem _ (List.mem_singleton_self _))
            rw [hws] at hmem
            rcases List.mem_cons.mp hmem with heq | hmem
            · obtain rfl := Row.user.inj (RowWrite.insert.inj heq)
              have hdevice : s.deviceId = some id := by
                have hholds : res.tenantUser.primaryDeviceId = some id := hgain
                rw [hres] at hholds
                exact hholds
              obtain ⟨d, hd, hdid, hdowner⟩ :=
                device_of_session h (known_of_update h hupdate) hdevice
              refine ⟨d, hd, hdid, hdowner.trans (Eq.trans ?_ howner)⟩
              rw [hres]
              rfl
            · cases List.mem_singleton.mp hmem
        | _ => exact heffect.elim
    | claimDeviceWithCode input =>
        rw [hcall] at heffect
        cases x' with
        | device d =>
            obtain ⟨⟨d₀, now', -, -, hws⟩, -⟩ := heffect
            rw [hws] at hmem
            cases List.mem_singleton.mp hmem
        | _ => exact heffect.elim
    | pairDevice input =>
        rw [hcall] at heffect
        cases x' with
        | stepped res =>
            obtain ⟨⟨s, write₁, d, now', -, -, hd, -, hws⟩, -⟩ := heffect
            rw [hws] at hmem
            rcases List.mem_cons.mp hmem with rfl | hmem
            · cases hd
            · cases List.mem_singleton.mp hmem
        | _ => exact heffect.elim
    | submitCommitment input =>
        rw [hcall] at heffect
        cases x' with
        | stepped res =>
            obtain ⟨⟨s, nonce, now', -, -, -, hws⟩, -⟩ := heffect
            rw [hws] at hmem
            cases List.mem_singleton.mp hmem
        | _ => exact heffect.elim
    | _ =>
        rw [hcall] at hcallNone
        cases hcallNone

/-- In every state of every run references stay within a tenant and an environment. -/
theorem references_ok (h : (system cfg pg).Reach Empty (fun _ _ => True) c) :
    ReferencesOk c.world.store.db := by
  refine ⟨fun s hs id hid => ?_, fun s hs id hid => ?_, fun u hu id hid => device_of_user h hu hid⟩
  · exact device_of_session h (known_of_mem h (mem_sessions.mp hs)) hid
  · obtain ⟨t, u, s₀, now, hws, rfl, hfrom, hsid⟩ := registered_of_user h hs hid
    have hinsert := Store.mem_committedBy.mp (hws ▸ List.mem_cons_self)
    have hupdate := Store.mem_committedBy.mp
      (hws ▸ List.mem_cons_of_mem _ (List.mem_singleton_self _))
    obtain ⟨u', hu', hid', -, -, howner⟩ := user_now h hinsert rfl
    have hsession := session_owner h (known_of_update h hupdate)
      (known_of_mem h (mem_sessions.mp hs)) hsid
    exact ⟨u', hu', hid', howner.trans (hfrom.owner.trans hsession)⟩

end Users

/-- A user that is registered from a phone has the phone as primary device. -/
theorem references_ok_of_registering : ∃ c : State,
    (∃ u ∈ Db.users c.world.store.db, u.primaryDeviceId = some deviceUuid) ∧
      ReferencesOk c.world.store.db := by
  have hrun : (((system settings jsonb).run (.init initial) registering).map fun c =>
      (Db.users c.world.store.db).any fun u => u.primaryDeviceId = some deviceUuid) = some true := by
    decide +kernel
  obtain ⟨c, hc, hregistered⟩ := Option.map_eq_some_iff.mp hrun
  obtain ⟨u, hu, hdevice⟩ := List.any_eq_true.mp hregistered
  have hreach : (system settings jsonb).Reach Empty (fun _ _ => True) c :=
    System.Reach.run (.init empty_initial) (System.keeps_of_forall fun _ _ _ => trivial) hc
  exact ⟨c, ⟨u, hu, of_decide_eq_true hdevice⟩, references_ok hreach⟩

end ZeroAuth.Tenant
