/-
  ZeroAuth.Tenant.Revocation

  What a revocation leaves behind.

  `revokeDevice` retires a row for good, says its comment, and a phone that comes back gets a
  new one.  Two other statements find revoked rows all the same: the upsert of a registration,
  which goes by the name that a claim has given the row, and the UPDATE of `updateDevice`,
  which takes a status from the caller.  In a run in which neither happens a revoked row
  stays revoked and retired.
-/

import ZeroAuth.Tenant.DeviceTable

namespace ZeroAuth.Tenant

open ZeroAuth.Lib ZeroAuth.Js ZeroAuth.Pg

def Device.Retired (d : Device) : Prop := d.enrollmentState = .revoked ∧ d.status = .retired

instance (d : Device) : Decidable d.Retired := inferInstanceAs (Decidable (_ ∧ _))

/-! ## The condition -/

/-- An upsert that finds no revoked row; an UPDATE that gives a revoked row no status but
    `retired`. -/
def Sql.SparesRevoked (q : Sql) (db : Db) : Prop :=
  match q with
  | .upsertDevice v => ∀ d ∈ Db.devices db, v.meets d = true → d.enrollmentState ≠ .revoked
  | .updateDevice deviceId tenantId environment v => ∀ id u d, Uuid.parse deviceId = some id →
      Uuid.parse tenantId = some u → d ∈ Db.devices db → d.isOwn id u environment = true →
      d.enrollmentState = .revoked → ∀ status, v.status = some status → status = .retired
  | _ => True

def SparesRevoked (t : ℕ) (o : Op) (_ : Oracle) (w : World) : Prop :=
  match o with
  | .pool q => q.SparesRevoked w.store.db
  | .query q => q.SparesRevoked (w.view t)
  | _ => True

/-- The write leaves a retired device retired. -/
def KeepsRetired : Write → Prop
  | .update (.device d) new => d.Retired → ∃ d', new = .device d' ∧ d'.Retired
  | _ => True

section Guards

variable {pg : Jsonb}

theorem keepsRetired_of_run {db : Db} {now : ℕ} {ω : Oracle} {q : Sql} {a : Answer q.Resp}
    {write : Write} (hspares : q.SparesRevoked db) (ha : q.run pg db now ω = .ok a)
    (hw : a.write = some write) (hchange : Change pg q write) : KeepsRetired write := by
  cases hchange with
  | codeReissued u now hown hpending =>
      rintro ⟨hrevoked, -⟩
      rw [hpending] at hrevoked
      cases hrevoked
  | slotClaimed now hclaimable =>
      rintro ⟨hrevoked, -⟩
      obtain ⟨codeHash, now', h⟩ := hclaimable
      have hpending := (of_decide_eq_true h).2.1
      rw [hrevoked] at hpending
      cases hpending
  | deviceRevoked u now hown => exact fun _ => ⟨_, rfl, rfl, rfl⟩
  | deviceUpdated u now hown =>
      rintro ⟨hrevoked, hretired⟩
      obtain ⟨id, u, hid, hu, rfl⟩ := withOwner_ok ha
      obtain ⟨d, hd, hown, heq⟩ := update_write hw
      obtain rfl := Row.device.inj (RowWrite.update.inj heq).1
      refine ⟨_, rfl, hrevoked, ?_⟩
      have hstatus := hspares id u _ hid hu hd hown hrevoked
      show Option.getD _ _ = DeviceStatus.retired
      cases hv : DeviceUpdate.status _ with
      | none => exact hretired
      | some status => exact hstatus status hv
  | deviceReenrolled now hmeets =>
      rintro ⟨hrevoked, -⟩
      simp only [Sql.run] at ha
      split at ha
      · next d hd =>
          cases ha
          obtain rfl := Row.device.inj (RowWrite.update.inj (Option.some.inj hw)).1
          exact absurd hrevoked (hspares _ (List.mem_of_find?_eq_some hd) hmeets)
      · cases ha
        cases hw
  | _ => trivial

theorem guards_sparesRevoked : Guards pg SparesRevoked KeepsRetired :=
  ⟨fun hok ha hw hchange => keepsRetired_of_run hok ha hw hchange,
    fun hok _ ha hw hchange => keepsRetired_of_run hok ha hw hchange⟩

end Guards

/-! ## Finality -/

/-- The device is there, revoked and retired. -/
def World.Retires (w : World) (id : Uuid) : Prop :=
  ∃ d, (∀ d', d' ∈ Db.devices w.store.db ∧ d'.id = id ↔ d' = d) ∧ d.Retired

/-- Every device that a call has revoked is still revoked and retired. -/
def RevocationFinal (c : State) : Prop :=
  ∀ (t : ℕ) (th : Thread sig Failure Result Call) tenantId environment deviceId actor (d : Device),
    c.threads[t]? = some th →
    th.call = .revokeDevice tenantId environment deviceId actor →
    th.rest.outcome? = some (.ok (.deviceOrNull (some d))) → c.world.Retires d.id

/-- In every run in which no registration pairs a revoked phone and nobody gives a revoked device
    another status: what is revoked stays revoked and retired. -/
theorem revocation_final {cfg : Settings} {pg : Jsonb} {c : State}
    (h : (system cfg pg).Reach Empty (System.OnlyWhere SparesRevoked) c) : RevocationFinal c := by
  intro t th tenantId environment deviceId actor d hth hcall hout
  have hok := allows_onlyWhere SparesRevoked
  have hi : Inv pg _ c.world := inv_of_reach guards_sparesRevoked hok h
  obtain ⟨ws, ps, hdone, heffect⟩ := post_of_ended guards_sparesRevoked hok h hth hout
  rw [hcall] at heffect
  -- the call has committed the UPDATE that left the row
  obtain ⟨⟨hnone, -⟩ | ⟨d₀, now, heq, rfl⟩, -⟩ := heffect
  · cases hnone
  obtain rfl := Option.some.inj heq
  have hmem := Store.mem_committedBy.mp (hdone.mine ▸ List.mem_singleton_self _)
  have hkept : ∀ q old new, Change pg q (.update old new) → KeepsRetired (.update old new) →
      (∃ d', old = .device d' ∧ d'.Retired) → ∃ d', new = .device d' ∧ d'.Retired := by
    rintro q old new - hkeeps ⟨d', rfl, hretired⟩
    exact hkeeps hretired
  obtain ⟨r, hr, hid, d', rfl, hretired⟩ := hi.persists hkept hmem ⟨_, rfl, rfl, rfl⟩
  have hid' : d'.id = (d₀.revoked now).id := RowId.device.inj hid
  refine ⟨d', fun d'' => ⟨?_, ?_⟩, hretired⟩
  · rintro ⟨hd'', hsame⟩
    have hrow := hi.distinct.unique (mem_devices.mp hd'') hr
      (congrArg RowId.device (hsame.trans hid'.symm))
    exact Row.device.inj hrow
  · rintro rfl
    exact ⟨mem_devices.mpr hr, hid'⟩

/-! ## A phone that is revoked -/

/-- `revokeDevice` to its end. -/
def revoking (t : ℕ) : List (Label Call Oracle Env) :=
  [.start (.revokeDevice tenantText (js "live") deviceUuid.text none), .resume t {}, .resume t {}]

/-- Call `t` has revoked a device, whose id is this. -/
def revokedBy (c : State) (t : ℕ) (id : Uuid) : Bool :=
  match c.threads[t]? with
  | some ⟨.revokeDevice _ _ _ _, _, .ret (.deviceOrNull (some d))⟩ => d.id = id
  | _ => false

theorem RevocationFinal.retires {c : State} (h : RevocationFinal c) {t : ℕ} {id : Uuid}
    (ht : revokedBy c t id = true) : c.world.Retires id := by
  unfold revokedBy at ht
  split at ht
  · next tenantId environment deviceId actor past d hth =>
      obtain rfl := of_decide_eq_true ht
      exact h t _ tenantId environment deviceId actor d hth rfl rfl
  · cases ht

/-- No statement of the run can find a revoked row but a revocation. -/
def sparesTest (_ : ℕ) (o : Op) (_ : Oracle) (_ : World) : Bool :=
  match o with
  | .pool (.upsertDevice _) | .query (.upsertDevice _) => false
  | .pool (.updateDevice _ _ _ _) | .query (.updateDevice _ _ _ _) => false
  | _ => true

theorem sparesRevoked_of_test (t : ℕ) (o : Op) (ω : Oracle) (w : World)
    (h : sparesTest t o ω w = true) : SparesRevoked t o ω w := by
  cases o with
  | pool q =>
      cases q with
      | upsertDevice v => cases h
      | updateDevice deviceId tenantId environment v => cases h
      | _ => trivial
  | query q =>
      cases q with
      | upsertDevice v => cases h
      | updateDevice deviceId tenantId environment v => cases h
      | _ => trivial
  | _ => trivial

/-- A phone that claims a slot and is revoked. -/
theorem revocation_final_of_claim : ∃ c : State, revokedBy c 2 deviceUuid = true ∧
    c.world.Retires deviceUuid := by
  have hrun : (((system settings jsonb).runChecked (System.onlyWhereTest sparesTest) (.init initial)
      (issuing 0 deviceUuid ++ claiming 1 ++ revoking 2)).map fun c => revokedBy c 2 deviceUuid) =
      some true := by
    decide +kernel
  obtain ⟨c, hc, hrevoked⟩ := Option.map_eq_some_iff.mp hrun
  have hreach : (system settings jsonb).Reach Empty (System.OnlyWhere SparesRevoked) c :=
    System.Reach.runChecked (.init empty_initial)
      (fun _ _ h => System.onlyWhere_of_test sparesRevoked_of_test h) hc
  exact ⟨c, hrevoked, (revocation_final hreach).retires hrevoked⟩

/-- A phone that is paired, revoked and paired again: its row is enrolled, and still retired. -/
theorem revoked_phone_enrolled : ∃ c : State,
    (system settings jsonb).Reach Empty (fun _ _ => True) c ∧ ¬ RevocationFinal c := by
  have hrun : (((system settings jsonb).run (.init initial) (starting 0 tenantText (.ofNat 1) ++
      pairing 1 ++ revoking 2 ++ starting 3 tenantText (.ofNat 3) ++ pairing 4)).map fun c =>
      decide (revokedBy c 2 deviceUuid = true ∧ ∃ d ∈ Db.devices c.world.store.db,
        d.id = deviceUuid ∧ d.enrollmentState = .enrolled ∧ d.status = .retired)) = some true := by
    decide +kernel
  obtain ⟨c, hc, hends⟩ := Option.map_eq_some_iff.mp hrun
  obtain ⟨hrevoked, d, hd, hid, henrolled, -⟩ := of_decide_eq_true hends
  refine ⟨c, System.Reach.run (.init empty_initial) (System.keeps_of_forall fun _ _ _ => trivial) hc,
    fun hfinal => ?_⟩
  obtain ⟨d', hrow, hstate, -⟩ := hfinal.retires hrevoked
  obtain rfl := (hrow d).mp ⟨hd, hid⟩
  rw [henrolled] at hstate
  cases hstate

end ZeroAuth.Tenant
