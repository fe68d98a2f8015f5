/-
  ZeroAuth.Tenant.DeviceTable

  What holds of the rows of `devices` in every state of every run.

  Phones are told apart by their fingerprint, and no index covers that column.  A claim looks
  for another row with the same fingerprint before it writes; the upsert of a registration
  goes by `external_id`.  What keeps the fingerprints apart is that a row with a fingerprint
  is named after it (`Device.Ok`), and that names are unique.  A slot is named `pending_…`,
  so the upsert never meets one and need not clear its code.
-/

import ZeroAuth.Tenant.Runs
import ZeroAuth.Tenant.Statements

namespace ZeroAuth.Tenant

open ZeroAuth.Lib ZeroAuth.Js ZeroAuth.Pg

/-! ## One row -/

structure Device.Ok (d : Device) : Prop where
  named : ∀ h, d.fingerprintHash = some h → d.externalId = deviceExternalId h
  code : d.enrollmentCodeHash.isSome ↔ d.enrollmentState = .pending
  slot : d.enrollmentState = .pending → slotPrefix <+: d.externalId

def Row.DeviceOk : Row → Prop
  | .device d => d.Ok
  | _ => True

/-- No slot is named after a fingerprint. -/
theorem deviceExternalId_ne_slot {h name : JsString} (hslot : slotPrefix <+: name) :
    name ≠ deviceExternalId h := by
  rintro rfl
  have htake := List.prefix_iff_eq_take.mp hslot
  have hhead : slotPrefix.head? = (deviceExternalId h).head? := by
    rw [htake, List.head?_take]
    rfl
  exact absurd hhead (by show some _ ≠ some _; decide)

namespace Device.Ok

variable {d : Device}

theorem not_pending (h : d.Ok) {fpHash : JsString} (hname : d.externalId = deviceExternalId fpHash) :
    d.enrollmentState ≠ .pending :=
  fun hpending => deviceExternalId_ne_slot (h.slot hpending) hname

theorem reenrolled (h : d.Ok) (v : PairedDevice) (now : ℕ) (hname : d.externalId = deviceExternalId v.fpHash) :
    (d.reenrolled v now).Ok := by
  have hcode : ¬ d.enrollmentCodeHash.isSome := fun hsome => h.not_pending hname (h.code.mp hsome)
  refine ⟨fun fpHash hfp => ?_, ?_, ?_⟩
  · obtain rfl := Option.some.inj hfp
    exact hname
  · show d.enrollmentCodeHash.isSome ↔ DeviceEnrollmentState.enrolled = .pending
    simp [hcode]
  · intro hpending
    cases hpending

end Device.Ok

/-- The writes of statements with the parameters that the services give them. -/
def ShapedWrite (cfg : Settings) (pg : Jsonb) (write : Write) : Prop :=
  ∃ q : Sql, q.Shaped cfg ∧ Change pg q write

theorem guards_shaped (cfg : Settings) (pg : Jsonb) :
    Guards pg (fun _ o _ _ => Op.Shaped cfg o) (ShapedWrite cfg pg) :=
  ⟨fun hok _ _ hchange => ⟨_, hok, hchange⟩, fun hok _ _ _ hchange => ⟨_, hok, hchange⟩⟩

/-- Every write leaves a row that is in order, if it has found one. -/
theorem deviceOk_of_shaped {cfg : Settings} {pg : Jsonb} {write : Write}
    (h : ShapedWrite cfg pg write)
    (hold : ∀ old new, write = .update old new → old.DeviceOk) : (newRow write).DeviceOk := by
  obtain ⟨q, hq, hchange⟩ := h
  cases hchange with
  | deviceCreated id u now =>
      refine ⟨fun fpHash hfp => ?_, ?_, fun hpending => ?_⟩
      · cases hfp
      · show (none : Option JsString).isSome ↔ DeviceEnrollmentState.enrolled = .pending
        simp
      · cases hpending
  | slotIssued id u now =>
      refine ⟨fun fpHash hfp => ?_, ?_, fun _ => hq⟩
      · cases hfp
      · exact iff_of_true rfl rfl
  | codeReissued u now hown hpending =>
      obtain ⟨hnamed, -, hslot⟩ := hold _ _ rfl
      exact ⟨hnamed, iff_of_true rfl hpending, hslot⟩
  | slotClaimed now hclaimable =>
      refine ⟨fun fpHash hfp => ?_, ?_, fun hpending => ?_⟩
      · obtain rfl := Option.some.inj hfp
        exact hq
      · show (none : Option JsString).isSome ↔ DeviceEnrollmentState.enrolled = .pending
        simp
      · cases hpending
  | deviceRevoked u now hown =>
      obtain ⟨hnamed, -, -⟩ := hold _ _ rfl
      refine ⟨hnamed, ?_, fun hpending => ?_⟩
      · show (none : Option JsString).isSome ↔ DeviceEnrollmentState.revoked = .pending
        simp
      · cases hpending
  | deviceUpdated u now hown => 
      obtain ⟨hnamed, hcode, hslot⟩ := hold _ _ rfl
      exact ⟨hnamed, hcode, hslot⟩
  | deviceReenrolled now hmeets =>
      -- a row that is named after a fingerprint is no slot, so it has no code that could stay
      have hname := (of_decide_eq_true hmeets).2.2
      exact (hold _ _ rfl).reenrolled _ now (hname.trans hq)
  | devicePaired id now =>
      refine ⟨fun fpHash hfp => ?_, ?_, fun hpending => ?_⟩
      · obtain rfl := Option.some.inj hfp
        exact hq
      · show (none : Option JsString).isSome ↔ DeviceEnrollmentState.enrolled = .pending
        simp
      · cases hpending
  | _ => trivial

/-! ## The table -/

/-- No fingerprint twice in an environment; a device with a fingerprint is named after it; the
    slots are the rows that have a code. -/
structure DevicesOk (ds : List Device) : Prop where
  fingerprints : ds.Pairwise fun a b => a.tenantId = b.tenantId → a.environment = b.environment →
    ∀ h, a.fingerprintHash = some h → b.fingerprintHash ≠ some h
  named : ∀ d ∈ ds, ∀ h, d.fingerprintHash = some h → d.externalId = deviceExternalId h
  code : ∀ d ∈ ds, d.enrollmentCodeHash.isSome ↔ d.enrollmentState = .pending

section Reach

variable {cfg : Settings} {pg : Jsonb} {good : State → Label Call Oracle Env → Prop} {c : State}

theorem inv_shaped (h : (system cfg pg).Reach Empty good c) :
    Inv pg (ShapedWrite cfg pg) c.world :=
  inv_of_reach (guards_shaped cfg pg) (fun _ _ _ a past o k hgood hth => hgood.2 a past o k hth)
    (reach_shaped h)

theorem Inv.deviceOk {w : World} (h : Inv pg (ShapedWrite cfg pg) w) {d : Device}
    (hd : d ∈ Db.devices w.store.db) : d.Ok := by
  have hrows : ∀ r ∈ w.store.db, r.DeviceOk := by
    rw [h.serial.db_eq]
    exact Keyed.forall_of_runs (fun write hallowed => deviceOk_of_shaped hallowed.2) h.serial.history
  exact hrows _ (mem_devices.mp hd)

theorem device_ok (h : (system cfg pg).Reach Empty good c) {d : Device}
    (hd : d ∈ Db.devices c.world.store.db) : d.Ok :=
  (inv_shaped h).deviceOk hd

/-- Two devices of an environment with one name are one. -/
theorem device_unique (h : (system cfg pg).Reach Empty good c) {d d' : Device}
    (hd : d ∈ Db.devices c.world.store.db) (hd' : d' ∈ Db.devices c.world.store.db)
    (htenant : d.tenantId = d'.tenantId) (henv : d.environment = d'.environment)
    (hname : d.externalId = d'.externalId) : d.id = d'.id := by
  have hid := (inv_shaped h).distinct.names _ (mem_devices.mp hd) _ (mem_devices.mp hd')
    (.device d.tenantId d.environment d.externalId) (List.mem_singleton_self _)
    (by rw [htenant, henv, hname]; exact List.mem_singleton_self _)
  exact RowId.device.inj hid

/-- In every run a fingerprint names one device of its tenant and environment, a row with a
    fingerprint is named after it, and a row has a code exactly while it is pending. -/
theorem devicesOk (h : (system cfg pg).Reach Empty (fun _ _ => True) c) :
    DevicesOk (Db.devices c.world.store.db) := by
  refine ⟨?_, fun d hd => (device_ok h hd).named, fun d hd => (device_ok h hd).code⟩
  have hids : (Db.devices c.world.store.db).Pairwise fun a b => a.id ≠ b.id := by
    rw [Db.devices, List.pairwise_filterMap]
    refine (List.pairwise_map.mp (inv_shaped h).distinct.ids).imp fun {r r'} hne d hd d' hd' heq => ?_
    cases r <;> cases hd
    cases r' <;> cases hd'
    exact hne (congrArg RowId.device heq)
  refine hids.imp_of_mem fun {a b} ha hb hne htenant henv fpHash hfp hfp' => hne ?_
  have hname : a.externalId = b.externalId :=
    ((device_ok h ha).named fpHash hfp).trans ((device_ok h hb).named fpHash hfp').symm
  exact device_unique h ha hb htenant henv hname

end Reach

/-! ## A phone -/

/-- `issueEnrollmentCode` to its end; every code is all first letters. -/
def issuing (t : ℕ) (id : Uuid) : List (Label Call Oracle Env) :=
  .start (.issueEnrollmentCode tenantText (js "live") ⟨js "desk", .kiosk, none, none⟩ none) ::
    ([{ ints := List.replicate (codeGroups * codeGroupLen) 0 }, {}, { uuid := id }, { uuid := id },
      {}] : List Oracle).map (.resume t)

/-- `claimDeviceWithCode` with that code, to its end. -/
def claiming (t : ℕ) : List (Label Call Oracle Env) :=
  .start (.claimDeviceWithCode ⟨js "ZA-2222-2222", phone, none, none, none⟩) ::
    List.replicate 7 (.resume t {})

/-- A slot that is issued and claimed: the table holds the phone. -/
theorem devicesOk_of_claim : ∃ c : State,
    (∃ d ∈ Db.devices c.world.store.db, d.fingerprintHash = some (fingerprintHash phone)) ∧
      DevicesOk (Db.devices c.world.store.db) := by
  have hrun : (((system settings jsonb).run (.init initial) (issuing 0 (.ofNat 2) ++ claiming 1)).map
      fun c => (Db.devices c.world.store.db).any fun d =>
        d.fingerprintHash = some (fingerprintHash phone)) = some true := by
    decide +kernel
  obtain ⟨c, hc, hclaimed⟩ := Option.map_eq_some_iff.mp hrun
  obtain ⟨d, hd, hfp⟩ := List.any_eq_true.mp hclaimed
  have hreach : (system settings jsonb).Reach Empty (fun _ _ => True) c :=
    System.Reach.run (.init empty_initial) (System.keeps_of_forall fun _ _ _ => trivial) hc
  exact ⟨c, ⟨d, hd, of_decide_eq_true hfp⟩, devicesOk hreach⟩

end ZeroAuth.Tenant
