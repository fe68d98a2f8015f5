/-
  ZeroAuth.Tenant.Slots

  What becomes of an enrollment slot.

  A slot is a device that is pending.  Its code can be minted again as long as it is pending, and
  nothing makes a device pending again, so of all the codes that are minted for a slot one is
  claimed, and it is the one that stood on the row when the claim was made.

  A claim names the row after the phone, and no later statement takes the name away.  So a phone
  claims one slot of an environment, also after its row has been revoked.
-/

import ZeroAuth.Tenant.Isolation
import ZeroAuth.Tenant.Sessions

namespace ZeroAuth.Tenant

open ZeroAuth.Lib ZeroAuth.Js ZeroAuth.Pg

/-- The row is a device that is no slot any more. -/
def Row.Settled : Row → Prop
  | .device d => d.enrollmentState ≠ .pending
  | _ => False

instance : DecidablePred Row.Settled
  | .device d => inferInstanceAs (Decidable (d.enrollmentState ≠ .pending))
  | .session _ => .isFalse id
  | .user _ => .isFalse id

/-- No statement makes a device pending again. -/
theorem settled_kept {pg : Jsonb} {q : Sql} {old new : Row} (h : Change pg q (.update old new))
    (hold : old.Settled) : new.Settled := by
  cases h with
  | codeReissued u now hown hpending => exact absurd hpending hold
  | slotClaimed now hclaimable =>
      show DeviceEnrollmentState.enrolled ≠ .pending
      decide
  | deviceRevoked u now hown =>
      show DeviceEnrollmentState.revoked ≠ .pending
      decide
  | deviceUpdated u now hown => exact hold
  | deviceReenrolled now hmeets =>
      show DeviceEnrollmentState.enrolled ≠ .pending
      decide
  | _ => exact hold.elim

/-- Call `t` has claimed the device of this id with the code of this hash, and has returned it. -/
def Claimed (cfg : Settings) (c : State) (t : ℕ) (id : Uuid) (codeHash : JsString) : Prop :=
  ∃ th input d, c.threads[t]? = some th ∧ th.call = .claimDeviceWithCode input ∧
    th.rest.outcome? = some (.ok (.device d)) ∧ d.id = id ∧
    codeHash = lookupHash cfg input.enrollmentCode

/-- The entries of the journal around the claim of a device by call `t`: it has found the row as the
    last entry before has left it, with the code of this hash; before it the device was a slot and
    after it it is none. -/
def ClaimedAt (c : State) (t : ℕ) (id : Uuid) (codeHash : JsString) : Prop :=
  ∃ pre post d d' now, c.world.store.journal = pre ++ (t, .update (.device d) (.device d')) :: post ∧
    d.id = id ∧ d.claimable codeHash now = true ∧ tables.LastLeft pre (.device d) ∧
    (∀ e ∈ pre, (newRow e.2).id = .device id → ¬ (newRow e.2).Settled) ∧
    (Row.device d').Settled ∧
    ∀ e ∈ post, (newRow e.2).id = .device id → (newRow e.2).Settled

/-- A slot is claimed once, with the last code that was minted for it. -/
structure SlotOnce (cfg : Settings) (c : State) (id : Uuid) : Prop where
  claimed : ∀ t t' hash hash', Claimed cfg c t id hash → Claimed cfg c t' id hash' → t = t'
  current : ∀ t hash, Claimed cfg c t id hash → ClaimedAt c t id hash

section Reach

variable {cfg : Settings} {pg : Jsonb} {c : State} {t : ℕ} {id : Uuid} {codeHash : JsString}

/-- A call that has claimed a device has committed the write that claims it. -/
theorem claim_of_claimed (h : (system cfg pg).Reach Empty (fun _ _ => True) c)
    (ht : Claimed cfg c t id codeHash) :
    ∃ d d' now, (t, .update (.device d) (.device d')) ∈ c.world.store.journal ∧ d.id = id ∧
      d'.id = id ∧ d.claimable codeHash now = true ∧ (Row.device d').Settled := by
  obtain ⟨th, input, d', hth, hcall, hout, rfl, rfl⟩ := ht
  obtain ⟨ws, ps, hdone, heffect⟩ := post_of_ended (guards_true pg) (allows_true _) h hth hout
  rw [hcall] at heffect
  obtain ⟨⟨d, now, hclaimable, rfl, rfl⟩, -⟩ := heffect
  refine ⟨d, _, now, Store.mem_committedBy.mp (hdone.mine ▸ List.mem_singleton_self _), rfl, rfl,
    hclaimable, ?_⟩
  show DeviceEnrollmentState.enrolled ≠ .pending
  decide

theorem gains_of_claimable {d d' : Device} {now : ℕ} (hclaimable : d.claimable codeHash now = true)
    (hsettled : (Row.device d').Settled) :
    (RowWrite.update (.device d) (.device d')).Gains Row.Settled :=
  ⟨fun hold => hold (of_decide_eq_true hclaimable).2.1, hsettled⟩

/-- One call has claimed a device. -/
theorem claimed_unique (h : (system cfg pg).Reach Empty (fun _ _ => True) c) {t t' : ℕ}
    {codeHash' : JsString} (ht : Claimed cfg c t id codeHash) (ht' : Claimed cfg c t' id codeHash') :
    t = t' := by
  obtain ⟨d, d₁, now, hw, -, hid, hclaimable, hsettled⟩ := claim_of_claimed h ht
  obtain ⟨d', d₁', now', hw', -, hid', hclaimable', hsettled'⟩ := claim_of_claimed h ht'
  have heq := unique_of_gains h (fun q old new => settled_kept) hw hw'
    (gains_of_claimable hclaimable hsettled) (gains_of_claimable hclaimable' hsettled')
    (congrArg RowId.device (hid.trans hid'.symm))
  exact congrArg Prod.fst heq

/-- In every state of every run: of the codes that were minted for a slot one is claimed, once, and
    it is the last one; no later code of the device is ever claimable. -/
theorem slotOnce (h : (system cfg pg).Reach Empty (fun _ _ => True) c) (id : Uuid) :
    SlotOnce cfg c id := by
  refine ⟨fun t t' hash hash' ht ht' => claimed_unique h ht ht', fun t hash ht => ?_⟩
  obtain ⟨d, d', now, hw, rfl, hid, hclaimable, hsettled⟩ := claim_of_claimed h ht
  obtain ⟨pre, post, hsplit, hlast, hbefore, hafter⟩ := Keyed.splits_at_gain
    (fun old new hallowed hold => hallowed.1.elim fun q hchange => settled_kept hchange hold)
    (inv_shaped h).serial.history hw (gains_of_claimable hclaimable hsettled)
  have hsame : (Row.device d').id = .device d.id := congrArg RowId.device hid
  refine ⟨pre, post, d, d', now, hsplit, rfl, hclaimable, hlast, fun e he hrow => ?_, hsettled,
    fun e he hrow => ?_⟩
  · exact hbefore e he (hrow.trans hsame.symm)
  · exact hafter e he (hrow.trans hsame.symm)

/-- Call `t` has claimed a device of this owner for the phone of this fingerprint. -/
def ClaimedFor (c : State) (t : ℕ) (fpHash : JsString) (owner : Uuid × JsString) : Prop :=
  ∃ th input d, c.threads[t]? = some th ∧ th.call = .claimDeviceWithCode input ∧
    th.rest.outcome? = some (.ok (.device d)) ∧ (Row.device d).owner = owner ∧
    fpHash = fingerprintHash input.fingerprint

/-- The row is a device of this owner that is named after the phone, and no slot. -/
def Row.IsPhone (fpHash : JsString) (owner : Uuid × JsString) : Row → Prop
  | .device d => d.externalId = deviceExternalId fpHash ∧ (Row.device d).owner = owner ∧
      (Row.device d).Settled
  | _ => False

/-- A phone keeps its name, also when it is revoked. -/
theorem isPhone_kept {q : Sql} {old new : Row} {fpHash : JsString} {owner : Uuid × JsString}
    (h : Change pg q (.update old new)) (hold : old.IsPhone fpHash owner) :
    new.IsPhone fpHash owner := by
  cases h with
  | codeReissued u now hown hpending => exact absurd hpending hold.2.2
  | slotClaimed now hclaimable =>
      obtain ⟨codeHash, now', hclaimable⟩ := hclaimable
      exact absurd (of_decide_eq_true hclaimable).2.1 hold.2.2
  | deviceRevoked u now hown =>
      refine ⟨hold.1, hold.2.1, ?_⟩
      show DeviceEnrollmentState.revoked ≠ .pending
      decide
  | deviceUpdated u now hown => exact hold
  | deviceReenrolled now hmeets =>
      refine ⟨hold.1, hold.2.1, ?_⟩
      show DeviceEnrollmentState.enrolled ≠ .pending
      decide
  | _ => exact hold.elim

/-- The device that a phone has claimed is still there, under the name of the phone. -/
theorem phone_of_claimedFor (h : (system cfg pg).Reach Empty (fun _ _ => True) c)
    {fpHash : JsString} {owner : Uuid × JsString} (ht : ClaimedFor c t fpHash owner) :
    ∃ d ∈ Db.devices c.world.store.db, (Row.device d).IsPhone fpHash owner ∧
      ∃ codeHash, Claimed cfg c t d.id codeHash := by
  obtain ⟨th, input, d', hth, hcall, hout, rfl, rfl⟩ := ht
  obtain ⟨ws, ps, hdone, heffect⟩ := post_of_ended (guards_true pg) (allows_true _) h hth hout
  rw [hcall] at heffect
  obtain ⟨⟨d, now, hclaimable, heq, rfl⟩, -⟩ := heffect
  have hw : (t, .update (.device d) (.device d')) ∈ c.world.store.journal :=
    Store.mem_committedBy.mp (hdone.mine ▸ List.mem_singleton_self _)
  have hphone : (Row.device d').IsPhone (fingerprintHash input.fingerprint) (Row.device d').owner := by
    rw [heq]
    refine ⟨rfl, rfl, ?_⟩
    show DeviceEnrollmentState.enrolled ≠ .pending
    decide
  obtain ⟨r, hr, hid, hp⟩ := (inv_shaped h).persists
    (fun q old new hchange _ hold => isPhone_kept hchange hold) hw hphone
  cases r with
  | device d₁ =>
      have hsame : d'.id = d₁.id := (RowId.device.inj hid).symm
      exact ⟨d₁, mem_devices.mpr hr, hp, _, th, input, d', hth, hcall, hout, hsame, rfl⟩
  | session s => exact hp.elim
  | user u => exact hp.elim

/-- In every state of every run a phone has claimed one slot of a tenant and an environment at
    most, also when the device has been revoked since. -/
theorem phone_claims_once (h : (system cfg pg).Reach Empty (fun _ _ => True) c) {t t' : ℕ}
    {fpHash : JsString} {owner : Uuid × JsString} (ht : ClaimedFor c t fpHash owner)
    (ht' : ClaimedFor c t' fpHash owner) : t = t' := by
  obtain ⟨d, hd, ⟨hname, howner, -⟩, codeHash, hclaimed⟩ := phone_of_claimedFor h ht
  obtain ⟨d', hd', ⟨hname', howner', -⟩, codeHash', hclaimed'⟩ := phone_of_claimedFor h ht'
  have howners := howner.trans howner'.symm
  have hid : d.id = d'.id := device_unique h hd hd' (congrArg Prod.fst howners)
    (congrArg Prod.snd howners) (hname.trans hname'.symm)
  rw [← hid] at hclaimed'
  exact claimed_unique h hclaimed hclaimed'

end Reach

/-! ## A slot that is issued and claimed -/

/-- Call `t` has claimed this device. -/
def claimedBy (c : State) (t : ℕ) (id : Uuid) : Bool :=
  match c.threads[t]? with
  | some ⟨.claimDeviceWithCode _, _, .ret (.device d)⟩ => d.id = id
  | _ => false

theorem claimed_of_claimedBy {cfg : Settings} {c : State} {t : ℕ} {id : Uuid}
    (h : claimedBy c t id = true) : ∃ codeHash, Claimed cfg c t id codeHash := by
  unfold claimedBy at h
  split at h
  · next input past d hth =>
      exact ⟨_, _, input, d, hth, rfl, rfl, of_decide_eq_true h, rfl⟩
  · cases h

theorem slotOnce_of_claim : ∃ (c : State) (codeHash : JsString),
    Claimed settings c 1 deviceUuid codeHash ∧ SlotOnce settings c deviceUuid := by
  have hrun : (((system settings jsonb).run (.init initial)
      (issuing 0 deviceUuid ++ claiming 1)).map fun c => claimedBy c 1 deviceUuid) = some true := by
    decide +kernel
  obtain ⟨c, hc, hclaimed⟩ := Option.map_eq_some_iff.mp hrun
  obtain ⟨codeHash, hclaimed⟩ := @claimed_of_claimedBy settings _ _ _ hclaimed
  have hreach : (system settings jsonb).Reach Empty (fun _ _ => True) c :=
    System.Reach.run (.init empty_initial) (System.keeps_of_forall fun _ _ _ => trivial) hc
  exact ⟨c, codeHash, hclaimed, slotOnce hreach deviceUuid⟩

theorem claimedFor_of_claimedBy {c : State} {t : ℕ} {id : Uuid} (h : claimedBy c t id = true) :
    ∃ fpHash owner, ClaimedFor c t fpHash owner := by
  obtain ⟨codeHash, th, input, d, hth, hcall, hout, -, -⟩ := @claimed_of_claimedBy settings _ _ _ h
  exact ⟨_, _, th, input, d, hth, hcall, hout, rfl, rfl⟩

/-- After the device of a phone is revoked, the phone has still claimed it, and nothing else. -/
theorem phone_claims_once_of_revoked : ∃ (c : State) (fpHash : JsString) (owner : Uuid × JsString),
    revokedBy c 2 deviceUuid = true ∧ ClaimedFor c 1 fpHash owner ∧
      ∀ t, ClaimedFor c t fpHash owner → t = 1 := by
  have hrun : (((system settings jsonb).run (.init initial)
      (issuing 0 deviceUuid ++ claiming 1 ++ revoking 2)).map fun c =>
      claimedBy c 1 deviceUuid && revokedBy c 2 deviceUuid) = some true := by
    decide +kernel
  obtain ⟨c, hc, hends⟩ := Option.map_eq_some_iff.mp hrun
  obtain ⟨hclaimed, hrevoked⟩ := Bool.and_eq_true_iff.mp hends
  obtain ⟨fpHash, owner, hphone⟩ := claimedFor_of_claimedBy hclaimed
  have hreach : (system settings jsonb).Reach Empty (fun _ _ => True) c :=
    System.Reach.run (.init empty_initial) (System.keeps_of_forall fun _ _ _ => trivial) hc
  exact ⟨c, fpHash, owner, hrevoked, hphone, fun t ht => phone_claims_once hreach ht hphone⟩

end ZeroAuth.Tenant
