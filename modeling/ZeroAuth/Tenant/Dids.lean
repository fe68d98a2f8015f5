/-
  ZeroAuth.Tenant.Dids

  A DID of an environment is registered once.

  Two services add users with a DID: the last step of a registration, and the registration of a
  face-first identity, which looks for the DID before it inserts.  Between the SELECT and the
  INSERT another call may take the DID; then the unique index refuses the second row.  No other
  statement writes the columns of the DID and the commitment, so the lookup of the face-first
  login gives the same answer for good.
-/

import ZeroAuth.Tenant.Completion

namespace ZeroAuth.Tenant

open ZeroAuth.Lib ZeroAuth.Lib.Prog ZeroAuth.Js ZeroAuth.Pg

/-- `findUserByDid` of identity.ts. -/
def findUserByDid (db : Db) (tenantId : Uuid) (environment did : JsString) :
    Option (Uuid × Option JsString) :=
  ((Db.users db).find? fun u => u.tenantId = tenantId ∧ u.environment = environment ∧
    u.did = some did).map fun u => (u.id, u.commitment)

/-- Call `t` has registered the DID with this commitment, by one of the two services, and has
    answered the id of the user. -/
def RegisteredBy (c : State) (t : ℕ) (owner : Uuid × JsString) (did commitment : JsString)
    (userId : Uuid) : Prop :=
  ∃ th, c.threads[t]? = some th ∧
    ((∃ tenantId input res, th.call = .registerFaceFirst tenantId owner.2 input ∧
        th.rest.outcome? = some (.ok (.faceFirst res)) ∧ Uuid.parse tenantId = some owner.1 ∧
        input.did = did ∧ res.commitment = commitment ∧ res.userId = userId) ∨
      ∃ input res, th.call = .completeRegistration input ∧
        th.rest.outcome? = some (.ok (.completed res)) ∧
        (Row.user res.tenantUser).owner = owner ∧ res.tenantUser.did = some did ∧
        res.tenantUser.commitment = some commitment ∧ res.tenantUser.id = userId)

/-- The INSERT of a face-first identity has answered this row. -/
def inserted (tenantId environment : JsString) (v : FaceFirstUser) (row : TenantUser) :
    Act sig Failure :=
  ⟨.pool (.insertFaceFirst tenantId environment v), .ok row⟩

theorem ends_registerFaceFirst {cfg : Settings} {tenantId environment : JsString}
    {input : FaceFirstRegistration} :
    Ends (fun es out => ∀ res, out = .ok res → ∃ v row, inserted tenantId environment v row ∈ es ∧
      v.did = input.did ∧ v.commitment = res.commitment ∧ res.userId = row.id)
      (registerFaceFirstIdentity cfg tenantId environment input) := by
  unfold registerFaceFirstIdentity
  -- a refusal registers nobody
  have hthrow : ∀ e : Failure, Ends (fun es out => ∀ res, out = .ok res →
      ∃ v row, inserted tenantId environment v row ∈ es ∧ v.did = input.did ∧
        v.commitment = res.commitment ∧ res.userId = row.id)
      (throw e : Program FaceFirstRegistrationResult) := by
    intro e res hres
    cases hres
  -- the four checks of the request, then the lookup, then the INSERT
  split
  · exact hthrow _
  split
  · exact hthrow _
  split
  · exact hthrow _
  split
  · exact hthrow _
  refine ends_perform_bind.mpr ⟨fun (taken : Bool) => ?_, fun e res hres => ?_⟩
  · cases taken with
    | true =>
        intro res hres
        cases hres
    | false =>
        refine ends_perform_bind.mpr ⟨fun (row : TenantUser) res hres => ?_, fun e res hres => ?_⟩
        · cases hres
          exact ⟨_, row, List.mem_cons_of_mem _ List.mem_cons_self, rfl, rfl, rfl⟩
        · cases hres
  · cases hres

section Reach

variable {cfg : Settings} {pg : Jsonb} {c c' : State} {t : ℕ} {owner : Uuid × JsString}
  {did commitment : JsString} {userId : Uuid}

/-- What the INSERT has answered is committed. -/
theorem committed_of_inserted (h : (system cfg pg).Reach Empty (fun _ _ => True) c)
    {tenantId environment : JsString} {v : FaceFirstUser} {row : TenantUser}
    (he : (⟨t, inserted tenantId environment v row⟩ : Event) ∈ c.log) :
    (t, .insert (.user row)) ∈ c.world.store.journal ∧ Uuid.parse tenantId = some row.tenantId ∧
      row.environment = environment ∧ row.did = some v.did ∧ row.commitment = some v.commitment := by
  refine h.log_holds (Q := fun c e => ∀ tenantId environment v row,
    e.act = inserted tenantId environment v row →
      (e.caller, .insert (.user row)) ∈ c.world.store.journal ∧
      Uuid.parse tenantId = some row.tenantId ∧ row.environment = environment ∧
      row.did = some v.did ∧ row.commitment = some v.commitment) ?_ ?_ _ he tenantId environment v
    row rfl
  · intro c c' e hc hnext hold tenantId environment v row heq
    obtain ⟨hw, hrest⟩ := hold tenantId environment v row heq
    exact ⟨(journal_later hc (.single hnext)).subset hw, hrest⟩
  · intro c t ω a past o k r w hc hg hth hx tenantId environment v row heq
    cases heq
    obtain ⟨e, herr, -⟩ | ⟨answer, ha, hanswer, hwrite⟩ := exec_pool hx
    · cases herr
    · obtain ⟨u, hu, rfl⟩ := withUuid_ok ha
      obtain rfl := Except.ok.inj hanswer
      rcases hwrite with ⟨hnone, -⟩ | ⟨write, hw, -, -, rfl⟩
      · cases hnone
      · cases hw
        exact ⟨List.mem_append_right _ (List.mem_singleton_self _), hu, rfl, rfl, rfl⟩

/-- Who has registered a DID has inserted the user. -/
theorem insert_of_registeredBy (h : (system cfg pg).Reach Empty (fun _ _ => True) c)
    (hreg : RegisteredBy c t owner did commitment userId) :
    ∃ row, (t, .insert (.user row)) ∈ c.world.store.journal ∧ (Row.user row).owner = owner ∧
      row.did = some did ∧ row.commitment = some commitment ∧ row.id = userId := by
  obtain ⟨th, hth, ⟨tenantId, input, res, hcall, hout, hu, rfl, rfl, rfl⟩ |
    ⟨input, res, hcall, hout, howner, hdid, hcommitment, hid⟩⟩ := hreg
  · have hends : Ends (fun es out => ∀ res, out = .ok (.faceFirst res) →
        ∃ v row, inserted tenantId owner.2 v row ∈ es ∧ v.did = input.did ∧
          v.commitment = res.commitment ∧ res.userId = row.id) (code cfg th.call) := by
      rw [hcall]
      refine Ends.bind ends_registerFaceFirst (fun es a hes res hres => ?_) fun es e _ res hres => ?_
      · rw [List.append_nil]
        cases hres
        exact hes _ rfl
      · cases hres
    obtain ⟨v, row, hinserted, hvdid, hvcommitment, hid⟩ := h.ends hth hends hout res rfl
    obtain ⟨hw, htenant, henv, hdid, hcommitment⟩ :=
      committed_of_inserted h ((h.mem_log hth).mp hinserted)
    refine ⟨row, hw, Prod.ext ?_ henv, hdid.trans (congrArg some hvdid),
      hcommitment.trans (congrArg some hvcommitment), hid.symm⟩
    exact Option.some.inj (htenant.symm.trans hu)
  · obtain ⟨ws, ps, hdone, heffect⟩ := post_of_ended (guards_true pg) (allows_true _) h hth hout
    rw [hcall] at heffect
    obtain ⟨s, text, n, id, now, -, -, -, rfl, -⟩ := heffect
    exact ⟨res.tenantUser, Store.mem_committedBy.mp (hdone.mine ▸ List.mem_cons_self), howner, hdid,
      hcommitment, hid⟩

/-- The user that was registered is there. -/
theorem user_of_registeredBy (h : (system cfg pg).Reach Empty (fun _ _ => True) c)
    (hlater : (system cfg pg).Later (fun _ _ => True) c c')
    (hreg : RegisteredBy c t owner did commitment userId) :
    ∃ u ∈ Db.users c'.world.store.db, (Row.user u).owner = owner ∧ u.did = some did ∧
      u.commitment = some commitment ∧ u.id = userId := by
  obtain ⟨row, hw, howner, hdid, hcommitment, hid⟩ := insert_of_registeredBy h hreg
  obtain ⟨u, hu, huid, hudid, hucommitment, huowner⟩ :=
    user_now (h.later hlater) ((journal_later h hlater).subset hw) rfl
  exact ⟨u, hu, huowner.trans howner, hudid.trans hdid, hucommitment.trans hcommitment,
    huid.trans hid⟩

/-- In every run a DID that a call has registered is found by the lookup at every later time, as
    the user and with the commitment that the call has answered; and no other call registers
    it. -/
theorem did_registered_once (h : (system cfg pg).Reach Empty (fun _ _ => True) c)
    (hlater : (system cfg pg).Later (fun _ _ => True) c c')
    (hreg : RegisteredBy c t owner did commitment userId) :
    findUserByDid c'.world.store.db owner.1 owner.2 did = some (userId, some commitment) ∧
      ∀ t' commitment' userId', RegisteredBy c' t' owner did commitment' userId' → t' = t := by
  have h' := h.later hlater
  obtain ⟨u, hu, rfl, hdid, hcommitment, rfl⟩ := user_of_registeredBy h hlater hreg
  constructor
  · have hfound : ∃ x, (Db.users c'.world.store.db).find? (fun x => x.tenantId = u.tenantId ∧
        x.environment = u.environment ∧ x.did = some did) = some x := by
      rw [← Option.isSome_iff_exists, List.find?_isSome]
      exact ⟨u, hu, decide_eq_true ⟨rfl, rfl, hdid⟩⟩
    obtain ⟨x, hx⟩ := hfound
    obtain ⟨htenant, henv, hxdid⟩ := of_decide_eq_true (List.find?_some
      (p := fun x : TenantUser => decide (x.tenantId = u.tenantId ∧ x.environment = u.environment ∧
        x.did = some did)) hx)
    have hsame : x = u :=
      eq_of_did h' hu (List.mem_of_find?_eq_some hx) (Prod.ext htenant henv) hdid hxdid
    rw [hsame] at hx
    rw [← hcommitment]
    exact congrArg (Option.map fun u : TenantUser => (u.id, u.commitment)) hx
  · intro t' commitment' userId' hreg'
    obtain ⟨row, hw, -, -, -, hid⟩ := insert_of_registeredBy h hreg
    obtain ⟨row', hw', howner', hdid', -, -⟩ := insert_of_registeredBy h' hreg'
    obtain ⟨u', hu', huid', hudid', -, huowner'⟩ := user_now h' hw' rfl
    obtain rfl := eq_of_did h' hu hu' (huowner'.trans howner') hdid (hudid'.trans hdid')
    have heq := Keyed.insert_unique (inv_shaped h').serial.history hw'
      ((journal_later h hlater).subset hw) (congrArg RowId.user (huid'.symm.trans hid.symm))
    exact congrArg Prod.fst heq

end Reach

/-! ## A face-first identity -/

def sampleFace : Call :=
  .registerFaceFirst tenantText (js "live")
    ⟨js "did:zeroauth:face:0123456789abcdef0123", sampleCommitment, none⟩

/-- `registerFaceFirstIdentity` to its end. -/
def registeringFace (t : ℕ) : List (Label Call Oracle Env) :=
  [.start sampleFace, .resume t {}, .resume t { uuid := userUuid }]

/-- Call `t` has registered a face-first identity in the environment `live`. -/
def answeredBy (c : State) (t : ℕ) : Bool :=
  match c.threads[t]? with
  | some ⟨.registerFaceFirst tenantId environment _, _, .ret (.faceFirst _)⟩ =>
      decide ((Uuid.parse tenantId).isSome ∧ environment = js "live")
  | _ => false

theorem registeredBy_of_answeredBy {c : State} {t : ℕ} (h : answeredBy c t = true) :
    ∃ owner did commitment userId, RegisteredBy c t owner did commitment userId := by
  unfold answeredBy at h
  split at h
  · next tenantId environment input past res hth =>
      obtain ⟨htenant, rfl⟩ := of_decide_eq_true h
      obtain ⟨u, hu⟩ := Option.isSome_iff_exists.mp htenant
      exact ⟨(u, js "live"), input.did, res.commitment, res.userId, _, hth,
        .inl ⟨tenantId, input, res, rfl, rfl, hu, rfl, rfl, rfl⟩⟩
  · cases h

/-- Two calls for one DID: the first registers it, the second is refused, and the lookup finds the
    user of the first. -/
theorem did_registered_once_of_face : ∃ (c : State) (owner : Uuid × JsString)
    (did commitment : JsString) (userId : Uuid), RegisteredBy c 0 owner did commitment userId ∧
      findUserByDid c.world.store.db owner.1 owner.2 did = some (userId, some commitment) ∧
      answeredBy c 1 = false := by
  have hrun : (((system settings jsonb).run (.init initial)
      (registeringFace 0 ++ [.start sampleFace, .resume 1 {}])).map fun c =>
      answeredBy c 0 && !answeredBy c 1) = some true := by
    decide +kernel
  obtain ⟨c, hc, hends⟩ := Option.map_eq_some_iff.mp hrun
  obtain ⟨hanswered, hrefused⟩ := Bool.and_eq_true_iff.mp hends
  obtain ⟨owner, did, commitment, userId, hreg⟩ := registeredBy_of_answeredBy hanswered
  have hreach : (system settings jsonb).Reach Empty (fun _ _ => True) c :=
    System.Reach.run (.init empty_initial) (System.keeps_of_forall fun _ _ _ => trivial) hc
  exact ⟨c, owner, did, commitment, userId, hreg, (did_registered_once hreach .refl hreg).1,
    (Bool.not_eq_true' _).mp hrefused⟩

end ZeroAuth.Tenant
