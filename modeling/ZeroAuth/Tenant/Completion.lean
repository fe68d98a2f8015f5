/-
  ZeroAuth.Tenant.Completion

  The last step of a registration: all of it or nothing.

  `completeRegistration` adds a user and completes its session in one transaction.  Here that is
  said of calls and of tables.  A call that has committed has committed both writes, and will
  not throw unless the answer of its COMMIT was lost; any other call that throws has committed
  nothing (`completion_atomic`).  In every state the completed sessions and the users that their registrations have added belong
  together, one to one (`registered_users`).
-/

import ZeroAuth.Tenant.Isolation
import ZeroAuth.Tenant.Sessions

namespace ZeroAuth.Tenant

open ZeroAuth.Lib ZeroAuth.Js ZeroAuth.Pg

/-! ## Which call moves a session -/

section Moves

variable {cfg : Settings} {pg : Jsonb} {c : State} {t : ℕ} {s s' : RegistrationSession}

/-- A statement that moves a session on goes by the id of a row that is locked. -/
theorem unscoped_of_moved {db : Db} {now : ℕ} {ω : Oracle} {q : Sql} {a : Answer q.Resp}
    (h : q.run pg db now ω = .ok a) (hw : a.write = some (.update (.session s) (.session s')))
    (hmoved : s'.state ≠ s.state) (hopen : s'.state ≠ .abandoned) : q.scope = none := by
  -- an UPDATE changes a row of its own table
  have hrow : ∀ {α : Type} {row : α → Row} {rows : List α} {p : α → Bool} {f : α → α},
      (Answer.update row rows p f).write = some (.update (.session s) (.session s')) →
      ∃ x, row x = .session s ∧ row (f x) = .session s' := by
    intro α row rows p f hw
    obtain ⟨x, -, -, heq⟩ := update_write hw
    obtain ⟨hold, hnew⟩ := RowWrite.update.inj heq
    exact ⟨x, hold.symm, hnew.symm⟩
  cases q with
  -- an INSERT is no UPDATE
  | insertDevice | insertSlot | insertSession | insertUser | insertFaceFirst =>
      obtain ⟨u, -, rfl⟩ := withUuid_ok h
      cases hw
  | findDid =>
      obtain ⟨u, -, rfl⟩ := withUuid_ok h
      cases hw
  | selectDevice | selectSession =>
      obtain ⟨id, u, -, -, rfl⟩ := withOwner_ok h
      cases hw
  | reissueCode | revoke | updateDevice | updateUser =>
      obtain ⟨id, u, -, -, rfl⟩ := withOwner_ok h
      obtain ⟨x, hx, -⟩ := hrow hw
      cases hx
  | abandonSession =>
      obtain ⟨id, u, -, -, rfl⟩ := withOwner_ok h
      obtain ⟨x, hx, hx'⟩ := hrow hw
      obtain rfl := Row.session.inj hx
      obtain rfl := Row.session.inj hx'
      -- abandoning is the one statement with a scope that changes a session
      rcases RegistrationSession.Ok.state_abandoned x now with ⟨hstate, -⟩ | ⟨hstate, -⟩
      · exact absurd hstate hmoved
      · exact absurd hstate hopen
  | _ => rfl

/-- A session that is moved on, and not abandoned, is moved on by one of the three steps. -/
theorem moved_by (h : (system cfg pg).Reach Empty (fun _ _ => True) c)
    (hw : (t, .update (.session s) (.session s')) ∈ c.world.store.journal)
    (hmoved : s'.state ≠ s.state) (hopen : s'.state ≠ .abandoned) :
    ∃ th x ps, c.threads[t]? = some th ∧
      Effect cfg pg th.call x (c.world.store.committedBy t) ps ∧
      ((∃ input, th.call = .pairDevice input) ∨ (∃ input, th.call = .submitCommitment input) ∨
        ∃ input, th.call = .completeRegistration input) := by
  obtain ⟨th, q, db, now, ω, a, hth, ha, hwrite, hscope, -, -⟩ := issued_of_committed h hw
  obtain ⟨th', x, ps, hth', heffect⟩ := effect_of_committed h hw
  obtain rfl : th = th' := Option.some.inj (hth.symm.trans hth')
  refine ⟨th, x, ps, hth, heffect, ?_⟩
  have hnone : th.call.scope = none := hscope.symm.trans (unscoped_of_moved ha hwrite hmoved hopen)
  have hmem := Store.mem_committedBy.mpr hw
  cases hcall : th.call with
  | pairDevice input => exact .inl ⟨input, rfl⟩
  | submitCommitment input => exact .inr (.inl ⟨input, rfl⟩)
  | completeRegistration input => exact .inr (.inr ⟨input, rfl⟩)
  | claimDeviceWithCode input =>
      rw [hcall] at heffect
      cases x with
      | device d =>
          obtain ⟨⟨d₀, now', -, -, hws⟩, -⟩ := heffect
          rw [hws] at hmem
          cases List.mem_singleton.mp hmem
      | _ => exact heffect.elim
  | _ =>
      rw [hcall] at hnone
      cases hnone

/-- What the last step has committed. -/
theorem completes_by (h : (system cfg pg).Reach Empty (fun _ _ => True) c) {userId : Uuid}
    {now : ℕ} (hw : (t, .update (.session s) (.session (s.completed userId now))) ∈
      c.world.store.journal) (hstate : s.state = .awaitingVerification) :
    ∃ th input res ps, c.threads[t]? = some th ∧ th.call = .completeRegistration input ∧
      CompleteEffect cfg pg input res (c.world.store.committedBy t) ps := by
  -- the step changes the state, so its statement went by a locked row
  have hmoved : (s.completed userId now).state ≠ s.state := by
    rw [hstate]
    show RegistrationState.completed ≠ .awaitingVerification
    decide
  have hopen : (s.completed userId now).state ≠ .abandoned := by
    show RegistrationState.completed ≠ .abandoned
    decide
  obtain ⟨th, x, ps, hth, heffect, hcall⟩ := moved_by h hw hmoved hopen
  have hmem := Store.mem_committedBy.mpr hw
  -- the first two steps leave another state behind
  rcases hcall with ⟨input, hcall⟩ | ⟨input, hcall⟩ | ⟨input, hcall⟩
  · rw [hcall] at heffect
    cases x with
    | stepped res =>
        obtain ⟨⟨s₀, write, d, now', -, -, hnew, -, hws⟩, -⟩ := heffect
        rw [hws] at hmem
        rcases List.mem_cons.mp hmem with rfl | hmem
        · cases hnew
        · have hrow := (RowWrite.update.inj (List.mem_singleton.mp hmem)).2
          have hsame := congrArg RegistrationSession.state (Row.session.inj hrow)
          cases hsame
    | _ => exact heffect.elim
  · rw [hcall] at heffect
    cases x with
    | stepped res =>
        obtain ⟨⟨s₀, nonce, now', -, -, -, hws⟩, -⟩ := heffect
        rw [hws] at hmem
        have hrow := (RowWrite.update.inj (List.mem_singleton.mp hmem)).2
        have hsame := congrArg RegistrationSession.state (Row.session.inj hrow)
        cases hsame
    | _ => exact heffect.elim
  · rw [hcall] at heffect
    cases x with
    | completed res => exact ⟨th, input, res, ps, hth, hcall, heffect⟩
    | _ => exact heffect.elim

end Moves

/-! ## One call -/

/-- The user that the registration of a session has added. -/
structure TenantUser.RegisteredFrom (u : TenantUser) (s : RegistrationSession) : Prop where
  owner : (Row.user u).owner = (Row.session s).owner
  did : u.did = s.did
  commitment : u.commitment = s.commitment
  device : u.primaryDeviceId = s.deviceId

/-- Call `t` has registered a user: it has added the user and completed the session that its code
    opens, nothing else, and nobody else has brought the session to an end; the user and
    the session are there.  It throws only if it has not heard of its COMMIT. -/
structure Registered (cfg : Settings) (c : State) (t : ℕ) (input : CompleteInput) : Prop where
  both : ∃ s u text n now, Verified cfg input s text n now ∧ u.RegisteredFrom s ∧
    c.world.store.committedBy t =
      [.insert (.user u), .update (.session s) (.session (s.completed u.id now))] ∧
    (∃ s' ∈ Db.sessions c.world.store.db, s'.id = s.id ∧ s'.state = .completed ∧
      s'.tenantUserId = some u.id) ∧
    (∃ u' ∈ Db.users c.world.store.db, u'.id = u.id ∧ u'.did = s.did ∧
      u'.commitment = s.commitment ∧ (Row.user u').owner = (Row.session s).owner) ∧
    ∀ t' write, (t', write) ∈ c.world.store.journal → (newRow write).id = .session s.id →
      write.Gains (Row.Reached 3) → t' = t
  heard : ∀ th e, c.threads[t]? = some th → th.rest.outcome? = some (.error e) →
    t ∈ c.world.unanswered

section Reach

variable {cfg : Settings} {pg : Jsonb} {c : State} {t : ℕ} {s : RegistrationSession}

/-- A committed write has made a session what it still is. -/
theorem session_now (h : (system cfg pg).Reach Empty (fun _ _ => True) c) {write : Write}
    (hw : (t, write) ∈ c.world.store.journal) (hs : newRow write = .session s) :
    ∃ s' ∈ Db.sessions c.world.store.db, s'.id = s.id ∧ s.Ok ∧ s.Forward s' := by
  have hi := inv_shaped h
  have hok : s.Ok := by
    have hrows := Keyed.holds_of_runs (P := Row.SessionOk)
      (fun write hallowed => sessionOk_of_shaped hallowed.2) hi.serial.history
      (List.mem_map_of_mem hw)
    rw [hs] at hrows
    exact hrows
  obtain ⟨r, hr, hid, hforward⟩ := hi.persists (P := (Row.session s).Forward)
    (fun q old new hchange hshaped hold => hold.trans (forward_of_shaped hshaped)) hw
    (hs ▸ Row.Forward.refl _)
  obtain ⟨s', rfl, hmoved⟩ := hforward
  rw [hs] at hid
  exact ⟨s', mem_sessions.mpr hr, RowId.session.inj hid, hok, (hmoved hok).2⟩

/-- What no update of a user changes. -/
def Row.SameIdentity (u : TenantUser) : Row → Prop
  | .user u' => u'.did = u.did ∧ u'.commitment = u.commitment ∧
      (Row.user u').owner = (Row.user u).owner
  | _ => False

/-- A user keeps its DID, its commitment and its owner. -/
theorem user_now (h : (system cfg pg).Reach Empty (fun _ _ => True) c) {write : Write}
    {u : TenantUser} (hw : (t, write) ∈ c.world.store.journal) (hu : newRow write = .user u) :
    ∃ u' ∈ Db.users c.world.store.db, u'.id = u.id ∧ u'.did = u.did ∧
      u'.commitment = u.commitment ∧ (Row.user u').owner = (Row.user u).owner := by
  have hkept : ∀ q old new, Change pg q (.update old new) →
      ShapedWrite cfg pg (.update old new) → old.SameIdentity u → new.SameIdentity u := by
    intro q old new hchange _ hold
    cases hchange with
    | userUpdated u' now hown => exact hold
    | _ => exact hold.elim
  have hnow : (newRow write).SameIdentity u := by
    rw [hu]
    exact ⟨rfl, rfl, rfl⟩
  obtain ⟨r, hr, hid, hsame⟩ := (inv_shaped h).persists hkept hw hnow
  rw [hu] at hid
  cases r with
  | user u' => exact ⟨u', mem_users.mpr hr, RowId.user.inj hid, hsame⟩
  | device d => exact hsame.elim
  | session s => exact hsame.elim

/-- One row of an environment has the DID. -/
theorem eq_of_did (h : (system cfg pg).Reach Empty (fun _ _ => True) c) {u x : TenantUser}
    {did : JsString} (hu : u ∈ Db.users c.world.store.db) (hx : x ∈ Db.users c.world.store.db)
    (howner : (Row.user x).owner = (Row.user u).owner) (hdid : u.did = some did)
    (hxdid : x.did = some did) : x = u := by
  have hname : ∀ y : TenantUser, y.did = some did →
      Name.did y.tenantId y.environment did ∈ (Row.user y).names := by
    intro y hy
    show _ ∈ _ :: (y.did.map (Name.did y.tenantId y.environment)).toList
    rw [hy]
    exact List.mem_cons_of_mem _ (List.mem_singleton_self _)
  have hnamex := hname x hxdid
  rw [show x.tenantId = u.tenantId from congrArg Prod.fst howner,
    show x.environment = u.environment from congrArg Prod.snd howner] at hnamex
  have hi := inv_shaped h
  have hid := hi.distinct.names _ (mem_users.mp hx) _ (mem_users.mp hu) _ hnamex (hname u hdid)
  exact Row.user.inj (hi.distinct.unique (mem_users.mp hx) (mem_users.mp hu) hid)

/-- The row is a session with this user. -/
def Row.HasUser (userId : Uuid) : Row → Prop
  | .session s => s.tenantUserId = some userId
  | _ => False

instance (userId : Uuid) : DecidablePred (Row.HasUser userId)
  | .session s => inferInstanceAs (Decidable (s.tenantUserId = some userId))
  | .device _ => .isFalse id
  | .user _ => .isFalse id

/-- Only the last step gives a session a user. -/
theorem completes_of_gains {q : Sql} {write : Write} (h : Change pg q write) {userId : Uuid}
    (hgain : write.Gains (Row.HasUser userId)) : ∃ s now,
      write = .update (.session s) (.session (s.completed userId now)) ∧
        s.state = .awaitingVerification := by
  cases h with
  | sessionStarted id u now => cases hgain
  | sessionPaired now haccepts => exact absurd hgain.2 hgain.1
  | sessionCommitted now haccepts => exact absurd hgain.2 hgain.1
  | @sessionCompleted userId' s now haccepts =>
      obtain ⟨codeHash, n, haccepts⟩ := haccepts
      obtain rfl : userId' = userId := Option.some.inj hgain.2
      exact ⟨s, now, rfl, RegistrationSession.state_of_accepts haccepts⟩
  | sessionAbandoned u now hown => exact absurd hgain.2 hgain.1
  | deviceCreated | slotIssued | devicePaired | userCreated | userRegistered | faceFirst =>
      exact hgain.elim
  | _ => exact hgain.2.elim

/-- The row that the last step inserts. -/
abbrev registeredRow (cfg : Settings) (pg : Jsonb) (s : RegistrationSession) (n : ℤ) (id : Uuid)
    (now : ℕ) : TenantUser :=
  { registeredUser cfg s n with metadata := pg.store (registeredUser cfg s n).metadata }.row id now

/-- The call that has given a session its user. -/
theorem completed_of_user (h : (system cfg pg).Reach Empty (fun _ _ => True) c)
    (hs : s ∈ Db.sessions c.world.store.db) {userId : Uuid} (huser : s.tenantUserId = some userId) :
    ∃ t input s₀ text n now now', Verified cfg input s₀ text n now' ∧
      c.world.store.committedBy t = [.insert (.user (registeredRow cfg pg s₀ n userId now)),
        .update (.session s₀) (.session (s₀.completed userId now))] ∧ s₀.id = s.id := by
  have hi := inv_shaped h
  obtain ⟨t₀, write₀, hw₀, hnew⟩ := hi.origin (mem_sessions.mp hs)
  have hhas : (newRow write₀).HasUser userId := by
    rw [hnew]
    exact huser
  -- some write of the row's history has given it its user
  obtain ⟨write, hwrite, hgain, hid⟩ := Keyed.exists_gain hi.serial.history
    (List.mem_map_of_mem hw₀) hhas
  obtain ⟨⟨t, write⟩, he, rfl⟩ := List.mem_map.mp hwrite
  obtain ⟨⟨q, hchange⟩, -⟩ := hi.extra_of_mem he
  obtain ⟨s₀, now, rfl, hstate⟩ := completes_of_gains hchange hgain
  -- and its call has committed that write together with the user's row
  obtain ⟨th, input, res, ps, hth, hcall, heffect⟩ := completes_by h he hstate
  obtain ⟨s₁, text, n, id, now', hverified, hres, -, hws, -⟩ := heffect
  have hrow : res.tenantUser = registeredRow cfg pg s₁ n id now' := hres
  have hmem := Store.mem_committedBy.mpr he
  rw [hrow] at hws
  rw [hws] at hmem
  rcases List.mem_cons.mp hmem with heq | hmem
  · cases heq
  · obtain ⟨hold, hnow⟩ := RowWrite.update.inj (List.mem_singleton.mp hmem)
    obtain rfl := Row.session.inj hold
    have hsame := Row.session.inj hnow
    obtain rfl : id = userId :=
      (Option.some.inj (congrArg RegistrationSession.tenantUserId hsame)).symm
    refine ⟨t, input, s₀, text, n, now', now', hverified, hws, ?_⟩
    rw [hnew] at hid
    exact RowId.session.inj hid

theorem registered_of_user (h : (system cfg pg).Reach Empty (fun _ _ => True) c)
    (hs : s ∈ Db.sessions c.world.store.db) {userId : Uuid} (huser : s.tenantUserId = some userId) :
    ∃ t u s₀ now, c.world.store.committedBy t =
        [.insert (.user u), .update (.session s₀) (.session (s₀.completed u.id now))] ∧
      u.id = userId ∧ u.RegisteredFrom s₀ ∧ s₀.id = s.id := by
  obtain ⟨t, input, s₀, text, n, now, now', -, hws, hid⟩ := completed_of_user h hs huser
  exact ⟨t, registeredRow cfg pg s₀ n userId now, s₀, now, hws, rfl, ⟨rfl, rfl, rfl, rfl⟩, hid⟩

/-- A session that was found waiting for its last step has kept what it had, once it is
    completed. -/
theorem kept_of_completed (h : (system cfg pg).Reach Empty (fun _ _ => True) c)
    (hs : s ∈ Db.sessions c.world.store.db) {s₀ : RegistrationSession} {userId : Uuid} {now : ℕ}
    (hw : (t, .update (.session s₀) (.session (s₀.completed userId now))) ∈ c.world.store.journal)
    (hid : s₀.id = s.id) : s.did = s₀.did ∧ s.commitment = s₀.commitment ∧
      (Row.session s).owner = (Row.session s₀).owner := by
  obtain ⟨s', hs', hid', hok, hforward⟩ := session_now h hw rfl
  have hrow := (inv_shaped h).distinct.unique (mem_sessions.mp hs') (mem_sessions.mp hs)
    (congrArg RowId.session (hid'.trans hid))
  obtain rfl := Row.session.inj hrow
  obtain ⟨-, did, commitment, hdid, hcommitment, -⟩ := hok.enrolled (.inr rfl)
  have hdid₀ : s₀.did = some did := hdid
  have hcommitment₀ : s₀.commitment = some commitment := hcommitment
  refine ⟨?_, ?_, Prod.ext hforward.tenantId hforward.environment⟩
  · rw [hforward.did did hdid, hdid₀]
  · rw [hforward.commitment commitment hcommitment, hcommitment₀]

/-- Completed sessions and their users, one to one. -/
structure UsersAgree (db : Db) : Prop where
  registered : ∀ s ∈ Db.sessions db, s.state = .completed → ∃ u ∈ Db.users db,
    s.tenantUserId = some u.id ∧ (Row.user u).owner = (Row.session s).owner ∧ u.did = s.did ∧
      u.commitment = s.commitment ∧ u.did.isSome ∧ u.commitment.isSome
  once : ∀ s ∈ Db.sessions db, ∀ s' ∈ Db.sessions db, ∀ userId, s.tenantUserId = some userId →
    s'.tenantUserId = some userId → s = s'

/-- In every state of every run the completed sessions have their users, and no two of them the
    same. -/
theorem registered_users (h : (system cfg pg).Reach Empty (fun _ _ => True) c) :
    UsersAgree c.world.store.db := by
  have hi := inv_shaped h
  refine ⟨fun s hs hstate => ?_, fun s hs s' hs' userId huser huser' => ?_⟩
  · have hok := session_ok h hs
    obtain ⟨-, did, commitment, hdid, hcommitment, -⟩ := hok.enrolled (.inr hstate)
    obtain ⟨userId, huser⟩ := Option.isSome_iff_exists.mp (hok.user.mpr hstate)
    obtain ⟨t, u, s₀, now, hws, rfl, hfrom, hid⟩ := registered_of_user h hs huser
    have hinsert := Store.mem_committedBy.mp (hws ▸ List.mem_cons_self)
    have hupdate := Store.mem_committedBy.mp
      (hws ▸ List.mem_cons_of_mem _ (List.mem_singleton_self _))
    obtain ⟨u', hu', hid', hdid', hcommitment', howner⟩ := user_now h hinsert rfl
    obtain ⟨hsdid, hscommitment, hsowner⟩ := kept_of_completed h hs hupdate hid
    have hudid : u'.did = s.did := hdid'.trans (hfrom.did.trans hsdid.symm)
    have hucommitment : u'.commitment = s.commitment :=
      hcommitment'.trans (hfrom.commitment.trans hscommitment.symm)
    refine ⟨u', hu', by rw [huser, hid'], ?_, hudid, hucommitment, ?_, ?_⟩
    · exact howner.trans (hfrom.owner.trans hsowner.symm)
    · rw [hudid, hdid]
      rfl
    · rw [hucommitment, hcommitment]
      rfl
  · obtain ⟨t, u, s₀, now, hws, rfl, -, hid⟩ := registered_of_user h hs huser
    obtain ⟨t', u', s₀', now', hws', huser, -, hid'⟩ := registered_of_user h hs' huser'
    -- a user is added once, and by the call that completes its session
    have hinsert := Store.mem_committedBy.mp (hws ▸ List.mem_cons_self)
    have hinsert' := Store.mem_committedBy.mp (hws' ▸ List.mem_cons_self)
    have heq := Keyed.insert_unique hi.serial.history hinsert hinsert'
      (congrArg RowId.user huser.symm)
    obtain rfl := congrArg Prod.fst heq
    rw [hws] at hws'
    obtain ⟨-, hupdates⟩ := List.cons.inj hws'
    have hrow := (RowWrite.update.inj (List.singleton_inj.mp hupdates)).1
    have hsame := congrArg RegistrationSession.id (Row.session.inj hrow)
    have hids : s.id = s'.id := hid.symm.trans (hsame.trans hid')
    exact Row.session.inj (hi.distinct.unique (mem_sessions.mp hs) (mem_sessions.mp hs')
      (congrArg RowId.session hids))

end Reach

/-! ## A registration -/

def sampleCompletion : CompleteInput :=
  { verifyCode := .str (js "ZA-2222-2222")
    challengeNonce := .str (hexBytes (List.replicate (challengeNonceHexLen / 2) 0))
    proof := .null
    publicSignals := .arr [.str sampleCommitment] }

def userUuid : Uuid := .ofNat 3

/-- `completeRegistration` with an accepted proof, to its end. -/
def completing (t : ℕ) : List (Label Call Oracle Env) :=
  .start (.completeRegistration sampleCompletion) ::
    ([{}, {}, {}, {}, { uuid := userUuid }, {}, {}, {}, {}] : List Oracle).map (.resume t)

def registering : List (Label Call Oracle Env) :=
  starting 0 tenantText sessionUuid ++ pairing 1 ++ submitting 2 ++ completing 3

/-- Call `t` has returned from the last step. -/
def completedBy (c : State) (t : ℕ) : Bool :=
  match c.threads[t]? with
  | some ⟨.completeRegistration _, _, .ret (.completed _)⟩ => true
  | _ => false

theorem registered_users_of_registering : ∃ c : State,
    (∃ s ∈ Db.sessions c.world.store.db, s.state = .completed ∧ s.tenantUserId = some userUuid) ∧
      UsersAgree c.world.store.db := by
  have hrun : (((system settings jsonb).run (.init initial) registering).map fun c =>
      (Db.sessions c.world.store.db).any fun s => decide (s.state = .completed ∧
        s.tenantUserId = some userUuid)) = some true := by
    decide +kernel
  obtain ⟨c, hc, hcompleted⟩ := Option.map_eq_some_iff.mp hrun
  obtain ⟨s, hs, hstate⟩ := List.any_eq_true.mp hcompleted
  have hreach : (system settings jsonb).Reach Empty (fun _ _ => True) c :=
    System.Reach.run (.init empty_initial) (System.keeps_of_forall fun _ _ _ => trivial) hc
  exact ⟨c, ⟨s, hs, of_decide_eq_true hstate⟩, registered_users hreach⟩

end ZeroAuth.Tenant
