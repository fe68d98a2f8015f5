/-
  ZeroAuth.Tenant.Changes

  The writes that the statements make.

  `Change pg q w` says that the statement `q` may write `w`: for an insert which row it
  adds, for an update which row it finds and what it leaves behind.  The three steps of a
  registration and the claim of a slot find the row by its id alone; that it is in the
  state that their locking SELECT asked for is part of the change.
-/

import ZeroAuth.Tenant.System

namespace ZeroAuth.Tenant

open ZeroAuth.Lib ZeroAuth.Js ZeroAuth.Pg

inductive Change (pg : Jsonb) : Sql → Write → Prop
  | deviceCreated {tenantId environment : JsString} {v : NewDevice} (id u : Uuid) (now : ℕ) :
      Change pg (.insertDevice tenantId environment v)
        (.insert (.device ({ v with metadata := pg.store v.metadata }.row id u environment now)))
  | slotIssued {tenantId environment : JsString} {v : NewSlot} (id u : Uuid) (now : ℕ) :
      Change pg (.insertSlot tenantId environment v)
        (.insert (.device ({ v with metadata := pg.store v.metadata }.row id u environment now)))
  | codeReissued {deviceId tenantId environment codeHash : JsString} {expiresAt : ℕ} {d : Device}
      (u : Uuid) (now : ℕ) (hown : d.isOwn d.id u environment = true)
      (hpending : d.enrollmentState = .pending) :
      Change pg (.reissueCode deviceId tenantId environment codeHash expiresAt)
        (.update (.device d) (.device (d.reissued codeHash expiresAt now)))
  | slotClaimed {externalId fpHash attestationKind : JsString} {d : Device} (now : ℕ)
      (hclaimable : ∃ codeHash now', d.claimable codeHash now' = true) :
      Change pg (.claimSlot d.id externalId fpHash attestationKind)
        (.update (.device d) (.device (d.claimed externalId fpHash attestationKind now)))
  | deviceRevoked {deviceId tenantId environment : JsString} {d : Device} (u : Uuid) (now : ℕ)
      (hown : d.isOwn d.id u environment = true) :
      Change pg (.revoke deviceId tenantId environment)
        (.update (.device d) (.device (d.revoked now)))
  | deviceUpdated {deviceId tenantId environment : JsString} {v : DeviceUpdate} {d : Device}
      (u : Uuid) (now : ℕ) (hown : d.isOwn d.id u environment = true) :
      Change pg (.updateDevice deviceId tenantId environment v)
        (.update (.device d)
          (.device (d.updated { v with metadata := v.metadata.map pg.store } now)))
  | deviceReenrolled {v : PairedDevice} {d : Device} (now : ℕ) (hmeets : v.meets d = true) :
      Change pg (.upsertDevice v) (.update (.device d)
        (.device (d.reenrolled { v with metadata := pg.store v.metadata } now)))
  | devicePaired {v : PairedDevice} (id : Uuid) (now : ℕ) :
      Change pg (.upsertDevice v)
        (.insert (.device ({ v with metadata := pg.store v.metadata }.row id now)))
  | sessionStarted {tenantId environment : JsString} {v : NewRegistration} (id u : Uuid)
      (now : ℕ) :
      Change pg (.insertSession tenantId environment v)
        (.insert (.session ({ v with profile := pg.store v.profile }.row id u environment now)))
  | sessionPaired {deviceId : Uuid} {codeHash : JsString} {expiresAt : ℕ}
      {s : RegistrationSession} (now : ℕ) (haccepts : ∃ h n, s.accepts .pair h n = true) :
      Change pg (.attachDevice s.id deviceId codeHash expiresAt)
        (.update (.session s) (.session (s.paired deviceId codeHash expiresAt now)))
  | sessionCommitted {did commitment codeHash nonce : JsString} {expiresAt : ℕ}
      {s : RegistrationSession} (now : ℕ) (haccepts : ∃ h n, s.accepts .enroll h n = true) :
      Change pg (.attachCommitment s.id did commitment codeHash expiresAt nonce)
        (.update (.session s)
          (.session (s.committed did commitment codeHash expiresAt nonce now)))
  | sessionCompleted {userId : Uuid} {s : RegistrationSession} (now : ℕ)
      (haccepts : ∃ h n, s.accepts .verify h n = true) :
      Change pg (.completeSession s.id userId)
        (.update (.session s) (.session (s.completed userId now)))
  | sessionAbandoned {sessionId tenantId environment : JsString} {s : RegistrationSession}
      (u : Uuid) (now : ℕ) (hown : s.isOwn s.id u environment = true) :
      Change pg (.abandonSession sessionId tenantId environment)
        (.update (.session s) (.session (s.abandoned now)))
  | userCreated {tenantId environment : JsString} {v : NewTenantUser} (id u : Uuid) (now : ℕ) :
      Change pg (.insertUser tenantId environment v)
        (.insert (.user ({ v with metadata := pg.store v.metadata }.row id u environment now)))
  | userRegistered {v : RegisteredUser} (id : Uuid) (now : ℕ) :
      Change pg (.registerUser v)
        (.insert (.user ({ v with metadata := pg.store v.metadata }.row id now)))
  | faceFirst {tenantId environment : JsString} {v : FaceFirstUser} (id u : Uuid) (now : ℕ) :
      Change pg (.insertFaceFirst tenantId environment v)
        (.insert (.user (v.row id u environment now)))
  | userUpdated {userId tenantId environment : JsString} {v : UserUpdate} {r : TenantUser}
      (u : Uuid) (now : ℕ) (hown : r.isOwn r.id u environment = true) :
      Change pg (.updateUser userId tenantId environment v)
        (.update (.user r) (.user (r.updated { v with metadata := v.metadata.map pg.store } now)))

/-- What the locking SELECT before an update by id has found. -/
def Sql.Locked : Sql → Write → Prop
  | claimSlot _ _ _ _, .update (.device d) _ => ∃ h n, d.claimable h n = true
  | attachDevice _ _ _ _, .update (.session s) _ => ∃ h n, s.accepts .pair h n = true
  | attachCommitment _ _ _ _ _ _, .update (.session s) _ => ∃ h n, s.accepts .enroll h n = true
  | completeSession _ _, .update (.session s) _ => ∃ h n, s.accepts .verify h n = true
  | _, _ => True

/-! ## One statement -/

section Statements

variable {pg : Jsonb} {db : Db} {now : ℕ} {ω : Oracle} {α : Type}

theorem withUuid_ok {text : JsString} {run : Uuid → Answer α} {a : Answer α}
    (h : withUuid text run = .ok a) : ∃ u, Uuid.parse text = some u ∧ run u = a := by
  unfold withUuid at h
  split at h
  · next u hu => exact ⟨u, hu, Except.ok.inj h⟩
  · cases h

theorem withOwner_ok {id tenantId : JsString} {run : Uuid → Uuid → Answer α} {a : Answer α}
    (h : withOwner id tenantId run = .ok a) :
    ∃ i u, Uuid.parse id = some i ∧ Uuid.parse tenantId = some u ∧ run i u = a := by
  unfold withOwner at h
  split at h
  · next i u hi hu => exact ⟨i, u, hi, hu, Except.ok.inj h⟩
  · cases h

/-- An UPDATE finds its row, or changes nothing. -/
theorem update_cases (row : α → Row) (rows : List α) (p : α → Bool) (f : α → α) :
    (∃ r ∈ rows, p r = true ∧ Answer.update row rows p f =
      { value := some (f r), write := some (.update (row r) (row (f r))) }) ∨
    Answer.update row rows p f = { value := none } := by
  unfold Answer.update
  split
  · next r hr => exact .inl ⟨r, List.mem_of_find?_eq_some hr, List.find?_some hr, rfl⟩
  · exact .inr rfl

theorem update_write {row : α → Row} {rows : List α} {p : α → Bool} {f : α → α} {w : Write}
    (h : (Answer.update row rows p f).write = some w) :
    ∃ r ∈ rows, p r = true ∧ w = .update (row r) (row (f r)) := by
  rcases update_cases row rows p f with
    ⟨r, hr, hp, heq⟩ | heq
  · rw [heq] at h
    exact ⟨r, hr, hp, (Option.some.inj h).symm⟩
  · rw [heq] at h
    cases h

/-- A locking SELECT writes nothing. -/
theorem select_cases (row : α → Row) (rows : List α) (p : α → Bool) (pick : ℕ) :
    (∃ r ∈ rows, p r = true ∧ Answer.select row rows p pick =
      { value := some r, lock := some (row r).id }) ∨
    Answer.select row rows p pick = { value := none } := by
  unfold Answer.select
  split
  · next r hr =>
      obtain ⟨hmem, hp⟩ := List.mem_filter.mp (List.mem_of_getElem? hr)
      exact .inl ⟨r, hmem, hp, rfl⟩
  · exact .inr rfl

theorem select_write {row : α → Row} {rows : List α} {p : α → Bool} {pick : ℕ} :
    (Answer.select row rows p pick).write = none := by
  rcases select_cases row rows p pick with
    ⟨r, -, -, heq⟩ | heq
  · rw [heq]
  · rw [heq]

theorem Device.isOwn_self {d : Device} {id u : Uuid} {environment : JsString}
    (h : d.isOwn id u environment = true) : d.isOwn d.id u environment = true := by
  obtain ⟨-, hu, henv⟩ := of_decide_eq_true h
  exact decide_eq_true ⟨rfl, hu, henv⟩

theorem RegistrationSession.isOwn_self {s : RegistrationSession} {id u : Uuid}
    {environment : JsString} (h : s.isOwn id u environment = true) :
    s.isOwn s.id u environment = true := by
  obtain ⟨-, hu, henv⟩ := of_decide_eq_true h
  exact decide_eq_true ⟨rfl, hu, henv⟩

theorem TenantUser.isOwn_self {r : TenantUser} {id u : Uuid} {environment : JsString}
    (h : r.isOwn id u environment = true) : r.isOwn r.id u environment = true := by
  obtain ⟨-, hu, henv⟩ := of_decide_eq_true h
  exact decide_eq_true ⟨rfl, hu, henv⟩

/-- What a statement writes is one of the changes, and an update finds its row. -/
theorem change_of_run {q : Sql} {a : Answer q.Resp} {w : Write} (h : q.run pg db now ω = .ok a)
    (hw : a.write = some w) (hl : q.Locked w) :
    Change pg q w ∧ ∀ old new, w = .update old new → old ∈ db ∧ new.id = old.id := by
  have hinsert : ∀ r : Row, ∀ old new, (.insert r : Write) = .update old new →
      old ∈ db ∧ new.id = old.id := fun r old new heq => by cases heq
  cases q with
  | insertDevice tenantId environment v =>
      obtain ⟨u, -, rfl⟩ := withUuid_ok h
      cases hw
      exact ⟨.deviceCreated _ _ _, hinsert _⟩
  | insertSlot tenantId environment v =>
      obtain ⟨u, -, rfl⟩ := withUuid_ok h
      cases hw
      exact ⟨.slotIssued _ _ _, hinsert _⟩
  | reissueCode deviceId tenantId environment codeHash expiresAt =>
      obtain ⟨id, u, -, -, rfl⟩ := withOwner_ok h
      obtain ⟨d, hd, hp, rfl⟩ := update_write hw
      rw [Bool.and_eq_true, decide_eq_true_eq] at hp
      refine ⟨.codeReissued u now (Device.isOwn_self hp.1) hp.2, ?_⟩
      rintro old new heq
      cases heq
      exact ⟨mem_devices.mp hd, rfl⟩
  | lockSlot codeHash =>
      cases h
      rw [select_write] at hw
      cases hw
  | findCollision tenantId environment fpHash id =>
      cases h
      cases hw
  | claimSlot id externalId fpHash attestationKind =>
      cases h
      obtain ⟨d, hd, hp, rfl⟩ := update_write hw
      obtain rfl := of_decide_eq_true hp
      refine ⟨.slotClaimed now hl, ?_⟩
      rintro old new heq
      cases heq
      exact ⟨mem_devices.mp hd, rfl⟩
  | revoke deviceId tenantId environment =>
      obtain ⟨id, u, -, -, rfl⟩ := withOwner_ok h
      obtain ⟨d, hd, hp, rfl⟩ := update_write hw
      refine ⟨.deviceRevoked u now (Device.isOwn_self hp), ?_⟩
      rintro old new heq
      cases heq
      exact ⟨mem_devices.mp hd, rfl⟩
  | updateDevice deviceId tenantId environment v =>
      obtain ⟨id, u, -, -, rfl⟩ := withOwner_ok h
      obtain ⟨d, hd, hp, rfl⟩ := update_write hw
      refine ⟨.deviceUpdated u now (Device.isOwn_self hp), ?_⟩
      rintro old new heq
      cases heq
      exact ⟨mem_devices.mp hd, rfl⟩
  | upsertDevice v =>
      simp only [Sql.run] at h
      split at h
      · next d hd =>
          cases h
          cases hw
          refine ⟨.deviceReenrolled now (List.find?_some hd), ?_⟩
          rintro old new heq
          cases heq
          exact ⟨mem_devices.mp (List.mem_of_find?_eq_some hd), rfl⟩
      · cases h
        cases hw
        exact ⟨.devicePaired _ _, hinsert _⟩
  | selectDevice deviceId tenantId environment =>
      obtain ⟨id, u, -, -, rfl⟩ := withOwner_ok h
      cases hw
  | selectDeviceById id =>
      cases h
      cases hw
  | insertSession tenantId environment v =>
      obtain ⟨u, -, rfl⟩ := withUuid_ok h
      cases hw
      exact ⟨.sessionStarted _ _ _, hinsert _⟩
  | selectSession sessionId tenantId environment =>
      obtain ⟨id, u, -, -, rfl⟩ := withOwner_ok h
      cases hw
  | lockSession step codeHash =>
      cases h
      rw [select_write] at hw
      cases hw
  | attachDevice id deviceId codeHash expiresAt =>
      cases h
      obtain ⟨s, hs, hp, rfl⟩ := update_write hw
      obtain rfl := of_decide_eq_true hp
      refine ⟨.sessionPaired now hl, ?_⟩
      rintro old new heq
      cases heq
      exact ⟨mem_sessions.mp hs, rfl⟩
  | attachCommitment id did commitment codeHash expiresAt nonce =>
      cases h
      obtain ⟨s, hs, hp, rfl⟩ := update_write hw
      obtain rfl := of_decide_eq_true hp
      refine ⟨.sessionCommitted now hl, ?_⟩
      rintro old new heq
      cases heq
      exact ⟨mem_sessions.mp hs, rfl⟩
  | completeSession id userId =>
      cases h
      obtain ⟨s, hs, hp, rfl⟩ := update_write hw
      obtain rfl := of_decide_eq_true hp
      refine ⟨.sessionCompleted now hl, ?_⟩
      rintro old new heq
      cases heq
      exact ⟨mem_sessions.mp hs, rfl⟩
  | abandonSession sessionId tenantId environment =>
      obtain ⟨id, u, -, -, rfl⟩ := withOwner_ok h
      obtain ⟨s, hs, hp, rfl⟩ := update_write hw
      refine ⟨.sessionAbandoned u now (RegistrationSession.isOwn_self hp), ?_⟩
      rintro old new heq
      cases heq
      exact ⟨mem_sessions.mp hs, rfl⟩
  | insertUser tenantId environment v =>
      obtain ⟨u, -, rfl⟩ := withUuid_ok h
      cases hw
      exact ⟨.userCreated _ _ _, hinsert _⟩
  | registerUser v =>
      cases h
      cases hw
      exact ⟨.userRegistered _ _, hinsert _⟩
  | insertFaceFirst tenantId environment v =>
      obtain ⟨u, -, rfl⟩ := withUuid_ok h
      cases hw
      exact ⟨.faceFirst _ _ _, hinsert _⟩
  | findDid tenantId environment did =>
      obtain ⟨u, -, rfl⟩ := withUuid_ok h
      cases hw
  | updateUser userId tenantId environment v =>
      obtain ⟨id, u, -, -, rfl⟩ := withOwner_ok h
      obtain ⟨r, hr, hp, rfl⟩ := update_write hw
      refine ⟨.userUpdated u now (TenantUser.isOwn_self hp), ?_⟩
      rintro old new heq
      cases heq
      exact ⟨mem_users.mp hr, rfl⟩

end Statements

end ZeroAuth.Tenant
