/-
  ZeroAuth.Tenant.Ceremony

  The calls that run one transaction: the claim of a slot and the three steps of a
  registration.

  The row that the locking SELECT has found stays as it is until the transaction ends, so
  the later statements find it again by its id.
-/

import ZeroAuth.Tenant.Effects

namespace ZeroAuth.Tenant

open ZeroAuth.Lib ZeroAuth.Js ZeroAuth.Pg
open ZeroAuth.Audit (ChainedAuditPayload)

/-! ## Transactions -/

section Transactions

variable {cfg : Settings} {pg : Jsonb} {ok : ℕ → Op → Oracle → World → Prop}
  {extra : Write → Prop} {t now : ℕ} {w : World} {ws : List Write}

/-- The row with the id of a locked one is the locked one. -/
theorem update_of_session {db : Db} {s : RegistrationSession}
    {f : RegistrationSession → RegistrationSession} (hd : tables.Distinct db)
    (hs : Row.session s ∈ db) :
    Answer.update Row.session (Db.sessions db) (fun x => x.id = s.id) f =
      { value := some (f s), write := some (.update (.session s) (.session (f s))) } := by
  cases hfind : (Db.sessions db).find? (fun x => decide (x.id = s.id)) with
  | none =>
      have hnot := List.find?_eq_none.mp hfind s (mem_sessions.mpr hs)
      exact absurd (decide_eq_true rfl) hnot
  | some r =>
      have hid := List.find?_some hfind
      rw [decide_eq_true_eq] at hid
      have hmem : Row.session r ∈ db := mem_sessions.mp (List.mem_of_find?_eq_some hfind)
      have hrow : Row.session r = Row.session s :=
        hd.unique hmem hs (congrArg RowId.session hid)
      obtain rfl := Row.session.inj hrow
      simp only [Answer.update, hfind]

theorem update_of_device {db : Db} {d : Device} {f : Device → Device} (hd : tables.Distinct db)
    (hmem : Row.device d ∈ db) :
    Answer.update Row.device (Db.devices db) (fun x => x.id = d.id) f =
      { value := some (f d), write := some (.update (.device d) (.device (f d))) } := by
  cases hfind : (Db.devices db).find? (fun x => decide (x.id = d.id)) with
  | none =>
      have hnot := List.find?_eq_none.mp hfind d (mem_devices.mpr hmem)
      exact absurd (decide_eq_true rfl) hnot
  | some r =>
      have hid := List.find?_some hfind
      rw [decide_eq_true_eq] at hid
      have hrow : Row.device r = Row.device d :=
        hd.unique (mem_devices.mp (List.mem_of_find?_eq_some hfind)) hmem (congrArg RowId.device hid)
      obtain rfl := Row.device.inj hrow
      simp only [Answer.update, hfind]

theorem safe_lockSession (hg : Guards pg ok extra) {step : Step} {codeHash : JsString}
    {Q : Except Failure (Option RegistrationSession) → World → Prop}
    (h : Opened pg extra t now ws none w)
    (hnone : ∀ w', Opened pg extra t now ws none w' → Q (.ok none) w')
    (hsome : ∀ s w', s.accepts step codeHash now = true →
      Opened pg extra t now ws (some (.session s)) w' → Q (.ok (some s)) w')
    (herr : ∀ e w', Opened pg extra t now ws none w' → Q (.error e) w') :
    (discipline cfg pg ok extra).Safe t Q (query (.lockSession step codeHash)) w := by
  refine safe_query hg (fun v : Option RegistrationSession => v.map .session) h
    (fun _ _ _ _ _ _ _ _ => trivial) (fun db ω a _ ha r hr => ?_)
    (fun db ω a w' _ _ ha h' => ?_) herr
  · cases ha
    -- the row that is locked is one that was found
    right
    rcases select_cases .session (Db.sessions db)
      (RegistrationSession.accepts step codeHash now) ω.pick with
      ⟨s, hs, -, heq⟩ | heq
    · rw [heq] at hr ⊢
      cases hr
      exact ⟨mem_sessions.mp hs, rfl, rfl⟩
    · rw [heq] at hr
      cases hr
  · cases ha
    -- the SELECT gives one of the rows that accept the code, or none
    rcases select_cases .session (Db.sessions db)
      (RegistrationSession.accepts step codeHash now) ω.pick with
      ⟨s, hs, haccepts, heq⟩ | heq
    · rw [heq] at h' ⊢
      have h' : Opened pg extra t now (ws ++ []) (some (.session s)) w' := h'
      rw [List.append_nil] at h'
      exact hsome s w' haccepts h'
    · rw [heq] at h' ⊢
      have h' : Opened pg extra t now (ws ++ []) none w' := h'
      rw [List.append_nil] at h'
      exact hnone w' h'

theorem safe_lockSlot (hg : Guards pg ok extra) {codeHash : JsString}
    {Q : Except Failure (Option Device) → World → Prop} (h : Opened pg extra t now ws none w)
    (hnone : ∀ w', Opened pg extra t now ws none w' → Q (.ok none) w')
    (hsome : ∀ d w', d.claimable codeHash now = true →
      Opened pg extra t now ws (some (.device d)) w' → Q (.ok (some d)) w')
    (herr : ∀ e w', Opened pg extra t now ws none w' → Q (.error e) w') :
    (discipline cfg pg ok extra).Safe t Q (query (.lockSlot codeHash)) w := by
  refine safe_query hg (fun v : Option Device => v.map .device) h
    (fun _ _ _ _ _ _ _ _ => trivial) (fun db ω a _ ha r hr => ?_)
    (fun db ω a w' _ _ ha h' => ?_) herr
  · cases ha
    right
    rcases select_cases .device (Db.devices db)
      (Device.claimable codeHash now) ω.pick with ⟨d, hd, -, heq⟩ | heq
    · rw [heq] at hr ⊢
      cases hr
      exact ⟨mem_devices.mp hd, rfl, rfl⟩
    · rw [heq] at hr
      cases hr
  · cases ha
    rcases select_cases .device (Db.devices db)
      (Device.claimable codeHash now) ω.pick with ⟨d, hd, hclaimable, heq⟩ | heq
    · rw [heq] at h' ⊢
      have h' : Opened pg extra t now (ws ++ []) (some (.device d)) w' := h'
      rw [List.append_nil] at h'
      exact hsome d w' hclaimable h'
    · rw [heq] at h' ⊢
      have h' : Opened pg extra t now (ws ++ []) none w' := h'
      rw [List.append_nil] at h'
      exact hnone w' h'

/-- A statement that only reads. -/
theorem safe_read (hg : Guards pg ok extra) {q : Sql} {row : Option Row}
    {Q : Except Failure q.Resp → World → Prop} (h : Opened pg extra t now ws row w)
    (hread : ∀ db ω a, q.run pg db now ω = .ok a → a.write = none)
    (hok : ∀ v w', Opened pg extra t now ws row w' → Q (.ok v) w')
    (herr : ∀ e w', Opened pg extra t now ws none w' → Q (.error e) w') :
    (discipline cfg pg ok extra).Safe t Q (query q) w := by
  refine safe_query hg (fun _ => row) h (fun db ω a write _ _ ha hw => ?_)
    (fun db ω a _ ha r hr => .inl ⟨hr, fun write hw => ?_⟩) (fun db ω a w' _ _ ha h' => ?_) herr
  · rw [hread db ω a ha] at hw
    cases hw
  · rw [hread db ω a ha] at hw
    cases hw
  · rw [hread db ω a ha] at h'
    have h' : Opened pg extra t now (ws ++ []) row w' := h'
    rw [List.append_nil] at h'
    exact hok _ w' h'

theorem safe_claimBody (hg : Guards pg ok extra) {codeHash fpHash : JsString} {input : ClaimInput}
    (h : Done t [] [] w) :
    (discipline cfg pg ok extra).Safe t
      (TryOutcome (fun device ws ps => (∃ d now, d.claimable codeHash now = true ∧
        device = d.claimed (deviceExternalId fpHash) fpHash
          (input.attestationKind.getD (js "none")) now ∧
        ws = [.update (.device d) (.device device)]) ∧ Unfinal ps) t)
      (claimBody codeHash fpHash input) w := by
  apply Discipline.safe_bind
  -- BEGIN, and `now()` of the transaction
  refine safe_begin h (fun now w₁ h₁ => ?_) fun e w₁ h₁ => .inl h₁.undone
  apply Discipline.safe_bind
  -- the slot with this code, locked
  refine safe_lockSlot hg h₁ (fun w₂ h₂ => ?_) (fun d w₂ hclaimable h₂ => ?_)
    fun e w₂ h₂ => .inl h₂.undone
  · exact safe_reject h₂.undone fun _ _ h₃ => .inl h₃
  · apply Discipline.safe_bind
    -- the devices with this fingerprint
    refine safe_read hg h₂ (fun db ω a ha => ?_) (fun collisions w₃ h₃ => ?_)
      fun e w₃ h₃ => .inl h₃.undone
    · cases ha
      rfl
    by_cases hcollision : (show ℕ from collisions) > 0
    · simp only [hcollision, if_true]
      exact safe_reject h₃.undone fun _ _ h₄ => .inl h₄
    simp only [hcollision, if_false]
    apply Discipline.safe_bind
    -- the UPDATE of the slot
    refine safe_query hg (fun _ => none) h₃ (fun db ω a write hrow hd ha hw => ?_)
      (fun _ _ _ _ _ r hr => by cases hr) (fun db ω a w₄ hrow hd ha h₄ => ?_)
      fun e w₄ h₄ => .inl h₄.undone
    · cases ha
      rw [update_of_device hd (hrow _ rfl)] at hw
      cases hw
      exact ⟨codeHash, now, hclaimable⟩
    · cases ha
      rw [update_of_device hd (hrow _ rfl)] at h₄ ⊢
      apply Discipline.safe_bind
      -- COMMIT; when its answer is lost the slot is claimed without the entry
      refine safe_commit h₄ (fun w₅ h₅ => ?_) (fun e w₅ h₅ => .inl h₅.undone) fun e w₅ h₅ hlost =>
        .inr ⟨hlost, _, _, [], h₅, ⟨d, now, hclaimable, rfl, rfl⟩, unfinal_nil⟩
      refine safe_unfinal "device.enrolled" rfl (by decide) h₅ fun w₆ h₆ hunfinal => ?_
      exact ⟨_, _, h₆, ⟨d, now, hclaimable, rfl, rfl⟩, hunfinal⟩

/-! ## The three steps -/

/-- The upsert answers the row that it writes. -/
theorem upsert_ok {db : Db} {ω : Oracle} {v : PairedDevice} {a : Answer Device}
    (h : (Sql.upsertDevice v).run pg db now ω = .ok a) :
    ∃ write, a.write = some write ∧ newRow write = .device a.value ∧
      Change pg (.upsertDevice v) write := by
  have hchange : ∀ write, a.write = some write → Change pg (.upsertDevice v) write :=
    fun write hw => (change_of_run h hw trivial).1
  simp only [Sql.run] at h
  split at h
  · cases h
    exact ⟨_, rfl, rfl, hchange _ rfl⟩
  · cases h
    exact ⟨_, rfl, rfl, hchange _ rfl⟩

/-- It locks no session. -/
theorem upsert_keys {v : PairedDevice} {write : Write} (h : Change pg (.upsertDevice v) write)
    (id : Uuid) : RowKey.row (.session id) ∉ tables.keys write := by
  cases h with
  | deviceReenrolled => simp [tables, Keyed.keys, Row.id, Row.names]
  | devicePaired => simp [tables, Keyed.keys, Row.id, Row.names]

/-- The last update of a step's transaction, of the session that the step has locked. -/
theorem safe_updateSession (hg : Guards pg ok extra) {q : Sql} {s : RegistrationSession}
    (f : ℕ → RegistrationSession → RegistrationSession)
    {Q : Except Failure q.Resp → World → Prop} (v : ℕ → q.Resp)
    (h : Opened pg extra t now ws (some (.session s)) w)
    (hl : q.Locked (.update (.session s) (.session (f now s))))
    (hrun : ∀ db ω, Row.session s ∈ db → tables.Distinct db → q.run pg db now ω =
      .ok { value := v now, write := some (.update (.session s) (.session (f now s))) })
    (hok : ∀ w', Opened pg extra t now
      (ws ++ [.update (.session s) (.session (f now s))]) none w' → Q (.ok (v now)) w')
    (herr : ∀ e w', Opened pg extra t now ws none w' → Q (.error e) w') :
    (discipline cfg pg ok extra).Safe t Q (query q) w := by
  refine safe_query hg (fun _ => none) h (fun db ω a write hrow hd ha hw => ?_)
    (fun _ _ _ _ _ r hr => by cases hr) (fun db ω a w' hrow hd ha h' => ?_) herr
  · rw [hrun db ω (hrow _ rfl) hd] at ha
    cases ha
    cases hw
    exact hl
  · rw [hrun db ω (hrow _ rfl) hd] at ha
    cases ha
    exact hok w' h'

theorem safe_pairBody (hg : Guards pg ok extra) {pairCode nextCode : JsString}
    {nextCodeExpiresAt : ℕ} {input : PairInput} (h : Done t [] [] w)
    (hcode : input.pairCode = pairCode) :
    (discipline cfg pg ok extra).Safe t
      (TryOutcome (fun res ws ps => PairEffect cfg pg input res ws ∧ Unfinal ps) t)
      (pairBody cfg (lookupHash cfg pairCode) (fingerprintHash input.fingerprint) nextCode
        nextCodeExpiresAt input) w := by
  apply Discipline.safe_bind
  -- BEGIN
  refine safe_begin h (fun now w₁ h₁ => ?_) fun e w₁ h₁ => .inl h₁.undone
  apply Discipline.safe_bind
  -- the session with this code, locked
  refine safe_lockSession hg h₁ (fun w₂ h₂ => ?_) (fun s w₂ haccepts h₂ => ?_)
    fun e w₂ h₂ => .inl h₂.undone
  · exact safe_reject h₂.undone fun _ _ h₃ => .inl h₃
  apply Discipline.safe_bind
  -- the device is inserted, or found by its external id; the lock on the session stays
  refine safe_query hg (fun _ => some (.session s)) h₂ (fun _ _ _ _ _ _ _ _ => trivial)
    (fun db ω a _ ha r hr => .inl ⟨hr, fun write hw => ?_⟩) (fun db ω a w₃ _ _ ha h₃ => ?_)
    fun e w₃ h₃ => .inl h₃.undone
  · cases hr
    exact upsert_keys (change_of_run ha hw trivial).1 s.id
  obtain ⟨write, hw, hnew, hchange⟩ := upsert_ok ha
  rw [hw] at h₃
  apply Discipline.safe_bind
  -- the session gets the device and its next code
  refine safe_updateSession hg (fun now => RegistrationSession.paired (Device.id a.value)
      (sha256Hex nextCode) nextCodeExpiresAt now) (fun now => some (s.paired (Device.id a.value)
      (sha256Hex nextCode) nextCodeExpiresAt now)) h₃ ⟨_, _, haccepts⟩
    (fun db ω hs hd => ?_) (fun w₄ h₄ => ?_) fun e w₄ h₄ => .inl h₄.undone
  · exact congrArg Except.ok (update_of_session hd hs)
  apply Discipline.safe_bind
  -- COMMIT, then the audit event and the demo cache
  refine safe_commit h₄ (fun w₅ h₅ => ?_) (fun e w₅ h₅ => .inl h₅.undone) fun e w₅ h₅ hlost =>
    .inr ⟨hlost, ⟨some (s.paired (Device.id a.value) (sha256Hex nextCode) nextCodeExpiresAt now),
      nextCode, nextCodeExpiresAt, [], none⟩, _, [], h₅,
      ⟨s, write, a.value, now, hcode ▸ haccepts, hchange, hnew, rfl, rfl⟩, unfinal_nil⟩
  refine safe_unfinal "registration.device_paired" rfl (by decide) h₅ fun w₆ h₆ hunfinal => ?_
  apply Discipline.safe_bind
  refine safe_cachePendingDemoCode _ h₆ (List.mem_append_right _ (List.mem_singleton_self _)) rfl
    rfl rfl rfl fun w₇ h₇ => ?_
  exact ⟨_, _, h₇, ⟨s, write, a.value, now, hcode ▸ haccepts, hchange, hnew, rfl, rfl⟩, hunfinal⟩

theorem safe_commitmentBody (hg : Guards pg ok extra) {enrollCode nextCode nonce : JsString}
    {nextCodeExpiresAt : ℕ} {input : CommitmentInput} (h : Done t [] [] w)
    (hcode : input.enrollCode = enrollCode) :
    (discipline cfg pg ok extra).Safe t
      (TryOutcome (fun res ws ps => CommitmentEffect cfg input res ws ∧ Unfinal ps) t)
      (commitmentBody cfg (lookupHash cfg enrollCode) (cfg.caseMapping.toLowerCase (trim input.did))
        (cfg.caseMapping.toLowerCase (trim input.commitment)) nextCode nextCodeExpiresAt nonce
        input) w := by
  apply Discipline.safe_bind
  -- BEGIN
  refine safe_begin h (fun now w₁ h₁ => ?_) fun e w₁ h₁ => .inl h₁.undone
  apply Discipline.safe_bind
  -- the session with this code, locked
  refine safe_lockSession hg h₁ (fun w₂ h₂ => ?_) (fun s w₂ haccepts h₂ => ?_)
    fun e w₂ h₂ => .inl h₂.undone
  · exact safe_reject h₂.undone fun _ _ h₃ => .inl h₃
  apply Discipline.safe_bind
  -- the session gets DID, commitment, nonce and its next code
  refine safe_updateSession hg (RegistrationSession.committed
      (cfg.caseMapping.toLowerCase (trim input.did))
      (cfg.caseMapping.toLowerCase (trim input.commitment)) (sha256Hex nextCode) nextCodeExpiresAt
      nonce) (fun now => some (s.committed (cfg.caseMapping.toLowerCase (trim input.did))
      (cfg.caseMapping.toLowerCase (trim input.commitment)) (sha256Hex nextCode) nextCodeExpiresAt
      nonce now)) h₂ ⟨_, _, haccepts⟩ (fun db ω hs hd => ?_) (fun w₃ h₃ => ?_)
    fun e w₃ h₃ => .inl h₃.undone
  · exact congrArg Except.ok (update_of_session hd hs)
  apply Discipline.safe_bind
  -- COMMIT, then the audit event and the demo cache
  refine safe_commit h₃ (fun w₄ h₄ => ?_) (fun e w₄ h₄ => .inl h₄.undone) fun e w₄ h₄ hlost =>
    .inr ⟨hlost, ⟨some (s.committed (cfg.caseMapping.toLowerCase (trim input.did))
      (cfg.caseMapping.toLowerCase (trim input.commitment)) (sha256Hex nextCode) nextCodeExpiresAt
      nonce now), nextCode, nextCodeExpiresAt, [], some nonce⟩, _, [], h₄,
      ⟨s, nonce, now, hcode ▸ haccepts, rfl, rfl, rfl⟩, unfinal_nil⟩
  refine safe_unfinal "registration.commitment_submitted" rfl (by decide) h₄
    fun w₅ h₅ hunfinal => ?_
  apply Discipline.safe_bind
  refine safe_cachePendingDemoCode _ h₅ (List.mem_singleton_self _) rfl rfl rfl rfl
    fun w₆ h₆ => ?_
  exact ⟨_, _, h₆, ⟨s, nonce, now, hcode ▸ haccepts, rfl, rfl, rfl⟩, hunfinal⟩

theorem safe_finishRegistration (hg : Guards pg ok extra) {s : RegistrationSession}
    {text : JsString} {input : CompleteInput} (h : Opened pg extra t now [] (some (.session s)) w)
    (haccepts : ∃ code, input.verifyCode = .str code ∧
      s.accepts .verify (lookupHash cfg code) now = true)
    (hnonce : ∃ nonce, input.challengeNonce = .str nonce ∧ s.verifyChallengeNonce = some nonce)
    (hstored : s.commitment = some text)
    (hsignal : ∃ signal signals, input.publicSignals = .arr (signal :: signals) ∧
      commitmentsEqual signal (.str text) = true) :
    (discipline cfg pg ok extra).Safe t (TryOutcome (CompleteEffect cfg pg input) t)
      (finishRegistration cfg s text) w := by
  unfold finishRegistration
  cases hvalue : parseCommitmentText text with
  | none => exact .inl h.undone
  | some commitment =>
  simp only
  apply Discipline.safe_bind
  -- the user is inserted while the session is locked
  refine safe_query hg (fun _ => some (.session s)) h (fun _ _ _ _ _ _ _ _ => trivial)
    (fun db ω a _ ha r hr => .inl ⟨hr, fun write hw => ?_⟩) (fun db ω a w₁ _ _ ha h₁ => ?_)
    fun e w₁ h₁ => .inl h₁.undone
  · cases hr
    cases ha
    cases hw
    simp [tables, Keyed.keys, Row.id, Row.names]
  cases ha
  apply Discipline.safe_bind
  -- the session is completed with its id
  refine safe_updateSession hg (RegistrationSession.completed ω.uuid)
    (fun now => some (s.completed ω.uuid now)) h₁ ?_
    (fun db ω hs hd => ?_) (fun w₂ h₂ => ?_) fun e w₂ h₂ => .inl h₂.undone
  · obtain ⟨code, -, hcode⟩ := haccepts
    exact ⟨_, _, hcode⟩
  · exact congrArg Except.ok (update_of_session hd hs)
  -- with or without a device the rest is the same: COMMIT, and the entry that ends the session
  have hcommit : ∀ device w₃, Opened pg extra t now
      ([] ++ [.insert (.user ({ registeredUser cfg s commitment with
          metadata := pg.store (registeredUser cfg s commitment).metadata }.row ω.uuid now))] ++
        [.update (.session s) (.session (s.completed ω.uuid now))]) none w₃ →
      (discipline cfg pg ok extra).Safe t (TryOutcome (CompleteEffect cfg pg input) t) (do
        await .commit
        auditSession s.tenantId.text s.environment (js "device") (s.deviceId.map Uuid.text)
          "registration.completed" "tenant_user" ω.uuid
          "Registration ceremony complete; tenant_user created"
          [(js "sessionId", .str s.id.text),
            (js "deviceId", Audit.ofNullable (s.deviceId.map Uuid.text)),
            (js "did", Audit.ofNullable s.did)]
        return (⟨some (s.completed ω.uuid now), { registeredUser cfg s commitment with
          metadata := pg.store (registeredUser cfg s commitment).metadata }.row ω.uuid now,
          device⟩ : RegistrationCompleteResult)) w₃ := by
    intro device w₃ h₃
    apply Discipline.safe_bind
    refine safe_commit h₃ (fun w₄ h₄ => ?_) (fun e w₄ h₄ => .inl h₄.undone)
      fun e w₄ h₄ hlost => ?_
    case refine_2 =>
      obtain ⟨p, hp⟩ := exists_completedEntry s.id
      exact .inr ⟨hlost, ⟨some (s.completed ω.uuid now), { registeredUser cfg s commitment with
        metadata := pg.store (registeredUser cfg s commitment).metadata }.row ω.uuid now, device⟩,
        _, [p], h₄, s, text, commitment, ω.uuid, now,
        ⟨haccepts, hnonce, hstored, hvalue, hsignal⟩, rfl, rfl, rfl, p, rfl, hp⟩
    refine safe_event h₄ (fun id state hr => ?_) fun w₅ h₅ => ?_
    · obtain ⟨rfl, rfl⟩ := @IsCompletedEntry.reports s.id _ _ _ ⟨rfl, rfl⟩ hr
      exact ⟨_, List.mem_append_right _ (List.mem_singleton_self _), s, ω.uuid, now, rfl, rfl⟩
    · exact ⟨_, _, h₅, s, text, commitment, ω.uuid, now,
        ⟨haccepts, hnonce, hstored, hvalue, hsignal⟩, rfl, rfl, rfl, _, rfl, rfl, rfl⟩
  simp only
  split
  · next id hdevice =>
      apply Discipline.safe_bind
      refine safe_read hg h₂ (fun db ω a ha => ?_) (fun device w₃ h₃ => ?_) fun e w₃ h₃ => .inl h₃.undone
      · cases ha
        rfl
      · exact hcommit device w₃ h₃
  · exact hcommit none w₂ h₂

/-- A string that is not empty. -/
theorem filter_nonempty {s : Option JsString} {text : JsString}
    (h : s.filter (· ≠ []) = some text) : s = some text := by
  cases s with
  | none => cases h
  | some x =>
      rw [Option.filter_some] at h
      split at h
      · exact h
      · cases h

theorem safe_completeBody (hg : Guards pg ok extra) {code nonce : JsString} {proof signal : Json}
    {signals : List Json} {input : CompleteInput} (h : Done t [] [] w)
    (hcode : input.verifyCode = .str code) (hnonce : input.challengeNonce = .str nonce)
    (hsignals : input.publicSignals = .arr (signal :: signals)) :
    (discipline cfg pg ok extra).Safe t (TryOutcome (CompleteEffect cfg pg input) t)
      (completeBody cfg (lookupHash cfg code) nonce proof (signal :: signals)) w := by
  apply Discipline.safe_bind
  -- BEGIN
  refine safe_begin h (fun now w₁ h₁ => ?_) fun e w₁ h₁ => .inl h₁.undone
  apply Discipline.safe_bind
  -- the session with this code, locked
  refine safe_lockSession hg h₁ (fun w₂ h₂ => ?_) (fun s w₂ haccepts h₂ => ?_)
    fun e w₂ h₂ => .inl h₂.undone
  · exact safe_reject h₂.undone fun _ _ h₃ => .inl h₃
  simp only
  -- nonce, commitment and first signal are compared before the proof is looked at
  split
  · exact safe_reject h₂.undone fun _ _ h₃ => .inl h₃
  next hchallenge =>
  split
  · exact safe_reject h₂.undone fun _ _ h₃ => .inl h₃
  next text hstored =>
  split
  · exact safe_reject h₂.undone fun _ _ h₃ => .inl h₃
  next hequal =>
  apply Discipline.safe_bind
  -- the proof
  refine safe_plain_opened (o := .verifyProof proof (.arr (signal :: signals))) trivial h₂
    fun r w₃ h₃ => ?_
  cases r with
  | error e => exact .inl h₃.undone
  | ok verified =>
      simp only
      split
      · exact safe_reject h₃.undone fun _ _ h₄ => .inl h₄
      · refine safe_finishRegistration hg h₃ ⟨code, hcode, haccepts⟩ ⟨nonce, hnonce, ?_⟩
          (filter_nonempty hstored) ⟨signal, signals, hsignals, ?_⟩
        · exact not_not.mp hchallenge
        · simpa using hequal

theorem safe_claimDeviceWithCode (hg : Guards pg ok extra) {input : ClaimInput}
    (h : Done t [] [] w) :
    (discipline cfg pg ok extra).Safe t
      (Outcome (fun d ws ps => ClaimEffect cfg input d ws ∧ Unfinal ps) t)
      (claimDeviceWithCode cfg input) w := by
  unfold claimDeviceWithCode
  split
  · exact .inl h
  · refine safe_withClient h fun w₁ h₁ => (safe_claimBody hg h₁).mono fun out w₂ h₂ => ?_
    cases out with
    | error e =>
        refine h₂.imp_right ?_
        rintro ⟨hlost, device, ws, ps, hdone, hslot, hunfinal⟩
        exact ⟨hlost, device, ws, ps, hdone, ⟨hslot⟩, hunfinal⟩
    | ok device =>
        obtain ⟨ws, ps, hdone, hslot, hunfinal⟩ := h₂
        exact ⟨ws, ps, hdone, ⟨hslot⟩, hunfinal⟩

theorem safe_pairDevice (hg : Guards pg ok extra) {input : PairInput} (h : Done t [] [] w) :
    (discipline cfg pg ok extra).Safe t
      (Outcome (fun res ws ps => PairEffect cfg pg input res ws ∧ Unfinal ps) t)
      (pairDeviceForRegistration cfg input) w := by
  unfold pairDeviceForRegistration
  split
  · exact .inl h
  apply Discipline.safe_bind
  apply safe_values plain_generateEnrollmentCode h
  intro out w₁ h₁
  cases out with
  | error e => exact .inl h₁
  | ok nextCode =>
  apply Discipline.safe_bind
  apply safe_plain_done (o := .now) trivial h₁
  intro r w₂ h₂
  cases r with
  | error e => exact .inl h₂
  | ok now => exact safe_withClient h₂ fun w₃ h₃ => safe_pairBody hg h₃ rfl

theorem safe_submitCommitment (hg : Guards pg ok extra) {input : CommitmentInput}
    (h : Done t [] [] w) :
    (discipline cfg pg ok extra).Safe t
      (Outcome (fun res ws ps => CommitmentEffect cfg input res ws ∧ Unfinal ps) t)
      (submitCommitmentForRegistration cfg input) w := by
  unfold submitCommitmentForRegistration
  simp only
  split
  · exact .inl h
  split
  · exact .inl h
  apply Discipline.safe_bind
  apply safe_values plain_generateEnrollmentCode h
  intro out w₁ h₁
  cases out with
  | error e => exact .inl h₁
  | ok nextCode =>
  apply Discipline.safe_bind
  apply safe_plain_done (o := .now) trivial h₁
  intro r w₂ h₂
  cases r with
  | error e => exact .inl h₂
  | ok now =>
  apply Discipline.safe_bind
  apply safe_plain_done (o := .randomBytes (challengeNonceHexLen / 2)) trivial h₂
  intro r w₃ h₃
  cases r with
  | error e => exact .inl h₃
  | ok nonce => exact safe_withClient h₃ fun w₄ h₄ => safe_commitmentBody hg h₄ rfl

theorem safe_completeRegistration (hg : Guards pg ok extra) {input : CompleteInput}
    (h : Done t [] [] w) :
    (discipline cfg pg ok extra).Safe t (Outcome (CompleteEffect cfg pg input) t)
      (completeRegistration cfg input) w := by
  unfold completeRegistration
  split
  · next u code hcode =>
      split
      · next v nonce hnonce =>
          split
          · next signal signals hsignals =>
              exact safe_withClient h fun w₁ h₁ => safe_completeBody hg h₁ hcode hnonce hsignals
          · exact .inl h
      · exact .inl h
  · exact .inl h

end Transactions

end ZeroAuth.Tenant
