/-
  ZeroAuth.Tenant.Effects

  What each call has done when it ends.

  A call that throws has committed nothing and started no event, unless the answer of
  its last write was lost.  For a call that returns, `Effect` lists the writes that it has
  committed, in order, and the events that it has started.
-/

import ZeroAuth.Tenant.Steps

namespace ZeroAuth.Tenant

open ZeroAuth.Lib ZeroAuth.Js ZeroAuth.Pg
open ZeroAuth.Audit (ChainedAuditPayload)

/-! ## Effects -/

/-- The hash under which a code is looked up. -/
def lookupHash (cfg : Settings) (code : JsString) : JsString :=
  sha256Hex (normaliseEnrollmentCode cfg.caseMapping code)

/-- One device is inserted and returned. -/
def DeviceInserted (device : Device) (ws : List Write) : Prop := ws = [.insert (.device device)]

/-- One device is updated by `f` and returned, or there is none. -/
def DeviceChanged (f : ℕ → Device → Device) (device : Option Device) (ws : List Write) : Prop :=
  (device = none ∧ ws = []) ∨
    ∃ d now, device = some (f now d) ∧ ws = [.update (.device d) (.device (f now d))]

structure ClaimEffect (cfg : Settings) (input : ClaimInput) (device : Device) (ws : List Write) :
    Prop where
  slot : ∃ d now, d.claimable (lookupHash cfg input.enrollmentCode) now = true ∧
    device = d.claimed (deviceExternalId (fingerprintHash input.fingerprint))
      (fingerprintHash input.fingerprint) (input.attestationKind.getD (js "none")) now ∧
    ws = [.update (.device d) (.device device)]

/-- The parameters of the upsert of a session's device. -/
def pairedDevice (input : PairInput) (s : RegistrationSession) : PairedDevice :=
  { tenantId := s.tenantId
    environment := s.environment
    externalId := deviceExternalId (fingerprintHash input.fingerprint)
    name := js "Registration device (" ++ s.id.text.take 8 ++ js ")"
    fpHash := fingerprintHash input.fingerprint
    attestationKind := input.attestationKind.getD (js "none")
    metadata := .obj [(js "via", .str (js "registration")), (js "sessionId", .str s.id.text)] }

def PairEffect (cfg : Settings) (pg : Jsonb) (input : PairInput) (res : RegistrationStepResult)
    (ws : List Write) : Prop :=
  ∃ s write device now, s.accepts .pair (lookupHash cfg input.pairCode) now = true ∧
    Change pg (.upsertDevice (pairedDevice input s)) write ∧ newRow write = .device device ∧
    res.session = some (s.paired device.id (sha256Hex res.nextCode) res.nextCodeExpiresAt now) ∧
    ws = [write, .update (.session s)
      (.session (s.paired device.id (sha256Hex res.nextCode) res.nextCodeExpiresAt now))]

/-- What step 2 makes of a session. -/
def committedSession (cfg : Settings) (input : CommitmentInput) (res : RegistrationStepResult)
    (nonce : JsString) (now : ℕ) (s : RegistrationSession) : RegistrationSession :=
  s.committed (cfg.caseMapping.toLowerCase (trim input.did))
    (cfg.caseMapping.toLowerCase (trim input.commitment)) (sha256Hex res.nextCode)
    res.nextCodeExpiresAt nonce now

def CommitmentEffect (cfg : Settings) (input : CommitmentInput) (res : RegistrationStepResult)
    (ws : List Write) : Prop :=
  ∃ s nonce now, s.accepts .enroll (lookupHash cfg input.enrollCode) now = true ∧
    res.challengeNonce = some nonce ∧
    res.session = some (committedSession cfg input res nonce now s) ∧
    ws = [.update (.session s) (.session (committedSession cfg input res nonce now s))]

/-- What the checks of the last step have found: the session that the code opens, in the
    state in which it was locked, its commitment and the value of that. -/
structure Verified (cfg : Settings) (input : CompleteInput) (s : RegistrationSession)
    (text : JsString) (commitment : ℤ) (now : ℕ) : Prop where
  code : ∃ code, input.verifyCode = .str code ∧ s.accepts .verify (lookupHash cfg code) now = true
  nonce : ∃ nonce, input.challengeNonce = .str nonce ∧ s.verifyChallengeNonce = some nonce
  stored : s.commitment = some text
  value : parseCommitmentText text = some commitment
  signal : ∃ signal signals, input.publicSignals = .arr (signal :: signals) ∧
    commitmentsEqual signal (.str text) = true

def CompleteEffect (cfg : Settings) (pg : Jsonb) (input : CompleteInput)
    (res : RegistrationCompleteResult) (ws : List Write) (ps : List ChainedAuditPayload) : Prop :=
  ∃ s text commitment id now, Verified cfg input s text commitment now ∧
    res.tenantUser = { registeredUser cfg s commitment with
      metadata := pg.store (registeredUser cfg s commitment).metadata }.row id now ∧
    res.session = some (s.completed res.tenantUser.id now) ∧
    ws = [.insert (.user res.tenantUser),
      .update (.session s) (.session (s.completed res.tenantUser.id now))] ∧
    ∃ p, ps = [p] ∧ IsCompletedEntry s.id p

def AbandonEffect (session : Option RegistrationSession) (ws : List Write)
    (ps : List ChainedAuditPayload) : Prop :=
  (session = none ∧ ws = [] ∧ ps = []) ∨
    ∃ s now p, session = some (s.abandoned now) ∧
      ws = [.update (.session s) (.session (s.abandoned now))] ∧ ps = [p] ∧
      IsAbandonedEntry s.id p

theorem exists_completedEntry (id : Uuid) : ∃ p, IsCompletedEntry id p :=
  ⟨Audit.AuditInput.payload
    { environment := none
      actorType := []
      action := js "registration.completed"
      entityType := []
      entityId := none
      status := []
      summary := []
      metadata := .obj [(js "sessionId", .str id.text)] } [], rfl, rfl⟩

theorem exists_abandonedEntry (id : Uuid) : ∃ p, IsAbandonedEntry id p :=
  ⟨Audit.AuditInput.payload
    { environment := none
      actorType := []
      action := js "registration.abandoned"
      entityType := []
      entityId := some id.text
      status := []
      summary := [] } [], rfl, rfl⟩

/-- One user is inserted or updated, or none. -/
def UserChanged (ws : List Write) : Prop := ∀ write ∈ ws, ∃ u, newRow write = .user u

/-- The writes and events of a call that has returned. -/
def Effect (cfg : Settings) (pg : Jsonb) :
    Call → Result → List Write → List ChainedAuditPayload → Prop
  | .createDevice _ _ _ _, .device d, ws, ps => DeviceInserted d ws ∧ Unfinal ps
  | .issueEnrollmentCode _ _ _ _, .invite (some i), ws, ps =>
      DeviceInserted i.device ws ∧ Unfinal ps ∧
        i.device.enrollmentCodeHash = some (sha256Hex i.enrollmentCode)
  | .regenerateEnrollmentCode _ _ _ _, .invite i, ws, ps =>
      (i = none ∧ ws = [] ∧ ps = []) ∨ ∃ i', i = some i' ∧ Unfinal ps ∧
        DeviceChanged (fun now => Device.reissued (sha256Hex i'.enrollmentCode) i'.expiresAt now)
          (some i'.device) ws
  | .claimDeviceWithCode input, .device d, ws, ps => ClaimEffect cfg input d ws ∧ Unfinal ps
  | .revokeDevice _ _ _ _, .deviceOrNull d, ws, ps => DeviceChanged Device.revoked d ws ∧ Unfinal ps
  | .updateDevice _ _ _ _ _, .deviceOrNull d, ws, ps =>
      (∃ v, DeviceChanged (Device.updated v) d ws) ∧ Unfinal ps
  | .startRegistration _ _ _ _, .started res, ws, ps =>
      ws = [.insert (.session res.session)] ∧ Unfinal ps ∧
        res.session.pairCodeHash = some (sha256Hex res.pairCode)
  | .pairDevice input, .stepped res, ws, ps => PairEffect cfg pg input res ws ∧ Unfinal ps
  | .submitCommitment input, .stepped res, ws, ps => CommitmentEffect cfg input res ws ∧ Unfinal ps
  | .completeRegistration input, .completed res, ws, ps => CompleteEffect cfg pg input res ws ps
  | .abandonRegistration _ _ _ _, .abandoned s, ws, ps => AbandonEffect s ws ps
  | .getSignup _, .signup _, ws, ps => ws = [] ∧ ps = []
  | .createTenantUser _ _ _ _, .user _, ws, ps => UserChanged ws ∧ Unfinal ps
  | .updateTenantUser _ _ _ _ _, .user _, ws, ps => UserChanged ws ∧ Unfinal ps
  | .registerFaceFirst _ _ _, .faceFirst _, ws, ps => UserChanged ws ∧ Unfinal ps
  | _, _, _, _ => False

/-- The call has committed what it was to commit, and has not heard of it. -/
def Unheard {α : Type} (E : α → List Write → List ChainedAuditPayload → Prop) (t : ℕ) (w : World) :
    Prop :=
  t ∈ w.unanswered ∧ ∃ a ws ps, Done t ws [] w ∧ E a ws ps

/-- How a call ends: it has done nothing and throws, or throws because an answer was lost, or it
    returns with an effect. -/
def Outcome {α : Type} (E : α → List Write → List ChainedAuditPayload → Prop) (t : ℕ)
    (out : Except Failure α) (w : World) : Prop :=
  match out with
  | .error _ => Done t [] [] w ∨ Unheard E t w
  | .ok a => ∃ ws ps, Done t ws ps w ∧ E a ws ps

/-- How the part of a call inside `try` ends: after an error its transaction may still be
    open. -/
def TryOutcome {α : Type} (E : α → List Write → List ChainedAuditPayload → Prop) (t : ℕ)
    (out : Except Failure α) (w : World) : Prop :=
  match out with
  | .error _ => Undone t w ∨ Unheard E t w
  | .ok a => ∃ ws ps, Done t ws ps w ∧ E a ws ps

def Post (cfg : Settings) (pg : Jsonb) (a : Call) (t : ℕ) (out : Except Failure Result)
    (w : World) : Prop :=
  Outcome (Effect cfg pg a) t out w

/-! ## Parts of the programs -/

section Parts

variable {cfg : Settings} {pg : Jsonb} {ok : ℕ → Op → Oracle → World → Prop}
  {extra : Write → Prop} {t now : ℕ} {w : World} {ws : List Write} {row : Option Row}
  {ps : List ChainedAuditPayload} {α : Type}

/-- A part that only draws values. -/
theorem safe_values {p : Program α} {Q : Except Failure α → World → Prop}
    (hp : Prog.Only Op.Plain p) (h : Done t ws ps w) (hQ : ∀ out w', Done t ws ps w' → Q out w') :
    (discipline cfg pg ok extra).Safe t Q p w := by
  induction p generalizing w with
  | ret a => exact hQ _ _ h
  | raise e => exact hQ _ _ h
  | await o k ih =>
      intro w₁ hi hr ω r w₂ hx
      obtain ⟨hstore, hspawned, hcodes, hlost⟩ := exec_plain hp.1 (System.exec_guarded hx).2
      refine ⟨inv_of_eq hi hstore hspawned hcodes,
        fun t' _ => relies_of_eq hstore hspawned hlost t', ?_⟩
      exact ih r (hp.2 r) (h.rely (hr.trans (relies_of_eq hstore hspawned hlost t)))

theorem plain_defaultExternalId (name : JsString) (externalId : Option JsString) :
    Prog.Only Op.Plain (defaultExternalId name externalId) := by
  unfold defaultExternalId
  split
  · trivial
  · exact Prog.Only.bind (Prog.only_perform trivial) fun _ => trivial

theorem plain_generateEnrollmentCode : Prog.Only Op.Plain generateEnrollmentCode :=
  Prog.Only.bind (Prog.only_perform trivial) fun _ => trivial

/-- A transaction that ends in an error is rolled back. -/
theorem safe_withClient {E : α → List Write → List ChainedAuditPayload → Prop}
    {body : Program α} (h : Done t [] [] w)
    (hbody : ∀ w', Done t [] [] w' →
      (discipline cfg pg ok extra).Safe t (TryOutcome E t) body w') :
    (discipline cfg pg ok extra).Safe t (Outcome E t) (withClient body) w := by
  apply Discipline.safe_bind
  apply safe_plain_done (o := .connect) trivial h
  intro r w₁ h₁
  cases r with
  | error e => exact .inl h₁
  | ok u =>
      apply Discipline.safe_tryCatch
      apply (hbody w₁ h₁).mono
      intro out w₂ h₂
      cases out with
      | ok a => exact h₂
      | error e =>
          apply Discipline.safe_bind
          apply Discipline.safe_tryCatch
          rcases h₂ with hundone | ⟨hlost, a, ws, ps, hdone, heffect⟩
          · refine safe_rollback hundone.mine hundone.said fun r w₃ h₃ _ => ?_
            cases r with
            | error e' => exact .inl h₃
            | ok u => exact .inl h₃
          · -- the COMMIT was carried out, and the rollback finds no transaction
            refine safe_rollback hdone.mine hdone.said fun r w₃ h₃ hkeep => ?_
            have hunheard : Unheard E t w₃ := ⟨hkeep hlost, a, ws, ps, h₃, heffect⟩
            cases r with
            | error e' => exact .inr hunheard
            | ok u => exact .inr hunheard

theorem safe_reject {Q : Except Failure α → World → Prop} {err : Failure} (h : Undone t w)
    (hQ : ∀ e w', Undone t w' → Q (.error e) w') :
    (discipline cfg pg ok extra).Safe t Q (reject err) w := by
  apply Discipline.safe_bind
  refine safe_rollback h.mine h.said fun r w' h' _ => ?_
  cases r with
  | error e => exact hQ _ _ h'.undone
  | ok u => exact hQ _ _ h'.undone

/-- The event of a call that has committed. -/
theorem safe_event {β : Type} {payload : ChainedAuditPayload} {p : Program β}
    {Q : Except Failure β → World → Prop} (h : Done t ws [] w)
    (hends : ∀ id state, Reports id state payload → ∃ write ∈ ws, Concludes id state write)
    (hp : ∀ w', Done t ws [payload] w' → (discipline cfg pg ok extra).Safe t Q p w') :
    (discipline cfg pg ok extra).Safe t Q (do
      await (.spawn payload)
      p) w := by
  apply Discipline.safe_bind
  apply safe_spawn h hends
  intro w' h'
  exact hp w' h'

/-- An event that does not report the end of a session. -/
theorem safe_unfinal {β : Type} (action : String) {payload : ChainedAuditPayload} {p : Program β}
    {Q : Except Failure β → World → Prop} (haction : payload.action = js action)
    (hother : js action ≠ js "registration.completed" ∧ js action ≠ js "registration.abandoned")
    (h : Done t ws [] w)
    (hp : ∀ w', Done t ws [payload] w' → Unfinal [payload] →
      (discipline cfg pg ok extra).Safe t Q p w') :
    (discipline cfg pg ok extra).Safe t Q (do
      await (.spawn payload)
      p) w := by
  have hunfinal : Unfinal [payload] := unfinal_of_action action haction hother
  refine safe_event h (fun id state hr => ?_) fun w' h' => hp w' h' hunfinal
  exact absurd hr (hunfinal.not_reports (List.mem_singleton_self _) id state)

/-- The code that the last write of the call has left the session to wait for. -/
theorem safe_cachePendingDemoCode {tenantId : JsString} {id : Uuid} {step : Step}
    {code : JsString} {nonce : Option JsString} {Q : Except Failure Unit → World → Prop}
    {write : Write} (s : RegistrationSession) (h : Done t ws ps w) (hwrite : write ∈ ws)
    (hrow : newRow write = .session s) (hid : s.id = id) (hstate : s.state = step.state)
    (hhash : s.codeHash step = some (sha256Hex code)) (hQ : ∀ w', Done t ws ps w' → Q (.ok ()) w') :
    (discipline cfg pg ok extra).Safe t Q (cachePendingDemoCode cfg tenantId id step code nonce)
      w := by
  subst hid
  by_cases hcache : shouldCacheDemoCode cfg tenantId = true
  · have heq : cachePendingDemoCode cfg tenantId s.id step code nonce = await (.cacheDemoCode
        s.id.text step code (stepDeeplink step s.id code nonce) nonce) := if_pos hcache
    rw [heq]
    refine safe_cache h ⟨write, hwrite, fun expiresAt => ?_⟩ hQ
    exact ⟨s, hrow, rfl, hstate, hhash, rfl⟩
  · have heq : cachePendingDemoCode cfg tenantId s.id step code nonce = pure () := if_neg hcache
    rw [heq]
    exact hQ w h

end Parts

end ZeroAuth.Tenant
