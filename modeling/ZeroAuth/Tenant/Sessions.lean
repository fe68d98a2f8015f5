/-
  ZeroAuth.Tenant.Sessions

  What holds of the rows of `registration_sessions` in every state of every run, and how a
  row moves.

  Three facts about one write carry the module.  A write leaves the columns of the row in the
  shape of its new state, if they were in the shape of the old one (`sessionOk_of_shaped`).  It
  never moves a session back and never changes what an earlier step has recorded
  (`forward_of_shaped`).  And a write that leaves a session waiting for a step, or that takes the
  step, is the only one of its kind in the history of the row, because the rank of the state
  grows (`opening_unique`).
-/

import ZeroAuth.Lib.History
import ZeroAuth.Tenant.Committed
import ZeroAuth.Tenant.Entries
import ZeroAuth.Tenant.Revocation

namespace ZeroAuth.Tenant

open ZeroAuth.Lib ZeroAuth.Js ZeroAuth.Pg

/-! ## One row -/

/-- The columns that a session has in each state. -/
structure RegistrationSession.Ok (s : RegistrationSession) : Prop where
  code : ∀ step : Step, (s.codeHash step).isSome ↔ s.state = step.state
  nonce : s.verifyChallengeNonce.isSome ↔ s.state = .awaitingVerification
  opened : s.state = .awaitingDevice → s.deviceId = none ∧ s.did = none ∧ s.commitment = none
  paired : s.state = .awaitingCommitment →
    s.deviceId.isSome ∧ s.did = none ∧ s.commitment = none
  enrolled : s.state = .awaitingVerification ∨ s.state = .completed → s.deviceId.isSome ∧
    ∃ did commitment, s.did = some did ∧ s.commitment = some commitment ∧
      matchesDid [95, 45] 8 80 did = true ∧ matchesCommitment 32 128 commitment = true
  user : s.tenantUserId.isSome ↔ s.state = .completed

def Row.SessionOk : Row → Prop
  | .session s => s.Ok
  | _ => True

namespace RegistrationSession.Ok

variable {s : RegistrationSession}

theorem code_none (h : s.Ok) (step : Step) (hne : s.state ≠ step.state) :
    s.codeHash step = none := by
  rw [Option.eq_none_iff_forall_ne_some]
  intro codeHash hcode
  exact hne ((h.code step).mp (by rw [hcode]; rfl))

theorem nonce_none (h : s.Ok) (hne : s.state ≠ .awaitingVerification) :
    s.verifyChallengeNonce = none := by
  rw [Option.eq_none_iff_forall_ne_some]
  intro nonce hnonce
  exact hne (h.nonce.mp (by rw [hnonce]; rfl))

theorem user_none (h : s.Ok) (hne : s.state ≠ .completed) : s.tenantUserId = none := by
  rw [Option.eq_none_iff_forall_ne_some]
  intro userId huser
  exact hne (h.user.mp (by rw [huser]; rfl))

/-- The row that `startRegistration` inserts. -/
theorem started (v : NewRegistration) (id u : Uuid) (environment : JsString) (now : ℕ) :
    (v.row id u environment now).Ok where
  code step := by
    cases step with
    | pair => exact iff_of_true rfl rfl
    | enroll =>
        show (none : Option JsString).isSome ↔ RegistrationState.awaitingDevice = .awaitingCommitment
        simp
    | verify =>
        show (none : Option JsString).isSome ↔ RegistrationState.awaitingDevice = .awaitingVerification
        simp
  nonce := by
    show (none : Option JsString).isSome ↔ RegistrationState.awaitingDevice = .awaitingVerification
    simp
  opened _ := ⟨rfl, rfl, rfl⟩
  paired hstate := by cases hstate
  enrolled hstate := by rcases hstate with hstate | hstate <;> cases hstate
  user := by
    show (none : Option Uuid).isSome ↔ RegistrationState.awaitingDevice = .completed
    simp

theorem afterPair (h : s.Ok) (hstate : s.state = .awaitingDevice) (deviceId : Uuid)
    (codeHash : JsString) (expiresAt now : ℕ) : (s.paired deviceId codeHash expiresAt now).Ok := by
  have hverify : s.verifyCodeHash = none := h.code_none .verify (by rw [hstate]; decide)
  have hnonce : s.verifyChallengeNonce = none := h.nonce_none (by rw [hstate]; decide)
  have huser : s.tenantUserId = none := h.user_none (by rw [hstate]; decide)
  obtain ⟨-, hdid, hcommitment⟩ := h.opened hstate
  refine
    { code := fun step => ?_
      nonce := ?_
      opened := fun hstate' => by cases hstate'
      paired := fun _ => ⟨rfl, hdid, hcommitment⟩
      enrolled := fun hstate' => by rcases hstate' with hstate' | hstate' <;> cases hstate'
      user := ?_ }
  · cases step with
    | pair =>
        show (none : Option JsString).isSome ↔ RegistrationState.awaitingCommitment = .awaitingDevice
        simp
    | enroll => exact iff_of_true rfl rfl
    | verify =>
        show s.verifyCodeHash.isSome ↔ RegistrationState.awaitingCommitment = .awaitingVerification
        simp [hverify]
  · show s.verifyChallengeNonce.isSome ↔ RegistrationState.awaitingCommitment = .awaitingVerification
    simp [hnonce]
  · show s.tenantUserId.isSome ↔ RegistrationState.awaitingCommitment = .completed
    simp [huser]

theorem afterEnroll (h : s.Ok) (hstate : s.state = .awaitingCommitment)
    {did commitment : JsString} (hdid : matchesDid [95, 45] 8 80 did = true)
    (hcommitment : matchesCommitment 32 128 commitment = true) (codeHash : JsString)
    (expiresAt : ℕ) (nonce : JsString) (now : ℕ) :
    (s.committed did commitment codeHash expiresAt nonce now).Ok := by
  have hpair : s.pairCodeHash = none := h.code_none .pair (by rw [hstate]; decide)
  have huser : s.tenantUserId = none := h.user_none (by rw [hstate]; decide)
  obtain ⟨hdevice, -, -⟩ := h.paired hstate
  refine
    { code := fun step => ?_
      nonce := iff_of_true rfl rfl
      opened := fun hstate' => by cases hstate'
      paired := fun hstate' => by cases hstate'
      enrolled := fun _ => ⟨hdevice, did, commitment, rfl, rfl, hdid, hcommitment⟩
      user := ?_ }
  · cases step with
    | pair =>
        show s.pairCodeHash.isSome ↔ RegistrationState.awaitingVerification = .awaitingDevice
        simp [hpair]
    | enroll =>
        show (none : Option JsString).isSome ↔
          RegistrationState.awaitingVerification = .awaitingCommitment
        simp
    | verify => exact iff_of_true rfl rfl
  · show s.tenantUserId.isSome ↔ RegistrationState.awaitingVerification = .completed
    simp [huser]

theorem afterVerify (h : s.Ok) (hstate : s.state = .awaitingVerification) (userId : Uuid)
    (now : ℕ) : (s.completed userId now).Ok := by
  have hpair : s.pairCodeHash = none := h.code_none .pair (by rw [hstate]; decide)
  have henroll : s.enrollCodeHash = none := h.code_none .enroll (by rw [hstate]; decide)
  refine
    { code := fun step => ?_
      nonce := ?_
      opened := fun hstate' => by cases hstate'
      paired := fun hstate' => by cases hstate'
      enrolled := fun _ => h.enrolled (.inl hstate)
      user := iff_of_true rfl rfl }
  · cases step with
    | pair =>
        show s.pairCodeHash.isSome ↔ RegistrationState.completed = .awaitingDevice
        simp [hpair]
    | enroll =>
        show s.enrollCodeHash.isSome ↔ RegistrationState.completed = .awaitingCommitment
        simp [henroll]
    | verify =>
        show (none : Option JsString).isSome ↔ RegistrationState.completed = .awaitingVerification
        simp
  · show (none : Option JsString).isSome ↔ RegistrationState.completed = .awaitingVerification
    simp

/-- The state that `abandonRegistration` leaves: a session that is over stays as it was. -/
theorem state_abandoned (s : RegistrationSession) (now : ℕ) :
    ((s.abandoned now).state = s.state ∧ s.Over) ∨
      ((s.abandoned now).state = .abandoned ∧ ¬ s.Over) := by
  by_cases hover : s.Over
  · exact .inl ⟨if_pos hover, hover⟩
  · exact .inr ⟨if_neg hover, hover⟩

theorem over_abandoned (s : RegistrationSession) (now : ℕ) : (s.abandoned now).Over := by
  rcases state_abandoned s now with ⟨hstate, hover⟩ | ⟨hstate, -⟩
  · rw [RegistrationSession.Over, hstate]
    exact hover
  · exact .inr hstate

theorem afterAbandon (h : s.Ok) (now : ℕ) : (s.abandoned now).Ok := by
  have hover := over_abandoned s now
  have hcompleted : (s.abandoned now).state = .completed ↔ s.state = .completed := by
    rcases state_abandoned s now with ⟨hstate, -⟩ | ⟨hstate, hopen⟩
    · rw [hstate]
    · rw [hstate]
      exact iff_of_false (by decide) fun hcompleted => hopen (.inl hcompleted)
  have hnot : ∀ step : Step, (s.abandoned now).state ≠ step.state := fun step hstate =>
    RegistrationSession.not_over_of_step step hstate hover
  refine
    { code := fun step => ?_
      nonce := iff_of_false (by simp [RegistrationSession.abandoned]) (hnot .verify)
      opened := fun hstate => absurd hstate (hnot .pair)
      paired := fun hstate => absurd hstate (hnot .enroll)
      enrolled := fun hstate => ?_
      user := ?_ }
  · refine iff_of_false ?_ (hnot step)
    cases step with
    | pair => simp [RegistrationSession.abandoned, RegistrationSession.codeHash]
    | enroll => simp [RegistrationSession.abandoned, RegistrationSession.codeHash]
    | verify => simp [RegistrationSession.abandoned, RegistrationSession.codeHash]
  · rcases hstate with hstate | hstate
    · exact absurd hstate (hnot .verify)
    · exact h.enrolled (.inr (hcompleted.mp hstate))
  · rw [hcompleted]
    exact h.user

end RegistrationSession.Ok

theorem sessionOk_of_shaped {cfg : Settings} {pg : Jsonb} {write : Write}
    (h : ShapedWrite cfg pg write)
    (hold : ∀ old new, write = .update old new → old.SessionOk) : (newRow write).SessionOk := by
  obtain ⟨q, hq, hchange⟩ := h
  cases hchange with
  | sessionStarted id u now => exact .started _ id u _ now
  | sessionPaired now haccepts =>
      obtain ⟨codeHash, n, haccepts⟩ := haccepts
      have hok : RegistrationSession.Ok _ := hold _ _ rfl
      exact hok.afterPair (RegistrationSession.state_of_accepts haccepts) _ _ _ now
  | sessionCommitted now haccepts =>
      obtain ⟨codeHash, n, haccepts⟩ := haccepts
      obtain ⟨hdid, hcommitment⟩ := hq
      have hok : RegistrationSession.Ok _ := hold _ _ rfl
      exact hok.afterEnroll (RegistrationSession.state_of_accepts haccepts) hdid hcommitment _ _ _ now
  | sessionCompleted now haccepts =>
      obtain ⟨codeHash, n, haccepts⟩ := haccepts
      have hok : RegistrationSession.Ok _ := hold _ _ rfl
      exact hok.afterVerify (RegistrationSession.state_of_accepts haccepts) _ now
  | sessionAbandoned u now hown =>
      have hok : RegistrationSession.Ok _ := hold _ _ rfl
      exact hok.afterAbandon now
  | _ => trivial

/-! ## How a row moves -/

/-- How far a session has come; it ends in one of two states. -/
def RegistrationState.rank : RegistrationState → ℕ
  | awaitingDevice => 0
  | awaitingCommitment => 1
  | awaitingVerification => 2
  | completed => 3
  | abandoned => 3

/-- One transition of the ceremony. -/
inductive RegistrationState.Next : RegistrationState → RegistrationState → Prop
  | paired : Next awaitingDevice awaitingCommitment
  | committed : Next awaitingCommitment awaitingVerification
  | completed : Next awaitingVerification completed
  | abandoned {a : RegistrationState} (hopen : ¬ (a = completed ∨ a = abandoned)) : Next a abandoned

/-- The later row is the same session, not further back, with everything that the earlier one
    has recorded; it has skipped no state, and a session that is over keeps its state. -/
structure RegistrationSession.Forward (s s' : RegistrationSession) : Prop where
  tenantId : s'.tenantId = s.tenantId
  environment : s'.environment = s.environment
  profile : s'.profile = s.profile
  createdAt : s'.createdAt = s.createdAt
  rank : s.state.rank ≤ s'.state.rank
  path : Relation.ReflTransGen RegistrationState.Next s.state s'.state
  settled : s.Over → s'.state = s.state
  device : ∀ x, s.deviceId = some x → s'.deviceId = some x
  did : ∀ x, s.did = some x → s'.did = some x
  commitment : ∀ x, s.commitment = some x → s'.commitment = some x
  user : ∀ x, s.tenantUserId = some x → s'.tenantUserId = some x

namespace RegistrationSession.Forward

variable {s s' s'' : RegistrationSession}

theorem refl (s : RegistrationSession) : s.Forward s :=
  ⟨rfl, rfl, rfl, rfl, Nat.le_refl _, .refl, fun _ => rfl, fun _ h => h, fun _ h => h, fun _ h => h,
    fun _ h => h⟩

theorem trans (h : s.Forward s') (h' : s'.Forward s'') : s.Forward s'' where
  tenantId := h'.tenantId.trans h.tenantId
  environment := h'.environment.trans h.environment
  profile := h'.profile.trans h.profile
  createdAt := h'.createdAt.trans h.createdAt
  rank := h.rank.trans h'.rank
  path := h.path.trans h'.path
  settled hover := by
    have hsame := h.settled hover
    have hover' : s'.Over := by
      rw [RegistrationSession.Over, hsame]
      exact hover
    exact (h'.settled hover').trans hsame
  device x hx := h'.device x (h.device x hx)
  did x hx := h'.did x (h.did x hx)
  commitment x hx := h'.commitment x (h.commitment x hx)
  user x hx := h'.user x (h.user x hx)

end RegistrationSession.Forward

/-- One row of a table and a later one. -/
def Row.Forward : Row → Row → Prop
  | .session s, r => ∃ s', r = .session s' ∧ (s.Ok → s'.Ok ∧ s.Forward s')
  | _, _ => True

theorem Row.Forward.refl (r : Row) : r.Forward r := by
  cases r with
  | session s => exact ⟨s, rfl, fun h => ⟨h, .refl s⟩⟩
  | device d => trivial
  | user u => trivial

theorem Row.Forward.trans {a b c : Row} (hab : a.Forward b) (hbc : b.Forward c) : a.Forward c := by
  cases a with
  | session s =>
      obtain ⟨s', rfl, h⟩ := hab
      obtain ⟨s'', rfl, h'⟩ := hbc
      refine ⟨s'', rfl, fun hok => ?_⟩
      obtain ⟨hok', hforward⟩ := h hok
      obtain ⟨hok'', hforward'⟩ := h' hok'
      exact ⟨hok'', hforward.trans hforward'⟩
  | device d => trivial
  | user u => trivial

/-- An update moves a session forward. -/
theorem forward_of_shaped {cfg : Settings} {pg : Jsonb} {old new : Row}
    (h : ShapedWrite cfg pg (.update old new)) : old.Forward new := by
  have hshaped := h
  obtain ⟨q, -, hchange⟩ := h
  -- the columns still fit the state
  have hok : ∀ s s' : RegistrationSession, old = .session s → new = .session s' → s.Ok → s'.Ok := by
    rintro s s' rfl rfl hok
    refine sessionOk_of_shaped hshaped fun old' new' heq => ?_
    cases heq
    exact hok
  cases hchange with
  | @sessionPaired deviceId codeHash expiresAt s now haccepts =>
      obtain ⟨h, n, haccepts⟩ := haccepts
      -- the pairing finds the session before its first step,
      have hstate : s.state = .awaitingDevice := RegistrationSession.state_of_accepts haccepts
      refine ⟨_, rfl, fun hs => ⟨hok _ _ rfl rfl hs, ?_⟩⟩
      refine ⟨rfl, rfl, rfl, rfl, ?_, .single ?_, fun hover => ?_, fun x hx => ?_,
        fun _ hx => hx, fun _ hx => hx, fun _ hx => hx⟩
      · rw [hstate]
        exact Nat.zero_le _
      · rw [hstate]
        exact .paired
      · exact absurd hover (RegistrationSession.not_over_of_step .pair hstate)
      · rw [(hs.opened hstate).1] at hx
        cases hx
  | @sessionCommitted did commitment codeHash nonce expiresAt s now haccepts =>
      obtain ⟨h, n, haccepts⟩ := haccepts
      -- the commitment after it,
      have hstate : s.state = .awaitingCommitment := RegistrationSession.state_of_accepts haccepts
      refine ⟨_, rfl, fun hs => ⟨hok _ _ rfl rfl hs, ?_⟩⟩
      obtain ⟨-, hdid, hcommitment⟩ := hs.paired hstate
      refine ⟨rfl, rfl, rfl, rfl, ?_, .single ?_, fun hover => ?_, fun _ hx => hx,
        fun x hx => ?_, fun x hx => ?_, fun _ hx => hx⟩
      · rw [hstate]
        show 1 ≤ 2
        omega
      · rw [hstate]
        exact .committed
      · exact absurd hover (RegistrationSession.not_over_of_step .enroll hstate)
      · rw [hdid] at hx
        cases hx
      · rw [hcommitment] at hx
        cases hx
  | @sessionCompleted userId s now haccepts =>
      obtain ⟨h, n, haccepts⟩ := haccepts
      -- and the completion after both
      have hstate : s.state = .awaitingVerification := RegistrationSession.state_of_accepts haccepts
      refine ⟨_, rfl, fun hs => ⟨hok _ _ rfl rfl hs, ?_⟩⟩
      refine ⟨rfl, rfl, rfl, rfl, ?_, .single ?_, fun hover => ?_, fun _ hx => hx,
        fun _ hx => hx, fun _ hx => hx, fun x hx => ?_⟩
      · rw [hstate]
        show 2 ≤ 3
        omega
      · rw [hstate]
        exact .completed
      · exact absurd hover (RegistrationSession.not_over_of_step .verify hstate)
      · rw [hs.user_none (by rw [hstate]; decide)] at hx
        cases hx
  | @sessionAbandoned sessionId tenantId environment s u now hown =>
      refine ⟨_, rfl, fun hs => ⟨hok _ _ rfl rfl hs, ?_⟩⟩
      -- abandoning one that is over changes nothing
      rcases RegistrationSession.Ok.state_abandoned s now with ⟨hstate, hover⟩ | ⟨hstate, hopen⟩
      · exact ⟨rfl, rfl, rfl, rfl, by rw [hstate], by rw [hstate], fun _ => hstate,
          fun _ hx => hx, fun _ hx => hx, fun _ hx => hx, fun _ hx => hx⟩
      · refine ⟨rfl, rfl, rfl, rfl, ?_, .single ?_, fun hover => absurd hover hopen,
          fun _ hx => hx, fun _ hx => hx, fun _ hx => hx, fun _ hx => hx⟩
        · rw [hstate]
          cases s.state <;> decide
        · rw [hstate]
          exact .abandoned hopen
  | _ => trivial

/-! ## Codes -/

/-- The write leaves the session waiting for the step, with the code of this hash. -/
def Opens (step : Step) (id : Uuid) (codeHash : JsString) (write : Write) : Prop :=
  ∃ s, newRow write = .session s ∧ s.id = id ∧ s.state = step.state ∧
    s.codeHash step = some codeHash

/-- The write moves the session on from the step at which the code of this hash opens it. -/
def Takes (step : Step) (id : Uuid) (codeHash : JsString) (write : Write) : Prop :=
  ∃ s s' now, write = .update (.session s) (.session s') ∧ s.id = id ∧
    s.accepts step codeHash now = true ∧ s'.id = id ∧ s'.state.rank = step.state.rank + 1

/-- The row is a session that has come so far. -/
def Row.Reached (n : ℕ) : Row → Prop
  | .session s => n ≤ s.state.rank
  | _ => False

instance (n : ℕ) : DecidablePred (Row.Reached n)
  | .session s => inferInstanceAs (Decidable (n ≤ s.state.rank))
  | .device _ => .isFalse id
  | .user _ => .isFalse id

section Codes

variable {cfg : Settings} {pg : Jsonb} {step : Step} {id : Uuid} {codeHash : JsString}
  {write : Write}

theorem rank_of_accepts {s : RegistrationSession} {now : ℕ}
    (h : s.accepts step codeHash now = true) : s.state.rank = step.state.rank := by
  rw [RegistrationSession.state_of_accepts h]

theorem rank_abandoned (s : RegistrationSession) (now : ℕ) :
    s.state.rank ≤ (s.abandoned now).state.rank := by
  rcases RegistrationSession.Ok.state_abandoned s now with ⟨hstate, -⟩ | ⟨hstate, -⟩
  · rw [hstate]
  · rw [hstate]
    cases s.state <;> decide

theorem reached_kept {q : Sql} {old new : Row} {n : ℕ} (h : Change pg q (.update old new))
    (hold : old.Reached n) : new.Reached n := by
  cases h with
  | sessionPaired now haccepts =>
      obtain ⟨codeHash, n', haccepts⟩ := haccepts
      have hrank := rank_of_accepts haccepts
      have hle : n ≤ _ := hold
      show n ≤ 1
      rw [hrank] at hle
      exact hle.trans (Nat.zero_le 1)
  | sessionCommitted now haccepts =>
      obtain ⟨codeHash, n', haccepts⟩ := haccepts
      have hrank := rank_of_accepts haccepts
      have hle : n ≤ _ := hold
      show n ≤ 2
      rw [hrank] at hle
      exact hle.trans (by decide)
  | sessionCompleted now haccepts =>
      obtain ⟨codeHash, n', haccepts⟩ := haccepts
      have hrank := rank_of_accepts haccepts
      have hle : n ≤ _ := hold
      show n ≤ 3
      rw [hrank] at hle
      exact hle.trans (by decide)
  | sessionAbandoned u now hown =>
      have hle : n ≤ _ := hold
      exact hle.trans (rank_abandoned _ now)
  | _ => exact hold.elim

/-- What leaves a session waiting for a step has moved it there. -/
theorem gains_of_opens {q : Sql} (h : Change pg q write) (ho : Opens step id codeHash write) :
    write.Gains (Row.Reached step.state.rank) := by
  obtain ⟨s', hnew, -, hstate, -⟩ := ho
  cases h with
  -- a new session waits for its first step
  | sessionStarted id u now =>
      obtain rfl := Row.session.inj hnew
      show step.state.rank ≤ _
      rw [hstate]
  | sessionPaired now haccepts =>
      obtain ⟨codeHash, n', haccepts⟩ := haccepts
      obtain rfl := Row.session.inj hnew
      have hrank := rank_of_accepts haccepts
      rw [← hstate]
      refine ⟨fun hold => ?_, Nat.le_refl _⟩
      have hle : 1 ≤ _ := hold
      rw [hrank] at hle
      exact absurd hle (by decide)
  | sessionCommitted now haccepts =>
      obtain ⟨codeHash, n', haccepts⟩ := haccepts
      obtain rfl := Row.session.inj hnew
      have hrank := rank_of_accepts haccepts
      rw [← hstate]
      refine ⟨fun hold => ?_, Nat.le_refl _⟩
      have hle : 2 ≤ _ := hold
      rw [hrank] at hle
      exact absurd hle (by decide)
  -- a session that is over waits for no step
  | @sessionCompleted userId s now haccepts =>
      obtain rfl := Row.session.inj hnew
      have hover : (s.completed userId now).Over := .inl rfl
      exact absurd hover (RegistrationSession.not_over_of_step step hstate)
  | sessionAbandoned u now hown =>
      obtain rfl := Row.session.inj hnew
      exact absurd (RegistrationSession.Ok.over_abandoned _ now)
        (RegistrationSession.not_over_of_step step hstate)
  | _ => cases hnew

theorem gains_of_takes (h : Takes step id codeHash write) :
    write.Gains (Row.Reached (step.state.rank + 1)) := by
  obtain ⟨s, s', now, rfl, -, haccepts, -, hrank'⟩ := h
  have hrank := rank_of_accepts haccepts
  refine ⟨fun hold => ?_, ?_⟩
  · have hle : step.state.rank + 1 ≤ s.state.rank := hold
    omega
  · show _ ≤ s'.state.rank
    omega

end Codes

/-! ## Calls -/

/-- Call `t` has taken a step of a session with the code of this hash, and has returned. -/
def Took (cfg : Settings) (c : State) (t : ℕ) (step : Step) (id : Uuid) (codeHash : JsString) :
    Prop :=
  ∃ th, c.threads[t]? = some th ∧
    match step with
    | .pair => ∃ input res s, th.call = .pairDevice input ∧
        th.rest.outcome? = some (.ok (.stepped res)) ∧ res.session = some s ∧ s.id = id ∧
        codeHash = lookupHash cfg input.pairCode
    | .enroll => ∃ input res s, th.call = .submitCommitment input ∧
        th.rest.outcome? = some (.ok (.stepped res)) ∧ res.session = some s ∧ s.id = id ∧
        codeHash = lookupHash cfg input.enrollCode
    | .verify => ∃ input res s code, th.call = .completeRegistration input ∧
        th.rest.outcome? = some (.ok (.completed res)) ∧ res.session = some s ∧ s.id = id ∧
        input.verifyCode = .str code ∧ codeHash = lookupHash cfg code

section Reach

variable {cfg : Settings} {pg : Jsonb} {c c' : State} {t : ℕ} {step : Step} {id : Uuid}
  {codeHash : JsString}

/-- A call that has taken a step has committed the write that takes it. -/
theorem takes_of_took (h : (system cfg pg).Reach Empty (fun _ _ => True) c)
    (ht : Took cfg c t step id codeHash) :
    ∃ write, (t, write) ∈ c.world.store.journal ∧ Takes step id codeHash write := by
  obtain ⟨th, hth, hstep⟩ := ht
  cases step with
  | pair =>
      obtain ⟨input, res, s, hcall, hout, hsession, rfl, rfl⟩ := hstep
      obtain ⟨ws, ps, hdone, heffect⟩ := post_of_ended (guards_true pg) (allows_true _) h hth hout
      rw [hcall] at heffect
      obtain ⟨⟨s₀, write, device, now, haccepts, -, -, hres, rfl⟩, -⟩ := heffect
      obtain rfl := Option.some.inj (hsession.symm.trans hres)
      refine ⟨_, Store.mem_committedBy.mp (hdone.mine ▸ List.mem_cons_of_mem _
        (List.mem_singleton_self _)), s₀, _, now, rfl, rfl, haccepts, rfl, rfl⟩
  | enroll =>
      obtain ⟨input, res, s, hcall, hout, hsession, rfl, rfl⟩ := hstep
      obtain ⟨ws, ps, hdone, heffect⟩ := post_of_ended (guards_true pg) (allows_true _) h hth hout
      rw [hcall] at heffect
      obtain ⟨⟨s₀, nonce, now, haccepts, -, hres, rfl⟩, -⟩ := heffect
      obtain rfl := Option.some.inj (hsession.symm.trans hres)
      exact ⟨_, Store.mem_committedBy.mp (hdone.mine ▸ List.mem_singleton_self _), s₀, _, now, rfl,
        rfl, haccepts, rfl, rfl⟩
  | verify =>
      obtain ⟨input, res, s, code, hcall, hout, hsession, rfl, hcode, rfl⟩ := hstep
      obtain ⟨ws, ps, hdone, heffect⟩ := post_of_ended (guards_true pg) (allows_true _) h hth hout
      rw [hcall] at heffect
      obtain ⟨s₀, text, commitment, userId, now, hverified, -, hres, rfl, -⟩ := heffect
      obtain rfl := Option.some.inj (hsession.symm.trans hres)
      obtain ⟨code', hcode', haccepts⟩ := hverified.code
      obtain rfl := Json.str.inj (hcode.symm.trans hcode')
      refine ⟨_, Store.mem_committedBy.mp (hdone.mine ▸ List.mem_cons_of_mem _
        (List.mem_singleton_self _)), s₀, _, now, rfl, rfl, haccepts, rfl, rfl⟩

theorem Inv.sessionOk {w : World} (h : Inv pg (ShapedWrite cfg pg) w) {s : RegistrationSession}
    (hs : s ∈ Db.sessions w.store.db) : s.Ok := by
  have hrows : ∀ r ∈ w.store.db, r.SessionOk := by
    rw [h.serial.db_eq]
    exact Keyed.forall_of_runs (fun write hallowed => sessionOk_of_shaped hallowed.2) h.serial.history
  exact hrows _ (mem_sessions.mp hs)

theorem session_ok (h : (system cfg pg).Reach Empty (fun _ _ => True) c) {s : RegistrationSession}
    (hs : s ∈ Db.sessions c.world.store.db) : s.Ok :=
  (inv_shaped h).sessionOk hs

/-- In every state of every run the columns of a session are those of its state. -/
theorem sessionsOk (h : (system cfg pg).Reach Empty (fun _ _ => True) c) :
    ∀ s ∈ Db.sessions c.world.store.db, s.Ok :=
  fun _ hs => session_ok h hs

/-- Two committed writes that gain what no update takes away, for one row, are one. -/
theorem unique_of_gains {P : Row → Prop} [DecidablePred P]
    (h : (system cfg pg).Reach Empty (fun _ _ => True) c)
    (hP : ∀ q old new, Change pg q (.update old new) → P old → P new) {e e' : ℕ × Write}
    (he : e ∈ c.world.store.journal) (he' : e' ∈ c.world.store.journal) (hgain : e.2.Gains P)
    (hgain' : e'.2.Gains P) (hid : (newRow e.2).id = (newRow e'.2).id) : e = e' := by
  refine Keyed.gain_unique (fun old new hallowed hold => ?_) (inv_shaped h).serial.history he he'
    hgain hgain' hid
  obtain ⟨⟨q, hchange⟩, -⟩ := hallowed
  exact hP q old new hchange hold

theorem opening_unique (h : (system cfg pg).Reach Empty (fun _ _ => True) c) {e e' : ℕ × Write}
    {hash hash' : JsString} (he : e ∈ c.world.store.journal) (he' : e' ∈ c.world.store.journal)
    (ho : Opens step id hash e.2) (ho' : Opens step id hash' e'.2) : e = e' := by
  obtain ⟨⟨q, hchange⟩, -⟩ := (inv_shaped h).extra_of_mem he
  obtain ⟨⟨q', hchange'⟩, -⟩ := (inv_shaped h).extra_of_mem he'
  refine unique_of_gains h (fun q old new => reached_kept) he he' (gains_of_opens hchange ho)
    (gains_of_opens hchange' ho') ?_
  obtain ⟨s, hs, hid, -⟩ := ho
  obtain ⟨s', hs', hid', -⟩ := ho'
  rw [hs, hs']
  exact congrArg RowId.session (hid.trans hid'.symm)

/-- The codes of one step of one session: one is minted, one call takes the step, and with that
    code. -/
structure CodesOnce (cfg : Settings) (c : State) (step : Step) (id : Uuid) : Prop where
  minted : ∀ e ∈ c.world.store.journal, ∀ e' ∈ c.world.store.journal, ∀ hash hash',
    Opens step id hash e.2 → Opens step id hash' e'.2 → e = e' ∧ hash = hash'
  taken : ∀ t t' hash hash', Took cfg c t step id hash → Took cfg c t' step id hash' → t = t'
  current : ∀ t hash, Took cfg c t step id hash →
    ∃ e ∈ c.world.store.journal, Opens step id hash e.2

/-- In every state of every run: a step of a session is taken once, with the one code that was
    minted for it. -/
theorem codesOnce (h : (system cfg pg).Reach Empty (fun _ _ => True) c) (step : Step) (id : Uuid) :
    CodesOnce cfg c step id := by
  refine ⟨fun e he e' he' hash hash' ho ho' => ?_, fun t t' hash hash' ht ht' => ?_,
    fun t hash ht => ?_⟩
  · obtain rfl := opening_unique h he he' ho ho'
    obtain ⟨s, hs, -, -, hcode⟩ := ho
    obtain ⟨s', hs', -, -, hcode'⟩ := ho'
    obtain rfl := Row.session.inj (hs.symm.trans hs')
    exact ⟨rfl, Option.some.inj (hcode.symm.trans hcode')⟩
  · obtain ⟨write, hw, htakes⟩ := takes_of_took h ht
    obtain ⟨write', hw', htakes'⟩ := takes_of_took h ht'
    have hgain := gains_of_takes htakes
    have hgain' := gains_of_takes htakes'
    obtain ⟨s₁, s₂, -, rfl, -, -, hid, -⟩ := htakes
    obtain ⟨s₁', s₂', -, rfl, -, -, hid', -⟩ := htakes'
    have heq := unique_of_gains h (fun q old new => reached_kept) hw hw' hgain hgain'
      (congrArg RowId.session (hid.trans hid'.symm))
    exact congrArg Prod.fst heq
  · obtain ⟨write, hw, s, s', now, rfl, hid, haccepts, -⟩ := takes_of_took h ht
    -- the row that the step has found was left by an earlier write
    obtain ⟨write₀, hw₀, hfound⟩ := Keyed.found_of_runs (inv_shaped h).serial.history
      (List.mem_map_of_mem hw)
    obtain ⟨e, he, rfl⟩ := List.mem_map.mp hw₀
    refine ⟨e, he, s, hfound, hid, RegistrationSession.state_of_accepts haccepts, ?_⟩
    cases step with
    | pair => exact (of_decide_eq_true haccepts).1
    | enroll => exact (of_decide_eq_true haccepts).1
    | verify => exact (of_decide_eq_true haccepts).1

end Reach

/-! ## A phone that is paired -/

/-- A session that is opened and paired: it waits for a commitment, with the columns of that
    state. -/
theorem sessionsOk_of_pairing : ∃ c : State,
    (∃ s ∈ Db.sessions c.world.store.db, s.state = .awaitingCommitment) ∧
      ∀ s ∈ Db.sessions c.world.store.db, s.Ok := by
  have hrun : (((system settings jsonb).run (.init initial)
      (starting 0 tenantText sessionUuid ++ pairing 1)).map fun c =>
      (Db.sessions c.world.store.db).any fun s => s.state = .awaitingCommitment) = some true := by
    decide +kernel
  obtain ⟨c, hc, hpaired⟩ := Option.map_eq_some_iff.mp hrun
  obtain ⟨s, hs, hstate⟩ := List.any_eq_true.mp hpaired
  have hreach : (system settings jsonb).Reach Empty (fun _ _ => True) c :=
    System.Reach.run (.init empty_initial) (System.keeps_of_forall fun _ _ _ => trivial) hc
  exact ⟨c, ⟨s, hs, of_decide_eq_true hstate⟩, sessionsOk hreach⟩

/-- Call `t` has paired a phone with the session. -/
def pairedBy (c : State) (t : ℕ) (id : Uuid) : Bool :=
  match c.threads[t]? with
  | some ⟨.pairDevice _, _, .ret (.stepped res)⟩ => res.session.any (·.id = id)
  | _ => false

theorem took_of_pairedBy {cfg : Settings} {c : State} {t : ℕ} {id : Uuid}
    (h : pairedBy c t id = true) : ∃ codeHash, Took cfg c t .pair id codeHash := by
  unfold pairedBy at h
  split at h
  · next input past res hth =>
      obtain ⟨s, hs, hid⟩ := Option.any_eq_true _ _ |>.mp h
      exact ⟨_, _, hth, input, res, s, rfl, rfl, hs, of_decide_eq_true hid, rfl⟩
  · cases h

theorem codesOnce_of_pairing : ∃ (c : State) (codeHash : JsString),
    Took settings c 1 .pair sessionUuid codeHash ∧ CodesOnce settings c .pair sessionUuid := by
  have hrun : (((system settings jsonb).run (.init initial)
      (starting 0 tenantText sessionUuid ++ pairing 1)).map fun c => pairedBy c 1 sessionUuid) =
      some true := by
    decide +kernel
  obtain ⟨c, hc, hpaired⟩ := Option.map_eq_some_iff.mp hrun
  obtain ⟨codeHash, htook⟩ := @took_of_pairedBy settings _ _ _ hpaired
  have hreach : (system settings jsonb).Reach Empty (fun _ _ => True) c :=
    System.Reach.run (.init empty_initial) (System.keeps_of_forall fun _ _ _ => trivial) hc
  exact ⟨c, codeHash, htook, codesOnce hreach .pair sessionUuid⟩

end ZeroAuth.Tenant
