/-
  ZeroAuth.Pairing.Cap

  The cap on open pairing sessions (`MAX_PENDING_SESSIONS_PER_TENANT`,
  src/services/proof-pairing.ts).

  `createSession` counts the open sessions of its tenant and environment and inserts one more
  a few steps later.  Claims, failures, sweeps and the passing of time only close sessions, so
  the cap holds in every run in which no session is inserted once the count of its call,
  with the sessions inserted since, has reached the cap (`open_le_cap`).
-/

import ZeroAuth.Lib.Quota
import ZeroAuth.Pairing.Calls

namespace ZeroAuth.Pairing

open ZeroAuth.Lib ZeroAuth.Lib.Prog ZeroAuth.Js ZeroAuth.Pg ZeroAuth.Audit ZeroAuth.Tenant

/-- What `countOpen` counts at time `now`. -/
def SessionRow.isOpen (k : Uuid × JsString) (now : ℕ) (r : SessionRow) : Bool :=
  r.tenantId = k.1 ∧ r.environment = k.2 ∧ r.state = .issued ∧ r.expiresAt > now

def World.openCount (w : World) (k : Uuid × JsString) : ℕ :=
  w.sessions.countP (SessionRow.isOpen k w.clock)

/-- `countOpen` counts, `insertSession` inserts. -/
def openSessions : Quota sig Failure World (Uuid × JsString) where
  load := World.openCount
  counted
    | ⟨.countOpen tenantId environment, .ok n⟩ =>
        (Uuid.parse tenantId).map fun u => ((u, environment), n)
    | _ => none
  inserts
    | .insertSession v => (Uuid.parse v.tenantId).map fun u => (u, v.environment)
    | _ => none

/-! ## Sessions are only closed -/

section Open

variable {k : Uuid × JsString} {now now' : ℕ} {r r' : SessionRow} {w w' : World}

theorem RowStep.isOpen (h : RowStep now r r') (hnow : now ≤ now')
    (hr : r'.isOpen k now' = true) : r.isOpen k now = true := by
  have hopen : r'.tenantId = k.1 ∧ r'.environment = k.2 ∧ r'.state = .issued ∧
      r'.expiresAt > now' := of_decide_eq_true hr
  obtain ⟨htenant, henvironment, hstate, hexpires⟩ := hopen
  refine decide_eq_true ?_
  cases h with
  | same => exact ⟨htenant, henvironment, hstate, by omega⟩
  | incremented code hfail =>
      have hissued : r.state = .issued := by
        unfold SessionRow.incremented at hstate
        rcases hfail with h | h
        · exact h
        · simp only [h] at hstate
          split at hstate <;> cases hstate
      have hexpires : r.expiresAt > now' := hexpires
      exact ⟨htenant, henvironment, hissued, by omega⟩
  | consumed userId hissued => cases hstate
  | swept hissued hlt => cases hstate
  | proofHash x =>
      have hexpires : r.expiresAt > now' := hexpires
      exact ⟨htenant, henvironment, hstate, by omega⟩

/-- An UPDATE opens no session. -/
theorem openCount_update {p : SessionRow → Bool} {f : SessionRow → SessionRow}
    (hstep : ∀ r, p r = true → RowStep w.clock r (f r)) (hclock : w.clock ≤ now')
    (hs : w'.sessions = (w.update p f).sessions) (hnow : w'.clock = now') :
    w'.openCount k ≤ w.openCount k := by
  unfold World.openCount
  rw [hs, hnow, World.update, List.countP_map]
  apply List.countP_mono_left
  intro r _ hr
  have hr : SessionRow.isOpen k now' (if p r = true then f r else r) = true := hr
  split at hr
  next hp => exact (hstep r hp).isOpen hclock hr
  next => exact RowStep.same.isOpen hclock hr

/-- The passing of time opens no session. -/
theorem openCount_later (hs : w'.sessions = w.sessions) (hclock : w.clock ≤ w'.clock) :
    w'.openCount k ≤ w.openCount k := by
  unfold World.openCount
  rw [hs]
  apply List.countP_mono_left
  intro r _ hr
  exact RowStep.same.isOpen hclock hr

variable {pg : Jsonb} {ω : Oracle}

theorem insertSession_tenant {v : NewSession} {a : Unit} (h : w.insertSession v = (.ok a, w')) :
    ∃ tenantId apiKeyId, Uuid.parse v.tenantId = some tenantId ∧
      w' = { w with sessions := w.sessions ++ [v.row tenantId apiKeyId w.clock] } := by
  unfold World.insertSession at h
  split at h
  · next tenantId apiKeyId htenant _ =>
      split at h
      · cases h
      · cases h
        exact ⟨tenantId, apiKeyId, htenant, rfl⟩
  · cases h

/-- An operation opens one session at most, and only as an INSERT for its tenant. -/
theorem openCount_exec {o : Op} {r : Except Failure o.Resp} (h : exec pg o ω w = some (r, w')) :
    w'.openCount k ≤
      w.openCount k + if openSessions.inserted ⟨o, r⟩ = some k then 1 else 0 := by
  have hclock := (exec_frame h).1
  cases exec_change h with
  | same hs =>
      have := openCount_later (k := k) hs (Nat.le_of_eq hclock.symm)
      omega
  | inserted v tenantId apiKeyId hid hs hw hop =>
      obtain rfl : o = .insertSession v := hop
      cases r with
      | error e =>
          have hw' := (exec_error h).1
          subst hw'
          omega
      | ok a =>
          obtain ⟨u, apiKeyId', hu, rfl⟩ := insertSession_tenant (statement_ok h)
          have hcount : World.openCount
              { w with sessions := w.sessions ++ [v.row u apiKeyId' w.clock] } k =
              w.openCount k + if SessionRow.isOpen k w.clock (v.row u apiKeyId' w.clock) then 1 else 0 := by
            show List.countP _ (w.sessions ++ [_]) = _
            rw [List.countP_append, List.countP_singleton]
            rfl
          have hkey : openSessions.inserted ⟨.insertSession v, .ok a⟩ = some (u, v.environment) := by
            show (Uuid.parse v.tenantId).map _ = _
            rw [hu]
            rfl
          rw [hcount, hkey]
          by_cases hopen : SessionRow.isOpen k w.clock (v.row u apiKeyId' w.clock) = true
          · have hrow : u = k.1 ∧ v.environment = k.2 ∧ _ := of_decide_eq_true hopen
            have hk : (u, v.environment) = k := Prod.ext hrow.1 hrow.2.1
            rw [if_pos hopen, if_pos (by rw [hk])]
          · rw [if_neg hopen]
            omega
  | incremented id code hs =>
      have := openCount_update (k := k) (fun r hr => .incremented code (of_decide_eq_true hr).2)
        (Nat.le_refl _) hs hclock
      omega
  | claimed id userId row hr hc hs =>
      have := openCount_update (k := k) (fun r hr => .consumed userId (of_decide_eq_true hr).2)
        (Nat.le_refl _) hs hclock
      omega
  | swept hs =>
      have := openCount_update (k := k)
        (fun r hr => .swept (of_decide_eq_true hr).1 (of_decide_eq_true hr).2) (Nat.le_refl _) hs hclock
      omega

theorem openCount_env {e : Env} (h : env e w = some w') : w'.openCount k ≤ w.openCount k := by
  cases e with
  | tick ms =>
      cases h
      exact openCount_later rfl (Nat.le_add_right _ _)
  | enrol user =>
      cases h
      exact openCount_later rfl (Nat.le_refl _)
  | setPolicy tenantId policy =>
      cases h
      exact openCount_later rfl (Nat.le_refl _)
  | job i succeeds =>
      obtain ⟨job, -, rfl⟩ := Option.map_eq_some_iff.mp h
      cases succeeds with
      | false => exact openCount_later rfl (Nat.le_refl _)
      | true =>
          cases job with
          | audit payload => exact openCount_later rfl (Nat.le_refl _)
          | setProofHash sessionId x =>
              simp only [World.runJob, if_true]
              split
              · exact openCount_update (fun r _ => .proofHash x) (Nat.le_refl _) rfl rfl
              · exact openCount_later rfl (Nat.le_refl _)

end Open

/-! ## The cap -/

section Cap

variable {cfg : Settings} {pg : Jsonb}

theorem sound_openSessions : openSessions.Sound (system cfg pg) where
  counts := by
    intro t o ω w r w' k n h hcounted
    cases o with
    | countOpen tenantId environment =>
        cases r with
        | error e => cases hcounted
        | ok m =>
            obtain ⟨u, hu, hrun⟩ := withUuid_ok (statement_ok h)
            have hcounted : (Uuid.parse tenantId).map (fun u => ((u, environment), m)) =
                some (k, n) := hcounted
            rw [hu] at hcounted
            cases hcounted
            cases hrun
            exact Nat.le_refl _
    | _ => cases hcounted
  grows := fun h k => openCount_exec h
  separate := by
    intro o r k n hcounted
    cases o with
    | countOpen tenantId environment => rfl
    | _ => cases hcounted
  env := fun h k => openCount_env h

theorem inserts_of_kind {o : Op} (h : o.kind ≠ .insert) : openSessions.inserts o = none := by
  cases o with
  | insertSession v => exact absurd rfl h
  | _ => rfl

theorem before_createSession_counted (input : CreateInput) :
    Before openSessions.CountedFirst (createSession cfg input) := by
  refine before_perform_bind.mpr ⟨Quota.countedFirst_of_none rfl, fun (count : ℕ) => ?_⟩
  show Before _ (if count ≥ maxPendingSessionsPerTenant then _ else _)
  split
  · trivial
  · refine before_perform_bind.mpr ⟨Quota.countedFirst_of_none rfl, fun id => ?_⟩
    refine before_perform_bind.mpr ⟨Quota.countedFirst_of_none rfl, fun nonceBytes => ?_⟩
    refine before_perform_bind.mpr ⟨Quota.countedFirst_of_none rfl, fun bindBytes => ?_⟩
    refine before_perform_bind.mpr ⟨Quota.countedFirst_of_none rfl, fun now => ?_⟩
    refine before_perform_bind.mpr ⟨?_, fun _ => ?_⟩
    · -- the count is the first of the operations awaited
      intro k hk
      have hk : (Uuid.parse input.tenantId).map (fun u => (u, input.environment)) = some k := hk
      obtain ⟨u, hu, rfl⟩ := Option.map_eq_some_iff.mp hk
      refine ⟨⟨.countOpen input.tenantId input.environment, .ok count⟩, by simp, count, ?_⟩
      show (Uuid.parse input.tenantId).map _ = _
      rw [hu]
      rfl
    · exact before_perform_bind.mpr ⟨Quota.countedFirst_of_none rfl, fun _ => trivial⟩

theorem before_code_counted (a : Call) : Before openSessions.CountedFirst (code cfg a) := by
  cases a with
  | create input =>
      exact Before.bind (Φ := fun _ _ => True) (before_createSession_counted input)
        (ends_of_forall fun _ _ => trivial) fun _ _ _ => trivial
  | submit input =>
      apply Quota.before_of_only
      refine Only.bind (only_submitProof.mono fun o ho => inserts_of_kind fun hkind => ?_)
        fun _ => trivial
      rw [Op.Within, hkind] at ho
      exact absurd ho.1 (by decide)
  | increment sessionId errorCode =>
      exact Quota.before_of_only (Only.bind (Only.bind (only_perform rfl) fun _ => trivial)
        fun _ => trivial)
  | expire =>
      apply Quota.before_of_only
      have hspawn (rows : List (Uuid × Uuid × JsString)) :
          Only (fun o : Op => openSessions.inserts o = none) (spawnExpired rows) :=
        (only_spawnExpired rows).mono fun o ho => inserts_of_kind (by rw [ho]; decide)
      exact Only.bind (Only.bind (only_perform rfl) fun rows =>
        Only.bind (hspawn rows) fun _ => trivial) fun _ => trivial

/-- No session is inserted by a call whose count, with the sessions inserted since, has reached
    the cap. -/
def SessionRoom (c : State) (l : Label Call Oracle Env) : Prop :=
  openSessions.room maxPendingSessionsPerTenant c l = true

/-- No tenant and environment has more than the allowed number of open sessions. -/
def WithinCap (w : World) : Prop := ∀ k, w.openCount k ≤ maxPendingSessionsPerTenant

/-- The cap on open sessions. -/
theorem open_le_cap {c : State} (h : (system cfg pg).Reach WithinCap SessionRoom c) :
    WithinCap c.world := by
  intro k
  exact Quota.load_le_cap (Q := openSessions) sound_openSessions before_code_counted
    (fun w hw k => hw k) h k

end Cap

end ZeroAuth.Pairing
