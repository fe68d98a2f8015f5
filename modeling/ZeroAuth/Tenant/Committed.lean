/-
  ZeroAuth.Tenant.Committed

  What a call has committed, whether or not it has ended.

  `Effect` is about calls that have returned.  A call that is still running can be run to its
  end, because every operation can be answered somehow (`exec_of_in`): a statement by a
  failure, a draw by any value.  Nobody commits twice, so what the call has committed by now is
  all that it will ever have committed, and `Effect` says what that is.

  `Issued` leads from a committed write to the statement that has made it, and `in_code` from
  there to the tenant in whose name the call was made.
-/

import ZeroAuth.Tenant.Runs

namespace ZeroAuth.Tenant

open ZeroAuth.Lib ZeroAuth.Lib.Prog ZeroAuth.Js ZeroAuth.Pg
open ZeroAuth.Audit (ChainedAuditPayload)

/-! ## The operations of a call -/

/-- The tenant and the environment in whose name a statement names its row. -/
def Sql.scope : Sql → Option (JsString × JsString)
  | insertDevice tenantId environment _ | insertSlot tenantId environment _
  | reissueCode _ tenantId environment _ _ | revoke _ tenantId environment
  | updateDevice _ tenantId environment _ | selectDevice _ tenantId environment
  | insertSession tenantId environment _ | selectSession _ tenantId environment
  | abandonSession _ tenantId environment | insertUser tenantId environment _
  | insertFaceFirst tenantId environment _ | findDid tenantId environment _
  | updateUser _ tenantId environment _ => some (tenantId, environment)
  | _ => none

/-- The tenant and the environment in whose name a call is made; the phone makes its calls in
    the name of a code. -/
def Call.scope : Call → Option (JsString × JsString)
  | createDevice tenantId environment _ _ | issueEnrollmentCode tenantId environment _ _
  | regenerateEnrollmentCode tenantId environment _ _ | revokeDevice tenantId environment _ _
  | updateDevice tenantId environment _ _ _ | startRegistration tenantId environment _ _
  | abandonRegistration tenantId environment _ _ | createTenantUser tenantId environment _ _
  | updateTenantUser tenantId environment _ _ _
  | registerFaceFirst tenantId environment _ => some (tenantId, environment)
  | getSignup _ => some (demoPortalTenantId, js "live")
  | _ => none

/-- The primary device that a statement about a user names. -/
def Sql.primaryDevice : Sql → Option Uuid
  | insertUser _ _ v => v.primaryDeviceId
  | updateUser _ _ _ v => v.primaryDeviceId
  | _ => none

/-- The call takes a primary device from its caller. -/
def Call.takesDevice : Call → Bool
  | createTenantUser _ _ _ _ | updateTenantUser _ _ _ _ _ => true
  | _ => false

/-- A statement in this scope that names a primary device only if `device` is true, or a draw
    that has an answer. -/
def Op.In (scope : Option (JsString × JsString)) (device : Bool) : Op → Prop
  | .pool q | .query q => q.scope = scope ∧ (q.primaryDevice = none ∨ device = true)
  | .randomInts _ bound => 0 < bound
  | _ => True

/-- Every operation of a call can be answered. -/
theorem exec_of_in {pg : Jsonb} {scope : Option (JsString × JsString)} {device : Bool} (t : ℕ)
    (o : Op) (w : World) (h : o.In scope device) : ∃ ω r w', exec pg t o ω w = some (r, w') := by
  cases o with
  | randomInts count bound =>
      refine ⟨{ ints := List.replicate count 0 }, .ok (List.replicate count 0), w,
        if_pos ⟨List.length_replicate, ?_⟩⟩
      rw [List.all_eq_true]
      intro x hx
      rw [List.eq_of_mem_replicate hx]
      exact decide_eq_true h
  | randomBytes n =>
      exact ⟨{ bytes := List.replicate n 0 }, .ok (List.replicate n 0), w,
        if_pos List.length_replicate⟩
  | query q =>
      show ∃ ω r w', inTransaction t ω w _ = some (r, w')
      -- in a transaction the statement may fail, without one it is refused
      unfold inTransaction
      split
      · exact ⟨{ failure := some [] }, _, _, rfl⟩
      · exact ⟨{}, _, _, rfl⟩
      · exact ⟨{}, _, _, rfl⟩
  | commit =>
      show ∃ ω r w', inTransaction t ω w _ = some (r, w')
      unfold inTransaction
      split
      · exact ⟨{ failure := some [] }, _, _, rfl⟩
      · exact ⟨{}, _, _, rfl⟩
      · exact ⟨{}, _, _, rfl⟩
  | peekDemoCode sessionId =>
      dsimp only [exec]
      split
      · exact ⟨{}, _, _, rfl⟩
      · split
        · exact ⟨{}, _, _, rfl⟩
        · exact ⟨{}, _, _, rfl⟩
  | _ => exact ⟨{ failure := some [] }, _, _, rfl⟩

section Programs

variable {cfg : Settings} {scope : Option (JsString × JsString)} {device : Bool} {α : Type}

theorem in_reject {err : Failure} : Only (Op.In scope device) (reject err : Program α) :=
  Only.bind (only_perform trivial) fun _ => trivial

theorem in_withClient {body : Program α} (h : Only (Op.In scope device) body) :
    Only (Op.In scope device) (withClient body) := by
  refine Only.bind (only_perform trivial) fun _ => Only.tryCatch h fun err => ?_
  refine Only.bind (Only.tryCatch (only_perform trivial) fun _ => ?_) fun _ => ?_
  · trivial
  · trivial

theorem in_defaultExternalId (name : JsString) (externalId : Option JsString) :
    Only (Op.In scope device) (defaultExternalId name externalId) := by
  unfold defaultExternalId
  split
  · trivial
  · exact Only.bind (only_perform trivial) fun _ => trivial

theorem in_generateEnrollmentCode : Only (Op.In scope device) generateEnrollmentCode :=
  Only.bind (only_perform (by show 0 < codeAlphabet.length; decide)) fun _ => trivial

theorem in_cachePendingDemoCode {tenantId : JsString} {id : Uuid} {step : Step}
    {code : JsString} {nonce : Option JsString} :
    Only (Op.In scope device) (cachePendingDemoCode cfg tenantId id step code nonce) := by
  by_cases hcache : shouldCacheDemoCode cfg tenantId = true
  · have heq : cachePendingDemoCode cfg tenantId id step code nonce = await (.cacheDemoCode
        id.text step code (stepDeeplink step id code nonce) nonce) := if_pos hcache
    rw [heq]
    exact only_perform trivial
  · have heq : cachePendingDemoCode cfg tenantId id step code nonce = pure () := if_neg hcache
    rw [heq]
    trivial

theorem in_findPrimaryDevice {tenantId environment : JsString} {deviceId : Option JsString} :
    Only (Op.In (some (tenantId, environment)) device)
      (findPrimaryDevice tenantId environment deviceId) := by
  unfold findPrimaryDevice
  split
  · trivial
  · refine Only.bind (only_perform ⟨rfl, .inl rfl⟩) fun device => ?_
    cases device <;> trivial

theorem in_claimBody {codeHash fpHash : JsString} {input : ClaimInput} :
    Only (Op.In none false) (claimBody codeHash fpHash input) := by
  refine Only.bind (only_perform trivial) fun _ => Only.bind (only_perform ⟨rfl, .inl rfl⟩) fun found => ?_
  cases found with
  | none => exact in_reject
  | some pending =>
      refine Only.bind (only_perform ⟨rfl, .inl rfl⟩) fun (collisions : ℕ) => ?_
      show Only _ (if collisions > 0 then _ else _)
      split
      · exact in_reject
      · refine Only.bind (only_perform ⟨rfl, .inl rfl⟩) fun updated => Only.bind (only_perform trivial) fun _ => ?_
        cases updated with
        | none => trivial
        | some device => exact Only.bind (only_perform trivial) fun _ => trivial

theorem in_pairBody {pairCodeHash fpHash nextCode : JsString} {expiresAt : ℕ} {input : PairInput} :
    Only (Op.In none false) (pairBody cfg pairCodeHash fpHash nextCode expiresAt input) := by
  refine Only.bind (only_perform trivial) fun _ => Only.bind (only_perform ⟨rfl, .inl rfl⟩) fun found => ?_
  cases found with
  | none => exact in_reject
  | some session =>
      refine Only.bind (only_perform ⟨rfl, .inl rfl⟩) fun device => Only.bind (only_perform ⟨rfl, .inl rfl⟩) fun updated => ?_
      refine Only.bind (only_perform trivial) fun _ => Only.bind (only_perform trivial) fun _ => ?_
      exact Only.bind in_cachePendingDemoCode fun _ => trivial

theorem in_commitmentBody {codeHash did commitment nextCode nonce : JsString} {expiresAt : ℕ}
    {input : CommitmentInput} :
    Only (Op.In none false)
      (commitmentBody cfg codeHash did commitment nextCode expiresAt nonce input) := by
  refine Only.bind (only_perform trivial) fun _ => Only.bind (only_perform ⟨rfl, .inl rfl⟩) fun found => ?_
  cases found with
  | none => exact in_reject
  | some session =>
      refine Only.bind (only_perform ⟨rfl, .inl rfl⟩) fun updated => Only.bind (only_perform trivial) fun _ => ?_
      refine Only.bind (only_perform trivial) fun _ => ?_
      exact Only.bind in_cachePendingDemoCode fun _ => trivial

theorem in_finishRegistration {session : RegistrationSession} {stored : JsString} :
    Only (Op.In none false) (finishRegistration cfg session stored) := by
  have hend : ∀ {payload : ChainedAuditPayload} {x : RegistrationCompleteResult},
      Only (Op.In none false) (await .commit >>= fun _ => await (.spawn payload) >>= fun _ => pure x) :=
    Only.bind (only_perform trivial) fun _ => Only.bind (only_perform trivial) fun _ => trivial
  unfold finishRegistration
  split
  · trivial
  · refine Only.bind (only_perform ⟨rfl, .inl rfl⟩) fun user => Only.bind (only_perform ⟨rfl, .inl rfl⟩) fun updated => ?_
    cases session.deviceId with
    | none => exact hend
    | some id => exact Only.bind (only_perform ⟨rfl, .inl rfl⟩) fun device => hend

theorem in_completeBody {codeHash nonce : JsString} {proof : Json} {signals : List Json} :
    Only (Op.In none false) (completeBody cfg codeHash nonce proof signals) := by
  refine Only.bind (only_perform trivial) fun _ => Only.bind (only_perform ⟨rfl, .inl rfl⟩) fun found => ?_
  cases found with
  | none => exact in_reject
  | some session =>
      dsimp only
      split
      · exact in_reject
      · split
        · exact in_reject
        · split
          · exact in_reject
          · refine Only.bind (only_perform trivial) fun ok => ?_
            split
            · exact in_reject
            · exact in_finishRegistration

end Programs

/-- A call makes its statements in its own name. -/
theorem in_code {cfg : Settings} (a : Call) : Only (Op.In a.scope a.takesDevice) (code cfg a) := by
  cases a with
  | createDevice =>
      refine Only.bind ?_ fun _ => trivial
      refine Only.bind (in_defaultExternalId _ _) fun _ => Only.bind (only_perform ⟨rfl, .inl rfl⟩) fun _ => ?_
      exact Only.bind (only_perform trivial) fun _ => trivial
  | issueEnrollmentCode =>
      refine Only.bind ?_ fun _ => trivial
      refine Only.bind in_generateEnrollmentCode fun _ => Only.bind (only_perform trivial) fun _ => ?_
      refine Only.bind (in_defaultExternalId _ _) fun _ => Only.bind (only_perform ⟨rfl, .inl rfl⟩) fun _ => ?_
      exact Only.bind (only_perform trivial) fun _ => trivial
  | regenerateEnrollmentCode =>
      refine Only.bind ?_ fun _ => trivial
      refine Only.bind in_generateEnrollmentCode fun _ => Only.bind (only_perform trivial) fun _ => ?_
      refine Only.bind (only_perform ⟨rfl, .inl rfl⟩) fun device => ?_
      cases device with
      | none => trivial
      | some device => exact Only.bind (only_perform trivial) fun _ => trivial
  | claimDeviceWithCode input =>
      refine Only.bind ?_ fun _ => trivial
      unfold claimDeviceWithCode
      split
      · trivial
      · exact in_withClient in_claimBody
  | revokeDevice =>
      refine Only.bind ?_ fun _ => trivial
      refine Only.bind (only_perform ⟨rfl, .inl rfl⟩) fun device => ?_
      cases device with
      | none => trivial
      | some device => exact Only.bind (only_perform trivial) fun _ => trivial
  | updateDevice =>
      refine Only.bind ?_ fun _ => trivial
      refine Only.bind only_ofExcept fun lastSeenAt => Only.bind (only_perform ⟨rfl, .inl rfl⟩) fun device => ?_
      cases device with
      | none => trivial
      | some device => exact Only.bind (only_perform trivial) fun _ => trivial
  | startRegistration =>
      refine Only.bind ?_ fun _ => trivial
      refine Only.bind in_generateEnrollmentCode fun _ => Only.bind (only_perform trivial) fun _ => ?_
      refine Only.bind (only_perform ⟨rfl, .inl rfl⟩) fun session => Only.bind (only_perform trivial) fun _ => ?_
      exact Only.bind in_cachePendingDemoCode fun _ => trivial
  | pairDevice input =>
      refine Only.bind ?_ fun _ => trivial
      unfold pairDeviceForRegistration
      split
      · trivial
      · refine Only.bind in_generateEnrollmentCode fun _ => ?_
        exact Only.bind (only_perform trivial) fun _ => in_withClient in_pairBody
  | submitCommitment input =>
      refine Only.bind ?_ fun _ => trivial
      unfold submitCommitmentForRegistration
      simp only
      split
      · trivial
      · split
        · trivial
        · refine Only.bind in_generateEnrollmentCode fun _ => Only.bind (only_perform trivial) fun _ => ?_
          exact Only.bind (only_perform trivial) fun _ => in_withClient in_commitmentBody
  | completeRegistration input =>
      refine Only.bind ?_ fun _ => trivial
      unfold completeRegistration
      split
      · split
        · split
          · exact in_withClient in_completeBody
          · trivial
        · trivial
      · trivial
  | abandonRegistration =>
      refine Only.bind ?_ fun _ => trivial
      refine Only.bind (only_perform ⟨rfl, .inl rfl⟩) fun session => ?_
      cases session with
      | none => trivial
      | some session => exact Only.bind (only_perform trivial) fun _ => trivial
  | getSignup =>
      refine Only.bind ?_ fun _ => trivial
      refine Only.bind (only_perform ⟨rfl, .inl rfl⟩) fun session => ?_
      cases session with
      | none => trivial
      | some session => exact Only.bind (only_perform trivial) fun _ => trivial
  | createTenantUser =>
      refine Only.bind ?_ fun _ => trivial
      refine Only.bind in_findPrimaryDevice fun _ => Only.bind (in_defaultExternalId _ _) fun _ => ?_
      exact Only.bind (only_perform ⟨rfl, .inr rfl⟩) fun user =>
        Only.bind (only_perform trivial) fun _ => trivial
  | updateTenantUser =>
      refine Only.bind ?_ fun _ => trivial
      refine Only.bind in_findPrimaryDevice fun _ => Only.bind (only_perform ⟨rfl, .inr rfl⟩) fun user => ?_
      cases user with
      | none => trivial
      | some user => exact Only.bind (only_perform trivial) fun _ => trivial
  | registerFaceFirst =>
      refine Only.bind ?_ fun _ => trivial
      unfold registerFaceFirstIdentity
      split
      · trivial
      split
      · trivial
      split
      · trivial
      split
      · trivial
      · refine Only.bind (only_perform ⟨rfl, .inl rfl⟩) fun taken => ?_
        split
        · trivial
        · exact Only.bind (only_perform ⟨rfl, .inl rfl⟩) fun row => trivial

/-! ## Where the writes come from -/

/-- The call has made a statement that makes this write. -/
def Issued (pg : Jsonb) (log : List Event) (t : ℕ) (write : Write) : Prop :=
  ∃ (q : Sql) (db : Db) (now : ℕ) (ω : Oracle) (a : Answer q.Resp), q.run pg db now ω = .ok a ∧
    a.write = some write ∧ ∃ x : Act sig Failure, (⟨t, x⟩ : Event) ∈ log ∧
      (x.op = .pool q ∨ x.op = .query q)

theorem Issued.mono {pg : Jsonb} {log log' : List Event} {t : ℕ} {write : Write}
    (h : Issued pg log t write) (hlog : log ⊆ log') : Issued pg log' t write := by
  obtain ⟨q, db, now, ω, a, ha, hwrite, x, hx, hq⟩ := h
  exact ⟨q, db, now, ω, a, ha, hwrite, x, hlog hx, hq⟩

/-- Committed or pending, every write was issued by the call it is listed under. -/
structure Sourced (pg : Jsonb) (w : World) (log : List Event) : Prop where
  journal : ∀ e ∈ w.store.journal, Issued pg log e.1 e.2
  pending : ∀ t tx, w.store.conns t = .active tx → ∀ write ∈ tx.writes, Issued pg log t write

namespace Sourced

variable {pg : Jsonb} {w w' : World} {log log' : List Event} {t : ℕ}

theorem of_store (h : Sourced pg w log) (hstore : w'.store = w.store) (hlog : log ⊆ log') :
    Sourced pg w' log' := by
  refine ⟨fun e he => ?_, fun t tx htx write hwrite => ?_⟩
  · rw [hstore] at he
    exact (h.journal e he).mono hlog
  · rw [hstore] at htx
    exact (h.pending t tx htx write hwrite).mono hlog

/-- The connection of one call is left in a state whose writes it has issued. -/
theorem setConn (h : Sourced pg w log) {s : Store Db Key Write}
    (hjournal : ∀ e ∈ s.journal, e ∈ w.store.journal ∨ Issued pg log' e.1 e.2)
    (hother : ∀ t', t' ≠ t → s.conns t' = w.store.conns t') (hlog : log ⊆ log')
    (hmine : ∀ tx, s.conns t = .active tx → ∀ write ∈ tx.writes, Issued pg log' t write) :
    Sourced pg (w.setStore s) log' := by
  refine ⟨fun e he => ?_, fun t' tx htx write hwrite => ?_⟩
  · rcases hjournal e he with hold | hnew
    · exact (h.journal e hold).mono hlog
    · exact hnew
  · by_cases ht : t' = t
    · subst ht
      exact hmine tx htx write hwrite
    · have hold : w.store.conns t' = .active tx := (hother t' ht).symm.trans htx
      exact (h.pending t' tx hold write hwrite).mono hlog

theorem drop (h : Sourced pg w log) (hlog : log ⊆ log') {conn : Conn Write}
    (hconn : ∀ tx, conn ≠ .active tx) : Sourced pg (w.setStore (w.store.drop t conn)) log' := by
  refine h.setConn (t := t) (fun e he => .inl he) (fun t' ht' => Store.drop_conns_of_ne ht' _) hlog ?_
  intro tx htx
  rw [Store.drop_conns_self] at htx
  exact absurd htx (hconn tx)

end Sourced

theorem sourced_exec {pg : Jsonb} {w w' : World} {log : List Event} {t : ℕ} {o : Op} {ω : Oracle}
    {r : Except Failure o.Resp} (h : Sourced pg w log) (hx : exec pg t o ω w = some (r, w')) :
    Sourced pg w' (log ++ [⟨t, ⟨o, r⟩⟩]) := by
  -- what stood in the log still does
  have hlog : log ⊆ log ++ [(⟨t, ⟨o, r⟩⟩ : Event)] := List.subset_append_left _ _
  have hlast : (⟨t, ⟨o, r⟩⟩ : Event) ∈ log ++ [⟨t, ⟨o, r⟩⟩] :=
    List.mem_append_right _ (List.mem_singleton_self _)
  cases o with
  | pool q =>
      -- the write of a statement has that statement as its source
      have hwritten : ∀ {a write}, q.run pg w.store.db w.clock ω = .ok a → a.write = some write →
          Sourced pg (w.setStore (w.store.autocommit tables.apply t write))
            (log ++ [⟨t, ⟨.pool q, r⟩⟩]) := by
        intro a write ha hwrite
        refine h.setConn (t := t) (fun e he => ?_) (fun _ _ => rfl) hlog fun tx htx write hw => ?_
        · rcases List.mem_append.mp he with he | he
          · exact .inl he
          · obtain rfl := List.mem_singleton.mp he
            exact .inr ⟨q, _, _, ω, a, ha, hwrite, _, hlast, .inl rfl⟩
        · exact (h.pending t tx htx write hw).mono hlog
      obtain ⟨e, -, rfl | ⟨a, write, ha, hwrite, -, -, rfl⟩⟩ |
        ⟨a, ha, -, ⟨-, rfl⟩ | ⟨write, hwrite, -, -, rfl⟩⟩ := exec_pool hx
      · exact h.of_store rfl hlog
      · exact (hwritten ha hwrite).of_store rfl fun _ hx => hx
      · exact h.of_store rfl hlog
      · exact hwritten ha hwrite
  | query q =>
      obtain ⟨e, -, ⟨-, rfl⟩ | ⟨-, rfl⟩⟩ | ⟨tx, a, s, htx, ha, -, hs, hw⟩ := exec_query hx
      · exact h.of_store rfl hlog
      · exact h.drop hlog fun tx => by simp
      · obtain ⟨hconns, -, hjournal⟩ := Store.acquireAll_frame hs
        -- a statement of a transaction leaves its write pending,
        rcases hw with ⟨-, rfl⟩ | ⟨write, hwrite, -, rfl⟩
        · refine h.setConn (t := t) (fun e he => .inl (hjournal ▸ he))
            (fun t' _ => by rw [hconns]) hlog fun tx htx write hw => ?_
          rw [hconns] at htx
          exact (h.pending t tx htx write hw).mono hlog
        · have hactive : s.conns t = .active tx := by
            rw [hconns]
            exact htx
          refine h.setConn (t := t) (fun e he => .inl ?_) (fun t' ht' => ?_) hlog
            fun tx' htx' write' hw' => ?_
          · rwa [Store.write_journal, hjournal] at he
          · rw [Store.write_of_active hactive, Store.setConn_conns_of_ne ht', hconns]
          · rw [Store.write_of_active hactive, Store.setConn_conns_self] at htx'
            obtain rfl := Conn.active.inj htx'
            rcases List.mem_append.mp hw' with hw' | hw'
            · exact (h.pending t tx htx write' hw').mono hlog
            · obtain rfl := List.mem_singleton.mp hw'
              exact ⟨q, _, _, ω, a, ha, hwrite, _, hlast, .inr rfl⟩
  | begin =>
      obtain ⟨e, -, rfl⟩ | hx := orFail_cases hx
      · exact h.of_store rfl hlog
      · split at hx
        · cases hx
          refine h.setConn (t := t) (fun e he => .inl he)
            (fun t' ht' => Store.setConn_conns_of_ne ht' _) hlog fun tx htx write hw => ?_
          rw [Store.begin_conns_self] at htx
          obtain rfl := Conn.active.inj htx
          cases hw
        · cases hx
          exact h.of_store rfl hlog
        · cases hx
          exact h.of_store rfl hlog
  | commit =>
      obtain ⟨e, -, ⟨-, rfl⟩ | ⟨-, rfl⟩⟩ | ⟨tx, htx, hx⟩ := inTransaction_cases hx
      · exact h.of_store rfl hlog
      · exact h.drop hlog fun tx => by simp
      · -- and COMMIT moves the pending writes to the journal, whatever is heard of it
        suffices hcommit : Sourced pg (w.setStore (w.store.commit tables.apply t))
            (log ++ [⟨t, ⟨.commit, r⟩⟩]) by
          obtain ⟨-, rfl⟩ | ⟨e, -, rfl⟩ := carriedOut_cases (Option.some.inj hx)
          · exact hcommit
          · exact hcommit.of_store rfl fun _ hx => hx
        rw [Store.commit_of_active htx]
        refine h.setConn (t := t) (fun e he => ?_) (fun t' ht' => Store.drop_conns_of_ne ht' _) hlog
          fun tx' htx' => ?_
        · rcases List.mem_append.mp he with he | he
          · exact .inl he
          · obtain ⟨write, hw, rfl⟩ := List.mem_map.mp he
            exact .inr ((h.pending t tx htx write hw).mono hlog)
        · have hidle : (w.store.drop t .idle).conns t = .active tx' := htx'
          rw [Store.drop_conns_self] at hidle
          cases hidle
  | rollback =>
      have hw : w' = w.setStore (w.store.drop t .idle) := by
        obtain ⟨e, -, hw⟩ | hx := orFail_cases hx
        · exact hw
        · cases hx
          rfl
      subst hw
      exact h.drop hlog fun tx => by simp
  | spawn payload =>
      cases hx
      exact h.of_store rfl hlog
  | cacheDemoCode sessionId step code deeplink nonce =>
      cases hx
      exact h.of_store rfl hlog
  | _ =>
      have hframe := exec_plain (by trivial) hx
      exact h.of_store hframe.1 hlog

theorem sourced_env {pg : Jsonb} {w w' : World} {log : List Event} {e : Env} (h : Sourced pg w log)
    (he : env e w = some w') : Sourced pg w' log := by
  cases e with
  | tick ms =>
      cases he
      exact h.of_store rfl fun _ hx => hx
  | cut t =>
      simp only [env] at he
      split at he
      · cases he
        exact h.drop (fun _ hx => hx) fun tx => by simp
      · cases he
        exact h

/-! ## Later states -/

section Reach

variable {cfg : Settings} {pg : Jsonb} {c c' : State} {t : ℕ} {write : Write}

/-- What a number that no call has yet may rely on, it may rely on until a call has it. -/
theorem relies_later (h : (system cfg pg).Reach Empty (fun _ _ => True) c)
    (hlater : (system cfg pg).Later (fun _ _ => True) c c') {t : ℕ}
    (ht : c'.threads.length ≤ t) : Relies t c.world c'.world := by
  have hguarded : ((system cfg pg).guarded fun _ _ _ _ => True).Later (fun _ _ => True) c c' :=
    System.Later.guarded hlater fun _ _ _ _ _ _ _ _ _ => trivial
  exact hguarded.rely (D := discipline cfg pg (fun _ _ _ _ => True) fun _ => True)
    (P := fun _ => True) (Q := fun a t => Post cfg pg a t)
    (fun w hw => ⟨inv_empty hw, done_empty hw⟩)
    (fun a t w _ _ hf => safe_code (guards_true pg) a hf) (fun a t out w w' hp hr => hp.rely hr)
    (fun _ _ _ => trivial) (System.Reach.guarded h fun _ _ _ _ _ _ _ _ _ => trivial) ht

/-- The journal only grows. -/
theorem journal_later (h : (system cfg pg).Reach Empty (fun _ _ => True) c)
    (hlater : (system cfg pg).Later (fun _ _ => True) c c') :
    c.world.store.journal <+: c'.world.store.journal :=
  (relies_later h hlater (Nat.le_refl _)).store.grows

/-- Nobody commits twice. -/
theorem once_later (h : (system cfg pg).Reach Empty (fun _ _ => True) c)
    (hlater : (system cfg pg).Later (fun _ _ => True) c c') :
    CommitsOnce c.world.store c'.world.store :=
  (relies_later h hlater (Nat.le_refl _)).once

/-- Whoever has committed a write is a call, and has committed what its effect says. -/
theorem effect_of_committed (h : (system cfg pg).Reach Empty (fun _ _ => True) c)
    (hw : (t, write) ∈ c.world.store.journal) :
    ∃ th x ps, c.threads[t]? = some th ∧
      Effect cfg pg th.call x (c.world.store.committedBy t) ps := by
  have hmine : write ∈ c.world.store.committedBy t := Store.mem_committedBy.mpr hw
  cases hth : c.threads[t]? with
  | none =>
      have hdone := done_of_reach (guards_true pg) (allows_true _) h (List.getElem?_eq_none_iff.mp hth)
      rw [hdone.mine] at hmine
      cases hmine
  | some th =>
      have hrest : Only (Op.In th.call.scope th.call.takesDevice) th.rest := (h.trace hth).before (in_code th.call)
      obtain ⟨c', th', hlater, hth', hcall, hended⟩ := System.exists_finished
        (Y := system cfg pg) (fun _ _ => trivial) exec_of_in hth hrest
      obtain ⟨out, hout⟩ := Option.isSome_iff_exists.mp hended
      have hsame := once_later h hlater t (List.ne_nil_of_mem hmine)
      have hpost := post_of_ended (guards_true pg) (allows_true _) (h.later hlater) hth' hout
      cases out with
      | error e =>
          -- a call that throws has committed nothing, or all that it was to commit
          rcases hpost with hnone | ⟨-, x, ws, ps, hdone, heffect⟩
          · rw [← hsame, hnone.mine] at hmine
            cases hmine
          · refine ⟨th, x, ps, rfl, ?_⟩
            rw [← hsame, hdone.mine, ← hcall]
            exact heffect
      | ok x =>
          obtain ⟨ws, ps, hdone, heffect⟩ := hpost
          refine ⟨th, x, ps, rfl, ?_⟩
          rw [← hsame, hdone.mine, ← hcall]
          exact heffect

theorem sourced_of_reach {good : State → Label Call Oracle Env → Prop}
    (h : (system cfg pg).Reach Empty good c) : Sourced pg c.world c.log := by
  refine h.world_invariant (I := Sourced pg) (fun w hw => ?_) (fun w log t o ω r w' hI hx => ?_)
    fun w log e w' hI he => sourced_env hI he
  · obtain ⟨hstore, -, -⟩ := hw
    refine ⟨fun e he => ?_, fun t tx htx => ?_⟩
    · rw [hstore] at he
      cases he
    · rw [hstore] at htx
      cases htx
  · exact sourced_exec hI hx

/-- The statement that has made a committed write, in the past of its call. -/
theorem issued_of_committed {good : State → Label Call Oracle Env → Prop}
    (h : (system cfg pg).Reach Empty good c) (hw : (t, write) ∈ c.world.store.journal) :
    ∃ (th : Thread sig Failure Result Call) (q : Sql) (db : Db) (now : ℕ) (ω : Oracle)
      (a : Answer q.Resp), c.threads[t]? = some th ∧ q.run pg db now ω = .ok a ∧
      a.write = some write ∧ q.scope = th.call.scope ∧
      (q.primaryDevice = none ∨ th.call.takesDevice = true) ∧
      ∃ x ∈ th.past, x.op = .pool q ∨ x.op = .query q := by
  obtain ⟨q, db, now, ω, a, ha, hwrite, x, hx, hq⟩ := (sourced_of_reach h).journal _ hw
  obtain ⟨th, hth, hpast⟩ := h.exists_thread hx
  obtain ⟨pre, -, hscope⟩ := h.before_of_mem hth (in_code th.call) hpast
  have hin : q.scope = th.call.scope ∧ (q.primaryDevice = none ∨ th.call.takesDevice = true) := by
    rcases hq with hq | hq
    · rw [hq] at hscope
      exact hscope
    · rw [hq] at hscope
      exact hscope
  exact ⟨th, q, db, now, ω, a, hth, ha, hwrite, hin.1, hin.2, x, hpast, hq⟩

end Reach

end ZeroAuth.Tenant
