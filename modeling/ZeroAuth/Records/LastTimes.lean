/-
  ZeroAuth.Records.LastTimes

  What calls of `createVerificationEvent` leave in `last_seen_at` and `last_verified_at`.

  An UPDATE overwrites the time that it finds.  So along a run the time of a row is that
  of the UPDATE of it that was completed last (`timeOf_run`), and

    * no time ever goes back, and in the end every time is the greatest of the events
      (`TimesForward`, `Latest`)

  exactly when

    * the UPDATEs of every row are completed in the order of their times, none of which
      is before the row's time at the start (`InOrder`).
-/

import ZeroAuth.Records.Touches
import Mathlib.Order.Bounds.Basic

namespace ZeroAuth.Records

open ZeroAuth.Lib ZeroAuth.Js ZeroAuth.Pg ZeroAuth.Tenant

/-! ## Single steps -/

section Steps

variable {cfg : Config} {pg : Jsonb} {w₀ w w' : World} {log : List (Event sig Failure)} {t : ℕ}
  {ω : Oracle}

/-- No transaction is open, no UPDATE is pending. -/
structure Ready (w : World) : Prop where
  locks : ∀ k, w.tenant.store.locks k = none
  idle : ∀ t, w.tenant.store.conns t = .idle
  distinct : tables.Distinct w.db
  touches : w.touches = []

/-- The SELECT of a row by its owner has found it. -/
def Read (db : Db) (tenantId environment : JsString) (id : RowId) : Prop :=
  ∃ u, Uuid.parse tenantId = some u ∧ Has db id (u, environment)

/-- The row has the values of the INSERT, and was not there at the start. -/
structure Inserted (w₀ w : World) (v : NewVerification) (r : VerificationRecord) : Prop where
  mem : r ∈ w.verifications
  fresh : r ∉ w₀.verifications
  userId : r.userId = v.userId
  deviceId : r.deviceId = v.deviceId
  result : r.result = v.result
  occurredAt : r.occurredAt = v.occurredAt

theorem Inserted.mono {v : NewVerification} {r : VerificationRecord} (h : Inserted w₀ w v r)
    (hw : ∀ x ∈ w.verifications, x ∈ w'.verifications) : Inserted w₀ w' v r :=
  ⟨hw r h.mem, h.fresh, h.userId, h.deviceId, h.result, h.occurredAt⟩

/-- What the run from `w₀` has left in the world, against what was awaited. -/
structure Traced (w₀ w : World) (log : List (Event sig Failure)) : Prop where
  locks : ∀ k, w.tenant.store.locks k = none
  idle : ∀ t, w.tenant.store.conns t = .idle
  distinct : tables.Distinct w.db
  old : ∀ r ∈ w₀.verifications, r ∈ w.verifications
  inserted : ∀ e ∈ log, ∀ tenantId environment v r,
    e.act = Act.inl (insertAct tenantId environment v r) → Inserted w₀ w v r
  logged : ∀ r ∈ w.verifications, r ∉ w₀.verifications → ∃ e ∈ log, ∃ tenantId environment v,
    e.act = Act.inl (insertAct tenantId environment v r)
  users : ∀ e ∈ log, ∀ userId tenantId environment u,
    e.act = Act.inl (userAct userId tenantId environment u) →
      Read w.db tenantId environment (.user u.id)
  devices : ∀ e ∈ log, ∀ deviceId tenantId environment d,
    e.act = Act.inl (deviceAct deviceId tenantId environment d) →
      Read w.db tenantId environment (.device d.id)
  touches : ∀ x ∈ w.touches, ∃ e ∈ log, e.act = Act.inl (touchAct x.2)
  answers : ∀ e ∈ log, ∀ touch (answer : Except Failure Unit),
    e.act = ⟨.inl (.inr (.touch touch)), answer⟩ → answer = .ok ()
  foreign : ∀ e ∈ log, ∀ o err, e.act ≠ ⟨.inl o, .error (.inr err)⟩

theorem selectUser_read {userId tenantId environment : JsString}
    {r : Except RecordFailure (Option TenantUser)}
    (h : recordExec pg t (.selectUser userId tenantId environment) ω w = some (r, w')) :
    w' = w ∧ ∀ u, r = .ok (some u) → Read w.db tenantId environment (.user u.id) := by
  rcases statement_cases h with ⟨message, rfl, rfl⟩ | h
  · exact ⟨rfl, fun v hv => (nomatch hv)⟩
  obtain ⟨hr, rfl⟩ := Prod.mk.inj h
  refine ⟨rfl, fun u hu => ?_⟩
  rw [hu] at hr
  unfold selectOwn at hr
  split at hr
  · next i tenant _ htenant =>
      have hfind := Except.ok.inj hr
      have hown : TenantUser.isOwn i tenant environment u = true := List.find?_some hfind
      obtain ⟨-, hscope, henv⟩ := of_decide_eq_true hown
      exact ⟨tenant, htenant, .user u, mem_users.mp (List.mem_of_find?_eq_some hfind), rfl,
        Prod.ext hscope henv⟩
  · cases hr

theorem selectDevice_read {deviceId tenantId environment : JsString}
    {r : Except Tenant.Failure (Option Device)} {tenant : Tenant.World}
    (h : Tenant.exec pg t (.pool (.selectDevice deviceId tenantId environment)) ω.tenant w.tenant =
      some (r, tenant)) :
    tenant = w.tenant ∧ ∀ d, r = .ok (some d) → Read w.db tenantId environment (.device d.id) := by
  rcases Tenant.exec_pool h with ⟨e, rfl, rfl | ⟨a, write, ha, hwrite, -⟩⟩ | ⟨a, ha, rfl, hwrite⟩
  · exact ⟨rfl, fun d hd => (nomatch hd)⟩
  · obtain ⟨id, u, -, -, rfl⟩ := withOwner_ok ha
    cases hwrite
  · obtain ⟨id, u, -, hu, rfl⟩ := withOwner_ok ha
    rcases hwrite with ⟨-, rfl⟩ | ⟨write, hwrite, -⟩
    · refine ⟨rfl, fun d hd => ?_⟩
      have hfind := Except.ok.inj hd
      have hown : Device.isOwn id u environment d = true := List.find?_some hfind
      obtain ⟨-, hscope, henv⟩ := of_decide_eq_true hown
      exact ⟨u, hu, .device d, mem_devices.mp (List.mem_of_find?_eq_some hfind), rfl,
        Prod.ext hscope henv⟩
    · cases hwrite

/-- One more operation, which leaves the store alone. -/
theorem Traced.snoc (h : Traced w₀ w log) {e : Event sig Failure}
    (hstore : w'.tenant.store = w.tenant.store)
    (hverifications : ∀ r ∈ w.verifications, r ∈ w'.verifications)
    (hlogged : ∀ r ∈ w'.verifications, r ∈ w.verifications ∨ ∃ tenantId environment v,
      e.act = Act.inl (insertAct tenantId environment v r))
    (htouches : ∀ x ∈ w'.touches, x ∈ w.touches ∨ e.act = Act.inl (touchAct x.2))
    (hinserted : ∀ tenantId environment v r,
      e.act = Act.inl (insertAct tenantId environment v r) → Inserted w₀ w' v r)
    (husers : ∀ userId tenantId environment u,
      e.act = Act.inl (userAct userId tenantId environment u) →
        Read w.db tenantId environment (.user u.id))
    (hdevices : ∀ deviceId tenantId environment d,
      e.act = Act.inl (deviceAct deviceId tenantId environment d) →
        Read w.db tenantId environment (.device d.id))
    (hanswers : ∀ touch (answer : Except Failure Unit),
      e.act = ⟨.inl (.inr (.touch touch)), answer⟩ → answer = .ok ())
    (hforeign : ∀ o err, e.act ≠ ⟨.inl o, .error (.inr err)⟩) : Traced w₀ w' (log ++ [e]) := by
  have hdb : w'.db = w.db := congrArg Store.db hstore
  -- an event of the longer log is one of the old ones or the new one
  have hcase : ∀ {x : Event sig Failure}, x ∈ log ++ [e] → x ∈ log ∨ x = e := fun hx =>
    (List.mem_append.mp hx).imp_right List.mem_singleton.mp
  constructor
  · exact fun k => (congrFun (congrArg Store.locks hstore) k).trans (h.locks k)
  · exact fun t => (congrFun (congrArg Store.conns hstore) t).trans (h.idle t)
  · exact hdb ▸ h.distinct
  · -- the rows of the start are never deleted
    exact fun r hr => hverifications r (h.old r hr)
  · intro x hx tenantId environment v r hact
    rcases hcase hx with hx | rfl
    · exact (h.inserted x hx tenantId environment v r hact).mono hverifications
    · exact hinserted tenantId environment v r hact
  · -- a row that is new has its INSERT in the log
    intro r hr hfresh
    rcases hlogged r hr with hr | hact
    · obtain ⟨x, hx, hact⟩ := h.logged r hr hfresh
      exact ⟨x, List.mem_append_left _ hx, hact⟩
    · exact ⟨e, List.mem_append_right _ List.mem_cons_self, hact⟩
  · rw [hdb]
    intro x hx
    rcases hcase hx with hx | rfl
    · exact h.users x hx
    · exact husers
  · rw [hdb]
    intro x hx
    rcases hcase hx with hx | rfl
    · exact h.devices x hx
    · exact hdevices
  · intro x hx
    rcases htouches x hx with hx | hact
    · obtain ⟨y, hy, hact⟩ := h.touches x hx
      exact ⟨y, List.mem_append_left _ hy, hact⟩
    · exact ⟨e, List.mem_append_right _ List.mem_cons_self, hact⟩
  · intro x hx
    rcases hcase hx with hx | rfl
    · exact h.answers x hx
    · exact hanswers
  · intro x hx
    rcases hcase hx with hx | rfl
    · exact h.foreign x hx
    · exact hforeign

/-- The step has changed no table that the run is about. -/
structure QuietStep (w w' : World) (x : Act sig Failure) : Prop where
  store : w'.tenant.store = w.tenant.store
  verifications : w'.verifications = w.verifications
  touches : w'.touches = w.touches
  noInsert : ∀ tenantId environment v r, x ≠ Act.inl (insertAct tenantId environment v r)
  noTouch : ∀ touch answer, x ≠ ⟨.inl (.inr (.touch touch)), answer⟩
  users : ∀ userId tenantId environment u, x = Act.inl (userAct userId tenantId environment u) →
    Read w.db tenantId environment (.user u.id)
  devices : ∀ deviceId tenantId environment d,
    x = Act.inl (deviceAct deviceId tenantId environment d) →
      Read w.db tenantId environment (.device d.id)

/-- Everything an operation of `createVerificationEvent` can do. -/
theorem exec_cases {o : recordSig.Op} (ho : records o = true)
    {r : Except Failure (recordSig.Resp o)} (hx : exec pg t (.inl o) ω w = some (r, w')) :
    QuietStep w w' ⟨.inl o, r⟩ ∨
    (∃ tenantId environment v row,
      (⟨.inl o, r⟩ : Act sig Failure) = Act.inl (insertAct tenantId environment v row) ∧
      (∀ x ∈ w.verifications, x.id ≠ row.id) ∧ row.userId = v.userId ∧ row.deviceId = v.deviceId ∧
      row.result = v.result ∧ row.occurredAt = v.occurredAt ∧
      w' = { w with verifications := w.verifications ++ [row] }) ∨
    ∃ touch, (⟨.inl o, r⟩ : Act sig Failure) = Act.inl (touchAct touch) ∧
      w' = { w with touches := w.touches ++ [(t, touch)] } := by
  rcases o with o | o
  · obtain ⟨⟨r₀, tenant⟩, hrun, heq⟩ := Option.map_eq_some_iff.mp hx
    obtain ⟨rfl, rfl⟩ := Prod.mk.inj heq
    -- what this service shares with the others inserts no event and starts no UPDATE
    left
    cases o with
    | now =>
        obtain ⟨-, rfl⟩ := Prod.mk.inj (Option.some.inj hrun)
        exact ⟨rfl, rfl, rfl, fun _ _ _ _ => nofun, fun _ _ => nofun, fun _ _ _ _ => nofun,
          fun _ _ _ _ => nofun⟩
    | spawn payload =>
        obtain ⟨-, rfl⟩ := Prod.mk.inj (Option.some.inj hrun)
        exact ⟨rfl, rfl, rfl, fun _ _ _ _ => nofun, fun _ _ => nofun, fun _ _ _ _ => nofun,
          fun _ _ _ _ => nofun⟩
    | pool q =>
        cases q with
        | selectDevice deviceId tenantId environment =>
            obtain ⟨rfl, hread⟩ := selectDevice_read hrun
            refine ⟨rfl, rfl, rfl, fun _ _ _ _ => nofun, fun _ _ => nofun, fun _ _ _ _ => nofun, ?_⟩
            intro deviceId' tenantId' environment' d hact
            cases r₀ with
            | error e => cases hact
            | ok found =>
                cases hact
                exact hread d rfl
        | _ => cases ho
    | _ => cases ho
  · obtain ⟨⟨r₀, w₁⟩, hrun, heq⟩ := Option.map_eq_some_iff.mp hx
    obtain ⟨rfl, rfl⟩ := Prod.mk.inj heq
    cases o with
    | selectUser userId tenantId environment =>
        obtain ⟨rfl, hread⟩ := selectUser_read hrun
        left
        refine ⟨rfl, rfl, rfl, fun _ _ _ _ => nofun, fun _ _ => nofun, ?_, fun _ _ _ _ => nofun⟩
        intro userId' tenantId' environment' u hact
        cases r₀ with
        | error e => cases hact
        | ok found =>
            cases hact
            exact hread u rfl
    | insertVerification tenantId environment v =>
        rcases insertVerification_cases hrun with
          ⟨e, rfl, rfl⟩ | ⟨row, rfl, hfresh, huser, hdevice, hresult, hoccurred, rfl⟩
        · exact .inl ⟨rfl, rfl, rfl, fun _ _ _ _ => nofun, fun _ _ => nofun, fun _ _ _ _ => nofun,
            fun _ _ _ _ => nofun⟩
        · exact .inr (.inl ⟨tenantId, environment, v, row, rfl, hfresh, huser, hdevice, hresult,
            hoccurred, rfl⟩)
    | touch touch =>
        obtain ⟨rfl, rfl⟩ := Prod.mk.inj (Option.some.inj hrun)
        exact .inr (.inr ⟨touch, rfl, rfl⟩)
    | _ => cases ho

/-- The pairing service has no part in the answer. -/
theorem exec_foreign {o : recordSig.Op} {r : Except Failure (recordSig.Resp o)}
    (hx : exec pg t (.inl o) ω w = some (r, w')) (o' : recordSig.Op) (err : Pairing.Failure) :
    (⟨.inl o, r⟩ : Act sig Failure) ≠ ⟨.inl o', .error (.inr err)⟩ := by
  intro heq
  rcases o with o | o
  · obtain ⟨⟨r₀, tenant⟩, -, hr⟩ := Option.map_eq_some_iff.mp hx
    obtain ⟨rfl, rfl⟩ := Prod.mk.inj hr
    cases r₀ <;> cases heq
  · obtain ⟨⟨r₀, w₁⟩, -, hr⟩ := Option.map_eq_some_iff.mp hx
    obtain ⟨rfl, rfl⟩ := Prod.mk.inj hr
    cases r₀ <;> cases heq

/-- One operation of a call of `createVerificationEvent`. -/
theorem traced_exec (h : Traced w₀ w log) {o : recordSig.Op} (ho : records o = true)
    {r : Except Failure (recordSig.Resp o)} (hx : exec pg t (.inl o) ω w = some (r, w')) :
    Traced w₀ w' (log ++ [⟨t, ⟨.inl o, r⟩⟩]) := by
  have hforeign := exec_foreign hx
  rcases exec_cases ho hx with hquiet | hinsert | htouch
  · refine h.snoc hquiet.store ?_ ?_ ?_ ?_ hquiet.users hquiet.devices ?_ hforeign
    · rw [hquiet.verifications]
      exact fun r hr => hr
    · rw [hquiet.verifications]
      exact fun r hr => .inl hr
    · rw [hquiet.touches]
      exact fun x hx => .inl hx
    · exact fun tenantId environment v r hact =>
        absurd hact (hquiet.noInsert tenantId environment v r)
    · exact fun touch answer hact => absurd hact (hquiet.noTouch touch answer)
  · -- the INSERT: the row is there, and it is not one of the start
    obtain ⟨tenantId, environment, v, row, hact, hfresh, huser, hdevice, hresult, hoccurred, rfl⟩ :=
      hinsert
    rw [hact] at hforeign ⊢
    refine h.snoc rfl (fun r hr => List.mem_append_left _ hr) (fun r hr => ?_)
      (fun x hx => .inl hx) (fun tenantId' environment' v' r' hact' => ?_)
      (fun _ _ _ _ => nofun) (fun _ _ _ _ => nofun) (fun _ _ => nofun) hforeign
    · rcases List.mem_append.mp hr with hr | hr
      · exact .inl hr
      · rw [List.mem_singleton.mp hr]
        exact .inr ⟨tenantId, environment, v, rfl⟩
    · cases hact'
      exact ⟨List.mem_append_right _ List.mem_cons_self,
        fun hr => hfresh row (h.old row hr) rfl, huser, hdevice, hresult, hoccurred⟩
  · -- an UPDATE that is not awaited is only noted
    obtain ⟨touch, hact, rfl⟩ := htouch
    rw [hact] at hforeign ⊢
    refine h.snoc rfl (fun r hr => hr) (fun r hr => .inl hr) (fun x hx => ?_)
      (fun _ _ _ _ => nofun) (fun _ _ _ _ => nofun) (fun _ _ _ _ => nofun)
      (fun touch' answer hact' => ?_) hforeign
    · rcases List.mem_append.mp hx with hx | hx
      · exact .inl hx
      · rw [List.mem_singleton.mp hx]
        exact .inr rfl
    · cases hact'
      rfl

/-- An UPDATE is done. -/
theorem Traced.stamped (h : Traced w₀ w log) {touch : Touch} {old new : Row} {i : ℕ}
    (hold : old ∈ w.db) (hstamps : Restamps touch old new) :
    Traced w₀ { w with
      tenant := w.tenant.setStore (w.tenant.store.autocommit tables.apply t (.update old new))
      touches := w.touches.eraseIdx i } log := by
  have hread : ∀ {tenantId environment : JsString} {id : RowId}, Read w.db tenantId environment id →
      Read (tables.apply w.db (.update old new)) tenantId environment id := by
    rintro tenantId environment id ⟨u, hu, hhas⟩
    exact ⟨u, hu, has_restamped h.distinct hold hstamps hhas⟩
  constructor
  · exact h.locks
  · exact h.idle
  · exact h.distinct.apply (hstamps.fits h.distinct hold)
  · exact h.old
  · intro e he tenantId environment v r hact
    exact (h.inserted e he tenantId environment v r hact).mono fun x hx => hx
  · exact h.logged
  · exact fun e he userId tenantId environment u hact =>
      hread (h.users e he userId tenantId environment u hact)
  · exact fun e he deviceId tenantId environment d hact =>
      hread (h.devices e he deviceId tenantId environment d hact)
  · exact fun x hx => h.touches x (List.mem_of_mem_eraseIdx hx)
  · exact h.answers
  · exact h.foreign

/-- What runs in the background completes an UPDATE, or leaves the store alone. -/
theorem env_cases {e : Env} (hidle : ∀ t, w.tenant.store.conns t = .idle)
    (hx : env e w = some w') : (∃ i succeeds, e = .touch i succeeds) ∨
      ((∀ i succeeds, e ≠ .touch i succeeds) ∧ w'.tenant.store = w.tenant.store ∧
        w'.verifications = w.verifications ∧ w'.touches = w.touches) := by
  cases e with
  | touch i succeeds => exact .inl ⟨i, succeeds, rfl⟩
  | tenant e =>
      obtain ⟨tenant, he, rfl⟩ := Option.map_eq_some_iff.mp hx
      refine .inr ⟨fun _ _ heq => (by cases heq), ?_, rfl, rfl⟩
      cases e with
      | tick ms => rw [← Option.some.inj he]
      | cut t =>
          rw [Tenant.env, hidle t] at he
          rw [← Option.some.inj he]
  | pairingJob i succeeds =>
      obtain ⟨pairing, -, rfl⟩ := Option.map_eq_some_iff.mp hx
      exact .inr ⟨fun _ _ heq => (by cases heq), rfl, rfl, rfl⟩
  | setPolicy tenantId policy =>
      rw [env] at hx
      obtain ⟨pairing, -, rfl⟩ := Option.map_eq_some_iff.mp hx
      exact .inr ⟨fun _ _ heq => (by cases heq), rfl, rfl, rfl⟩

theorem Traced.elsewhere (h : Traced w₀ w log) (hstore : w'.tenant.store = w.tenant.store)
    (hverifications : w'.verifications = w.verifications) (htouches : w'.touches = w.touches) :
    Traced w₀ w' log := by
  have hdb : w'.db = w.db := congrArg Store.db hstore
  constructor
  · exact fun k => (congrFun (congrArg Store.locks hstore) k).trans (h.locks k)
  · exact fun t => (congrFun (congrArg Store.conns hstore) t).trans (h.idle t)
  · exact hdb ▸ h.distinct
  · exact hverifications ▸ h.old
  · intro e he tenantId environment v r hact
    apply (h.inserted e he tenantId environment v r hact).mono
    rw [hverifications]
    exact fun x hx => hx
  · exact hverifications ▸ h.logged
  · exact hdb ▸ h.users
  · exact hdb ▸ h.devices
  · exact htouches ▸ h.touches
  · exact h.answers
  · exact h.foreign

end Steps

/-! ## Runs -/

/-- Only `createVerificationEvent` is called, and every UPDATE succeeds. -/
def VerificationsOnly : Label Call Oracle Env → Prop
  | .start (.verification _ _ _ _) => True
  | .start _ => False
  | .env (.touch _ succeeds) => succeeds = true
  | _ => True

section Runs

variable {cfg : Config} {pg : Jsonb} {w₀ : World} {c c' : State}

/-- The states of the runs from `w₀`. -/
abbrev Run (cfg : Config) (pg : Jsonb) (w₀ : World) : State → Prop :=
  (platform cfg pg).Reach (fun w => w = w₀) fun _ l => VerificationsOnly l

theorem call_of_run (h : Run cfg pg w₀ c) {t : ℕ} {th : Thread} (hth : c.threads[t]? = some th) :
    ∃ tenantId environment apiKeyId input,
      th.call = .verification tenantId environment apiKeyId input := by
  refine h.invariant (I := fun c => ∀ (t : ℕ) (th : Thread), c.threads[t]? = some th →
    ∃ tenantId environment apiKeyId input,
      th.call = .verification tenantId environment apiKeyId input) ?_ ?_ ?_ ?_ t th hth
  · intro w _ t th hth
    cases hth
  · intro c a _ ih hg t th hth
    rcases System.getElem?_spawn hth with hth | ⟨-, rfl⟩
    · exact ih t th hth
    · cases a with
      | verification tenantId environment apiKeyId input =>
          exact ⟨tenantId, environment, apiKeyId, input, rfl⟩
      | _ => cases hg
  · intro c t' ω a past o k r w _ ih _ hth' _ t th hth
    rw [System.getElem?_answered] at hth
    split at hth
    · split at hth
      · obtain rfl := Option.some.inj hth
        exact ih t' ⟨a, past, .await o k⟩ hth'
      · cases hth
    · exact ih t th hth
  · intro c e w _ ih _ _
    exact ih

/-- A call of `createVerificationEvent` has only its operations. -/
theorem records_of_run (h : Run cfg pg w₀ c) {t : ℕ} {a : Call} {past : List (Act sig Failure)}
    {o : sig.Op} {k : Except Failure (sig.Resp o) → Program Result}
    (hth : c.threads[t]? = some ⟨a, past, .await o k⟩) : ∃ o', o = .inl o' ∧ records o' = true := by
  obtain ⟨tenantId, environment, apiKeyId, input, hcall⟩ := call_of_run h hth
  have honly : Prog.Before (fun _ (o : sig.Op) => ∃ o', o = .inl o' ∧ records o' = true)
      (code cfg a) := by
    rw [show a = _ from hcall]
    apply Prog.Before.bind (Φ := fun _ _ => True)
    · exact Prog.Before.lift only_createVerificationEvent fun es o ho => ⟨o, rfl, ho⟩
    · exact Prog.ends_of_forall fun _ _ => trivial
    · exact fun _ _ _ => trivial
  exact h.before hth honly

/-- What a started UPDATE rests on, in the log. -/
theorem due_of_run (h : Run cfg pg w₀ c) {e : Event sig Failure} (he : e ∈ c.log) {touch : Touch}
    {answer : Except Failure Unit} (hact : e.act = ⟨.inl (.inr (.touch touch)), answer⟩) :
    ∃ tenantId environment,
      (∃ v r, (∃ e' ∈ c.log, e'.act = Act.inl (insertAct tenantId environment v r)) ∧
        touch ∈ touchesOf tenantId v) ∧
      ∃ es : List (Act recordSig RecordFailure), HasRead tenantId environment es touch.row ∧
        ∀ x ∈ es, ∃ e' ∈ c.log, e'.act = Act.inl x := by
  obtain ⟨th, hth, hpast⟩ := h.exists_thread he
  obtain ⟨tenantId, environment, apiKeyId, input, hcall⟩ := call_of_run h hth
  have hdue : Prog.Before (fun (es : List (Act sig Failure)) (o : sig.Op) =>
      ∃ es₀ : List (Act recordSig RecordFailure), es = es₀.map Act.inl ∧
        ∃ o', o = .inl o' ∧ Due tenantId environment es₀ o') (code cfg th.call) := by
    rw [hcall]
    apply Prog.Before.bind (Φ := fun _ _ => True)
    · exact Prog.Before.lift before_createVerificationEvent
        fun es o ho => ⟨es, rfl, o, rfl, ho⟩
    · exact Prog.ends_of_forall fun _ _ => trivial
    · exact fun _ _ _ => trivial
  obtain ⟨pre, hpre, es, rfl, o', ho', hdue⟩ := h.before_of_mem hth hdue hpast
  rw [hact] at ho'
  obtain ⟨⟨v, r, hmem, htouch⟩, hread⟩ := hdue touch (Sum.inl.inj ho').symm
  have hlog : ∀ x ∈ es, ∃ e' ∈ c.log, e'.act = Act.inl x := by
    intro x hx
    exact ⟨_, (h.mem_log hth).mp (hpre.subset (List.mem_map_of_mem hx)), rfl⟩
  exact ⟨tenantId, environment, ⟨v, r, hlog _ hmem, htouch⟩, es, hread, hlog⟩

theorem mem_touchesOf {tenantId : JsString} {v : NewVerification} {touch : Touch} :
    touch ∈ touchesOf tenantId v ↔
      (∃ id, v.deviceId = some id ∧ touch = .device id tenantId v.occurredAt) ∨
      ∃ id, v.userId = some id ∧ v.result = .pass ∧ touch = .user id tenantId v.occurredAt := by
  unfold touchesOf
  rw [List.mem_append, Option.mem_toList, Option.mem_toList, Option.map_eq_some_iff,
    Option.map_eq_some_iff]
  apply or_congr
  · exact exists_congr fun id => and_congr_right fun _ => eq_comm
  · apply exists_congr
    intro id
    split
    · next hpass => simp [hpass, eq_comm]
    · next hfail => simp [hfail]

theorem aims_of_traced (h : Run cfg pg w₀ c) (htraced : Traced w₀ c.world c.log) {x : ℕ × Touch}
    (hx : x ∈ c.world.touches) : x.2.Aims c.world.db := by
  obtain ⟨e, he, hact⟩ := htraced.touches x hx
  obtain ⟨tenantId, environment, ⟨v, r, -, htouch⟩, es, hread, hlog⟩ := due_of_run h he hact
  have hrow : Read c.world.db tenantId environment x.2.row := by
    cases hid : x.2.row with
    | device id =>
        rw [hid] at hread
        obtain ⟨deviceId, d, hmem, rfl⟩ := hread
        obtain ⟨e', he', hact'⟩ := hlog _ hmem
        exact htraced.devices e' he' deviceId tenantId environment d hact'
    | user id =>
        rw [hid] at hread
        obtain ⟨userId, u, hmem, rfl⟩ := hread
        obtain ⟨e', he', hact'⟩ := hlog _ hmem
        exact htraced.users e' he' userId tenantId environment u hact'
    | session id =>
        rw [hid] at hread
        cases hread
  have htenant : x.2.tenantText = tenantId := by
    rcases mem_touchesOf.mp htouch with ⟨id, -, heq⟩ | ⟨id, -, -, heq⟩
    · rw [heq]
      rfl
    · rw [heq]
      rfl
  obtain ⟨u, hu, hhas⟩ := hrow
  exact ⟨u, environment, htenant ▸ hu, hhas⟩

theorem traced_ready {w : World} (hready : Ready w) : Traced w w [] := by
  have hnone : ∀ {P : Event sig Failure → Prop}, ∀ e ∈ ([] : List (Event sig Failure)), P e :=
    fun e he => (nomatch he)
  refine ⟨hready.locks, hready.idle, hready.distinct, fun r hr => hr, hnone, ?_, hnone, hnone, ?_,
    hnone, hnone⟩
  · exact fun r hr hfresh => absurd hr hfresh
  · intro x hx
    rw [hready.touches] at hx
    cases hx

theorem traced_of_run (hready : Ready w₀) (h : Run cfg pg w₀ c) : Traced w₀ c.world c.log := by
  refine h.invariant (I := fun c => Traced w₀ c.world c.log) ?_ ?_ ?_ ?_
  · rintro w rfl
    exact traced_ready hready
  · exact fun c a _ ih _ => ih
  · intro c t ω a past o k r w hc ih _ hth hx
    obtain ⟨o', rfl, ho'⟩ := records_of_run hc hth
    exact traced_exec ih ho' hx
  · intro c e w hc ih hg hx
    rcases env_cases ih.idle hx with ⟨i, succeeds, rfl⟩ | ⟨-, hstore, hverifications, htouches⟩
    · obtain rfl : succeeds = true := hg
      obtain ⟨t, touch, w₁, htouch, hrun, rfl⟩ := env_touch hx
      have hmem : (t, touch) ∈ c.world.touches := List.mem_of_getElem? htouch
      obtain ⟨old, new, hold, hstamps, rfl⟩ := runTouch_stamps ih.locks ih.distinct
        (aims_of_traced hc ih hmem) hrun
      exact ih.stamped hold hstamps
    · exact ih.elsewhere hstore hverifications htouches

/-! ## The order of the UPDATEs -/

/-- The UPDATE that a step completes. -/
def completedBy (c : State) : Label Call Oracle Env → List Touch
  | .env (.touch i _) => (c.world.touches[i]?.map Prod.snd).toList
  | _ => []

/-- The UPDATEs that a schedule completes, in their order. -/
def completions (cfg : Config) (pg : Jsonb) (c : State) :
    List (Label Call Oracle Env) → List Touch
  | [] => []
  | l :: ls => completedBy c l ++
      (((platform cfg pg).step c l).map fun c' => completions cfg pg c' ls).getD []

/-- No time goes back. -/
def NotBack (db db' : Db) : Prop :=
  ∀ id s, timeOf db id = some s → ∃ s', timeOf db' id = some s' ∧ s ≤ s'

/-- No step of the schedule takes a time back. -/
def TimesForward (cfg : Config) (pg : Jsonb) (c : State) (ls : List (Label Call Oracle Env)) :
    Prop :=
  (platform cfg pg).Keeps (fun c l => ∀ c', (platform cfg pg).step c l = some c' →
    NotBack c.world.db c'.world.db) c ls

/-- The times of the UPDATEs of one row. -/
def timesFor (id : RowId) (touches : List Touch) : List ℤ :=
  (touches.filter fun touch => touch.row = id).map Touch.time

/-- The UPDATEs of every row come in the order of their times, after the row's own. -/
def InOrder (db : Db) (touches : List Touch) : Prop :=
  ∀ id, ((timeOf db id).toList ++ timesFor id touches).Pairwise (· ≤ ·)

/-- The time of the UPDATE's row is that of the UPDATE; no other changes. -/
def Stamped (db db' : Db) (touch : Touch) : Prop :=
  ∀ id, timeOf db' id = if id = touch.row then some touch.time else timeOf db id

theorem timesFor_cons (id : RowId) (touch : Touch) (touches : List Touch) :
    timesFor id (touch :: touches) =
      if touch.row = id then touch.time :: timesFor id touches else timesFor id touches := by
  unfold timesFor
  rw [List.filter_cons]
  by_cases h : touch.row = id
  · rw [if_pos (decide_eq_true h), if_pos h, List.map_cons]
  · rw [if_neg h, if_neg (by simpa using h)]

theorem inOrder_cons {db db' : Db} {touch : Touch} {touches : List Touch}
    (h : Stamped db db' touch) :
    InOrder db (touch :: touches) ↔ NotBack db db' ∧ InOrder db' touches := by
  -- the UPDATE concerns the times of its own row,
  have hrow : ∀ id, id ≠ touch.row → timeOf db' id = timeOf db id ∧
      timesFor id (touch :: touches) = timesFor id touches := by
    intro id hne
    rw [h id, if_neg hne, timesFor_cons, if_neg fun heq => hne heq.symm]
    exact ⟨rfl, rfl⟩
  -- which is set to the time that it carries
  have hself : timeOf db' touch.row = some touch.time := by
    rw [h touch.row, if_pos rfl]
  have hself' : timesFor touch.row (touch :: touches) =
      touch.time :: timesFor touch.row touches := by
    rw [timesFor_cons, if_pos rfl]
  constructor
  · intro horder
    refine ⟨fun id s hs => ?_, fun id => ?_⟩
    · by_cases hid : id = touch.row
      · subst hid
        refine ⟨touch.time, hself, ?_⟩
        have hall := horder touch.row
        rw [hself', hs, Option.toList_some, List.singleton_append, List.pairwise_cons] at hall
        exact hall.1 _ List.mem_cons_self
      · exact ⟨s, (hrow id hid).1.trans hs, le_refl s⟩
    · by_cases hid : id = touch.row
      · subst hid
        have hall := horder touch.row
        rw [hself'] at hall
        rw [hself]
        exact (List.pairwise_append.mp hall).2.1
      · rw [(hrow id hid).1, ← (hrow id hid).2]
        exact horder id
  · rintro ⟨hback, horder⟩ id
    by_cases hid : id = touch.row
    · subst hid
      have hall := horder touch.row
      rw [hself, Option.toList_some, List.singleton_append] at hall
      rw [hself']
      cases hs : timeOf db touch.row with
      | none => exact hall
      | some s =>
          obtain ⟨s', hs', hle⟩ := hback _ s hs
          obtain rfl := Option.some.inj (hself.symm.trans hs')
          rw [Option.toList_some, List.singleton_append, List.pairwise_cons]
          refine ⟨fun x hx => ?_, hall⟩
          rcases List.mem_cons.mp hx with rfl | hx
          · exact hle
          · exact hle.trans ((List.pairwise_cons.mp hall).1 x hx)
    · rw [(hrow id hid).2, ← (hrow id hid).1]
      exact horder id

/-- The UPDATE has been started. -/
def StartedUpdate (c : State) (touch : Touch) : Prop :=
  ∃ e ∈ c.log, e.act = Act.inl (touchAct touch)

/-- The UPDATE has been started and not completed. -/
def PendingUpdate (c : State) (touch : Touch) : Prop := ∃ t, (t, touch) ∈ c.world.touches

/-- Everything a step can do to the times: it completes an UPDATE, or leaves them alone and
    perhaps starts one. -/
theorem times_of_step (hready : Ready w₀) (h : Run cfg pg w₀ c) {l : Label Call Oracle Env}
    (hl : VerificationsOnly l) (hs : (platform cfg pg).step c l = some c') :
    (completedBy c l = [] ∧ c'.world.db = c.world.db ∧ c.log <+: c'.log ∧
      (∀ touch, PendingUpdate c touch → PendingUpdate c' touch) ∧
      ∀ touch, StartedUpdate c' touch → StartedUpdate c touch ∨ PendingUpdate c' touch) ∨
    ∃ touch, completedBy c l = [touch] ∧ Stamped c.world.db c'.world.db touch ∧ c'.log = c.log ∧
      PendingUpdate c touch ∧
      ∀ touch', PendingUpdate c touch' → touch' = touch ∨ PendingUpdate c' touch' := by
  have htraced := traced_of_run hready h
  obtain ⟨a, rfl, rfl⟩ | ⟨t, ω, a, past, o, k, r, w, rfl, hth, hx, rfl⟩ | ⟨e, w, rfl, hw, rfl⟩ :=
    System.step_cases hs
  · exact .inl ⟨rfl, rfl, List.prefix_refl _, fun _ hp => hp, fun _ hs => .inl hs⟩
  · left
    obtain ⟨o', rfl, ho'⟩ := records_of_run h hth
    -- a resumed call may start an UPDATE, but it completes none
    have hnew : ∀ touch, StartedUpdate (c.answered t a past k r w) touch →
        StartedUpdate c touch ∨ (⟨.inl o', r⟩ : Act sig Failure) = Act.inl (touchAct touch) := by
      rintro touch ⟨e, he, hact⟩
      rcases List.mem_append.mp he with he | he
      · exact .inl ⟨e, he, hact⟩
      · rw [List.mem_singleton.mp he] at hact
        exact .inr hact
    rcases exec_cases ho' hx with hquiet |
      ⟨tenantId, environment, v, row, hact, -, -, -, -, -, rfl⟩ | ⟨touch, hact, rfl⟩
    · refine ⟨rfl, congrArg Store.db hquiet.store, List.prefix_append _ _, ?_, fun touch hs => ?_⟩
      · rintro touch ⟨t', hmem⟩
        exact ⟨t', hquiet.touches ▸ hmem⟩
      · exact (hnew touch hs).imp_right fun hact => absurd hact (hquiet.noTouch touch _)
    · refine ⟨rfl, rfl, List.prefix_append _ _, fun touch hp => hp, fun touch hs => ?_⟩
      refine (hnew touch hs).imp_right fun hact' => ?_
      rw [hact] at hact'
      cases hact'
    · refine ⟨rfl, rfl, List.prefix_append _ _, ?_, fun touch' hs => ?_⟩
      · rintro touch' ⟨t', hmem⟩
        exact ⟨t', List.mem_append_left _ hmem⟩
      · refine (hnew touch' hs).imp_right fun hact' => ?_
        rw [hact] at hact'
        cases hact'
        exact ⟨t, List.mem_append_right _ List.mem_cons_self⟩
  · rcases env_cases htraced.idle hw with ⟨i, succeeds, rfl⟩ | ⟨hne, hstore, -, htouches⟩
    · right
      -- an UPDATE completes: its row is stamped, and it is no longer pending
      obtain rfl : succeeds = true := hl
      obtain ⟨t, touch, w₁, htouch, hrun, rfl⟩ := env_touch hw
      have hmem : (t, touch) ∈ c.world.touches := List.mem_of_getElem? htouch
      obtain ⟨old, new, hold, hstamps, rfl⟩ := runTouch_stamps htraced.locks htraced.distinct
        (aims_of_traced h htraced hmem) hrun
      refine ⟨touch, ?_, fun id => ?_, rfl, ⟨t, hmem⟩, ?_⟩
      · show (c.world.touches[i]?.map Prod.snd).toList = [touch]
        rw [htouch]
        rfl
      · rw [← hstamps.row, ← hstamps.time]
        exact timeOf_update htraced.distinct hold hstamps.id
      · rintro touch' ⟨t', hmem'⟩
        obtain ⟨j, hj⟩ := List.getElem?_of_mem hmem'
        by_cases hij : j = i
        · rw [hij, htouch] at hj
          exact .inl (Prod.mk.inj (Option.some.inj hj)).2.symm
        · exact .inr ⟨t', List.mem_eraseIdx_iff_getElem?.mpr ⟨j, hij, hj⟩⟩
    · left
      refine ⟨?_, congrArg Store.db hstore, List.prefix_refl _, ?_, fun _ hs => .inl hs⟩
      · cases e with
        | touch i succeeds => exact absurd rfl (hne i succeeds)
        | _ => rfl
      · rintro touch ⟨t, hmem⟩
        exact ⟨t, htouches.symm ▸ hmem⟩

theorem run_cons {l : Label Call Oracle Env} {ls : List (Label Call Oracle Env)}
    (hrun : (platform cfg pg).run c (l :: ls) = some c') :
    ∃ c₁, (platform cfg pg).step c l = some c₁ ∧ (platform cfg pg).run c₁ ls = some c' ∧
      completions cfg pg c (l :: ls) = completedBy c l ++ completions cfg pg c₁ ls := by
  obtain ⟨c₁, hs, hrun⟩ := Option.bind_eq_some_iff.mp hrun
  refine ⟨c₁, hs, hrun, ?_⟩
  rw [completions, hs]
  rfl

variable {ls : List (Label Call Oracle Env)}

/-- The times go forward exactly when the UPDATEs come in their order. -/
theorem timesForward_iff (hready : Ready w₀) (h : Run cfg pg w₀ c)
    (hls : ∀ l ∈ ls, VerificationsOnly l) (hrun : (platform cfg pg).run c ls = some c') :
    TimesForward cfg pg c ls ↔ InOrder c.world.db (completions cfg pg c ls) := by
  induction ls generalizing c with
  | nil =>
      refine iff_of_true trivial fun id => ?_
      show ((timeOf c.world.db id).toList ++ []).Pairwise (· ≤ ·)
      rw [List.append_nil]
      cases timeOf c.world.db id with
      | none => exact List.Pairwise.nil
      | some s => exact List.pairwise_singleton _ s
  | cons l ls ih =>
      obtain ⟨c₁, hs, hrun₁, hcompletions⟩ := run_cons hrun
      have hl := hls l List.mem_cons_self
      have hrest := ih (h.step hl hs) (fun l hl => hls l (List.mem_cons_of_mem _ hl)) hrun₁
      -- the run has one successor, so both sides split off their first step
      have hkeeps : TimesForward cfg pg c (l :: ls) ↔
          NotBack c.world.db c₁.world.db ∧ TimesForward cfg pg c₁ ls := by
        constructor
        · rintro ⟨hback, htail⟩
          exact ⟨hback c₁ hs, htail c₁ hs⟩
        · rintro ⟨hback, htail⟩
          refine ⟨fun c₂ hs₂ => ?_, fun c₂ hs₂ => ?_⟩
          · obtain rfl := Option.some.inj (hs.symm.trans hs₂)
            exact hback
          · obtain rfl := Option.some.inj (hs.symm.trans hs₂)
            exact htail
      rw [hkeeps, hcompletions, hrest]
      rcases times_of_step hready h hl hs with ⟨hnone, hdb, -⟩ | ⟨touch, hone, hstamped, -⟩
      · rw [hnone, hdb, List.nil_append]
        exact and_iff_right fun id s hs => ⟨s, hs, le_refl s⟩
      · rw [hone, List.singleton_append]
        exact (inOrder_cons hstamped).symm

/-- The time of a row is that of the UPDATE of it that came last. -/
theorem timeOf_run (hready : Ready w₀) (h : Run cfg pg w₀ c) (hls : ∀ l ∈ ls, VerificationsOnly l)
    (hrun : (platform cfg pg).run c ls = some c') (id : RowId) :
    timeOf c'.world.db id =
      ((timeOf c.world.db id).toList ++ timesFor id (completions cfg pg c ls)).getLast? := by
  induction ls generalizing c with
  | nil =>
      obtain rfl := Option.some.inj hrun
      show _ = ((timeOf c.world.db id).toList ++ []).getLast?
      rw [List.append_nil]
      cases timeOf c.world.db id <;> rfl
  | cons l ls ih =>
      obtain ⟨c₁, hs, hrun₁, hcompletions⟩ := run_cons hrun
      have hl := hls l List.mem_cons_self
      rw [ih (h.step hl hs) (fun l hl => hls l (List.mem_cons_of_mem _ hl)) hrun₁, hcompletions]
      rcases times_of_step hready h hl hs with ⟨hnone, hdb, -⟩ | ⟨touch, hone, hstamped, -⟩
      · rw [hnone, hdb, List.nil_append]
      · rw [hone, List.singleton_append, timesFor_cons, hstamped id]
        by_cases hid : id = touch.row
        · rw [if_pos hid, if_pos hid.symm, Option.toList_some, List.singleton_append,
            List.getLast?_append_of_ne_nil _ (List.cons_ne_nil _ _)]
        · rw [if_neg hid, if_neg fun heq => hid heq.symm]

/-- A pending UPDATE stays so until it is completed. -/
theorem completed_of_pending (hready : Ready w₀) (h : Run cfg pg w₀ c)
    (hls : ∀ l ∈ ls, VerificationsOnly l) (hrun : (platform cfg pg).run c ls = some c')
    {touch : Touch} (hp : PendingUpdate c touch) :
    touch ∈ completions cfg pg c ls ∨ PendingUpdate c' touch := by
  induction ls generalizing c with
  | nil =>
      obtain rfl := Option.some.inj hrun
      exact .inr hp
  | cons l ls ih =>
      obtain ⟨c₁, hs, hrun₁, hcompletions⟩ := run_cons hrun
      have hl := hls l List.mem_cons_self
      have hrest := ih (h.step hl hs) (fun l hl => hls l (List.mem_cons_of_mem _ hl)) hrun₁
      rw [hcompletions]
      rcases times_of_step hready h hl hs with ⟨-, -, -, hkeep, -⟩ | ⟨done, hone, -, -, -, hkeep⟩
      · exact (hrest (hkeep touch hp)).imp_left (List.mem_append_right _)
      · rcases hkeep touch hp with rfl | hp
        · rw [hone]
          exact .inl (List.mem_append_left _ List.mem_cons_self)
        · exact (hrest hp).imp_left (List.mem_append_right _)

/-- An UPDATE that is started during the run is completed or pending at its end. -/
theorem completed_of_started (hready : Ready w₀) (h : Run cfg pg w₀ c)
    (hls : ∀ l ∈ ls, VerificationsOnly l) (hrun : (platform cfg pg).run c ls = some c')
    {touch : Touch} (hs : StartedUpdate c' touch) :
    StartedUpdate c touch ∨ touch ∈ completions cfg pg c ls ∨ PendingUpdate c' touch := by
  induction ls generalizing c with
  | nil =>
      obtain rfl := Option.some.inj hrun
      exact .inl hs
  | cons l ls ih =>
      obtain ⟨c₁, hstep, hrun₁, hcompletions⟩ := run_cons hrun
      have hl := hls l List.mem_cons_self
      have hls₁ : ∀ l ∈ ls, VerificationsOnly l := fun l hl => hls l (List.mem_cons_of_mem _ hl)
      rw [hcompletions]
      rcases ih (h.step hl hstep) hls₁ hrun₁ with hs | hdone | hp
      · rcases times_of_step hready h hl hstep with ⟨-, -, -, -, hnew⟩ | ⟨done, -, -, hlog, -, -⟩
        · rcases hnew touch hs with hs | hp
          · exact .inl hs
          · right
            exact (completed_of_pending hready (h.step hl hstep) hls₁ hrun₁ hp).imp_left
              (List.mem_append_right _)
        · left
          obtain ⟨e, he, hact⟩ := hs
          exact ⟨e, hlog ▸ he, hact⟩
      · exact .inr (.inl (List.mem_append_right _ hdone))
      · exact .inr (.inr hp)

/-- What is completed has been started. -/
theorem started_of_completed (hready : Ready w₀) (h : Run cfg pg w₀ c)
    (hls : ∀ l ∈ ls, VerificationsOnly l) (hrun : (platform cfg pg).run c ls = some c')
    {touch : Touch} (hdone : StartedUpdate c touch ∨ touch ∈ completions cfg pg c ls) :
    StartedUpdate c' touch := by
  induction ls generalizing c with
  | nil =>
      obtain rfl := Option.some.inj hrun
      exact hdone.resolve_right List.not_mem_nil
  | cons l ls ih =>
      obtain ⟨c₁, hs, hrun₁, hcompletions⟩ := run_cons hrun
      have hl := hls l List.mem_cons_self
      have hlog : c.log <+: c₁.log := by
        rcases times_of_step hready h hl hs with ⟨-, -, hlog, -⟩ | ⟨done, -, -, hlog, -⟩
        · exact hlog
        · rw [hlog]
      have hmono : StartedUpdate c touch → StartedUpdate c₁ touch := by
        rintro ⟨e, he, hact⟩
        exact ⟨e, hlog.subset he, hact⟩
      apply ih (h.step hl hs) (fun l hl => hls l (List.mem_cons_of_mem _ hl)) hrun₁
      rw [hcompletions, List.mem_append] at hdone
      rcases hdone with hstarted | hdone | hdone
      · exact .inl (hmono hstarted)
      · rcases times_of_step hready h hl hs with ⟨hnone, -⟩ | ⟨done, hone, -, -, ⟨t, hmem⟩, -⟩
        · rw [hnone] at hdone
          cases hdone
        · rw [hone] at hdone
          obtain rfl := List.mem_singleton.mp hdone
          exact .inl (hmono ((traced_of_run hready h).touches _ hmem))
      · exact .inr hdone

/-! ## What the events say -/

/-- The event names the row: its device, or its user if it is a pass. -/
def VerificationRecord.Stamps (r : VerificationRecord) : RowId → Prop
  | .device id => r.deviceId = some id
  | .user id => r.userId = some id ∧ r.result = .pass
  | .session _ => False

/-- The event was recorded in the run from `w₀`. -/
def NewEvent (w₀ : World) (c : State) (r : VerificationRecord) : Prop :=
  r ∈ c.world.verifications ∧ r ∉ w₀.verifications

/-- The time of the row before the run, and those of the events that name it. -/
def candidates (w₀ : World) (c : State) (id : RowId) : Set ℤ :=
  {s | timeOf w₀.db id = some s ∨ ∃ r, NewEvent w₀ c r ∧ r.Stamps id ∧ r.occurredAt = s}

/-- Every time is the greatest there was. -/
def Latest (w₀ : World) (c : State) : Prop :=
  ∀ id, (timeOf c.world.db id = none → candidates w₀ c id = ∅) ∧
    ∀ s, timeOf c.world.db id = some s → IsGreatest (candidates w₀ c id) s

/-- Every call has ended and every UPDATE is done. -/
def Settled (c : State) : Prop :=
  c.world.touches = [] ∧ ∀ th ∈ c.threads, th.rest.outcome?.isSome

theorem event_of_started (hready : Ready w₀) (h : Run cfg pg w₀ c) {touch : Touch}
    (hs : StartedUpdate c touch) :
    ∃ r, NewEvent w₀ c r ∧ r.Stamps touch.row ∧ r.occurredAt = touch.time := by
  have htraced := traced_of_run hready h
  obtain ⟨e, he, hact⟩ := hs
  obtain ⟨tenantId, environment, ⟨v, r, ⟨e', he', hact'⟩, htouch⟩, -⟩ := due_of_run h he hact
  have hinserted := htraced.inserted e' he' tenantId environment v r hact'
  refine ⟨r, ⟨hinserted.mem, hinserted.fresh⟩, ?_⟩
  rcases mem_touchesOf.mp htouch with ⟨id, hid, rfl⟩ | ⟨id, hid, hpass, rfl⟩
  · exact ⟨hinserted.deviceId.trans hid, hinserted.occurredAt⟩
  · exact ⟨⟨hinserted.userId.trans hid, hinserted.result.trans hpass⟩, hinserted.occurredAt⟩

/-- Once all calls have ended, every event has started its UPDATEs. -/
theorem started_of_event (hready : Ready w₀) (h : Run cfg pg w₀ c) (hsettled : Settled c)
    {r : VerificationRecord} (hr : NewEvent w₀ c r) {id : RowId} (hstamps : r.Stamps id) :
    ∃ touch, StartedUpdate c touch ∧ touch.row = id ∧ touch.time = r.occurredAt := by
  have htraced := traced_of_run hready h
  obtain ⟨e, he, tenantId, environment, v, hact⟩ := htraced.logged r hr.1 hr.2
  have hinserted := htraced.inserted e he tenantId environment v r hact
  obtain ⟨th, hth, hpast⟩ := h.exists_thread he
  obtain ⟨tenantId', environment', apiKeyId, input, hcall⟩ := call_of_run h hth
  -- a call that has ended has started the UPDATEs of its row, or had an answer of another service
  have hends : Prog.Ends (fun (es : List (Act sig Failure)) (_ : Except Failure Result) =>
      (∃ es₀ : List (Act recordSig RecordFailure), es = es₀.map Act.inl ∧ Started es₀) ∨
      ∃ (o : recordSig.Op) (err : Pairing.Failure),
        (⟨.inl o, .error (.inr err)⟩ : Act sig Failure) ∈ es) (code cfg th.call) := by
    rw [hcall]
    apply Prog.Ends.bind (Prog.Ends.lift ends_createVerificationEvent)
    · rintro es a (⟨es₀, out₀, rfl, -, hstarted⟩ | ⟨o, err, -, hout⟩)
      · exact .inl ⟨es₀, List.append_nil _, hstarted⟩
      · cases hout
    · rintro es e (⟨es₀, out₀, rfl, -, hstarted⟩ | ⟨o, err, hmem, -⟩)
      · exact .inl ⟨es₀, rfl, hstarted⟩
      · exact .inr ⟨o, err, hmem⟩
  -- every call has ended
  obtain ⟨out, hout⟩ := Option.isSome_iff_exists.mp (hsettled.2 th (List.mem_of_getElem? hth))
  have hlog : ∀ x ∈ th.past, ∃ e ∈ c.log, e.act = x := fun x hx =>
    ⟨_, (h.mem_log hth).mp hx, rfl⟩
  rcases h.ends hth hends hout with ⟨es, hes, hstarted⟩ | ⟨o, err, hmem⟩
  · rw [hes] at hpast hlog
    rw [hact] at hpast
    have hinsert := (List.mem_map_of_injective Act.inl_injective).mp hpast
    -- an UPDATE that is not awaited is never answered with an error
    have hok : ∀ touch (answer : Except RecordFailure Unit),
        (⟨.inr (.touch touch), answer⟩ : Act recordSig RecordFailure) ∈ es → answer = .ok () := by
      intro touch answer hmem
      obtain ⟨e', he', hact'⟩ := hlog _ (List.mem_map_of_mem hmem)
      have hanswer := htraced.answers e' he' touch (answer.mapError .inl) hact'
      cases answer with
      | error err => cases hanswer
      | ok a => rfl
    have htouches := hstarted tenantId environment v r hinsert hok
    have hstart : ∀ touch ∈ touchesOf tenantId v, StartedUpdate c touch := fun touch htouch =>
      hlog _ (List.mem_map_of_mem (htouches touch htouch))
    cases id with
    | device id =>
        refine ⟨.device id tenantId v.occurredAt, hstart _ (mem_touchesOf.mpr (.inl ⟨id, ?_, rfl⟩)),
          rfl, hinserted.occurredAt.symm⟩
        exact hinserted.deviceId.symm.trans hstamps
    | user id =>
        refine ⟨.user id tenantId v.occurredAt,
          hstart _ (mem_touchesOf.mpr (.inr ⟨id, ?_, ?_, rfl⟩)), rfl, hinserted.occurredAt.symm⟩
        · exact hinserted.userId.symm.trans hstamps.1
        · exact hinserted.result.symm.trans hstamps.2
    | session id => cases hstamps
  · obtain ⟨e', he', hact'⟩ := hlog _ hmem
    exact absurd hact' (htraced.foreign e' he' o err)

/-- The last of a sorted list is its greatest element. -/
theorem isGreatest_getLast {l : List ℤ} (h : l.Pairwise (· ≤ ·)) {s : ℤ}
    (hs : l.getLast? = some s) : IsGreatest {x | x ∈ l} s := by
  obtain ⟨front, rfl⟩ := List.getLast?_eq_some_iff.mp hs
  refine ⟨List.mem_append_right _ List.mem_cons_self, fun x hx => ?_⟩
  rcases List.mem_append.mp hx with hx | hx
  · exact (List.pairwise_append.mp h).2.2 x hx s List.mem_cons_self
  · rw [List.mem_singleton.mp hx]

variable {ls : List (Label Call Oracle Env)}

/-- What a finished run has done to a row: its candidates are the time it began with and those of
    its UPDATEs. -/
theorem candidates_eq (hready : Ready w₀) (hls : ∀ l ∈ ls, VerificationsOnly l)
    (hrun : (platform cfg pg).run (.init w₀) ls = some c) (hsettled : Settled c) (id : RowId) :
    candidates w₀ c id =
      {s | s ∈ (timeOf w₀.db id).toList ++ timesFor id (completions cfg pg (.init w₀) ls)} := by
  have hinit : Run cfg pg w₀ (.init w₀) := .init rfl
  have hreach : Run cfg pg w₀ c :=
    hinit.run (System.keeps_of_forall fun _ l hl => hls l hl) hrun
  ext s
  show (timeOf w₀.db id = some s ∨ ∃ r, NewEvent w₀ c r ∧ r.Stamps id ∧ r.occurredAt = s) ↔
    s ∈ (timeOf w₀.db id).toList ++ timesFor id (completions cfg pg (.init w₀) ls)
  rw [List.mem_append, Option.mem_toList]
  apply or_congr_right
  constructor
  · rintro ⟨r, hr, hstamps, rfl⟩
    obtain ⟨touch, hstarted, rfl, htime⟩ := started_of_event hready hreach hsettled hr hstamps
    rcases completed_of_started hready hinit hls hrun hstarted with ⟨e, he, -⟩ | hdone | ⟨t, hmem⟩
    · cases he
    · exact List.mem_map.mpr ⟨touch, List.mem_filter.mpr ⟨hdone, decide_eq_true rfl⟩, htime⟩
    · rw [hsettled.1] at hmem
      cases hmem
  · intro hs
    obtain ⟨touch, hmem, rfl⟩ := List.mem_map.mp hs
    obtain ⟨hdone, hrow⟩ := List.mem_filter.mp hmem
    have hstarted := started_of_completed hready hinit hls hrun (.inr hdone)
    obtain ⟨r, hr, hstamps, htime⟩ := event_of_started hready hreach hstarted
    exact ⟨r, hr, of_decide_eq_true hrow ▸ hstamps, htime⟩

/-- In a run of `createVerificationEvent` calls whose UPDATEs have all been completed, no time has
    gone back and every time is the greatest of the events exactly when the UPDATEs of every row
    were completed in the order of their times, after the row's time before the run. -/
theorem times_latest_iff (hready : Ready w₀) (hls : ∀ l ∈ ls, VerificationsOnly l)
    (hrun : (platform cfg pg).run (.init w₀) ls = some c) (hsettled : Settled c) :
    (TimesForward cfg pg (.init w₀) ls ∧ Latest w₀ c) ↔
      InOrder w₀.db (completions cfg pg (.init w₀) ls) := by
  have hinit : Run cfg pg w₀ (.init w₀) := .init rfl
  have hforward := timesForward_iff hready hinit hls hrun
  constructor
  · exact fun h => hforward.mp h.1
  · intro horder
    refine ⟨hforward.mpr horder, fun id => ?_⟩
    rw [timeOf_run hready hinit hls hrun id, candidates_eq hready hls hrun hsettled id]
    constructor
    · intro hnone
      have hnil : (timeOf w₀.db id).toList ++ timesFor id (completions cfg pg (.init w₀) ls) = [] :=
        List.getLast?_eq_none_iff.mp hnone
      rw [hnil, Set.eq_empty_iff_forall_notMem]
      exact fun s hs => (nomatch (show s ∈ ([] : List ℤ) from hs))
    · intro s hs
      exact isGreatest_getLast (horder id) hs

end Runs

/-! ## A late report -/

def lateText : JsString := js "1970-01-01T00:00:00.500Z"

/-- Reads the one date of the runs below. -/
def lateSettings : Config :=
  { settings with tenant :=
    { Tenant.settings with parseDate := fun text => if text = lateText then some 500 else none } }

def verified : TenantUser :=
  { id := .ofNat 2
    tenantId := .ofNat 0x6ba7b8109dad11d180b400c04fd430c8
    environment := js "live"
    externalId := js "asha"
    fullName := js "Asha"
    email := none
    phone := none
    employeeCode := none
    status := js "active"
    primaryDeviceId := none
    did := none
    commitment := none
    metadata := .obj []
    lastVerifiedAt := none
    createdAt := 0
    updatedAt := 0 }

/-- One user, never verified. -/
def oneUser : World :=
  { initial with tenant := { Tenant.initial with store := .init [.user verified] } }

theorem ready_oneUser : Ready oneUser := by
  refine ⟨fun _ => rfl, fun _ => rfl, ⟨List.nodup_singleton _, fun x hx y hy n _ _ => ?_⟩, rfl⟩
  rw [List.mem_singleton.mp hx, List.mem_singleton.mp hy]

/-- User 2 passes, with or without a time of its own, and the UPDATE is completed. -/
def verifying (t : ℕ) (id : Uuid) (occurredAt : Option JsString) :
    List (Label Call Oracle Env) :=
  .start (.verification tenantText (js "live") (uuidText 9)
      ⟨some (uuidText 2), none, .zkp, .pass, none, none, none, none, occurredAt⟩) ::
    (if occurredAt.isSome then [] else [.resume t {}]) ++
    [.resume t {}, .resume t { tenant := { uuid := id } }, .resume t {}, .resume t {},
      .env (.touch 0 true)]

theorem verificationsOnly_verifying {t : ℕ} {id : Uuid} {occurredAt : Option JsString} :
    ∀ l ∈ verifying t id occurredAt, VerificationsOnly l := by
  unfold verifying
  split <;> simp [VerificationsOnly]

def isSettled (c : State) : Bool :=
  c.world.touches.isEmpty && c.threads.all fun th => th.rest.outcome?.isSome

theorem settled_of_isSettled {c : State} (h : isSettled c = true) : Settled c := by
  rw [isSettled, Bool.and_eq_true, List.isEmpty_iff, List.all_eq_true] at h
  exact h

/-- UPDATEs that come in the order of their times, for rows without one. -/
theorem inOrder_of_pairwise {db : Db} {touches : List Touch} (hnone : ∀ id, timeOf db id = none)
    (h : (touches.map Touch.time).Pairwise (· ≤ ·)) : InOrder db touches := by
  intro id
  rw [hnone id, Option.toList_none, List.nil_append]
  exact h.sublist (List.filter_sublist.map _)

/-- The earlier event is reported first. -/
def reportsInTime : List (Label Call Oracle Env) :=
  verifying 0 ⟨4, by decide⟩ (some lateText) ++ verifying 1 ⟨5, by decide⟩ none

/-- Two events in the order of their times leave the later one. -/
theorem times_latest_of_two : ∃ c : State,
    (platform lateSettings jsonb).run (.init oneUser) reportsInTime = some c ∧
      timeOf c.world.db (.user ⟨2, by decide⟩) = some 1000 ∧
      TimesForward lateSettings jsonb (.init oneUser) reportsInTime ∧ Latest oneUser c := by
  have hrun : (((platform lateSettings jsonb).run (.init oneUser) reportsInTime).map fun c =>
      (isSettled c, timeOf c.world.db (.user ⟨2, by decide⟩))) = some (true, some 1000) := by
    decide +kernel
  have htimes : (completions lateSettings jsonb (.init oneUser) reportsInTime).map Touch.time =
      [500, 1000] := by
    decide +kernel
  obtain ⟨c, hc, hends⟩ := Option.map_eq_some_iff.mp hrun
  obtain ⟨hsettled, htime⟩ := Prod.mk.inj hends
  have hnone : ∀ id, timeOf oneUser.db id = none := by
    intro id
    show (([Row.user verified] : Db).find? fun r => r.id = id).bind rowTime = none
    rw [List.find?_singleton]
    split <;> rfl
  have horder : InOrder oneUser.db (completions lateSettings jsonb (.init oneUser) reportsInTime) := by
    refine inOrder_of_pairwise hnone ?_
    rw [htimes]
    decide
  exact ⟨c, hc, htime, (times_latest_iff ready_oneUser (fun l hl => (List.mem_append.mp hl).elim
    (verificationsOnly_verifying l) (verificationsOnly_verifying l)) hc
      (settled_of_isSettled hsettled)).mpr horder⟩

/-- A report of an earlier event takes the time back. -/
theorem late_report : ¬ ∀ (cfg : Config) (pg : Jsonb) (w₀ : World) (c : State)
    (ls : List (Label Call Oracle Env)), Ready w₀ → (∀ l ∈ ls, VerificationsOnly l) →
      (platform cfg pg).run (.init w₀) ls = some c → Settled c →
      TimesForward cfg pg (.init w₀) ls ∧ Latest w₀ c := by
  intro h
  have hrun : (((platform lateSettings jsonb).run (.init oneUser)
      (verifying 0 ⟨4, by decide⟩ none ++ verifying 1 ⟨5, by decide⟩ (some lateText))).map fun c =>
      isSettled c && decide (timeOf c.world.db (.user ⟨2, by decide⟩) = some 500 ∧
        ∃ r ∈ c.world.verifications, r.userId = some ⟨2, by decide⟩ ∧ r.result = .pass ∧
          r.occurredAt = 1000)) = some true := by
    decide +kernel
  obtain ⟨c, hc, hends⟩ := Option.map_eq_some_iff.mp hrun
  obtain ⟨hsettled, hends⟩ := Bool.and_eq_true_iff.mp hends
  obtain ⟨htime, r, hr, huser, hpass, hoccurred⟩ := of_decide_eq_true hends
  obtain ⟨-, hlatest⟩ := h lateSettings jsonb oneUser c _ ready_oneUser
    (fun l hl => (List.mem_append.mp hl).elim (verificationsOnly_verifying l)
      (verificationsOnly_verifying l)) hc (settled_of_isSettled hsettled)
  have hle := ((hlatest _).2 500 htime).2 (.inr ⟨r, ⟨hr, fun hold => nomatch hold⟩,
    ⟨huser, hpass⟩, hoccurred⟩)
  exact absurd hle (by decide)

end ZeroAuth.Records
