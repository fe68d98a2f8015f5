/-
  ZeroAuth.Records.Touches

  The UPDATEs that `createVerificationEvent` starts and does not await.

    * `runTouch_stamps` — run while nothing is locked, an UPDATE sets the time of its
      row and changes nothing else;
    * `before_createVerificationEvent` — it is started after the INSERT, for a row that
      the call has read;
    * `ends_createVerificationEvent` — a call that has ended has started those of its
      verification, unless one of them could not be started.
-/

import ZeroAuth.Records.Attendance
import ZeroAuth.Records.Scopes

namespace ZeroAuth.Records

open ZeroAuth.Lib ZeroAuth.Js ZeroAuth.Pg ZeroAuth.Tenant
open ZeroAuth.Audit (ofNullable)

/-! ## The time of a row -/

/-- `last_seen_at` of a device, `last_verified_at` of a user. -/
def rowTime : Row → Option ℤ
  | .device d => d.lastSeenAt
  | .session _ => none
  | .user u => u.lastVerifiedAt

def timeOf (db : Db) (id : RowId) : Option ℤ := (db.find? fun r => r.id = id).bind rowTime

namespace Touch

def row : Touch → RowId
  | device id _ _ => .device id
  | user id _ _ => .user id

def time : Touch → ℤ
  | device _ _ occurredAt => occurredAt
  | user _ _ occurredAt => occurredAt

def tenantText : Touch → JsString
  | device _ tenantId _ => tenantId
  | user _ tenantId _ => tenantId

end Touch

theorem exists_find {α : Type} {l : List α} {p : α → Prop} [DecidablePred p] {x : α} (hx : x ∈ l)
    (hp : p x) : ∃ y ∈ l, p y ∧ l.find? (fun x => p x) = some y := by
  have hsome : (l.find? fun x => p x).isSome := by
    rw [List.find?_isSome]
    exact ⟨x, hx, decide_eq_true hp⟩
  obtain ⟨y, hy⟩ := Option.isSome_iff_exists.mp hsome
  have hpy : decide (p y) = true := @List.find?_some _ (fun x => decide (p x)) _ _ hy
  exact ⟨y, List.mem_of_find?_eq_some hy, of_decide_eq_true hpy, hy⟩

section Rows

variable {db : Db} {old new : Row} {id : RowId} {u : Uuid}

theorem timeOf_update (hd : tables.Distinct db) (hold : old ∈ db) (hid : new.id = old.id) :
    timeOf (tables.apply db (.update old new)) id =
      if id = old.id then rowTime new else timeOf db id := by
  -- the UPDATE keeps the ids, so the lookup finds the row before it
  have hkeep : ∀ r : Row, (if tables.Hits old r then new else r).id = r.id := by
    intro r
    split
    · next hit => exact hid.trans hit.1.symm
    · rfl
  have hfind : (tables.apply db (.update old new)).find? (fun r => r.id = id) =
      (db.find? fun r => r.id = id).map fun r => if tables.Hits old r then new else r := by
    show (db.map _).find? _ = _
    rw [List.find?_map]
    congr 2
    funext r
    exact congrArg (fun i => decide (i = id)) (hkeep r)
  unfold timeOf
  rw [hfind]
  split
  · next heq =>
      have hfound : db.find? (fun r => r.id = id) = some old := by
        obtain ⟨r, hr, hrid, hfound⟩ := exists_find (p := fun r => r.id = id) hold heq.symm
        rw [hfound, hd.unique hr hold (hrid.trans heq)]
      rw [hfound]
      show rowTime (if tables.Hits old old then new else old) = _
      rw [if_pos ⟨rfl, rfl⟩]
  · next hne =>
      cases hr : db.find? fun r => r.id = id with
      | none => rfl
      | some r =>
          have hrid : decide (r.id = id) = true :=
            @List.find?_some Row (fun r => decide (r.id = id)) _ _ hr
          show rowTime (if tables.Hits old r then new else r) = rowTime r
          rw [if_neg fun hit => hne ((of_decide_eq_true hrid).symm.trans hit.1)]

/-- The SET clause of an UPDATE. -/
structure Restamps (touch : Touch) (old new : Row) : Prop where
  id : new.id = old.id
  names : tables.names new = tables.names old
  scope : scope new = scope old
  row : old.id = touch.row
  time : rowTime new = some touch.time

theorem Restamps.fits {touch : Touch} (h : Restamps touch old new) (hd : tables.Distinct db)
    (hold : old ∈ db) : tables.Fits db (.update old new) := by
  refine ⟨hold, h.id, fun x hx n hn hnx => ?_⟩
  rw [h.names] at hn
  exact hd.names x hx old hold n hnx hn

theorem Restamps.not_clashes {touch : Touch} (h : Restamps touch old new)
    (hd : tables.Distinct db) (hold : old ∈ db) :
    tables.clashes db (.update old new) = false := by
  have hfits := h.fits hd hold
  rw [Keyed.clashes, List.any_eq_false]
  intro x hx hclash
  obtain ⟨hne, n, hn, hnx⟩ := of_decide_eq_true hclash
  exact hne (hfits.2.2 x hx n hn hnx)

/-- The row that an UPDATE is for is there. -/
def Touch.Aims (touch : Touch) (db : Db) : Prop :=
  ∃ u env, Uuid.parse touch.tenantText = some u ∧ Has db touch.row (u, env)

theorem answer_of_aims {touch : Touch} {now : ℕ} (h : touch.Aims db) :
    ∃ old new, touch.answer db now = some (.update old new) ∧ old ∈ db ∧
      Restamps touch old new := by
  obtain ⟨u, env, hu, r, hr, hid, hscope⟩ := h
  cases touch with
  | device id tenantId occurredAt =>
      cases r with
      | device d =>
          have hd' : d ∈ Db.devices db := mem_devices.mpr hr
          obtain ⟨rfl⟩ := RowId.device.inj hid
          -- the row that it aims at is there to be found
          obtain ⟨x, hx, ⟨hxid, -⟩, hfound⟩ := exists_find
            (p := fun x => x.id = d.id ∧ x.tenantId = u) hd' ⟨rfl, congrArg Prod.fst hscope⟩
          refine ⟨.device x, .device (seen occurredAt now x), ?_,
            mem_devices.mp hx, rfl, rfl, rfl, congrArg _ hxid, rfl⟩
          show (Uuid.parse tenantId).bind _ = _
          rw [show Uuid.parse tenantId = some u from hu]
          show (Answer.update .device (Db.devices db) _ _).write = _
          unfold Answer.update
          rw [hfound]
      | session s => cases hid
      | user v => cases hid
  | user id tenantId occurredAt =>
      cases r with
      | user v =>
          have hv' : v ∈ Db.users db := mem_users.mpr hr
          obtain ⟨rfl⟩ := RowId.user.inj hid
          obtain ⟨x, hx, ⟨hxid, -⟩, hfound⟩ := exists_find
            (p := fun x => x.id = v.id ∧ x.tenantId = u) hv' ⟨rfl, congrArg Prod.fst hscope⟩
          refine ⟨.user x, .user (verifiedAt occurredAt now x), ?_,
            mem_users.mp hx, rfl, rfl, rfl, congrArg _ hxid, rfl⟩
          show (Uuid.parse tenantId).bind _ = _
          rw [show Uuid.parse tenantId = some u from hu]
          show (Answer.update .user (Db.users db) _ _).write = _
          unfold Answer.update
          rw [hfound]
      | session s => cases hid
      | device d => cases hid

/-- An UPDATE that runs while nothing is locked stamps its row, and does nothing else. -/
theorem runTouch_stamps {w w' : World} {t : ℕ} {touch : Touch}
    (hlocks : ∀ k, w.tenant.store.locks k = none) (hd : tables.Distinct w.db) (h : touch.Aims w.db)
    (hrun : w.runTouch t touch = some w') :
    ∃ old new, old ∈ w.db ∧ Restamps touch old new ∧
      w' = { w with tenant :=
        w.tenant.setStore (w.tenant.store.autocommit tables.apply t (.update old new)) } := by
  obtain ⟨old, new, hanswer, hold, hstamps⟩ : ∃ old new,
      touch.answer w.db w.tenant.clock = some (.update old new) ∧ old ∈ w.db ∧
        Restamps touch old new := answer_of_aims h
  unfold World.runTouch at hrun
  rw [hanswer] at hrun
  obtain ⟨⟨r, tenant⟩, hpool, rfl⟩ := Option.map_eq_some_iff.mp hrun
  have hfree : (tables.keys (.update old new)).all (fun k => w.tenant.store.locks k = none) := by
    rw [List.all_eq_true]
    exact fun k _ => decide_eq_true (hlocks k)
  have hclash : tables.clashes w.tenant.store.db (.update old new) = false :=
    hstamps.not_clashes hd hold
  simp only [Tenant.World.runPool, hfree, if_true, hclash, Bool.false_eq_true, if_false] at hpool
  obtain ⟨-, rfl⟩ := Prod.mk.inj (Option.some.inj hpool)
  exact ⟨old, new, hold, hstamps, rfl⟩

/-- Rows keep their scopes. -/
theorem has_restamped {touch : Touch} {sc : Scope} (hd : tables.Distinct db) (hold : old ∈ db)
    (hstamps : Restamps touch old new) (h : Has db id sc) :
    Has (tables.apply db (.update old new)) id sc := by
  obtain ⟨r, hr, hid, hscope⟩ := h
  have hmem := fun r => Keyed.mem_update_of_fits hd (hstamps.fits hd hold) (r := r)
  by_cases heq : r.id = old.id
  · have hsame := hd.unique hr hold heq
    refine ⟨new, (hmem new).mpr (.inl rfl), ?_, ?_⟩
    · rw [hstamps.id, ← heq, hid]
    · rw [hstamps.scope, ← hsame, hscope]
  · exact ⟨r, (hmem r).mpr (.inr ⟨hr, heq⟩), hid, hscope⟩

end Rows

/-! ## What the program does -/

/-- The answered INSERT of a verification. -/
abbrev insertAct (tenantId environment : JsString) (v : NewVerification) (r : VerificationRecord) :
    Act recordSig RecordFailure :=
  ⟨.inr (.insertVerification tenantId environment v), .ok r⟩

abbrev touchAct (touch : Touch) : Act recordSig RecordFailure := ⟨.inr (.touch touch), .ok ()⟩

abbrev userAct (userId tenantId environment : JsString) (user : TenantUser) :
    Act recordSig RecordFailure :=
  ⟨.inr (.selectUser userId tenantId environment), .ok (some user)⟩

abbrev deviceAct (deviceId tenantId environment : JsString) (device : Device) :
    Act recordSig RecordFailure :=
  ⟨.inl (.pool (.selectDevice deviceId tenantId environment)), .ok (some device)⟩

/-- The UPDATEs that follow the INSERT of `v`. -/
def touchesOf (tenantId : JsString) (v : NewVerification) : List Touch :=
  (v.deviceId.map fun id => .device id tenantId v.occurredAt).toList ++
    ((if v.result = .pass then v.userId else none).map fun id =>
      .user id tenantId v.occurredAt).toList

/-- The history has read the row that is to be touched. -/
def HasRead (tenantId environment : JsString) (es : List (Act recordSig RecordFailure)) :
    RowId → Prop
  | .device id => ∃ deviceId d, deviceAct deviceId tenantId environment d ∈ es ∧ d.id = id
  | .user id => ∃ userId u, userAct userId tenantId environment u ∈ es ∧ u.id = id
  | .session _ => False

theorem HasRead.mono {tenantId environment : JsString} {es es' : List (Act recordSig RecordFailure)}
    {id : RowId} (h : HasRead tenantId environment es id) (hes : ∀ x ∈ es, x ∈ es') :
    HasRead tenantId environment es' id := by
  cases id with
  | device id =>
      obtain ⟨deviceId, d, hmem, hid⟩ := h
      exact ⟨deviceId, d, hes _ hmem, hid⟩
  | user id =>
      obtain ⟨userId, u, hmem, hid⟩ := h
      exact ⟨userId, u, hes _ hmem, hid⟩
  | session id => cases h

section Program

variable {cfg : Settings} {tenantId environment apiKeyId : JsString} {α : Type}

theorem ends_requireUser {userId : JsString} :
    Prog.Ends (fun es out => ∀ u, out = .ok u → HasRead tenantId environment es (.user u.id))
      (requireUser tenantId environment userId) := by
  apply Prog.ends_perform_bind.mpr
  refine ⟨fun found => ?_, fun e u hu => (nomatch hu)⟩
  cases found with
  | none => exact fun u hu => (nomatch hu)
  | some user =>
      intro u hu
      obtain rfl := Except.ok.inj hu
      exact ⟨userId, user, List.mem_cons_self, rfl⟩

theorem ends_findUser {userId : Option JsString} :
    Prog.Ends (fun es out => ∀ id, out = .ok (some id) → HasRead tenantId environment es (.user id))
      (findUser tenantId environment userId) := by
  unfold findUser
  split
  · exact fun id hid => (nomatch hid)
  · apply Prog.Ends.bind ends_requireUser
    · intro es u hu id hid
      obtain rfl := Option.some.inj (Except.ok.inj hid)
      rw [List.append_nil]
      exact hu u rfl
    · exact fun es e _ id hid => (nomatch hid)

theorem ends_findPrimaryDevice {deviceId : Option JsString} :
    Prog.Ends (fun es out => ∀ id, out = .ok (some id) → ∃ (text : JsString) (d : Device),
      (⟨.pool (.selectDevice text tenantId environment), .ok (some d)⟩ :
        Act Tenant.sig Tenant.Failure) ∈ es ∧ d.id = id)
      (findPrimaryDevice tenantId environment deviceId) := by
  unfold findPrimaryDevice
  split
  · intro id hid
    cases hid
  · next text _ =>
      refine Prog.ends_perform_bind.mpr ⟨fun (found : Option Device) => ?_, fun e id hid => by cases hid⟩
      cases found with
      | none =>
          intro id hid
          cases hid
      | some device =>
          intro id hid
          obtain rfl := Option.some.inj (Except.ok.inj hid)
          exact ⟨text, device, List.mem_cons_self, rfl⟩

theorem ends_lift_findPrimaryDevice {deviceId : Option JsString} :
    Prog.Ends (fun es out => ∀ id, out = .ok (some id) →
        HasRead tenantId environment es (.device id))
      ((findPrimaryDevice tenantId environment deviceId).lift : RecordProgram (Option Uuid)) := by
  apply (Prog.Ends.lift ends_findPrimaryDevice).mono
  rintro es out (⟨es₀, out₀, rfl, rfl, hread⟩ | ⟨o, e, -, rfl⟩) id hid
  · cases out₀ with
    | error e => cases hid
    | ok found =>
        obtain ⟨text, d, hmem, hd⟩ := hread id (congrArg _ (Except.ok.inj hid))
        exact ⟨text, d, List.mem_map_of_mem (f := Act.inl) hmem, hd⟩
  · cases hid

/-- The operations that change no table of the platform. -/
def reads : recordSig.Op → Bool
  | .inl .now => true
  | .inl (.pool (.selectDevice _ _ _)) => true
  | .inl (.spawn _) => true
  | .inr (.selectUser _ _ _) => true
  | _ => false

abbrev ReadsOnly (p : RecordProgram α) : Prop := Prog.Only (fun o => reads o = true) p

theorem readsOnly_await {o : Tenant.Op} (h : reads (.inl o) = true) :
    ReadsOnly ((Tenant.await o).lift : RecordProgram o.Resp) := by
  have hone : Prog.Only (fun o' => reads (.inl o') = true) (Tenant.await o) := Prog.only_perform h
  exact hone.lift fun o' ho => ho

theorem readsOnly_parseTimestamp {text : Option JsString} :
    ReadsOnly (parseTimestamp cfg text) := by
  unfold parseTimestamp
  split
  · exact (readsOnly_await rfl).bind fun _ => trivial
  · exact (readsOnly_await rfl).bind fun _ => trivial
  · split <;> trivial

theorem readsOnly_findPrimaryDevice {deviceId : Option JsString} :
    ReadsOnly ((findPrimaryDevice tenantId environment deviceId).lift :
      RecordProgram (Option Uuid)) := by
  have hone : Prog.Only (fun o' => reads (.inl o') = true)
      (findPrimaryDevice tenantId environment deviceId) := by
    unfold findPrimaryDevice
    split
    · trivial
    · apply Prog.Only.bind
      · exact Prog.only_perform rfl
      · intro device
        cases device <;> trivial
  exact hone.lift fun o' ho => ho

theorem readsOnly_findUser {userId : Option JsString} :
    ReadsOnly (findUser tenantId environment userId) := by
  unfold findUser
  split
  · trivial
  · apply Prog.Only.bind
    · unfold requireUser
      apply Prog.Only.bind (P := fun o => reads o = true) (Prog.only_perform rfl)
      intro user
      cases user <;> trivial
    · exact fun _ => trivial

/-- The history of a `touchIf`. -/
def TouchedIf (id : Option Uuid) (touch : Uuid → Touch) (es : List (Act recordSig RecordFailure))
    (out : Except RecordFailure Unit) : Prop :=
  (id = none ∧ es = [] ∧ out = .ok ()) ∨ ∃ i, id = some i ∧
    es = [(⟨.inr (.touch (touch i)), out⟩ : Act recordSig RecordFailure)]

theorem ends_touchIf {id : Option Uuid} {touch : Uuid → Touch} :
    Prog.Ends (TouchedIf id touch) (touchIf id touch) := by
  unfold touchIf
  split
  · next i =>
      apply (Prog.ends_perform (S := recordSig) (o := .inr (RecordOp.touch (touch i)))).mpr
      exact ⟨fun a => .inr ⟨i, rfl, rfl⟩, fun e => .inr ⟨i, rfl, rfl⟩⟩
  · exact .inl ⟨rfl, rfl, rfl⟩

theorem before_touchIf {Ψ : List (Act recordSig RecordFailure) → recordSig.Op → Prop}
    {id : Option Uuid} {touch : Uuid → Touch}
    (h : ∀ i, id = some i → Ψ [] (.inr (.touch (touch i)))) :
    Prog.Before Ψ (touchIf id touch) := by
  unfold touchIf
  split
  · next i => exact Prog.before_perform.mpr (h i rfl)
  · trivial

/-- An UPDATE is started after the INSERT that it belongs to, for a row that was read. -/
def Due (tenantId environment : JsString) (es : List (Act recordSig RecordFailure))
    (o : recordSig.Op) : Prop :=
  ∀ touch, o = .inr (.touch touch) → (∃ v r, insertAct tenantId environment v r ∈ es ∧
    touch ∈ touchesOf tenantId v) ∧ HasRead tenantId environment es touch.row

theorem ReadsOnly.due {p : RecordProgram α} (h : ReadsOnly p)
    (es : List (Act recordSig RecordFailure)) :
    Prog.Before (fun es' o => Due tenantId environment (es ++ es') o) p := by
  apply Prog.Only.before h
  rintro es' o ho touch rfl
  cases ho

theorem before_createVerificationEvent {input : VerificationInput} :
    Prog.Before (Due tenantId environment)
      (createVerificationEvent cfg tenantId environment apiKeyId input) := by
  have hany : ∀ {β : Type} (p : RecordProgram β), Prog.Ends (fun _ _ => True) p :=
    fun p => Prog.ends_of_forall fun _ _ => trivial
  unfold createVerificationEvent
  apply Prog.Before.bind (readsOnly_parseTimestamp.due []) (hany _)
  intro es₁ occurredAt _
  apply Prog.Before.bind (readsOnly_findUser.due es₁) ends_findUser
  intro es₂ userId huser
  simp only [← List.append_assoc]
  apply Prog.Before.bind (readsOnly_findPrimaryDevice.due (es₁ ++ es₂)) ends_lift_findPrimaryDevice
  intro es₃ deviceId hdevice
  simp only [← List.append_assoc]
  have huser' : ∀ id, userId = some id → ∀ es', HasRead tenantId environment
      (es₁ ++ es₂ ++ es₃ ++ es') (.user id) := by
    intro id hid es'
    apply (huser id (congrArg _ hid)).mono
    intro x hx
    exact List.mem_append_left _ (List.mem_append_left _ (List.mem_append_right _ hx))
  have hdevice' : ∀ id, deviceId = some id → ∀ es', HasRead tenantId environment
      (es₁ ++ es₂ ++ es₃ ++ es') (.device id) := by
    intro id hid es'
    apply (hdevice id (congrArg _ hid)).mono
    intro x hx
    exact List.mem_append_left _ (List.mem_append_right _ hx)
  apply Prog.before_perform_bind.mpr
  refine ⟨fun touch htouch => (nomatch htouch), fun r => ?_⟩
  -- from here on the INSERT is in the history
  apply Prog.Before.bind (Φ := fun _ _ => True)
  · apply before_touchIf
    rintro id hid touch heq
    obtain rfl := RecordOp.touch.inj (Sum.inr.inj heq)
    refine ⟨⟨_, r, List.mem_append_right _ List.mem_cons_self, ?_⟩, hdevice' id hid _⟩
    rw [touchesOf, hid]
    exact List.mem_append_left _ List.mem_cons_self
  · exact hany _
  · intro es₄ _ _
    apply Prog.Before.bind (Φ := fun _ _ => True)
    · apply before_touchIf
      rintro id hid touch heq
      obtain rfl := RecordOp.touch.inj (Sum.inr.inj heq)
      have hid' : userId = some id := by
        split at hid
        · exact hid
        · cases hid
      refine ⟨⟨_, r, List.mem_append_right _ List.mem_cons_self, ?_⟩, huser' id hid' _⟩
      rw [touchesOf]
      apply List.mem_append_right
      dsimp only
      rw [hid]
      exact List.mem_cons_self
    · exact hany _
    · intro es₅ _ _
      have hrest : ∀ summary metadata, ReadsOnly (auditRecord tenantId environment apiKeyId
          "verification.recorded" "verification" r.id (r.result = .fail) summary metadata >>=
          fun _ => (return r)) := by
        intro summary metadata
        exact (readsOnly_await rfl).bind fun _ => trivial
      apply Prog.Only.before (hrest _ _)
      rintro es' o ho touch rfl
      cases ho

/-- The UPDATEs of the verification that was written have been started, unless one could not
    be. -/
def Started (es : List (Act recordSig RecordFailure)) : Prop :=
  ∀ tenantId environment v r, insertAct tenantId environment v r ∈ es →
    (∀ touch (answer : Except RecordFailure Unit),
      (⟨.inr (.touch touch), answer⟩ : Act recordSig RecordFailure) ∈ es → answer = .ok ()) →
    ∀ touch ∈ touchesOf tenantId v, touchAct touch ∈ es

variable {es es₁ es₂ es₃ : List (Act recordSig RecordFailure)} {v v' : NewVerification}
  {r r' : VerificationRecord}

theorem not_mem_of_reads (h : ∀ x ∈ es, reads x.op = true) :
    insertAct tenantId environment v r ∉ es := by
  intro hmem
  have hreads := h _ hmem
  cases hreads

theorem started_of_reads (h : ∀ x ∈ es, reads x.op = true) : Started es :=
  fun _ _ _ _ hmem => absurd hmem (not_mem_of_reads h)

theorem TouchedIf.not_insert {id : Option Uuid} {touch : Uuid → Touch}
    {out : Except RecordFailure Unit} (h : TouchedIf id touch es out) :
    insertAct tenantId environment v r ∉ es := by
  rintro hmem
  rcases h with ⟨-, rfl, -⟩ | ⟨i, -, rfl⟩
  · cases hmem
  · cases List.mem_singleton.mp hmem

theorem TouchedIf.mem {id : Option Uuid} {touch : Uuid → Touch} (h : TouchedIf id touch es (.ok ()))
    {t : Touch} (ht : t ∈ (id.map touch).toList) : touchAct t ∈ es := by
  rcases h with ⟨rfl, -, -⟩ | ⟨i, rfl, rfl⟩
  · cases ht
  · rw [List.mem_singleton.mp ht]
    exact List.mem_cons_self

/-- Everything around the INSERT is accounted for. -/
theorem started_of_parts (hreads : ∀ x ∈ es, reads x.op = true)
    (h₁ : TouchedIf v.deviceId (fun id => .device id tenantId v.occurredAt) es₁ (.ok ()))
    (h₂ : TouchedIf (if v.result = .pass then v.userId else none)
      (fun id => .user id tenantId v.occurredAt) es₂ (.ok ()))
    (h₃ : ∀ x ∈ es₃, reads x.op = true) :
    Started (es ++ insertAct tenantId environment v r :: (es₁ ++ (es₂ ++ es₃))) := by
  intro tenantId' environment' v' r' hmem _ touch htouch
  have hsame : tenantId' = tenantId ∧ v' = v := by
    rcases List.mem_append.mp hmem with hmem | hmem
    · exact absurd hmem (not_mem_of_reads hreads)
    · rcases List.mem_cons.mp hmem with heq | hmem
      · cases heq
        exact ⟨rfl, rfl⟩
      · rcases List.mem_append.mp hmem with hmem | hmem
        · exact absurd hmem h₁.not_insert
        · rcases List.mem_append.mp hmem with hmem | hmem
          · exact absurd hmem h₂.not_insert
          · exact absurd hmem (not_mem_of_reads h₃)
  rw [hsame.1, hsame.2] at htouch
  apply List.mem_append_right
  apply List.mem_cons_of_mem
  rcases List.mem_append.mp htouch with htouch | htouch
  · exact List.mem_append_left _ (h₁.mem htouch)
  · exact List.mem_append_right _ (List.mem_append_left _ (h₂.mem htouch))

/-- An UPDATE that could not be started excuses the call. -/
theorem started_of_failed {touch : Touch} {e : RecordFailure}
    (h : (⟨.inr (.touch touch), .error e⟩ : Act recordSig RecordFailure) ∈ es) :
    Started es := by
  intro tenantId environment v r _ hok
  cases hok touch (.error e) h

theorem ends_createVerificationEvent {input : VerificationInput} :
    Prog.Ends (fun es _ => Started es)
      (createVerificationEvent cfg tenantId environment apiKeyId input) := by
  unfold createVerificationEvent
  -- time, user and device are looked up before anything is written
  apply Prog.Ends.bind readsOnly_parseTimestamp.ends
  rotate_left
  · exact fun es₁ e h₁ => started_of_reads h₁
  intro es₁ occurredAt h₁
  apply Prog.Ends.bind readsOnly_findUser.ends
  rotate_left
  · intro es₂ e h₂
    apply started_of_reads
    exact fun x hx => (List.mem_append.mp hx).elim (h₁ x) (h₂ x)
  intro es₂ userId h₂
  simp only [← List.append_assoc]
  apply Prog.Ends.bind readsOnly_findPrimaryDevice.ends
  rotate_left
  · intro es₃ e h₃
    apply started_of_reads
    intro x hx
    rcases List.mem_append.mp hx with hx | hx
    · exact (List.mem_append.mp hx).elim (h₁ x) (h₂ x)
    · exact h₃ x hx
  intro es₃ deviceId h₃
  simp only [← List.append_assoc]
  have hreads : ∀ x ∈ es₁ ++ es₂ ++ es₃, reads x.op = true := by
    intro x hx
    rcases List.mem_append.mp hx with hx | hx
    · exact (List.mem_append.mp hx).elim (h₁ x) (h₂ x)
    · exact h₃ x hx
  -- the INSERT
  apply Prog.ends_perform_bind.mpr
  refine ⟨fun r => ?_, fun e tenantId' environment' v' r' hmem => ?_⟩
  · apply Prog.Ends.bind ends_touchIf
    rotate_left
    · intro es₄ e h₄
      rcases h₄ with ⟨-, -, hout⟩ | ⟨i, -, rfl⟩
      · cases hout
      · exact started_of_failed (List.mem_append_right _
          (List.mem_cons_of_mem _ List.mem_cons_self))
    intro es₄ _ h₄
    apply Prog.Ends.bind ends_touchIf
    rotate_left
    · intro es₅ e h₅
      rcases h₅ with ⟨-, -, hout⟩ | ⟨i, -, rfl⟩
      · cases hout
      · exact started_of_failed (List.mem_append_right _ (List.mem_cons_of_mem _
          (List.mem_append_right _ List.mem_cons_self)))
    intro es₅ _ h₅
    -- after both UPDATEs only the audit event is left
    have hrest : ∀ summary metadata, ReadsOnly (auditRecord tenantId environment apiKeyId
        "verification.recorded" "verification" r.id (r.result = .fail) summary metadata >>=
        fun _ => (return r)) := by
      intro summary metadata
      exact (readsOnly_await rfl).bind fun _ => trivial
    apply (Prog.Only.ends (hrest _ _)).mono
    intro es₆ out h₆
    exact started_of_parts hreads h₄ h₅ h₆
  · rcases List.mem_append.mp hmem with hmem | hmem
    · exact absurd hmem (not_mem_of_reads hreads)
    · cases List.mem_singleton.mp hmem

/-- The operations of `createVerificationEvent`. -/
def records : recordSig.Op → Bool
  | .inr (.insertVerification _ _ _) => true
  | .inr (.touch _) => true
  | o => reads o

theorem records_of_reads {o : recordSig.Op} (h : reads o = true) : records o = true := by
  unfold records
  split
  · rfl
  · rfl
  · exact h

theorem only_createVerificationEvent {input : VerificationInput} :
    Prog.Only (fun o => records o = true)
      (createVerificationEvent cfg tenantId environment apiKeyId input) := by
  have htouch : ∀ (id : Option Uuid) (touch : Uuid → Touch),
      Prog.Only (fun o => records o = true) (touchIf id touch) :=
    fun id touch => before_touchIf fun i _ => rfl
  unfold createVerificationEvent
  apply Prog.Only.bind (readsOnly_parseTimestamp.mono fun o => records_of_reads)
  intro occurredAt
  apply Prog.Only.bind (readsOnly_findUser.mono fun o => records_of_reads)
  intro userId
  apply Prog.Only.bind (readsOnly_findPrimaryDevice.mono fun o => records_of_reads)
  intro deviceId
  apply Prog.Only.bind (P := fun o => records o = true) (Prog.only_perform rfl)
  intro r
  apply Prog.Only.bind (htouch _ _)
  intro _
  apply Prog.Only.bind (htouch _ _)
  intro _
  apply Prog.Only.bind
  · apply Prog.Only.mono (P := fun o => reads o = true) (readsOnly_await rfl)
    exact fun o => records_of_reads
  · exact fun _ => trivial

end Program

end ZeroAuth.Records
