/-
  ZeroAuth.Iot.CentralRecords

  Which record `ensureDevice` and `registerUser` come back with.

  A POST for an external id that is taken is answered by 409, and the client then looks for
  the id in a listing that the platform cuts after 100 rows, newest first, whatever
  limit is asked for.  So the record is found for sure exactly when fewer than 100
  others of the tenant and environment are at least as recent; from the hundredth on
  the lookup may come back with nothing.  An external id with white space at its ends is
  taken only if some row has it without.
-/

import ZeroAuth.Iot.CentralApi
import ZeroAuth.Tenant.Runs

namespace ZeroAuth.Iot.Central

open ZeroAuth.Lib ZeroAuth.Js ZeroAuth.Pg ZeroAuth.Tenant

/-! ## The tables between two requests -/

/-- No transaction is open, ids and names are unique, and an id is left. -/
structure Population where
  world : World
  free : ∀ k, world.store.locks k = none
  distinct : tables.Distinct world.store.db
  room : ∃ id : Uuid, ∀ r ∈ world.store.db, r.id ≠ .device id ∧ r.id ≠ .user id

namespace Population

def db (p : Population) : Db := p.world.store.db

end Population

variable {pg : Jsonb} {st : Settings} {key : ApiKey} {p : Population}

theorem mem_key_devices {db : Db} {d : Device} : d ∈ key.devices db ↔
    Row.device d ∈ db ∧ d.tenantId = key.tenantId ∧ d.environment = key.environment := by
  rw [ApiKey.devices, List.mem_filter, mem_devices, decide_eq_true_iff]

theorem mem_key_users {db : Db} {u : TenantUser} : u ∈ key.users db ↔
    Row.user u ∈ db ∧ u.tenantId = key.tenantId ∧ u.environment = key.environment := by
  rw [ApiKey.users, List.mem_filter, mem_users, decide_eq_true_iff]

section Unique

variable {db : Db} (hdb : tables.Distinct db)

include hdb

theorem nodup_device_ids : ((key.devices db).map Device.id).Nodup := by
  have hnd : (key.devices db).Nodup := by
    apply List.Nodup.filter
    apply (List.Nodup.of_map _ hdb.ids).filterMap
    intro r r' d hr hr'
    cases r <;> cases hr
    cases r' <;> cases hr'
    rfl
  apply hnd.map_on
  intro d hd d' hd' hid
  have hrow : Row.device d = Row.device d' := hdb.unique (mem_key_devices.mp hd).1
    (mem_key_devices.mp hd').1 (congrArg RowId.device hid)
  injection hrow

theorem nodup_user_ids : ((key.users db).map TenantUser.id).Nodup := by
  have hnd : (key.users db).Nodup := by
    apply List.Nodup.filter
    apply (List.Nodup.of_map _ hdb.ids).filterMap
    intro r r' u hr hr'
    cases r <;> cases hr
    cases r' <;> cases hr'
    rfl
  apply hnd.map_on
  intro u hu u' hu' hid
  have hrow : Row.user u = Row.user u' := hdb.unique (mem_key_users.mp hu).1
    (mem_key_users.mp hu').1 (congrArg RowId.user hid)
  injection hrow

theorem device_unique {d d' : Device} (hd : d ∈ key.devices db) (hd' : d' ∈ key.devices db)
    (hext : d'.externalId = d.externalId) : d' = d := by
  obtain ⟨hmem, ht, he⟩ := mem_key_devices.mp hd
  obtain ⟨hmem', ht', he'⟩ := mem_key_devices.mp hd'
  have hid := hdb.names _ hmem' _ hmem (.device key.tenantId key.environment d.externalId)
    (by simp [tables, Row.names, ht', he', hext]) (by simp [tables, Row.names, ht, he])
  have hrow : Row.device d' = Row.device d := hdb.unique hmem' hmem hid
  injection hrow

theorem user_unique {u u' : TenantUser} (hu : u ∈ key.users db) (hu' : u' ∈ key.users db)
    (hext : u'.externalId = u.externalId) : u' = u := by
  obtain ⟨hmem, ht, he⟩ := mem_key_users.mp hu
  obtain ⟨hmem', ht', he'⟩ := mem_key_users.mp hu'
  have hid := hdb.names _ hmem' _ hmem (.user key.tenantId key.environment u.externalId)
    (by simp [tables, Row.names, ht', he', hext]) (by simp [tables, Row.names, ht, he])
  have hrow : Row.user u' = Row.user u := hdb.unique hmem' hmem hid
  injection hrow

end Unique

/-! ## The lookup -/

section Find

variable {ρ β : Type} {rows l : List ρ} {ext : ρ → JsString} {record : ρ → β} {extOf : β → JsString}
  {x : ρ}

/-- A listing that shows the row yields its record. -/
theorem find_record (hrec : ∀ r, extOf (record r) = ext r)
    (huniq : ∀ y ∈ rows, ext y = ext x → y = x) (hsub : ∀ y ∈ l, y ∈ rows) (hx : x ∈ l) :
    (l.map record).find? (fun b => extOf b = ext x) = some (record x) := by
  rw [List.find?_map]
  have hfind : l.find? ((fun b => decide (extOf b = ext x)) ∘ record) = some x := by
    cases hf : l.find? ((fun b => decide (extOf b = ext x)) ∘ record) with
    | none => exact absurd (hrec x) (by simpa using List.find?_eq_none.mp hf x hx)
    | some y =>
        have hy : ext y = ext x := by simpa [hrec] using List.find?_some hf
        rw [huniq y (hsub y (List.mem_of_find?_eq_some hf)) hy]
  rw [hfind, Option.map_some]

/-- A listing that does not show it yields nothing. -/
theorem find_record_none (hrec : ∀ r, extOf (record r) = ext r)
    (huniq : ∀ y ∈ rows, ext y = ext x → y = x) (hsub : ∀ y ∈ l, y ∈ rows) (hx : x ∉ l) :
    (l.map record).find? (fun b => extOf b = ext x) = none := by
  rw [List.find?_map, List.find?_eq_none.mpr, Option.map_none]
  intro y hy hmatch
  have hext : ext y = ext x := by simpa [hrec] using hmatch
  exact hx (huniq y (hsub y hy) hext ▸ hy)

end Find

/-! ## The POST routes -/

section Post

variable {w w' : World}

/-- An INSERT outside any transaction. -/
theorem statement_insert {q : Sql} {row : q.Resp → Row} {mk : Uuid → q.Resp}
    (hrun : ∀ ω, q.run pg w.store.db w.clock ω = .ok (.insert row (mk ω.uuid)))
    (hfree : ∀ k, w.store.locks k = none) {r : Except Failure q.Resp} :
    Statement pg (.pool q) w r w' ↔ ∃ id : Uuid,
      if tables.clashes w.store.db (.insert (row (mk id))) then r = .error duplicateKey ∧ w' = w
      else r = .ok (mk id) ∧
        w' = w.setStore (w.store.autocommit tables.apply 0 (.insert (row (mk id)))) := by
  -- a statement that neither fails nor loses its answer, with no lock in its way
  have hexec : ∀ ω : Oracle, ω.failure = none → ω.lost = none → exec pg 0 (.pool q) ω w =
      if tables.clashes w.store.db (.insert (row (mk ω.uuid))) then some (.error duplicateKey, w)
      else some (.ok (mk ω.uuid),
        w.setStore (w.store.autocommit tables.apply 0 (.insert (row (mk ω.uuid))))) := by
    intro ω hω hlost
    simp only [exec, orFail, hω, hrun ω]
    show World.runPool w 0 ω (.insert row (mk ω.uuid)) = _
    rw [World.runPool, Answer.insert]
    refine (if_pos (List.all_eq_true.mpr fun k _ => decide_eq_true (hfree k))).trans ?_
    rw [World.carriedOut, hlost]
    rfl
  constructor
  · rintro ⟨ω, hω, hlost, hx⟩
    refine ⟨ω.uuid, ?_⟩
    rw [hexec ω hω hlost] at hx
    split at hx
    · next hc =>
        rw [if_pos hc]
        cases hx
        exact ⟨rfl, rfl⟩
    · next hc =>
        rw [if_neg hc]
        cases hx
        exact ⟨rfl, rfl⟩
  · rintro ⟨id, h⟩
    refine ⟨{ uuid := id }, rfl, rfl, ?_⟩
    rw [hexec _ rfl rfl]
    split at h
    · next hc =>
        obtain ⟨rfl, rfl⟩ := h
        exact if_pos hc
    · next hc =>
        obtain ⟨rfl, rfl⟩ := h
        exact if_neg hc

/-- The world when the row is in and the audit event of the route has been started. -/
def inserted (w : World) (row : Row) (payload : Audit.ChainedAuditPayload) : World :=
  { w.setStore (w.store.autocommit tables.apply 0 (.insert row)) with
    spawned := w.spawned ++ [(0, payload)] }

section Create

variable {q : Sql} {row : q.Resp → Row} {mk : Uuid → q.Resp}
  (payload : q.Resp → Audit.ChainedAuditPayload)
  (hrun : ∀ ω, q.run pg w.store.db w.clock ω = .ok (.insert row (mk ω.uuid)))
  (hfree : ∀ k, w.store.locks k = none)

include hrun hfree

/-- The INSERT, the audit event, the row. -/
theorem solo_create {out : Except Failure q.Resp} :
    Prog.Solo (Statement pg)
      (pool q >>= fun x => Tenant.await (.spawn (payload x)) >>= fun _ => Prog.ret x : Program q.Resp)
      w out w' ↔ ∃ id : Uuid,
        if tables.clashes w.store.db (.insert (row (mk id))) then
          out = .error duplicateKey ∧ w' = w
        else out = .ok (mk id) ∧ w' = inserted w (row (mk id)) (payload (mk id)) := by
  constructor
  · rintro ⟨r, w₁, hq, hrest⟩
    -- the id is drawn, and decides whether the row clashes
    obtain ⟨id, hid⟩ := (statement_insert hrun hfree).mp hq
    refine ⟨id, ?_⟩
    split at hid
    · next hc =>
        obtain ⟨rfl, rfl⟩ := hid
        rw [if_pos hc]
        exact hrest
    · next hc =>
        obtain ⟨rfl, rfl⟩ := hid
        obtain ⟨r, w₂, ⟨ω, -, -, hx⟩, hend⟩ := hrest
        cases hx
        rw [if_neg hc]
        exact hend
  · rintro ⟨id, hid⟩
    split at hid
    · next hc =>
        obtain ⟨rfl, rfl⟩ := hid
        have hq : Statement pg (.pool q) w' (.error duplicateKey) w' :=
          (statement_insert hrun hfree).mpr ⟨id, by rw [if_pos hc]; exact ⟨rfl, rfl⟩⟩
        exact ⟨_, _, hq, rfl, rfl⟩
    · next hc =>
        obtain ⟨rfl, rfl⟩ := hid
        have hq : Statement pg (.pool q) w (.ok (mk id))
            (w.setStore (w.store.autocommit tables.apply 0 (.insert (row (mk id))))) :=
          (statement_insert hrun hfree).mpr ⟨id, by rw [if_neg hc]; exact ⟨rfl, rfl⟩⟩
        exact ⟨_, _, hq, .ok (), _, ⟨{}, rfl, rfl, rfl⟩, rfl, rfl⟩

end Create

/-- Both POST routes, around a program that inserts a row: a unique index that rejects the row
    makes the answer 409. -/
theorem solo_post {ρ β : Type} {create : Program ρ} {clash : Uuid → Bool} {mk : Uuid → ρ}
    {next : Uuid → World} (record : ρ → β)
    (hcreate : ∀ {out w'}, Prog.Solo (Statement pg) create w out w' ↔ ∃ id : Uuid,
      if clash id then out = .error duplicateKey ∧ w' = w else out = .ok (mk id) ∧ w' = next id)
    {res : Response β} :
    Prog.Solo (Statement pg)
      (Prog.tryCatch (create >>= fun x => Prog.ret ⟨201, some (record x)⟩)
        fun err => Prog.ret (createFailed err)) w (.ok res) w' ↔
      ∃ id : Uuid,
        if clash id then res = ⟨409, none⟩ ∧ w' = w
        else res = ⟨201, some (record (mk id))⟩ ∧ w' = next id := by
  -- the handler turns the violated index into 409
  have hfail : (createFailed duplicateKey : Response β) = ⟨409, none⟩ := by
    have hdup : isDuplicateKey duplicateKey = true := by decide
    rw [createFailed, if_pos hdup]
  simp only [Prog.solo_tryCatch, Prog.solo_bind, Prog.solo_ret, hcreate]
  constructor
  · rintro (⟨a, ⟨x, w₁, ⟨id, hid⟩, ha, rfl⟩ | ⟨e, -, ha⟩, hout⟩ |
      ⟨e, w₁, ⟨x, w₂, -, he, -⟩ | ⟨e', ⟨id, hid⟩, he⟩, hout, rfl⟩)
    · refine ⟨id, ?_⟩
      cases hout
      cases ha
      split at hid
      · cases hid.1
      · next hc =>
          obtain ⟨hx, rfl⟩ := hid
          cases hx
          rw [if_neg hc]
          exact ⟨rfl, rfl⟩
    · cases ha
    · cases he
    · refine ⟨id, ?_⟩
      cases hout
      cases he
      split at hid
      · next hc =>
          obtain ⟨he, rfl⟩ := hid
          cases he
          rw [if_pos hc, hfail]
          exact ⟨rfl, rfl⟩
      · cases hid.1
  · rintro ⟨id, hid⟩
    split at hid
    · next hc =>
        obtain ⟨rfl, rfl⟩ := hid
        refine .inr ⟨duplicateKey, w', .inr ⟨duplicateKey, ⟨id, ?_⟩, rfl⟩, by rw [hfail], rfl⟩
        rw [if_pos hc]
        exact ⟨rfl, rfl⟩
    · next hc =>
        obtain ⟨rfl, rfl⟩ := hid
        refine .inl ⟨⟨201, some (record (mk id))⟩, .inl ⟨mk id, next id, ⟨id, ?_⟩, rfl, rfl⟩, rfl⟩
        rw [if_neg hc]
        exact ⟨rfl, rfl⟩

/-! ## The row that a POST inserts -/

def newDevice (pg : Jsonb) (key : ApiKey) (body : DeviceBody) (now : ℕ) (id : Uuid) : Device :=
  NewDevice.row
    { externalId := trim body.externalId
      name := trim body.name
      deviceType := .kiosk
      locationId := none
      batteryLevel := none
      metadata := pg.store (sanitizeMetadata (some body.metadata)) }
    id key.tenantId key.environment now

def newUser (pg : Jsonb) (st : Settings) (key : ApiKey) (body : UserBody) (now : ℕ) (id : Uuid) :
    TenantUser :=
  NewTenantUser.row
    { externalId := trim body.externalId
      fullName := trim body.fullName
      email := normaliseEmail st (some body.email)
      phone := none
      employeeCode := none
      primaryDeviceId := none
      metadata := pg.store (sanitizeMetadata (some body.metadata)) }
    id key.tenantId key.environment now

theorem filter_nonblank {s : JsString} (h : trim s ≠ []) :
    ((some s).filter fun s => trim s ≠ []) = some s := by
  rw [Option.filter_some, if_pos (decide_eq_true h)]

theorem createDevice_eq (tenantId environment : JsString) (input : CreateDeviceInput)
    (actor : Option AuditActor) {s : JsString}
    (h : (input.externalId.filter fun s => trim s ≠ []) = some s) :
    ∃ payload : Device → Audit.ChainedAuditPayload,
      createDevice tenantId environment input actor =
        (pool (.insertDevice tenantId environment
          { externalId := trim s
            name := trim input.name
            deviceType := input.deviceType.getD .kiosk
            locationId := input.locationId.bind fun s => orNull (trim s)
            batteryLevel := input.batteryLevel
            metadata := sanitizeMetadata input.metadata }) >>= fun d =>
          Tenant.await (.spawn (payload d)) >>= fun _ => Prog.ret d : Program Device) := by
  unfold createDevice defaultExternalId
  rw [h]
  exact ⟨_, rfl⟩

theorem createTenantUser_eq (st : Settings) (tenantId environment : JsString)
    (input : CreateUserInput) (actor : Option AuditActor) {s : JsString}
    (h : (input.externalId.filter fun s => trim s ≠ []) = some s) (hdev : input.primaryDeviceId = none) :
    ∃ payload : TenantUser → Audit.ChainedAuditPayload,
      createTenantUser st tenantId environment input actor =
        (pool (.insertUser tenantId environment
          { externalId := trim s
            fullName := trim input.fullName
            email := normaliseEmail st input.email
            phone := input.phone.bind fun s => orNull (trim s)
            employeeCode := input.employeeCode.bind fun s => orNull (trim s)
            primaryDeviceId := none
            metadata := sanitizeMetadata input.metadata }) >>= fun u =>
          Tenant.await (.spawn (payload u)) >>= fun _ => Prog.ret u : Program TenantUser) := by
  unfold createTenantUser defaultExternalId findPrimaryDevice
  rw [h, hdev]
  exact ⟨_, rfl⟩

theorem postDevices_solo (pg : Jsonb) (key : ApiKey) (body : DeviceBody)
    (hfree : ∀ k, w.store.locks k = none) (hname : trim body.name ≠ [])
    (hext : trim body.externalId ≠ []) : ∃ next : Uuid → World, ∀ res w',
      Prog.Solo (Statement pg) (postDevices key body) w (.ok res) w' ↔ ∃ id : Uuid,
        if tables.clashes w.store.db (.insert (.device (newDevice pg key body w.clock id))) then
          res = ⟨409, none⟩ ∧ w' = w
        else res = ⟨201, some (deviceRecord (newDevice pg key body w.clock id))⟩ ∧ w' = next id := by
  obtain ⟨payload, hcreate⟩ := createDevice_eq key.tenantId.text key.environment
    ⟨some body.externalId, body.name, none, none, none, some body.metadata⟩ (some key.actor)
    (filter_nonblank hext)
  refine ⟨fun id => inserted w (.device (newDevice pg key body w.clock id))
    (payload (newDevice pg key body w.clock id)), fun res w' => ?_⟩
  unfold postDevices
  rw [if_neg hname, hcreate]
  apply solo_post deviceRecord
  intro out w'
  refine solo_create (q := .insertDevice _ _ _) payload (fun ω => ?_) hfree
  rw [Sql.run, withUuid, Uuid.parse_text]
  rfl

theorem postUsers_solo (pg : Jsonb) (st : Settings) (key : ApiKey) (body : UserBody)
    (hfree : ∀ k, w.store.locks k = none) (hname : trim body.fullName ≠ [])
    (hext : trim body.externalId ≠ []) : ∃ next : Uuid → World, ∀ res w',
      Prog.Solo (Statement pg) (postUsers st key body) w (.ok res) w' ↔ ∃ id : Uuid,
        if tables.clashes w.store.db (.insert (.user (newUser pg st key body w.clock id))) then
          res = ⟨409, none⟩ ∧ w' = w
        else res = ⟨201, some (userRecord (newUser pg st key body w.clock id))⟩ ∧ w' = next id := by
  obtain ⟨payload, hcreate⟩ := createTenantUser_eq st key.tenantId.text key.environment
    ⟨some body.externalId, body.fullName, some body.email, none, none, none, some body.metadata⟩
    (some key.actor) (filter_nonblank hext) rfl
  refine ⟨fun id => inserted w (.user (newUser pg st key body w.clock id))
    (payload (newUser pg st key body w.clock id)), fun res w' => ?_⟩
  unfold postUsers
  rw [if_neg hname, hcreate]
  apply solo_post userRecord
  intro out w'
  refine solo_create (q := .insertUser _ _ _) payload (fun ω => ?_) hfree
  rw [Sql.run, withUuid, Uuid.parse_text]
  rfl

end Post

/-! ## When the index rejects it -/

theorem clashes_newDevice {db : Db} {body : DeviceBody} {now : ℕ} {id : Uuid} :
    tables.clashes db (.insert (.device (newDevice pg key body now id))) = true ↔
      (∃ r ∈ db, r.id = .device id) ∨ ∃ d ∈ key.devices db, d.externalId = trim body.externalId := by
  rw [Keyed.clashes, List.any_eq_true]
  simp only [decide_eq_true_iff]
  constructor
  · rintro ⟨r, hr, hid | ⟨n, hn, hn'⟩⟩
    · exact .inl ⟨r, hr, hid⟩
    · cases List.mem_singleton.mp hn
      cases r with
      | device d =>
          injection List.mem_singleton.mp hn' with ht he hext
          exact .inr ⟨d, mem_key_devices.mpr ⟨hr, ht.symm, he.symm⟩, hext.symm⟩
      | session s => cases hn'
      | user u =>
          rcases List.mem_cons.mp hn' with heq | hdid
          · cases heq
          · obtain ⟨did, -, heq⟩ := Option.map_eq_some_iff.mp (Option.mem_toList.mp hdid)
            cases heq
  · rintro (⟨r, hr, hid⟩ | ⟨d, hd, hext⟩)
    · exact ⟨r, hr, .inl hid⟩
    · obtain ⟨hmem, ht, he⟩ := mem_key_devices.mp hd
      refine ⟨.device d, hmem, .inr ⟨_, List.mem_singleton_self _, ?_⟩⟩
      show Name.device key.tenantId key.environment (trim body.externalId) ∈
        [Name.device d.tenantId d.environment d.externalId]
      rw [ht, he, hext]
      exact List.mem_singleton_self _

theorem clashes_newUser {db : Db} {body : UserBody} {now : ℕ} {id : Uuid} :
    tables.clashes db (.insert (.user (newUser pg st key body now id))) = true ↔
      (∃ r ∈ db, r.id = .user id) ∨ ∃ u ∈ key.users db, u.externalId = trim body.externalId := by
  rw [Keyed.clashes, List.any_eq_true]
  simp only [decide_eq_true_iff]
  constructor
  · rintro ⟨r, hr, hid | ⟨n, hn, hn'⟩⟩
    · exact .inl ⟨r, hr, hid⟩
    · cases List.mem_singleton.mp hn
      cases r with
      | device d => cases List.mem_singleton.mp hn'
      | session s => cases hn'
      | user u =>
          -- the name is the external id, not the DID
          rcases List.mem_cons.mp hn' with heq | hdid
          · injection heq with ht he hext
            exact .inr ⟨u, mem_key_users.mpr ⟨hr, ht.symm, he.symm⟩, hext.symm⟩
          · obtain ⟨did, -, heq⟩ := Option.map_eq_some_iff.mp (Option.mem_toList.mp hdid)
            cases heq
  · rintro (⟨r, hr, hid⟩ | ⟨u, hu, hext⟩)
    · exact ⟨r, hr, .inl hid⟩
    · obtain ⟨hmem, ht, he⟩ := mem_key_users.mp hu
      refine ⟨.user u, hmem, .inr ⟨_, List.mem_cons_self, ?_⟩⟩
      show Name.user key.tenantId key.environment (trim body.externalId) ∈
        Name.user u.tenantId u.environment u.externalId :: _
      rw [ht, he, hext]
      exact List.mem_cons_self

/-! ## The client -/

/-- The body of an answer whose status is not expected is not read. -/
def expected {β : Type} (expect : List ℕ) (res : Response β) : Response β :=
  if res.status ∈ expect then res else ⟨res.status, none⟩

/-- The network does not fail, so there is an answer. -/
theorem solo_request {o : Request} {expect : List ℕ} {w w' : World}
    {out : Except Unit (Option (Response o.Body))} :
    Prog.Solo (Serves pg st key) (request o expect) w out w' ↔
      ∃ res, Serves pg st key o w (.ok res) w' ∧ out = .ok (some (expected expect res)) := by
  -- the four routes answer, so `fetch` does not throw
  have hok : ∀ {e : Unit} {v v' : World}, ¬ Serves pg st key o v (.error e) v' := by
    intro e v v' h
    cases o with
    | postDevices body =>
        obtain ⟨res, -, hres⟩ := h
        cases hres
    | postUsers body =>
        obtain ⟨res, -, hres⟩ := h
        cases hres
    | getDevices limit =>
        obtain ⟨rows, -, hres, -⟩ := h
        cases hres
    | getUsers limit =>
        obtain ⟨rows, -, hres, -⟩ := h
        cases hres
  unfold request
  constructor
  · intro h
    rcases Prog.solo_tryCatch.mp h with ⟨a, hreq, rfl⟩ | ⟨e, w₁, hreq, -⟩
    · rcases Prog.solo_perform_bind.mp hreq with ⟨res, w₁, hserve, hres, rfl⟩ | ⟨e, herr, -⟩
      · exact ⟨res, hserve, hres⟩
      · exact absurd herr hok
    · rcases Prog.solo_perform_bind.mp hreq with ⟨res, w₂, -, hres, -⟩ | ⟨e', herr, -⟩
      · cases hres
      · exact absurd herr hok
  · rintro ⟨res, hserve, rfl⟩
    apply Prog.solo_tryCatch.mpr
    exact .inl ⟨_, Prog.solo_perform_bind.mpr (.inl ⟨res, w', hserve, rfl, rfl⟩), rfl⟩

theorem exists_listDevices (key : ApiKey) (db : Db) (limit : Option ℤ) :
    ∃ rows, ListDevices key db limit rows := exists_listing _ _ _

/-- The external id is taken: some row of the tenant and environment has it. -/
def DeviceTaken (key : ApiKey) (db : Db) (ext : JsString) : Prop :=
  ∃ d ∈ key.devices db, d.externalId = trim ext

def UserTaken (key : ApiKey) (db : Db) (ext : JsString) : Prop :=
  trim ext ≠ [] ∧ ∃ u ∈ key.users db, u.externalId = trim ext

def foundDevice (cfg : CentralApiConfig) (rows : List Device) : Option DeviceRecord :=
  (rows.map deviceRecord).find? fun d => d.externalId = cfg.deviceExternalId

def foundUser (email : JsString) (rows : List TenantUser) : Option UserRecord :=
  (rows.map userRecord).find? fun u => u.externalId = email

section Ensure

variable {cfg : CentralApiConfig} {w' : World}

/-- 409, then the lookup. -/
theorem ensureDevice_of_taken (h : DeviceTaken key p.db cfg.deviceExternalId)
    {out : Except Unit (Option DeviceRecord × Option DeviceRecord)} :
    Prog.Solo (Serves pg st key) (ensureDevice cfg none) p.world out w' ↔
      ∃ rows, ListDevices key p.db (some 200) rows ∧
        out = .ok (foundDevice cfg rows, foundDevice cfg rows) ∧ w' = p.world := by
  obtain ⟨next, hpost⟩ := postDevices_solo pg key
    ⟨cfg.deviceName, cfg.deviceExternalId, bridgeMetadata⟩ p.free cfg.deviceName_nonblank
    cfg.deviceExternalId_nonblank
  -- whatever id is drawn, the external id is taken
  have hclash : ∀ id, tables.clashes p.world.store.db (.insert (.device (newDevice pg key
      ⟨cfg.deviceName, cfg.deviceExternalId, bridgeMetadata⟩ p.world.clock id))) = true :=
    fun id => clashes_newDevice.mpr (.inr h)
  refine (Prog.solo_bind (p := request (.postDevices _) [201, 409])).trans ?_
  constructor
  · -- 409 leads to the lookup in the list, which changes nothing
    rintro (⟨created, w₁, hcreate, hrest⟩ | ⟨e, hcreate, -⟩)
    · obtain ⟨res, ⟨res', hsolo, hres⟩, hcreated⟩ := solo_request.mp hcreate
      cases hres
      obtain ⟨id, hid⟩ := (hpost res w₁).mp hsolo
      rw [if_pos (hclash id)] at hid
      obtain ⟨rfl, rfl⟩ := hid
      cases hcreated
      rcases Prog.solo_bind.mp hrest with ⟨list, w₂, hlist, hend⟩ | ⟨e, hlist, -⟩
      · obtain ⟨res, ⟨rows, hrows, hres, rfl⟩, hlisted⟩ := solo_request.mp hlist
        cases hres
        cases hlisted
        exact ⟨rows, hrows, hend⟩
      · obtain ⟨res, -, herr⟩ := solo_request.mp hlist
        cases herr
    · obtain ⟨res, -, herr⟩ := solo_request.mp hcreate
      cases herr
  · rintro ⟨rows, hrows, rfl, rfl⟩
    have hsolo := (hpost ⟨409, none⟩ p.world).mpr ⟨⟨0, by decide⟩, by
      rw [if_pos (hclash _)]
      exact ⟨rfl, rfl⟩⟩
    refine .inl ⟨_, _, solo_request.mpr ⟨_, ⟨_, hsolo, rfl⟩, rfl⟩, ?_⟩
    exact Prog.solo_bind.mpr (.inl ⟨_, _,
      solo_request.mpr ⟨_, ⟨rows, hrows, rfl, rfl⟩, rfl⟩, rfl, rfl⟩)

/-- 201, with the record of a new row. -/
theorem ensureDevice_of_free (pg : Jsonb) (st : Settings)
    (h : ¬ DeviceTaken key p.db cfg.deviceExternalId) :
    ∃ id w', (∀ r ∈ p.db, r.id ≠ .device id) ∧
      Prog.Solo (Serves pg st key) (ensureDevice cfg none) p.world
        (.ok (some ⟨id, trim cfg.deviceExternalId⟩, some ⟨id, trim cfg.deviceExternalId⟩)) w' := by
  obtain ⟨next, hpost⟩ := postDevices_solo pg key
    ⟨cfg.deviceName, cfg.deviceExternalId, bridgeMetadata⟩ p.free cfg.deviceName_nonblank
    cfg.deviceExternalId_nonblank
  obtain ⟨id, hid⟩ := p.room
  have hclash : ¬ tables.clashes p.world.store.db (.insert (.device (newDevice pg key
      ⟨cfg.deviceName, cfg.deviceExternalId, bridgeMetadata⟩ p.world.clock id))) = true := by
    rw [clashes_newDevice]
    rintro (⟨r, hr, heq⟩ | htaken)
    · exact (hid r hr).1 heq
    · exact h htaken
  have hsolo := (hpost _ (next id)).mpr ⟨id, by
    rw [if_neg hclash]
    exact ⟨rfl, rfl⟩⟩
  refine ⟨id, next id, fun r hr => (hid r hr).1, ?_⟩
  exact (Prog.solo_bind (p := request (.postDevices _) [201, 409])).mpr
    (.inl ⟨_, _, solo_request.mpr ⟨_, ⟨_, hsolo, rfl⟩, rfl⟩, rfl, rfl⟩)

end Ensure

section Register

variable {email : JsString} {w' : World}

theorem registerUser_of_taken (h : UserTaken key p.db email)
    {out : Except Unit (Option UserRecord)} :
    Prog.Solo (Serves pg st key) (registerUser email) p.world out w' ↔
      ∃ rows, ListTenantUsers key p.db (some 200) rows ∧ out = .ok (foundUser email rows) ∧
        w' = p.world := by
  obtain ⟨next, hpost⟩ := postUsers_solo pg st key
    ⟨email, email, email, bridgeMetadata⟩ p.free h.1 h.1
  -- whatever id is drawn, the address is taken
  have hclash : ∀ id, tables.clashes p.world.store.db (.insert (.user (newUser pg st key
      ⟨email, email, email, bridgeMetadata⟩ p.world.clock id))) = true :=
    fun id => clashes_newUser.mpr (.inr h.2)
  refine (Prog.solo_bind (p := request (.postUsers _) [201, 409])).trans ?_
  constructor
  · rintro (⟨created, w₁, hcreate, hrest⟩ | ⟨e, hcreate, -⟩)
    · obtain ⟨res, ⟨res', hsolo, hres⟩, hcreated⟩ := solo_request.mp hcreate
      cases hres
      obtain ⟨id, hid⟩ := (hpost res w₁).mp hsolo
      rw [if_pos (hclash id)] at hid
      obtain ⟨rfl, rfl⟩ := hid
      cases hcreated
      rcases Prog.solo_bind.mp hrest with ⟨list, w₂, hlist, hend⟩ | ⟨e, hlist, -⟩
      · obtain ⟨res, ⟨rows, hrows, hres, rfl⟩, hlisted⟩ := solo_request.mp hlist
        cases hres
        cases hlisted
        exact ⟨rows, hrows, hend⟩
      · obtain ⟨res, -, herr⟩ := solo_request.mp hlist
        cases herr
    · obtain ⟨res, -, herr⟩ := solo_request.mp hcreate
      cases herr
  · rintro ⟨rows, hrows, rfl, rfl⟩
    have hsolo := (hpost ⟨409, none⟩ p.world).mpr ⟨⟨0, by decide⟩, by
      rw [if_pos (hclash _)]
      exact ⟨rfl, rfl⟩⟩
    refine .inl ⟨_, _, solo_request.mpr ⟨_, ⟨_, hsolo, rfl⟩, rfl⟩, ?_⟩
    exact Prog.solo_bind.mpr (.inl ⟨_, _,
      solo_request.mpr ⟨_, ⟨rows, hrows, rfl, rfl⟩, rfl⟩, rfl, rfl⟩)

/-- Blank: 400 and `null`.  Otherwise 201, with the record of a new row. -/
theorem registerUser_of_free (pg : Jsonb) (st : Settings) (h : ¬ UserTaken key p.db email) : ∃ out w',
    Prog.Solo (Serves pg st key) (registerUser email) p.world (.ok out) w' ∧
      ∀ r ∈ out, ∀ x ∈ p.db, x.id ≠ .user r.id := by
  -- a blank address is refused before any statement
  by_cases hblank : trim email = []
  · refine ⟨none, p.world, ?_, fun r hr => by cases hr⟩
    have hsolo : Prog.Solo (Statement pg) (postUsers st key ⟨email, email, email, bridgeMetadata⟩)
        p.world (.ok ⟨400, none⟩) p.world := by
      unfold postUsers
      rw [if_pos hblank]
      exact ⟨rfl, rfl⟩
    exact (Prog.solo_bind (p := request (.postUsers _) [201, 409])).mpr
      (.inl ⟨_, _, solo_request.mpr ⟨_, ⟨_, hsolo, rfl⟩, rfl⟩, rfl, rfl⟩)
  · obtain ⟨next, hpost⟩ := postUsers_solo pg st key
      ⟨email, email, email, bridgeMetadata⟩ p.free hblank hblank
    -- an id that no row has
    obtain ⟨id, hid⟩ := p.room
    have hclash : ¬ tables.clashes p.world.store.db (.insert (.user (newUser pg st key
        ⟨email, email, email, bridgeMetadata⟩ p.world.clock id))) = true := by
      rw [clashes_newUser]
      rintro (⟨r, hr, heq⟩ | htaken)
      · exact (hid r hr).2 heq
      · exact h ⟨hblank, htaken⟩
    have hsolo := (hpost _ (next id)).mpr ⟨id, by
      rw [if_neg hclash]
      exact ⟨rfl, rfl⟩⟩
    refine ⟨some (userRecord (newUser pg st key ⟨email, email, email, bridgeMetadata⟩
      p.world.clock id)), next id, ?_, ?_⟩
    · exact (Prog.solo_bind (p := request (.postUsers _) [201, 409])).mpr
        (.inl ⟨_, _, solo_request.mpr ⟨_, ⟨_, hsolo, rfl⟩, rfl⟩, rfl, rfl⟩)
    · intro r hr x hx
      cases hr
      exact (hid x hx).2

end Register

/-! ## Finding one's own records -/

section Records

variable {cfg : CentralApiConfig} {email : JsString} {d : Device} {u : TenantUser}

/-- 100 others that are as recent: the lookup may come back with nothing. -/
theorem ensureDevice_misses (pg : Jsonb) (st : Settings) (hd : d ∈ key.devices p.db)
    (hext : d.externalId = cfg.deviceExternalId) (htaken : DeviceTaken key p.db cfg.deviceExternalId)
    (hcrowd : 100 ≤ crowd Device.id Device.createdAt (key.devices p.db) d) :
    Prog.Solo (Serves pg st key) (ensureDevice cfg none) p.world (.ok (none, none)) p.world := by
  have hnd : ((key.devices p.db).map Device.id).Nodup := nodup_device_ids p.distinct
  obtain ⟨rows, hrows, hnot⟩ := exists_listing_of_crowd hnd hd hcrowd
  have hnone : foundDevice cfg rows = none := by
    rw [foundDevice, ← hext]
    exact find_record_none (fun _ => rfl) (fun d' hd' => device_unique p.distinct hd hd')
      (fun y hy => hrows.subset hy) hnot
  exact (ensureDevice_of_taken htaken).mpr ⟨rows, hrows, by rw [hnone], rfl⟩

theorem registerUser_misses (pg : Jsonb) (st : Settings) (hu : u ∈ key.users p.db)
    (hext : u.externalId = email) (htaken : UserTaken key p.db email)
    (hcrowd : 100 ≤ crowd TenantUser.id TenantUser.createdAt (key.users p.db) u) :
    Prog.Solo (Serves pg st key) (registerUser email) p.world (.ok none) p.world := by
  have hnd : ((key.users p.db).map TenantUser.id).Nodup := nodup_user_ids p.distinct
  obtain ⟨rows, hrows, hnot⟩ := exists_listing_of_crowd hnd hu hcrowd
  have hnone : foundUser email rows = none := by
    rw [foundUser, ← hext]
    exact find_record_none (fun _ => rfl) (fun u' hu' => user_unique p.distinct hu hu')
      (fun y hy => hrows.subset hy) hnot
  exact (registerUser_of_taken htaken).mpr ⟨rows, hrows, by rw [hnone], rfl⟩

theorem ensureDevice_surely (hd : d ∈ key.devices p.db) (hext : d.externalId = cfg.deviceExternalId) :
    Prog.Surely (Serves pg st key) (ensureDevice cfg none) p.world
        (fun out => ∃ deviceCache, out = .ok (some (deviceRecord d), deviceCache)) ↔
      DeviceTaken key p.db cfg.deviceExternalId ∧
        crowd Device.id Device.createdAt (key.devices p.db) d < 100 := by
  have hrec : ∀ r : Device, (deviceRecord r).externalId = r.externalId := fun _ => rfl
  -- at most one device of the key has the external id
  have huniq : ∀ d' ∈ key.devices p.db, d'.externalId = d.externalId → d' = d :=
    fun d' hd' => device_unique p.distinct hd hd'
  constructor
  · rintro ⟨-, hall⟩
    -- were it free, a new row with another id could come back
    have htaken : DeviceTaken key p.db cfg.deviceExternalId := by
      by_contra hfree
      obtain ⟨id, w', hid, hsolo⟩ := ensureDevice_of_free pg st hfree
      obtain ⟨deviceCache, hout⟩ := hall _ _ hsolo
      injection hout with hout
      injection hout with hout
      injection hout with hout
      exact hid _ (mem_key_devices.mp hd).1 (congrArg (fun r : DeviceRecord => RowId.device r.id) hout.symm)
    refine ⟨htaken, ?_⟩
    -- a hundred rows that may come first can hide the device
    by_contra hcrowd
    obtain ⟨deviceCache, hout⟩ :=
      hall _ _ (ensureDevice_misses pg st hd hext htaken (not_lt.mp hcrowd))
    cases hout
  · rintro ⟨htaken, hcrowd⟩
    constructor
    · obtain ⟨rows, hrows⟩ := exists_listDevices key p.db (some 200)
      exact ⟨_, _, (ensureDevice_of_taken htaken).mpr ⟨rows, hrows, rfl, rfl⟩⟩
    · intro out w' hsolo
      obtain ⟨rows, hrows, rfl, rfl⟩ := (ensureDevice_of_taken htaken).mp hsolo
      -- with fewer it is on every page that the list may give
      have hmem : d ∈ rows := mem_listing_of_crowd (nodup_device_ids p.distinct) hd hcrowd hrows
      refine ⟨foundDevice cfg rows, ?_⟩
      have hfound : foundDevice cfg rows = some (deviceRecord d) := by
        rw [foundDevice, ← hext]
        exact find_record hrec huniq (fun y hy => hrows.subset hy) hmem
      rw [hfound]

theorem registerUser_surely (hu : u ∈ key.users p.db) (hext : u.externalId = email) :
    Prog.Surely (Serves pg st key) (registerUser email) p.world
        (fun out => out = .ok (some (userRecord u))) ↔
      UserTaken key p.db email ∧
        crowd TenantUser.id TenantUser.createdAt (key.users p.db) u < 100 := by
  have hrec : ∀ r : TenantUser, (userRecord r).externalId = r.externalId := fun _ => rfl
  have huniq : ∀ u' ∈ key.users p.db, u'.externalId = u.externalId → u' = u :=
    fun u' hu' => user_unique p.distinct hu hu'
  constructor
  · rintro ⟨-, hall⟩
    -- were it free, a new row with another id could come back
    have htaken : UserTaken key p.db email := by
      by_contra hfree
      obtain ⟨out, w', hsolo, hnew⟩ := registerUser_of_free pg st hfree
      cases hall _ _ hsolo
      exact hnew _ rfl _ (mem_key_users.mp hu).1 rfl
    refine ⟨htaken, ?_⟩
    -- a hundred rows that may come first can hide the user
    by_contra hcrowd
    have hout := hall _ _ (registerUser_misses pg st hu hext htaken (not_lt.mp hcrowd))
    cases hout
  · rintro ⟨htaken, hcrowd⟩
    constructor
    · obtain ⟨rows, hrows⟩ := exists_listing TenantUser.createdAt (key.users p.db)
        (sanitizeLimit (some 200))
      exact ⟨_, _, (registerUser_of_taken htaken).mpr ⟨rows, hrows, rfl, rfl⟩⟩
    · intro out w' hsolo
      obtain ⟨rows, hrows, rfl, rfl⟩ := (registerUser_of_taken htaken).mp hsolo
      -- with fewer the user is on every page that the list may give
      have hmem : u ∈ rows := mem_listing_of_crowd (nodup_user_ids p.distinct) hu hcrowd hrows
      have hfound : foundUser email rows = some (userRecord u) := by
        rw [foundUser, ← hext]
        exact find_record hrec huniq (fun y hy => hrows.subset hy) hmem
      rw [hfound]

/-- An external id without white space at its ends is taken by the record itself. -/
theorem deviceTaken_of_trim (hd : d ∈ key.devices p.db) (hext : d.externalId = cfg.deviceExternalId)
    (htrim : trim cfg.deviceExternalId = cfg.deviceExternalId) :
    DeviceTaken key p.db cfg.deviceExternalId := ⟨d, hd, hext.trans htrim.symm⟩

theorem userTaken_of_trim (hu : u ∈ key.users p.db) (hext : u.externalId = email)
    (hne : email ≠ []) (htrim : trim email = email) : UserTaken key p.db email :=
  ⟨htrim.symm ▸ hne, u, hu, hext.trans htrim.symm⟩

/-- The bridge comes back with its own device for sure exactly when it is cached, or the id is
    taken and fewer than 100 other devices are as recent; and so for a user. -/
theorem bridge_finds_records (deviceCache : Option DeviceRecord) (hd : d ∈ key.devices p.db)
    (hext : d.externalId = cfg.deviceExternalId) (hu : u ∈ key.users p.db)
    (hemail : u.externalId = email) :
    (Prog.Surely (Serves pg st key) (ensureDevice cfg deviceCache) p.world
        (fun out => ∃ cache, out = .ok (some (deviceRecord d), cache)) ↔
      deviceCache = some (deviceRecord d) ∨
        (deviceCache = none ∧ DeviceTaken key p.db cfg.deviceExternalId ∧
          crowd Device.id Device.createdAt (key.devices p.db) d < 100)) ∧
    (Prog.Surely (Serves pg st key) (registerUser email) p.world
        (fun out => out = .ok (some (userRecord u))) ↔
      UserTaken key p.db email ∧
        crowd TenantUser.id TenantUser.createdAt (key.users p.db) u < 100) := by
  refine ⟨?_, registerUser_surely hu hemail⟩
  cases deviceCache with
  | none =>
      rw [ensureDevice_surely hd hext]
      constructor
      · exact fun h => .inr ⟨rfl, h⟩
      · rintro (h | ⟨-, h⟩)
        · cases h
        · exact h
  | some r =>
      -- the cached record is returned, and nothing is asked
      constructor
      · rintro ⟨-, hall⟩
        obtain ⟨cache, hout⟩ := hall _ p.world ⟨rfl, rfl⟩
        injection hout with hout
        injection hout with hout
        exact .inl hout
      · rintro (h | ⟨h, -⟩)
        · cases h
          exact ⟨⟨_, p.world, rfl, rfl⟩, fun out w' hsolo => ⟨_, hsolo.1⟩⟩
        · cases h

end Records

/-! ## A population of any size -/

def sampleId (i : ℕ) : Uuid := .ofNat i

def sampleKey : ApiKey := ⟨sampleId 0, sampleId 0, js "live"⟩

theorem trim_uuid_text (id : Uuid) : trim id.text = id.text := by
  have hdigit : ∀ d < 16, isWhiteSpace (digitUnit d) = false := by decide
  apply trim_of_forall
  intro u hu
  rcases Uuid.mem_text hu with rfl | ⟨d, hd, rfl⟩
  · decide
  · exact hdigit d hd

/-- Device `i` is created at time `i`, and so is user `i`. -/
def sampleDevice (i : ℕ) : Device :=
  NewDevice.row ⟨(sampleId i).text, js "IoT bridge", .kiosk, none, none, .null⟩ (sampleId i)
    sampleKey.tenantId sampleKey.environment i

def sampleUser (i : ℕ) : TenantUser :=
  NewTenantUser.row ⟨(sampleId i).text, (sampleId i).text, none, none, none, none, .null⟩
    (sampleId i) sampleKey.tenantId sampleKey.environment i

def sampleDb (n : ℕ) : Db :=
  (List.range n).map (fun i => .device (sampleDevice i)) ++
    (List.range n).map fun i => .user (sampleUser i)

theorem sampleId_inj {i j : ℕ} (hi : i < 2 ^ 128) (hj : j < 2 ^ 128)
    (h : sampleId i = sampleId j) : i = j := by
  injection h with h
  rwa [Nat.mod_eq_of_lt hi, Nat.mod_eq_of_lt hj] at h

theorem mem_sampleDb {n : ℕ} {r : Row} : r ∈ sampleDb n ↔
    ∃ i < n, r = .device (sampleDevice i) ∨ r = .user (sampleUser i) := by
  simp only [sampleDb, List.mem_append, List.mem_map, List.mem_range]
  constructor
  · rintro (⟨i, hi, rfl⟩ | ⟨i, hi, rfl⟩)
    · exact ⟨i, hi, .inl rfl⟩
    · exact ⟨i, hi, .inr rfl⟩
  · rintro ⟨i, hi, rfl | rfl⟩
    · exact .inl ⟨i, hi, rfl⟩
    · exact .inr ⟨i, hi, rfl⟩

theorem sampleDb_distinct {n : ℕ} (hn : n < 2 ^ 128) : tables.Distinct (sampleDb n) := by
  constructor
  · rw [sampleDb, List.map_append, List.map_map, List.map_map, List.nodup_append]
    refine ⟨List.Nodup.map_on ?_ List.nodup_range, List.Nodup.map_on ?_ List.nodup_range, ?_⟩
    · intro i hi j hj heq
      injection heq with heq
      exact sampleId_inj (by simp at hi; omega) (by simp at hj; omega) heq
    · intro i hi j hj heq
      injection heq with heq
      exact sampleId_inj (by simp at hi; omega) (by simp at hj; omega) heq
    · intro a ha b hb heq
      obtain ⟨i, -, rfl⟩ := List.mem_map.mp ha
      obtain ⟨j, -, rfl⟩ := List.mem_map.mp hb
      cases heq
  · intro x hx y hy name hnx hny
    obtain ⟨i, hi, rfl | rfl⟩ := mem_sampleDb.mp hx <;>
      obtain ⟨j, hj, rfl | rfl⟩ := mem_sampleDb.mp hy <;>
      cases List.mem_singleton.mp hnx
    · injection List.mem_singleton.mp hny with _ _ htext
      exact congrArg RowId.device (Uuid.text_injective htext)
    · cases List.mem_singleton.mp hny
    · cases List.mem_singleton.mp hny
    · injection List.mem_singleton.mp hny with _ _ htext
      exact congrArg RowId.user (Uuid.text_injective htext)

def samplePopulation (n : ℕ) (hn : n < 2 ^ 128) : Population where
  world := ⟨.init (sampleDb n), n, [], [], []⟩
  free _ := rfl
  distinct := sampleDb_distinct hn
  room := by
    refine ⟨sampleId n, fun r hr => ?_⟩
    obtain ⟨i, hi, rfl | rfl⟩ := mem_sampleDb.mp hr
    · refine ⟨fun heq => ?_, fun heq => by cases heq⟩
      injection heq with heq
      have := sampleId_inj (by omega) hn heq
      omega
    · refine ⟨fun heq => (by cases heq), fun heq => ?_⟩
      injection heq with heq
      have := sampleId_inj (by omega) hn heq
      omega

theorem sampleId_text_ne_nil (i : ℕ) : trim (sampleId i).text ≠ [] := by
  rw [trim_uuid_text]
  simp [Uuid.text]

def sampleConfig : CentralApiConfig where
  baseUrl := js "https://api.zeroauth.dev"
  apiKey := js "za_live_1"
  deviceExternalId := (sampleId 0).text
  deviceName := js "IoT bridge"
  deviceExternalId_nonblank := sampleId_text_ne_nil 0
  deviceName_nonblank := by decide

theorem sampleDevice_mem {n : ℕ} {hn : n < 2 ^ 128} (h : 0 < n) :
    sampleDevice 0 ∈ sampleKey.devices (samplePopulation n hn).db :=
  mem_key_devices.mpr ⟨mem_sampleDb.mpr ⟨0, h, .inl rfl⟩, rfl, rfl⟩

theorem sampleUser_mem {n : ℕ} {hn : n < 2 ^ 128} (h : 0 < n) :
    sampleUser 0 ∈ sampleKey.users (samplePopulation n hn).db :=
  mem_key_users.mpr ⟨mem_sampleDb.mpr ⟨0, h, .inr rfl⟩, rfl, rfl⟩

theorem sampleKey_devices (n : ℕ) :
    sampleKey.devices (sampleDb n) = (List.range n).map sampleDevice := by
  have hd : Db.devices (sampleDb n) = (List.range n).map sampleDevice := by
    simp [Db.devices, sampleDb, List.filterMap_map, Function.comp_def, Row.device?]
  rw [ApiKey.devices, hd, List.filter_eq_self]
  intro d hd
  obtain ⟨i, -, rfl⟩ := List.mem_map.mp hd
  exact decide_eq_true ⟨rfl, rfl⟩

theorem sampleKey_users (n : ℕ) :
    sampleKey.users (sampleDb n) = (List.range n).map sampleUser := by
  have hu : Db.users (sampleDb n) = (List.range n).map sampleUser := by
    simp [Db.users, sampleDb, List.filterMap_map, Function.comp_def, Row.user?]
  rw [ApiKey.users, hu, List.filter_eq_self]
  intro u hu
  obtain ⟨i, -, rfl⟩ := List.mem_map.mp hu
  exact decide_eq_true ⟨rfl, rfl⟩

/-- In a population of `n` the oldest record has all others before it. -/
theorem crowd_sample {α : Type} {row : ℕ → α} {idOf : α → Uuid} {createdAt : α → ℕ} {n : ℕ}
    (hid : ∀ i, idOf (row i) = sampleId i) (htime : ∀ i, createdAt (row i) = i)
    (hn : n < 2 ^ 128) :
    crowd idOf createdAt ((List.range n).map row) (row 0) = n - 1 := by
  rw [crowd, List.countP_map]
  cases n with
  | zero => rfl
  | succ n =>
      rw [List.range_succ_eq_map, List.countP_cons_of_neg (by simp), List.countP_map,
        List.countP_eq_length.mpr, List.length_range]
      · rfl
      · intro i hi
        have hne : sampleId (i + 1) ≠ sampleId 0 := by
          intro heq
          have := sampleId_inj (by simp at hi; omega) (by omega) heq
          omega
        refine decide_eq_true ⟨?_, ?_⟩
        · rw [hid, hid]
          exact hne
        · rw [htime, htime]
          exact Nat.zero_le _

theorem crowd_sampleDevice {n : ℕ} {hn : n < 2 ^ 128} :
    crowd Device.id Device.createdAt (sampleKey.devices (samplePopulation n hn).db)
      (sampleDevice 0) = n - 1 := by
  rw [show (samplePopulation n hn).db = sampleDb n from rfl, sampleKey_devices]
  exact crowd_sample (fun _ => rfl) (fun _ => rfl) hn

theorem crowd_sampleUser {n : ℕ} {hn : n < 2 ^ 128} :
    crowd TenantUser.id TenantUser.createdAt (sampleKey.users (samplePopulation n hn).db)
      (sampleUser 0) = n - 1 := by
  rw [show (samplePopulation n hn).db = sampleDb n from rfl, sampleKey_users]
  exact crowd_sample (fun _ => rfl) (fun _ => rfl) hn

/-- Among three devices and three users the oldest of both is found for sure. -/
theorem bridge_finds_records_three :
    Prog.Surely (Serves jsonb settings sampleKey) (ensureDevice sampleConfig none)
      (samplePopulation 3 (by decide)).world
      (fun out => ∃ cache, out = .ok (some (deviceRecord (sampleDevice 0)), cache)) ∧
    Prog.Surely (Serves jsonb settings sampleKey) (registerUser (sampleUser 0).externalId)
      (samplePopulation 3 (by decide)).world
      (fun out => out = .ok (some (userRecord (sampleUser 0)))) := by
  have hdevice : sampleDevice 0 ∈ sampleKey.devices (samplePopulation 3 (by decide)).db :=
    sampleDevice_mem (by decide)
  have huser : sampleUser 0 ∈ sampleKey.users (samplePopulation 3 (by decide)).db :=
    sampleUser_mem (by decide)
  have hext : (sampleDevice 0).externalId = sampleConfig.deviceExternalId := rfl
  refine ⟨(bridge_finds_records none hdevice hext huser rfl).1.mpr
      (.inr ⟨rfl, deviceTaken_of_trim hdevice hext (trim_uuid_text _), ?_⟩),
    (bridge_finds_records none hdevice hext huser rfl).2.mpr
      ⟨userTaken_of_trim huser rfl ?_ (trim_uuid_text _), ?_⟩⟩
  · rw [crowd_sampleDevice]
    decide
  · simp [sampleUser, NewTenantUser.row, Uuid.text]
  · rw [crowd_sampleUser]
    decide

/-- 101 devices: the bridge's own is the oldest, and `ensureDevice` may come back with
    nothing. -/
theorem bridge_loses_device :
    sampleDevice 0 ∈ sampleKey.devices (samplePopulation 101 (by decide)).db ∧
      (sampleDevice 0).externalId = sampleConfig.deviceExternalId ∧
      Prog.Solo (Serves jsonb settings sampleKey) (ensureDevice sampleConfig none)
        (samplePopulation 101 (by decide)).world (.ok (none, none))
        (samplePopulation 101 (by decide)).world := by
  have hmem : sampleDevice 0 ∈ sampleKey.devices (samplePopulation 101 (by decide)).db :=
    sampleDevice_mem (by decide)
  have htaken : DeviceTaken sampleKey (samplePopulation 101 (by decide)).db
      sampleConfig.deviceExternalId := deviceTaken_of_trim hmem rfl (trim_uuid_text _)
  refine ⟨hmem, rfl, ensureDevice_misses jsonb settings hmem rfl htaken ?_⟩
  rw [crowd_sampleDevice]

end ZeroAuth.Iot.Central
