/-
  ZeroAuth.Tenant.Isolation

  The rows of a tenant's environment change in its own name only.

  A console or an API key names its tenant in every statement that it makes (`in_code`), and
  such a statement finds and leaves rows of that tenant alone (`owner_of_scope`).  A phone names
  no tenant: its calls are made in the name of a code, and what they write belongs to the owner
  of the row whose code it is.
-/

import ZeroAuth.Lib.History
import ZeroAuth.Tenant.Committed
import ZeroAuth.Tenant.Revocation

namespace ZeroAuth.Tenant

open ZeroAuth.Lib ZeroAuth.Js ZeroAuth.Pg

/-- The tenant and the environment that a row belongs to. -/
def Row.owner : Row → Uuid × JsString
  | device d => (d.tenantId, d.environment)
  | session s => (s.tenantId, s.environment)
  | user u => (u.tenantId, u.environment)

/-- The row has been in the tables. -/
def Known (c : State) (r : Row) : Prop := ∃ e ∈ c.world.store.journal, newRow e.2 = r

section Statements

variable {pg : Jsonb} {db : Db} {now : ℕ} {ω : Oracle}

/-- An update leaves its row with its owner. -/
theorem owner_of_change {q : Sql} {old new : Row} (h : Change pg q (.update old new)) :
    new.owner = old.owner := by
  cases h <;> rfl

/-- The device that a session is paired with belongs to the owner of the session. -/
theorem owner_of_paired {input : PairInput} {s : RegistrationSession} {write : Write}
    (h : Change pg (.upsertDevice (pairedDevice input s)) write) :
    (newRow write).owner = (Row.session s).owner := by
  cases h with
  | deviceReenrolled now hmeets =>
      obtain ⟨htenant, henv, -⟩ := of_decide_eq_true hmeets
      exact Prod.ext htenant henv
  | devicePaired id now => rfl

theorem owner_of_insert {r : Row} {α : Type} {row : α → Row} {x : α} {write : Write}
    (h : (Answer.insert row x).write = some write) (hr : r ∈ write.rows) : r = row x := by
  cases h
  exact List.mem_singleton.mp hr

/-- What an UPDATE of one owner's rows writes. -/
theorem owner_of_update {α : Type} {row : α → Row} {rows : List α} {p : α → Bool} {f : α → α}
    {owner : Uuid × JsString} {write : Write} {r : Row}
    (h : (Answer.update row rows p f).write = some write) (hr : r ∈ write.rows)
    (hp : ∀ x, p x = true → (row x).owner = owner) (hf : ∀ x, (row (f x)).owner = (row x).owner) :
    r.owner = owner := by
  obtain ⟨x, -, hpx, rfl⟩ := update_write h
  rcases List.mem_cons.mp hr with rfl | hr
  · exact hp x hpx
  · obtain rfl := List.mem_singleton.mp hr
    exact (hf x).trans (hp x hpx)

theorem Device.owner_of_isOwn {d : Device} {id u : Uuid} {environment : JsString}
    (h : d.isOwn id u environment = true) : (Row.device d).owner = (u, environment) := by
  obtain ⟨-, hu, henv⟩ := of_decide_eq_true h
  exact Prod.ext hu henv

theorem RegistrationSession.owner_of_isOwn {s : RegistrationSession} {id u : Uuid}
    {environment : JsString} (h : s.isOwn id u environment = true) :
    (Row.session s).owner = (u, environment) := by
  obtain ⟨-, hu, henv⟩ := of_decide_eq_true h
  exact Prod.ext hu henv

theorem TenantUser.owner_of_isOwn {r : TenantUser} {id u : Uuid} {environment : JsString}
    (h : r.isOwn id u environment = true) : (Row.user r).owner = (u, environment) := by
  obtain ⟨-, hu, henv⟩ := of_decide_eq_true h
  exact Prod.ext hu henv

/-- A statement in the name of a tenant finds and leaves that tenant's rows. -/
theorem owner_of_scope {q : Sql} {a : Answer q.Resp} {write : Write} {tenantId env : JsString}
    (h : q.run pg db now ω = .ok a) (hw : a.write = some write)
    (hs : q.scope = some (tenantId, env)) :
    ∃ u, Uuid.parse tenantId = some u ∧ ∀ r ∈ write.rows, r.owner = (u, env) := by
  cases q with
  | insertDevice _ _ v =>
      cases hs
      obtain ⟨u, hu, rfl⟩ := withUuid_ok h
      exact ⟨u, hu, fun r hr => by rw [owner_of_insert hw hr]; rfl⟩
  | insertSlot _ _ v =>
      cases hs
      obtain ⟨u, hu, rfl⟩ := withUuid_ok h
      exact ⟨u, hu, fun r hr => by rw [owner_of_insert hw hr]; rfl⟩
  | insertSession _ _ v =>
      cases hs
      obtain ⟨u, hu, rfl⟩ := withUuid_ok h
      exact ⟨u, hu, fun r hr => by rw [owner_of_insert hw hr]; rfl⟩
  | insertUser _ _ v =>
      cases hs
      obtain ⟨u, hu, rfl⟩ := withUuid_ok h
      exact ⟨u, hu, fun r hr => by rw [owner_of_insert hw hr]; rfl⟩
  | insertFaceFirst _ _ v =>
      cases hs
      obtain ⟨u, hu, rfl⟩ := withUuid_ok h
      exact ⟨u, hu, fun r hr => by rw [owner_of_insert hw hr]; rfl⟩
  | reissueCode =>
      cases hs
      obtain ⟨id, u, -, hu, rfl⟩ := withOwner_ok h
      refine ⟨u, hu, fun r hr => owner_of_update hw hr (fun d hd => ?_) fun d => rfl⟩
      rw [Bool.and_eq_true] at hd
      exact Device.owner_of_isOwn hd.1
  | revoke =>
      cases hs
      obtain ⟨id, u, -, hu, rfl⟩ := withOwner_ok h
      exact ⟨u, hu, fun r hr =>
        owner_of_update hw hr (fun d hd => Device.owner_of_isOwn hd) fun d => rfl⟩
  | updateDevice =>
      cases hs
      obtain ⟨id, u, -, hu, rfl⟩ := withOwner_ok h
      exact ⟨u, hu, fun r hr =>
        owner_of_update hw hr (fun d hd => Device.owner_of_isOwn hd) fun d => rfl⟩
  | abandonSession =>
      cases hs
      obtain ⟨id, u, -, hu, rfl⟩ := withOwner_ok h
      exact ⟨u, hu, fun r hr =>
        owner_of_update hw hr (fun s hs => RegistrationSession.owner_of_isOwn hs) fun s => rfl⟩
  | updateUser =>
      cases hs
      obtain ⟨id, u, -, hu, rfl⟩ := withOwner_ok h
      exact ⟨u, hu, fun r hr =>
        owner_of_update hw hr (fun s hs => TenantUser.owner_of_isOwn hs) fun s => rfl⟩
  | selectDevice =>
      obtain ⟨id, u, -, -, rfl⟩ := withOwner_ok h
      cases hw
  | selectSession =>
      obtain ⟨id, u, -, -, rfl⟩ := withOwner_ok h
      cases hw
  | findDid =>
      obtain ⟨u, -, rfl⟩ := withUuid_ok h
      cases hw
  | _ => cases hs

end Statements

/-! ## One call -/

section Reach

variable {cfg : Settings} {pg : Jsonb} {c c' : State} {t : ℕ} {write : Write}

theorem known_of_mem (h : (system cfg pg).Reach Empty (fun _ _ => True) c) {r : Row}
    (hr : r ∈ c.world.store.db) : Known c r := by
  obtain ⟨t, write, hwrite, hnew⟩ := (inv_shaped h).origin hr
  exact ⟨_, hwrite, hnew⟩

theorem Known.later (h : (system cfg pg).Reach Empty (fun _ _ => True) c) {r : Row}
    (hr : Known c r) (hlater : (system cfg pg).Later (fun _ _ => True) c c') : Known c' r := by
  obtain ⟨e, he, hnew⟩ := hr
  exact ⟨e, (journal_later h hlater).subset he, hnew⟩

/-- The row that a committed update has found has been in the tables. -/
theorem known_of_update (h : (system cfg pg).Reach Empty (fun _ _ => True) c) {old new : Row}
    (hw : (t, .update old new) ∈ c.world.store.journal) : Known c old := by
  obtain ⟨write, hwrite, hfound⟩ := Keyed.found_of_runs (inv_shaped h).serial.history
    (List.mem_map_of_mem hw)
  obtain ⟨e, he, rfl⟩ := List.mem_map.mp hwrite
  exact ⟨e, he, hfound⟩

end Reach

end ZeroAuth.Tenant
