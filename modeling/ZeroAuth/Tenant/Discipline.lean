/-
  ZeroAuth.Tenant.Discipline

  Invariant and interference for the services on devices, registrations and users.

  `Inv`: the committed writes are changes that fit, one after the other, and so are the
  pending ones of every transaction; every cached demo code belongs to a write that its
  call has committed, and so does an event about the end of a session.  What a call
  knows of the world between two statements is `Done` outside a transaction and `Opened`
  inside one; both survive what other calls do.

  Everything is stated for runs in which operations complete only where `ok` allows
  it, and in which therefore every write satisfies `extra`.
-/

import ZeroAuth.Audit.VerificationEvents
import ZeroAuth.Tenant.Changes

namespace ZeroAuth.Tenant

open ZeroAuth.Lib ZeroAuth.Js ZeroAuth.Pg
open ZeroAuth.Audit (ChainedAuditPayload metaProp stringOrNull)

/-! ## The end of a session -/

/-- The `registration.completed` event of a session. -/
def IsCompletedEntry (id : Uuid) (payload : ChainedAuditPayload) : Prop :=
  payload.action = js "registration.completed" ∧
    stringOrNull (metaProp payload.metadata (js "sessionId")) = some id.text

/-- The `registration.abandoned` event of a session. -/
def IsAbandonedEntry (id : Uuid) (payload : ChainedAuditPayload) : Prop :=
  payload.action = js "registration.abandoned" ∧ payload.entityId = some id.text

instance (id : Uuid) : DecidablePred (IsCompletedEntry id) :=
  fun _ => inferInstanceAs (Decidable (_ ∧ _))

instance (id : Uuid) : DecidablePred (IsAbandonedEntry id) :=
  fun _ => inferInstanceAs (Decidable (_ ∧ _))

/-- The event reports that the session has ended in this state. -/
def Reports (id : Uuid) : RegistrationState → ChainedAuditPayload → Prop
  | .completed, payload => IsCompletedEntry id payload
  | .abandoned, payload => IsAbandonedEntry id payload
  | _, _ => False

/-- The write is the one that the event reports; an abandoned session may have been over
    before. -/
def Concludes (id : Uuid) : RegistrationState → Write → Prop
  | .completed, write => ∃ s userId now, s.id = id ∧
      write = .update (.session s) (.session (s.completed userId now))
  | .abandoned, write => ∃ s now, s.id = id ∧
      write = .update (.session s) (.session (s.abandoned now))
  | _, _ => False

/-- Events that do not report the end of a session. -/
def Unfinal (ps : List ChainedAuditPayload) : Prop :=
  ∀ p ∈ ps, p.action ≠ js "registration.completed" ∧ p.action ≠ js "registration.abandoned"

theorem unfinal_nil : Unfinal [] := by
  intro p hp
  cases hp

theorem unfinal_of_action (action : String) {p : ChainedAuditPayload} (h : p.action = js action)
    (ha : js action ≠ js "registration.completed" ∧ js action ≠ js "registration.abandoned") :
    Unfinal [p] := by
  intro p' hp'
  rw [List.mem_singleton.mp hp', h]
  exact ha

theorem Unfinal.not_reports {ps : List ChainedAuditPayload} (h : Unfinal ps)
    {p : ChainedAuditPayload} (hp : p ∈ ps) (id : Uuid) (state : RegistrationState) :
    ¬ Reports id state p := by
  intro hr
  obtain ⟨hcompleted, habandoned⟩ := h p hp
  cases state with
  | completed => exact hcompleted hr.1
  | abandoned => exact habandoned hr.1
  | awaitingDevice => exact hr
  | awaitingCommitment => exact hr
  | awaitingVerification => exact hr

theorem IsCompletedEntry.reports {id id' : Uuid} {state : RegistrationState}
    {p : ChainedAuditPayload} (h : IsCompletedEntry id p) (hr : Reports id' state p) :
    id' = id ∧ state = .completed := by
  have hne : js "registration.completed" ≠ js "registration.abandoned" := by decide
  cases state with
  | completed =>
      have htext : some id'.text = some id.text := hr.2.symm.trans h.2
      exact ⟨Uuid.text_injective (Option.some.inj htext), rfl⟩
  | abandoned => exact absurd (h.1.symm.trans hr.1) hne
  | awaitingDevice => exact hr.elim
  | awaitingCommitment => exact hr.elim
  | awaitingVerification => exact hr.elim

theorem IsAbandonedEntry.reports {id id' : Uuid} {state : RegistrationState}
    {p : ChainedAuditPayload} (h : IsAbandonedEntry id p) (hr : Reports id' state p) :
    id' = id ∧ state = .abandoned := by
  have hne : js "registration.abandoned" ≠ js "registration.completed" := by decide
  cases state with
  | abandoned =>
      have htext : some id'.text = some id.text := hr.2.symm.trans h.2
      exact ⟨Uuid.text_injective (Option.some.inj htext), rfl⟩
  | completed => exact absurd (h.1.symm.trans hr.1) hne
  | awaitingDevice => exact hr.elim
  | awaitingCommitment => exact hr.elim
  | awaitingVerification => exact hr.elim

/-! ## The invariant -/

/-- The state in which a session waits for a step. -/
def Step.state : Step → RegistrationState
  | pair => .awaitingDevice
  | enroll => .awaitingCommitment
  | verify => .awaitingVerification

/-- The column of a step's code. -/
def RegistrationSession.codeHash (s : RegistrationSession) : Step → Option JsString
  | .pair => s.pairCodeHash
  | .enroll => s.enrollCodeHash
  | .verify => s.verifyCodeHash

/-- The entry is the code that the row has been left to wait for. -/
def CodeOf (r : Row) (sessionId : JsString) (entry : DemoPendingCode) : Prop :=
  ∃ s, r = .session s ∧ sessionId = s.id.text ∧ s.state = entry.step.state ∧
    s.codeHash entry.step = some (sha256Hex entry.code) ∧
    entry.deeplink = stepDeeplink entry.step s.id entry.code entry.challengeNonce

/-- The changes, restricted to writes that satisfy `extra`. -/
def rules (pg : Jsonb) (extra : Write → Prop) : Rules tables.schema :=
  tables.rules fun w => (∃ q, Change pg q w) ∧ extra w

structure Inv (pg : Jsonb) (extra : Write → Prop) (w : World) : Prop where
  serial : w.store.Serial (rules pg extra) []
  cached : ∀ e ∈ w.demoCodes, ∃ write ∈ w.store.committedBy e.1, CodeOf (newRow write) e.2.1 e.2.2
  announced : ∀ t, w.spawnedBy t = [] ∨ ∃ p, w.spawnedBy t = [p] ∧
    ∀ id state, Reports id state p → ∃ write ∈ w.store.committedBy t, Concludes id state write

/-- What `ok` allows satisfies `extra`. -/
structure Guards (pg : Jsonb) (ok : ℕ → Op → Oracle → World → Prop) (extra : Write → Prop) :
    Prop where
  pool : ∀ {t ω w q a write}, ok t (.pool q) ω w → q.run pg w.store.db w.clock ω = .ok a →
    a.write = some write → Change pg q write → extra write
  query : ∀ {t ω w tx q a write}, ok t (.query q) ω w → w.store.conns t = .active tx →
    q.run pg (w.view t) tx.now ω = .ok a → a.write = some write → Change pg q write → extra write

theorem guards_true (pg : Jsonb) : Guards pg (fun _ _ _ _ => True) (fun _ => True) :=
  ⟨fun _ _ _ _ => trivial, fun _ _ _ _ _ => trivial⟩

section Inv

variable {pg : Jsonb} {extra : Write → Prop} {w w' : World} {t : ℕ}

theorem distinct_nil : tables.Distinct [] := Keyed.Distinct.nil tables

/-- Ids and names are unique in what every call sees. -/
theorem Inv.distinct_view (h : Inv pg extra w) (t : ℕ) : tables.Distinct (w.view t) :=
  h.serial.invariant_view distinct_nil (fun _ _ hd hw => hd.apply hw.1) t

theorem Inv.distinct (h : Inv pg extra w) : tables.Distinct w.store.db :=
  h.serial.invariant distinct_nil fun _ _ hd hw => hd.apply hw.1

/-- The committed writes only grow. -/
theorem committedBy_subset {s s' : Store Db Key Write} (h : s.journal <+: s'.journal) {write : Write}
    (hw : write ∈ s.committedBy t) : write ∈ s'.committedBy t :=
  Store.mem_committedBy.mpr (h.subset (Store.mem_committedBy.mp hw))

theorem Inv.extra_of_mem (h : Inv pg extra w) {write : Write} (hw : (t, write) ∈ w.store.journal) :
    (∃ q, Change pg q write) ∧ extra write :=
  Keyed.allowed_of_runs h.serial.history (List.mem_map_of_mem hw)

/-- A row of the tables was left there by a committed write. -/
theorem Inv.origin (h : Inv pg extra w) {r : Row} (hr : r ∈ w.store.db) :
    ∃ t write, (t, write) ∈ w.store.journal ∧ newRow write = r := by
  rw [h.serial.db_eq] at hr
  rcases Keyed.origin hr with hr | ⟨write, hwrite, heq⟩
  · cases hr
  · obtain ⟨⟨t, write⟩, he, rfl⟩ := List.mem_map.mp hwrite
    exact ⟨t, write, he, heq⟩

/-- What a committed write has made true of a row, and every change keeps, is true of it
    now. -/
theorem Inv.persists (h : Inv pg extra w) {P : Row → Prop}
    (hP : ∀ q old new, Change pg q (.update old new) → extra (.update old new) → P old → P new)
    {write : Write} (hw : (t, write) ∈ w.store.journal) (hp : P (newRow write)) :
    ∃ r ∈ w.store.db, r.id = (newRow write).id ∧ P r := by
  rw [h.serial.db_eq]
  refine Keyed.persists (fun old new hallowed hold => ?_) h.serial.history
    (List.mem_map_of_mem hw) hp
  obtain ⟨⟨q, hchange⟩, hextra⟩ := hallowed
  exact hP q old new hchange hextra hold

theorem Inv.setStore {s : Store Db Key Write} (h : Inv pg extra w)
    (hs : s.Serial (rules pg extra) []) (hj : w.store.journal <+: s.journal) :
    Inv pg extra (w.setStore s) := by
  refine ⟨hs, fun e he => ?_, fun t => (h.announced t).imp id ?_⟩
  · obtain ⟨write, hwrite, hcode⟩ := h.cached e he
    exact ⟨write, committedBy_subset hj hwrite, hcode⟩
  · rintro ⟨p, hp, hends⟩
    refine ⟨p, hp, fun id state hr => ?_⟩
    obtain ⟨write, hwrite, hconcludes⟩ := hends id state hr
    exact ⟨write, committedBy_subset hj hwrite, hconcludes⟩

theorem Inv.unheard (h : Inv pg extra w) (t : ℕ) : Inv pg extra (w.unheard t) :=
  ⟨h.serial, h.cached, h.announced⟩

theorem inv_empty (h : Empty w) : Inv pg extra w := by
  obtain ⟨hstore, hspawned, hcodes, -⟩ := h
  refine ⟨hstore ▸ Store.serial_init _ _, fun e he => ?_, fun t => .inl ?_⟩
  · rw [hcodes] at he
    cases he
  · rw [World.spawnedBy, hspawned]
    rfl

end Inv

/-! ## The discipline -/

section Discipline

variable (cfg : Settings) (pg : Jsonb) (ok : ℕ → Op → Oracle → World → Prop)
  (extra : Write → Prop)

/-- Nobody commits a second time. -/
def CommitsOnce (s s' : Store Db Key Write) : Prop :=
  ∀ t, s.committedBy t ≠ [] → s'.committedBy t = s.committedBy t

theorem CommitsOnce.of_journal {s s' : Store Db Key Write} (h : s'.journal = s.journal) :
    CommitsOnce s s' :=
  fun t _ => Store.committedBy_of_journal_eq h t

theorem CommitsOnce.of_append {s s' : Store Db Key Write} {t : ℕ} {ws : List Write}
    (hmine : s.committedBy t = []) (h : s'.journal = s.journal ++ ws.map fun w => (t, w)) :
    CommitsOnce s s' := by
  intro t' ht'
  have hne : t' ≠ t := by
    rintro rfl
    exact ht' hmine
  rw [Store.committedBy_append h, if_neg hne]

theorem CommitsOnce.trans {s₁ s₂ s₃ : Store Db Key Write} (h₁ : CommitsOnce s₁ s₂)
    (h₂ : CommitsOnce s₂ s₃) : CommitsOnce s₁ s₃ := by
  intro t ht
  have heq := h₁ t ht
  rw [h₂ t (heq ▸ ht), heq]

/-- What call `t` may rely on. -/
structure Relies (t : ℕ) (w w' : World) : Prop where
  store : Store.Rely tables.schema t w.store w'.store
  said : w'.spawnedBy t = w.spawnedBy t
  once : CommitsOnce w.store w'.store
  lost : w.unanswered ⊆ w'.unanswered

/-- Outside a transaction; the call has committed `ws` and started the events `ps`. -/
structure Done (t : ℕ) (ws : List Write) (ps : List ChainedAuditPayload) (w : World) : Prop where
  conn : w.store.conns t = .idle
  mine : w.store.committedBy t = ws
  said : w.spawnedBy t = ps

/-- The call has done nothing that lasts. -/
structure Undone (t : ℕ) (w : World) : Prop where
  mine : w.store.committedBy t = []
  said : w.spawnedBy t = []

theorem Done.undone {t : ℕ} {w : World} (h : Done t [] [] w) : Undone t w := ⟨h.mine, h.said⟩

theorem Relies.refl (t : ℕ) (w : World) : Relies t w w := ⟨.refl _ t _, rfl, .of_journal rfl, fun _ ht => ht⟩

theorem Relies.trans {t : ℕ} {w₁ w₂ w₃ : World} (h₁ : Relies t w₁ w₂) (h₂ : Relies t w₂ w₃) :
    Relies t w₁ w₃ :=
  ⟨h₁.store.trans h₂.store, h₂.said.trans h₁.said, h₁.once.trans h₂.once,
    fun _ ht => h₂.lost (h₁.lost ht)⟩

theorem Done.rely {t : ℕ} {ws : List Write} {ps : List ChainedAuditPayload} {w w' : World}
    (h : Done t ws ps w) (hr : Relies t w w') : Done t ws ps w' := by
  refine ⟨?_, hr.store.mine.trans h.mine, hr.said.trans h.said⟩
  rw [hr.store.conns_of_not_active fun tx htx => ?_]
  · exact h.conn
  · rw [h.conn] at htx
    cases htx

/-- The environment never ends a transaction other than by cutting it off. -/
theorem env_ok {e : Env} {w w' : World} (hi : Inv pg extra w) (he : env e w = some w') :
    Inv pg extra w' ∧ ∀ t, Relies t w w' := by
  cases e with
  | tick ms =>
      cases he
      exact ⟨⟨hi.serial, hi.cached, hi.announced⟩, fun t => ⟨.refl _ t _, rfl, .of_journal rfl, fun _ ht => ht⟩⟩
  | cut t =>
      simp only [env] at he
      split at he
      · next tx htx =>
          cases he
          refine ⟨hi.setStore (hi.serial.drop t fun tx => by simp) (List.prefix_refl _), fun t' => ?_⟩
          exact ⟨Store.rely_cut htx t', rfl, .of_journal rfl, fun _ ht => ht⟩
      · cases he
        exact ⟨hi, fun t' => .refl t' w⟩

noncomputable def discipline : Discipline ((system cfg pg).guarded ok) where
  inv := Inv pg extra
  rely := Relies
  fresh t w := Done t [] [] w
  rely_refl := Relies.refl
  rely_trans := Relies.trans
  fresh_rely h hr := h.rely hr
  env_ok := env_ok pg extra

end Discipline

/-- Inside a transaction that began at `now`, with the writes `ws` so far and perhaps a row
    that it has locked; or the transaction has failed. -/
structure Opened (pg : Jsonb) (extra : Write → Prop) (t now : ℕ) (ws : List Write)
    (row : Option Row) (w : World) : Prop where
  inv : Inv pg extra w
  mine : w.store.committedBy t = []
  said : w.spawnedBy t = []
  conn : w.store.conns t = .failed ∨ (w.store.conns t = .active ⟨now, ws⟩ ∧
    ∀ r ∈ row, w.store.locks (.row r.id) = some t ∧ r ∈ w.view t)

section Opened

variable {pg : Jsonb} {extra : Write → Prop} {w w' : World} {t now : ℕ} {ws : List Write}
  {row row' : Option Row}

theorem view_of_active {tx : Tx Write} (h : w.store.conns t = .active tx) :
    w.view t = tx.writes.foldl tables.apply w.store.db := by
  simp only [World.view, Store.view, h]

/-- What the transaction has locked looks the same to it, whatever others commit. -/
theorem same_view (hi : Inv pg extra w) (hr : Relies t w w') {tx : Tx Write}
    (h : w.store.conns t = .active tx) (h' : w'.store.conns t = .active tx) {k : Key}
    (hk : w.store.locks k = some t) : tables.Same k (w.view t) (w'.view t) := by
  obtain ⟨-, hlocked⟩ := hr.store.of_active h'
  rw [view_of_active h, view_of_active h']
  refine (rules pg extra).same_foldl_congr (fun write hwrite k' hk' => ?_) (hlocked k hk).2
  exact (hlocked k' (hi.serial.locked.covered h write hwrite k' hk')).2

theorem Opened.rely (h : Opened pg extra t now ws row w) (hi : Inv pg extra w')
    (hr : Relies t w w') : Opened pg extra t now ws row w' := by
  refine ⟨hi, hr.store.mine.trans h.mine, hr.said.trans h.said, ?_⟩
  rcases h.conn with hfailed | ⟨hactive, hheld⟩
  · left
    rw [hr.store.conns_of_not_active fun tx htx => ?_]
    · exact hfailed
    · rw [hfailed] at htx
      cases htx
  · rcases hr.store.kept with ⟨hconn, hlocks⟩ | ⟨-, hfailed⟩
    · right
      have hactive' := hconn.trans hactive
      refine ⟨hactive', fun r hrow => ⟨(hlocks _ (hheld r hrow).1).1, ?_⟩⟩
      exact (same_view h.inv hr hactive hactive' (hheld r hrow).1 r rfl).mp (hheld r hrow).2
    · exact .inl hfailed

theorem Opened.forget (h : Opened pg extra t now ws row w) :
    Opened pg extra t now ws none w := by
  refine ⟨h.inv, h.mine, h.said, h.conn.imp id fun hactive => ⟨hactive.1, fun r hr => ?_⟩⟩
  cases hr

theorem Opened.undone (h : Opened pg extra t now ws row w) : Undone t w := ⟨h.mine, h.said⟩

end Opened

end ZeroAuth.Tenant
