/-
  ZeroAuth.Records.Scopes

  The tenant and environment of a row, and the rows that it refers to.

  No write moves a row to another scope, and none takes a row away; so what `Has` says
  of a table stays true, also when a transaction commits that began earlier
  (`has_foldl`).  `Pending` collects what the writes of an open transaction satisfy,
  and `Sound` what the database satisfies with all its transactions.
-/

import ZeroAuth.Tenant.Steps

namespace ZeroAuth.Records

open ZeroAuth.Lib ZeroAuth.Js ZeroAuth.Pg ZeroAuth.Tenant

/-! ## Rows -/

/-- A tenant and an environment. -/
abbrev Scope := Uuid × JsString

def scope : Row → Scope
  | .device d => (d.tenantId, d.environment)
  | .session s => (s.tenantId, s.environment)
  | .user u => (u.tenantId, u.environment)

/-- The rows that a row refers to. -/
def refs : Row → List RowId
  | .device _ => []
  | .session s => (s.deviceId.map RowId.device).toList ++ (s.tenantUserId.map RowId.user).toList
  | .user u => (u.primaryDeviceId.map RowId.device).toList

/-- The table has a row of this id in the scope. -/
def Has (db : Db) (id : RowId) (sc : Scope) : Prop := ∃ r ∈ db, r.id = id ∧ scope r = sc

/-- Every row that `r` refers to is known in the scope of `r`. -/
def Refers (known : RowId → Scope → Prop) (r : Row) : Prop := ∀ id ∈ refs r, known id (scope r)

theorem Refers.mono {known known' : RowId → Scope → Prop} {r : Row} (h : Refers known r)
    (hknown : ∀ id sc, known id sc → known' id sc) : Refers known' r :=
  fun id hid => hknown _ _ (h id hid)

/-- A session has one scope. -/
def OneScope (db : Db) : Prop :=
  ∀ id sc sc', Has db (.session id) sc → Has db (.session id) sc' → sc = sc'

/-! ## One write -/

/-- The write keeps scopes.  A session is found by its id alone, so which scope it has
    must be known. -/
def Steady (db : Db) : Write → Prop
  | .insert r => ∀ s, r = .session s → ∀ x ∈ db, x.id ≠ r.id
  | .update old new => new.id = old.id ∧ scope new = scope old ∧
      ∀ s, old = .session s → Has db old.id (scope old)

section Apply

variable {db db' : Db} {w : Write} {id : RowId} {sc : Scope} {old new r : Row}

/-- The rows that an update replaces are in the scope of the new row. -/
theorem scope_of_hits (hone : OneScope db) (hw : Steady db (.update old new)) (hr : r ∈ db)
    (hit : tables.Hits old r) : scope r = scope new := by
  obtain ⟨hid, hnames⟩ := hit
  obtain ⟨-, hscope, hsession⟩ := hw
  rw [hscope]
  cases old with
  | device d =>
      cases r with
      | device d' =>
          obtain ⟨htenant, henv, -⟩ := Name.device.inj (List.head_eq_of_cons_eq hnames)
          exact Prod.ext htenant henv
      | session s => cases hid
      | user u => cases hid
  | session s =>
      have hknown := hsession s rfl
      exact hone s.id _ _ ⟨r, hr, hid, rfl⟩ hknown
  | user u =>
      cases r with
      | device d => cases hid
      | session s => cases hid
      | user u' =>
          obtain ⟨htenant, henv, -⟩ := Name.user.inj (List.head_eq_of_cons_eq hnames)
          exact Prod.ext htenant henv

theorem has_apply (hone : OneScope db) (hw : Steady db w) (h : Has db id sc) :
    Has (tables.apply db w) id sc := by
  obtain ⟨r, hr, hid, hsc⟩ := h
  cases w with
  | insert new => exact ⟨r, Keyed.mem_insert.mpr (.inl hr), hid, hsc⟩
  | update old new =>
      by_cases hit : tables.Hits old r
      · refine ⟨new, Keyed.mem_update.mpr (.inl ⟨rfl, r, hr, hit⟩), ?_, ?_⟩
        · have hold : r.id = old.id := hit.1
          rw [hw.1, ← hold, hid]
        · rw [← scope_of_hits hone hw hr hit, hsc]
      · exact ⟨r, Keyed.mem_update.mpr (.inr ⟨hr, hit⟩), hid, hsc⟩

theorem has_insert (db : Db) (r : Row) : Has (tables.apply db (.insert r)) r.id (scope r) :=
  ⟨r, Keyed.mem_insert.mpr (.inr rfl), rfl, rfl⟩

/-- Only an insert brings a row that was not there. -/
theorem has_of_apply (hone : OneScope db) (hw : Steady db w) (h : Has (tables.apply db w) id sc) :
    Has db id sc ∨ ∃ r, w = .insert r ∧ r.id = id ∧ scope r = sc := by
  obtain ⟨r, hr, hid, hsc⟩ := h
  cases w with
  | insert new =>
      rcases Keyed.mem_insert.mp hr with hr | rfl
      · exact .inl ⟨r, hr, hid, hsc⟩
      · exact .inr ⟨r, rfl, hid, hsc⟩
  | update old new =>
      rcases Keyed.mem_update.mp hr with ⟨rfl, x, hx, hit⟩ | ⟨hr, -⟩
      · refine .inl ⟨x, hx, ?_, ?_⟩
        · have hold : x.id = old.id := hit.1
          rw [hold, ← hw.1, hid]
        · rw [scope_of_hits hone hw hx hit, hsc]
      · exact .inl ⟨r, hr, hid, hsc⟩

/-- A new session has a fresh id. -/
theorem not_has_of_insert (hw : Steady db w) (hins : w = .insert r) {i : Uuid}
    (hid : r.id = .session i) : ¬Has db (.session i) sc := by
  rintro ⟨x, hx, hxid, -⟩
  rw [hins] at hw
  cases r with
  | session s => exact hw s rfl x hx (hxid.trans hid.symm)
  | device d => cases hid
  | user u => cases hid

theorem oneScope_apply (hone : OneScope db) (hw : Steady db w) : OneScope (tables.apply db w) := by
  intro i sc sc' h h'
  rcases has_of_apply hone hw h with h | ⟨r, hins, hid, hsc⟩
  · rcases has_of_apply hone hw h' with h' | ⟨r, hins, hid, -⟩
    · exact hone i sc sc' h h'
    · exact absurd h (not_has_of_insert hw hins hid)
  · rcases has_of_apply hone hw h' with h' | ⟨r', hins', -, hsc'⟩
    · exact absurd h' (not_has_of_insert hw hins hid)
    · obtain rfl := RowWrite.insert.inj (hins.symm.trans hins')
      exact hsc.symm.trans hsc'

end Apply

/-! ## The writes of a transaction -/

/-- Each write keeps scopes, and none opens a session. -/
def SteadyAll (db : Db) (ws : List Write) : Prop :=
  ∀ w ∈ ws, Steady db w ∧ ∀ s, w ≠ .insert (.session s)

section Fold

variable {db db' : Db} {ws : List Write} {w : Write} {id : RowId} {sc : Scope}

theorem Steady.mono (hw : Steady db w) (hs : ∀ s, w ≠ .insert (.session s))
    (hdb : ∀ id sc, Has db id sc → Has db' id sc) : Steady db' w := by
  cases w with
  | insert r =>
      rintro s rfl
      exact absurd rfl (hs s)
  | update old new => exact ⟨hw.1, hw.2.1, fun s hold => hdb _ _ (hw.2.2 s hold)⟩

theorem SteadyAll.mono (h : SteadyAll db ws) (hdb : ∀ id sc, Has db id sc → Has db' id sc) :
    SteadyAll db' ws :=
  fun w hw => ⟨(h w hw).1.mono (h w hw).2 hdb, (h w hw).2⟩

theorem SteadyAll.tail (hone : OneScope db) (h : SteadyAll db (w :: ws)) :
    SteadyAll (tables.apply db w) ws := by
  have hw := (h w List.mem_cons_self).1
  have htail : SteadyAll db ws := fun w' hw' => h w' (List.mem_cons_of_mem _ hw')
  exact htail.mono fun id sc => has_apply hone hw

theorem oneScope_foldl (hone : OneScope db) (h : SteadyAll db ws) :
    OneScope (ws.foldl tables.apply db) := by
  induction ws generalizing db with
  | nil => exact hone
  | cons w ws ih => exact ih (oneScope_apply hone (h w List.mem_cons_self).1) (h.tail hone)

/-- What a table has after the writes of a transaction: what it had, and what they insert. -/
theorem has_foldl (hone : OneScope db) (h : SteadyAll db ws) :
    Has (ws.foldl tables.apply db) id sc ↔
      Has db id sc ∨ ∃ r, .insert r ∈ ws ∧ r.id = id ∧ scope r = sc := by
  induction ws generalizing db with
  | nil => simp
  | cons w ws ih =>
      have hw := (h w List.mem_cons_self).1
      have hrest := ih (oneScope_apply hone hw) (h.tail hone)
      rw [List.foldl_cons, hrest]
      constructor
      · rintro (hhas | ⟨r, hr, hid, hsc⟩)
        · rcases has_of_apply hone hw hhas with hhas | ⟨r, rfl, hid, hsc⟩
          · exact .inl hhas
          · exact .inr ⟨r, List.mem_cons_self, hid, hsc⟩
        · exact .inr ⟨r, List.mem_cons_of_mem _ hr, hid, hsc⟩
      · rintro (hhas | ⟨r, hr, hid, hsc⟩)
        · exact .inl (has_apply hone hw hhas)
        · rcases List.mem_cons.mp hr with rfl | hr
          · refine .inl ?_
            rw [← hid, ← hsc]
            exact has_insert db r
          · exact .inr ⟨r, hr, hid, hsc⟩

/-- When others commit, a transaction goes on seeing what it has seen. -/
theorem has_foldl_mono (hone : OneScope db) (hone' : OneScope db') (h : SteadyAll db ws)
    (hdb : ∀ id sc, Has db id sc → Has db' id sc) (hhas : Has (ws.foldl tables.apply db) id sc) :
    Has (ws.foldl tables.apply db') id sc := by
  rw [has_foldl hone' (h.mono hdb)]
  exact ((has_foldl hone h).mp hhas).imp_left (hdb id sc)

end Fold

/-- The writes of an open transaction. -/
structure Pending (db : Db) (ws : List Write) : Prop where
  steady : SteadyAll db ws
  refers : ∀ w ∈ ws, Refers (Has (ws.foldl tables.apply db)) (newRow w)

/-- The scopes and references of the database and of what its transactions see. -/
structure Sound (s : Store Db Key Write) : Prop where
  oneScope : OneScope s.db
  refers : ∀ r ∈ s.db, Refers (Has s.db) r
  pending : ∀ t tx, s.conns t = .active tx → Pending s.db tx.writes

section Sound

variable {s s' : Store Db Key Write} {db : Db} {ws : List Write} {w : Write}

theorem pending_nil (db : Db) : Pending db [] :=
  ⟨fun _ hw => (nomatch hw), fun _ hw => (nomatch hw)⟩

theorem Pending.mono {db' : Db} (h : Pending db ws) (hone : OneScope db) (hone' : OneScope db')
    (hdb : ∀ id sc, Has db id sc → Has db' id sc) : Pending db' ws :=
  ⟨h.steady.mono hdb, fun w hw => (h.refers w hw).mono fun _ _ =>
    has_foldl_mono hone hone' h.steady hdb⟩

/-- Every row that a transaction sees refers to rows that it sees. -/
theorem Pending.view (h : Pending db ws) (hone : OneScope db)
    (hdb : ∀ r ∈ db, Refers (Has db) r) :
    ∀ r ∈ ws.foldl tables.apply db, Refers (Has (ws.foldl tables.apply db)) r := by
  intro r hr
  rcases Keyed.origin hr with hr | ⟨w, hw, rfl⟩
  · exact (hdb r hr).mono fun id sc hhas => (has_foldl hone h.steady).mpr (.inl hhas)
  · exact h.refers w hw

/-- One more write. -/
theorem Pending.snoc (h : Pending db ws) (hone : OneScope db) (hw : Steady db w)
    (hs : ∀ s, w ≠ .insert (.session s))
    (hrefers : Refers (Has ((ws ++ [w]).foldl tables.apply db)) (newRow w)) :
    Pending db (ws ++ [w]) := by
  have hsteady : SteadyAll db (ws ++ [w]) := by
    intro w' hw'
    rcases List.mem_append.mp hw' with hw' | hw'
    · exact h.steady w' hw'
    · rw [List.mem_singleton.mp hw']
      exact ⟨hw, hs⟩
  refine ⟨hsteady, fun w' hw' => ?_⟩
  rcases List.mem_append.mp hw' with hw' | hw'
  · refine (h.refers w' hw').mono fun id sc hhas => ?_
    rw [has_foldl hone hsteady]
    refine ((has_foldl hone h.steady).mp hhas).imp_right ?_
    rintro ⟨r, hr, hid, hsc⟩
    exact ⟨r, List.mem_append_left _ hr, hid, hsc⟩
  · rw [List.mem_singleton.mp hw']
    exact hrefers

/-- What was known stays known. -/
def Grows (db db' : Db) : Prop := ∀ id sc, Has db id sc → Has db' id sc

theorem Grows.refl (db : Db) : Grows db db := fun _ _ h => h

theorem Grows.trans {db₁ db₂ db₃ : Db} (h : Grows db₁ db₂) (h' : Grows db₂ db₃) :
    Grows db₁ db₃ :=
  fun id sc hhas => h' id sc (h id sc hhas)

/-- The tables stay as they are, and at most an empty transaction is opened. -/
theorem Sound.quiet (h : Sound s) (hdb : s'.db = s.db)
    (hconns : ∀ t tx, s'.conns t = .active tx → s.conns t = .active tx ∨ tx.writes = []) :
    Sound s' := by
  refine ⟨hdb ▸ h.oneScope, hdb ▸ h.refers, fun t tx htx => ?_⟩
  rw [hdb]
  rcases hconns t tx htx with htx | hnil
  · exact h.pending t tx htx
  · rw [hnil]
    exact pending_nil s.db

/-- The tables change to `db'`. -/
theorem Sound.replace (h : Sound s) (hgrows : Grows s.db s'.db) (hone : OneScope s'.db)
    (hrefers : ∀ r ∈ s'.db, Refers (Has s'.db) r)
    (hconns : ∀ t tx, s'.conns t = .active tx → s.conns t = .active tx) : Sound s' :=
  ⟨hone, hrefers, fun t tx htx => (h.pending t tx (hconns t tx htx)).mono h.oneScope hone hgrows⟩

theorem Sound.commit (h : Sound s) {t : ℕ} {tx : Tx Write} (hconn : s.conns t = .active tx)
    (hdb : s'.db = tx.writes.foldl tables.apply s.db)
    (hconns : ∀ t' tx', s'.conns t' = .active tx' → s.conns t' = .active tx') :
    Sound s' ∧ Grows s.db s'.db := by
  have hpending := h.pending t tx hconn
  have hgrows : Grows s.db s'.db := by
    intro id sc hhas
    rw [hdb, has_foldl h.oneScope hpending.steady]
    exact .inl hhas
  refine ⟨h.replace hgrows ?_ ?_ hconns, hgrows⟩
  · rw [hdb]
    exact oneScope_foldl h.oneScope hpending.steady
  · rw [hdb]
    exact hpending.view h.oneScope h.refers

/-- One write outside any transaction. -/
theorem Sound.apply (h : Sound s) (hw : Steady s.db w)
    (hrefers : Refers (Has (tables.apply s.db w)) (newRow w)) (hdb : s'.db = tables.apply s.db w)
    (hconns : ∀ t tx, s'.conns t = .active tx → s.conns t = .active tx) :
    Sound s' ∧ Grows s.db s'.db := by
  have hgrows : Grows s.db s'.db := by
    intro id sc hhas
    rw [hdb]
    exact has_apply h.oneScope hw hhas
  refine ⟨h.replace hgrows ?_ (fun r hr => ?_) hconns, hgrows⟩
  · rw [hdb]
    exact oneScope_apply h.oneScope hw
  · have hr' : r ∈ [w].foldl tables.apply s.db := by
      rw [hdb] at hr
      exact hr
    rcases Keyed.origin hr' with hr | ⟨w', hw', heq⟩
    · exact (h.refers r hr).mono hgrows
    · rw [hdb, ← heq, List.mem_singleton.mp hw']
      exact hrefers

end Sound

end ZeroAuth.Records
