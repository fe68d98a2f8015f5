/-
  ZeroAuth.Audit.Anchor

  What the payload of a daily anchor says about the chain.

  `created_at` is the time at which the transaction of an append began, the id is
  drawn later, and the row is seen by others when the transaction commits.  As
  long as every append commits on the day it began, the rows of a day that is
  over stand together in the chain and stay as they are
  (`anchor_is_day_head`).
-/

import ZeroAuth.Audit.Pack
import ZeroAuth.Lib.Sorting

namespace ZeroAuth.Audit

open ZeroAuth.Lib ZeroAuth.Js ZeroAuth.Pg

/-- The UTC day of `created_at`. -/
def AuditRow.day (r : AuditRow) : ℤ := utcDay r.createdAt

/-- Rows of earlier days have smaller ids. -/
def DayOrdered (rows : List AuditRow) : Prop :=
  ∀ r ∈ rows, ∀ s ∈ rows, r.day < s.day → r.id < s.id

/-- What an open transaction has written carries the time it began and, if that
    was today, larger ids than the rows of earlier days. -/
structure TxOk (w : World) (tx : Tx AuditRow) : Prop where
  now : tx.now ≤ w.clock
  stamped : ∀ s ∈ tx.writes, s.createdAt = tx.now
  drawn : ∀ s ∈ tx.writes, s.id < w.nextId
  above : utcDay tx.now = utcDay w.clock →
    ∀ s ∈ tx.writes, ∀ r ∈ w.store.db, r.day < utcDay w.clock → r.id < s.id

/-- The table in day order, with rows from the past only. -/
structure AnchorInv (w : World) : Prop where
  ordered : DayOrdered w.store.db
  ids : ∀ r ∈ w.store.db, r.id < w.nextId
  past : ∀ r ∈ w.store.db, r.day ≤ utcDay w.clock
  pending : ∀ t tx, w.store.conns t = .active tx → TxOk w tx

/-- The transaction of connection `t`, if it has written anything, began today. -/
def CommitsToday (t : ℕ) (w : World) : Prop :=
  ∀ tx, w.store.conns t = .active tx → tx.writes ≠ [] → utcDay tx.now = utcDay w.clock

section Steps

variable {w w' : World} {t : ℕ} {tx : Tx AuditRow}

/-- An empty transaction that begins now. -/
theorem TxOk.empty (w : World) : TxOk w ⟨w.clock, []⟩ :=
  ⟨Nat.le_refl _, by simp, by simp, by simp⟩

theorem AnchorInv.empty (h : Empty w) : AnchorInv w := by
  have hdb : w.store.db = [] := by rw [h]; rfl
  refine ⟨by simp [DayOrdered, hdb], by simp [hdb], by simp [hdb], fun t tx htx => ?_⟩
  rw [h] at htx
  cases htx

theorem AnchorInv.quiet (h : AnchorInv w) (hq : Quiet w w') : AnchorInv w' := by
  refine ⟨hq.db.symm ▸ h.ordered, ?_, ?_, fun t tx htx => ?_⟩
  · rw [hq.db, hq.nextId]
    exact h.ids
  · rw [hq.db, hq.clock]
    exact h.past
  · obtain hold | rfl := hq.conns t tx htx
    · have hok := h.pending t tx hold
      refine ⟨?_, hok.stamped, ?_, ?_⟩
      · rw [hq.clock]
        exact hok.now
      · rw [hq.nextId]
        exact hok.drawn
      · rw [hq.clock, hq.db]
        exact hok.above
    · rw [← hq.clock]
      exact TxOk.empty w'

theorem AnchorInv.insert (h : AnchorInv w) (htx : w.store.conns t = .active tx) {r : AuditRow}
    (hid : r.id = w.nextId) (hnow : r.createdAt = tx.now) :
    AnchorInv { w.setStore (w.store.write t r) with nextId := w.nextId + 1 } := by
  have hdb : (w.store.write t r).db = w.store.db := Store.write_db w.store t r
  have hmono : ∀ {n : ℕ}, n < w.nextId → n < w.nextId + 1 := fun hn => Nat.lt_succ_of_lt hn
  refine ⟨hdb.symm ▸ h.ordered, fun s hs => hmono (h.ids s (hdb ▸ hs)), hdb.symm ▸ h.past,
    fun t' tx' htx' => ?_⟩
  have hconns : (w.store.write t r).conns t' = .active tx' := htx'
  rw [Store.write_of_active htx] at hconns
  by_cases ht : t' = t
  · subst ht
    cases (Store.setConn_conns_self _ _ _).symm.trans hconns
    have hok := h.pending t' tx htx
    refine ⟨hok.now, fun s hs => ?_, fun s hs => ?_, fun htoday s hs r' hr' hday => ?_⟩
    · rcases List.mem_append.mp hs with hs | hs
      · exact hok.stamped s hs
      · rw [List.mem_singleton.mp hs]
        exact hnow
    · rcases List.mem_append.mp hs with hs | hs
      · exact hmono (hok.drawn s hs)
      · rw [List.mem_singleton.mp hs, hid]
        exact Nat.lt_succ_self _
    · have hr₀ : r' ∈ w.store.db := hdb ▸ hr'
      rcases List.mem_append.mp hs with hs | hs
      · exact hok.above htoday s hs r' hr₀ hday
      · rw [List.mem_singleton.mp hs, hid]
        exact h.ids r' hr₀
  · have hok := h.pending t' tx' ((Store.setConn_conns_of_ne ht _).symm.trans hconns)
    exact ⟨hok.now, hok.stamped, fun s hs => hmono (hok.drawn s hs), hdb.symm ▸ hok.above⟩

/-- A transaction that commits today has written rows of today. -/
theorem AnchorInv.today (h : AnchorInv w) (htx : w.store.conns t = .active tx)
    (htoday : CommitsToday t w) : ∀ s ∈ tx.writes, s.day = utcDay w.clock := by
  intro s hs
  rw [AuditRow.day, (h.pending t tx htx).stamped s hs]
  exact htoday tx htx (List.ne_nil_of_mem hs)

/-- A COMMIT adds rows of today below those of later days, of which there are
    none, and above those of earlier days. -/
theorem AnchorInv.commit (h : AnchorInv w) (htx : w.store.conns t = .active tx)
    (htoday : CommitsToday t w) : AnchorInv (w.setStore (w.store.commit addRow t)) := by
  have hok := h.pending t tx htx
  have hdb : (w.store.commit addRow t).db = w.store.db ++ tx.writes := commit_db htx
  -- the rows that are added carry today's date
  have hday := h.today htx htoday
  -- and ids above those of the days before
  have habove : ∀ s ∈ tx.writes, ∀ r ∈ w.store.db, r.day < utcDay w.clock → r.id < s.id :=
    fun s hs => hok.above (htoday tx htx (List.ne_nil_of_mem hs)) s hs
  have hmem : ∀ {r}, r ∈ (w.store.commit addRow t).db → r ∈ w.store.db ∨ r ∈ tx.writes :=
    fun hr => List.mem_append.mp (hdb ▸ hr)
  refine ⟨fun r hr s hs hlt => ?_, fun r hr => ?_, fun r hr => ?_, fun t' tx' htx' => ?_⟩
  · -- two rows: old or new each
    rcases hmem hr with hr | hr
    · rcases hmem hs with hs | hs
      · exact h.ordered r hr s hs hlt
      · exact habove s hs r hr (hday s hs ▸ hlt)
    · rcases hmem hs with hs | hs
      · have hpast := h.past s hs
        rw [hday r hr] at hlt
        omega
      · rw [hday r hr, hday s hs] at hlt
        omega
  · rcases hmem hr with hr | hr
    · exact h.ids r hr
    · exact hok.drawn r hr
  · rcases hmem hr with hr | hr
    · exact h.past r hr
    · exact (hday r hr).le
  · have hconns : (w.store.commit addRow t).conns t' = .active tx' := htx'
    rw [Store.commit_of_active htx] at hconns
    by_cases ht : t' = t
    · subst ht
      cases (Store.drop_conns_self w.store t' .idle).symm.trans hconns
    · have hok' := h.pending t' tx' ((Store.drop_conns_of_ne ht .idle).symm.trans hconns)
      refine ⟨hok'.now, hok'.stamped, hok'.drawn, fun htoday' s hs r hr hlt => ?_⟩
      rcases hmem hr with hr | hr
      · exact hok'.above htoday' s hs r hr hlt
      · have hlt' : r.day < utcDay w.clock := hlt
        rw [hday r hr] at hlt'
        omega

theorem AnchorInv.tick (h : AnchorInv w) (ms : ℕ) : AnchorInv { w with clock := w.clock + ms } := by
  have hclock : utcDay w.clock ≤ utcDay (w.clock + ms : ℕ) := utcDay_mono (by omega)
  refine ⟨h.ordered, h.ids, fun r hr => (h.past r hr).trans hclock, fun t tx htx => ?_⟩
  have hok := h.pending t tx htx
  refine ⟨hok.now.trans (Nat.le_add_right _ _), hok.stamped, hok.drawn,
    fun htoday s hs r hr hlt => ?_⟩
  -- a transaction that began on the new day began on the old one, and they are one
  have hnow : utcDay tx.now ≤ utcDay w.clock := utcDay_mono (by exact_mod_cast hok.now)
  have hsame : utcDay tx.now = utcDay w.clock := le_antisymm hnow (htoday ▸ hclock)
  have hlt' : r.day < utcDay (w.clock + ms : ℕ) := hlt
  have htoday' : utcDay tx.now = utcDay (w.clock + ms : ℕ) := htoday
  exact hok.above hsame s hs r hr (by omega)

theorem AnchorInv.exec {pg : Postgres} {o : Op} {ω : Oracle} {r : Except DbError o.Resp}
    (h : AnchorInv w) (hx : exec pg t o ω w = some (r, w'))
    (htoday : o = .commit → CommitsToday t w) : AnchorInv w' := by
  obtain hquiet | ⟨v, tx, u, m, -, htx, rfl⟩ | ⟨tx, hop, htx, rfl⟩ := exec_cases hx
  · exact h.quiet hquiet
  · exact h.insert htx rfl rfl
  · exact h.commit htx (htoday hop)

theorem AnchorInv.env {e : Env} (h : AnchorInv w) (he : env e w = some w') : AnchorInv w' := by
  cases e with
  | tick ms =>
      cases he
      exact h.tick ms
  | cut t =>
      simp only [Audit.env] at he
      split at he <;> cases he
      · exact h.quiet (quiet_failed w t)
      · exact h

end Steps

/-! ## Days that are over -/

/-- Rows of other days do not show among those of a day. -/
theorem dayRows_append {l ws : List AuditRow} {D : ℤ} (h : ∀ r ∈ ws, r.day ≠ D) (u : Uuid)
    (e : Option JsString) : dayRows (l ++ ws) u e D = dayRows l u e D := by
  have hnone : (rowsOf ws u e).filter (fun r => decide (utcDay r.createdAt = D)) = [] := by
    refine List.filter_eq_nil_iff.mpr fun r hr => ?_
    have hday : utcDay r.createdAt ≠ D := h r (mem_rowsOf hr).1
    rw [decide_eq_true_iff]
    exact hday
  have hsort : ∀ l, dayRows l u e D = ((rowsOf l u e).filter fun r =>
      decide (utcDay r.createdAt = D)).insertionSort fun r s => r.id ≤ s.id :=
    fun l => filter_insertionSort _ _
  rw [hsort, hsort, rowsOf_append, List.filter_append, hnone, List.append_nil]

/-- In a table in day order the rows of a day stand together in the chain. -/
theorem chainOf_eq_append {l : List AuditRow} (h : DayOrdered l) (u : Uuid) (e : Option JsString)
    (D : ℤ) : ∃ before after, chainOf l u e = before ++ dayRows l u e D ++ after ∧
      (∀ r ∈ before, r.day < D) ∧ (∀ r ∈ after, D < r.day) := by
  have hmem : ∀ r ∈ chainOf l u e, r ∈ l := fun r hr =>
    (mem_rowsOf ((List.mem_insertionSort _).mp hr)).1
  have hsorted : (chainOf l u e).Pairwise fun r s => r.id ≤ s.id :=
    List.pairwise_insertionSort _ _
  have hdays : (chainOf l u e).Pairwise fun r s => r.day ≤ s.day := by
    refine List.Pairwise.imp_of_mem (fun {r s} hr hs hid => ?_) hsorted
    by_contra hlt
    have hback := h s (hmem s hs) r (hmem r hr) (lt_of_not_ge hlt)
    omega
  refine ⟨_, _, eq_append_of_pairwise_key hdays D, fun r hr => ?_, fun r hr => ?_⟩
  · exact of_decide_eq_true (List.mem_filter.mp hr).2
  · exact of_decide_eq_true (List.mem_filter.mp hr).2

/-- What stands in the table for day `D` is what stood there in `w₀`. -/
structure Settled (D : ℤ) (w₀ w : World) : Prop where
  inv : AnchorInv w
  past : D < utcDay w.clock
  same : ∀ u e, dayRows w.store.db u e D = dayRows w₀.store.db u e D

section Runs

variable {pg : Postgres} {ethers : Ethers} {c c₀ c' : ReportConfig} {D : ℤ}

theorem Settled.exec {w₀ w w' : World} {t : ℕ} {o : Op} {ω : Oracle} {r : Except DbError o.Resp}
    (h : Settled D w₀ w) (hx : exec pg t o ω w = some (r, w'))
    (htoday : o = .commit → CommitsToday t w) : Settled D w₀ w' := by
  refine ⟨h.inv.exec hx htoday, (exec_clock hx).symm ▸ h.past, fun u e => ?_⟩
  obtain hsame | ⟨tx, hop, htx, hdb⟩ := exec_db hx
  · rw [hsame]
    exact h.same u e
  · rw [hdb, dayRows_append fun r hr => ?_]
    · exact h.same u e
    · rw [h.inv.today htx (htoday hop) r hr]
      exact h.past.ne'

theorem Settled.env {w₀ w w' : World} {e : Env} (h : Settled D w₀ w) (he : env e w = some w') :
    Settled D w₀ w' := by
  refine ⟨h.inv.env he, ?_, ?_⟩
  · cases e with
    | tick ms =>
        cases he
        have hmono : utcDay w.clock ≤ utcDay (w.clock + ms : ℕ) := utcDay_mono (by omega)
        exact h.past.trans_le hmono
    | cut t =>
        simp only [Audit.env] at he
        split at he <;> cases he <;> exact h.past
  · cases e with
    | tick ms =>
        cases he
        exact h.same
    | cut t =>
        simp only [Audit.env] at he
        split at he <;> cases he <;> exact h.same

/-- Every transaction that has written something commits on the day it began. -/
def SameDay (c : ReportConfig) : Label ReportsCall Oracle ReportsEnv → Prop
  | .resume t _ => ∀ a past k,
      c.threads[t]? = some ⟨a, past, .await (S := reportsSig) (.inl .commit) k⟩ →
        CommitsToday t c.world.audit
  | _ => True

/-- What statements and the environment keep, a step of the whole system keeps. -/
theorem audit_step {P : World → Prop} {l : Label ReportsCall Oracle ReportsEnv}
    (hexec : ∀ t o ω r w w', P w → exec pg t o ω w = some (r, w') →
      (o = .commit → CommitsToday t w) → P w')
    (henv : ∀ e w w', P w → env e w = some w' → P w') (h : P c.world.audit) (hg : SameDay c l)
    (hs : (reports pg ethers).step c l = some c') : P c'.world.audit := by
  obtain ⟨a, rfl, rfl⟩ | ⟨t, ω, a, past, o, k, r, w, rfl, hth, hx, rfl⟩ | ⟨e, w, rfl, hw, rfl⟩ :=
    System.step_cases hs
  · exact h
  · cases o with
    | inl o =>
        obtain ⟨r₀, w₁, hx₁, -, rfl⟩ := reportsExec_inl hx
        refine hexec t o ω r₀ _ w₁ h hx₁ ?_
        rintro rfl
        exact hg a past k hth
    | inr q =>
        obtain ⟨rfl, -⟩ := reportsExec_query hx
        exact h
  · cases e with
    | audit e =>
        obtain ⟨w₁, hw₁, rfl⟩ := Option.map_eq_some_iff.mp hw
        exact henv e _ w₁ h hw₁
    | setTenants tenants =>
        cases hw
        exact h
    | setAnchors anchors =>
        cases hw
        exact h

theorem anchorInv_of_reach
    (h : (reports pg ethers).Reach (fun w => Empty w.audit) SameDay c) :
    AnchorInv c.world.audit := by
  induction h with
  | init hw => exact .empty hw
  | step _ hg hs ih =>
      exact audit_step (fun t o ω r w w' hI => hI.exec) (fun e w w' hI => hI.env) ih hg hs

/-- A day that is over stays as it is. -/
theorem settled_of_later (hI : AnchorInv c₀.world.audit) (hover : D < utcDay c₀.world.audit.clock)
    (hl : (reports pg ethers).Later SameDay c₀ c) :
    Settled D c₀.world.audit c.world.audit := by
  induction hl with
  | refl => exact ⟨hI, hover, fun _ _ => rfl⟩
  | tail _ hn ih =>
      obtain ⟨l, hg, hs⟩ := hn
      exact audit_step (fun t o ω r w w' hS => hS.exec) (fun e w w' hS => hS.env) ih hg hs

/-- The `event_hash` of the newest row of a day, and the number of its rows. -/
def dayTerminal (rows : List AuditRow) (u : Uuid) (e : Option JsString) (D : ℤ) :
    Option (Option JsString × ℕ) :=
  (dayRows rows u e D).getLast?.map fun r => (r.eventHash, (dayRows rows u e D).length)

/-- An answer about day `D` is that of the given table. -/
def AnswersFrom (D : ℤ) (rows : List AuditRow) : ReportAct → Prop
  | ⟨.inr (.dayTerminal text e day), .ok row⟩ => utcDay day = D →
      ∃ u, Uuid.parse text = some u ∧ row = dayTerminal rows u e D
  | _ => True

/-- Calls that start when the day is over read the same rows. -/
theorem answersFrom_of_later (hI : AnchorInv c₀.world.audit)
    (hover : D < utcDay c₀.world.audit.clock) (hl : (reports pg ethers).Later SameDay c₀ c) {t : ℕ}
    (ht : c₀.threads.length ≤ t) {th : ReportThread} (hth : c.threads[t]? = some th) :
    ∀ x ∈ th.past, AnswersFrom D c₀.world.audit.store.db x := by
  refine System.Later.past_invariant (P := fun _ past => ∀ x ∈ past,
    AnswersFrom D c₀.world.audit.store.db x) (fun _ => by simp) ?_ hl ht hth
  intro c₁ t' ω a past o k r w hl₁ _ _ hx ih x hmem
  rcases List.mem_append.mp hmem with hmem | hmem
  · exact ih x hmem
  · rw [List.mem_singleton.mp hmem]
    cases o with
    | inl o => trivial
    | inr q =>
        cases q with
        | dayTerminal text e day =>
            cases r with
            | error err => trivial
            | ok row =>
                rintro rfl
                obtain ⟨u, hu, rfl⟩ := forTenant_eq_ok (reportsExec_query_ok hx)
                refine ⟨u, hu, ?_⟩
                have hsame := (settled_of_later hI hover hl₁).same u e
                rw [dayTerminal, ← hsame]
        | _ => trivial

/-- A payload is made of one answer about its day. -/
theorem ends_payload (tenantId : JsString) (e : Option JsString) (ms : ℤ) :
    Prog.Ends (fun es out => ∀ p, out = .ok (.payload p) → ∃ row,
        (⟨.inr (.dayTerminal tenantId e (floorToUtcMidnight ms)), .ok row⟩ : ReportAct) ∈ es ∧
          p = anchorPayload ethers tenantId e (floorToUtcMidnight ms) row)
      (reportsCode ethers (.payload tenantId e ms)) := by
  refine Prog.ends_bind.mpr (Prog.ends_perform_bind.mpr
    ⟨fun (row : Option (Option JsString × ℕ)) => ?_, fun err p hp => by cases hp⟩)
  rintro p hp
  cases hp
  exact ⟨row, by simp, rfl⟩

/-- What a call that starts when its day is over returns. -/
theorem payload_of_later (h : (reports pg ethers).Reach (fun w => Empty w.audit) SameDay c₀)
    (hl : (reports pg ethers).Later SameDay c₀ c) {t : ℕ} (ht : c₀.threads.length ≤ t)
    {th : ReportThread} (hth : c.threads[t]? = some th) {tenantId : JsString}
    {e : Option JsString} {ms : ℤ} (hcall : th.call = .payload tenantId e ms)
    (hover : utcDay ms < utcDay c₀.world.audit.clock) {p : Option AnchorPayload}
    (hout : th.rest.outcome? = some (.ok (.payload p))) :
    ∃ u, Uuid.parse tenantId = some u ∧ p = anchorPayload ethers tenantId e
      (floorToUtcMidnight ms) (dayTerminal c.world.audit.store.db u e (utcDay ms)) := by
  have hI := anchorInv_of_reach h
  have hends := (h.later hl).ends hth (hcall ▸ ends_payload tenantId e ms) hout
  obtain ⟨row, hrow, rfl⟩ := hends p rfl
  obtain ⟨u, hu, rfl⟩ := answersFrom_of_later hI hover hl ht hth _ hrow
    (utcDay_floorToUtcMidnight ms)
  refine ⟨u, hu, ?_⟩
  have hsame := (settled_of_later hI hover hl).same u e
  rw [dayTerminal, dayTerminal, hsame]

end Runs

/-- In runs whose appends commit on the day they began: once a day is over its
    rows stand together in the chain, between those of earlier and those of
    later days, every payload that is computed from then on is that of the last
    of them, and all of these are the same. -/
theorem anchor_is_day_head (pg : Postgres) (ethers : Ethers) {c₀ c : ReportConfig}
    (h : (reports pg ethers).Reach (fun w => Empty w.audit) SameDay c₀)
    (hl : (reports pg ethers).Later SameDay c₀ c) {t : ℕ} (ht : c₀.threads.length ≤ t)
    {th : ReportThread} (hth : c.threads[t]? = some th) {tenantId : JsString}
    {e : Option JsString} {ms : ℤ} (hcall : th.call = .payload tenantId e ms)
    (hover : utcDay ms < utcDay c₀.world.audit.clock) {p : Option AnchorPayload}
    (hout : th.rest.outcome? = some (.ok (.payload p))) :
    ∃ u before rows after, Uuid.parse tenantId = some u ∧
      chainOf c.world.audit.store.db u e = before ++ rows ++ after ∧
      (∀ s ∈ rows, s.day = utcDay ms) ∧
      (∀ r ∈ before, r.day < utcDay ms ∧ ∀ s ∈ rows, r.id < s.id) ∧
      (∀ r ∈ after, utcDay ms < r.day ∧ ∀ s ∈ rows, s.id < r.id) ∧
      p = anchorPayload ethers tenantId e (floorToUtcMidnight ms)
        (rows.getLast?.map fun r => (r.eventHash, rows.length)) ∧
      ∀ t' th', c₀.threads.length ≤ t' → c.threads[t']? = some th' → th'.call = th.call →
        ∀ p', th'.rest.outcome? = some (.ok (.payload p')) → p' = p := by
  obtain ⟨u, hu, rfl⟩ := payload_of_later h hl ht hth hcall hover hout
  have hI := anchorInv_of_reach (h.later hl)
  -- since ids follow the days, the rows of the day are a stretch of the chain
  obtain ⟨before, after, hchain, hbefore, hafter⟩ := chainOf_eq_append hI.ordered u e (utcDay ms)
  have hrows : ∀ s ∈ dayRows c.world.audit.store.db u e (utcDay ms), s.day = utcDay ms :=
    fun s hs => of_decide_eq_true (List.mem_filter.mp hs).2
  have hmem : ∀ r ∈ chainOf c.world.audit.store.db u e, r ∈ c.world.audit.store.db :=
    fun r hr => (mem_rowsOf ((List.mem_insertionSort _).mp hr)).1
  have hdb : ∀ s ∈ dayRows c.world.audit.store.db u e (utcDay ms), s ∈ c.world.audit.store.db :=
    fun s hs => hmem s (List.mem_filter.mp hs).1
  refine ⟨u, before, _, after, hu, hchain, hrows, fun r hr => ⟨hbefore r hr, fun s hs => ?_⟩,
    fun r hr => ⟨hafter r hr, fun s hs => ?_⟩, rfl, ?_⟩
  · have hr' : r ∈ c.world.audit.store.db := hmem r (by rw [hchain]; simp [hr])
    exact hI.ordered r hr' s (hdb s hs) (hrows s hs ▸ hbefore r hr)
  · have hr' : r ∈ c.world.audit.store.db := hmem r (by rw [hchain]; simp [hr])
    exact hI.ordered s (hdb s hs) r hr' (hrows s hs ▸ hafter r hr)
  · -- a later computation sees the same rows
    intro t' th' ht' hth' hcall' p' hout'
    obtain ⟨u', hu', rfl⟩ := payload_of_later h hl ht' hth' (hcall'.trans hcall) hover hout'
    cases hu.symm.trans hu'
    rfl

/-! ### Around midnight -/

/-- The last millisecond of 1970-01-01. -/
def beforeMidnight : Reports :=
  { audit := ⟨.init [], 1, 86399999, []⟩
    tenants := []
    anchors := [] }

def appendCall : ReportsCall := .audit (.append (integrityCheck tenantLower))

/-- The payload of 1970-01-01. -/
def firstDayCall : ReportsCall := .payload tenantLower none 0

/-- Two appends; the first one begins before midnight and takes the lock after the
    second one's COMMIT.  The payload is asked for two days later. -/
def aroundMidnight : List (Label ReportsCall Oracle ReportsEnv) :=
  [.start appendCall, .start appendCall, .resume 0 .proceed, .resume 0 .proceed,
    .env (.audit (.tick 1))] ++ List.replicate 6 (.resume 1 .proceed) ++
    List.replicate 4 (.resume 0 .proceed) ++
    [.env (.audit (.tick 86400000)), .start firstDayCall, .resume 2 .proceed]

/-- Whether the thread has returned the payload of 1970-01-01. -/
def firstDayReturned (th : ReportThread) : Bool :=
  match th.call, th.rest with
  | .payload text none ms, .ret (.payload _) => text = tenantLower ∧ ms = 0
  | _, _ => false

theorem exists_payload_of_returned {th : ReportThread} (h : firstDayReturned th = true) :
    th.call = firstDayCall ∧ ∃ p, th.rest.outcome? = some (.ok (.payload p)) := by
  obtain ⟨call, past, rest⟩ := th
  simp only [firstDayReturned] at h
  split at h
  · next text ms p =>
      obtain ⟨rfl, rfl⟩ := of_decide_eq_true h
      exact ⟨rfl, p, rfl⟩
  · cases h

/-- The chain's ids and days, and whether thread `t` has returned. -/
def anchorSummary (t : ℕ) (c : ReportConfig) : List (ℕ × ℤ) × ℤ × Bool :=
  ((chainOf c.world.audit.store.db tenant none).map fun r => (r.id, r.day),
    utcDay c.world.audit.clock, c.threads[t]?.any firstDayReturned)

/-- The row of the later day comes first in the chain. -/
theorem day_rows_out_of_order : ∃ c th p r s,
    (reports postgres noEthers).Reach (fun w => Empty w.audit) (fun _ _ => True) c ∧
      c.threads[2]? = some th ∧ th.call = .payload tenantLower none 0 ∧
      th.rest.outcome? = some (.ok (.payload p)) ∧
      r ∈ chainOf c.world.audit.store.db tenant none ∧
      s ∈ dayRows c.world.audit.store.db tenant none 0 ∧
      0 < r.day ∧ r.day < utcDay c.world.audit.clock ∧ r.id < s.id := by
  have hrun : ((reports postgres noEthers).run (.init beforeMidnight) aroundMidnight).map
      (anchorSummary 2) = some ([(1, 1), (2, 0)], 2, true) := by
    decide +kernel
  obtain ⟨c, hc, hsummary⟩ := Option.map_eq_some_iff.mp hrun
  obtain ⟨hchain, hclock, hreturned⟩ : _ ∧ _ ∧ _ := by
    simpa only [anchorSummary, Prod.mk.injEq] using hsummary
  obtain ⟨th, hth, hret⟩ := (Option.any_eq_true _ _).mp hreturned
  obtain ⟨hcall, p, hout⟩ := exists_payload_of_returned hret
  -- the two rows, with their ids and days
  obtain ⟨r, rest, hrows, hr, hrest⟩ := List.map_eq_cons_iff.mp hchain
  obtain ⟨s, rest', rfl, hs, -⟩ := List.map_eq_cons_iff.mp hrest
  obtain ⟨hrid, hrday⟩ := Prod.mk.inj hr
  obtain ⟨hsid, hsday⟩ := Prod.mk.inj hs
  refine ⟨c, th, p, r, s, System.Reach.run (.init (by exact rfl))
    (System.keeps_of_forall fun _ _ _ => trivial) hc, hth, hcall, hout, ?_, ?_, ?_, ?_, ?_⟩
  · rw [hrows]
    simp
  · rw [dayRows, hrows]
    exact List.mem_filter.mpr ⟨by simp, decide_eq_true hsday⟩
  · omega
  · omega
  · omega

/-- A COMMIT of a transaction that has written nothing or began today. -/
def sameDayTest (c : ReportConfig) : Label ReportsCall Oracle ReportsEnv → Bool
  | .resume t _ =>
      match c.threads[t]? with
      | some ⟨_, _, .await (.inl .commit) _⟩ =>
          match c.world.audit.store.conns t with
          | .active tx => utcDay tx.now = utcDay c.world.audit.clock
          | _ => true
      | _ => true
  | _ => true

theorem sameDay_of_test {c : ReportConfig} {l : Label ReportsCall Oracle ReportsEnv}
    (h : sameDayTest c l = true) : SameDay c l := by
  cases l with
  | resume t ω =>
      intro a past k hth tx htx _
      simpa [sameDayTest, hth, htx] using h
  | start a => trivial
  | env e => trivial

/-- Two appends before midnight, the second one waiting for the first, and a third one
    afterwards. -/
def twoDays : List (Label ReportsCall Oracle ReportsEnv) :=
  List.flatten [[.start appendCall, .start appendCall, .resume 1 .proceed],
    List.replicate 6 (.resume 0 .proceed), List.replicate 5 (.resume 1 .proceed),
    [.env (.audit (.tick 1)), .start appendCall], List.replicate 6 (.resume 2 .proceed)]

/-- The payload of the first day is that of the second of its two rows. -/
theorem anchor_is_day_head_of_two : ∃ (c : ReportConfig) (th : ReportThread)
    (p : Option AnchorPayload) (u : Uuid) (before rows after : List AuditRow),
    c.threads[3]? = some th ∧ th.call = .payload tenantLower none 0 ∧
    th.rest.outcome? = some (.ok (.payload p)) ∧
    chainOf c.world.audit.store.db u none = before ++ rows ++ after ∧
    rows.map AuditRow.id = [1, 2] ∧
    p = anchorPayload noEthers tenantLower none (floorToUtcMidnight 0)
      (rows.getLast?.map fun r => (r.eventHash, rows.length)) := by
  have hrun : ((reports postgres noEthers).runChecked sameDayTest (.init beforeMidnight)
      twoDays).any (fun c₀ => decide (c₀.threads.length = 3) &&
      decide (utcDay c₀.world.audit.clock = 1) &&
      ((reports postgres noEthers).runChecked sameDayTest c₀
        [.start firstDayCall, .resume 3 .proceed]).any fun c =>
          decide (anchorSummary 3 c = ([(1, 0), (2, 0), (3, 1)], 1, true))) = true := by
    decide +kernel
  obtain ⟨c₀, hc₀, hrest⟩ := (Option.any_eq_true _ _).mp hrun
  simp only [Bool.and_eq_true, decide_eq_true_eq] at hrest
  obtain ⟨⟨hlength, hclock⟩, hrest⟩ := hrest
  obtain ⟨c, hc, hsummary⟩ := (Option.any_eq_true _ _).mp hrest
  obtain ⟨hchain, -, hreturned⟩ : _ ∧ _ ∧ _ := by
    simpa only [anchorSummary, Prod.mk.injEq] using of_decide_eq_true hsummary
  obtain ⟨th, hth, hret⟩ := (Option.any_eq_true _ _).mp hreturned
  obtain ⟨hcall, p, hout⟩ := exists_payload_of_returned hret
  have hreach : (reports postgres noEthers).Reach (fun w => Empty w.audit) SameDay c₀ :=
    System.Reach.runChecked (.init (by exact rfl)) (fun _ _ => sameDay_of_test) hc₀
  have hlater := System.later_of_runChecked (fun _ _ => sameDay_of_test) hc
  have hover : utcDay 0 < utcDay c₀.world.audit.clock := by
    rw [hclock]
    decide
  obtain ⟨u, before, rows, after, hu, hsplit, hrows, hbefore, hafter, hp, -⟩ :=
    anchor_is_day_head postgres noEthers hreach hlater hlength.le hth hcall hover hout
  obtain rfl : tenant = u := Option.some.inj ((by rfl : Uuid.parse tenantLower = some tenant).symm.trans hu)
  refine ⟨c, th, p, tenant, before, rows, after, hth, hcall, hout, hsplit, ?_, hp⟩
  -- the rows of the day, picked from the ids and days of the whole chain
  have hids : rows.map AuditRow.id = ((chainOf c.world.audit.store.db tenant none).filter
      fun r => r.day = utcDay 0).map AuditRow.id := by
    rw [hsplit, List.filter_append, List.filter_append,
      List.filter_eq_nil_iff.mpr fun r hr => by simpa using (hbefore r hr).1.ne,
      List.filter_eq_self.mpr fun r hr => by simpa using hrows r hr,
      List.filter_eq_nil_iff.mpr fun r hr => by simpa using (hafter r hr).1.ne',
      List.nil_append, List.append_nil]
  have hpicked : ((chainOf c.world.audit.store.db tenant none).filter
      fun r => r.day = utcDay 0).map AuditRow.id =
      ((((chainOf c.world.audit.store.db tenant none).map fun r => (r.id, r.day)).filter
        fun x => x.2 = utcDay 0).map Prod.fst) := by
    rw [List.filter_map, List.map_map]
    rfl
  rw [hids, hpicked, hchain]
  rfl

end ZeroAuth.Audit
