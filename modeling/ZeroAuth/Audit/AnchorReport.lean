/-
  ZeroAuth.Audit.AnchorReport

  What the report of an anchor job says after failures.

  The transaction is pushed before its audit event is appended, so when the append
  fails the pair is both staged and in error, and no row tells of it.  The report is
  consistent exactly if no statement of an append has failed
  (`report_consistent_iff`).
-/

import ZeroAuth.Audit.AnchorTurns
import ZeroAuth.Audit.Replay

namespace ZeroAuth.Audit

open ZeroAuth.Lib ZeroAuth.Js ZeroAuth.Pg

variable {ethers : Ethers} {day : ℤ} {text environment : JsString}

/-! ## Rows of a thread -/

/-- The values of an INSERT are those of a row. -/
def Written (pg : Postgres) (v : InsertValues) (rows : List AuditRow) : Prop :=
  ∃ id now u m, Uuid.parse v.tenantId = some u ∧ v.metadata = some m ∧ v.row pg id now u m ∈ rows

theorem Written.mono {pg : Postgres} {v : InsertValues} {rows rows' : List AuditRow}
    (h : Written pg v rows) (hsub : ∀ r ∈ rows, r ∈ rows') : Written pg v rows' := by
  obtain ⟨id, now, u, m, hu, hm, hmem⟩ := h
  exact ⟨id, now, u, m, hu, hm, hsub _ hmem⟩

section Exec

variable {pg : Postgres} {t : ℕ} {ω : Oracle} {w w' : World}

theorem exec_insert_ok {v : InsertValues} {id : JsString}
    (h : exec pg t (.insert v) ω w = some (.ok id, w')) :
    ∃ (tx : Tx AuditRow) (u : Uuid) (m : Json), Uuid.parse v.tenantId = some u ∧ v.metadata = some m ∧
      w'.store.conns t = .active { tx with writes := tx.writes ++ [v.row pg w.nextId tx.now u m] } := by
  simp only [exec, inTransaction] at h
  split at h
  · next tx hconn =>
      split at h
      · next u m hu hm =>
          cases h
          refine ⟨tx, u, m, hu, hm, ?_⟩
          change (w.store.write t _).conns t = _
          rw [Store.write_of_active hconn, Store.setConn_conns_self]
      · cases h
      · cases h
  all_goals cases h

theorem exec_commit_ok {r : Unit} (h : exec pg t .commit ω w = some (.ok r, w')) :
    ∃ tx, w.store.conns t = .active tx ∧ w'.store.db = w.store.db ++ tx.writes := by
  simp only [exec, inTransaction] at h
  split at h
  · next tx hconn =>
      cases h
      exact ⟨tx, hconn, commit_db hconn⟩
  all_goals cases h

/-- A statement leaves the connections of other threads alone. -/
theorem exec_conns_of_ne {o : Op} {r : Except DbError o.Resp} (h : exec pg t o ω w = some (r, w'))
    {t' : ℕ} (hne : t' ≠ t) : w'.store.conns t' = w.store.conns t' := by
  have hfailed : (w.failed t).store.conns t' = w.store.conns t' := Store.drop_conns_of_ne hne _
  -- a statement of a transaction runs in it, or drops its own connection
  have htx : ∀ {α : Type} {run : Tx AuditRow → Option (Except DbError α × World)}
      {r : Except DbError α}, inTransaction t ω w run = some (r, w') →
      (∃ tx, w.store.conns t = .active tx ∧ run tx = some (r, w')) ∨
        w'.store.conns t' = w.store.conns t' := by
    intro α run r hrun
    unfold inTransaction at hrun
    split at hrun
    · next tx hconn => exact .inl ⟨tx, hconn, hrun⟩
    · cases hrun
      exact .inr hfailed
    all_goals
      cases hrun
      exact .inr rfl
  cases o with
  | connect => cases ω <;> cases h <;> rfl
  | begin =>
      cases ω with
      | fail e =>
          cases h
          rfl
      | proceed =>
          simp only [exec] at h
          split at h
          · cases h
            exact Store.setConn_conns_of_ne hne _
          · cases h
            rfl
          · cases h
            rfl
  | advisoryXactLock tenantId =>
      obtain ⟨tx, -, hrun⟩ | hsame := htx h
      · obtain ⟨s, hs, heq⟩ := Option.map_eq_some_iff.mp hrun
        cases heq
        exact congrFun (Store.acquire_conns hs) t'
      · exact hsame
  | selectHead tenantId environment =>
      obtain ⟨tx, -, hrun⟩ | hsame := htx h
      · split at hrun
        · cases hrun
          rfl
        · cases hrun
          exact hfailed
      · exact hsame
  | insert v =>
      obtain ⟨tx, hconn, hrun⟩ | hsame := htx h
      · split at hrun
        · cases hrun
          change (w.store.write t _).conns t' = _
          rw [Store.write_of_active hconn]
          exact Store.setConn_conns_of_ne hne _
        · cases hrun
          exact hfailed
        · cases hrun
          exact hfailed
      · exact hsame
  | commit =>
      obtain ⟨tx, hconn, hrun⟩ | hsame := htx h
      · cases hrun
        change (w.store.commit addRow t).conns t' = _
        rw [Store.commit_of_active hconn]
        exact Store.drop_conns_of_ne hne _
      · exact hsame
  | rollback => cases ω <;> cases h <;> exact Store.drop_conns_of_ne hne _
  | emit event => cases ω <;> cases h <;> rfl
  | selectChain tenantId environment startId limit =>
      cases ω with
      | fail e =>
          cases h
          rfl
      | proceed =>
          simp only [exec] at h
          split at h
          · cases h
            rfl
          · cases h
            rfl

end Exec

/-- The rows that connection `t` has inserted by the operations `es`: those of its
    committed transactions are in the table, and the last one is in the open
    transaction. -/
structure Traced (pg : Postgres) (t : ℕ) (w : World) (es : List ReportAct) : Prop where
  committed : ∀ v id, [(⟨.inl (.insert v), .ok id⟩ : ReportAct), ⟨.inl .commit, .ok ()⟩] <:+: es →
    Written pg v w.store.db
  pending : ∀ v id, [(⟨.inl (.insert v), .ok id⟩ : ReportAct)] <:+ es →
    ∀ tx, w.store.conns t = .active tx → Written pg v tx.writes

/-- The environment opens no transaction. -/
theorem reportsEnv_active {e : ReportsEnv} {w w' : Reports} (h : reportsEnv e w = some w') {t : ℕ}
    {tx : Tx AuditRow} (htx : w'.audit.store.conns t = .active tx) :
    w.audit.store.conns t = .active tx := by
  cases e with
  | audit e =>
      obtain ⟨a, ha, rfl⟩ := Option.map_eq_some_iff.mp h
      cases e with
      | tick ms =>
          cases ha
          exact htx
      | cut t' =>
          simp only [env] at ha
          split at ha
          · cases ha
            have hconns : (w.audit.store.drop t' .failed).conns t = .active tx := htx
            by_cases hne : t = t'
            · subst hne
              rw [Store.drop_conns_self] at hconns
              cases hconns
            · rwa [Store.drop_conns_of_ne hne] at hconns
          · cases ha
            exact htx
  | setTenants tenants =>
      cases h
      exact htx
  | setAnchors anchors =>
      cases h
      exact htx

section Traced

variable {pg : Postgres} {t : ℕ} {es : List ReportAct}

theorem traced_nil (w : World) : Traced pg t w [] :=
  { committed := fun v id hin => by simpa using hin.length_le
    pending := fun v id hin => by simpa using hin.length_le }

/-- Others add rows to the table, and at most end the open transaction. -/
theorem Traced.of_frame {w w' : World} (h : Traced pg t w es)
    (hdb : ∀ r ∈ w.store.db, r ∈ w'.store.db)
    (hconn : ∀ tx, w'.store.conns t = .active tx → w.store.conns t = .active tx) :
    Traced pg t w' es :=
  { committed := fun v id hin => (h.committed v id hin).mono hdb
    pending := fun v id hin tx htx => h.pending v id hin tx (hconn tx htx) }

theorem reportsExec_rows {ω : Oracle} {w w' : Reports} {o : reportsSig.Op}
    {r : Except ReportError (reportsSig.Resp o)} (h : reportsExec pg t o ω w = some (r, w')) :
    ∀ row ∈ w.audit.store.db, row ∈ w'.audit.store.db := by
  intro row hrow
  obtain hsame | ⟨tx, -, -, hdb⟩ := reportsExec_db h
  · rw [hsame]
    exact hrow
  · rw [hdb]
    exact List.mem_append_left _ hrow

/-- One statement of the thread itself. -/
theorem Traced.step {ω : Oracle} {w w' : Reports} {o : reportsSig.Op}
    {r : Except ReportError (reportsSig.Resp o)} (h : Traced pg t w.audit es)
    (hx : reportsExec pg t o ω w = some (r, w')) : Traced pg t w'.audit (es ++ [⟨o, r⟩]) := by
  constructor
  · intro v id hin
    rcases List.infix_concat_iff.mp hin with hsuffix | hin
    · -- the COMMIT of the transaction with the row
      obtain hnil | ⟨l, hl, hbefore⟩ := List.suffix_concat_iff.mp hsuffix
      · cases hnil
      · obtain ⟨rfl, hlast⟩ := @List.append_inj' _ [(⟨.inl (.insert v), .ok id⟩ : ReportAct)] _ _ _ hl rfl
        cases hlast
        obtain ⟨r₀, a, hx₀, hr, rfl⟩ := reportsExec_inl hx
        cases r₀ with
        | error e => cases hr
        | ok b =>
            obtain ⟨tx, hconn, hdb⟩ := exec_commit_ok hx₀
            dsimp only
            rw [hdb]
            exact (h.pending v id hbefore tx hconn).mono fun _ => List.mem_append_right _
    · exact (h.committed v id hin).mono (reportsExec_rows hx)
  · intro v id hin tx htx
    obtain hnil | ⟨l, hl, -⟩ := List.suffix_concat_iff.mp hin
    · cases hnil
    · obtain ⟨-, hlast⟩ := @List.append_inj' _ [] _ _ _ hl rfl
      cases hlast
      obtain ⟨r₀, a, hx₀, hr, rfl⟩ := reportsExec_inl hx
      cases r₀ with
      | error e => cases hr
      | ok b =>
          obtain ⟨tx₀, u, m, hu, hm, hconn⟩ := exec_insert_ok hx₀
          cases hconn.symm.trans htx
          exact ⟨_, _, u, m, hu, hm, List.mem_append_right _ List.mem_cons_self⟩

theorem traced_of_reach {ethers : Ethers} {init : Reports → Prop}
    {good : ReportConfig → Label ReportsCall Oracle ReportsEnv → Prop} {c : ReportConfig}
    (h : (reports pg ethers).Reach init good c) :
    ∀ t th, c.threads[t]? = some th → Traced pg t c.world.audit th.past := by
  refine System.Reach.invariant (I := fun c : ReportConfig => ∀ t th, c.threads[t]? = some th →
    Traced pg t c.world.audit th.past) ?_ ?_ ?_ ?_ h
  · intro w _ t th hth
    cases hth
  · intro c a _ ih _ t th hth
    obtain hth | ⟨-, rfl⟩ := System.getElem?_spawn hth
    · exact ih t th hth
    · exact traced_nil _
  · -- the thread that is answered makes a step of its own
    intro c t₁ ω a past o k r w _ ih _ ht₁ hx t th hth
    rw [System.getElem?_answered] at hth
    split at hth
    · next heq =>
        subst heq
        split at hth
        · cases hth
          exact (ih t₁ _ ht₁).step hx
        · cases hth
    · next hne =>
        -- the others keep their transactions
        refine (ih t th hth).of_frame (reportsExec_rows hx) fun tx htx => ?_
        cases o with
        | inl o =>
            obtain ⟨r₀, w₀, hx₀, -, rfl⟩ := reportsExec_inl hx
            have hsame := exec_conns_of_ne hx₀ (Ne.symm hne)
            rwa [← hsame]
        | inr q =>
            obtain ⟨rfl, -⟩ := reportsExec_query hx
            exact htx
  · intro c e w _ ih _ hw t th hth
    refine (ih t th hth).of_frame (fun r hr => ?_) fun tx htx => reportsEnv_active hw htx
    rw [reportsEnv_db hw]
    exact hr

end Traced

/-! ## Tenants -/

/-- `id` is the primary key of `tenants`. -/
def Keyed (tenants : List Tenant) : Prop := (tenants.map Tenant.id).Nodup

/-- Other writers of `tenants` keep its key. -/
def KeepsKeys (_ : ReportConfig) : Label ReportsCall Oracle ReportsEnv → Prop
  | .env (.setTenants tenants) => Keyed tenants
  | _ => True

/-- The tenants that a job goes over: each once, its id as Postgres prints it. -/
structure Listed (tenants : List (JsString × Json)) : Prop where
  nodup : (tenants.map Prod.fst).Nodup
  printed : ∀ tenant ∈ tenants, ∃ u : Uuid, tenant.1 = u.text

theorem listed_of_keyed {tenants : List Tenant} (h : Keyed tenants) :
    Listed ((tenants.filter fun t => t.status = js "active").map fun t =>
      (t.id.text, t.securityPolicy)) := by
  constructor
  · have hids : ((tenants.filter fun t => t.status = js "active").map Tenant.id).Nodup :=
      h.sublist (List.filter_sublist.map _)
    rw [List.map_map]
    have htexts := hids.map Uuid.text_injective
    rwa [List.map_map] at htexts
  · intro tenant htenant
    obtain ⟨t, -, rfl⟩ := List.mem_map.mp htenant
    exact ⟨t.id, rfl⟩

section Reach

variable {pg : Postgres} {c : ReportConfig}

theorem keyed_of_reach
    (h : (reports pg ethers).Reach (fun w => Keyed w.tenants) KeepsKeys c) :
    Keyed c.world.tenants := by
  refine System.Reach.invariant (I := fun c : ReportConfig => Keyed c.world.tenants) ?_ ?_ ?_ ?_ h
  · exact fun _ hw => hw
  · exact fun _ _ _ ih _ => ih
  · intro c t ω a past o k r w _ ih _ _ hx
    cases o with
    | inl o =>
        obtain ⟨r₀, a₀, -, -, rfl⟩ := reportsExec_inl hx
        exact ih
    | inr q =>
        obtain ⟨rfl, -⟩ := reportsExec_query hx
        exact ih
  · intro c e w _ ih hg hw
    cases e with
    | audit e =>
        obtain ⟨a, -, rfl⟩ := Option.map_eq_some_iff.mp hw
        exact ih
    | setTenants tenants =>
        cases hw
        exact hg
    | setAnchors anchors =>
        cases hw
        exact ih

theorem listed_of_reach
    (h : (reports pg ethers).Reach (fun w => Keyed w.tenants) KeepsKeys c) {t : ℕ}
    {th : ReportThread} (hth : c.threads[t]? = some th) {tenants : List (JsString × Json)}
    (hmem : (⟨.inr .activeTenants, .ok tenants⟩ : ReportAct) ∈ th.past) : Listed tenants := by
  refine h.past_invariant (P := fun _ past => ∀ tenants,
    (⟨.inr .activeTenants, .ok tenants⟩ : ReportAct) ∈ past → Listed tenants) ?_ ?_ hth tenants hmem
  · intro a tenants hmem
    cases hmem
  · intro c t ω a past o k r w hc _ _ hx ih tenants hmem
    rcases List.mem_append.mp hmem with hmem | hmem
    · exact ih tenants hmem
    · cases List.mem_singleton.mp hmem
      have hans := reportsExec_query_ok hx
      cases hans
      exact listed_of_keyed (keyed_of_reach hc)

end Reach

theorem nodup_pairsOf {tenants : List (JsString × Json)} (h : Listed tenants) :
    (pairsOf tenants).Nodup := by
  have hfirst : ((tenants.filter fun t => auditAnchorProvider t.2 ≠ js "none").map Prod.fst).Nodup :=
    h.nodup.sublist (List.filter_sublist.map _)
  rw [pairsOf, List.nodup_flatMap]
  constructor
  · intro tenant _
    have henvs : environments.Nodup := by decide
    exact henvs.map fun e e' he => (Prod.mk.inj he).2
  · refine (List.pairwise_map.mp hfirst).imp fun hne => ?_
    intro pair hpair hpair'
    obtain ⟨e, -, rfl⟩ := List.mem_map.mp hpair
    obtain ⟨e', -, heq⟩ := List.mem_map.mp hpair'
    exact hne (Prod.mk.inj heq).1.symm

theorem mem_pairsOf {tenants : List (JsString × Json)} {pair : JsString × JsString}
    (h : pair ∈ pairsOf tenants) : ∃ tenant ∈ tenants, tenant.1 = pair.1 := by
  obtain ⟨tenant, htenant, hpair⟩ := List.mem_flatMap.mp h
  obtain ⟨e, -, rfl⟩ := List.mem_map.mp hpair
  exact ⟨tenant, (List.mem_filter.mp htenant).1, rfl⟩

/-- The event of a staged transaction reads back from its row. -/
theorem replayable_stagedEvent {tx : AnchorTx} {u : Uuid} (h : tx.tenantId = u.text) (day : ℤ) :
    Replayable (stagedEvent tx day) :=
  { object := ⟨_, rfl⟩
    plain := rfl
    tenant := by
      intro u' hu'
      have hparse : Uuid.parse tx.tenantId = some u := by rw [h, Uuid.parse_text]
      cases hparse.symm.trans hu'
      exact h }

/-! ## Consistent reports -/

/-- What a report says of the pairs, against the rows of `audit_events`. -/
structure Consistent (ethers : Ethers) (rows : List AuditRow) (es : List ReportAct)
    (report : AnchorJobReport) : Prop where
  disjoint : ∀ tx ∈ report.staged, ∀ err ∈ report.errors,
    ¬ (err.tenantId = tx.tenantId ∧ err.environment = tx.environment)
  written : ∀ tx ∈ report.staged, ∃ r ∈ rows,
    SamePayload r.payload (stagedEvent tx report.dayUtc)
  counted : report.tenantsToAnchor = report.staged.length
  separate : ∃ tenants turns, Separate ethers es report tenants turns

section Separate

variable {es : List ReportAct} {report : AnchorJobReport} {tenants : List (JsString × Json)}
  {turns : List PairTurn}

theorem Separate.pairEnd (h : Separate ethers es report tenants turns) {t : PairTurn}
    (ht : t ∈ turns) : PairEnd report.dayUtc t.item.1 t.item.2 t.acts t.result := by
  obtain ⟨c, hc, hend⟩ := ((h.own t ht _).mpr rfl).ends
    (ends_pair ethers report.dayUtc t.item.1 t.item.2)
  cases hc
  exact hend

/-- The turn of a pair is the only one that adds to the pair. -/
theorem Separate.turn_unique (h : Separate ethers es report tenants turns) (hl : Listed tenants)
    {t t' : PairTurn} (ht : t ∈ turns) (ht' : t' ∈ turns) (heq : t.item = t'.item) : t = t' := by
  have hnodup : (turns.map Prog.Turn.item).Nodup := by
    rw [h.items]
    exact nodup_pairsOf hl
  exact List.inj_on_of_nodup_map hnodup ht ht' heq

theorem Separate.appendsDone_iff (h : Separate ethers es report tenants turns) :
    AppendsDone es ↔ ∀ t ∈ turns, AppendsDone t.acts := by
  obtain ⟨pre, hpre, rfl⟩ := h.acts
  constructor
  · intro hdone t ht o e hmem
    refine hdone o e (List.mem_append_right _ (List.mem_cons_of_mem _ ?_))
    exact List.mem_flatMap.mpr ⟨t, ht, hmem⟩
  · intro hdone
    refine appendsDone_append.mpr ⟨hpre, fun o e hmem => ?_⟩
    rcases List.mem_cons.mp hmem with heq | hmem
    · cases heq
    · obtain ⟨t, ht, hmem⟩ := List.mem_flatMap.mp hmem
      exact hdone t ht o e hmem

/-- No pair is staged and in error exactly if no append has failed. -/
theorem Separate.disjoint_iff (h : Separate ethers es report tenants turns) (hl : Listed tenants) :
    (∀ tx ∈ report.staged, ∀ err ∈ report.errors,
      ¬ (err.tenantId = tx.tenantId ∧ err.environment = tx.environment)) ↔ AppendsDone es := by
  rw [h.appendsDone_iff, h.staged, h.errors]
  constructor
  · intro hdisjoint t ht
    by_contra hfail
    obtain ⟨tx, err, htx, herr⟩ := (h.pairEnd ht).both_iff.mpr hfail
    obtain ⟨htenant, henv⟩ := (h.pairEnd ht).of_staged htx
    obtain ⟨htenant', henv'⟩ := (h.pairEnd ht).of_error herr
    exact hdisjoint tx (List.mem_flatMap.mpr ⟨t, ht, htx⟩) err (List.mem_flatMap.mpr ⟨t, ht, herr⟩)
      ⟨htenant'.trans htenant.symm, henv'.trans henv.symm⟩
  · rintro hdone tx htx err herr ⟨htenant, henv⟩
    obtain ⟨t, ht, htx⟩ := List.mem_flatMap.mp htx
    obtain ⟨t', ht', herr⟩ := List.mem_flatMap.mp herr
    obtain ⟨htenant₁, henv₁⟩ := (h.pairEnd ht).of_staged htx
    obtain ⟨htenant₂, henv₂⟩ := (h.pairEnd ht').of_error herr
    have hitem : t.item = t'.item := Prod.ext
      (htenant₁.symm.trans (htenant.symm.trans htenant₂)) (henv₁.symm.trans (henv.symm.trans henv₂))
    obtain rfl := h.turn_unique hl ht ht' hitem
    exact (h.pairEnd ht).both_iff.mp ⟨tx, err, htx, herr⟩ (hdone t ht)

/-- Without a failed append every staged transaction has had its row written. -/
theorem Separate.footprint (h : Separate ethers es report tenants turns) (hdone : AppendsDone es)
    {tx : AnchorTx} (htx : tx ∈ report.staged) :
    Footprint tx report.dayUtc es ∧ ∃ tenant ∈ tenants, tenant.1 = tx.tenantId := by
  rw [h.staged] at htx
  obtain ⟨t, ht, htx⟩ := List.mem_flatMap.mp htx
  constructor
  · obtain ⟨previousHash, id, hin⟩ := (h.pairEnd ht).footprint (h.appendsDone_iff.mp hdone t ht) htx
    obtain ⟨pre, -, hes⟩ := h.acts
    refine ⟨previousHash, id, hin.trans ?_⟩
    rw [hes]
    have hturn : t.acts <:+: turns.flatMap Prog.Turn.acts := List.infix_of_mem_flatten (List.mem_map_of_mem ht)
    exact hturn.trans ((List.suffix_cons _ _).isInfix.trans (List.suffix_append _ _).isInfix)
  · rw [((h.pairEnd ht).of_staged htx).1]
    apply mem_pairsOf
    rw [← h.items]
    exact List.mem_map_of_mem ht

end Separate

/-- What a job that returns has done; other calls return no report. -/
theorem ends_jobReport (ethers : Ethers) (call : ReportsCall) : Prog.Ends (fun es out =>
    ∀ report, out = .ok (.job report) → report.tenantsToAnchor = report.staged.length ∧
      ∃ tenants turns, Separate ethers es report tenants turns) (reportsCode ethers call) := by
  cases call with
  | job dayUtc =>
      refine Prog.Ends.bind (ends_job ethers dayUtc) (fun es report h report' hok => ?_)
        fun es err _ report hok => by cases hok
      cases hok
      rw [List.append_nil]
      exact h report rfl
  | _ =>
      refine Prog.Ends.bind (Ψ := fun _ _ => True) (Prog.ends_of_forall fun _ _ => trivial) ?_ ?_
      · intro es result _ report hok
        cases hok
      · intro es err _ report hok
        cases hok

/-- The report of a job is consistent exactly if no statement of its self-audit appends
    was answered by an error. -/
theorem report_consistent_iff (pg : Postgres) (ethers : Ethers) {c : ReportConfig}
    (h : (reports pg ethers).Reach (fun w => Keyed w.tenants) KeepsKeys c) {t : ℕ}
    {th : ReportThread} (hth : c.threads[t]? = some th) {report : AnchorJobReport}
    (hout : th.rest.outcome? = some (.ok (.job report))) :
    Consistent ethers c.world.audit.store.db th.past report ↔ AppendsDone th.past := by
  obtain ⟨hcount, tenants, turns, hsep⟩ := h.ends hth (ends_jobReport ethers th.call) hout report rfl
  have hlisted : Listed tenants := by
    apply listed_of_reach h hth
    obtain ⟨pre, -, hes⟩ := hsep.acts
    rw [hes]
    exact List.mem_append_right _ List.mem_cons_self
  constructor
  · intro hcons
    exact (hsep.disjoint_iff hlisted).mp hcons.disjoint
  · intro hdone
    refine ⟨(hsep.disjoint_iff hlisted).mpr hdone, fun tx htx => ?_, hcount, tenants, turns, hsep⟩
    obtain ⟨⟨previousHash, id, hin⟩, tenant, htenant, hname⟩ := hsep.footprint hdone htx
    obtain ⟨rowId, now, u, m, hu, hm, hrow⟩ := (traced_of_reach h t th hth).committed _ _ hin
    obtain ⟨u', hu'⟩ := hlisted.printed tenant htenant
    exact ⟨_, hrow, (replayable_stagedEvent (hname.symm.trans hu') report.dayUtc).samePayload hu hm _⟩

/-! ### A job that loses a connection -/

/-- A job for 1970-01-01 by itself. -/
def jobWith (answers : List Oracle) : List (Label ReportsCall Oracle ReportsEnv) :=
  .start (.job (some 0)) :: answers.map (.resume 0)

theorem reach_jobWith {answers : List Oracle} {c : ReportConfig}
    (h : (reports postgres baseSepolia).run (.init anchoringTenant) (jobWith answers) = some c) :
    (reports postgres baseSepolia).Reach (fun w => Keyed w.tenants) KeepsKeys c := by
  have hkeyed : Keyed anchoringTenant.tenants := List.nodup_singleton _
  refine System.Reach.run (.init hkeyed) (System.keeps_of_forall fun c l hl => ?_) h
  rcases List.mem_cons.mp hl with rfl | hl
  · trivial
  · obtain ⟨ω, -, rfl⟩ := List.mem_map.mp hl
    trivial

/-- The job has returned a report that passes the test. -/
def reportTest (test : List ReportAct → AnchorJobReport → Bool) (c : ReportConfig) : Bool :=
  c.threads[0]?.any fun th =>
    match th.rest with
    | .ret (.job report) => test th.past report
    | _ => false

theorem exists_report_of_test {test : List ReportAct → AnchorJobReport → Bool} {c : ReportConfig}
    (h : reportTest test c = true) : ∃ th report, c.threads[0]? = some th ∧
      th.rest.outcome? = some (.ok (.job report)) ∧ test th.past report = true := by
  obtain ⟨th, hth, htest⟩ := (Option.any_eq_true _ _).mp h
  split at htest
  · next report hrest =>
      refine ⟨th, report, hth, ?_, htest⟩
      rw [hrest]
      rfl
  · cases htest

def appendsDoneTest (es : List ReportAct) : Bool :=
  es.all fun
    | ⟨.inl _, .error _⟩ => false
    | _ => true

theorem appendsDone_of_test {es : List ReportAct} (h : appendsDoneTest es = true) :
    AppendsDone es := by
  intro o e hmem
  cases List.all_eq_true.mp h _ hmem

/-- A job whose statements are all answered stages a transaction, and its report is
    consistent. -/
theorem report_consistent_of_answered : ∃ (c : ReportConfig) (th : ReportThread)
    (report : AnchorJobReport), c.threads[0]? = some th ∧
      th.rest.outcome? = some (.ok (.job report)) ∧ report.staged.length = 1 ∧
      Consistent baseSepolia c.world.audit.store.db th.past report := by
  have hrun : (((reports postgres baseSepolia).run (.init anchoringTenant)
      (jobWith (List.replicate 10 .proceed))).any (reportTest fun past report =>
        appendsDoneTest past && report.staged.length == 1)) = true := by
    decide +kernel
  obtain ⟨c, hc, htest⟩ := (Option.any_eq_true _ _).mp hrun
  obtain ⟨th, report, hth, hout, htest⟩ := exists_report_of_test htest
  obtain ⟨hdone, hlength⟩ := (Bool.and_eq_true _ _).mp htest
  refine ⟨c, th, report, hth, hout, beq_iff_eq.mp hlength, ?_⟩
  exact (report_consistent_iff postgres baseSepolia (reach_jobWith hc) hth hout).mpr
    (appendsDone_of_test hdone)

/-- When the append gets no connection, the pair is staged and in error. -/
theorem lost_append_in_both : ¬ ∀ (pg : Postgres) (ethers : Ethers) (c : ReportConfig),
    (reports pg ethers).Reach (fun w => Keyed w.tenants) KeepsKeys c → ∀ (t : ℕ) (th : ReportThread)
      (report : AnchorJobReport), c.threads[t]? = some th →
        th.rest.outcome? = some (.ok (.job report)) →
          Consistent ethers c.world.audit.store.db th.past report := by
  intro h
  have hrun : (((reports postgres baseSepolia).run (.init anchoringTenant)
      (jobWith [.proceed, .proceed, .proceed, .fail .connectionLost, .proceed])).any
        (reportTest fun _ report => report.staged.any fun tx => report.errors.any fun err =>
          err.tenantId = tx.tenantId && err.environment = tx.environment)) = true := by
    decide +kernel
  obtain ⟨c, hc, htest⟩ := (Option.any_eq_true _ _).mp hrun
  obtain ⟨th, report, hth, hout, htest⟩ := exists_report_of_test htest
  obtain ⟨tx, htx, htest⟩ := List.any_eq_true.mp htest
  obtain ⟨err, herr, hsame⟩ := List.any_eq_true.mp htest
  obtain ⟨htenant, henv⟩ := (Bool.and_eq_true _ _).mp hsame
  exact (h postgres baseSepolia c (reach_jobWith hc) 0 th report hth hout).disjoint tx htx err herr
    ⟨of_decide_eq_true htenant, of_decide_eq_true henv⟩

end ZeroAuth.Audit
