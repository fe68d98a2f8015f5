/-
  ZeroAuth.Audit.Staging

  How often the daily job stages an anchor.

  The duplicate check reads `audit_anchors`, and no part of a job run writes
  that table.  A second run for the day finds a row only when another party has
  written it by then; when it always has, no key is staged by two runs
  (`staged_by_one_run`).
-/

import ZeroAuth.Audit.Pack

namespace ZeroAuth.Audit

open ZeroAuth.Lib ZeroAuth.Js ZeroAuth.Pg

variable {ethers : Ethers} {text : JsString} {e : Option JsString} {day : ℤ}

/-- The answer about the day makes a payload that can be encoded. -/
def Encodable (ethers : Ethers) (text : JsString) (e : Option JsString) (day : ℤ)
    (row : Option (Option JsString × ℕ)) : Prop :=
  ∃ payload data, anchorPayload ethers text e day row = some payload ∧
    encodeRecordAnchorCall ethers payload = .ok data

/-- A run has found rows of the day and no anchor of it, and goes on to stage
    one. -/
def StagedIn (ethers : Ethers) (text : JsString) (e : Option JsString) (day : ℤ)
    (es : List ReportAct) : Prop :=
  ∃ row, Encodable ethers text e day row ∧
    [(⟨.inr (.dayTerminal text e day), .ok row⟩ : ReportAct),
      ⟨.inr (.existsAnchor text e day), .ok false⟩] <:+: es

theorem StagedIn.mono {es es' : List ReportAct} (h : StagedIn ethers text e day es)
    (hsub : es <:+: es') : StagedIn ethers text e day es' := by
  obtain ⟨row, henc, hin⟩ := h
  exact ⟨row, henc, hin.trans hsub⟩

/-- Nothing but the answer of the duplicate check makes a run stage. -/
theorem StagedIn.of_snoc {es : List ReportAct} {x : ReportAct}
    (h : StagedIn ethers text e day (es ++ [x])) :
    StagedIn ethers text e day es ∨ x = ⟨.inr (.existsAnchor text e day), .ok false⟩ := by
  obtain ⟨row, henc, hin⟩ := h
  rcases List.infix_concat_iff.mp hin with hsuffix | hin
  · refine .inr ?_
    have hlast := hsuffix.getLast (by simp)
    simpa using hlast.symm
  · exact .inl ⟨row, henc, hin⟩

theorem not_stagedIn_nil : ¬ StagedIn ethers text e day [] := by
  rintro ⟨row, -, hin⟩
  simpa using hin.length_le

/-! ## What a report contains -/

/-- Everything that the report stages was staged by the operations `es`. -/
structure ReportOk (ethers : Ethers) (day : ℤ) (es : List ReportAct) (report : AnchorJobReport) :
    Prop where
  dayUtc : report.dayUtc = day
  staged : ∀ tx ∈ report.staged,
    StagedIn ethers tx.tenantId (some tx.environment) (floorToUtcMidnight day) es

theorem ReportOk.mono {es es' : List ReportAct} {report : AnchorJobReport}
    (h : ReportOk ethers day es report) (hsub : es <:+: es') : ReportOk ethers day es' report :=
  ⟨h.dayUtc, fun tx htx => (h.staged tx htx).mono hsub⟩

theorem ReportOk.withError {es : List ReportAct} {report : AnchorJobReport}
    (h : ReportOk ethers day es report) (text environment : JsString) (err : ReportError) :
    ReportOk ethers day es (report.withError text environment err) :=
  ⟨h.dayUtc, h.staged⟩

section Loops

variable {environment : JsString} {report : AnchorJobReport}

/-- What a turn of a loop ends with. -/
abbrev Turn (ethers : Ethers) (day : ℤ) (es : List ReportAct) :
    List ReportAct → Except ReportError AnchorJobReport → Prop :=
  fun es' out => ∃ report, out = .ok report ∧ ReportOk ethers day (es ++ es') report

theorem ends_computeDailyAnchorPayload : Prog.Ends (fun (es : List ReportAct) out => ∀ payload, out = .ok payload →
      ∃ row, es = [⟨.inr (.dayTerminal text e (floorToUtcMidnight day)), .ok row⟩] ∧
        payload = anchorPayload ethers text e (floorToUtcMidnight day) row)
    (computeDailyAnchorPayload ethers text e day) := by
  refine Prog.ends_perform_bind.mpr ⟨fun row => ?_, fun err payload h => by cases h⟩
  rintro payload h
  cases h
  exact ⟨row, rfl, rfl⟩

/-- The report that a turn adds to is `report`; a new entry is one that the turn
    has staged. -/
theorem ends_anchorEnvironment {es : List ReportAct} (h : ReportOk ethers day es report) :
    Prog.Ends (Turn ethers day es) (anchorEnvironment ethers day text report environment) := by
  have hkeep : ∀ es', ReportOk ethers day (es ++ es') report := fun es' =>
    h.mono (List.prefix_append _ _).isInfix
  refine Prog.Ends.tryCatch (Ψ := fun es' out => ∀ report', out = .ok report' →
    ReportOk ethers day (es ++ es') report') ?_ (fun es' report' hok => ⟨report', rfl, hok report' rfl⟩)
    fun es' err _ => ?_
  · refine Prog.Ends.bind ends_computeDailyAnchorPayload (fun es₁ payload? hrow => ?_)
      fun es₁ err _ report' hok => by cases hok
    obtain ⟨row, rfl, hpayload⟩ := hrow payload? rfl
    cases payload? with
    | none =>
        rintro report' hok
        cases hok
        exact hkeep _
    | some payload =>
        refine Prog.ends_perform_bind.mpr ⟨fun (alreadyAnchored : Bool) => ?_,
          fun err report' hok => by cases hok⟩
        cases alreadyAnchored with
        | true =>
            rintro report' hok
            cases hok
            exact hkeep _
        | false =>
            refine Prog.Ends.bind (Ψ := fun es out => es = [] ∧
              out = encodeRecordAnchorCall ethers payload) (Prog.ends_ofExcept.mpr ⟨rfl, rfl⟩)
              (fun es₂ data hdata => ?_) fun es₂ err _ report' hok => by cases hok
            obtain ⟨rfl, hdata⟩ := hdata
            set tx : AnchorTx := ⟨text, environment, payload.dayUtc, payload, data⟩
            set report₁ : AnchorJobReport := { report with staged := report.staged ++ [tx] }
            have hnew : ∀ es', ReportOk ethers day (es ++
                ([⟨.inr (.dayTerminal text (some environment) (floorToUtcMidnight day)), .ok row⟩] ++
                  ⟨.inr (.existsAnchor text (some environment) (floorToUtcMidnight day)), .ok false⟩ ::
                    ([] ++ es'))) report₁ := by
              intro es'
              refine ⟨h.dayUtc, fun tx' htx' => ?_⟩
              rcases List.mem_append.mp htx' with htx' | htx'
              · exact (hkeep _).staged tx' htx'
              · rw [List.mem_singleton.mp htx']
                exact ⟨row, ⟨payload, data, hpayload.symm, hdata.symm⟩, es, es', by simp [tx]⟩
            -- whether or not the append succeeds, the entry stays
            refine Prog.Ends.tryCatch (Ψ := fun _ out => ∀ report', out = .ok report' →
              report' = report₁) ?_ (fun es' report' hrep report'' hok => ?_) fun es' err _ => ?_
            · refine Prog.Ends.bind (Prog.ends_of_forall (Φ := fun _ _ => True) fun _ _ => trivial)
                (fun es' _ _ report' hok => ?_) fun es' err _ report' hok => by cases hok
              cases hok
              rfl
            · cases hok
              rw [hrep _ rfl]
              exact hnew es'
            · rintro report' hok
              cases hok
              exact (hnew _).withError _ _ _
  · rw [Prog.pure_def, Prog.ends_ret, List.append_nil]
    exact ⟨_, rfl, (hkeep es').withError _ _ _⟩

theorem ends_anchorTenant {es : List ReportAct} (h : ReportOk ethers day es report)
    (tenant : JsString × Json) :
    Prog.Ends (Turn ethers day es) (anchorTenant ethers day report tenant) := by
  unfold anchorTenant
  split
  · rw [Prog.pure_def, Prog.ends_ret, Turn, List.append_nil]
    exact ⟨report, rfl, h⟩
  · exact Prog.Ends.foldlM (fun environment _ es report h => ends_anchorEnvironment h) h

theorem ends_runDailyAnchorJob (dayUtc : Option ℤ) :
    Prog.Ends (fun es out => ∀ report, out = .ok report → ReportOk ethers report.dayUtc es report)
      (runDailyAnchorJob ethers dayUtc) := by
  refine Prog.Ends.bind (Ψ := fun _ _ => True) (Prog.ends_of_forall fun _ _ => trivial)
    (fun es₀ day _ => ?_) fun _ err _ report hok => by cases hok
  refine Prog.ends_perform_bind.mpr ⟨fun (tenants : List (JsString × Json)) => ?_,
    fun err report hok => by cases hok⟩
  have hempty : ReportOk ethers day [] ⟨day, tenants.length, 0, [], []⟩ := ⟨rfl, by simp⟩
  refine Prog.Ends.bind (Prog.Ends.foldlM (I := ReportOk ethers day)
    (fun tenant _ es report h => ends_anchorTenant h tenant) hempty) ?_ ?_
  · rintro es _ ⟨report, heq, hreport⟩ report' hok
    cases heq
    cases hok
    have hsub : es <:+: es₀ ++ (⟨.inr .activeTenants, .ok tenants⟩ : ReportAct) :: (es ++ []) :=
      ⟨es₀ ++ [⟨.inr .activeTenants, .ok tenants⟩], [], by simp⟩
    have hmono := ReportOk.mono hreport hsub
    exact ⟨rfl, fun tx htx => hmono.dayUtc ▸ hmono.staged tx htx⟩
  · rintro es err ⟨report, heq, -⟩
    cases heq

end Loops

/-- What the report of a job contains; other calls return no report. -/
theorem ends_report (call : ReportsCall) :
    Prog.Ends (fun es out => ∀ report, out = .ok (.job report) → ∀ tx ∈ report.staged,
        StagedIn ethers tx.tenantId (some tx.environment) (floorToUtcMidnight report.dayUtc) es)
      (reportsCode ethers call) := by
  cases call with
  | job dayUtc =>
      refine Prog.Ends.bind (ends_runDailyAnchorJob dayUtc) (fun es report h report' hok => ?_)
        fun es err _ report hok => by cases hok
      cases hok
      rw [List.append_nil]
      exact (h report rfl).staged
  | _ =>
      refine Prog.Ends.bind (Ψ := fun _ _ => True) (Prog.ends_of_forall fun _ _ => trivial) ?_ ?_
      · intro es result _ report hok
        cases hok
      · intro es err _ report hok
        cases hok

/-! ## Runs -/

/-- When a duplicate check is made for a key that another run has gone on to
    stage, the table has a row of the key. -/
def Anchored (ethers : Ethers) (c : ReportConfig) : Label ReportsCall Oracle ReportsEnv → Prop
  | .resume t _ => ∀ a past text e day k, c.threads[t]? =
      some ⟨a, past, .await (S := reportsSig) (.inr (.existsAnchor text e day)) k⟩ →
        ∀ t' th', t' ≠ t → c.threads[t']? = some th' → StagedIn ethers text e day th'.past →
          ∀ u, Uuid.parse text = some u → ⟨u, e, utcDay day⟩ ∈ c.world.anchors
  | _ => True

/-- No key is staged by two threads. -/
theorem stagedIn_unique {pg : Postgres} {init : Reports → Prop} {c : ReportConfig}
    (h : (reports pg ethers).Reach init (Anchored ethers) c) :
    ∀ (t t' : ℕ) (th th' : ReportThread), c.threads[t]? = some th → c.threads[t']? = some th' →
      StagedIn ethers text e day th.past → StagedIn ethers text e day th'.past → t = t' := by
  refine System.Reach.invariant (I := fun c : ReportConfig =>
    ∀ (t t' : ℕ) (th th' : ReportThread), c.threads[t]? = some th → c.threads[t']? = some th' →
      StagedIn ethers text e day th.past → StagedIn ethers text e day th'.past → t = t')
    ?_ ?_ ?_ ?_ h
  · intro w _ t t' th th' hth
    cases hth
  · intro c a _ ih _ t t' th th' hth hth' hs hs'
    obtain hth | ⟨-, rfl⟩ := System.getElem?_spawn hth
    · obtain hth' | ⟨-, rfl⟩ := System.getElem?_spawn hth'
      · exact ih t t' th th' hth hth' hs hs'
      · exact absurd hs' not_stagedIn_nil
    · exact absurd hs not_stagedIn_nil
  · intro c t₁ ω a past o k r w _ ih hg ht₁ hx
    -- a thread that stages with this step is the only one that has staged
    have hfirst : StagedIn ethers text e day (past ++ [⟨o, r⟩]) → ∀ t' th', t' ≠ t₁ →
        c.threads[t']? = some th' → ¬ StagedIn ethers text e day th'.past := by
      intro hs t' th' hne hth' hs'
      obtain hold | hlast := hs.of_snoc
      · exact hne (ih t₁ t' _ th' ht₁ hth' hold hs').symm
      · cases hlast
        obtain ⟨u, hu, hans⟩ := forTenant_eq_ok (reportsExec_query_ok hx)
        have hmem := hg a past text e day k ht₁ t' th' hne hth' hs' u hu
        rw [decide_eq_true hmem] at hans
        cases hans
    intro t t' th th' hth hth' hs hs'
    rw [System.getElem?_answered] at hth hth'
    by_cases ht : t₁ = t
    · subst ht
      by_cases ht' : t₁ = t'
      · exact ht'
      · rw [if_neg ht'] at hth'
        rw [if_pos rfl] at hth
        split at hth
        · cases hth
          exact absurd hs' (hfirst hs t' th' (Ne.symm ht') hth')
        · cases hth
    · rw [if_neg ht] at hth
      by_cases ht' : t₁ = t'
      · subst ht'
        rw [if_pos rfl] at hth'
        split at hth'
        · cases hth'
          exact absurd hs (hfirst hs' t th (Ne.symm ht) hth)
        · cases hth'
      · rw [if_neg ht'] at hth'
        exact ih t t' th th' hth hth' hs hs'
  · intro c e' w _ ih _ _
    exact ih

/-- What a returned report stages was staged by its thread. -/
theorem stagedIn_of_report {pg : Postgres} {init : Reports → Prop}
    {good : ReportConfig → Label ReportsCall Oracle ReportsEnv → Prop} {c : ReportConfig}
    (h : (reports pg ethers).Reach init good c) {t : ℕ} {th : ReportThread}
    (hth : c.threads[t]? = some th) {report : AnchorJobReport}
    (hout : th.rest.outcome? = some (.ok (.job report))) {tx : AnchorTx} (htx : tx ∈ report.staged) :
    StagedIn ethers tx.tenantId (some tx.environment) (floorToUtcMidnight report.dayUtc)
      th.past :=
  h.ends hth (ends_report th.call) hout report rfl tx htx

/-- In runs in which `audit_anchors` has a row of every key that was staged by the
    time another run checks it: what one report stages for a day, no other
    report does. -/
theorem staged_by_one_run (pg : Postgres) (ethers : Ethers) {c : ReportConfig}
    (h : (reports pg ethers).Reach (fun _ => True) (Anchored ethers) c) {t : ℕ} {th : ReportThread}
    (hth : c.threads[t]? = some th) {report : AnchorJobReport}
    (hout : th.rest.outcome? = some (.ok (.job report))) {tx : AnchorTx}
    (htx : tx ∈ report.staged) :
    ∀ t' th' report', c.threads[t']? = some th' → t' ≠ t →
      th'.rest.outcome? = some (.ok (.job report')) → report'.dayUtc = report.dayUtc →
        ∀ tx' ∈ report'.staged, ¬ (tx'.tenantId = tx.tenantId ∧ tx'.environment = tx.environment) := by
  rintro t' th' report' hth' hne hout' hday tx' htx' ⟨htenant, henv⟩
  have hs := stagedIn_of_report h hth hout htx
  have hs' := stagedIn_of_report h hth' hout' htx'
  rw [htenant, henv, hday] at hs'
  exact hne (stagedIn_unique h t' t th' th hth' hth hs' hs)

/-! ### A job that runs twice -/

/-- The terminal row of 1970-01-01. -/
def terminalRow : AuditRow :=
  { backfillRow 1 with
    previousHash := some genesisPreviousHash
    eventHash := some (js "0x" ++ List.replicate 64 48) }

/-- A tenant with an anchor provider. -/
def anchoringTenant : Reports :=
  { audit := ⟨.init [terminalRow], 2, 0, []⟩
    tenants := [⟨tenant, js "active", .obj [(js "audit_anchor_provider", .str (js "base-sepolia"))]⟩]
    anchors := [] }

/-- ABI words after the selector of `recordAnchor`; the hash is that of the
    tenant in `live`. -/
def baseSepolia : Ethers :=
  { keccak256 := fun _ => js "0x479cd527361d55d72491b70e04df2fdf266fb72d697c7e6f39ab806abe9a2976"
    encodeRecordAnchor := fun tenantIdHash dayUtc terminalHash rowCount =>
      .ok (js "0xbc70e4d3" ++ tenantIdHash.drop 2 ++ padStart 64 (numText 16 dayUtc.toNat) ++
        terminalHash.drop 2 ++ padStart 64 (numText 16 rowCount)) }

/-- A job for 1970-01-01, from its start to its report. -/
def jobTurns (t n : ℕ) : List (Label ReportsCall Oracle ReportsEnv) :=
  .start (.job (some 0)) :: List.replicate n (.resume t .proceed)

/-- The day of a thread's report and the keys that it stages. -/
def stagedKeys (th : ReportThread) : Option (ℤ × List (JsString × JsString)) :=
  match th.rest with
  | .ret (.job report) =>
      some (report.dayUtc, report.staged.map fun tx => (tx.tenantId, tx.environment))
  | _ => none

theorem exists_report_of_stagedKeys {th : ReportThread} {keys : List (JsString × JsString)} {D : ℤ}
    (h : stagedKeys th = some (D, keys)) : ∃ report,
      th.rest.outcome? = some (.ok (.job report)) ∧ report.dayUtc = D ∧
        report.staged.map (fun tx => (tx.tenantId, tx.environment)) = keys := by
  unfold stagedKeys at h
  split at h
  · next report hrest =>
      obtain ⟨rfl, rfl⟩ := Prod.mk.inj (Option.some.inj h)
      rw [hrest]
      exact ⟨report, rfl, rfl, rfl⟩
  · cases h

/-- Thread `t` has returned a report of 1970-01-01 that stages `keys`. -/
def reportStages (c : ReportConfig) (t : ℕ) (keys : List (JsString × JsString)) : Bool :=
  c.threads[t]?.any fun th => stagedKeys th = some (0, keys)

theorem exists_report_of_reportStages {c : ReportConfig} {t : ℕ} {keys : List (JsString × JsString)}
    (h : reportStages c t keys = true) : ∃ th report, c.threads[t]? = some th ∧
      th.rest.outcome? = some (.ok (.job report)) ∧ report.dayUtc = 0 ∧
        report.staged.map (fun tx => (tx.tenantId, tx.environment)) = keys := by
  obtain ⟨th, hth, hkeys⟩ := (Option.any_eq_true _ _).mp h
  obtain ⟨report, hout, hday, hmap⟩ := exists_report_of_stagedKeys (of_decide_eq_true hkeys)
  exact ⟨th, report, hth, hout, hday, hmap⟩

/-- The second run stages the key again. -/
theorem key_staged_twice : ∃ c th th' report report' tx tx',
    (reports postgres baseSepolia).Reach (fun _ => True) (fun _ _ => True) c ∧
      c.threads[0]? = some th ∧ c.threads[1]? = some th' ∧
      th.rest.outcome? = some (.ok (.job report)) ∧
      th'.rest.outcome? = some (.ok (.job report')) ∧ report'.dayUtc = report.dayUtc ∧
      tx ∈ report.staged ∧ tx' ∈ report'.staged ∧ tx'.tenantId = tx.tenantId ∧
      tx'.environment = tx.environment := by
  have hrun : (((reports postgres baseSepolia).run (.init anchoringTenant)
      (jobTurns 0 10 ++ jobTurns 1 10)).any fun c =>
        reportStages c 0 [(tenantLower, js "live")] &&
          reportStages c 1 [(tenantLower, js "live")]) = true := by
    decide +kernel
  obtain ⟨c, hc, hkeys⟩ := (Option.any_eq_true _ _).mp hrun
  obtain ⟨hkeys₀, hkeys₁⟩ := (Bool.and_eq_true _ _).mp hkeys
  obtain ⟨th, report, hth, hout, hday, hmap⟩ := exists_report_of_reportStages hkeys₀
  obtain ⟨th', report', hth', hout', hday', hmap'⟩ := exists_report_of_reportStages hkeys₁
  obtain ⟨tx, rest, hrep, hkey, -⟩ := List.map_eq_cons_iff.mp hmap
  obtain ⟨tx', rest', hrep', hkey', -⟩ := List.map_eq_cons_iff.mp hmap'
  obtain ⟨htenant, henv⟩ := Prod.mk.inj (hkey'.trans hkey.symm)
  exact ⟨c, th, th', report, report', tx, tx', System.Reach.run (.init trivial)
    (System.keeps_of_forall fun _ _ _ => trivial) hc, hth, hth', hout, hout',
    hday'.trans hday.symm, by simp [hrep], by simp [hrep'], htenant, henv⟩

/-- A duplicate check that is made by the only thread, or finds a row. -/
def anchoredTest (c : ReportConfig) : Label ReportsCall Oracle ReportsEnv → Bool
  | .resume t _ =>
      match c.threads[t]? with
      | some ⟨_, _, .await (.inr (.existsAnchor text e day)) _⟩ =>
          c.threads.length = 1 ||
            (Uuid.parse text).all fun u => decide (⟨u, e, utcDay day⟩ ∈ c.world.anchors)
      | _ => true
  | _ => true

theorem anchored_of_test {c : ReportConfig} {l : Label ReportsCall Oracle ReportsEnv}
    (h : anchoredTest c l = true) : Anchored ethers c l := by
  cases l with
  | resume t ω =>
      intro a past text e day k hth t' th' hne hth' _ u hu
      simp only [anchoredTest, hth, hu, Option.all_some, Bool.or_eq_true, decide_eq_true_eq] at h
      rcases h with hone | hmem
      · have hlt := (List.getElem?_eq_some_iff.mp hth).1
        have hlt' := (List.getElem?_eq_some_iff.mp hth').1
        omega
      · exact hmem
  | start a => trivial
  | env e => trivial

/-- Between the two runs a row of the key is written. -/
theorem staged_by_one_run_of_two : ∃ (c : ReportConfig) (report report' : AnchorJobReport)
    (th th' : ReportThread) (tx : AnchorTx), c.threads[0]? = some th ∧ c.threads[1]? = some th' ∧
    th.rest.outcome? = some (.ok (.job report)) ∧ th'.rest.outcome? = some (.ok (.job report')) ∧
    report'.dayUtc = report.dayUtc ∧ tx ∈ report.staged ∧
    ∀ tx' ∈ report'.staged, ¬ (tx'.tenantId = tx.tenantId ∧ tx'.environment = tx.environment) := by
  have hrun : (((reports postgres baseSepolia).runChecked anchoredTest (.init anchoringTenant)
      (jobTurns 0 10 ++ .env (.setAnchors [⟨tenant, some (js "live"), 0⟩]) :: jobTurns 1 4)).any
        fun c => reportStages c 0 [(tenantLower, js "live")] && reportStages c 1 []) = true := by
    decide +kernel
  obtain ⟨c, hc, hkeys⟩ := (Option.any_eq_true _ _).mp hrun
  obtain ⟨hkeys₀, hkeys₁⟩ := (Bool.and_eq_true _ _).mp hkeys
  obtain ⟨th, report, hth, hout, hday, hmap⟩ := exists_report_of_reportStages hkeys₀
  obtain ⟨th', report', hth', hout', hday', -⟩ := exists_report_of_reportStages hkeys₁
  obtain ⟨tx, rest, hrep, -, -⟩ := List.map_eq_cons_iff.mp hmap
  have htx : tx ∈ report.staged := by simp [hrep]
  refine ⟨c, report, report', th, th', tx, hth, hth', hout, hout', hday'.trans hday.symm, htx, ?_⟩
  exact staged_by_one_run postgres baseSepolia
    (System.Reach.runChecked (.init trivial) (fun _ _ => anchored_of_test) hc) hth hout htx
    1 th' report' hth' (by decide) hout' (hday'.trans hday.symm)

end ZeroAuth.Audit
