/-
  ZeroAuth.Audit.AnchorTurns

  The daily anchor job as a run for every tenant and environment.

  A turn of the inner loop adds its transaction or its error to the report and sees
  nothing of the other turns (`anchorEnvironment_eq`), so a job that returns has made
  one run of `anchorEnvironment` for every pair (`ends_job`).  `PairEnd` lists the ways
  in which such a run ends.
-/

import ZeroAuth.Audit.Staging
import ZeroAuth.Lib.Returns
import ZeroAuth.Lib.Turns

namespace ZeroAuth.Audit

open ZeroAuth.Lib ZeroAuth.Js ZeroAuth.Pg

variable {ethers : Ethers} {day : ℤ} {text environment : JsString}

/-! ## Turns -/

/-- The report of a job that has seen nothing. -/
def blank : AnchorJobReport := ⟨0, 0, 0, [], []⟩

/-- Add the entries of another report. -/
def AnchorJobReport.merge (report more : AnchorJobReport) : AnchorJobReport :=
  { report with staged := report.staged ++ more.staged, errors := report.errors ++ more.errors }

theorem merge_blank (report : AnchorJobReport) : report.merge blank = report := by
  rw [AnchorJobReport.merge, blank, List.append_nil, List.append_nil]

/-- `staged.push(tx)`. -/
def AnchorJobReport.withStaged (report : AnchorJobReport) (tx : AnchorTx) : AnchorJobReport :=
  { report with staged := report.staged ++ [tx] }

theorem merge_withError (report more : AnchorJobReport) (err : ReportError) :
    report.merge (more.withError text environment err) =
      (report.merge more).withError text environment err := by
  simp only [AnchorJobReport.merge, AnchorJobReport.withError, List.append_assoc]

theorem merge_withStaged (report more : AnchorJobReport) (tx : AnchorTx) :
    report.merge (more.withStaged tx) = (report.merge more).withStaged tx := by
  simp only [AnchorJobReport.merge, AnchorJobReport.withStaged, List.append_assoc]

/-- A turn does not see the report that it adds to. -/
theorem anchorEnvironment_eq (report : AnchorJobReport) :
    anchorEnvironment ethers day text report environment =
      anchorEnvironment ethers day text blank environment >>= fun c => Prog.ret (report.merge c) := by
  -- an error is added to the report in either way
  have herr : ∀ (more : AnchorJobReport) (err : ReportError),
      ((pure (more.withError text environment err) : ReportProgram AnchorJobReport) >>= fun c =>
        Prog.ret (report.merge c)) = Prog.ret ((report.merge more).withError text environment err) := by
    intro more err
    rw [Prog.pure_def, Prog.ret_bind, merge_withError]
  rw [anchorEnvironment, anchorEnvironment, Prog.tryCatch_bind_ret]
  congr 1
  · rw [Prog.bind_bind]
    congr 1
    funext payload
    cases payload with
    | none =>
        -- nothing to anchor on this day
        change Prog.ret report = Prog.ret (report.merge blank)
        rw [merge_blank]
    | some payload =>
        dsimp only
        rw [Prog.bind_bind]
        congr 1
        funext (alreadyAnchored : Bool)
        cases alreadyAnchored with
        | true =>
            -- anchored before
            change Prog.ret report = Prog.ret (report.merge blank)
            rw [merge_blank]
        | false =>
            rw [if_neg (by decide), if_neg (by decide), Prog.bind_bind]
            congr 1
            funext data
            rw [Prog.tryCatch_bind_ret, Prog.bind_bind]
            congr 2
            funext appended
            -- one more staged payload
            have hmerge := merge_withStaged report blank
              ⟨text, environment, payload.dayUtc, payload, data⟩
            rw [merge_blank] at hmerge
            exact congrArg Prog.ret hmerge.symm
  · funext err
    rw [herr, merge_blank]
    rfl

/-! ## Appends -/

section Append

variable {payload : ChainedAuditPayload}

theorem forwards_appendBody (payload : ChainedAuditPayload) : Prog.Forwards (appendBody payload) := by
  refine Prog.Forwards.bind Prog.forwards_perform fun _ => ?_
  refine Prog.Forwards.bind Prog.forwards_perform fun _ => ?_
  refine Prog.Forwards.bind (Prog.Forwards.bind Prog.forwards_perform fun _ =>
    Prog.forwards_ret) fun _ => ?_
  refine Prog.Forwards.bind Prog.forwards_perform fun _ => ?_
  refine Prog.Forwards.bind Prog.forwards_perform fun _ => ?_
  split
  · exact Prog.Forwards.bind Prog.forwards_perform fun _ => Prog.forwards_ret
  · exact Prog.forwards_ret

/-- The INSERT of the event and right after it the COMMIT were answered. -/
def Inserted (payload : ChainedAuditPayload) (es : List (Act sig DbError)) : Prop :=
  ∃ previousHash id, [(⟨.insert (insertValues payload previousHash
    (computeEventHash payload previousHash)), .ok id⟩ : Act sig DbError), ⟨.commit, .ok ()⟩] <:+: es

theorem returns_appendBody : Prog.Returns (fun es _ => Inserted payload es) (appendBody payload) := by
  apply Prog.returns_perform_bind
  intro _
  apply Prog.returns_perform_bind
  intro _
  apply Prog.returns_bind
  intro es previousHash
  apply Prog.returns_perform_bind
  intro (id : JsString)
  apply Prog.returns_perform_bind
  intro _
  apply Prog.returns_of_forall
  intro es' _
  refine ⟨previousHash, id,
    ⟨.begin, .ok ()⟩ :: ⟨.advisoryXactLock payload.tenantId, .ok ()⟩ :: es, es', ?_⟩
  rw [List.append_assoc]
  rfl

/-- An append that returns has had no error and has written its row; one that throws has
    had an error. -/
theorem ends_appendAuditEvent : Prog.Ends (fun es out =>
    (∀ a, out = .ok a → (∀ x ∈ es, ∀ e, x.answer ≠ .error e) ∧ Inserted payload es) ∧
      ∀ e, out = .error e → ∃ x ∈ es, ∃ e', x.answer = .error e') (appendAuditEvent payload) := by
  refine Prog.ends_perform_bind.mpr ⟨fun a => ?_, fun e => ⟨fun _ ha => (nomatch ha), fun e' he => ?_⟩⟩
  · refine Prog.Ends.tryCatch (Prog.Ends.and (forwards_appendBody payload) returns_appendBody) ?_ ?_
    · rintro es a ⟨hforward, hinserted⟩
      refine ⟨fun b hb => ⟨fun x hx e he => ?_, ?_⟩, fun _ he => (nomatch he)⟩
      · rcases List.mem_cons.mp hx with rfl | hx
        · cases he
        · cases (hforward e).mpr ⟨x, hx, he⟩
      · obtain ⟨previousHash, id, hin⟩ := hinserted a rfl
        exact ⟨previousHash, id, hin.trans (List.suffix_cons _ _).isInfix⟩
    · rintro es err ⟨hforward, -⟩
      obtain ⟨x, hx, hans⟩ := (hforward err).mp rfl
      refine Prog.Ends.bind (Ψ := fun _ _ => True) (Prog.ends_of_forall fun _ _ => trivial)
        (fun es' _ _ => ?_) fun es' e _ => ⟨fun _ ha => (nomatch ha), fun e' _ => ?_⟩
      · refine ⟨fun _ ha => (nomatch ha), fun e' _ => ?_⟩
        exact ⟨x, List.mem_cons_of_mem _ (List.mem_append_left _ hx), err, hans⟩
      · exact ⟨x, List.mem_cons_of_mem _ (List.mem_append_left _ hx), err, hans⟩
  · exact ⟨_, List.mem_cons_self, e, rfl⟩

end Append

/-- No statement of an append was answered by an error. -/
def AppendsDone (es : List ReportAct) : Prop := ∀ o e, (⟨.inl o, .error e⟩ : ReportAct) ∉ es

/-- The statements that write the audit row of a staged transaction. -/
def Footprint (tx : AnchorTx) (day : ℤ) (es : List ReportAct) : Prop :=
  ∃ previousHash id, [(⟨.inl (.insert (insertValues (stagedEvent tx day) previousHash
    (computeEventHash (stagedEvent tx day) previousHash))), .ok id⟩ : ReportAct),
    ⟨.inl .commit, .ok ()⟩] <:+: es

theorem ends_selfAudit (tx : AnchorTx) : Prog.Ends (fun (es : List ReportAct) out =>
    (∀ a, out = .ok a → AppendsDone es ∧ Footprint tx day es) ∧
      ∀ e, out = .error e → ¬ AppendsDone es)
    ((appendAuditEvent (stagedEvent tx day)).lift : ReportProgram Appended) := by
  apply (Prog.Ends.lift ends_appendAuditEvent).mono
  rintro es out (⟨es₀, out₀, rfl, rfl, hok, herr⟩ | ⟨o, e, hmem, rfl⟩)
  · refine ⟨fun a ha => ?_, fun e he hdone => ?_⟩
    · cases out₀ with
      | error e => cases ha
      | ok a₀ =>
          obtain ⟨hnone, previousHash, id, pre, post, hin⟩ := hok a₀ rfl
          refine ⟨fun o e hmem => ?_, previousHash, id, pre.map Act.inl, post.map Act.inl, ?_⟩
          · obtain ⟨x, hx, heq⟩ := List.mem_map.mp hmem
            cases hans : x.answer with
            | error e' => exact hnone x hx e' hans
            | ok b =>
                rw [Act.inl, hans] at heq
                cases heq
          · rw [← hin, List.map_append, List.map_append]
            rfl
    · cases out₀ with
      | ok a => cases he
      | error e₀ =>
          obtain ⟨⟨o, r⟩, hx, e', hans⟩ := herr e₀ rfl
          dsimp only at hans
          subst hans
          exact hdone o (.inl e') (List.mem_map.mpr ⟨_, hx, rfl⟩)
  · exact ⟨fun _ ha => (nomatch ha), fun _ _ hdone => hdone o (.inr e) hmem⟩

theorem appendsDone_append {es es' : List ReportAct} :
    AppendsDone (es ++ es') ↔ AppendsDone es ∧ AppendsDone es' := by
  constructor
  · intro h
    exact ⟨fun o e hmem => h o e (List.mem_append_left _ hmem),
      fun o e hmem => h o e (List.mem_append_right _ hmem)⟩
  · rintro ⟨h, h'⟩ o e hmem
    rcases List.mem_append.mp hmem with hmem | hmem
    · exact h o e hmem
    · exact h' o e hmem

theorem appendsDone_nil : AppendsDone [] := fun _ _ hmem => absurd hmem List.not_mem_nil

/-- SELECTs are no part of an append. -/
theorem appendsDone_query (q : Query) (r : Except ReportError q.Resp) :
    AppendsDone [⟨.inr q, r⟩] := by
  intro o e hmem
  cases List.mem_singleton.mp hmem

/-! ## How a turn ends -/

/-- What a turn for one pair adds to the report, after the operations `es`. -/
inductive PairEnd (day : ℤ) (text environment : JsString) (es : List ReportAct) :
    AnchorJobReport → Prop
  | skipped (hdone : AppendsDone es) : PairEnd day text environment es blank
  | failed (err : ReportError) (hdone : AppendsDone es) :
      PairEnd day text environment es (blank.withError text environment err)
  | staged (tx : AnchorTx) (htenant : tx.tenantId = text) (henv : tx.environment = environment)
      (hfoot : Footprint tx day es) (hdone : AppendsDone es) :
      PairEnd day text environment es (blank.withStaged tx)
  /-- The append has failed after the push. -/
  | torn (tx : AnchorTx) (htenant : tx.tenantId = text) (henv : tx.environment = environment)
      (err : ReportError) (hfail : ¬ AppendsDone es) :
      PairEnd day text environment es ((blank.withStaged tx).withError text environment err)

/-- A turn always returns: its errors go into the report. -/
theorem ends_pair (ethers : Ethers) (day : ℤ) (text environment : JsString) :
    Prog.Ends (fun es out => ∃ c, out = .ok c ∧ PairEnd day text environment es c)
      (anchorEnvironment ethers day text blank environment) := by
  -- an error before the push
  have hfailed : ∀ es (err : ReportError), AppendsDone es → Prog.Ends (fun es' out =>
      ∃ c, out = .ok c ∧ PairEnd day text environment (es ++ es') c)
      (pure (blank.withError text environment err) : ReportProgram AnchorJobReport) := by
    intro es err hdone
    rw [Prog.pure_def, Prog.ends_ret, List.append_nil]
    exact ⟨_, rfl, .failed err hdone⟩
  refine Prog.Ends.tryCatch (Ψ := fun es out => match out with
    | .ok c => PairEnd day text environment es c
    | .error _ => AppendsDone es) ?_ (fun es c hc => ⟨c, rfl, hc⟩)
    fun es err hdone => hfailed es err hdone
  refine Prog.Ends.bind (Ψ := fun es _ => AppendsDone es) ?_ (fun es₁ payload? hdone₁ => ?_)
    fun es₁ err hdone => hdone
  · exact Prog.ends_perform_bind.mpr ⟨fun row => appendsDone_query _ _, fun e => appendsDone_query _ _⟩
  cases payload? with
  | none =>
      change PairEnd day text environment (es₁ ++ []) blank
      rw [List.append_nil]
      exact .skipped hdone₁
  | some payload =>
      refine Prog.ends_perform_bind.mpr ⟨fun (alreadyAnchored : Bool) => ?_, fun e => ?_⟩
      · cases alreadyAnchored with
        | true =>
            exact .skipped (appendsDone_append.mpr ⟨hdone₁, appendsDone_query _ _⟩)
        | false =>
            refine Prog.Ends.bind (Ψ := fun es _ => es = []) (Prog.ends_ofExcept.mpr rfl)
              (fun es₂ data hes₂ => ?_) fun es₂ err hes₂ => ?_
            · subst hes₂
              set tx : AnchorTx := ⟨text, environment, payload.dayUtc, payload, data⟩
              have hbefore : ∀ es : List ReportAct, es₁ ++
                  ⟨.inr (.existsAnchor text (some environment) (floorToUtcMidnight day)), .ok false⟩ ::
                    ([] ++ es) = (es₁ ++ [⟨.inr (.existsAnchor text (some environment)
                      (floorToUtcMidnight day)), .ok false⟩]) ++ es := by
                intro es
                rw [List.append_assoc]
                rfl
              have hdone₂ := appendsDone_append.mpr ⟨hdone₁, appendsDone_query
                (.existsAnchor text (some environment) (floorToUtcMidnight day)) (.ok false)⟩
              simp only [hbefore]
              -- whether or not the append succeeds, the entry stays
              refine Prog.Ends.tryCatch (Ψ := fun es out => match out with
                | .ok c => c = blank.withStaged tx ∧ AppendsDone es ∧ Footprint tx day es
                | .error _ => ¬ AppendsDone es) ?_ ?_ ?_
              · refine Prog.Ends.bind (@ends_selfAudit day tx) (fun es a hes => ?_)
                  fun es err hes => hes.2 err rfl
                have hes := hes.1 a rfl
                rw [Prog.pure_def, Prog.ends_ret, List.append_nil]
                exact ⟨rfl, hes⟩
              · rintro es _ ⟨rfl, hdone, previousHash, id, hin⟩
                exact .staged tx rfl rfl
                  ⟨previousHash, id, hin.trans (List.suffix_append _ _).isInfix⟩
                  (appendsDone_append.mpr ⟨hdone₂, hdone⟩)
              · intro es err hfail
                rw [Prog.pure_def, Prog.ends_ret, List.append_nil]
                exact .torn tx rfl rfl err fun hdone => hfail (appendsDone_append.mp hdone).2
            · subst hes₂
              exact appendsDone_append.mpr ⟨hdone₁, appendsDone_query _ _⟩
      · exact appendsDone_append.mpr ⟨hdone₁, appendsDone_query _ _⟩

section PairEnd

variable {es : List ReportAct} {c : AnchorJobReport}

theorem PairEnd.of_staged (h : PairEnd day text environment es c) {tx : AnchorTx}
    (htx : tx ∈ c.staged) : tx.tenantId = text ∧ tx.environment = environment := by
  cases h with
  | skipped => cases htx
  | failed => cases htx
  | staged tx' htenant henv =>
      rw [List.mem_singleton.mp htx]
      exact ⟨htenant, henv⟩
  | torn tx' htenant henv =>
      rw [List.mem_singleton.mp htx]
      exact ⟨htenant, henv⟩

theorem PairEnd.of_error (h : PairEnd day text environment es c) {err : AnchorError}
    (herr : err ∈ c.errors) : err.tenantId = text ∧ err.environment = environment := by
  cases h with
  | skipped => cases herr
  | staged => cases herr
  | failed err' =>
      rw [List.mem_singleton.mp herr]
      exact ⟨rfl, rfl⟩
  | torn tx htenant henv err' =>
      rw [List.mem_singleton.mp herr]
      exact ⟨rfl, rfl⟩

/-- A pair is staged and in error exactly if its append has failed. -/
theorem PairEnd.both_iff (h : PairEnd day text environment es c) :
    (∃ tx err, tx ∈ c.staged ∧ err ∈ c.errors) ↔ ¬ AppendsDone es := by
  cases h with
  | skipped hdone =>
      refine iff_of_false ?_ (not_not.mpr hdone)
      rintro ⟨tx, err, htx, -⟩
      cases htx
  | failed err hdone =>
      refine iff_of_false ?_ (not_not.mpr hdone)
      rintro ⟨tx, err, htx, -⟩
      cases htx
  | staged tx htenant henv hfoot hdone =>
      refine iff_of_false ?_ (not_not.mpr hdone)
      rintro ⟨tx, err, -, herr⟩
      cases herr
  | torn tx htenant henv err hfail =>
      exact iff_of_true ⟨tx, ⟨text, environment, err⟩, List.mem_cons_self, List.mem_cons_self⟩ hfail

theorem PairEnd.footprint (h : PairEnd day text environment es c) (hdone : AppendsDone es)
    {tx : AnchorTx} (htx : tx ∈ c.staged) : Footprint tx day es := by
  cases h with
  | skipped => cases htx
  | failed => cases htx
  | staged tx' htenant henv hfoot =>
      rw [List.mem_singleton.mp htx]
      exact hfoot
  | torn tx' htenant henv err hfail => exact absurd hdone hfail

end PairEnd

/-! ## The whole job -/

/-- The pairs that a job goes over, in its order. -/
def pairsOf (tenants : List (JsString × Json)) : List (JsString × JsString) :=
  (tenants.filter fun t => auditAnchorProvider t.2 ≠ js "none").flatMap fun t =>
    environments.map fun e => (t.1, e)

theorem foldlM_anchorTenant (ethers : Ethers) (day : ℤ) (tenants : List (JsString × Json))
    (report : AnchorJobReport) :
    tenants.foldlM (anchorTenant ethers day) report =
      (pairsOf tenants).foldlM (fun r p => anchorEnvironment ethers day p.1 r p.2) report := by
  induction tenants generalizing report with
  | nil => rfl
  | cons tenant tenants ih =>
      rw [List.foldlM_cons, anchorTenant]
      by_cases hnone : auditAnchorProvider tenant.2 = js "none"
      · have hpairs : pairsOf (tenant :: tenants) = pairsOf tenants := by
          rw [pairsOf, List.filter_cons_of_neg (by simp [hnone])]
          rfl
        rw [if_pos hnone, Prog.pure_def, Prog.ret_bind, ih, hpairs]
      · have hpairs : pairsOf (tenant :: tenants) =
            (environments.map fun e => (tenant.1, e)) ++ pairsOf tenants := by
          rw [pairsOf, List.filter_cons_of_pos (by simp [hnone]), List.flatMap_cons]
          rfl
        rw [if_neg hnone, hpairs, List.foldlM_append, List.foldlM_map]
        congr 1
        funext report'
        exact ih report'

/-- An INSERT is one into the chain of the tenant and environment. -/
def InsertsFor (tenantId : JsString) (environment : Option JsString) : Op → Prop
  | .insert v => v.tenantId = tenantId ∧ v.environment = environment
  | _ => True

theorem only_appendAuditEvent (payload : ChainedAuditPayload) :
    Prog.Only (InsertsFor payload.tenantId payload.environment) (appendAuditEvent payload) := by
  refine Prog.Only.bind (Prog.only_perform trivial) fun _ => ?_
  refine Prog.Only.tryCatch ?_ fun err => ?_
  · refine Prog.Only.bind (Prog.only_perform trivial) fun _ => ?_
    refine Prog.Only.bind (Prog.only_perform trivial) fun _ => ?_
    refine Prog.Only.bind (Prog.Only.bind (Prog.only_perform trivial) fun _ => trivial) fun _ => ?_
    refine Prog.Only.bind (Prog.only_perform ⟨rfl, rfl⟩) fun _ => ?_
    refine Prog.Only.bind (Prog.only_perform trivial) fun _ => ?_
    split
    · exact Prog.Only.bind (Prog.only_perform trivial) fun _ => trivial
    · trivial
  · exact Prog.Only.bind (Prog.Only.tryCatch (Prog.only_perform trivial) fun _ => trivial)
      fun _ => trivial

/-- An operation of a turn for the pair. -/
def TurnOp (pair : JsString × JsString) : reportsSig.Op → Prop
  | .inl o => InsertsFor pair.1 (some pair.2) o
  | .inr _ => True

/-- A turn inserts rows of its own pair only. -/
theorem only_pair (ethers : Ethers) (day : ℤ) (pair : JsString × JsString) :
    Prog.Only (TurnOp pair) (anchorEnvironment ethers day pair.1 blank pair.2) := by
  refine Prog.Only.tryCatch ?_ fun err => trivial
  refine Prog.Only.bind (Prog.Only.bind (Prog.only_perform trivial) fun _ => trivial) fun payload => ?_
  cases payload with
  | none => trivial
  | some payload =>
      refine Prog.Only.bind (Prog.only_perform trivial) fun (alreadyAnchored : Bool) => ?_
      cases alreadyAnchored with
      | true => trivial
      | false =>
          refine Prog.Only.bind Prog.only_ofExcept fun data => ?_
          refine Prog.Only.tryCatch ?_ fun err => trivial
          refine Prog.Only.bind ?_ fun _ => trivial
          exact Prog.Only.lift (only_appendAuditEvent _) fun o ho => ho

abbrev PairTurn := Prog.Turn reportsSig ReportError (JsString × JsString) AnchorJobReport

/-- The report is put together from a turn for every pair.  The answers to its own
    statements decide what a turn adds, and it inserts no row for another pair. -/
structure Separate (ethers : Ethers) (es : List ReportAct) (report : AnchorJobReport)
    (tenants : List (JsString × Json)) (turns : List PairTurn) : Prop where
  items : turns.map Prog.Turn.item = pairsOf tenants
  acts : ∃ pre, AppendsDone pre ∧
    es = pre ++ ⟨.inr .activeTenants, .ok tenants⟩ :: turns.flatMap Prog.Turn.acts
  own : ∀ t ∈ turns, ∀ out, Prog.Runs
    (anchorEnvironment ethers report.dayUtc t.item.1 blank t.item.2) t.acts out ↔ out = .ok t.result
  rows : ∀ t ∈ turns, ∀ x ∈ t.acts, TurnOp t.item x.op
  staged : report.staged = turns.flatMap fun t => t.result.staged
  errors : report.errors = turns.flatMap fun t => t.result.errors

theorem foldl_merge (turns : List PairTurn) (report : AnchorJobReport) :
    ((turns.map Prog.Turn.result).foldl AnchorJobReport.merge report).dayUtc = report.dayUtc ∧
    ((turns.map Prog.Turn.result).foldl AnchorJobReport.merge report).staged =
      report.staged ++ turns.flatMap (fun t => t.result.staged) ∧
    ((turns.map Prog.Turn.result).foldl AnchorJobReport.merge report).errors =
      report.errors ++ turns.flatMap (fun t => t.result.errors) := by
  induction turns generalizing report with
  | nil => simp
  | cons t turns ih =>
      obtain ⟨hday, hstaged, herrors⟩ := ih (report.merge t.result)
      rw [List.map_cons, List.foldl_cons, List.flatMap_cons, List.flatMap_cons]
      refine ⟨hday, ?_, ?_⟩
      · rw [hstaged, ← List.append_assoc]
        rfl
      · rw [herrors, ← List.append_assoc]
        rfl

theorem ends_anchorDay (dayUtc : Option ℤ) :
    Prog.Ends (fun es _ => AppendsDone es) (anchorDay dayUtc) := by
  cases dayUtc with
  | some ms => exact appendsDone_nil
  | none => exact Prog.ends_perform_bind.mpr ⟨fun _ => appendsDone_query _ _, fun _ => appendsDone_query _ _⟩

/-- What a job that returns has done. -/
theorem ends_job (ethers : Ethers) (dayUtc : Option ℤ) : Prog.Ends (fun es out =>
    ∀ report, out = .ok report → report.tenantsToAnchor = report.staged.length ∧
      ∃ tenants turns, Separate ethers es report tenants turns)
    (runDailyAnchorJob ethers dayUtc) := by
  -- the day, then the tenants, then one turn for each pair
  refine Prog.Ends.bind (ends_anchorDay dayUtc) (fun pre day hpre => ?_) fun _ err _ report hok => by
    cases hok
  refine Prog.ends_perform_bind.mpr ⟨fun (tenants : List (JsString × Json)) => ?_,
    fun err report hok => by cases hok⟩
  rw [foldlM_anchorTenant]
  -- no turn throws, whatever happens in it
  have hends : ∀ p : JsString × JsString, Prog.Ends (fun _ out => ∃ c, out = .ok c)
      (anchorEnvironment ethers day p.1 blank p.2) :=
    fun p => (ends_pair ethers day p.1 p.2).mono fun _ _ ⟨c, hc, _⟩ => ⟨c, hc⟩
  refine Prog.Ends.bind (@Prog.ends_turns _ _ _ _ _ _ (fun p : JsString × JsString =>
    anchorEnvironment ethers day p.1 blank p.2) _ (fun report p => anchorEnvironment_eq report) hends
    (pairsOf tenants) _) ?_ ?_
  · rintro es _ ⟨turns, hitems, rfl, hout, hown⟩ report hok
    cases hout
    cases hok
    obtain ⟨hday, hstaged, herrors⟩ := foldl_merge turns ⟨day, tenants.length, 0, [], []⟩
    refine ⟨rfl, tenants, turns, ?_⟩
    exact {
      items := hitems
      acts := ⟨pre, hpre, by rw [List.append_nil]⟩
      own := by
        intro t ht out
        dsimp only
        rw [hday]
        constructor
        · intro hrun
          exact hrun.outcome_unique (hown t ht)
        · rintro rfl
          exact hown t ht
      rows := fun t ht => (hown t ht).ends (only_pair ethers day t.item).ends
      staged := hstaged
      errors := herrors }
  · rintro es err ⟨turns, -, -, hout, -⟩
    cases hout

end ZeroAuth.Audit
