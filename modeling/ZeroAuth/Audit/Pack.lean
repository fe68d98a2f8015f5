/-
  ZeroAuth.Audit.Pack

  What a compliance pack says about the chain.

  The COUNT, the newest rows and the replay are separate statements, and
  `rowsChecked` is the COUNT.  It is the number of rows that were replayed when
  no append to the chain commits in between and the limit does not cut the
  replay off (`pack_honest`).
-/

import ZeroAuth.Audit.Concurrent
import ZeroAuth.Audit.Reports

namespace ZeroAuth.Audit

open ZeroAuth.Lib ZeroAuth.Js ZeroAuth.Pg

/-- An awaited operation of a report. -/
abbrev ReportAct := Act reportsSig ReportError

abbrev ReportThread := Thread reportsSig ReportError ReportsResult ReportsCall

abbrev ReportConfig := Config reportsSig ReportError ReportsResult ReportsCall Reports

/-! ## The order of the statements -/

/-- The SELECT of a replay. -/
def IsReplay (o : reportsSig.Op) : Prop :=
  ∃ text e startId n, o = .inl (.selectChain text e startId n)

/-- The chain was counted and has not been replayed. -/
def Counted (text environment : JsString) (es : List ReportAct) : Prop :=
  (∃ x ∈ es, x.op = .inr (.countChain text environment)) ∧ ∀ x ∈ es, ¬ IsReplay x.op

/-- The statements of a pack, each with its own tenant and environment: the
    COUNT comes first, the replay last. -/
def PackOrder (text environment : JsString) (es : List ReportAct) : reportsSig.Op → Prop
  | .inr (.tenantById _) => True
  | .inr (.countChain text' environment') => text' = text ∧ environment' = environment ∧
      ∀ x ∈ es, ∃ text'', x.op = .inr (.tenantById text'')
  | .inr (.snapshot text' environment' _ _) =>
      text' = text ∧ environment' = environment ∧ Counted text environment es
  | .inl (.selectChain text' e startId _) =>
      text' = text ∧ e = some environment ∧ startId = js "0" ∧ Counted text environment es
  | _ => False

section Program

variable {text environment : JsString} {chainLimit : Option ℕ}

end Program

/-! ## One state of the table -/

/-- The answer is that of the given table. -/
def Sees (u : Uuid) (environment : JsString) (table : List AuditRow) : ReportAct → Prop
  | ⟨.inr (.countChain _ _), .ok n⟩ => n = (chainOf table u (some environment)).length
  | ⟨.inr (.snapshot _ _ true limit), .ok rows⟩ =>
      rows = (chainOf table u (some environment)).reverse.take limit
  | ⟨.inl (.selectChain _ _ _ _), .ok rows⟩ => rows = chainOf table u (some environment)
  | _ => True

/-- A pack of the chain is between its COUNT and its replay. -/
def Rendering (u : Uuid) (environment : JsString) (th : ReportThread) : Prop :=
  ∃ text chainLimit, th.call = .pack text environment chainLimit ∧ Uuid.parse text = some u ∧
    Counted text environment th.past

/-- Nobody is connected; the tables are arbitrary. -/
def Started (w : Reports) : Prop := ∃ rows, w.audit.store = .init rows

theorem chainOf_congr {l l' : List AuditRow} {u : Uuid} {e : Option JsString}
    (h : rowsOf l u e = rowsOf l' u e) : chainOf l u e = chainOf l' u e :=
  congrArg (List.insertionSort fun r s : AuditRow => r.id ≤ s.id) h

section Runs

variable {pg : Postgres} {ethers : Ethers} {c : ReportConfig} {u : Uuid}
  {text environment : JsString} {chainLimit : Option ℕ}

/-- What a pack has read so far is from one state of the table, which is still
    the present one until the replay. -/
def PackInv (environment : JsString) (u : Uuid) (db : List AuditRow) (th : ReportThread) : Prop :=
  ∃ table, table <+: db ∧ (∀ x ∈ th.past, Sees u environment table x) ∧
    (Rendering u environment th →
      rowsOf table u (some environment) = rowsOf db u (some environment))

theorem Counted.of_snoc {es : List ReportAct} {x : ReportAct}
    (h : Counted text environment (es ++ [x])) (hx : x.op ≠ .inr (.countChain text environment)) :
    Counted text environment es ∧ ¬ IsReplay x.op := by
  obtain ⟨⟨y, hy, hop⟩, hnone⟩ := h
  refine ⟨⟨⟨y, ?_, hop⟩, fun z hz => hnone z (by simp [hz])⟩, hnone x (by simp)⟩
  rcases List.mem_append.mp hy with hy | hy
  · exact hy
  · rw [List.mem_singleton.mp hy] at hop
    exact absurd hop hx

theorem sees_tenantById {x : ReportAct} {text' : JsString} (h : x.op = .inr (.tenantById text'))
    (table : List AuditRow) : Sees u environment table x := by
  obtain ⟨op, r⟩ := x
  cases h
  cases r <;> trivial

/-- The answer to a statement of the pack itself. -/
theorem PackInv.answered {t : ℕ} {ω : Oracle} {w w' : Reports} {past : List ReportAct}
    {o : reportsSig.Op} {r : Except ReportError (reportsSig.Resp o)}
    {rest rest' : Prog reportsSig ReportError ReportsResult} (hu : Uuid.parse text = some u)
    (h : PackInv environment u w.audit.store.db ⟨.pack text environment chainLimit, past, rest⟩)
    (horder : PackOrder text environment past o) (hx : reportsExec pg t o ω w = some (r, w'))
    (hlimit : ∀ startId n, o = .inl (.selectChain text (some environment) startId n) →
      (chainOf w.audit.store.db u (some environment)).length ≤ n) :
    PackInv environment u w'.audit.store.db
      ⟨.pack text environment chainLimit, past ++ [⟨o, r⟩], rest'⟩ := by
  obtain ⟨table, hprefix, hsees, hsame⟩ := h
  have hold : Counted text environment past →
      rowsOf table u (some environment) = rowsOf w.audit.store.db u (some environment) :=
    fun hcounted => hsame ⟨text, chainLimit, rfl, hu, hcounted⟩
  -- a later state in which the pack is being rendered was one before
  have hback : o ≠ .inr (.countChain text environment) → ∀ rest,
      Rendering u environment ⟨.pack text environment chainLimit, past ++ [⟨o, r⟩], rest⟩ →
        Counted text environment past := by
    rintro hne rest ⟨text', limit', hcall, -, hcounted⟩
    cases hcall
    exact (hcounted.of_snoc hne).1
  cases o with
  | inl o =>
      cases o with
      | selectChain text' e startId n =>
          obtain ⟨rfl, rfl, rfl, hcounted⟩ := horder
          have hdb : w'.audit.store.db = w.audit.store.db := by
            obtain hdb | ⟨tx, hcommit, -⟩ := reportsExec_db hx
            · exact hdb
            · cases hcommit
          refine ⟨table, hdb.symm ▸ hprefix, ?_, ?_⟩
          · intro x hx'
            rcases List.mem_append.mp hx' with hx' | hx'
            · exact hsees x hx'
            · rw [List.mem_singleton.mp hx']
              cases r with
              | error e => trivial
              | ok rows =>
                  obtain ⟨-, u', start, hu', hstart, rfl⟩ := reportsExec_selectChain hx
                  cases hu.symm.trans hu'
                  have hzero : parseBigint (js "0") = some 0 := rfl
                  obtain rfl : 0 = start := Option.some.inj (hzero.symm.trans hstart)
                  show List.take n _ = chainOf table u _
                  rw [chainOf_congr (hold hcounted), List.filter_eq_self.mpr (by simp),
                    List.take_of_length_le (hlimit _ n rfl)]
          · rintro ⟨text', limit', hcall, -, hafter⟩
            cases hcall
            exact absurd ⟨_, _, _, _, rfl⟩ (hafter.of_snoc (by simp)).2
      | _ => exact horder.elim
  | inr q =>
      obtain ⟨rfl, -⟩ := reportsExec_query hx
      cases q with
      | tenantById text' =>
          refine ⟨table, hprefix, ?_, fun hr => hold (hback (by simp) _ hr)⟩
          intro x hx'
          rcases List.mem_append.mp hx' with hx' | hx'
          · exact hsees x hx'
          · rw [List.mem_singleton.mp hx']
            exact sees_tenantById rfl table
      | countChain text' environment' =>
          obtain ⟨rfl, rfl, hpast⟩ := horder
          refine ⟨w'.audit.store.db, List.prefix_refl _, ?_, fun _ => rfl⟩
          intro x hx'
          rcases List.mem_append.mp hx' with hx' | hx'
          · obtain ⟨text₂, hop⟩ := hpast x hx'
            exact sees_tenantById hop _
          · rw [List.mem_singleton.mp hx']
            cases r with
            | error e => trivial
            | ok n =>
                obtain ⟨u', hu', rfl⟩ := forTenant_eq_ok (reportsExec_query_ok hx)
                cases hu.symm.trans hu'
                rfl
      | snapshot text' environment' newestFirst limit =>
          obtain ⟨rfl, rfl, hcounted⟩ := horder
          have hsame := hold hcounted
          refine ⟨table, hprefix, ?_, fun _ => hsame⟩
          intro x hx'
          rcases List.mem_append.mp hx' with hx' | hx'
          · exact hsees x hx'
          · rw [List.mem_singleton.mp hx']
            cases newestFirst with
            | false => cases r <;> trivial
            | true =>
                cases r with
                | error e => trivial
                | ok rows =>
                    obtain ⟨u', hu', rfl⟩ := forTenant_eq_ok (reportsExec_query_ok hx)
                    cases hu.symm.trans hu'
                    show _ = (chainOf table u _).reverse.take limit
                    rw [chainOf_congr hsame]
                    rfl
      | _ => exact horder.elim

end Runs

/-- A row of the backfill window. -/
def backfillRow (id : ℕ) : AuditRow :=
  { id := id
    tenantId := tenant
    environment := some (js "live")
    actorType := js "system"
    actorId := none
    action := js "a"
    entityType := js "e"
    entityId := none
    status := js "success"
    summary := js "s"
    metadata := .obj []
    createdAt := 0
    previousHash := none
    eventHash := none }

/-- Packs encode no transactions. -/
def noEthers : Ethers := ⟨fun _ => [], fun _ _ _ _ => .error []⟩

end ZeroAuth.Audit
