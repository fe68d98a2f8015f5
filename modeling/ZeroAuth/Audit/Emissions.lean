/-
  ZeroAuth.Audit.Emissions

  Which appends are announced: a call of `appendAuditEvent` emits an event exactly when it
  completes and its action is one of `VERIFICATION_ACTIONS` (`ends_append`), and the row
  of an event is committed before the event is emitted (`emitted_committed`).
-/

import ZeroAuth.Audit.AnchorReport
import ZeroAuth.Lib.Turns

namespace ZeroAuth.Audit

open ZeroAuth.Lib ZeroAuth.Js ZeroAuth.Pg

/-! ## What one call emits -/

def emitted? (x : Act sig DbError) : Option VerificationEvent :=
  match x.op with
  | .emit event => some event
  | _ => none

/-- The events of a call that has ended. -/
def completed (payload : ChainedAuditPayload) : Except DbError Result → List VerificationEvent
  | .ok (.appended a) =>
      if isVerificationAction payload.action then [eventOf payload a.id] else []
  | _ => []

/-- No `emit` of the history has failed. -/
def EmitsOk (es : List (Act sig DbError)) : Prop :=
  ∀ event e, (⟨.emit event, .error e⟩ : Act sig DbError) ∉ es

/-- The COMMIT has been answered. -/
def Committed (es : List (Act sig DbError)) : Prop := (⟨.commit, .ok ()⟩ : Act sig DbError) ∈ es

/-- Nothing has been emitted, and the COMMIT has not been answered. -/
def Silent (es : List (Act sig DbError)) : Prop := es.filterMap emitted? = [] ∧ ¬ Committed es

theorem Silent.append {es es' : List (Act sig DbError)} (h : Silent es) (h' : Silent es') :
    Silent (es ++ es') := by
  refine ⟨?_, fun hc => ?_⟩
  · rw [List.filterMap_append, h.1, h'.1]
    rfl
  · exact (List.mem_append.mp hc).elim h.2 h'.2

/-- Neither COMMIT nor an event. -/
def quiet : Op → Bool
  | .commit | .emit _ => false
  | _ => true

/-- A program of such operations is silent. -/
theorem ends_silent {α : Type} {p : Program α} (h : Prog.Only (fun o : Op => quiet o = true) p) :
    Prog.Ends (fun es _ => Silent es) p := by
  refine h.ends.mono fun es _ hes => ⟨?_, fun hc => ?_⟩
  · rw [List.filterMap_eq_nil_iff]
    rintro ⟨o, r⟩ hx
    cases o with
    | emit event => cases hes _ hx
    | _ => rfl
  · cases hes _ hc

theorem only_quiet {o : Op} (h : quiet o = true) :
    Prog.Only (fun o : Op => quiet o = true) (Prog.perform (S := sig) o : Program o.Resp) :=
  Prog.only_perform (S := sig) (P := fun o : Op => quiet o = true) h

/-- How the protected part of an append ends. -/
def BodyEnds (payload : ChainedAuditPayload) (es : List (Act sig DbError)) :
    Except DbError Appended → Prop
  | .ok a => es.filterMap emitted? =
      if isVerificationAction payload.action then [eventOf payload a.id] else []
  | .error _ => EmitsOk es → Silent es

theorem bodyEnds_bind {α : Type} {payload : ChainedAuditPayload} {p : Program α}
    {f : α → Program Appended} (hp : Prog.Ends (fun es _ => Silent es) p)
    (hf : ∀ a, Prog.Ends (BodyEnds payload) (f a)) : Prog.Ends (BodyEnds payload) (p >>= f) := by
  refine Prog.Ends.bind hp (fun es a hes => (hf a).mono fun es' out hout => ?_) fun es e hes _ => hes
  cases out with
  | ok x =>
      show (es ++ es').filterMap emitted? = _
      rw [List.filterMap_append, hes.1, List.nil_append]
      exact hout
  | error e =>
      exact fun hok => hes.append (hout fun event e' hmem => hok event e' (List.mem_append_right _ hmem))

theorem bodyEnds_appendBody (payload : ChainedAuditPayload) :
    Prog.Ends (BodyEnds payload) (appendBody payload) := by
  refine bodyEnds_bind (ends_silent (only_quiet (o := .begin) rfl)) fun _ => ?_
  refine bodyEnds_bind (ends_silent (only_quiet (o := .advisoryXactLock _) rfl)) fun _ => ?_
  refine bodyEnds_bind (ends_silent (Prog.Only.bind (only_quiet (o := .selectHead _ _) rfl)
    fun _ => trivial)) fun previousHash => ?_
  refine bodyEnds_bind (ends_silent (only_quiet (o := .insert _) rfl)) fun (id : JsString) => ?_
  have hcommit : ∀ e, Silent [(⟨.commit, .error e⟩ : Act sig DbError)] := by
    refine fun e => ⟨rfl, fun hc => ?_⟩
    cases List.mem_singleton.mp hc
  refine Prog.ends_perform_bind.mpr ⟨fun _ => ?_, fun e _ => hcommit e⟩
  by_cases haction : isVerificationAction payload.action = true
  · rw [if_pos haction]
    refine Prog.ends_perform_bind.mpr ⟨fun _ => ?_, fun e hok => ?_⟩
    · show _ = if _ then _ else _
      rw [if_pos haction]
      rfl
    · -- the emit is the last of the history
      exact absurd (List.mem_cons_of_mem _ List.mem_cons_self) (hok (eventOf payload id) e)
  · rw [if_neg haction]
    show _ = if _ then _ else _
    rw [if_neg haction]
    rfl

theorem bodyEnds_appendAuditEvent (payload : ChainedAuditPayload) :
    Prog.Ends (BodyEnds payload) (appendAuditEvent payload) := by
  have hrollback : Prog.Ends (fun es _ => Silent es)
      ((Prog.perform (S := sig) .rollback).tryCatch fun _ => pure () : Program Unit) :=
    ends_silent (Prog.Only.tryCatch (only_quiet (o := .rollback) rfl) fun _ => trivial)
  refine bodyEnds_bind (ends_silent (only_quiet (o := .connect) rfl)) fun _ => ?_
  refine Prog.Ends.tryCatch (bodyEnds_appendBody payload) (fun es a h => h) fun es err h => ?_
  refine Prog.Ends.bind hrollback (fun es' _ hes' hok => ?_) fun es' e hes' hok => ?_
  · rw [List.append_nil] at hok ⊢
    exact (h fun event e' hmem => hok event e' (List.mem_append_left _ hmem)).append hes'
  · exact (h fun event e' hmem => hok event e' (List.mem_append_left _ hmem)).append hes'

/-- An append that ends has emitted the event of its row if it returns, and nothing else;
    one that has committed does return. -/
theorem ends_append (payload : ChainedAuditPayload) :
    Prog.Ends (fun es out => EmitsOk es → es.filterMap emitted? = completed payload out ∧
      (Committed es → ∃ a, out = .ok (.appended a))) (code (.append payload)) := by
  refine Prog.Ends.bind (bodyEnds_appendAuditEvent payload) (fun es a h _ => ?_) fun es e h hok => ?_
  · rw [List.append_nil]
    exact ⟨h, fun _ => ⟨a, rfl⟩⟩
  · exact ⟨(h hok).1, fun hc => absurd hc (h hok).2⟩

/-! ## The row of an event -/

/-- The row that an INSERT of `v` has written, when it was answered by `id`. -/
structure RowOf (v : InsertValues) (id : JsString) (row : AuditRow) : Prop where
  id : numText 10 row.id = id
  tenantId : Uuid.parse v.tenantId = some row.tenantId
  action : row.action = v.action

def inserted (v : InsertValues) (id : JsString) : Act sig DbError := ⟨.insert v, .ok id⟩

/-- When an event is emitted, the last two statements were the INSERT of its row and the
    COMMIT. -/
def Announces (es : List (Act sig DbError)) : Op → Prop
  | .emit event => ∃ v, [inserted v event.auditId, ⟨.commit, .ok ()⟩] <:+ es ∧
      v.tenantId = event.tenantId ∧ v.action = event.action
  | _ => True

theorem before_append (payload : ChainedAuditPayload) :
    Prog.Before Announces (code (.append payload)) := by
  refine Prog.before_bind.mpr ⟨?_, Prog.ends_of_forall fun _ _ _ _ => trivial⟩
  refine Prog.before_perform_bind.mpr ⟨trivial, fun _ => ?_⟩
  refine Prog.before_tryCatch.mpr ⟨?_, Prog.ends_of_forall fun es out e _ => ?_⟩
  · unfold appendBody fetchPreviousHash
    refine Prog.before_perform_bind.mpr ⟨trivial, fun _ => ?_⟩
    refine Prog.before_perform_bind.mpr ⟨trivial, fun _ => ?_⟩
    rw [Prog.bind_bind]
    refine Prog.before_perform_bind.mpr ⟨trivial, fun row => ?_⟩
    refine Prog.before_perform_bind.mpr ⟨trivial, fun (id : JsString) => ?_⟩
    refine Prog.before_perform_bind.mpr ⟨trivial, fun (_ : Unit) => ?_⟩
    split
    · -- begin, lock and select come before the two statements, and connect before them
      refine Prog.before_perform_bind.mpr ⟨⟨_, ⟨[_, _, _, _], rfl⟩, rfl, rfl⟩, fun _ => trivial⟩
    · trivial
  · -- the handler only rolls back
    exact Prog.before_bind.mpr ⟨Prog.before_tryCatch.mpr ⟨Prog.before_perform.mpr trivial,
      Prog.ends_of_forall fun _ _ _ _ => trivial⟩, Prog.ends_of_forall fun _ _ _ _ => trivial⟩

theorem before_code (a : Call) : Prog.Before Announces (code a) := by
  cases a with
  | append payload => exact before_append payload
  | verify tenantId environment options =>
      refine Prog.before_bind.mpr ⟨?_, Prog.ends_of_forall fun _ _ _ _ => trivial⟩
      exact Prog.before_perform_bind.mpr ⟨trivial, fun _ => trivial⟩

section Rows

variable {pg : Postgres} {t : ℕ} {ω : Oracle} {w w' : World}

theorem exec_insert_row {v : InsertValues} {id : JsString}
    (h : exec pg t (.insert v) ω w = some (.ok id, w')) : ∃ (tx : Tx AuditRow) (row : AuditRow), RowOf v id row ∧
      w'.store.conns t = .active { tx with writes := tx.writes ++ [row] } := by
  simp only [exec, inTransaction] at h
  split at h
  · next tx hconn =>
      split at h
      · next u m hu hm =>
          cases h
          refine ⟨tx, v.row pg w.nextId tx.now u m, ⟨rfl, hu, rfl⟩, ?_⟩
          show (w.store.write t _).conns t = _
          rw [Store.write_of_active hconn, Store.setConn_conns_self]
      · cases h
      · cases h
  all_goals cases h

theorem exec_rows {o : Op} {r : Except DbError o.Resp} (h : exec pg t o ω w = some (r, w')) :
    ∀ row ∈ w.store.db, row ∈ w'.store.db := by
  intro row hrow
  obtain hsame | ⟨tx, -, -, hdb⟩ := exec_db h
  · rw [hsame]
    exact hrow
  · rw [hdb]
    exact List.mem_append_left _ hrow

theorem env_rows {e : Env} (h : env e w = some w') : w'.store.db = w.store.db ∧
    ∀ t tx, w'.store.conns t = .active tx → w.store.conns t = .active tx := by
  cases e with
  | tick ms =>
      cases h
      exact ⟨rfl, fun _ _ htx => htx⟩
  | cut t' =>
      simp only [env] at h
      split at h
      · cases h
        refine ⟨rfl, fun t tx htx => ?_⟩
        have hconns : (w.store.drop t' .failed).conns t = .active tx := htx
        by_cases hne : t = t'
        · subst hne
          rw [Store.drop_conns_self] at hconns
          cases hconns
        · rwa [Store.drop_conns_of_ne hne] at hconns
      · cases h
        exact ⟨rfl, fun _ _ htx => htx⟩

/-- A statement of the database emits nothing. -/
theorem exec_emitted {o : Op} {r : Except DbError o.Resp} (ho : ∀ event, o ≠ .emit event)
    (h : exec pg t o ω w = some (r, w')) : w'.emitted = w.emitted := by
  -- a statement of a transaction runs in it or fails without it
  have htx : ∀ {α : Type} {run : Tx AuditRow → Option (Except DbError α × World)}
      {r : Except DbError α}, inTransaction t ω w run = some (r, w') →
      (∃ tx, run tx = some (r, w')) ∨ w'.emitted = w.emitted := by
    intro α run r hrun
    unfold inTransaction at hrun
    split at hrun
    · next tx _ => exact .inl ⟨tx, hrun⟩
    all_goals
      cases hrun
      exact .inr rfl
  cases o with
  | emit event => exact absurd rfl (ho event)
  | connect => cases ω <;> cases h <;> rfl
  | rollback => cases ω <;> cases h <;> rfl
  | begin =>
      cases ω with
      | fail e => cases h; rfl
      | proceed =>
          simp only [exec] at h
          split at h <;> cases h <;> rfl
  | selectChain tenantId environment startId limit =>
      cases ω with
      | fail e => cases h; rfl
      | proceed =>
          simp only [exec] at h
          split at h <;> cases h <;> rfl
  | advisoryXactLock tenantId =>
      obtain ⟨tx, hrun⟩ | hsame := htx h
      · obtain ⟨s, hs, heq⟩ := Option.map_eq_some_iff.mp hrun
        cases heq
        rfl
      · exact hsame
  | selectHead tenantId environment =>
      obtain ⟨tx, hrun⟩ | hsame := htx h
      · split at hrun <;> cases hrun <;> rfl
      · exact hsame
  | insert v =>
      obtain ⟨tx, hrun⟩ | hsame := htx h
      · split at hrun <;> cases hrun <;> rfl
      · exact hsame
  | commit =>
      obtain ⟨tx, hrun⟩ | hsame := htx h
      · cases hrun
        rfl
      · exact hsame

theorem env_emitted {e : Env} (h : env e w = some w') : w'.emitted = w.emitted := by
  cases e with
  | tick ms =>
      cases h
      rfl
  | cut t =>
      simp only [env] at h
      split at h <;> cases h <;> rfl

/-- The rows that connection `t` has inserted by the operations `es`: those of its committed
    transactions are in the table, and the last one is in the open transaction. -/
structure Stored (t : ℕ) (w : World) (es : List (Act sig DbError)) : Prop where
  committed : ∀ v id, [inserted v id, ⟨.commit, .ok ()⟩] <:+: es →
    ∃ row ∈ w.store.db, RowOf v id row
  pending : ∀ v id, [inserted v id] <:+ es → ∀ tx, w.store.conns t = .active tx →
    ∃ row ∈ tx.writes, RowOf v id row

variable {es : List (Act sig DbError)}

/-- Others add rows to the table, and at most end the open transaction. -/
theorem Stored.of_frame (h : Stored t w es) (hdb : ∀ row ∈ w.store.db, row ∈ w'.store.db)
    (hconn : ∀ tx, w'.store.conns t = .active tx → w.store.conns t = .active tx) :
    Stored t w' es := by
  refine ⟨fun v id hin => ?_, fun v id hin tx htx => h.pending v id hin tx (hconn tx htx)⟩
  obtain ⟨row, hrow, hof⟩ := h.committed v id hin
  exact ⟨row, hdb row hrow, hof⟩

theorem Stored.step {o : Op} {r : Except DbError o.Resp} (h : Stored t w es)
    (hx : exec pg t o ω w = some (r, w')) : Stored t w' (es ++ [⟨o, r⟩]) := by
  constructor
  · intro v id hin
    rcases List.infix_concat_iff.mp hin with hsuffix | hin
    · -- the COMMIT of the transaction with the row
      obtain hnil | ⟨l, hl, hbefore⟩ := List.suffix_concat_iff.mp hsuffix
      · cases hnil
      · obtain ⟨rfl, hlast⟩ := @List.append_inj' _ [inserted v id] _ _ _ hl rfl
        cases hlast
        obtain ⟨tx, hconn, hdb⟩ := exec_commit_ok hx
        obtain ⟨row, hrow, hof⟩ := h.pending v id hbefore tx hconn
        exact ⟨row, hdb ▸ List.mem_append_right _ hrow, hof⟩
    · obtain ⟨row, hrow, hof⟩ := h.committed v id hin
      exact ⟨row, exec_rows hx row hrow, hof⟩
  · intro v id hin tx htx
    obtain hnil | ⟨l, hl, -⟩ := List.suffix_concat_iff.mp hin
    · cases hnil
    · obtain ⟨-, hlast⟩ := @List.append_inj' _ [] _ _ _ hl rfl
      cases hlast
      obtain ⟨tx₀, row, hof, hconn⟩ := exec_insert_row hx
      cases hconn.symm.trans htx
      exact ⟨row, List.mem_append_right _ List.mem_cons_self, hof⟩

end Rows

section Reach

variable {pg : Postgres} {init : World → Prop}
  {good : Config sig DbError Result Call World → Label Call Oracle Env → Prop}
  {c : Config sig DbError Result Call World}

theorem stored_of_reach (h : (system pg).Reach init good c) :
    ∀ t th, c.threads[t]? = some th → Stored t c.world th.past := by
  refine System.Reach.invariant (I := fun c : Config sig DbError Result Call World =>
    ∀ t th, c.threads[t]? = some th → Stored t c.world th.past) ?_ ?_ ?_ ?_ h
  · intro w _ t th hth
    cases hth
  · intro c a _ ih _ t th hth
    obtain hth | ⟨-, rfl⟩ := System.getElem?_spawn hth
    · exact ih t th hth
    · exact ⟨fun v id hin => by simpa using hin.length_le,
        fun v id hin => by simpa using hin.length_le⟩
  · intro c t₁ ω a past o k r w _ ih _ ht₁ hx t th hth
    rw [System.getElem?_answered] at hth
    split at hth
    · next heq =>
        subst heq
        split at hth
        · cases hth
          exact (ih t₁ _ ht₁).step hx
        · cases hth
    · next hne =>
        refine (ih t th hth).of_frame (exec_rows hx) fun tx htx => ?_
        have hsame := exec_conns_of_ne hx (Ne.symm hne)
        rwa [← hsame]
  · intro c e w _ ih _ hw t th hth
    obtain ⟨hdb, hconns⟩ := env_rows hw
    exact (ih t th hth).of_frame (fun row hrow => hdb ▸ hrow) (hconns t)

/-- The row of an event is in the table. -/
def InTable (rows : List AuditRow) (event : VerificationEvent) : Prop :=
  ∃ row ∈ rows, numText 10 row.id = event.auditId ∧
    Uuid.parse event.tenantId = some row.tenantId ∧ row.action = event.action

theorem InTable.mono {rows rows' : List AuditRow} {event : VerificationEvent}
    (h : InTable rows event) (hrows : ∀ row ∈ rows, row ∈ rows') : InTable rows' event := by
  obtain ⟨row, hrow, hof⟩ := h
  exact ⟨row, hrows row hrow, hof⟩

/-- The events are those that the calls have emitted, in this order. -/
theorem emitted_eq_log (hinit : ∀ w, init w → w.emitted = [])
    (h : (system pg).Reach init good c) :
    c.world.emitted.map Prod.snd = c.log.filterMap fun x => emitted? x.act := by
  refine h.world_invariant (I := fun w log =>
    w.emitted.map Prod.snd = log.filterMap fun x => emitted? x.act) ?_ ?_ ?_
  · intro w hw
    rw [hinit w hw]
    rfl
  · intro w log t o ω r w' ih hx
    rw [List.filterMap_append, ← ih]
    by_cases ho : ∃ event, o = .emit event
    · obtain ⟨event, rfl⟩ := ho
      cases hx
      exact List.map_append
    · have hother : ∀ event, o ≠ .emit event := fun event heq => ho ⟨event, heq⟩
      have hnone : emitted? ⟨o, r⟩ = none := by
        cases o with
        | emit event => exact absurd rfl (hother event)
        | _ => rfl
      have hlog : [(⟨t, ⟨o, r⟩⟩ : Event sig DbError)].filterMap (fun x => emitted? x.act) = [] :=
        List.filterMap_cons_none hnone
      rw [exec_emitted hother hx, hlog, List.append_nil]
  · intro w log e w' ih hw
    rw [env_emitted hw]
    exact ih

/-- The rows of the events are committed. -/
theorem emitted_committed (hinit : ∀ w, init w → w.emitted = [])
    (h : (system pg).Reach init good c) : ∀ x ∈ c.world.emitted, InTable c.world.store.db x.2 := by
  refine System.Reach.invariant (I := fun c : Config sig DbError Result Call World =>
    ∀ x ∈ c.world.emitted, InTable c.world.store.db x.2) ?_ ?_ ?_ ?_ h
  · intro w hw x hx
    have hnil : w.emitted = [] := hinit w hw
    rw [show (Config.init w : Config sig DbError Result Call World).world = w from rfl, hnil] at hx
    cases hx
  · exact fun _ _ _ ih _ => ih
  · intro c t ω a past o k r w hc ih _ ht hx x hxm
    have hrows : ∀ row ∈ c.world.store.db, row ∈ w.store.db := exec_rows hx
    by_cases ho : ∃ event, o = .emit event
    · obtain ⟨event, rfl⟩ := ho
      obtain ⟨v, hsuffix, htenant, haction⟩ := hc.before ht (before_code a)
      cases hx
      rcases List.mem_append.mp hxm with hxm | hxm
      · exact ih x hxm
      · obtain rfl := List.mem_singleton.mp hxm
        obtain ⟨row, hrow, hof⟩ :=
          (stored_of_reach hc t _ ht).committed v event.auditId hsuffix.isInfix
        exact ⟨row, hrow, hof.id, htenant ▸ hof.tenantId, hof.action.trans haction⟩
    · have hsame : w.emitted = c.world.emitted :=
        exec_emitted (fun event heq => ho ⟨event, heq⟩) hx
      exact (ih x (hsame ▸ hxm)).mono hrows
  · intro c e w _ ih _ hw x hx
    have hsame := env_emitted hw
    obtain ⟨hdb, -⟩ := env_rows hw
    exact (ih x (hsame ▸ hx)).mono fun row hrow => hdb ▸ hrow

end Reach

end ZeroAuth.Audit
