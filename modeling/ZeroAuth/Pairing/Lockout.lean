/-
  ZeroAuth.Pairing.Lockout

  How many calls a session rejects before it is locked.

  The lock is tested on the row that a call reads first; the failure is counted by
  an UPDATE after the failing check.  Every count that the UPDATE makes is visible
  in `failure_count`, so the bound holds as long as each rejected call is counted on
  a session that is still open.
-/

import ZeroAuth.Pairing.SingleUse

namespace ZeroAuth.Pairing

open ZeroAuth.Lib ZeroAuth.Js ZeroAuth.Pg ZeroAuth.Audit

/-- The classes with which the checks reject a call. -/
def PairingError.isRejection (c : PairingError) : Bool := c.isCounted || c.isIntegrity

/-- The calls on session `s` that a check has rejected. -/
def rejected (c : State) (s : Uuid) : List ℕ :=
  (List.range c.threads.length).filter fun t =>
    match ended? c t with
    | some (input, .error (.pairing e _)) =>
        e.isRejection && Uuid.parse input.sessionId = some s
    | _ => false

/-- A call that counts its failure finds its session still open, and the UPDATE does
    not fail. -/
def stillOpen (c : State) : Label Call Oracle Env → Bool
  | .resume t ω =>
      match c.threads[t]? with
      | some ⟨.submit _, _, .await (.incrementFailure text _) _⟩ =>
          ω.failure.isNone && c.world.sessions.any fun r =>
            Uuid.parse text = some r.id ∧ r.state = .issued
      | _ => true
  | _ => true

abbrev StillOpen (c : State) (l : Label Call Oracle Env) : Prop := stillOpen c l = true

/-! ## The counter -/

/-- A count on session `s` that the lock allows. -/
def countedOn (s : Uuid) : Act sig Failure → Bool
  | ⟨.incrementFailure text _, .ok (some n)⟩ =>
      Uuid.parse text = some s ∧ n ≤ maxFailuresBeforeLock
  | _ => false

def counts (log : List Event) (s : Uuid) : ℕ := log.countP fun e => countedOn s e.act

/-- The counts of a session show in its row, and the row is locked at the third. -/
structure CountsOk (sessions : List SessionRow) (log : List Event) : Prop where
  le : ∀ r ∈ sessions, counts log r.id ≤ min r.failureCount maxFailuresBeforeLock
  locked : ∀ r ∈ sessions, maxFailuresBeforeLock ≤ r.failureCount → r.state = .failed
  none : ∀ s, (∀ r ∈ sessions, r.id ≠ s) → counts log s = 0

section Step

variable {now : ℕ} {r r' : SessionRow} {old new : List SessionRow} {log : List Event} {e : Event}

theorem RowStep.failureCount_le (h : RowStep now r r') : r.failureCount ≤ r'.failureCount := by
  cases h with
  | incremented code hs => exact Nat.le_succ _
  | _ => exact Nat.le_refl _

theorem RowStep.locked (h : RowStep now r r')
    (hr : maxFailuresBeforeLock ≤ r.failureCount → r.state = .failed) :
    maxFailuresBeforeLock ≤ r'.failureCount → r'.state = .failed := by
  intro hlock
  cases h with
  | same => exact hr hlock
  | incremented code hs =>
      have hge : r.failureCount + 1 ≥ maxFailuresBeforeLock := hlock
      simp [SessionRow.incremented, hge]
  | consumed userId hs =>
      rw [hr hlock] at hs
      cases hs
  | swept hs hlt =>
      rw [hr hlock] at hs
      cases hs
  | proofHash x => exact hr hlock

theorem counts_append_of_not (h : ∀ s, countedOn s e.act = false) (s : Uuid) :
    counts (log ++ [e]) s = counts log s := by
  simp [counts, h]

/-- Steps that count nothing. -/
theorem CountsOk.rows (h : CountsOk old log) (hrows : RowsStep now old new)
    (hids : ∀ r ∈ new, ∀ r' ∈ new, r.id = r'.id → r = r') {log' : List Event}
    (hlog : ∀ s, counts log' s = counts log s) : CountsOk new log' := by
  refine ⟨fun r' hr' => ?_, fun r' hr' => ?_, fun s hs => ?_⟩
  · rw [hlog]
    by_cases hold : ∃ r ∈ old, r.id = r'.id
    · obtain ⟨r, hr, hid⟩ := hold
      obtain ⟨r₁, hr₁, hstep⟩ := hrows.1 r hr
      obtain rfl := hids r₁ hr₁ r' hr' (hstep.id_eq.trans hid)
      have hle := h.le r hr
      have hcount := hstep.failureCount_le
      rw [hstep.id_eq]
      omega
    · rw [h.none r'.id fun r hr hid => hold ⟨r, hr, hid⟩]
      exact Nat.zero_le _
  · rcases hrows.2 r' hr' with ⟨r, hr, hstep⟩ | hnew
    · exact hstep.locked (h.locked r hr)
    · intro hlock
      rw [hnew.2.1] at hlock
      cases hlock
  · rw [hlog]
    refine h.none s fun r hr hid => ?_
    obtain ⟨r', hr', hstep⟩ := hrows.1 r hr
    exact hs r' hr' (hstep.id_eq.trans hid)

theorem countedOn_eq_true {s : Uuid} {x : Act sig Failure} (h : countedOn s x = true) :
    ∃ text code n, x = ⟨.incrementFailure text code, .ok (some n)⟩ ∧ Uuid.parse text = some s ∧
      n ≤ maxFailuresBeforeLock := by
  unfold countedOn at h
  split at h
  · next text code n =>
      obtain ⟨hparse, hn⟩ := of_decide_eq_true h
      exact ⟨text, code, n, rfl, hparse, hn⟩
  · cases h

/-- An UPDATE that counts. -/
theorem incrementFailure_some {w w' : World} {id : Uuid} {errorCode : JsString} {n : ℕ}
    (h : w.incrementFailure id errorCode = (.ok (some n), w')) :
    ∃ r ∈ w.sessions, r.canFail id = true ∧ n = r.failureCount + 1 ∧
      w' = w.update (SessionRow.canFail id) (SessionRow.incremented errorCode) := by
  unfold World.incrementFailure at h
  split at h
  · cases h
  · next r hr =>
      split at h
      · cases h
      · cases h
        exact ⟨r, List.mem_of_find?_eq_some hr, List.find?_some hr, rfl, rfl⟩

/-- The step that counts. -/
theorem CountsOk.count {w : World} (h : CountsOk w.sessions log) {id : Uuid} {errorCode : JsString}
    {r : SessionRow} (hr : r ∈ w.sessions) (hc : r.canFail id = true)
    (hids : ∀ r ∈ w.sessions, ∀ r' ∈ w.sessions, r.id = r'.id → r = r')
    (hn : r.failureCount + 1 ≤ maxFailuresBeforeLock) {log' : List Event}
    (hlog : ∀ s, counts log' s = counts log s + if s = id then 1 else 0) :
    CountsOk (w.update (SessionRow.canFail id) (SessionRow.incremented errorCode)).sessions
      log' := by
  obtain ⟨hid, -⟩ := of_decide_eq_true hc
  refine ⟨fun r' hr' => ?_, fun r' hr' => ?_, fun s hs => ?_⟩
  · obtain ⟨r₀, hr₀, rfl⟩ := mem_update.mp hr'
    have hle := h.le r₀ hr₀
    rw [hlog, update_id (f := SessionRow.incremented errorCode) fun _ => rfl]
    by_cases heq : r₀.id = id
    · obtain rfl := hids r₀ hr₀ r hr (heq.trans hid.symm)
      simp only [heq, hc, if_true, SessionRow.incremented] at hle ⊢
      omega
    · have hne : ¬ r₀.canFail id = true := fun hp => heq (of_decide_eq_true hp).1
      simp only [heq, hne, if_false, Bool.false_eq_true]
      exact hle
  · obtain ⟨r₀, hr₀, rfl⟩ := mem_update.mp hr'
    split
    · next hp => exact (RowStep.incremented errorCode (of_decide_eq_true hp).2 :
        RowStep 0 r₀ _).locked (h.locked r₀ hr₀)
    · exact h.locked r₀ hr₀
  · have hs₀ : ∀ r ∈ w.sessions, r.id ≠ s := fun r₀ hr₀ => by
      have := hs _ (mem_update.mpr ⟨r₀, hr₀, rfl⟩)
      rwa [update_id (f := SessionRow.incremented errorCode) fun _ => rfl] at this
    have hne : s ≠ id := fun heq => hs₀ r hr (hid.trans heq.symm)
    rw [hlog, if_neg hne, h.none s hs₀]

end Step

theorem countsOk_of_reach {cfg : Settings} {pg : Jsonb}
    {good : State → Label Call Oracle Env → Prop} {c : State}
    (h : (system cfg pg).Reach Empty good c) : CountsOk c.world.sessions c.log := by
  -- the ids have to be unique for the counts, so both are kept together
  have hboth := System.Reach.world_invariant
    (I := fun w log => SessionsOk w.sessions log ∧ CountsOk w.sessions log)
    (fun w hw => ?_) (fun w log t o ω r w' hI hx => ?_) (fun w log e w' hI he => ?_) h
  · exact hboth.2
  · rw [hw]
    exact ⟨⟨List.nodup_nil, fun r hr => (by cases hr), fun _ _ => rfl⟩, fun r hr => (by cases hr),
      fun r hr => (by cases hr), fun _ _ => rfl⟩
  · obtain ⟨hok, hcounts⟩ := hI
    have hok' := hok.change (e := ⟨t, ⟨o, r⟩⟩) (exec_change hx)
    refine ⟨hok', ?_⟩
    -- an UPDATE that counts a failure, or any other operation
    by_cases hcounted : ∃ s, countedOn s ⟨o, r⟩ = true
    · obtain ⟨s, hs⟩ := hcounted
      obtain ⟨text, code, n, heq, hparse, hn⟩ := countedOn_eq_true hs
      cases heq
      obtain ⟨id, hid, hrun⟩ := withUuid_ok (statement_ok hx)
      obtain rfl := Option.some.inj (hid.symm.trans hparse)
      obtain ⟨r, hr, hc, rfl, rfl⟩ := incrementFailure_some hrun
      refine hcounts.count hr hc (fun _ hr _ hr' => hok.unique hr hr') hn fun s' => ?_
      by_cases heq : s' = id
      · subst heq
        simp [counts, hs]
      · -- for the other sessions nothing is counted
        have hne : Uuid.parse text ≠ some s' := fun h =>
          heq (Option.some.inj (h.symm.trans hparse))
        simp [counts, countedOn, hne, heq]
    · refine hcounts.rows (exec_change hx).rows (fun _ hr _ hr' => hok'.unique hr hr')
        (counts_append_of_not fun s => ?_)
      exact Bool.eq_false_iff.mpr fun hs => hcounted ⟨s, hs⟩
  · have hok' := hI.1.env he
    exact ⟨hok', hI.2.rows (env_rows he).1 (fun _ hr _ hr' => hok'.unique hr hr') fun _ => rfl⟩

/-! ## Rejected calls -/

section Runs

variable {cfg : Settings} {pg : Jsonb} {good : State → Label Call Oracle Env → Prop} {c c' : State}

theorem mem_rejected {s : Uuid} {t : ℕ} (h : t ∈ rejected c s) :
    ∃ input e m, Ended c t input (.error (.pairing e m)) ∧ e.isRejection = true ∧
      Uuid.parse input.sessionId = some s := by
  have hp := (List.mem_filter.mp h).2
  split at hp
  · next input e m hend =>
      simp only [Bool.and_eq_true, decide_eq_true_eq] at hp
      exact ⟨input, e, m, ended_of_ended? hend, hp.1, hp.2⟩
  · cases hp

/-- A rejected call has tried to count its failure. -/
theorem increments_of_rejected (h : (system cfg pg).Reach Empty good c) {t : ℕ}
    {input : SubmitInput} {e : PairingError} {m : JsString}
    (hend : Ended c t input (.error (.pairing e m))) (he : e.isRejection = true) :
    ∃ th, c.threads[t]? = some th ∧ th.call = .submit input ∧ Increments th.past := by
  obtain ⟨th, start, correlationId, es₁, es₂, hth, hcall, hpast, hbody, htail⟩ :=
    run_of_ended h hend
  refine ⟨th, hth, hcall, ?_⟩
  have hpl := plausible_of_reach h hth
  rw [hpast] at hpl ⊢
  by_cases hcounted : e.isCounted = true
  · have hinc := (htail.counted e m rfl hcounted).append_left
      (⟨.now, .ok start⟩ :: ⟨.uuidv4, .ok correlationId⟩ :: es₁)
    simpa using hinc
  · have hint : e.isIntegrity = true := by
      simpa [PairingError.isRejection, hcounted] using he
    generalize hout : (.error (.pairing e m) : Except Failure SubmitResult) = out at hbody
    cases hbody with
    | rejected hops hlocked hcount =>
        cases hout
        have hinc := ((hcount (fun x hx => hpl x (by simp [hx])) e m rfl hint).append_left
          [⟨.now, .ok start⟩, ⟨.uuidv4, .ok correlationId⟩]).append_right es₂
        simpa using hinc
    | lost hpass hops hwon herr =>
        cases hout
        rw [herr (fun x hx => hpl x (by simp [hx])) e m rfl] at hint
        cases hint
    | claimed hpass hops htrail hforward hok =>
        subst hout
        obtain ⟨x, hx, hans⟩ := (hforward _).mp rfl
        obtain ⟨-, m', heq⟩ := hpl x (by simp [hx]) _ hans
        cases heq

theorem increment_of_kind {o : Op} (h : o.kind = .increment) :
    ∃ text code, o = .incrementFailure text code := by
  cases o with
  | incrementFailure text code => exact ⟨text, code, rfl⟩
  | appendAudit payload =>
      simp only [Op.kind] at h
      split at h <;> cases h
  | _ => cases h

/-- The UPDATE on an open session counts. -/
theorem countedOn_of_issued (h : (system cfg pg).Reach Empty good c) {r : SessionRow}
    (hr : r ∈ c.world.sessions) (hissued : r.state = .issued) {ω : Oracle}
    (hω : ω.failure = none) {text code : JsString} (hparse : Uuid.parse text = some r.id)
    {a : Except Failure (Option ℕ)} {w' : World}
    (hx : exec pg (.incrementFailure text code) ω c.world = some (a, w')) :
    countedOn r.id ⟨.incrementFailure text code, a⟩ = true := by
  have hok := sessionsOk_of_reach h
  have hfew := (hok.rows r hr).failures.2 hissued
  obtain ⟨m, hm, -, -⟩ | ⟨-, hrun⟩ := statement_cases hx
  · rw [hω] at hm
    cases hm
  · simp only [withUuid, hparse, World.incrementFailure] at hrun
    split at hrun
    · next hnone =>
        have := List.find?_eq_none.mp hnone r hr
        simp [SessionRow.canFail, hissued] at this
    · next r₁ hfound =>
        have hcan : r₁.canFail r.id = true := List.find?_some hfound
        obtain rfl := hok.unique (List.mem_of_find?_eq_some hfound) hr (of_decide_eq_true hcan).1
        have hsmall : ¬ r₁.failureCount + 1 > 32767 := by
          simp only [maxFailuresBeforeLock] at hfew
          omega
        rw [if_neg hsmall] at hrun
        cases hrun
        have hn : r₁.failureCount + 1 ≤ maxFailuresBeforeLock := hfew
        simp [countedOn, hparse, hn]

/-- With `StillOpen`, what a call counts is counted. -/
theorem counted_of_increments (h : (system cfg pg).Reach Empty StillOpen c) {t : ℕ}
    {th : Thread sig Failure Result Call} (hth : c.threads[t]? = some th) :
    ∀ input s, th.call = .submit input → Uuid.parse input.sessionId = some s →
      ∀ x ∈ th.past, x.op.kind = .increment → countedOn s x = true := by
  refine h.past_invariant (P := fun a past => ∀ input s, a = .submit input →
    Uuid.parse input.sessionId = some s → ∀ x : Act sig Failure, x ∈ past →
    x.op.kind = .increment → countedOn s x = true) (fun _ _ _ _ _ _ hx => by cases hx)
    (fun c t ω a past o k r w hc hg hth hx hpast input s ha hs x hmem hkind => ?_) hth
  subst ha
  rcases List.mem_append.mp hmem with hmem | hmem
  · exact hpast input s rfl hs x hmem hkind
  · obtain rfl := List.mem_singleton.mp hmem
    obtain ⟨text, code, rfl⟩ := increment_of_kind hkind
    obtain rfl := (hc.before hth (before_code_submit input)).1 text rfl
    simp only [StillOpen, stillOpen, hth, Bool.and_eq_true, List.any_eq_true,
      Option.isNone_iff_eq_none] at hg
    obtain ⟨hω, r₁, hr₁, hrow⟩ := hg
    obtain ⟨hid, hissued⟩ := of_decide_eq_true hrow
    obtain rfl := Option.some.inj (hs.symm.trans hid)
    exact countedOn_of_issued hc hr₁ hissued hω hs hx

/-- Each rejected call has a count of its own. -/
theorem rejected_le_counts (h : (system cfg pg).Reach Empty StillOpen c) (s : Uuid) :
    (rejected c s).length ≤ counts c.log s := by
  have hsub : rejected c s ⊆ (c.log.filter fun e => countedOn s e.act).map Event.caller := by
    intro t ht
    obtain ⟨input, e, m, hend, he, hs⟩ := mem_rejected ht
    obtain ⟨th, hth, hcall, x, hx, hkind⟩ := increments_of_rejected h hend he
    have hcounted := counted_of_increments h hth input s hcall hs x hx hkind
    exact List.mem_map.mpr ⟨⟨t, x⟩, List.mem_filter.mpr ⟨(h.mem_log hth).mp hx, hcounted⟩, rfl⟩
  have hnodup : (rejected c s).Nodup := (List.nodup_range).filter _
  have hle := (hnodup.subperm hsub).length_le
  rwa [List.length_map, ← List.countP_eq_length_filter] at hle

/-- Once a session has been rejected three times it is locked. -/
theorem locked_of_rejected (h : (system cfg pg).Reach Empty StillOpen c) {s : Uuid}
    (hlocked : maxFailuresBeforeLock ≤ (rejected c s).length) :
    ∃ r ∈ c.world.sessions, r.id = s ∧ r.state = .failed := by
  have hcounts := countsOk_of_reach h
  have hle := rejected_le_counts h s
  by_cases hrow : ∃ r ∈ c.world.sessions, r.id = s
  · obtain ⟨r, hr, rfl⟩ := hrow
    have hcount := hcounts.le r hr
    exact ⟨r, hr, rfl, hcounts.locked r hr (by omega)⟩
  · have hzero := hcounts.none s fun r hr hid => hrow ⟨r, hr, hid⟩
    simp only [maxFailuresBeforeLock] at hlocked
    omega

/-- A call that starts when its session is locked reads a locked row. -/
theorem loaded_failed_of_later (h : (system cfg pg).Reach Empty good c) {r : SessionRow}
    (hr : r ∈ c.world.sessions) (hfailed : r.state = .failed) (hl : (system cfg pg).Later good c c')
    {t : ℕ} (ht : c.threads.length ≤ t) {th : Thread sig Failure Result Call}
    (hth : c'.threads[t]? = some th) {input : SubmitInput} (hcall : th.call = .submit input)
    (hparse : Uuid.parse input.sessionId = some r.id) :
    ∀ x ∈ th.past, ∀ row, loadedRow x = some row → row.state = .failed := by
  refine hl.past_invariant (P := fun a past => a = .submit input → ∀ x : Act sig Failure, x ∈ past →
    ∀ row, loadedRow x = some row → row.state = .failed) (fun _ _ _ hx => by cases hx)
    (fun c₁ t ω a past o k a' w hl₁ hg hth hx hpast ha x hmem row hrow => ?_) ht hth hcall
  subst ha
  rcases List.mem_append.mp hmem with hmem | hmem
  · exact hpast rfl x hmem row hrow
  · obtain rfl := List.mem_singleton.mp hmem
    have h₁ := h.later hl₁
    -- the SELECT of a submit asks for its own session,
    have hplaced := h₁.before hth (before_code_submit input)
    cases o with
    | selectSession text tenant environment =>
        cases a' with
        | error e => cases hrow
        | ok a' =>
            have hx : exec pg (.selectSession text tenant environment) ω c₁.world =
              some (.ok a', w) := hx
            obtain ⟨-, id, hid, hfound⟩ := selectSession_ok hx
            obtain rfl := hplaced.1 text rfl
            obtain rfl := Option.some.inj (hid.symm.trans hparse)
            cases a' with
            | none => cases hrow
            | some row' =>
                cases hrow
                obtain ⟨hmem, hid'⟩ := hfound _ rfl
                -- which is still locked then
                obtain ⟨r', hr', hid₁, -, hstate⟩ := row_of_later hl₁ hr
                obtain rfl := (sessionsOk_of_reach h₁).unique hmem hr' (hid'.trans hid₁.symm)
                rcases hstate with hstate | hstate
                · exact hstate.trans hfailed
                · rw [hfailed] at hstate
                  cases hstate
    | _ => cases hrow

/-- A call that has read a locked row ends with `PairingSessionLocked`. -/
theorem locked_of_loaded (h : (system cfg pg).Reach Empty good c) {t : ℕ} {input : SubmitInput}
    {out : Except Failure SubmitResult} (hend : Ended c t input out)
    {th : Thread sig Failure Result Call} (hth : c.threads[t]? = some th) {x : Act sig Failure}
    (hx : x ∈ th.past) {row : SessionRow} (hrow : loadedRow x = some row)
    (hfailed : row.state = .failed) : out = .error PairingError.sessionLocked.thrown := by
  obtain ⟨th', start, correlationId, es₁, es₂, hth', -, hpast, hbody, htail⟩ := run_of_ended h hend
  obtain rfl := Option.some.inj (hth.symm.trans hth')
  have hx₁ : x ∈ es₁ := by
    rw [hpast, List.mem_cons, List.mem_cons, List.mem_append] at hx
    rcases hx with rfl | rfl | hx | hx
    · cases hrow
    · cases hrow
    · exact hx
    · rw [loadedRow_of_within (htail.ops x hx) (by decide)] at hrow
      cases hrow
  cases hbody with
  | rejected hops hlocked hcount => exact hlocked x hx₁ row hrow hfailed
  | lost hpass hops hwon herr =>
      rcases List.mem_append.mp hx₁ with hx₁ | hx₁
      · exact absurd hfailed (hpass.notFailed x hx₁ row hrow)
      · rw [loadedRow_of_within (hops x hx₁) (by decide)] at hrow
        cases hrow
  | claimed hpass hops htrail hforward hok =>
      rcases List.mem_append.mp hx₁ with hx₁ | hx₁
      · exact absurd hfailed (hpass.notFailed x hx₁ row hrow)
      · rcases List.mem_cons.mp hx₁ with rfl | hx₁
        · cases hrow
        · rw [loadedRow_of_within (hops x hx₁) (by decide)] at hrow
          cases hrow

/-- When every count of a run finds its session open, at most three calls on a
    session are rejected, and a call that starts after the third never asks the
    verifier and, when it finds the row, ends with `PairingSessionLocked`. -/
theorem lock_out_bound (h : (system cfg pg).Reach Empty StillOpen c) (s : Uuid) :
    (rejected c s).length ≤ maxFailuresBeforeLock ∧
    (maxFailuresBeforeLock ≤ (rejected c s).length → ∀ c', (system cfg pg).Later StillOpen c c' →
      ∀ (t : ℕ) th input, c.threads.length ≤ t → c'.threads[t]? = some th →
        th.call = .submit input → Uuid.parse input.sessionId = some s →
        (∀ x ∈ th.past, x.op.kind ≠ .verify) ∧
        ∀ out, Ended c' t input out → (∃ x ∈ th.past, (loadedRow x).isSome) →
          out = .error PairingError.sessionLocked.thrown) := by
  refine ⟨?_, fun hlocked c' hl t th input ht hth hcall hparse => ?_⟩
  · have hcounts := countsOk_of_reach h
    have hle := rejected_le_counts h s
    by_cases hrow : ∃ r ∈ c.world.sessions, r.id = s
    · obtain ⟨r, hr, rfl⟩ := hrow
      have hcount := hcounts.le r hr
      omega
    · have hzero := hcounts.none s fun r hr hid => hrow ⟨r, hr, hid⟩
      omega
  · obtain ⟨r, hr, rfl, hfailed⟩ := locked_of_rejected h hlocked
    have hloads := loaded_failed_of_later h hr hfailed hl ht hth hcall hparse
    refine ⟨fun x hx hverify => ?_, fun out hend hloaded => ?_⟩
    · -- before the verifier the call has tested a row that had not failed
      obtain ⟨pre, hpre, hplaced⟩ := (h.later hl).before_of_mem hth (before_code th.call) hx
      obtain ⟨input', -, hplaced⟩ := hplaced (by simp [hverify])
      obtain ⟨row, t₁, htest, hopen⟩ := hplaced.2 (by simp [hverify])
      obtain ⟨y, hy, hrow⟩ := loaded_of_tested htest
      exact hopen.2.1 (hloads y (hpre.subset hy) row hrow)
    · obtain ⟨x, hx, hsome⟩ := hloaded
      obtain ⟨row, hrow⟩ := Option.isSome_iff_exists.mp hsome
      exact locked_of_loaded (h.later hl) hend hth hx hrow (hloads x hx row hrow)

end Runs

/-- Three submits without a cookie, one after the other, and a fourth one with it:
    the first three are rejected, the fourth is locked out. -/
theorem lock_out_bound_of_four : ∃ c, (system settings jsonb).runChecked stillOpen (.init initial)
      (submits [none, none, none, some bindCookie] (List.replicate 9 1 ++ List.replicate 9 2 ++
        List.replicate 9 3 ++ List.replicate 5 4)) = some c ∧
    thrown c 4 .sessionLocked = true ∧ (rejected c sessionUuid).length = 3 ∧
    (rejected c sessionUuid).length ≤ maxFailuresBeforeLock := by
  have hrun : (((system settings jsonb).runChecked stillOpen (.init initial)
      (submits [none, none, none, some bindCookie] (List.replicate 9 1 ++ List.replicate 9 2 ++
        List.replicate 9 3 ++ List.replicate 5 4))).map fun c =>
      decide (thrown c 4 .sessionLocked = true ∧ (rejected c sessionUuid).length = 3)) =
      some true := by
    rfl
  obtain ⟨c, hc, hends⟩ := Option.map_eq_some_iff.mp hrun
  obtain ⟨hlocked, hthree⟩ := of_decide_eq_true hends
  have hreach : (system settings jsonb).Reach Empty StillOpen c :=
    System.Reach.runChecked (.init empty_initial) (fun _ _ h => h) hc
  exact ⟨c, hc, hlocked, hthree, (lock_out_bound hreach sessionUuid).1⟩

/-- Four submits without a cookie that read the row before any of them is counted:
    all four are rejected. -/
theorem four_rejected : ¬ ∀ (cfg : Settings) (pg : Jsonb) (c : State) (s : Uuid),
    (system cfg pg).Reach Empty (fun _ _ => True) c →
    (rejected c s).length ≤ maxFailuresBeforeLock := by
  intro h
  have hrun : (((system settings jsonb).run (.init initial)
      (submits [none, none, none, none] (List.replicate 5 1 ++ List.replicate 5 2 ++
        List.replicate 5 3 ++ List.replicate 5 4 ++ List.replicate 4 1 ++ List.replicate 4 2 ++
        List.replicate 4 3 ++ List.replicate 4 4))).map fun c =>
      (rejected c sessionUuid).length) = some 4 := by
    rfl
  obtain ⟨c, hc, hfour⟩ := Option.map_eq_some_iff.mp hrun
  have hle := h settings jsonb c sessionUuid (System.Reach.run (.init empty_initial)
    (System.keeps_of_forall fun _ _ _ => trivial) hc)
  simp only [hfour, maxFailuresBeforeLock] at hle
  omega

end ZeroAuth.Pairing
