/-
  ZeroAuth.Pairing.Calls

  Calls of `submitProof` in a run of the system: what is known of a call that has
  ended, and of one that is about to await an operation.
-/

import ZeroAuth.Pairing.Invariant
import ZeroAuth.Pairing.Submit

namespace ZeroAuth.Pairing

open ZeroAuth.Lib ZeroAuth.Js ZeroAuth.Pg ZeroAuth.Audit Prog

/-- Call `t` is a call of `submitProof` and has ended with `out`. -/
def Ended (c : State) (t : ℕ) (input : SubmitInput) (out : Except Failure SubmitResult) : Prop :=
  ∃ th, c.threads[t]? = some th ∧ th.call = .submit input ∧
    th.rest.outcome? = some (out.map .submitted)

/-- The same, computed: what call `t` was asked and what it ended with. -/
def ended? (c : State) (t : ℕ) : Option (SubmitInput × Except Failure SubmitResult) :=
  match c.threads[t]? with
  | some ⟨.submit input, _, .ret (.submitted res)⟩ => some (input, .ok res)
  | some ⟨.submit input, _, .raise e⟩ => some (input, .error e)
  | _ => none

theorem ended_of_ended? {c : State} {t : ℕ} {input : SubmitInput}
    {out : Except Failure SubmitResult} (h : ended? c t = some (input, out)) :
    Ended c t input out := by
  unfold ended? at h
  split at h
  · next hth =>
      cases h
      exact ⟨_, hth, rfl, rfl⟩
  · next hth =>
      cases h
      exact ⟨_, hth, rfl, rfl⟩
  · cases h

/-- Call `t` has returned. -/
def returned (c : State) (t : ℕ) : Bool :=
  match ended? c t with
  | some (_, .ok _) => true
  | _ => false

/-- Call `t` has thrown an error of the class `error`. -/
def thrown (c : State) (t : ℕ) (error : PairingError) : Bool :=
  match ended? c t with
  | some (_, .error (.pairing c _)) => c = error
  | _ => false

theorem ended_of_returned {c : State} {t : ℕ} (h : returned c t = true) :
    ∃ input res, Ended c t input (.ok res) := by
  unfold returned at h
  split at h
  · next input res hend => exact ⟨input, res, ended_of_ended? hend⟩
  · cases h

section Code

variable {cfg : Settings}

theorem ends_code_submit {input : SubmitInput}
    {Φ : List (Act sig Failure) → Except Failure SubmitResult → Prop}
    (h : Ends Φ (submitProof cfg input)) :
    Ends (fun es out => ∃ out', out = out'.map .submitted ∧ Φ es out')
      (code cfg (.submit input)) := by
  refine Ends.bind h (fun es res hres => ?_) fun es e he => ⟨.error e, rfl, he⟩
  refine ⟨.ok res, rfl, ?_⟩
  rwa [List.append_nil]

/-- What a submit awaits. -/
theorem only_submitProof {input : SubmitInput} :
    Only (Op.Within input.sessionId [.load, .verify, .increment, .claim, .trail, .plain])
      (submitProof cfg input) := by
  refine Only.bind (only_await (by simp [Op.kind]) rfl) fun start => ?_
  refine Only.bind (only_await (by simp [Op.kind]) rfl) fun correlationId => ?_
  refine Only.tryCatch (Only.bind ?_ fun user => Only.bind ?_ fun row => ?_) fun e => ?_
  · exact (only_runChecks correlationId).mono fun _ ho => ho.mono (by simp)
  · exact (only_claimSession user).mono fun _ ho => ho.mono (by simp)
  · exact (only_mintTokens user correlationId start row).mono fun _ ho => ho.mono (by simp)
  · exact (only_submitCatch correlationId start e).mono fun _ ho => ho.mono (by simp)

/-- Only a submit reads a session row, asks the verifier, claims and mints. -/
def InSubmit (a : Call) (es : List (Act sig Failure)) (o : Op) : Prop :=
  o.kind ∈ [.load, .verify, .claim, .trail] → ∃ input, a = .submit input ∧ Placed input es o

theorem only_createSession {input : CreateInput} :
    Only (fun o : Op => o.kind ∈ [.plain, .insert]) (createSession cfg input) := by
  have hone : ∀ {o : Op}, o.kind ∈ [.plain, .insert] →
      Only (fun o : Op => o.kind ∈ [.plain, .insert]) (await o) := fun h => only_perform h
  refine Only.bind (hone (by simp [Op.kind])) fun count => ?_
  by_cases hcap : count ≥ maxPendingSessionsPerTenant
  · simp only [hcap]
    trivial
  · simp only [hcap]
    refine Only.bind (hone (by simp [Op.kind])) fun id => ?_
    refine Only.bind (hone (by simp [Op.kind])) fun nonceBytes => ?_
    refine Only.bind (hone (by simp [Op.kind])) fun bindBytes => ?_
    refine Only.bind (hone (by simp [Op.kind])) fun now => ?_
    refine Only.bind (hone (by simp [Op.kind])) fun _ => ?_
    exact Only.bind (hone (by simp [Op.kind])) fun _ => trivial

theorem only_spawnExpired (rows : List (Uuid × Uuid × JsString)) :
    Only (fun o : Op => o.kind = .plain) (spawnExpired rows) := by
  induction rows with
  | nil => trivial
  | cons row rows ih => exact Only.bind (only_perform rfl) fun _ => ih

theorem before_code_submit (input : SubmitInput) :
    Before (Placed input) (code cfg (.submit input)) :=
  Before.bind (Φ := fun _ _ => True) (before_submitProof cfg input)
    (ends_of_forall fun _ _ => trivial) fun _ _ _ => trivial

theorem before_code (a : Call) : Before (InSubmit a) (code cfg a) := by
  cases a with
  | create input =>
      have hall : Only (fun o : Op => o.kind ∈ [.plain, .insert]) (code cfg (.create input)) :=
        Only.bind only_createSession fun _ => trivial
      refine hall.before fun es o ho hk => ?_
      rcases List.mem_pair.mp ho with ho | ho <;> simp [ho] at hk
  | submit input =>
      exact (before_code_submit input).mono fun es o ho _ => ⟨input, rfl, ho⟩
  | increment sessionId errorCode =>
      have hall : Only (fun o : Op => o.kind = .increment)
          (code cfg (.increment sessionId errorCode)) :=
        Only.bind (Only.bind (only_perform rfl) fun _ => trivial) fun _ => trivial
      refine hall.before fun es o ho hk => ?_
      rw [ho] at hk
      simp at hk
  | expire =>
      have hall : Only (fun o : Op => o.kind = .plain) (code cfg .expire) :=
        Only.bind (Only.bind (only_perform rfl) fun rows =>
          Only.bind (only_spawnExpired rows) fun _ => trivial) fun _ => trivial
      refine hall.before fun es o ho hk => ?_
      rw [ho] at hk
      simp at hk

end Code

section Runs

variable {cfg : Settings} {pg : Jsonb} {good : State → Label Call Oracle Env → Prop} {c c' : State}

theorem plausible_of_reach (h : (system cfg pg).Reach Empty good c) {t : ℕ}
    {th : Thread sig Failure Result Call} (hth : c.threads[t]? = some th) :
    ∀ x ∈ th.past, Plausible x := by
  have hlog : ∀ e ∈ c.log, Plausible e.act := by
    refine System.Reach.log_forall (fun w t o ω r w' hx e hr => ?_) h
    change r = .error e at hr
    subst hr
    exact (exec_error hx).2
  exact fun x hx => hlog _ ((h.mem_log hth).mp hx)

/-- The history of a call that has ended. -/
theorem run_of_ended (h : (system cfg pg).Reach Empty good c) {t : ℕ} {input : SubmitInput}
    {out : Except Failure SubmitResult} (hend : Ended c t input out) :
    ∃ th start correlationId es₁ es₂, c.threads[t]? = some th ∧ th.call = .submit input ∧
      th.past = ⟨.now, .ok start⟩ :: ⟨.uuidv4, .ok correlationId⟩ :: (es₁ ++ es₂) ∧
      BodyRun input correlationId es₁ out ∧ Tail input out es₂ := by
  obtain ⟨th, hth, hcall, hout⟩ := hend
  have hrun := h.ends hth (Φ := fun es out => ∃ out' : Except Failure SubmitResult,
    out = out'.map .submitted ∧ ((∀ x ∈ es, Plausible x) → ∃ start correlationId es₁ es₂,
      es = ⟨.now, .ok start⟩ :: ⟨.uuidv4, .ok correlationId⟩ :: (es₁ ++ es₂) ∧
      BodyRun input correlationId es₁ out' ∧ Tail input out' es₂))
    (by rw [hcall]; exact ends_code_submit (ends_submitProof cfg input)) hout
  obtain ⟨out', heq, hrun⟩ := hrun
  obtain ⟨start, correlationId, es₁, es₂, hpast, hbody, htail⟩ := hrun (plausible_of_reach h hth)
  have hout' : out' = out := by
    cases out <;> cases out' <;> cases heq <;> rfl
  subst hout'
  exact ⟨th, start, correlationId, es₁, es₂, hth, hcall, hpast, hbody, htail⟩

/-- A row that some call has read: its session is still there, with its expiry and nonce. -/
theorem session_of_loaded (h : (system cfg pg).Reach Empty good c) :
    ∀ e ∈ c.log, ∀ row, loadedRow e.act = some row →
      (∃ text, e.act.op.target = some text ∧ Uuid.parse text = some row.id) ∧
      ∃ r ∈ c.world.sessions, r.id = row.id ∧ r.expiresAt = row.expiresAt ∧
        r.nonceHex = row.nonceHex := by
  have hkeep : ∀ {old new : List SessionRow} {now : ℕ} {row : SessionRow}, RowsStep now old new →
      (∃ r ∈ old, r.id = row.id ∧ r.expiresAt = row.expiresAt ∧ r.nonceHex = row.nonceHex) →
      ∃ r ∈ new, r.id = row.id ∧ r.expiresAt = row.expiresAt ∧ r.nonceHex = row.nonceHex := by
    rintro old new now row hrows ⟨r, hr, hid, hexp, hnonce⟩
    obtain ⟨r', hr', hstep⟩ := hrows.1 r hr
    exact ⟨r', hr', hstep.id_eq.trans hid, hstep.expiresAt_eq.trans hexp,
      hstep.nonceHex_eq.trans hnonce⟩
  refine System.Reach.world_invariant (I := fun w log => ∀ e ∈ log, ∀ row,
    loadedRow e.act = some row →
      (∃ text, e.act.op.target = some text ∧ Uuid.parse text = some row.id) ∧
      ∃ r ∈ w.sessions, r.id = row.id ∧ r.expiresAt = row.expiresAt ∧ r.nonceHex = row.nonceHex)
    (fun _ _ _ he => by cases he) (fun w log t o ω r w' hI hx e he row hrow => ?_)
    (fun w log e w' hI he x hx row hrow =>
      ⟨(hI x hx row hrow).1, hkeep (env_rows he).1 (hI x hx row hrow).2⟩) h
  rcases List.mem_append.mp he with he | he
  · exact ⟨(hI e he row hrow).1, hkeep (exec_change hx).rows (hI e he row hrow).2⟩
  · obtain rfl := List.mem_singleton.mp he
    cases o with
    | selectSession text tenant environment =>
        cases r with
        | error e => cases hrow
        | ok a =>
            have hx : exec pg (.selectSession text tenant environment) ω w = some (.ok a, w') := hx
            obtain ⟨rfl, id, hid, hfound⟩ := selectSession_ok hx
            cases a with
            | none => cases hrow
            | some row' =>
                cases hrow
                obtain ⟨hmem, rfl⟩ := hfound _ rfl
                exact ⟨⟨text, rfl, hid⟩, _, hmem, rfl, rfl, rfl⟩
    | _ => cases hrow

/-- The session of a row that a call has read. -/
theorem session_of_read (h : (system cfg pg).Reach Empty good c) {t : ℕ}
    {th : Thread sig Failure Result Call} (hth : c.threads[t]? = some th) {input : SubmitInput}
    (hcall : th.call = .submit input) {x : Act sig Failure} (hx : x ∈ th.past) {row : SessionRow}
    (hrow : loadedRow x = some row) :
    Uuid.parse input.sessionId = some row.id ∧ ∃ r ∈ c.world.sessions, r.id = row.id ∧
      r.expiresAt = row.expiresAt ∧ r.nonceHex = row.nonceHex := by
  obtain ⟨⟨text, htarget, hparse⟩, hsession⟩ :=
    session_of_loaded h _ ((h.mem_log hth).mp hx) row hrow
  obtain ⟨pre, -, hplaced⟩ := h.before_of_mem hth (before_code th.call) hx
  obtain ⟨input', hcall', hplaced⟩ := hplaced (by simp [kind_of_loadedRow hrow])
  cases hcall.symm.trans hcall'
  obtain rfl := hplaced.1 text htarget
  exact ⟨hparse, hsession⟩

/-- The session of a call that has found it open, with the expiry that was tested. -/
theorem session_of_tested (h : (system cfg pg).Reach Empty good c) {t : ℕ}
    {th : Thread sig Failure Result Call} (hth : c.threads[t]? = some th) {input : SubmitInput}
    (hcall : th.call = .submit input) {row : SessionRow} {t₁ : ℕ}
    (htest : tested th.past = some (row, t₁)) :
    Uuid.parse input.sessionId = some row.id ∧
      ∃ r ∈ c.world.sessions, r.id = row.id ∧ r.expiresAt = row.expiresAt := by
  obtain ⟨x, hx, hrow⟩ := loaded_of_tested htest
  obtain ⟨hparse, r, hr, hid, hexp, -⟩ := session_of_read h hth hcall hx hrow
  exact ⟨hparse, r, hr, hid, hexp⟩

/-- The claim that changed a row. -/
theorem won_eq_some {x : Act sig Failure} {id userId : Uuid} (h : won x = some (id, userId)) :
    ∃ text row, x = ⟨.claim text userId, .ok (some row)⟩ ∧ Uuid.parse text = some id := by
  unfold won at h
  split at h
  · next text user row =>
      obtain ⟨id', hid, heq⟩ := Option.map_eq_some_iff.mp h
      cases heq
      exact ⟨text, row, rfl, hid⟩
  · cases h

/-- The session id of a claim that changed its row was a UUID. -/
theorem won_of_claim (h : (system cfg pg).Reach Empty good c) {t : ℕ} {text : JsString}
    {userId : Uuid} {row : SessionRow}
    (hmem : (⟨t, ⟨.claim text userId, .ok (some row)⟩⟩ : Event) ∈ c.log) :
    ∃ s, Uuid.parse text = some s ∧ (t, userId) ∈ winners c.log s := by
  have hparsed : ∀ e ∈ c.log, ∀ text userId row,
      e.act = (⟨.claim text userId, .ok (some row)⟩ : Act sig Failure) →
      ∃ s, Uuid.parse text = some s := by
    refine System.Reach.log_forall (fun w t o ω r w' hx text userId row heq => ?_) h
    cases heq
    obtain ⟨s, hs, -⟩ := withUuid_ok (statement_ok hx)
    exact ⟨s, hs⟩
  obtain ⟨s, hs⟩ := hparsed _ hmem _ _ _ rfl
  exact ⟨s, hs, mem_winners.mpr ⟨_, hmem, rfl, by simp [won, hs]⟩⟩

/-- A call that has returned won its session. -/
theorem winner_of_returned (h : (system cfg pg).Reach Empty good c) {t : ℕ} {input : SubmitInput}
    {res : SubmitResult} (hend : Ended c t input (.ok res)) :
    ∃ s userId, Uuid.parse input.sessionId = some s ∧ (t, userId) ∈ winners c.log s ∧
      res.session.userId = some userId := by
  obtain ⟨th, start, correlationId, es₁, es₂, hth, -, hpast, hbody, -⟩ := run_of_ended h hend
  generalize hout : (.ok res : Except Failure SubmitResult) = out at hbody
  cases hbody with
  | rejected => cases hout
  | lost => cases hout
  | @claimed es es' _ user row hpass hops htrail hforward hok =>
      have hclaim : (⟨.claim input.sessionId user.id, .ok (some row)⟩ : Act sig Failure) ∈
          th.past := by
        rw [hpast]
        simp
      obtain ⟨s, hs, hwin⟩ := won_of_claim h ((h.mem_log hth).mp hclaim)
      exact ⟨s, user.id, hs, hwin, (hok res hout.symm).1⟩

/-- The runs of a call that has won: past its checks it has claimed, and what
    follows decides its end. -/
theorem claimed_of_ended (h : (system cfg pg).Reach Empty good c) {t : ℕ} {input : SubmitInput}
    {out : Except Failure SubmitResult} (hend : Ended c t input out)
    {th : Thread sig Failure Result Call} (hth : c.threads[t]? = some th) {x : Act sig Failure}
    (hx : x ∈ th.past) (hwon : won x ≠ none) :
    ∃ user correlationId es, (∀ y ∈ th.past, y.op.kind = .trail → y ∈ es) ∧ (∀ y ∈ es, y ∈ th.past) ∧
      (∀ y ∈ es, y.op.mayFail = true → y.op.kind = .trail) ∧
      (∀ e, out = .error e ↔ ∃ y ∈ es, y.answer = .error e) ∧
      ∀ res, out = .ok res → HandedOut input user correlationId es res := by
  obtain ⟨th', start, correlationId, es₁, es₂, hth', -, hpast, hbody, htail⟩ := run_of_ended h hend
  obtain rfl := Option.some.inj (hth.symm.trans hth')
  have hfirst : ∀ y ∈ th.past, y ∉ es₁ → won y = none ∧ y.op.kind ≠ .trail := by
    intro y hy hy₁
    rw [hpast, List.mem_cons, List.mem_cons, List.mem_append] at hy
    rcases hy with rfl | rfl | hy | hy
    · exact ⟨rfl, by simp [Op.kind]⟩
    · exact ⟨rfl, by simp [Op.kind]⟩
    · exact absurd hy hy₁
    · exact ⟨won_of_within (htail.ops y hy) (by decide), (htail.ops y hy).kind_ne (by decide)⟩
  have hx₁ : x ∈ es₁ := by
    by_contra hne
    exact hwon (hfirst x hx hne).1
  cases hbody with
  | rejected hops hlocked hcount => exact absurd (won_of_within (hops x hx₁) (by decide)) hwon
  | @lost es es' e hpass hops hnone herr =>
      rcases List.mem_append.mp hx₁ with hx₁ | hx₁
      · exact absurd (won_of_within (hpass.ops x hx₁) (by decide)) hwon
      · exact absurd (hnone x hx₁) hwon
  | @claimed es es' _ user row hpass hops htrail hforward hok =>
      refine ⟨user, correlationId, es', fun y hy hk => ?_, fun y hy => ?_, htrail, hforward, hok⟩
      · have hy₁ : y ∈ es ++ ⟨.claim input.sessionId user.id, .ok (some row)⟩ :: es' := by
          by_contra hne
          exact (hfirst y hy hne).2 hk
        rcases List.mem_append.mp hy₁ with hy₁ | hy₁
        · exact absurd hk ((hpass.ops y hy₁).kind_ne (by decide))
        · rcases List.mem_cons.mp hy₁ with rfl | hy₁
          · cases hk
          · exact hy₁
      · rw [hpast]
        simp [hy]

end Runs

end ZeroAuth.Pairing
