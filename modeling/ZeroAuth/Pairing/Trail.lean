/-
  ZeroAuth.Pairing.Trail

  A pairing login and its trail: what a call that has claimed its session leaves
  behind when it throws, and what the stream of that session then says.

  The claim commits on its own, and its answer can still be lost; the tokens and the
  awaited `pairing.claimed` event come after it.
-/

import ZeroAuth.Pairing.SingleUse

namespace ZeroAuth.Pairing

open ZeroAuth.Lib ZeroAuth.Js ZeroAuth.Pg ZeroAuth.Audit

/-- The row is consumed, and by call `t`. -/
def ConsumedBy (c : State) (t : ℕ) (r : SessionRow) : Prop :=
  r.state = .consumed ∧ ∃ userId, winners c.log r.id = [(t, userId)]

/-- The login happened with its trail or not at all: a call that throws has not
    left the session consumed, and a session that the call consumed has its
    `pairing.claimed` event. -/
def WithTrail (c : State) (t : ℕ) (input : SubmitInput) (out : Except Failure SubmitResult) :
    Prop :=
  ∀ r ∈ c.world.sessions, Uuid.parse input.sessionId = some r.id →
    ((∃ e, out = .error e) → ¬ ConsumedBy c t r) ∧
    (ConsumedBy c t r → ∃ payload ∈ c.world.audit, payload.action = js "pairing.claimed" ∧
      payload.entityId = some input.sessionId)

/-- After its claim has changed the row, the answer of the UPDATE was lost, or the minting of the
    tokens or the write of the `pairing.claimed` event has failed. -/
def FailsAfterClaim (c : State) (t : ℕ) : Prop :=
  ∃ th, c.threads[t]? = some th ∧ (∃ x ∈ th.past, won x ≠ none) ∧
    ∃ x ∈ th.past, x.op.kind = .trail ∧ ∃ e, x.answer = .error e

variable {cfg : Settings} {pg : Jsonb} {good : State → Label Call Oracle Env → Prop} {c : State}

/-- An event whose append was answered is in the audit log. -/
theorem audit_of_appended (h : (system cfg pg).Reach Empty good c) :
    ∀ e ∈ c.log, ∀ payload, e.act = (⟨.appendAudit payload, .ok ()⟩ : Act sig Failure) →
      payload ∈ c.world.audit := by
  refine System.Reach.world_invariant (I := fun w log => ∀ e ∈ log, ∀ payload,
    e.act = (⟨.appendAudit payload, .ok ()⟩ : Act sig Failure) → payload ∈ w.audit)
    (fun _ _ _ he => by cases he) (fun w log t o ω r w' hI hx e he payload heq => ?_)
    (fun w log e w' hI he x hx payload heq => (env_rows he).2.2.subset (hI x hx payload heq)) h
  rcases List.mem_append.mp he with he | he
  · exact (exec_frame hx).2.1.subset (hI e he payload heq)
  · obtain rfl := List.mem_singleton.mp he
    cases heq
    cases statement_ok hx
    simp

/-- The thread that consumed a row has won it. -/
theorem won_of_consumedBy (h : (system cfg pg).Reach Empty good c) {t : ℕ} {r : SessionRow}
    (hr : ConsumedBy c t r) {th : Thread sig Failure Result Call}
    (hth : c.threads[t]? = some th) : ∃ x ∈ th.past, won x ≠ none := by
  obtain ⟨-, userId, hws⟩ := hr
  obtain ⟨e, he, hcaller, hwon⟩ := mem_winners.mp (hws ▸ List.mem_singleton_self (t, userId))
  subst hcaller
  exact ⟨e.act, (h.mem_log hth).mpr he, by rw [hwon]; exact Option.some_ne_none _⟩

/-- A call that has won has consumed the row of its session. -/
theorem consumedBy_of_won (h : (system cfg pg).Reach Empty good c) {t : ℕ}
    {th : Thread sig Failure Result Call} (hth : c.threads[t]? = some th) {input : SubmitInput}
    (hcall : th.call = .submit input) {x : Act sig Failure} (hx : x ∈ th.past)
    (hwon : won x ≠ none) :
    ∃ r ∈ c.world.sessions, Uuid.parse input.sessionId = some r.id ∧ ConsumedBy c t r := by
  obtain ⟨⟨id, userId⟩, hwon⟩ := Option.ne_none_iff_exists'.mp hwon
  obtain ⟨text, row, rfl, hparse⟩ := won_eq_some hwon
  obtain ⟨pre, -, hplaced⟩ := h.before_of_mem hth (before_code th.call) hx
  obtain ⟨input', hcall', hplaced⟩ := hplaced (by simp [Op.kind])
  cases hcall.symm.trans hcall'
  obtain rfl := hplaced.1 text rfl
  have hwin : (t, userId) ∈ winners c.log id :=
    mem_winners.mpr ⟨_, (h.mem_log hth).mp hx, rfl, hwon⟩
  obtain ⟨r, hr, rfl, hstate, hws, -⟩ := row_of_winner h hwin
  exact ⟨r, hr, hparse, hstate, userId, hws⟩

/-- A finished call keeps to its trail exactly when nothing fails between its claim
    and its end; and the stream reports a session as bound when its row is consumed,
    whatever became of the call. -/
theorem login_with_trail (h : (system cfg pg).Reach Empty (fun _ _ => True) c) {t : ℕ}
    {input : SubmitInput} {out : Except Failure SubmitResult} (hend : Ended c t input out) :
    (WithTrail c t input out ↔ ¬ FailsAfterClaim c t) ∧
    ∀ r now, (∃ view, pollEvent (some r) now = some (.sessionBound view)) ↔
      r.state = .consumed := by
  obtain ⟨th, hth, hcall, -⟩ := id hend
  refine ⟨⟨fun htrail hfails => ?_, fun hnot r hr hparse => ?_⟩, fun r now => ?_⟩
  · -- what failed after the claim is thrown, and the row stays consumed
    obtain ⟨th', hth', ⟨x, hx, hwon⟩, y, hy, hkind, e, hans⟩ := hfails
    obtain rfl := Option.some.inj (hth.symm.trans hth')
    obtain ⟨r, hr, hparse, hconsumed⟩ := consumedBy_of_won h hth hcall hx hwon
    obtain ⟨user, correlationId, es, htail, -, -, hforward, -⟩ :=
      claimed_of_ended h hend hth hx hwon
    exact (htrail r hr hparse).1 ⟨e, (hforward e).mpr ⟨y, htail y hy hkind, hans⟩⟩ hconsumed
  · constructor
    · rintro ⟨e, rfl⟩ hconsumed
      obtain ⟨x, hx, hwon⟩ := won_of_consumedBy h hconsumed hth
      obtain ⟨user, correlationId, es, -, hpast, htrail, hforward, -⟩ :=
        claimed_of_ended h hend hth hx hwon
      obtain ⟨y, hy, hans⟩ := (hforward e).mp rfl
      have hfail := (plausible_of_reach h hth y (hpast y hy) e hans).1
      exact hnot ⟨th, hth, ⟨x, hx, hwon⟩, y, hpast y hy, htrail y hy hfail, e, hans⟩
    · intro hconsumed
      obtain ⟨x, hx, hwon⟩ := won_of_consumedBy h hconsumed hth
      obtain ⟨user, correlationId, es, -, hpast, htrail, hforward, hok⟩ :=
        claimed_of_ended h hend hth hx hwon
      cases out with
      | error e =>
          obtain ⟨y, hy, hans⟩ := (hforward e).mp rfl
          have hfail := (plausible_of_reach h hth y (hpast y hy) e hans).1
          exact absurd ⟨th, hth, ⟨x, hx, hwon⟩, y, hpast y hy, htrail y hy hfail, e, hans⟩ hnot
      | ok res =>
          obtain ⟨-, happend, -⟩ := hok res rfl
          have hlog := (h.mem_log hth).mp (hpast _ happend)
          exact ⟨_, audit_of_appended h _ hlog _ rfl, rfl, rfl⟩
  · cases hs : r.state with
    | consumed => simp [pollEvent, hs]
    | issued =>
        by_cases hexp : r.expiresAt ≤ now <;> simp [pollEvent, hs, hexp]
    | expired => simp [pollEvent, hs]
    | failed => simp [pollEvent, hs]

/-- A submit to which nothing happens after its claim. -/
theorem login_with_trail_of_one : ∃ c input res, (system settings jsonb).run (.init initial)
      (submits [some bindCookie] (List.replicate 15 1)) = some c ∧ Ended c 1 input (.ok res) ∧
    WithTrail c 1 input (.ok res) := by
  have hrun : (((system settings jsonb).run (.init initial)
      (submits [some bindCookie] (List.replicate 15 1))).map fun c =>
      decide (returned c 1 = true ∧ (c.threads[1]?).all fun th =>
        th.past.all fun x => x.answer.isOk)) = some true := by
    decide +kernel
  obtain ⟨c, hc, hends⟩ := Option.map_eq_some_iff.mp hrun
  obtain ⟨hreturned, hall⟩ := of_decide_eq_true hends
  obtain ⟨input, res, hend⟩ := ended_of_returned hreturned
  have hreach : (system settings jsonb).Reach Empty (fun _ _ => True) c :=
    System.Reach.run (.init empty_initial) (System.keeps_of_forall fun _ _ _ => trivial) hc
  refine ⟨c, input, res, hc, hend, (login_with_trail hreach hend).1.mpr ?_⟩
  rintro ⟨th, hth, -, x, hx, -, e, hans⟩
  rw [hth, Option.all_some, List.all_eq_true] at hall
  have hok := hall x hx
  rw [hans] at hok
  cases hok

/-- Call 1 has thrown, and the session that it names is consumed by it. -/
def thrownAfterClaim (c : State) : Bool :=
  match ended? c 1 with
  | some (input, .error _) => c.world.sessions.any fun r =>
      Uuid.parse input.sessionId = some r.id ∧ r.state = .consumed ∧
        winners c.log r.id = [(1, enrolled.id)]
  | _ => false

/-- The write of the `pairing.claimed` event fails: the call throws, the session
    stays consumed by it, and there is no event. -/
theorem login_without_trail : ¬ ∀ (cfg : Settings) (pg : Jsonb) (c : State) (t : ℕ)
    (input : SubmitInput) (out : Except Failure SubmitResult),
    (system cfg pg).Reach Empty (fun _ _ => True) c → Ended c t input out →
    WithTrail c t input out := by
  intro h
  have hrun : (((system settings jsonb).run (.init initial)
      (submits [some bindCookie] (List.replicate 12 1) ++
        [.resume 1 { failure := some (js "connection terminated") }, .resume 1 {},
          .resume 1 {}])).map thrownAfterClaim) = some true := by
    decide +kernel
  obtain ⟨c, hc, hends⟩ := Option.map_eq_some_iff.mp hrun
  unfold thrownAfterClaim at hends
  split at hends
  · next input e hend =>
      obtain ⟨r, hr, hrow⟩ := List.any_eq_true.mp hends
      obtain ⟨hparse, hstate, hws⟩ := of_decide_eq_true hrow
      have hreach : (system settings jsonb).Reach Empty (fun _ _ => True) c :=
        System.Reach.run (.init empty_initial) (System.keeps_of_forall fun _ _ _ => trivial) hc
      exact (h settings jsonb c 1 input _ hreach (ended_of_ended? hend) r hr hparse).1 ⟨e, rfl⟩
        ⟨hstate, _, hws⟩
  · cases hends

end ZeroAuth.Pairing
