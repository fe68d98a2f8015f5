/-
  ZeroAuth.Pairing.Expiry

  When a session is consumed, and when tokens are issued for it, against its
  `expires_at`.

  `submitProof` compares the expiry with the clock once, before the policy, the
  user and the verifier are asked; the claim itself looks at the state only.  So
  what matters is how long a call takes from that test to its claim and to its
  tokens.
-/

import ZeroAuth.Pairing.SingleUse

namespace ZeroAuth.Pairing

open ZeroAuth.Lib ZeroAuth.Js ZeroAuth.Pg ZeroAuth.Audit

/-- The claim of a session that is still open, and the minting of tokens. -/
def settles (w : World) (row : SessionRow) : Op → Bool
  | .claim _ _ => w.sessions.any fun r => r.id = row.id ∧ r.state = .issued
  | .issueTokens _ => true
  | _ => false

/-- A call that claims or mints has taken no longer since its expiry test than the
    lifetime which that test found left.  Only the ticks between the two count
    (`clock_run`). -/
def inTime (c : State) : Label Call Oracle Env → Bool
  | .resume t ω =>
      match c.threads[t]? with
      | some ⟨_, past, .await o _⟩ =>
          (tested past).all fun (row, t₁) => ω.failure.isSome || !settles c.world row o ||
            c.world.clock - t₁ ≤ row.expiresAt - t₁
      | _ => true
  | _ => true

abbrev InTime (c : State) (l : Label Call Oracle Env) : Prop := inTime c l = true

/-- A consumed row was consumed by its expiry. -/
def RowInTime (r : SessionRow) : Prop :=
  r.state = .consumed → ∃ t, r.consumedAt = some t ∧ t ≤ r.expiresAt

theorem RowStep.inTime {now : ℕ} {r r' : SessionRow} (h : RowStep now r r') (hr : RowInTime r)
    (hnow : r.state = .issued → r'.state = .consumed → now ≤ r.expiresAt) : RowInTime r' := by
  cases h with
  | same => exact hr
  | incremented code hs =>
      intro hc
      have hne : r.state ≠ .consumed := by rcases hs with hs | hs <;> simp [hs]
      simp only [SessionRow.incremented] at hc
      split at hc
      · cases hc
      · exact absurd hc hne
  | consumed userId hs => exact fun hc => ⟨now, rfl, hnow hs hc⟩
  | swept hs hlt => exact fun hc => by cases hc
  | proofHash x => exact hr

theorem RowsStep.inTime {now : ℕ} {old new : List SessionRow} (h : RowsStep now old new)
    (hold : ∀ r ∈ old, RowInTime r)
    (hnow : ∀ r ∈ old, ∀ r' ∈ new, r'.id = r.id → r.state = .issued → r'.state = .consumed →
      now ≤ r.expiresAt) : ∀ r ∈ new, RowInTime r := by
  intro r' hr'
  rcases h.2 r' hr' with ⟨r, hr, hstep⟩ | hnew
  · exact hstep.inTime (hold r hr) (hnow r hr r' hr' hstep.id_eq)
  · intro hc
    rw [hnew.1] at hc
    cases hc

/-- The milliseconds that a step takes. -/
def ticks : Label Call Oracle Env → ℕ
  | .env (.tick ms) => ms
  | _ => 0

/-- Work that nobody awaits takes no time of its own. -/
theorem env_clock {e : Env} {w w' : World} (h : env e w = some w') :
    w'.clock = w.clock + ticks (.env e) := by
  cases e with
  | tick ms => cases h; rfl
  | enrol user => cases h; rfl
  | setPolicy tenantId policy => cases h; rfl
  | job i succeeds =>
      obtain ⟨job, -, rfl⟩ := Option.map_eq_some_iff.mp h
      cases succeeds with
      | false => rfl
      | true =>
          cases job with
          | audit payload => rfl
          | setProofHash sessionId x =>
              simp only [World.runJob, if_true]
              split <;> rfl

section Runs

variable {cfg : Settings} {pg : Jsonb} {c : State}

/-- What `InTime` says at a claim or at the minting of tokens. -/
theorem clock_le_of_inTime {t : ℕ} {ω : Oracle} {a : Call} {past : List (Act sig Failure)} {o : Op}
    {k : Except Failure (sig.Resp o) → Prog sig Failure Result} (hg : InTime c (.resume t ω))
    (hth : c.threads[t]? = some ⟨a, past, .await o k⟩) (hω : ω.failure = none)
    {row : SessionRow} {t₁ : ℕ} (htest : tested past = some (row, t₁)) (hopen : row.OpenAt t₁)
    (ho : settles c.world row o = true) : c.world.clock ≤ row.expiresAt := by
  have hlt : t₁ < row.expiresAt := hopen.2.2.2
  simp only [InTime, inTime, hth, htest, Option.all_some, hω, Option.isSome_none, ho,
    Bool.not_true, Bool.false_or, decide_eq_true_eq] at hg
  omega

/-- The tokens of a call were issued by the expiry of the row it had tested. -/
def TokensInTime (past : List (Act sig Failure)) : Prop :=
  ∀ x ∈ past, ∀ payload tokens, x = ⟨.issueTokens payload, .ok tokens⟩ →
    ∃ row t₁, tested past = some (row, t₁) ∧ tokens.iat ≤ row.expiresAt

theorem tokensInTime_of_reach (h : (system cfg pg).Reach Empty InTime c) {t : ℕ}
    {th : Thread sig Failure Result Call} (hth : c.threads[t]? = some th) :
    TokensInTime th.past := by
  refine h.past_invariant (P := fun _ past => TokensInTime past) (fun _ _ hx => by cases hx)
    (fun c t ω a past o k r w hc hg hth hx hpast x hmem payload tokens heq => ?_) hth
  rcases List.mem_append.mp hmem with hmem | hmem
  · obtain ⟨row, t₁, htest, hle⟩ := hpast x hmem payload tokens heq
    exact ⟨row, t₁, tested_append htest, hle⟩
  · obtain rfl := List.mem_singleton.mp hmem
    cases heq
    obtain ⟨input, -, hplaced⟩ := hc.before hth (before_code a) (by simp [Op.kind])
    obtain ⟨row, t₁, htest, hopen⟩ := hplaced.2 (by simp [Op.kind])
    refine ⟨row, t₁, tested_append htest, ?_⟩
    obtain ⟨m, -, hr, -⟩ | ⟨hω, hrun⟩ := statement_cases hx
    · cases hr
    · cases hrun
      exact clock_le_of_inTime hg hth hω htest hopen rfl

theorem winners_of_issued {ws : List (ℕ × Uuid)} {r : SessionRow} (h : RowOk ws r)
    (hs : r.state = .issued) : ws = [] := by
  simp only [RowOk, hs] at h
  exact h.1

/-- What consumes an open session is a claim. -/
theorem won_of_consumed {log : List Event} {e : Event} {r₀ r₁ : SessionRow}
    (h₀ : RowOk (winners log r₀.id) r₀) (h₁ : RowOk (winners (log ++ [e]) r₁.id) r₁)
    (hid : r₁.id = r₀.id) (hissued : r₀.state = .issued) (hconsumed : r₁.state = .consumed) :
    ∃ userId, won e.act = some (r₁.id, userId) := by
  obtain ⟨t, userId, hws, -⟩ := h₁.winner hconsumed
  obtain ⟨e', he', -, hwon⟩ := mem_winners.mp (hws ▸ List.mem_singleton_self (t, userId))
  rcases List.mem_append.mp he' with he' | he'
  · have hmem : (e'.caller, userId) ∈ winners log r₀.id := mem_winners.mpr ⟨e', he', rfl, hid ▸ hwon⟩
    rw [winners_of_issued h₀ hissued] at hmem
    cases hmem
  · obtain rfl := List.mem_singleton.mp he'
    exact ⟨userId, hwon⟩

theorem rowsInTime_of_reach (h : (system cfg pg).Reach Empty InTime c) :
    ∀ r ∈ c.world.sessions, RowInTime r := by
  refine h.invariant (I := fun c => ∀ r ∈ c.world.sessions, RowInTime r) ?_
    (fun _ _ _ hI _ => hI) ?_ ?_
  · intro w hw r hr
    rw [Config.init, hw] at hr
    cases hr
  · intro c t ω a past o k r w hc hI hg hth hx
    have hok := sessionsOk_of_reach hc
    refine (exec_change hx).rows.inTime hI fun r₀ hr₀ r₁ hr₁ hid hissued hconsumed => ?_
    obtain ⟨userId, hwon⟩ := won_of_consumed (e := ⟨t, ⟨o, r⟩⟩) (hok.rows r₀ hr₀)
      ((hok.change (exec_change hx)).rows r₁ hr₁) hid hissued hconsumed
    obtain ⟨text, row', heq, hparse⟩ := won_eq_some hwon
    cases heq
    obtain ⟨input, rfl, hplaced⟩ := hc.before hth (before_code a) (by simp [Op.kind])
    obtain ⟨row, t₁, htest, hopen⟩ := hplaced.2 (by simp [Op.kind])
    obtain rfl := hplaced.1 text rfl
    obtain ⟨hrow, r₂, hr₂, hid₂, hexp⟩ := session_of_tested hc hth rfl htest
    -- the row that the call had tested is the one that it claims
    obtain rfl : r₂ = r₀ := hok.unique hr₂ hr₀
      (hid₂.trans ((Option.some.inj (hrow.symm.trans hparse)).trans hid))
    have hω : ω.failure = none := by
      obtain ⟨m, -, hr, -⟩ | ⟨hω, -⟩ := statement_cases hx
      · cases hr
      · exact hω
    have hsettles : settles c.world row (.claim input.sessionId userId) = true :=
      List.any_eq_true.mpr ⟨r₂, hr₂, by simp [hid₂, hissued]⟩
    rw [hexp]
    exact clock_le_of_inTime hg hth hω htest hopen hsettles
  · intro c e w hc hI _ he
    have hok := sessionsOk_of_reach hc
    refine (env_rows he).1.inTime hI fun r₀ hr₀ r₁ hr₁ hid hissued hconsumed => ?_
    obtain ⟨t, userId, hws, -⟩ := ((hok.env he).rows r₁ hr₁).winner hconsumed
    rw [hid, winners_of_issued (hok.rows r₀ hr₀) hissued] at hws
    cases hws

/-- Time passes in the ticks of the environment, and nowhere else. -/
theorem clock_run {c' : State} {ls : List (Label Call Oracle Env)}
    (hrun : (system cfg pg).run c ls = some c') :
    c'.world.clock = c.world.clock + (ls.map ticks).sum := by
  induction ls generalizing c with
  | nil =>
      cases hrun
      rfl
  | cons l ls ih =>
      obtain ⟨c₁, hs, hrun⟩ := Option.bind_eq_some_iff.mp hrun
      have hstep : c₁.world.clock = c.world.clock + ticks l := by
        obtain ⟨a, rfl, rfl⟩ | ⟨t, ω, a, past, o, k, r, w, rfl, -, hx, rfl⟩ | ⟨e, w, rfl, he, rfl⟩ :=
          System.step_cases hs
        · rfl
        · exact (exec_frame hx).1
        · exact env_clock he
      rw [ih hrun, hstep, List.map_cons, List.sum_cons, Nat.add_assoc]

/-- When every claim and every minting of a run comes in time, no session is
    consumed and no tokens are issued after its expiry. -/
theorem no_consumption_after_expiry (h : (system cfg pg).Reach Empty InTime c) :
    (∀ r ∈ c.world.sessions, r.state = .consumed →
      ∃ t, r.consumedAt = some t ∧ t ≤ r.expiresAt) ∧
    ∀ (t : ℕ) (th : Thread sig Failure Result Call) (input : SubmitInput) payload (tokens : AuthToken),
      c.threads[t]? = some th → th.call = .submit input →
      ⟨.issueTokens payload, .ok tokens⟩ ∈ th.past →
      ∀ r ∈ c.world.sessions, Uuid.parse input.sessionId = some r.id → tokens.iat ≤ r.expiresAt := by
  refine ⟨rowsInTime_of_reach h, fun t th input payload tokens hth hcall hmem r hr hparse => ?_⟩
  obtain ⟨row, t₁, htest, hle⟩ := tokensInTime_of_reach h hth _ hmem payload tokens rfl
  obtain ⟨hrow, r', hr', hid, hexp⟩ := session_of_tested h hth hcall htest
  obtain rfl := (sessionsOk_of_reach h).unique hr hr'
    ((Option.some.inj (hparse.symm.trans hrow)).trans hid.symm)
  rwa [hexp]

end Runs

/-- Two sessions.  The first one is claimed ten seconds before its expiry, the second one after
    the expiry of the first. -/
def twoInTime : List (Label Call Oracle Env) :=
  List.flatten [opening, [.env (.tick 200000)], secondOpening,
    [.start (.submit (submitWith (some bindCookie))),
      .start (.submit (secondSubmit didHashSession))],
    (List.replicate 6 2).map fun t => .resume t {}, [.env (.tick 90000)],
    (List.replicate 8 2).map fun t => .resume t {}, [.env (.tick 100000)],
    (List.replicate 15 3).map fun t => .resume t {}]

theorem no_consumption_after_expiry_of_two : ∃ c,
    (system settings jsonb).runChecked inTime (.init initial) twoInTime = some c ∧
    returned c 2 = true ∧ returned c 3 = true ∧
    c.world.sessions.map (fun r => (r.consumedAt, r.expiresAt)) =
      [(some 291000, 301000), (some 391000, 501000)] ∧
    ∀ r ∈ c.world.sessions, r.state = .consumed → ∃ t, r.consumedAt = some t ∧ t ≤ r.expiresAt := by
  have hrun : (((system settings jsonb).runChecked inTime (.init initial) twoInTime).map fun c =>
      decide (returned c 2 = true ∧ returned c 3 = true ∧
        c.world.sessions.map (fun r => (r.consumedAt, r.expiresAt)) =
          [(some 291000, 301000), (some 391000, 501000)])) = some true := by
    decide +kernel
  obtain ⟨c, hc, hends⟩ := Option.map_eq_some_iff.mp hrun
  obtain ⟨hfirst, hsecond, hrows⟩ := of_decide_eq_true hends
  have hreach : (system settings jsonb).Reach Empty InTime c :=
    System.Reach.runChecked (.init empty_initial) (fun _ _ h => h) hc
  exact ⟨c, hc, hfirst, hsecond, hrows, (no_consumption_after_expiry hreach).1⟩

/-- The verifier takes ten minutes: the session is consumed, and tokens are issued,
    five minutes after it has expired. -/
theorem consumed_after_expiry : ¬ ∀ (cfg : Settings) (pg : Jsonb) (c : State),
    (system cfg pg).Reach Empty (fun _ _ => True) c →
    ∀ r ∈ c.world.sessions, r.state = .consumed → ∃ t, r.consumedAt = some t ∧ t ≤ r.expiresAt := by
  intro h
  have hrun : (((system settings jsonb).run (.init initial)
      (submits [some bindCookie] (List.replicate 6 1) ++ .env (.tick 600000) ::
        (List.replicate 8 1).map fun t => .resume t {})).map fun c =>
      decide (returned c 1 = true ∧ c.world.sessions.any fun r =>
        r.state = .consumed ∧ r.consumedAt = some 601000 ∧ r.expiresAt = 301000)) = some true := by
    decide +kernel
  obtain ⟨c, hc, hends⟩ := Option.map_eq_some_iff.mp hrun
  obtain ⟨r, hr, hlate⟩ := List.any_eq_true.mp (of_decide_eq_true hends).2
  obtain ⟨hstate, hat, hexp⟩ := of_decide_eq_true hlate
  obtain ⟨t, ht, hle⟩ := h settings jsonb c (System.Reach.run (.init empty_initial)
    (System.keeps_of_forall fun _ _ _ => trivial) hc) r hr hstate
  rw [hat] at ht
  cases ht
  omega

end ZeroAuth.Pairing
