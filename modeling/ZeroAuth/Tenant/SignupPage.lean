/-
  ZeroAuth.Tenant.SignupPage

  What the signup page of the demo portal shows.

  The page polls for the state of its session and for the code that the phone is to scan next.
  The state is read from the row, the code from a cache that is written after the commit, so the
  two can be of different moments.  What is kept is that the code is one that was minted for the
  session of the page, and that it is the live one whenever its step is the one that the row
  waits for: a step is opened once.
-/

import ZeroAuth.Tenant.Completion

namespace ZeroAuth.Tenant

open ZeroAuth.Lib ZeroAuth.Lib.Prog ZeroAuth.Js ZeroAuth.Pg

/-- The SELECT of the poll has answered this session. -/
def polled (sessionId : JsString) (s : RegistrationSession) : Act sig Failure :=
  ⟨.pool (.selectSession sessionId demoPortalTenantId (js "live")),
    .ok (some s : Option RegistrationSession)⟩

/-- The cache has answered this entry. -/
def peeked (sessionId : JsString) (entry : DemoPendingCode) : Act sig Failure :=
  ⟨.peekDemoCode sessionId, .ok (some entry : Option DemoPendingCode)⟩

theorem ends_getSignup {sessionId : JsString} :
    Ends (fun es out => ∀ view, out = .ok (some view) →
      ∃ s, polled sessionId s ∈ es ∧ view.state = s.state ∧
        (view.currentDeeplink = none ∧ view.currentStep = none ∨
          ∃ entry, peeked sessionId entry ∈ es ∧ view.currentDeeplink = some entry.deeplink ∧
            view.currentStep = some entry.step)) (getSignup sessionId) := by
  refine ends_perform_bind.mpr ⟨fun (session : Option RegistrationSession) => ?_,
    fun e view hview => ?_⟩
  · cases session with
    | none =>
        intro view hview
        cases hview
    | some s =>
        refine ends_perform_bind.mpr ⟨fun (pending : Option DemoPendingCode) => ?_,
          fun e view hview => ?_⟩
        · intro view hview
          cases hview
          refine ⟨s, List.mem_cons_self, rfl, ?_⟩
          cases pending with
          | none => exact .inl ⟨rfl, rfl⟩
          | some entry =>
              exact .inr ⟨entry, List.mem_cons_of_mem _ List.mem_cons_self, rfl, rfl⟩
        · cases hview
  · cases hview

/-- Call `t` was a poll of this page, and has answered this. -/
def Polled (c : State) (t : ℕ) (sessionId : JsString) (view : SignupView) : Prop :=
  ∃ th, c.threads[t]? = some th ∧ th.call = .getSignup sessionId ∧
    th.rest.outcome? = some (.ok (.signup (some view)))

/-- The page shows nothing, or the link of a code that was minted for this session; if it is for
    the step that the row waits for, it is the code of the row. -/
def ShowsCode (c : State) (s : RegistrationSession) (view : SignupView) : Prop :=
  view.currentDeeplink = none ∧ view.currentStep = none ∨
    ∃ step code challengeNonce, view.currentStep = some step ∧
      view.currentDeeplink = some (stepDeeplink step s.id code challengeNonce) ∧
      (∃ e ∈ c.world.store.journal, Opens step s.id (sha256Hex code) e.2) ∧
      (s.state = step.state → s.codeHash step = some (sha256Hex code))

section Reach

variable {cfg : Settings} {pg : Jsonb} {c : State} {t : ℕ} {sessionId : JsString}

/-- The session of a poll has been in the tables, as one of the demo portal. -/
theorem session_of_polled (h : (system cfg pg).Reach Empty (fun _ _ => True) c)
    {s : RegistrationSession} (he : (⟨t, polled sessionId s⟩ : Event) ∈ c.log) :
    Known c (.session s) ∧ Uuid.parse sessionId = some s.id ∧
      Uuid.parse demoPortalTenantId = some s.tenantId ∧ s.environment = js "live" := by
  refine h.log_holds (Q := fun c e => ∀ sessionId s, e.act = polled sessionId s →
    Known c (.session s) ∧ Uuid.parse sessionId = some s.id ∧
      Uuid.parse demoPortalTenantId = some s.tenantId ∧ s.environment = js "live") ?_ ?_ _ he
    sessionId s rfl
  · intro c c' e hc hnext hold sessionId s heq
    obtain ⟨hknown, hrest⟩ := hold sessionId s heq
    exact ⟨hknown.later hc (.single hnext), hrest⟩
  · intro c t ω a past o k r w hc hg hth hx sessionId s heq
    cases heq
    obtain ⟨e, herr, -⟩ | ⟨answer, ha, hanswer, -⟩ := exec_pool hx
    · cases herr
    · obtain ⟨id, u, hid, hu, rfl⟩ := withOwner_ok ha
      have hfound : (Db.sessions c.world.store.db).find?
          (RegistrationSession.isOwn id u (js "live")) = some s := (Except.ok.inj hanswer).symm
      have hown : RegistrationSession.isOwn id u (js "live") s = true :=
        List.find?_some (p := RegistrationSession.isOwn id u (js "live")) hfound
      obtain ⟨hsid, htenant, henv⟩ := of_decide_eq_true hown
      have hknown := known_of_mem hc (mem_sessions.mp (List.mem_of_find?_eq_some hfound))
      refine ⟨hknown.later hc (.single ⟨.resume t ω, hg, System.step_resume hth hx⟩), ?_, ?_, henv⟩
      · rw [hid, hsid]
      · rw [hu, htenant]

/-- What the cache has answered was minted for a session of this id. -/
theorem code_of_peeked (h : (system cfg pg).Reach Empty (fun _ _ => True) c)
    {entry : DemoPendingCode} (he : (⟨t, peeked sessionId entry⟩ : Event) ∈ c.log) :
    ∃ e ∈ c.world.store.journal, CodeOf (newRow e.2) sessionId entry := by
  refine h.log_holds (Q := fun c e => ∀ sessionId entry, e.act = peeked sessionId entry →
    ∃ e ∈ c.world.store.journal, CodeOf (newRow e.2) sessionId entry) ?_ ?_ _ he sessionId entry rfl
  · intro c c' e hc hnext hold sessionId entry heq
    obtain ⟨e', he', hcode⟩ := hold sessionId entry heq
    exact ⟨e', (journal_later hc (.single hnext)).subset he', hcode⟩
  · intro c t ω a past o k r w hc hg hth hx sessionId entry heq
    cases heq
    have hgrows := journal_later hc (.single ⟨.resume t ω, hg, System.step_resume hth hx⟩)
    simp only [exec] at hx
    split at hx
    · cases hx
    · next entry' hcache =>
        split at hx
        · cases hx
        · cases hx
          obtain ⟨e, hfound, rfl⟩ := Option.map_eq_some_iff.mp hcache
          have hkey : e.2.1 = sessionId := of_decide_eq_true
            (List.find?_some (p := fun e : ℕ × JsString × DemoPendingCode => e.2.1 = sessionId) hfound)
          obtain ⟨write, hwrite, hcode⟩ :=
            (inv_shaped hc).cached e (List.mem_of_find?_eq_some hfound)
          rw [hkey] at hcode
          exact ⟨_, hgrows.subset (Store.mem_committedBy.mp hwrite), hcode⟩

/-- In every state of every run, what a poll was answered is about a session of the demo portal
    with the id of the page, and shows no code but those minted for it. -/
theorem signup_shows_own_code (h : (system cfg pg).Reach Empty (fun _ _ => True) c)
    {view : SignupView} (hview : Polled c t sessionId view) :
    ∃ s, Known c (.session s) ∧ Uuid.parse sessionId = some s.id ∧
      Uuid.parse demoPortalTenantId = some s.tenantId ∧ s.environment = js "live" ∧
      view.state = s.state ∧ ShowsCode c s view := by
  obtain ⟨th, hth, hcall, hout⟩ := hview
  have hends : Ends (fun es out => ∀ view, out = .ok (.signup (some view)) →
      ∃ s, polled sessionId s ∈ es ∧ view.state = s.state ∧
        (view.currentDeeplink = none ∧ view.currentStep = none ∨
          ∃ entry, peeked sessionId entry ∈ es ∧ view.currentDeeplink = some entry.deeplink ∧
            view.currentStep = some entry.step)) (code cfg th.call) := by
    rw [hcall]
    refine Ends.bind ends_getSignup (fun es a hes view hview => ?_) fun es e _ view hview => ?_
    · rw [List.append_nil]
      cases hview
      exact hes view rfl
    · cases hview
  obtain ⟨s, hpolled, hstate, hshown⟩ := h.ends hth hends hout view rfl
  obtain ⟨hknown, hid, howner⟩ := session_of_polled h ((h.mem_log hth).mp hpolled)
  refine ⟨s, hknown, hid, howner.1, howner.2, hstate, ?_⟩
  rcases hshown with hnone | ⟨entry, hpeeked, hlink, hstep⟩
  · exact .inl hnone
  · obtain ⟨e, he, s', hnew, htext, hstate', hhash, hdeeplink⟩ :=
      code_of_peeked h ((h.mem_log hth).mp hpeeked)
    have hsame : s'.id = s.id := by
      rw [htext, Uuid.parse_text] at hid
      exact Option.some.inj hid
    have hopens : Opens entry.step s.id (sha256Hex entry.code) e.2 :=
      ⟨s', hnew, hsame, hstate', hhash⟩
    refine .inr ⟨entry.step, entry.code, entry.challengeNonce, hstep, ?_, ⟨e, he, hopens⟩,
      fun hwaits => ?_⟩
    · rw [hlink, hdeeplink, hsame]
    · -- the row that waits for the step has a code, and a step is opened once
      obtain ⟨e₁, he₁, hnew₁⟩ := hknown
      obtain ⟨-, -, -, hok, -⟩ := session_now h he₁ hnew₁
      obtain ⟨hash, hhash₁⟩ := Option.isSome_iff_exists.mp ((hok.code entry.step).mpr hwaits)
      obtain rfl := opening_unique h he₁ he ⟨s, hnew₁, rfl, hwaits, hhash₁⟩ hopens
      obtain rfl := Row.session.inj (hnew₁.symm.trans hnew)
      exact hhash

end Reach

/-! ## A poll after the phone is paired -/

/-- A session of the demo portal is opened and paired (its code is cached after the commit), and
    the page polls. -/
def polling : List (Label Call Oracle Env) :=
  starting 0 demoPortalTenantId sessionUuid ++ pairing 1 ++
    [.resume 1 {}, .start (.getSignup sessionUuid.text), .resume 2 {}, .resume 2 {}]

/-- Call `t` was a poll that shows a code for this step. -/
def shownBy (c : State) (t : ℕ) (step : Step) : Bool :=
  match c.threads[t]? with
  | some ⟨.getSignup _, _, .ret (.signup (some view))⟩ => view.currentStep = some step
  | _ => false

theorem polled_of_shownBy {c : State} {t : ℕ} {step : Step} (h : shownBy c t step = true) :
    ∃ sessionId view, Polled c t sessionId view ∧ view.currentStep = some step := by
  unfold shownBy at h
  split at h
  · next sessionId past view hth => exact ⟨sessionId, view, ⟨_, hth, rfl, rfl⟩, of_decide_eq_true h⟩
  · cases h

theorem signup_shows_own_code_of_pairing : ∃ (c : State) (s : RegistrationSession)
    (view : SignupView), view.currentStep = some .enroll ∧ Known c (.session s) ∧
      ShowsCode c s view := by
  have hrun : (((system settings jsonb).run (.init initial) polling).map fun c =>
      shownBy c 2 .enroll) = some true := by
    decide +kernel
  obtain ⟨c, hc, hshown⟩ := Option.map_eq_some_iff.mp hrun
  obtain ⟨sessionId, view, hview, hstep⟩ := polled_of_shownBy hshown
  have hreach : (system settings jsonb).Reach Empty (fun _ _ => True) c :=
    System.Reach.run (.init empty_initial) (System.keeps_of_forall fun _ _ _ => trivial) hc
  obtain ⟨s, hknown, -, -, -, -, hshows⟩ := signup_shows_own_code hreach hview
  exact ⟨c, s, view, hstep, hknown, hshows⟩

end ZeroAuth.Tenant
