/-
  ZeroAuth.Tenant.Entries

  The audit entries about the end of a registration, beside the session's row.

  An abandoned registration is reported whenever its UPDATE has found a row, and the
  UPDATE finds rows of any state.  So the entries agree with the rows as long as nobody
  abandons a session that is over; then one write at most ends a session, and the call that
  has made it starts its entry, if it hears of its write.
-/

import ZeroAuth.Tenant.Runs

namespace ZeroAuth.Tenant

open ZeroAuth.Lib ZeroAuth.Js ZeroAuth.Pg
open ZeroAuth.Audit (ChainedAuditPayload)

/-! ## Sessions that are over -/

def RegistrationSession.Over (s : RegistrationSession) : Prop :=
  s.state = .completed ∨ s.state = .abandoned

instance (s : RegistrationSession) : Decidable s.Over := inferInstanceAs (Decidable (_ ∨ _))

theorem RegistrationSession.state_of_accepts {s : RegistrationSession} {step : Step}
    {codeHash : JsString} {now : ℕ} (h : s.accepts step codeHash now = true) :
    s.state = step.state := by
  cases step with
  | pair => exact (of_decide_eq_true h).2.1
  | enroll => exact (of_decide_eq_true h).2.1
  | verify => exact (of_decide_eq_true h).2.1

theorem RegistrationSession.not_over_of_step {s : RegistrationSession} (step : Step)
    (h : s.state = step.state) : ¬ s.Over := by
  rw [RegistrationSession.Over, h]
  cases step <;> decide

theorem RegistrationSession.not_over_of_accepts {s : RegistrationSession} {step : Step}
    (h : ∃ codeHash now, s.accepts step codeHash now = true) : ¬ s.Over := by
  obtain ⟨codeHash, now, h⟩ := h
  exact RegistrationSession.not_over_of_step step (RegistrationSession.state_of_accepts h)

/-- The UPDATE of `abandonRegistration` finds no session that is over. -/
def Sql.FindsOpen (q : Sql) (db : Db) : Prop :=
  match q with
  | .abandonSession sessionId tenantId environment => ∀ id u s, Uuid.parse sessionId = some id →
      Uuid.parse tenantId = some u → s ∈ Db.sessions db → s.isOwn id u environment = true → ¬ s.Over
  | _ => True

/-- Nobody abandons a session that is over. -/
def AbandonsOpen (t : ℕ) (o : Op) (_ : Oracle) (w : World) : Prop :=
  match o with
  | .pool q => q.FindsOpen w.store.db
  | .query q => q.FindsOpen (w.view t)
  | _ => True

/-- The write does not change a session that is over. -/
def OpenBefore : Write → Prop
  | .update (.session s) _ => ¬ s.Over
  | _ => True

section Guards

variable {pg : Jsonb}

theorem openBefore_of_run {db : Db} {now : ℕ} {ω : Oracle} {q : Sql} {a : Answer q.Resp}
    {write : Write} (hfinds : q.FindsOpen db) (ha : q.run pg db now ω = .ok a)
    (hw : a.write = some write) (hchange : Change pg q write) : OpenBefore write := by
  cases hchange with
  | sessionPaired now haccepts => exact RegistrationSession.not_over_of_accepts haccepts
  | sessionCommitted now haccepts => exact RegistrationSession.not_over_of_accepts haccepts
  | sessionCompleted now haccepts => exact RegistrationSession.not_over_of_accepts haccepts
  | sessionAbandoned u now hown =>
      obtain ⟨id, u, hid, hu, rfl⟩ := withOwner_ok ha
      obtain ⟨s, hs, hown, heq⟩ := update_write hw
      obtain rfl := Row.session.inj (RowWrite.update.inj heq).1
      exact hfinds id u _ hid hu hs hown
  | _ => trivial

theorem guards_abandonsOpen : Guards pg AbandonsOpen OpenBefore :=
  ⟨fun hok ha hw hchange => openBefore_of_run hok ha hw hchange,
    fun hok _ ha hw hchange => openBefore_of_run hok ha hw hchange⟩

end Guards

/-! ## Which calls end a session -/

/-- A write that leaves a session behind: it opens the session or moves it on, or it is the
    last write of a call that has reported it. -/
theorem Effect.session {cfg : Settings} {pg : Jsonb} {a : Call} {x : Result} {ws : List Write}
    {ps : List ChainedAuditPayload} (h : Effect cfg pg a x ws ps) {write : Write} (hw : write ∈ ws)
    (hchange : ∃ q, Change pg q write) {s : RegistrationSession} (hs : newRow write = .session s) :
    ¬ s.Over ∨ ∃ p, ps = [p] ∧ ((s.state = .completed ∧ IsCompletedEntry s.id p) ∨
      ∃ s₀ now, write = .update (.session s₀) (.session s) ∧ s = s₀.abandoned now ∧
        IsAbandonedEntry s.id p) := by
  -- a call that writes a device leaves no session behind
  have hdevice : ∀ {f : ℕ → Device → Device} {d : Option Device}, DeviceChanged f d ws → False := by
    rintro f d (⟨-, rfl⟩ | ⟨d, now, -, rfl⟩)
    · cases hw
    · rw [List.mem_singleton.mp hw] at hs
      cases hs
  -- nor one that writes a user
  have huser : UserChanged ws → False := by
    intro h
    obtain ⟨u, hu⟩ := h write hw
    rw [hu] at hs
    cases hs
  unfold Effect at h
  split at h
  · rw [h.1, List.mem_singleton] at hw
    subst hw
    cases hs
  · rw [h.1, List.mem_singleton] at hw
    subst hw
    cases hs
  · obtain ⟨-, rfl, -⟩ | ⟨i', -, -, h⟩ := h
    · cases hw
    · exact (hdevice h).elim
  · obtain ⟨⟨d, now, -, -, rfl⟩⟩ := h.1
    rw [List.mem_singleton.mp hw] at hs
    cases hs
  · exact (hdevice h.1).elim
  · exact (hdevice h.1.choose_spec).elim
  · rw [h.1, List.mem_singleton] at hw
    subst hw
    obtain ⟨q, hchange⟩ := hchange
    left
    generalize hrow : Row.session _ = r at hchange hs
    cases hchange with
    | sessionStarted id u now =>
        cases hs
        exact RegistrationSession.not_over_of_step .pair rfl
    | _ => cases hs
  · obtain ⟨s₀, write₀, device, now, -, -, hnew, -, rfl⟩ := h.1
    rcases List.mem_cons.mp hw with rfl | hw
    · rw [hnew] at hs
      cases hs
    · obtain rfl := List.mem_singleton.mp hw
      cases hs
      exact .inl (RegistrationSession.not_over_of_step .enroll rfl)
  · obtain ⟨s₀, nonce, now, -, -, -, rfl⟩ := h.1
    obtain rfl := List.mem_singleton.mp hw
    cases hs
    exact .inl (RegistrationSession.not_over_of_step .verify rfl)
  · obtain ⟨s₀, text, commitment, id, now, -, -, -, rfl, p, rfl, hentry⟩ := h
    rcases List.mem_cons.mp hw with rfl | hw
    · cases hs
    · obtain rfl := List.mem_singleton.mp hw
      cases hs
      exact .inr ⟨p, rfl, .inl ⟨rfl, hentry⟩⟩
  · obtain ⟨-, rfl, -⟩ | ⟨s₀, now, p, -, rfl, rfl, hentry⟩ := h
    · cases hw
    · obtain rfl := List.mem_singleton.mp hw
      cases hs
      exact .inr ⟨p, rfl, .inr ⟨s₀, now, rfl, rfl, hentry⟩⟩
  · rw [h.1] at hw
    cases hw
  · exact (huser h.1).elim
  · exact (huser h.1).elim
  · exact (huser h.1).elim
  · exact h.elim

/-! ## Entries and rows -/

namespace World

/-- How many `registration.completed` entries there are for a session. -/
def completedEntries (w : World) (id : Uuid) : ℕ :=
  w.spawned.countP fun e => IsCompletedEntry id e.2

def abandonedEntries (w : World) (id : Uuid) : ℕ :=
  w.spawned.countP fun e => IsAbandonedEntry id e.2

/-- The session's row is in this state. -/
def InState (w : World) (id : Uuid) (state : RegistrationState) : Prop :=
  ∃ s ∈ Db.sessions w.store.db, s.id = id ∧ s.state = state

end World

/-- One entry at most, and one that the row bears out. -/
structure EntriesSound (w : World) (id : Uuid) : Prop where
  completedOnce : w.completedEntries id ≤ 1
  abandonedOnce : w.abandonedEntries id ≤ 1
  notBoth : ¬ (0 < w.completedEntries id ∧ 0 < w.abandonedEntries id)
  completed : 0 < w.completedEntries id → w.InState id .completed
  abandoned : 0 < w.abandonedEntries id → w.InState id .abandoned

/-- The row also has its entry. -/
structure EntriesAgree (w : World) (id : Uuid) : Prop where
  sound : EntriesSound w id
  completed : 0 < w.completedEntries id ↔ w.InState id .completed
  abandoned : 0 < w.abandonedEntries id ↔ w.InState id .abandoned

/-- Every call that has changed the session has heard of its write and has ended. -/
def Settled (c : State) (id : Uuid) : Prop :=
  ∀ t write s, (t, write) ∈ c.world.store.journal → newRow write = .session s → s.id = id →
    t ∉ c.world.unanswered ∧ ∀ th, c.threads[t]? = some th → th.rest.outcome?.isSome

section Agreement

variable {pg : Jsonb} {w : World} {id : Uuid} {t : ℕ} {p : ChainedAuditPayload}

theorem spawnedBy_of_mem (h : (t, p) ∈ w.spawned) : p ∈ w.spawnedBy t :=
  List.mem_filterMap.mpr ⟨_, h, if_pos rfl⟩

/-- A session that is over. -/
def Row.Over : Row → Prop
  | .session s => s.Over
  | _ => False

instance (r : Row) : Decidable r.Over := by
  cases r <;> unfold Row.Over <;> infer_instance

/-- What at most one entry of a list satisfies, one entry satisfies. -/
theorem eq_of_countP_le_one {α : Type} {l : List α} {p : α → Bool} (h : l.countP p ≤ 1) {a b : α}
    (ha : a ∈ l) (hb : b ∈ l) (hpa : p a = true) (hpb : p b = true) : a = b := by
  rw [List.countP_eq_length_filter] at h
  have ha' := List.mem_filter.mpr ⟨ha, hpa⟩
  have hb' := List.mem_filter.mpr ⟨hb, hpb⟩
  match l.filter p, h, ha', hb' with
  | [x], _, ha', hb' => rw [List.mem_singleton.mp ha', List.mem_singleton.mp hb']

/-- One committed write at most ends a session. -/
theorem final_unique (hi : Inv pg OpenBefore w) {t₁ t₂ : ℕ} {w₁ w₂ : Write}
    {s₁ s₂ : RegistrationSession} (h₁ : (t₁, w₁) ∈ w.store.journal)
    (h₂ : (t₂, w₂) ∈ w.store.journal) (hs₁ : newRow w₁ = .session s₁) (hs₂ : newRow w₂ = .session s₂)
    (hid₁ : s₁.id = id) (hid₂ : s₂.id = id) (hover₁ : s₁.Over) (hover₂ : s₂.Over) : t₁ = t₂ := by
  have hcount := Keyed.countP_final_le (P := Row.Over) (fun old new hallowed hold => ?_)
    hi.serial.history (.session id)
  · rw [List.countP_map] at hcount
    have hfinal : ∀ {write : Write} {s : RegistrationSession}, newRow write = .session s →
        s.id = id → s.Over → tables.id (newRow write) = .session id ∧ (newRow write).Over := by
      intro write s hs hid hover
      rw [hs]
      exact ⟨congrArg RowId.session hid, hover⟩
    exact congrArg Prod.fst (eq_of_countP_le_one hcount h₁ h₂
      (decide_eq_true (hfinal hs₁ hid₁ hover₁)) (decide_eq_true (hfinal hs₂ hid₂ hover₂)))
  · cases old with
    | session s => exact hallowed.2 hold
    | device d => exact hold
    | user u => exact hold

/-- The row of a session that a committed write has ended is still in the state that the write
    has given it. -/
theorem inState_of_final (hi : Inv pg OpenBefore w) {write : Write} {s : RegistrationSession}
    (h : (t, write) ∈ w.store.journal) (hs : newRow write = .session s) (hover : s.Over) :
    w.InState s.id s.state := by
  have hkept : ∀ q old new, Change pg q (.update old new) → OpenBefore (.update old new) →
      (old.Over ∧ ∀ s', old = .session s' → s'.state = s.state) →
      new.Over ∧ ∀ s', new = .session s' → s'.state = s.state := by
    intro q old new _ hopen hold
    cases old with
    | session s₀ => exact absurd hold.1 hopen
    | device d => exact hold.1.elim
    | user u => exact hold.1.elim
  have hnow : (newRow write).Over ∧ ∀ s', newRow write = .session s' → s'.state = s.state := by
    rw [hs]
    refine ⟨hover, fun s' heq => ?_⟩
    rw [Row.session.inj heq]
  obtain ⟨r, hr, hid, -, hstate⟩ := hi.persists hkept h hnow
  rw [hs] at hid
  cases r with
  | session s' => exact ⟨s', mem_sessions.mpr hr, RowId.session.inj hid, hstate s' rfl⟩
  | device d => cases hid
  | user u => cases hid

/-- An entry belongs to a write of its call that has put the session into the state that it
    names. -/
theorem ended_of_entry (hi : Inv pg OpenBefore w) {state : RegistrationState}
    (h : (t, p) ∈ w.spawned) (hp : Reports id state p) :
    w.spawnedBy t = [p] ∧ ∃ write s, (t, write) ∈ w.store.journal ∧ newRow write = .session s ∧
      s.id = id ∧ s.state = state ∧ s.Over := by
  have hmem := spawnedBy_of_mem h
  rcases hi.announced t with hnil | ⟨p', hp', hends⟩
  · rw [hnil] at hmem
    cases hmem
  rw [hp', List.mem_singleton] at hmem
  subst hmem
  obtain ⟨write, hwrite, hconcludes⟩ := hends id state hp
  have hjournal := Store.mem_committedBy.mp hwrite
  refine ⟨hp', write, ?_⟩
  cases state with
  | completed =>
      obtain ⟨s, userId, now, hid, rfl⟩ := hconcludes
      exact ⟨s.completed userId now, hjournal, rfl, hid, rfl, .inl rfl⟩
  | abandoned =>
      obtain ⟨s, now, hid, rfl⟩ := hconcludes
      have hopen : ¬ s.Over := (hi.extra_of_mem hjournal).2
      have hstate : (s.abandoned now).state = .abandoned := if_neg hopen
      exact ⟨s.abandoned now, hjournal, rfl, hid, hstate, .inr hstate⟩
  | awaitingDevice => exact hconcludes.elim
  | awaitingCommitment => exact hconcludes.elim
  | awaitingVerification => exact hconcludes.elim

/-- What only one call has started, counted. -/
theorem countP_spawned {P : ChainedAuditPayload → Bool}
    (h : ∀ e ∈ w.spawned, P e.2 = true → e.1 = t) :
    w.spawned.countP (fun e => P e.2) = (w.spawnedBy t).countP P := by
  unfold World.spawnedBy
  generalize w.spawned = l at h ⊢
  induction l with
  | nil => rfl
  | cons e l ih =>
      have ih := ih fun e' he' => h e' (List.mem_cons_of_mem _ he')
      have hhead := h e List.mem_cons_self
      rw [List.countP_cons, List.filterMap_cons, ih]
      by_cases ht : e.1 = t
      · simp [ht, List.countP_cons]
      · have hno : P e.2 ≠ true := fun hp => ht (hhead hp)
        simp [ht, hno]

/-- All entries about the end of a session come from one call, which has started only one. -/
theorem entry_unique (hi : Inv pg OpenBefore w) {t₁ t₂ : ℕ} {p₁ p₂ : ChainedAuditPayload}
    {state₁ state₂ : RegistrationState} (h₁ : (t₁, p₁) ∈ w.spawned) (h₂ : (t₂, p₂) ∈ w.spawned)
    (hp₁ : Reports id state₁ p₁) (hp₂ : Reports id state₂ p₂) :
    t₁ = t₂ ∧ p₁ = p₂ ∧ w.spawnedBy t₁ = [p₁] := by
  obtain ⟨hby₁, w₁, s₁, hw₁, hs₁, hid₁, -, hover₁⟩ := ended_of_entry hi h₁ hp₁
  obtain ⟨hby₂, w₂, s₂, hw₂, hs₂, hid₂, -, hover₂⟩ := ended_of_entry hi h₂ hp₂
  obtain rfl := final_unique hi hw₁ hw₂ hs₁ hs₂ hid₁ hid₂ hover₁ hover₂
  exact ⟨rfl, List.singleton_inj.mp (hby₁.symm.trans hby₂), hby₁⟩

theorem countP_entries_le (hi : Inv pg OpenBefore w) (state : RegistrationState)
    {P : ChainedAuditPayload → Prop} [DecidablePred P] (hP : ∀ p, P p → Reports id state p) :
    w.spawned.countP (fun e => P e.2) ≤ 1 := by
  by_cases hnone : w.spawned.countP (fun e => P e.2) = 0
  · omega
  · obtain ⟨⟨t, p⟩, he, hp⟩ := List.countP_pos_iff.mp (Nat.pos_of_ne_zero hnone)
    have hreports := hP p (of_decide_eq_true hp)
    have hcaller : ∀ e ∈ w.spawned, decide (P e.2) = true → e.1 = t := fun e' he' hp' =>
      (entry_unique hi he' he (hP _ (of_decide_eq_true hp')) hreports).1
    rw [countP_spawned (P := fun p => decide (P p)) hcaller,
      (entry_unique hi he he hreports hreports).2.2]
    exact List.countP_le_length

/-- Sound in every state. -/
theorem entriesSound (hi : Inv pg OpenBefore w) (id : Uuid) : EntriesSound w id := by
  have hstate : ∀ state, ∀ e ∈ w.spawned, Reports id state e.2 → w.InState id state := by
    intro state e he hp
    obtain ⟨-, write, s, hw, hs, rfl, rfl, hover⟩ := ended_of_entry hi he hp
    exact inState_of_final hi hw hs hover
  refine
    { completedOnce := countP_entries_le hi .completed fun p hp => hp
      abandonedOnce := countP_entries_le hi .abandoned fun p hp => hp
      notBoth := ?_
      completed := fun h => ?_
      abandoned := fun h => ?_ }
  · rintro ⟨hcompleted, habandoned⟩
    obtain ⟨e₁, he₁, hp₁⟩ := List.countP_pos_iff.mp hcompleted
    obtain ⟨e₂, he₂, hp₂⟩ := List.countP_pos_iff.mp habandoned
    have hp₁ : IsCompletedEntry id e₁.2 := of_decide_eq_true hp₁
    have hp₂ : IsAbandonedEntry id e₂.2 := of_decide_eq_true hp₂
    have heq := (@entry_unique _ _ _ hi _ _ _ _ .completed .abandoned he₁ he₂ hp₁ hp₂).2.1
    rw [← heq] at hp₂
    have hne : js "registration.completed" ≠ js "registration.abandoned" := by decide
    exact hne (hp₁.1.symm.trans hp₂.1)
  · obtain ⟨e, he, hp⟩ := List.countP_pos_iff.mp h
    have hp : IsCompletedEntry id e.2 := of_decide_eq_true hp
    exact hstate .completed e he hp
  · obtain ⟨e, he, hp⟩ := List.countP_pos_iff.mp h
    have hp : IsAbandonedEntry id e.2 := of_decide_eq_true hp
    exact hstate .abandoned e he hp

end Agreement

/-- In every run in which nobody abandons a session that is over: in every state the entries
    of every session are sound, and where every call that has changed a session has heard of its
    write and has ended, they agree with its row. -/
theorem entries_agree {cfg : Settings} {pg : Jsonb} {c : State}
    (h : (system cfg pg).Reach Empty (System.OnlyWhere AbandonsOpen) c) (id : Uuid) :
    EntriesSound c.world id ∧ (Settled c id → EntriesAgree c.world id) := by
  have hok := allows_onlyWhere AbandonsOpen
  have hi := inv_of_reach guards_abandonsOpen hok h
  have hsound := entriesSound hi id
  refine ⟨hsound, fun hsettled => ?_⟩
  -- the call that has put the row into its last state has ended, and so has reported it
  have hreported : ∀ s ∈ Db.sessions c.world.store.db, s.id = id → s.Over →
      ∃ e ∈ c.world.spawned, (s.state = .completed ∧ IsCompletedEntry id e.2) ∨
        (s.state = .abandoned ∧ IsAbandonedEntry id e.2) := by
    rintro s hs rfl hover
    obtain ⟨t, write, hwrite, hnew⟩ := hi.origin (mem_sessions.mp hs)
    have hmine := Store.mem_committedBy.mpr hwrite
    cases hth : c.threads[t]? with
    | none =>
        have hdone := done_of_reach guards_abandonsOpen hok h (List.getElem?_eq_none_iff.mp hth)
        rw [hdone.mine] at hmine
        cases hmine
    | some th =>
        obtain ⟨hheard, hended⟩ := hsettled t write s hwrite hnew rfl
        obtain ⟨out, hout⟩ := Option.isSome_iff_exists.mp (hended th hth)
        have hpost := post_of_ended guards_abandonsOpen hok h hth hout
        cases out with
        | error e =>
            rcases hpost with hnone | ⟨hlost, -⟩
            · rw [hnone.mine] at hmine
              cases hmine
            · exact absurd hlost hheard
        | ok x =>
            obtain ⟨ws, ps, hdone, heffect⟩ := hpost
            obtain ⟨hchange, hextra⟩ := hi.extra_of_mem hwrite
            obtain hopen | ⟨p, rfl, hended⟩ := heffect.session (hdone.mine ▸ hmine) hchange hnew
            · exact absurd hover hopen
            · have hp : p ∈ c.world.spawnedBy t := hdone.said ▸ List.mem_singleton_self p
              obtain ⟨e, he, heq⟩ := List.mem_filterMap.mp hp
              rw [Option.ite_none_right_eq_some] at heq
              obtain ⟨-, heq⟩ := heq
              refine ⟨e, he, ?_⟩
              rw [Option.some.inj heq]
              obtain ⟨hstate, hentry⟩ | ⟨s₀, now, rfl, rfl, hentry⟩ := hended
              · exact .inl ⟨hstate, hentry⟩
              · have hopen : ¬ s₀.Over := hextra
                exact .inr ⟨if_neg hopen, hentry⟩
  refine ⟨hsound, ⟨hsound.completed, ?_⟩, ⟨hsound.abandoned, ?_⟩⟩
  · rintro ⟨s, hs, hid, hstate⟩
    obtain ⟨e, he, ⟨-, hentry⟩ | ⟨hother, -⟩⟩ := hreported s hs hid (.inl hstate)
    · exact List.countP_pos_iff.mpr ⟨e, he, decide_eq_true hentry⟩
    · rw [hstate] at hother
      cases hother
  · rintro ⟨s, hs, hid, hstate⟩
    obtain ⟨e, he, ⟨hother, -⟩ | ⟨-, hentry⟩⟩ := hreported s hs hid (.inr hstate)
    · rw [hstate] at hother
      cases hother
    · exact List.countP_pos_iff.mpr ⟨e, he, decide_eq_true hentry⟩

/-- Every call has ended, and no answer was lost. -/
def allEnded (c : State) : Bool :=
  c.world.unanswered.isEmpty && c.threads.all fun th => th.rest.outcome?.isSome

theorem settled_of_allEnded {c : State} (h : allEnded c = true) (id : Uuid) : Settled c id := by
  obtain ⟨hempty, hall⟩ := Bool.and_eq_true_iff.mp h
  intro t write s _ _ _
  refine ⟨fun hlost => ?_, fun th hth => List.all_eq_true.mp hall th (List.mem_of_getElem? hth)⟩
  rw [List.isEmpty_iff.mp hempty] at hlost
  cases hlost

/-- The statement finds no session that is over. -/
def findsOpenTest (_ : ℕ) (o : Op) (_ : Oracle) (w : World) : Bool :=
  match o with
  | .pool (.abandonSession _ _ _) => (Db.sessions w.store.db).all fun s => ¬ s.Over
  | .query (.abandonSession _ _ _) => false
  | _ => true

theorem abandonsOpen_of_test (t : ℕ) (o : Op) (ω : Oracle) (w : World)
    (h : findsOpenTest t o ω w = true) : AbandonsOpen t o ω w := by
  cases o with
  | pool q =>
      cases q with
      | abandonSession sessionId tenantId environment =>
          intro id u s _ _ hs _
          exact of_decide_eq_true (List.all_eq_true.mp h s hs)
      | _ => trivial
  | query q =>
      cases q with
      | abandonSession sessionId tenantId environment => cases h
      | _ => trivial
  | _ => trivial

/-- A session that is opened and abandoned: its one entry agrees with its row. -/
theorem entries_agree_of_abandoned : ∃ c : State,
    c.world.abandonedEntries sessionUuid = 1 ∧ EntriesSound c.world sessionUuid ∧
      EntriesAgree c.world sessionUuid := by
  have hrun : (((system settings jsonb).runChecked (System.onlyWhereTest findsOpenTest)
      (.init initial) (starting 0 tenantText sessionUuid ++ abandoning 1)).map fun c =>
      decide (allEnded c = true ∧ c.world.abandonedEntries sessionUuid = 1)) = some true := by
    decide +kernel
  obtain ⟨c, hc, hends⟩ := Option.map_eq_some_iff.mp hrun
  obtain ⟨hended, hcount⟩ := of_decide_eq_true hends
  have hreach : (system settings jsonb).Reach Empty (System.OnlyWhere AbandonsOpen) c :=
    System.Reach.runChecked (.init empty_initial)
      (fun _ _ h => System.onlyWhere_of_test abandonsOpen_of_test h) hc
  obtain ⟨hsound, hagree⟩ := entries_agree hreach sessionUuid
  exact ⟨c, hcount, hsound, hagree (settled_of_allEnded hended sessionUuid)⟩

/-- A session that is abandoned twice has two entries. -/
theorem abandoned_twice : ∃ c : State, (system settings jsonb).Reach Empty (fun _ _ => True) c ∧
    Settled c sessionUuid ∧ ¬ EntriesAgree c.world sessionUuid := by
  have hrun : (((system settings jsonb).run (.init initial) (starting 0 tenantText sessionUuid ++
      abandoning 1 ++ abandoning 2)).map fun c =>
      decide (allEnded c = true ∧ c.world.abandonedEntries sessionUuid = 2)) = some true := by
    decide +kernel
  obtain ⟨c, hc, hends⟩ := Option.map_eq_some_iff.mp hrun
  obtain ⟨hended, hcount⟩ := of_decide_eq_true hends
  refine ⟨c, System.Reach.run (.init empty_initial)
    (System.keeps_of_forall fun _ _ _ => trivial) hc, settled_of_allEnded hended _, fun h => ?_⟩
  have honce := h.sound.abandonedOnce
  omega

end ZeroAuth.Tenant
