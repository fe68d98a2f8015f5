/-
  ZeroAuth.Tenant.Steps

  One rule for each kind of operation: what a call knows after it.
-/

import ZeroAuth.Tenant.Discipline

namespace ZeroAuth.Tenant

open ZeroAuth.Lib ZeroAuth.Js ZeroAuth.Pg
open ZeroAuth.Audit (ChainedAuditPayload)

/-! ## What the operations do -/

section Exec

variable {pg : Jsonb} {t : ℕ} {ω : Oracle} {w w' : World} {α : Type}

theorem orFail_cases {run : Option (Except Failure α × World)} {r : Except Failure α}
    (h : orFail ω w run = some (r, w')) :
    (∃ e, r = .error e ∧ w' = w) ∨ run = some (r, w') := by
  unfold orFail at h
  split at h
  · cases h
    exact .inl ⟨_, rfl, rfl⟩
  · exact .inr h

theorem carriedOut_cases {v : α} {r : Except Failure α} (h : w.carriedOut t ω v = (r, w')) :
    (r = .ok v ∧ w' = w) ∨ ∃ e, r = .error e ∧ w' = w.unheard t := by
  unfold World.carriedOut at h
  split at h
  · cases h
    exact .inl ⟨rfl, rfl⟩
  · cases h
    exact .inr ⟨_, rfl, rfl⟩

/-- A statement of its own: it fails, or only its answer is lost, or it is answered. -/
theorem exec_pool {q : Sql} {r : Except Failure q.Resp} (h : exec pg t (.pool q) ω w = some (r, w')) :
    (∃ e, r = .error e ∧ (w' = w ∨ ∃ a write, q.run pg w.store.db w.clock ω = .ok a ∧
      a.write = some write ∧ (∀ k ∈ tables.keys write, w.store.locks k = none) ∧
      tables.clashes w.store.db write = false ∧
      w' = (w.setStore (w.store.autocommit tables.apply t write)).unheard t)) ∨
    ∃ a, q.run pg w.store.db w.clock ω = .ok a ∧ r = .ok a.value ∧
      ((a.write = none ∧ w' = w) ∨ ∃ write, a.write = some write ∧
        (∀ k ∈ tables.keys write, w.store.locks k = none) ∧
        tables.clashes w.store.db write = false ∧
        w' = w.setStore (w.store.autocommit tables.apply t write)) := by
  obtain ⟨e, hr, hw⟩ | h := orFail_cases h
  · exact .inl ⟨e, hr, .inl hw⟩
  · split at h
    · next a ha =>
        -- it waits for the locks of its keys; then a unique index may reject it
        unfold World.runPool at h
        split at h
        · next hnone =>
            cases h
            exact .inr ⟨a, ha, rfl, .inl ⟨hnone, rfl⟩⟩
        · next write hwrite =>
            split at h
            · next hfree =>
                rw [List.all_eq_true] at hfree
                have hfree : ∀ k ∈ tables.keys write, w.store.locks k = none :=
                  fun k hk => of_decide_eq_true (hfree k hk)
                split at h
                · cases h
                  exact .inl ⟨_, rfl, .inl rfl⟩
                · next hclash =>
                    have hclash : tables.clashes w.store.db write = false := by simpa using hclash
                    obtain ⟨hr, hw⟩ | ⟨e, hr, hw⟩ := carriedOut_cases (Option.some.inj h)
                    · exact .inr ⟨a, ha, hr, .inr ⟨write, hwrite, hfree, hclash, hw⟩⟩
                    · exact .inl ⟨e, hr, .inr ⟨a, write, ha, hwrite, hfree, hclash, hw⟩⟩
            · cases h
    · cases h
      exact .inl ⟨_, rfl, .inl rfl⟩

/-- What runs in a transaction: it fails, or the transaction is open. -/
theorem inTransaction_cases {run : Tx Write → Option (Except Failure α × World)}
    {r : Except Failure α} (h : inTransaction t ω w run = some (r, w')) :
    (∃ e, r = .error e ∧ ((∀ tx, w.store.conns t ≠ .active tx) ∧ w' = w ∨
      (∃ tx, w.store.conns t = .active tx) ∧ w' = w.failed t)) ∨
    ∃ tx, w.store.conns t = .active tx ∧ run tx = some (r, w') := by
  unfold inTransaction at h
  split at h
  · next tx htx =>
      unfold orFail at h
      split at h
      · cases h
        exact .inl ⟨_, rfl, .inr ⟨⟨tx, htx⟩, rfl⟩⟩
      · exact .inr ⟨tx, htx, h⟩
  · next hfailed =>
      cases h
      refine .inl ⟨_, rfl, .inl ⟨fun tx htx => ?_, rfl⟩⟩
      rw [hfailed] at htx
      cases htx
  · next hidle =>
      cases h
      refine .inl ⟨_, rfl, .inl ⟨fun tx htx => ?_, rfl⟩⟩
      rw [hidle] at htx
      cases htx

/-- A statement of an open transaction. -/
theorem exec_query {q : Sql} {r : Except Failure q.Resp}
    (h : exec pg t (.query q) ω w = some (r, w')) :
    (∃ e, r = .error e ∧ ((∀ tx, w.store.conns t ≠ .active tx) ∧ w' = w ∨
      (∃ tx, w.store.conns t = .active tx) ∧ w' = w.failed t)) ∨
    ∃ tx a s, w.store.conns t = .active tx ∧ q.run pg (w.view t) tx.now ω = .ok a ∧
      r = .ok a.value ∧ w.store.acquireAll t a.keys = some s ∧
      ((a.write = none ∧ w' = w.setStore s) ∨ ∃ write, a.write = some write ∧
        tables.clashes (w.view t) write = false ∧ w' = w.setStore (s.write t write)) := by
  obtain hfail | ⟨tx, htx, h⟩ := inTransaction_cases h
  · exact .inl hfail
  · split at h
    · next a ha =>
        unfold World.runQuery at h
        obtain ⟨s, hs, heq⟩ := Option.map_eq_some_iff.mp h
        split at heq
        · next hnone =>
            cases heq
            exact .inr ⟨tx, a, s, htx, ha, rfl, hs, .inl ⟨hnone, rfl⟩⟩
        · next write hwrite =>
            split at heq
            · cases heq
              exact .inl ⟨_, rfl, .inr ⟨⟨tx, htx⟩, rfl⟩⟩
            · next hclash =>
                cases heq
                refine .inr ⟨tx, a, s, htx, ha, rfl, hs, .inr ⟨write, hwrite, ?_, rfl⟩⟩
                simpa using hclash
    · cases h
      exact .inl ⟨_, rfl, .inr ⟨⟨tx, htx⟩, rfl⟩⟩

/-- Operations that leave the database and the started events alone. -/
def Op.Plain : Op → Prop
  | .now | .uuidv4 | .randomInts _ _ | .randomBytes _ | .connect | .verifyProof _ _
  | .peekDemoCode _ => True
  | _ => False

theorem exec_plain {o : Op} {r : Except Failure o.Resp} (ho : o.Plain)
    (h : exec pg t o ω w = some (r, w')) :
    w'.store = w.store ∧ w'.spawned = w.spawned ∧ w'.demoCodes ⊆ w.demoCodes ∧
      w'.unanswered = w.unanswered := by
  cases o with
  | now | uuidv4 =>
      cases h
      exact ⟨rfl, rfl, fun _ he => he, rfl⟩
  | randomInts count bound =>
      simp only [exec] at h
      split at h <;> cases h
      exact ⟨rfl, rfl, fun _ he => he, rfl⟩
  | randomBytes n =>
      simp only [exec] at h
      split at h <;> cases h
      exact ⟨rfl, rfl, fun _ he => he, rfl⟩
  | connect | verifyProof proof publicSignals =>
      obtain ⟨e, -, rfl⟩ | h := orFail_cases h
      · exact ⟨rfl, rfl, fun _ he => he, rfl⟩
      · cases h
        exact ⟨rfl, rfl, fun _ he => he, rfl⟩
  | peekDemoCode sessionId =>
      simp only [exec] at h
      split at h
      · cases h
        exact ⟨rfl, rfl, fun _ he => he, rfl⟩
      · split at h
        · cases h
          exact ⟨rfl, rfl, fun _ he => (List.mem_filter.mp he).1, rfl⟩
        · cases h
          exact ⟨rfl, rfl, fun _ he => he, rfl⟩
  | pool | begin | query | commit | rollback | spawn | cacheDemoCode => cases ho

end Exec

/-! ## Rules -/

section Rules

variable {cfg : Settings} {pg : Jsonb} {ok : ℕ → Op → Oracle → World → Prop}
  {extra : Write → Prop} {t now : ℕ} {w : World} {ws : List Write} {row : Option Row}
  {ps : List ChainedAuditPayload}

theorem relies_of_eq {w w' : World} (hstore : w'.store = w.store)
    (hspawned : w'.spawned = w.spawned) (hlost : w'.unanswered = w.unanswered) (t : ℕ) :
    Relies t w w' := by
  refine ⟨hstore ▸ .refl _ t _, ?_, .of_journal (congrArg Store.journal hstore), hlost ▸ fun _ h => h⟩
  rw [World.spawnedBy, World.spawnedBy, hspawned]

theorem inv_of_eq {w w' : World} (h : Inv pg extra w) (hstore : w'.store = w.store)
    (hspawned : w'.spawned = w.spawned) (hcodes : w'.demoCodes ⊆ w.demoCodes) :
    Inv pg extra w' := by
  refine ⟨hstore ▸ h.serial, fun e he => ?_, fun t => ?_⟩
  · rw [hstore]
    exact h.cached e (hcodes he)
  · rw [World.spawnedBy, hspawned, hstore]
    exact h.announced t

/-- An operation that touches no table; `K` is what the call knows. -/
theorem safe_plain {o : Op} {K : World → Prop} {Q : Except Failure o.Resp → World → Prop}
    (ho : o.Plain) (hK : K w)
    (hstable : ∀ w w', K w → Inv pg extra w' → Relies t w w' → K w') (hQ : ∀ r w', K w' → Q r w') :
    (discipline cfg pg ok extra).Safe t Q (await o) w := by
  apply Discipline.safe_perform
  intro w₁ hi hr ω r w₂ hx
  obtain ⟨hstore, hspawned, hcodes, hlost⟩ := exec_plain ho (System.exec_guarded hx).2
  have hi₂ : Inv pg extra w₂ := inv_of_eq hi hstore hspawned hcodes
  refine ⟨hi₂, fun t' _ => relies_of_eq hstore hspawned hlost t', hQ r w₂ ?_⟩
  exact hstable w w₂ hK hi₂ (hr.trans (relies_of_eq hstore hspawned hlost t))

theorem safe_plain_done {o : Op} {Q : Except Failure o.Resp → World → Prop} (ho : o.Plain)
    (h : Done t ws ps w) (hQ : ∀ r w', Done t ws ps w' → Q r w') :
    (discipline cfg pg ok extra).Safe t Q (await o) w :=
  safe_plain ho h (fun _ _ hK _ hr => hK.rely hr) hQ

theorem safe_plain_opened {o : Op} {Q : Except Failure o.Resp → World → Prop} (ho : o.Plain)
    (h : Opened pg extra t now ws row w) (hQ : ∀ r w', Opened pg extra t now ws row w' → Q r w') :
    (discipline cfg pg ok extra).Safe t Q (await o) w :=
  safe_plain ho h (fun _ _ hK hi hr => hK.rely hi hr) hQ

/-- A call starts one event at most.  If this reports the end of a session, the call has
    to have ended it. -/
theorem safe_spawn {payload : ChainedAuditPayload} {Q : Except Failure Unit → World → Prop}
    (h : Done t ws [] w)
    (hp : ∀ id state, Reports id state payload → ∃ write ∈ ws, Concludes id state write)
    (hQ : ∀ w', Done t ws [payload] w' → Q (.ok ()) w') :
    (discipline cfg pg ok extra).Safe t Q (await (.spawn payload)) w := by
  apply Discipline.safe_perform
  intro w₁ hi hr ω r w₂ hx
  have hx := (System.exec_guarded hx).2
  cases hx
  have hdone := h.rely hr
  -- the new event is the thread's own
  have hsaid : ∀ t', World.spawnedBy { w₁ with spawned := w₁.spawned ++ [(t, payload)] } t' =
      w₁.spawnedBy t' ++ if t = t' then [payload] else [] := by
    intro t'
    rw [World.spawnedBy, World.spawnedBy, List.filterMap_append]
    congr 1
    by_cases ht : t = t' <;> simp [ht]
  have hself : World.spawnedBy { w₁ with spawned := w₁.spawned ++ [(t, payload)] } t =
      [payload] := by
    rw [hsaid, if_pos rfl, hdone.said, List.nil_append]
  have hother : ∀ t', t' ≠ t →
      World.spawnedBy { w₁ with spawned := w₁.spawned ++ [(t, payload)] } t' = w₁.spawnedBy t' := by
    intro t' ht'
    rw [hsaid, if_neg (Ne.symm ht'), List.append_nil]
  refine ⟨⟨hi.serial, hi.cached, fun t' => ?_⟩, fun t' ht' => ⟨.refl _ t' _, hother t' ht', .of_journal rfl, fun _ h => h⟩, hQ _ ?_⟩
  · by_cases ht : t' = t
    · rw [ht, hself]
      refine .inr ⟨payload, rfl, fun id state hreports => ?_⟩
      obtain ⟨write, hwrite, hconcludes⟩ := hp id state hreports
      exact ⟨write, hdone.mine ▸ hwrite, hconcludes⟩
    · rw [hother t' ht]
      exact hi.announced t'
  · exact ⟨hdone.conn, hdone.mine, hself⟩

/-- A cached code has to be that of a row which the call has committed. -/
theorem safe_cache {sessionId code deeplink : JsString} {step : Step} {nonce : Option JsString}
    {Q : Except Failure Unit → World → Prop} (h : Done t ws ps w)
    (hcode : ∃ write ∈ ws, ∀ expiresAt,
      CodeOf (newRow write) sessionId ⟨step, code, deeplink, nonce, expiresAt⟩)
    (hQ : ∀ w', Done t ws ps w' → Q (.ok ()) w') :
    (discipline cfg pg ok extra).Safe t Q
      (await (.cacheDemoCode sessionId step code deeplink nonce)) w := by
  apply Discipline.safe_perform
  intro w₁ hi hr ω r w₂ hx
  have hx := (System.exec_guarded hx).2
  cases hx
  have hdone := h.rely hr
  refine ⟨⟨hi.serial, fun e he => ?_, hi.announced⟩, fun t' _ => ⟨.refl _ t' _, rfl, .of_journal rfl, fun _ h => h⟩, hQ _ ?_⟩
  · rcases List.mem_cons.mp he with rfl | he
    · obtain ⟨write, hwrite, hcode⟩ := hcode
      have hmine : write ∈ w₁.store.committedBy t := by
        rw [hdone.mine]
        exact hwrite
      exact ⟨write, hmine, hcode _⟩
    · exact hi.cached e (List.mem_filter.mp he).1
  · exact ⟨hdone.conn, hdone.mine, hdone.said⟩

theorem safe_begin {Q : Except Failure Unit → World → Prop} (h : Done t [] [] w)
    (hok : ∀ now w', Opened pg extra t now [] none w' → Q (.ok ()) w')
    (herr : ∀ e w', Done t [] [] w' → Q (.error e) w') :
    (discipline cfg pg ok extra).Safe t Q (await .begin) w := by
  apply Discipline.safe_perform
  intro w₁ hi hr ω r w₂ hx
  have hdone := h.rely hr
  obtain ⟨e, rfl, rfl⟩ | hx := orFail_cases (System.exec_guarded hx).2
  · exact ⟨hi, fun t' _ => .refl t' _, herr e _ hdone⟩
  · rw [hdone.conn] at hx
    cases hx
    have hi₂ : Inv pg extra (w₁.setStore (w₁.store.begin t w₁.clock)) :=
      hi.setStore (hi.serial.begin t w₁.clock) (List.prefix_refl _)
    refine ⟨hi₂, fun t' ht' => ⟨Store.rely_begin ht' _, rfl, .of_journal rfl, fun _ h => h⟩, hok w₁.clock _ ⟨hi₂, ?_, ?_, .inr ⟨?_, ?_⟩⟩⟩
    · exact hdone.mine
    · exact hdone.said
    · exact Store.begin_conns_self _ _ _
    · intro r hr
      cases hr

/-- A transaction that fails or is rolled back leaves nothing. -/
theorem inv_drop {w : World} (h : Inv pg extra w) (t : ℕ) {c : Conn Write}
    (hc : ∀ tx, c ≠ .active tx) : Inv pg extra (w.setStore (w.store.drop t c)) :=
  h.setStore (h.serial.drop t hc) (List.prefix_refl _)

theorem opened_failed {w : World} (h : Inv pg extra w) (hmine : w.store.committedBy t = [])
    (hsaid : w.spawnedBy t = []) (now : ℕ) (ws : List Write) :
    Opened pg extra t now ws none (w.failed t) :=
  ⟨inv_drop h t fun tx => by simp, hmine, hsaid, .inl (Store.drop_conns_self _ _ _)⟩

/-- After a rollback the call has what it had committed before. -/
theorem safe_rollback {Q : Except Failure Unit → World → Prop} (hmine : w.store.committedBy t = ws)
    (hsaid : w.spawnedBy t = ps)
    (hQ : ∀ r w', Done t ws ps w' → w.unanswered ⊆ w'.unanswered → Q r w') :
    (discipline cfg pg ok extra).Safe t Q (await .rollback) w := by
  apply Discipline.safe_perform
  intro w₁ hi hr ω r w₂ hx
  have hw : w₂ = w₁.setStore (w₁.store.drop t .idle) := by
    obtain ⟨e, -, hw⟩ | hx := orFail_cases (System.exec_guarded hx).2
    · exact hw
    · cases hx
      rfl
  subst hw
  refine ⟨inv_drop hi t fun tx => by simp,
    fun t' ht' => ⟨Store.rely_drop ht' _, rfl, .of_journal rfl, fun _ h => h⟩, hQ r _ ?_ hr.lost⟩
  exact ⟨Store.drop_conns_self _ _ _, hr.store.mine.trans hmine, hr.said.trans hsaid⟩

theorem safe_commit {Q : Except Failure Unit → World → Prop}
    (h : Opened pg extra t now ws row w) (hok : ∀ w', Done t ws [] w' → Q (.ok ()) w')
    (herr : ∀ e w', Opened pg extra t now ws none w' → Q (.error e) w')
    (hlost : ∀ e w', Done t ws [] w' → t ∈ w'.unanswered → Q (.error e) w') :
    (discipline cfg pg ok extra).Safe t Q (await .commit) w := by
  apply Discipline.safe_perform
  intro w₁ hi hr ω r w₂ hx
  have hopened := h.rely hi hr
  obtain ⟨e, rfl, ⟨-, rfl⟩ | ⟨⟨tx, htx⟩, rfl⟩⟩ | ⟨tx, htx, hx⟩ :=
    inTransaction_cases (System.exec_guarded hx).2
  · exact ⟨hi, fun t' _ => .refl t' _, herr e _ hopened.forget⟩
  · refine ⟨inv_drop hi t fun tx => by simp, fun t' ht' => ⟨Store.rely_drop ht' _, rfl, .of_journal rfl, fun _ h => h⟩,
      herr e _ (opened_failed hi hopened.mine hopened.said now ws)⟩
  · have htx' : tx = ⟨now, ws⟩ := by
      rcases hopened.conn with hfailed | ⟨hactive, -⟩
      · rw [hfailed] at htx
        cases htx
      · rw [hactive] at htx
        exact (Conn.active.inj htx).symm
    subst htx'
    have hcommit := @Store.commit_of_active _ _ _ tables.apply _ _ _ htx
    have hmine : ∀ t', (w₁.store.commit tables.apply t).committedBy t' =
        if t' = t then w₁.store.committedBy t ++ ws else w₁.store.committedBy t' := by
      intro t'
      rw [hcommit]
      exact Store.committedBy_append rfl t'
    -- the same has happened whether its answer arrives or not
    have hdone : ∀ w', w'.store = w₁.store.commit tables.apply t → w'.spawned = w₁.spawned →
        Done t ws [] w' := by
      intro w' hstore hspawned
      refine ⟨?_, ?_, ?_⟩
      · rw [hstore, hcommit]
        exact Store.drop_conns_self _ _ _
      · rw [hstore, hmine, if_pos rfl, hopened.mine, List.nil_append]
      · rw [World.spawnedBy, hspawned]
        exact hopened.said
    have hi₂ : Inv pg extra (w₁.setStore (w₁.store.commit tables.apply t)) := by
      refine hi.setStore (hi.serial.commit htx) ?_
      rw [hcommit]
      exact List.prefix_append _ _
    have hrely : ∀ t', t' ≠ t → Store.Rely tables.schema t' w₁.store
        (w₁.store.commit tables.apply t) :=
      fun t' ht' => Store.rely_commit hi.serial.locked ht' htx
    have honce : CommitsOnce w₁.store (w₁.store.commit tables.apply t) :=
      .of_append hopened.mine (congrArg Store.journal hcommit)
    obtain ⟨rfl, rfl⟩ | ⟨e, rfl, rfl⟩ := carriedOut_cases (Option.some.inj hx)
    · exact ⟨hi₂, fun t' ht' => ⟨hrely t' ht', rfl, honce, fun _ h => h⟩, hok _ (hdone _ rfl rfl)⟩
    · exact ⟨hi₂.unheard t, fun t' ht' => ⟨hrely t' ht', rfl, honce, List.subset_cons_self _ _⟩,
        hlost e _ (hdone _ rfl rfl) List.mem_cons_self⟩

/-- A write that the unique indexes do not reject fits. -/
theorem valid_of_run {db : Db} {ω : Oracle} {q : Sql} {a : Answer q.Resp} {write : Write}
    (ha : q.run pg db now ω = .ok a) (hw : a.write = some write) (hl : q.Locked write)
    (hclash : tables.clashes db write = false) (hextra : Change pg q write → extra write) :
    (rules pg extra).valid db write := by
  obtain ⟨hchange, hfound⟩ := change_of_run ha hw hl
  refine ⟨?_, ⟨q, hchange⟩, hextra hchange⟩
  cases write with
  | insert r => exact Keyed.fits_insert hclash
  | update old new =>
      obtain ⟨hmem, hid⟩ := hfound old new rfl
      exact Keyed.fits_update hmem hid hclash

/-- A statement of its own, by a call that has not written yet. -/
theorem safe_pool (hg : Guards pg ok extra) {q : Sql} {Q : Except Failure q.Resp → World → Prop}
    (h : Done t [] [] w) (hl : ∀ write, q.Locked write)
    (hok : ∀ db now ω a w', q.run pg db now ω = .ok a → Done t a.write.toList [] w' →
      Q (.ok a.value) w')
    (herr : ∀ e w', Done t [] [] w' → Q (.error e) w')
    (hlost : ∀ db now ω a write e w', q.run pg db now ω = .ok a → a.write = some write →
      Done t a.write.toList [] w' → t ∈ w'.unanswered → Q (.error e) w') :
    (discipline cfg pg ok extra).Safe t Q (pool q) w := by
  apply Discipline.safe_perform
  intro w₁ hi hr ω r w₂ hx
  obtain ⟨hallowed, hx⟩ := System.exec_guarded hx
  have hdone := h.rely hr
  -- what a write leaves, whether its answer arrives or not
  have hwritten : ∀ {a : Answer q.Resp} {write}, q.run pg w₁.store.db w₁.clock ω = .ok a →
      a.write = some write → (∀ k ∈ tables.keys write, w₁.store.locks k = none) →
      tables.clashes w₁.store.db write = false →
      Inv pg extra (w₁.setStore (w₁.store.autocommit tables.apply t write)) ∧
      (∀ t', t' ≠ t → Store.Rely tables.schema t' w₁.store
        (w₁.store.autocommit tables.apply t write)) ∧
      CommitsOnce w₁.store (w₁.store.autocommit tables.apply t write) ∧
      ∀ w', w'.store = w₁.store.autocommit tables.apply t write → w'.spawned = w₁.spawned →
        Done t a.write.toList [] w' := by
    intro a write ha hwrite hfree hclash
    have hvalid := valid_of_run ha hwrite (hl write) hclash (hg.pool hallowed ha hwrite)
    have hmine : ∀ t', (w₁.store.autocommit tables.apply t write).committedBy t' =
        if t' = t then w₁.store.committedBy t ++ [write] else w₁.store.committedBy t' :=
      fun t' => Store.committedBy_append rfl t'
    refine ⟨hi.setStore (hi.serial.autocommit t hfree hvalid) (List.prefix_append _ _),
      fun t' ht' => Store.rely_autocommit ht' hfree,
      @CommitsOnce.of_append _ _ t [write] hdone.mine rfl, fun w' hstore hspawned => ⟨?_, ?_, ?_⟩⟩
    · rw [hstore]
      exact hdone.conn
    · rw [hstore, hmine, if_pos rfl, hdone.mine, hwrite]
      rfl
    · rw [World.spawnedBy, hspawned]
      exact hdone.said
  obtain ⟨e, rfl, rfl | ⟨a, write, ha, hwrite, hfree, hclash, rfl⟩⟩ |
    ⟨a, ha, rfl, ⟨hnone, rfl⟩ | ⟨write, hwrite, hfree, hclash, rfl⟩⟩ := exec_pool hx
  · exact ⟨hi, fun t' _ => .refl t' _, herr e _ hdone⟩
  · obtain ⟨hi₂, hrely, honce, hmade⟩ := hwritten ha hwrite hfree hclash
    exact ⟨hi₂.unheard t, fun t' ht' => ⟨hrely t' ht', rfl, honce, List.subset_cons_self _ _⟩,
      hlost _ _ ω a write e _ ha hwrite (hmade _ rfl rfl) List.mem_cons_self⟩
  · refine ⟨hi, fun t' _ => .refl t' _, hok _ _ ω a _ ha ?_⟩
    rw [hnone]
    exact hdone
  · obtain ⟨hi₂, hrely, honce, hmade⟩ := hwritten ha hwrite hfree hclash
    exact ⟨hi₂, fun t' ht' => ⟨hrely t' ht', rfl, honce, fun _ h => h⟩,
      hok _ _ ω a _ ha (hmade _ rfl rfl)⟩

/-- A statement of its own that only reads. -/
theorem safe_pool_read {q : Sql} {Q : Except Failure q.Resp → World → Prop}
    (h : Done t [] [] w) (hread : ∀ db now ω a, q.run pg db now ω = .ok a → a.write = none)
    (hok : ∀ db now ω a w', q.run pg db now ω = .ok a → Done t [] [] w' → Q (.ok a.value) w')
    (herr : ∀ e w', Done t [] [] w' → Q (.error e) w') :
    (discipline cfg pg ok extra).Safe t Q (pool q) w := by
  apply Discipline.safe_perform
  intro w₁ hi hr ω r w₂ hx
  have hdone := h.rely hr
  obtain ⟨e, rfl, rfl | ⟨a, write, ha, hwrite, -⟩⟩ |
    ⟨a, ha, rfl, ⟨-, rfl⟩ | ⟨write, hwrite, -⟩⟩ := exec_pool (System.exec_guarded hx).2
  · exact ⟨hi, fun t' _ => .refl t' _, herr e _ hdone⟩
  · rw [hread _ _ _ a ha] at hwrite
    cases hwrite
  · exact ⟨hi, fun t' _ => .refl t' _, hok _ _ ω a _ ha hdone⟩
  · rw [hread _ _ _ a ha] at hwrite
    cases hwrite

/-- A statement of the transaction.  `next` is the row that the call has locked after it:
    the one it had, untouched, or the one that the statement has locked. -/
theorem safe_query (hg : Guards pg ok extra) {q : Sql} {Q : Except Failure q.Resp → World → Prop}
    (next : q.Resp → Option Row) (h : Opened pg extra t now ws row w)
    (hl : ∀ db ω a write, (∀ r ∈ row, r ∈ db) → tables.Distinct db → q.run pg db now ω = .ok a →
      a.write = some write → q.Locked write)
    (hnext : ∀ db ω a, (∀ r ∈ row, r ∈ db) → q.run pg db now ω = .ok a → ∀ r ∈ next a.value,
      (r ∈ row ∧ ∀ write, a.write = some write → .row r.id ∉ tables.keys write) ∨
      (r ∈ db ∧ a.lock = some r.id ∧ a.write = none))
    (hok : ∀ db ω a w', (∀ r ∈ row, r ∈ db) → tables.Distinct db → q.run pg db now ω = .ok a →
      Opened pg extra t now (ws ++ a.write.toList) (next a.value) w' → Q (.ok a.value) w')
    (herr : ∀ e w', Opened pg extra t now ws none w' → Q (.error e) w') :
    (discipline cfg pg ok extra).Safe t Q (query q) w := by
  apply Discipline.safe_perform
  intro w₁ hi hr ω r w₂ hx
  obtain ⟨hallowed, hx⟩ := System.exec_guarded hx
  have hopened := h.rely hi hr
  obtain ⟨e, rfl, ⟨-, rfl⟩ | ⟨-, rfl⟩⟩ | ⟨tx, a, s, htx, ha, rfl, hs, hw⟩ := exec_query hx
  · exact ⟨hi, fun t' _ => .refl t' _, herr e _ hopened.forget⟩
  · refine ⟨inv_drop hi t fun tx => by simp, fun t' ht' => ⟨Store.rely_drop ht' _, rfl, .of_journal rfl, fun _ h => h⟩,
      herr e _ (opened_failed hi hopened.mine hopened.said now ws)⟩
  · obtain ⟨hactive, hheld⟩ : w₁.store.conns t = .active ⟨now, ws⟩ ∧
        ∀ r ∈ row, w₁.store.locks (.row r.id) = some t ∧ r ∈ w₁.view t := by
      refine hopened.conn.resolve_left fun hfailed => ?_
      rw [hfailed] at htx
      cases htx
    obtain rfl : tx = ⟨now, ws⟩ := by
      rw [hactive] at htx
      exact (Conn.active.inj htx).symm
    have hrow : ∀ r ∈ row, r ∈ w₁.view t := fun r hr => (hheld r hr).2
    have hdistinct := hi.distinct_view t
    obtain ⟨hconns, hdb, hjournal⟩ := Store.acquireAll_frame hs
    have hlocks := Store.acquireAll_locks hs
    have hs_serial : s.Serial (rules pg extra) [] := hi.serial.acquireAll htx hs
    have hs_conn : s.conns t = .active ⟨now, ws⟩ := (congrFun hconns t).trans hactive
    have hview : World.view (w₁.setStore s) t = w₁.view t := by
      rw [view_of_active htx]
      show Store.view tables.apply s t = _
      rw [Store.view, hs_conn, hdb]
    have hmine : s.committedBy t = [] :=
      (Store.committedBy_of_journal_eq hjournal t).trans hopened.mine
    have hrely : ∀ t', t' ≠ t → Store.Rely tables.schema t' w₁.store s :=
      fun t' ht' => Store.rely_acquireAll ht' hs
    -- what the call holds after the locks are taken
    have hkeep : ∀ r ∈ next a.value, s.locks (.row r.id) = some t ∧ r ∈ w₁.view t ∧
        ∀ write, a.write = some write → .row r.id ∉ tables.keys write := by
      intro r hr
      rcases hnext _ ω a hrow ha r hr with ⟨hold, hother⟩ | ⟨hmem, hlock, hnone⟩
      · exact ⟨Store.acquireAll_locks_keep hs (hheld r hold).1, hrow r hold, hother⟩
      · refine ⟨hlocks _ ?_, hmem, fun write hwrite => ?_⟩
        · rw [Answer.keys, hlock]
          exact List.mem_cons_self
        · rw [hnone] at hwrite
          cases hwrite
    rcases hw with ⟨hnone, rfl⟩ | ⟨write, hwrite, hclash, rfl⟩
    · have hi₂ : Inv pg extra (w₁.setStore s) := hi.setStore hs_serial (hjournal ▸ List.prefix_refl _)
      refine ⟨hi₂, fun t' ht' => ⟨hrely t' ht', rfl, .of_journal hjournal, fun _ h => h⟩,
        hok _ ω a _ hrow hdistinct ha ?_⟩
      refine ⟨hi₂, hmine, hopened.said, .inr ⟨?_, fun r hr => ⟨(hkeep r hr).1, ?_⟩⟩⟩
      · rw [hnone]
        show s.conns t = .active ⟨now, ws ++ []⟩
        rw [List.append_nil]
        exact hs_conn
      · rw [hview]
        exact (hkeep r hr).2.1
    · have hvalid : (rules pg extra).valid (ws.foldl tables.apply s.db) write := by
        have hv := valid_of_run ha hwrite (hl _ ω a write hrow hdistinct ha hwrite) hclash
          (hg.query hallowed htx ha hwrite)
        rw [view_of_active htx] at hv
        rw [hdb]
        exact hv
      have hcovered : ∀ k, tables.schema.touches write k → s.locks k = some t := by
        intro k hk
        apply hlocks
        rw [Answer.keys, hwrite]
        exact List.mem_append_right _ hk
      have hi₂ : Inv pg extra (w₁.setStore (s.write t write)) := by
        refine hi.setStore (hs_serial.write hs_conn hcovered hvalid) ?_
        rw [Store.write_journal, hjournal]
      have hactive₂ : (s.write t write).conns t = .active ⟨now, ws ++ [write]⟩ := by
        rw [Store.write_of_active hs_conn]
        exact Store.setConn_conns_self _ _ _
      have hview₂ : World.view (w₁.setStore (s.write t write)) t =
          tables.apply (w₁.view t) write := by
        rw [view_of_active htx, view_of_active hactive₂, List.foldl_append]
        show tables.apply (ws.foldl tables.apply (s.write t write).db) write = _
        rw [Store.write_db, hdb]
      refine ⟨hi₂, fun t' ht' => ⟨(hrely t' ht').trans ?_, rfl, .of_journal ?_, fun _ h => h⟩,
        hok _ ω a _ hrow hdistinct ha ?_⟩
      · rw [Store.write_of_active hs_conn]
        exact .of_frame rfl (Store.setConn_conns_of_ne ht' _) (fun _ hk => hk) rfl
      · exact (Store.write_journal s t write).trans hjournal
      · refine ⟨hi₂, ?_, hopened.said, .inr ⟨?_, fun r hr => ?_⟩⟩
        · exact (Store.committedBy_of_journal_eq (Store.write_journal _ _ _) t).trans hmine
        · rw [hwrite]
          exact hactive₂
        · obtain ⟨hlock, hmem, huntouched⟩ := hkeep r hr
          refine ⟨(Store.write_locks s t write ▸ hlock), ?_⟩
          rw [hview₂]
          exact (tables.schema.same_apply (huntouched write hwrite) r rfl).mp hmem

end Rules

end ZeroAuth.Tenant
