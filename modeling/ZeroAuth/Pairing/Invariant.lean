/-
  ZeroAuth.Pairing.Invariant

  How the columns of a pairing session go with its state, in every reachable
  configuration.

  `winners log s` lists the claims of session `s` that changed its row.  The
  invariant ties this list to the row: it is empty until the row is consumed and
  then holds exactly the user that the row names.
-/

import ZeroAuth.Pairing.Rows

namespace ZeroAuth.Pairing

open ZeroAuth.Lib ZeroAuth.Js ZeroAuth.Pg ZeroAuth.Audit ZeroAuth.Tenant

/-- The claims that changed the row of session `s`: caller and user. -/
def winners (log : List Event) (s : Uuid) : List (ℕ × Uuid) :=
  log.filterMap fun e => (won e.act).bind fun (id, userId) =>
    if id = s then some (e.caller, userId) else none

/-- How the columns of a row go with its state and its winners. -/
def RowOk (ws : List (ℕ × Uuid)) (r : SessionRow) : Prop :=
  match r.state with
  | .issued => ws = [] ∧ r.consumedUserId = none ∧ r.consumedAt = none ∧
      r.failureCount < maxFailuresBeforeLock
  | .consumed => ∃ t userId, ws = [(t, userId)] ∧ r.consumedUserId = some userId ∧
      r.consumedAt.isSome
  | .expired => ws = [] ∧ r.consumedUserId = none ∧ r.consumedAt = none
  | .failed => ws = [] ∧ r.consumedUserId = none ∧ r.consumedAt = none ∧
      maxFailuresBeforeLock ≤ r.failureCount

/-- Ids are unique, every row is in order, and nobody won a session that does not
    exist. -/
structure SessionsOk (sessions : List SessionRow) (log : List Event) : Prop where
  ids : (sessions.map SessionRow.id).Nodup
  rows : ∀ r ∈ sessions, RowOk (winners log r.id) r
  none : ∀ s, (∀ r ∈ sessions, r.id ≠ s) → winners log s = []

section Rows

variable {ws : List (ℕ × Uuid)} {r : SessionRow}

theorem RowOk.incremented (h : RowOk ws r) (hr : r.state = .issued ∨ r.state = .failed)
    (errorCode : JsString) : RowOk ws (r.incremented errorCode) := by
  by_cases hlock : r.failureCount + 1 ≥ maxFailuresBeforeLock
  · rcases hr with hr | hr
    · simp only [RowOk, hr] at h
      simpa [RowOk, SessionRow.incremented, hlock] using ⟨h.1, h.2.1, h.2.2.1⟩
    · simp only [RowOk, hr] at h
      simpa [RowOk, SessionRow.incremented, hlock] using ⟨h.1, h.2.1, h.2.2.1⟩
  · rcases hr with hr | hr
    · simp only [RowOk, hr] at h
      simp only [RowOk, SessionRow.incremented, hlock, if_false, hr]
      exact ⟨h.1, h.2.1, h.2.2.1, by omega⟩
    · simp only [RowOk, hr] at h
      omega

theorem RowOk.consumedBy (h : RowOk ws r) (hr : r.state = .issued) (t now : ℕ) (userId : Uuid) :
    RowOk (ws ++ [(t, userId)]) (r.consumedBy userId now) := by
  simp only [RowOk, hr] at h
  exact ⟨t, userId, by rw [h.1, List.nil_append], rfl, rfl⟩

theorem RowOk.swept (h : RowOk ws r) (hr : r.state = .issued) : RowOk ws r.swept := by
  simp only [RowOk, hr] at h
  exact ⟨h.1, h.2.1, h.2.2.1⟩

theorem RowOk.withProofHash (h : RowOk ws r) (x : JsString) : RowOk ws (r.withProofHash x) := h

end Rows

section Sessions

variable {w w' : World} {log : List Event} {e : Event} {s : Uuid}

theorem winners_append_of_none (h : won e.act = none) (s : Uuid) :
    winners (log ++ [e]) s = winners log s := by
  simp [winners, h]

theorem winners_append_of_won {id userId : Uuid} (h : won e.act = some (id, userId)) (s : Uuid) :
    winners (log ++ [e]) s = winners log s ++ if id = s then [(e.caller, userId)] else [] := by
  by_cases hs : id = s <;> simp [winners, h, hs]

theorem mem_winners {t : ℕ} {userId : Uuid} :
    (t, userId) ∈ winners log s ↔ ∃ e ∈ log, e.caller = t ∧ won e.act = some (s, userId) := by
  simp only [winners, List.mem_filterMap, Option.bind_eq_some_iff, Option.ite_none_right_eq_some,
    Option.some.injEq, Prod.exists, Prod.mk.injEq]
  constructor
  · rintro ⟨e, he, id, user, hw, rfl, rfl, rfl⟩
    exact ⟨e, he, rfl, hw⟩
  · rintro ⟨e, he, rfl, hw⟩
    exact ⟨e, he, s, userId, hw, rfl, rfl, rfl⟩

theorem update_id {p : SessionRow → Bool} {f : SessionRow → SessionRow}
    (hf : ∀ r, (f r).id = r.id) (r : SessionRow) : (if p r = true then f r else r).id = r.id := by
  split
  · exact hf r
  · rfl

/-- An UPDATE that keeps every row in order. -/
theorem SessionsOk.update {p : SessionRow → Bool} {f : SessionRow → SessionRow} {log' : List Event}
    (h : SessionsOk w.sessions log) (hid : ∀ r, (f r).id = r.id)
    (hrow : ∀ r ∈ w.sessions, RowOk (winners log r.id) r →
      RowOk (winners log' r.id) (if p r = true then f r else r))
    (hnone : ∀ s, (∀ r ∈ w.sessions, r.id ≠ s) → winners log' s = []) :
    SessionsOk (w.update p f).sessions log' := by
  refine ⟨?_, fun r' hr' => ?_, fun s hs => ?_⟩
  · have hmap : (w.update p f).sessions.map SessionRow.id = w.sessions.map SessionRow.id := by
      rw [World.update, List.map_map]
      exact List.map_congr_left fun r _ => update_id hid r
    exact hmap ▸ h.ids
  · obtain ⟨r, hr, rfl⟩ := mem_update.mp hr'
    rw [update_id hid]
    exact hrow r hr (h.rows r hr)
  · refine hnone s fun r hr => ?_
    have := hs _ (mem_update.mpr ⟨r, hr, rfl⟩)
    rwa [update_id hid] at this

/-- Two rows with one id are one row. -/
theorem SessionsOk.unique {sessions : List SessionRow} (h : SessionsOk sessions log)
    {r r' : SessionRow} (hr : r ∈ sessions) (hr' : r' ∈ sessions) (hid : r.id = r'.id) : r = r' :=
  List.inj_on_of_nodup_map h.ids hr hr' hid

/-- The invariant over one operation. -/
theorem SessionsOk.change (h : SessionsOk w.sessions log) (hc : Change w w' e.act) :
    SessionsOk w'.sessions (log ++ [e]) := by
  cases hc with
  | same hs hw =>
      rw [hs]
      refine ⟨h.ids, fun r hr => ?_, fun s hs => ?_⟩
      · rw [winners_append_of_none hw]
        exact h.rows r hr
      · rw [winners_append_of_none hw]
        exact h.none s hs
  | inserted v tenantId apiKeyId hid hs hw =>
      have hnew : winners log v.id = [] := h.none v.id hid
      rw [hs]
      refine ⟨?_, fun r hr => ?_, fun s hs => ?_⟩
      · rw [List.map_append, List.nodup_append]
        refine ⟨h.ids, List.nodup_singleton _, fun x hx y hy => ?_⟩
        obtain ⟨r, hr, rfl⟩ := List.mem_map.mp hx
        obtain rfl := List.mem_singleton.mp hy
        exact hid r hr
      · rw [winners_append_of_none hw]
        rcases List.mem_append.mp hr with hr | hr
        · exact h.rows r hr
        · obtain rfl := List.mem_singleton.mp hr
          exact ⟨hnew, rfl, rfl, Nat.succ_pos 2⟩
      · rw [winners_append_of_none hw]
        exact h.none s fun r hr => hs r (by simp [hr])
  | incremented id errorCode hs hw =>
      rw [hs]
      refine h.update (fun _ => rfl) (fun r _ hrow => ?_) fun s hs => ?_
      · rw [winners_append_of_none hw]
        split
        · next hp => exact hrow.incremented (of_decide_eq_true hp).2 errorCode
        · exact hrow
      · rw [winners_append_of_none hw]
        exact h.none s hs
  | claimed id userId r₀ hr₀ hc hs hw =>
      obtain ⟨hid, hissued⟩ := of_decide_eq_true hc
      rw [hs]
      refine h.update (fun _ => rfl) (fun r hr hrow => ?_) fun s hs => ?_
      · rw [winners_append_of_won hw]
        by_cases hp : r.canClaim id = true
        · obtain ⟨hr_id, hissued⟩ := of_decide_eq_true hp
          rw [if_pos hp, if_pos hr_id.symm]
          exact hrow.consumedBy hissued _ _ _
        · -- another row of this id would be the row that was open
          have hne : id ≠ r.id := by
            rintro rfl
            obtain rfl := h.unique hr hr₀ hid.symm
            exact hp hc
          rw [if_neg hp, if_neg hne, List.append_nil]
          exact hrow
      · rw [winners_append_of_won hw, if_neg fun heq => hs r₀ hr₀ (hid.trans heq),
          List.append_nil]
        exact h.none s hs
  | swept hs hw =>
      rw [hs]
      refine h.update (fun _ => rfl) (fun r _ hrow => ?_) fun s hs => ?_
      · rw [winners_append_of_none hw]
        split
        · next hp => exact hrow.swept (of_decide_eq_true hp).1
        · exact hrow
      · rw [winners_append_of_none hw]
        exact h.none s hs

/-- The invariant over a step of the environment. -/
theorem SessionsOk.env {ev : Env} (h : SessionsOk w.sessions log) (he : env ev w = some w') :
    SessionsOk w'.sessions log := by
  cases ev with
  | tick ms =>
      cases he
      exact h
  | enrol user =>
      cases he
      exact h
  | setPolicy tenantId policy =>
      cases he
      exact h
  | job i succeeds =>
      obtain ⟨job, -, rfl⟩ := Option.map_eq_some_iff.mp he
      cases succeeds with
      | false => exact h
      | true =>
          cases job with
          | audit payload => exact h
          | setProofHash sessionId x =>
              simp only [World.runJob, if_true]
              split
              · refine h.update (fun _ => rfl) (fun r _ hrow => ?_) h.none
                split
                · exact hrow.withProofHash x
                · exact hrow
              · exact h

end Sessions

theorem sessionsOk_of_reach {cfg : Settings} {pg : Jsonb}
    {good : State → Label Call Oracle Env → Prop} {c : State}
    (h : (system cfg pg).Reach Empty good c) : SessionsOk c.world.sessions c.log :=
  System.Reach.world_invariant (I := fun w log => SessionsOk w.sessions log)
    (fun w hw => by rw [hw]; exact ⟨List.nodup_nil, fun r hr => (by cases hr), fun _ _ => rfl⟩)
    (fun w log t o ω r w' hI hx => hI.change (exec_change hx))
    (fun w log e w' hI he => hI.env he) h

end ZeroAuth.Pairing
