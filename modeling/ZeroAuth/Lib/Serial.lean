/-
  ZeroAuth.Lib.Serial

  Committed histories of a `TxStore`.

  `Rules` says which writes may be made where, as far as the locks of the write
  decide it.  `Serial` then holds in every reachable store: the committed writes,
  in commit order, are allowed one after the other from the first database on,
  and so are the pending writes of every open transaction after them.  What
  holds after every allowed sequence of writes therefore holds of the database,
  whatever the interleaving was (`Serial.invariant`).
-/

import ZeroAuth.Lib.TxStore

namespace ZeroAuth.Lib

variable {δ κ ω : Type}

/-- Which writes are allowed in which database.  Two databases that agree on what
    the write locks allow it alike and agree on it afterwards. -/
structure Rules (M : Schema δ κ ω) where
  valid : δ → ω → Prop
  valid_congr : ∀ {d d' w}, (∀ k, M.touches w k → M.same k d d') → valid d w → valid d' w
  apply_congr : ∀ {d d' w k}, (∀ k', M.touches w k' → M.same k' d d') → M.same k d d' →
    M.same k (M.apply d w) (M.apply d' w)

namespace Rules

variable {M : Schema δ κ ω} {R : Rules M} {d d' : δ} {w : ω} {ws ws' : List ω}

/-- The writes are allowed one after the other, from `d` on. -/
def Runs (R : Rules M) (d : δ) : List ω → Prop
  | [] => True
  | w :: ws => R.valid d w ∧ R.Runs (M.apply d w) ws

@[simp] theorem runs_nil : R.Runs d [] := trivial

@[simp] theorem runs_cons : R.Runs d (w :: ws) ↔ R.valid d w ∧ R.Runs (M.apply d w) ws := Iff.rfl

theorem runs_append :
    R.Runs d (ws ++ ws') ↔ R.Runs d ws ∧ R.Runs (ws.foldl M.apply d) ws' := by
  induction ws generalizing d with
  | nil => simp
  | cons w ws ih => rw [List.cons_append, runs_cons, runs_cons, ih, and_assoc, List.foldl_cons]

theorem runs_snoc :
    R.Runs d (ws ++ [w]) ↔ R.Runs d ws ∧ R.valid (ws.foldl M.apply d) w := by
  rw [runs_append, runs_cons]
  simp

theorem Runs.congr (h : R.Runs d ws) (hsame : ∀ w ∈ ws, ∀ k, M.touches w k → M.same k d d') :
    R.Runs d' ws := by
  induction ws generalizing d d' with
  | nil => trivial
  | cons w ws ih =>
      have hhead := hsame w List.mem_cons_self
      refine ⟨R.valid_congr hhead h.1, ih h.2 fun w' hw' k hk => ?_⟩
      exact R.apply_congr hhead (hsame w' (List.mem_cons_of_mem _ hw') k hk)

/-- Two databases that agree on what some writes lock agree after them on what they
    agreed on before. -/
theorem same_foldl_congr (R : Rules M) {k : κ} (hsame : ∀ w ∈ ws, ∀ k', M.touches w k' → M.same k' d d')
    (hk : M.same k d d') : M.same k (ws.foldl M.apply d) (ws.foldl M.apply d') := by
  induction ws generalizing d d' with
  | nil => exact hk
  | cons w ws ih =>
      have hhead := hsame w List.mem_cons_self
      refine ih (fun w' hw' k' hk' => ?_) (R.apply_congr hhead hk)
      exact R.apply_congr hhead (hsame w' (List.mem_cons_of_mem _ hw') k' hk')

/-- What every allowed write keeps holds after all of them. -/
theorem Runs.invariant {I : δ → Prop} (h : R.Runs d ws) (hI : I d)
    (hstep : ∀ d w, I d → R.valid d w → I (M.apply d w)) : I (ws.foldl M.apply d) := by
  induction ws generalizing d with
  | nil => exact hI
  | cons w ws ih => exact ih h.2 (hstep d w hI h.1)

end Rules

namespace Store

variable {M : Schema δ κ ω} {R : Rules M} {s s' : Store δ κ ω} {t t' : ℕ} {tx : Tx ω} {w : ω}

/-! ## Several locks at once -/

section Acquire

variable [DecidableEq κ] {ks : List κ}

/-- Take locks one after the other, or none of them while another transaction
    holds one. -/
def acquireAll (s : Store δ κ ω) (t : ℕ) : List κ → Option (Store δ κ ω)
  | [] => some s
  | k :: ks => (s.acquire t k).bind fun s' => s'.acquireAll t ks

theorem acquireAll_frame (h : s.acquireAll t ks = some s') :
    s'.conns = s.conns ∧ s'.db = s.db ∧ s'.journal = s.journal := by
  induction ks generalizing s with
  | nil =>
      cases h
      exact ⟨rfl, rfl, rfl⟩
  | cons k ks ih =>
      obtain ⟨s₁, h₁, h₂⟩ := Option.bind_eq_some_iff.mp h
      obtain ⟨hconns, hdb, hjournal⟩ := ih h₂
      exact ⟨hconns.trans (acquire_conns h₁), hdb.trans (acquire_db h₁),
        hjournal.trans (acquire_journal h₁)⟩

theorem acquireAll_locks_keep (h : s.acquireAll t ks = some s') {k : κ}
    (hk : s.locks k = some t) : s'.locks k = some t := by
  induction ks generalizing s with
  | nil =>
      cases h
      exact hk
  | cons k' ks ih =>
      obtain ⟨s₁, h₁, h₂⟩ := Option.bind_eq_some_iff.mp h
      exact ih h₂ (acquire_locks_keep h₁ hk)

theorem acquireAll_locks (h : s.acquireAll t ks = some s') : ∀ k ∈ ks, s'.locks k = some t := by
  induction ks generalizing s with
  | nil =>
      intro k hk
      cases hk
  | cons k ks ih =>
      obtain ⟨s₁, h₁, h₂⟩ := Option.bind_eq_some_iff.mp h
      intro k' hk'
      rcases List.mem_cons.mp hk' with rfl | hk'
      · exact acquireAll_locks_keep h₂ (acquire_locks_self h₁)
      · exact ih h₂ k' hk'

theorem Locked.acquireAll (hl : s.Locked M) (hc : s.conns t = .active tx)
    (h : s.acquireAll t ks = some s') : s'.Locked M := by
  induction ks generalizing s with
  | nil =>
      cases h
      exact hl
  | cons k ks ih =>
      obtain ⟨s₁, h₁, h₂⟩ := Option.bind_eq_some_iff.mp h
      exact ih (hl.acquire h₁ hc) ((congrFun (acquire_conns h₁) t).trans hc) h₂

theorem rely_acquireAll (hne : t' ≠ t) (h : s.acquireAll t ks = some s') : Rely M t' s s' := by
  induction ks generalizing s with
  | nil =>
      cases h
      exact .refl M t' _
  | cons k ks ih =>
      obtain ⟨s₁, h₁, h₂⟩ := Option.bind_eq_some_iff.mp h
      exact (rely_acquire hne h₁).trans (ih h₂)

end Acquire

/-! ## The invariant -/

/-- The committed writes are allowed in commit order, and the pending writes of
    every open transaction are allowed after them. -/
structure Serial (R : Rules M) (d₀ : δ) (s : Store δ κ ω) : Prop where
  locked : s.Locked M
  history : R.Runs d₀ (s.journal.map Prod.snd)
  db_eq : s.db = (s.journal.map Prod.snd).foldl M.apply d₀
  pending : ∀ {t tx}, s.conns t = .active tx → R.Runs s.db tx.writes

variable {d₀ : δ}

theorem serial_init (R : Rules M) (d₀ : δ) : (init d₀ : Store δ κ ω).Serial R d₀ :=
  { locked := locked_init d₀
    history := trivial
    db_eq := rfl
    pending := fun h => by cases h }

/-- What every allowed write keeps holds of the database. -/
theorem Serial.invariant {I : δ → Prop} (h : s.Serial R d₀) (hI : I d₀)
    (hstep : ∀ d w, I d → R.valid d w → I (M.apply d w)) : I s.db :=
  h.db_eq ▸ h.history.invariant hI hstep

/-- It also holds of what each connection sees. -/
theorem Serial.invariant_view {I : δ → Prop} (h : s.Serial R d₀) (hI : I d₀)
    (hstep : ∀ d w, I d → R.valid d w → I (M.apply d w)) (t : ℕ) : I (s.view M.apply t) := by
  have hdb := h.invariant hI hstep
  unfold view
  split
  · next tx htx => exact (h.pending htx).invariant hdb hstep
  · exact hdb

theorem Serial.begin (h : s.Serial R d₀) (t now : ℕ) : (s.begin t now).Serial R d₀ := by
  refine ⟨h.locked.begin t now, h.history, h.db_eq, fun {t' tx} htx => ?_⟩
  by_cases ht : t' = t
  · subst ht
    cases (begin_conns_self s t' now).symm.trans htx
    trivial
  · exact h.pending ((setConn_conns_of_ne ht _).symm.trans htx)

theorem Serial.drop (h : s.Serial R d₀) (t : ℕ) {c : Conn ω} (hc : ∀ tx, c ≠ .active tx) :
    (s.drop t c).Serial R d₀ := by
  refine ⟨h.locked.drop t hc, h.history, h.db_eq, fun {t' tx} htx => ?_⟩
  have ht : t' ≠ t := by
    rintro rfl
    exact hc tx ((drop_conns_self s t' c).symm.trans htx)
  exact h.pending ((drop_conns_of_ne ht c).symm.trans htx)

theorem Serial.acquireAll [DecidableEq κ] {ks : List κ} (h : s.Serial R d₀)
    (hc : s.conns t = .active tx) (ha : s.acquireAll t ks = some s') : s'.Serial R d₀ := by
  obtain ⟨hconns, hdb, hjournal⟩ := acquireAll_frame ha
  refine ⟨h.locked.acquireAll hc ha, hjournal ▸ h.history, ?_, fun {t' tx'} htx' => ?_⟩
  · rw [hdb, hjournal]
    exact h.db_eq
  · rw [hdb]
    exact h.pending ((congrFun hconns t').symm.trans htx')

/-- A write whose locks are held and that is allowed after the transaction's
    earlier writes. -/
theorem Serial.write (h : s.Serial R d₀) (hc : s.conns t = .active tx)
    (hw : ∀ k, M.touches w k → s.locks k = some t)
    (hv : R.valid (tx.writes.foldl M.apply s.db) w) : (s.write t w).Serial R d₀ := by
  refine ⟨h.locked.write hc hw, ?_, ?_, fun {t' tx'} htx' => ?_⟩
  · rw [write_journal]
    exact h.history
  · rw [write_db, write_journal]
    exact h.db_eq
  · rw [write_db]
    rw [write_of_active hc] at htx'
    by_cases ht : t' = t
    · subst ht
      cases (setConn_conns_self _ _ _).symm.trans htx'
      exact Rules.runs_snoc.mpr ⟨h.pending hc, hv⟩
    · exact h.pending ((setConn_conns_of_ne ht _).symm.trans htx')

/-- A commit appends the transaction's writes to the history.  No other open
    transaction has locked anything that they touch. -/
theorem Serial.commit (h : s.Serial R d₀) (hc : s.conns t = .active tx) :
    (s.commit M.apply t).Serial R d₀ := by
  have hlocked := h.locked.commit hc
  rw [commit_of_active hc] at hlocked ⊢
  have hmap : (s.journal ++ tx.writes.map fun w => (t, w)).map Prod.snd =
      s.journal.map Prod.snd ++ tx.writes := by
    simp [Function.comp_def]
  refine ⟨hlocked, ?_, ?_, fun {t' tx'} htx' => ?_⟩
  · rw [hmap]
    exact Rules.runs_append.mpr ⟨h.history, h.db_eq ▸ h.pending hc⟩
  · show tx.writes.foldl M.apply s.db = _
    rw [hmap, List.foldl_append, ← h.db_eq]
  · have ht : t' ≠ t := by
      rintro rfl
      cases (drop_conns_self s t' .idle).symm.trans htx'
    have htx := (drop_conns_of_ne ht .idle).symm.trans htx'
    refine (h.pending htx).congr fun w hw k hk => M.same_foldl fun w' hw' hk' => ht ?_
    have h₁ := h.locked.covered htx w hw k hk
    have h₂ := h.locked.covered hc w' hw' k hk'
    exact Option.some.inj (h₁.symm.trans h₂)

/-- So does a single statement outside a transaction, once nobody holds the locks
    it needs. -/
theorem Serial.autocommit (h : s.Serial R d₀) (t : ℕ) (hw : ∀ k, M.touches w k → s.locks k = none)
    (hv : R.valid s.db w) : (s.autocommit M.apply t w).Serial R d₀ := by
  have hmap : (s.journal ++ [(t, w)]).map Prod.snd = s.journal.map Prod.snd ++ [w] := by simp
  refine ⟨h.locked.autocommit t w, ?_, ?_, fun {t' tx'} htx' => ?_⟩
  · show R.Runs d₀ ((s.journal ++ [(t, w)]).map Prod.snd)
    rw [hmap]
    exact Rules.runs_snoc.mpr ⟨h.history, h.db_eq ▸ hv⟩
  · show M.apply s.db w = ((s.journal ++ [(t, w)]).map Prod.snd).foldl M.apply d₀
    rw [hmap, List.foldl_append, ← h.db_eq]
    rfl
  · refine (h.pending htx').congr fun w' hw' k hk => M.same_apply fun hk' => ?_
    have hfree := hw k hk'
    rw [h.locked.covered htx' w' hw' k hk] at hfree
    cases hfree

end Store

end ZeroAuth.Lib
