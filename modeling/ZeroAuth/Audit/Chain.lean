/-
  ZeroAuth.Audit.Chain

  The audit chains of all tenants under concurrent appends.

  `Linear l u e` says that the rows of tenant `u` and environment `e`, as they
  stand in `l`, are in id order and form one hash chain from `'genesis'`.  The
  invariant `ChainInv` asks this of what every connection sees, its own
  uncommitted row included, so that a COMMIT at any moment keeps it.  It rests
  on the lock: `lockKey` assigns to every tenant the advisory lock that the
  calls naming it take, and two transactions with rows of one tenant would both
  hold that lock.
-/

import ZeroAuth.Audit.System

namespace ZeroAuth.Audit

open ZeroAuth.Lib ZeroAuth.Lib.HashChain ZeroAuth.Js ZeroAuth.Pg

/-- The rows of one chain, in the order of the list. -/
def rowsOf (l : List AuditRow) (u : Uuid) (e : Option JsString) : List AuditRow :=
  l.filter fun r => r.tenantId = u ∧ r.environment = e

/-- The end of a chain: the last event hash, or `'genesis'`. -/
def chainHead (l : List AuditRow) (u : Uuid) (e : Option JsString) : Option JsString :=
  headOf AuditRow.eventHash (some genesisPreviousHash) (rowsOf l u e)

/-- One list: ids increase, the first row names `'genesis'` and every later row
    the event hash of the row before it. -/
structure Linear (l : List AuditRow) (u : Uuid) (e : Option JsString) : Prop where
  sorted : (rowsOf l u e).Pairwise fun r s => r.id < s.id
  linked : Linked AuditRow.previousHash AuditRow.eventHash (some genesisPreviousHash)
    (rowsOf l u e)

/-- A table whose chains are all linear, whose ids come from a sequence that
    stands at `nextId`, and whose rows all satisfy `okRow`. -/
structure TableOk (okRow : AuditRow → Prop) (nextId : ℕ) (l : List AuditRow) : Prop where
  linear : ∀ u e, Linear l u e
  ids : ∀ r ∈ l, r.id < nextId
  rows : ∀ r ∈ l, okRow r

/-! ## Tables -/

section Table

variable {okRow : AuditRow → Prop} {l ws ws' : List AuditRow} {n : ℕ} {u : Uuid}
  {e : Option JsString}

@[simp] theorem rowsOf_append (l l' : List AuditRow) (u : Uuid) (e : Option JsString) :
    rowsOf (l ++ l') u e = rowsOf l u e ++ rowsOf l' u e := List.filter_append ..

theorem rowsOf_eq_nil (h : ∀ r ∈ l, r.tenantId ≠ u) : rowsOf l u e = [] := by
  rw [rowsOf, List.filter_eq_nil_iff]
  intro r hr
  simp [h r hr]

theorem mem_rowsOf {r : AuditRow} (h : r ∈ rowsOf l u e) :
    r ∈ l ∧ r.tenantId = u ∧ r.environment = e := by
  simpa [rowsOf] using h

theorem foldl_addRow (l ws : List AuditRow) : ws.foldl addRow l = l ++ ws := by
  induction ws generalizing l with
  | nil => simp
  | cons w ws ih => rw [List.foldl_cons, ih, addRow, List.append_assoc, List.singleton_append]

theorem TableOk.nil (okRow : AuditRow → Prop) (n : ℕ) : TableOk okRow n [] :=
  ⟨fun _ _ => ⟨.nil, trivial⟩, by simp, by simp⟩

theorem TableOk.mono {m : ℕ} (h : TableOk okRow n l) (hnm : n ≤ m) : TableOk okRow m l :=
  ⟨h.linear, fun r hr => (h.ids r hr).trans_le hnm, h.rows⟩

theorem Linear.append_row {r : AuditRow} (h : Linear l u e) (hid : ∀ s ∈ l, s.id < r.id)
    (hlink : r.tenantId = u → r.environment = e → r.previousHash = chainHead l u e) :
    Linear (l ++ [r]) u e := by
  by_cases hr : r.tenantId = u ∧ r.environment = e
  · have hrows : rowsOf (l ++ [r]) u e = rowsOf l u e ++ [r] := by
      simp [rowsOf, hr]
    refine ⟨?_, ?_⟩
    · rw [hrows, List.pairwise_append]
      refine ⟨h.sorted, List.pairwise_singleton _ _, fun s hs r' hr' => ?_⟩
      obtain rfl := List.mem_singleton.mp hr'
      exact hid s (mem_rowsOf hs).1
    · rw [hrows, linked_append_singleton]
      exact ⟨h.linked, hlink hr.1 hr.2⟩
  · have hrows : rowsOf (l ++ [r]) u e = rowsOf l u e := by
      simp [rowsOf, hr]
    exact ⟨hrows ▸ h.sorted, hrows ▸ h.linked⟩

/-- A row with the next id that names the end of its chain. -/
theorem TableOk.append_row {r : AuditRow} (h : TableOk okRow n l) (hid : r.id = n)
    (hlink : r.previousHash = chainHead l r.tenantId r.environment) (hr : okRow r) :
    TableOk okRow (n + 1) (l ++ [r]) := by
  refine ⟨fun u e => (h.linear u e).append_row (fun s hs => hid ▸ h.ids s hs) ?_,
    fun s hs => ?_, fun s hs => ?_⟩
  · rintro rfl rfl
    exact hlink
  · rcases List.mem_append.mp hs with hs | hs
    · exact (h.ids s hs).trans (Nat.lt_succ_self n)
    · obtain rfl := List.mem_singleton.mp hs
      omega
  · rcases List.mem_append.mp hs with hs | hs
    · exact h.rows s hs
    · obtain rfl := List.mem_singleton.mp hs
      exact hr

/-- Two batches of rows without a common tenant can be added one after the
    other when each alone can. -/
theorem TableOk.merge (h : TableOk okRow n (l ++ ws)) (h' : TableOk okRow n (l ++ ws'))
    (hdisj : ∀ u, (∀ r ∈ ws, r.tenantId ≠ u) ∨ ∀ r ∈ ws', r.tenantId ≠ u) :
    TableOk okRow n (l ++ ws ++ ws') := by
  refine ⟨fun u e => ?_, fun r hr => ?_, fun r hr => ?_⟩
  · rcases hdisj u with hu | hu
    · have hrows : rowsOf (l ++ ws ++ ws') u e = rowsOf (l ++ ws') u e := by
        simp [rowsOf_eq_nil hu]
      exact ⟨hrows ▸ (h'.linear u e).sorted, hrows ▸ (h'.linear u e).linked⟩
    · have hrows : rowsOf (l ++ ws ++ ws') u e = rowsOf (l ++ ws) u e := by
        simp [rowsOf_eq_nil hu]
      exact ⟨hrows ▸ (h.linear u e).sorted, hrows ▸ (h.linear u e).linked⟩
  · rcases List.mem_append.mp hr with hr | hr
    · exact h.ids r hr
    · exact h'.ids r (List.mem_append_right _ hr)
  · rcases List.mem_append.mp hr with hr | hr
    · exact h.rows r hr
    · exact h'.rows r (List.mem_append_right _ hr)

/-- In a linear chain the id order is the order of the table. -/
theorem Linear.chainOf_eq (h : Linear l u e) : chainOf l u e = rowsOf l u e :=
  List.Pairwise.insertionSort_eq (h.sorted.imp le_of_lt)

/-- `fetchPreviousHash` reads the end of the chain. -/
theorem Linear.headHash_getD (h : Linear l u e) (hl : ∀ r ∈ l, r.eventHash.isSome) :
    some ((headHash l u e).getD genesisPreviousHash) = chainHead l u e := by
  rw [headHash, h.chainOf_eq, chainHead]
  obtain hnil | ⟨rs, r, hrs⟩ := List.eq_nil_or_concat (rowsOf l u e)
  · rw [hnil]
    rfl
  · rw [List.concat_eq_append] at hrs
    have hr : r ∈ l := (mem_rowsOf (u := u) (e := e) (l := l) (by simp [hrs])).1
    obtain ⟨x, hx⟩ := Option.isSome_iff_exists.mp (hl r hr)
    rw [hrs, headOf_append_singleton, List.filterMap_append, List.filterMap_cons, hx]
    simp

end Table

/-! ## The invariant over open transactions -/

/-- The table as a store: a row is protected by the lock of its tenant. -/
def schema (lockKey : Uuid → ℤ) : Schema (List AuditRow) ℤ AuditRow where
  apply := addRow
  touches r k := lockKey r.tenantId = k
  same k d d' := (d'.filter fun r => lockKey r.tenantId = k) = d.filter fun r => lockKey r.tenantId = k
  same_refl _ _ := rfl
  same_trans h₁ h₂ := h₂.trans h₁
  same_apply {k d w} h := by simp [addRow, h]

/-- What a connection sees is a sound table, for every connection and for the
    committed rows, and every pending row is covered by its tenant's lock. -/
structure ChainInv (lockKey : Uuid → ℤ) (okRow : AuditRow → Prop) (w : World) : Prop where
  locked : w.store.Locked (schema lockKey)
  committed : TableOk okRow w.nextId w.store.db
  seen : ∀ t tx, w.store.conns t = .active tx →
    TableOk okRow w.nextId (w.store.db ++ tx.writes)

section Invariant

variable {lockKey : Uuid → ℤ} {okRow : AuditRow → Prop} {w : World} {t t' : ℕ} {tx : Tx AuditRow}

/-- What is protected by a tenant's lock determines the tenant's chains. -/
theorem rowsOf_eq_of_same {d d' : List AuditRow} {u : Uuid}
    (h : (schema lockKey).same (lockKey u) d d') (e : Option JsString) :
    rowsOf d' u e = rowsOf d u e := by
  have hcut : ∀ l : List AuditRow,
      rowsOf l u e = rowsOf (l.filter fun r => lockKey r.tenantId = lockKey u) u e := by
    intro l
    rw [rowsOf, rowsOf, List.filter_filter]
    refine List.filter_congr fun r _ => ?_
    by_cases hr : r.tenantId = u <;> simp [hr]
  have hsame : (d'.filter fun r => lockKey r.tenantId = lockKey u) =
      d.filter fun r => lockKey r.tenantId = lockKey u := h
  rw [hcut d', hsame, ← hcut d]

theorem ChainInv.begin (h : ChainInv lockKey okRow w) (t : ℕ) :
    ChainInv lockKey okRow (w.setStore (w.store.begin t w.clock)) := by
  refine ⟨h.locked.begin t _, h.committed, fun t' tx' htx' => ?_⟩
  by_cases ht : t' = t
  · subst ht
    cases (Store.begin_conns_self w.store t' w.clock).symm.trans htx'
    exact (List.append_nil w.store.db).symm ▸ h.committed
  · exact h.seen t' tx' ((Store.setConn_conns_of_ne ht _).symm.trans htx')

theorem ChainInv.drop (h : ChainInv lockKey okRow w) (t : ℕ) {c : Conn AuditRow}
    (hc : ∀ tx, c ≠ .active tx) : ChainInv lockKey okRow (w.setStore (w.store.drop t c)) := by
  refine ⟨h.locked.drop t hc, h.committed, fun t' tx' htx' => ?_⟩
  by_cases ht : t' = t
  · subst ht
    exact absurd ((Store.drop_conns_self w.store t' c).symm.trans htx') (hc tx')
  · exact h.seen t' tx' ((Store.drop_conns_of_ne ht c).symm.trans htx')

theorem ChainInv.acquire (h : ChainInv lockKey okRow w) (htx : w.store.conns t = .active tx)
    {k : ℤ} {s : Store (List AuditRow) ℤ AuditRow} (ha : w.store.acquire t k = some s) :
    ChainInv lockKey okRow (w.setStore s) := by
  have hdb := Store.acquire_db ha
  have hconns := Store.acquire_conns ha
  refine ⟨h.locked.acquire ha htx, hdb.symm ▸ h.committed, fun t' tx' htx' => ?_⟩
  have := h.seen t' tx' (hconns ▸ htx')
  exact hdb.symm ▸ this

/-- A new row of a tenant whose lock is held, naming the end of its chain. -/
theorem ChainInv.insert (h : ChainInv lockKey okRow w) (htx : w.store.conns t = .active tx)
    {r : AuditRow} (hid : r.id = w.nextId) (hlock : w.store.locks (lockKey r.tenantId) = some t)
    (hlink : r.previousHash = chainHead (w.store.db ++ tx.writes) r.tenantId r.environment)
    (hr : okRow r) :
    ChainInv lockKey okRow
      { w.setStore (w.store.write t r) with nextId := w.nextId + 1 } := by
  refine ⟨h.locked.write htx fun k hk => ?_, ?_, fun t' tx' htx' => ?_⟩
  · obtain rfl : lockKey r.tenantId = k := hk
    exact hlock
  · exact (Store.write_db w.store t r).symm ▸ h.committed.mono (Nat.le_succ _)
  · show TableOk okRow (w.nextId + 1) ((w.store.write t r).db ++ tx'.writes)
    rw [Store.write_db]
    have hconns : (w.store.write t r).conns t' = .active tx' := htx'
    rw [Store.write_of_active htx] at hconns
    by_cases ht : t' = t
    · subst ht
      cases (Store.setConn_conns_self _ _ _).symm.trans hconns
      rw [← List.append_assoc]
      exact (h.seen t' tx htx).append_row hid hlink hr
    · exact (h.seen t' tx' ((Store.setConn_conns_of_ne ht _).symm.trans hconns)).mono
        (Nat.le_succ _)

/-- A COMMIT adds the transaction's rows below those of every other open
    transaction; no two of them have rows of the same tenant. -/
theorem ChainInv.commit (h : ChainInv lockKey okRow w) (htx : w.store.conns t = .active tx) :
    ChainInv lockKey okRow (w.setStore (w.store.commit addRow t)) := by
  have hdb : (w.store.commit addRow t).db = w.store.db ++ tx.writes := by
    rw [Store.commit_of_active htx, foldl_addRow]
  refine ⟨h.locked.commit htx, ?_, fun t' tx' htx' => ?_⟩
  · show TableOk okRow w.nextId (w.store.commit addRow t).db
    rw [hdb]
    exact h.seen t tx htx
  · show TableOk okRow w.nextId ((w.store.commit addRow t).db ++ tx'.writes)
    have hconns : (w.store.commit addRow t).conns t' = .active tx' := htx'
    rw [Store.commit_of_active htx] at hconns
    by_cases ht : t' = t
    · subst ht
      cases (Store.drop_conns_self w.store t' .idle).symm.trans hconns
    · have hold := (Store.drop_conns_of_ne (s := w.store) ht .idle).symm.trans hconns
      rw [hdb]
      refine (h.seen t tx htx).merge (h.seen t' tx' hold) fun u => ?_
      by_contra hboth
      push Not at hboth
      obtain ⟨⟨r, hr, hru⟩, r', hr', hru'⟩ := hboth
      have h₁ := h.locked.covered htx r hr _ rfl
      have h₂ := h.locked.covered hold r' hr' _ rfl
      rw [hru] at h₁
      rw [hru', h₁] at h₂
      exact ht (Option.some.inj h₂).symm

end Invariant

/-! ## One call at a time -/

theorem env_ok {lockKey : Uuid → ℤ} {okRow : AuditRow → Prop} {e : Env} {w w' : World}
    (h : ChainInv lockKey okRow w) (he : env e w = some w') :
    ChainInv lockKey okRow w' ∧ ∀ t, Store.Rely (schema lockKey) t w.store w'.store := by
  cases e with
  | tick ms =>
      cases he
      exact ⟨⟨h.locked, h.committed, h.seen⟩, fun t => .refl _ t _⟩
  | cut t =>
      simp only [env] at he
      split at he
      · next tx htx =>
          cases he
          exact ⟨h.drop t fun tx => by simp, fun t' => Store.rely_cut htx t'⟩
      · cases he
        exact ⟨h, fun t' => .refl _ t' _⟩

/-- The rules of the game: chains are sound, and what a transaction has locked
    stays as it is. -/
def discipline (pg : Postgres) (lockKey : Uuid → ℤ) (okRow : AuditRow → Prop) :
    Discipline (system pg) where
  inv := ChainInv lockKey okRow
  rely t w w' := Store.Rely (schema lockKey) t w.store w'.store
  fresh t w := w.store.conns t = .idle
  rely_refl t w := .refl _ t _
  rely_trans h₁ h₂ := h₁.trans h₂
  fresh_rely {t w w'} hf hr := (hr.conns_of_not_active fun tx htx => by
    rw [hf] at htx
    cases htx).trans hf
  env_ok := env_ok

section Safety

variable {pg : Postgres} {lockKey : Uuid → ℤ} {okRow : AuditRow → Prop} {t : ℕ} {w : World}

/-- A statement inside a transaction.  The claim about its success is made for
    an open transaction; a failure may end in anything. -/
theorem safe_statement {o : Op} {Q : Except DbError o.Resp → World → Prop} {A : World → Prop}
    {run : World → Tx AuditRow → Option (Except DbError o.Resp × World)}
    (hexec : ∀ ω w, exec pg t o ω w = inTransaction t ω w (run w))
    (hstable : ∀ w₁, Store.Rely (schema lockKey) t w.store w₁.store →
      ∀ tx, w₁.store.conns t = .active tx → A w₁)
    (hrun : ∀ w₁ tx r w₂, ChainInv lockKey okRow w₁ → A w₁ → w₁.store.conns t = .active tx →
      run w₁ tx = some (r, w₂) → ChainInv lockKey okRow w₂ ∧
        (∀ t', t' ≠ t → Store.Rely (schema lockKey) t' w₁.store w₂.store) ∧ Q r w₂)
    (herr : ∀ e w₂, Q (.error e) w₂) :
    (discipline pg lockKey okRow).Safe t Q (Prog.perform (S := sig) o) w := by
  refine Discipline.safe_perform fun w₁ hi hr ω r w₂ hx => ?_
  have hx' : inTransaction t ω w₁ (run w₁) = some (r, w₂) := (hexec ω w₁).symm.trans hx
  unfold inTransaction at hx'
  split at hx'
  · next tx htx => exact hrun w₁ tx r w₂ hi (hstable w₁ hr tx htx) htx hx'
  · cases hx'
    exact ⟨hi.drop t fun tx => by simp, fun t' ht' => Store.rely_drop ht' _, herr _ _⟩
  · cases hx'
    exact ⟨hi, fun t' _ => .refl _ t' _, herr _ _⟩
  · cases hx'
    exact ⟨hi, fun t' _ => .refl _ t' _, herr _ _⟩

/-- Statements that touch neither the table nor the transaction. -/
theorem safe_pure {o : Op} {Q : Except DbError o.Resp → World → Prop}
    (hexec : ∀ ω w r w', exec pg t o ω w = some (r, w') →
      w'.store = w.store ∧ w'.nextId = w.nextId)
    (hq : ∀ w₁ ω r w₂, ChainInv lockKey okRow w₁ →
      Store.Rely (schema lockKey) t w.store w₁.store → exec pg t o ω w₁ = some (r, w₂) → Q r w₂) :
    (discipline pg lockKey okRow).Safe t Q (Prog.perform (S := sig) o) w := by
  refine Discipline.safe_perform fun w₁ hi hr ω r w₂ hx => ?_
  obtain ⟨hs, hn⟩ := hexec ω w₁ r w₂ hx
  refine ⟨⟨hs ▸ hi.locked, hs ▸ hn ▸ hi.committed, hs ▸ hn ▸ hi.seen⟩, fun t' _ => ?_,
    hq w₁ ω r w₂ hi hr hx⟩
  exact (hs ▸ .refl _ t' _ : Store.Rely (schema lockKey) t' w₁.store w₂.store)

/-- Leaving a transaction is always in order. -/
theorem safe_rollback (err : DbError) :
    (discipline pg lockKey okRow).Safe t (fun _ _ => True)
      (do (Prog.perform (S := sig) .rollback).tryCatch fun _ => pure ()
          throw err : Program Appended) w := by
  refine Discipline.safe_bind (Discipline.safe_tryCatch (Discipline.safe_perform ?_))
  intro w₁ hi _ ω r w₂ hx
  have hw : w₂ = w₁.setStore (w₁.store.drop t .idle) := by
    cases ω <;> exact (Prod.mk.inj (Option.some.inj hx)).2.symm
  subst hw
  refine ⟨hi.drop t fun tx => by simp, fun t' ht' => Store.rely_drop ht' _, ?_⟩
  cases r <;> trivial

/-- The open transaction of `t`, if there is one, has written nothing. -/
def Begun (t : ℕ) (w : World) : Prop :=
  ∀ tx, w.store.conns t = .active tx → tx.writes = []

/-- It also holds the lock of the tenant that `text` names. -/
def HoldsLock (lockKey : Uuid → ℤ) (t : ℕ) (text : JsString) (w : World) : Prop :=
  ∀ tx, w.store.conns t = .active tx → tx.writes = [] ∧
    ∀ u, Uuid.parse text = some u → w.store.locks (lockKey u) = some t

/-- It also knows the end of the chain. -/
def KnowsHead (lockKey : Uuid → ℤ) (t : ℕ) (text : JsString) (e : Option JsString)
    (previousHash : JsString) (w : World) : Prop :=
  ∀ tx, w.store.conns t = .active tx → tx.writes = [] ∧
    ∀ u, Uuid.parse text = some u → w.store.locks (lockKey u) = some t ∧
      some previousHash = chainHead w.store.db u e

variable {w' : World}

theorem Begun.stable (h : Begun t w) (hr : Store.Rely (schema lockKey) t w.store w'.store) :
    Begun t w' :=
  fun tx htx => h tx (hr.of_active htx).1

theorem HoldsLock.stable {text : JsString} (h : HoldsLock lockKey t text w)
    (hr : Store.Rely (schema lockKey) t w.store w'.store) : HoldsLock lockKey t text w' := by
  intro tx htx
  obtain ⟨hold, hlocks⟩ := hr.of_active htx
  obtain ⟨hw, hl⟩ := h tx hold
  exact ⟨hw, fun u hu => (hlocks _ (hl u hu)).1⟩

theorem KnowsHead.stable {text : JsString} {e : Option JsString} {previousHash : JsString}
    (h : KnowsHead lockKey t text e previousHash w)
    (hr : Store.Rely (schema lockKey) t w.store w'.store) :
    KnowsHead lockKey t text e previousHash w' := by
  intro tx htx
  obtain ⟨hold, hlocks⟩ := hr.of_active htx
  obtain ⟨hw, hu⟩ := h tx hold
  refine ⟨hw, fun u hparse => ?_⟩
  obtain ⟨hl, hhead⟩ := hu u hparse
  obtain ⟨hl', hsame⟩ := hlocks _ hl
  exact ⟨hl', by rw [hhead, chainHead, chainHead, rowsOf_eq_of_same hsame]⟩

/-- The calls that the invariant allows: the tenant's lock is the one its id
    text hashes to, and the row that is written satisfies `okRow`. -/
structure OkAppend (pg : Postgres) (lockKey : Uuid → ℤ) (okRow : AuditRow → Prop)
    (payload : ChainedAuditPayload) : Prop where
  key : ∀ u, Uuid.parse payload.tenantId = some u → pg.hashtext payload.tenantId = lockKey u
  row : ∀ u m previousHash id now, Uuid.parse payload.tenantId = some u →
    payload.metadata.toJson = some m →
    okRow ((insertValues payload previousHash (computeEventHash payload previousHash)).row
      pg id now u m)

section Statements

variable {payload : ChainedAuditPayload} {text : JsString} {e : Option JsString}

theorem safe_begin {Q : Except DbError Unit → World → Prop} (hfresh : w.store.conns t = .idle)
    (hq : ∀ w', Begun t w' → Q (.ok ()) w') (herr : ∀ err w', Q (.error err) w') :
    (discipline pg lockKey okRow).Safe t Q (Prog.perform (S := sig) .begin) w := by
  refine Discipline.safe_perform fun w₁ hi hr ω r w₂ hx => ?_
  have hidle : w₁.store.conns t = .idle := (discipline pg lockKey okRow).fresh_rely hfresh hr
  cases ω with
  | proceed =>
      have hx' : some (.ok (), w₁.setStore (w₁.store.begin t w₁.clock)) = some (r, w₂) := by
        simpa only [exec, hidle] using hx
      cases hx'
      refine ⟨hi.begin t, fun t' ht' => Store.rely_begin ht' _, hq _ fun tx htx => ?_⟩
      cases (Store.begin_conns_self w₁.store t w₁.clock).symm.trans htx
      rfl
  | fail err =>
      cases hx
      exact ⟨hi, fun t' _ => .refl _ t' _, herr _ _⟩

theorem safe_advisoryXactLock {Q : Except DbError Unit → World → Prop} (h : Begun t w)
    (hkey : ∀ u, Uuid.parse text = some u → pg.hashtext text = lockKey u)
    (hq : ∀ w', HoldsLock lockKey t text w' → Q (.ok ()) w')
    (herr : ∀ err w', Q (.error err) w') :
    (discipline pg lockKey okRow).Safe t Q (Prog.perform (S := sig) (.advisoryXactLock text)) w := by
  refine safe_statement (A := Begun t) (fun ω w => rfl) (fun w₁ hr _ _ => h.stable hr) ?_ herr
  intro w₁ tx r w₂ hi hA htx hx
  obtain ⟨s, hs, heq⟩ := Option.map_eq_some_iff.mp hx
  cases heq
  refine ⟨hi.acquire htx hs, fun t' ht' => Store.rely_acquire ht' hs, hq _ fun tx' htx' => ?_⟩
  have hconns : w₁.store.conns t = .active tx' := Store.acquire_conns hs ▸ htx'
  exact ⟨hA tx' hconns, fun u hu => hkey u hu ▸ Store.acquire_locks_self hs⟩

theorem safe_fetchPreviousHash {Q : Except DbError JsString → World → Prop}
    (hhash : ∀ r, okRow r → r.eventHash.isSome) (h : HoldsLock lockKey t text w)
    (hq : ∀ x w', KnowsHead lockKey t text e x w' → Q (.ok x) w')
    (herr : ∀ err w', Q (.error err) w') :
    (discipline pg lockKey okRow).Safe t Q (fetchPreviousHash text e) w := by
  refine Discipline.safe_bind (safe_statement (A := HoldsLock lockKey t text) (fun ω w => rfl)
    (fun w₁ hr _ _ => h.stable hr) ?_ fun err w' => herr err w')
  intro w₁ tx r w₂ hi hA htx hx
  split at hx
  · next u hu =>
      cases hx
      refine ⟨hi, fun t' _ => .refl _ t' _, hq _ _ fun tx' htx' => ?_⟩
      obtain ⟨hwrites, hlock⟩ := hA tx' htx'
      refine ⟨hwrites, fun u' hu' => ⟨hlock u' hu', ?_⟩⟩
      have hview : w₁.store.view addRow t = w₁.store.db := by
        simp only [Store.view, htx', hwrites, List.foldl_nil]
      rw [hu] at hu'
      cases hu'
      rw [hview]
      exact (hi.committed.linear u e).headHash_getD fun r hr => hhash r (hi.committed.rows r hr)
  · cases hx
    exact ⟨hi.drop t fun tx => by simp, fun t' ht' => Store.rely_drop ht' _, herr _ _⟩

theorem safe_insert {Q : Except DbError JsString → World → Prop} {x : JsString}
    (hok : OkAppend pg lockKey okRow payload)
    (h : KnowsHead lockKey t payload.tenantId payload.environment x w)
    (hq : ∀ id w', Q (.ok id) w') (herr : ∀ err w', Q (.error err) w') :
    (discipline pg lockKey okRow).Safe t Q (Prog.perform (S := sig)
      (.insert (insertValues payload x (computeEventHash payload x)))) w := by
  refine safe_statement (fun ω w => rfl) (fun w₁ hr _ _ => h.stable hr) ?_ herr
  intro w₁ tx r w₂ hi hA htx hx
  split at hx
  · next u m hu hm =>
      cases hx
      obtain ⟨hwrites, hknown⟩ := hA tx htx
      obtain ⟨hlock, hprev⟩ := hknown u hu
      refine ⟨hi.insert htx rfl hlock ?_ (hok.row u m _ _ _ hu hm),
        fun t' ht' => Store.rely_write ht' _, hq _ _⟩
      rw [hwrites, List.append_nil]
      exact hprev
  · cases hx
    exact ⟨hi.drop t fun tx => by simp, fun t' ht' => Store.rely_drop ht' _, herr _ _⟩
  · cases hx
    exact ⟨hi.drop t fun tx => by simp, fun t' ht' => Store.rely_drop ht' _, herr _ _⟩

theorem safe_commit {Q : Except DbError Unit → World → Prop} (hq : ∀ out w', Q out w') :
    (discipline pg lockKey okRow).Safe t Q (Prog.perform (S := sig) .commit) w := by
  refine safe_statement (A := fun _ => True) (fun ω w => rfl) (fun _ _ _ _ => trivial) ?_
    fun err w' => hq _ w'
  intro w₁ tx r w₂ hi _ htx hx
  cases hx
  exact ⟨hi.commit htx, fun t' ht' => Store.rely_commit hi.locked ht' htx, hq _ _⟩

theorem safe_emit {Q : Except DbError Unit → World → Prop} {event : VerificationEvent}
    (hq : ∀ out w', Q out w') :
    (discipline pg lockKey okRow).Safe t Q (Prog.perform (S := sig) (.emit event)) w := by
  refine safe_pure (fun ω w r w' hx => ?_) fun _ _ r w' _ _ _ => hq r w'
  cases hx
  exact ⟨rfl, rfl⟩

end Statements

theorem safe_appendBody {payload : ChainedAuditPayload} {Q : Except DbError Appended → World → Prop}
    (hok : OkAppend pg lockKey okRow payload) (hhash : ∀ r, okRow r → r.eventHash.isSome)
    (hfresh : w.store.conns t = .idle) (hQ : ∀ out w, Q out w) :
    (discipline pg lockKey okRow).Safe t Q (appendBody payload) w := by
  refine Discipline.safe_bind (safe_begin hfresh (fun w₁ hbegun => ?_) fun _ _ => hQ _ _)
  refine Discipline.safe_bind (safe_advisoryXactLock hbegun hok.key (fun w₂ hlock => ?_)
    fun _ _ => hQ _ _)
  refine Discipline.safe_bind (safe_fetchPreviousHash hhash hlock (fun x w₃ hhead => ?_)
    fun _ _ => hQ _ _)
  refine Discipline.safe_bind (safe_insert hok hhead (fun id w₄ => ?_) fun _ _ => hQ _ _)
  refine Discipline.safe_bind (safe_commit fun out w₅ => ?_)
  cases out with
  | error err => exact hQ _ _
  | ok _ =>
      by_cases hv : isVerificationAction payload.action = true
      · rw [if_pos hv]
        refine Discipline.safe_bind (safe_emit fun out w₆ => ?_)
        cases out <;> exact hQ _ _
      · rw [if_neg hv]
        exact hQ _ _

theorem safe_appendAuditEvent {payload : ChainedAuditPayload}
    (hok : OkAppend pg lockKey okRow payload) (hhash : ∀ r, okRow r → r.eventHash.isSome)
    (hfresh : w.store.conns t = .idle) :
    (discipline pg lockKey okRow).Safe t (fun _ _ => True) (appendAuditEvent payload) w := by
  refine Discipline.safe_bind (safe_pure (fun ω w r w' hx => ?_) fun w₁ ω r w₂ _ hr hx => ?_)
  · cases ω <;> cases hx <;> exact ⟨rfl, rfl⟩
  · have hidle : w₂.store.conns t = .idle := by
      have h₁ : w₁.store.conns t = .idle := (discipline pg lockKey okRow).fresh_rely hfresh hr
      cases ω <;> cases hx <;> exact h₁
    cases r with
    | error err => trivial
    | ok _ =>
        refine Discipline.safe_tryCatch (safe_appendBody hok hhash hidle fun out w₃ => ?_)
        cases out with
        | ok a => trivial
        | error err => exact safe_rollback err

end Safety

end ZeroAuth.Audit
