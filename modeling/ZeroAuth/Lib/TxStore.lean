/-
  ZeroAuth.Lib.TxStore

  Transactions over a committed database, with locks.

  Every thread has one connection.  An open transaction collects its writes
  privately; they reach the database together when it commits and never
  otherwise.  A lock is held from the moment it is taken until its transaction
  ends.  `Locked` says that every pending write is covered by a lock of its
  own transaction, and `Rely` is what this gives to each transaction: whatever
  other connections do, the parts of the database it has locked stay as they
  are.  A transaction may also be cut off at any moment, which its owner
  notices at the next statement.

  A write is a value of `ω`, interpreted by a `Schema`; the journal lists every
  committed write with the connection it came from, oldest first.
-/

import Mathlib.Logic.Function.Basic
import Mathlib.Data.List.Basic

namespace ZeroAuth.Lib

/-- How writes act on a database and which locks they need. -/
structure Schema (δ κ ω : Type) where
  apply : δ → ω → δ
  touches : ω → κ → Prop
  /-- The two databases agree on everything that lock `k` protects. -/
  same : κ → δ → δ → Prop
  same_refl : ∀ k d, same k d d
  same_trans : ∀ {k d₁ d₂ d₃}, same k d₁ d₂ → same k d₂ d₃ → same k d₁ d₃
  same_apply : ∀ {k d w}, ¬ touches w k → same k d (apply d w)

/-- An open transaction: the time it began and its writes so far. -/
structure Tx (ω : Type) where
  now : ℕ
  writes : List ω

/-- A connection: between transactions, in one, or in one that has failed. -/
inductive Conn (ω : Type)
  | idle
  | active (tx : Tx ω)
  | failed

structure Store (δ κ ω : Type) where
  db : δ
  conns : ℕ → Conn ω
  locks : κ → Option ℕ
  journal : List (ℕ × ω)

variable {δ κ ω : Type}

namespace Schema

variable {M : Schema δ κ ω}

theorem same_foldl {k : κ} {ws : List ω} {d : δ} (h : ∀ w ∈ ws, ¬ M.touches w k) :
    M.same k d (ws.foldl M.apply d) := by
  induction ws generalizing d with
  | nil => exact M.same_refl k d
  | cons w ws ih =>
      exact M.same_trans (M.same_apply (h w (by simp))) (ih fun w' hw' => h w' (by simp [hw']))

end Schema

namespace Store

/-- A database that nobody is connected to. -/
def init (d : δ) : Store δ κ ω := ⟨d, fun _ => .idle, fun _ => none, []⟩

/-- What connection `t` sees: the committed data and its own writes. -/
def view (apply : δ → ω → δ) (s : Store δ κ ω) (t : ℕ) : δ :=
  match s.conns t with
  | .active tx => tx.writes.foldl apply s.db
  | _ => s.db

/-- The committed writes of connection `t`, oldest first. -/
def committedBy (s : Store δ κ ω) (t : ℕ) : List ω :=
  s.journal.filterMap fun e => if e.1 = t then some e.2 else none

def setConn (s : Store δ κ ω) (t : ℕ) (c : Conn ω) : Store δ κ ω :=
  { s with conns := Function.update s.conns t c }

def begin (s : Store δ κ ω) (t now : ℕ) : Store δ κ ω :=
  s.setConn t (.active ⟨now, []⟩)

/-- The transaction of `t` ends without effect; its locks are released. -/
def drop (s : Store δ κ ω) (t : ℕ) (c : Conn ω) : Store δ κ ω :=
  { s.setConn t c with locks := fun k => if s.locks k = some t then none else s.locks k }

/-- Take a lock, or answer `none` while another transaction holds it. -/
def acquire [DecidableEq κ] (s : Store δ κ ω) (t : ℕ) (k : κ) : Option (Store δ κ ω) :=
  if s.locks k = none ∨ s.locks k = some t then
    some { s with locks := Function.update s.locks k (some t) }
  else none

def write (s : Store δ κ ω) (t : ℕ) (w : ω) : Store δ κ ω :=
  match s.conns t with
  | .active tx => s.setConn t (.active { tx with writes := tx.writes ++ [w] })
  | _ => s

/-- All writes of the transaction take effect at once. -/
def commit (apply : δ → ω → δ) (s : Store δ κ ω) (t : ℕ) : Store δ κ ω :=
  match s.conns t with
  | .active tx =>
      { s.drop t .idle with
        db := tx.writes.foldl apply s.db
        journal := s.journal ++ tx.writes.map fun w => (t, w) }
  | _ => s.drop t .idle

/-- A single statement outside any transaction. -/
def autocommit (apply : δ → ω → δ) (s : Store δ κ ω) (t : ℕ) (w : ω) : Store δ κ ω :=
  { s with db := apply s.db w, journal := s.journal ++ [(t, w)] }

@[simp] theorem setConn_conns_self (s : Store δ κ ω) (t : ℕ) (c : Conn ω) :
    (s.setConn t c).conns t = c := by
  simp [setConn]

theorem setConn_conns_of_ne {s : Store δ κ ω} {t t' : ℕ} (h : t' ≠ t) (c : Conn ω) :
    (s.setConn t c).conns t' = s.conns t' := by
  simp [setConn, h]

@[simp] theorem setConn_db (s : Store δ κ ω) (t : ℕ) (c : Conn ω) : (s.setConn t c).db = s.db := rfl

@[simp] theorem setConn_locks (s : Store δ κ ω) (t : ℕ) (c : Conn ω) :
    (s.setConn t c).locks = s.locks := rfl

@[simp] theorem setConn_journal (s : Store δ κ ω) (t : ℕ) (c : Conn ω) :
    (s.setConn t c).journal = s.journal := rfl

@[simp] theorem begin_db (s : Store δ κ ω) (t now : ℕ) : (s.begin t now).db = s.db := rfl

@[simp] theorem begin_journal (s : Store δ κ ω) (t now : ℕ) :
    (s.begin t now).journal = s.journal := rfl

@[simp] theorem begin_conns_self (s : Store δ κ ω) (t now : ℕ) :
    (s.begin t now).conns t = .active ⟨now, []⟩ := setConn_conns_self s t _

@[simp] theorem drop_conns_self (s : Store δ κ ω) (t : ℕ) (c : Conn ω) :
    (s.drop t c).conns t = c := setConn_conns_self s t c

theorem drop_conns_of_ne {s : Store δ κ ω} {t t' : ℕ} (h : t' ≠ t) (c : Conn ω) :
    (s.drop t c).conns t' = s.conns t' := setConn_conns_of_ne h c

@[simp] theorem drop_db (s : Store δ κ ω) (t : ℕ) (c : Conn ω) : (s.drop t c).db = s.db := rfl

@[simp] theorem drop_journal (s : Store δ κ ω) (t : ℕ) (c : Conn ω) :
    (s.drop t c).journal = s.journal := rfl

theorem drop_locks_of_ne {s : Store δ κ ω} {t t' : ℕ} (h : t' ≠ t) {c : Conn ω} {k : κ} :
    (s.drop t c).locks k = some t' ↔ s.locks k = some t' := by
  simp only [drop]
  split
  · next heq => simp [heq, h.symm]
  · rfl

theorem drop_locks_self (s : Store δ κ ω) (t : ℕ) (c : Conn ω) (k : κ) :
    (s.drop t c).locks k ≠ some t := by
  simp only [drop]
  split
  · simp
  · next hne => exact hne

theorem write_of_active {s : Store δ κ ω} {t : ℕ} {tx : Tx ω} (h : s.conns t = .active tx) (w : ω) :
    s.write t w = s.setConn t (.active { tx with writes := tx.writes ++ [w] }) := by
  simp [write, h]

@[simp] theorem write_db (s : Store δ κ ω) (t : ℕ) (w : ω) : (s.write t w).db = s.db := by
  unfold write
  split <;> rfl

@[simp] theorem write_locks (s : Store δ κ ω) (t : ℕ) (w : ω) : (s.write t w).locks = s.locks := by
  unfold write
  split <;> rfl

@[simp] theorem write_journal (s : Store δ κ ω) (t : ℕ) (w : ω) :
    (s.write t w).journal = s.journal := by
  unfold write
  split <;> rfl

theorem commit_of_active {apply : δ → ω → δ} {s : Store δ κ ω} {t : ℕ} {tx : Tx ω}
    (h : s.conns t = .active tx) :
    s.commit apply t =
      { s.drop t .idle with
        db := tx.writes.foldl apply s.db
        journal := s.journal ++ tx.writes.map fun w => (t, w) } := by
  simp [commit, h]

theorem acquire_eq_some [DecidableEq κ] {s s' : Store δ κ ω} {t : ℕ} {k : κ}
    (h : s.acquire t k = some s') :
    (s.locks k = none ∨ s.locks k = some t) ∧
      s' = { s with locks := Function.update s.locks k (some t) } := by
  simp only [acquire] at h
  split at h
  · next hfree => exact ⟨hfree, (Option.some.inj h).symm⟩
  · cases h

theorem mem_committedBy {s : Store δ κ ω} {t : ℕ} {w : ω} :
    w ∈ s.committedBy t ↔ (t, w) ∈ s.journal := by
  simp only [committedBy, List.mem_filterMap, Option.ite_none_right_eq_some, Option.some.injEq]
  constructor
  · rintro ⟨⟨t', w'⟩, hm, rfl, rfl⟩
    exact hm
  · exact fun hm => ⟨_, hm, rfl, rfl⟩

theorem committedBy_of_journal_eq {s s' : Store δ κ ω} (h : s'.journal = s.journal) (t : ℕ) :
    s'.committedBy t = s.committedBy t := by
  simp [committedBy, h]

theorem committedBy_append {s s' : Store δ κ ω} {t : ℕ} {l : List ω}
    (h : s'.journal = s.journal ++ l.map fun w => (t, w)) (t' : ℕ) :
    s'.committedBy t' = if t' = t then s.committedBy t ++ l else s.committedBy t' := by
  simp only [committedBy, h, List.filterMap_append, List.filterMap_map]
  by_cases hne : t' = t
  · subst hne
    simp
  · simp [Ne.symm hne, hne]

/-! ## The lock invariant and what a transaction relies on -/

/-- Every pending write is covered by a lock of its transaction, and only open
    transactions hold locks. -/
structure Locked (M : Schema δ κ ω) (s : Store δ κ ω) : Prop where
  covered : ∀ {t tx}, s.conns t = .active tx → ∀ w ∈ tx.writes, ∀ k, M.touches w k →
    s.locks k = some t
  held : ∀ {k t}, s.locks k = some t → ∃ tx, s.conns t = .active tx

/-- What connection `t` may rely on: nobody else commits in its name, and while
    its transaction is open nobody changes what it has locked. -/
structure Rely (M : Schema δ κ ω) (t : ℕ) (s s' : Store δ κ ω) : Prop where
  mine : s'.committedBy t = s.committedBy t
  grows : s.journal <+: s'.journal
  kept : (s'.conns t = s.conns t ∧
      ∀ k, s.locks k = some t → s'.locks k = some t ∧ M.same k s.db s'.db) ∨
    ((∃ tx, s.conns t = .active tx) ∧ s'.conns t = .failed)

variable {M : Schema δ κ ω} {s s' s₁ s₂ s₃ : Store δ κ ω} {t t' : ℕ} {tx : Tx ω}

theorem locked_init (d : δ) : (init d : Store δ κ ω).Locked M :=
  { covered := fun h => by cases h
    held := fun h => by cases h }

theorem Rely.refl (M : Schema δ κ ω) (t : ℕ) (s : Store δ κ ω) : Rely M t s s :=
  ⟨rfl, List.prefix_refl _, .inl ⟨rfl, fun k hk => ⟨hk, M.same_refl k _⟩⟩⟩

theorem Rely.trans (h₁ : Rely M t s₁ s₂) (h₂ : Rely M t s₂ s₃) : Rely M t s₁ s₃ := by
  refine ⟨h₂.mine.trans h₁.mine, h₁.grows.trans h₂.grows, ?_⟩
  obtain ⟨hc₁, hk₁⟩ | ⟨ha₁, hf₁⟩ := h₁.kept
  · obtain ⟨hc₂, hk₂⟩ | ⟨ha₂, hf₂⟩ := h₂.kept
    · refine .inl ⟨hc₂.trans hc₁, fun k hk => ?_⟩
      obtain ⟨hl, hs⟩ := hk₁ k hk
      obtain ⟨hl', hs'⟩ := hk₂ k hl
      exact ⟨hl', M.same_trans hs hs'⟩
    · exact .inr ⟨hc₁ ▸ ha₂, hf₂⟩
  · obtain ⟨hc₂, -⟩ | ⟨⟨tx, ha₂⟩, -⟩ := h₂.kept
    · exact .inr ⟨ha₁, hc₂.trans hf₁⟩
    · rw [hf₁] at ha₂
      cases ha₂

/-- Steps that leave data, journal and the locks and connection of `t` alone. -/
theorem Rely.of_frame (hj : s₂.journal = s₁.journal) (hc : s₂.conns t = s₁.conns t)
    (hl : ∀ k, s₁.locks k = some t → s₂.locks k = some t) (hd : s₂.db = s₁.db) :
    Rely M t s₁ s₂ :=
  ⟨committedBy_of_journal_eq hj t, hj ▸ List.prefix_refl _,
    .inl ⟨hc, fun k hk => ⟨hl k hk, hd ▸ M.same_refl k _⟩⟩⟩

/-- A connection that is not in a transaction stays as it is. -/
theorem Rely.conns_of_not_active (h : Rely M t s₁ s₂) (hs : ∀ tx, s₁.conns t ≠ .active tx) :
    s₂.conns t = s₁.conns t := by
  obtain ⟨hc, -⟩ | ⟨⟨tx, ha⟩, -⟩ := h.kept
  · exact hc
  · exact absurd ha (hs tx)

/-! ## What each operation keeps -/

theorem Locked.begin (h : s.Locked M) (t now : ℕ) : (s.begin t now).Locked M := by
  refine ⟨fun {t' tx} hc w hw k hk => ?_, fun {k t'} hl => ?_⟩
  · by_cases ht : t' = t
    · subst ht
      rw [begin_conns_self] at hc
      cases hc
      cases hw
    · exact h.covered ((setConn_conns_of_ne ht _).symm.trans hc) w hw k hk
  · by_cases ht : t' = t
    · subst ht
      exact ⟨_, begin_conns_self s t' now⟩
    · obtain ⟨tx, htx⟩ := h.held hl
      exact ⟨tx, (setConn_conns_of_ne ht _).trans htx⟩

theorem rely_begin (h : t' ≠ t) (now : ℕ) : Rely M t' s (s.begin t now) :=
  .of_frame rfl (setConn_conns_of_ne h _) (fun _ hk => hk) rfl

theorem Locked.drop (h : s.Locked M) (t : ℕ) {c : Conn ω} (hc : ∀ tx, c ≠ .active tx) :
    (s.drop t c).Locked M := by
  refine ⟨fun {t' tx} ha w hw k hk => ?_, fun {k t'} hl => ?_⟩
  · have ht : t' ≠ t := by
      rintro rfl
      rw [drop_conns_self] at ha
      exact hc tx ha
    exact (drop_locks_of_ne ht).mpr
      (h.covered ((drop_conns_of_ne ht c).symm.trans ha) w hw k hk)
  · have ht : t' ≠ t := by
      rintro rfl
      exact drop_locks_self s t' c k hl
    obtain ⟨tx, htx⟩ := h.held ((drop_locks_of_ne ht).mp hl)
    exact ⟨tx, (drop_conns_of_ne ht c).trans htx⟩

theorem rely_drop (h : t' ≠ t) (c : Conn ω) : Rely M t' s (s.drop t c) :=
  .of_frame rfl (drop_conns_of_ne h c) (fun _ hk => (drop_locks_of_ne h).mpr hk) rfl

/-- A transaction that is cut off from outside. -/
theorem rely_cut (ha : s.conns t = .active tx) (t' : ℕ) : Rely M t' s (s.drop t .failed) := by
  by_cases h : t' = t
  · subst h
    exact ⟨rfl, List.prefix_refl _, .inr ⟨⟨tx, ha⟩, drop_conns_self s t' _⟩⟩
  · exact rely_drop h _

section Acquire

variable [DecidableEq κ] {k : κ}

theorem Locked.acquire (h : s.Locked M) (ha : s.acquire t k = some s') {tx : Tx ω}
    (hc : s.conns t = .active tx) : s'.Locked M := by
  obtain ⟨hfree, rfl⟩ := acquire_eq_some ha
  refine ⟨fun {t' tx'} hc' w hw k' hk' => ?_, fun {k' t'} hl => ?_⟩
  · have hold := h.covered hc' w hw k' hk'
    by_cases heq : k' = k
    · subst heq
      rcases hfree with hf | hf
      · rw [hf] at hold
        cases hold
      · rw [hf] at hold
        cases hold
        exact Function.update_self k' _ _
    · exact (Function.update_of_ne heq _ _).trans hold
  · by_cases heq : k' = k
    · subst heq
      simp only [Function.update_self, Option.some.injEq] at hl
      exact ⟨tx, hl ▸ hc⟩
    · exact h.held ((Function.update_of_ne heq _ _).symm.trans hl)

theorem rely_acquire (h : t' ≠ t) (ha : s.acquire t k = some s') : Rely M t' s s' := by
  obtain ⟨hfree, rfl⟩ := acquire_eq_some ha
  refine .of_frame rfl rfl (fun k' hk' => ?_) rfl
  have hne : k' ≠ k := by
    rintro rfl
    rcases hfree with hf | hf
    · rw [hf] at hk'
      cases hk'
    · rw [hf] at hk'
      cases hk'
      exact h rfl
  exact (Function.update_of_ne hne _ _).trans hk'

theorem acquire_conns (ha : s.acquire t k = some s') : s'.conns = s.conns := by
  obtain ⟨-, rfl⟩ := acquire_eq_some ha
  rfl

theorem acquire_db (ha : s.acquire t k = some s') : s'.db = s.db := by
  obtain ⟨-, rfl⟩ := acquire_eq_some ha
  rfl

theorem acquire_journal (ha : s.acquire t k = some s') : s'.journal = s.journal := by
  obtain ⟨-, rfl⟩ := acquire_eq_some ha
  rfl

theorem acquire_locks_self (ha : s.acquire t k = some s') : s'.locks k = some t := by
  obtain ⟨-, rfl⟩ := acquire_eq_some ha
  exact Function.update_self k _ _

/-- The locks that the transaction held before are still held. -/
theorem acquire_locks_keep (ha : s.acquire t k = some s') {k' : κ} (hk : s.locks k' = some t) :
    s'.locks k' = some t := by
  obtain ⟨-, rfl⟩ := acquire_eq_some ha
  by_cases heq : k' = k
  · exact heq ▸ Function.update_self _ _ _
  · exact (Function.update_of_ne heq _ _).trans hk

end Acquire

theorem Locked.write (h : s.Locked M) {w : ω} {tx : Tx ω} (hc : s.conns t = .active tx)
    (hw : ∀ k, M.touches w k → s.locks k = some t) : (s.write t w).Locked M := by
  rw [write_of_active hc]
  refine ⟨fun {t' tx'} hc' w' hw' k hk => ?_, fun {k t'} hl => ?_⟩
  · by_cases ht : t' = t
    · subst ht
      rw [setConn_conns_self] at hc'
      cases hc'
      rcases List.mem_append.mp hw' with hw' | hw'
      · exact h.covered hc w' hw' k hk
      · obtain rfl := List.mem_singleton.mp hw'
        exact hw k hk
    · exact h.covered ((setConn_conns_of_ne ht _).symm.trans hc') w' hw' k hk
  · by_cases ht : t' = t
    · subst ht
      exact ⟨_, setConn_conns_self s t' _⟩
    · obtain ⟨tx', htx'⟩ := h.held hl
      exact ⟨tx', (setConn_conns_of_ne ht _).trans htx'⟩

theorem rely_write (h : t' ≠ t) (w : ω) : Rely M t' s (s.write t w) := by
  refine .of_frame (write_journal s t w) ?_ (fun k hk => (write_locks s t w).symm ▸ hk)
    (write_db s t w)
  unfold Store.write
  split
  · exact setConn_conns_of_ne h _
  · rfl

theorem Locked.commit (h : s.Locked M) {tx : Tx ω} (hc : s.conns t = .active tx) :
    (s.commit M.apply t).Locked M := by
  rw [commit_of_active hc]
  have hd := h.drop t (c := .idle) fun tx => by simp
  exact ⟨hd.covered, hd.held⟩

/-- A commit changes nothing that another transaction has locked. -/
theorem rely_commit (h : s.Locked M) (hne : t' ≠ t) {tx : Tx ω} (hc : s.conns t = .active tx) :
    Rely M t' s (s.commit M.apply t) := by
  rw [commit_of_active hc]
  refine ⟨?_, List.prefix_append _ _, .inl ⟨drop_conns_of_ne hne _, fun k hk => ⟨?_, ?_⟩⟩⟩
  · rw [committedBy_append (s := s) (t := t) (l := tx.writes) rfl, if_neg hne]
  · exact (drop_locks_of_ne (c := .idle) hne).mpr hk
  · refine M.same_foldl fun w hw ht => hne ?_
    have := h.covered hc w hw k ht
    rw [hk] at this
    exact Option.some.inj this

theorem Locked.autocommit (h : s.Locked M) (t : ℕ) (w : ω) : (s.autocommit M.apply t w).Locked M :=
  ⟨h.covered, h.held⟩

/-- So does a single statement, which waits for the locks it needs. -/
theorem rely_autocommit (hne : t' ≠ t) {w : ω} (hw : ∀ k, M.touches w k → s.locks k = none) :
    Rely M t' s (s.autocommit M.apply t w) := by
  refine ⟨?_, List.prefix_append _ _, .inl ⟨rfl, fun k hk => ⟨hk, M.same_apply fun ht => ?_⟩⟩⟩
  · rw [committedBy_append (s := s) (t := t) (l := [w]) rfl, if_neg hne]
  · rw [hw k ht] at hk
    cases hk

/-- A transaction that is still open is as its owner left it, and so is
    everything it has locked. -/
theorem Rely.of_active (h : Rely M t s₁ s₂) (ha : s₂.conns t = .active tx) :
    s₁.conns t = .active tx ∧
      ∀ k, s₁.locks k = some t → s₂.locks k = some t ∧ M.same k s₁.db s₂.db := by
  obtain ⟨hc, hk⟩ | ⟨-, hf⟩ := h.kept
  · exact ⟨hc.symm.trans ha, hk⟩
  · rw [hf] at ha
    cases ha

end Store

end ZeroAuth.Lib
