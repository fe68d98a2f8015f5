/-
  ZeroAuth.Lib.Table

  A table whose rows have an id and names that no two rows share, as the database
  of a `TxStore`.

  An update carries the row it found and the row it leaves behind; what it locks
  are the ids and names of both.  A write `Fits` when it finds its row and takes no
  id or name of another one.  This is decided by what the write has locked, so
  `Keyed.rules` are rules in the sense of `Serial`, for any further condition
  `allowed` on the writes alone.
-/

import ZeroAuth.Lib.Serial
import Mathlib.Data.List.Induction
import Mathlib.Data.List.Nodup

namespace ZeroAuth.Lib

/-- How the rows of a table are told apart: by an id, and by their names (the
    columns of the unique indexes). -/
structure Keyed (ρ ι ν : Type) where
  id : ρ → ι
  names : ρ → List ν

/-- What can be locked. -/
inductive RowKey (ι ν : Type)
  | row (id : ι)
  | name (n : ν)
  deriving DecidableEq

inductive RowWrite (ρ : Type)
  | insert (r : ρ)
  | update (old new : ρ)

variable {ρ ι ν : Type}

/-- The row that a write leaves behind. -/
def newRow : RowWrite ρ → ρ
  | .insert r => r
  | .update _ new => new

namespace Keyed

def keys (T : Keyed ρ ι ν) : RowWrite ρ → List (RowKey ι ν)
  | .insert r => .row (T.id r) :: (T.names r).map .name
  | .update old new =>
      .row (T.id old) :: .row (T.id new) :: (T.names old ++ T.names new).map .name

/-- What a lock on a row or on a name protects. -/
def Same (T : Keyed ρ ι ν) : RowKey ι ν → List ρ → List ρ → Prop
  | .row i, l, l' => ∀ r, T.id r = i → (r ∈ l ↔ r ∈ l')
  | .name n, l, l' => ∀ i, (∃ r ∈ l, T.id r = i ∧ n ∈ T.names r) ↔
      ∃ r ∈ l', T.id r = i ∧ n ∈ T.names r

/-- The write finds its row, and takes no id and no name of another row. -/
def Fits (T : Keyed ρ ι ν) (l : List ρ) : RowWrite ρ → Prop
  | .insert r => ∀ x ∈ l, T.id x ≠ T.id r ∧ ∀ n ∈ T.names r, n ∉ T.names x
  | .update old new => old ∈ l ∧ T.id new = T.id old ∧
      ∀ x ∈ l, ∀ n ∈ T.names new, n ∈ T.names x → T.id x = T.id old

/-- Ids and names are unique. -/
structure Distinct (T : Keyed ρ ι ν) (l : List ρ) : Prop where
  ids : (l.map T.id).Nodup
  names : ∀ x ∈ l, ∀ y ∈ l, ∀ n, n ∈ T.names x → n ∈ T.names y → T.id x = T.id y

section Writes

variable {T : Keyed ρ ι ν} {l l' : List ρ} {w : RowWrite ρ} {k : RowKey ι ν} {r old new : ρ}

theorem same_refl (T : Keyed ρ ι ν) (k : RowKey ι ν) (l : List ρ) : T.Same k l l := by
  cases k with
  | row i => exact fun _ _ => Iff.rfl
  | name n => exact fun _ => Iff.rfl

theorem Same.trans {l'' : List ρ} (h : T.Same k l l') (h' : T.Same k l' l'') : T.Same k l l'' := by
  cases k with
  | row i => exact fun r hr => (h r hr).trans (h' r hr)
  | name n => exact fun i => (h i).trans (h' i)

/-- What is locked for a write decides whether it fits. -/
theorem fits_congr (hsame : ∀ k ∈ T.keys w, T.Same k l l') (h : T.Fits l w) : T.Fits l' w := by
  cases w with
  | insert r =>
      have hrow := hsame (.row (T.id r)) List.mem_cons_self
      intro x hx
      refine ⟨fun hid => (h x ((hrow x hid).mpr hx)).1 hid, fun n hn hnx => ?_⟩
      have hname := hsame (.name n) (List.mem_cons_of_mem _ (List.mem_map_of_mem hn))
      obtain ⟨y, hy, -, hny⟩ := (hname (T.id x)).mpr ⟨x, hx, rfl, hnx⟩
      exact (h y hy).2 n hn hny
  | update old new =>
      obtain ⟨hold, hid, hfree⟩ := h
      have hrow := hsame (.row (T.id old)) List.mem_cons_self
      refine ⟨(hrow old rfl).mp hold, hid, fun x hx n hn hnx => ?_⟩
      have hname := hsame (.name n) (List.mem_cons_of_mem _ (List.mem_cons_of_mem _
        (List.mem_map_of_mem (List.mem_append_right _ hn))))
      obtain ⟨y, hy, hyx, hny⟩ := (hname (T.id x)).mpr ⟨x, hx, rfl, hnx⟩
      exact hyx ▸ hfree y hy n hn hny

theorem Distinct.nil (T : Keyed ρ ι ν) : T.Distinct [] := by
  refine ⟨List.nodup_nil, fun x hx => ?_⟩
  cases hx

/-- Two rows with one id are one row. -/
theorem Distinct.unique (h : T.Distinct l) {x y : ρ} (hx : x ∈ l) (hy : y ∈ l)
    (hid : T.id x = T.id y) : x = y :=
  List.inj_on_of_nodup_map h.ids hx hy hid

variable [DecidableEq ι] [DecidableEq ν]

/-- The row is the one that `old` names. -/
def Hits (T : Keyed ρ ι ν) (old r : ρ) : Prop := T.id r = T.id old ∧ T.names r = T.names old

instance (T : Keyed ρ ι ν) (old r : ρ) : Decidable (T.Hits old r) :=
  inferInstanceAs (Decidable (_ ∧ _))

def apply (T : Keyed ρ ι ν) (l : List ρ) : RowWrite ρ → List ρ
  | .insert r => l ++ [r]
  | .update old new => l.map fun r => if T.Hits old r then new else r

/-- A unique index rejects the write. -/
def clashes (T : Keyed ρ ι ν) (l : List ρ) : RowWrite ρ → Bool
  | .insert r => l.any fun x => T.id x = T.id r ∨ ∃ n ∈ T.names r, n ∈ T.names x
  | .update old new => l.any fun x => T.id x ≠ T.id old ∧ ∃ n ∈ T.names new, n ∈ T.names x

theorem mem_update : r ∈ T.apply l (.update old new) ↔
    (r = new ∧ ∃ x ∈ l, T.Hits old x) ∨ (r ∈ l ∧ ¬ T.Hits old r) := by
  simp only [apply, List.mem_map]
  constructor
  · rintro ⟨x, hx, rfl⟩
    split
    · next hit => exact .inl ⟨rfl, x, hx, hit⟩
    · next hmiss => exact .inr ⟨hx, hmiss⟩
  · rintro (⟨rfl, x, hx, hit⟩ | ⟨hr, hmiss⟩)
    · exact ⟨x, hx, if_pos hit⟩
    · exact ⟨r, hr, if_neg hmiss⟩

theorem mem_insert : r ∈ T.apply l (.insert new) ↔ r ∈ l ∨ r = new := by
  simp [apply]

theorem same_insert (hk : k ∉ T.keys (.insert new)) : T.Same k l (T.apply l (.insert new)) := by
  simp only [keys, List.mem_cons, List.mem_map, not_or, not_exists, not_and] at hk
  cases k with
  | row i =>
      intro r hr
      rw [mem_insert]
      refine ⟨.inl, fun h => h.resolve_right ?_⟩
      rintro rfl
      exact hk.1 (congrArg _ hr.symm)
  | name n =>
      intro i
      constructor
      · rintro ⟨r, hr, hi, hn⟩
        exact ⟨r, mem_insert.mpr (.inl hr), hi, hn⟩
      · rintro ⟨r, hr, hi, hn⟩
        refine ⟨r, (mem_insert.mp hr).resolve_right ?_, hi, hn⟩
        rintro rfl
        exact hk.2 n hn rfl

theorem same_update (hk : k ∉ T.keys (.update old new)) :
    T.Same k l (T.apply l (.update old new)) := by
  simp only [keys, List.mem_cons, List.mem_map, List.mem_append, not_or, not_exists,
    not_and] at hk
  obtain ⟨hold, hnew, hname⟩ := hk
  cases k with
  | row i =>
      have hi_old : i ≠ T.id old := fun h => hold (congrArg _ h)
      have hi_new : i ≠ T.id new := fun h => hnew (congrArg _ h)
      intro r hr
      rw [mem_update]
      constructor
      · exact fun h => .inr ⟨h, fun hit => hi_old (hr.symm.trans hit.1)⟩
      · rintro (⟨rfl, -⟩ | ⟨h, -⟩)
        · exact absurd hr.symm hi_new
        · exact h
  | name n =>
      intro i
      constructor
      · rintro ⟨r, hr, hi, hn⟩
        refine ⟨r, mem_update.mpr (.inr ⟨hr, fun hit => ?_⟩), hi, hn⟩
        exact hname n (.inl (hit.2 ▸ hn)) rfl
      · rintro ⟨r, hr, hi, hn⟩
        rcases mem_update.mp hr with ⟨rfl, -⟩ | ⟨hr, -⟩
        · exact absurd rfl (hname n (.inr hn))
        · exact ⟨r, hr, hi, hn⟩

/-- The table as a store: a write touches the ids and names it mentions. -/
def schema (T : Keyed ρ ι ν) : Schema (List ρ) (RowKey ι ν) (RowWrite ρ) where
  apply := T.apply
  touches w k := k ∈ T.keys w
  same := T.Same
  same_refl := T.same_refl
  same_trans := Same.trans
  same_apply {k d w} h := by
    cases w with
    | insert r => exact same_insert h
    | update old new => exact same_update h

theorem same_apply_congr (hsame : ∀ k' ∈ T.keys w, T.Same k' l l') (hk : T.Same k l l') :
    T.Same k (T.apply l w) (T.apply l' w) := by
  cases w with
  | insert new =>
      cases k with
      | row i =>
          intro r hr
          rw [mem_insert, mem_insert, hk r hr]
      | name n =>
          intro i
          have hone : ∀ l : List ρ, (∃ r ∈ T.apply l (.insert new), T.id r = i ∧ n ∈ T.names r) ↔
              (∃ r ∈ l, T.id r = i ∧ n ∈ T.names r) ∨ (T.id new = i ∧ n ∈ T.names new) := by
            intro l
            simp only [mem_insert, or_and_right, exists_or, exists_eq_left]
          rw [hone, hone, hk i]
  | update old new =>
      have hrow : ∀ r, T.id r = T.id old → (r ∈ l ↔ r ∈ l') := hsame (.row (T.id old)) List.mem_cons_self
      have hfound : (∃ x ∈ l, T.Hits old x) ↔ ∃ x ∈ l', T.Hits old x :=
        exists_congr fun x => and_congr_left fun hit => hrow x hit.1
      cases k with
      | row i =>
          intro r hr
          rw [mem_update, mem_update, hfound, hk r hr]
      | name n =>
          -- a row that is not replaced: it is the locked one, or known by its name
          have hkeep : ∀ {l l' : List ρ}, (∀ r, T.id r = T.id old → (r ∈ l ↔ r ∈ l')) →
              T.Same (.name n) l l' → ∀ r ∈ l, ¬ T.Hits old r → n ∈ T.names r →
              ∃ r' ∈ l', ¬ T.Hits old r' ∧ T.id r' = T.id r ∧ n ∈ T.names r' := by
            intro l l' hrow hk r hr hmiss hn
            by_cases hid : T.id r = T.id old
            · exact ⟨r, (hrow r hid).mp hr, hmiss, rfl, hn⟩
            · obtain ⟨y, hy, hyr, hny⟩ := (hk (T.id r)).mp ⟨r, hr, rfl, hn⟩
              exact ⟨y, hy, fun hit => hid (hyr.symm.trans hit.1), hyr, hny⟩
          intro i
          constructor
          · rintro ⟨r, hr, hi, hn⟩
            rcases mem_update.mp hr with ⟨rfl, hx⟩ | ⟨hr, hmiss⟩
            · exact ⟨r, mem_update.mpr (.inl ⟨rfl, hfound.mp hx⟩), hi, hn⟩
            · obtain ⟨r', hr', hmiss', hid, hn'⟩ := hkeep hrow hk r hr hmiss hn
              exact ⟨r', mem_update.mpr (.inr ⟨hr', hmiss'⟩), hid.trans hi, hn'⟩
          · rintro ⟨r, hr, hi, hn⟩
            rcases mem_update.mp hr with ⟨rfl, hx⟩ | ⟨hr, hmiss⟩
            · exact ⟨r, mem_update.mpr (.inl ⟨rfl, hfound.mpr hx⟩), hi, hn⟩
            · obtain ⟨r', hr', hmiss', hid, hn'⟩ := hkeep (fun r hid => (hrow r hid).symm)
                (fun i => (hk i).symm) r hr hmiss hn
              exact ⟨r', mem_update.mpr (.inr ⟨hr', hmiss'⟩), hid.trans hi, hn'⟩

/-- The writes that fit and satisfy `allowed`. -/
def rules (T : Keyed ρ ι ν) (allowed : RowWrite ρ → Prop) : Rules T.schema where
  valid l w := T.Fits l w ∧ allowed w
  valid_congr hsame h := ⟨fits_congr hsame h.1, h.2⟩
  apply_congr := same_apply_congr

theorem fits_insert (h : T.clashes l (.insert new) = false) : T.Fits l (.insert new) := by
  simpa [clashes, Fits] using h

theorem fits_update (hold : old ∈ l) (hid : T.id new = T.id old)
    (h : T.clashes l (.update old new) = false) : T.Fits l (.update old new) := by
  refine ⟨hold, hid, fun x hx n hn hnx => ?_⟩
  by_contra hne
  have hall : ∀ x ∈ l, ¬ (T.id x ≠ T.id old ∧ ∃ n ∈ T.names new, n ∈ T.names x) := by
    simpa [clashes] using h
  exact hall x hx ⟨hne, n, hn, hnx⟩

/-- After an update that fits, the table holds the new row and the rows of other
    ids. -/
theorem mem_update_of_fits (hd : T.Distinct l) (h : T.Fits l (.update old new)) :
    r ∈ T.apply l (.update old new) ↔ r = new ∨ (r ∈ l ∧ T.id r ≠ T.id old) := by
  have hold := h.1
  rw [mem_update]
  constructor
  · rintro (⟨rfl, -⟩ | ⟨hr, hmiss⟩)
    · exact .inl rfl
    · refine .inr ⟨hr, fun hid => hmiss ?_⟩
      rw [hd.unique hr hold hid]
      exact ⟨rfl, rfl⟩
  · rintro (rfl | ⟨hr, hne⟩)
    · exact .inl ⟨rfl, old, hold, rfl, rfl⟩
    · exact .inr ⟨hr, fun hit => hne hit.1⟩

theorem map_id_update (hid : T.id new = T.id old) :
    (T.apply l (.update old new)).map T.id = l.map T.id := by
  rw [apply, List.map_map]
  refine List.map_congr_left fun r _ => ?_
  simp only [Function.comp_apply]
  split
  · next hit => exact hid.trans hit.1.symm
  · rfl

theorem Distinct.apply (h : T.Distinct l) (hw : T.Fits l w) : T.Distinct (T.apply l w) := by
  cases w with
  | insert new =>
      refine ⟨?_, fun x hx y hy n hnx hny => ?_⟩
      · rw [Keyed.apply, List.map_append, List.nodup_append]
        refine ⟨h.ids, List.nodup_singleton _, fun i hi j hj => ?_⟩
        obtain ⟨x, hx, rfl⟩ := List.mem_map.mp hi
        obtain rfl := List.mem_singleton.mp hj
        exact (hw x hx).1
      · rcases mem_insert.mp hx with hxl | hxn
        · rcases mem_insert.mp hy with hyl | hyn
          · exact h.names x hxl y hyl n hnx hny
          · exact absurd hnx ((hw x hxl).2 n (hyn ▸ hny))
        · rcases mem_insert.mp hy with hyl | hyn
          · exact absurd hny ((hw y hyl).2 n (hxn ▸ hnx))
          · rw [hxn, hyn]
  | update old new =>
      have hmem := fun r => mem_update_of_fits h hw (r := r)
      obtain ⟨hold, hid, hfree⟩ := hw
      refine ⟨?_, fun x hx y hy n hnx hny => ?_⟩
      · rw [map_id_update hid]
        exact h.ids
      · rcases (hmem x).mp hx with hxn | ⟨hxl, -⟩
        · rcases (hmem y).mp hy with hyn | ⟨hyl, -⟩
          · rw [hxn, hyn]
          · rw [hxn, hid]
            exact (hfree y hyl n (hxn ▸ hnx) hny).symm
        · rcases (hmem y).mp hy with hyn | ⟨hyl, -⟩
          · rw [hyn, hid]
            exact hfree x hxl n (hyn ▸ hny) hnx
          · exact h.names x hxl y hyl n hnx hny

/-! ## Histories -/

theorem newRow_mem (h : T.Fits l w) : newRow w ∈ T.apply l w := by
  cases w with
  | insert r => exact mem_insert.mpr (.inr rfl)
  | update old new => exact mem_update.mpr (.inl ⟨rfl, old, h.1, rfl, rfl⟩)

/-- A row comes from the first table or from a write. -/
theorem origin {ws : List (RowWrite ρ)} (hr : r ∈ ws.foldl T.apply l) :
    r ∈ l ∨ ∃ w ∈ ws, newRow w = r := by
  induction ws generalizing l with
  | nil => exact .inl hr
  | cons w ws ih =>
      rcases ih hr with hr | ⟨w', hw', heq⟩
      · cases w with
        | insert new =>
            rcases mem_insert.mp hr with hr | rfl
            · exact .inl hr
            · exact .inr ⟨_, List.mem_cons_self, rfl⟩
        | update old new =>
            rcases mem_update.mp hr with ⟨rfl, -⟩ | ⟨hr, -⟩
            · exact .inr ⟨_, List.mem_cons_self, rfl⟩
            · exact .inl hr
      · exact .inr ⟨w', List.mem_cons_of_mem _ hw', heq⟩

/-- The row of an id stays, and keeps what every update of it keeps. -/
theorem persists_apply {P : ρ → Prop} (hd : T.Distinct l) (hw : T.Fits l w)
    (hP : ∀ old new, w = .update old new → P old → P new) (hr : r ∈ l) (hp : P r) :
    ∃ r' ∈ T.apply l w, T.id r' = T.id r ∧ P r' := by
  cases w with
  | insert new => exact ⟨r, mem_insert.mpr (.inl hr), rfl, hp⟩
  | update old new =>
      by_cases hid : T.id r = T.id old
      · obtain rfl := hd.unique hr hw.1 hid
        exact ⟨new, (mem_update_of_fits hd hw).mpr (.inl rfl), hw.2.1, hP _ _ rfl hp⟩
      · exact ⟨r, (mem_update_of_fits hd hw).mpr (.inr ⟨hr, hid⟩), rfl, hp⟩

section Runs

variable {allowed : RowWrite ρ → Prop} {ws : List (RowWrite ρ)} {P : ρ → Prop}

theorem distinct_of_runs (h : (T.rules allowed).Runs [] ws) :
    T.Distinct (ws.foldl T.apply []) :=
  h.invariant (.nil T) fun _ _ hd hw => hd.apply hw.1

theorem allowed_of_runs {l : List ρ} (h : (T.rules allowed).Runs l ws) (hw : w ∈ ws) :
    allowed w := by
  induction ws generalizing l with
  | nil => cases hw
  | cons w' ws ih =>
      rcases List.mem_cons.mp hw with rfl | hw
      · exact h.1.2
      · exact ih h.2 hw

/-- What every allowed write makes true of the row that it leaves behind, if it was true of the row
    that it has found, is true of every row. -/
theorem forall_of_runs
    (hP : ∀ w, allowed w → (∀ old new, w = .update old new → P old) → P (newRow w))
    (h : (T.rules allowed).Runs [] ws) : ∀ r ∈ ws.foldl T.apply [], P r := by
  refine h.invariant (I := fun l : List ρ => ∀ r ∈ l, P r) (fun r hr => by cases hr) ?_
  rintro l w hl ⟨hfits, hallowed⟩ r (hr : r ∈ T.apply l w)
  cases w with
  | insert new =>
      rcases mem_insert.mp hr with hr | rfl
      · exact hl r hr
      · exact hP _ hallowed fun old new heq => by cases heq
  | update old new =>
      rcases mem_update.mp hr with ⟨rfl, -⟩ | ⟨hr, -⟩
      · refine hP _ hallowed fun old' new' heq => ?_
        cases heq
        exact hl _ hfits.1
      · exact hl r hr

/-- What a write has made true of a row, and every allowed update keeps, is true of the row
    at the end. -/
theorem persists (hP : ∀ old new, allowed (.update old new) → P old → P new)
    (h : (T.rules allowed).Runs [] ws) (hw : w ∈ ws) (hp : P (newRow w)) :
    ∃ r ∈ ws.foldl T.apply [], T.id r = T.id (newRow w) ∧ P r := by
  induction ws using List.reverseRecOn with
  | nil => cases hw
  | append_singleton ws w' ih =>
      obtain ⟨hruns, hfits, hallowed⟩ := Rules.runs_snoc.mp h
      rw [List.foldl_append]
      rcases List.mem_append.mp hw with hw | hw
      · obtain ⟨r, hr, hid, hpr⟩ := ih hruns hw
        obtain ⟨r', hr', hid', hpr'⟩ := persists_apply (distinct_of_runs hruns) hfits
          (fun old new heq => hP old new (heq ▸ hallowed)) hr hpr
        exact ⟨r', hr', hid'.trans hid, hpr'⟩
      · obtain rfl := List.mem_singleton.mp hw
        exact ⟨_, newRow_mem hfits, rfl, hp⟩

/-- When no update is allowed on a row that satisfies `P`, one write at most has made the row
    of an id satisfy it. -/
theorem countP_final_le [DecidablePred P] (hP : ∀ old new, allowed (.update old new) → ¬ P old)
    (h : (T.rules allowed).Runs [] ws) (i : ι) :
    ws.countP (fun w => T.id (newRow w) = i ∧ P (newRow w)) ≤ 1 := by
  induction ws using List.reverseRecOn with
  | nil => exact Nat.zero_le _
  | append_singleton ws w ih =>
      obtain ⟨hruns, hfits, hallowed⟩ := Rules.runs_snoc.mp h
      rw [List.countP_append, List.countP_singleton]
      split
      · next hfinal =>
          obtain ⟨hid, -⟩ := of_decide_eq_true hfinal
          -- an earlier write of this kind would have left a row that this one cannot change
          have hnone : ws.countP (fun w => T.id (newRow w) = i ∧ P (newRow w)) = 0 := by
            rw [List.countP_eq_zero]
            intro w' hw' hfinal'
            obtain ⟨hid', hp'⟩ := of_decide_eq_true hfinal'
            obtain ⟨r, hr, hri, hpr⟩ := persists
              (fun old new hold hp => absurd hp (hP old new hold)) hruns hw' hp'
            rw [hid'] at hri
            cases w with
            | insert new => exact (hfits r hr).1 (hri.trans hid.symm)
            | update old new =>
                have hold : T.id r = T.id old := hri.trans (hid.symm.trans hfits.2.1)
                obtain rfl := (distinct_of_runs hruns).unique hr hfits.1 hold
                exact hP _ _ hallowed hpr
          omega
      · exact ih hruns

end Runs

end Writes

end Keyed

end ZeroAuth.Lib
