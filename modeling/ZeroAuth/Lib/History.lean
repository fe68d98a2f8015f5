/-
  ZeroAuth.Lib.History

  What the history of a `Lib.Table` says about one of its rows.

  A write gains a property when it leaves a row that has it, and the row that it has found, if
  any, did not.  A row that has the property has gained it (`exists_gain`), and where updates keep
  the property it has gained it once (`gain_unique`).  Histories are lists of writes with the
  number of the call that has made them, as the journal of a `TxStore`.

  `sides_of_gain` says the same of the writes before and after the gain, and `last_of_runs` which
  write has left a row that is there.

  `later` and `touched_of_runs` compare the rows of a table with those of an earlier one.
-/

import ZeroAuth.Lib.Table

namespace ZeroAuth.Lib

variable {ρ ι ν : Type}

/-- The write leaves a row with `P` behind, and has found none. -/
def RowWrite.Gains (P : ρ → Prop) : RowWrite ρ → Prop
  | .insert r => P r
  | .update old new => ¬ P old ∧ P new

theorem RowWrite.Gains.holds {P : ρ → Prop} {w : RowWrite ρ} (h : w.Gains P) : P (newRow w) := by
  cases w with
  | insert r => exact h
  | update old new => exact h.2

/-- The rows that a write mentions: what it has found and what it leaves. -/
def RowWrite.rows : RowWrite ρ → List ρ
  | .insert r => [r]
  | .update old new => [old, new]

theorem newRow_mem_rows (w : RowWrite ρ) : newRow w ∈ w.rows := by
  cases w with
  | insert r => exact List.mem_cons_self
  | update old new => exact List.mem_cons_of_mem _ List.mem_cons_self

instance (P : ρ → Prop) [DecidablePred P] : DecidablePred (RowWrite.Gains P)
  | .insert r => inferInstanceAs (Decidable (P r))
  | .update old new => inferInstanceAs (Decidable (¬ P old ∧ P new))

/-- What at most one entry of a list satisfies, one entry satisfies. -/
theorem eq_of_countP_le {α : Type} {l : List α} {p : α → Bool} (h : l.countP p ≤ 1) {a b : α}
    (ha : a ∈ l) (hb : b ∈ l) (hpa : p a = true) (hpb : p b = true) : a = b := by
  rw [List.countP_eq_length_filter] at h
  have ha' := List.mem_filter.mpr ⟨ha, hpa⟩
  have hb' := List.mem_filter.mpr ⟨hb, hpb⟩
  obtain ⟨i, hi, rfl⟩ := List.getElem_of_mem ha'
  obtain ⟨j, hj, rfl⟩ := List.getElem_of_mem hb'
  have hij : i = j := by omega
  subst hij
  rfl

namespace Keyed

variable {T : Keyed ρ ι ν} [DecidableEq ι] [DecidableEq ν] {allowed : RowWrite ρ → Prop}
  {P : ρ → Prop}

/-- A row that has a property has gained it. -/
theorem exists_gain {ws : List (RowWrite ρ)} (h : (T.rules allowed).Runs [] ws) {w : RowWrite ρ}
    (hw : w ∈ ws) (hp : P (newRow w)) :
    ∃ w' ∈ ws, w'.Gains P ∧ T.id (newRow w') = T.id (newRow w) := by
  induction ws using List.reverseRecOn generalizing w with
  | nil => cases hw
  | append_singleton ws last ih =>
      obtain ⟨hruns, hfits, -⟩ := Rules.runs_snoc.mp h
      have hlast : last ∈ ws ++ [last] := List.mem_append_right _ (List.mem_singleton_self last)
      have hold : ∀ {w : RowWrite ρ}, w ∈ ws → P (newRow w) →
          ∃ w' ∈ ws ++ [last], w'.Gains P ∧ T.id (newRow w') = T.id (newRow w) := by
        intro w hw hp
        obtain ⟨w', hw', hgain, hid⟩ := ih hruns hw hp
        exact ⟨w', List.mem_append_left _ hw', hgain, hid⟩
      rcases List.mem_append.mp hw with hw | hw
      · exact hold hw hp
      · obtain rfl := List.mem_singleton.mp hw
        cases w with
        | insert new => exact ⟨_, hlast, hp, rfl⟩
        | update old new =>
            by_cases hpold : P old
            · -- the row that the last write has found had the property, and was left before
              rcases origin hfits.1 with hnil | ⟨w₀, hw₀, hfound⟩
              · cases hnil
              · obtain ⟨w', hw', hgain, hid⟩ := hold hw₀ (hfound ▸ hpold)
                exact ⟨w', hw', hgain, hid.trans ((congrArg T.id hfound).trans hfits.2.1.symm)⟩
            · exact ⟨_, hlast, ⟨hpold, hp⟩, rfl⟩

/-- The row that an update finds was left by an earlier write. -/
theorem found_of_runs {ws : List (RowWrite ρ)} (h : (T.rules allowed).Runs [] ws) {old new : ρ}
    (hw : .update old new ∈ ws) : ∃ w ∈ ws, newRow w = old := by
  obtain ⟨pre, post, rfl⟩ := List.append_of_mem hw
  obtain ⟨-, ⟨hfits, -⟩, -⟩ := Rules.runs_append.mp h
  rcases origin hfits.1 with hold | ⟨w, hpre, heq⟩
  · cases hold
  · exact ⟨w, List.mem_append_left _ hpre, heq⟩

/-- What every allowed write makes true of the row that it leaves, if it was true of the row that
    it has found, it has made true. -/
theorem holds_of_runs (hP : ∀ w, allowed w → (∀ old new, w = .update old new → P old) → P (newRow w))
    {ws : List (RowWrite ρ)} (h : (T.rules allowed).Runs [] ws) {w : RowWrite ρ} (hw : w ∈ ws) :
    P (newRow w) := by
  obtain ⟨pre, post, rfl⟩ := List.append_of_mem hw
  obtain ⟨hpre, ⟨hfits, hallowed⟩, -⟩ := Rules.runs_append.mp h
  refine hP w hallowed fun old new heq => ?_
  subst heq
  exact forall_of_runs hP hpre old hfits.1

/-- What updates keep, no write has left before it is gained. -/
theorem not_holds_before (hP : ∀ old new, allowed (.update old new) → P old → P new)
    {ws : List (RowWrite ρ)} (h : (T.rules allowed).Runs [] ws) {w : RowWrite ρ}
    (hfits : T.Fits (ws.foldl T.apply []) w) (hgain : w.Gains P) {w' : RowWrite ρ} (hw' : w' ∈ ws)
    (hid : T.id (newRow w') = T.id (newRow w)) : ¬ P (newRow w') := by
  intro hp
  -- the row that has the property is still there, and is the one that the write finds
  obtain ⟨r, hr, hri, hpr⟩ := persists hP h hw' hp
  have hri : T.id r = T.id (newRow w) := hri.trans hid
  cases w with
  | insert new => exact (hfits r hr).1 hri
  | update old new =>
      obtain rfl := (distinct_of_runs h).unique hr hfits.1 (hri.trans hfits.2.1)
      exact hgain.1 hpr

/-- What updates keep is gained once by the row of an id. -/
theorem countP_gains_le [DecidablePred P] (hP : ∀ old new, allowed (.update old new) → P old → P new)
    {ws : List (RowWrite ρ)} (h : (T.rules allowed).Runs [] ws) (i : ι) :
    ws.countP (fun w => T.id (newRow w) = i ∧ w.Gains P) ≤ 1 := by
  induction ws using List.reverseRecOn with
  | nil => exact Nat.zero_le _
  | append_singleton ws w ih =>
      obtain ⟨hruns, hfits, -⟩ := Rules.runs_snoc.mp h
      rw [List.countP_append, List.countP_singleton]
      split
      · next hgains =>
          obtain ⟨hid, hgain⟩ := of_decide_eq_true hgains
          have hnone : ws.countP (fun w => T.id (newRow w) = i ∧ w.Gains P) = 0 := by
            rw [List.countP_eq_zero]
            intro w' hw' hgains'
            obtain ⟨hid', hgain'⟩ := of_decide_eq_true hgains'
            exact not_holds_before hP hruns hfits hgain hw' (hid'.trans hid.symm) hgain'.holds
          omega
      · exact ih hruns

/-- A row that is there was left by the last write of its id. -/
theorem last_of_runs {ws : List (RowWrite ρ)} (h : (T.rules allowed).Runs [] ws) {r : ρ}
    (hr : r ∈ ws.foldl T.apply []) :
    ∃ pre w post, ws = pre ++ w :: post ∧ newRow w = r ∧ ∀ w' ∈ post, T.id (newRow w') ≠ T.id r := by
  induction ws using List.reverseRecOn with
  | nil => cases hr
  | append_singleton ws w ih =>
      obtain ⟨hruns, hfits, -⟩ := Rules.runs_snoc.mp h
      rw [List.foldl_append] at hr
      replace hr : r ∈ T.apply (ws.foldl T.apply []) w := hr
      by_cases hid : T.id (newRow w) = T.id r
      · -- the last write has left the row of this id
        have hmem : newRow w ∈ T.apply (ws.foldl T.apply []) w := newRow_mem hfits
        have hd : T.Distinct (T.apply (ws.foldl T.apply []) w) := (distinct_of_runs hruns).apply hfits
        refine ⟨ws, w, [], rfl, hd.unique hmem hr hid, fun w' hw' => ?_⟩
        cases hw'
      · have hold : r ∈ ws.foldl T.apply [] := by
          cases w with
          | insert new =>
              refine (mem_insert.mp hr).resolve_right fun heq => ?_
              exact hid (congrArg T.id heq.symm)
          | update old new =>
              rcases mem_update.mp hr with ⟨heq, -⟩ | ⟨hr, -⟩
              · exact absurd (congrArg T.id heq.symm) hid
              · exact hr
        obtain ⟨pre, w₀, post, rfl, hnew, hpost⟩ := ih hruns hold
        refine ⟨pre, w₀, post ++ [w], by simp, hnew, fun w' hw' => ?_⟩
        rcases List.mem_append.mp hw' with hw' | hw'
        · exact hpost w' hw'
        · rw [List.mem_singleton.mp hw']
          exact hid

/-- Before a gain the row has not the property; after it, as updates keep it, it has. -/
theorem sides_of_gain (hP : ∀ old new, allowed (.update old new) → P old → P new)
    {pre post : List (RowWrite ρ)} {w : RowWrite ρ}
    (h : (T.rules allowed).Runs [] (pre ++ w :: post)) (hgain : w.Gains P) :
    (∀ w' ∈ pre, T.id (newRow w') = T.id (newRow w) → ¬ P (newRow w')) ∧
      ∀ w' ∈ post, T.id (newRow w') = T.id (newRow w) → P (newRow w') := by
  obtain ⟨hpre, ⟨hfits, -⟩, -⟩ := Rules.runs_append.mp h
  refine ⟨fun w' hw' hid => not_holds_before hP hpre hfits hgain hw' hid, fun w' hw' hid => ?_⟩
  obtain ⟨mid, post', rfl⟩ := List.append_of_mem hw'
  have hall : (T.rules allowed).Runs [] ((pre ++ w :: mid) ++ w' :: post') := by
    rw [List.append_assoc, List.cons_append]
    exact h
  obtain ⟨hmid, ⟨hfits', hallowed'⟩, -⟩ := Rules.runs_append.mp hall
  obtain ⟨r, hr, hri, hpr⟩ := persists hP hmid
    (List.mem_append_right _ List.mem_cons_self) hgain.holds
  have hri : T.id r = T.id (newRow w') := hri.trans hid.symm
  cases w' with
  | insert new => exact absurd hri (hfits' r hr).1
  | update old new =>
      obtain rfl := (distinct_of_runs hmid).unique hr hfits'.1 (hri.trans hfits'.2.1)
      exact hP _ _ hallowed' hpr

section Journal

variable {es : List (ℕ × RowWrite ρ)}

/-- The one write by which a row has gained what updates keep, and the call that has made it. -/
theorem gain_unique [DecidablePred P] (hP : ∀ old new, allowed (.update old new) → P old → P new)
    (h : (T.rules allowed).Runs [] (es.map Prod.snd)) {e e' : ℕ × RowWrite ρ} (he : e ∈ es)
    (he' : e' ∈ es) (hgain : e.2.Gains P) (hgain' : e'.2.Gains P)
    (hid : T.id (newRow e.2) = T.id (newRow e'.2)) : e = e' := by
  have hcount := countP_gains_le hP h (T.id (newRow e'.2))
  rw [List.countP_map] at hcount
  exact eq_of_countP_le hcount he he' (decide_eq_true ⟨hid, hgain⟩) (decide_eq_true ⟨rfl, hgain'⟩)

/-- A row is inserted once. -/
theorem insert_unique (h : (T.rules allowed).Runs [] (es.map Prod.snd)) {t t' : ℕ} {r r' : ρ}
    (he : (t, .insert r) ∈ es) (he' : (t', .insert r') ∈ es) (hid : T.id r = T.id r') :
    ((t, .insert r) : ℕ × RowWrite ρ) = (t', .insert r') :=
  gain_unique (P := fun _ => True) (fun _ _ _ _ => trivial) h he he' trivial trivial hid

/-- The last entry for the row of an id is the one that has left `r`. -/
def LastLeft (T : Keyed ρ ι ν) (es : List (ℕ × RowWrite ρ)) (r : ρ) : Prop :=
  ∃ pre e post, es = pre ++ e :: post ∧ newRow e.2 = r ∧ ∀ e' ∈ post, T.id (newRow e'.2) ≠ T.id r

theorem lastLeft_of_runs (h : (T.rules allowed).Runs [] (es.map Prod.snd)) {r : ρ}
    (hr : r ∈ (es.map Prod.snd).foldl T.apply []) : T.LastLeft es r := by
  obtain ⟨pre, w, post, hsplit, hnew, hpost⟩ := last_of_runs h hr
  obtain ⟨pre', rest, rfl, rfl, hrest⟩ := List.map_eq_append_iff.mp hsplit
  obtain ⟨e, post', rfl, rfl, rfl⟩ := List.map_eq_cons_iff.mp hrest
  exact ⟨pre', e, post', rfl, hnew, fun e' he' => hpost _ (List.mem_map_of_mem he')⟩

/-- The history around an update by which a row gains what updates keep. -/
theorem splits_at_gain (hP : ∀ old new, allowed (.update old new) → P old → P new)
    (h : (T.rules allowed).Runs [] (es.map Prod.snd)) {t : ℕ} {old new : ρ}
    (he : (t, .update old new) ∈ es) (hgain : (RowWrite.update old new).Gains P) :
    ∃ pre post, es = pre ++ (t, .update old new) :: post ∧ T.LastLeft pre old ∧
      (∀ e ∈ pre, T.id (newRow e.2) = T.id new → ¬ P (newRow e.2)) ∧
      ∀ e ∈ post, T.id (newRow e.2) = T.id new → P (newRow e.2) := by
  obtain ⟨pre, post, rfl⟩ := List.append_of_mem he
  rw [List.map_append, List.map_cons] at h
  obtain ⟨hbefore, hafter⟩ := sides_of_gain hP h hgain
  obtain ⟨hpre, ⟨hfits, -⟩, -⟩ := Rules.runs_append.mp h
  exact ⟨pre, post, rfl, lastLeft_of_runs hpre hfits.1,
    fun e he hid => hbefore _ (List.mem_map_of_mem he) hid,
    fun e he hid => hafter _ (List.mem_map_of_mem he) hid⟩

end Journal

/-- Every row of a table is still there later, as a row that allowed updates have made of it. -/
theorem later {K : ρ → ρ → Prop} (hrefl : ∀ r, K r r) (htrans : ∀ {a b c}, K a b → K b c → K a c)
    (hK : ∀ old new, allowed (.update old new) → K old new) {l : List ρ} (hd : T.Distinct l)
    {ws : List (RowWrite ρ)} (h : (T.rules allowed).Runs l ws) {r : ρ} (hr : r ∈ l) :
    ∃ r' ∈ ws.foldl T.apply l, T.id r' = T.id r ∧ K r r' := by
  induction ws generalizing l r with
  | nil => exact ⟨r, hr, rfl, hrefl r⟩
  | cons w ws ih =>
      obtain ⟨⟨hfits, hallowed⟩, hruns⟩ := h
      have hd' : T.Distinct (T.apply l w) := hd.apply hfits
      obtain ⟨r₁, hr₁, hid₁, hK₁⟩ := persists_apply (P := K r) hd hfits
        (fun old new heq hold => htrans hold (hK old new (heq ▸ hallowed))) hr (hrefl r)
      obtain ⟨r₂, hr₂, hid₂, hK₂⟩ := ih hd' hruns hr₁
      exact ⟨r₂, hr₂, hid₂.trans hid₁, htrans hK₁ hK₂⟩

end Keyed

end ZeroAuth.Lib
