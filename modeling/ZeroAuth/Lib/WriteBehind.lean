/-
  ZeroAuth.Lib.WriteBehind

  One key of a write-behind cache: nodes with a cache each, one backing store, and
  numbered operations on the store that complete in any order, at any time.

  A node that drops the key clears its own cache and starts an erase.  Writes,
  reads and erases that are still in flight may undo this later; the premises of
  `Move` leave out exactly the ways in which they do, and then a drop is final once
  its erase has completed (`absent_of_drop`).
-/

import Mathlib.Data.Set.Insert
import Mathlib.Logic.Function.Basic
import Mathlib.Logic.Relation

namespace ZeroAuth.Lib.WriteBehind

/-- An operation in flight.  A read that has been answered waits for its node to
    put into the cache what it found. -/
inductive Op
  | write
  | erase
  | read (p : ℕ)
  | fill (p : ℕ) (found : Prop)
  | other

/-- Neither a read nor its continuation. -/
def Op.Plain : Op → Prop
  | write | erase | other => True
  | read _ | fill _ _ => False

/-- The nodes are numbered from 0, the operations too.  `drops` remembers who
    dropped the key and the number of the erase that was started for it. -/
structure State where
  nodes : ℕ
  cached : Set ℕ
  stored : Prop
  inFlight : ℕ → Option Op
  next : ℕ
  drops : Set (ℕ × ℕ)

namespace State

/-- Some drop's erase has completed. -/
def Erased (s : State) : Prop := ∃ p n, (p, n) ∈ s.drops ∧ s.inFlight n = none

/-- Operation `i` is the erase of a drop. -/
def IsDrop (s : State) (i : ℕ) : Prop := ∃ p, (p, i) ∈ s.drops

def Dropped (s : State) (p : ℕ) : Prop := ∃ n, (p, n) ∈ s.drops

/-- The state with one more operation. -/
def start (s : State) (o : Op) : State :=
  { s with inFlight := Function.update s.inFlight s.next (some o), next := s.next + 1 }

def finish (s : State) (i : ℕ) : State :=
  { s with inFlight := Function.update s.inFlight i none }

end State

/-- What may happen. -/
inductive Move : State → State → Prop
  | boot (s : State) : Move s { s with nodes := s.nodes + 1 }
  | evict {s : State} {c : Set ℕ} (h : c ⊆ s.cached) : Move s { s with cached := c }
  | lose {s : State} {q : Prop} (h : q → s.stored) : Move s { s with stored := q }
  | put {s : State} {p : ℕ} (hp : p < s.nodes) (hfresh : ∀ d, d ∉ s.drops) :
      Move s { s with cached := insert p s.cached }
  | start {s : State} {o : Op} (ho : o.Plain ∨ ∃ p < s.nodes, o = .read p) : Move s (s.start o)
  | drop {s : State} {p : ℕ} (hp : p < s.nodes) :
      Move s { s.start .erase with cached := s.cached \ {p}, drops := insert (p, s.next) s.drops }
  /-- The erase of a drop is never sent. -/
  | dropUnsent {s : State} {p : ℕ} (hp : p < s.nodes) (habsent : ¬ s.stored) :
      Move s { s with
        cached := s.cached \ {p}
        next := s.next + 1
        drops := insert (p, s.next) s.drops }
  | write {s : State} {i : ℕ} (h : s.inFlight i = some .write) (hearly : ¬ s.Erased) :
      Move s { s.finish i with stored := True }
  | erase {s : State} {i : ℕ} (h : s.inFlight i = some .erase) :
      Move s { s.finish i with stored := False }
  | read {s : State} {i p : ℕ} {found : Prop} (h : s.inFlight i = some (.read p))
      (hfound : found → s.stored) :
      Move s { s with inFlight := Function.update s.inFlight i (some (.fill p found)) }
  | fill {s : State} {i p : ℕ} {found : Prop} {c : Set ℕ} (h : s.inFlight i = some (.fill p found))
      (hc : c ⊆ insert p s.cached) (hfound : p ∈ c → p ∈ s.cached ∨ found ∧ ¬ s.Dropped p) :
      Move s { s.finish i with cached := c }
  | fail {s : State} {i : ℕ} {o : Op} (h : s.inFlight i = some o)
      (habsent : o = .erase → s.IsDrop i → ¬ s.stored) : Move s (s.finish i)
  /-- A number is passed over. -/
  | skip (s : State) : Move s { s with next := s.next + 1 }

/-- Numbers are below their bounds, a completed erase has left nothing behind, and
    no node that has dropped the key has it. -/
structure Sound (s : State) : Prop where
  flight_lt : ∀ i o, s.inFlight i = some o → i < s.next
  drop_lt : ∀ p n, (p, n) ∈ s.drops → n < s.next ∧ p < s.nodes
  drop_erase : ∀ p n o, (p, n) ∈ s.drops → s.inFlight n = some o → o = .erase
  cached_lt : ∀ p ∈ s.cached, p < s.nodes
  read_lt : ∀ i p, s.inFlight i = some (.read p) → p < s.nodes
  fill_lt : ∀ i p found, s.inFlight i = some (.fill p found) → p < s.nodes
  erased : s.Erased → ¬ s.stored
  dropped : ∀ p, s.Dropped p → p ∉ s.cached

/-- After an erase: the nodes from `m` on, which started later, do not have the
    key and do not get it from a read. -/
structure Gone (m : ℕ) (s : State) : Prop where
  erased : s.Erased
  cached : ∀ p, m ≤ p → p ∉ s.cached
  fill : ∀ i p found, m ≤ p → s.inFlight i = some (.fill p found) → ¬ found

section Moves

variable {s s' : State}

@[simp] theorem State.start_inFlight (s : State) (o : Op) (j : ℕ) :
    (s.start o).inFlight j = if j = s.next then some o else s.inFlight j :=
  Function.update_apply _ _ _ _

@[simp] theorem State.finish_inFlight (s : State) (i j : ℕ) :
    (s.finish i).inFlight j = if j = i then none else s.inFlight j :=
  Function.update_apply _ _ _ _

theorem State.inFlight_of_finish {i j : ℕ} {o : Op} (h : (s.finish i).inFlight j = some o) :
    s.inFlight j = some o := by
  rw [State.finish_inFlight] at h
  split at h
  · cases h
  · exact h

theorem State.finish_inFlight_eq_none {i n : ℕ} (h : s.inFlight n = none) :
    (s.finish i).inFlight n = none := by
  rw [State.finish_inFlight, h, ite_self]

/-- A completed erase stays completed. -/
theorem Move.erased (h : Move s s') (hs : Sound s) (he : s.Erased) : s'.Erased := by
  obtain ⟨p, n, hd, hn⟩ := he
  have hlt := (hs.drop_lt p n hd).1
  have hne : n ≠ s.next := by omega
  cases h with
  | boot | evict | lose | put | skip => exact ⟨p, n, hd, hn⟩
  | start => exact ⟨p, n, hd, (Function.update_of_ne hne _ _).trans hn⟩
  | drop => exact ⟨p, n, .inr hd, (Function.update_of_ne hne _ _).trans hn⟩
  | dropUnsent => exact ⟨p, n, .inr hd, hn⟩
  | write | erase | fill | fail => exact ⟨p, n, hd, State.finish_inFlight_eq_none hn⟩
  | @read i p' found h =>
      have hni : n ≠ i := by
        rintro rfl
        rw [hn] at h
        cases h
      exact ⟨p, n, hd, (Function.update_of_ne hni _ _).trans hn⟩

/-- Operations that start have fresh numbers; the others keep theirs. -/
theorem Sound.start (hs : Sound s) {o : Op} (ho : o.Plain ∨ ∃ p < s.nodes, o = .read p) :
    Sound (s.start o) := by
  -- an operation in flight is an old one or the new one
  have hold : ∀ {i o'}, (s.start o).inFlight i = some o' →
      s.inFlight i = some o' ∨ (i = s.next ∧ o = o') := by
    intro i o' h
    rw [State.start_inFlight] at h
    split at h
    · next hi => exact .inr ⟨hi, Option.some.inj h⟩
    · exact .inl h
  refine { hs with
    flight_lt := fun i o' h => ?_
    drop_lt := fun p n hd => ?_
    drop_erase := fun p n o' hd h => ?_
    read_lt := fun i p h => ?_
    fill_lt := fun i p found h => ?_
    erased := fun ⟨p, n, hd, hn⟩ => hs.erased ⟨p, n, hd, ?_⟩ }
  · show i < s.next + 1
    rcases hold h with h | ⟨rfl, -⟩
    · have hlt := hs.flight_lt i o' h
      omega
    · omega
  · obtain ⟨hn, hp⟩ := hs.drop_lt p n hd
    exact ⟨Nat.lt_succ_of_lt hn, hp⟩
  · have hlt := (hs.drop_lt p n hd).1
    rcases hold h with h | ⟨rfl, -⟩
    · exact hs.drop_erase p n o' hd h
    · omega
  · rcases hold h with h | ⟨-, rfl⟩
    · exact hs.read_lt i p h
    · rcases ho with hplain | ⟨q, hq, heq⟩
      · cases hplain
      · cases heq
        exact hq
  · rcases hold h with h | ⟨-, rfl⟩
    · exact hs.fill_lt i p found h
    · rcases ho with hplain | ⟨q, -, heq⟩
      · cases hplain
      · cases heq
  · rw [State.start_inFlight] at hn
    split at hn
    · cases hn
    · exact hn

theorem Sound.finish (hs : Sound s) {i : ℕ} (h : s.IsDrop i → ¬ s.stored) : Sound (s.finish i) := by
  refine { hs with
    flight_lt := fun j o h => hs.flight_lt j o (State.inFlight_of_finish h)
    drop_erase := fun p n o hd h => hs.drop_erase p n o hd (State.inFlight_of_finish h)
    read_lt := fun j p h => hs.read_lt j p (State.inFlight_of_finish h)
    fill_lt := fun j p found h => hs.fill_lt j p found (State.inFlight_of_finish h)
    erased := fun ⟨p, n, hd, hn⟩ => ?_ }
  rw [State.finish_inFlight] at hn
  split at hn
  · next heq => exact h ⟨p, heq ▸ hd⟩
  · exact hs.erased ⟨p, n, hd, hn⟩

/-- Only an erase can be the erase of a drop. -/
theorem Sound.not_isDrop (hs : Sound s) {i : ℕ} {o : Op} (h : s.inFlight i = some o) (ho : o ≠ .erase) :
    ¬ s.IsDrop i :=
  fun ⟨p, hd⟩ => ho (hs.drop_erase p i o hd h)

theorem Move.sound (h : Move s s') (hs : Sound s) : Sound s' := by
  cases h with
  | boot =>
      refine { hs with
        drop_lt := fun p n hd => ?_
        cached_lt := fun p hp => Nat.lt_succ_of_lt (hs.cached_lt p hp)
        read_lt := fun i p h => Nat.lt_succ_of_lt (hs.read_lt i p h)
        fill_lt := fun i p found h => Nat.lt_succ_of_lt (hs.fill_lt i p found h) }
      obtain ⟨hn, hp⟩ := hs.drop_lt p n hd
      exact ⟨hn, Nat.lt_succ_of_lt hp⟩
  | evict h =>
      exact { hs with
        cached_lt := fun p hp => hs.cached_lt p (h hp)
        dropped := fun p hd hp => hs.dropped p hd (h hp) }
  | lose h => exact { hs with erased := fun he hq => hs.erased he (h hq) }
  | put hp hfresh =>
      refine { hs with
        cached_lt := fun q hq => ?_
        dropped := fun q ⟨n, hd⟩ => absurd hd (hfresh _) }
      rcases hq with rfl | hq
      · exact hp
      · exact hs.cached_lt q hq
  | start ho => exact hs.start ho
  | @drop p hp =>
      -- the drop starts an erase, which the new fact is about
      have hstart : Sound (s.start .erase) := hs.start (.inl trivial)
      refine { hstart with
        drop_lt := fun q n hd => ?_
        drop_erase := fun q n o hd h => ?_
        cached_lt := fun q hq => hs.cached_lt q hq.1
        erased := fun ⟨q, n, hd, hn⟩ => ?_
        dropped := fun q ⟨n, hd⟩ hq => ?_ }
      · rcases hd with heq | hd
        · cases heq
          exact ⟨Nat.lt_succ_self _, hp⟩
        · exact hstart.drop_lt q n hd
      · rcases hd with heq | hd
        · cases heq
          rw [State.start_inFlight, if_pos rfl] at h
          exact (Option.some.inj h).symm
        · exact hstart.drop_erase q n o hd h
      · rcases hd with heq | hd
        · cases heq
          rw [State.start_inFlight, if_pos rfl] at hn
          cases hn
        · exact hstart.erased ⟨q, n, hd, hn⟩
      · rcases hd with heq | hd
        · cases heq
          exact hq.2 rfl
        · exact hs.dropped q ⟨n, hd⟩ hq.1
  | @dropUnsent p hp habsent =>
      refine { hs with
        flight_lt := fun i o h => Nat.lt_succ_of_lt (hs.flight_lt i o h)
        drop_lt := fun q n hd => ?_
        drop_erase := fun q n o hd h => ?_
        cached_lt := fun q hq => hs.cached_lt q hq.1
        erased := fun _ => habsent
        dropped := fun q ⟨n, hd⟩ hq => ?_ }
      · rcases hd with heq | hd
        · cases heq
          exact ⟨Nat.lt_succ_self _, hp⟩
        · obtain ⟨hn, hq⟩ := hs.drop_lt q n hd
          exact ⟨Nat.lt_succ_of_lt hn, hq⟩
      · rcases hd with heq | hd
        · cases heq
          exact absurd (hs.flight_lt _ o h) (Nat.lt_irrefl _)
        · exact hs.drop_erase q n o hd h
      · rcases hd with heq | hd
        · cases heq
          exact hq.2 rfl
        · exact hs.dropped q ⟨n, hd⟩ hq.1
  | @write i h hearly =>
      -- a write is not the erase of a drop
      have hdrop := hs.not_isDrop h nofun
      refine { hs.finish (i := i) fun hi => absurd hi hdrop with
        erased := fun ⟨p, n, hd, hn⟩ => ?_ }
      have hni : n ≠ i := fun heq => hdrop ⟨p, heq ▸ hd⟩
      refine absurd ⟨p, n, hd, ?_⟩ hearly
      rwa [State.finish_inFlight, if_neg hni] at hn
  | @erase i h =>
      -- nothing is stored any more, and the erase is over
      have hgone : Sound { s with stored := False } := { hs with erased := fun _ => id }
      exact hgone.finish (i := i) fun _ => id
  | @read i p found h hfound =>
      -- a read turns into a fill, the others stay
      have hold : ∀ {j o}, Function.update s.inFlight i (some (.fill p found)) j = some o →
          (j = i ∧ o = .fill p found) ∨ s.inFlight j = some o := by
        intro j o hj
        rw [Function.update_apply] at hj
        split at hj
        · next heq => exact .inl ⟨heq, (Option.some.inj hj).symm⟩
        · exact .inr hj
      refine { hs with
        flight_lt := fun j o hj => ?_
        drop_erase := fun q n o hd hj => ?_
        read_lt := fun j q hj => ?_
        fill_lt := fun j q f hj => ?_
        erased := fun ⟨q, n, hd, hn⟩ => hs.erased ⟨q, n, hd, ?_⟩ }
      · rcases hold hj with ⟨rfl, -⟩ | hj
        · exact hs.flight_lt _ _ h
        · exact hs.flight_lt j o hj
      · rcases hold hj with ⟨rfl, -⟩ | hj
        · exact absurd ⟨q, hd⟩ (hs.not_isDrop h nofun)
        · exact hs.drop_erase q n o hd hj
      · rcases hold hj with ⟨-, heq⟩ | hj
        · cases heq
        · exact hs.read_lt j q hj
      · rcases hold hj with ⟨-, heq⟩ | hj
        · cases heq
          exact hs.read_lt i p h
        · exact hs.fill_lt j q f hj
      · have hn' : Function.update s.inFlight i (some (.fill p found)) n = none := hn
        rw [Function.update_apply] at hn'
        split at hn'
        · cases hn'
        · exact hn'
  | @fill i p found c h hc hfound =>
      refine { hs.finish (i := i) fun hi => absurd hi (hs.not_isDrop h nofun) with
        cached_lt := fun q hq => ?_
        dropped := fun q hd hq => ?_ }
      · rcases hc hq with rfl | hq
        · exact hs.fill_lt i _ found h
        · exact hs.cached_lt q hq
      · rcases hc hq with rfl | hold
        · rcases hfound hq with hold | ⟨-, hnot⟩
          · exact hs.dropped q hd hold
          · exact hnot hd
        · exact hs.dropped q hd hold
  | @fail i o h habsent =>
      refine hs.finish fun hi => habsent ?_ hi
      obtain ⟨p, hd⟩ := hi
      exact hs.drop_erase p i o hd h
  | skip =>
      exact { hs with
        flight_lt := fun i o h => Nat.lt_succ_of_lt (hs.flight_lt i o h)
        drop_lt := fun p n hd => ⟨Nat.lt_succ_of_lt (hs.drop_lt p n hd).1, (hs.drop_lt p n hd).2⟩ }

theorem Move.gone {m : ℕ} (h : Move s s') (hs : Sound s) (hg : Gone m s) : Gone m s' := by
  -- an erase that has been carried out stays so
  have he := h.erased hs hg.erased
  cases h with
  | boot => exact { hg with erased := he }
  | evict h => exact { hg with erased := he, cached := fun p hp hc => hg.cached p hp (h hc) }
  | lose | skip => exact { hg with erased := he }
  | put hp hfresh =>
      obtain ⟨q, n, hd, -⟩ := hg.erased
      exact absurd hd (hfresh _)
  | start ho =>
      refine { hg with erased := he, fill := fun i p found hp h => ?_ }
      rw [State.start_inFlight] at h
      split at h
      · cases h
        rcases ho with hplain | ⟨q, -, heq⟩
        · cases hplain
        · cases heq
      · exact hg.fill i p found hp h
  | drop =>
      refine ⟨he, fun q hq hc => hg.cached q hq hc.1, fun i q found hq h => ?_⟩
      have h' : (s.start .erase).inFlight i = some (.fill q found) := h
      rw [State.start_inFlight] at h'
      split at h'
      · cases h'
      · exact hg.fill i q found hq h'
  | dropUnsent => exact { hg with erased := he, cached := fun q hq hc => hg.cached q hq hc.1 }
  | write h hearly => exact absurd hg.erased hearly
  | erase =>
      exact { hg with
        erased := he
        fill := fun i p found hp h => hg.fill i p found hp (State.inFlight_of_finish h) }
  | @read i p found h hfound =>
      refine { hg with erased := he, fill := fun j q f hq hj => ?_ }
      have hj' : Function.update s.inFlight i (some (.fill p found)) j = some (.fill q f) := hj
      rw [Function.update_apply] at hj'
      split at hj'
      · cases hj'
        -- a read after the erase finds nothing
        exact fun hf => hs.erased hg.erased (hfound hf)
      · exact hg.fill j q f hq hj'
  | @fill i p found c h hc hfound =>
      refine ⟨he, fun q hq hqc => ?_, fun j q f hq hj =>
        hg.fill j q f hq (State.inFlight_of_finish hj)⟩
      rcases hc hqc with rfl | hold
      · rcases hfound hqc with hold | ⟨hf, -⟩
        · exact hg.cached q hq hold
        · exact hg.fill i q found hq h hf
      · exact hg.cached q hq hold
  | fail =>
      exact { hg with
        erased := he
        fill := fun i p found hp h => hg.fill i p found hp (State.inFlight_of_finish h) }

end Moves

/-! ## Runs -/

abbrev Moves : State → State → Prop := Relation.ReflTransGen Move

variable {s s' : State}

theorem Sound.moves (hs : Sound s) (h : Moves s s') : Sound s' := by
  induction h with
  | refl => exact hs
  | tail _ hm ih => exact hm.sound ih

theorem Gone.moves {m : ℕ} (hg : Gone m s) (hs : Sound s) (h : Moves s s') : Gone m s' := by
  induction h with
  | refl => exact hg
  | tail hms hm ih => exact hm.gone (hs.moves hms) ih

theorem drops_subset_of_moves (h : Moves s s') : s.drops ⊆ s'.drops := by
  induction h with
  | refl => exact fun _ hd => hd
  | tail _ hm ih =>
      intro d hd
      have hd := ih hd
      cases hm with
      | drop | dropUnsent => exact .inr hd
      | _ => exact hd

/-- Where no node has the key and nothing is in flight, everything is in order. -/
theorem sound_of_quiet (hcached : s.cached = ∅) (hflight : ∀ i, s.inFlight i = none)
    (hdrops : s.drops = ∅) : Sound s := by
  refine ⟨fun i o h => ?_, fun p n h => ?_, fun p n o h _ => ?_, fun p h => ?_, fun i p h => ?_,
    fun i p found h => ?_, fun ⟨p, n, h, _⟩ => ?_, fun p ⟨n, h⟩ => ?_⟩
  · rw [hflight] at h
    cases h
  · rw [hdrops] at h
    cases h
  · rw [hdrops] at h
    cases h
  · rw [hcached] at h
    cases h
  · rw [hflight] at h
    cases h
  · rw [hflight] at h
    cases h
  · rw [hdrops] at h
    cases h
  · rw [hdrops] at h
    cases h

/-- Once the erase of a drop has completed, the key stays away from the node that
    dropped it and from every node that starts later. -/
theorem absent_of_drop {s₁ s₂ s₃ : State} {p n : ℕ} (hs : Sound s₁) (hd : (p, n) ∈ s₁.drops)
    (h₂ : Moves s₁ s₂) (hn : s₂.inFlight n = none) (h₃ : Moves s₂ s₃) :
    p ∉ s₃.cached ∧ ∀ q, s₂.nodes ≤ q → q ∉ s₃.cached := by
  have hs₂ := hs.moves h₂
  have hd₂ := drops_subset_of_moves h₂ hd
  have hgone : Gone s₂.nodes s₂ := by
    refine ⟨⟨p, n, hd₂, hn⟩, fun q hq hc => ?_, fun i q found hq h => ?_⟩
    · exact absurd (hs₂.cached_lt q hc) (by omega)
    · exact absurd (hs₂.fill_lt i q found h) (by omega)
  exact ⟨(hs₂.moves h₃).dropped p ⟨n, drops_subset_of_moves h₃ hd₂⟩, (hgone.moves hs₂ h₃).cached⟩

end ZeroAuth.Lib.WriteBehind
