/-
  ZeroAuth.Lib.Quota

  A cap that is checked by counting first and inserting later.

  Calls count the rows of a key and insert one more row in a later step.  The
  estimate of a call is its count plus all rows that were inserted for the key
  since; no more rows are there than that.  So the cap holds in every run in
  which no call inserts when its estimate has reached the cap.
-/

import Mathlib.Data.List.Induction
import ZeroAuth.Lib.Interleaving

namespace ZeroAuth.Lib

variable {S : Sig} {ε α γ W Ω E κ : Type} [DecidableEq κ]

/-- What is counted for a key, which answers are counts, and which operations
    insert. -/
structure Quota (S : Sig) (ε W κ : Type) where
  load : W → κ → ℕ
  counted : Act S ε → Option (κ × ℕ)
  inserts : S.Op → Option κ

namespace Quota

variable (Q : Quota S ε W κ)

/-- The key for which a row has been inserted. -/
def inserted (x : Act S ε) : Option κ :=
  match x.answer with
  | .ok _ => Q.inserts x.op
  | .error _ => none

/-- How one event changes the estimate of call `t` for `k`. -/
def bump (t : ℕ) (k : κ) (estimate : Option ℕ) (e : Event S ε) : Option ℕ :=
  match Q.counted e.act with
  | some (k', n) => if e.caller = t ∧ k' = k then some n else estimate
  | none => if Q.inserted e.act = some k then estimate.map (· + 1) else estimate

/-- The last count of call `t` for `k`, plus the rows inserted since. -/
def estimate (t : ℕ) (k : κ) (log : List (Event S ε)) : Option ℕ := log.foldl (Q.bump t k) none

theorem estimate_append (t : ℕ) (k : κ) (log : List (Event S ε)) (e : Event S ε) :
    Q.estimate t k (log ++ [e]) = Q.bump t k (Q.estimate t k log) e := by
  rw [estimate, List.foldl_append]
  rfl

theorem bump_isSome {t : ℕ} {k : κ} {m : Option ℕ} (h : m.isSome = true) (e : Event S ε) :
    (Q.bump t k m e).isSome = true := by
  unfold bump
  split
  · split
    · rfl
    · exact h
  · split
    · rw [Option.isSome_map]
      exact h
    · exact h

/-- A call that has counted has an estimate. -/
theorem estimate_isSome {t : ℕ} {k : κ} {log : List (Event S ε)}
    (h : ∃ e ∈ log, e.caller = t ∧ ∃ n, Q.counted e.act = some (k, n)) :
    (Q.estimate t k log).isSome = true := by
  induction log using List.reverseRecOn with
  | nil =>
      obtain ⟨e, he, -⟩ := h
      cases he
  | append_singleton log e ih =>
      rw [estimate_append]
      obtain ⟨e', he', hcaller, n, hn⟩ := h
      rcases List.mem_append.mp he' with he' | he'
      · exact Q.bump_isSome (ih ⟨e', he', hcaller, n, hn⟩) e
      · obtain rfl := List.mem_singleton.mp he'
        rw [bump, hn]
        simp [hcaller]

/-- A call counts for the key that it inserts for, before it does. -/
def CountedFirst (es : List (Act S ε)) (o : S.Op) : Prop :=
  ∀ k, Q.inserts o = some k → ∃ x ∈ es, ∃ n, Q.counted x = some (k, n)

omit [DecidableEq κ] in
variable {Q} in
theorem countedFirst_of_none {es : List (Act S ε)} {o : S.Op} (h : Q.inserts o = none) :
    Q.CountedFirst es o := by
  intro k hk
  rw [h] at hk
  cases hk

omit [DecidableEq κ] in
variable {Q} in
/-- A program that never inserts. -/
theorem before_of_only {p : Prog S ε α} (h : Prog.Only (fun o => Q.inserts o = none) p) :
    Prog.Before Q.CountedFirst p :=
  h.before fun _ _ => countedFirst_of_none

variable (Y : System S ε α γ W Ω E)

/-- Counts are true, one insertion adds one row at most, and nothing else adds a
    row. -/
structure Sound : Prop where
  counts : ∀ {t o ω w r w' k n}, Y.exec t o ω w = some (r, w') →
    Q.counted ⟨o, r⟩ = some (k, n) → Q.load w' k ≤ n
  grows : ∀ {t o ω w r w'}, Y.exec t o ω w = some (r, w') → ∀ k,
    Q.load w' k ≤ Q.load w k + if Q.inserted ⟨o, r⟩ = some k then 1 else 0
  separate : ∀ {o r k n}, Q.counted ⟨o, r⟩ = some (k, n) → Q.inserts o = none
  env : ∀ {e w w'}, Y.env e w = some w' → ∀ k, Q.load w' k ≤ Q.load w k

variable {Q Y}

theorem load_le_estimate (hQ : Q.Sound Y) {init : W → Prop}
    {good : Config S ε α γ W → Label γ Ω E → Prop} {c : Config S ε α γ W}
    (h : Y.Reach init good c) : ∀ t k m, Q.estimate t k c.log = some m → Q.load c.world k ≤ m := by
  refine System.Reach.world_invariant (I := fun w log => ∀ t k m, Q.estimate t k log = some m →
    Q.load w k ≤ m) (fun _ _ _ _ _ hm => by cases hm) (fun w log t' o ω r w' hI hx t k m hm => ?_)
    (fun w log e w' hI he t k m hm => Nat.le_trans (hQ.env he k) (hI t k m hm)) h
  have hgrows := hQ.grows hx k
  rw [estimate_append, bump] at hm
  split at hm
  · next k' n hcounted =>
      have hnone : Q.inserted ⟨o, r⟩ ≠ some k := by
        unfold inserted
        split
        · rw [hQ.separate hcounted]
          simp
        · simp
      split at hm
      · next hown =>
          obtain ⟨-, rfl⟩ := hown
          cases hm
          exact hQ.counts hx hcounted
      · rw [if_neg hnone] at hgrows
        exact Nat.le_trans hgrows (hI t k m hm)
  · split at hm
    · next hinserted =>
        obtain ⟨m', hm', rfl⟩ := Option.map_eq_some_iff.mp hm
        rw [if_pos hinserted] at hgrows
        exact Nat.le_trans hgrows (Nat.succ_le_succ (hI t k m' hm'))
    · next hinserted =>
        rw [if_neg hinserted] at hgrows
        exact Nat.le_trans hgrows (hI t k m hm)

/-- A call that is about to insert still has room by its estimate. -/
def room (Q : Quota S ε W κ) (cap : ℕ) (c : Config S ε α γ W) : Label γ Ω E → Bool
  | .resume t _ =>
      match c.threads[t]? with
      | some ⟨_, _, .await o _⟩ =>
          (Q.inserts o).all fun k => (Q.estimate t k c.log).all fun m => m < cap
      | _ => true
  | _ => true

/-- The cap holds in every run whose insertions have room by their estimates. -/
theorem load_le_cap (hQ : Q.Sound Y) {cap : ℕ} {init : W → Prop}
    (hcode : ∀ a, Prog.Before Q.CountedFirst (Y.code a))
    (hinit : ∀ w, init w → ∀ k, Q.load w k ≤ cap) {c : Config S ε α γ W}
    (h : Y.Reach init (fun c l => Q.room cap c l = true) c) (k : κ) : Q.load c.world k ≤ cap := by
  refine System.Reach.invariant (I := fun c => Q.load c.world k ≤ cap) ?_ ?_ ?_ ?_ h
  · exact fun w hw => hinit w hw k
  · exact fun _ _ _ hI _ => hI
  · intro c t ω a past o cont r w hc hI hg hth hx
    have hgrows := hQ.grows hx k
    by_cases hins : Q.inserted ⟨o, r⟩ = some k
    · have hop : Q.inserts o = some k := by
        unfold inserted at hins
        split at hins
        · exact hins
        · cases hins
      -- the call has counted, so it has an estimate, and that leaves room
      obtain ⟨x, hx, n, hn⟩ := hc.before hth (hcode a) k hop
      have hest := Q.estimate_isSome ⟨⟨t, x⟩, (hc.mem_log hth).mp hx, rfl, n, hn⟩
      obtain ⟨m, hm⟩ := Option.isSome_iff_exists.mp hest
      simp only [room, hth, hop, Option.all_some, hm, decide_eq_true_eq] at hg
      have hload := load_le_estimate hQ hc t k m hm
      rw [if_pos hins] at hgrows
      change Q.load w k ≤ cap
      omega
    · rw [if_neg hins] at hgrows
      exact Nat.le_trans hgrows hI
  · exact fun c e w _ hI _ he => Nat.le_trans (hQ.env he k) hI

end Quota

end ZeroAuth.Lib
