/-
  ZeroAuth.Sessions.Store

  What the two session stores of src/services/session-store.ts share: the sessions,
  the statistics, and the `Map` from session id to session.
-/

import Mathlib.Data.List.AList
import Mathlib.Data.Set.Insert
import ZeroAuth.Js.Text

namespace ZeroAuth.Sessions

open ZeroAuth.Js

inductive Provider
  | saml
  | oidc
  | zkp
  deriving DecidableEq

/-- Times in milliseconds.  `did` is set by some callers only. -/
structure UserSession where
  sessionId : JsString
  userId : JsString
  provider : Provider
  verified : Bool
  createdAt : ℕ
  expiresAt : ℕ
  did : Option JsString
  deriving DecidableEq

structure ProviderCounts where
  saml : ℕ
  oidc : ℕ
  zkp : ℕ

def ProviderCounts.zero : ProviderCounts := ⟨0, 0, 0⟩

def ProviderCounts.increment (c : ProviderCounts) : Provider → ProviderCounts
  | .saml => { c with saml := c.saml + 1 }
  | .oidc => { c with oidc := c.oidc + 1 }
  | .zkp => { c with zkp := c.zkp + 1 }

structure AdminStats where
  totalVerifications : ℕ
  activeSessionCount : ℕ
  providerBreakdown : ProviderCounts
  biometricDataStored : Bool
  message : JsString
  uptimeSeconds : ℕ

abbrev SessionMap := AList fun _ : JsString => UserSession

/-- The loop of `getStats`. -/
def pruneExpired (sessions : SessionMap) (now : ℕ) : SessionMap :=
  sessions.entries.foldl (fun m e => if e.2.expiresAt < now then m.erase e.1 else m) sessions

def adminStats (sessions : SessionMap) (counts : ProviderCounts) (startTime now : ℕ) : AdminStats where
  totalVerifications := counts.saml + counts.oidc + counts.zkp
  activeSessionCount := sessions.entries.length
  providerBreakdown := counts
  biometricDataStored := false
  message := js "Zero biometric data stored. Ever. Breach-proof by architecture."
  uptimeSeconds := (now - startTime) / 1000

/-- Pruning only takes sessions away. -/
theorem mem_of_mem_pruneExpired {sessions : SessionMap} {now : ℕ} {id : JsString}
    (h : id ∈ pruneExpired sessions now) : id ∈ sessions := by
  have hfold : ∀ (es : List (Sigma fun _ : JsString => UserSession)) (m : SessionMap),
      id ∈ es.foldl (fun m e => if e.2.expiresAt < now then m.erase e.1 else m) m → id ∈ m := by
    intro es
    induction es with
    | nil => exact fun _ h => h
    | cons e es ih =>
        intro m h
        have hm := ih _ h
        dsimp only at hm
        split at hm
        · exact (AList.mem_erase.mp hm).2
        · exact hm
  exact hfold _ _ h

/-! ## Who has a session in its cache -/

/-- The numbers of the caches that have the session. -/
def cachedIn (caches : List SessionMap) (id : JsString) : Set ℕ :=
  {p | ∃ m, caches[p]? = some m ∧ id ∈ m}

variable {caches : List SessionMap} {id : JsString} {p : ℕ} {m m' : SessionMap}

theorem mem_cachedIn_set (hp : caches[p]? = some m) (q : ℕ) :
    q ∈ cachedIn (caches.set p m') id ↔ (q = p ∧ id ∈ m') ∨ (q ≠ p ∧ q ∈ cachedIn caches id) := by
  have hlt := (List.getElem?_eq_some_iff.mp hp).1
  by_cases hq : q = p
  · subst hq
    simp [cachedIn, hlt]
  · simp [cachedIn, hq, List.getElem?_set_ne (Ne.symm hq)]

theorem mem_cachedIn_self (hp : caches[p]? = some m) : p ∈ cachedIn caches id ↔ id ∈ m := by
  simp [cachedIn, hp]

theorem cachedIn_set_subset (hp : caches[p]? = some m) (h : id ∈ m' → id ∈ m) :
    cachedIn (caches.set p m') id ⊆ cachedIn caches id := by
  intro q hq
  rcases (mem_cachedIn_set hp q).mp hq with ⟨rfl, hm⟩ | ⟨-, hold⟩
  · exact (mem_cachedIn_self hp).mpr (h hm)
  · exact hold

theorem cachedIn_set_insert (hp : caches[p]? = some m) (h : id ∈ m') :
    cachedIn (caches.set p m') id = insert p (cachedIn caches id) := by
  ext q
  rw [mem_cachedIn_set hp]
  by_cases hqp : q = p
  · simp [hqp, h]
  · simp [hqp]

theorem cachedIn_set_remove (hp : caches[p]? = some m) (h : id ∉ m') :
    cachedIn (caches.set p m') id = cachedIn caches id \ {p} := by
  ext q
  rw [mem_cachedIn_set hp]
  by_cases hqp : q = p
  · simp [hqp, h]
  · simp [hqp]

theorem cachedIn_append_empty : cachedIn (caches ++ [∅]) id = cachedIn caches id := by
  ext q
  simp only [cachedIn, Set.mem_ofPred_eq, List.getElem?_append]
  split
  · rfl
  · next hlt =>
      rw [List.getElem?_eq_none (by omega : caches.length ≤ q)]
      simp only [reduceCtorEq, false_and, exists_false, iff_false, not_exists, not_and]
      intro m hm
      rw [List.getElem?_singleton] at hm
      split at hm
      · cases hm
        exact AList.notMem_empty id
      · cases hm

end ZeroAuth.Sessions
