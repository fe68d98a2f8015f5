/-
  ZeroAuth.Sessions.Logout

  Logout is final, for both session stores: in every run whose steps are in order.
-/

import ZeroAuth.Sessions.InMemory
import ZeroAuth.Sessions.Redis

namespace ZeroAuth.Sessions

open ZeroAuth.Lib ZeroAuth.Js

/-- Once `delete` has returned on a pod and everything that was in flight then has
    completed, no later `get` finds the session on this pod, nor on a pod that starts
    later; in the runs whose steps are all `good`. -/
def LogoutFinal {Pod Op Rows L : Type} (M : Machine (Fleet Pod Op Rows) L)
    (good : Fleet Pod Op Rows → L → Prop) (delete : ℕ → JsString → L)
    (get : Fleet Pod Op Rows → ℕ → JsString → Option UserSession) : Prop :=
  ∀ (w₀ w₁ w₂ w₃ w₄ : Fleet Pod Op Rows) (p : ℕ) (id : JsString),
    w₀.Fresh → M.Later good w₀ w₁ → good w₁ (delete p id) → M.step w₁ (delete p id) = some w₂ →
    M.Later good w₂ w₃ → (∀ i < w₂.next, w₃.inFlight i = none) → M.Later good w₃ w₄ →
    get w₄ p id = none ∧ ∀ q, w₃.pods.length ≤ q → get w₄ q id = none

/-- The two classes of session-store.ts. -/
inductive StoreKind
  | inMemorySessionStore
  | redisSessionStore

def StoreKind.LogoutFinal : StoreKind → Prop
  | inMemorySessionStore => Sessions.LogoutFinal memory MemFleet.Ordered .delete MemFleet.get
  | redisSessionStore => Sessions.LogoutFinal redis RedisFleet.Ordered .delete RedisFleet.get

/-- In either store a session stays away from every pod once its logout has been carried out,
    through crashes, restarts and hydrations. -/
theorem logout_final (kind : StoreKind) : kind.LogoutFinal := by
  cases kind with
  | inMemorySessionStore =>
      intro w₀ w₁ w₂ w₃ w₄ p id h₀ h₁ hg h₂ h₃ hdone h₄
      exact memory_logout_final h₀ h₁ hg h₂ h₃ hdone h₄
  | redisSessionStore =>
      intro w₀ w₁ w₂ w₃ w₄ p id h₀ h₁ hg h₂ h₃ hdone h₄
      exact redis_logout_final h₀ h₁ hg h₂ h₃ hdone h₄

/-! ### A logout that holds -/

def alice : UserSession := ⟨js "s", js "alice", .zkp, true, 0, 3600000, none⟩

def memStart : MemFleet := ⟨[], [], fun _ => none, 0, 0, []⟩

def redisStart : RedisFleet := ⟨[], ∅, fun _ => none, 0, 0, []⟩

/-- The last state of a schedule whose steps pass the test. -/
def after {W L : Type} (M : Machine W L) (test : W → L → Bool) (w : W) (ls : List L) : W :=
  (M.runChecked test w ls).getD w

theorem later_after {W L : Type} {M : Machine W L} {test : W → L → Bool} {good : W → L → Prop}
    (htest : ∀ w l, test w l = true → good w l) {w : W} {ls : List L}
    (h : (M.runChecked test w ls).isSome = true) : M.Later good w (after M test w ls) := by
  obtain ⟨w', hw⟩ := Option.isSome_iff_exists.mp h
  rw [after, hw]
  exact Machine.later_of_runChecked htest hw

/-- A test that is enough for `Ordered`. -/
def memInOrder (w : MemFleet) : MemLabel → Bool
  | .create _ session => !w.logouts.any fun x => x.2.1 = session.sessionId
  | .delete p _ => (w.pods[p]?).all fun pod => pod.poolReady
  | .answer i carriedOut =>
      match w.inFlight i with
      | some (.persistCreate session) => !w.logouts.any fun x => x.2.1 = session.sessionId
      | some (.persistDelete _) => carriedOut
      | _ => true
  | .resume i =>
      match w.inFlight i with
      | some (.hydrated _ (some rows)) => rows.isEmpty
      | _ => true
  | _ => true

theorem notMem_logouts {w : MemFleet} {id : JsString}
    (h : (!w.logouts.any fun x => x.2.1 = id) = true) (p n : ℕ) : (p, id, n) ∉ w.logouts := by
  intro hmem
  have hany : (w.logouts.any fun x => x.2.1 = id) = true :=
    List.any_eq_true.mpr ⟨_, hmem, decide_eq_true rfl⟩
  rw [hany] at h
  cases h

theorem ordered_of_memInOrder {w : MemFleet} {l : MemLabel} (h : memInOrder w l = true) :
    MemFleet.Ordered w l := by
  cases l with
  | create p session => exact fun q ⟨n, hd⟩ => notMem_logouts h q n hd
  | delete p sessionId =>
      intro pod hp hready
      simp only [memInOrder, hp, Option.all_some, hready, Bool.false_eq_true] at h
  | answer i carriedOut =>
      intro o ho
      simp only [memInOrder, ho] at h
      cases o with
      | persistCreate session => exact fun _ ⟨p, n, hd, _⟩ => notMem_logouts h p n hd
      | persistDelete sessionId =>
          intro hfail
          have hcarried : carriedOut = true := h
          rw [hfail] at hcarried
          cases hcarried
      | cleanupExpired => trivial
      | hydrate p => trivial
      | hydrated p rows => trivial
  | resume i =>
      intro p rows ho r hr
      simp only [memInOrder, ho, List.isEmpty_iff] at h
      rw [h] at hr
      cases hr
  | _ => trivial

/-- A session is created on pod 0, stored, deleted there and in the table. -/
def memStored : MemFleet :=
  after memory memInOrder memStart [.boot true, .create 0 alice, .answer 0 true]

def memLoggedOut : MemFleet := after memory memInOrder memStored [.delete 0 alice.sessionId]

def memErased : MemFleet := after memory memInOrder memLoggedOut [.answer 1 true]

/-- Then another pod starts. -/
def memRestarted : MemFleet :=
  after memory memInOrder memErased [.boot true, .init 1, .answer 2 true, .resume 2]

theorem logout_final_of_one : MemFleet.get memStored 0 alice.sessionId = some alice ∧
    MemFleet.get memRestarted 0 alice.sessionId = none ∧
    MemFleet.get memRestarted 1 alice.sessionId = none := by
  have htest : ∀ w l, memInOrder w l = true → MemFleet.Ordered w l := fun _ _ => ordered_of_memInOrder
  have hfresh : memStart.Fresh := ⟨rfl, fun _ => rfl, rfl⟩
  have hfinal : LogoutFinal memory MemFleet.Ordered .delete MemFleet.get :=
    logout_final .inMemorySessionStore
  obtain ⟨hpod, hlater⟩ := hfinal memStart memStored memLoggedOut memErased memRestarted 0
    alice.sessionId hfresh (later_after htest rfl)
    (ordered_of_memInOrder rfl) rfl (later_after htest rfl)
    (by decide) (later_after htest (by decide))
  exact ⟨by decide, hpod, hlater 1 (by decide)⟩

/-! ### Logouts that are undone -/

def anyStep {W L : Type} (_ : W) (_ : L) : Bool := true

def memCreated : MemFleet := after memory anyStep memStart [.boot true, .create 0 alice]

def memDeleted : MemFleet := after memory anyStep memCreated [.delete 0 alice.sessionId]

/-- The DELETE overtakes the INSERT. -/
def memSettled : MemFleet := after memory anyStep memDeleted [.answer 1 true, .answer 0 true]

def memRevived : MemFleet :=
  after memory anyStep memSettled [.boot true, .init 1, .answer 2 true, .resume 2]

/-- Pod 1 has sent the GET of a session that pod 0 has created, and it has been answered. -/
def redisRead : RedisFleet :=
  after redis anyStep redisStart [.boot, .init 0, .answer 0 true, .create 0 alice, .answer 1 true,
    .boot, .init 1, .answer 2 true, .get 1 alice.sessionId, .answer 3 true]

def redisDeleted : RedisFleet := after redis anyStep redisRead [.delete 1 alice.sessionId]

/-- The read goes on after the deletion on its pod. -/
def redisSettled : RedisFleet := after redis anyStep redisDeleted [.resume 3, .answer 4 true]

theorem logout_undone :
    ¬ LogoutFinal memory (fun _ _ => True) .delete MemFleet.get ∧
    ¬ LogoutFinal redis (fun _ _ => True) .delete RedisFleet.get := by
  have htest : ∀ {W L : Type} (w : W) (l : L), anyStep w l = true → True := fun _ _ _ => trivial
  constructor
  · intro h
    have hnone := (h memStart memCreated memDeleted memSettled memRevived 0 alice.sessionId
      ⟨rfl, fun _ => rfl, rfl⟩ (later_after htest (rfl)) trivial rfl
      (later_after htest (by decide)) (by decide)
      (later_after htest (by decide))).2 1 (by decide)
    have hsome : MemFleet.get memRevived 1 alice.sessionId = some alice := rfl
    rw [hsome] at hnone
    cases hnone
  · intro h
    have hnone := (h redisStart redisRead redisDeleted redisSettled redisSettled 1 alice.sessionId
      ⟨rfl, fun _ => rfl, rfl⟩ (later_after htest (rfl)) trivial rfl
      (later_after htest (by decide)) (by decide) .refl).1
    have hsome : RedisFleet.get redisSettled 1 alice.sessionId = some alice := rfl
    rw [hsome] at hnone
    cases hnone

end ZeroAuth.Sessions
