/-
  ZeroAuth.Sessions.InMemory

  `InMemorySessionStore` of src/services/session-store.ts on any number of pods
  over one table `user_sessions`.

  The calls change the cache of their pod at once and start a statement that
  nobody waits for.  Statements are carried out, or fail, in any order; `init`
  resumes some time after its SELECT was answered.
-/

import ZeroAuth.Sessions.Fleet

namespace ZeroAuth.Sessions

open ZeroAuth.Lib ZeroAuth.Js

/-! ## The store -/

/-- A pod.  `poolReady` says whether `getPool` answers in its process, `up` whether
    the process runs. -/
structure InMemorySessionStore where
  sessions : SessionMap
  verificationCount : ProviderCounts
  startTime : ℕ
  hydrated : Bool
  cleanupInterval : Bool
  poolReady : Bool
  up : Bool

namespace InMemorySessionStore

def create (pod : InMemorySessionStore) (session : UserSession) : InMemorySessionStore :=
  { pod with
    sessions := pod.sessions.insert session.sessionId session
    verificationCount := pod.verificationCount.increment session.provider }

/-- What `get` answers. -/
def get (pod : InMemorySessionStore) (sessionId : JsString) (now : ℕ) : Option UserSession :=
  (pod.sessions.lookup sessionId).filter fun s => ¬ s.expiresAt < now

/-- Whether `get` finds an expired session, which it deletes. -/
def getDeletes (pod : InMemorySessionStore) (sessionId : JsString) (now : ℕ) : Bool :=
  (pod.sessions.lookup sessionId).any fun s => s.expiresAt < now

/-- Whether `delete` found the session, and the pod after it. -/
def delete (pod : InMemorySessionStore) (sessionId : JsString) : Bool × InMemorySessionStore :=
  (sessionId ∈ pod.sessions, { pod with sessions := pod.sessions.erase sessionId })

def getStats (pod : InMemorySessionStore) (now : ℕ) : AdminStats × InMemorySessionStore :=
  let sessions := pruneExpired pod.sessions now
  (adminStats sessions pod.verificationCount pod.startTime now, { pod with sessions := sessions })

/-- The rest of `init`, after the SELECT was answered or has failed. -/
def hydrate (pod : InMemorySessionStore) (rows : Option (List UserSession)) : InMemorySessionStore :=
  { pod with
    sessions := (rows.getD []).foldl
      (fun m row => m.insert row.sessionId { row with did := none }) pod.sessions
    hydrated := true
    cleanupInterval := true }

def stop (pod : InMemorySessionStore) : InMemorySessionStore := { pod with cleanupInterval := false }

end InMemorySessionStore

/-! ## The table -/

/-- The INSERT with its ON CONFLICT clause, which keeps `created_at`. -/
def upsertSession (rows : List UserSession) (s : UserSession) : List UserSession :=
  if rows.any fun r => r.sessionId = s.sessionId then
    rows.map fun r => if r.sessionId = s.sessionId then { s with createdAt := r.createdAt } else r
  else rows ++ [s]

/-- A statement in flight, and an `init` whose SELECT has been answered. -/
inductive MemOp
  | persistCreate (session : UserSession)
  | persistDelete (sessionId : JsString)
  | cleanupExpired
  | hydrate (p : ℕ)
  | hydrated (p : ℕ) (rows : Option (List UserSession))

/-- What a statement is to the session `id`. -/
def MemOp.view (id : JsString) : MemOp → WriteBehind.Op
  | .persistCreate session => if session.sessionId = id then .write else .other
  | .persistDelete sessionId => if sessionId = id then .erase else .other
  | .cleanupExpired => .other
  | .hydrate p => .read p
  | .hydrated p rows => .fill p (∃ r ∈ rows.getD [], r.sessionId = id)

instance : SessionStore InMemorySessionStore MemOp (List UserSession) where
  cache := InMemorySessionStore.sessions
  up := InMemorySessionStore.up
  view := MemOp.view
  Holds rows id := ∃ r ∈ rows, r.sessionId = id

/-! ## The pods -/

abbrev MemFleet := Fleet InMemorySessionStore MemOp (List UserSession)

inductive MemLabel
  | boot (poolReady : Bool)
  | openPool (p : ℕ)
  | crash (p : ℕ)
  | init (p : ℕ)
  | create (p : ℕ) (session : UserSession)
  | get (p : ℕ) (sessionId : JsString)
  | delete (p : ℕ) (sessionId : JsString)
  | getStats (p : ℕ)
  | stop (p : ℕ)
  | cleanup (p : ℕ)
  | answer (i : ℕ) (carriedOut : Bool)
  | resume (i : ℕ)
  | tick (ms : ℕ)

namespace MemFleet

/-- The pod forgets the session and sends the DELETE. -/
def deleteOn (w : MemFleet) (p : ℕ) (pod : InMemorySessionStore) (sessionId : JsString) : MemFleet :=
  (w.setPod p (pod.delete sessionId).2).send pod.poolReady (.persistDelete sessionId)

/-- Statement `i` is carried out, or fails. -/
def answer (w : MemFleet) (i : ℕ) (carriedOut : Bool) : MemOp → Option MemFleet
  | .persistCreate session =>
      some { w.update i none with
        rows := if carriedOut then upsertSession w.rows session else w.rows }
  | .persistDelete sessionId =>
      some { w.update i none with
        rows := if carriedOut then w.rows.filter fun r => r.sessionId ≠ sessionId else w.rows }
  | .cleanupExpired =>
      some { w.update i none with
        rows := if carriedOut then w.rows.filter fun r => ¬ r.expiresAt ≤ w.clock else w.rows }
  | .hydrate p =>
      some (w.update i (some (.hydrated p
        (if carriedOut then some (w.rows.filter fun r => r.expiresAt > w.clock) else none))))
  | .hydrated _ _ => none

def step (w : MemFleet) : MemLabel → Option MemFleet
  | .boot poolReady =>
      some { w with pods := w.pods ++ [⟨∅, .zero, w.clock, false, false, poolReady, true⟩] }
  | .openPool p => w.onPod p fun pod => some (w.setPod p { pod with poolReady := true })
  | .crash p => w.onPod p fun pod => some (w.setPod p { pod with up := false })
  -- without a pool the load fails at once, and a failed load counts as hydrated
  | .init p => w.onPod p fun pod =>
      if pod.hydrated then some w
      else if pod.poolReady then some (w.send true (.hydrate p))
      else some (w.setPod p (pod.hydrate none))
  | .create p session => w.onPod p fun pod =>
      some ((w.setPod p (pod.create session)).send pod.poolReady (.persistCreate session))
  -- a lookup past the session's time deletes it
  | .get p sessionId => w.onPod p fun pod =>
      if pod.getDeletes sessionId w.clock then some (deleteOn w p pod sessionId) else some w
  | .delete p sessionId => w.onPod p fun pod =>
      some ((deleteOn w p pod sessionId).logout p sessionId w.next)
  | .getStats p => w.onPod p fun pod => some (w.setPod p (pod.getStats w.clock).2)
  | .stop p => w.onPod p fun pod => some (w.setPod p pod.stop)
  -- the interval runs until `stop`
  | .cleanup p => w.onPod p fun pod =>
      if pod.cleanupInterval then some (w.send pod.poolReady .cleanupExpired) else none
  | .answer i carriedOut => (w.inFlight i).bind (answer w i carriedOut)
  -- the rows were read when the answer came, and are put in the map now
  | .resume i =>
      match w.inFlight i with
      | some (.hydrated p rows) =>
          match w.pods[p]? with
          | some pod => some ((w.update i none).setPod p (if pod.up then pod.hydrate rows else pod))
          | none => none
      | _ => none
  | .tick ms => some { w with clock := w.clock + ms }

/-- What `get` answers on pod `p`. -/
def get (w : MemFleet) (p : ℕ) (sessionId : JsString) : Option UserSession :=
  match w.pods[p]? with
  | some pod => pod.get sessionId w.clock
  | none => none

/-- The step does not undo a logout: an id is not created again after its logout;
    an INSERT is not carried out after the DELETE of a logout of its session has
    completed; the DELETE of a logout is sent, and does not fail, while the table
    has the session; no hydration resumes on a pod with a session that was logged
    out there. -/
def Ordered (w : MemFleet) : MemLabel → Prop
  | .create _ session => ∀ q, ¬ w.LoggedOutOn q session.sessionId
  | .delete p sessionId =>
      ∀ pod, w.pods[p]? = some pod → pod.poolReady = false → ¬ w.Stored sessionId
  | .answer i carriedOut => ∀ o, w.inFlight i = some o →
      match o with
      | .persistCreate session => carriedOut = true → ¬ w.Erased session.sessionId
      | .persistDelete sessionId =>
          carriedOut = false → (∃ p, (p, sessionId, i) ∈ w.logouts) → ¬ w.Stored sessionId
      | _ => True
  | .resume i => ∀ p rows, w.inFlight i = some (.hydrated p (some rows)) →
      ∀ r ∈ rows, ¬ w.LoggedOutOn p r.sessionId
  | _ => True

end MemFleet

abbrev memory : Machine MemFleet MemLabel := ⟨MemFleet.step⟩

/-! ## One session -/

section Session

variable {w w' : MemFleet} {id : JsString}

theorem stored_upsertSession {rows : List UserSession} {s : UserSession} :
    (∃ r ∈ upsertSession rows s, r.sessionId = id) ↔
      s.sessionId = id ∨ ∃ r ∈ rows, r.sessionId = id := by
  rw [upsertSession]
  split
  · next hany =>
      obtain ⟨r₀, hr₀, hkey⟩ := List.any_eq_true.mp hany
      have hkey : r₀.sessionId = s.sessionId := of_decide_eq_true hkey
      constructor
      · rintro ⟨r, hr, rfl⟩
        obtain ⟨r', hr', rfl⟩ := List.mem_map.mp hr
        split
        · exact .inl rfl
        · exact .inr ⟨r', hr', rfl⟩
      · rintro (rfl | ⟨r, hr, rfl⟩)
        · exact ⟨_, List.mem_map.mpr ⟨r₀, hr₀, rfl⟩, by rw [if_pos hkey]⟩
        · refine ⟨_, List.mem_map.mpr ⟨r, hr, rfl⟩, ?_⟩
          split
          · next heq => exact heq.symm
          · rfl
  · simp only [List.mem_append, List.mem_singleton]
    constructor
    · rintro ⟨r, hr | rfl, rfl⟩
      · exact .inr ⟨r, hr, rfl⟩
      · exact .inl rfl
    · rintro (rfl | ⟨r, hr, rfl⟩)
      · exact ⟨s, .inr rfl, rfl⟩
      · exact ⟨r, .inl hr, rfl⟩

theorem mem_hydrate {pod : InMemorySessionStore} {rows : Option (List UserSession)} :
    id ∈ (pod.hydrate rows).sessions ↔ id ∈ pod.sessions ∨ ∃ r ∈ rows.getD [], r.sessionId = id := by
  have hfold : ∀ (rs : List UserSession) (m : SessionMap),
      id ∈ rs.foldl (fun m row => m.insert row.sessionId { row with did := none }) m ↔
        id ∈ m ∨ ∃ r ∈ rs, r.sessionId = id := by
    intro rs
    induction rs with
    | nil => simp
    | cons r rs ih =>
        intro m
        rw [List.foldl_cons, ih, AList.mem_insert]
        simp only [List.mem_cons, exists_eq_or_imp]
        tauto
  exact hfold _ _

theorem persistCreate_view_ne_erase {session : UserSession} :
    (MemOp.persistCreate session).view id ≠ .erase := by
  rw [MemOp.view]
  split <;> nofun

theorem persistCreate_plain {session : UserSession} : ((MemOp.persistCreate session).view id).Plain := by
  rw [MemOp.view]
  split <;> trivial

theorem persistDelete_plain {sessionId : JsString} :
    ((MemOp.persistDelete sessionId).view id).Plain := by
  rw [MemOp.view]
  split <;> trivial

theorem moves_answer {i : ℕ} {carriedOut : Bool} {o : MemOp} (ho : w.inFlight i = some o)
    (h : MemFleet.answer w i carriedOut o = some w') (hg : MemFleet.Ordered w (.answer i carriedOut)) :
    WriteBehind.Moves (w.view id) (w'.view id) := by
  have hg := hg o ho
  cases o with
  | persistCreate session =>
      cases h
      cases carriedOut with
      | false =>
          exact Fleet.moves_finish ho (fun heq => absurd heq persistCreate_view_ne_erase) fun hr => hr
      | true =>
          -- for the session itself a write, for others an answer that does not matter
          by_cases hid : session.sessionId = id
          · subst hid
            exact Fleet.moves_write ho (if_pos rfl) (hg rfl) (stored_upsertSession.mpr (.inl rfl))
          · exact Fleet.moves_finish ho (fun heq => absurd heq persistCreate_view_ne_erase) fun hr =>
              (stored_upsertSession.mp hr).resolve_left hid
  | persistDelete sessionId =>
      cases h
      -- for the session itself the erase, for others an answer that does not matter
      by_cases hid : sessionId = id
      · subst hid
        cases carriedOut with
        | false => exact Fleet.moves_finish ho (fun _ hdrop => hg rfl hdrop) fun hr => hr
        | true =>
            refine Fleet.moves_erase ho (if_pos rfl) ?_
            rintro ⟨r, hr, heq⟩
            exact absurd heq (by simpa using (List.mem_filter.mp hr).2)
      · refine Fleet.moves_finish ho (fun heq => ?_) fun ⟨r, hr, heq⟩ => ?_
        · have heq : (if sessionId = id then WriteBehind.Op.erase else .other) = .erase := heq
          rw [if_neg hid] at heq
          cases heq
        · split at hr
          · exact ⟨r, List.mem_of_mem_filter hr, heq⟩
          · exact ⟨r, hr, heq⟩
  | cleanupExpired =>
      cases h
      refine Fleet.moves_finish ho (fun heq => by cases heq) fun ⟨r, hr, heq⟩ => ?_
      split at hr
      · exact ⟨r, List.mem_of_mem_filter hr, heq⟩
      · exact ⟨r, hr, heq⟩
  | hydrate p =>
      cases h
      refine Fleet.moves_read ho rfl rfl ?_
      rintro ⟨r, hr, heq⟩
      cases carriedOut with
      | true => exact ⟨r, List.mem_of_mem_filter hr, heq⟩
      | false => cases hr
  | hydrated p rows => cases h

theorem moves_resume {i p : ℕ} {rows : Option (List UserSession)} {pod : InMemorySessionStore}
    (ho : w.inFlight i = some (.hydrated p rows)) (hp : w.pods[p]? = some pod)
    (hg : MemFleet.Ordered w (.resume i)) :
    WriteBehind.Moves (w.view id)
      (((w.update i none).setPod p (if pod.up then pod.hydrate rows else pod)).view id) := by
  refine Fleet.moves_fill ho hp rfl fun hmem => ?_
  have hmem : id ∈ (if pod.up then pod.hydrate rows else pod).sessions := hmem
  split at hmem
  · rcases mem_hydrate.mp hmem with hold | ⟨r, hr, heq⟩
    · exact .inl hold
    · cases rows with
      | none => cases hr
      | some rows => exact .inr ⟨⟨r, hr, heq⟩, heq ▸ hg p rows ho r hr⟩
  · exact .inl hmem

/-- Every step that keeps the order is a run of the write-behind cache. -/
theorem MemFleet.moves_of_step {l : MemLabel} (hg : MemFleet.Ordered w l)
    (hs : memory.step w l = some w') : WriteBehind.Moves (w.view id) (w'.view id) := by
  cases l with
  | boot poolReady =>
      cases hs
      exact Fleet.moves_boot rfl
  | openPool p =>
      obtain ⟨pod, hp, hw⟩ := Fleet.of_onPod hs
      cases hw
      exact Fleet.moves_setPod hp fun h => h
  | crash p =>
      obtain ⟨pod, hp, hw⟩ := Fleet.of_onPod hs
      cases hw
      exact Fleet.moves_setPod hp fun h => h
  | init p =>
      obtain ⟨pod, hp, hw⟩ := Fleet.of_onPod hs
      split at hw
      · cases hw
        exact .refl
      · split at hw
        · cases hw
          exact Fleet.moves_send _ (.inr ⟨p, (List.getElem?_eq_some_iff.mp hp).1, rfl⟩)
        · cases hw
          exact Fleet.moves_setPod hp fun h => h
  | create p session =>
      obtain ⟨pod, hp, hw⟩ := Fleet.of_onPod hs
      cases hw
      -- `create` puts it into the map and sends the write behind it
      exact .trans (Fleet.moves_put hp rfl hg) (Fleet.moves_send _ (.inl persistCreate_plain))
  | get p sessionId =>
      obtain ⟨pod, hp, hw⟩ := Fleet.of_onPod hs
      split at hw
      · cases hw
        -- one that has expired is dropped from the map, and its row is deleted
        exact .trans (Fleet.moves_setPod hp fun h => (AList.mem_erase.mp h).2)
          (Fleet.moves_send _ (.inl persistDelete_plain))
      · cases hw
        exact .refl
  | delete p sessionId =>
      obtain ⟨pod, hp, hw⟩ := Fleet.of_onPod hs
      cases hw
      exact Fleet.moves_delete hp rfl rfl (hg pod hp)
  | getStats p =>
      obtain ⟨pod, hp, hw⟩ := Fleet.of_onPod hs
      cases hw
      exact Fleet.moves_setPod hp mem_of_mem_pruneExpired
  | stop p =>
      obtain ⟨pod, hp, hw⟩ := Fleet.of_onPod hs
      cases hw
      exact Fleet.moves_setPod hp fun h => h
  | cleanup p =>
      obtain ⟨pod, hp, hw⟩ := Fleet.of_onPod hs
      split at hw
      · cases hw
        exact Fleet.moves_send _ (.inl trivial)
      · cases hw
  | answer i carriedOut =>
      obtain ⟨o, ho, hw⟩ := Option.bind_eq_some_iff.mp hs
      exact moves_answer ho hw hg
  | resume i =>
      simp only [MemFleet.step] at hs
      split at hs
      · next p rows ho =>
          split at hs
          · next pod hp =>
              cases hs
              exact moves_resume ho hp hg
          · cases hs
      · cases hs
  | tick ms =>
      cases hs
      exact .refl

/-- `delete` records the logout, with the number of its statement. -/
theorem MemFleet.logout_of_delete {p : ℕ} (h : memory.step w (.delete p id) = some w') :
    (p, id, w.next) ∈ w'.logouts ∧ w.next < w'.next := by
  obtain ⟨pod, -, hw⟩ := Fleet.of_onPod h
  cases hw
  exact ⟨List.mem_append_right _ (List.mem_singleton.mpr rfl), Nat.lt_succ_self _⟩

theorem MemFleet.get_eq_none {p : ℕ}
    (h : ∀ pod : InMemorySessionStore, w.pods[p]? = some pod → id ∉ pod.sessions) :
    MemFleet.get w p id = none := by
  rw [MemFleet.get]
  cases hp : w.pods[p]? with
  | none => rfl
  | some pod =>
      show (pod.sessions.lookup id).filter _ = none
      rw [AList.lookup_eq_none.mpr (h pod hp), Option.filter_none]

/-- Once the session has been deleted on pod `p`, and everything that was in flight
    then has completed, it is found neither on this pod nor on one that starts later. -/
theorem memory_logout_final {w₀ w₁ w₂ w₃ w₄ : MemFleet} {p : ℕ} (h₀ : w₀.Fresh)
    (h₁ : memory.Later MemFleet.Ordered w₀ w₁) (hg : MemFleet.Ordered w₁ (.delete p id))
    (h₂ : memory.step w₁ (.delete p id) = some w₂) (h₃ : memory.Later MemFleet.Ordered w₂ w₃)
    (hdone : ∀ i < w₂.next, w₃.inFlight i = none) (h₄ : memory.Later MemFleet.Ordered w₃ w₄) :
    MemFleet.get w₄ p id = none ∧ ∀ q, w₃.pods.length ≤ q → MemFleet.get w₄ q id = none := by
  obtain ⟨hlogout, hnext⟩ := MemFleet.logout_of_delete h₂
  obtain ⟨hpod, hlater⟩ := Fleet.absent_after_logout (fun _ _ _ => MemFleet.moves_of_step) h₀
    (h₁.tail ⟨_, hg, h₂⟩) hlogout h₃ (hdone _ hnext) h₄
  exact ⟨MemFleet.get_eq_none hpod, fun q hq => MemFleet.get_eq_none fun pod => hlater q pod hq⟩

end Session

end ZeroAuth.Sessions
