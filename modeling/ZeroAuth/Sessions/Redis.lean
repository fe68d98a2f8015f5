/-
  ZeroAuth.Sessions.Redis

  `RedisSessionStore` of src/services/session-store.ts on any number of pods over
  one Redis.

  A `get` that misses the cache starts a GET whose answer a later `get` may find in
  the cache.  Commands are carried out, or fail, in any order; `hydrateOne` resumes
  some time after its GET was answered.
-/

import ZeroAuth.Sessions.Fleet

namespace ZeroAuth.Sessions

open ZeroAuth.Lib ZeroAuth.Js

/-! ## The store -/

/-- A pod.  `client` says whether there is one, `up` whether the process runs. -/
structure RedisSessionStore where
  client : Bool
  cache : SessionMap
  verificationCount : ProviderCounts
  startTime : ℕ
  initialised : Bool
  up : Bool

namespace RedisSessionStore

def create (pod : RedisSessionStore) (session : UserSession) : RedisSessionStore :=
  { pod with
    cache := pod.cache.insert session.sessionId session
    verificationCount := pod.verificationCount.increment session.provider }

/-- What `get` answers. -/
def get (pod : RedisSessionStore) (sessionId : JsString) (now : ℕ) : Option UserSession :=
  (pod.cache.lookup sessionId).filter fun s => ¬ s.expiresAt < now

/-- Whether `delete` found the session, and the pod after it. -/
def delete (pod : RedisSessionStore) (sessionId : JsString) : Bool × RedisSessionStore :=
  (sessionId ∈ pod.cache, { pod with cache := pod.cache.erase sessionId })

def getStats (pod : RedisSessionStore) (now : ℕ) : AdminStats × RedisSessionStore :=
  let cache := pruneExpired pod.cache now
  (adminStats cache pod.verificationCount pod.startTime now, { pod with cache := cache })

/-- The rest of `init`, after the import has succeeded or failed. -/
def connected (pod : RedisSessionStore) (ok : Bool) : RedisSessionStore :=
  { pod with client := ok, initialised := true }

/-- The rest of `hydrateOne`, after the GET was answered. -/
def hydrated (pod : RedisSessionStore) (sessionId : JsString) (session : UserSession) (now : ℕ) :
    RedisSessionStore :=
  if session.expiresAt ≥ now then { pod with cache := pod.cache.insert sessionId session } else pod

def stop (pod : RedisSessionStore) : RedisSessionStore := { pod with client := false }

end RedisSessionStore

/-! ## Redis -/

def redisKey (sessionId : JsString) : JsString := js "zeroauth:session:" ++ sessionId

theorem redisKey_injective : Function.Injective redisKey := fun _ _ => List.append_cancel_left

/-- A value with the time at which its PX lifetime ends. -/
structure RedisEntry where
  value : UserSession
  expireAt : ℕ

abbrev RedisDb := AList fun _ : JsString => RedisEntry

/-- A command in flight, an `init` that waits for its import, and a `hydrateOne` whose
    GET has found a session. -/
inductive RedisOp
  | connect (p : ℕ)
  | persistCreate (session : UserSession) (ttlMs : ℕ)
  | persistDelete (sessionId : JsString)
  | hydrateOne (p : ℕ) (sessionId : JsString)
  | hydrated (p : ℕ) (sessionId : JsString) (session : UserSession)

/-- What a command is to the session `id`. -/
def RedisOp.view (id : JsString) : RedisOp → WriteBehind.Op
  | .connect _ => .other
  | .persistCreate session _ => if session.sessionId = id then .write else .other
  | .persistDelete sessionId => if sessionId = id then .erase else .other
  | .hydrateOne p sessionId => if sessionId = id then .read p else .other
  | .hydrated p sessionId _ => if sessionId = id then .fill p True else .other

instance : SessionStore RedisSessionStore RedisOp RedisDb where
  cache := RedisSessionStore.cache
  up := RedisSessionStore.up
  view := RedisOp.view
  Holds db id := redisKey id ∈ db

/-! ## The pods -/

abbrev RedisFleet := Fleet RedisSessionStore RedisOp RedisDb

inductive RedisLabel
  | boot
  | crash (p : ℕ)
  | init (p : ℕ)
  | create (p : ℕ) (session : UserSession)
  | get (p : ℕ) (sessionId : JsString)
  | delete (p : ℕ) (sessionId : JsString)
  | getStats (p : ℕ)
  | stop (p : ℕ)
  | answer (i : ℕ) (carriedOut : Bool)
  | resume (i : ℕ)
  | tick (ms : ℕ)

namespace RedisFleet

/-- The pod forgets the session and sends the DEL. -/
def deleteOn (w : RedisFleet) (p : ℕ) (pod : RedisSessionStore) (sessionId : JsString) : RedisFleet :=
  (w.setPod p (pod.delete sessionId).2).send pod.client (.persistDelete sessionId)

/-- `get`: an expired session is deleted, and a miss starts a `hydrateOne`. -/
def getOn (w : RedisFleet) (p : ℕ) (pod : RedisSessionStore) (sessionId : JsString) : RedisFleet :=
  match pod.cache.lookup sessionId with
  | some s => if s.expiresAt < w.clock then deleteOn w p pod sessionId else w
  | none => w.send pod.client (.hydrateOne p sessionId)

/-- The pod of an `init` or `hydrateOne` goes on, if its process still runs. -/
def continueOn (w : RedisFleet) (i p : ℕ) (f : RedisSessionStore → RedisSessionStore) :
    Option RedisFleet :=
  match w.pods[p]? with
  | some pod => some ((w.update i none).setPod p (if pod.up then f pod else pod))
  | none => none

/-- Command `i` is carried out, or fails. -/
def answer (w : RedisFleet) (i : ℕ) (carriedOut : Bool) : RedisOp → Option RedisFleet
  | .connect p => continueOn w i p fun pod => pod.connected carriedOut
  | .persistCreate session ttlMs =>
      some { w.update i none with
        rows := if carriedOut then
            w.rows.insert (redisKey session.sessionId) ⟨session, w.clock + ttlMs⟩
          else w.rows }
  | .persistDelete sessionId =>
      some { w.update i none with
        rows := if carriedOut then w.rows.erase (redisKey sessionId) else w.rows }
  | .hydrateOne p sessionId =>
      match (w.rows.lookup (redisKey sessionId)).filter fun e => carriedOut ∧ w.clock < e.expireAt with
      | some e => some (w.update i (some (.hydrated p sessionId e.value)))
      | none => some (w.update i none)
  | .hydrated _ _ _ => none

def step (w : RedisFleet) : RedisLabel → Option RedisFleet
  | .boot => some { w with pods := w.pods ++ [⟨false, ∅, .zero, w.clock, false, true⟩] }
  | .crash p => w.onPod p fun pod => some (w.setPod p { pod with up := false })
  | .init p => w.onPod p fun pod =>
      if pod.initialised then some w else some (w.send true (.connect p))
  -- a session that is over already gets no key
  | .create p session => w.onPod p fun pod =>
      some ((w.setPod p (pod.create session)).send (pod.client && decide (w.clock < session.expiresAt))
        (.persistCreate session (session.expiresAt - w.clock)))
  | .get p sessionId => w.onPod p fun pod => some (getOn w p pod sessionId)
  | .delete p sessionId => w.onPod p fun pod =>
      some ((deleteOn w p pod sessionId).logout p sessionId w.next)
  | .getStats p => w.onPod p fun pod => some (w.setPod p (pod.getStats w.clock).2)
  | .stop p => w.onPod p fun pod => some (w.setPod p pod.stop)
  | .answer i carriedOut => (w.inFlight i).bind (answer w i carriedOut)
  -- the pod reads what the key held when the answer came
  | .resume i =>
      match w.inFlight i with
      | some (.hydrated p sessionId session) =>
          continueOn w i p fun pod => pod.hydrated sessionId session w.clock
      | _ => none
  | .tick ms => some { w with clock := w.clock + ms }

/-- What `get` answers on pod `p`. -/
def get (w : RedisFleet) (p : ℕ) (sessionId : JsString) : Option UserSession :=
  match w.pods[p]? with
  | some pod => pod.get sessionId w.clock
  | none => none

/-- The step does not undo a logout: an id is not created again after its logout; a
    SET is not carried out after the DEL of a logout of its session has completed; the
    DEL of a logout is sent, and does not fail, while Redis has the session; no
    `hydrateOne` resumes with an unexpired session on a pod where it was logged out. -/
def Ordered (w : RedisFleet) : RedisLabel → Prop
  | .create _ session => ∀ q, ¬ w.LoggedOutOn q session.sessionId
  | .delete p sessionId =>
      ∀ pod, w.pods[p]? = some pod → pod.client = false → ¬ w.Stored sessionId
  | .answer i carriedOut => ∀ o, w.inFlight i = some o →
      match o with
      | .persistCreate session _ => carriedOut = true → ¬ w.Erased session.sessionId
      | .persistDelete sessionId =>
          carriedOut = false → (∃ p, (p, sessionId, i) ∈ w.logouts) → ¬ w.Stored sessionId
      | _ => True
  | .resume i => ∀ p sessionId session, w.inFlight i = some (.hydrated p sessionId session) →
      session.expiresAt ≥ w.clock → ¬ w.LoggedOutOn p sessionId
  | _ => True

end RedisFleet

abbrev redis : Machine RedisFleet RedisLabel := ⟨RedisFleet.step⟩

/-! ## One session -/

section Session

variable {w w' : RedisFleet} {id : JsString}

theorem RedisOp.view_persistCreate_plain {session : UserSession} {ttlMs : ℕ} :
    ((RedisOp.persistCreate session ttlMs).view id).Plain := by
  rw [RedisOp.view]
  split <;> trivial

theorem RedisOp.view_persistDelete_plain {sessionId : JsString} :
    ((RedisOp.persistDelete sessionId).view id).Plain := by
  rw [RedisOp.view]
  split <;> trivial

theorem RedisOp.view_persistCreate_ne_erase {session : UserSession} {ttlMs : ℕ} :
    (RedisOp.persistCreate session ttlMs).view id ≠ .erase := by
  rw [RedisOp.view]
  split <;> nofun

/-- The rest of an `init` or of a `hydrateOne` of another session: the caches stay as
    far as this session goes. -/
theorem moves_continueOn {i p : ℕ} {o : RedisOp} {f : RedisSessionStore → RedisSessionStore}
    (ho : w.inFlight i = some o) (hview : o.view id = .other)
    (hf : ∀ pod, id ∈ (f pod).cache → id ∈ pod.cache)
    (h : RedisFleet.continueOn w i p f = some w') :
    WriteBehind.Moves (w.view id) (w'.view id) := by
  rw [RedisFleet.continueOn] at h
  split at h
  · next pod hp =>
      cases h
      have hfinish : WriteBehind.Moves (w.view id) ((w.update i none).view id) :=
        Fleet.moves_finish ho (fun heq => by cases hview.symm.trans heq) fun hr => hr
      refine hfinish.trans ?_
      refine Fleet.moves_setPod (w := w.update i none) hp fun hmem => ?_
      have hmem : id ∈ (if pod.up then f pod else pod).cache := hmem
      split at hmem
      · exact hf pod hmem
      · exact hmem
  · cases h

theorem mem_hydrated {pod : RedisSessionStore} {sessionId : JsString} {session : UserSession} {now : ℕ}
    (h : id ∈ (pod.hydrated sessionId session now).cache) :
    id ∈ pod.cache ∨ sessionId = id ∧ session.expiresAt ≥ now := by
  rw [RedisSessionStore.hydrated] at h
  split at h
  · next hlive =>
      rcases (AList.mem_insert _).mp h with heq | hold
      · exact .inr ⟨heq.symm, hlive⟩
      · exact .inl hold
  · exact .inl h

theorem moves_hydrateOne {i p : ℕ} {sessionId : JsString} {carriedOut : Bool}
    (ho : w.inFlight i = some (.hydrateOne p sessionId))
    (h : RedisFleet.answer w i carriedOut (.hydrateOne p sessionId) = some w') :
    WriteBehind.Moves (w.view id) (w'.view id) := by
  have hfinish : WriteBehind.Moves (w.view id) ((w.update i none).view id) := by
    refine Fleet.moves_finish ho (fun heq => ?_) fun hr => hr
    have heq : (if sessionId = id then WriteBehind.Op.read p else .other) = .erase := heq
    split at heq <;> cases heq
  rw [RedisFleet.answer] at h
  split at h
  · next e he =>
      cases h
      by_cases hid : sessionId = id
      · subst hid
        refine Fleet.moves_read ho (if_pos rfl) (if_pos rfl) fun _ => ?_
        have hlookup := (Option.filter_eq_some_iff.mp he).1
        exact AList.lookup_isSome.mp (Option.isSome_of_eq_some hlookup)
      · -- another session's read stays nothing to this one
        have hother : (w.view id).inFlight i = some ((RedisOp.hydrated p sessionId e.value).view id) := by
          refine (Fleet.view_inFlight ho).trans (congrArg some ?_)
          exact (if_neg hid).trans (if_neg hid).symm
        have hsame : (w.update i (some (.hydrated p sessionId e.value))).view id = w.view id := by
          rw [Fleet.view_update, Function.update_eq_self_iff.mpr hother.symm]
        rw [hsame]
  · cases h
    exact hfinish

theorem moves_answer_redis {i : ℕ} {carriedOut : Bool} {o : RedisOp} (ho : w.inFlight i = some o)
    (h : RedisFleet.answer w i carriedOut o = some w') (hg : RedisFleet.Ordered w (.answer i carriedOut)) :
    WriteBehind.Moves (w.view id) (w'.view id) := by
  have hg := hg o ho
  cases o with
  | connect p =>
      exact moves_continueOn (f := fun pod => pod.connected carriedOut) ho rfl (fun _ hmem => hmem) h
  | persistCreate session ttlMs =>
      cases h
      cases carriedOut with
      | false =>
          exact Fleet.moves_finish ho (fun heq => absurd heq RedisOp.view_persistCreate_ne_erase)
            fun hr => hr
      | true =>
          -- for the session itself a write, for others an answer that does not matter
          by_cases hid : session.sessionId = id
          · subst hid
            exact Fleet.moves_write ho (if_pos rfl) (hg rfl) ((AList.mem_insert _).mpr (.inl rfl))
          · refine Fleet.moves_finish ho
              (fun heq => absurd heq RedisOp.view_persistCreate_ne_erase) fun hr => ?_
            exact ((AList.mem_insert _).mp hr).resolve_left fun heq =>
              hid (redisKey_injective heq).symm
  | persistDelete sessionId =>
      cases h
      -- for the session itself the erase, for others an answer that does not matter
      by_cases hid : sessionId = id
      · subst hid
        cases carriedOut with
        | false => exact Fleet.moves_finish ho (fun _ hdrop => hg rfl hdrop) fun hr => hr
        | true =>
            exact Fleet.moves_erase ho (if_pos rfl) fun hr => (AList.mem_erase.mp hr).1 rfl
      · refine Fleet.moves_finish ho (fun heq => ?_) fun hr => ?_
        · have heq : (if sessionId = id then WriteBehind.Op.erase else .other) = .erase := heq
          rw [if_neg hid] at heq
          cases heq
        · have hr : redisKey id ∈ (if carriedOut then w.rows.erase (redisKey sessionId) else w.rows) := hr
          split at hr
          · exact (AList.mem_erase.mp hr).2
          · exact hr
  | hydrateOne p sessionId => exact moves_hydrateOne ho h
  | hydrated p sessionId session => cases h

theorem moves_hydrated {i p : ℕ} {sessionId : JsString} {session : UserSession}
    (ho : w.inFlight i = some (.hydrated p sessionId session))
    (h : RedisFleet.continueOn w i p (fun pod => pod.hydrated sessionId session w.clock) = some w')
    (hg : RedisFleet.Ordered w (.resume i)) : WriteBehind.Moves (w.view id) (w'.view id) := by
  by_cases hid : sessionId = id
  · subst hid
    rw [RedisFleet.continueOn] at h
    split at h
    · next pod hp =>
        cases h
        refine Fleet.moves_fill ho hp (if_pos rfl) fun hmem => ?_
        have hmem : sessionId ∈
            (if pod.up then pod.hydrated sessionId session w.clock else pod).cache := hmem
        split at hmem
        · rcases mem_hydrated hmem with hold | ⟨-, hlive⟩
          · exact .inl hold
          · exact .inr ⟨trivial, hg p sessionId session ho hlive⟩
        · exact .inl hmem
    · cases h
  · refine moves_continueOn ho (if_neg hid) (fun pod hmem => ?_) h
    rcases mem_hydrated hmem with hold | ⟨heq, -⟩
    · exact hold
    · exact absurd heq hid

/-- Every step that keeps the order is a run of the write-behind cache. -/
theorem RedisFleet.moves_of_step {l : RedisLabel} (hg : RedisFleet.Ordered w l)
    (hs : redis.step w l = some w') : WriteBehind.Moves (w.view id) (w'.view id) := by
  cases l with
  | boot =>
      cases hs
      exact Fleet.moves_boot rfl
  | crash p =>
      obtain ⟨pod, hp, hw⟩ := Fleet.of_onPod hs
      cases hw
      exact Fleet.moves_setPod hp fun h => h
  | init p =>
      obtain ⟨pod, hp, hw⟩ := Fleet.of_onPod hs
      split at hw
      · cases hw
        exact .refl
      · cases hw
        exact Fleet.moves_send _ (.inl trivial)
  | create p session =>
      obtain ⟨pod, hp, hw⟩ := Fleet.of_onPod hs
      cases hw
      exact .trans (Fleet.moves_put hp rfl hg)
        (Fleet.moves_send _ (.inl RedisOp.view_persistCreate_plain))
  | get p sessionId =>
      obtain ⟨pod, hp, hw⟩ := Fleet.of_onPod hs
      cases hw
      rw [RedisFleet.getOn]
      split
      · split
        · exact .trans (Fleet.moves_setPod hp fun h => (AList.mem_erase.mp h).2)
            (Fleet.moves_send _ (.inl RedisOp.view_persistDelete_plain))
        · exact .refl
      · refine Fleet.moves_send _ ?_
        -- a session that is not in the map is looked up
        by_cases hid : sessionId = id
        · exact .inr ⟨p, (List.getElem?_eq_some_iff.mp hp).1, if_pos hid⟩
        · refine .inl ?_
          show ((RedisOp.hydrateOne p sessionId).view id).Plain
          rw [RedisOp.view, if_neg hid]
          trivial
  | delete p sessionId =>
      obtain ⟨pod, hp, hw⟩ := Fleet.of_onPod hs
      cases hw
      exact Fleet.moves_delete hp rfl rfl (hg pod hp)
  | getStats p =>
      obtain ⟨pod, hp, hw⟩ := Fleet.of_onPod hs
      cases hw
      exact Fleet.moves_setPod hp mem_of_mem_pruneExpired
  | stop p =>
      obtain ⟨pod, hp, hw⟩ := Fleet.of_onPod hs
      cases hw
      exact Fleet.moves_setPod hp fun h => h
  | answer i carriedOut =>
      obtain ⟨o, ho, hw⟩ := Option.bind_eq_some_iff.mp hs
      exact moves_answer_redis ho hw hg
  | resume i =>
      simp only [RedisFleet.step] at hs
      split at hs
      · next p sessionId session ho => exact moves_hydrated ho hs hg
      · cases hs
  | tick ms =>
      cases hs
      exact .refl

/-- `delete` records the logout, with the number of its command. -/
theorem RedisFleet.logout_of_delete {p : ℕ} (h : redis.step w (.delete p id) = some w') :
    (p, id, w.next) ∈ w'.logouts ∧ w.next < w'.next := by
  obtain ⟨pod, -, hw⟩ := Fleet.of_onPod h
  cases hw
  exact ⟨List.mem_append_right _ (List.mem_singleton.mpr rfl), Nat.lt_succ_self _⟩

theorem RedisFleet.get_eq_none {p : ℕ}
    (h : ∀ pod : RedisSessionStore, w.pods[p]? = some pod → id ∉ pod.cache) :
    RedisFleet.get w p id = none := by
  rw [RedisFleet.get]
  cases hp : w.pods[p]? with
  | none => rfl
  | some pod =>
      show (pod.cache.lookup id).filter _ = none
      rw [AList.lookup_eq_none.mpr (h pod hp), Option.filter_none]

/-- Once the session has been deleted on pod `p`, and everything that was in flight
    then has completed, it is found neither on this pod nor on one that starts later. -/
theorem redis_logout_final {w₀ w₁ w₂ w₃ w₄ : RedisFleet} {p : ℕ} (h₀ : w₀.Fresh)
    (h₁ : redis.Later RedisFleet.Ordered w₀ w₁) (hg : RedisFleet.Ordered w₁ (.delete p id))
    (h₂ : redis.step w₁ (.delete p id) = some w₂) (h₃ : redis.Later RedisFleet.Ordered w₂ w₃)
    (hdone : ∀ i < w₂.next, w₃.inFlight i = none) (h₄ : redis.Later RedisFleet.Ordered w₃ w₄) :
    RedisFleet.get w₄ p id = none ∧ ∀ q, w₃.pods.length ≤ q → RedisFleet.get w₄ q id = none := by
  obtain ⟨hlogout, hnext⟩ := RedisFleet.logout_of_delete h₂
  obtain ⟨hpod, hlater⟩ := Fleet.absent_after_logout (fun _ _ _ => RedisFleet.moves_of_step) h₀
    (h₁.tail ⟨_, hg, h₂⟩) hlogout h₃ (hdone _ hnext) h₄
  exact ⟨RedisFleet.get_eq_none hpod, fun q hq => RedisFleet.get_eq_none fun pod => hlater q pod hq⟩

end Session

end ZeroAuth.Sessions
