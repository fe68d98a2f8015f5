/-
  ZeroAuth.Sessions.Fleet

  Any number of pods over one backing store, for either session store: the pods'
  caches, the statements that nobody waits for, and how one session of a fleet is
  a key of a write-behind cache.
-/

import ZeroAuth.Lib.Machine
import ZeroAuth.Lib.WriteBehind
import ZeroAuth.Sessions.Store

namespace ZeroAuth.Sessions

open ZeroAuth.Lib ZeroAuth.Js

/-- `logouts` is history: the calls of `delete`, each with the number of its
    statement. -/
structure Fleet (Pod Op Rows : Type) where
  pods : List Pod
  rows : Rows
  inFlight : ℕ → Option Op
  next : ℕ
  clock : ℕ
  logouts : List (ℕ × JsString × ℕ)

/-- A kind of store: the cache of a pod, whether its process runs, what a statement is
    to one session, and which sessions the backing store has. -/
class SessionStore (Pod : Type) (Op Rows : outParam Type) where
  cache : Pod → SessionMap
  up : Pod → Bool
  view : JsString → Op → WriteBehind.Op
  Holds : Rows → JsString → Prop

variable {Pod Op Rows : Type}

namespace Fleet

def setPod (w : Fleet Pod Op Rows) (p : ℕ) (pod : Pod) : Fleet Pod Op Rows :=
  { w with pods := w.pods.set p pod }

/-- Start a statement, if there is a connection. -/
def send (w : Fleet Pod Op Rows) (connected : Bool) (o : Op) : Fleet Pod Op Rows :=
  { w with
    inFlight := if connected then Function.update w.inFlight w.next (some o) else w.inFlight
    next := w.next + 1 }

/-- Statement `i` becomes `o`, or has completed. -/
def update (w : Fleet Pod Op Rows) (i : ℕ) (o : Option Op) : Fleet Pod Op Rows :=
  { w with inFlight := Function.update w.inFlight i o }

def logout (w : Fleet Pod Op Rows) (p : ℕ) (sessionId : JsString) (n : ℕ) : Fleet Pod Op Rows :=
  { w with logouts := w.logouts ++ [(p, sessionId, n)] }

/-- No pod yet, and nothing in flight; the backing store holds anything. -/
def Fresh (w : Fleet Pod Op Rows) : Prop :=
  w.pods = [] ∧ (∀ i, w.inFlight i = none) ∧ w.logouts = []

/-- Some logout's statement has completed. -/
def Erased (w : Fleet Pod Op Rows) (sessionId : JsString) : Prop :=
  ∃ p n, (p, sessionId, n) ∈ w.logouts ∧ w.inFlight n = none

def LoggedOutOn (w : Fleet Pod Op Rows) (p : ℕ) (sessionId : JsString) : Prop :=
  ∃ n, (p, sessionId, n) ∈ w.logouts

section View

variable [SessionStore Pod Op Rows]

def onPod (w : Fleet Pod Op Rows) (p : ℕ) (f : Pod → Option (Fleet Pod Op Rows)) :
    Option (Fleet Pod Op Rows) :=
  match w.pods[p]? with
  | some pod => if SessionStore.up pod then f pod else none
  | none => none

def Stored (w : Fleet Pod Op Rows) (sessionId : JsString) : Prop :=
  SessionStore.Holds Pod w.rows sessionId

def caches (w : Fleet Pod Op Rows) : List SessionMap := w.pods.map SessionStore.cache

/-- The fleet as far as the session `id` goes. -/
def view (w : Fleet Pod Op Rows) (id : JsString) : WriteBehind.State where
  nodes := w.pods.length
  cached := cachedIn w.caches id
  stored := w.Stored id
  inFlight i := (w.inFlight i).map (SessionStore.view Pod id)
  next := w.next
  drops := {d | (d.1, id, d.2) ∈ w.logouts}

variable {w w' : Fleet Pod Op Rows} {id : JsString} {p i : ℕ} {pod pod' : Pod} {o : Op}

theorem view_update (w : Fleet Pod Op Rows) (i : ℕ) (o : Option Op) :
    (w.update i o).view id = { w.view id with
      inFlight := Function.update (w.view id).inFlight i (o.map (SessionStore.view Pod id)) } :=
  congrArg (fun f => { w.view id with inFlight := f })
    (Function.comp_update (Option.map (SessionStore.view Pod id)) w.inFlight i o)

theorem view_finish (w : Fleet Pod Op Rows) (i : ℕ) :
    (w.update i none).view id = (w.view id).finish i :=
  w.view_update i none

theorem view_send (w : Fleet Pod Op Rows) (connected : Bool) (o : Op) :
    (w.send connected o).view id =
      if connected then (w.view id).start (SessionStore.view Pod id o)
      else { w.view id with next := w.next + 1 } := by
  cases connected with
  | false => rfl
  | true =>
      exact congrArg (fun s : WriteBehind.State => { s with next := w.next + 1 })
        (w.view_update w.next (some o))

/-- A pod changes, and of the caches only its own. -/
theorem view_setPod (w : Fleet Pod Op Rows) (p : ℕ) (pod' : Pod) :
    (w.setPod p pod').view id = { w.view id with
      cached := cachedIn (w.caches.set p (SessionStore.cache pod')) id } := by
  simp only [view, setPod, Stored, caches, List.length_set, List.map_set]

theorem view_inFlight (ho : w.inFlight i = some o) :
    (w.view id).inFlight i = some (SessionStore.view Pod id o) :=
  congrArg (Option.map (SessionStore.view Pod id)) ho

theorem view_erased : (w.view id).Erased ↔ w.Erased id := by
  simp only [WriteBehind.State.Erased, Erased, view, Option.map_eq_none_iff, Set.mem_ofPred_eq]

theorem caches_getElem? (hp : w.pods[p]? = some pod) :
    w.caches[p]? = some (SessionStore.cache pod) := by
  rw [caches, List.getElem?_map, hp, Option.map_some]

theorem of_onPod {f : Pod → Option (Fleet Pod Op Rows)} (h : w.onPod p f = some w') :
    ∃ pod, w.pods[p]? = some pod ∧ f pod = some w' := by
  rw [onPod] at h
  split at h
  · next pod hp =>
      split at h
      · exact ⟨pod, hp, h⟩
      · cases h
  · cases h

/-! ### What the calls are to a session -/

theorem moves_boot (h : SessionStore.cache pod = ∅) :
    WriteBehind.Moves (w.view id) ({ w with pods := w.pods ++ [pod] }.view id) := by
  have hview : { w with pods := w.pods ++ [pod] }.view id =
      { w.view id with nodes := w.pods.length + 1 } := by
    simp only [view, Stored, caches, List.map_append, List.map_cons, List.map_nil, h,
      cachedIn_append_empty, List.length_append, List.length_singleton]
  rw [hview]
  exact .single (.boot _)

theorem moves_setPod (hp : w.pods[p]? = some pod)
    (h : id ∈ SessionStore.cache pod' → id ∈ SessionStore.cache pod) :
    WriteBehind.Moves (w.view id) ((w.setPod p pod').view id) := by
  rw [view_setPod]
  exact .single (.evict (cachedIn_set_subset (caches_getElem? hp) h))

theorem moves_send (connected : Bool) (ho : (SessionStore.view Pod id o).Plain ∨
    ∃ p < w.pods.length, SessionStore.view Pod id o = .read p) :
    WriteBehind.Moves (w.view id) ((w.send connected o).view id) := by
  rw [view_send]
  split
  · exact .single (.start ho)
  · exact .single (.skip _)

/-- `create`: the session comes into the cache. -/
theorem moves_put {sessionId : JsString} {s : UserSession} (hp : w.pods[p]? = some pod)
    (hcache : SessionStore.cache pod' = (SessionStore.cache pod).insert sessionId s)
    (hfresh : ∀ q, ¬ w.LoggedOutOn q sessionId) :
    WriteBehind.Moves (w.view id) ((w.setPod p pod').view id) := by
  by_cases hid : sessionId = id
  · rw [view_setPod, cachedIn_set_insert (caches_getElem? hp)]
    · refine .single (.put (List.getElem?_eq_some_iff.mp hp).1 fun d hd => ?_)
      exact hfresh d.1 ⟨d.2, hid ▸ hd⟩
    · rw [hcache]
      exact (AList.mem_insert _).mpr (.inl hid.symm)
  · refine moves_setPod hp fun hmem => ?_
    rw [hcache] at hmem
    exact ((AList.mem_insert _).mp hmem).resolve_left (Ne.symm hid)

/-- Logouts of other sessions are none of this one. -/
theorem view_logout_of_ne {sessionId : JsString} {n : ℕ} (hne : sessionId ≠ id) :
    (w.logout p sessionId n).view id = w.view id := by
  have hdrops : {d : ℕ × ℕ | (d.1, id, d.2) ∈ w.logouts ++ [(p, sessionId, n)]} =
      {d | (d.1, id, d.2) ∈ w.logouts} := by
    ext d
    simp [Ne.symm hne]
  exact congrArg (fun D => { w.view id with drops := D }) hdrops

theorem view_logout_self {n : ℕ} :
    (w.logout p id n).view id = { w.view id with drops := insert (p, n) (w.view id).drops } := by
  have hdrops : {d : ℕ × ℕ | (d.1, id, d.2) ∈ w.logouts ++ [(p, id, n)]} =
      insert (p, n) {d | (d.1, id, d.2) ∈ w.logouts} := by
    ext ⟨q, m⟩
    simp [or_comm]
  exact congrArg (fun D => { w.view id with drops := D }) hdrops

/-- `delete`: the session leaves the cache, and its erase is sent. -/
theorem moves_delete {sessionId : JsString} {connected : Bool} (hp : w.pods[p]? = some pod)
    (hcache : SessionStore.cache pod' = (SessionStore.cache pod).erase sessionId)
    (ho : SessionStore.view Pod id o = if sessionId = id then .erase else .other)
    (hsent : connected = false → ¬ w.Stored sessionId) :
    WriteBehind.Moves (w.view id)
      ((((w.setPod p pod').send connected o).logout p sessionId w.next).view id) := by
  by_cases hid : sessionId = id
  · subst hid
    have hremove : cachedIn (w.caches.set p (SessionStore.cache pod')) sessionId =
        (w.view sessionId).cached \ {p} := by
      refine cachedIn_set_remove (caches_getElem? hp) ?_
      simp [hcache]
    rw [view_logout_self, view_send, view_setPod, hremove, ho, if_pos rfl]
    have hlt := (List.getElem?_eq_some_iff.mp hp).1
    cases connected with
    | true => exact .single (.drop hlt)
    | false => exact .single (.dropUnsent hlt (hsent rfl))
  · rw [if_neg hid] at ho
    rw [view_logout_of_ne hid]
    refine .trans (moves_setPod hp fun h => ?_) (moves_send _ (.inl ?_))
    · rw [hcache] at h
      exact (AList.mem_erase.mp h).2
    · rw [ho]
      trivial

/-! ### What the statements are to a session -/

/-- A statement that completes and changes no row of the session, or takes rows away. -/
theorem moves_finish {rows : Rows} (ho : w.inFlight i = some o)
    (habsent : SessionStore.view Pod id o = .erase → (∃ p, (p, id, i) ∈ w.logouts) → ¬ w.Stored id)
    (hrows : SessionStore.Holds Pod rows id → w.Stored id) :
    WriteBehind.Moves (w.view id) ({ w.update i none with rows := rows }.view id) := by
  have hfail : WriteBehind.Move (w.view id) ((w.update i none).view id) := by
    rw [view_finish]
    exact .fail (view_inFlight ho) habsent
  have hlose : WriteBehind.Move ((w.update i none).view id)
      { (w.update i none).view id with stored := SessionStore.Holds Pod rows id } := .lose hrows
  exact .head hfail (.single hlose)

theorem moves_write {rows : Rows} (ho : w.inFlight i = some o)
    (hwrite : SessionStore.view Pod id o = .write) (hearly : ¬ w.Erased id)
    (hrows : SessionStore.Holds Pod rows id) :
    WriteBehind.Moves (w.view id) ({ w.update i none with rows := rows }.view id) := by
  have hview : { w.update i none with rows := rows }.view id =
      { (w.update i none).view id with stored := True } :=
    congrArg (fun q => { (w.update i none).view id with stored := q }) (eq_true hrows)
  rw [hview, view_finish]
  exact .single (.write (hwrite ▸ view_inFlight ho) fun he => hearly (view_erased.mp he))

theorem moves_erase {rows : Rows} (ho : w.inFlight i = some o)
    (herase : SessionStore.view Pod id o = .erase) (hrows : ¬ SessionStore.Holds Pod rows id) :
    WriteBehind.Moves (w.view id) ({ w.update i none with rows := rows }.view id) := by
  have hview : { w.update i none with rows := rows }.view id =
      { (w.update i none).view id with stored := False } :=
    congrArg (fun q => { (w.update i none).view id with stored := q }) (eq_false hrows)
  rw [hview, view_finish]
  exact .single (.erase (herase ▸ view_inFlight ho))

theorem moves_read {o' : Op} {found : Prop} (ho : w.inFlight i = some o)
    (hread : SessionStore.view Pod id o = .read p)
    (hfill : SessionStore.view Pod id o' = .fill p found) (hfound : found → w.Stored id) :
    WriteBehind.Moves (w.view id) ((w.update i (some o')).view id) := by
  rw [view_update, Option.map_some, hfill]
  exact .single (.read (hread ▸ view_inFlight ho) hfound)

/-- A hydration puts into the cache of its pod what it has found. -/
theorem moves_fill {found : Prop} (ho : w.inFlight i = some o) (hp : w.pods[p]? = some pod)
    (hfill : SessionStore.view Pod id o = .fill p found)
    (hcache : id ∈ SessionStore.cache pod' →
      id ∈ SessionStore.cache pod ∨ found ∧ ¬ w.LoggedOutOn p id) :
    WriteBehind.Moves (w.view id) (((w.update i none).setPod p pod').view id) := by
  have hcaches := caches_getElem? hp
  rw [view_setPod, view_finish]
  refine .single (.fill (hfill ▸ view_inFlight ho) (fun q hq => ?_) fun hself => ?_)
  · rcases (mem_cachedIn_set hcaches q).mp hq with ⟨rfl, -⟩ | ⟨-, hold⟩
    · exact .inl rfl
    · exact .inr hold
  · have hmem := (((mem_cachedIn_set hcaches p).mp hself).resolve_right fun h => h.1 rfl).2
    rcases hcache hmem with hold | hnew
    · exact .inl ((mem_cachedIn_self hcaches).mpr hold)
    · exact .inr hnew

theorem sound_view_of_fresh (h : w.Fresh) : WriteBehind.Sound (w.view id) := by
  obtain ⟨hpods, hflight, hlogouts⟩ := h
  refine WriteBehind.sound_of_quiet ?_ (fun i => ?_) ?_
  · ext q
    simp [view, caches, cachedIn, hpods]
  · simp [view, hflight]
  · ext d
    simp [view, hlogouts]

theorem notMem_cache (h : p ∉ (w.view id).cached) (hp : w.pods[p]? = some pod) :
    id ∉ SessionStore.cache pod :=
  fun hmem => h ((mem_cachedIn_self (caches_getElem? hp)).mpr hmem)

/-- Once the session has been logged out on pod `p`, and the statement of that logout has
    completed, it is in the cache neither of this pod nor of one that starts later, in
    every machine whose steps are runs of the write-behind cache. -/
theorem absent_after_logout {L : Type} {M : Machine (Fleet Pod Op Rows) L}
    {good : Fleet Pod Op Rows → L → Prop} {w₀ w₁ w₂ w₃ : Fleet Pod Op Rows} {n : ℕ}
    (hsim : ∀ w l w', good w l → M.step w l = some w' → WriteBehind.Moves (w.view id) (w'.view id))
    (h₀ : w₀.Fresh) (h₁ : M.Later good w₀ w₁) (hlogout : (p, id, n) ∈ w₁.logouts)
    (h₂ : M.Later good w₁ w₂) (hdone : w₂.inFlight n = none) (h₃ : M.Later good w₂ w₃) :
    (∀ pod, w₃.pods[p]? = some pod → id ∉ SessionStore.cache pod) ∧
    ∀ q pod, w₂.pods.length ≤ q → w₃.pods[q]? = some pod → id ∉ SessionStore.cache pod := by
  have hmoves : ∀ {w w'}, M.Later good w w' → WriteBehind.Moves (w.view id) (w'.view id) :=
    Machine.Later.lift hsim
  have hsound : WriteBehind.Sound (w₁.view id) := (sound_view_of_fresh h₀).moves (hmoves h₁)
  have herased : (w₂.view id).inFlight n = none :=
    congrArg (Option.map (SessionStore.view Pod id)) hdone
  obtain ⟨hpod, hlater⟩ := WriteBehind.absent_of_drop hsound hlogout (hmoves h₂) herased (hmoves h₃)
  exact ⟨fun _ => notMem_cache hpod, fun q _ hq => notMem_cache (hlater q hq)⟩

end View

end Fleet

end ZeroAuth.Sessions
