/-
  ZeroAuth.Iot.AccountRuns

  Runs of the bridge's operations on its accounts.  `BridgeHolds` is what a run should
  keep: an account stays until a reset, an enrolment that throws has stored nothing,
  and at rest the file has the accounts of the map.  It holds in the runs whose steps
  pass `bridgeOk` (`bridge_holds`), and not in all runs.
-/

import ZeroAuth.Android.Poseidon
import ZeroAuth.Iot.AccountTrail

namespace ZeroAuth.Iot

open ZeroAuth.Lib ZeroAuth.Js

variable {cfg : BridgeConfig}

/-! ## The map -/

namespace AccountMap

variable {m : AccountMap} {key k : JsString} {v : Held}

theorem get?_cons (k' : JsString) (x : Held) :
    get? ((k', x) :: m) k = if k = k' then some x else get? m k := by
  rw [get?, List.lookup_cons]
  by_cases hk : k = k'
  · rw [beq_iff_eq.mpr hk, if_pos hk]
  · rw [beq_eq_false_iff_ne.mpr hk, if_neg hk]
    rfl

theorem get?_set : (m.set key v).get? k = if k = key then some v else m.get? k := by
  induction m with
  | nil => exact get?_cons key v
  | cons p m ih =>
      obtain ⟨k', x⟩ := p
      unfold set
      by_cases hk' : k' = key
      · subst hk'
        rw [if_pos rfl, get?_cons, get?_cons]
        split <;> rfl
      · rw [if_neg hk', get?_cons, get?_cons, ih]
        by_cases hk : k = k'
        · subst hk
          rw [if_pos rfl, if_neg hk', if_pos rfl]
        · rw [if_neg hk, if_neg hk]

theorem has_set : (m.set key v).has k = (decide (k = key) || m.has k) := by
  unfold has
  rw [get?_set]
  by_cases hk : k = key <;> simp [hk]

theorem set_of_notMem (h : key ∉ m.map Prod.fst) : m.set key v = m ++ [(key, v)] := by
  induction m with
  | nil => rfl
  | cons p m ih =>
      simp only [List.map_cons, List.mem_cons, not_or] at h
      unfold set
      rw [if_neg (Ne.symm h.1), ih h.2, List.cons_append]

theorem mem_set {p : JsString × Held} (h : p ∈ m.set key v) : p = (key, v) ∨ p ∈ m := by
  induction m with
  | nil => exact .inl (List.mem_singleton.mp h)
  | cons q m ih =>
      unfold set at h
      split at h
      · next heq =>
          subst heq
          rcases List.mem_cons.mp h with h | h
          · exact .inl h
          · exact .inr (List.mem_cons_of_mem _ h)
      · rcases List.mem_cons.mp h with h | h
        · exact .inr (h ▸ List.mem_cons_self)
        · exact (ih h).imp_right (List.mem_cons_of_mem _)

theorem keys_set : (m.set key v).map Prod.fst =
    if key ∈ m.map Prod.fst then m.map Prod.fst else m.map Prod.fst ++ [key] := by
  induction m with
  | nil => rfl
  | cons p m ih =>
      unfold set
      by_cases hk : p.1 = key
      · subst hk
        simp
      · rw [if_neg hk, List.map_cons, ih]
        have hne : ¬ key = p.1 := fun h => hk h.symm
        by_cases hm : key ∈ m.map Prod.fst
        · simp [hm]
        · simp [hm, hne]

theorem nodup_set (h : (m.map Prod.fst).Nodup) : ((m.set key v).map Prod.fst).Nodup := by
  rw [keys_set]
  split
  · exact h
  · next hk =>
      apply List.nodup_append.mpr ⟨h, List.nodup_singleton key, ?_⟩
      intro x hx y hy heq
      rw [List.mem_singleton.mp hy] at heq
      exact hk (heq ▸ hx)

/-- What `attach` does to one object. -/
def attachOne (ref : ℕ) (userId : JsString) (x : Held) : Held :=
  if x.ref = ref then { x with account := { x.account with centralUserId := some userId } } else x

theorem attach_eq (ref : ℕ) (userId : JsString) :
    m.attach ref userId = m.map fun p => (p.1, attachOne ref userId p.2) := rfl

theorem keys_attach (ref : ℕ) (userId : JsString) :
    (m.attach ref userId).map Prod.fst = m.map Prod.fst := by
  rw [attach_eq, List.map_map]
  rfl

theorem get?_attach (ref : ℕ) (userId : JsString) :
    (m.attach ref userId).get? k = (m.get? k).map (attachOne ref userId) := by
  rw [attach_eq]
  induction m with
  | nil => rfl
  | cons p m ih =>
      obtain ⟨k', x⟩ := p
      rw [List.map_cons, get?_cons, get?_cons, ih]
      by_cases hk : k = k'
      · rw [if_pos hk, if_pos hk, Option.map_some]
      · rw [if_neg hk, if_neg hk]

theorem has_attach (ref : ℕ) (userId : JsString) : (m.attach ref userId).has k = m.has k := by
  rw [has, get?_attach, Option.isSome_map]
  rfl

/-- The map without the identities of its objects. -/
def data (m : AccountMap) : List (JsString × Account) := m.map fun p => (p.1, p.2.account)

end AccountMap

/-! ## The file -/

theorem isValidAccount_json (a : Account) : isValidAccount a.json = some a := by
  obtain ⟨email, template, salt, commitment, didHash, identityBinding, did, createdAt, userId⟩ := a
  cases userId <;> rfl

/-- Keys that `loadAccounts` would use again. -/
structure Keyed (cfg : BridgeConfig) (m : AccountMap) : Prop where
  nodup : (m.map Prod.fst).Nodup
  lower : ∀ p ∈ m, p.1 = cfg.toLowerCase p.2.account.email

theorem Keyed.set {m : AccountMap} (h : Keyed cfg m) {key : JsString} {v : Held}
    (hkey : key = cfg.toLowerCase v.account.email) : Keyed cfg (m.set key v) where
  nodup := AccountMap.nodup_set h.nodup
  lower := by
    intro p hp
    rcases AccountMap.mem_set hp with rfl | hp
    · exact hkey
    · exact h.lower p hp

theorem Keyed.attach {m : AccountMap} (h : Keyed cfg m) (ref : ℕ) (userId : JsString) :
    Keyed cfg (m.attach ref userId) where
  nodup := by
    rw [AccountMap.keys_attach]
    exact h.nodup
  lower := by
    intro p hp
    rw [AccountMap.attach_eq] at hp
    obtain ⟨q, hq, rfl⟩ := List.mem_map.mp hp
    have hemail : (AccountMap.attachOne ref userId q.2).account.email = q.2.account.email := by
      unfold AccountMap.attachOne
      split <;> rfl
    rw [hemail]
    exact h.lower q hq

/-- One candidate of the loop of `loadAccounts`. -/
def loadOne (cfg : BridgeConfig) (acc : AccountMap × ℕ) (candidate : Json) : AccountMap × ℕ :=
  match isValidAccount candidate with
  | some a => (acc.1.set (cfg.toLowerCase a.email) ⟨acc.2, a⟩, acc.2 + 1)
  | none => acc

theorem loadAccounts_arr (cfg : BridgeConfig) (items : List Json) :
    loadAccounts cfg (some (some (.arr items))) = (items.foldl (loadOne cfg) ([], 0)).1 := rfl

theorem keyed_foldl_loadOne (items : List Json) {acc : AccountMap × ℕ} (h : Keyed cfg acc.1) :
    Keyed cfg (items.foldl (loadOne cfg) acc).1 := by
  induction items generalizing acc with
  | nil => exact h
  | cons candidate items ih =>
      apply ih
      unfold loadOne
      split
      · exact h.set rfl
      · exact h

theorem keyed_loadAccounts (file : Option (Option Json)) : Keyed cfg (loadAccounts cfg file) := by
  have hnil : Keyed cfg [] := ⟨List.nodup_nil, fun _ hp => by cases hp⟩
  unfold loadAccounts restore
  split
  · exact keyed_foldl_loadOne _ hnil
  · exact hnil

theorem data_foldl_loadOne (m : AccountMap) {acc : AccountMap × ℕ} (h : Keyed cfg (acc.1 ++ m)) :
    AccountMap.data ((m.map fun p => p.2.account.json).foldl (loadOne cfg) acc).1 =
      AccountMap.data (acc.1 ++ m) := by
  induction m generalizing acc with
  | nil => rw [List.append_nil, List.map_nil, List.foldl_nil]
  | cons p m ih =>
      obtain ⟨key, x⟩ := p
      have hkey : key = cfg.toLowerCase x.account.email := h.lower (key, x) (by simp)
      have hnew : key ∉ acc.1.map Prod.fst := by
        have hn := h.nodup
        rw [List.map_append, List.map_cons, List.nodup_append] at hn
        exact fun hk => hn.2.2 key hk key (by simp) rfl
      have hone : loadOne cfg acc x.account.json = (acc.1 ++ [(key, ⟨acc.2, x.account⟩)], acc.2 + 1) := by
        rw [loadOne, isValidAccount_json]
        dsimp only
        rw [← hkey, AccountMap.set_of_notMem hnew]
      have hdata : AccountMap.data ((acc.1 ++ [(key, ⟨acc.2, x.account⟩)]) ++ m) =
          AccountMap.data (acc.1 ++ (key, x) :: m) := by
        simp [AccountMap.data]
      rw [List.map_cons, List.foldl_cons, hone, ih, hdata]
      constructor
      · have hn := h.nodup
        simpa using hn
      · intro q hq
        dsimp only at hq
        rw [List.append_assoc, List.singleton_append] at hq
        rcases List.mem_append.mp hq with hq | hq
        · exact h.lower q (List.mem_append_left _ hq)
        · rcases List.mem_cons.mp hq with rfl | hq
          · exact hkey
          · exact h.lower q (by simp [hq])

/-- `loadAccounts` of a snapshot gives back the map. -/
theorem loadAccounts_snapshot {w : BridgeWorld} (h : Keyed cfg w.accounts) :
    (loadAccounts cfg (some (some w.snapshot))).data = w.accounts.data := by
  rw [BridgeWorld.snapshot, loadAccounts_arr]
  exact data_foldl_loadOne w.accounts h

/-! ## What a step does -/

/-- The email under which an answered operation has set a new account. -/
def stores : BridgeAct → Option JsString
  | ⟨.setAccount email _, .ok _⟩ => some email
  | ⟨.insertNew email _, .ok (some _)⟩ => some email
  | _ => none

def clears : BridgeAct → Bool
  | ⟨.clear, .ok _⟩ => true
  | _ => false

/-- Whether a `saveAccounts` that ends here has succeeded. -/
def saveEnds : BridgeAct → Option Bool
  | ⟨.mkdir, .error _⟩ => some false
  | ⟨.writeFile, .ok _⟩ => some true
  | ⟨.writeFile, .error _⟩ => some false
  | _ => none

inductive BridgeEffect (cfg : BridgeConfig) (t : ℕ) (w : BridgeWorld) (x : BridgeAct) : BridgeWorld → Prop
  | quiet {w'} (haccounts : w'.accounts = w.accounts) (hfile : w'.file = w.file)
      (hwrites : w'.writes = w.writes) (hphase : ∀ s, (note s x).phase = s.phase)
      (hstores : stores x = none) (hclears : clears x = false) (hends : saveEnds x = none) :
      BridgeEffect cfg t w x w'
  | stored {email account} (hop : (x.op = .setAccount email account) ∨
        ∃ f createdAt, x.op = .insertNew email f ∧ account = f createdAt ∧
          w.accounts.has email = false)
      (hphase : ∀ s, (note s x).phase = .owing) (hstores : stores x = some email)
      (hclears : clears x = false) (hends : saveEnds x = none) :
      BridgeEffect cfg t w x (w.store email account)
  | cleared (hop : x.op = .clear) (hphase : ∀ s, (note s x).phase = .owing)
      (hstores : stores x = none) (hclears : clears x = true) (hends : saveEnds x = none) :
      BridgeEffect cfg t w x { w with accounts := [] }
  | attached {ref userId} (hop : ∀ enrolled s, InOrder cfg enrolled s x.op → s.phase = .idle)
      (hphase : ∀ s, (note s x).phase = .owing)
      (hstores : stores x = none) (hclears : clears x = false) (hends : saveEnds x = none) :
      BridgeEffect cfg t w x { w with accounts := w.accounts.attach ref userId }
  | notMade (hop : x.op = .mkdir) (hphase : ∀ s, (note s x).phase = .idle)
      (hstores : stores x = none) (hclears : clears x = false) (hends : saveEnds x = some false) :
      BridgeEffect cfg t w x w
  | opened (hop : x.op = .startWrite) (hphase : ∀ s, (note s x).phase = .writing)
      (hstores : stores x = none) (hclears : clears x = false) (hends : saveEnds x = none) :
      BridgeEffect cfg t w x (w.openFile t)
  | wrote {y contents} (hop : x.op = .writeFile) (hy : y ∈ w.writes) (hthread : y.thread = t)
      (hphase : ∀ s, (note s x).phase = .idle) (hstores : stores x = none)
      (hclears : clears x = false) (hends : saveEnds x = some true) :
      BridgeEffect cfg t w x (w.closeFile t (if y.alone then some y.contents else contents))
  | notWritten {contents} (hop : x.op = .writeFile) (hphase : ∀ s, (note s x).phase = .idle)
      (hstores : stores x = none) (hclears : clears x = false) (hends : saveEnds x = some false) :
      BridgeEffect cfg t w x (w.closeFile t contents)

theorem exec_effect (cfg : BridgeConfig) {t : ℕ} {o : BridgeOp} {ω : BridgeOracle} {w w' : BridgeWorld}
    {r : Except BridgeError o.Resp} (h : bridgeExec t o ω w = some (r, w')) :
    BridgeEffect cfg t w ⟨o, r⟩ w' := by
  unfold bridgeExec at h
  split at h
  case h_1 email =>
    cases h
    cases w.accounts.has email <;> exact .quiet rfl rfl rfl (fun _ => rfl) rfl rfl rfl
  case h_3 =>
    split at h
    · cases h
      exact .quiet rfl rfl rfl (fun _ => rfl) rfl rfl rfl
    · cases h
  case h_9 =>
    split at h
    · cases h
      exact .quiet rfl rfl rfl (fun _ => rfl) rfl rfl rfl
    · cases h
  case h_16 =>
    cases h
    exact .stored (.inl rfl) (fun _ => rfl) rfl rfl rfl
  case h_17 =>
    split at h
    · cases h
      exact .quiet rfl rfl rfl (fun _ => rfl) rfl rfl rfl
    · next hno =>
        cases h
        exact .stored (.inr ⟨_, _, rfl, rfl, Bool.eq_false_iff.mpr hno⟩)
          (fun _ => rfl) rfl rfl rfl
  case h_18 =>
    cases h
    exact .cleared rfl (fun _ => rfl) rfl rfl rfl
  case h_20 =>
    cases h
    exact .notMade rfl (fun _ => rfl) rfl rfl rfl
  case h_21 =>
    cases h
    exact .opened rfl (fun _ => rfl) rfl rfl rfl
  case h_22 =>
    obtain ⟨y, hy, heq⟩ := Option.map_eq_some_iff.mp h
    cases heq
    have hthread := List.find?_some hy
    exact .wrote rfl (List.mem_of_find?_eq_some hy) (of_decide_eq_true hthread) (fun _ => rfl) rfl
      rfl rfl
  case h_23 =>
    cases h
    exact .notWritten rfl (fun _ => rfl) rfl rfl rfl
  case h_25 =>
    split at h
    · cases h
      exact .attached (fun _ _ hs => hs) (fun _ => rfl) rfl rfl rfl
    · cases h
      exact .quiet rfl rfl rfl (fun _ => rfl) rfl rfl rfl
  case h_27 =>
    cases h
    exact .attached (fun _ _ hs => hs) (fun _ => rfl) rfl rfl rfl
  case h_30 => cases h
  -- the other operations leave the map and the file alone
  all_goals
    cases h
    exact .quiet rfl rfl rfl (fun _ => rfl) rfl rfl rfl

/-! ## What runs keep -/

abbrev BridgeState (cfg : BridgeConfig) :=
  Config bridgeSig BridgeError BridgeResult (BridgeCall cfg) BridgeWorld

abbrev BridgeLabel (cfg : BridgeConfig) := Label (BridgeCall cfg) BridgeOracle Empty

def BridgeOracle.succeeds : BridgeOracle → Bool
  | .fails _ => false
  | .writeFails _ _ => false
  | _ => true

/-- No enrolment stores an account over another, no step of an enrolment's
    `saveAccounts` fails, and while a `writeFile` is in progress no other one starts and
    no `mkdir` fails. -/
def bridgeOk (c : BridgeState cfg) : BridgeLabel cfg → Bool
  | .resume t ω =>
      match c.threads[t]? with
      | some ⟨a, _, .await o _⟩ =>
          match o with
          | .setAccount email _ => !c.world.accounts.has email
          | .mkdir => ω.succeeds || (a.enrolls.isNone && c.world.writes.isEmpty)
          | .startWrite => c.world.writes.isEmpty
          | .writeFile => ω.succeeds || a.enrolls.isNone
          | _ => true
      | _ => true
  | _ => true

abbrev BridgeEvent := Event bridgeSig BridgeError

/-- How often the map has been reset. -/
def resets (log : List BridgeEvent) : ℕ := log.countP fun e => clears e.act

/-- The emails for which an account has been set since the last reset. -/
def sinceReset (log : List BridgeEvent) : List JsString :=
  log.foldl (fun emails e =>
    if clears e.act then [] else match stores e.act with
      | some email => email :: emails
      | none => emails) []

/-- How the last `saveAccounts` to end has ended. -/
def lastSave (log : List BridgeEvent) : Option Bool :=
  (log.filterMap fun e => saveEnds e.act).getLast?

/-- The duplicate check has found the email registered. -/
def sees : BridgeAct → Bool
  | ⟨.has _, .ok true⟩ => true
  | ⟨.insertNew _ _, .ok none⟩ => true
  | _ => false

/-- In a state of a run: an account stays until a reset; an enrolment that finds its
    email registered ends in `EmailAlreadyRegisteredError`, and between two resets no
    two enrolments of an email succeed; one that throws has stored nothing; and at
    rest, after a save that succeeded, `loadAccounts` gives back the map. -/
structure BridgeHolds (good : BridgeState cfg → BridgeLabel cfg → Prop) (c : BridgeState cfg) :
    Prop where
  kept : ∀ c', (bridge cfg).Later good c c' → resets c'.log = resets c.log →
    ∀ email x, c.world.accounts.get? email = some x →
      ∃ x' userId, c'.world.accounts.get? email = some x' ∧
        x'.account = { x.account with centralUserId := userId }
  registered : ∀ (t : ℕ) th email, c.threads[t]? = some th → th.call.enrolls = some email →
    (∃ y ∈ th.past, sees y = true) → ∀ out, th.rest.outcome? = some out →
      out = .error (.emailAlreadyRegistered email)
  stored : ∀ (t : ℕ) th email r, c.threads[t]? = some th → th.call.enrolls = some email →
    th.rest.outcome? = some (.ok r) → ∃ y ∈ th.past, stores y = some email
  once : (sinceReset c.log).Nodup
  unchanged : ∀ (t : ℕ) th e, c.threads[t]? = some th → th.call.enrolls.isSome →
    th.rest.outcome? = some (.error e) → ∀ y ∈ th.past, stores y = none
  saved : (∀ (t : ℕ) th, c.threads[t]? = some th → th.rest.outcome?.isSome) →
    lastSave c.log ≠ some false →
    (loadAccounts cfg c.world.file).data = c.world.accounts.data

/-! ## The trail of a history -/

def trail (past : List BridgeAct) : Trail := past.foldl note .start

theorem trail_snoc (past : List BridgeAct) (x : BridgeAct) :
    trail (past ++ [x]) = note (trail past) x := by
  rw [trail, List.foldl_append]
  rfl

theorem note_saw (s : Trail) (x : BridgeAct) : (note s x).saw = (s.saw || sees x) := by
  unfold note
  split <;> simp [sees]

theorem note_stored (s : Trail) (x : BridgeAct) :
    (note s x).stored = (s.stored || (stores x).isSome) := by
  unfold note
  split <;> simp [stores]

theorem saw_of_sees {past : List BridgeAct} (h : ∃ y ∈ past, sees y = true) :
    (trail past).saw = true := by
  induction past using List.reverseRecOn with
  | nil =>
      obtain ⟨y, hy, -⟩ := h
      cases hy
  | append_singleton past x ih =>
      rw [trail_snoc, note_saw, Bool.or_eq_true]
      obtain ⟨y, hy, hsees⟩ := h
      rcases List.mem_append.mp hy with hy | hy
      · exact .inl (ih ⟨y, hy, hsees⟩)
      · rw [List.mem_singleton.mp hy] at hsees
        exact .inr hsees

theorem stored_iff {past : List BridgeAct} :
    (trail past).stored = true ↔ ∃ y ∈ past, (stores y).isSome := by
  induction past using List.reverseRecOn with
  | nil => simp [trail, Trail.start]
  | append_singleton past x ih =>
      rw [trail_snoc, note_stored, Bool.or_eq_true, ih]
      simp [or_and_right, exists_or]

/-! ## Calls -/

/-- A step of `saveAccounts` that has failed. -/
def saveFails : BridgeAct → Bool
  | ⟨.mkdir, .error _⟩ => true
  | ⟨.startWrite, .error _⟩ => true
  | ⟨.writeFile, .error _⟩ => true
  | _ => false

theorem note_failed (s : Trail) (x : BridgeAct) :
    (note s x).failed = (s.failed || saveFails x) := by
  unfold note
  split <;> simp [saveFails]

theorem stores_own {enrolled : Option JsString} {s : Trail} {x : BridgeAct} {email : JsString}
    (h : InOrder cfg enrolled s x.op) (hx : stores x = some email) : enrolled = some email := by
  unfold stores at hx
  split at hx <;> cases hx <;> exact h.2.1

section Reach

variable {c : BridgeState cfg} {t : ℕ}

/-- The runs that the theorem is about. -/
abbrev BridgeReach (c : BridgeState cfg) : Prop :=
  (bridge cfg).Reach (BridgeWorld.Initial cfg) (fun c l => bridgeOk c l = true) c

theorem reach_inOrder (h : BridgeReach c) {a : BridgeCall cfg} {past : List BridgeAct}
    {o : BridgeOp} {k : Except BridgeError o.Resp → BridgeProgram BridgeResult}
    (hth : c.threads[t]? = some ⟨a, past, .await o k⟩) : InOrder cfg a.enrolls (trail past) o :=
  h.leads_await hth (leads_code a)

theorem reach_ends (h : BridgeReach c) {th : Thread bridgeSig BridgeError BridgeResult (BridgeCall cfg)}
    (hth : c.threads[t]? = some th) {out : Except BridgeError BridgeResult}
    (hout : th.rest.outcome? = some out) : CallEnds th.call (trail th.past) out :=
  h.leads_outcome hth (leads_code th.call) hout

theorem reach_stores (h : BridgeReach c) {th : Thread bridgeSig BridgeError BridgeResult (BridgeCall cfg)}
    (hth : c.threads[t]? = some th) {y : BridgeAct} (hy : y ∈ th.past) {email : JsString}
    (hstores : stores y = some email) : th.call.enrolls = some email := by
  refine h.past_invariant (P := fun a past => ∀ y ∈ past, ∀ email, stores y = some email →
    a.enrolls = some email) ?_ ?_ hth y hy email hstores
  · intro a y hy
    cases hy
  · intro c t ω a past o k r w hc _ hth _ ih y hy email hstores
    rcases List.mem_append.mp hy with hy | hy
    · exact ih y hy email hstores
    · obtain rfl := List.mem_singleton.mp hy
      exact stores_own (reach_inOrder hc hth) hstores

/-- In these runs no step of an enrolment's `saveAccounts` fails. -/
theorem reach_failed (h : BridgeReach c) {th : Thread bridgeSig BridgeError BridgeResult (BridgeCall cfg)}
    (hth : c.threads[t]? = some th) (henrolls : th.call.enrolls.isSome) :
    (trail th.past).failed = false := by
  refine h.past_invariant (P := fun a past => a.enrolls.isSome → (trail past).failed = false)
    ?_ ?_ hth henrolls
  · exact fun _ _ => rfl
  · intro c t ω a past o k r w hc hok hth hx ih ha
    rw [trail_snoc, note_failed, ih ha, Bool.false_or]
    have hnone : a.enrolls.isNone = false := by
      rw [Option.isNone_eq_false_iff]
      exact ha
    simp only [bridgeOk, hth] at hok
    -- only `mkdir` and `writeFile` can fail, and not here
    cases o with
    | mkdir =>
        cases ω <;> cases hx
        · rfl
        · simp [BridgeOracle.succeeds, hnone] at hok
    | startWrite =>
        cases ω <;> cases hx
        rfl
    | writeFile =>
        cases ω with
        | wrote contents =>
            obtain ⟨y, -, heq⟩ := Option.map_eq_some_iff.mp hx
            cases heq
            rfl
        | writeFails message contents => simp [BridgeOracle.succeeds, hnone] at hok
        | _ => cases hx
    | _ => rfl

end Reach

/-! ## The map in a run -/

theorem resets_snoc (log : List BridgeEvent) (e : BridgeEvent) :
    resets (log ++ [e]) = resets log + if clears e.act then 1 else 0 := by
  rw [resets, List.countP_append, List.countP_singleton]
  rfl

theorem sinceReset_snoc (log : List BridgeEvent) (e : BridgeEvent) :
    sinceReset (log ++ [e]) = if clears e.act then [] else match stores e.act with
      | some email => email :: sinceReset log
      | none => sinceReset log := by
  rw [sinceReset, List.foldl_append]
  rfl

theorem lastSave_snoc (log : List BridgeEvent) (e : BridgeEvent) :
    lastSave (log ++ [e]) = (saveEnds e.act).or (lastSave log) := by
  rw [lastSave, List.filterMap_append, List.getLast?_append, List.filterMap_cons]
  cases saveEnds e.act <;> rfl

/-- The same account, but for its `centralUserId`. -/
def SameAccount (x x' : Held) : Prop :=
  ∃ userId, x'.account = { x.account with centralUserId := userId }

theorem SameAccount.refl (x : Held) : SameAccount x x := ⟨x.account.centralUserId, rfl⟩

theorem SameAccount.trans {x y z : Held} (h : SameAccount x y) (h' : SameAccount y z) :
    SameAccount x z := by
  obtain ⟨u, hu⟩ := h
  obtain ⟨u', hu'⟩ := h'
  exact ⟨u', by rw [hu', hu]⟩

theorem sameAccount_attachOne (ref : ℕ) (userId : JsString) (x : Held) :
    SameAccount x (AccountMap.attachOne ref userId x) := by
  unfold AccountMap.attachOne
  split
  · exact ⟨some userId, rfl⟩
  · exact .refl x

/-- What an account in the map is after a step that does not reset it. -/
theorem get?_effect {t : ℕ} {w w' : BridgeWorld} {x : BridgeAct} (h : BridgeEffect cfg t w x w')
    (hfree : ∀ email account, x.op = .setAccount email account → w.accounts.has email = false)
    (hclears : clears x = false) {email : JsString} {y : Held}
    (hy : w.accounts.get? email = some y) :
    ∃ y', w'.accounts.get? email = some y' ∧ SameAccount y y' := by
  cases h with
  | quiet haccounts =>
      rw [haccounts]
      exact ⟨y, hy, .refl y⟩
  | @stored email' account hop =>
      have hno : w.accounts.has email' = false := by
        rcases hop with hop | ⟨f, createdAt, -, -, hno⟩
        · exact hfree email' account hop
        · exact hno
      have hne : email ≠ email' := by
        rintro rfl
        rw [AccountMap.has, hy] at hno
        cases hno
      refine ⟨y, ?_, .refl y⟩
      rw [BridgeWorld.store, AccountMap.get?_set, if_neg hne, hy]
  | cleared _ _ _ hc =>
      rw [hclears] at hc
      cases hc
  | @attached ref userId =>
      refine ⟨AccountMap.attachOne ref userId y, ?_, sameAccount_attachOne ref userId y⟩
      dsimp only
      rw [AccountMap.get?_attach, hy, Option.map_some]
  | notMade => exact ⟨y, hy, .refl y⟩
  | opened => exact ⟨y, hy, .refl y⟩
  | wrote => exact ⟨y, hy, .refl y⟩
  | notWritten => exact ⟨y, hy, .refl y⟩

theorem setAccount_free {c : BridgeState cfg} {t : ℕ} {ω : BridgeOracle} {a : BridgeCall cfg}
    {past : List BridgeAct} {o : BridgeOp} {k : Except BridgeError o.Resp → BridgeProgram BridgeResult}
    (hok : bridgeOk c (.resume t ω) = true) (hth : c.threads[t]? = some ⟨a, past, .await o k⟩)
    {email : JsString} {account : Account} (ho : o = .setAccount email account) :
    c.world.accounts.has email = false := by
  subst ho
  simpa [bridgeOk, hth] using hok

theorem kept_next {c c' : BridgeState cfg}
    (h : (bridge cfg).Next (fun c l => bridgeOk c l = true) c c')
    (hresets : resets c'.log = resets c.log) {email : JsString} {y : Held}
    (hy : c.world.accounts.get? email = some y) :
    ∃ y', c'.world.accounts.get? email = some y' ∧ SameAccount y y' := by
  obtain ⟨l, hok, hs⟩ := h
  obtain ⟨a, -, rfl⟩ | ⟨t, ω, a, past, o, k, r, w, rfl, hth, hx, rfl⟩ | ⟨e, -⟩ :=
    System.step_cases hs
  · exact ⟨y, hy, .refl y⟩
  · have hclears : clears ⟨o, r⟩ = false := by
      rw [Config.answered, resets_snoc] at hresets
      cases hc : clears ⟨o, r⟩ with
      | false => rfl
      | true => simp [hc] at hresets
    exact get?_effect (exec_effect cfg hx) (fun _ _ => setAccount_free hok hth) hclears hy
  · cases e

theorem resets_mono {c c' : BridgeState cfg} {good : BridgeState cfg → BridgeLabel cfg → Prop}
    (h : (bridge cfg).Later good c c') : resets c.log ≤ resets c'.log :=
  List.Sublist.countP_le h.log_prefix.sublist

theorem kept_later {c c' : BridgeState cfg}
    (h : (bridge cfg).Later (fun c l => bridgeOk c l = true) c c')
    (hresets : resets c'.log = resets c.log) {email : JsString} {y : Held}
    (hy : c.world.accounts.get? email = some y) :
    ∃ y', c'.world.accounts.get? email = some y' ∧ SameAccount y y' := by
  induction h with
  | refl => exact ⟨y, hy, .refl y⟩
  | @tail c₁ c₂ hl hn ih =>
      have hle := resets_mono hl
      have hle' := resets_mono (Relation.ReflTransGen.single hn)
      obtain ⟨y₁, hy₁, hsame⟩ := ih (by omega)
      obtain ⟨y₂, hy₂, hsame'⟩ := kept_next hn (by omega) hy₁
      exact ⟨y₂, hy₂, hsame.trans hsame'⟩

/-- Between two resets an account is stored once, and it is there. -/
structure StoredOnce (w : BridgeWorld) (log : List BridgeEvent) : Prop where
  nodup : (sinceReset log).Nodup
  has : ∀ email ∈ sinceReset log, w.accounts.has email = true

theorem StoredOnce.keeps {t : ℕ} {w w' : BridgeWorld} {log : List BridgeEvent} {x : BridgeAct}
    (h : StoredOnce w log) (hhas : ∀ email, w.accounts.has email = true → w'.accounts.has email = true)
    (hclears : clears x = false) (hstores : stores x = none) :
    StoredOnce w' (log ++ [⟨t, x⟩]) := by
  have hlog : sinceReset (log ++ [⟨t, x⟩]) = sinceReset log := by
    rw [sinceReset_snoc, hclears, hstores]
    rfl
  constructor
  · rw [hlog]
    exact h.nodup
  · rw [hlog]
    exact fun email hm => hhas email (h.has email hm)

theorem storedOnce_effect {t : ℕ} {w w' : BridgeWorld} {log : List BridgeEvent} {x : BridgeAct}
    (hI : StoredOnce w log) (h : BridgeEffect cfg t w x w')
    (hfree : ∀ email account, x.op = .setAccount email account → w.accounts.has email = false) :
    StoredOnce w' (log ++ [⟨t, x⟩]) := by
  cases h with
  | quiet haccounts _ _ _ hst hc =>
      apply hI.keeps _ hc hst
      rw [haccounts]
      exact fun _ hm => hm
  | @stored email account hop _ hst hc =>
      -- an address is stored only while the map does not have it
      have hno : w.accounts.has email = false := by
        rcases hop with hop | ⟨f, createdAt, -, -, hno⟩
        · exact hfree email account hop
        · exact hno
      have hlog : sinceReset (log ++ [⟨t, x⟩]) = email :: sinceReset log := by
        rw [sinceReset_snoc, hc, hst]
        rfl
      constructor
      · rw [hlog]
        refine List.nodup_cons.mpr ⟨fun hm => ?_, hI.nodup⟩
        rw [hI.has email hm] at hno
        cases hno
      · rw [hlog]
        intro email' hm
        rw [BridgeWorld.store, AccountMap.has_set, Bool.or_eq_true, decide_eq_true_iff]
        exact (List.mem_cons.mp hm).imp_right (hI.has email')
  | cleared _ _ _ hc =>
      -- after a reset the count begins anew
      have hlog : sinceReset (log ++ [⟨t, x⟩]) = [] := by
        rw [sinceReset_snoc, hc]
        rfl
      constructor
      · rw [hlog]
        exact List.nodup_nil
      · rw [hlog]
        exact fun _ hm => by cases hm
  | @attached ref userId _ _ hst hc =>
      apply hI.keeps _ hc hst
      intro email hm
      rw [AccountMap.has_attach]
      exact hm
  | notMade _ _ hst hc => exact hI.keeps (fun _ hm => hm) hc hst
  | opened _ _ hst hc => exact hI.keeps (fun _ hm => hm) hc hst
  | wrote _ _ _ _ hst hc => exact hI.keeps (fun _ hm => hm) hc hst
  | notWritten _ _ hst hc => exact hI.keeps (fun _ hm => hm) hc hst

theorem reach_once {c : BridgeState cfg} (h : BridgeReach c) : StoredOnce c.world c.log := by
  refine h.invariant (I := fun c => StoredOnce c.world c.log) ?_ ?_ ?_ ?_
  · exact fun _ _ => ⟨List.nodup_nil, fun _ hm => by cases hm⟩
  · exact fun _ _ _ ih _ => ih
  · intro c t ω a past o k r w _ ih hok hth hx
    exact storedOnce_effect ih (exec_effect cfg hx) fun _ _ => setAccount_free hok hth
  · intro c e
    cases e

/-! ## The file in a run -/

/-- Some call has changed the map and not yet taken its snapshot. -/
def Owing (c : BridgeState cfg) : Prop :=
  ∃ (t : ℕ) (th : Thread bridgeSig BridgeError BridgeResult (BridgeCall cfg)),
    c.threads[t]? = some th ∧ (trail th.past).phase = .owing

/-- `loadAccounts` of the file is the map. -/
def FileIs (cfg : BridgeConfig) (w : BridgeWorld) : Prop :=
  (loadAccounts cfg w.file).data = w.accounts.data

structure AccountsInv (c : BridgeState cfg) : Prop where
  keyed : Keyed cfg c.world.accounts
  saved : c.world.writes = [] → lastSave c.log ≠ some false → FileIs cfg c.world ∨ Owing c
  writing : ∀ x ∈ c.world.writes, c.world.writes = [x] ∧ x.alone = true ∧
    (x.contents = c.world.snapshot ∨ Owing c)
  writer : ∀ x ∈ c.world.writes, ∃ th, c.threads[x.thread]? = some th ∧
    (trail th.past).phase = .writing

section Answered

variable {c : BridgeState cfg} {t : ℕ} {a : BridgeCall cfg} {past : List BridgeAct} {o : BridgeOp}
  {k : Except BridgeError o.Resp → BridgeProgram BridgeResult} {r : Except BridgeError o.Resp}
  {w : BridgeWorld}

theorem owing_self (hth : c.threads[t]? = some ⟨a, past, .await o k⟩)
    (hphase : ∀ s, (note s ⟨o, r⟩).phase = .owing) : Owing (c.answered t a past k r w) := by
  refine ⟨t, _, System.getElem?_answered_self hth, ?_⟩
  dsimp only
  rw [trail_snoc, hphase]

theorem owing_answered (h : Owing c) (hth : c.threads[t]? = some ⟨a, past, .await o k⟩)
    (hphase : (trail past).phase = .owing → (note (trail past) ⟨o, r⟩).phase = .owing) :
    Owing (c.answered t a past k r w) := by
  obtain ⟨t', th, hth', howing⟩ := h
  by_cases ht : t = t'
  · subst ht
    rw [hth] at hth'
    cases hth'
    refine ⟨t, _, System.getElem?_answered_self hth, ?_⟩
    dsimp only
    rw [trail_snoc]
    exact hphase howing
  · refine ⟨t', th, ?_, howing⟩
    rw [System.getElem?_answered, if_neg ht, hth']

/-- The writer of a file is not the call that makes another step, or is still writing. -/
theorem writer_answered {x : FileWrite} (hth : c.threads[t]? = some ⟨a, past, .await o k⟩)
    (h : ∃ th, c.threads[x.thread]? = some th ∧ (trail th.past).phase = .writing)
    (hphase : (trail past).phase = .writing → (note (trail past) ⟨o, r⟩).phase = .writing) :
    ∃ th, (c.answered t a past k r w).threads[x.thread]? = some th ∧
      (trail th.past).phase = .writing := by
  obtain ⟨th, hth', hwriting⟩ := h
  by_cases ht : t = x.thread
  · subst ht
    rw [hth] at hth'
    cases hth'
    refine ⟨_, System.getElem?_answered_self hth, ?_⟩
    dsimp only
    rw [trail_snoc]
    exact hphase hwriting
  · refine ⟨th, ?_, hwriting⟩
    rw [System.getElem?_answered, if_neg ht, hth']

/-- The call that ends a `writeFile` owes nothing. -/
theorem owing_of_writeFile (hth : c.threads[t]? = some ⟨a, past, .await o k⟩) (ho : o = .writeFile)
    (horder : InOrder cfg a.enrolls (trail past) o) (h : Owing c) :
    Owing (c.answered t a past k r w) := by
  apply owing_answered h hth
  intro hp
  rw [ho] at horder
  rw [show (trail past).phase = .writing from horder] at hp
  cases hp

/-- A change of the map by a call that has nothing left to save. -/
theorem accountsInv_change (hI : AccountsInv c)
    (hth : c.threads[t]? = some ⟨a, past, .await o k⟩) (hidle : (trail past).phase = .idle)
    (hphase : ∀ s, (note s ⟨o, r⟩).phase = .owing) (hkeyed : Keyed cfg w.accounts)
    (hwrites : w.writes = c.world.writes) : AccountsInv (c.answered t a past k r w) where
  keyed := hkeyed
  saved := fun _ _ => .inr (owing_self hth hphase)
  writing := by
    intro x hx
    rw [Config.answered] at hx ⊢
    dsimp only at hx ⊢
    rw [hwrites] at hx ⊢
    obtain ⟨hone, halone, -⟩ := hI.writing x hx
    exact ⟨hone, halone, .inr (owing_self hth hphase)⟩
  writer := by
    intro x hx
    rw [Config.answered] at hx
    dsimp only at hx
    rw [hwrites] at hx
    apply writer_answered hth (hI.writer x hx)
    intro hwriting
    rw [hidle] at hwriting
    cases hwriting

end Answered

theorem accountsInv_quiet {c : BridgeState cfg} {t : ℕ} {a : BridgeCall cfg}
    {past : List BridgeAct} {o : BridgeOp} {k : Except BridgeError o.Resp → BridgeProgram BridgeResult}
    {r : Except BridgeError o.Resp} {w : BridgeWorld} (hI : AccountsInv c)
    (hth : c.threads[t]? = some ⟨a, past, .await o k⟩) (haccounts : w.accounts = c.world.accounts)
    (hfile : w.file = c.world.file) (hwrites : w.writes = c.world.writes)
    (hphase : ∀ s, (note s ⟨o, r⟩).phase = s.phase) (hends : saveEnds ⟨o, r⟩ = none) :
    AccountsInv (c.answered t a past k r w) := by
  -- a thread that owes a save still owes it
  have howing : Owing c → Owing (c.answered t a past k r w) :=
    fun h => owing_answered h hth fun hp => by rw [hphase, hp]
  constructor
  · rw [Config.answered]
    dsimp only
    rw [haccounts]
    exact hI.keyed
  · intro hnil hlast
    rw [Config.answered] at hnil hlast
    rw [lastSave_snoc, hends, Option.none_or] at hlast
    dsimp only at hnil
    rw [hwrites] at hnil
    apply (hI.saved hnil hlast).imp _ howing
    rw [Config.answered, FileIs, FileIs]
    dsimp only
    rw [haccounts, hfile]
    exact id
  · intro x hx
    rw [Config.answered] at hx
    dsimp only at hx
    rw [hwrites] at hx
    obtain ⟨hone, halone, hcontents⟩ := hI.writing x hx
    refine ⟨hwrites.trans hone, halone, hcontents.imp (fun h => ?_) howing⟩
    rw [h, Config.answered, BridgeWorld.snapshot, BridgeWorld.snapshot]
    dsimp only
    rw [haccounts]
  · intro x hx
    rw [Config.answered] at hx
    dsimp only at hx
    rw [hwrites] at hx
    exact writer_answered hth (hI.writer x hx) fun hp => by rw [hphase, hp]

/-- A `mkdir` fails with no `writeFile` in progress. -/
theorem writes_of_notMade {c : BridgeState cfg} {t : ℕ} {ω : BridgeOracle} {a : BridgeCall cfg}
    {past : List BridgeAct} {o : BridgeOp} {k : Except BridgeError o.Resp → BridgeProgram BridgeResult}
    {r : Except BridgeError o.Resp} {w : BridgeWorld}
    (hok : bridgeOk c (.resume t ω) = true) (hth : c.threads[t]? = some ⟨a, past, .await o k⟩)
    (hx : bridgeExec t o ω c.world = some (r, w)) (ho : o = .mkdir)
    (hends : saveEnds ⟨o, r⟩ = some false) : c.world.writes = [] := by
  subst ho
  cases ω <;> cases hx
  · cases hends
  · simp only [bridgeOk, hth, BridgeOracle.succeeds, Bool.false_or, Bool.and_eq_true,
      List.isEmpty_iff] at hok
    exact hok.2

theorem accountsInv_resume {c : BridgeState cfg} {t : ℕ} {ω : BridgeOracle} {a : BridgeCall cfg}
    {past : List BridgeAct} {o : BridgeOp} {k : Except BridgeError o.Resp → BridgeProgram BridgeResult}
    {r : Except BridgeError o.Resp} {w : BridgeWorld} (hI : AccountsInv c)
    (horder : InOrder cfg a.enrolls (trail past) o) (hok : bridgeOk c (.resume t ω) = true)
    (hth : c.threads[t]? = some ⟨a, past, .await o k⟩)
    (hx : bridgeExec t o ω c.world = some (r, w)) : AccountsInv (c.answered t a past k r w) := by
  cases exec_effect cfg hx with
  | quiet haccounts hfile hwrites hphase _ _ hends =>
      exact accountsInv_quiet hI hth haccounts hfile hwrites hphase hends
  | @stored email account hop hphase _ _ _ =>
      -- both operations that store use the address in lower case as the key
      have hkey : (trail past).phase = .idle ∧ email = cfg.toLowerCase account.email := by
        rcases hop with rfl | ⟨f, createdAt, rfl, rfl, -⟩
        · obtain ⟨hidle, -, hlower, hemail⟩ := horder
          exact ⟨hidle, by rw [hemail, hlower]⟩
        · obtain ⟨hidle, -, hlower, hemail⟩ := horder
          exact ⟨hidle, by rw [hemail createdAt, hlower]⟩
      exact accountsInv_change hI hth hkey.1 hphase (hI.keyed.set hkey.2) rfl
  | cleared hop hphase =>
      obtain rfl : o = .clear := hop
      exact accountsInv_change hI hth horder hphase ⟨List.nodup_nil, fun _ hp => by cases hp⟩ rfl
  | attached hop hphase =>
      exact accountsInv_change hI hth (hop _ _ horder) hphase (hI.keyed.attach _ _) rfl
  | notMade hop hphase _ _ hends =>
      -- a file that could not be opened had no write under way
      have hnil := writes_of_notMade hok hth hx hop hends
      constructor
      · exact hI.keyed
      · intro _ hlast
        rw [Config.answered, lastSave_snoc, hends] at hlast
        exact absurd rfl hlast
      · intro x hx
        rw [Config.answered] at hx
        dsimp only at hx
        rw [hnil] at hx
        cases hx
      · intro x hx
        rw [Config.answered] at hx
        dsimp only at hx
        rw [hnil] at hx
        cases hx
  | opened hop hphase =>
      obtain rfl : o = .startWrite := hop
      have hnil : c.world.writes = [] := by
        simpa [bridgeOk, hth] using hok
      -- the write takes the map as it is now, and it is the only one
      have hwrites : (c.world.openFile t).writes = [⟨t, c.world.snapshot, true⟩] := by
        simp [BridgeWorld.openFile, hnil]
      constructor
      · exact hI.keyed
      · intro h
        rw [Config.answered] at h
        dsimp only at h
        rw [hwrites] at h
        cases h
      · intro x hx
        rw [Config.answered] at hx ⊢
        dsimp only at hx ⊢
        rw [hwrites] at hx ⊢
        rw [List.mem_singleton.mp hx]
        exact ⟨rfl, rfl, .inl rfl⟩
      · intro x hx
        rw [Config.answered] at hx
        dsimp only at hx
        rw [hwrites] at hx
        rw [List.mem_singleton.mp hx]
        refine ⟨_, System.getElem?_answered_self hth, ?_⟩
        dsimp only
        rw [trail_snoc, hphase]
  | @wrote y contents hop hy hthread hphase _ _ hends =>
      obtain ⟨hone, halone, hcontents⟩ := hI.writing y hy
      -- the write that ends was the only one
      have hnil : c.world.writes.filter (fun x => x.thread ≠ t) = [] := by
        rw [hone]
        simp [hthread]
      have howing := owing_of_writeFile (w := c.world.closeFile t
        (if y.alone then some y.contents else contents)) (r := r) hth hop horder
      constructor
      · exact hI.keyed
      · intro _ _
        apply hcontents.imp _ howing
        intro h
        rw [Config.answered, BridgeWorld.closeFile, FileIs]
        dsimp only
        rw [halone, if_pos rfl, h]
        exact loadAccounts_snapshot hI.keyed
      · intro x hx
        rw [Config.answered, BridgeWorld.closeFile] at hx
        dsimp only at hx
        rw [hnil] at hx
        cases hx
      · intro x hx
        rw [Config.answered, BridgeWorld.closeFile] at hx
        dsimp only at hx
        rw [hnil] at hx
        cases hx
  -- a write that fails may leave anything in the file, but its save fails as well
  | @notWritten contents hop hphase _ _ hends =>
      have howing := owing_of_writeFile (w := c.world.closeFile t contents) (r := r) hth hop horder
      constructor
      · exact hI.keyed
      · intro _ hlast
        rw [Config.answered, lastSave_snoc, hends] at hlast
        exact absurd rfl hlast
      · intro x hx
        obtain ⟨hx, hne⟩ := List.mem_filter.mp hx
        obtain ⟨hone, halone, hcontents⟩ := hI.writing x hx
        refine ⟨?_, halone, hcontents.imp id howing⟩
        rw [Config.answered, BridgeWorld.closeFile]
        dsimp only
        rw [hone, List.filter_singleton, hne]
        rfl
      · intro x hx
        obtain ⟨hx, hne⟩ := List.mem_filter.mp hx
        obtain ⟨th, hth', hwriting⟩ := hI.writer x hx
        refine ⟨th, ?_, hwriting⟩
        rw [System.getElem?_answered, if_neg (Ne.symm (of_decide_eq_true hne)), hth']

theorem getElem?_spawn_of_some {c : BridgeState cfg} {t : ℕ}
    {th : Thread bridgeSig BridgeError BridgeResult (BridgeCall cfg)}
    (h : c.threads[t]? = some th) (a : BridgeCall cfg) :
    ((bridge cfg).spawn c a).threads[t]? = some th := by
  rw [System.spawn, List.getElem?_append_left (List.getElem?_eq_some_iff.mp h).1, h]

theorem reach_accountsInv {c : BridgeState cfg} (h : BridgeReach c) : AccountsInv c := by
  refine h.invariant (I := AccountsInv) ?_ ?_ ?_ ?_
  · rintro w ⟨file, rfl⟩
    exact ⟨keyed_loadAccounts file, fun _ _ => .inl rfl, fun _ hx => (by cases hx),
      fun _ hx => (by cases hx)⟩
  · intro c a _ hI _
    have howing : Owing c → Owing ((bridge cfg).spawn c a) := fun ⟨t, th, hth, hp⟩ =>
      ⟨t, th, getElem?_spawn_of_some hth a, hp⟩
    constructor
    · exact hI.keyed
    · exact fun hnil hlast => (hI.saved hnil hlast).imp id howing
    · intro x hx
      obtain ⟨hone, halone, hcontents⟩ := hI.writing x hx
      exact ⟨hone, halone, hcontents.imp id howing⟩
    · intro x hx
      obtain ⟨th, hth, hp⟩ := hI.writer x hx
      exact ⟨th, getElem?_spawn_of_some hth a, hp⟩
  · intro c t ω a past o k r w hc hI hok hth hx
    exact accountsInv_resume hI (reach_inOrder hc hth) hok hth hx
  · intro c e
    cases e

/-- In every run whose steps all pass `bridgeOk`. -/
theorem bridge_holds {c : BridgeState cfg}
    (h : (bridge cfg).Reach (BridgeWorld.Initial cfg) (fun c l => bridgeOk c l = true) c) :
    BridgeHolds (fun c l => bridgeOk c l = true) c where
  kept := by
    intro c' hl hresets email x hx
    obtain ⟨x', hx', userId, hsame⟩ := kept_later hl hresets hx
    exact ⟨x', userId, hx', hsame⟩
  registered := by
    intro t th email hth henrolls hsees out hout
    exact (reach_ends h hth hout).registered email henrolls (saw_of_sees hsees)
  stored := by
    intro t th email r hth henrolls hout
    have hstored := (reach_ends h hth hout).stored r rfl (by rw [henrolls]; rfl)
    -- an enrolment that is answered has stored its own address
    obtain ⟨y, hy, hsome⟩ := stored_iff.mp hstored
    obtain ⟨email', hy'⟩ := Option.isSome_iff_exists.mp hsome
    have hown := (reach_stores h hth hy hy').symm.trans henrolls
    exact ⟨y, hy, hy'.trans hown⟩
  once := (reach_once h).nodup
  unchanged := by
    intro t th e hth henrolls hout y hy
    cases hstores : stores y with
    | none => rfl
    | some email =>
        have hstored : (trail th.past).stored = true :=
          stored_iff.mpr ⟨y, hy, by rw [hstores]; rfl⟩
        -- one that ends with an error before its save has stored nothing
        have hfailed := (reach_ends h hth hout).unchanged e rfl hstored henrolls
        rw [reach_failed h hth henrolls] at hfailed
        cases hfailed
  saved := by
    intro hdone hlast
    have hI := reach_accountsInv h
    -- with every call ended, no save is under way and none is owed
    have hidle : ∀ (t : ℕ) th, c.threads[t]? = some th → (trail th.past).phase = .idle := by
      intro t th hth
      obtain ⟨out, hout⟩ := Option.isSome_iff_exists.mp (hdone t th hth)
      exact (reach_ends h hth hout).idle
    have hwrites : c.world.writes = [] := by
      cases hw : c.world.writes with
      | nil => rfl
      | cons x xs =>
          obtain ⟨th, hth, hp⟩ := hI.writer x (by simp [hw])
          rw [hidle x.thread th hth] at hp
          cases hp
    rcases hI.saved hwrites hlast with hfile | ⟨t, th, hth, hp⟩
    · exact hfile
    · rw [hidle t th hth] at hp
      cases hp

/-! ## Two runs -/

theorem asciiLower_asciiLower (u : CodeUnit) : asciiLower (asciiLower u) = asciiLower u := by
  unfold asciiLower
  split
  · next h =>
      rw [if_neg]
      simp only [Fin.val_add]
      norm_num
      omega
  · rfl

/-- A bridge with a sensor and no central API. -/
def localConfig : BridgeConfig where
  toLowerCase := List.map asciiLower
  lower_lower := fun s => by simp [asciiLower_asciiLower]
  poseidon1 := Android.Poseidon.hash1
  poseidon2 := Android.Poseidon.hash2
  sensor := true
  centralDeviceId := none

/-- `a@b.c`. -/
def someEmail : Email localConfig := ⟨js "a@b.c", by decide⟩

def emptyWorld : BridgeWorld := ⟨[], 0, 0, 0, none, []⟩

theorem initial_emptyWorld : BridgeWorld.Initial localConfig emptyWorld := ⟨none, rfl⟩

/-- One attempt of `enroll` by call `t`, with the salt's random bytes. -/
def attemptSteps (t : ℕ) (random : List UInt8) : List (BridgeLabel localConfig) :=
  [.resume t .ok, .resume t .ok, .resume t .ok, .resume t .ok, .resume t .ok, .resume t .ok,
    .resume t (.bytes []), .resume t (.bytes random), .resume t (.text []),
    .resume t (.verdict true), .resume t (.text []), .resume t .ok]

/-- Two enrolments of one email pass the duplicate check; the first one stores its
    account. -/
def firstStores : List (BridgeLabel localConfig) :=
  [.start (.enroll someEmail), .start (.enroll someEmail), .resume 0 .ok, .resume 1 .ok,
    .resume 0 .ok, .resume 1 .ok, .resume 0 .ok] ++ attemptSteps 0 (List.replicate 30 0 ++ [1])

/-- The first enrolment saves and ends, and the second one has its turn. -/
def secondStores : List (BridgeLabel localConfig) :=
  [.resume 0 .ok, .resume 0 .ok, .resume 0 (.wrote none), .resume 0 .ok, .resume 1 .ok] ++
    attemptSteps 1 (List.replicate 30 0 ++ [2])

/-- The second of two enrolments that were queued together replaces the account of the
    first. -/
theorem bridge_overwrites : ¬ ∀ c : BridgeState localConfig,
    (bridge localConfig).Reach (BridgeWorld.Initial localConfig) (fun _ _ => True) c →
      BridgeHolds (fun _ _ => True) c := by
  intro h
  have h₁ : ((bridge localConfig).runChecked (fun _ _ => true) (.init emptyWorld) firstStores).map
      (fun c => (c.world.accounts.get? (js "a@b.c")).map fun x => x.account.salt) =
        some (some (js "1")) := by
    rfl
  obtain ⟨c, hc, hsalt⟩ := Option.map_eq_some_iff.mp h₁
  have h₂ : (((bridge localConfig).runChecked (fun _ _ => true) (.init emptyWorld)
      firstStores).bind fun c => (bridge localConfig).runChecked (fun _ _ => true) c
        secondStores).map (fun c => (resets c.log,
          (c.world.accounts.get? (js "a@b.c")).map fun x => x.account.salt)) =
        some (0, some (js "2")) := by
    rfl
  rw [hc, Option.bind_some] at h₂
  obtain ⟨c', hc', hsalt'⟩ := Option.map_eq_some_iff.mp h₂
  obtain ⟨hresets', hsalt'⟩ := Prod.mk.inj hsalt'
  have hreach : (bridge localConfig).Reach (BridgeWorld.Initial localConfig) (fun _ _ => True) c :=
    (System.Reach.init initial_emptyWorld).runChecked (fun _ _ _ => trivial) hc
  have hlater : (bridge localConfig).Later (fun _ _ => True) c c' :=
    System.later_of_runChecked (fun _ _ _ => trivial) hc'
  have hresets : resets c'.log = resets c.log := by
    have hle := resets_mono hlater
    omega
  obtain ⟨x, hx, hxs⟩ := Option.map_eq_some_iff.mp hsalt
  obtain ⟨x', userId, hx', hsame⟩ := (h c hreach).kept c' hlater hresets _ x hx
  rw [hx', Option.map_some] at hsalt'
  have hsalts : x'.account.salt = x.account.salt := by rw [hsame]
  rw [hsalts, hxs] at hsalt'
  exact absurd hsalt' (by decide)

/-- An enrolment that is saved, and a second one of the same email. -/
def enrolledTwice : List (BridgeLabel localConfig) :=
  [.start (.simEnroll someEmail), .resume 0 (.text []), .resume 0 .ok, .resume 0 .ok,
    .resume 0 (.wrote none), .start (.simEnroll someEmail), .resume 1 (.text [])]

theorem bridge_holds_enrolledTwice : ∃ c : BridgeState localConfig,
    (c.threads.map fun th => th.rest.outcome?.isSome) = [true, true] ∧
      lastSave c.log = some true ∧ c.world.accounts.map Prod.fst = [js "a@b.c"] ∧
      BridgeHolds (fun c l => bridgeOk c l = true) c := by
  have hrun : ((bridge localConfig).runChecked bridgeOk (.init emptyWorld) enrolledTwice).map
      (fun c => (c.threads.map fun th => th.rest.outcome?.isSome, lastSave c.log,
        c.world.accounts.map Prod.fst)) = some ([true, true], some true, [js "a@b.c"]) := by
    rfl
  obtain ⟨c, hc, hends⟩ := Option.map_eq_some_iff.mp hrun
  simp only [Prod.mk.injEq] at hends
  obtain ⟨hdone, hsaved, haccounts⟩ := hends
  have hreach : (bridge localConfig).Reach (BridgeWorld.Initial localConfig)
      (fun c l => bridgeOk c l = true) c :=
    (System.Reach.init initial_emptyWorld).runChecked (fun _ _ hok => hok) hc
  exact ⟨c, hdone, hsaved, haccounts, bridge_holds hreach⟩

end ZeroAuth.Iot
