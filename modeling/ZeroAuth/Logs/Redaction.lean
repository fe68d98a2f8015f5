/-
  ZeroAuth.Logs.Redaction

  What `RingBufferTransport.log` buffers (src/services/log-ring-buffer.ts).  Log records are
  objects on a heap; the buffered metadata is a new object that shares the caller's nested
  objects.

  `redactMeta` looks at the keys of the metadata object itself, so the buffered entry is
  redacted at every depth exactly when the nested objects that it keeps are
  (`log_redacts`).
-/

import ZeroAuth.Lib.ObjectGraph
import ZeroAuth.Logs.RingBuffer

namespace ZeroAuth.Logs

open ZeroAuth.Js ZeroAuth.Lib

/-! ## The transport -/

/-- The values that are no objects. -/
inductive Primitive
  | undef
  | null
  | bool (b : Bool)
  | num (n : JsNumber)
  | nonFinite
  | bigint (n : ℤ)
  | symbol
  | str (s : JsString)
  deriving DecidableEq

abbrev LogValue := Slot Primitive

abbrev LogHeap := ObjectHeap JsString Primitive

abbrev Entries := List (JsString × LogValue)

/-- `out[k] = v` for a new object: `__proto__` sets the prototype and makes no key. -/
def assign (out : Entries) (k : JsString) (v : LogValue) : Entries :=
  if k = js "__proto__" then out
  else if k ∈ out.map Prod.fst then out.map fun e => if e.1 = k then (k, v) else e
  else out ++ [(k, v)]

def promotedKeys : List JsString := [js "level", js "message", js "timestamp"]

def redacted : LogValue := .prim (.str (js "[redacted]"))

/-- A key that matches the banned-name list. -/
def isBanned (cm : CaseMapping) (k : JsString) : Bool :=
  redactKeySubstrings.any fun part => includes (cm.toLowerCase k) part

/-- The loop of `redactMeta` over `Object.entries(meta)`. -/
def redactEntries (cm : CaseMapping) (entries : Entries) : Entries :=
  entries.foldl (fun out e => assign out e.1 (if isBanned cm e.1 then redacted else e.2)) []

/-- The loop of `log` over `Object.entries(info)`. -/
def metaEntries (info : Entries) : Entries :=
  info.foldl (fun out e => if e.1 ∈ promotedKeys then out else assign out e.1 e.2) []

/-- An entry of the buffer; `metadata` is the address of an object. -/
structure HeapEntry where
  ts : JsString
  level : JsString
  message : JsString
  metadata : ℕ

/-- `String(v)` for a value that is no string, `none` when it throws, and the clock. -/
structure LogEnv where
  cm : CaseMapping
  stringOf : LogValue → Option JsString
  now : JsString

def stringField (fallback : JsString) : Option LogValue → JsString
  | some (.prim (.str s)) => s
  | _ => fallback

/-- `info.message` as text; `none` when `String` throws. -/
def messageText (env : LogEnv) : Option LogValue → Option JsString
  | some (.prim (.str s)) => some s
  | none | some (.prim .undef) | some (.prim .null) => some []
  | some v => env.stringOf v

/-! ### The entries of the new objects -/

theorem keys_assign (out : Entries) (k : JsString) (v : LogValue) :
    (assign out k v).map Prod.fst = out.map Prod.fst ∨
      (assign out k v).map Prod.fst = out.map Prod.fst ++ [k] ∧ k ∉ out.map Prod.fst := by
  unfold assign
  split
  · exact Or.inl rfl
  · split
    · refine Or.inl ?_
      rw [List.map_map]
      apply List.map_congr_left
      intro e _
      show (if e.1 = k then (k, v) else e).1 = e.1
      split
      next h => exact h.symm
      next => rfl
    · exact Or.inr ⟨by rw [List.map_append]; rfl, by assumption⟩

theorem nodup_assign {out : Entries} (h : (out.map Prod.fst).Nodup) (k : JsString) (v : LogValue) :
    ((assign out k v).map Prod.fst).Nodup := by
  rcases keys_assign out k v with heq | ⟨heq, hk⟩
  · rw [heq]
    exact h
  · rw [heq]
    exact List.nodup_append.mpr ⟨h, List.nodup_singleton k, fun a ha b hb hab =>
      hk (List.mem_singleton.mp hb ▸ hab ▸ ha)⟩

theorem nodup_redactEntries (cm : CaseMapping) (entries : Entries) :
    ((redactEntries cm entries).map Prod.fst).Nodup :=
  List.foldlRecOn (motive := fun out : Entries => (out.map Prod.fst).Nodup) entries _
    List.nodup_nil fun _ h _ _ => nodup_assign h _ _

theorem nodup_metaEntries (info : Entries) : ((metaEntries info).map Prod.fst).Nodup := by
  refine List.foldlRecOn (motive := fun out : Entries => (out.map Prod.fst).Nodup) info _
    List.nodup_nil fun out h e _ => ?_
  show ((if e.1 ∈ promotedKeys then out else assign out e.1 e.2).map Prod.fst).Nodup
  split
  · exact h
  · exact nodup_assign h _ _

/-- A new key is added at the end. -/
theorem assign_of_notMem {out : Entries} {k : JsString} (hproto : k ≠ js "__proto__")
    (hk : k ∉ out.map Prod.fst) (v : LogValue) : assign out k v = out ++ [(k, v)] := by
  unfold assign
  rw [if_neg hproto, if_neg hk]

/-- A loop over distinct keys that skips some of them. -/
theorem foldl_assign (skip : JsString → Prop) [DecidablePred skip] (f : JsString × LogValue → LogValue)
    (l : Entries) : ∀ done : Entries, (l.map Prod.fst).Nodup →
      (∀ e ∈ l, e.1 ∉ done.map Prod.fst) →
      l.foldl (fun out e => if skip e.1 then out else assign out e.1 (f e)) done =
        done ++ (l.filter fun e => !skip e.1 && e.1 != js "__proto__").map fun e => (e.1, f e) := by
  induction l with
  | nil =>
    intro done _ _
    exact (List.append_nil _).symm
  | cons e l ih =>
    intro done hnodup hdone
    have hnext : ∀ e' ∈ l, e'.1 ∉ done.map Prod.fst := fun e' he' => hdone e' (List.mem_cons_of_mem _ he')
    rw [List.map_cons, List.nodup_cons] at hnodup
    rw [List.foldl_cons]
    by_cases hskip : skip e.1
    · rw [if_pos hskip, ih done hnodup.2 hnext, List.filter_cons_of_neg (by simp [hskip])]
    · rw [if_neg hskip]
      by_cases hproto : e.1 = js "__proto__"
      · have hassign : assign done e.1 (f e) = done := by
          unfold assign
          rw [if_pos hproto]
        rw [hassign, ih done hnodup.2 hnext, List.filter_cons_of_neg (by simp [hproto])]
      · rw [assign_of_notMem hproto (hdone e List.mem_cons_self), ih _ hnodup.2,
          List.filter_cons_of_pos (by simp [hskip, hproto]), List.map_cons, List.append_assoc]
        · rfl
        · -- the other keys are none of those done, and not this one
          intro e' he' hmem
          rw [List.map_append, List.mem_append, List.map_singleton, List.mem_singleton] at hmem
          rcases hmem with hmem | heq
          · exact hnext e' he' hmem
          · exact hnodup.1 (List.mem_map.mpr ⟨e', he', heq⟩)

/-- A key of the record that becomes a key of the metadata. -/
def isMetaKey (k : JsString) : Bool := !(k ∈ promotedKeys) && k != js "__proto__"

/-- The metadata has the other keys of the record. -/
theorem metaEntries_eq {info : Entries} (h : (info.map Prod.fst).Nodup) :
    metaEntries info = info.filter fun e => isMetaKey e.1 := by
  unfold metaEntries
  rw [foldl_assign (· ∈ promotedKeys) Prod.snd info [] h (fun _ _ => List.not_mem_nil)]
  exact List.map_id _

/-- The keys stay, and the values of the banned ones are replaced. -/
theorem redactEntries_eq (cm : CaseMapping) {entries : Entries}
    (h : (entries.map Prod.fst).Nodup) (hproto : js "__proto__" ∉ entries.map Prod.fst) :
    redactEntries cm entries =
      entries.map fun e => (e.1, if isBanned cm e.1 then redacted else e.2) := by
  have hall : (entries.filter fun e => !decide False && e.1 != js "__proto__") = entries := by
    rw [List.filter_eq_self]
    intro e he
    have hne : e.1 ≠ js "__proto__" := fun heq => hproto (List.mem_map.mpr ⟨e, he, heq⟩)
    rw [bne_iff_ne.mpr hne]
    rfl
  have hloop := foldl_assign (fun _ => False) (fun e => if isBanned cm e.1 then redacted else e.2)
    entries [] h (fun _ _ => List.not_mem_nil)
  rw [hall] at hloop
  exact hloop

/-! ### The log call -/

/-- `meta` of a record. -/
def metaNode (info : Node JsString Primitive) : Node JsString Primitive :=
  ⟨metaEntries info.entries, nodup_metaEntries _⟩

/-- `redactMeta(meta)`. -/
def redactNode (cm : CaseMapping) (node : Node JsString Primitive) : Node JsString Primitive :=
  ⟨redactEntries cm node.entries, nodup_redactEntries cm _⟩

theorem metaNode_entries (info : Node JsString Primitive) :
    (metaNode info).entries = info.entries.filter fun e => isMetaKey e.1 :=
  metaEntries_eq info.nodup

theorem isMetaKey_proto : isMetaKey (js "__proto__") = false := by decide

theorem redactNode_entries (cm : CaseMapping) (info : Node JsString Primitive) :
    (redactNode cm (metaNode info)).entries = (metaNode info).entries.map fun e =>
      (e.1, if isBanned cm e.1 then redacted else e.2) := by
  apply redactEntries_eq cm (metaNode info).nodup
  intro hmem
  obtain ⟨e, he, heq⟩ := List.mem_map.mp hmem
  rw [metaNode_entries] at he
  have hkey := (List.mem_filter.mp he).2
  rw [heq, isMetaKey_proto] at hkey
  cases hkey

/-- The entries with their values read as trees. -/
def asTree (read : LogValue → JsVal) (entries : Entries) : List (JsString × JsVal) :=
  entries.map fun e => (e.1, read e.2)

/-- On the metadata of a record the loop over the object and `redactMeta` on trees give the same,
    however the values are read. -/
theorem redactMeta_asTree (cm : CaseMapping) {read : LogValue → JsVal}
    (hread : read redacted = .str (js "[redacted]")) (info : Node JsString Primitive) :
    redactMeta cm (asTree read (metaNode info).entries) =
      asTree read (redactNode cm (metaNode info)).entries := by
  rw [redactNode_entries, redactMeta, asTree, asTree, List.map_map, List.map_map]
  apply List.map_congr_left
  intro e _
  show (e.1, if isBanned cm e.1 = true then JsVal.str (js "[redacted]") else read e.2) =
    (e.1, read (if isBanned cm e.1 = true then redacted else e.2))
  -- a banned key has the text on both sides, any other its own value
  split
  · rw [hread]
  · rfl

theorem redactNode_get (cm : CaseMapping) (info : Node JsString Primitive) (k : JsString) :
    (redactNode cm (metaNode info)).get k =
      if isMetaKey k then (info.get k).map fun v => if isBanned cm k then redacted else v
      else none := by
  rw [Node.get, redactNode_entries, lookup_map fun k v => if isBanned cm k then redacted else v,
    metaNode_entries, lookup_filter]
  by_cases hkey : isMetaKey k = true
  · rw [if_pos hkey, if_pos hkey]
    rfl
  · rw [if_neg hkey, if_neg hkey]
    rfl

theorem below_metaNode {n : ℕ} {info : Node JsString Primitive} (h : info.Below n) :
    (metaNode info).Below n := by
  intro e he
  rw [metaNode_entries] at he
  exact h e (List.mem_filter.mp he).1

theorem below_redactNode {n : ℕ} {info : Node JsString Primitive} (h : info.Below n)
    (cm : CaseMapping) : (redactNode cm (metaNode info)).Below n := by
  intro e he
  rw [redactNode_entries] at he
  obtain ⟨e', he', rfl⟩ := List.mem_map.mp he
  show (if isBanned cm e'.1 then redacted else e'.2).Below n
  split
  · trivial
  · exact below_metaNode h e' he'

structure LogStore where
  heap : LogHeap
  ring : LogRingBuffer HeapEntry

/-- The heap with `meta`. -/
def madeMeta (heap : LogHeap) (info : ℕ) : LogHeap :=
  heap.alloc (metaNode (heap.object info)) (below_metaNode (heap.below_object info))

theorem length_madeMeta (heap : LogHeap) (info : ℕ) :
    (madeMeta heap info).nodes.length = heap.nodes.length + 1 := List.length_append

theorem below_madeMeta (cm : CaseMapping) (heap : LogHeap) (info : ℕ) :
    (redactNode cm (metaNode (heap.object info))).Below (madeMeta heap info).nodes.length := by
  rw [length_madeMeta]
  exact (below_redactNode (heap.below_object info) cm).mono (Nat.le_succ _)

/-- The heap with `meta` and `redactMeta(meta)`. -/
def withMeta (cm : CaseMapping) (heap : LogHeap) (info : ℕ) : LogHeap :=
  (madeMeta heap info).alloc _ (below_madeMeta cm heap info)

/-- The entry that is pushed. -/
def logEntry (env : LogEnv) (heap : LogHeap) (info : ℕ) (message : JsString) : HeapEntry where
  ts := stringField env.now ((heap.object info).get (js "timestamp"))
  level := stringField (js "info") ((heap.object info).get (js "level"))
  message := message
  metadata := heap.nodes.length + 1

/-- `log(info, next)`, with what `push` returns; nothing is pushed when `String` throws. -/
def log (env : LogEnv) (s : LogStore) (info : ℕ) : LogStore × Option HeapEntry :=
  match messageText env ((s.heap.object info).get (js "message")) with
  | none => (s, none)
  | some message =>
      let entry := logEntry env s.heap info message
      (⟨withMeta env.cm s.heap info, s.ring.push entry⟩, some entry)

/-! ## The buffered metadata -/

/-- `path` ends in a banned key. -/
def EndsBanned (cm : CaseMapping) (path : List JsString) : Prop :=
  ∃ k ∈ path.getLast?, isBanned cm k = true

/-- No key of `path` is banned. -/
def Unbanned (cm : CaseMapping) (path : List JsString) : Prop :=
  ∀ k ∈ path, isBanned cm k = false

/-- The same primitive value, or an object as well. -/
def SameValue : LogValue → LogValue → Prop
  | .prim p, .prim q => p = q
  | .ref _, .ref _ => True
  | _, _ => False

theorem SameValue.refl : ∀ v, SameValue v v
  | .prim _ => rfl
  | .ref _ => trivial

/-- What is wanted of an entry that is buffered for a record. -/
structure Redacted (env : LogEnv) (before after : LogHeap) (info : ℕ) (entry : HeapEntry) :
    Prop where
  /-- At every depth a banned key has the value `[redacted]`. -/
  hidden : ∀ path v, EndsBanned env.cm path →
    after.follow (.ref entry.metadata) path = some v → v = redacted
  /-- What is under no banned key keeps its value. -/
  kept : ∀ k path v, k ∉ promotedKeys → Unbanned env.cm (k :: path) →
    before.follow (.ref info) (k :: path) = some v →
    ∃ w, after.follow (.ref entry.metadata) (k :: path) = some w ∧ SameValue v w
  level : ∀ s, (before.object info).get (js "level") = some (.prim (.str s)) → entry.level = s
  message : ∀ s, (before.object info).get (js "message") = some (.prim (.str s)) →
    entry.message = s
  ts : ∀ s, (before.object info).get (js "timestamp") = some (.prim (.str s)) → entry.ts = s
  /-- No object of the caller is changed. -/
  unchanged : before.Extends after

section

variable {env : LogEnv} {heap : LogHeap} {info : ℕ}

theorem extends_withMeta (cm : CaseMapping) (heap : LogHeap) (info : ℕ) :
    heap.Extends (withMeta cm heap info) :=
  List.IsPrefix.trans (ObjectHeap.extends_alloc heap _ (below_metaNode (heap.below_object info)))
    (ObjectHeap.extends_alloc _ _ (below_madeMeta cm heap info))

theorem object_withMeta (cm : CaseMapping) (heap : LogHeap) (info : ℕ) :
    (withMeta cm heap info).object (heap.nodes.length + 1) =
      redactNode cm (metaNode (heap.object info)) := by
  rw [← length_madeMeta heap info]
  exact ObjectHeap.object_alloc _ _ (below_madeMeta cm heap info)

/-- A path into the buffered metadata: the first key decides. -/
theorem follow_withMeta (cm : CaseMapping) (k : JsString) (path : List JsString) :
    (withMeta cm heap info).follow (.ref (heap.nodes.length + 1)) (k :: path) =
      if isMetaKey k then
        if isBanned cm k then
          ((heap.object info).get k).bind fun _ => (withMeta cm heap info).follow redacted path
        else heap.follow (.ref info) (k :: path)
      else none := by
  rw [ObjectHeap.follow_object, object_withMeta, redactNode_get]
  by_cases hmeta : isMetaKey k = true
  · rw [if_pos hmeta, if_pos hmeta]
    by_cases hbanned : isBanned cm k = true
    · rw [if_pos hbanned]
      cases (heap.object info).get k with
      | none => rfl
      | some v =>
        show ((withMeta cm heap info).follow (if isBanned cm k then redacted else v) path) = _
        rw [if_pos hbanned]
        rfl
    · rw [if_neg hbanned, ObjectHeap.follow_object]
      cases hget : (heap.object info).get k with
      | none => rfl
      | some v =>
        show ((withMeta cm heap info).follow (if isBanned cm k then redacted else v) path) = _
        rw [if_neg hbanned]
        exact (extends_withMeta cm heap info).follow path v ((heap.below_object info).get hget)
  · rw [if_neg hmeta, if_neg hmeta]
    rfl

/-- The objects under the keys that are kept have no banned key with another value, and the
    record has no key `__proto__`. -/
structure NestedClean (cm : CaseMapping) (heap : LogHeap) (info : ℕ) : Prop where
  proto : (heap.object info).get (js "__proto__") = none
  nested : ∀ k path v, k ∉ promotedKeys → isBanned cm k = false → EndsBanned cm path →
    heap.follow (.ref info) (k :: path) = some v → v = redacted

theorem endsBanned_cons {cm : CaseMapping} {k : JsString} {path : List JsString}
    (h : EndsBanned cm path) : EndsBanned cm (k :: path) := by
  obtain ⟨last, hlast, hbanned⟩ := h
  refine ⟨last, ?_, hbanned⟩
  cases path with
  | nil => cases hlast
  | cons k' path => rwa [List.getLast?_cons_cons]

theorem not_endsBanned_nil {cm : CaseMapping} : ¬ EndsBanned cm [] := by
  rintro ⟨k, hk, -⟩
  cases hk

theorem isBanned_proto (cm : CaseMapping) : isBanned cm (js "__proto__") = false := by
  have hascii : IsAscii (js "__proto__") := by
    have hall : (js "__proto__").all (fun u => decide (u.val < 0x80)) = true := by decide
    exact fun u hu => of_decide_eq_true (List.all_eq_true.mp hall u hu)
  unfold isBanned
  rw [cm.lower_ascii _ hascii]
  decide

/-- A path that the record has, under a key that is kept. -/
theorem isMetaKey_of_follow (hproto : (heap.object info).get (js "__proto__") = none)
    {k : JsString} {path : List JsString} {v : LogValue} (hk : k ∉ promotedKeys)
    (h : heap.follow (.ref info) (k :: path) = some v) : isMetaKey k = true := by
  have hne : k ≠ js "__proto__" := by
    rintro rfl
    rw [ObjectHeap.follow_object, hproto] at h
    cases h
  unfold isMetaKey
  rw [decide_eq_false hk, bne_iff_ne.mpr hne]
  rfl

theorem log_eq (s : LogStore) {message : JsString}
    (h : messageText env ((s.heap.object info).get (js "message")) = some message) :
    log env s info = (⟨withMeta env.cm s.heap info, s.ring.push (logEntry env s.heap info message)⟩,
      some (logEntry env s.heap info message)) := by
  unfold log
  rw [h]

/-- Clean nested objects make a redacted entry. -/
theorem redacted_of_nestedClean (h : NestedClean env.cm heap info) {message : JsString}
    (hmessage : messageText env ((heap.object info).get (js "message")) = some message) :
    Redacted env heap (withMeta env.cm heap info) info (logEntry env heap info message) where
  hidden := by
    intro path v hends hfollow
    cases path with
    | nil => exact absurd hends not_endsBanned_nil
    | cons k path =>
      rw [logEntry, follow_withMeta] at hfollow
      by_cases hkey : isMetaKey k = true
      · rw [if_pos hkey] at hfollow
        by_cases hbanned : isBanned env.cm k = true
        · -- nothing is found below the sentinel
          rw [if_pos hbanned] at hfollow
          obtain ⟨w, -, hfollow⟩ := Option.bind_eq_some_iff.mp hfollow
          cases path with
          | nil =>
            rw [ObjectHeap.follow_nil] at hfollow
            exact (Option.some.inj hfollow).symm
          | cons k' path => cases hfollow
        · rw [if_neg hbanned] at hfollow
          have hpath : EndsBanned env.cm path := by
            obtain ⟨last, hlast, hbannedLast⟩ := hends
            cases path with
            | nil =>
              cases hlast
              exact absurd hbannedLast hbanned
            | cons k' path => exact ⟨last, by rwa [List.getLast?_cons_cons] at hlast, hbannedLast⟩
          have hpromoted : k ∉ promotedKeys := by
            intro hmem
            unfold isMetaKey at hkey
            rw [decide_eq_true hmem] at hkey
            cases hkey
          exact h.nested k path v hpromoted (Bool.eq_false_of_not_eq_true hbanned) hpath hfollow
      · rw [if_neg hkey] at hfollow
        cases hfollow
  kept := by
    intro k path v hk hunbanned hfollow
    have hkey := isMetaKey_of_follow h.proto hk hfollow
    refine ⟨v, ?_, SameValue.refl v⟩
    rw [logEntry, follow_withMeta, if_pos hkey,
      if_neg (by rw [hunbanned k List.mem_cons_self]; exact Bool.false_ne_true)]
    exact hfollow
  level := by
    intro s hs
    show stringField _ ((heap.object info).get (js "level")) = s
    rw [hs]
    rfl
  message := by
    intro s hs
    rw [hs] at hmessage
    exact (Option.some.inj hmessage).symm
  ts := by
    intro s hs
    show stringField _ ((heap.object info).get (js "timestamp")) = s
    rw [hs]
    rfl
  unchanged := extends_withMeta _ _ _

/-- A redacted entry comes from clean nested objects. -/
theorem nestedClean_of_redacted {message : JsString}
    (h : Redacted env heap (withMeta env.cm heap info) info (logEntry env heap info message)) :
    NestedClean env.cm heap info := by
  have hproto : (heap.object info).get (js "__proto__") = none := by
    by_contra hsome
    obtain ⟨v, hv⟩ := Option.ne_none_iff_exists'.mp hsome
    have hfollow : heap.follow (.ref info) [js "__proto__"] = some v := by
      rw [ObjectHeap.follow_object, hv, Option.bind_some, ObjectHeap.follow_nil]
    have hunbanned : Unbanned env.cm [js "__proto__"] := by
      intro k hk
      rw [List.mem_singleton.mp hk]
      exact isBanned_proto env.cm
    -- the key does not reach the new object
    obtain ⟨w, hw, -⟩ := h.kept _ [] v (by decide) hunbanned hfollow
    rw [logEntry, follow_withMeta, if_neg (by rw [isMetaKey_proto]; exact Bool.false_ne_true)] at hw
    cases hw
  refine ⟨hproto, ?_⟩
  intro k path v hk hbanned hends hfollow
  apply h.hidden (k :: path) v (endsBanned_cons hends)
  rw [logEntry, follow_withMeta, if_pos (isMetaKey_of_follow hproto hk hfollow),
    if_neg (by rw [hbanned]; exact Bool.false_ne_true)]
  exact hfollow

/-- What is buffered is redacted at every depth exactly when the nested objects that are kept
    are clean already. -/
theorem log_redacts (env : LogEnv) (s : LogStore) (info : ℕ) :
    (∀ entry, (log env s info).2 = some entry →
        Redacted env s.heap (log env s info).1.heap info entry) ↔
      messageText env ((s.heap.object info).get (js "message")) = none ∨
        NestedClean env.cm s.heap info := by
  cases hmessage : messageText env ((s.heap.object info).get (js "message")) with
  | none =>
    have hnone : (log env s info).2 = none := by
      unfold log
      rw [hmessage]
    refine ⟨fun _ => Or.inl rfl, fun _ entry hentry => ?_⟩
    rw [hnone] at hentry
    cases hentry
  | some message =>
    rw [log_eq s hmessage]
    constructor
    · intro h
      exact Or.inr (nestedClean_of_redacted (h _ rfl))
    · rintro (h | h) entry hentry
      · cases h
      · cases hentry
        exact redacted_of_nestedClean h hmessage

end

/-! ## A nested template -/

/-- `{ level: 'info', message: 'enrolled', timestamp: '', user: { faceTemplate: 'raw' } }`. -/
def nestedHeap : LogHeap where
  nodes :=
    [⟨[(js "level", .prim (.str (js "info"))), (js "message", .prim (.str (js "enrolled"))),
        (js "timestamp", .prim (.str [])), (js "user", .ref 1)], by decide⟩,
      ⟨[(js "faceTemplate", .prim (.str (js "raw")))], by decide⟩]
  closed := by decide

/-- Nothing but strings is logged. -/
def asciiEnv : LogEnv := ⟨.ascii, fun _ => some [], []⟩

/-- The template below `user` is buffered. -/
theorem nested_template_buffered :
    ¬ ∀ (env : LogEnv) (s : LogStore) (info : ℕ) (entry : HeapEntry),
      (log env s info).2 = some entry →
        Redacted env s.heap (log env s info).1.heap info entry := by
  intro h
  let s : LogStore := ⟨nestedHeap, LogRingBuffer.empty 1000 (by decide)⟩
  have hmessage : messageText asciiEnv ((s.heap.object 0).get (js "message")) =
      some (js "enrolled") := rfl
  have hredacted := h asciiEnv s 0 _ (by rw [log_eq s hmessage])
  rw [log_eq s hmessage] at hredacted
  have hends : EndsBanned asciiEnv.cm [js "user", js "faceTemplate"] :=
    ⟨js "faceTemplate", rfl, by decide⟩
  have hraw := hredacted.hidden _ (.prim (.str (js "raw"))) hends (by
    rw [logEntry, follow_withMeta, if_pos (by decide), if_neg (by decide)]
    rfl)
  exact absurd hraw (by decide)

end ZeroAuth.Logs
