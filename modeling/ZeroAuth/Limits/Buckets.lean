/-
  ZeroAuth.Limits.Buckets

  The Postgres-backed limiter of src/middleware/rate-limit.ts: any number of
  requests and cleanups, on any number of replicas, over one table
  `rate_limit_buckets` and one clock.

  A request reads the clock, computes the key of its bucket, and counts itself
  with one UPSERT, at any later time.  An UPSERT that comes after a cleanup has
  deleted its bucket starts a second count for the same window; in all other runs
  the cap holds (`rate_limit_cap`).
-/

import ZeroAuth.Js.Number
import ZeroAuth.Lib.Interleaving
import Mathlib.Data.Finset.Card
import Mathlib.Order.Interval.Finset.Nat

namespace ZeroAuth.Limits

open ZeroAuth.Lib ZeroAuth.Js

/-! ## Keys -/

inductive RateLimitKeyBy
  | apiKey
  | ip
  | apiKeyAndIp
  deriving DecidableEq

/-- `PgRateLimitOptions`; windows are not empty. -/
structure PgRateLimitOptions where
  route : JsString
  windowMs : ℕ
  max : ℕ
  keyBy : RateLimitKeyBy
  windowMs_pos : 0 < windowMs
  deriving DecidableEq

/-- What the middleware reads of a request. -/
structure LimitedRequest where
  apiKeyId : Option JsString
  ip : Option JsString

/-- The identity; `null` and the empty string are both not resolved. -/
def resolveKey (req : LimitedRequest) : RateLimitKeyBy → Option JsString
  | .apiKey => req.apiKeyId.filter fun s => s ≠ []
  | .ip => req.ip.filter fun s => s ≠ []
  | .apiKeyAndIp =>
      match req.apiKeyId.filter fun s => s ≠ [], req.ip.filter fun s => s ≠ [] with
      | some apiKeyId, some ip => some (apiKeyId ++ js "|" ++ ip)
      | _, _ => none

def windowStartFloor (nowMs windowMs : ℕ) : ℕ := nowMs / windowMs * windowMs

def buildBucketKey (route identity : JsString) (nowMs windowMs : ℕ) : JsString :=
  route ++ 58 :: (identity ++ 58 :: numText 10 (windowStartFloor nowMs windowMs))

/-- The text after the last colon is determined. -/
theorem append_colon_inj {a b c d : JsString} (hc : (58 : CodeUnit) ∉ c) (hd : (58 : CodeUnit) ∉ d)
    (h : a ++ 58 :: c = b ++ 58 :: d) : a = b ∧ c = d := by
  have hlast : ∀ (x : JsString) {y : JsString}, (58 : CodeUnit) ∉ y →
      (x ++ 58 :: y).reverse.takeWhile (· ≠ 58) = y.reverse := by
    intro x y hy
    rw [List.reverse_append, List.reverse_cons, List.append_assoc, List.takeWhile_append_of_pos]
    · simp
    · intro u hu
      exact decide_eq_true fun heq => hy (heq ▸ List.mem_reverse.mp hu)
  have hcd : c = d := by
    have heq := hlast a hc
    rw [h, hlast b hd] at heq
    exact (List.reverse_injective heq).symm
  subst hcd
  exact ⟨List.append_cancel_right h, rfl⟩

theorem colon_notMem_numText (n : ℕ) : (58 : CodeUnit) ∉ numText 10 n := by
  intro hmem
  have hval := val_of_mem_numText hmem
  exact absurd hval.2 (by decide)

theorem numText_injective {b : ℕ} (hb₂ : 2 ≤ b) (hb : b ≤ 36) : Function.Injective (numText b) :=
  fun m n h => Option.some_inj.mp
    ((readDigits_numText hb₂ hb m).symm.trans ((congrArg _ h).trans (readDigits_numText hb₂ hb n)))

/-- On one route, a key determines the identity and the window. -/
theorem buildBucketKey_injective {route identity identity' : JsString} {nowMs nowMs' windowMs : ℕ}
    (h : buildBucketKey route identity nowMs windowMs =
      buildBucketKey route identity' nowMs' windowMs) :
    identity = identity' ∧ windowStartFloor nowMs windowMs = windowStartFloor nowMs' windowMs := by
  have hrest := (List.cons.inj (List.append_cancel_left h)).2
  obtain ⟨hid, hnum⟩ :=
    append_colon_inj (colon_notMem_numText _) (colon_notMem_numText _) hrest
  exact ⟨hid, numText_injective (by omega) (by omega) hnum⟩

/-! ## The middleware -/

inductive LimitOp
  | now
  | upsert (bucketKey : JsString) (expiresAt : ℕ)
  | deleteExpired

def LimitOp.Resp : LimitOp → Type
  | now => ℕ
  | upsert _ _ => ℕ
  | deleteExpired => Unit

abbrev limitSig : Sig := ⟨LimitOp, LimitOp.Resp⟩

/-- The message of an error. -/
abbrev LimitProgram (α : Type) := Prog limitSig JsString α

def limitAwait (o : LimitOp) : LimitProgram o.Resp := Prog.perform (S := limitSig) o

/-- What becomes of a request: it is passed on without a count, or with one, or it
    is answered 429.  A counted one has the headers `X-RateLimit-Remaining` and
    `X-RateLimit-Reset`, in seconds. -/
inductive LimitOutcome
  | skipped
  | failedOpen
  | admitted (bucketKey : JsString) (count remaining reset : ℕ)
  | limited (bucketKey : JsString) (count retryAfter reset : ℕ)
  | cleaned

/-- After the UPSERT. -/
def decideCount (opts : PgRateLimitOptions) (bucketKey : JsString) (nowMs expiresAt count : ℕ) :
    LimitOutcome :=
  let reset := (expiresAt + 999) / 1000
  if count > opts.max then .limited bucketKey count (Nat.max 1 ((expiresAt - nowMs + 999) / 1000)) reset
  else .admitted bucketKey count (opts.max - count) reset

def pgRateLimit (opts : PgRateLimitOptions) (req : LimitedRequest) : LimitProgram LimitOutcome := do
  let nowMs : ℕ ← limitAwait .now
  match resolveKey req opts.keyBy with
  | none => return .skipped
  | some identity =>
      let bucketKey := buildBucketKey opts.route identity nowMs opts.windowMs
      let expiresAt := windowStartFloor nowMs opts.windowMs + opts.windowMs
      Prog.tryCatch (do
        let count : ℕ ← limitAwait (.upsert bucketKey expiresAt)
        return decideCount opts bucketKey nowMs expiresAt count) fun _ => return .failedOpen

def cleanupRateLimitBuckets : LimitProgram LimitOutcome :=
  Prog.tryCatch (do
    limitAwait .deleteExpired
    return .cleaned) fun _ => return .cleaned

/-! ## The table -/

structure Bucket where
  bucketKey : JsString
  count : ℕ
  windowStart : ℕ
  expiresAt : ℕ

structure BucketWorld where
  buckets : List Bucket
  clock : ℕ

/-- A statement fails or is carried out. -/
inductive LimitOracle
  | proceed
  | fail (message : JsString)

/-- The UPSERT and the new count; `count` is an INTEGER. -/
def BucketWorld.upsert (w : BucketWorld) (key : JsString) (expiresAt : ℕ) :
    Except JsString ℕ × BucketWorld :=
  match w.buckets.find? fun b => b.bucketKey = key with
  | none => (.ok 1, { w with buckets := w.buckets ++ [⟨key, 1, w.clock, expiresAt⟩] })
  | some b =>
      if b.count + 1 ≥ 2 ^ 31 then (.error (js "integer out of range"), w)
      else (.ok (b.count + 1), { w with buckets := w.buckets.map fun b =>
        if b.bucketKey = key then { b with count := b.count + 1 } else b })

def limitExec : (o : LimitOp) → LimitOracle → BucketWorld →
    Option (Except JsString o.Resp × BucketWorld)
  | .now, _, w => some (.ok w.clock, w)
  | .upsert key expiresAt, .proceed, w => some (w.upsert key expiresAt)
  | .deleteExpired, .proceed, w =>
      some (.ok (), { w with buckets := w.buckets.filter fun b => ¬ b.expiresAt < w.clock })
  | .upsert _ _, .fail message, w | .deleteExpired, .fail message, w => some (.error message, w)

/-- Limiters whose routes keep their buckets apart: no route is another one, or
    another one with a colon and more behind it. -/
structure Limiters where
  all : List PgRateLimitOptions
  separate : ∀ a ∈ all, ∀ b ∈ all, a.route ++ [58] <+: b.route ++ [58] → a = b

/-- Different limiters have different keys. -/
theorem Limiters.eq_of_key (L : Limiters) {a b : PgRateLimitOptions} (ha : a ∈ L.all) (hb : b ∈ L.all)
    {i j : JsString} {m n : ℕ} (h : buildBucketKey a.route i m a.windowMs =
      buildBucketKey b.route j n b.windowMs) : a = b := by
  have hpre : ∀ (o : PgRateLimitOptions) (i : JsString) (m : ℕ),
      o.route ++ [58] <+: buildBucketKey o.route i m o.windowMs := by
    intro o i m
    refine ⟨i ++ 58 :: numText 10 (windowStartFloor m o.windowMs), ?_⟩
    rw [buildBucketKey, List.append_assoc, List.singleton_append]
  have hpa := hpre a i m
  rw [h] at hpa
  rcases List.prefix_or_prefix_of_prefix hpa (hpre b j n) with hab | hba
  · exact L.separate a ha b hb hab
  · exact (L.separate b hb a ha hba).symm

/-- A request to a limiter, or a run of the cleanup. -/
inductive LimitCall (L : Limiters)
  | request (opts : PgRateLimitOptions) (mem : opts ∈ L.all) (req : LimitedRequest)
  | cleanup

def limitCode {L : Limiters} : LimitCall L → LimitProgram LimitOutcome
  | .request opts _ req => pgRateLimit opts req
  | .cleanup => cleanupRateLimitBuckets

/-- Time passes by `e` milliseconds. -/
def limitEnv (e : ℕ) (w : BucketWorld) : Option BucketWorld := some { w with clock := w.clock + e }

abbrev limiting (L : Limiters) :
    System limitSig JsString LimitOutcome (LimitCall L) BucketWorld LimitOracle ℕ :=
  { code := limitCode, exec := fun _ => limitExec, env := limitEnv }

/-! ## What one thread does -/

section Threads

variable {L : Limiters}

/-- Where a call stands, given the operations it has awaited. -/
inductive Stands : LimitCall L → List (Act limitSig JsString) → LimitProgram LimitOutcome → Prop
  | begun (a : LimitCall L) : Stands a [] (limitCode a)
  | timed {opts : PgRateLimitOptions} {mem : opts ∈ L.all} {req : LimitedRequest}
      {identity : JsString} {nowMs : ℕ} (h : resolveKey req opts.keyBy = some identity) :
      Stands (.request opts mem req) [⟨.now, .ok nowMs⟩]
        (let bucketKey := buildBucketKey opts.route identity nowMs opts.windowMs
        let expiresAt := windowStartFloor nowMs opts.windowMs + opts.windowMs
        .await (.upsert bucketKey expiresAt) fun
          | .ok count => .ret (decideCount opts bucketKey nowMs expiresAt count)
          | .error _ => .ret .failedOpen)
  | counted {opts : PgRateLimitOptions} {mem : opts ∈ L.all} {req : LimitedRequest}
      {identity : JsString} {nowMs count : ℕ} (h : resolveKey req opts.keyBy = some identity) :
      Stands (.request opts mem req) [⟨.now, .ok nowMs⟩,
          ⟨.upsert (buildBucketKey opts.route identity nowMs opts.windowMs)
            (windowStartFloor nowMs opts.windowMs + opts.windowMs), .ok count⟩]
        (.ret (decideCount opts (buildBucketKey opts.route identity nowMs opts.windowMs) nowMs
          (windowStartFloor nowMs opts.windowMs + opts.windowMs) count))
  | uncounted {a : LimitCall L} {es : List (Act limitSig JsString)}
      {out : Except JsString LimitOutcome} {q : LimitProgram LimitOutcome}
      (hout : q.outcome? = some out) (hes : ∀ x ∈ es, ∀ key e n, x ≠ ⟨.upsert key e, .ok n⟩)
      (hplain : ∀ key n r e, out ≠ .ok (.admitted key n r e) ∧ out ≠ .ok (.limited key n r e)) :
      Stands a es q

/-- The code of a request: read the clock, then the UPSERT. -/
theorem pgRateLimit_eq (opts : PgRateLimitOptions) (req : LimitedRequest) :
    pgRateLimit opts req = .await .now fun
      | .ok nowMs =>
          match resolveKey req opts.keyBy with
          | none => .ret .skipped
          | some identity =>
              let bucketKey := buildBucketKey opts.route identity nowMs opts.windowMs
              let expiresAt := windowStartFloor nowMs opts.windowMs + opts.windowMs
              .await (.upsert bucketKey expiresAt) fun
                | .ok count => .ret (decideCount opts bucketKey nowMs expiresAt count)
                | .error _ => .ret .failedOpen
      | .error e => .raise e := by
  refine congrArg (Prog.await (S := limitSig) LimitOp.now) (funext fun r => ?_)
  cases r with
  | error e => rfl
  | ok nowMs =>
      show (match resolveKey req opts.keyBy with
        | none => _
        | some identity => _) = _
      cases resolveKey req opts.keyBy with
      | none => rfl
      | some identity =>
          refine congrArg (Prog.await (S := limitSig) _) (funext fun r => ?_)
          cases r <;> rfl

theorem cleanup_eq : cleanupRateLimitBuckets = .await .deleteExpired fun _ => .ret .cleaned := by
  refine congrArg (Prog.await (S := limitSig) LimitOp.deleteExpired) (funext fun r => ?_)
  cases r <;> rfl

theorem stands_of_trace {a : LimitCall L} {es : List (Act limitSig JsString)}
    {q : LimitProgram LimitOutcome} (h : Prog.Trace (limitCode a) es q) : Stands a es q := by
  generalize hp : limitCode a = p at h
  induction h with
  | refl => exact hp ▸ .begun a
  -- one more answer: the clock, then the UPSERT, then the call is decided
  | @snoc es o k h r ih =>
      clear hp
      generalize hq : Prog.await o k = q at ih
      cases ih with
      | begun =>
          cases a with
          | request opts mem req =>
              rw [limitCode, pgRateLimit_eq] at hq
              cases hq
              cases r with
              | error e =>
                  exact .uncounted rfl (by simp) fun _ _ _ _ => ⟨by simp, by simp⟩
              | ok nowMs =>
                  -- without an identity nothing is counted
                  cases hid : resolveKey req opts.keyBy with
                  | none =>
                      exact .uncounted rfl (by simp) fun _ _ _ _ => ⟨by simp, by simp⟩
                  | some identity =>
                      exact .timed hid
          | cleanup =>
              rw [limitCode, cleanup_eq] at hq
              cases hq
              exact .uncounted rfl (by simp) fun _ _ _ _ => ⟨by simp, by simp⟩
      | timed hid =>
          cases hq
          cases r with
          | ok count => exact .counted hid
          | error e =>
              refine .uncounted rfl (fun x hx key e' n heq => ?_) fun _ _ _ _ => ⟨by simp, by simp⟩
              rcases List.mem_pair.mp hx with rfl | rfl <;> cases heq
      | counted hid => cases hq
      | uncounted hout hes hplain =>
          subst hq
          cases hout

end Threads

/-! ## The table and the counts that were answered -/

section Tally

variable {L : Limiters} {w w' : BucketWorld} {log : List (Event limitSig JsString)} {key : JsString}
  {n : ℕ}

/-- Thread `t` was the `n`-th to be counted in the bucket `key`. -/
def CountedBy (t : ℕ) (key : JsString) (n : ℕ) (log : List (Event limitSig JsString)) : Prop :=
  ∃ e, (⟨t, ⟨.upsert key e, .ok n⟩⟩ : Event limitSig JsString) ∈ log

/-- The counts answered for each bucket are 1, …, m, each to one thread, and the
    row, if there is one, holds m. -/
def Tallied (w : BucketWorld) (log : List (Event limitSig JsString)) : Prop :=
  ∀ key, ∃ m, (∀ n, (∃ t, CountedBy t key n log) ↔ 1 ≤ n ∧ n ≤ m) ∧
    (∀ t t' n, CountedBy t key n log → CountedBy t' key n log → t = t') ∧
    ∀ b ∈ w.buckets, b.bucketKey = key → b.count = m

/-- An UPSERT of a bucket that was counted in before finds its row: no cleanup has
    deleted it in between. -/
def RowKept (c : Config limitSig JsString LimitOutcome (LimitCall L) BucketWorld)
    (l : Label (LimitCall L) LimitOracle ℕ) : Prop :=
  ∀ t ω a past key e k, l = .resume t ω → c.threads[t]? = some ⟨a, past, .await (.upsert key e) k⟩ →
    (∃ t' n, CountedBy t' key n c.log) → ∃ b ∈ c.world.buckets, b.bucketKey = key

/-- Everything the UPSERT can do. -/
theorem upsert_cases {e : ℕ} {r : Except JsString ℕ} (h : w.upsert key e = (r, w')) :
    ((∀ b ∈ w.buckets, b.bucketKey ≠ key) ∧ r = .ok 1 ∧
      w'.buckets = w.buckets ++ [⟨key, 1, w.clock, e⟩]) ∨
    ((∃ message, r = .error message) ∧ w' = w) ∨
    (∃ b ∈ w.buckets, b.bucketKey = key ∧ r = .ok (b.count + 1) ∧
      w'.buckets = w.buckets.map fun b => if b.bucketKey = key then { b with count := b.count + 1 } else b) := by
  rw [BucketWorld.upsert] at h
  split at h
  · next hnone =>
      obtain ⟨rfl, rfl⟩ := Prod.mk.inj h
      exact .inl ⟨fun b hb => by simpa using List.find?_eq_none.mp hnone b hb, rfl, rfl⟩
  · next b hsome =>
      have hkey : b.bucketKey = key := by simpa using List.find?_some hsome
      split at h
      · obtain ⟨rfl, rfl⟩ := Prod.mk.inj h
        exact .inr (.inl ⟨⟨_, rfl⟩, rfl⟩)
      · obtain ⟨rfl, rfl⟩ := Prod.mk.inj h
        exact .inr (.inr ⟨b, List.mem_of_find?_eq_some hsome, hkey, rfl, rfl⟩)

theorem countedBy_append {t t' : ℕ} {x : Act limitSig JsString} :
    CountedBy t key n (log ++ [⟨t', x⟩]) ↔ CountedBy t key n log ∨
      (t = t' ∧ ∃ e, x = ⟨.upsert key e, .ok n⟩) := by
  simp only [CountedBy, List.mem_append, List.mem_singleton, exists_or, Event.mk.injEq,
    exists_and_left, eq_comm]

/-- Events that count nothing, and rows that go away. -/
theorem Tallied.mono (h : Tallied w log) {t : ℕ} {x : Act limitSig JsString}
    (hx : ∀ key e n, x ≠ ⟨.upsert key e, .ok n⟩) (hsub : ∀ b ∈ w'.buckets, b ∈ w.buckets) :
    Tallied w' (log ++ [⟨t, x⟩]) := by
  have hsame : ∀ key t' n, CountedBy t' key n (log ++ [⟨t, x⟩]) ↔ CountedBy t' key n log := by
    intro key t' n
    rw [countedBy_append]
    refine ⟨fun hor => hor.elim id ?_, .inl⟩
    rintro ⟨-, e, heq⟩
    exact absurd heq (hx key e n)
  intro key
  obtain ⟨m, hcount, huniq, hrow⟩ := h key
  refine ⟨m, fun n => ?_, fun t₁ t₂ n => ?_, fun b hb => hrow b (hsub b hb)⟩
  · simp only [hsame]
    exact hcount n
  · simp only [hsame]
    exact huniq t₁ t₂ n

/-- One more count. -/
theorem Tallied.count (h : Tallied w log) {t e m : ℕ} (hm : ∀ n, (∃ t, CountedBy t key n log) ↔ 1 ≤ n ∧ n ≤ m)
    (hrow : ∀ b ∈ w'.buckets, b.bucketKey = key → b.count = m + 1)
    (hother : ∀ b ∈ w'.buckets, b.bucketKey ≠ key → b ∈ w.buckets) :
    Tallied w' (log ++ [⟨t, ⟨.upsert key e, .ok (m + 1)⟩⟩]) := by
  -- the new line counts `m + 1` for its own key and nothing for others
  have hact : ∀ key' n, (∃ e', (⟨.upsert key e, .ok (m + 1)⟩ : Act limitSig JsString) =
      ⟨.upsert key' e', .ok n⟩) ↔ key' = key ∧ n = m + 1 := by
    intro key' n
    constructor
    · rintro ⟨e', heq⟩
      cases heq
      exact ⟨rfl, rfl⟩
    · rintro ⟨rfl, rfl⟩
      exact ⟨e, rfl⟩
  intro key'
  obtain ⟨m', hcount, huniq, hrow'⟩ := h key'
  simp only [countedBy_append, hact]
  by_cases hkey : key' = key
  · subst hkey
    -- which nobody has been given before
    have hfresh : ∀ t', ¬ CountedBy t' key' (m + 1) log := by
      intro t' hcounted
      have hle := (hm _).mp ⟨t', hcounted⟩
      omega
    refine ⟨m + 1, fun n => ?_, fun t₁ t₂ n h₁ h₂ => ?_, hrow⟩
    · rw [exists_or, hm n]
      simp only [true_and, exists_eq_left]
      omega
    · rcases h₁ with h₁ | ⟨rfl, -, rfl⟩ <;> rcases h₂ with h₂ | ⟨rfl, -, hn⟩
      · exact huniq t₁ t₂ n h₁ h₂
      · exact absurd (hn ▸ h₁) (hfresh t₁)
      · exact absurd h₂ (hfresh t₂)
      · rfl
  · refine ⟨m', fun n => ?_, fun t₁ t₂ n h₁ h₂ => ?_, fun b hb hb' => ?_⟩
    · simp only [hkey, false_and, and_false, or_false]
      exact hcount n
    · simp only [hkey, false_and, and_false, or_false] at h₁ h₂
      exact huniq t₁ t₂ n h₁ h₂
    · exact hrow' b (hother b hb fun heq => hkey (hb'.symm.trans heq)) hb'

/-- The UPSERT keeps the tally when it finds the row of a bucket that was counted
    in before. -/
theorem Tallied.upsert (h : Tallied w log) {t e : ℕ} {r : Except JsString ℕ}
    (hx : w.upsert key e = (r, w'))
    (hkept : (∃ t n, CountedBy t key n log) → ∃ b ∈ w.buckets, b.bucketKey = key) :
    Tallied w' (log ++ [⟨t, ⟨.upsert key e, r⟩⟩]) := by
  obtain ⟨m, hcount, huniq, hrow⟩ := h key
  rcases upsert_cases hx with ⟨hnone, rfl, hw⟩ | ⟨⟨message, rfl⟩, rfl⟩ | ⟨b, hb, hkey, rfl, hw⟩
  · -- the row is missing: nobody has been counted in it
    have hzero : m = 0 := by
      by_contra hne
      obtain ⟨t', hcounted⟩ := (hcount 1).mpr ⟨le_rfl, by omega⟩
      obtain ⟨b, hb, hbkey⟩ := hkept ⟨t', 1, hcounted⟩
      exact hnone b hb hbkey
    subst hzero
    refine h.count hcount (fun b hb hbkey => ?_) fun b hb hbkey => ?_
    · rw [hw] at hb
      rcases List.mem_append.mp hb with hb | hb
      · exact absurd hbkey (hnone b hb)
      · rw [List.mem_singleton.mp hb]
    · rw [hw] at hb
      rcases List.mem_append.mp hb with hb | hb
      · exact hb
      · rw [List.mem_singleton.mp hb] at hbkey
        exact absurd rfl hbkey
  · exact h.mono (fun key e n heq => by cases heq) fun b hb => hb
  · have hm := hrow b hb hkey
    subst hm
    refine h.count hcount (fun b' hb' hbkey => ?_) fun b' hb' hbkey => ?_
    · rw [hw] at hb'
      obtain ⟨b₀, hb₀, rfl⟩ := List.mem_map.mp hb'
      split at hbkey
      · next heq =>
          rw [if_pos heq]
          exact congrArg (· + 1) (hrow b₀ hb₀ heq)
      · next hne => exact absurd hbkey hne
    · rw [hw] at hb'
      obtain ⟨b₀, hb₀, rfl⟩ := List.mem_map.mp hb'
      split at hbkey
      · next heq => exact absurd heq hbkey
      · next hne => rwa [if_neg hne]

theorem tallied_of_reach {c : Config limitSig JsString LimitOutcome (LimitCall L) BucketWorld}
    (h : (limiting L).Reach (fun w => w.buckets = []) RowKept c) : Tallied c.world c.log := by
  refine h.invariant (I := fun c => Tallied c.world c.log) (fun w hw key => ?_)
    (fun _ _ _ hI _ => hI) (fun c t ω a past o k r w _ hI hg hth hx => ?_) fun c e w _ hI _ hw => ?_
  · refine ⟨0, fun n => ⟨?_, fun hn => by omega⟩, ?_, fun b hb => ?_⟩
    · rintro ⟨t, e, hmem⟩
      cases hmem
    · rintro t t' n ⟨e, hmem⟩
      cases hmem
    · have hnone : b ∈ w.buckets := hb
      rw [hw] at hnone
      cases hnone
  · cases o with
    | now =>
        cases hx
        exact hI.mono (fun key e n heq => by cases heq) fun b hb => hb
    -- the cleanup deletes rows, which `RowKept` allows while nobody counts on them
    | deleteExpired =>
        cases ω with
        | proceed =>
            cases hx
            exact hI.mono (fun key e n heq => by cases heq) fun b hb => List.mem_of_mem_filter hb
        | fail message =>
            cases hx
            exact hI.mono (fun key e n heq => by cases heq) fun b hb => hb
    | upsert key e =>
        cases ω with
        | fail message =>
            cases hx
            exact hI.mono (fun key e n heq => by cases heq) fun b hb => hb
        | proceed =>
            -- the UPSERT finds the row of the counts before, or there were none
            exact hI.upsert (Option.some.inj hx) fun hcounted =>
              hg t _ a past key e k rfl hth hcounted
  · cases hw
    exact hI

end Tally

/-! ## The cap -/

section Cap

variable {L : Limiters} {c c' : Config limitSig JsString LimitOutcome (LimitCall L) BucketWorld}

theorem decideCount_admitted {opts : PgRateLimitOptions} {bucketKey key : JsString}
    {nowMs expiresAt count n r e : ℕ}
    (h : decideCount opts bucketKey nowMs expiresAt count = .admitted key n r e) :
    bucketKey = key ∧ count = n ∧ count ≤ opts.max := by
  rw [decideCount] at h
  split at h
  · cases h
  · next hle =>
      cases h
      exact ⟨rfl, rfl, by omega⟩

theorem decideCount_limited {opts : PgRateLimitOptions} {bucketKey key : JsString}
    {nowMs expiresAt count n r e : ℕ}
    (h : decideCount opts bucketKey nowMs expiresAt count = .limited key n r e) :
    bucketKey = key ∧ count = n ∧ opts.max < count := by
  rw [decideCount] at h
  split at h
  · next hlt =>
      cases h
      exact ⟨rfl, rfl, hlt⟩
  · cases h

/-- Thread `t` was counted in the bucket `key` and passed on. -/
def Admitted (c : Config limitSig JsString LimitOutcome (LimitCall L) BucketWorld) (t : ℕ)
    (key : JsString) : Prop :=
  ∃ a past n r e, c.threads[t]? = some ⟨a, past, .ret (.admitted key n r e)⟩

/-- A thread that has been counted, and what it ended with. -/
theorem ended_of_countedBy {init : BucketWorld → Prop} {t n : ℕ} {key : JsString}
    (hc : (limiting L).Reach init RowKept c) (h : CountedBy t key n c.log) :
    ∃ opts mem req identity past nowMs, key = buildBucketKey opts.route identity nowMs opts.windowMs ∧
      c.threads[t]? = some ⟨.request opts mem req, past,
        .ret (decideCount opts key nowMs (windowStartFloor nowMs opts.windowMs + opts.windowMs) n)⟩ := by
  obtain ⟨e, hmem⟩ := h
  obtain ⟨⟨a, past, rest⟩, hth⟩ :=
    Option.isSome_iff_exists.mp (by simpa using hc.past_eq_own.1 _ hmem :
      (c.threads[t]?).isSome = true)
  have hpast : (⟨.upsert key e, .ok n⟩ : Act limitSig JsString) ∈ past := by
    rw [show past = System.own t c.log from hc.past_eq_own.2 t _ hth]
    exact System.mem_own.mpr hmem
  have hstands : Stands a past rest := stands_of_trace (hc.trace hth)
  cases hstands with
  | begun => cases hpast
  | timed hid =>
      rcases List.mem_singleton.mp hpast with heq
      cases heq
  | @counted opts mem req identity nowMs count hid =>
      rcases List.mem_pair.mp hpast with heq | heq
      · cases heq
      · cases heq
        exact ⟨opts, mem, req, identity, _, nowMs, rfl, hth⟩
  | uncounted hout hes hplain => exact absurd rfl (hes _ hpast key e n)

/-- A thread that was passed on with a count, or answered 429. -/
theorem countedBy_of_ended {init : BucketWorld → Prop} {t : ℕ} {a : LimitCall L}
    {past : List (Act limitSig JsString)} {o : LimitOutcome} {key : JsString} {n r e : ℕ}
    (hc : (limiting L).Reach init RowKept c) (hth : c.threads[t]? = some ⟨a, past, .ret o⟩)
    (ho : o = .admitted key n r e ∨ o = .limited key n r e) :
    ∃ opts mem req identity nowMs, a = .request opts mem req ∧
      key = buildBucketKey opts.route identity nowMs opts.windowMs ∧ CountedBy t key n c.log ∧
      (o = .admitted key n r e → n ≤ opts.max) ∧ (o = .limited key n r e → opts.max < n) := by
  have hpast : past = System.own t c.log := hc.past_eq_own.2 t _ hth
  have hstands : Stands a past (.ret o) := stands_of_trace (hc.trace hth)
  generalize hq : (Prog.ret o : LimitProgram LimitOutcome) = q at hstands
  cases hstands with
  | begun =>
      cases a with
      | request opts mem req =>
          rw [limitCode, pgRateLimit_eq] at hq
          cases hq
      | cleanup =>
          rw [limitCode, cleanup_eq] at hq
          cases hq
  | timed hid => cases hq
  | @counted opts mem req identity nowMs count hid =>
      -- the count is in the thread's own part of the log
      have hcounted : CountedBy t (buildBucketKey opts.route identity nowMs opts.windowMs) count
          c.log := ⟨_, System.mem_own.mp (hpast ▸ List.mem_cons_of_mem _ (List.mem_singleton.mpr rfl))⟩
      have hdecide := Prog.ret.inj hq
      rcases ho with rfl | rfl
      · obtain ⟨hkey, hn, hle⟩ := decideCount_admitted hdecide.symm
        subst hkey hn
        exact ⟨opts, mem, req, identity, nowMs, rfl, rfl, hcounted, fun _ => hle, nofun⟩
      · obtain ⟨hkey, hn, hlt⟩ := decideCount_limited hdecide.symm
        subst hkey hn
        exact ⟨opts, mem, req, identity, nowMs, rfl, rfl, hcounted, nofun, fun _ => hlt⟩
  | uncounted hout hes hplain =>
      subst hq
      cases hout
      rcases ho with rfl | rfl
      · exact absurd rfl (hplain key n r e).1
      · exact absurd rfl (hplain key n r e).2

/-- Whoever was counted among the first `max` of a limiter's bucket was passed on. -/
theorem admitted_of_countedBy {init : BucketWorld → Prop} {opts : PgRateLimitOptions}
    {identity : JsString} {nowMs t n : ℕ} (hc : (limiting L).Reach init RowKept c)
    (hmem : opts ∈ L.all)
    (h : CountedBy t (buildBucketKey opts.route identity nowMs opts.windowMs) n c.log)
    (hle : n ≤ opts.max) :
    ∃ a past r e, c.threads[t]? = some ⟨a, past,
      .ret (.admitted (buildBucketKey opts.route identity nowMs opts.windowMs) n r e)⟩ := by
  obtain ⟨opts', mem', req, identity', past, nowMs', hkey, hth⟩ := ended_of_countedBy hc h
  have hopts : opts = opts' := L.eq_of_key hmem mem' hkey
  subst hopts
  rw [decideCount, if_neg (by omega)] at hth
  exact ⟨_, past, _, _, hth⟩

/-- At most `max` requests of one bucket are passed on. -/
theorem card_admitted_le {opts : PgRateLimitOptions} {identity : JsString} {nowMs : ℕ}
    (hc : (limiting L).Reach (fun w => w.buckets = []) RowKept c) (hmem : opts ∈ L.all)
    {ts : Finset ℕ}
    (hts : ∀ t ∈ ts, Admitted c t (buildBucketKey opts.route identity nowMs opts.windowMs)) :
    ts.card ≤ opts.max := by
  obtain ⟨m, hcount, huniq, -⟩ :=
    tallied_of_reach hc (buildBucketKey opts.route identity nowMs opts.windowMs)
  have hnumber : ∀ t, ∃ n, t ∈ ts → CountedBy t
      (buildBucketKey opts.route identity nowMs opts.windowMs) n c.log ∧ n ≤ opts.max := by
    intro t
    by_cases ht : t ∈ ts
    · obtain ⟨a, past, n, r, e, hth⟩ := hts t ht
      obtain ⟨opts', mem', req, identity', nowMs', -, hkey, hcounted, hle, -⟩ :=
        countedBy_of_ended hc hth (.inl rfl)
      have hopts : opts = opts' := L.eq_of_key hmem mem' hkey
      exact ⟨n, fun _ => ⟨hcounted, hopts ▸ hle rfl⟩⟩
    · exact ⟨0, fun h => absurd h ht⟩
  choose number hnumber using hnumber
  have hinto : ∀ t ∈ ts, number t ∈ Finset.Icc 1 opts.max := by
    intro t ht
    have hpos := ((hcount _).mp ⟨t, (hnumber t ht).1⟩).1
    exact Finset.mem_Icc.mpr ⟨hpos, (hnumber t ht).2⟩
  have hinj : Set.InjOn number ts := by
    intro t ht t' ht' heq
    exact huniq t t' (number t) (hnumber t ht).1 (heq ▸ (hnumber t' ht').1)
  calc ts.card ≤ (Finset.Icc 1 opts.max).card := Finset.card_le_card_of_injOn number hinto hinj
    _ = opts.max := by simp

/-- Before the first request of a bucket is answered 429, `max` are passed on. -/
theorem exists_admitted_of_limited {opts : PgRateLimitOptions} {identity : JsString} {nowMs t : ℕ}
    {ω : LimitOracle} {a : LimitCall L} {past : List (Act limitSig JsString)} {n r e : ℕ}
    (hc : (limiting L).Reach (fun w => w.buckets = []) RowKept c) (hmem : opts ∈ L.all)
    (hg : RowKept c (.resume t ω)) (hs : (limiting L).step c (.resume t ω) = some c')
    (hth : c'.threads[t]? = some ⟨a, past,
      .ret (.limited (buildBucketKey opts.route identity nowMs opts.windowMs) n r e)⟩) :
    ∃ ts : Finset ℕ, ts.card = opts.max ∧
      ∀ s ∈ ts, Admitted c s (buildBucketKey opts.route identity nowMs opts.windowMs) := by
  have hc' := hc.step hg hs
  obtain ⟨m, hcount, -, -⟩ :=
    tallied_of_reach hc' (buildBucketKey opts.route identity nowMs opts.windowMs)
  obtain ⟨opts', mem', req, identity', nowMs', -, hkey, hcounted, -, hlt⟩ :=
    countedBy_of_ended hc' hth (.inr rfl)
  have hopts : opts = opts' := L.eq_of_key hmem mem' hkey
  subst hopts
  have hlt := hlt rfl
  have hnm := ((hcount n).mp ⟨t, hcounted⟩).2
  -- the counts 1, …, max were answered to other threads, so before this step
  have hbefore : ∀ i, ∃ s : ℕ, i ∈ Finset.Icc 1 opts.max → ∃ a past r e,
      c.threads[s]? = some ⟨a, past,
        .ret (.admitted (buildBucketKey opts.route identity nowMs opts.windowMs) i r e)⟩ := by
    intro i
    by_cases hi : i ∈ Finset.Icc 1 opts.max
    · have hrange := Finset.mem_Icc.mp hi
      obtain ⟨s, hs'⟩ := (hcount i).mpr ⟨hrange.1, by omega⟩
      have hold : CountedBy s (buildBucketKey opts.route identity nowMs opts.windowMs) i c.log := by
        obtain ⟨a', hl, -⟩ | ⟨t', ω', a', past', o, k, r', w, hl, hth', hx, rfl⟩ | ⟨e', w, hl, -⟩ :=
          System.step_cases hs
        · cases hl
        · cases hl
          have happend : CountedBy s (buildBucketKey opts.route identity nowMs opts.windowMs) i
            (c.log ++ [⟨t, ⟨o, r'⟩⟩]) := hs'
          rcases countedBy_append.mp happend with hold | ⟨rfl, -⟩
          · exact hold
          · obtain ⟨_, _, _, _, _, _, -, hsame⟩ := ended_of_countedBy hc' hs'
            have hend := congrArg Thread.rest (Option.some.inj (hsame.symm.trans hth))
            have hin := (decideCount_limited (Prog.ret.inj hend)).2.1
            omega
        · cases hl
      exact ⟨s, fun _ => admitted_of_countedBy hc hmem hold hrange.2⟩
    · exact ⟨0, fun h => absurd h hi⟩
  choose thread hthread using hbefore
  have hinj : Set.InjOn thread (Finset.Icc 1 opts.max : Finset ℕ) := by
    intro i hi j hj heq
    obtain ⟨_, _, _, _, hti⟩ := hthread i hi
    obtain ⟨_, _, _, _, htj⟩ := hthread j hj
    have hend := congrArg Thread.rest (Option.some.inj ((heq ▸ hti).symm.trans htj))
    exact (LimitOutcome.admitted.inj (Prog.ret.inj hend)).2.1
  refine ⟨(Finset.Icc 1 opts.max).image thread, ?_, fun s hs => ?_⟩
  · rw [Finset.card_image_of_injOn hinj]
    simp
  · obtain ⟨i, hi, rfl⟩ := Finset.mem_image.mp hs
    obtain ⟨a, past, r, e, h⟩ := hthread i hi
    exact ⟨a, past, i, r, e, h⟩

/-- In every run in which no UPSERT misses the row of a bucket that was counted
    in: each bucket passes at most `max` requests on, a request is answered 429
    only after `max` of its bucket were passed on, and on one route a bucket is
    shared only by requests of one identity and one window. -/
theorem rate_limit_cap {opts : PgRateLimitOptions}
    (hc : (limiting L).Reach (fun w => w.buckets = []) RowKept c) (hmem : opts ∈ L.all)
    (identity : JsString) (nowMs : ℕ) :
    (∀ ts : Finset ℕ,
      (∀ t ∈ ts, Admitted c t (buildBucketKey opts.route identity nowMs opts.windowMs)) →
        ts.card ≤ opts.max) ∧
    (∀ t ω c' a past n r e, RowKept c (.resume t ω) →
      (limiting L).step c (.resume t ω) = some c' →
      c'.threads[t]? = some ⟨a, past,
        .ret (.limited (buildBucketKey opts.route identity nowMs opts.windowMs) n r e)⟩ →
      ∃ ts : Finset ℕ, ts.card = opts.max ∧
        ∀ s ∈ ts, Admitted c s (buildBucketKey opts.route identity nowMs opts.windowMs)) ∧
    ∀ identity' nowMs', buildBucketKey opts.route identity nowMs opts.windowMs =
      buildBucketKey opts.route identity' nowMs' opts.windowMs →
        identity = identity' ∧
          windowStartFloor nowMs opts.windowMs = windowStartFloor nowMs' opts.windowMs :=
  ⟨fun _ => card_admitted_le hc hmem,
    fun _ _ _ _ _ _ _ _ hg hs hth => exists_admitted_of_limited hc hmem hg hs hth,
    fun _ _ => buildBucketKey_injective⟩

end Cap

/-! ### The limiters of the routes, and one with a single request -/

/-- The limiters of the routes. -/
def limiters : Limiters where
  all :=
    [⟨js "devices:enroll", 60000, 10, .ip, by decide⟩,
      ⟨js "registrations:phone", 60000, 20, .ip, by decide⟩,
      ⟨js "identity:register", 60000, 30, .apiKey, by decide⟩,
      ⟨js "zkp:verify", 60000, 30, .apiKey, by decide⟩,
      ⟨js "identity:register-face", 60000, 30, .apiKey, by decide⟩,
      ⟨js "identity:verify", 60000, 30, .apiKey, by decide⟩,
      ⟨js "console:login", 60000, 10, .ip, by decide⟩]
  separate := by decide

def login : PgRateLimitOptions := ⟨js "login", 60000, 1, .ip, by decide⟩

def loginOnly : Limiters where
  all := [login]
  separate := by
    intro a ha b hb _
    rw [List.mem_singleton.mp ha, List.mem_singleton.mp hb]

def loginFrom (ip : String) : LimitCall loginOnly :=
  .request login (List.mem_singleton.mpr rfl) ⟨none, some (js ip)⟩

def loginKey : JsString := buildBucketKey login.route (js "::1") 0 login.windowMs

def isUpsertOf (key : JsString) : Event limitSig JsString → Bool
  | ⟨_, ⟨.upsert key' _, .ok _⟩⟩ => key' = key
  | _ => false

/-- The test of `RowKept`. -/
def rowKept {L : Limiters} (c : Config limitSig JsString LimitOutcome (LimitCall L) BucketWorld) :
    Label (LimitCall L) LimitOracle ℕ → Bool
  | .resume t _ =>
      match c.threads[t]? with
      | some ⟨_, _, .await (.upsert key _) _⟩ =>
          c.world.buckets.any (fun b => b.bucketKey = key) || !c.log.any (isUpsertOf key)
      | _ => true
  | _ => true

theorem rowKept_iff {L : Limiters} {c : Config limitSig JsString LimitOutcome (LimitCall L) BucketWorld}
    {l : Label (LimitCall L) LimitOracle ℕ} (h : rowKept c l = true) : RowKept c l := by
  intro t ω a past key e k hl hth ⟨t', n, e', hmem⟩
  subst hl
  simp only [rowKept, hth, Bool.or_eq_true, List.any_eq_true, Bool.not_eq_true',
    decide_eq_true_eq] at h
  rcases h with ⟨b, hb, hkey⟩ | hnone
  · exact ⟨b, hb, hkey⟩
  · have hsome : c.log.any (isUpsertOf key) = true :=
      List.any_eq_true.mpr ⟨_, hmem, decide_eq_true rfl⟩
    rw [hsome] at hnone
    cases hnone

/-- Whether thread `t` was passed on in the bucket `key`. -/
def isAdmitted {L : Limiters} (c : Config limitSig JsString LimitOutcome (LimitCall L) BucketWorld)
    (key : JsString) (t : ℕ) : Bool :=
  match c.threads[t]? with
  | some ⟨_, _, .ret (.admitted key' _ _ _)⟩ => key' = key
  | _ => false

theorem admitted_of_isAdmitted {L : Limiters} {key : JsString} {t : ℕ}
    {c : Config limitSig JsString LimitOutcome (LimitCall L) BucketWorld}
    (h : isAdmitted c key t = true) : Admitted c t key := by
  unfold isAdmitted at h
  split at h
  · next a past key' n r e hth =>
      obtain rfl : key' = key := of_decide_eq_true h
      exact ⟨a, past, n, r, e, hth⟩
  · cases h

/-- Two requests from one address. -/
def twoLogins : List (Label (LimitCall loginOnly) LimitOracle ℕ) :=
  [.start (loginFrom "::1"), .start (loginFrom "::1"), .resume 0 .proceed, .resume 1 .proceed,
    .resume 0 .proceed, .resume 1 .proceed]

theorem rate_limit_cap_of_two : ∃ c,
    (limiting loginOnly).runChecked rowKept (.init ⟨[], 0⟩) twoLogins = some c ∧
      Admitted c 0 loginKey ∧ ∀ ts : Finset ℕ, (∀ t ∈ ts, Admitted c t loginKey) → ts.card ≤ 1 := by
  have hrun : (((limiting loginOnly).runChecked rowKept (.init ⟨[], 0⟩) twoLogins).map fun c =>
      isAdmitted c loginKey 0) = some true := by
    rfl
  obtain ⟨c, hc, hadmitted⟩ := Option.map_eq_some_iff.mp hrun
  have hreach : (limiting loginOnly).Reach (fun w => w.buckets = []) RowKept c :=
    System.Reach.runChecked (.init rfl) (fun _ _ => rowKept_iff) hc
  exact ⟨c, hc, admitted_of_isAdmitted hadmitted,
    (rate_limit_cap hreach (List.mem_singleton.mpr rfl) (js "::1") 0).1⟩

/-- Two requests of one window: the bucket expires and is deleted before the second
    one counts itself. -/
def lateLogin : List (Label (LimitCall loginOnly) LimitOracle ℕ) :=
  [.start (loginFrom "::1"), .start (loginFrom "::1"), .resume 0 .proceed, .resume 1 .proceed,
    .resume 0 .proceed, .env 60001, .start .cleanup, .resume 2 .proceed, .resume 1 .proceed]

theorem cap_exceeded_after_cleanup :
    ¬ ∀ (L : Limiters) (c : Config limitSig JsString LimitOutcome (LimitCall L) BucketWorld),
      (limiting L).Reach (fun w => w.buckets = []) (fun _ _ => True) c → ∀ opts ∈ L.all,
      ∀ identity nowMs, ∀ ts : Finset ℕ,
        (∀ t ∈ ts, Admitted c t (buildBucketKey opts.route identity nowMs opts.windowMs)) →
          ts.card ≤ opts.max := by
  intro h
  have hrun : (((limiting loginOnly).run (.init ⟨[], 0⟩) lateLogin).map fun c =>
      isAdmitted c loginKey 0 && isAdmitted c loginKey 1) = some true := by
    rfl
  obtain ⟨c, hc, hboth⟩ := Option.map_eq_some_iff.mp hrun
  obtain ⟨hfirst, hsecond⟩ := (Bool.and_eq_true _ _).mp hboth
  have hreach : (limiting loginOnly).Reach (fun w => w.buckets = []) (fun _ _ => True) c :=
    System.Reach.run (.init rfl) (System.keeps_of_forall fun _ _ _ => trivial) hc
  have htwo := h loginOnly c hreach login (List.mem_singleton.mpr rfl) (js "::1") 0 {0, 1}
    (by
      intro t ht
      rcases Finset.mem_insert.mp ht with rfl | ht
      · exact admitted_of_isAdmitted hfirst
      · rw [Finset.mem_singleton.mp ht]
        exact admitted_of_isAdmitted hsecond)
  exact absurd htwo (by decide)

end ZeroAuth.Limits
