/-
  ZeroAuth.Limits.Window

  The in-memory limiter of `authenticateTenantApiKey` (src/middleware/tenant-auth.ts).

  It is described as a sliding window, but the counter of a tenant starts anew
  when its window is over, whatever was let through shortly before.  The limit
  holds in every interval of runs in which no window starts while a request of
  the last 15 minutes still counts (`sliding_limit`).
-/

import ZeroAuth.Pg.Columns

namespace ZeroAuth.Limits

open ZeroAuth.Pg

/-! ## The limiter -/

/-- `WINDOW_MS`: 15 minutes. -/
def windowMs : ℕ := 15 * 60 * 1000

structure RateWindow where
  count : ℕ
  windowStart : ℕ

/-- What the middleware answers: the seconds until the client may retry, or the
    values of the headers of a request that goes on. -/
inductive RateAnswer
  | rejected (retryAfterSeconds : ℕ)
  | passed (remaining resetSeconds : ℕ)

/-- `Math.ceil(ms / 1000)`. -/
def ceilSeconds (ms : ℕ) : ℕ := (ms + 999) / 1000

/-- Whether a request starts a new window. -/
def startsWindow (window : Option RateWindow) (now : ℕ) : Bool :=
  match window with
  | none => true
  | some w => now - w.windowStart > windowMs

/-- The window that a request is counted in. -/
def currentWindow (window : Option RateWindow) (now : ℕ) : RateWindow :=
  match window with
  | none => ⟨0, now⟩
  | some w => if startsWindow (some w) now then ⟨0, now⟩ else w

def rateLimit (limit : ℕ) (window : Option RateWindow) (now : ℕ) : RateWindow × RateAnswer :=
  let w := currentWindow window now
  let w := { w with count := w.count + 1 }
  if w.count > limit then (w, .rejected (ceilSeconds (w.windowStart + windowMs - now)))
  else (w, .passed (limit - w.count) (ceilSeconds (w.windowStart + windowMs)))

def RateAnswer.isPassed : RateAnswer → Bool
  | rejected _ => false
  | passed _ _ => true

/-! ## Runs -/

/-- A request that has reached the limiter. -/
structure Arrival where
  tenantId : Uuid
  time : ℕ
  passed : Bool

/-- The map `rateLimitWindows`, and the requests so far, oldest first. -/
structure Limiter where
  windows : Uuid → Option RateWindow
  arrivals : List Arrival

def Limiter.start : Limiter := ⟨fun _ => none, []⟩

/-- A request of a tenant whose `rate_limit` is `limit tenantId`. -/
def Limiter.arrive (limit : Uuid → ℕ) (s : Limiter) (tenantId : Uuid) (now : ℕ) : Limiter :=
  let (w, answer) := rateLimit (limit tenantId) (s.windows tenantId) now
  ⟨fun t => if t = tenantId then some w else s.windows t,
    s.arrivals ++ [⟨tenantId, now, answer.isPassed⟩]⟩

/-- The states of the runs whose requests come at non-decreasing times and all
    satisfy `good`, with the time of the last request. -/
inductive Limiter.Reach (limit : Uuid → ℕ) (good : Limiter → Uuid → ℕ → Prop) :
    Limiter → ℕ → Prop
  | start : Reach limit good .start 0
  | arrive {s : Limiter} {last now : ℕ} {tenantId : Uuid} (h : Reach limit good s last)
      (hle : last ≤ now) (hg : good s tenantId now) :
      Reach limit good (s.arrive limit tenantId now) now

/-- A request of the tenant that was let through at `from` or later. -/
def Arrival.since (tenantId : Uuid) (time : ℕ) (x : Arrival) : Bool :=
  x.tenantId = tenantId ∧ x.passed ∧ time ≤ x.time

/-- A request of the tenant that was let through in the 15 minutes from `time`. -/
def Arrival.within (tenantId : Uuid) (time : ℕ) (x : Arrival) : Bool :=
  x.since tenantId time ∧ x.time ≤ time + windowMs

/-- If the request starts a new window, every request of the tenant that was let
    through is older than 15 minutes. -/
def StartsClean (s : Limiter) (tenantId : Uuid) (now : ℕ) : Prop :=
  startsWindow (s.windows tenantId) now = true → ∀ x ∈ s.arrivals, x.tenantId = tenantId →
    x.passed = true → x.time + windowMs < now

/-- At most `limit` requests are let through in any 15 minutes. -/
def LimitHolds (limit : Uuid → ℕ) (xs : List Arrival) : Prop :=
  ∀ tenantId time, xs.countP (Arrival.within tenantId time) ≤ limit tenantId

/-- A request is rejected only when `limit` requests were let through in the 15
    minutes before it. -/
def NoEarlyRejection (limit : Uuid → ℕ) (xs : List Arrival) : Prop :=
  ∀ earlier x later, xs = earlier ++ x :: later → x.passed = false →
    limit x.tenantId ≤ earlier.countP fun y =>
      y.since x.tenantId 0 && decide (x.time ≤ y.time + windowMs)

/-! ## What a window knows -/

/-- The window of a tenant next to the requests that were let through: it counts
    those since its start, and the others are 15 minutes older. -/
structure Knows (limit : ℕ) (tenantId : Uuid) (window : Option RateWindow) (xs : List Arrival)
    (last : ℕ) : Prop where
  empty : window = none → ∀ x ∈ xs, x.tenantId ≠ tenantId
  start_le : ∀ w, window = some w → w.windowStart ≤ last
  count : ∀ w, window = some w → xs.countP (Arrival.since tenantId w.windowStart) = min w.count limit
  older : ∀ w, window = some w → ∀ x ∈ xs, x.tenantId = tenantId → x.passed = true →
    w.windowStart ≤ x.time ∨ x.time + windowMs < w.windowStart

section Step

variable {limit last now : ℕ} {tenantId : Uuid} {window : Option RateWindow} {xs : List Arrival}

theorem Knows.mono (h : Knows limit tenantId window xs last) (hle : last ≤ now) :
    Knows limit tenantId window xs now :=
  ⟨h.empty, fun w hw => (h.start_le w hw).trans hle, h.count, h.older⟩

/-- A request of another tenant. -/
theorem Knows.other {x : Arrival} (h : Knows limit tenantId window xs last)
    (hne : x.tenantId ≠ tenantId) : Knows limit tenantId window (xs ++ [x]) last := by
  refine ⟨fun hw y hy => ?_, h.start_le, fun w hw => ?_, fun w hw y hy => ?_⟩
  · rcases List.mem_append.mp hy with hy | hy
    · exact h.empty hw y hy
    · rwa [List.mem_singleton.mp hy]
  · rw [List.countP_append, h.count w hw, List.countP_singleton, if_neg]
    · rfl
    · simp [Arrival.since, hne]
  · rcases List.mem_append.mp hy with hy | hy
    · exact h.older w hw y hy
    · rw [List.mem_singleton.mp hy]
      exact fun heq => absurd heq hne

/-- What is known of the window that a request is counted in. -/
structure Counts (limit : ℕ) (tenantId : Uuid) (w : RateWindow) (xs : List Arrival) (now : ℕ) :
    Prop where
  start_le : w.windowStart ≤ now
  le_end : now ≤ w.windowStart + windowMs
  count : xs.countP (Arrival.since tenantId w.windowStart) = min w.count limit
  older : ∀ x ∈ xs, x.tenantId = tenantId → x.passed = true →
    w.windowStart ≤ x.time ∨ x.time + windowMs < w.windowStart

/-- A new window counts nothing yet. -/
theorem counts_new (holder : ∀ x ∈ xs, x.tenantId = tenantId → x.passed = true →
    x.time + windowMs < now) : Counts limit tenantId ⟨0, now⟩ xs now := by
  refine ⟨le_rfl, Nat.le_add_right _ _, ?_, fun x hx ht hp => .inr (holder x hx ht hp)⟩
  rw [Nat.zero_min, List.countP_eq_zero]
  intro x hx hsince
  simp only [Arrival.since, decide_eq_true_eq] at hsince
  have hlt := holder x hx hsince.1 hsince.2.1
  omega

theorem Knows.counts (h : Knows limit tenantId window xs last) (hle : last ≤ now)
    (hclean : startsWindow window now = true → ∀ x ∈ xs, x.tenantId = tenantId →
      x.passed = true → x.time + windowMs < now) :
    Counts limit tenantId (currentWindow window now) xs now := by
  cases window with
  | none => exact counts_new fun x hx ht => absurd ht (h.empty rfl x hx)
  | some w =>
      rw [currentWindow]
      split
      · next hstarts => exact counts_new (hclean hstarts)
      · next hstarts =>
          have hstart := h.start_le w rfl
          simp only [startsWindow, decide_eq_true_eq, gt_iff_lt, Nat.not_lt] at hstarts
          exact ⟨hstart.trans hle, by omega, h.count w rfl, h.older w rfl⟩

/-- The requests of the 15 minutes from `time` on were let through in the current
    window, if they reach up to now. -/
theorem Counts.within_le {w : RateWindow} (h : Counts limit tenantId w xs now) {time : ℕ}
    (hnow : now ≤ time + windowMs) :
    xs.countP (Arrival.within tenantId time) ≤ min w.count limit := by
  rw [← h.count]
  refine List.countP_mono_left fun x hx hwithin => ?_
  simp only [Arrival.within, Arrival.since, decide_eq_true_eq] at hwithin ⊢
  obtain ⟨⟨ht, hp, htime⟩, -⟩ := hwithin
  refine ⟨ht, hp, ?_⟩
  rcases h.older x hx ht hp with hin | hold
  · exact hin
  · have hstart := h.start_le
    omega

/-- A full window holds the requests of the last 15 minutes. -/
theorem Counts.le_recent {w : RateWindow} (h : Counts limit tenantId w xs now)
    (hfull : limit ≤ w.count) :
    limit ≤ xs.countP fun y => y.since tenantId 0 && decide (now ≤ y.time + windowMs) := by
  have hcount := h.count
  rw [Nat.min_eq_right hfull] at hcount
  refine hcount.symm.le.trans (List.countP_mono_left fun x hx hsince => ?_)
  have hend := h.le_end
  simp only [Arrival.since, decide_eq_true_eq, Bool.and_eq_true] at hsince ⊢
  exact ⟨⟨hsince.1, hsince.2.1, Nat.zero_le _⟩, by omega⟩

/-- The window after the request. -/
theorem Counts.knows {w : RateWindow} (h : Counts limit tenantId w xs now) {passed : Bool}
    (hpassed : passed = decide (w.count < limit)) :
    Knows limit tenantId (some { w with count := w.count + 1 }) (xs ++ [⟨tenantId, now, passed⟩])
      now := by
  refine ⟨fun hw => (by cases hw), fun w' hw => ?_, fun w' hw => ?_, fun w' hw x hx => ?_⟩
  all_goals obtain rfl := Option.some.inj hw
  · exact h.start_le
  · have hstart := h.start_le
    show _ = min (w.count + 1) limit
    rw [List.countP_append, h.count, List.countP_singleton]
    by_cases hlt : w.count < limit
    · rw [if_pos (by simp [Arrival.since, hpassed, hlt, hstart])]
      omega
    · rw [if_neg (by simp [Arrival.since, hpassed, hlt])]
      omega
  · rcases List.mem_append.mp hx with hx | hx
    · exact h.older x hx
    · rw [List.mem_singleton.mp hx]
      exact fun _ _ => .inl h.start_le

end Step

/-! ## The limit -/

theorem isPassed_rateLimit (limit : ℕ) (window : Option RateWindow) (now : ℕ) :
    (rateLimit limit window now).2.isPassed =
      decide ((currentWindow window now).count < limit) := by
  rw [rateLimit]
  dsimp only
  split
  · next hgt => simp [RateAnswer.isPassed, Nat.not_lt.mpr (Nat.lt_succ_iff.mp hgt)]
  · next hgt =>
      have hlt : (currentWindow window now).count < limit := by omega
      simp [RateAnswer.isPassed, hlt]

theorem window_rateLimit (limit : ℕ) (window : Option RateWindow) (now : ℕ) :
    (rateLimit limit window now).1 =
      { currentWindow window now with count := (currentWindow window now).count + 1 } := by
  rw [rateLimit]
  dsimp only
  split <;> rfl

/-- In every run whose windows start clean, the limit holds in every 15 minutes and
    no request is rejected early. -/
theorem sliding_limit {limit : Uuid → ℕ} {s : Limiter} {last : ℕ}
    (h : Limiter.Reach limit StartsClean s last) :
    LimitHolds limit s.arrivals ∧ NoEarlyRejection limit s.arrivals := by
  suffices hinv : (∀ tenantId, Knows (limit tenantId) tenantId (s.windows tenantId) s.arrivals last) ∧
      LimitHolds limit s.arrivals ∧ NoEarlyRejection limit s.arrivals from hinv.2
  induction h with
  | start =>
      refine ⟨fun tenantId => ⟨fun _ x hx => (by cases hx), fun w hw => (by cases hw),
        fun w hw => (by cases hw), fun w hw => (by cases hw)⟩, fun tenantId time => ?_,
        fun earlier x later heq => ?_⟩
      · exact Nat.zero_le _
      · cases earlier <;> cases heq
  | @arrive s last now tenantId hr hle hg ih =>
      obtain ⟨hknows, hlimit, hearly⟩ := ih
      have hcounts := (hknows tenantId).counts hle hg
      refine ⟨fun t => ?_, fun t time => ?_, fun earlier x later heq hx => ?_⟩
      · by_cases ht : t = tenantId
        · subst ht
          simp only [Limiter.arrive, if_true, window_rateLimit]
          exact hcounts.knows (isPassed_rateLimit _ _ _)
        · simp only [Limiter.arrive, if_neg ht]
          exact ((hknows t).mono hle).other (Ne.symm ht)
      · rw [Limiter.arrive, List.countP_append, List.countP_singleton]
        split
        · next hnew =>
            simp only [Arrival.within, Arrival.since, isPassed_rateLimit, decide_eq_true_eq] at hnew
            obtain ⟨⟨rfl, hlt, -⟩, hnow⟩ := hnew
            have hwithin := hcounts.within_le hnow
            omega
        · exact hlimit t time
      · obtain rfl | ⟨later, y, rfl⟩ := later.eq_nil_or_concat
        · obtain ⟨rfl, hnew⟩ := List.append_inj' heq rfl
          obtain rfl := (List.cons.inj hnew).1
          have hfull : limit tenantId ≤ (currentWindow (s.windows tenantId) now).count := by
            have hrejected : (rateLimit (limit tenantId) (s.windows tenantId) now).2.isPassed = false := hx
            simp only [isPassed_rateLimit, decide_eq_false_iff_not] at hrejected
            omega
          exact hcounts.le_recent hfull
        · rw [List.concat_eq_append, ← List.cons_append, ← List.append_assoc] at heq
          exact hearly earlier x later (List.append_inj' heq rfl).1 hx

/-! ### One window and its successor -/

def oneTenant : Uuid := .ofNat 1

/-- Requests of one tenant at the given times. -/
def arriveAll (limit : ℕ) (times : List ℕ) : Limiter :=
  times.foldl (fun s now => s.arrive (fun _ => limit) oneTenant now) .start

/-- One request and another one in the next window. -/
theorem sliding_limit_of_two : LimitHolds (fun _ => 1) (arriveAll 1 [0, 900001]).arrivals ∧
    NoEarlyRejection (fun _ => 1) (arriveAll 1 [0, 900001]).arrivals := by
  have hfirst : Limiter.Reach (fun _ => 1) StartsClean (arriveAll 1 [0]) 0 :=
    .arrive .start le_rfl fun _ x hx => by cases hx
  have hclean : StartsClean (arriveAll 1 [0]) oneTenant 900001 := by
    intro _ x hx _ _
    obtain rfl := List.mem_singleton.mp hx
    show 0 + 900000 < 900001
    omega
  have hsecond : Limiter.Reach (fun _ => 1) StartsClean (arriveAll 1 [0, 900001]) 900001 :=
    .arrive hfirst (Nat.zero_le _) hclean
  exact sliding_limit hsecond

/-- Two requests are allowed in 15 minutes; three are let through within one
    millisecond, when a window ends between them. -/
theorem burst_across_windows :
    Limiter.Reach (fun _ => 2) (fun _ _ _ => True) (arriveAll 2 [0, 900000, 900001, 900001]) 900001 ∧
      ¬ LimitHolds (fun _ => 2) (arriveAll 2 [0, 900000, 900001, 900001]).arrivals := by
  have hstep : ∀ {s : Limiter} {last : ℕ} (now : ℕ), Limiter.Reach (fun _ => 2)
      (fun _ _ _ => True) s last → last ≤ now →
      Limiter.Reach (fun _ => 2) (fun _ _ _ => True) (s.arrive (fun _ => 2) oneTenant now) now :=
    fun _ h hle => .arrive h hle trivial
  refine ⟨hstep 900001 (hstep 900001 (hstep 900000 (hstep 0 .start le_rfl) ?_) ?_) ?_,
    fun hlimit => ?_⟩
  · omega
  · omega
  · omega
  have hburst : (arriveAll 2 [0, 900000, 900001, 900001]).arrivals.countP
      (Arrival.within oneTenant 900000) ≤ 2 := hlimit oneTenant 900000
  have hthree : (arriveAll 2 [0, 900000, 900001, 900001]).arrivals.countP
      (Arrival.within oneTenant 900000) = 3 := by
    rfl
  omega

end ZeroAuth.Limits
