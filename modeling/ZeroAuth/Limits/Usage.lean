/-
  ZeroAuth.Limits.Usage

  Usage metering: `logApiCall`, `getCurrentMonthUsage` and `checkQuota` of
  src/services/usage.ts over the table `usage_monthly`.

  The upsert names `total_requests` next to the column of the endpoint's kind.
  An endpoint of no kind gets `total_requests` twice, which Postgres rejects, and
  the error is swallowed: such calls are not counted (`usage_counts_calls_iff`).
-/

import ZeroAuth.Js.Text
import ZeroAuth.Pg.Columns

namespace ZeroAuth.Limits

open ZeroAuth.Js ZeroAuth.Pg

/-! ## The table -/

/-- The counters of a row of `usage_monthly`. -/
inductive UsageColumn
  | totalRequests
  | zkpVerifications
  | zkpRegistrations
  | samlAuths
  | oidcAuths
  deriving DecidableEq

/-- A row; the month is that of its first day. -/
structure UsageMonthly where
  tenantId : Uuid
  month : ℤ
  counts : UsageColumn → ℕ

/-- The largest INT. -/
def maxInt : ℕ := 2 ^ 31 - 1

/-- `INSERT INTO usage_monthly (tenant_id, month, columns…) VALUES ($1, …, 1, …)
    ON CONFLICT (tenant_id, month) DO UPDATE SET increments = … + 1`. -/
structure UpsertMonthly where
  tenantId : Uuid
  columns : List UsageColumn
  increments : List UsageColumn

def UsageMonthly.is (tenantId : Uuid) (month : ℤ) (r : UsageMonthly) : Bool :=
  r.tenantId = tenantId ∧ r.month = month

def UsageMonthly.bump (cs : List UsageColumn) (r : UsageMonthly) : UsageMonthly :=
  { r with counts := fun c => if c ∈ cs then r.counts c + 1 else r.counts c }

/-- The statement in a month; `none` is an error: a column is named twice, or a
    counter would leave its range. -/
def UpsertMonthly.exec (s : UpsertMonthly) (month : ℤ) (table : List UsageMonthly) :
    Option (List UsageMonthly) :=
  if ¬ s.columns.Nodup ∨ ¬ s.increments.Nodup then none
  else
    match table.find? (UsageMonthly.is s.tenantId month) with
    | none => some (table ++ [⟨s.tenantId, month, fun c => if c ∈ s.columns then 1 else 0⟩])
    | some r =>
        if s.increments.any fun c => r.counts c + 1 > maxInt then none
        else some (table.map fun r =>
          if r.is s.tenantId month then r.bump s.increments else r)

/-! ## Logging a call -/

structure ApiCall where
  tenantId : Uuid
  apiKeyId : Option Uuid
  endpoint : JsString
  method : JsString
  statusCode : ℕ
  responseTimeMs : ℕ
  ipAddress : Option JsString
  userAgent : Option JsString

/-- The column of an endpoint. -/
def usageColumn (cm : CaseMapping) (endpoint : JsString) : UsageColumn :=
  let lower := cm.toLowerCase endpoint
  if includes lower (js "/zkp/verify") then .zkpVerifications
  else if includes lower (js "/zkp/register") then .zkpRegistrations
  else if includes lower (js "/saml/") then .samlAuths
  else if includes lower (js "/oidc/") then .oidcAuths
  else .totalRequests

/-- The upsert that a call sends. -/
def logApiCall (cm : CaseMapping) (call : ApiCall) : UpsertMonthly :=
  let column := usageColumn cm call.endpoint
  ⟨call.tenantId, [.totalRequests, column], [.totalRequests, column]⟩

/-- An upsert carried out; `.catch(() => {})` swallows its error. -/
def applyUpsert (table : List UsageMonthly) (s : UpsertMonthly × ℤ) : List UsageMonthly :=
  (s.1.exec s.2 table).getD table

/-! ## Reading the counters -/

def getUsage (column : UsageColumn) (tenantId : Uuid) (month : ℤ) (table : List UsageMonthly) : ℕ :=
  ((table.find? (UsageMonthly.is tenantId month)).map fun r => r.counts column).getD 0

def getCurrentMonthUsage (tenantId : Uuid) (month : ℤ) (table : List UsageMonthly) : ℕ :=
  getUsage .totalRequests tenantId month table

structure QuotaCheck where
  allowed : Bool
  used : ℕ
  limit : ℤ

def checkQuota (tenantId : Uuid) (monthlyQuota month : ℤ) (table : List UsageMonthly) :
    QuotaCheck :=
  if monthlyQuota = -1 then ⟨true, 0, -1⟩
  else
    let used := getCurrentMonthUsage tenantId month table
    ⟨used < monthlyQuota, used, monthlyQuota⟩

/-! ## One upsert -/

section Step

variable {cm : CaseMapping} {table : List UsageMonthly} {tenantId : Uuid} {month : ℤ}

/-- `total_requests` twice. -/
theorem applyUpsert_uncounted {call : ApiCall} {month' : ℤ}
    (h : usageColumn cm call.endpoint = .totalRequests) :
    applyUpsert table (logApiCall cm call, month') = table := by
  have hnone : (logApiCall cm call).exec month' table = none := by
    simp [UpsertMonthly.exec, logApiCall, h]
  rw [applyUpsert, hnone, Option.getD_none]

/-- The row of another tenant or month. -/
theorem getUsage_applyUpsert_of_ne {s : UpsertMonthly} {month' : ℤ}
    (h : ¬ (s.tenantId = tenantId ∧ month' = month)) (column : UsageColumn) :
    getUsage column tenantId month (applyUpsert table (s, month')) =
      getUsage column tenantId month table := by
  rw [applyUpsert]
  unfold UpsertMonthly.exec
  split
  · rfl
  · split
    · rw [Option.getD_some, getUsage, List.find?_append, List.find?_singleton]
      -- a new row is not the one asked for
      have hnew : UsageMonthly.is tenantId month
          ⟨s.tenantId, month', fun c => if c ∈ s.columns then 1 else 0⟩ = false :=
        decide_eq_false h
      rw [if_neg (by rw [hnew]; exact Bool.false_ne_true), Option.or_none, getUsage]
    · split
      · rfl
      · have hsame : ∀ r : UsageMonthly, (if r.is s.tenantId month' then r.bump s.increments
            else r).is tenantId month = r.is tenantId month := by
          intro r
          split <;> rfl
        rw [Option.getD_some, getUsage, getUsage, List.find?_map]
        simp only [Function.comp_def, hsame]
        cases hfind : table.find? (UsageMonthly.is tenantId month) with
        | none => rfl
        | some r =>
            have his := List.find?_some hfind
            -- nor is the row that is bumped
            have hother : ¬ r.is s.tenantId month' = true := by
              intro his'
              simp only [UsageMonthly.is, decide_eq_true_eq] at his his'
              exact h ⟨his'.1.symm.trans his.1, his'.2.symm.trans his.2⟩
            rw [Option.map_some, if_neg hother]

/-- An upsert that Postgres accepts: its columns grow, unless one of them has
    reached the end of its range. -/
theorem getUsage_applyUpsert {s : UpsertMonthly} (hnodup : s.columns.Nodup)
    (hsame : s.increments = s.columns) (column : UsageColumn) :
    getUsage column s.tenantId month (applyUpsert table (s, month)) =
      if (∀ c ∈ s.columns, getUsage c s.tenantId month table < maxInt) ∧ column ∈ s.columns then
        getUsage column s.tenantId month table + 1
      else getUsage column s.tenantId month table := by
  -- no column is named twice, so Postgres takes the statement
  have hvalid : ¬ (¬ s.columns.Nodup ∨ ¬ s.increments.Nodup) := by simp [hsame, hnodup]
  rw [applyUpsert, UpsertMonthly.exec, if_neg hvalid]
  cases hfind : table.find? (UsageMonthly.is s.tenantId month) with
  | none =>
      have hzero : ∀ column, getUsage column s.tenantId month table = 0 := by
        intro column
        rw [getUsage, hfind]
        rfl
      have hnew : UsageMonthly.is s.tenantId month
          ⟨s.tenantId, month, fun c => if c ∈ s.columns then 1 else 0⟩ = true := by
        simp [UsageMonthly.is]
      have hpos : 0 < maxInt := by decide
      rw [Option.getD_some, getUsage, List.find?_append, hfind, Option.none_or,
        List.find?_singleton, if_pos hnew, Option.map_some, Option.getD_some]
      simp only [hzero, hpos, implies_true, true_and, Nat.zero_add]
  | some r =>
      have hcount : ∀ column, getUsage column s.tenantId month table = r.counts column := by
        intro column
        rw [getUsage, hfind]
        rfl
      simp only [hcount, hsame, List.any_eq_true, decide_eq_true_eq]
      by_cases hlt : ∀ c ∈ s.columns, r.counts c < maxInt
      · -- every column has room: the row is bumped
        have hroom : ¬ ∃ c, c ∈ s.columns ∧ r.counts c + 1 > maxInt := by
          rintro ⟨c, hc, hgt⟩
          have hltc := hlt c hc
          omega
        have hkeep : ∀ r : UsageMonthly, (if r.is s.tenantId month then r.bump s.columns
            else r).is s.tenantId month = r.is s.tenantId month := by
          intro r
          split <;> rfl
        rw [if_neg hroom, Option.getD_some, getUsage, List.find?_map]
        simp only [Function.comp_def, hkeep]
        rw [hfind, Option.map_some, if_pos (List.find?_some hfind), Option.map_some,
          Option.getD_some, UsageMonthly.bump]
        dsimp only
        by_cases hc : column ∈ s.columns
        · rw [if_pos hc, if_pos ⟨hlt, hc⟩]
        · rw [if_neg hc, if_neg fun h => hc h.2]
      · -- one is at the end of its range: the whole statement fails
        have hfull : ∃ c, c ∈ s.columns ∧ r.counts c + 1 > maxInt := by
          by_contra hnone
          refine hlt fun c hc => ?_
          by_contra hge
          exact hnone ⟨c, hc, by omega⟩
        rw [if_pos hfull, Option.getD_none, hcount, if_neg fun h => hlt h.1]

end Step

/-! ## Any number of calls -/

section Runs

variable {cm : CaseMapping} {tenantId : Uuid} {month : ℤ}

/-- The upserts of the calls, each in the month in which it is carried out. -/
def meter (cm : CaseMapping) (calls : List (ApiCall × ℤ)) (table : List UsageMonthly) :
    List UsageMonthly :=
  (calls.map fun x => (logApiCall cm x.1, x.2)).foldl applyUpsert table

/-- A call of the tenant in the month. -/
def ownCall (tenantId : Uuid) (month : ℤ) (x : ApiCall × ℤ) : Bool :=
  x.1.tenantId = tenantId ∧ x.2 = month

/-- A call of the tenant in the month whose endpoint has this column. -/
def ownKind (cm : CaseMapping) (tenantId : Uuid) (month : ℤ) (column : UsageColumn)
    (x : ApiCall × ℤ) : Bool :=
  ownCall tenantId month x ∧ usageColumn cm x.1.endpoint = column

/-- A call that is counted. -/
def counted (cm : CaseMapping) (tenantId : Uuid) (month : ℤ) (x : ApiCall × ℤ) : Bool :=
  ownCall tenantId month x ∧ usageColumn cm x.1.endpoint ≠ .totalRequests

/-- The counters after the calls `done`: the total stops at the end of its range,
    and the other columns are exact as long as it has not stopped. -/
structure Metered (cm : CaseMapping) (tenantId : Uuid) (month : ℤ) (done : List (ApiCall × ℤ))
    (table : List UsageMonthly) : Prop where
  total : getUsage .totalRequests tenantId month table =
    min (done.countP (counted cm tenantId month)) maxInt
  le_total : ∀ column, getUsage column tenantId month table ≤
    getUsage .totalRequests tenantId month table
  kinds : done.countP (counted cm tenantId month) ≤ maxInt → ∀ column, column ≠ .totalRequests →
    getUsage column tenantId month table = done.countP (ownKind cm tenantId month column)

theorem Metered.step {done : List (ApiCall × ℤ)} {table : List UsageMonthly} (x : ApiCall × ℤ)
    (h : Metered cm tenantId month done table) :
    Metered cm tenantId month (done ++ [x]) (applyUpsert table (logApiCall cm x.1, x.2)) := by
  obtain ⟨call, month'⟩ := x
  have hcount : ∀ p : ApiCall × ℤ → Bool, (done ++ [(call, month')]).countP p =
      done.countP p + if p (call, month') then 1 else 0 := by
    intro p
    rw [List.countP_append, List.countP_singleton]
  -- what the upsert leaves as it is
  have hkeep : (∀ column, getUsage column tenantId month (applyUpsert table (logApiCall cm call, month')) =
        getUsage column tenantId month table) →
      (∀ column, column ≠ .totalRequests →
        ownKind cm tenantId month column (call, month') = false) →
      counted cm tenantId month (call, month') = false →
      Metered cm tenantId month (done ++ [(call, month')])
        (applyUpsert table (logApiCall cm call, month')) := by
    intro hsame hkind hcounted
    refine ⟨?_, fun column => ?_, fun hle column hne => ?_⟩
    · rw [hsame, hcount, hcounted, if_neg Bool.false_ne_true, Nat.add_zero]
      exact h.total
    · rw [hsame, hsame]
      exact h.le_total column
    · rw [hcount, hcounted, if_neg Bool.false_ne_true, Nat.add_zero] at hle
      rw [hsame, hcount, hkind column hne, if_neg Bool.false_ne_true, Nat.add_zero]
      exact h.kinds hle column hne
  by_cases hown : call.tenantId = tenantId ∧ month' = month
  · obtain ⟨rfl, rfl⟩ := hown
    by_cases hkind : usageColumn cm call.endpoint = .totalRequests
    · refine hkeep (fun column => ?_) (fun column hne => ?_) ?_
      · rw [applyUpsert_uncounted hkind]
      · simp [ownKind, hkind, Ne.symm hne]
      · simp [counted, hkind]
    · have hnodup : (logApiCall cm call).columns.Nodup := by simp [logApiCall, Ne.symm hkind]
      have hcounted : counted cm call.tenantId month' (call, month') = true := by
        simp [counted, ownCall, hkind]
      have hroom : (∀ c ∈ (logApiCall cm call).columns,
          getUsage c call.tenantId month' table < maxInt) ↔
          getUsage .totalRequests call.tenantId month' table < maxInt := by
        constructor
        · intro hall
          exact hall _ (by simp [logApiCall])
        · intro hlt c _
          exact lt_of_le_of_lt (h.le_total c) hlt
      have hstep : ∀ column, getUsage column call.tenantId month'
          (applyUpsert table (logApiCall cm call, month')) =
          if getUsage .totalRequests call.tenantId month' table < maxInt ∧
            (column = .totalRequests ∨ column = usageColumn cm call.endpoint) then
            getUsage column call.tenantId month' table + 1
          else getUsage column call.tenantId month' table := by
        intro column
        have hmem : column ∈ (logApiCall cm call).columns ↔
            column = .totalRequests ∨ column = usageColumn cm call.endpoint := by
          simp [logApiCall]
        exact (getUsage_applyUpsert hnodup rfl column).trans
          (if_congr (and_congr hroom hmem) rfl rfl)
      have htotal := h.total
      have hstepTotal := hstep .totalRequests
      simp only [true_or, and_true] at hstepTotal
      refine ⟨?_, fun column => ?_, fun hle column hne => ?_⟩
      · rw [hstepTotal, hcount, hcounted, if_pos rfl]
        split <;> omega
      · have hle := h.le_total column
        rw [hstepTotal, hstep]
        split
        · next hlt =>
            rw [if_pos hlt.1]
            omega
        · split <;> omega
      · rw [hcount, hcounted, if_pos rfl] at hle
        have hkinds := h.kinds (by omega) column hne
        rw [hstep, hcount]
        by_cases heq : column = usageColumn cm call.endpoint
        · have hown : ownKind cm call.tenantId month' column (call, month') = true := by
            simp [ownKind, ownCall, heq]
          rw [hown, if_pos rfl, if_pos ⟨by omega, .inr heq⟩, hkinds]
        · have hown : ownKind cm call.tenantId month' column (call, month') = false := by
            simp [ownKind, ownCall, Ne.symm heq]
          rw [hown, if_neg Bool.false_ne_true, if_neg fun h => h.2.elim hne heq, hkinds]
          rfl
  · refine hkeep (getUsage_applyUpsert_of_ne hown) (fun column _ => ?_) ?_
    · simp [ownKind, ownCall, hown]
    · simp [counted, ownCall, hown]

theorem metered_meter {table : List UsageMonthly} (hnew : table.find? (UsageMonthly.is tenantId month) = none)
    (calls : List (ApiCall × ℤ)) : Metered cm tenantId month calls (meter cm calls table) := by
  induction calls using List.reverseRecOn with
  | nil =>
      have hzero : ∀ column, getUsage column tenantId month (meter cm [] table) = 0 := by
        intro column
        rw [meter, List.map_nil, List.foldl_nil, getUsage, hnew]
        rfl
      exact ⟨by simp [hzero], by simp [hzero], by simp [hzero]⟩
  | append_singleton calls x ih =>
      have hmeter : meter cm (calls ++ [x]) table =
          applyUpsert (meter cm calls table) (logApiCall cm x.1, x.2) := by
        simp [meter]
      rw [hmeter]
      exact ih.step x

/-! ## Which calls are counted -/

/-- The counters are those of all calls `calls` of the tenant in the month, and the
    quota stops the tenant when they have reached it. -/
def CountsEvery (cm : CaseMapping) (tenantId : Uuid) (month : ℤ) (calls : List (ApiCall × ℤ))
    (table : List UsageMonthly) : Prop :=
  getCurrentMonthUsage tenantId month table = calls.countP (ownCall tenantId month) ∧
  (∀ column, column ≠ .totalRequests → getUsage column tenantId month table =
    calls.countP (ownKind cm tenantId month column)) ∧
  ∀ quota : ℤ, 0 ≤ quota → quota ≤ calls.countP (ownCall tenantId month) →
    (checkQuota tenantId quota month table).allowed = false

/-- Every call is counted, in whichever order the upserts are carried out, exactly
    when no call of the tenant in the month has an endpoint of no kind, and the
    calls are not more than an INT holds. -/
theorem usage_counts_calls_iff (cm : CaseMapping) (tenantId : Uuid) (month : ℤ)
    (calls applied : List (ApiCall × ℤ)) (horder : applied.Perm calls) (table : List UsageMonthly)
    (hnew : table.find? (UsageMonthly.is tenantId month) = none) :
    CountsEvery cm tenantId month calls (meter cm applied table) ↔
      (∀ x ∈ calls, ownCall tenantId month x = true →
        usageColumn cm x.1.endpoint ≠ .totalRequests) ∧
      calls.countP (ownCall tenantId month) ≤ maxInt := by
  -- the counters, however the upserts were ordered
  have hmetered : Metered cm tenantId month applied (meter cm applied table) :=
    metered_meter hnew applied
  have htotal := hmetered.total
  have hkinds := hmetered.kinds
  simp only [horder.countP_eq] at htotal hkinds
  have himp : ∀ x ∈ calls, counted cm tenantId month x = true → ownCall tenantId month x = true := by
    intro x _ hx
    simp only [counted, decide_eq_true_eq] at hx
    exact hx.1
  have hle := List.countP_mono_left himp
  -- a call is counted twice over exactly if its endpoint has a kind
  have hall : calls.countP (counted cm tenantId month) = calls.countP (ownCall tenantId month) ↔
      ∀ x ∈ calls, ownCall tenantId month x = true →
        usageColumn cm x.1.endpoint ≠ .totalRequests := by
    have hfilter : calls.countP (counted cm tenantId month) =
        (calls.filter (ownCall tenantId month)).countP
          fun x => usageColumn cm x.1.endpoint ≠ .totalRequests := by
      rw [List.countP_filter]
      refine List.countP_congr fun x _ => ?_
      simp [counted, and_comm]
    rw [hfilter, List.countP_eq_length_filter (p := ownCall tenantId month), List.countP_eq_length]
    simp only [List.mem_filter, decide_eq_true_eq, and_imp]
  constructor
  · rintro ⟨husage, -, -⟩
    rw [getCurrentMonthUsage, htotal] at husage
    exact ⟨hall.mp (by omega), by omega⟩
  · rintro ⟨hknown, hint⟩
    have heq := hall.mpr hknown
    have husage : getCurrentMonthUsage tenantId month (meter cm applied table) =
        calls.countP (ownCall tenantId month) := by
      rw [getCurrentMonthUsage, htotal]
      omega
    refine ⟨husage, hkinds (by omega), fun quota hquota hreached => ?_⟩
    rw [checkQuota, if_neg (by omega)]
    simp only [husage, decide_eq_false_iff_not]
    omega

end Runs

/-! ### A few calls -/

def callBy (tenantId : ℕ) (endpoint : JsString) : ApiCall :=
  ⟨.ofNat tenantId, none, endpoint, js "POST", 200, 12, none, none⟩

def callTo (endpoint : JsString) : ApiCall := callBy 1 endpoint

/-- Two verifications and a registration of the tenant, a call of another one and a
    verification of the month before. -/
def fewCalls : List (ApiCall × ℤ) :=
  [(callTo (js "/v1/zkp/verify"), 660), (callTo (js "/v1/zkp/register"), 660),
    (callBy 2 (js "/v1/devices"), 660), (callTo (js "/v1/ZKP/Verify"), 660),
    (callTo (js "/v1/zkp/verify"), 659)]

/-- They are all counted, also where they are written in the reverse order. -/
theorem usage_counts_calls_iff_of_few :
    CountsEvery .ascii ⟨1, by decide⟩ 660 fewCalls (meter .ascii fewCalls.reverse []) := by
  refine (usage_counts_calls_iff _ _ _ _ _ (List.reverse_perm _) [] rfl).mpr ⟨?_, by decide⟩
  simp only [fewCalls, List.forall_mem_cons]
  decide

/-- A request for the devices is not. -/
theorem devices_call_uncounted : ¬ CountsEvery .ascii ⟨1, by decide⟩ 660
    [(callTo (js "/v1/devices"), 660)] (meter .ascii [(callTo (js "/v1/devices"), 660)] []) := by
  rintro ⟨husage, -, -⟩
  have hzero : getCurrentMonthUsage ⟨1, by decide⟩ 660
      (meter .ascii [(callTo (js "/v1/devices"), 660)] []) = 0 := by
    rfl
  rw [hzero] at husage
  cases husage

end ZeroAuth.Limits
