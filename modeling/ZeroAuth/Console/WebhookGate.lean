/-
  ZeroAuth.Console.WebhookGate

  What `POST /webhooks` accepts and what it refuses for the host of the URL
  (src/routes/console-webhooks.ts).

  The gate refuses internal hosts and only those exactly when the host is one that `Fits`
  (`gate_iff`).
-/

import ZeroAuth.Console.WebhookHosts

namespace ZeroAuth.Console

open ZeroAuth.Js ZeroAuth.Lib

/-! ## The request -/

section Post

variable (cm : CaseMapping) (parse : JsString → Option Url)

/-- Some request with this URL is answered with 201. -/
def Accepted (u : JsString) : Prop :=
  ∃ db req row, req.url = some (.str u) ∧ (postWebhook cm parse db req).2 = .ok row

/-- Some request with this URL is refused for the host of the URL. -/
def RefusedForHost (u : JsString) : Prop :=
  ∃ db req reason, req.url = some (.str u) ∧ reason ∈ [blockedReason, privateReason] ∧
    (postWebhook cm parse db req).2 = .error ⟨400, js "invalid_url", reason⟩

variable {cm : CaseMapping} {parse : JsString → Option Url} {u : JsString} {url : Url}

theorem isAllowed_web {raw : JsString} (hparse : parse raw = some url) (hweb : url.IsWeb) :
    isAllowedWebhookUrl cm parse raw =
      if url.host.text ∈ blockedExact then .error blockedReason
      else if isPrivate url.host.text then .error privateReason
      else .ok () := by
  have hprotocol : ¬ (url.protocol ≠ js "https:" ∧ url.protocol ≠ js "http:") := by
    rintro ⟨hs, hh⟩
    unfold Url.protocol at hs hh
    rcases hweb with h | h
    · exact hh (by rw [h]; decide)
    · exact hs (by rw [h]; decide)
  unfold isAllowedWebhookUrl
  rw [hparse]
  show (if url.protocol ≠ js "https:" ∧ url.protocol ≠ js "http:" then _ else _) = _
  rw [if_neg hprotocol, url.lower_hostname cm hweb]

/-- Only web URLs pass. -/
theorem isWeb_of_isAllowed {raw : JsString} (h : isAllowedWebhookUrl cm parse raw = .ok ()) :
    ∃ url, parse raw = some url ∧ url.IsWeb := by
  unfold isAllowedWebhookUrl at h
  cases hparse : parse raw with
  | none =>
    rw [hparse] at h
    cases h
  | some url =>
    rw [hparse] at h
    by_cases hprotocol : url.protocol ≠ js "https:" ∧ url.protocol ≠ js "http:"
    · replace h : (if url.protocol ≠ js "https:" ∧ url.protocol ≠ js "http:" then _ else _) = _ := h
      rw [if_pos hprotocol] at h
      cases h
    · refine ⟨url, rfl, ?_⟩
      have hcolon : js ":" = [58] := by decide
      have hs : js "https:" = js "https" ++ [58] := by decide
      have hh : js "http:" = js "http" ++ [58] := by decide
      unfold Url.protocol at hprotocol
      rw [hcolon, hs, hh, Ne, Ne, List.append_left_inj, List.append_left_inj] at hprotocol
      by_cases hhttp : url.scheme = js "http"
      · exact Or.inl hhttp
      · exact Or.inr (by_contra fun hhttps => hprotocol ⟨hhttps, hhttp⟩)

/-- A URL that reaches the gate. -/
def ReachesGate (u : JsString) : Prop := trim u ≠ [] ∧ u.length ≤ MAX_URL_LENGTH

theorem checkUrl_reached (h : ReachesGate u) :
    checkUrl cm parse (some (.str u)) =
      match isAllowedWebhookUrl cm parse (trim u) with
      | .error reason => .error ⟨400, js "invalid_url", reason⟩
      | .ok () => .ok (trim u) := by
  unfold checkUrl
  show (if trim u = [] then _ else _) = _
  exact (if_neg h.1).trans (if_neg (Nat.not_lt.mpr h.2))

/-- Only those URLs are accepted. -/
theorem reaches_of_checkUrl {x : JsString} (h : checkUrl cm parse (some (.str u)) = .ok x) :
    ReachesGate u := by
  unfold checkUrl at h
  replace h : (if trim u = [] then _ else if MAX_URL_LENGTH < u.length then _ else _) = _ := h
  constructor
  · intro hempty
    rw [if_pos hempty] at h
    cases h
  · by_contra hlong
    split at h
    · cases h
    · rw [if_pos (Nat.not_le.mp hlong)] at h
      cases h

theorem postWebhook_snd (db : WebhookDb) (req : WebhookRequest) :
    (postWebhook cm parse db req).2 = newWebhook cm parse db req := by
  unfold postWebhook
  cases newWebhook cm parse db req <;> rfl

/-- Everything but the URL can be in order. -/
theorem accepted_iff : Accepted cm parse u ↔ ∃ x, checkUrl cm parse (some (.str u)) = .ok x := by
  constructor
  · rintro ⟨db, req, row, hurl, h⟩
    rw [postWebhook_snd] at h
    unfold newWebhook at h
    rw [hurl] at h
    cases hcheck : checkUrl cm parse (some (.str u)) with
    | error e =>
      rw [hcheck] at h
      cases h
    | ok x => exact ⟨x, rfl⟩
  · rintro ⟨x, hcheck⟩
    let req : WebhookRequest :=
      { tenantId := [], url := some (.str u), eventFilter := some (.arr [.str (js "*")])
        enabled := none, description := none, environment := none, queryEnvironment := none }
    refine ⟨⟨[], [], false, false⟩, req, ⟨[], .live, x, [], .arr [.str (js "*")], true, none⟩, rfl, ?_⟩
    have hfilter : checkEventFilter req.eventFilter = .ok (.arr [.str (js "*")]) := rfl
    rw [postWebhook_snd]
    unfold newWebhook
    rw [hcheck, hfilter]
    rfl

theorem checkEventFilter_error {v : Option Json} {e : Refusal}
    (h : checkEventFilter v = .error e) : e.error = js "invalid_event_filter" := by
  unfold checkEventFilter at h
  split at h <;> cases h
  rfl

theorem checkEnabled_error {v : Option Json} {e : Refusal} (h : checkEnabled v = .error e) :
    e.error = js "invalid_request" := by
  unfold checkEnabled at h
  split at h <;> cases h
  rfl

theorem checkDescription_error {v : Option Json} {e : Refusal}
    (h : checkDescription v = .error e) : e.error = js "invalid_request" := by
  unfold checkDescription at h
  split at h
  · cases h
  · split at h <;> cases h
    rfl
  · cases h
    rfl

/-- The later checks answer with other errors. -/
theorem newWebhook_error {db : WebhookDb} {req : WebhookRequest} {e : Refusal}
    (h : newWebhook cm parse db req = .error e) (he : e.error = js "invalid_url") :
    checkUrl cm parse req.url = .error e := by
  -- each of the later refusals has an error of its own
  have hother : ∀ {e' : Refusal} {s : JsString}, e'.error = s → s ≠ js "invalid_url" → e' ≠ e := by
    rintro e' s hs hne rfl
    exact hne (hs ▸ he)
  unfold newWebhook at h
  cases hcheck : checkUrl cm parse req.url with
  | error e' =>
    rw [hcheck] at h
    cases h
    rfl
  | ok url =>
    rw [hcheck] at h
    cases hfilter : checkEventFilter req.eventFilter with
    | error e' =>
      rw [hfilter] at h
      exact absurd (Except.error.inj h) (hother (checkEventFilter_error hfilter) (by decide))
    | ok eventFilter =>
    cases henabled : checkEnabled req.enabled with
    | error e' =>
      rw [hfilter, henabled] at h
      exact absurd (Except.error.inj h) (hother (checkEnabled_error henabled) (by decide))
    | ok enabled =>
    cases hdescription : checkDescription req.description with
    | error e' =>
      rw [hfilter, henabled, hdescription] at h
      exact absurd (Except.error.inj h) (hother (checkDescription_error hdescription) (by decide))
    | ok description =>
    rw [hfilter, henabled, hdescription] at h
    -- what is left is the database: the count, the limit and the insert
    have hcreate : createFailed.error = js "webhook_create_failed" := rfl
    have hlimit : limitReached.error = js "webhook_limit_reached" := rfl
    replace h : (if db.countFails = true then Except.error createFailed
      else if MAX_WEBHOOKS_PER_ENV ≤ _ then Except.error limitReached
      else if db.insertFails = true then Except.error createFailed
      else Except.ok _) = Except.error e := h
    split_ifs at h
    · exact absurd (Except.error.inj h) (hother hcreate (by decide))
    · exact absurd (Except.error.inj h) (hother hlimit (by decide))
    · exact absurd (Except.error.inj h) (hother hcreate (by decide))

/-- The gate's reasons are told apart from every other answer. -/
theorem refusedForHost_iff : RefusedForHost cm parse u ↔
    ∃ reason ∈ [blockedReason, privateReason],
      checkUrl cm parse (some (.str u)) = .error ⟨400, js "invalid_url", reason⟩ := by
  constructor
  · rintro ⟨db, req, reason, hurl, hreason, h⟩
    rw [postWebhook_snd] at h
    exact ⟨reason, hreason, hurl ▸ newWebhook_error h rfl⟩
  · rintro ⟨reason, hreason, hcheck⟩
    let req : WebhookRequest :=
      { tenantId := [], url := some (.str u), eventFilter := none, enabled := none
        description := none, environment := none, queryEnvironment := none }
    refine ⟨⟨[], [], false, false⟩, req, reason, rfl, hreason, ?_⟩
    rw [postWebhook_snd]
    unfold newWebhook
    rw [hcheck]
    rfl

/-- A refusal for the host is one by the gate. -/
theorem reaches_of_refused {reason : JsString} (hreason : reason ∈ [blockedReason, privateReason])
    (h : checkUrl cm parse (some (.str u)) = .error ⟨400, js "invalid_url", reason⟩) :
    ReachesGate u := by
  unfold checkUrl at h
  replace h : (if trim u = [] then _ else if MAX_URL_LENGTH < u.length then _ else _) = _ := h
  have hrequest : js "invalid_request" ≠ js "invalid_url" := by decide
  have hlength : ∀ r ∈ [blockedReason, privateReason],
      js "url must be " ++ numText 10 MAX_URL_LENGTH ++ js " chars or fewer" ≠ r := by decide
  constructor
  · intro hempty
    rw [if_pos hempty] at h
    exact hrequest (congrArg Refusal.error (Except.error.inj h))
  · by_contra hlong
    split at h
    next => exact hrequest (congrArg Refusal.error (Except.error.inj h))
    next =>
      rw [if_pos (Nat.not_le.mp hlong)] at h
      exact hlength reason hreason (congrArg Refusal.message (Except.error.inj h))

/-- The outcome for a web URL. -/
theorem checkUrl_web (hreach : ReachesGate u) (hparse : parse (trim u) = some url)
    (hweb : url.IsWeb) :
    (¬ Blocked url.host.text ∧ checkUrl cm parse (some (.str u)) = .ok (trim u)) ∨
      (Blocked url.host.text ∧ ∃ reason ∈ [blockedReason, privateReason],
        checkUrl cm parse (some (.str u)) = .error ⟨400, js "invalid_url", reason⟩) := by
  rw [checkUrl_reached hreach, isAllowed_web hparse hweb]
  by_cases hexact : url.host.text ∈ blockedExact
  · rw [if_pos hexact]
    exact Or.inr ⟨Or.inl hexact, blockedReason, by simp, rfl⟩
  · rw [if_neg hexact]
    by_cases hprivate : isPrivate url.host.text = true
    · rw [if_pos hprivate]
      exact Or.inr ⟨Or.inr hprivate, privateReason, by simp, rfl⟩
    · rw [if_neg hprivate]
      exact Or.inl ⟨fun h => h.elim hexact hprivate, rfl⟩

theorem accepted_iff_not_blocked (hreach : ReachesGate u) (hparse : parse (trim u) = some url)
    (hweb : url.IsWeb) : Accepted cm parse u ↔ ¬ Blocked url.host.text := by
  rw [accepted_iff]
  rcases @checkUrl_web cm parse u url hreach hparse hweb with ⟨hfree, h⟩ | ⟨hblocked, reason, -, h⟩
  · exact ⟨fun _ => hfree, fun _ => ⟨_, h⟩⟩
  · rw [h]
    refine ⟨?_, fun hfree => absurd hblocked hfree⟩
    rintro ⟨x, hx⟩
    cases hx

theorem refusedForHost_iff_blocked (hreach : ReachesGate u) (hparse : parse (trim u) = some url)
    (hweb : url.IsWeb) : RefusedForHost cm parse u ↔ Blocked url.host.text := by
  rw [refusedForHost_iff]
  rcases @checkUrl_web cm parse u url hreach hparse hweb with ⟨hfree, h⟩ | ⟨hblocked, hreason⟩
  · rw [h]
    refine ⟨?_, fun hblocked => absurd hblocked hfree⟩
    rintro ⟨reason, -, hx⟩
    cases hx
  · exact ⟨fun _ => hblocked, fun _ => hreason⟩

/-- What is wanted of `POST /webhooks` for one text. -/
structure GateRight (cm : CaseMapping) (parse : JsString → Option Url) (u : JsString) : Prop where
  external : Accepted cm parse u →
    ∃ url, parse (trim u) = some url ∧ url.IsWeb ∧ ¬ InternalHost url.host
  names : ∀ url d, parse (trim u) = some url → url.IsWeb → url.host = .domain d →
    ¬ NamedHost d → ¬ RefusedForHost cm parse u

/-- The gate refuses internal hosts and only those when the host is none that it overlooks or
    takes for a private address. -/
theorem gate_iff (cm : CaseMapping) (parse : JsString → Option Url) (u : JsString) :
    GateRight cm parse u ↔
      (ReachesGate u → ∀ url, parse (trim u) = some url → url.IsWeb → Fits url.host) := by
  constructor
  · intro h hreach url hparse hweb
    rw [fits_iff (url.web hweb)]
    constructor
    · intro hinternal
      -- an internal host that is not blocked would be accepted
      by_contra hblocked
      obtain ⟨url', hparse', -, hexternal⟩ :=
        h.external ((accepted_iff_not_blocked hreach hparse hweb).mpr hblocked)
      rw [hparse] at hparse'
      cases hparse'
      exact hexternal hinternal
    · intro d hd hnamed hblocked
      exact h.names url d hparse hweb hd hnamed
        ((refusedForHost_iff_blocked hreach hparse hweb).mpr hblocked)
  · intro h
    constructor
    · intro haccepted
      obtain ⟨x, hcheck⟩ := accepted_iff.mp haccepted
      have hreach := reaches_of_checkUrl hcheck
      rw [checkUrl_reached hreach] at hcheck
      -- what is accepted has passed the gate, and was parsed there
      have hallowed : isAllowedWebhookUrl cm parse (trim u) = .ok () := by
        cases hgate : isAllowedWebhookUrl cm parse (trim u) with
        | error reason =>
          rw [hgate] at hcheck
          cases hcheck
        | ok _ => rfl
      obtain ⟨url, hparse, hweb⟩ := isWeb_of_isAllowed hallowed
      have hfits := (fits_iff (url.web hweb)).mp (h hreach url hparse hweb)
      exact ⟨url, hparse, hweb, fun hinternal =>
        (accepted_iff_not_blocked hreach hparse hweb).mp haccepted (hfits.1 hinternal)⟩
    · intro url d hparse hweb hd hnamed hrefused
      obtain ⟨reason, hreason, hcheck⟩ := refusedForHost_iff.mp hrefused
      have hreach := reaches_of_refused hreason hcheck
      have hfits := (fits_iff (url.web hweb)).mp (h hreach url hparse hweb)
      exact hfits.2 d hd hnamed ((refusedForHost_iff_blocked hreach hparse hweb).mp hrefused)

end Post

/-! ## Hosts that are treated wrong -/

def numberedDomain : DomainName where
  text := js "10.example.com"
  nonempty := by decide
  units := List.all_eq_true.mp (by decide)
  notNumber := by decide

/-- `new URL` on three texts. -/
def parseSample (s : JsString) : Option Url :=
  if s = js "http://[::1]/" then some ⟨js "http", .ipv6 1, nofun⟩
  else if s = js "http://127.0.0.2/" then some ⟨js "http", .ipv4 0x7f000002, nofun⟩
  else if s = js "http://10.example.com/" then some ⟨js "http", .domain numberedDomain, nofun⟩
  else none

/-- The loopback addresses `[::1]` and `127.0.0.2` are accepted, and `10.example.com` is refused. -/
theorem gate_wrong :
    ¬ GateRight .ascii parseSample (js "http://[::1]/") ∧
      ¬ GateRight .ascii parseSample (js "http://127.0.0.2/") ∧
      ¬ GateRight .ascii parseSample (js "http://10.example.com/") := by
  refine ⟨?_, ?_, ?_⟩
  · intro h
    have hparse : parseSample (trim (js "http://[::1]/")) = some ⟨js "http", .ipv6 1, nofun⟩ := rfl
    have hfree : Accepted .ascii parseSample _ :=
      (accepted_iff_not_blocked ⟨by decide, by decide⟩ hparse (Or.inl rfl)).mpr (not_blocked_ipv6 1)
    obtain ⟨url, hurl, -, hexternal⟩ := h.external hfree
    cases hparse.symm.trans hurl
    exact hexternal (Or.inl ⟨⟨1, 128⟩, List.mem_cons_self, rfl⟩)
  · intro h
    have hparse : parseSample (trim (js "http://127.0.0.2/")) =
        some ⟨js "http", .ipv4 0x7f000002, nofun⟩ := rfl
    have hfree : Accepted .ascii parseSample _ :=
      (accepted_iff_not_blocked ⟨by decide, by decide⟩ hparse (Or.inl rfl)).mpr (by decide)
    obtain ⟨url, hurl, -, hexternal⟩ := h.external hfree
    cases hparse.symm.trans hurl
    exact hexternal ⟨loopback, List.mem_cons_of_mem _ List.mem_cons_self, by decide⟩
  · intro h
    have hparse : parseSample (trim (js "http://10.example.com/")) =
        some ⟨js "http", .domain numberedDomain, nofun⟩ := rfl
    have hrefused : RefusedForHost .ascii parseSample _ :=
      (refusedForHost_iff_blocked ⟨by decide, by decide⟩ hparse (Or.inl rfl)).mpr (by decide)
    refine h.names _ numberedDomain hparse (Or.inl rfl) rfl ?_ hrefused
    rintro (h | h) <;> exact absurd h (by decide)

end ZeroAuth.Console
