/-
  ZeroAuth.Iot.OtpRuns

  Whole runs of the one-time codes (`one_time_codes`): attempts, acceptance and
  expiry of each issued code, single use of the sessions, and `gc`, which no later
  call notices but for `no_pending` in place of `expired`.
-/

import ZeroAuth.Iot.Otp

namespace ZeroAuth.Iot

open ZeroAuth.Lib ZeroAuth.Js

/-! ## What a log says -/

namespace OtpRecord

def compares (r : ℕ) (d : OtpRecord) : Bool := d.compared == some r

def accepted (d : OtpRecord) : Bool :=
  match d.answer with
  | .verified (.ok _) => true
  | _ => false

/-- The call accepted a code for the entry `r`. -/
def accepts (r : ℕ) (d : OtpRecord) : Bool := d.compares r && d.accepted

/-- The call issued a code for an email and a kind. -/
def issues (email : JsString) (kind : OtpKind) (d : OtpRecord) : Prop :=
  d.created.isSome ∧ ∃ n, d.call = .request email kind n

/-- The call returned the session token. -/
def mints (token : JsString) (d : OtpRecord) : Bool :=
  match d.answer with
  | .verified (.ok v) => v.sessionToken == token
  | _ => false

/-- `consumeSession` returned true for the session token. -/
def uses (token : JsString) (d : OtpRecord) : Bool :=
  match d.call, d.answer with
  | .consumeSession sessionToken _ _, .consumed true => sessionToken == token
  | _, _ => false

end OtpRecord

/-- The call at `j` is a `verify` whose submitted code is compared with the last code
    issued for its email and kind, before that one expires. -/
def ComparesCurrent (log : List OtpRecord) (j : ℕ) (d : OtpRecord) : Prop :=
  ∃ email code kind bytes i d₀ n, d.call = .verify email code kind bytes ∧
    i < j ∧ log[i]? = some d₀ ∧ d₀.created = d.compared ∧ d₀.call = .request email kind n ∧
    d₀.answer = .requested (.ok ⟨generateCode n, d₀.now + codeTtlMs⟩) ∧
    d.now < d₀.now + codeTtlMs ∧
    (d.accepted = true → hashCode code = hashCode (generateCode n)) ∧
    ∀ (k : ℕ) (d' : OtpRecord), i < k → k < j → log[k]? = some d' → ¬ d'.issues email kind

/-- What holds of the codes issued in a run; a code is named by its entry. -/
structure CodesOnce (log : List OtpRecord) : Prop where
  distinct : ∀ (i j : ℕ) (d d' : OtpRecord) (r : ℕ), log[i]? = some d → log[j]? = some d' →
    d.created = some r → d'.created = some r → i = j
  attempts : ∀ r, log.countP (OtpRecord.compares r) ≤ maxAttempts
  once : ∀ r, log.countP (OtpRecord.accepts r) ≤ 1
  accepted : ∀ (j : ℕ) (d : OtpRecord), log[j]? = some d → d.accepted = true → d.compared.isSome
  current : ∀ (j : ℕ) (d : OtpRecord), log[j]? = some d → d.compared.isSome → ComparesCurrent log j d

/-- The call at `j` is a `consumeSession` for the email and kind of a `verify` that
    has returned its token, not more than `sessionTtlMs` before. -/
def UsesVerified (log : List OtpRecord) (j : ℕ) (d : OtpRecord) (token : JsString) : Prop :=
  ∃ email kind code bytes i d₀, d.call = .consumeSession token email kind ∧
    i < j ∧ log[i]? = some d₀ ∧ d₀.call = .verify email code kind bytes ∧
    d₀.answer = .verified (.ok ⟨email, kind, token, d₀.now + sessionTtlMs⟩) ∧
    d.now ≤ d₀.now + sessionTtlMs

/-- What holds of the sessions opened in a run: a token is good once for each time
    `verify` has returned it. -/
structure SessionsOnce (log : List OtpRecord) : Prop where
  once : ∀ token, log.countP (OtpRecord.uses token) ≤ log.countP (OtpRecord.mints token)
  verified : ∀ (j : ℕ) (d : OtpRecord) (token : JsString), log[j]? = some d → d.uses token = true → UsesVerified log j d token

/-! ## What a call does -/

/-- The maps have lost entries at most. -/
structure OtpState.Shrinks (s s' : OtpState) : Prop where
  pending : ∀ key e, s'.pending key = some e → s.pending key = some e
  sessions : ∀ token x, s'.sessions token = some x → s.sessions token = some x
  made : s'.made = s.made

theorem OtpState.Shrinks.refl (s : OtpState) : s.Shrinks s :=
  ⟨fun _ _ h => h, fun _ _ h => h, rfl⟩

theorem eq_of_update_none {α : Type} {f : JsString → Option α} {key k : JsString} {x : α}
    (h : Function.update f key none k = some x) : f k = some x ∧ k ≠ key := by
  by_cases hk : k = key
  · subst hk
    rw [Function.update_self] at h
    cases h
  · rw [Function.update_of_ne hk] at h
    exact ⟨h, hk⟩

theorem shrinks_deletePending (s : OtpState) (key : JsString) : s.Shrinks (s.deletePending key) :=
  ⟨fun _ _ h => (eq_of_update_none h).1, fun _ _ h => h, rfl⟩

theorem shrinks_gc (s : OtpState) (now : ℕ) : s.Shrinks (gc s now) :=
  ⟨fun _ _ h => (Option.filter_eq_some_iff.mp h).1, fun _ _ h => (Option.filter_eq_some_iff.mp h).1,
    rfl⟩

/-- The five things a call can do. -/
inductive OtpEffect (s : OtpState) (d : OtpRecord) : OtpState → Prop
  | quiet {s'} (hs : s.Shrinks s') (hcr : d.created = none) (hco : d.compared = none)
      (hac : d.accepted = false) (hus : ∀ token, d.uses token = false) : OtpEffect s d s'
  | issued {email kind n} (hcall : d.call = .request email kind n)
      (hans : d.answer = .requested (.ok ⟨generateCode n, d.now + codeTtlMs⟩))
      (hcr : d.created = some s.made) (hco : d.compared = none) :
      OtpEffect s d { s with
        pending := Function.update s.pending (otpKey email kind)
          (some ⟨s.made, hashCode (generateCode n), d.now + codeTtlMs, 0, kind, d.now⟩)
        made := s.made + 1 }
  | refused {s' email code kind bytes reason entry} (hcall : d.call = .verify email code kind bytes)
      (hans : d.answer = .verified (.error reason)) (hcr : d.created = none)
      (hco : d.compared = some entry.ref) (hlive : liveEntry s d.now email kind = .ok entry)
      (hs : entry.attempts + 1 ≥ maxAttempts ∧ s' = s.deletePending (otpKey email kind) ∨
        entry.attempts + 1 < maxAttempts ∧ s' = { s with
          pending := Function.update s.pending (otpKey email kind)
            (some { entry with attempts := entry.attempts + 1 }) }) : OtpEffect s d s'
  | accepted {email code kind bytes entry} (hcall : d.call = .verify email code kind bytes)
      (hans : d.answer = .verified
        (.ok ⟨email, kind, base64url bytes, d.now + sessionTtlMs⟩))
      (hcr : d.created = none) (hco : d.compared = some entry.ref)
      (hlive : liveEntry s d.now email kind = .ok entry) (hcode : hashCode code = entry.codeHash) :
      OtpEffect s d { s.deletePending (otpKey email kind) with
        sessions := Function.update s.sessions (base64url bytes)
          (some ⟨email, kind, d.now + sessionTtlMs⟩) }
  | used {token email kind x} (hcall : d.call = .consumeSession token email kind)
      (hans : d.answer = .consumed true) (hcr : d.created = none) (hco : d.compared = none)
      (hx : s.sessions token = some x) (hemail : x.email = email) (hkind : x.kind = kind)
      (hlive : d.now ≤ x.expiresAt) :
      OtpEffect s d { s with sessions := Function.update s.sessions token none }

theorem liveEntry_ok {s : OtpState} {now : ℕ} {email : JsString} {kind : OtpKind} {entry : PendingEntry}
    (h : liveEntry s now email kind = .ok entry) :
    s.pending (otpKey email kind) = some entry ∧ now < entry.expiresAt ∧ entry.kind = kind ∧
      entry.attempts < maxAttempts := by
  unfold liveEntry at h
  dsimp only at h
  split at h
  · cases h
  · rename_i e he
    split_ifs at h with h₁ h₂ h₃
    cases h
    exact ⟨he, Nat.not_le.mp h₁, not_not.mp h₂, Nat.not_le.mp h₃⟩

theorem liveEntry_error {s : OtpState} {now : ℕ} {email : JsString} {kind : OtpKind}
    {reason : VerifyErr} {s' : OtpState} (h : liveEntry s now email kind = .error (reason, s')) :
    s.Shrinks s' := by
  unfold liveEntry at h
  dsimp only at h
  split at h
  · cases h
    exact .refl s
  · split_ifs at h <;> cases h
    · exact shrinks_deletePending _ _
    · exact .refl s
    · exact shrinks_deletePending _ _

theorem effect_request (s : OtpState) (now : ℕ) (email : JsString) (kind : OtpKind) (n : ℕ) :
    OtpEffect s (s.record now (.request email kind n)) (s.step now (.request email kind n)).2 := by
  -- either the cooldown refuses, or a new entry replaces the pending one
  have hcases : (∃ retryAfterMs, request s now email kind n = (.error retryAfterMs, s)) ∨
      request s now email kind n = (.ok ⟨generateCode n, now + codeTtlMs⟩,
        { s with
          pending := Function.update s.pending (otpKey email kind)
            (some ⟨s.made, hashCode (generateCode n), now + codeTtlMs, 0, kind, now⟩)
          made := s.made + 1 }) := by
    unfold request
    dsimp only
    split
    · exact .inr rfl
    · split_ifs
      · exact .inl ⟨_, rfl⟩
      · exact .inr rfl
  rcases hcases with ⟨retryAfterMs, h⟩ | h
  · have hs : (s.step now (.request email kind n)).2 = s := by simp [OtpState.step, h]
    rw [hs]
    apply OtpEffect.quiet (.refl s)
    · simp [OtpState.record, created, h]
    · rfl
    · simp [OtpState.record, OtpState.step, OtpRecord.accepted, h]
    · intro token
      rfl
  · have hs := congrArg Prod.snd h
    simp only [OtpState.step, Prod.map_snd, id_eq, hs]
    have hcall : (s.record now (.request email kind n)).call = .request email kind n := rfl
    apply OtpEffect.issued hcall
    · simp [OtpState.record, OtpState.step, h]
    · simp [OtpState.record, created, h]
    · rfl

theorem effect_verify (s : OtpState) (now : ℕ) (email code : JsString) (kind : OtpKind)
    (bytes : List UInt8) :
    OtpEffect s (s.record now (.verify email code kind bytes))
      (s.step now (.verify email code kind bytes)).2 := by
  cases hlive : liveEntry s now email kind with
  -- no entry is live, so no code is compared
  | error err =>
      obtain ⟨reason, s'⟩ := err
      have h : verify s now email code kind bytes = (.error reason, s') := by
        simp [verify, hlive]
      have hs : (s.step now (.verify email code kind bytes)).2 = s' := by simp [OtpState.step, h]
      rw [hs]
      apply OtpEffect.quiet (liveEntry_error hlive)
      · rfl
      · simp [OtpState.record, compared, hlive]
      · simp [OtpState.record, OtpState.step, OtpRecord.accepted, h]
      · intro token
        rfl
  | ok entry =>
      have hco : (s.record now (.verify email code kind bytes)).compared = some entry.ref := by
        simp [OtpState.record, compared, hlive]
      -- a live entry is compared; the right code mints a session, a wrong one counts
      by_cases hcode : hashCode code = entry.codeHash
      · have h : verify s now email code kind bytes =
            (.ok ⟨email, kind, base64url bytes, now + sessionTtlMs⟩,
              { s.deletePending (otpKey email kind) with
                sessions := Function.update s.sessions (base64url bytes)
                  (some ⟨email, kind, now + sessionTtlMs⟩) }) := by
          simp [verify, hlive, hcode, OtpState.deletePending]
        have hs := congrArg Prod.snd h
        simp only [OtpState.step, Prod.map_snd, id_eq, hs]
        apply OtpEffect.accepted rfl _ rfl hco hlive hcode
        simp [OtpState.record, OtpState.step, h]
      · have hne : (hashCode code == entry.codeHash) = false := beq_eq_false_iff_ne.mpr hcode
        by_cases hlast : entry.attempts + 1 ≥ maxAttempts
        · have h : verify s now email code kind bytes =
              (.error .tooManyAttempts, s.deletePending (otpKey email kind)) := by
            simp [verify, hlive, hne, hlast]
          have hs := congrArg Prod.snd h
          simp only [OtpState.step, Prod.map_snd, id_eq, hs]
          apply OtpEffect.refused rfl _ rfl hco hlive (.inl ⟨hlast, rfl⟩)
          · exact .tooManyAttempts
          · simp [OtpState.record, OtpState.step, h]
        · have h : verify s now email code kind bytes = (.error .wrongCode, { s with
                pending := Function.update s.pending (otpKey email kind)
                  (some { entry with attempts := entry.attempts + 1 }) }) := by
            simp [verify, hlive, hne, hlast]
          have hs := congrArg Prod.snd h
          simp only [OtpState.step, Prod.map_snd, id_eq, hs]
          apply OtpEffect.refused rfl _ rfl hco hlive (.inr ⟨Nat.not_le.mp hlast, rfl⟩)
          · exact .wrongCode
          · simp [OtpState.record, OtpState.step, h]

theorem effect_consumeSession (s : OtpState) (now : ℕ) (token email : JsString) (kind : OtpKind) :
    OtpEffect s (s.record now (.consumeSession token email kind))
      (s.step now (.consumeSession token email kind)).2 := by
  have hdelete : s.Shrinks { s with sessions := Function.update s.sessions token none } :=
    ⟨fun _ _ h => h, fun _ _ h => (eq_of_update_none h).1, rfl⟩
  -- each refusal deletes the session or leaves it alone
  have hquiet : ∀ s', s.Shrinks s' → consumeSession s now token email kind = (false, s') →
      OtpEffect s (s.record now (.consumeSession token email kind))
        (s.step now (.consumeSession token email kind)).2 := by
    intro s' hshrinks h
    have hs := congrArg Prod.snd h
    simp only [OtpState.step, Prod.map_snd, id_eq, hs]
    apply OtpEffect.quiet hshrinks rfl rfl rfl
    intro token'
    simp [OtpState.record, OtpState.step, OtpRecord.uses, h]
  cases hx : s.sessions token with
  | none =>
      apply hquiet s (.refl s)
      simp [consumeSession, hx]
  | some x =>
      by_cases hlive : x.expiresAt < now
      · apply hquiet _ hdelete
        simp [consumeSession, hx, hlive]
      by_cases hemail : x.email ≠ email
      · apply hquiet _ hdelete
        simp [consumeSession, hx, hlive, hemail]
      by_cases hkind : x.kind ≠ kind
      · apply hquiet _ hdelete
        simp [consumeSession, hx, hlive, hemail, hkind]
      -- live, for the address and of the kind: the session is used up
      have h : consumeSession s now token email kind =
          (true, { s with sessions := Function.update s.sessions token none }) := by
        simp [consumeSession, hx, hlive, hemail, hkind]
      have hs := congrArg Prod.snd h
      simp only [OtpState.step, Prod.map_snd, id_eq, hs]
      apply OtpEffect.used rfl _ rfl rfl hx (not_not.mp hemail) (not_not.mp hkind)
        (Nat.not_lt.mp hlive)
      simp [OtpState.record, OtpState.step, h]

theorem step_effect (s : OtpState) (now : ℕ) (call : OtpCall) :
    OtpEffect s (s.record now call) (s.step now call).2 := by
  cases call with
  | request email kind n => exact effect_request s now email kind n
  | verify email code kind bytes => exact effect_verify s now email code kind bytes
  | consumeSession token email kind => exact effect_consumeSession s now token email kind
  | gc => exact .quiet (shrinks_gc s now) rfl rfl rfl fun _ => rfl

/-! ## Codes -/

/-- What the log knows of an entry that is pending under a key. -/
structure KnownEntry (log : List OtpRecord) (key : JsString) (e : PendingEntry) : Prop where
  issue : ∃ i d₀ email n, log[i]? = some d₀ ∧ d₀.created = some e.ref ∧
    d₀.call = .request email e.kind n ∧
    d₀.answer = .requested (.ok ⟨generateCode n, d₀.now + codeTtlMs⟩) ∧
    key = otpKey email e.kind ∧ e.codeHash = hashCode (generateCode n) ∧
    e.expiresAt = d₀.now + codeTtlMs ∧
    ∀ (k : ℕ) (d' : OtpRecord), i < k → log[k]? = some d' → ¬ d'.issues email e.kind
  attempts : log.countP (OtpRecord.compares e.ref) = e.attempts
  lt : e.attempts < maxAttempts
  unused : log.countP (OtpRecord.accepts e.ref) = 0

structure CodesInv (s : OtpState) (log : List OtpRecord) : Prop where
  once : CodesOnce log
  made : ∀ d ∈ log, ∀ r, d.created = some r ∨ d.compared = some r → r < s.made
  pending : ∀ key e, s.pending key = some e → KnownEntry log key e

theorem getElem?_snoc {log : List OtpRecord} {d x : OtpRecord} {i : ℕ}
    (h : (log ++ [d])[i]? = some x) : log[i]? = some x ∨ i = log.length ∧ x = d := by
  rcases Nat.lt_trichotomy i log.length with hlt | heq | hgt
  · rw [List.getElem?_append_left hlt] at h
    exact .inl h
  · subst heq
    rw [List.getElem?_concat_length] at h
    exact .inr ⟨rfl, (Option.some.inj h).symm⟩
  · rw [List.getElem?_eq_none (by simpa using hgt)] at h
    cases h

theorem lt_length_of_getElem? {log : List OtpRecord} {x : OtpRecord} {i : ℕ}
    (h : log[i]? = some x) : i < log.length :=
  (List.getElem?_eq_some_iff.mp h).1

theorem getElem?_append_of_some {log more : List OtpRecord} {x : OtpRecord} {i : ℕ}
    (h : log[i]? = some x) : (log ++ more)[i]? = some x := by
  rw [List.getElem?_append_left (lt_length_of_getElem? h), h]

theorem ComparesCurrent.append {log : List OtpRecord} {j : ℕ} {d : OtpRecord}
    (h : ComparesCurrent log j d) (hj : j ≤ log.length) (more : List OtpRecord) :
    ComparesCurrent (log ++ more) j d := by
  obtain ⟨email, code, kind, bytes, i, d₀, n, hcall, hij, hi, hcr, hreq, hans, hnow, hcode, hlast⟩ := h
  refine ⟨email, code, kind, bytes, i, d₀, n, hcall, hij, getElem?_append_of_some hi, hcr, hreq,
    hans, hnow, hcode, ?_⟩
  intro k d' hik hkj hk
  rw [List.getElem?_append_left (by omega)] at hk
  exact hlast k d' hik hkj hk

/-- One more line of the log. -/
theorem CodesOnce.snoc {log : List OtpRecord} {d : OtpRecord} (h : CodesOnce log)
    (hcreated : ∀ r, d.created = some r → ∀ d' ∈ log, d'.created ≠ some r)
    (hattempts : ∀ r, d.compared = some r → log.countP (OtpRecord.compares r) < maxAttempts)
    (hunused : ∀ r, d.compared = some r → log.countP (OtpRecord.accepts r) = 0)
    (haccepted : d.accepted = true → d.compared.isSome)
    (hcurrent : d.compared.isSome → ComparesCurrent log log.length d) : CodesOnce (log ++ [d]) where
  distinct := by
    intro i j d₁ d₂ r hi hj h₁ h₂
    -- two lines that create one entry: none of them is the new one
    rcases getElem?_snoc hi with hi' | ⟨hi', hd₁⟩ <;> rcases getElem?_snoc hj with hj' | ⟨hj', hd₂⟩
    · exact h.distinct i j d₁ d₂ r hi' hj' h₁ h₂
    · exact absurd h₁ (hcreated r (hd₂ ▸ h₂) d₁ (List.mem_of_getElem? hi'))
    · exact absurd h₂ (hcreated r (hd₁ ▸ h₁) d₂ (List.mem_of_getElem? hj'))
    · rw [hi', hj']
  attempts := by
    intro r
    rw [List.countP_append, List.countP_singleton]
    by_cases hr : d.compared = some r
    · have hlt := hattempts r hr
      split <;> omega
    · have hfalse : OtpRecord.compares r d = false := beq_eq_false_iff_ne.mpr hr
      rw [hfalse]
      exact h.attempts r
  once := by
    intro r
    rw [List.countP_append, List.countP_singleton]
    by_cases hr : d.compared = some r
    · rw [hunused r hr]
      split <;> omega
    · have hfalse : OtpRecord.accepts r d = false := by
        have hne : OtpRecord.compares r d = false := beq_eq_false_iff_ne.mpr hr
        rw [OtpRecord.accepts, hne, Bool.false_and]
      rw [hfalse]
      exact h.once r
  accepted := by
    intro j x hj hx
    rcases getElem?_snoc hj with hj | ⟨-, rfl⟩
    · exact h.accepted j x hj hx
    · exact haccepted hx
  current := by
    intro j x hj hx
    rcases getElem?_snoc hj with hj | ⟨rfl, rfl⟩
    · exact (h.current j x hj hx).append (lt_length_of_getElem? hj).le [d]
    · exact (hcurrent hx).append le_rfl [_]

theorem KnownEntry.snoc {log : List OtpRecord} {key : JsString} {e : PendingEntry} {d : OtpRecord}
    (h : KnownEntry log key e) (hco : d.compared ≠ some e.ref)
    (hissues : ∀ email, key = otpKey email e.kind → ¬ d.issues email e.kind) :
    KnownEntry (log ++ [d]) key e where
  issue := by
    obtain ⟨i, d₀, email, n, hi, hcr, hcall, hans, hkey, hcode, hexp, hlast⟩ := h.issue
    refine ⟨i, d₀, email, n, getElem?_append_of_some hi, hcr, hcall, hans, hkey, hcode, hexp, ?_⟩
    intro k d' hik hk
    rcases getElem?_snoc hk with hk | ⟨-, rfl⟩
    · exact hlast k d' hik hk
    · exact hissues email hkey
  attempts := by
    have hfalse : OtpRecord.compares e.ref d = false := beq_eq_false_iff_ne.mpr hco
    rw [List.countP_append, List.countP_singleton, hfalse]
    exact h.attempts
  lt := h.lt
  unused := by
    have hne : OtpRecord.compares e.ref d = false := beq_eq_false_iff_ne.mpr hco
    rw [List.countP_append, List.countP_singleton, OtpRecord.accepts, hne, Bool.false_and]
    exact h.unused

/-- An entry is pending under one key. -/
theorem KnownEntry.key_unique {log : List OtpRecord} {key key' : JsString} {e e' : PendingEntry}
    (hd : CodesOnce log) (h : KnownEntry log key e) (h' : KnownEntry log key' e') (hr : e.ref = e'.ref) :
    key = key' := by
  obtain ⟨i, d₀, email, n, hi, hcr, hcall, -, hkey, -⟩ := h.issue
  obtain ⟨i', d₀', email', n', hi', hcr', hcall', -, hkey', -⟩ := h'.issue
  obtain rfl := hd.distinct i i' d₀ d₀' e.ref hi hi' hcr (hr ▸ hcr')
  obtain rfl := Option.some.inj (hi.symm.trans hi')
  rw [hcall] at hcall'
  obtain ⟨rfl, hkind, -⟩ := OtpCall.request.inj hcall'
  rw [hkey, hkey', hkind]

theorem otpKey_inj {email email' : JsString} {kind : OtpKind}
    (h : otpKey email kind = otpKey email' kind) : email = email' :=
  List.append_cancel_right (List.append_cancel_right h)

/-- A call that compares does so with the code that is current. -/
theorem KnownEntry.comparesCurrent {log : List OtpRecord} {email code : JsString} {kind : OtpKind}
    {bytes : List UInt8} {e : PendingEntry} {d : OtpRecord}
    (h : KnownEntry log (otpKey email kind) e) (hkind : e.kind = kind)
    (hcall : d.call = .verify email code kind bytes) (hco : d.compared = some e.ref)
    (hnow : d.now < e.expiresAt) (hcode : d.accepted = true → hashCode code = e.codeHash) :
    ComparesCurrent log log.length d := by
  obtain ⟨i, d₀, email', n, hi, hcr, hreq, hans, hkey, hhash, hexp, hlast⟩ := h.issue
  subst hkind
  obtain rfl := otpKey_inj hkey
  refine ⟨email, code, e.kind, bytes, i, d₀, n, hcall, lt_length_of_getElem? hi, hi, ?_, hreq, hans,
    ?_, ?_, fun k d' hik _ hk => hlast k d' hik hk⟩
  · rw [hcr, hco]
  · rwa [← hexp]
  · rwa [← hhash]

theorem accepted_of_error {d : OtpRecord} {reason : VerifyErr}
    (h : d.answer = .verified (.error reason)) : d.accepted = false := by
  rw [OtpRecord.accepted, h]

theorem not_issues_of_created {d : OtpRecord} (h : d.created = none) (email : JsString)
    (kind : OtpKind) : ¬ d.issues email kind := by
  intro hd
  rw [OtpRecord.issues, h] at hd
  exact absurd hd.1 (by simp)

/-- The other entries when a call has compared with one. -/
theorem KnownEntry.snoc_of_ref_ne {log : List OtpRecord} {key : JsString} {e : PendingEntry}
    {d : OtpRecord} (h : KnownEntry log key e) (hcr : d.created = none) {r : ℕ}
    (hco : d.compared = some r) (hr : e.ref ≠ r) : KnownEntry (log ++ [d]) key e := by
  apply h.snoc
  · rw [hco]
    exact fun heq => hr (Option.some.inj heq).symm
  · exact fun email _ => not_issues_of_created hcr email e.kind

/-- The counters of a call that compares with a pending entry. -/
theorem CodesInv.snoc_compared {s : OtpState} {log : List OtpRecord} {d : OtpRecord}
    {key : JsString} {entry : PendingEntry} (hI : CodesInv s log) (hp : KnownEntry log key entry)
    (hcr : d.created = none) (hco : d.compared = some entry.ref)
    (hcurrent : ComparesCurrent log log.length d) :
    CodesOnce (log ++ [d]) ∧
      ∀ d' ∈ log ++ [d], ∀ r, d'.created = some r ∨ d'.compared = some r → r < s.made := by
  constructor
  · apply hI.once.snoc
    · simp [hcr]
    · intro r hr
      obtain rfl := Option.some.inj (hco.symm.trans hr)
      rw [hp.attempts]
      exact hp.lt
    · intro r hr
      obtain rfl := Option.some.inj (hco.symm.trans hr)
      exact hp.unused
    · simp [hco]
    · exact fun _ => hcurrent
  · intro d' hd' r hr
    rcases List.mem_append.mp hd' with hd' | hd'
    · exact hI.made d' hd' r hr
    · rw [List.mem_singleton.mp hd', hcr, hco] at hr
      obtain ⟨i, d₀, email', n, hi, hcr₀, -⟩ := hp.issue
      simp only [reduceCtorEq, Option.some.injEq, false_or] at hr
      rw [← hr]
      exact hI.made d₀ (List.mem_of_getElem? hi) _ (.inl hcr₀)

theorem CodesInv.quiet {s s' : OtpState} {log : List OtpRecord} {d : OtpRecord}
    (hI : CodesInv s log) (hpending : ∀ key e, s'.pending key = some e → s.pending key = some e)
    (hmade : s'.made = s.made) (hcr : d.created = none) (hco : d.compared = none)
    (hac : d.accepted = false) : CodesInv s' (log ++ [d]) where
  once := by
    apply hI.once.snoc
    all_goals simp [hcr, hco, hac]
  made := by
    intro d' hd' r hr
    rw [hmade]
    rcases List.mem_append.mp hd' with hd' | hd'
    · exact hI.made d' hd' r hr
    · rw [List.mem_singleton.mp hd', hcr, hco] at hr
      simp at hr
  pending := by
    intro key e he
    apply (hI.pending key e (hpending key e he)).snoc
    · simp [hco]
    · exact fun email _ => not_issues_of_created hcr email e.kind

theorem codesInv_step {s s' : OtpState} {log : List OtpRecord} {d : OtpRecord}
    (hI : CodesInv s log) (h : OtpEffect s d s') : CodesInv s' (log ++ [d]) := by
  have hold : ∀ {key e}, s.pending key = some e → KnownEntry log key e := fun he => hI.pending _ _ he
  cases h with
  | quiet hs hcr hco hac hus => exact hI.quiet hs.pending hs.made hcr hco hac
  | used hcall hans hcr hco hx hemail hkind hlive =>
      have hac : d.accepted = false := by rw [OtpRecord.accepted, hans]
      exact hI.quiet (fun _ _ h => h) rfl hcr hco hac
  | @issued email kind n hcall hans hcr hco =>
      -- the number of the new entry has never been used
      have hfresh : ∀ d' ∈ log, d'.created ≠ some s.made ∧ d'.compared ≠ some s.made := by
        intro d' hd'
        constructor
        · exact fun h => absurd (hI.made d' hd' _ (.inl h)) (Nat.lt_irrefl _)
        · exact fun h => absurd (hI.made d' hd' _ (.inr h)) (Nat.lt_irrefl _)
      -- so no line compares with it yet
      have hcompares : ∀ d' ∈ log ++ [d], ¬ d'.compares s.made = true := by
        intro d' hd' hc
        rcases List.mem_append.mp hd' with hd' | hd'
        · exact (hfresh d' hd').2 (beq_iff_eq.mp hc)
        · rw [List.mem_singleton.mp hd', OtpRecord.compares, hco] at hc
          simp at hc
      constructor
      · apply hI.once.snoc
        · intro r hr d' hd'
          rw [hcr] at hr
          rw [← hr]
          exact (hfresh d' hd').1
        all_goals simp [hco, OtpRecord.accepted, hans]
      · intro d' hd' r hr
        rcases List.mem_append.mp hd' with hd' | hd'
        · exact Nat.lt_succ_of_lt (hI.made d' hd' r hr)
        · rw [List.mem_singleton.mp hd', hcr, hco] at hr
          simp only [Option.some.injEq, reduceCtorEq, or_false] at hr
          rw [← hr]
          exact Nat.lt_succ_self _
      · intro key e he
        dsimp only at he
        by_cases hk : key = otpKey email kind
        · subst hk
          rw [Function.update_self] at he
          cases he
          constructor
          · refine ⟨log.length, d, email, n, List.getElem?_concat_length .., hcr, hcall, hans, rfl,
              rfl, rfl, ?_⟩
            intro k d' hlt hk
            rcases getElem?_snoc hk with hk | ⟨rfl, -⟩
            · exact absurd (lt_length_of_getElem? hk) (by omega)
            · exact absurd hlt (Nat.lt_irrefl _)
          · exact List.countP_eq_zero.mpr hcompares
          · exact Nat.succ_pos 4
          · apply List.countP_eq_zero.mpr
            intro d' hd' hc
            exact hcompares d' hd' (Bool.and_eq_true_iff.mp hc).1
        · rw [Function.update_of_ne hk] at he
          apply (hold he).snoc
          · simp [hco]
          · rintro email' rfl ⟨-, n', hcall'⟩
            rw [hcall] at hcall'
            obtain ⟨rfl, hkind, -⟩ := OtpCall.request.inj hcall'
            exact hk (by rw [hkind])
  | @refused s' email code kind bytes reason entry hcall hans hcr hco hlive hs =>
      obtain ⟨hentry, hnow, hkind, hlt⟩ := liveEntry_ok hlive
      have hp := hold hentry
      have hrej := accepted_of_error hans
      -- the entries under other keys are not concerned
      have hothers : ∀ key e, key ≠ otpKey email kind → s.pending key = some e →
          KnownEntry (log ++ [d]) key e := by
        intro key e hk he
        exact (hold he).snoc_of_ref_ne hcr hco fun hr => hk ((hold he).key_unique hI.once hp hr)
      have hcurrent : ComparesCurrent log log.length d :=
        hp.comparesCurrent hkind hcall hco hnow (by simp [hrej])
      obtain ⟨honce, hmade⟩ := hI.snoc_compared hp hcr hco hcurrent
      -- the fifth wrong code deletes the entry, one before it is counted
      rcases hs with ⟨-, rfl⟩ | ⟨hmore, rfl⟩
      · refine ⟨honce, hmade, ?_⟩
        intro key e he
        obtain ⟨he, hk⟩ := eq_of_update_none he
        exact hothers key e hk he
      · refine ⟨honce, hmade, ?_⟩
        intro key e he
        dsimp only at he
        by_cases hk : key = otpKey email kind
        · subst hk
          rw [Function.update_self] at he
          cases he
          constructor
          · obtain ⟨i, d₀, email', n, hi, hcr₀, hreq, hans₀, hkey, hhash, hexp, hlast⟩ := hp.issue
            refine ⟨i, d₀, email', n, getElem?_append_of_some hi, hcr₀, hreq, hans₀, hkey, hhash,
              hexp, ?_⟩
            intro k d' hik hk
            rcases getElem?_snoc hk with hk | ⟨-, rfl⟩
            · exact hlast k d' hik hk
            · exact not_issues_of_created hcr email' _
          · have htrue : OtpRecord.compares entry.ref d = true := beq_iff_eq.mpr hco
            rw [List.countP_append, List.countP_singleton, htrue, hp.attempts]
            rfl
          · exact hmore
          · have hfalse : OtpRecord.accepts entry.ref d = false := by
              rw [OtpRecord.accepts, hrej, Bool.and_false]
            rw [List.countP_append, List.countP_singleton, hfalse, hp.unused]
            rfl
        · rw [Function.update_of_ne hk] at he
          exact hothers key e hk he
  | @accepted email code kind bytes entry hcall hans hcr hco hlive hcode =>
      obtain ⟨hentry, hnow, hkind, hlt⟩ := liveEntry_ok hlive
      have hp := hold hentry
      obtain ⟨honce, hmade⟩ := hI.snoc_compared hp hcr hco
        (hp.comparesCurrent hkind hcall hco hnow fun _ => hcode)
      refine ⟨honce, hmade, ?_⟩
      intro key e he
      obtain ⟨he, hk⟩ := eq_of_update_none he
      exact (hold he).snoc_of_ref_ne hcr hco fun hr => hk ((hold he).key_unique hI.once hp hr)

/-! ## Sessions -/

/-- What the log knows of a stored session. -/
def Opened (log : List OtpRecord) (token : JsString) (x : OtpSession) : Prop :=
  ∃ (i : ℕ) (d₀ : OtpRecord) (code : JsString) (bytes : List UInt8), log[i]? = some d₀ ∧
    d₀.call = .verify x.email code x.kind bytes ∧
    d₀.answer = .verified (.ok ⟨x.email, x.kind, token, d₀.now + sessionTtlMs⟩) ∧
    x.expiresAt = d₀.now + sessionTtlMs

structure SessionsInv (s : OtpState) (log : List OtpRecord) : Prop where
  once : SessionsOnce log
  live : ∀ token x, s.sessions token = some x → Opened log token x ∧
    log.countP (OtpRecord.uses token) < log.countP (OtpRecord.mints token)

theorem UsesVerified.append {log : List OtpRecord} {j : ℕ} {d : OtpRecord} {token : JsString}
    (h : UsesVerified log j d token) (more : List OtpRecord) :
    UsesVerified (log ++ more) j d token := by
  obtain ⟨email, kind, code, bytes, i, d₀, hcall, hij, hi, hverify, hans, hnow⟩ := h
  exact ⟨email, kind, code, bytes, i, d₀, hcall, hij, getElem?_append_of_some hi, hverify, hans, hnow⟩

theorem Opened.append {log : List OtpRecord} {token : JsString} {x : OtpSession}
    (h : Opened log token x) (more : List OtpRecord) : Opened (log ++ more) token x := by
  obtain ⟨i, d₀, code, bytes, hi, hverify, hans, hexp⟩ := h
  exact ⟨i, d₀, code, bytes, getElem?_append_of_some hi, hverify, hans, hexp⟩

theorem countP_snoc_of_false {log : List OtpRecord} {d : OtpRecord} {p : OtpRecord → Bool}
    (h : p d = false) : (log ++ [d]).countP p = log.countP p := by
  rw [List.countP_append, List.countP_singleton, h]
  rfl

theorem countP_snoc_of_true {log : List OtpRecord} {d : OtpRecord} {p : OtpRecord → Bool}
    (h : p d = true) : (log ++ [d]).countP p = log.countP p + 1 := by
  rw [List.countP_append, List.countP_singleton, h]
  rfl

/-- A call that uses no session and leaves no new one behind. -/
theorem SessionsInv.quiet {s s' : OtpState} {log : List OtpRecord} {d : OtpRecord}
    (hI : SessionsInv s log)
    (hsessions : ∀ token x, s'.sessions token = some x → s.sessions token = some x)
    (hmints : ∀ token, d.mints token = false) (huses : ∀ token, d.uses token = false) :
    SessionsInv s' (log ++ [d]) := by
  constructor
  · constructor
    · intro token
      rw [countP_snoc_of_false (huses token), countP_snoc_of_false (hmints token)]
      exact hI.once.once token
    · intro j x token hj hx
      rcases getElem?_snoc hj with hj | ⟨-, rfl⟩
      · exact (hI.once.verified j x token hj hx).append [d]
      · rw [huses token] at hx
        cases hx
  · intro token x hx
    obtain ⟨hopened, hlt⟩ := hI.live token x (hsessions token x hx)
    refine ⟨hopened.append [d], ?_⟩
    rw [countP_snoc_of_false (huses token), countP_snoc_of_false (hmints token)]
    exact hlt

theorem mints_of_not_accepted {d : OtpRecord} (h : d.accepted = false) (token : JsString) :
    d.mints token = false := by
  unfold OtpRecord.accepted at h
  unfold OtpRecord.mints
  split at h
  · cases h
  · rfl

theorem uses_of_verify {d : OtpRecord} {email code : JsString} {kind : OtpKind} {bytes : List UInt8}
    (h : d.call = .verify email code kind bytes) (token : JsString) : d.uses token = false := by
  rw [OtpRecord.uses, h]

theorem sessionsInv_step {s s' : OtpState} {log : List OtpRecord} {d : OtpRecord}
    (hI : SessionsInv s log) (h : OtpEffect s d s') : SessionsInv s' (log ++ [d]) := by
  cases h with
  | quiet hs hcr hco hac hus => exact hI.quiet hs.sessions (mints_of_not_accepted hac) hus
  | issued hcall hans hcr hco =>
      refine hI.quiet (fun _ _ h => h) ?_ ?_
      · intro token
        rw [OtpRecord.mints, hans]
      · intro token
        rw [OtpRecord.uses, hcall]
  | refused hcall hans hcr hco hlive hs =>
      refine hI.quiet ?_ (mints_of_not_accepted (accepted_of_error hans)) (uses_of_verify hcall)
      rcases hs with ⟨-, rfl⟩ | ⟨-, rfl⟩ <;> exact fun _ _ h => h
  | @accepted email code kind bytes entry hcall hans hcr hco hlive hcode =>
      have huses := uses_of_verify hcall
      -- the line mints its own token and uses none
      have hmints : ∀ token, d.mints token = (base64url bytes == token) := by
        intro token
        rw [OtpRecord.mints, hans]
      constructor
      · constructor
        · intro token
          rw [countP_snoc_of_false (huses token), List.countP_append]
          exact Nat.le_add_right_of_le (hI.once.once token)
        · intro j x token hj hx
          rcases getElem?_snoc hj with hj | ⟨-, rfl⟩
          · exact (hI.once.verified j x token hj hx).append [d]
          · rw [huses token] at hx
            cases hx
      · intro token x hx
        dsimp only at hx
        rw [countP_snoc_of_false (huses token)]
        by_cases ht : token = base64url bytes
        · subst ht
          rw [Function.update_self] at hx
          cases hx
          refine ⟨⟨log.length, d, code, bytes, List.getElem?_concat_length .., hcall, hans, rfl⟩, ?_⟩
          rw [countP_snoc_of_true (by rw [hmints, beq_self_eq_true])]
          exact Nat.lt_succ_of_le (hI.once.once _)
        · rw [Function.update_of_ne ht] at hx
          obtain ⟨hopened, hlt⟩ := hI.live token x hx
          refine ⟨hopened.append [d], ?_⟩
          rw [countP_snoc_of_false (by rw [hmints]; exact beq_eq_false_iff_ne.mpr (Ne.symm ht))]
          exact hlt
  | @used token email kind x hcall hans hcr hco hx hemail hkind hlive =>
      -- the line uses its own token and mints none
      have hmints : ∀ token, d.mints token = false := by
        intro token
        rw [OtpRecord.mints, hans]
      have huses : ∀ token', d.uses token' = (token == token') := by
        intro token'
        rw [OtpRecord.uses, hcall, hans]
      obtain ⟨hopened, hlt⟩ := hI.live token x hx
      constructor
      · constructor
        · intro token'
          rw [countP_snoc_of_false (hmints token')]
          by_cases ht : token = token'
          · subst ht
            rw [countP_snoc_of_true (by rw [huses, beq_self_eq_true])]
            exact hlt
          · rw [countP_snoc_of_false (by rw [huses]; exact beq_eq_false_iff_ne.mpr ht)]
            exact hI.once.once token'
        · intro j y token' hj hy
          rcases getElem?_snoc hj with hj | ⟨rfl, rfl⟩
          · exact (hI.once.verified j y token' hj hy).append [d]
          · rw [huses] at hy
            obtain rfl := beq_iff_eq.mp hy
            obtain ⟨i, d₀, code, bytes, hi, hverify, hans₀, hexp⟩ := hopened
            subst hemail hkind
            refine ⟨x.email, x.kind, code, bytes, i, d₀, hcall, lt_length_of_getElem? hi,
              getElem?_append_of_some hi, hverify, hans₀, ?_⟩
            rwa [← hexp]
      · intro token' y hy
        obtain ⟨hy, ht⟩ := eq_of_update_none hy
        obtain ⟨hopened', hlt'⟩ := hI.live token' y hy
        refine ⟨hopened'.append [d], ?_⟩
        rw [countP_snoc_of_false (hmints token'),
          countP_snoc_of_false (by rw [huses]; exact beq_eq_false_iff_ne.mpr (Ne.symm ht))]
        exact hlt'

/-! ## Collection -/

/-- Some of the `gc` calls of a run are left out. -/
inductive DropGc : List (ℕ × OtpCall) → List (ℕ × OtpCall) → Prop
  | nil : DropGc [] []
  | keep {l ls ls'} (h : DropGc ls ls') : DropGc (l :: ls) (l :: ls')
  | drop {now ls ls'} (h : DropGc ls ls') : DropGc ((now, .gc) :: ls) ls'

/-- The same call at the same time with the same answer, but for an expired code
    that has been collected. -/
def Agree (d d' : OtpRecord) : Prop :=
  d.now = d'.now ∧ d.call = d'.call ∧
    (d.answer = d'.answer ∨
      d.answer = .verified (.error .noPending) ∧ d'.answer = .verified (.error .expired))

def visible (log : List OtpRecord) : List OtpRecord := log.filter fun d => d.call ≠ .gc

/-- What `gc` may have removed from a map. -/
def Collected {α : Type} (expiresAt : α → ℕ) (now : ℕ) (f f' : JsString → Option α) : Prop :=
  ∀ key, f key = f' key ∨ f key = none ∧ ∃ x, f' key = some x ∧ expiresAt x < now

/-- The state of a run and of the run with less collection. -/
structure StateSim (now : ℕ) (s s' : OtpState) : Prop where
  made : s.made = s'.made
  pending : Collected PendingEntry.expiresAt now s.pending s'.pending
  sessions : Collected OtpSession.expiresAt now s.sessions s'.sessions

section Collected

variable {α : Type} {expiresAt : α → ℕ} {now now' : ℕ} {f f' : JsString → Option α}

theorem Collected.mono (h : Collected expiresAt now f f') (hle : now ≤ now') :
    Collected expiresAt now' f f' := by
  intro key
  rcases h key with heq | ⟨hnone, x, hx, hlt⟩
  · exact .inl heq
  · exact .inr ⟨hnone, x, hx, hlt.trans_le hle⟩

theorem Collected.update (h : Collected expiresAt now f f') (key : JsString) (x : Option α) :
    Collected expiresAt now (Function.update f key x) (Function.update f' key x) := by
  intro k
  by_cases hk : k = key
  · subst hk
    rw [Function.update_self, Function.update_self]
    exact .inl rfl
  · rw [Function.update_of_ne hk, Function.update_of_ne hk]
    exact h k

/-- What has been collected on one side is deleted on the other. -/
theorem Collected.delete (h : Collected expiresAt now f f') {key : JsString} (hnone : f key = none) :
    Collected expiresAt now f (Function.update f' key none) := by
  intro k
  by_cases hk : k = key
  · subst hk
    rw [Function.update_self]
    exact .inl hnone
  · rw [Function.update_of_ne hk]
    exact h k

theorem Collected.filter_left (h : Collected expiresAt now f f') :
    Collected expiresAt now (fun key => (f key).filter fun v => !(expiresAt v < now)) f' := by
  intro key
  dsimp only
  rcases h key with heq | ⟨hnone, hx⟩
  · rw [heq]
    cases hx : f' key with
    | none => exact .inl rfl
    | some x =>
        by_cases hlt : expiresAt x < now
        · exact .inr ⟨by simp [hlt], x, rfl, hlt⟩
        · exact .inl (by simp [hlt])
  · rw [hnone]
    exact .inr ⟨rfl, hx⟩

theorem Collected.filter (h : Collected expiresAt now f f') :
    Collected expiresAt now (fun key => (f key).filter fun v => !(expiresAt v < now))
      (fun key => (f' key).filter fun v => !(expiresAt v < now)) := by
  intro key
  dsimp only
  rcases h key with heq | ⟨hnone, x, hx, hlt⟩
  · rw [heq]
    exact .inl rfl
  · rw [hnone, hx]
    rw [Option.filter_some, if_neg (by simp [hlt])]
    exact .inl rfl

end Collected

def Timed (s : OtpState) : Prop :=
  ∀ key e, s.pending key = some e → e.expiresAt = e.issuedAt + codeTtlMs

theorem timed_step {s s' : OtpState} {d : OtpRecord} (hT : Timed s) (h : OtpEffect s d s') :
    Timed s' := by
  intro key e he
  cases h with
  | quiet hs => exact hT key e (hs.pending key e he)
  | used => exact hT key e he
  | accepted => exact hT key e (eq_of_update_none he).1
  | @issued email kind =>
      dsimp only at he
      by_cases hk : key = otpKey email kind
      · subst hk
        rw [Function.update_self] at he
        cases he
        rfl
      · rw [Function.update_of_ne hk] at he
        exact hT key e he
  | @refused _ email _ kind _ _ entry hcall hans hcr hco hlive hs =>
      rcases hs with ⟨-, rfl⟩ | ⟨-, rfl⟩
      · exact hT key e (eq_of_update_none he).1
      · dsimp only at he
        by_cases hk : key = otpKey email kind
        · subst hk
          rw [Function.update_self] at he
          cases he
          exact hT _ entry (liveEntry_ok hlive).1
        · rw [Function.update_of_ne hk] at he
          exact hT key e he

theorem sim_request {now : ℕ} {s s' : OtpState} (h : StateSim now s s') (hT : Timed s')
    (email : JsString) (kind : OtpKind) (n : ℕ) :
    (request s now email kind n).1 = (request s' now email kind n).1 ∧
      StateSim now (request s now email kind n).2 (request s' now email kind n).2 := by
  let entry : ℕ → PendingEntry := fun ref =>
    ⟨ref, hashCode (generateCode n), now + codeTtlMs, 0, kind, now⟩
  have hfresh : StateSim now
      { s with
        pending := Function.update s.pending (otpKey email kind) (some (entry s.made))
        made := s.made + 1 }
      { s' with
        pending := Function.update s'.pending (otpKey email kind) (some (entry s'.made))
        made := s'.made + 1 } := by
    refine ⟨congrArg (· + 1) h.made, ?_, h.sessions⟩
    dsimp only
    rw [h.made]
    exact h.pending.update _ _
  unfold request
  dsimp only
  rcases h.pending (otpKey email kind) with heq | ⟨hnone, e, he, hlt⟩
  · rw [heq]
    cases s'.pending (otpKey email kind) with
    | none => exact ⟨rfl, hfresh⟩
    | some existing =>
        dsimp only
        split_ifs
        · exact ⟨rfl, h⟩
        · exact ⟨rfl, hfresh⟩
  · -- an expired code is older than the cooldown
    have hold : ¬ ((now : ℤ) - e.issuedAt < requestCooldownMs) := by
      have httl := hT _ e he
      simp only [codeTtlMs] at httl
      simp only [requestCooldownMs]
      omega
    rw [hnone, he]
    dsimp only
    rw [if_neg hold]
    exact ⟨rfl, hfresh⟩

theorem sim_verify {now : ℕ} {s s' : OtpState} (h : StateSim now s s') (email code : JsString)
    (kind : OtpKind) (bytes : List UInt8) :
    ((verify s now email code kind bytes).1 = (verify s' now email code kind bytes).1 ∨
        (verify s now email code kind bytes).1 = .error .noPending ∧
          (verify s' now email code kind bytes).1 = .error .expired) ∧
      StateSim now (verify s now email code kind bytes).2 (verify s' now email code kind bytes).2 := by
  -- the same change under the key keeps the states alike
  have hupdate : ∀ e, StateSim now
      { s with pending := Function.update s.pending (otpKey email kind) e }
      { s' with pending := Function.update s'.pending (otpKey email kind) e } := by
    intro e
    exact ⟨h.made, h.pending.update _ _, h.sessions⟩
  rcases h.pending (otpKey email kind) with heq | ⟨hnone, e, he, hlt⟩
  · unfold verify liveEntry
    dsimp only
    rw [heq]
    cases s'.pending (otpKey email kind) with
    | none => exact ⟨.inl rfl, h⟩
    | some entry =>
        dsimp only
        split_ifs
        · exact ⟨.inl rfl, hupdate none⟩
        · exact ⟨.inl rfl, h⟩
        · exact ⟨.inl rfl, hupdate none⟩
        · dsimp only
          split_ifs
          · exact ⟨.inl rfl, hupdate none⟩
          · exact ⟨.inl rfl, hupdate _⟩
          · exact ⟨.inl rfl, h.made, h.pending.update _ _, h.sessions.update _ _⟩
  · -- an entry that `gc` has taken is absent on one side and expired on the other
    have hs : verify s now email code kind bytes = (.error .noPending, s) := by
      simp [verify, liveEntry, hnone]
    have hs' : verify s' now email code kind bytes =
        (.error .expired, s'.deletePending (otpKey email kind)) := by
      simp [verify, liveEntry, he, hlt.le]
    rw [hs, hs']
    exact ⟨.inr ⟨rfl, rfl⟩, h.made, h.pending.delete hnone, h.sessions⟩

theorem sim_consumeSession {now : ℕ} {s s' : OtpState} (h : StateSim now s s')
    (token email : JsString) (kind : OtpKind) :
    (consumeSession s now token email kind).1 = (consumeSession s' now token email kind).1 ∧
      StateSim now (consumeSession s now token email kind).2
        (consumeSession s' now token email kind).2 := by
  have hdelete : StateSim now { s with sessions := Function.update s.sessions token none }
      { s' with sessions := Function.update s'.sessions token none } :=
    ⟨h.made, h.pending, h.sessions.update _ _⟩
  rcases h.sessions token with heq | ⟨hnone, x, hx, hlt⟩
  · unfold consumeSession
    rw [heq]
    cases s'.sessions token with
    | none => exact ⟨rfl, h⟩
    | some session =>
        dsimp only
        split_ifs <;> exact ⟨rfl, hdelete⟩
  · have hs : consumeSession s now token email kind = (false, s) := by
      simp [consumeSession, hnone]
    have hs' : consumeSession s' now token email kind =
        (false, { s' with sessions := Function.update s'.sessions token none }) := by
      simp [consumeSession, hx, hlt]
    rw [hs, hs']
    exact ⟨rfl, h.made, h.pending, h.sessions.delete hnone⟩

theorem sim_gc {now : ℕ} {s s' : OtpState} (h : StateSim now s s') :
    StateSim now (gc s now) (gc s' now) :=
  ⟨h.made, h.pending.filter, h.sessions.filter⟩

/-- One call, made in both runs. -/
theorem sim_step {now : ℕ} {s s' : OtpState} (h : StateSim now s s') (hT : Timed s')
    (call : OtpCall) :
    Agree (s.record now call) (s'.record now call) ∧
      StateSim now (s.step now call).2 (s'.step now call).2 := by
  cases call with
  | request email kind n =>
      obtain ⟨hans, hs⟩ := sim_request h hT email kind n
      exact ⟨⟨rfl, rfl, .inl (congrArg OtpAnswer.requested hans)⟩, hs⟩
  | verify email code kind bytes =>
      obtain ⟨hans, hs⟩ := sim_verify h email code kind bytes
      refine ⟨⟨rfl, rfl, ?_⟩, hs⟩
      rcases hans with hans | ⟨hnone, hexp⟩
      · exact .inl (congrArg OtpAnswer.verified hans)
      · exact .inr ⟨congrArg OtpAnswer.verified hnone, congrArg OtpAnswer.verified hexp⟩
  | consumeSession token email kind =>
      obtain ⟨hans, hs⟩ := sim_consumeSession h token email kind
      exact ⟨⟨rfl, rfl, .inl (congrArg OtpAnswer.consumed hans)⟩, hs⟩
  | gc => exact ⟨⟨rfl, rfl, .inl rfl⟩, sim_gc h⟩

theorem StateSim.mono {now now' : ℕ} {s s' : OtpState} (h : StateSim now s s') (hle : now ≤ now') :
    StateSim now' s s' :=
  ⟨h.made, h.pending.mono hle, h.sessions.mono hle⟩

/-- A `gc` made in the one run only. -/
theorem StateSim.gc_left {now : ℕ} {s s' : OtpState} (h : StateSim now s s') :
    StateSim now (gc s now) s' :=
  ⟨h.made, h.pending.filter_left, h.sessions.filter_left⟩

structure GcSim (w w' : OtpWorld) : Prop where
  clock : w'.clock ≤ w.clock
  state : StateSim w.clock w.state w'.state
  timed : Timed w'.state
  agree : List.Forall₂ Agree (visible w.log) (visible w'.log)

theorem step_eq_some {w w₁ : OtpWorld} {l : ℕ × OtpCall} (h : otp.step w l = some w₁) :
    w.clock ≤ l.1 ∧
      w₁ = ⟨(w.state.step l.1 l.2).2, l.1, w.log ++ [w.state.record l.1 l.2]⟩ := by
  simp only [otp, Option.ite_none_left_eq_some, Option.some.injEq, not_lt] at h
  exact ⟨h.1, h.2.symm⟩

theorem GcSim.keep {w w' w₁ : OtpWorld} {l : ℕ × OtpCall} (h : GcSim w w')
    (hs : otp.step w l = some w₁) : ∃ w₁', otp.step w' l = some w₁' ∧ GcSim w₁ w₁' := by
  obtain ⟨hclock, rfl⟩ := step_eq_some hs
  have hle : ¬ l.1 < w'.clock := Nat.not_lt.mpr (h.clock.trans hclock)
  obtain ⟨hagree, hsim⟩ := sim_step (h.state.mono hclock) h.timed l.2
  refine ⟨_, if_neg hle, le_rfl, hsim, timed_step h.timed (step_effect w'.state l.1 l.2), ?_⟩
  rw [visible, visible, List.filter_append, List.filter_append]
  apply List.rel_append h.agree
  by_cases hgc : l.2 = .gc
  · simp [OtpState.record, hgc]
  · simpa [OtpState.record, hgc] using hagree

theorem GcSim.drop {w w' w₁ : OtpWorld} {now : ℕ} (h : GcSim w w')
    (hs : otp.step w (now, .gc) = some w₁) : GcSim w₁ w' := by
  obtain ⟨hclock, rfl⟩ := step_eq_some hs
  refine ⟨h.clock.trans hclock, (h.state.mono hclock).gc_left, h.timed, ?_⟩
  have hvisible : visible (w.log ++ [w.state.record now .gc]) = visible w.log := by
    simp [visible, OtpState.record]
  dsimp only
  rw [hvisible]
  exact h.agree

/-- Runs that differ in calls of `gc` only. -/
theorem GcSim.run {calls calls' : List (ℕ × OtpCall)} (hd : DropGc calls calls')
    {w w' w₁ : OtpWorld} (h : GcSim w w') (hr : otp.run w calls = some w₁) :
    ∃ w₁', otp.run w' calls' = some w₁' ∧ GcSim w₁ w₁' := by
  induction hd generalizing w w' with
  | nil =>
      cases hr
      exact ⟨w', rfl, h⟩
  | @keep l ls ls' _ ih =>
      obtain ⟨w₂, hs, hr⟩ := Option.bind_eq_some_iff.mp hr
      obtain ⟨w₂', hs', h₂⟩ := h.keep hs
      obtain ⟨w₁', hr', h₁⟩ := ih h₂ hr
      exact ⟨w₁', Option.bind_eq_some_iff.mpr ⟨w₂', hs', hr'⟩, h₁⟩
  | drop _ ih =>
      obtain ⟨w₂, hs, hr⟩ := Option.bind_eq_some_iff.mp hr
      exact ih (h.drop hs) hr

/-! ## Whole runs -/

structure OtpInv (w : OtpWorld) : Prop where
  codes : CodesInv w.state w.log
  sessions : SessionsInv w.state w.log

theorem otpInv_start : OtpInv .start where
  codes := by
    constructor
    · constructor
      all_goals simp [OtpWorld.start]
    · intro d hd
      cases hd
    · intro key e he
      cases he
  sessions := by
    constructor
    · constructor
      all_goals simp [OtpWorld.start]
    · intro token x hx
      cases hx

theorem otpInv_run {calls : List (ℕ × OtpCall)} {w : OtpWorld}
    (h : otp.run .start calls = some w) : OtpInv w := by
  apply (Machine.later_of_run h).invariant _ otpInv_start
  intro w l w' hI _ hs
  obtain ⟨-, rfl⟩ := step_eq_some hs
  have heffect := step_effect w.state l.1 l.2
  exact ⟨codesInv_step hI.codes heffect, sessionsInv_step hI.sessions heffect⟩

theorem gcSim_start : GcSim .start .start where
  clock := le_rfl
  state := ⟨rfl, fun _ => .inl rfl, fun _ => .inl rfl⟩
  timed := by
    intro key e he
    cases he
  agree := .nil

/-- Every run of `request`, `verify`, `consumeSession` and `gc` at times that do not
    decrease: what holds of its codes and of its sessions, and that the same run with
    any of its `gc` calls left out gives the same answers. -/
theorem one_time_codes {calls : List (ℕ × OtpCall)} {w : OtpWorld}
    (h : otp.run .start calls = some w) :
    CodesOnce w.log ∧ SessionsOnce w.log ∧
      ∀ calls', DropGc calls calls' → ∃ w', otp.run .start calls' = some w' ∧
        List.Forall₂ Agree (visible w.log) (visible w'.log) := by
  have hI := otpInv_run h
  refine ⟨hI.codes.once, hI.sessions.once, ?_⟩
  intro calls' hd
  obtain ⟨w', hr, hsim⟩ := gcSim_start.run hd h
  exact ⟨w', hr, hsim.agree⟩

/-- A wrong code, the right one, and the session it opens. -/
def loginCalls : List (ℕ × OtpCall) :=
  [(0, .request (js "a@b.c") .login 123456), (1000, .verify (js "a@b.c") (js "000000") .login []),
    (2000, .gc), (3000, .verify (js "a@b.c") (js "123456") .login (List.replicate 24 0)),
    (4000, .consumeSession (base64url (List.replicate 24 0)) (js "a@b.c") .login)]

theorem one_time_codes_login : ∃ w, otp.run .start loginCalls = some w ∧
    w.log.map OtpRecord.accepted = [false, false, false, true, false] ∧
    w.log.countP (OtpRecord.uses (base64url (List.replicate 24 0))) = 1 ∧
    CodesOnce w.log ∧ SessionsOnce w.log ∧
      ∀ calls', DropGc loginCalls calls' → ∃ w', otp.run .start calls' = some w' ∧
        List.Forall₂ Agree (visible w.log) (visible w'.log) := by
  have hrun : (otp.run .start loginCalls).map (fun w => (w.log.map OtpRecord.accepted,
      w.log.countP (OtpRecord.uses (base64url (List.replicate 24 0))))) =
        some ([false, false, false, true, false], 1) := by
    decide +kernel
  obtain ⟨w, hw, hlog⟩ := Option.map_eq_some_iff.mp hrun
  obtain ⟨haccepted, huses⟩ := Prod.mk.inj hlog
  exact ⟨w, hw, haccepted, huses, one_time_codes hw⟩

end ZeroAuth.Iot
