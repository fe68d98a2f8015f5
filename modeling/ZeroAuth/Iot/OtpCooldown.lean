/-
  ZeroAuth.Iot.OtpCooldown

  The resend cooldown of the one-time codes (iot/src/otp.ts) over whole runs. The time
  of the last code is kept in the pending entry, and `verify` deletes that entry: with the right
  code, and with the fifth wrong one. Two codes for one email and kind are thirty seconds
  apart, and the submitted codes that are compared stay bounded, exactly as long as no
  request follows such a deletion within the cooldown (`cooldown_iff`).
-/

import ZeroAuth.Iot.OtpRuns
import Mathlib.Algebra.Order.BigOperators.Group.Finset
import Mathlib.Algebra.Group.Action.Defs

namespace ZeroAuth.Iot

open ZeroAuth.Lib ZeroAuth.Js

/-! ## What a log says of the cooldown -/

/-- Any two codes issued for one email and kind are `requestCooldownMs` apart. -/
def Spaced (log : List OtpRecord) : Prop :=
  log.Pairwise fun d d' => ∀ email kind, d.issues email kind → d'.issues email kind →
    d.now + requestCooldownMs ≤ d'.now

/-- A `verify` for the email and kind whose submitted code is compared with an issued one. -/
def OtpRecord.comparesFor (email : JsString) (kind : OtpKind) (d : OtpRecord) : Bool :=
  match d.call with
  | .verify email' _ kind' _ => d.compared.isSome && email' == email && kind' == kind
  | _ => false

/-- The submitted codes that are compared from `a` to `a + T`. -/
def comparisons (log : List OtpRecord) (email : JsString) (kind : OtpKind) (a T : ℕ) : ℕ :=
  log.countP fun d => d.comparesFor email kind && decide (a ≤ d.now ∧ d.now ≤ a + T)

def Bounded (log : List OtpRecord) : Prop :=
  ∀ (email : JsString) (kind : OtpKind) (a T : ℕ),
    comparisons log email kind a T ≤ maxAttempts * (T / requestCooldownMs + 2)

/-- A `verify` at this time deletes the entry `e` after a comparison. -/
def UsesUp (s : OtpState) (now : ℕ) (email code : JsString) (kind : OtpKind) (e : PendingEntry) : Prop :=
  liveEntry s now email kind = .ok e ∧ (hashCode code = e.codeHash ∨ e.attempts + 1 = maxAttempts)

/-- No code is requested within the cooldown of one that a `verify` has used up before. -/
def CooldownKept (calls : List (ℕ × OtpCall)) : Prop :=
  ∀ pre t email code kind bytes mid t' n post w e,
    calls = pre ++ (t, .verify email code kind bytes) :: (mid ++ (t', .request email kind n) :: post) →
    otp.run .start pre = some w → UsesUp w.state t email code kind e →
    e.issuedAt + requestCooldownMs ≤ t'

theorem CooldownKept.beginning {calls more : List (ℕ × OtpCall)} (h : CooldownKept (calls ++ more)) :
    CooldownKept calls := by
  intro pre t email code kind bytes mid t' n post w e hcalls hpre he
  apply h pre t email code kind bytes mid t' n (post ++ more) w e _ hpre he
  rw [hcalls, List.append_assoc, List.cons_append, List.append_assoc, List.cons_append]

/-! ## One call and one entry -/

theorem getLast?_text (email : JsString) (kind : OtpKind) :
    (otpKey email kind).getLast? = kind.text.getLast? := by
  have hne : kind.text ≠ [] := by cases kind <;> exact List.cons_ne_nil _ _
  rw [otpKey, List.getLast?_append_of_ne_nil _ hne]

theorem otpKey_inj_both {email email' : JsString} {kind kind' : OtpKind}
    (h : otpKey email kind = otpKey email' kind') : email = email' ∧ kind = kind' := by
  have hlast := congrArg List.getLast? h
  rw [getLast?_text, getLast?_text] at hlast
  have hkind : kind = kind' := by
    cases kind <;> cases kind' <;> first | rfl | exact absurd hlast (by decide)
  subst hkind
  exact ⟨otpKey_inj h, rfl⟩

theorem issues_record {s : OtpState} {now : ℕ} {call : OtpCall} {email : JsString} {kind : OtpKind}
    (h : (s.record now call).issues email kind) : ∃ n, call = .request email kind n ∧
      ∀ e, s.pending (otpKey email kind) = some e → e.issuedAt + requestCooldownMs ≤ now := by
  obtain ⟨hcreated, n, hcall⟩ := h
  have hcall : call = .request email kind n := hcall
  subst hcall
  refine ⟨n, rfl, fun e he => ?_⟩
  by_contra hlt
  -- within the cooldown `request` throws, and makes no entry
  have hwithin : (now : ℤ) - e.issuedAt < requestCooldownMs := by omega
  simp [OtpState.record, created, request, he, hwithin] at hcreated

/-- A request for which nothing is pending is answered with a code. -/
theorem issues_of_none {s : OtpState} {email : JsString} {kind : OtpKind}
    (h : s.pending (otpKey email kind) = none) (now n : ℕ) :
    (s.record now (.request email kind n)).issues email kind := by
  refine ⟨?_, n, rfl⟩
  simp [OtpState.record, created, request, h]

/-- What becomes of a pending entry in a call. -/
theorem pending_step {s : OtpState} (hT : Timed s)
    (hlt : ∀ key e, s.pending key = some e → e.attempts < maxAttempts) (now : ℕ) (call : OtpCall)
    {email : JsString} {kind : OtpKind} {e : PendingEntry}
    (he : s.pending (otpKey email kind) = some e) (hnow : e.issuedAt ≤ now) :
    (∃ e', (s.step now call).2.pending (otpKey email kind) = some e' ∧ e.issuedAt ≤ e'.issuedAt) ∨
      e.issuedAt + codeTtlMs ≤ now ∨
      ∃ code bytes, call = .verify email code kind bytes ∧ UsesUp s now email code kind e := by
  have hexpires := hT _ e he
  cases call with
  | request email' kind' n =>
      refine .inl ?_
      by_cases hkey : otpKey email kind = otpKey email' kind'
      · show ∃ e', (request s now email' kind' n).2.pending _ = some e' ∧ _
        rw [hkey] at he ⊢
        simp only [request, he]
        split
        · exact ⟨e, he, le_rfl⟩
        · exact ⟨_, Function.update_self _ _ _, hnow⟩
      · refine ⟨e, ?_, le_rfl⟩
        show (request s now email' kind' n).2.pending _ = some e
        rw [← he]
        simp only [request]
        split
        · exact Function.update_of_ne hkey _ _
        · split
          · rfl
          · exact Function.update_of_ne hkey _ _
  | verify email' code kind' bytes =>
      by_cases hkey : otpKey email kind = otpKey email' kind'
      · obtain ⟨rfl, rfl⟩ := otpKey_inj_both hkey
        show (∃ e', (verify s now email code kind bytes).2.pending _ = some e' ∧ _) ∨ _
        cases hlive : liveEntry s now email kind with
        | error err =>
            -- the checks before the comparison delete an entry only when it has expired
            simp only [liveEntry, he] at hlive
            split_ifs at hlive with hexpired hkind hattempts
            · exact .inr (.inl (hexpires ▸ hexpired))
            · refine .inl ⟨e, ?_, le_rfl⟩
              simp [verify, liveEntry, he, hexpired, hkind]
            · exact absurd (hlt _ e he) (Nat.not_lt.mpr hattempts)
        | ok found =>
            obtain ⟨hfound, -⟩ := liveEntry_ok hlive
            obtain rfl := Option.some.inj (he.symm.trans hfound)
            by_cases hcode : hashCode code = e.codeHash
            · exact .inr (.inr ⟨code, bytes, rfl, hlive, .inl hcode⟩)
            by_cases hlast : e.attempts + 1 = maxAttempts
            · exact .inr (.inr ⟨code, bytes, rfl, hlive, .inr hlast⟩)
            · have hmore : ¬ e.attempts + 1 ≥ maxAttempts := by
                have hattempts := hlt _ e he
                omega
              refine .inl ⟨{ e with attempts := e.attempts + 1 }, ?_, le_rfl⟩
              simp [verify, hlive, hcode, hmore]
      · refine .inl ⟨e, ?_, le_rfl⟩
        have heffect := effect_verify s now email' code kind' bytes
        show (s.step now (.verify email' code kind' bytes)).2.pending _ = some e
        have hdeleted : (s.deletePending (otpKey email' kind')).pending (otpKey email kind) = some e := by
          show Function.update s.pending _ none _ = some e
          rw [Function.update_of_ne hkey, he]
        show (verify s now email' code kind' bytes).2.pending _ = some e
        cases hlive : liveEntry s now email' kind' with
        | error err =>
            obtain ⟨reason, s'⟩ := err
            have hs' : s' = s ∨ s' = s.deletePending (otpKey email' kind') := by
              simp only [liveEntry] at hlive
              split at hlive
              · cases hlive
                exact .inl rfl
              · split_ifs at hlive <;> cases hlive
                · exact .inr rfl
                · exact .inl rfl
                · exact .inr rfl
            simp only [verify, hlive]
            rcases hs' with rfl | rfl
            · exact he
            · exact hdeleted
        | ok found =>
            simp only [verify, hlive]
            split_ifs
            · exact hdeleted
            · show Function.update _ _ _ _ = _
              rw [Function.update_of_ne hkey, he]
            · exact hdeleted
  | consumeSession token email' kind' =>
      refine .inl ⟨e, ?_, le_rfl⟩
      show (consumeSession s now token email' kind').2.pending _ = some e
      simp only [consumeSession]
      split
      · exact he
      · split_ifs <;> exact he
  | gc =>
      show (∃ e', ((s.pending (otpKey email kind)).filter _) = some e' ∧ _) ∨ _
      rw [he, Option.filter_some]
      by_cases hexpired : e.expiresAt < now
      · exact .inr (.inl (by omega))
      · exact .inl ⟨e, by simp [hexpired], le_rfl⟩

/-- Nothing comes to be pending but by a request for it. -/
theorem pending_none_step {s : OtpState} {now : ℕ} {call : OtpCall} {email : JsString}
    {kind : OtpKind} (h : s.pending (otpKey email kind) = none)
    (hcall : ∀ n, call ≠ .request email kind n) :
    (s.step now call).2.pending (otpKey email kind) = none := by
  rw [Option.eq_none_iff_forall_not_mem]
  intro e he
  rw [Option.mem_def] at he
  -- every other effect deletes entries, or changes one that is there
  have hnone : ∀ e', s.pending (otpKey email kind) ≠ some e' := fun e' he' =>
    absurd (h.symm.trans he') (by simp)
  have heffect := step_effect s now call
  generalize (s.step now call).2 = s' at he heffect
  cases heffect with
  | quiet hs => exact hnone e (hs.pending _ e he)
  | used => exact hnone e he
  | accepted => exact hnone e (eq_of_update_none he).1
  | @issued email' kind' n hreq =>
      have hreq : call = .request email' kind' n := hreq
      dsimp only at he
      rw [Function.update_of_ne] at he
      · exact hnone e he
      · intro hkey
        obtain ⟨rfl, rfl⟩ := otpKey_inj_both hkey
        exact hcall n hreq
  | @refused _ email' _ kind' _ _ entry _ _ _ _ hlive hs =>
      rcases hs with ⟨-, rfl⟩ | ⟨-, rfl⟩
      · exact hnone e (eq_of_update_none he).1
      · dsimp only at he
        rw [Function.update_of_ne] at he
        · exact hnone e he
        · intro hkey
          exact hnone entry (hkey ▸ (liveEntry_ok hlive).1)

/-- A `verify` that uses an entry up leaves nothing pending. -/
theorem UsesUp.deletes {s : OtpState} {now : ℕ} {email code : JsString} {kind : OtpKind}
    {e : PendingEntry} (h : UsesUp s now email code kind e) (bytes : List UInt8) :
    (s.step now (.verify email code kind bytes)).2.pending (otpKey email kind) = none := by
  obtain ⟨hlive, hend⟩ := h
  show (verify s now email code kind bytes).2.pending _ = none
  by_cases hcode : hashCode code = e.codeHash
  · simp [verify, hlive, hcode, OtpState.deletePending]
  · have hlast : e.attempts + 1 ≥ maxAttempts := (hend.resolve_left hcode).ge
    simp [verify, hlive, hcode, hlast, OtpState.deletePending]

/-! ## Runs -/

/-- A `verify` of the run has used up an entry of this time. -/
def Spent (calls : List (ℕ × OtpCall)) (email : JsString) (kind : OtpKind) (issuedAt : ℕ) : Prop :=
  ∃ pre t code bytes rest w e, calls = pre ++ (t, .verify email code kind bytes) :: rest ∧
    otp.run .start pre = some w ∧ UsesUp w.state t email code kind e ∧ e.issuedAt = issuedAt

theorem Spent.append {calls : List (ℕ × OtpCall)} {email : JsString} {kind : OtpKind} {t : ℕ}
    (h : Spent calls email kind t) (more : List (ℕ × OtpCall)) : Spent (calls ++ more) email kind t := by
  obtain ⟨pre, u, code, bytes, rest, w, e, rfl, hpre, he, ht⟩ := h
  exact ⟨pre, u, code, bytes, rest ++ more, w, e, by rw [List.append_assoc, List.cons_append], hpre,
    he, ht⟩

/-- What is known in a run of every code that has been issued: there is a later entry, or its
    time is over, or a `verify` has used up a later entry. -/
structure CooldownInv (calls : List (ℕ × OtpCall)) (w : OtpWorld) : Prop where
  timed : Timed w.state
  past : ∀ d ∈ w.log, d.now ≤ w.clock
  sorted : w.log.Pairwise fun d d' => d.now ≤ d'.now
  pending : ∀ key e, w.state.pending key = some e → e.issuedAt ≤ w.clock
  issued : ∀ d ∈ w.log, ∀ email kind, d.issues email kind →
    (∃ e, w.state.pending (otpKey email kind) = some e ∧ d.now ≤ e.issuedAt) ∨
      d.now + codeTtlMs ≤ w.clock ∨ ∃ t, d.now ≤ t ∧ Spent calls email kind t

theorem timed_start : Timed OtpWorld.start.state := by
  intro key e he
  cases he

/-- When an entry was issued, it was by a call of the log. -/
theorem issuedAt_le {s : OtpState} {log : List OtpRecord} {clock : ℕ} (hc : CodesInv s log)
    (hT : Timed s) (hpast : ∀ d ∈ log, d.now ≤ clock) {key : JsString} {e : PendingEntry}
    (he : s.pending key = some e) : e.issuedAt ≤ clock := by
  obtain ⟨i, d₀, email, n, hi, -, -, -, -, -, hexpires, -⟩ := (hc.pending key e he).issue
  have hnow := hpast d₀ (List.mem_of_getElem? hi)
  have htimed := hT key e he
  omega

theorem cooldownInv_run {calls : List (ℕ × OtpCall)} {w : OtpWorld}
    (h : otp.run .start calls = some w) : CooldownInv calls w := by
  induction calls using List.reverseRecOn generalizing w with
  | nil =>
      cases h
      exact ⟨timed_start, fun _ hd => (nomatch hd), .nil, fun _ _ he => (nomatch he),
        fun _ hd => (nomatch hd)⟩
  | append_singleton calls l ih =>
      have hwhole := (otpInv_run h).codes
      rw [Machine.run_snoc] at h
      obtain ⟨w₀, hw₀, hs⟩ := Option.bind_eq_some_iff.mp h
      obtain ⟨hclock, rfl⟩ := step_eq_some hs
      have hI := ih hw₀
      have hC := (otpInv_run hw₀).codes
      have heffect := step_effect w₀.state l.1 l.2
      have hpast : ∀ d ∈ w₀.log ++ [w₀.state.record l.1 l.2], d.now ≤ l.1 := by
        intro d hd
        rcases List.mem_append.mp hd with hd | hd
        · exact (hI.past d hd).trans hclock
        · rw [List.mem_singleton.mp hd]
          exact le_rfl
      have hT := timed_step hI.timed heffect
      refine ⟨hT, hpast, ?_, fun key e he => issuedAt_le hwhole hT hpast he, ?_⟩
      · rw [List.pairwise_append]
        refine ⟨hI.sorted, List.pairwise_singleton _ _, fun d hd d' hd' => ?_⟩
        rw [List.mem_singleton.mp hd']
        exact (hI.past d hd).trans hclock
      · intro d hd email kind hissues
        rcases List.mem_append.mp hd with hd | hd
        · rcases hI.issued d hd email kind hissues with ⟨e, he, hle⟩ | hexpired | ⟨t, hle, hspent⟩
          · have hnow := (hI.pending _ e he).trans hclock
            have hattempts : ∀ key e, w₀.state.pending key = some e → e.attempts < maxAttempts :=
              fun key e he => (hC.pending key e he).lt
            rcases pending_step hI.timed hattempts l.1 l.2 he hnow with
              ⟨e', he', hle'⟩ | hexpired | ⟨code, bytes, hcall, hup⟩
            · exact .inl ⟨e', he', hle.trans hle'⟩
            · exact .inr (.inl (by show d.now + codeTtlMs ≤ l.1; omega))
            · refine .inr (.inr ⟨e.issuedAt, hle, calls, l.1, code, bytes, [], w₀, e, ?_, hw₀, hup, rfl⟩)
              rw [← hcall]
          · exact .inr (.inl (hexpired.trans hclock))
          · exact .inr (.inr ⟨t, hle, hspent.append _⟩)
        · rw [List.mem_singleton.mp hd] at hissues ⊢
          -- the code that this call has issued is pending
          refine .inl ?_
          obtain ⟨hcreated, n, hcall⟩ := hissues
          have hcall : l.2 = .request email kind n := hcall
          rw [hcall] at hcreated ⊢
          show ∃ e, (request w₀.state l.1 email kind n).2.pending _ = some e ∧ _
          simp only [OtpState.record, created, request] at hcreated ⊢
          split
          · exact ⟨_, Function.update_self _ _ _, le_rfl⟩
          next existing hexisting =>
            rw [hexisting] at hcreated
            by_cases hwithin : (l.1 : ℤ) - existing.issuedAt < requestCooldownMs
            · simp [hwithin] at hcreated
            · rw [if_neg hwithin]
              exact ⟨_, Function.update_self _ _ _, le_rfl⟩

/-! ## Spacing -/

theorem spaced_of_kept {calls : List (ℕ × OtpCall)} {w : OtpWorld}
    (h : otp.run .start calls = some w) (hk : CooldownKept calls) : Spaced w.log := by
  induction calls using List.reverseRecOn generalizing w with
  | nil =>
      cases h
      exact .nil
  | append_singleton calls l ih =>
      rw [Machine.run_snoc] at h
      obtain ⟨w₀, hw₀, hs⟩ := Option.bind_eq_some_iff.mp h
      obtain ⟨hclock, rfl⟩ := step_eq_some hs
      rw [Spaced, List.pairwise_append]
      refine ⟨ih hw₀ hk.beginning, List.pairwise_singleton _ _, ?_⟩
      intro d hd d' hd' email kind hissues hissues'
      rw [List.mem_singleton.mp hd'] at hissues' ⊢
      obtain ⟨n, hcall, hcooldown⟩ := issues_record hissues'
      show d.now + requestCooldownMs ≤ l.1
      rcases (cooldownInv_run hw₀).issued d hd email kind hissues with
        ⟨e, he, hle⟩ | hexpired | ⟨t, hle, pre, u, code, bytes, rest, w₁, e, hcalls, hpre, hup, ht⟩
      · have hsince := hcooldown e he
        omega
      · have hlong : requestCooldownMs ≤ codeTtlMs := by decide
        omega
      · have hsince := hk pre u email code kind bytes rest l.1 n [] w₁ e
          (by rw [hcalls, List.append_assoc, List.cons_append, ← hcall]) hpre hup
        omega

theorem clock_le_of_run {mid post : List (ℕ × OtpCall)} {l : ℕ × OtpCall} {w w' : OtpWorld}
    (h : otp.run w (mid ++ l :: post) = some w') : w.clock ≤ l.1 := by
  induction mid generalizing w with
  | nil =>
      obtain ⟨w₁, hs, -⟩ := Option.bind_eq_some_iff.mp h
      exact (step_eq_some hs).1
  | cons m mid ih =>
      obtain ⟨w₁, hs, h⟩ := Option.bind_eq_some_iff.mp h
      obtain ⟨hclock, rfl⟩ := step_eq_some hs
      exact hclock.trans (ih h)

theorem log_prefix_of_run {calls : List (ℕ × OtpCall)} {w w' : OtpWorld}
    (h : otp.run w calls = some w') : w.log <+: w'.log := by
  induction calls generalizing w with
  | nil =>
      cases h
      exact List.prefix_rfl
  | cons l calls ih =>
      obtain ⟨w₁, hs, h⟩ := Option.bind_eq_some_iff.mp h
      obtain ⟨-, rfl⟩ := step_eq_some hs
      exact (List.prefix_append _ _).trans (ih h)

/-- With nothing pending, the first request of the rest of the run issues a code. -/
theorem spaced_request {mid post : List (ℕ × OtpCall)} {w w' : OtpWorld} {email : JsString}
    {kind : OtpKind} {t n : ℕ} {d₀ : OtpRecord}
    (h : otp.run w (mid ++ (t, .request email kind n) :: post) = some w') (hs : Spaced w'.log)
    (hnone : w.state.pending (otpKey email kind) = none) (hd₀ : d₀ ∈ w.log)
    (hissues : d₀.issues email kind) : d₀.now + requestCooldownMs ≤ t := by
  have hnext : ∀ {u m : ℕ} {rest : List (ℕ × OtpCall)} {v : OtpWorld},
      v.state.pending (otpKey email kind) = none → d₀ ∈ v.log →
      otp.run v ((u, .request email kind m) :: rest) = some w' → d₀.now + requestCooldownMs ≤ u := by
    intro u m rest v hnone hd₀ hrun
    obtain ⟨w₁, hs₁, hrun⟩ := Option.bind_eq_some_iff.mp hrun
    obtain ⟨-, rfl⟩ := step_eq_some hs₁
    obtain ⟨more, hmore⟩ := log_prefix_of_run hrun
    rw [Spaced, ← hmore, List.pairwise_append] at hs
    exact (List.pairwise_append.mp hs.1).2.2 d₀ hd₀ _ (List.mem_singleton_self _) email kind hissues
      (issues_of_none hnone u m)
  induction mid generalizing w with
  | nil => exact hnext hnone hd₀ h
  | cons l mid ih =>
      by_cases hl : ∃ m, l.2 = .request email kind m
      · obtain ⟨m, hm⟩ := hl
        have hl : l = (l.1, .request email kind m) := by rw [← hm]
        have hfirst := hnext hnone hd₀ (hl ▸ h)
        obtain ⟨w₁, hs₁, h⟩ := Option.bind_eq_some_iff.mp h
        have hlater := clock_le_of_run h
        obtain ⟨-, rfl⟩ := step_eq_some hs₁
        exact hfirst.trans hlater
      · obtain ⟨w₁, hs₁, h⟩ := Option.bind_eq_some_iff.mp h
        obtain ⟨-, rfl⟩ := step_eq_some hs₁
        exact ih h (pending_none_step hnone fun m hm => hl ⟨m, hm⟩) (List.mem_append_left _ hd₀)

theorem kept_of_spaced {calls : List (ℕ × OtpCall)} {w : OtpWorld}
    (h : otp.run .start calls = some w) (hs : Spaced w.log) : CooldownKept calls := by
  rintro pre t email code kind bytes mid t' n post w₀ e rfl hpre hup
  rw [Machine.run_append, hpre, Option.bind_some] at h
  obtain ⟨w₁, hs₁, h⟩ := Option.bind_eq_some_iff.mp h
  obtain ⟨-, rfl⟩ := step_eq_some hs₁
  have hI := cooldownInv_run hpre
  obtain ⟨he, -, hkind, -⟩ := liveEntry_ok hup.1
  obtain ⟨i, d₀, email', m, hi, hcreated, hcall, -, hkey, -, hexpires, -⟩ :=
    ((otpInv_run hpre).codes.pending _ e he).issue
  rw [hkind] at hkey hcall
  obtain rfl := otpKey_inj hkey
  have hnow : d₀.now = e.issuedAt := by
    have htimed := hI.timed _ e he
    omega
  have hissues : d₀.issues email kind := ⟨by rw [hcreated]; rfl, m, hcall⟩
  rw [← hnow]
  exact spaced_request h hs (hup.deletes bytes)
    (List.mem_append_left _ (List.mem_of_getElem? hi)) hissues

/-! ## Bounded guessing -/

theorem length_le_of_count {l : List ℕ} {n : ℕ} (h : ∀ r, l.count r ≤ n) :
    l.length ≤ n * l.toFinset.card := by
  have hsum := Finset.sum_le_card_nsmul l.toFinset (fun r => l.count r) n fun r _ => h r
  rw [List.sum_toFinset_count_eq_length, smul_eq_mul, Nat.mul_comm] at hsum
  exact hsum

/-- The code that is compared from `a` to `a + T`, when it was issued and when it is compared. -/
def ComparedIn (log : List OtpRecord) (email : JsString) (kind : OtpKind) (a T r : ℕ)
    (i : ℕ) (d₀ : OtpRecord) : Prop :=
  ∃ (j : ℕ) (d : OtpRecord), i < j ∧ log[i]? = some d₀ ∧ log[j]? = some d ∧ d₀.created = some r ∧
    d₀.issues email kind ∧ d.comparesFor email kind = true ∧ a ≤ d.now ∧ d.now ≤ a + T ∧
    ∀ (k : ℕ) (d' : OtpRecord), i < k → k < j → log[k]? = some d' → ¬ d'.issues email kind

theorem call_of_comparesFor {d : OtpRecord} {email : JsString} {kind : OtpKind}
    (h : d.comparesFor email kind = true) :
    d.compared.isSome ∧ ∃ code bytes, d.call = .verify email code kind bytes := by
  rw [OtpRecord.comparesFor] at h
  split at h
  · next email' code kind' bytes hcall =>
      simp only [Bool.and_eq_true, beq_iff_eq] at h
      obtain ⟨⟨hsome, rfl⟩, rfl⟩ := h
      exact ⟨hsome, code, bytes, hcall⟩
  · cases h

theorem comparedIn_of_mem {log : List OtpRecord} (hc : CodesOnce log) {d : OtpRecord} (hd : d ∈ log)
    {email : JsString} {kind : OtpKind} {a T : ℕ} (hf : d.comparesFor email kind = true)
    (hfrom : a ≤ d.now) (hto : d.now ≤ a + T) :
    ∃ r i d₀, d.compared = some r ∧ ComparedIn log email kind a T r i d₀ := by
  obtain ⟨j, hj⟩ := List.mem_iff_getElem?.mp hd
  obtain ⟨hsome, code', bytes', hcall'⟩ := call_of_comparesFor hf
  obtain ⟨email', code, kind', bytes, i, d₀, n, hcall, hij, hi, hcreated, hreq, -, -, -, hlast⟩ :=
    hc.current j d hj hsome
  rw [hcall'] at hcall
  obtain ⟨rfl, -, rfl, -⟩ := OtpCall.verify.inj hcall
  obtain ⟨r, hr⟩ := Option.isSome_iff_exists.mp hsome
  have hcreated : d₀.created = some r := hcreated.trans hr
  exact ⟨r, i, d₀, hr, j, d, hij, hi, hj, hcreated, ⟨by rw [hcreated]; rfl, n, hreq⟩, hf, hfrom, hto,
    hlast⟩

theorem pairwise_getElem? {log : List OtpRecord} {R : OtpRecord → OtpRecord → Prop}
    (h : log.Pairwise R) {i j : ℕ} {d d' : OtpRecord} (hi : log[i]? = some d) (hj : log[j]? = some d')
    (hij : i < j) : R d d' := by
  obtain ⟨hilt, rfl⟩ := List.getElem?_eq_some_iff.mp hi
  obtain ⟨hjlt, rfl⟩ := List.getElem?_eq_some_iff.mp hj
  exact List.pairwise_iff_getElem.mp h i j hilt hjlt hij

/-- The slot of an issue time: one for all times before `a`, then one for each cooldown. -/
def slot (a t : ℕ) : ℕ := if t < a then 0 else (t - a) / requestCooldownMs + 1

/-- Of two codes compared in the interval the later one was issued in it, in a later slot. -/
theorem slot_lt {log : List OtpRecord} (hs : Spaced log)
    (hsorted : log.Pairwise fun d d' => d.now ≤ d'.now) {email : JsString} {kind : OtpKind}
    {a T r r' i i' : ℕ} {d₀ d₀' : OtpRecord} (h : ComparedIn log email kind a T r i d₀)
    (h' : ComparedIn log email kind a T r' i' d₀') (hlt : i < i') : slot a d₀.now < slot a d₀'.now := by
  obtain ⟨j, d, hij, hi, hj, -, hissues, hf, hfrom, -, hlast⟩ := h
  obtain ⟨-, -, -, hi', -, -, hissues', -⟩ := h'
  have hafter : j < i' := by
    rcases Nat.lt_trichotomy j i' with hji | rfl | hji
    · exact hji
    · -- the call at `j` is a `verify`
      obtain ⟨-, code, bytes, hcall⟩ := call_of_comparesFor hf
      obtain ⟨-, n, hcall'⟩ := hissues'
      rw [Option.some.inj (hj.symm.trans hi'), hcall'] at hcall
      cases hcall
    · exact absurd hissues' (hlast i' d₀' hlt hji hi')
  have hin : a ≤ d₀'.now := hfrom.trans (pairwise_getElem? hsorted hj hi' hafter)
  have hspace := pairwise_getElem? hs hi hi' hlt email kind hissues hissues'
  have hpos : 0 < requestCooldownMs := by decide
  rw [slot, slot, if_neg (Nat.not_lt.mpr hin)]
  split
  · exact Nat.succ_pos _
  · have hnext : (d₀.now - a) / requestCooldownMs + 1 ≤ (d₀'.now - a) / requestCooldownMs := by
      rw [← Nat.add_div_right _ hpos]
      exact Nat.div_le_div_right (by omega)
    omega

theorem slot_le {log : List OtpRecord} (hsorted : log.Pairwise fun d d' => d.now ≤ d'.now)
    {email : JsString} {kind : OtpKind} {a T r i : ℕ} {d₀ : OtpRecord}
    (h : ComparedIn log email kind a T r i d₀) : slot a d₀.now < T / requestCooldownMs + 2 := by
  obtain ⟨j, d, hij, hi, hj, -, -, -, -, hto, -⟩ := h
  have hbefore : d₀.now ≤ d.now := pairwise_getElem? hsorted hi hj hij
  have hquot : (d₀.now - a) / requestCooldownMs ≤ T / requestCooldownMs :=
    Nat.div_le_div_right (by omega)
  rw [slot]
  split
  · exact Nat.succ_pos _
  · omega

theorem bounded_of_spaced {calls : List (ℕ × OtpCall)} {w : OtpWorld}
    (h : otp.run .start calls = some w) (hs : Spaced w.log) : Bounded w.log := by
  intro email kind a T
  have hc := (otpInv_run h).codes.once
  have hsorted := (cooldownInv_run h).sorted
  -- the entries that the submitted codes are compared with
  let within (d : OtpRecord) : Bool :=
    d.comparesFor email kind && decide (a ≤ d.now ∧ d.now ≤ a + T)
  let refs := (w.log.filter within).map fun d => d.compared.getD 0
  have hwithin : ∀ d, within d = true →
      d.comparesFor email kind = true ∧ a ≤ d.now ∧ d.now ≤ a + T := by
    intro d hd
    simpa only [within, Bool.and_eq_true, decide_eq_true_eq] using hd
  have hcount : ∀ r, refs.count r ≤ maxAttempts := by
    intro r
    refine le_trans ?_ (hc.attempts r)
    rw [List.count_eq_countP, List.countP_map, List.countP_filter]
    refine List.countP_mono_left fun d _ hd => ?_
    simp only [Function.comp_apply, Bool.and_eq_true, beq_iff_eq] at hd
    obtain ⟨hr, hd⟩ := hd
    obtain ⟨r', hr'⟩ := Option.isSome_iff_exists.mp (call_of_comparesFor (hwithin d hd).1).1
    rw [hr', Option.getD_some] at hr
    simp [OtpRecord.compares, hr', hr]
  have hrefs : ∀ r ∈ refs.toFinset, ∃ i d₀, ComparedIn w.log email kind a T r i d₀ := by
    intro r hr
    obtain ⟨d, hd, rfl⟩ := List.mem_map.mp (List.mem_toFinset.mp hr)
    obtain ⟨hmem, hd⟩ := List.mem_filter.mp hd
    obtain ⟨hf, hfrom, hto⟩ := hwithin d hd
    obtain ⟨r, i, d₀, hr, hin⟩ := comparedIn_of_mem hc hmem hf hfrom hto
    exact ⟨i, d₀, by rw [hr]; exact hin⟩
  have : Nonempty OtpRecord := ⟨OtpState.empty.record 0 .gc⟩
  choose! index issue hissue using hrefs
  have hcard : refs.toFinset.card ≤ T / requestCooldownMs + 2 := by
    rw [← Finset.card_range (T / requestCooldownMs + 2)]
    refine Finset.card_le_card_of_injOn (fun r => slot a (issue r).now) ?_ ?_
    · intro r hr
      exact Finset.mem_coe.mpr (Finset.mem_range.mpr (slot_le hsorted (hissue r hr)))
    · intro r hr r' hr' hslot
      have hslot : slot a (issue r).now = slot a (issue r').now := hslot
      rcases Nat.lt_trichotomy (index r) (index r') with hlt | heq | hlt
      · exact absurd hslot (slot_lt hs hsorted (hissue r hr) (hissue r' hr') hlt).ne
      · obtain ⟨-, -, -, hi, -, hcreated, -⟩ := hissue r hr
        obtain ⟨-, -, -, hi', -, hcreated', -⟩ := hissue r' hr'
        rw [heq] at hi
        rw [Option.some.inj (hi.symm.trans hi')] at hcreated
        exact Option.some.inj (hcreated.symm.trans hcreated')
      · exact absurd hslot.symm (slot_lt hs hsorted (hissue r' hr') (hissue r hr) hlt).ne
  calc comparisons w.log email kind a T = refs.length := by
        rw [comparisons, List.countP_eq_length_filter, List.length_map]
    _ ≤ maxAttempts * refs.toFinset.card := length_le_of_count hcount
    _ ≤ maxAttempts * (T / requestCooldownMs + 2) := Nat.mul_le_mul_left _ hcard

/-- In every run the codes are spaced and the comparisons bounded if and only if no request
    comes within the cooldown of a code that a `verify` has used up. -/
theorem cooldown_iff {calls : List (ℕ × OtpCall)} {w : OtpWorld}
    (h : otp.run .start calls = some w) :
    (Spaced w.log ∧ Bounded w.log) ↔ CooldownKept calls := by
  constructor
  · rintro ⟨hs, -⟩
    exact kept_of_spaced h hs
  · intro hk
    have hs := spaced_of_kept h hk
    exact ⟨hs, bounded_of_spaced h hs⟩

/-- Of a `verify`: the requests of `rest` keep the cooldown of the entry that it finds. -/
def keptAfter (s : OtpState) : ℕ × OtpCall → List (ℕ × OtpCall) → Bool
  | (t, .verify email _ kind _), rest =>
      match liveEntry s t email kind with
      | .ok e => rest.all fun x => match x.2 with
          | .request email' kind' _ =>
              email' ≠ email || kind' ≠ kind || e.issuedAt + requestCooldownMs ≤ x.1
          | _ => true
      | .error _ => true
  | _, _ => true

/-- A test for `CooldownKept`. -/
def keepsCooldown (w : OtpWorld) : List (ℕ × OtpCall) → Bool
  | [] => true
  | x :: rest => keptAfter w.state x rest && (otp.step w x).all fun w' => keepsCooldown w' rest

theorem kept_of_keepsCooldown {calls : List (ℕ × OtpCall)}
    (h : keepsCooldown .start calls = true) : CooldownKept calls := by
  intro pre t email code kind bytes mid t' n post w e hcalls hpre he
  generalize OtpWorld.start = w₀ at h hpre
  induction pre generalizing w₀ calls with
  | nil =>
      cases hpre
      rw [hcalls, List.nil_append, keepsCooldown, Bool.and_eq_true] at h
      have hafter := h.1
      simp only [keptAfter, he.1, List.all_append, List.all_cons, Bool.and_eq_true] at hafter
      simpa using hafter.2.1
  | cons x pre ih =>
      obtain ⟨w₁, hs, hpre⟩ := Option.bind_eq_some_iff.mp hpre
      rw [hcalls, List.cons_append, keepsCooldown, hs, Option.all_some, Bool.and_eq_true] at h
      exact ih rfl _ h.2 hpre

/-- A wrong code and then the right one; the next code is requested at the end of the
    cooldown. -/
def patientCalls : List (ℕ × OtpCall) :=
  [(0, .request (js "a@b.c") .login 123456),
    (1000, .verify (js "a@b.c") (js "000000") .login (List.replicate 24 0)),
    (2000, .verify (js "a@b.c") (js "123456") .login (List.replicate 24 0)),
    (30000, .request (js "a@b.c") .login 654321)]

theorem cooldown_iff_patient :
    ∃ w, otp.run .start patientCalls = some w ∧ w.log.map OtpRecord.accepted = [false, false, true, false] ∧
      Spaced w.log ∧ Bounded w.log := by
  have hrun : (otp.run .start patientCalls).map (fun w => w.log.map OtpRecord.accepted) =
      some [false, false, true, false] := by
    decide +kernel
  have hkept : CooldownKept patientCalls := kept_of_keepsCooldown (by decide +kernel)
  obtain ⟨w, hw, haccepted⟩ := Option.map_eq_some_iff.mp hrun
  exact ⟨w, hw, haccepted, (cooldown_iff hw).mpr hkept⟩

/-- A login, and a second one two seconds after the first request. -/
def hastyCalls : List (ℕ × OtpCall) :=
  [(0, .request (js "a@b.c") .login 123456),
    (1000, .verify (js "a@b.c") (js "123456") .login (List.replicate 24 0)),
    (2000, .request (js "a@b.c") .login 654321)]

theorem cooldown_reset :
    ¬ ∀ (calls : List (ℕ × OtpCall)) (w : OtpWorld), otp.run .start calls = some w →
      Spaced w.log ∧ Bounded w.log := by
  intro h
  have hkept : CooldownKept hastyCalls := kept_of_spaced rfl (h hastyCalls _ rfl).1
  have hcode : hashCode (js "123456") = hashCode (generateCode 123456) := rfl
  have hlate := hkept [(0, .request (js "a@b.c") .login 123456)] 1000 (js "a@b.c") (js "123456") .login
    (List.replicate 24 0) [] 2000 654321 [] _
    ⟨0, hashCode (generateCode 123456), codeTtlMs, 0, .login, 0⟩ rfl rfl ⟨rfl, .inl hcode⟩
  revert hlate
  decide

end ZeroAuth.Iot
