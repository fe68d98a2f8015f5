/-
  ZeroAuth.Pairing.Submit

  What a run of `submitProof` can look like, whatever is answered to its
  operations.

  `BodyRun` lists the ways in which the protected part can end: rejected by a
  check, refused by the claim, or past a claim that changed the row.
  `ends_submitProof` adds what the `catch` does.
-/

import ZeroAuth.Pairing.Kinds

namespace ZeroAuth.Pairing

open ZeroAuth.Lib ZeroAuth.Js ZeroAuth.Pg ZeroAuth.Audit Prog

/-! ## Errors that operations have -/

/-- What fails is a statement or another service, and it does not throw an error
    class of this service. -/
def Plausible (x : Act sig Failure) : Prop :=
  ∀ e, x.answer = .error e → x.op.mayFail = true ∧ ∃ m, e = .other m

/-- The classes of the Play Integrity gate. -/
def PairingError.isIntegrity : PairingError → Bool
  | playIntegrityRequired | playIntegrityInsufficient => true
  | _ => false

/-- Every error class that the program throws satisfies `P`. -/
def Throws {α : Type} (P : PairingError → Prop) (p : Program α) : Prop :=
  Ends (fun es out => (∀ x ∈ es, Plausible x) → ∀ c m, out = .error (.pairing c m) → P c) p

section Throws

variable {α β : Type} {P : PairingError → Prop}

theorem throws_ret {a : α} : Throws P (.ret a : Program α) :=
  fun _ _ _ h => by cases h

theorem throws_raise {c : PairingError} {m : JsString} (h : P c) :
    Throws P (.raise (.pairing c m) : Program α) := by
  intro _ c' m' heq
  cases heq
  exact h

theorem throws_ofExcept {x : Except Failure α} (h : ∀ c m, x = .error (.pairing c m) → P c) :
    Throws P (Prog.ofExcept x) :=
  ends_ofExcept.mpr fun _ => h

theorem throws_await {o : Op} : Throws P (await o) := by
  refine ends_perform.mpr ⟨fun a _ c m h => (by cases h), fun e hpl c m h => ?_⟩
  obtain ⟨-, m', rfl⟩ := hpl _ (List.mem_singleton_self _) e rfl
  cases h

theorem Throws.bind {p : Program α} {f : α → Program β} (h : Throws P p)
    (hf : ∀ a, Throws P (f a)) : Throws P (p >>= f) := by
  refine Ends.bind h (fun es a _ => (hf a).mono fun es' out hout hpl => ?_) fun es e he hpl c m hc =>
    he hpl c m (by cases hc; rfl)
  exact hout fun x hx => hpl x (List.mem_append_right _ hx)

theorem Throws.tryCatch {p : Program α} {g : Failure → Program α} (h : Throws P p)
    (hg : ∀ e, (∀ c m, e = .pairing c m → P c) → Throws P (g e)) : Throws P (p.tryCatch g) := by
  refine Ends.tryCatch h (fun es a he => he) fun es e he => ?_
  by_cases hpl : ∀ x ∈ es, Plausible x
  · refine (hg e fun c m hc => he hpl c m (congrArg Except.error hc)).mono fun es' out hout hpl' => ?_
    exact hout fun x hx => hpl' x (List.mem_append_right _ hx)
  · exact ends_of_forall fun es' out hpl' =>
      absurd (fun x hx => hpl' x (List.mem_append_left _ hx)) hpl

theorem throws_ignoreFailure {p : Program Unit} : Throws P (ignoreFailure p) :=
  Ends.tryCatch (Ψ := fun _ _ => True) (ends_of_forall fun _ _ => trivial)
    (fun _ _ _ _ _ _ h => by cases h) fun _ _ _ _ _ _ h => by cases h

end Throws

section Checks

variable {cfg : Settings} {input : SubmitInput}

theorem parseBigIntText_throws {raw : JsString} {c : PairingError} {m : JsString}
    (h : parseBigIntText raw = .error (.pairing c m)) : c = .proofInvalid := by
  unfold parseBigIntText at h
  split at h
  · cases h
    rfl
  · split at h <;> cases h
    rfl

theorem parseBigIntFromSignal_throws {raw : Json} {c : PairingError} {m : JsString}
    (h : parseBigIntFromSignal raw = .error (.pairing c m)) : c = .proofInvalid := by
  unfold parseBigIntFromSignal at h
  split at h
  · exact parseBigIntText_throws h
  · exact parseBigIntText_throws h
  · cases h
    rfl

theorem nonceHexToField_throws {nonceHex : JsString} {c : PairingError} {m : JsString}
    (h : nonceHexToField nonceHex = .error (.pairing c m)) : c = .nonceMismatch := by
  unfold nonceHexToField at h
  split at h
  · split at h <;> cases h
  · cases h

theorem throws_loadOpenSession :
    Throws (fun c => c.isIntegrity = false) (loadOpenSession input) := by
  refine throws_await.bind fun row => ?_
  cases row with
  | none =>
      refine throws_await.bind fun bareRow => ?_
      split
      · exact throws_ignoreFailure.bind fun _ => throws_raise rfl
      · exact throws_raise rfl
  | some row =>
      simp only [checkOpen]
      split
      · exact throws_raise rfl
      · split
        · exact throws_raise rfl
        · refine throws_await.bind fun now => ?_
          split
          · exact throws_raise rfl
          · exact throws_ret

theorem throws_checkBindToken (row : SessionRow) :
    Throws (fun c => c.isIntegrity = false) (checkBindToken input row) := by
  unfold checkBindToken
  split
  · exact throws_raise rfl
  · exact throws_raise rfl
  · split
    · exact throws_ret
    · exact throws_ignoreFailure.bind fun _ => throws_raise rfl

theorem throws_checkUser : Throws (fun c => c.isIntegrity = false) (checkUser input) := by
  have hfind : Throws (fun c => c.isIntegrity = false)
      (findUserByDid input.tenantId input.environment input.did) := by
    refine throws_await.bind fun row => ?_
    cases row with
    | none => exact throws_ret
    | some row =>
        obtain ⟨id, metadata⟩ := row
        simp only
        split <;> exact throws_ret
  refine hfind.bind fun user => ?_
  split
  · exact throws_raise rfl
  · split
    · exact throws_raise rfl
    · refine Throws.bind (throws_ofExcept fun c m h => parseBigIntFromSignal_throws h ▸ rfl)
        fun _ => Throws.bind (throws_ofExcept fun c m h => parseBigIntText_throws h ▸ rfl)
        fun _ => ?_
      split
      · exact throws_ret
      · exact throws_raise rfl

theorem throws_checkNonce (row : SessionRow) (user : StoredUserCommitment) (signal₁ : Json) :
    Throws (fun c => c.isIntegrity = false) (checkNonce cfg input row user signal₁) := by
  refine Throws.bind (throws_ofExcept fun c m h => parseBigIntText_throws h ▸ rfl) fun _ =>
    Throws.bind (throws_ofExcept fun c m h => nonceHexToField_throws h ▸ rfl) fun _ =>
    Throws.bind (throws_ofExcept fun c m h => parseBigIntFromSignal_throws h ▸ rfl) fun _ => ?_
  split
  · exact throws_ret
  · exact throws_ignoreFailure.bind fun _ => throws_raise rfl

theorem throws_verifyInline (proof publicSignals : Json) :
    Throws (fun c => c.isIntegrity = false) (verifyInline cfg proof publicSignals) := by
  unfold verifyInline
  split
  · exact throws_await.tryCatch fun _ _ => throws_ret
  · exact throws_ret

theorem throws_checkProof (correlationId : Uuid) :
    Throws (fun c => c.isIntegrity = false) (checkProof cfg input correlationId) := by
  have hverify : Throws (fun c => c.isIntegrity = false)
      (verifierVerify cfg input correlationId) := by
    rcases hurl : cfg.verifierUrl with _ | ⟨_ | ⟨u, us⟩⟩ <;> simp only [verifierVerify, hurl]
    · exact throws_verifyInline _ _
    · exact throws_verifyInline _ _
    · refine Throws.tryCatch ?_ fun e he => ?_
      · refine throws_await.bind fun reply => ?_
        split
        · exact throws_raise rfl
        · exact throws_ret
        · exact throws_ret
      · split
        · exact throws_raise (he _ _ rfl)
        · exact throws_raise rfl
  refine hverify.bind fun verified => ?_
  split
  · exact throws_ret
  · exact throws_raise rfl

end Checks

/-! ## The row that a call goes on with -/

/-- The row that was read and the time with which its expiry was compared. -/
def tested : List (Act sig Failure) → Option (SessionRow × ℕ)
  | ⟨.selectSession _ _ _, .ok (some row)⟩ :: ⟨.now, .ok t⟩ :: _ => some (row, t)
  | _ :: es => tested es
  | [] => none

/-- The tests of the state machine in `submitProof`, at time `t`. -/
def SessionRow.OpenAt (row : SessionRow) (t : ℕ) : Prop :=
  row.state ≠ .consumed ∧ row.state ≠ .failed ∧ row.failureCount < maxFailuresBeforeLock ∧
    t < row.expiresAt

/-- The call has read its session and found it open. -/
def Opened (es : List (Act sig Failure)) : Prop :=
  ∃ row t, tested es = some (row, t) ∧ row.OpenAt t

/-- The row that an operation has read. -/
def loadedRow : Act sig Failure → Option SessionRow
  | ⟨.selectSession _ _ _, .ok (some row)⟩ => some row
  | _ => none

section Tested

variable {es es' : List (Act sig Failure)} {x : Act sig Failure} {row : SessionRow} {t : ℕ}

theorem tested_cons_of_ne (h : x.op.kind ≠ .load) : tested (x :: es) = tested es := by
  obtain ⟨o, r⟩ := x
  cases o with
  | selectSession s tn env => exact absurd rfl h
  | _ => rfl

theorem tested_append (h : tested es = some (row, t)) : tested (es ++ es') = some (row, t) := by
  fun_induction tested es with
  | case1 s tn env row' t' es =>
      exact h
  | case2 x es hx ih =>
      rw [List.cons_append, tested]
      · exact ih h
      · intro s tn env row' t' tail hx' heq
        cases es with
        | nil => cases h
        | cons y ys =>
            obtain ⟨rfl, -⟩ := List.cons.inj heq
            exact hx s tn env row' t' ys hx' rfl
  | case3 => cases h

theorem Opened.append (h : Opened es) : Opened (es ++ es') := by
  obtain ⟨row, t, htest, hopen⟩ := h
  exact ⟨row, t, tested_append htest, hopen⟩

/-- The tested row was read. -/
theorem loaded_of_tested (h : tested es = some (row, t)) :
    ∃ x ∈ es, loadedRow x = some row := by
  fun_induction tested es with
  | case1 s tn env row' t' es =>
      cases h
      exact ⟨_, List.mem_cons_self, rfl⟩
  | case2 x es hx ih =>
      obtain ⟨y, hy, hrow⟩ := ih h
      exact ⟨y, by simp [hy], hrow⟩
  | case3 => cases h

theorem kind_of_loadedRow (h : loadedRow x = some row) : x.op.kind = .load := by
  unfold loadedRow at h
  split at h
  · rfl
  · cases h

theorem loadedRow_of_within {sessionId : JsString} {ks : List OpKind}
    (h : x.op.Within sessionId ks) (hks : .load ∉ ks) : loadedRow x = none := by
  by_contra hne
  obtain ⟨row, hrow⟩ := Option.ne_none_iff_exists'.mp hne
  exact hks (kind_of_loadedRow hrow ▸ h.1)

end Tested

/-- A count was tried. -/
def Increments (es : List (Act sig Failure)) : Prop := ∃ x ∈ es, x.op.kind = .increment

theorem Increments.append_left {es : List (Act sig Failure)} (h : Increments es)
    (pre : List (Act sig Failure)) : Increments (pre ++ es) := by
  obtain ⟨x, hx, hkind⟩ := h
  exact ⟨x, List.mem_append_right _ hx, hkind⟩

theorem Increments.append_right {es : List (Act sig Failure)} (h : Increments es)
    (post : List (Act sig Failure)) : Increments (es ++ post) := by
  obtain ⟨x, hx, hkind⟩ := h
  exact ⟨x, List.mem_append_left _ hx, hkind⟩

section Parts

variable {cfg : Settings} {input : SubmitInput}

theorem ends_incrementFailureCount (errorCode : JsString) :
    Ends (fun es _ => Increments es) (incrementFailureCount input.sessionId errorCode) :=
  ends_perform_bind.mpr ⟨fun _ => ⟨_, List.mem_singleton_self _, rfl⟩,
    fun _ => ⟨_, List.mem_singleton_self _, rfl⟩⟩

theorem ends_missingSession :
    Ends (fun _ out => ∃ e, out = .error e) (missingSession input) := by
  refine ends_perform_bind.mpr ⟨fun bareRow => ?_, fun e => ⟨e, rfl⟩⟩
  split
  · exact Ends.bind (ends_of_forall (Φ := fun _ _ => True) fun _ _ => trivial)
      (fun _ _ _ => ⟨_, rfl⟩) fun _ e _ => ⟨e, rfl⟩
  · exact ⟨_, rfl⟩

theorem ends_checkOpen (row : SessionRow) :
    Ends (fun es out =>
      (∀ row', out = .ok row' → row' = row ∧ ∃ t, es = [⟨Op.now, .ok t⟩] ∧ row.OpenAt t) ∧
      (row.state = .failed → out = .error PairingError.sessionLocked.thrown)) (checkOpen row) := by
  unfold checkOpen
  split
  · next hconsumed => exact ⟨fun row' h => (by cases h), fun hf => by rw [hconsumed] at hf; cases hf⟩
  · next hconsumed =>
      split
      · exact ⟨fun row' h => (by cases h), fun _ => rfl⟩
      · next hlocked =>
          have hne : row.state ≠ .failed := fun hf => hlocked (.inl hf)
          have hcount : row.failureCount < maxFailuresBeforeLock :=
            not_le.mp fun hc => hlocked (.inr hc)
          refine ends_perform_bind.mpr ⟨fun now => ?_, fun e => ⟨fun row' h => (by cases h), ?_⟩⟩
          · split
            · exact ⟨fun row' h => (by cases h), fun hf => absurd hf hne⟩
            · next hexp =>
                refine ⟨fun row' h => ?_, fun hf => absurd hf hne⟩
                cases h
                exact ⟨rfl, now, rfl, hconsumed, hne, hcount, not_le.mp hexp⟩
          · exact fun hf => absurd hf hne

/-- The first read: the call goes on with an open row only, and a row that has
    failed gives `PairingSessionLocked`. -/
theorem ends_loadOpenSession :
    Ends (fun es out => (∀ row, out = .ok row → Opened es) ∧
      ∀ x ∈ es, ∀ row, loadedRow x = some row → row.state = .failed →
        out = .error PairingError.sessionLocked.thrown) (loadOpenSession input) := by
  refine ends_perform_bind.mpr ⟨fun row => ?_, fun e => ⟨fun row h => (by cases h), ?_⟩⟩
  · cases row with
    | none =>
        refine (ends_missingSession.and only_missingSession.ends).mono fun es out hout => ?_
        obtain ⟨⟨e, rfl⟩, hplain⟩ := hout
        refine ⟨fun row h => (by cases h), fun x hx row hrow => ?_⟩
        rcases List.mem_cons.mp hx with rfl | hx
        · cases hrow
        · rw [loadedRow_of_within (hplain x hx) (by decide)] at hrow
          cases hrow
    | some row =>
        have honly : Only (Op.Within input.sessionId [.plain]) (checkOpen row) := only_checkOpen row
        refine ((ends_checkOpen row).and honly.ends).mono fun es out hout => ?_
        obtain ⟨⟨hok, hfailed⟩, hplain⟩ := hout
        refine ⟨fun row' h => ?_, fun x hx row' hrow => ?_⟩
        · obtain ⟨rfl, t, rfl, hopen⟩ := hok row' h
          exact ⟨row', t, rfl, hopen⟩
        · rcases List.mem_cons.mp hx with rfl | hx
          · cases hrow
            exact hfailed
          · rw [loadedRow_of_within (hplain x hx) (by decide)] at hrow
            cases hrow
  · intro x hx row hrow
    obtain rfl := List.mem_singleton.mp hx
    cases hrow

/-- A rejection by the Play Integrity policy has tried to count itself. -/
theorem ends_checkPlayIntegrity :
    Ends (fun es out => ∀ e, out = .error e → Increments es) (checkPlayIntegrity input) := by
  have hpolicy : Ends (fun _ out => ∃ policy, out = .ok policy)
      (loadTenantSecurityPolicy input.tenantId) :=
    Ends.tryCatch (Ψ := fun _ _ => True) (ends_of_forall fun _ _ => trivial)
      (fun _ policy _ => ⟨policy, rfl⟩) fun _ _ _ => ⟨_, rfl⟩
  refine Ends.bind hpolicy (fun es policy _ => ?_) fun es e h => by obtain ⟨_, h⟩ := h; cases h
  split
  · exact fun e h => by cases h
  · refine Ends.bind (Ψ := fun es _ => Increments es) ?_ (fun es' _ hx => ?_) fun es' e hx e' _ => ?_
    · refine Ends.tryCatch (Ψ := fun es _ => Increments es) ?_ (fun _ _ h => h)
        fun es e h => h.append_right []
      exact Ends.bind (ends_incrementFailureCount _) (fun es a h => h.append_right [])
        fun _ _ h => h
    · exact ends_of_forall fun es'' out e _ => (hx.append_right es'').append_left es
    · exact hx.append_left es

/-- A rejection by the Play Integrity policy has tried to count itself. -/
def IntegrityCounted (es : List (Act sig Failure)) (e : Failure) : Prop :=
  (∀ x ∈ es, Plausible x) → ∀ c m, e = .pairing c m → c.isIntegrity = true → Increments es

/-- A call that has read a failed row ends with `PairingSessionLocked`. -/
def LockedOut {α : Type} (es : List (Act sig Failure)) (out : Except Failure α) : Prop :=
  ∀ x ∈ es, ∀ row, loadedRow x = some row → row.state = .failed →
    out = .error PairingError.sessionLocked.thrown

/-- Only the verdict fails with its codes. -/
theorem throws_afterIntegrity (correlationId : Uuid) (row : SessionRow) :
    Throws (fun c => c.isIntegrity = false) (do
      checkBindToken input row
      let (user, signal₁) ← checkUser input
      checkNonce cfg input row user signal₁
      checkProof cfg input correlationId
      return user) :=
  (throws_checkBindToken row).bind fun _ => throws_checkUser.bind fun _ =>
    (throws_checkNonce row _ _).bind fun _ => (throws_checkProof correlationId).bind
    fun _ => throws_ret

/-- The checks after the first read do not read the session again. -/
theorem ends_checkRow (correlationId : Uuid) (row : SessionRow) :
    Ends (fun es out => (∀ x ∈ es, loadedRow x = none) ∧ ∀ e, out = .error e → IntegrityCounted es e)
      (checkRow cfg input correlationId row) := by
  have hplain : Ends (fun es _ => ∀ x ∈ es, loadedRow x = none)
      (checkRow cfg input correlationId row) :=
    (only_checkRow correlationId row).ends.mono fun es _ h x hx =>
      loadedRow_of_within (h x hx) (by decide)
  refine hplain.and ?_
  refine Ends.bind ends_checkPlayIntegrity (fun es _ _ => ?_) fun es e hcount e' he => ?_
  · refine (throws_afterIntegrity correlationId row).mono fun es' out hout e he hpl c m hc hint => ?_
    subst he hc
    rw [hout (fun x hx => hpl x (List.mem_append_right _ hx)) c m rfl] at hint
    cases hint
  · exact fun _ _ _ _ _ => hcount e rfl

/-- The checks: passing them takes an open session. -/
theorem ends_runChecks (correlationId : Uuid) :
    Ends (fun es out => (∀ user, out = .ok user → Opened es) ∧ LockedOut es out ∧
      ∀ e, out = .error e → IntegrityCounted es e) (runChecks cfg input correlationId) := by
  have hthrows : Throws (fun c => c.isIntegrity = false) (loadOpenSession input) :=
    throws_loadOpenSession
  refine Ends.bind (ends_loadOpenSession.and hthrows) (fun es row hload => ?_) fun es e hload => ?_
  · obtain ⟨⟨hopen, hlocked⟩, -⟩ := hload
    refine (ends_checkRow correlationId row).mono fun es' out hout => ?_
    obtain ⟨hplain, hcount⟩ := hout
    refine ⟨fun _ _ => (hopen row rfl).append, fun x hx row' hrow hfailed => ?_,
      fun e he hpl c m hc hint => ?_⟩
    · rcases List.mem_append.mp hx with hx | hx
      · cases hlocked x hx row' hrow hfailed
      · rw [hplain x hx] at hrow
        cases hrow
    · exact (hcount e he (fun x hx => hpl x (List.mem_append_right _ hx)) c m hc hint).append_left es
  · obtain ⟨⟨-, hlocked⟩, hthrows⟩ := hload
    refine ⟨fun user h => (by cases h), fun x hx row hrow hfailed => ?_,
      fun e' he hpl c m hc hint => ?_⟩
    · cases hlocked x hx row hrow hfailed
      rfl
    · cases he
      rw [hthrows hpl c m (congrArg Except.error hc)] at hint
      cases hint

theorem won_of_within {x : Act sig Failure} {ks : List OpKind}
    (h : x.op.Within input.sessionId ks) (hks : .claim ∉ ks) : won x = none := by
  unfold won
  split
  · exact absurd h.1 hks
  · rfl

/-- The runs of the claim: it has changed the row and the call hears of it or not, or it
    has changed nothing. -/
inductive ClaimRun (input : SubmitInput) (user : StoredUserCommitment) :
    List (Act sig Failure) → Except Failure SessionRow → Prop
  | heard {row : SessionRow} : ClaimRun input user
      [⟨.claim input.sessionId user.id, .ok (some row)⟩, ⟨.answer, .ok ()⟩] (.ok row)
  | unheard {row : SessionRow} {e : Failure} : ClaimRun input user
      [⟨.claim input.sessionId user.id, .ok (some row)⟩, ⟨.answer, .error e⟩] (.error e)
  | lost {es : List (Act sig Failure)} {e : Failure} (hwon : ∀ x ∈ es, won x = none)
      (herr : (∀ x ∈ es, Plausible x) → ∀ c m, e = .pairing c m → c.isIntegrity = false) :
      ClaimRun input user es (.error e)

theorem ends_claimSession (user : StoredUserCommitment) :
    Ends (ClaimRun input user) (claimSession input user) := by
  refine ends_perform_bind.mpr ⟨fun claimed => ends_perform_bind.mpr ⟨fun _ => ?_, fun e => ?_⟩,
    fun e => ?_⟩
  · cases claimed with
    | some row => exact .heard
    | none =>
        have hrecord : Only (Op.Within input.sessionId [.plain]) (ignoreFailure
            (input.record (js "pairing.race_lost") (js "failure")
              (js "Lost the single-use UPDATE race") JsVal.undef)) :=
          only_ignoreFailure (only_record (by decide) (by decide))
        -- neither the claim nor its answer nor the event has changed the row
        have hnone : ∀ {es : List (Act sig Failure)},
            (∀ x ∈ es, x.op.Within input.sessionId [.plain]) →
            ∀ x ∈ (⟨.claim input.sessionId user.id, .ok none⟩ : Act sig Failure) ::
              ⟨.answer, .ok ()⟩ :: es, won x = none := by
          intro es hes x hx
          rcases List.mem_cons.mp hx with rfl | hx
          · rfl
          · rcases List.mem_cons.mp hx with rfl | hx
            · rfl
            · exact won_of_within (hes x hx) (by decide)
        refine Ends.bind (hrecord.ends.and (throws_ignoreFailure (P := fun _ => False)))
          (fun es _ hes => ?_) fun es e hes => ?_
        · refine .lost (hnone (by simpa using hes.1)) fun _ c m hc => ?_
          cases hc
          rfl
        · refine .lost (hnone hes.1) fun hpl c m hc => ?_
          exact (hes.2 (fun x hx => hpl x (List.mem_cons_of_mem _ (List.mem_cons_of_mem _ hx))) c m
            (congrArg Except.error hc)).elim
  · cases claimed with
    | some row => exact .unheard
    | none =>
        refine .lost (fun x hx => ?_) fun hpl c m hc => ?_
        · rcases List.mem_pair.mp hx with rfl | rfl
          · rfl
          · rfl
        · obtain ⟨-, m', rfl⟩ := hpl _ (List.mem_cons_of_mem _ (List.mem_singleton_self _)) e rfl
          cases hc
  · refine .lost (fun x hx => ?_) fun hpl c m hc => ?_
    · obtain rfl := List.mem_singleton.mp hx
      rfl
    · obtain ⟨-, m', rfl⟩ := hpl _ (List.mem_singleton_self _) e rfl
      cases hc

/-- What a call that returns has behind it after its claim. -/
def HandedOut (input : SubmitInput) (user : StoredUserCommitment) (correlationId : Uuid)
    (es : List (Act sig Failure)) (res : SubmitResult) : Prop :=
  res.session.userId = some user.id ∧
    ⟨.appendAudit (input.claimedEvent user correlationId), .ok ()⟩ ∈ es ∧
    ∃ payload, ⟨.issueTokens payload, .ok res.tokens⟩ ∈ es

theorem HandedOut.cons {user : StoredUserCommitment} {correlationId : Uuid}
    {es : List (Act sig Failure)} {res : SubmitResult}
    (h : HandedOut input user correlationId es res) (x : Act sig Failure) :
    HandedOut input user correlationId (x :: es) res := by
  obtain ⟨huser, hevent, payload, htokens⟩ := h
  exact ⟨huser, .tail _ hevent, payload, .tail _ htokens⟩

theorem forwards_padToFloor (start : ℕ) : Forwards (padToFloor start) := by
  refine Forwards.bind forwards_perform fun now => ?_
  by_cases hfloor : now - start ≥ latencyFloorMs
  · simp only [hfloor]
    exact forwards_ret
  · simp only [hfloor]
    exact forwards_perform

theorem forwards_mintTokens (user : StoredUserCommitment) (correlationId : Uuid) (start : ℕ)
    (row : SessionRow) : Forwards (mintTokens input user correlationId start row) :=
  Forwards.bind forwards_perform fun _ => Forwards.bind forwards_perform fun _ =>
    Forwards.bind forwards_perform fun _ => Forwards.bind forwards_perform fun _ =>
    Forwards.bind (forwards_padToFloor start) fun _ => forwards_ret

theorem ends_mintTokens (user : StoredUserCommitment) (correlationId : Uuid) (start : ℕ)
    (row : SessionRow) :
    Ends (fun es out => ∀ res, out = .ok res → HandedOut input user correlationId es res)
      (mintTokens input user correlationId start row) := by
  refine ends_perform_bind.mpr ⟨fun _ => ?_, fun e res h => by cases h⟩
  refine ends_perform_bind.mpr ⟨fun sessionUuid => ?_, fun e res h => by cases h⟩
  refine ends_perform_bind.mpr ⟨fun tokens => ?_, fun e res h => by cases h⟩
  refine ends_perform_bind.mpr ⟨fun _ => ?_, fun e res h => by cases h⟩
  refine Ends.bind (Ψ := fun _ _ => True) (ends_of_forall fun _ _ => trivial)
    (fun es _ _ res h => ?_) fun es e _ res h => by cases h
  cases h
  exact ⟨rfl, .tail _ (.tail _ (.tail _ (.head _))), _, .tail _ (.tail _ (.head _))⟩

end Parts

/-! ## Whole runs -/

/-- The checks are behind the call: it has read its session and found it open. -/
structure Passed (input : SubmitInput) (es : List (Act sig Failure)) : Prop where
  ops : ∀ x ∈ es, x.op.Within input.sessionId [.load, .plain, .increment, .verify]
  opened : Opened es
  notFailed : ∀ x ∈ es, ∀ row, loadedRow x = some row → row.state ≠ .failed

/-- The runs of the part of `submitProof` inside `try`. -/
inductive BodyRun (input : SubmitInput) (correlationId : Uuid) :
    List (Act sig Failure) → Except Failure SubmitResult → Prop
  | rejected {es : List (Act sig Failure)} {e : Failure}
      (hops : ∀ x ∈ es, x.op.Within input.sessionId [.load, .plain, .increment, .verify])
      (hlocked : LockedOut es (.error e : Except Failure SubmitResult))
      (hcount : IntegrityCounted es e) : BodyRun input correlationId es (.error e)
  | lost {es es' : List (Act sig Failure)} {e : Failure} (hpass : Passed input es)
      (hops : ∀ x ∈ es', x.op.Within input.sessionId [.claim, .trail, .plain])
      (hwon : ∀ x ∈ es', won x = none)
      (herr : (∀ x ∈ es', Plausible x) → ∀ c m, e = .pairing c m → c.isIntegrity = false) :
      BodyRun input correlationId (es ++ es') (.error e)
  | claimed {es es' : List (Act sig Failure)} {out : Except Failure SubmitResult}
      {user : StoredUserCommitment} {row : SessionRow} (hpass : Passed input es)
      (hops : ∀ x ∈ es', x.op.Within input.sessionId [.trail, .plain])
      (htrail : ∀ x ∈ es', x.op.mayFail = true → x.op.kind = .trail)
      (hforward : ∀ e, out = .error e ↔ ∃ x ∈ es', x.answer = .error e)
      (hok : ∀ res, out = .ok res → HandedOut input user correlationId es' res) :
      BodyRun input correlationId
        (es ++ ⟨.claim input.sessionId user.id, .ok (some row)⟩ :: es') out

theorem ends_submitBody (cfg : Settings) (input : SubmitInput) (correlationId : Uuid)
    (start : ℕ) :
    Ends (BodyRun input correlationId) (submitBody cfg input correlationId start) := by
  refine Ends.bind ((ends_runChecks correlationId).and (only_runChecks correlationId).ends)
    (fun es user hchecks => ?_) fun es e hchecks => ?_
  · obtain ⟨⟨hopen, hlocked, -⟩, hops⟩ := hchecks
    have hpass : Passed input es := ⟨hops, hopen user rfl, fun x hx row hrow hfailed => by
      cases hlocked x hx row hrow hfailed⟩
    have hanswer : ∀ r : Except Failure Unit, (⟨.answer, r⟩ : Act sig Failure).op.Within
        input.sessionId [.trail, .plain] :=
      fun _ => ⟨by simp [Op.kind], fun _ h => by cases h⟩
    refine Ends.bind ((ends_claimSession user).and (only_claimSession user).ends)
      (fun es' row hclaim => ?_) fun es' e hclaim => ?_
    · cases hclaim.1
      refine ((forwards_mintTokens user correlationId start row).and
        ((ends_mintTokens user correlationId start row).and
        ((only_mintTokens user correlationId start row).ends.and
        (only_mintTokens_trail user correlationId start row).ends))).mono fun es'' out hmint => ?_
      obtain ⟨hforward, hok, hops', htrail⟩ := hmint
      refine .claimed hpass (List.forall_mem_cons.mpr ⟨hanswer _, hops'⟩)
        (List.forall_mem_cons.mpr ⟨fun _ => rfl, htrail⟩) (fun e => ?_) fun res hres =>
        (hok res hres).cons _
      show out = .error e ↔ ∃ x ∈ ⟨Op.answer, .ok ()⟩ :: es'', x.answer = .error e
      rw [hforward e]
      simp only [List.mem_cons, exists_eq_or_imp]
      exact (or_iff_right fun h => by cases h).symm
    · cases hclaim.1 with
      | @unheard row =>
          -- the row is consumed, and all that the call knows is an error
          refine .claimed hpass (List.forall_mem_singleton.mpr (hanswer _))
            (List.forall_mem_singleton.mpr fun _ => rfl) (fun e' => ?_) fun _ h => by cases h
          simp only [List.mem_singleton, exists_eq_left]
          exact ⟨fun h => congrArg Except.error (Except.error.inj h),
            fun h => congrArg Except.error (Except.error.inj h)⟩
      | lost hwon herr => exact .lost hpass hclaim.2 hwon herr
  · obtain ⟨⟨-, hlocked, hcount⟩, hops⟩ := hchecks
    refine .rejected hops (fun x hx row hrow hfailed => ?_) (hcount e rfl)
    cases hlocked x hx row hrow hfailed
    rfl

/-- What `catch` adds to the history of a call that ends with `out`. -/
structure Tail (input : SubmitInput) (out : Except Failure SubmitResult)
    (es : List (Act sig Failure)) : Prop where
  ops : ∀ x ∈ es, x.op.Within input.sessionId [.increment, .plain]
  counted : ∀ c m, out = .error (.pairing c m) → c.isCounted = true → Increments es
  nil : ∀ res, out = .ok res → es = []

/-- The program does not throw. -/
def Total {α : Type} (p : Program α) : Prop :=
  Ends (fun es out => (∀ x ∈ es, Plausible x) → ∃ a, out = .ok a) p

theorem total_await {o : Op} (h : o.mayFail = false) : Total (await o) := by
  refine ends_perform.mpr ⟨fun a _ => ⟨a, rfl⟩, fun e hpl => ?_⟩
  obtain ⟨hfail, -⟩ := hpl _ (List.mem_singleton_self _) e rfl
  rw [h] at hfail
  cases hfail

theorem Total.bind {α β : Type} {p : Program α} {f : α → Program β} (h : Total p)
    (hf : ∀ a, Total (f a)) : Total (p >>= f) := by
  refine Ends.bind h (fun es a _ => (hf a).mono fun es' out hout hpl =>
    hout fun x hx => hpl x (List.mem_append_right _ hx)) fun es e he hpl => ?_
  obtain ⟨a, h⟩ := he hpl
  cases h

theorem total_padToFloor (start : ℕ) : Total (padToFloor start) := by
  refine Total.bind (total_await rfl) fun now => ?_
  by_cases hfloor : now - start ≥ latencyFloorMs
  · simp only [hfloor]
    exact fun _ => ⟨_, rfl⟩
  · simp only [hfloor]
    exact total_await rfl

/-- Counting a failure tries one UPDATE and does not throw. -/
theorem ends_countFailure (input : SubmitInput) (correlationId : Uuid) (error : PairingError) :
    Ends (fun es out => Increments es ∧ ((∀ x ∈ es, Plausible x) → ∃ a, out = .ok a))
      (countFailure input correlationId error) := by
  have htry : Ends (fun es out => Increments es ∧ ∃ a, out = .ok a) (Prog.tryCatch (do
      let count ← incrementFailureCount input.sessionId error.code
      return (count : ℤ)) fun _ => .ret (-1)) := by
    refine Ends.tryCatch (Ψ := fun es _ => Increments es) ?_ (fun es a h => ⟨h, a, rfl⟩)
      fun es e h => ⟨h.append_right [], _, rfl⟩
    exact Ends.bind (ends_incrementFailureCount _) (fun es a h => h.append_right []) fun _ _ h => h
  have hspawn : ∀ payload, Total (await (.spawn (.audit payload))) := fun _ => total_await rfl
  refine Ends.bind htry (fun es count hcount => ?_) fun es e h => ?_
  · refine Ends.mono (hspawn _) fun es' out hout => ⟨hcount.1.append_right es', fun hpl => ?_⟩
    exact hout fun x hx => hpl x (List.mem_append_right _ hx)
  · obtain ⟨-, a, ha⟩ := h
    cases ha

theorem counted?_eq_none {failure : Failure} (h : failure.counted? = none) {c : PairingError}
    {m : JsString} (hc : failure = .pairing c m) : c.isCounted = false := by
  subst hc
  by_contra hne
  rw [Bool.not_eq_false] at hne
  simp [Failure.counted?, hne] at h

/-- Under `catch` the failure is thrown again. -/
theorem ends_submitCatch (input : SubmitInput) (correlationId : Uuid) (start : ℕ)
    (failure : Failure) :
    Ends (fun es out => (∀ x ∈ es, Plausible x) → out = .error failure ∧
      Tail input (.error failure) es) (submitCatch input correlationId start failure) := by
  have hpad : Ends (fun es out => (∀ x ∈ es, Plausible x) → out = .error failure) (do
      padToFloor start
      .raise failure : Program SubmitResult) := by
    refine Ends.bind (total_padToFloor start) (fun _ _ _ _ => rfl) fun es e he hpl => ?_
    obtain ⟨a, h⟩ := he hpl
    cases h
  have hcount : Ends (fun es out => (∀ x ∈ es, Plausible x) → out = .error failure ∧
      (failure.counted? = none ∨ Increments es)) (submitCatch input correlationId start failure) := by
    unfold submitCatch
    split
    · next error _ =>
        refine Ends.bind (ends_countFailure input correlationId error) (fun es _ h => ?_)
          fun es e h hpl => ?_
        · refine hpad.mono fun es' out hout hpl => ⟨?_, .inr (h.1.append_right es')⟩
          exact hout fun x hx => hpl x (List.mem_append_right _ hx)
        · obtain ⟨a, ha⟩ := h.2 hpl
          cases ha
    · next hnone => exact hpad.mono fun es out hout hpl => ⟨hout hpl, .inl hnone⟩
  refine (hcount.and (only_submitCatch correlationId start failure).ends).mono
    fun es out h hpl => ?_
  obtain ⟨hout, hinc⟩ := h.1 hpl
  refine ⟨hout, h.2, fun c m hc hcounted => ?_, fun res hres => by cases hres⟩
  rcases hinc with hnone | hinc
  · rw [counted?_eq_none hnone (Except.error.inj hc)] at hcounted
    cases hcounted
  · exact hinc

/-- A whole call: two operations, the part inside `try`, and what `catch` adds. -/
theorem ends_submitProof (cfg : Settings) (input : SubmitInput) :
    Ends (fun es out => (∀ x ∈ es, Plausible x) → ∃ start correlationId es₁ es₂,
      es = ⟨.now, .ok start⟩ :: ⟨.uuidv4, .ok correlationId⟩ :: (es₁ ++ es₂) ∧
      BodyRun input correlationId es₁ out ∧ Tail input out es₂) (submitProof cfg input) := by
  refine ends_perform_bind.mpr ⟨fun start => ?_, fun e hpl => ?_⟩
  · refine ends_perform_bind.mpr ⟨fun correlationId => ?_, fun e hpl => ?_⟩
    · refine Ends.tryCatch (ends_submitBody cfg input correlationId start)
        (fun es res hrun _ => ?_) fun es e hrun => ?_
      · exact ⟨start, correlationId, es, [], by simp, hrun, by simp, fun c m h => (by cases h),
          fun _ _ => rfl⟩
      · refine (ends_submitCatch input correlationId start e).mono fun es' out hcatch hpl => ?_
        obtain ⟨rfl, htail⟩ := hcatch fun x hx => hpl x (by simp [hx])
        exact ⟨start, correlationId, es, es', rfl, hrun, htail⟩
    · obtain ⟨hfail, -⟩ := hpl ⟨.uuidv4, .error e⟩ (by simp) e rfl
      cases hfail
  · obtain ⟨hfail, -⟩ := hpl ⟨.now, .error e⟩ (by simp) e rfl
    cases hfail



/-- Where an operation of a call stands: it names the call's session, and from the
    verifier on the call has found its session open. -/
def Placed (input : SubmitInput) (es : List (Act sig Failure)) (o : Op) : Prop :=
  (∀ s, o.target = some s → s = input.sessionId) ∧
    (o.kind ∈ [.verify, .claim, .trail] → Opened es)

theorem placed_of_within {input : SubmitInput} {ks : List OpKind} {es : List (Act sig Failure)}
    {o : Op} (h : o.Within input.sessionId ks) (hks : ∀ k ∈ ks, k ∉ [.verify, .claim, .trail]) :
    Placed input es o :=
  ⟨h.2, fun hk => absurd hk (hks _ h.1)⟩

theorem before_runChecks (cfg : Settings) (input : SubmitInput) (correlationId : Uuid) :
    Before (Placed input) (runChecks cfg input correlationId) := by
  refine Before.bind (only_loadOpenSession.before fun _ _ ho => placed_of_within ho (by decide))
    ends_loadOpenSession fun es row hload => ?_
  refine (only_checkRow correlationId row).before fun es' o ho => ⟨ho.2, fun _ => ?_⟩
  exact (hload.1 row rfl).append

theorem before_submitBody (cfg : Settings) (input : SubmitInput) (correlationId : Uuid)
    (start : ℕ) : Before (Placed input) (submitBody cfg input correlationId start) := by
  refine Before.bind (before_runChecks cfg input correlationId) (ends_runChecks correlationId)
    fun es user hchecks => ?_
  have hopen : ∀ es', Opened (es ++ es') := fun es' => (hchecks.1 user rfl).append
  refine Before.bind (Φ := fun _ _ => True)
    ((only_claimSession user).before fun es' o ho => ⟨ho.2, fun _ => hopen es'⟩)
    (ends_of_forall fun _ _ => trivial) fun es' row _ => ?_
  refine (only_mintTokens user correlationId start row).before fun es'' o ho => ⟨ho.2, fun _ => ?_⟩
  exact hopen _

theorem before_submitProof (cfg : Settings) (input : SubmitInput) :
    Before (Placed input) (submitProof cfg input) := by
  have hshift : ∀ {es o} (a b : Act sig Failure), a.op.kind ≠ .load → b.op.kind ≠ .load →
      Placed input es o → Placed input (a :: b :: es) o := by
    intro es o a b ha hb h
    refine ⟨h.1, fun hk => ?_⟩
    obtain ⟨row, t, htest, hopen⟩ := h.2 hk
    exact ⟨row, t, by rw [tested_cons_of_ne ha, tested_cons_of_ne hb, htest], hopen⟩
  refine before_perform_bind.mpr ⟨⟨fun s h => (by cases h), by simp [Op.kind]⟩, fun start => ?_⟩
  refine before_perform_bind.mpr ⟨⟨fun s h => (by cases h), by simp [Op.kind]⟩,
    fun correlationId => ?_⟩
  refine Before.tryCatch (Φ := fun _ _ => True)
    ((before_submitBody cfg input correlationId start).mono fun es o ho =>
      hshift _ _ (by simp [Op.kind]) (by simp [Op.kind]) ho)
    (ends_of_forall fun _ _ => trivial) fun es e _ => ?_
  exact (only_submitCatch correlationId start e).before fun es' o ho => placed_of_within ho (by decide)

end ZeroAuth.Pairing
