/-
  ZeroAuth.Pairing.Replay

  What an accepted login has compared with its session.

  Check 7 ties the second signal to the nonce of the row that was read.  Between the
  two stand three encodings: the nonce as a field element, the signal as a text, and
  the comparison of bytes.
-/

import ZeroAuth.Js.Hex
import ZeroAuth.Lib.Returns
import ZeroAuth.Pairing.SingleUse

namespace ZeroAuth.Pairing

open ZeroAuth.Lib ZeroAuth.Js ZeroAuth.Pg ZeroAuth.Audit ZeroAuth.Tenant Prog

/-! ## The encodings -/

theorem isNonceHex_hexBytes {bs : List UInt8} (h : bs.length = 31) :
    isNonceHex (hexBytes bs) = true := by
  have hlen : (hexBytes bs).length = 62 := by
    rw [length_hexBytes, h]
  have hdigits : ((hexBytes bs).all fun u => (digitIn 16 u).isSome) = true := by
    rw [List.all_eq_true]
    intro u hu
    obtain ⟨d, hd, rfl⟩ := mem_hexBytes hu
    rw [digitIn_digitUnit (by omega) hd]
    rfl
  rw [isNonceHex, hlen, hdigits]
  rfl

/-- A minted nonce as a list of digits, and what it denotes. -/
theorem nonceHexToField_hexBytes {bs : List UInt8} (h : bs.length = 31) :
    ∃ ds : List ℕ, hexBytes bs = ds.map digitUnit ∧ (∀ d ∈ ds, d < 16) ∧
      nonceHexToField (hexBytes bs) = .ok ((Nat.ofDigits 16 ds.reverse : ℕ) : ℤ) := by
  -- each byte gives two digits below 16
  have hexists : ∀ l : List UInt8, ∃ ds : List ℕ, hexBytes l = ds.map digitUnit ∧ ∀ d ∈ ds, d < 16 := by
    intro l
    induction l with
    | nil => exact ⟨[], rfl, fun d hd => by cases hd⟩
    | cons b l ih =>
        obtain ⟨ds, hds, hlt⟩ := ih
        have hb : b.toNat < 256 := b.toNat_lt
        refine ⟨b.toNat / 16 :: b.toNat % 16 :: ds, by rw [hexBytes_cons, hds]; rfl, fun d hd => ?_⟩
        rcases List.mem_cons.mp hd with hd | hd
        · omega
        · rcases List.mem_cons.mp hd with hd | hd
          · omega
          · exact hlt d hd
  obtain ⟨ds, hds, hlt⟩ := hexists bs
  have hne : ds.map digitUnit ≠ [] := by
    intro hnil
    have hhex := isNonceHex_hexBytes h
    rw [hds, hnil] at hhex
    cases hhex
  have hread : readDigits 16 (ds.map digitUnit) = some (Nat.ofDigits 16 ds.reverse) := by
    rw [readDigits, if_neg hne, mapM_digitIn (by omega) hlt]
    rfl
  -- neither the prefix nor a digit is white space
  have htrim : trim (js "0x" ++ ds.map digitUnit) = js "0x" ++ ds.map digitUnit := by
    apply trim_of_forall
    intro u hu
    rcases List.mem_append.mp hu with hu | hu
    · have hall : (js "0x").all (fun u => !isWhiteSpace u) = true := by decide
      simpa using List.all_eq_true.mp hall u hu
    · obtain ⟨d, hd, rfl⟩ := List.mem_map.mp hu
      have hall : ∀ d < 16, isWhiteSpace (digitUnit d) = false := by decide
      exact hall d (hlt d hd)
  have hbig : bigIntOf (js "0x" ++ ds.map digitUnit) =
      some ((Nat.ofDigits 16 ds.reverse : ℕ) : ℤ) := by
    have hcons : js "0x" ++ ds.map digitUnit = 48 :: 120 :: ds.map digitUnit := rfl
    rw [bigIntOf, htrim, hcons]
    simp only [true_or, if_true, hread]
    rfl
  refine ⟨ds, hds, hlt, ?_⟩
  rw [nonceHexToField, isNonceHex_hexBytes h, if_pos rfl, hds, hbig]

/-- Nonces that the server mints are field elements, and different ones are
    different field elements. -/
theorem nonceHexToField_injective {bs bs' : List UInt8} (h : bs.length = 31) (h' : bs'.length = 31)
    {n : ℤ} (hn : nonceHexToField (hexBytes bs) = .ok n)
    (hn' : nonceHexToField (hexBytes bs') = .ok n) : hexBytes bs = hexBytes bs' := by
  obtain ⟨ds, hds, hlt, hval⟩ := nonceHexToField_hexBytes h
  obtain ⟨ds', hds', hlt', hval'⟩ := nonceHexToField_hexBytes h'
  have heq : Nat.ofDigits 16 ds.reverse = Nat.ofDigits 16 ds'.reverse := by
    rw [hn] at hval
    rw [hn'] at hval'
    exact Int.ofNat_inj.mp ((Except.ok.inj hval).symm.trans (Except.ok.inj hval'))
  have hlen : ds.reverse.length = ds'.reverse.length := by
    have hl := of_decide_eq_true (Bool.and_eq_true_iff.mp (isNonceHex_hexBytes h)).1
    have hl' := of_decide_eq_true (Bool.and_eq_true_iff.mp (isNonceHex_hexBytes h')).1
    rw [hds, List.length_map] at hl
    rw [hds', List.length_map] at hl'
    rw [List.length_reverse, List.length_reverse, hl, hl']
  have hrev := Nat.ofDigits_inj_of_len_eq (by omega) hlen
    (fun d hd => hlt d (List.mem_reverse.mp hd)) (fun d hd => hlt' d (List.mem_reverse.mp hd)) heq
  rw [hds, hds', List.reverse_injective hrev]

/-- The bytes that are compared, for a number of at most 32 bytes. -/
theorem signalBytes_of_lt {n : ℕ} (h : n < 2 ^ 256) : signalBytes n = bigEndian 32 n := by
  have hpad : padStart 64 (numText 16 n) = hexBytes (bigEndian 32 n) :=
    padStart_hex (k := 32) (by omega) (by omega)
  have htext : signedText 16 (n : ℤ) = numText 16 n := by
    rw [signedText, if_neg (by omega), Int.natAbs_natCast]
  rw [signalBytes, htext, hpad, bufferFromHex_hexBytes]

theorem signalBytes_injective {i j : ℤ} (hi : 0 ≤ i ∧ i < 2 ^ 256) (hj : 0 ≤ j ∧ j < 2 ^ 256)
    (h : signalBytes i = signalBytes j) : i = j := by
  obtain ⟨n, rfl⟩ := Int.eq_ofNat_of_zero_le hi.1
  obtain ⟨m, rfl⟩ := Int.eq_ofNat_of_zero_le hj.1
  have hn : n < 256 ^ 32 := by omega
  have hm : m < 256 ^ 32 := by omega
  rw [signalBytes_of_lt (by omega), signalBytes_of_lt (by omega)] at h
  have hval := congrArg (List.foldl shiftIn 0) h
  rw [foldl_shiftIn_bigEndian, foldl_shiftIn_bigEndian, Nat.mod_eq_of_lt hn,
    Nat.mod_eq_of_lt hm] at hval
  omega

theorem signalBytes_of_equal {i j : ℤ} (h : timingSafeBigIntEqual i j = true) :
    signalBytes i = signalBytes j :=
  eq_of_beq (Bool.and_eq_true_iff.mp h).2

/-! ## What a call has compared -/

/-- The number that the second signal denotes. -/
def secondSignal (publicSignals : Json) : Option ℤ :=
  (threeSignals publicSignals).bind fun (_, signal₁) => (parseBigIntFromSignal signal₁).toOption

/-- The DID hash in a user's metadata. -/
def didHashOf (metadata : Json) : Option ℤ :=
  match metadata.get? (js "did_hash") with
  | some (.str didHash) => (parseBigIntText didHash).toOption
  | _ => none

/-- The metadata that `findUserByDid` was answered with. -/
def answeredMetadata : Act sig Failure → Option Json
  | ⟨.selectUser _ _ _, .ok (some (_, metadata))⟩ => some metadata
  | _ => none

/-- The call's second signal is the hash of a stored DID hash and of the nonce of
    the row that was read, as check 7 compares. -/
def Bound (cfg : Settings) (input : SubmitInput) (es : List (Act sig Failure)) : Prop :=
  ∃ x ∈ es, ∃ y ∈ es, ∃ row metadata i d n, loadedRow x = some row ∧
    answeredMetadata y = some metadata ∧ didHashOf metadata = some d ∧
    nonceHexToField row.nonceHex = .ok n ∧ secondSignal input.publicSignals = some i ∧
    timingSafeBigIntEqual i (cfg.poseidon2 d n) = true

theorem Bound.mono {cfg : Settings} {input : SubmitInput} {es es' : List (Act sig Failure)}
    (h : Bound cfg input es) (hsub : es ⊆ es') : Bound cfg input es' := by
  obtain ⟨x, hx, y, hy, hrest⟩ := h
  exact ⟨x, hsub hx, y, hsub hy, hrest⟩

section Calls

variable {cfg : Settings} {input : SubmitInput}

theorem returns_checkOpen (row : SessionRow) :
    Returns (fun _ row' => row' = row) (checkOpen row) :=
  (ends_checkOpen row).mono fun _ _ hout row' h => (hout.1 row' h).1

theorem returns_loadOpenSession :
    Returns (fun es row => ∃ x ∈ es, loadedRow x = some row) (loadOpenSession input) := by
  apply returns_perform_bind
  intro row
  cases row with
  | none =>
      -- no row: nothing is returned
      refine ends_missingSession.mono fun es out hout row h => ?_
      obtain ⟨e, rfl⟩ := hout
      cases h
  | some row =>
      refine (returns_checkOpen row).mono fun es row' h => ?_
      subst h
      exact ⟨_, List.mem_cons_self, rfl⟩

theorem returns_findUserByDid (tenantId environment did : JsString) :
    Returns (fun es user => ∀ u, user = some u → ∃ y ∈ es, ∃ metadata,
      answeredMetadata y = some metadata ∧
        metadata.get? (js "did_hash") = some (.str u.didHash))
      (findUserByDid tenantId environment did) := by
  apply returns_perform_bind
  intro row
  cases row with
  | none =>
      apply returns_ret
      intro u hu
      cases hu
  | some row =>
      obtain ⟨id, metadata⟩ := row
      simp only
      split
      · next didHash commitment hhash _ =>
          apply returns_ret
          intro u hu
          split at hu
          · cases hu
          · cases hu
            exact ⟨_, List.mem_cons_self, metadata, rfl, hhash⟩
      · apply returns_ret
        intro u hu
        cases hu

theorem returns_checkUser :
    Returns (fun es user => (∃ signal₀, threeSignals input.publicSignals = some (signal₀, user.2)) ∧
      ∃ y ∈ es, ∃ metadata, answeredMetadata y = some metadata ∧
        metadata.get? (js "did_hash") = some (.str user.1.didHash)) (checkUser input) := by
  apply (returns_findUserByDid _ _ _).bind
  intro es user huser
  split
  · exact returns_raise
  · next user =>
      split
      · exact returns_raise
      · next signal₀ signal₁ hsignals =>
          apply returns_bind
          intro es₁ signalCommitment
          apply returns_bind
          intro es₂ storedCommitment
          split
          · apply returns_ret
            obtain ⟨y, hy, hmeta⟩ := huser user rfl
            exact ⟨⟨signal₀, hsignals⟩, y, List.mem_append_left _ hy, hmeta⟩
          · exact returns_raise

theorem returns_checkNonce (row : SessionRow) (user : StoredUserCommitment) (signal₁ : Json) :
    Returns (fun _ _ => ∃ d n i, parseBigIntText user.didHash = .ok d ∧
      nonceHexToField row.nonceHex = .ok n ∧ parseBigIntFromSignal signal₁ = .ok i ∧
      timingSafeBigIntEqual i (cfg.poseidon2 d n) = true)
      (checkNonce cfg input row user signal₁) := by
  apply Returns.bind (returns_ofExcept (Q := fun _ d => parseBigIntText user.didHash = .ok d)
    fun _ h => h)
  intro _ d hd
  apply Returns.bind (returns_ofExcept (Q := fun _ n => nonceHexToField row.nonceHex = .ok n)
    fun _ h => h)
  intro _ n hn
  apply Returns.bind (returns_ofExcept (Q := fun _ i => parseBigIntFromSignal signal₁ = .ok i)
    fun _ h => h)
  intro _ i hi
  split
  · next heq =>
      apply returns_ret
      exact ⟨d, n, i, hd, hn, hi, heq⟩
  · apply returns_bind
    intro _ _
    exact returns_raise

/-- A call that has passed its checks has compared its signal with its session. -/
theorem returns_runChecks (correlationId : Uuid) :
    Returns (fun es _ => Bound cfg input es) (runChecks cfg input correlationId) := by
  apply returns_loadOpenSession.bind
  rintro es row ⟨x, hx, hrow⟩
  apply returns_bind
  intro es₁ _
  apply returns_bind
  intro es₂ _
  apply returns_checkUser.bind
  rintro es₃ ⟨user, signal₁⟩ ⟨⟨signal₀, hsignals⟩, y, hy, metadata, hmeta, hhash⟩
  apply (returns_checkNonce row user signal₁).bind
  rintro es₄ _ ⟨d, n, i, hd, hn, hi, heq⟩
  apply returns_of_forall
  intro es₅ _
  refine ⟨x, by simp [hx], y, by simp [hy], row, metadata, i, d, n, hrow, hmeta, ?_, hn, ?_, heq⟩
  · rw [didHashOf, hhash]
    simp only [hd, Except.toOption]
  · rw [secondSignal, hsignals]
    simp only [Option.bind_some, hi, Except.toOption]

/-- From the claim on, the call has compared its signal with its session. -/
def ClaimBound (cfg : Settings) (input : SubmitInput) (es : List (Act sig Failure)) (o : Op) :
    Prop :=
  o.kind ∈ [.claim, .trail] → Bound cfg input es

theorem claimBound_of_within {ks : List OpKind} {es : List (Act sig Failure)} {o : Op}
    (h : o.Within input.sessionId ks) (hks : ∀ k ∈ ks, k ∉ [OpKind.claim, .trail]) :
    ClaimBound cfg input es o :=
  fun hk => absurd hk (hks _ h.1)

theorem before_submitBody_bound (correlationId : Uuid) (start : ℕ) :
    Before (ClaimBound cfg input) (submitBody cfg input correlationId start) := by
  refine Before.bind ((only_runChecks correlationId).before fun _ _ ho =>
    claimBound_of_within ho (by decide)) (returns_runChecks correlationId) fun es user hbound => ?_
  apply before_of_forall
  intro es' o _
  exact (hbound user rfl).mono (List.subset_append_left _ _)

theorem before_submitProof_bound : Before (ClaimBound cfg input) (submitProof cfg input) := by
  refine before_perform_bind.mpr ⟨by simp [ClaimBound, Op.kind], fun start => ?_⟩
  refine before_perform_bind.mpr ⟨by simp [ClaimBound, Op.kind], fun correlationId => ?_⟩
  refine Before.tryCatch (Φ := fun _ _ => True) ?_ (ends_of_forall fun _ _ => trivial)
    fun es e _ => ?_
  · apply (before_submitBody_bound correlationId start).mono
    intro es o ho hk
    exact (ho hk).mono fun x hx => List.mem_cons_of_mem _ (List.mem_cons_of_mem _ hx)
  · exact (only_submitCatch correlationId start e).before fun _ _ ho =>
      claimBound_of_within ho (by decide)

theorem before_code_submit_bound :
    Before (ClaimBound cfg input) (code cfg (.submit input)) :=
  Before.bind (Φ := fun _ _ => True) before_submitProof_bound (ends_of_forall fun _ _ => trivial)
    fun _ _ _ => trivial

/-- The nonce of a row to be inserted was drawn before. -/
def Minted (es : List (Act sig Failure)) (o : Op) : Prop :=
  ∀ v, o = .insertSession v →
    ∃ bs, (⟨.randomBytes 31, .ok bs⟩ : Act sig Failure) ∈ es ∧ v.nonceHex = hexBytes bs

theorem minted_of_kind {es : List (Act sig Failure)} {o : Op} (h : o.kind ≠ .insert) :
    Minted es o := by
  intro v hv
  subst hv
  exact absurd rfl h

theorem before_createSession_minted {input : CreateInput} :
    Before Minted (createSession cfg input) := by
  refine before_perform_bind.mpr ⟨minted_of_kind (by simp [Op.kind]), fun count => ?_⟩
  split
  · trivial
  · refine before_perform_bind.mpr ⟨minted_of_kind (by simp [Op.kind]), fun id => ?_⟩
    refine before_perform_bind.mpr ⟨minted_of_kind (by simp [Op.kind]), fun nonceBytes => ?_⟩
    refine before_perform_bind.mpr ⟨minted_of_kind (by simp [Op.kind]), fun bindBytes => ?_⟩
    refine before_perform_bind.mpr ⟨minted_of_kind (by simp [Op.kind]), fun now => ?_⟩
    refine before_perform_bind.mpr ⟨fun v hv => ?_, fun _ => ?_⟩
    · cases hv
      exact ⟨nonceBytes, by simp, rfl⟩
    · exact before_perform_bind.mpr ⟨minted_of_kind (by simp [Op.kind]), fun _ => trivial⟩

theorem before_code_minted (a : Call) : Before Minted (code cfg a) := by
  cases a with
  | create input =>
      exact Before.bind (Φ := fun _ _ => True) before_createSession_minted
        (ends_of_forall fun _ _ => trivial) fun _ _ _ => trivial
  | submit input =>
      have hall : Only (Op.Within input.sessionId
          [.load, .verify, .increment, .claim, .trail, .plain]) (code cfg (.submit input)) :=
        Only.bind only_submitProof fun _ => trivial
      exact hall.before fun es o ho => minted_of_kind (ho.kind_ne (by decide))
  | increment sessionId errorCode =>
      have hall : Only (fun o : Op => o.kind = .increment)
          (code cfg (.increment sessionId errorCode)) :=
        Only.bind (Only.bind (only_perform rfl) fun _ => trivial) fun _ => trivial
      exact hall.before fun es o ho => minted_of_kind (by simp [ho])
  | expire =>
      have hall : Only (fun o : Op => o.kind = .plain) (code cfg .expire) :=
        Only.bind (Only.bind (only_perform rfl) fun rows =>
          Only.bind (only_spawnExpired rows) fun _ => trivial) fun _ => trivial
      exact hall.before fun es o ho => minted_of_kind (by simp [ho])

end Calls

/-! ## Runs -/

section Runs

variable {cfg : Settings} {pg : Jsonb} {good : State → Label Call Oracle Env → Prop} {c : State}

theorem length_randomBytes (h : (system cfg pg).Reach Empty good c) :
    ∀ e ∈ c.log, ∀ n bs, e.act = (⟨.randomBytes n, .ok bs⟩ : Act sig Failure) → bs.length = n := by
  refine System.Reach.log_forall (fun w t o ω r w' hx n bs heq => ?_) h
  cases heq
  simp only [exec] at hx
  split at hx
  · next hlen =>
      cases hx
      exact hlen
  · cases hx

/-- The nonces of all sessions are texts of 31 bytes. -/
theorem nonce_of_reach (h : (system cfg pg).Reach Empty good c) :
    ∀ r ∈ c.world.sessions, ∃ bs : List UInt8, bs.length = 31 ∧ r.nonceHex = hexBytes bs := by
  refine h.invariant (I := fun c => ∀ r ∈ c.world.sessions, ∃ bs : List UInt8, bs.length = 31 ∧
    r.nonceHex = hexBytes bs) ?_ ?_ ?_ ?_
  · intro w hw r hr
    rw [Config.init, hw] at hr
    cases hr
  · exact fun _ _ _ hI _ => hI
  · intro c t ω a past o k r w hc hI _ hth hx r' hr'
    -- an UPDATE keeps the nonce of a row
    have hkeep : ∀ {p f}, (∀ r, p r = true → RowStep c.world.clock r (f r)) →
        w.sessions = (c.world.update p f).sessions →
        ∃ bs : List UInt8, bs.length = 31 ∧ r'.nonceHex = hexBytes bs := by
      intro p f hstep hs
      change r' ∈ w.sessions at hr'
      rw [hs] at hr'
      obtain ⟨r₀, hr₀, hrow⟩ := (rowStep_update hstep).2 r' hr'
      rw [hrow.nonceHex_eq]
      exact hI r₀ hr₀
    cases exec_change hx with
    | same hs =>
        change r' ∈ w.sessions at hr'
        rw [hs] at hr'
        exact hI r' hr'
    | inserted v tenantId apiKeyId hid hs hw hop =>
        change r' ∈ w.sessions at hr'
        rw [hs] at hr'
        rcases List.mem_append.mp hr' with hr' | hr'
        · exact hI r' hr'
        · obtain rfl := List.mem_singleton.mp hr'
          -- an INSERT takes the bytes that its call has drawn
          obtain ⟨bs, hbs, hnonce⟩ := hc.before hth (before_code_minted a) v hop
          exact ⟨bs, length_randomBytes hc _ ((hc.mem_log hth).mp hbs) 31 bs rfl, hnonce⟩
    | incremented id code hs =>
        exact hkeep (fun r hr => .incremented code (of_decide_eq_true hr).2) hs
    | claimed id user r₀ hr₀ hc₀ hs =>
        exact hkeep (fun r hr => .consumed user (of_decide_eq_true hr).2) hs
    | swept hs =>
        exact hkeep (fun r hr => .swept (of_decide_eq_true hr).1 (of_decide_eq_true hr).2) hs
  · intro c e w hc hI _ he r' hr'
    obtain ⟨r, hr, hrow⟩ := (env_kept he).2 r' hr'
    rw [hrow.nonceHex_eq]
    exact hI r hr

/-- What `findUserByDid` was answered with is the metadata of a user. -/
theorem user_of_answered (h : (system cfg pg).Reach Empty good c) :
    ∀ e ∈ c.log, ∀ metadata, answeredMetadata e.act = some metadata →
      ∃ u ∈ c.world.users, u.metadata = metadata := by
  refine System.Reach.world_invariant (I := fun w log => ∀ e ∈ log, ∀ metadata,
    answeredMetadata e.act = some metadata → ∃ u ∈ w.users, u.metadata = metadata)
    (fun _ _ _ he => by cases he) (fun w log t o ω r w' hI hx e he metadata hmeta => ?_)
    (fun w log e w' hI he x hx metadata hmeta => ?_) h
  · rw [(exec_frame hx).2.2]
    rcases List.mem_append.mp he with he | he
    · exact hI e he metadata hmeta
    · obtain rfl := List.mem_singleton.mp he
      cases o with
      | selectUser tenantId environment did =>
          cases r with
          | error e => cases hmeta
          | ok a =>
              obtain ⟨u, -, hrun⟩ := withUuid_ok (statement_ok hx)
              cases hrun
              generalize hget : (w.usersByDid pg u environment did)[
                ω.pick % (w.usersByDid pg u environment did).length]? = user at hmeta
              cases user with
              | none => cases hmeta
              | some user =>
                  cases hmeta
                  exact ⟨user, List.mem_of_mem_filter (List.mem_of_getElem? hget), rfl⟩
      | _ => cases hmeta
  · obtain ⟨u, hu, hum⟩ := hI x hx metadata hmeta
    exact ⟨u, (env_frame he).2.2.subset hu, hum⟩

/-- Tokens were issued for call `t`, a submit. -/
def Accepted (c : State) (t : ℕ) (input : SubmitInput) : Prop :=
  ∃ th, c.threads[t]? = some th ∧ th.call = .submit input ∧
    ∃ payload tokens, (⟨.issueTokens payload, .ok tokens⟩ : Act sig Failure) ∈ th.past

/-- An accepted signal is the hash of a user's DID hash and of the session's nonce. -/
theorem bound_of_accepted (h : (system cfg pg).Reach Empty good c) {t : ℕ} {input : SubmitInput}
    (hacc : Accepted c t input) :
    ∃ r ∈ c.world.sessions, ∃ u ∈ c.world.users, ∃ i d n,
      Uuid.parse input.sessionId = some r.id ∧ didHashOf u.metadata = some d ∧
      nonceHexToField r.nonceHex = .ok n ∧ secondSignal input.publicSignals = some i ∧
      timingSafeBigIntEqual i (cfg.poseidon2 d n) = true := by
  obtain ⟨th, hth, hcall, payload, tokens, hissued⟩ := hacc
  have hbefore : Before (ClaimBound cfg input) ((system cfg pg).code th.call) := by
    rw [hcall]
    exact before_code_submit_bound
  obtain ⟨pre, hpre, hbound⟩ := h.before_of_mem hth hbefore hissued
  obtain ⟨x, hx, y, hy, row, metadata, i, d, n, hrow, hmeta, hd, hn, hi, heq⟩ :=
    hbound (by simp [Op.kind])
  obtain ⟨hparse, r, hr, hid, -, hnonce⟩ := session_of_read h hth hcall (hpre.subset hx) hrow
  obtain ⟨u, hu, rfl⟩ := user_of_answered h _ ((h.mem_log hth).mp (hpre.subset hy)) metadata hmeta
  rw [← hid] at hparse
  rw [← hnonce] at hn
  exact ⟨r, hr, u, hu, i, d, n, hparse, hd, hn, hi, heq⟩

/-- A call that has returned was accepted. -/
theorem accepted_of_ended (h : (system cfg pg).Reach Empty good c) {t : ℕ} {input : SubmitInput}
    {res : SubmitResult} (hend : Ended c t input (.ok res)) : Accepted c t input := by
  obtain ⟨th, start, correlationId, es₁, es₂, hth, hcall, hpast, hbody, -⟩ := run_of_ended h hend
  generalize hout : (.ok res : Except Failure SubmitResult) = out at hbody
  cases hbody with
  | rejected => cases hout
  | lost => cases hout
  | claimed hpass hops htrail hforward hok =>
      obtain ⟨-, -, payload, hissued⟩ := hok res hout.symm
      refine ⟨th, hth, hcall, payload, res.tokens, ?_⟩
      rw [hpast]
      simp [hissued]

end Runs

end ZeroAuth.Pairing
