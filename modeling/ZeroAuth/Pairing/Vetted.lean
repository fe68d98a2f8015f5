/-
  ZeroAuth.Pairing.Vetted

  What stands behind a consumed session, in every reachable configuration.

  A claim is awaited only after all checks of `submitProof` have passed (`before_code_vetted`):
  on the row that was read, the user that was found and the proof of this call.  Rows keep the
  columns that the checks read, so the same is true of the row as it is now
  (`consumed_vetted`).
-/

import ZeroAuth.Pairing.Events
import ZeroAuth.Pairing.Signals

namespace ZeroAuth.Pairing

open ZeroAuth.Lib ZeroAuth.Js ZeroAuth.Pg ZeroAuth.Audit ZeroAuth.Tenant Prog

/-! ## What the checks have found -/

/-- A pairing check has accepted the proof of this call: snarkjs with the loaded key, or the
    verifier's service, whose structural fallback does not count. -/
def SubmitInput.Accepts (input : SubmitInput) : Act sig Failure → Prop
  | ⟨.groth16Verify proof signals, .ok true⟩ =>
      proof = input.proof ∧ signals = input.publicSignals
  | ⟨.fetchVerifier request, .ok ⟨true, _, true, false⟩⟩ =>
      request.proof = input.proof ∧ request.publicSignals = input.publicSignals
  | _ => False

/-- A server that has neither a verifier's service nor a key looks at the shape of a proof only. -/
def Settings.ShapeOnly (cfg : Settings) : Prop :=
  cfg.verifierUrl.getD [] = [] ∧ cfg.verificationKey = false

/-- The read of the call's session. -/
def SubmitInput.reads (input : SubmitInput) (row : SessionRow) : Act sig Failure :=
  ⟨.selectSession input.sessionId input.tenantId input.environment, .ok (some row)⟩

/-- The look-up of the call's user. -/
def SubmitInput.finds (input : SubmitInput) (id : Uuid) (metadata : Json) : Act sig Failure :=
  ⟨.selectUser input.tenantId input.environment input.did, .ok (some (id, metadata))⟩

/-- The checks of `submitProof` against a nonce and the hash of a bind token. -/
structure Vetted (cfg : Settings) (input : SubmitInput) (nonceHex bindTokenHash : JsString)
    (userId : Uuid) (es : List (Act sig Failure)) : Prop where
  bound : ∃ token, input.presentedSessionBindToken = some token ∧
    bindTokenMatches token bindTokenHash = true
  signed : ∃ metadata s₀ s₁ s₂ a b commitment didHash nonce,
    input.finds userId metadata ∈ es ∧ input.publicSignals = .arr [s₀, s₁, s₂] ∧
      parseBigIntFromSignal s₀ = .ok a ∧ parseBigIntFromSignal s₁ = .ok b ∧
      commitmentOf metadata = some commitment ∧ didHashOf metadata = some didHash ∧
      nonceHexToField nonceHex = .ok nonce ∧ SameBytes a commitment ∧
      SameBytes b (cfg.poseidon2 didHash nonce)
  accepted : (∃ x ∈ es, input.Accepts x) ∨
    cfg.ShapeOnly ∧ isValidProofStructure input.proof = true

section Calls

variable {cfg : Settings} {input : SubmitInput}

theorem returns_loadOpenSession_read :
    Returns (fun es row => input.reads row ∈ es) (loadOpenSession input) := by
  apply returns_perform_bind
  intro row
  cases row with
  | none =>
      refine ends_missingSession.mono fun es out hout row h => ?_
      obtain ⟨e, rfl⟩ := hout
      cases h
  | some row =>
      refine (returns_checkOpen row).mono fun es row' h => ?_
      subst h
      exact List.mem_cons_self

theorem returns_checkBindToken (row : SessionRow) :
    Returns (fun _ _ => ∃ token, input.presentedSessionBindToken = some token ∧
      bindTokenMatches token row.sessionBindTokenHash = true) (checkBindToken input row) := by
  unfold checkBindToken
  split
  · exact returns_raise
  · exact returns_raise
  · next token _ htoken =>
      split
      · next hmatch => exact returns_ret ⟨token, htoken, hmatch⟩
      · apply returns_bind
        intro _ _
        exact returns_raise

theorem returns_findUserByDid_found : Returns (fun es user => ∀ u, user = some u →
    ∃ metadata, input.finds u.id metadata ∈ es ∧
      metadata.get? (js "did_hash") = some (.str u.didHash) ∧
      metadata.get? (js "commitment") = some (.str u.commitment))
    (findUserByDid input.tenantId input.environment input.did) := by
  apply returns_perform_bind
  intro row
  cases row with
  | none =>
      apply returns_ret
      intro u hu
      cases hu
  | some row =>
      obtain ⟨id, metadata⟩ := row
      simp only
      split
      · next didHash commitment hhash hcommitment =>
          apply returns_ret
          intro u hu
          split at hu
          · cases hu
          · cases hu
            exact ⟨metadata, List.mem_cons_self, hhash, hcommitment⟩
      · apply returns_ret
        intro u hu
        cases hu

/-- The first signal denotes the commitment of the user that was found. -/
theorem returns_checkUser_found : Returns (fun es user => ∃ metadata s₀ s₂ a commitment,
    input.finds user.1.id metadata ∈ es ∧
      metadata.get? (js "did_hash") = some (.str user.1.didHash) ∧
      input.publicSignals = .arr [s₀, user.2, s₂] ∧ parseBigIntFromSignal s₀ = .ok a ∧
      commitmentOf metadata = some commitment ∧ SameBytes a commitment) (checkUser input) := by
  apply returns_findUserByDid_found.bind
  intro es user huser
  split
  · exact returns_raise
  · next user =>
      obtain ⟨metadata, hfound, hhash, hcommitment⟩ := huser user rfl
      split
      · exact returns_raise
      · next s₀ s₁ hsignals =>
          obtain ⟨s₂, hthree⟩ : ∃ s₂, input.publicSignals = .arr [s₀, s₁, s₂] := by
            revert hsignals
            unfold threeSignals
            split
            · next s₂ hthree =>
                intro h
                cases h
                exact ⟨s₂, hthree⟩
            · intro h
              cases h
          apply Returns.bind (returns_ofExcept (Q := fun _ a => parseBigIntFromSignal s₀ = .ok a)
            fun _ h => h)
          intro es₁ a ha
          apply Returns.bind (returns_ofExcept
            (Q := fun _ c => parseBigIntText user.commitment = .ok c) fun _ h => h)
          intro es₂ c hc
          split
          · next heq =>
              apply returns_ret
              refine ⟨metadata, s₀, s₂, a, c, List.mem_append_left _ hfound, hhash, hthree, ha, ?_,
                (timingSafeBigIntEqual_iff a c).mp heq⟩
              rw [commitmentOf, hcommitment]
              simp only [hc, Except.toOption]
          · exact returns_raise

/-- Without a verifier's service: the key decides, and where there is none the shape of the proof. -/
theorem returns_verifyInline (hurl : cfg.verifierUrl.getD [] = []) :
    Returns (fun es verified => verified = true → (∃ x ∈ es, input.Accepts x) ∨
      cfg.ShapeOnly ∧ isValidProofStructure input.proof = true)
      (verifyInline cfg input.proof input.publicSignals) := by
  unfold verifyInline
  split
  · refine Ends.tryCatch (Ψ := fun es out => ∀ verified, out = .ok verified →
      (verified = true → (∃ x ∈ es, input.Accepts x) ∨
        cfg.ShapeOnly ∧ isValidProofStructure input.proof = true)) ?_ (fun _ _ h => h)
      fun es e _ => ?_
    · apply (ends_perform (S := sig)
        (o := Op.groth16Verify input.proof input.publicSignals)).mpr
      constructor
      · intro verified b hb htrue
        obtain rfl : verified = b := Except.ok.inj hb
        subst htrue
        exact Or.inl ⟨_, List.mem_singleton_self _, rfl, rfl⟩
      · intro e b hb
        cases hb
    -- an error of snarkjs is a refusal
    · apply returns_ret
      intro hfalse
      cases hfalse
  · next hkey =>
      apply returns_ret
      intro hshape
      exact Or.inr ⟨⟨hurl, by simpa using hkey⟩, hshape⟩

/-- A service that answers by its structural fallback has not accepted. -/
theorem returns_verifierVerify (correlationId : Uuid) :
    Returns (fun es verified => verified = true → (∃ x ∈ es, input.Accepts x) ∨
      cfg.ShapeOnly ∧ isValidProofStructure input.proof = true)
      (verifierVerify cfg input correlationId) := by
  rcases hurl : cfg.verifierUrl with _ | ⟨_ | ⟨u, us⟩⟩ <;> simp only [verifierVerify, hurl]
  · exact returns_verifyInline (by rw [hurl]; rfl)
  · exact returns_verifyInline (by rw [hurl]; rfl)
  · refine Ends.tryCatch (Ψ := fun es out => ∀ verified, out = .ok verified →
      (verified = true → (∃ x ∈ es, input.Accepts x) ∨
        cfg.ShapeOnly ∧ isValidProofStructure input.proof = true)) ?_ (fun _ _ h => h)
      fun es e _ => ?_
    · apply returns_perform_bind
      intro reply
      split
      · exact returns_raise
      · apply returns_ret
        intro h
        cases h
      · apply returns_ret
        rintro rfl
        exact Or.inl ⟨_, List.mem_cons_self, rfl, rfl⟩
    · split <;> exact fun b hb => by cases hb

theorem returns_checkProof (correlationId : Uuid) :
    Returns (fun es _ => (∃ x ∈ es, input.Accepts x) ∨
      cfg.ShapeOnly ∧ isValidProofStructure input.proof = true)
      (checkProof cfg input correlationId) := by
  apply (returns_verifierVerify correlationId).bind
  intro es verified hverified
  split
  · next htrue =>
      refine returns_ret ((hverified htrue).imp_left ?_)
      rintro ⟨x, hx, haccepts⟩
      exact ⟨x, List.mem_append_left _ hx, haccepts⟩
  · exact returns_raise

/-- A call that has passed its checks, and the row that it has read. -/
theorem returns_runChecks_vetted (correlationId : Uuid) :
    Returns (fun es user => ∃ row, input.reads row ∈ es ∧
      Vetted cfg input row.nonceHex row.sessionBindTokenHash user.id es)
      (runChecks cfg input correlationId) := by
  apply returns_loadOpenSession_read.bind
  intro es row hread
  apply returns_bind
  intro es₁ _
  apply (returns_checkBindToken row).bind
  intro es₂ _ hbound
  apply returns_checkUser_found.bind
  rintro es₃ ⟨user, s₁⟩ ⟨metadata, s₀, s₂, a, commitment, hfound, hhash, hsignals, ha, hc, hac⟩
  apply (returns_checkNonce row user s₁).bind
  rintro es₄ _ ⟨d, n, b, hd, hn, hb, heq⟩
  apply (returns_checkProof correlationId).bind
  intro es₅ _ haccepts
  apply returns_ret
  refine ⟨row, List.mem_append_left _ hread, hbound, ?_,
    haccepts.imp_left fun ⟨x, hx, hacc⟩ => ⟨x, by simp [hx], hacc⟩⟩
  refine ⟨metadata, s₀, s₁, s₂, a, b, commitment, d, n, by simp [hfound], hsignals, ha, hb, hc, ?_,
    hn, hac, (timingSafeBigIntEqual_iff b _).mp heq⟩
  rw [didHashOf, hhash]
  simp only [hd, Except.toOption]

theorem Vetted.mono {nonceHex bindTokenHash : JsString} {userId : Uuid}
    {es es' : List (Act sig Failure)} (h : Vetted cfg input nonceHex bindTokenHash userId es)
    (hsub : es ⊆ es') : Vetted cfg input nonceHex bindTokenHash userId es' := by
  obtain ⟨hbound, ⟨metadata, s₀, s₁, s₂, a, b, commitment, d, n, hfound, hrest⟩, haccepts⟩ := h
  exact ⟨hbound, ⟨metadata, s₀, s₁, s₂, a, b, commitment, d, n, hsub hfound, hrest⟩,
    haccepts.imp_left fun ⟨x, hx, hacc⟩ => ⟨x, hsub hx, hacc⟩⟩

/-! ## Before a claim -/

/-- A claim is for the user that the checks have found, on the row that they have read. -/
def ClaimVetted (cfg : Settings) (input : SubmitInput) (es : List (Act sig Failure)) (o : Op) :
    Prop :=
  ∀ sessionId userId, o = .claim sessionId userId → ∃ row, input.reads row ∈ es ∧
    Vetted cfg input row.nonceHex row.sessionBindTokenHash userId es

theorem claimVetted_of_within {ks : List OpKind} {es : List (Act sig Failure)} {o : Op}
    (h : o.Within input.sessionId ks) (hks : .claim ∉ ks) : ClaimVetted cfg input es o := by
  rintro sessionId userId rfl
  exact absurd rfl (h.kind_ne hks)

theorem only_claimSession_user (user : StoredUserCommitment) :
    Only (fun o : Op => ∀ sessionId userId, o = .claim sessionId userId → userId = user.id)
      (claimSession input user) := by
  refine Only.bind (only_perform fun s u h => ?_) fun claimed => ?_
  · cases h
    rfl
  · refine Only.bind (only_perform fun s u h => by cases h) fun _ => ?_
    split
    · trivial
    · refine Only.bind (only_ignoreFailure (only_perform fun s u h => ?_)) fun _ => trivial
      cases h

theorem before_submitBody_vetted (correlationId : Uuid) (start : ℕ) :
    Before (ClaimVetted cfg input) (submitBody cfg input correlationId start) := by
  refine Before.bind ((only_runChecks correlationId).before fun _ _ ho =>
    claimVetted_of_within ho (by decide)) (returns_runChecks_vetted correlationId)
    fun es user hchecks => ?_
  obtain ⟨row, hread, hvetted⟩ := hchecks user rfl
  refine Before.bind (Φ := fun _ _ => True) ?_ (ends_of_forall fun _ _ => trivial)
    fun es' row' _ => ?_
  · refine (only_claimSession_user user).before fun es' o ho sessionId userId h => ?_
    obtain rfl := ho sessionId userId h
    exact ⟨row, List.mem_append_left _ hread, hvetted.mono (List.subset_append_left _ _)⟩
  · exact (only_mintTokens user correlationId start row').before fun _ _ ho =>
      claimVetted_of_within ho (by decide)

theorem before_submitProof_vetted : Before (ClaimVetted cfg input) (submitProof cfg input) := by
  refine before_perform_bind.mpr ⟨fun s u h => (by cases h), fun start => ?_⟩
  refine before_perform_bind.mpr ⟨fun s u h => (by cases h), fun correlationId => ?_⟩
  refine Before.tryCatch (Φ := fun _ _ => True) ?_ (ends_of_forall fun _ _ => trivial)
    fun es e _ => (only_submitCatch correlationId start e).before fun _ _ ho =>
      claimVetted_of_within ho (by decide)
  refine (before_submitBody_vetted correlationId start).mono fun es o ho sessionId userId h => ?_
  obtain ⟨row, hread, hvetted⟩ := ho sessionId userId h
  have hsub : es ⊆ ⟨.now, .ok start⟩ :: ⟨.uuidv4, .ok correlationId⟩ :: es :=
    fun x hx => List.mem_cons_of_mem _ (List.mem_cons_of_mem _ hx)
  exact ⟨row, hsub hread, hvetted.mono hsub⟩

/-- The claim of any call. -/
theorem before_code_vetted (a : Call) : Before (fun es (o : Op) => ∀ sessionId userId,
    o = .claim sessionId userId → ∃ input row, a = .submit input ∧ sessionId = input.sessionId ∧
      input.reads row ∈ es ∧
      Vetted cfg input row.nonceHex row.sessionBindTokenHash userId es) (code cfg a) := by
  have hplaced : Before (InSubmit a) (code cfg a) := before_code a
  cases a with
  | submit input =>
      have hcode : Before (ClaimVetted cfg input) (code cfg (.submit input)) :=
        Before.bind (Φ := fun _ _ => True) before_submitProof_vetted
          (ends_of_forall fun _ _ => trivial) fun _ _ _ => trivial
      refine (Before.and hplaced hcode).mono fun es o ho sessionId userId h => ?_
      obtain ⟨row, hread, hvetted⟩ := ho.2 sessionId userId h
      subst h
      obtain ⟨input', heq, hplace⟩ := ho.1 (by simp [Op.kind])
      cases heq
      exact ⟨input, row, rfl, hplace.1 sessionId rfl, hread, hvetted⟩
  | _ =>
      refine Before.mono hplaced fun es o ho sessionId userId h => ?_
      subst h
      obtain ⟨input', heq, -⟩ := ho (by simp [Op.kind])
      cases heq

end Calls

/-! ## The rows as they are now -/

/-- The columns that no statement changes. -/
def SessionRow.fixed (r : SessionRow) : Uuid × Uuid × JsString × JsString × JsString :=
  (r.id, r.tenantId, r.environment, r.nonceHex, r.sessionBindTokenHash)

theorem RowStep.fixed_eq {now : ℕ} {r r' : SessionRow} (h : RowStep now r r') :
    r'.fixed = r.fixed := by
  cases h <;> rfl

section Runs

variable {cfg : Settings} {pg : Jsonb} {good : State → Label Call Oracle Env → Prop} {c : State}

/-- A session row that was read: it is of the tenant and the environment that were asked for, and
    it is still there. -/
def ReadNow (sessions : List SessionRow) (x : Act sig Failure) : Prop :=
  ∀ text tenant environment row,
    x = ⟨.selectSession text tenant environment, .ok (some row)⟩ →
    Uuid.parse text = some row.id ∧ Uuid.parse tenant = some row.tenantId ∧
      environment = row.environment ∧ ∃ r ∈ sessions, r.fixed = row.fixed

theorem ReadNow.rows {old new : List SessionRow} {now : ℕ} {x : Act sig Failure}
    (h : ReadNow old x) (hrows : RowsStep now old new) : ReadNow new x := by
  intro text tenant environment row hx
  obtain ⟨hid, htenant, henvironment, r, hr, hfixed⟩ := h text tenant environment row hx
  obtain ⟨r', hr', hstep⟩ := hrows.1 r hr
  exact ⟨hid, htenant, henvironment, r', hr', hstep.fixed_eq.trans hfixed⟩

theorem readNow_of_exec {o : Op} {ω : Oracle} {w w' : World} {r : Except Failure o.Resp}
    (hx : exec pg o ω w = some (r, w')) : ReadNow w'.sessions ⟨o, r⟩ := by
  intro text tenant environment row heq
  cases heq
  obtain ⟨id, hid, hrun⟩ := withUuid_ok (statement_ok hx)
  obtain ⟨u, hu, hrun⟩ := withUuid_ok hrun
  obtain ⟨hfound, rfl⟩ := Prod.mk.inj hrun
  have hfound := Except.ok.inj hfound
  have hkeys := List.find?_some hfound
  obtain ⟨rfl, rfl, rfl⟩ := of_decide_eq_true hkeys
  exact ⟨hid, hu, rfl, row, List.mem_of_find?_eq_some hfound, rfl⟩

theorem readNow_of_reach (h : (system cfg pg).Reach Empty good c) :
    ∀ e ∈ c.log, ReadNow c.world.sessions e.act := by
  refine System.Reach.world_invariant (I := fun w log => ∀ e ∈ log, ReadNow w.sessions e.act)
    (fun _ _ _ he => by cases he) (fun w log t o ω r w' hI hx e he => ?_)
    (fun w log e w' hI he x hx => (hI x hx).rows (env_rows he).1) h
  rcases List.mem_append.mp he with he | he
  · exact (hI e he).rows (exec_change hx).rows
  · rw [List.mem_singleton.mp he]
    exact readNow_of_exec hx

/-- A user that was found, in the tenant and the environment that were asked for. -/
def FoundNow (pg : Jsonb) (users : List TenantUser) (x : Act sig Failure) : Prop :=
  ∀ tenant environment did id metadata,
    x = ⟨.selectUser tenant environment did, .ok (some (id, metadata))⟩ →
    ∃ u ∈ users, Uuid.parse tenant = some u.tenantId ∧ environment = u.environment ∧
      pg.arrowText (js "did") u.metadata = some did ∧ id = u.id ∧ metadata = u.metadata

theorem foundNow_of_exec {o : Op} {ω : Oracle} {w w' : World} {r : Except Failure o.Resp}
    (hx : exec pg o ω w = some (r, w')) : FoundNow pg w'.users ⟨o, r⟩ := by
  intro tenant environment did id metadata heq
  cases heq
  obtain ⟨u, hu, hrun⟩ := withUuid_ok (statement_ok hx)
  obtain ⟨hfound, rfl⟩ := Prod.mk.inj hrun
  obtain ⟨row, hrow, heq⟩ := Option.map_eq_some_iff.mp (Except.ok.inj hfound)
  cases heq
  obtain ⟨hmem, hkeys⟩ := List.mem_filter.mp (List.mem_of_getElem? hrow)
  obtain ⟨rfl, rfl, hdid⟩ := of_decide_eq_true hkeys
  exact ⟨row, hmem, hu, rfl, hdid, rfl, rfl⟩

theorem foundNow_of_reach (h : (system cfg pg).Reach Empty good c) :
    ∀ e ∈ c.log, FoundNow pg c.world.users e.act := by
  refine System.Reach.world_invariant (I := fun w log => ∀ e ∈ log, FoundNow pg w.users e.act)
    (fun _ _ _ he => by cases he) (fun w log t o ω r w' hI hx e he => ?_)
    (fun w log e w' hI he x hx tenant environment did id metadata heq => ?_) h
  · rcases List.mem_append.mp he with he | he
    · rw [(exec_frame hx).2.2]
      exact hI e he
    · rw [List.mem_singleton.mp he]
      exact foundNow_of_exec hx
  · obtain ⟨u, hu, hrest⟩ := hI x hx tenant environment did id metadata heq
    exact ⟨u, (env_frame he).2.2.subset hu, hrest⟩

end Runs

section Now

variable {cfg : Settings} {pg : Jsonb} {w : World} {log : List Event}

/-- What a vetted call says about its row and its user as they are now. -/
theorem vetted_now (hok : SessionsOk w.sessions log)
    (hreads : ∀ e ∈ log, ReadNow w.sessions e.act) (hfinds : ∀ e ∈ log, FoundNow pg w.users e.act)
    {input : SubmitInput} {row r : SessionRow} {userId : Uuid} {es : List (Act sig Failure)} {t : ℕ}
    (hes : ∀ x ∈ es, (⟨t, x⟩ : Event) ∈ log) (hread : input.reads row ∈ es)
    (hvetted : Vetted cfg input row.nonceHex row.sessionBindTokenHash userId es)
    (hr : r ∈ w.sessions) (hid : Uuid.parse input.sessionId = some r.id) :
    Uuid.parse input.tenantId = some r.tenantId ∧ input.environment = r.environment ∧
      Vetted cfg input r.nonceHex r.sessionBindTokenHash userId es ∧
      ∃ u ∈ w.users, userId = u.id ∧ u.tenantId = r.tenantId ∧ u.environment = r.environment ∧
        pg.arrowText (js "did") u.metadata = some input.did := by
  -- the row that was read is this row
  obtain ⟨hrow, htenant, henvironment, r', hr', hfixed⟩ := hreads _ (hes _ hread) _ _ _ row rfl
  obtain ⟨hrid, hrtenant, hrenvironment, hnonce, hhash⟩ :
      r'.id = row.id ∧ r'.tenantId = row.tenantId ∧ r'.environment = row.environment ∧
        r'.nonceHex = row.nonceHex ∧ r'.sessionBindTokenHash = row.sessionBindTokenHash := by
    simpa [SessionRow.fixed] using hfixed
  have hsame : row.id = r.id := Option.some.inj (hrow.symm.trans hid)
  obtain rfl := hok.unique hr' hr (hrid.trans hsame)
  rw [← hnonce, ← hhash] at hvetted
  rw [← hrtenant] at htenant
  rw [← hrenvironment] at henvironment
  refine ⟨htenant, henvironment, hvetted, ?_⟩
  -- and the user that was found is there
  obtain ⟨metadata, _, _, _, _, _, _, _, _, hfound, -⟩ := hvetted.signed
  obtain ⟨u, hu, hutenant, huenvironment, hdid, rfl, -⟩ :=
    hfinds _ (hes _ hfound) _ _ _ _ metadata rfl
  exact ⟨u, hu, rfl, Option.some.inj (hutenant.symm.trans htenant),
    huenvironment.symm.trans henvironment, hdid⟩

end Now

section Result

variable {cfg : Settings} {pg : Jsonb} {c : State}

/-- Behind every consumed session stands one call of `submitProof` of its own tenant and
    environment: it has held the session's bind token, its signals are the commitment of the user
    that the row names and the hash of the user's DID and the session's nonce, a pairing check has
    accepted its proof (on a server with no verifier at all, the proof has the right shape), and
    the user is one of that tenant with the DID of the call. -/
theorem consumed_vetted (h : (system cfg pg).Reach Empty (fun _ _ => True) c) {r : SessionRow}
    (hr : r ∈ c.world.sessions) (hconsumed : r.state = .consumed) :
    ∃ (t : ℕ) (th : Thread sig Failure Result Call) (input : SubmitInput) (u : TenantUser),
      c.threads[t]? = some th ∧ th.call = .submit input ∧
      Uuid.parse input.sessionId = some r.id ∧ Uuid.parse input.tenantId = some r.tenantId ∧
      input.environment = r.environment ∧
      Vetted cfg input r.nonceHex r.sessionBindTokenHash u.id th.past ∧
      u ∈ c.world.users ∧ r.consumedUserId = some u.id ∧ u.tenantId = r.tenantId ∧
      u.environment = r.environment ∧ pg.arrowText (js "did") u.metadata = some input.did := by
  have hok := sessionsOk_of_reach h
  -- the claim that has consumed the row
  obtain ⟨t, userId, hws, huser⟩ := (hok.rows r hr).winner hconsumed
  obtain ⟨⟨_, x⟩, he, rfl, hwon⟩ := mem_winners.mp (hws ▸ List.mem_singleton_self (t, userId))
  obtain ⟨text, row', rfl, htext⟩ := won_eq_some hwon
  obtain ⟨th, hth, hx⟩ := h.exists_thread he
  -- and what its call has found before
  obtain ⟨pre, hpre, hvetted⟩ := h.before_of_mem hth (before_code_vetted th.call) hx
  obtain ⟨input, row, hcall, rfl, hread, hvetted⟩ := hvetted text userId rfl
  have hpast : pre ⊆ th.past := hpre.subset
  obtain ⟨htenant, henvironment, hall, u, hu, rfl, howner, hscope, hdid⟩ :=
    vetted_now hok (readNow_of_reach h) (foundNow_of_reach h)
      (fun y hy => (h.mem_log hth).mp hy) (hpast hread) (hvetted.mono hpast) hr htext
  exact ⟨_, th, input, u, hth, hcall, htext, htenant, henvironment, hall, hu, huser, howner, hscope,
    hdid⟩

/-- One login, and the user that it was vetted for. -/
theorem consumed_vetted_of_one : ∃ c r,
    (system settings jsonb).runChecked nothingFails (.init initial) oneLogin = some c ∧
    r ∈ c.world.sessions ∧ r.state = .consumed ∧ ∃ u ∈ c.world.users, r.consumedUserId = some u.id := by
  obtain ⟨c, input, res, hc, hend, -⟩ := oneLogin_runs
  have hreach : (system settings jsonb).Reach Empty (fun _ _ => True) c :=
    System.Reach.runChecked (.init empty_initial) (fun _ _ _ => trivial) hc
  obtain ⟨_, _, -, hwin, -⟩ := winner_of_returned hreach hend
  obtain ⟨r, hr, -, hconsumed, -⟩ := row_of_winner hreach hwin
  obtain ⟨t, th, input', u, -, -, -, -, -, -, hu, huser, -⟩ := consumed_vetted hreach hr hconsumed
  exact ⟨c, r, hc, hr, hconsumed, u, hu, huser⟩

end Result

end ZeroAuth.Pairing
