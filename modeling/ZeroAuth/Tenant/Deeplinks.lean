/-
  ZeroAuth.Tenant.Deeplinks

  From the code that a call mints to the row that the code opens.

  The phone reads each of the three links back to the step, the session, the code
  and the challenge that went into it, and the hash of the normalised code is the
  one that the call has stored in the session's row.
-/

import ZeroAuth.Android.RegQrPayload
import ZeroAuth.Js.Hex
import ZeroAuth.Lib.Returns
import ZeroAuth.Tenant.Runs
import ZeroAuth.Tenant.TypedCode

namespace ZeroAuth.Tenant

open ZeroAuth.Lib ZeroAuth.Js ZeroAuth.Pg
open ZeroAuth.Audit (ChainedAuditPayload)
open ZeroAuth.Android (Uri RegStep RegChallenge Plain isPlainUnit TakesApart uriText queryText
  parseRegQr parseRegQr_ok codeShape challengeShape)
open ZeroAuth.Lib.Prog (Ends Returns ends_perform_bind returns_bind returns_perform_bind)

/-! ## Plain texts -/

/-- The text of one byte in a URI. -/
def uriByte (b : UInt8) : JsString :=
  if isUriUnreserved b then [Fin.ofNat _ b.toNat]
  else 37 :: [b.toNat / 16, b.toNat % 16].map fun d => asciiUpper (digitUnit d)

theorem uriByte_plain : ((List.range 128).all fun n => !isPlainUnit (Fin.ofNat _ n) ||
    (String.utf8EncodeChar (Char.ofNat n)).flatMap uriByte == [Fin.ofNat _ n]) = true := by
  rfl

theorem val_of_plain {u : CodeUnit} (h : isPlainUnit u = true) : u.val < 128 := by
  simp only [isPlainUnit, Bool.or_eq_true, Bool.and_eq_true, decide_eq_true_eq, beq_iff_eq] at h
  omega

theorem isAscii_of_plain {s : JsString} (h : Plain s) : IsAscii s := fun u hu => val_of_plain (h u hu)

theorem encode_plain_unit {u : CodeUnit} (h : isPlainUnit u = true) :
    (utf8 [u]).flatMap uriByte = [u] := by
  have hlt := val_of_plain h
  have hunit : Fin.ofNat 65536 u.val = u := Fin.ext (Nat.mod_eq_of_lt u.isLt)
  have hchar : unitChar u = Char.ofNat u.val := by
    rw [unitChar, isSurrogate_eq_false_of_lt (by omega), if_neg (by decide)]
  have hall := List.all_eq_true.mp uriByte_plain u.val (List.mem_range.mpr hlt)
  rw [hunit, h, Bool.not_true, Bool.false_or, beq_iff_eq] at hall
  rw [utf8, scalars, hchar, List.flatMap_singleton]
  exact hall

/-- A plain text has nothing to encode. -/
theorem encodeURIComponent_plain {s : JsString} (h : Plain s) : encodeURIComponent s = some s := by
  have hbytes : (utf8 s).flatMap uriByte = s := by
    induction s with
    | nil => rfl
    | cons u s ih =>
        have hu := h u (List.mem_cons_self ..)
        have hwell : WellFormed [u] = true := by
          rw [WellFormed, isSurrogate_eq_false_of_lt (by have hlt := val_of_plain hu; omega)]
          rfl
        have hsplit : utf8 (u :: s) = utf8 [u] ++ utf8 s := by
          have hscalars := scalars_append hwell s
          rw [List.singleton_append] at hscalars
          rw [utf8, hscalars, List.flatMap_append]
          rfl
        rw [hsplit, List.flatMap_append, encode_plain_unit hu,
          ih fun v hv => h v (List.mem_cons_of_mem _ hv)]
        rfl
  rw [encodeURIComponent, if_pos (isAscii_of_plain h).wellFormed]
  exact congrArg some hbytes

theorem plain_of_all {s : JsString} (h : s.all isPlainUnit = true) : Plain s :=
  fun u hu => List.all_eq_true.mp h u hu

theorem plain_digitUnit {d : ℕ} (hd : d < 16) : isPlainUnit (digitUnit d) = true := by
  have hall : ((List.range 16).all fun d => isPlainUnit (digitUnit d)) = true := rfl
  exact List.all_eq_true.mp hall d (List.mem_range.mpr hd)

theorem plain_uuid (id : Uuid) : Plain id.text := by
  intro u hu
  rcases Uuid.mem_text hu with rfl | ⟨d, hd, rfl⟩
  · decide
  · exact plain_digitUnit hd

theorem plain_hexBytes (bs : List UInt8) : Plain (hexBytes bs) := by
  intro u hu
  obtain ⟨d, hd, rfl⟩ := mem_hexBytes hu
  exact plain_digitUnit hd

theorem uuid_not_blank (id : Uuid) : id.text.all ZeroAuth.Android.isWhitespace = false := by
  have hhyphen : (45 : CodeUnit) ∈ id.text := by simp [Uuid.text]
  exact List.all_eq_false.mpr ⟨45, hhyphen, by decide⟩

theorem challengeShape_hexBytes {bytes : List UInt8} (h : bytes.length = 31) :
    challengeShape (hexBytes bytes) = true := by
  have hlength : (hexBytes bytes).length = 62 := by
    rw [length_hexBytes, h]
  rw [challengeShape, hlength, Bool.and_eq_true]
  refine ⟨rfl, List.all_eq_true.mpr fun u hu => ?_⟩
  obtain ⟨d, hd, rfl⟩ := mem_hexBytes hu
  have hall : ((List.range 16).all fun d => ZeroAuth.Android.isHexUnit (digitUnit d)) = true := by
    rfl
  exact List.all_eq_true.mp hall d (List.mem_range.mpr hd)

/-- The generator's alphabet lies in the character class of the phone. -/
theorem codeAlphabet_scanned {u : CodeUnit} (h : u ∈ codeAlphabet) :
    isPlainUnit u = true ∧ ZeroAuth.Android.isCodeShapeUnit u = true := by
  have hall : (codeAlphabet.all fun u =>
      isPlainUnit u && ZeroAuth.Android.isCodeShapeUnit u) = true := rfl
  have hu := List.all_eq_true.mp hall u h
  rwa [Bool.and_eq_true] at hu

theorem plain_code {c : JsString} (hc : IsCode c) : Plain c := by
  obtain ⟨body, rfl, -, hbody⟩ := hc.body
  intro u hu
  have hmark : (js "ZA-").all isPlainUnit = true := rfl
  rw [codeText, List.mem_append, List.mem_append, List.mem_cons] at hu
  rcases hu with (hu | hu) | rfl | hu
  · exact List.all_eq_true.mp hmark u hu
  · exact (codeAlphabet_scanned (hbody u (List.mem_of_mem_take hu))).1
  · decide
  · exact (codeAlphabet_scanned (hbody u (List.mem_of_mem_drop hu))).1

theorem codeShape_code {c : JsString} (hc : IsCode c) : codeShape c = true := by
  obtain ⟨body, rfl, hlength, hbody⟩ := hc.body
  have hscanned : ∀ u ∈ body, ZeroAuth.Android.isCodeShapeUnit u = true :=
    fun u hu => (codeAlphabet_scanned (hbody u hu)).2
  -- `ZA-`, four characters, a hyphen, four characters
  have hfour : (body.take codeGroupLen).length = 4 := by
    rw [List.length_take, hlength]
    rfl
  have htext : codeText body = js "ZA-" ++ (body.take codeGroupLen ++ 45 :: body.drop codeGroupLen) :=
    List.append_assoc ..
  have hlen : (codeText body).length = 12 := by
    rw [htext, List.length_append, List.length_append, List.length_cons, hfour, List.length_drop,
      hlength]
    rfl
  have hgroups : (codeText body).drop 3 = body.take codeGroupLen ++ 45 :: body.drop codeGroupLen := by
    rw [htext]
    rfl
  have hfirst : ((codeText body).drop 3).take 4 = body.take codeGroupLen := by
    rw [hgroups, ← hfour, List.take_left]
  have hhyphen : (codeText body).drop 7 = 45 :: body.drop codeGroupLen := by
    rw [show 7 = 3 + 4 from rfl, ← List.drop_drop, hgroups, ← hfour, List.drop_left]
  have hsecond : (codeText body).drop 8 = body.drop codeGroupLen := by
    rw [show 8 = 7 + 1 from rfl, ← List.drop_drop, hhyphen]
    rfl
  rw [codeShape, hlen, hfirst, hhyphen, hsecond, Bool.and_eq_true, Bool.and_eq_true,
    Bool.and_eq_true, Bool.and_eq_true]
  refine ⟨⟨⟨⟨?_, rfl⟩, ?_⟩, rfl⟩, ?_⟩
  · rw [htext]
    exact List.isPrefixOf_iff_prefix.mpr (List.prefix_append _ _)
  · exact List.all_eq_true.mpr fun u hu => hscanned u (List.mem_of_mem_take hu)
  · exact List.all_eq_true.mpr fun u hu => hscanned u (List.mem_of_mem_drop hu)

/-! ## Reading a link -/

/-- The step as the phone names it. -/
def Step.scanned : Step → RegStep
  | pair => .pair
  | enroll => .enroll
  | verify => .verify

/-- A nonce goes with the last step, and is the hex of 31 bytes. -/
def NonceOf (step : Step) (nonce : Option JsString) : Prop :=
  match step with
  | .verify => ∃ bytes : List UInt8, bytes.length = 31 ∧ nonce = some (hexBytes bytes)
  | _ => nonce = none

theorem stepDeeplink_eq {step : Step} {id : Uuid} {code : JsString} (hc : IsCode code)
    (nonce : Option JsString) :
    stepDeeplink step id code nonce = uriText (js "zeroauth") (js "reg")
      ([(js "step", step.text), (js "session", id.text), (js "code", code)] ++
        (nonce.map fun c => (js "challenge", c)).toList) := by
  have hhead : js "zeroauth://reg?step=" =
      js "zeroauth" ++ js "://" ++ js "reg" ++ 63 :: (js "step" ++ [61]) := rfl
  have hsession : js "&session=" = 38 :: (js "session" ++ [61]) := rfl
  have hcode : js "&code=" = 38 :: (js "code" ++ [61]) := rfl
  have hchallenge : js "&challenge=" = 38 :: (js "challenge" ++ [61]) := rfl
  rw [stepDeeplink, encodeURIComponent_plain (plain_code hc), hhead, hsession, hcode, hchallenge]
  cases nonce with
  | none => simp [uriText, queryText]
  | some c => simp [uriText, queryText]

/-- The phone reads a link back. -/
theorem stepDeeplink_read {parseUri : JsString → Option Uri} (huri : TakesApart parseUri)
    {step : Step} {id : Uuid} {code : JsString} {nonce : Option JsString} (hc : IsCode code)
    (hn : NonceOf step nonce) :
    parseRegQr parseUri (stepDeeplink step id code nonce) =
      .ok ⟨step.scanned, id.text, code, nonce⟩ := by
  -- nothing in the link needs escaping
  have hplain : ∀ s ∈ [js "zeroauth", js "reg", js "step", js "session", js "code",
      js "challenge", js "pair", js "enroll", js "verify"], Plain s := by
    have hall : ([js "zeroauth", js "reg", js "step", js "session", js "code", js "challenge",
        js "pair", js "enroll", js "verify"].all fun s => s.all isPlainUnit) = true := by
      rfl
    exact fun s hs => plain_of_all (List.all_eq_true.mp hall s hs)
  have hstep : Plain step.text := by
    cases step <;> exact hplain _ (by simp [Step.text])
  have hnonce : ∀ c ∈ nonce, Plain c := by
    intro c hc
    cases step with
    | pair | enroll =>
        rw [show nonce = none from hn] at hc
        cases hc
    | verify =>
        obtain ⟨bytes, -, rfl⟩ := hn
        cases hc
        exact plain_hexBytes bytes
  -- the parser gives the pairs that the link was made of
  obtain ⟨uri, hparse, hscheme, hhost, hget⟩ := huri (js "zeroauth") (js "reg")
    ([(js "step", step.text), (js "session", id.text), (js "code", code)] ++
      (nonce.map fun c => (js "challenge", c)).toList)
    (hplain _ (by simp)) (hplain _ (by simp)) (by
      intro p hp
      simp only [List.mem_append, List.mem_cons, List.not_mem_nil, or_false, Option.mem_toList] at hp
      rcases hp with (rfl | rfl | rfl) | hp
      rotate_right
      · obtain ⟨c, hc', rfl⟩ := Option.map_eq_some_iff.mp hp
        exact ⟨hplain _ (by simp), hnonce c hc'⟩
      · exact ⟨hplain _ (by simp), hstep⟩
      · exact ⟨hplain _ (by simp), plain_uuid id⟩
      · exact ⟨hplain _ (by simp), plain_code hc⟩) (by simp)
  -- the lookups find the value under its own name
  have hne₁ : (js "session" == js "step") = false := rfl
  have hne₂ : (js "code" == js "step") = false := rfl
  have hne₃ : (js "code" == js "session") = false := rfl
  have hne₄ : (js "challenge" == js "step") = false := rfl
  have hne₅ : (js "challenge" == js "session") = false := rfl
  have hne₆ : (js "challenge" == js "code") = false := rfl
  rw [stepDeeplink_eq hc]
  refine parseRegQr_ok hparse hscheme hhost ?_ ?_ ?_ ?_ (codeShape_code hc) ?_
  · have hwire : step.scanned.wire = step.text := by cases step <;> rfl
    rw [hget, hwire]
    simp only [List.cons_append, List.lookup_cons_self]
  · rw [hget]
    simp only [List.cons_append, List.lookup_cons, hne₁, beq_self_eq_true]
  · rw [hget]
    simp only [List.cons_append, List.lookup_cons, hne₂, hne₃, beq_self_eq_true]
  · exact uuid_not_blank id
  · cases step with
    | pair | enroll => exact hn
    | verify =>
        obtain ⟨bytes, hlength, rfl⟩ := hn
        refine ⟨_, rfl, ?_, ?_⟩
        · rw [hget]
          simp only [List.cons_append, List.nil_append, Option.map_some, Option.toList_some,
            List.lookup_cons, hne₄, hne₅, hne₆, beq_self_eq_true]
        · exact challengeShape_hexBytes hlength

/-! ## What the calls mint -/

/-- The history has the draws of the code. -/
def MintedCode (es : List (Act sig Failure)) (code : JsString) : Prop :=
  ∃ draws : List ℕ, (⟨.randomInts (codeGroups * codeGroupLen) codeAlphabet.length, .ok draws⟩ :
    Act sig Failure) ∈ es ∧ code = enrollmentCodeOf draws

/-- The history has the bytes of the nonce, if the step has one. -/
def MintedNonce (es : List (Act sig Failure)) (step : Step) (nonce : Option JsString) : Prop :=
  match step with
  | .verify => ∃ bytes : List UInt8, (⟨.randomBytes (challengeNonceHexLen / 2), .ok bytes⟩ :
      Act sig Failure) ∈ es ∧ nonce = some (hexBytes bytes)
  | _ => nonce = none

theorem MintedCode.mono {es es' : List (Act sig Failure)} {code : JsString}
    (h : MintedCode es code) (hes : ∀ x ∈ es, x ∈ es') : MintedCode es' code := by
  obtain ⟨draws, hdraws, hcode⟩ := h
  exact ⟨draws, hes _ hdraws, hcode⟩

theorem returns_generateEnrollmentCode : Returns MintedCode generateEnrollmentCode :=
  returns_perform_bind fun draws =>
    Prog.returns_ret ⟨draws, List.mem_singleton.mpr rfl, rfl⟩

theorem returns_startRegistration (cfg : Settings) (tenantId environment : JsString)
    (profile : Option Json) (actor : AuditActor) :
    Returns (fun es res => MintedCode es res.pairCode ∧
        res.pairDeeplink = stepDeeplink .pair res.session.id res.pairCode none)
      (startRegistration cfg tenantId environment profile actor) := by
  refine Returns.bind returns_generateEnrollmentCode fun es code hcode => ?_
  refine returns_perform_bind fun now => returns_perform_bind fun session => ?_
  refine returns_bind fun es₁ _ => returns_bind fun es₂ _ => ?_
  exact Prog.returns_ret ⟨hcode.mono fun x hx => List.mem_append_left _ hx, rfl⟩

/-- After an error in its body the call throws. -/
theorem returns_withClient {α : Type} {Q : List (Act sig Failure) → α → Prop} {body : Program α}
    (h : Returns (fun es a => Q (⟨.connect, .ok ()⟩ :: es) a) body) : Returns Q (withClient body) := by
  refine returns_perform_bind fun _ => ?_
  refine Ends.tryCatch h (fun es a ha => ha) fun es err _ => ?_
  refine Ends.bind (Prog.ends_of_forall fun _ _ => trivial) (fun _ _ _ a ha => ?_)
    fun _ _ _ a ha => ?_
  · cases ha
  · cases ha

theorem returns_pairDevice (cfg : Settings) (input : PairInput) :
    Returns (fun es res => MintedCode es res.nextCode ∧ ∃ id : Uuid, ∃ deviceId hash expiresAt,
        (⟨.query (.attachDevice id deviceId hash expiresAt), .ok res.session⟩ : Act sig Failure) ∈ es ∧
          res.nextDeeplink = stepDeeplink .enroll id res.nextCode none)
      (pairDeviceForRegistration cfg input) := by
  unfold pairDeviceForRegistration
  split
  · exact Prog.returns_raise
  · refine Returns.bind returns_generateEnrollmentCode fun es code hcode => ?_
    refine returns_perform_bind fun (now : ℕ) => returns_withClient ?_
    refine returns_perform_bind fun _ => returns_perform_bind fun found => ?_
    cases found with
    | none =>
        refine returns_bind fun _ _ => ?_
        exact Prog.returns_raise
    | some session =>
        refine returns_perform_bind fun device => returns_perform_bind fun updated => ?_
        refine returns_perform_bind fun _ => returns_bind fun es₁ _ => returns_bind fun es₂ _ => ?_
        refine Prog.returns_ret ⟨hcode.mono fun x hx => List.mem_append_left _ hx, session.id,
          device.id, sha256Hex code, now + enrollmentCodeTtlMs, ?_, rfl⟩
        simp

theorem returns_submitCommitment (cfg : Settings) (input : CommitmentInput) :
    Returns (fun es res => MintedCode es res.nextCode ∧
        MintedNonce es .verify res.challengeNonce ∧
        ∃ id : Uuid, ∃ did commitment hash expiresAt nonce,
        (⟨.query (.attachCommitment id did commitment hash expiresAt nonce), .ok res.session⟩ :
            Act sig Failure) ∈ es ∧
          res.nextDeeplink = stepDeeplink .verify id res.nextCode res.challengeNonce)
      (submitCommitmentForRegistration cfg input) := by
  unfold submitCommitmentForRegistration
  dsimp only
  split
  · exact Prog.returns_raise
  · split
    · exact Prog.returns_raise
    · -- the code and the nonce are drawn, then the transaction runs
      refine Returns.bind returns_generateEnrollmentCode fun es code hcode => ?_
      refine returns_perform_bind fun (now : ℕ) => returns_perform_bind fun bytes => ?_
      refine returns_withClient ?_
      refine returns_perform_bind fun _ => returns_perform_bind fun found => ?_
      cases found with
      | none =>
          refine returns_bind fun _ _ => ?_
          exact Prog.returns_raise
      | some session =>
          refine returns_perform_bind fun updated => returns_perform_bind fun _ => ?_
          refine returns_bind fun es₁ _ => returns_bind fun es₂ _ => ?_
          refine Prog.returns_ret ⟨hcode.mono fun x hx => List.mem_append_left _ hx,
            ⟨bytes, ?_, rfl⟩, session.id, cfg.caseMapping.toLowerCase (trim input.did),
            cfg.caseMapping.toLowerCase (trim input.commitment), sha256Hex code,
            now + enrollmentCodeTtlMs, hexBytes bytes, ?_, rfl⟩
          · simp
          · simp

/-! ## What the operations answer -/

section Answers

variable {cfg : Settings} {pg : Jsonb} {good : State → Label Call Oracle Env → Prop} {c : State}

theorem draws_of_log (h : (system cfg pg).Reach Empty good c) {t : ℕ} {es : List (Act sig Failure)}
    {code : JsString} (hes : ∀ x ∈ es, (⟨t, x⟩ : Event) ∈ c.log) (hcode : MintedCode es code) :
    IsCode code := by
  obtain ⟨draws, hdraws, rfl⟩ := hcode
  have hall := h.log_forall (P := fun e : Event => ∀ count bound (l : List ℕ),
    e.act = (⟨.randomInts count bound, .ok l⟩ : Act sig Failure) → l.length = count ∧ ∀ x ∈ l, x < bound) ?_
  · obtain ⟨hlength, hbound⟩ := hall _ (hes _ hdraws) _ _ _ rfl
    exact ⟨draws, hlength, hbound, rfl⟩
  · intro w t o ω r w' hx count bound l heq
    cases heq
    change exec pg t (.randomInts count bound) ω w = _ at hx
    dsimp only [exec] at hx
    rw [Option.ite_none_right_eq_some] at hx
    obtain ⟨⟨hlength, hbound⟩, heq⟩ := hx
    cases heq
    exact ⟨hlength, fun x hx => of_decide_eq_true (List.all_eq_true.mp hbound x hx)⟩

theorem nonce_of_log (h : (system cfg pg).Reach Empty good c) {t : ℕ} {es : List (Act sig Failure)}
    {step : Step} {nonce : Option JsString} (hes : ∀ x ∈ es, (⟨t, x⟩ : Event) ∈ c.log)
    (hnonce : MintedNonce es step nonce) : NonceOf step nonce := by
  cases step with
  | pair | enroll => exact hnonce
  | verify =>
      obtain ⟨bytes, hbytes, rfl⟩ := hnonce
      have hall := h.log_forall (P := fun e : Event => ∀ n (l : List UInt8),
        e.act = (⟨.randomBytes n, .ok l⟩ : Act sig Failure) → l.length = n) ?_
      · exact ⟨bytes, hall _ (hes _ hbytes) _ _ rfl, rfl⟩
      · intro w t o ω r w' hx n l heq
        cases heq
        change exec pg t (.randomBytes n) ω w = _ at hx
        dsimp only [exec] at hx
        rw [Option.ite_none_right_eq_some] at hx
        obtain ⟨hlength, heq⟩ := hx
        cases heq
        exact hlength

/-- The statements that move a session on answer the row that they were asked for. -/
theorem id_of_update {rows : List RegistrationSession} {id : Uuid}
    {f : RegistrationSession → RegistrationSession} (hf : ∀ s, (f s).id = s.id)
    {s : RegistrationSession}
    (h : (Answer.update Row.session rows (fun s => s.id = id) f).value = some s) : s.id = id := by
  rcases update_cases Row.session rows (fun s => s.id = id) f with ⟨r, -, hr, heq⟩ | heq
  · rw [heq] at h
    rw [← Option.some.inj h, hf]
    exact of_decide_eq_true hr
  · rw [heq] at h
    cases h

theorem attached_of_log (h : (system cfg pg).Reach Empty good c) {t : ℕ} {id deviceId : Uuid}
    {hash : JsString} {expiresAt : ℕ} {s : RegistrationSession}
    (hx : (⟨t, ⟨.query (.attachDevice id deviceId hash expiresAt), .ok (some s)⟩⟩ : Event) ∈ c.log) :
    s.id = id := by
  refine h.log_forall (P := fun e : Event => ∀ id deviceId hash expiresAt s,
    e.act = (⟨.query (.attachDevice id deviceId hash expiresAt), .ok (some s)⟩ : Act sig Failure) →
      s.id = id) ?_ _ hx id deviceId hash expiresAt s rfl
  intro w t o ω r w' hx id deviceId hash expiresAt s heq
  cases heq
  change exec pg t (.query _) ω w = _ at hx
  obtain ⟨e, he, -⟩ | ⟨tx, a, store, -, ha, hvalue, -⟩ := exec_query hx
  · cases he
  · cases ha
    exact id_of_update (f := RegistrationSession.paired deviceId hash expiresAt tx.now)
      (fun _ => rfl) (Except.ok.inj hvalue).symm

theorem committed_of_log (h : (system cfg pg).Reach Empty good c) {t : ℕ} {id : Uuid}
    {did commitment hash nonce : JsString} {expiresAt : ℕ} {s : RegistrationSession}
    (hx : (⟨t, ⟨.query (.attachCommitment id did commitment hash expiresAt nonce), .ok (some s)⟩⟩ :
      Event) ∈ c.log) : s.id = id := by
  refine h.log_forall (P := fun e : Event => ∀ id did commitment hash expiresAt nonce s,
    e.act = (⟨.query (.attachCommitment id did commitment hash expiresAt nonce), .ok (some s)⟩ :
      Act sig Failure) → s.id = id) ?_ _ hx id did commitment hash expiresAt nonce s rfl
  intro w t o ω r w' hx id did commitment hash expiresAt nonce s heq
  cases heq
  change exec pg t (.query _) ω w = _ at hx
  obtain ⟨e, he, -⟩ | ⟨tx, a, store, -, ha, hvalue, -⟩ := exec_query hx
  · cases he
  · cases ha
    exact id_of_update (f := RegistrationSession.committed did commitment hash expiresAt nonce
      tx.now) (fun _ => rfl) (Except.ok.inj hvalue).symm

end Answers

/-! ## From the link to the row -/

/-- The phone reads the link back, and the code in it is looked up under the hash that the
    call has written into the session's row. -/
structure LinkReaches (cfg : Settings) (parseUri : JsString → Option Uri) (t : ℕ) (step : Step)
    (s : RegistrationSession) (link code : JsString) (nonce : Option JsString) (w : World) :
    Prop where
  read : parseRegQr parseUri link = .ok ⟨step.scanned, s.id.text, code, nonce⟩
  stored : s.codeHash step = some (lookupHash cfg code)
  row : ∃ write ∈ w.store.committedBy t, newRow write = .session s

/-- The link that a call returns, if it returns one. -/
def LinkOk (cfg : Settings) (parseUri : JsString → Option Uri) (t : ℕ) :
    Call → Result → World → Prop
  | .startRegistration _ _ _ _, .started res, w =>
      LinkReaches cfg parseUri t .pair res.session res.pairDeeplink res.pairCode none w
  | .pairDevice _, .stepped res, w => ∃ s, res.session = some s ∧
      LinkReaches cfg parseUri t .enroll s res.nextDeeplink res.nextCode none w
  | .submitCommitment _, .stepped res, w => ∃ s nonce, res.session = some s ∧
      res.challengeNonce = some nonce ∧ s.verifyChallengeNonce = some nonce ∧
      LinkReaches cfg parseUri t .verify s res.nextDeeplink res.nextCode (some nonce) w
  | _, _, _ => True

section Links

variable {cfg : Settings} {pg : Jsonb} {parseUri : JsString → Option Uri}
  {good : State → Label Call Oracle Env → Prop} {c : State}

theorem lookupHash_code (hcm : cfg.caseMapping.Upper) {code : JsString} (hcode : IsCode code) :
    lookupHash cfg code = sha256Hex code := by
  rw [lookupHash, normalise_code hcm hcode]

/-- What the program of a call is known to return, the call has returned. -/
theorem returned_of_ended {α : Type} {Q : List (Act sig Failure) → α → Prop} {p : Program α}
    {wrap : α → Result} (hp : Returns Q p) (h : (system cfg pg).Reach Empty good c) {t : ℕ}
    {th : Thread sig Failure Result Call} (hth : c.threads[t]? = some th)
    (hcode : code cfg th.call = p >>= fun a => pure (wrap a)) {x : Result}
    (hx : th.rest.outcome? = some (.ok x)) : ∃ a, x = wrap a ∧ Q th.past a := by
  have hends : Returns (fun es x => ∃ a, x = wrap a ∧ Q es a) (code cfg th.call) := by
    rw [hcode]
    refine Returns.bind hp fun es a ha => Prog.returns_ret ⟨a, rfl, ?_⟩
    rw [List.append_nil]
    exact ha
  exact h.ends hth hends hx x rfl

/-- The three calls that return a link. -/
theorem linkOk_of_ended (hcm : cfg.caseMapping.Upper) (huri : TakesApart parseUri)
    (h : (system cfg pg).Reach Empty good c) {t : ℕ} {th : Thread sig Failure Result Call}
    (hth : c.threads[t]? = some th) {x : Result} (hx : th.rest.outcome? = some (.ok x)) :
    LinkOk cfg parseUri t th.call x c.world := by
  obtain ⟨ws, ps, hdone, heffect⟩ := post_of_ended (guards_true pg) (allows_true good) h hth hx
  -- the calls of the thread are in the log, where the UPDATE and the drawn bytes are found
  have hlog : ∀ act ∈ th.past, (⟨t, act⟩ : Event) ∈ c.log := fun act => (h.mem_log hth).mp
  obtain ⟨a, past, rest⟩ := th
  cases a with
  | startRegistration tenantId environment profile actor =>
      obtain ⟨res, rfl, hminted, hlink⟩ := returned_of_ended
        (returns_startRegistration cfg tenantId environment profile actor) h hth rfl hx
      obtain ⟨rfl, -, hhash⟩ := heffect
      have hcode := draws_of_log h hlog hminted
      refine ⟨?_, ?_, _, hdone.mine ▸ List.mem_singleton.mpr rfl, rfl⟩
      · rw [hlink]
        exact stepDeeplink_read huri hcode rfl
      · rw [lookupHash_code hcm hcode]
        exact hhash
  | pairDevice input =>
      obtain ⟨res, rfl, hminted, id, deviceId, hash, expiresAt, hupdate, hlink⟩ :=
        returned_of_ended (returns_pairDevice cfg input) h hth rfl hx
      obtain ⟨⟨s, write, device, now, -, -, -, hs, rfl⟩, -⟩ := heffect
      have hcode := draws_of_log h hlog hminted
      rw [hs] at hupdate
      have hid := attached_of_log h (hlog _ hupdate)
      refine ⟨_, hs, ?_, ?_, _, hdone.mine ▸ List.mem_cons_of_mem _ (List.mem_singleton.mpr rfl),
        rfl⟩
      · rw [hlink, hid]
        exact stepDeeplink_read huri hcode rfl
      · rw [lookupHash_code hcm hcode]
        rfl
  | submitCommitment input =>
      obtain ⟨res, rfl, hminted, hnonce, id, did, commitment, hash, expiresAt, nonce', hupdate,
        hlink⟩ := returned_of_ended (returns_submitCommitment cfg input) h hth rfl hx
      obtain ⟨⟨s, nonce, now, -, hres, hs, rfl⟩, -⟩ := heffect
      have hcode := draws_of_log h hlog hminted
      have hnonceOf := nonce_of_log h hlog hnonce
      rw [hs] at hupdate
      have hid := committed_of_log h (hlog _ hupdate)
      rw [hres] at hnonceOf hlink
      refine ⟨_, nonce, hs, hres, rfl, ?_, ?_, _, hdone.mine ▸ List.mem_singleton.mpr rfl, rfl⟩
      · rw [hlink, hid]
        exact stepDeeplink_read huri hcode hnonceOf
      · rw [lookupHash_code hcm hcode]
        rfl
  | _ => exact trivial

end Links

/-- In every run the phone reads the three links back, and their codes are those of the rows;
    so it does for every session, code and nonce.  A typed text is a code exactly if it is the
    code without its hyphens, and normalising is idempotent where no surrogates are
    joined. -/
theorem codes_reach_rows {cfg : Settings} {pg : Jsonb} {parseUri : JsString → Option Uri}
    {good : State → Label Call Oracle Env → Prop} {c : State} (hcm : cfg.caseMapping.Upper)
    (huri : TakesApart parseUri) (h : (system cfg pg).Reach Empty good c) :
    (∀ t th x, c.threads[t]? = some th → th.rest.outcome? = some (.ok x) →
      LinkOk cfg parseUri t th.call x c.world) ∧
    (∀ step (id : Uuid) code nonce, IsCode code → NonceOf step nonce →
      parseRegQr parseUri (stepDeeplink step id code nonce) =
          .ok ⟨step.scanned, id.text, code, nonce⟩ ∧
        lookupHash cfg code = sha256Hex code) ∧
    TypedCodes cfg.caseMapping :=
  ⟨fun _ _ _ hth hx => linkOk_of_ended hcm huri h hth hx,
    fun _ _ _ _ hc hn => ⟨stepDeeplink_read huri hc hn, lookupHash_code hcm hc⟩, typed_codes hcm⟩

/-- The step whose link a call has returned. -/
def linkedStep (th : Thread sig Failure Result Call) : Option Step :=
  match th.call, th.rest.outcome? with
  | .startRegistration _ _ _ _, some (.ok (.started _)) => some .pair
  | .pairDevice _, some (.ok (.stepped _)) => some .enroll
  | .submitCommitment _, some (.ok (.stepped _)) => some .verify
  | _, _ => none

/-- A session up to its last link.  All three links are read, with a parser of URIs without
    escapes. -/
theorem codes_reach_rows_of_three : ∃ c : State,
    c.threads.map linkedStep = [some .pair, some .enroll, some .verify] ∧
    ∀ t th x, c.threads[t]? = some th → th.rest.outcome? = some (.ok x) →
      LinkOk { settings with caseMapping := .deseret } ZeroAuth.Android.plainUri t th.call x
        c.world := by
  have hrun : (((system { settings with caseMapping := .deseret } jsonb).run (.init initial)
      (starting 0 tenantText sessionUuid ++ pairing 1 ++ submitting 2)).map fun c =>
        c.threads.map linkedStep) = some [some .pair, some .enroll, some .verify] := by
    decide +kernel
  obtain ⟨c, hc, hlinked⟩ := Option.map_eq_some_iff.mp hrun
  have hreach : (system { settings with caseMapping := .deseret } jsonb).Reach Empty
      (fun _ _ => True) c :=
    System.Reach.run (.init empty_initial) (System.keeps_of_forall fun _ _ _ => trivial) hc
  exact ⟨c, hlinked, (codes_reach_rows upper_deseret ZeroAuth.Android.takesApart_plainUri hreach).1⟩

/-- A separator between two lone surrogates: what is left of it is raised by the second call
    only. -/
theorem normalise_not_idempotent : ¬ ∀ x : JsString,
    normaliseEnrollmentCode .deseret (normaliseEnrollmentCode .deseret x) =
      normaliseEnrollmentCode .deseret x := by
  intro h
  have hx := h [0xD801, 45, 0xDC28]
  revert hx
  decide

end ZeroAuth.Tenant
