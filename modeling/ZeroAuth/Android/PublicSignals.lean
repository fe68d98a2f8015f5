/-
  ZeroAuth.Android.PublicSignals

  From a face secret to the public signals of a sign-in: `buildPayload` of
  WebViewMobileProver.kt writes the request, prover.js folds the nonce into the DID
  hash, and checks 6 and 7 of `submitProof` compute the same number.
-/

import ZeroAuth.Android.Credential
import ZeroAuth.Android.Challenge
import ZeroAuth.Js.JsonParse
import ZeroAuth.Pairing.Program

namespace ZeroAuth.Android

open ZeroAuth.Js ZeroAuth.Lib ZeroAuth.Pairing

/-! ## The request -/

/-- The text that is built by hand, for the five numbers. -/
def payloadText (biometricSecret salt commitment didHashRaw sessionNonce : ℕ) : JsString :=
  js "\x7b\"type\":\"prove\",\"inputs\":\x7b" ++
    js "\"biometricSecret\":\"" ++ numText 10 biometricSecret ++ js "\"," ++
    js "\"salt\":\"" ++ numText 10 salt ++ js "\"," ++
    js "\"commitment\":\"" ++ numText 10 commitment ++ js "\"," ++
    js "\"didHashRaw\":\"" ++ numText 10 didHashRaw ++ js "\"," ++
    js "\"sessionNonce\":\"" ++ numText 10 sessionNonce ++ js "\"" ++ js "\x7d\x7d"

/-- `WebViewMobileProver.buildPayload`. -/
def buildPayload (input : GenerateInput) : Except ProverException JsString := do
  let cred := input.unlocked
  let biometricSecret ← parseFieldElement (js "biometricSecret") cred.biometricSecret
  let salt ← parseFieldElement (js "salt") cred.salt
  let commitment ← parseFieldElement (js "commitment") cred.commitment
  let didHashRaw ← parseFieldElement (js "didHash") cred.didHash
  let nonceHex := input.sessionNonceHex
  if nonceHex.length ≠ 62 then
    .error (.witnessInvalid
      (js "sessionNonceHex must be 62 hex chars (31 bytes); got " ++ numText 10 nonceHex.length))
  else if !nonceHex.all fun u => (digitIn 16 u).isSome then
    .error (.witnessInvalid (js "sessionNonceHex must be lower- or upper-case hex"))
  else
    match readDigits 16 nonceHex with
    | none => .error (.witnessInvalid (js "sessionNonceHex did not parse as a BigInteger"))
    | some sessionNonce =>
        if sessionNonce ≥ fieldModulus then
          .error (.witnessInvalid (js "sessionNonce out of BN128 field range"))
        else if cred.did.all isWhitespace then
          .error (.witnessInvalid (js "did must not be blank"))
        else .ok (payloadText biometricSecret salt commitment didHashRaw sessionNonce)

/-- The value of the text. -/
def payloadJson (biometricSecret salt commitment didHashRaw sessionNonce : ℕ) : Json :=
  .obj [(js "type", .str (js "prove")),
    (js "inputs", .obj [(js "biometricSecret", .str (numText 10 biometricSecret)),
      (js "salt", .str (numText 10 salt)),
      (js "commitment", .str (numText 10 commitment)),
      (js "didHashRaw", .str (numText 10 didHashRaw)),
      (js "sessionNonce", .str (numText 10 sessionNonce))])]

/-! ## The text is the value's -/

theorem escapeUnit_of_isDigit {u : CodeUnit} (h : isDigit u = true) : escapeUnit u = [u] := by
  have hval : 48 ≤ u.val ∧ u.val ≤ 57 := by simpa [isDigit] using h
  have hne (v : CodeUnit) (hv : v.val < 48 ∨ 57 < v.val) : u ≠ v := by
    rintro rfl
    omega
  have hsurrogate : isSurrogate u = false := by
    simp only [isSurrogate, isHigh, isLow, Bool.or_eq_false_iff, Bool.and_eq_false_iff,
      decide_eq_false_iff_not]
    omega
  have hlow : ¬(u.val < 0x20 ∨ isSurrogate u = true) := by
    rintro (h | h)
    · omega
    · rw [hsurrogate] at h
      cases h
  rw [escapeUnit, if_neg (hne 8 (by decide)), if_neg (hne 9 (by decide)),
    if_neg (hne 10 (by decide)), if_neg (hne 12 (by decide)), if_neg (hne 13 (by decide)),
    if_neg (hne 34 (by decide)), if_neg (hne 92 (by decide)), if_neg hlow]

theorem escape_of_isDigit {s : JsString} (h : ∀ u ∈ s, isDigit u = true) : escape s = s := by
  induction s with
  | nil => rfl
  | cons u s ih =>
      have hu := escapeUnit_of_isDigit (h u (by simp))
      cases s with
      | nil => rw [escape, hu]
      | cons v s =>
          have hval : 48 ≤ u.val ∧ u.val ≤ 57 := by simpa [isDigit] using h u (by simp)
          have hhigh : isHigh u = false := by
            simp only [isHigh, Bool.and_eq_false_iff, decide_eq_false_iff_not]
            omega
          rw [escape, hhigh, Bool.false_and, if_neg Bool.false_ne_true, hu,
            ih fun w hw => h w (by simp [hw])]
          rfl

theorem quote_numText (n : ℕ) : quote (numText 10 n) = js "\"" ++ numText 10 n ++ js "\"" := by
  rw [quote, escape_of_isDigit fun u hu => isDigit_of_mem_numText u hu]
  rfl

/-- A property with a decimal text, between the quotes that are written by hand. -/
theorem property_numText {key opening : JsString} (h : quote key ++ 58 :: js "\"" = opening)
    (n : ℕ) : property key (quote (numText 10 n)) = opening ++ numText 10 n ++ js "\"" := by
  rw [property, quote_numText, ← h]
  simp only [List.append_assoc, List.cons_append]

/-- The fixed parts of the text, as `JSON.stringify` would write them. -/
theorem payload_parts :
    (js "\x7b\"type\":\"prove\",\"inputs\":\x7b" =
      123 :: (property (js "type") (quote (js "prove")) ++ 44 :: (quote (js "inputs") ++ [58, 123]))) ∧
    (quote (js "biometricSecret") ++ 58 :: js "\"" = js "\"biometricSecret\":\"") ∧
    (quote (js "salt") ++ 58 :: js "\"" = js "\"salt\":\"") ∧
    (quote (js "commitment") ++ 58 :: js "\"" = js "\"commitment\":\"") ∧
    (quote (js "didHashRaw") ++ 58 :: js "\"" = js "\"didHashRaw\":\"") ∧
    (quote (js "sessionNonce") ++ 58 :: js "\"" = js "\"sessionNonce\":\"") ∧
    js "\"," = js "\"" ++ [44] ∧ js "\x7d\x7d" = [125, 125] := by
  decide

theorem print_payloadJson (s t c d n : ℕ) : (payloadJson s t c d n).print = payloadText s t c d n := by
  obtain ⟨hopening, hsecret, hsalt, hcommitment, hdidHash, hnonce, hcomma, hclose⟩ := payload_parts
  simp only [payloadJson, Json.print, Json.printProps, joinComma, property_numText hsecret,
    property_numText hsalt, property_numText hcommitment, property_numText hdidHash,
    property_numText hnonce]
  simp only [payloadText, hopening, hcomma, hclose]
  simp only [property, List.append_assoc, List.cons_append, List.nil_append]

/-- The script's `JSON.parse` reads the value that the text spells. -/
theorem parse_payloadText (literal : JsString → Json) (s t c d n : ℕ) :
    Json.parse literal (payloadText s t c d n) = some (payloadJson s t c d n) := by
  have hkeys : [js "type", js "inputs"].Nodup ∧
      [js "biometricSecret", js "salt", js "commitment", js "didHashRaw", js "sessionNonce"].Nodup ∧
      ∀ key ∈ [js "type", js "inputs", js "biometricSecret", js "salt", js "commitment",
        js "didHashRaw", js "sessionNonce"], isArrayIndex key = false := by
    decide
  obtain ⟨houter, hinner, hindex⟩ := hkeys
  simp only [List.forall_mem_cons] at hindex
  obtain ⟨h₁, h₂, h₃, h₄, h₅, h₆, h₇, -⟩ := hindex
  rw [← print_payloadJson]
  refine Json.parse_print ⟨houter, ?_, trivial, ⟨hinner, ?_, trivial, trivial, trivial, trivial,
    trivial, trivial⟩, trivial⟩
  · simp [h₁, h₂]
  · simp [h₃, h₄, h₅, h₆, h₇]

/-! ## The phone -/

theorem parseFieldElement_numText {n : ℕ} (h : n < fieldModulus) (name : JsString) :
    parseFieldElement name (numText 10 n) = .ok n := by
  have hdigits : (numText 10 n).all isDecimalDigit = true :=
    List.all_eq_true.mpr fun u hu => isDigit_of_mem_numText u hu
  rw [parseFieldElement, if_neg (numText_ne_nil 10 n), hdigits,
    readDigits_numText (by omega) (by omega)]
  simp only [Bool.not_true, Bool.false_eq_true, if_false, ge_iff_le, Nat.not_le.mpr h]

theorem lt_of_mapM_digitIn {b : ℕ} {s : JsString} {ds : List ℕ} (h : s.mapM (digitIn b) = some ds) :
    ds.length = s.length ∧ ∀ d ∈ ds, d < b := by
  induction s generalizing ds with
  | nil =>
      obtain rfl : [] = ds := Option.some.inj h
      exact ⟨rfl, fun d hd => absurd hd List.not_mem_nil⟩
  | cons u s ih =>
      rw [List.mapM_cons] at h
      obtain ⟨d, hd, h⟩ := Option.bind_eq_some_iff.mp h
      obtain ⟨ds', hds', h⟩ := Option.bind_eq_some_iff.mp h
      obtain rfl : d :: ds' = ds := Option.some.inj h
      obtain ⟨hlength, hlt⟩ := ih hds'
      have hdlt : d < b := by simpa using (Option.filter_eq_some_iff.mp hd).2
      refine ⟨by rw [List.length_cons, hlength, List.length_cons], fun e he => ?_⟩
      rcases List.mem_cons.mp he with rfl | he
      · exact hdlt
      · exact hlt e he

theorem readDigits_lt {b : ℕ} (hb : 1 < b) {s : JsString} {n : ℕ} (h : readDigits b s = some n) :
    n < b ^ s.length := by
  unfold readDigits at h
  split at h
  · cases h
  · obtain ⟨ds, hds, rfl⟩ := Option.map_eq_some_iff.mp h
    obtain ⟨hlength, hlt⟩ := lt_of_mapM_digitIn hds
    rw [← hlength, ← List.length_reverse]
    exact Nat.ofDigits_lt_base_pow_length hb fun d hd => hlt d (List.mem_reverse.mp hd)

/-- The number of a nonce of either case is an element of the field. -/
theorem exists_nonce {nonce : JsString} (h : isNonceHex nonce = true) :
    ∃ n < fieldModulus, readDigits 16 nonce = some n ∧ nonceHexToField nonce = .ok (n : ℤ) := by
  obtain ⟨hlength, hdigits⟩ := hexDigits_of_isNonceHex h
  obtain ⟨n, hn⟩ := exists_readDigits (List.ne_nil_of_length_pos (by omega)) hdigits
  have hlt := readDigits_lt (by omega) hn
  have hfield : 16 ^ 62 < fieldModulus := by decide
  rw [hlength] at hlt
  exact ⟨n, by omega, hn, nonceHexToField_eq h hn⟩

theorem buildPayload_ok {s t c d n : ℕ} {did nonce : JsString} (hs : s < fieldModulus)
    (ht : t < fieldModulus) (hc : c < fieldModulus) (hd : d < fieldModulus) (hn : n < fieldModulus)
    (hdid : did.all isWhitespace = false) (hnonce : isNonceHex nonce = true)
    (hread : readDigits 16 nonce = some n) :
    buildPayload ⟨⟨numText 10 s, numText 10 t, numText 10 c, numText 10 d, did⟩, nonce⟩ =
      .ok (payloadText s t c d n) := by
  have hok {α β : Type} (a : α) (f : α → Except ProverException β) :
      (Except.ok a >>= f) = f a := rfl
  obtain ⟨hlength, hdigits⟩ := hexDigits_of_isNonceHex hnonce
  have hall : (nonce.all fun u => (digitIn 16 u).isSome) = true := List.all_eq_true.mpr hdigits
  simp only [buildPayload, parseFieldElement_numText hs, parseFieldElement_numText ht,
    parseFieldElement_numText hc, parseFieldElement_numText hd, hok, hlength, hall, hread, hdid, ge_iff_le, Nat.not_le.mpr hn, ne_eq, not_true_eq_false,
    if_false, Bool.not_true, Bool.false_eq_true]

theorem faceDid_not_blank (hex : JsString) : (faceDid hex).all isWhitespace = false := by
  have hhead : (js "did:zeroauth:face:").all isWhitespace = false := rfl
  rw [faceDid, List.all_append, hhead, Bool.false_and]

/-- The script reads the five numbers. -/
theorem readRequest_payloadJson (s t c d n : ℕ) :
    ProverJs.readRequest (payloadJson s t c d n) =
      .ok ⟨numText 10 s, numText 10 t, some (numText 10 c), numText 10 d, numText 10 n⟩ := by
  have hkeys : (js "inputs" == js "type") = false ∧ (js "salt" == js "biometricSecret") = false ∧
      (js "commitment" == js "biometricSecret") = false ∧ (js "commitment" == js "salt") = false ∧
      (js "didHashRaw" == js "biometricSecret") = false ∧ (js "didHashRaw" == js "salt") = false ∧
      (js "didHashRaw" == js "commitment") = false ∧
      (js "sessionNonce" == js "biometricSecret") = false ∧
      (js "sessionNonce" == js "salt") = false ∧ (js "sessionNonce" == js "commitment") = false ∧
      (js "sessionNonce" == js "didHashRaw") = false := by
    decide
  obtain ⟨h₁, h₂, h₃, h₄, h₅, h₆, h₇, h₈, h₉, h₁₀, h₁₁⟩ := hkeys
  simp only [ProverJs.readRequest, ProverJs.stringAt, payloadJson, Json.get?, List.lookup_cons,
    beq_self_eq_true, h₁, h₂, h₃, h₄, h₅, h₆, h₇, h₈, h₉, h₁₀, h₁₁, if_true, Option.getD_some]

/-! ## The server -/

theorem parseBigIntText_numText (n : ℕ) : parseBigIntText (numText 10 n) = .ok (n : ℤ) := by
  rw [parseBigIntText, trim_numText, if_neg (numText_ne_nil 10 n), bigIntOf_numText]

theorem timingSafeBigIntEqual_self (i : ℤ) : timingSafeBigIntEqual i i = true := by
  simp [timingSafeBigIntEqual]

/-- Checks 6 and 7 pass when the second signal is the hash. -/
theorem checkNonce_passes {cfg : Settings} {input : SubmitInput} {row : SessionRow}
    {user : StoredUserCommitment} {d n x : ℕ} (hd : user.didHash = numText 10 d)
    (hn : nonceHexToField row.nonceHex = .ok (n : ℤ)) (hx : cfg.poseidon2 d n = x) :
    checkNonce cfg input row user (.str (numText 10 x)) = return () := by
  have hok {α β : Type} (a : α) (f : α → Program β) :
      (Prog.ofExcept (.ok a : Except Failure α) >>= f) = f a := rfl
  unfold checkNonce
  rw [hd, parseBigIntText_numText, hn, parseBigIntFromSignal, parseBigIntText_numText]
  simp only [hok, hx, timingSafeBigIntEqual_self, if_true]

/-- What becomes of a face secret at a sign-in with a nonce: the commitment `c`, the
    witness and the signals, on the phone and on the server. -/
structure SignIn (cfg : Settings) (snarkjs : ProverJs.Snarkjs) (literal : JsString → Json)
    (secret : List UInt8) (nonce : JsString) (p : PersistedUnlockedCredential) (payload : JsString)
    (data : Json) (inputs : ProverJs.Inputs) (w : ProverJs.Witness) (c n : ℕ) : Prop where
  credential : fromSecret secret = .ok p
  payload_eq : buildPayload ⟨p.unlocked, nonce⟩ = .ok payload
  parsed : Json.parse literal payload = some data
  request : ProverJs.readRequest data = .ok inputs
  witness : ProverJs.buildWitness inputs = .ok w
  nonceField : nonceHexToField nonce = .ok (n : ℤ)
  commitment_eq : p.unlocked.commitment = numText 10 c ∧ w.commitment = numText 10 c
  didHash_eq : w.didHash = numText 10 (Poseidon.hash2 (Poseidon.hash1 c) n)
  binding_eq : w.identityBinding = numText 10
    (Poseidon.hash2 (bigInteger secret % PoseidonConstants.field)
      (Poseidon.hash2 (Poseidon.hash1 c) n))
  /-- The signals that `generateProof` returns pass the checks of `submitProof` on a row with
      this nonce and a user with this DID hash. -/
  accepted : ∀ out, ProverJs.generateProof snarkjs inputs = .ok out →
    out.publicSignals = [w.commitment, w.didHash, w.identityBinding] ∧
    parseBigIntText w.commitment = .ok (c : ℤ) ∧
    ∀ (input : SubmitInput) (row : SessionRow) (user : StoredUserCommitment),
      row.nonceHex = nonce → user.didHash = numText 10 (Poseidon.hash1 c) →
        checkNonce cfg input row user (.str w.didHash) = return ()

/-- The public inputs that `generateProof` returns are those of `fullProve`. -/
theorem publicSignals_generateProof {snarkjs : ProverJs.Snarkjs}
    (hsnarkjs : ∀ w proof signals, snarkjs.fullProve w = .ok (proof, signals) →
      signals = [w.commitment, w.didHash, w.identityBinding])
    {inputs : ProverJs.Inputs} {w : ProverJs.Witness} (hw : ProverJs.buildWitness inputs = .ok w)
    {out : ProverJs.ProveResult} (h : ProverJs.generateProof snarkjs inputs = .ok out) :
    out.publicSignals = [w.commitment, w.didHash, w.identityBinding] := by
  -- the result goes through four calls, each of which may fail
  have hok {α β : Type} (a : α) (f : α → Except JsString β) : (Except.ok a >>= f) = f a := rfl
  have herr {α β : Type} (e : JsString) (f : α → Except JsString β) :
      (Except.error e >>= f) = .error e := rfl
  unfold ProverJs.generateProof at h
  simp only [hw, hok] at h
  cases hprove : snarkjs.fullProve w with
  | error e =>
      simp only [hprove, herr] at h
      cases h
  | ok result =>
      obtain ⟨proof, signals⟩ := result
      have hsignals := hsnarkjs w proof signals hprove
      cases hkey : snarkjs.loadVerificationKey with
      | error e =>
          simp only [hprove, hkey, hok, herr] at h
          cases h
      | ok vkey =>
          cases hverify : snarkjs.verify vkey signals proof with
          | error e =>
              simp only [hprove, hkey, hverify, hok, herr] at h
              cases h
          | ok verifyOk =>
              simp only [hprove, hkey, hverify, hok] at h
              cases verifyOk with
              | false => cases h
              | true =>
                  obtain rfl := Except.ok.inj h
                  exact hsignals

/-- The phone's public signals are those that the server computes, for every face secret
    and every nonce of 62 hex digits. -/
theorem signals_match (cfg : Settings)
    (hposeidon : ∀ a b : ℕ, a < PoseidonConstants.field → b < PoseidonConstants.field →
      cfg.poseidon2 a b = (Poseidon.hash2 a b : ℤ))
    (snarkjs : ProverJs.Snarkjs)
    (hsnarkjs : ∀ w proof signals, snarkjs.fullProve w = .ok (proof, signals) →
      signals = [w.commitment, w.didHash, w.identityBinding])
    (literal : JsString → Json) {secret : List UInt8} (h : secret.length = 32) {nonce : JsString}
    (hnonce : isNonceHex nonce = true) :
    ∃ p payload data inputs w c n,
      SignIn cfg snarkjs literal secret nonce p payload data inputs w c n := by
  have hs := secretField_lt secret
  have hc := commitmentOf_lt secret
  have hd := didHashOf_lt secret
  have hcommitment : commitmentOf secret = PoseidonJs.zaPoseidon2 (secretField secret) 0 := by
    rw [PoseidonJs.zaPoseidon2_eq_hash2, commitmentOf]
  -- the credential that is unlocked holds the face secret,
  obtain ⟨p, hp, hunlocked⟩ := unlocked_credentialOf h
    (js "FaceSecretCredential.fromSecret: secret must be 32 bytes; got ")
  obtain ⟨n, hn, hread, hfield⟩ := exists_nonce hnonce
  -- the phone makes a payload from it,
  have hpayload : buildPayload ⟨⟨numText 10 (secretField secret), numText 10 0,
      numText 10 (commitmentOf secret), numText 10 (didHashOf secret), didOf secret⟩, nonce⟩ =
        .ok (payloadText (secretField secret) 0 (commitmentOf secret) (didHashOf secret) n) :=
    buildPayload_ok hs Poseidon.field_pos hc hd hn (faceDid_not_blank _) hnonce hread
  have hrequest := readRequest_payloadJson (secretField secret) 0 (commitmentOf secret)
    (didHashOf secret) n
  -- and the page a witness from the payload
  have hwitness := ProverJs.buildWitness_numText hs Poseidon.field_pos hd
    (ProverJs.requireField_numText hn (js "sessionNonce")) hcommitment
  have hdidHash : didHashOf secret = Poseidon.hash1 (commitmentOf secret) := by rw [didHashOf]
  have hfold := hposeidon (didHashOf secret) n hd hn
  rw [PoseidonJs.zaPoseidon2_eq_hash2, PoseidonJs.zaPoseidon2_eq_hash2] at hwitness
  refine ⟨p, payloadText (secretField secret) 0 (commitmentOf secret) (didHashOf secret) n,
    payloadJson (secretField secret) 0 (commitmentOf secret) (didHashOf secret) n,
    ⟨numText 10 (secretField secret), numText 10 0, some (numText 10 (commitmentOf secret)),
      numText 10 (didHashOf secret), numText 10 n⟩,
    ⟨numText 10 (secretField secret), numText 10 0, numText 10 (commitmentOf secret),
      numText 10 (Poseidon.hash2 (didHashOf secret) n),
      numText 10 (Poseidon.hash2 (secretField secret) (Poseidon.hash2 (didHashOf secret) n))⟩,
    commitmentOf secret, n, ?_⟩
  exact {
    credential := hp
    payload_eq := by
      rw [hunlocked, credentialFor]
      exact hpayload
    parsed := parse_payloadText literal _ _ _ _ _
    request := hrequest
    witness := hwitness
    nonceField := hfield
    commitment_eq := by
      rw [hunlocked, credentialFor]
      simp only [and_self]
    didHash_eq := by
      dsimp only
      rw [hdidHash]
    binding_eq := by
      dsimp only
      rw [hdidHash, secretField]
    accepted := by
      intro out hout
      have hsignals := publicSignals_generateProof hsnarkjs hwitness hout
      dsimp only at hsignals ⊢
      refine ⟨hsignals, parseBigIntText_numText (commitmentOf secret), ?_⟩
      intro input row user hrow huser
      rw [← hrow] at hfield
      rw [← hdidHash] at huser
      exact checkNonce_passes huser hfield hfold }

/-- snarkjs where every proof succeeds. -/
def provingSnarkjs : ProverJs.Snarkjs where
  fullProve w := .ok (⟨[], [], [], js "groth16", js "bn128"⟩,
    [w.commitment, w.didHash, w.identityBinding])
  loadVerificationKey := .ok .null
  verify _ _ _ := .ok true

theorem signals_match_of_ones : ∃ p payload data inputs w c n,
    SignIn ⟨js "zeroauth.dev", none, true, fun a b => Poseidon.hash2 a.toNat b.toNat⟩
      provingSnarkjs (fun _ => .null) (List.replicate 32 255) (List.replicate 62 65) p payload data inputs w c n :=
  signals_match _ (fun _ _ _ _ => rfl) _
    (fun w proof signals h => (Prod.mk.inj (Except.ok.inj h)).2.symm) _
    (by decide) (rfl)

end ZeroAuth.Android
