/-
  ZeroAuth.Android.Credential

  The four derivations of a credential from a 32-byte secret: `DeriveDidAndCommitment`
  of RegistrationHelpers.kt, `buildCredential` of RealRegistrationProver.kt,
  FaceSecretCredential.kt and the registration fallback of AndroidKeystoreManager.kt.
-/

import ZeroAuth.Android.ProverJs
import ZeroAuth.Android.Prover
import ZeroAuth.Js.Hex
import ZeroAuth.Tenant.Registration
import Mathlib.Data.Nat.Size

namespace ZeroAuth.Android

open ZeroAuth.Js ZeroAuth.Lib ZeroAuth.Tenant

/-! ## Numbers as bytes -/

/-- `BigInteger(1, bytes)`. -/
def bigInteger (bytes : List UInt8) : ℕ := bytes.foldl shiftIn 0

/-- `n.toByteArray()`: one bit more than the number has, for the sign. -/
def bigIntegerBytes (n : ℕ) : List UInt8 := bigEndian (Nat.size n / 8 + 1) n

/-- `Crypto.fieldToBytes32`. -/
def fieldToBytes32 (n : ℕ) : Except JsString (List UInt8) :=
  let raw := bigIntegerBytes n
  let src := if raw.length = 33 ∧ raw.head? = some 0 then raw.drop 1 else raw
  if src.length ≤ 32 then .ok (List.replicate (32 - src.length) 0 ++ src)
  else .error (js "fieldToBytes32: value larger than 32 bytes")

/-! ## The derivations -/

/-- `sha256(commitmentHex)[0:20]`, in hex, behind the method. -/
def faceDid (commitmentHex : JsString) : JsString :=
  js "did:zeroauth:face:" ++ hexBytes ((sha256 (utf8 commitmentHex)).take 20)

/-- `commitment.toString(16).padStart(64, '0')`. -/
def commitmentHex (commitment : ℕ) : JsString := padStart 64 (numText 16 commitment)

/-- `DeriveDidAndCommitment.from`: the DID and the commitment that are registered. -/
def deriveDidAndCommitment (secret : List UInt8) : Except JsString (JsString × JsString) :=
  if secret.length ≠ 32 then
    .error (js "Secret must be 32 bytes; got " ++ numText 10 secret.length)
  else
    let s := bigInteger secret % PoseidonConstants.field
    let t := bigInteger (List.replicate 32 0)
    let hex := commitmentHex (Poseidon.hash2 s t)
    .ok (faceDid hex, hex)

/-- The buffers of a `PersistedUnlockedCredential`. -/
structure PersistedUnlockedCredential where
  biometricSecretBytes : List UInt8
  saltBytes : List UInt8
  commitmentBytes : List UInt8
  didHashBytes : List UInt8
  didString : JsString

/-- The accessors. -/
def PersistedUnlockedCredential.unlocked (c : PersistedUnlockedCredential) : UnlockedCredential where
  biometricSecret := numText 10 (bigInteger c.biometricSecretBytes)
  salt := numText 10 (bigInteger c.saltBytes)
  commitment := numText 10 (bigInteger c.commitmentBytes)
  didHash := numText 10 (bigInteger c.didHashBytes)
  did := c.didString

/-- The body that `fromSecret` and the fallback share, behind their own length check. -/
def credentialOf (wrongSize : JsString) (secret : List UInt8) :
    Except JsString PersistedUnlockedCredential :=
  if secret.length ≠ 32 then .error (wrongSize ++ numText 10 secret.length)
  else do
    let biometricSecret := bigInteger secret % PoseidonConstants.field
    let salt := 0
    let commitment := Poseidon.hash2 biometricSecret salt
    let didHashRaw := Poseidon.hash1 commitment
    let did := faceDid (commitmentHex commitment)
    return ⟨← fieldToBytes32 biometricSecret, ← fieldToBytes32 salt, ← fieldToBytes32 commitment,
      ← fieldToBytes32 didHashRaw, did⟩

/-- `FaceSecretCredential.fromSecret`. -/
def fromSecret : List UInt8 → Except JsString PersistedUnlockedCredential :=
  credentialOf (js "FaceSecretCredential.fromSecret: secret must be 32 bytes; got ")

/-- `AndroidKeystoreManager.buildRegistrationFallbackCredential`. -/
def buildRegistrationFallbackCredential : List UInt8 → Except JsString PersistedUnlockedCredential :=
  credentialOf (js "registration secret must be 32 bytes; got ")

/-- `RealRegistrationProver.buildCredential`, behind the length check of `generate`.  The
    hex text of a commitment carries no sign. -/
def buildCredential (secret : List UInt8) (commitmentHex : JsString) :
    Except JsString UnlockedCredential :=
  if secret.length ≠ 32 then
    .error (js "Secret must be 32 bytes; got " ++ numText 10 secret.length)
  else
    let secretField := bigInteger secret % PoseidonConstants.field
    let saltField := 0
    match readDigits 16 (withoutHexPrefix commitmentHex) with
    | none => .error (js "NumberFormatException")
    | some commitmentField => do
        let didHashField := Poseidon.hash1 commitmentField
        let (did, _) ← deriveDidAndCommitment secret
        return ⟨numText 10 secretField, numText 10 saltField, numText 10 commitmentField,
          numText 10 didHashField, did⟩

/-! ## Bytes and numbers -/

theorem bigInteger_bigEndian {k n : ℕ} (h : n < 256 ^ k) : bigInteger (bigEndian k n) = n := by
  rw [bigInteger, foldl_shiftIn_bigEndian, zero_mul, zero_add, Nat.mod_eq_of_lt h]

/-- Bytes above a number are zero. -/
theorem bigEndian_pad {k n : ℕ} (h : n < 256 ^ k) (j : ℕ) :
    bigEndian (k + j) n = List.replicate j 0 ++ bigEndian k n := by
  induction j with
  | zero => rfl
  | succ j ih =>
      have hlt : n < 256 ^ (k + j) :=
        Nat.lt_of_lt_of_le h (Nat.pow_le_pow_right (by omega) (by omega))
      rw [← Nat.add_assoc, bigEndian_succ, ih, Nat.div_eq_of_lt hlt, List.replicate_succ,
        List.cons_append]
      rfl

theorem bigIntegerBytes_lt (n : ℕ) : n < 256 ^ (Nat.size n / 8 + 1) := by
  have hsize : n < 2 ^ Nat.size n := Nat.lt_size_self n
  have hle : 2 ^ Nat.size n ≤ 2 ^ (8 * (Nat.size n / 8 + 1)) :=
    Nat.pow_le_pow_right (by omega) (by omega)
  have hpow : 256 ^ (Nat.size n / 8 + 1) = 2 ^ (8 * (Nat.size n / 8 + 1)) := by
    rw [Nat.pow_mul]
  omega

/-- The 32 bytes of a number, whether `toByteArray` is short, exact or one byte long. -/
theorem fieldToBytes32_eq {n : ℕ} (h : n < 256 ^ 32) : fieldToBytes32 n = .ok (bigEndian 32 n) := by
  have hsize : Nat.size n ≤ 256 := by
    rw [Nat.size_le]
    calc n < 256 ^ 32 := h
      _ = 2 ^ 256 := by norm_num
  simp only [fieldToBytes32, bigIntegerBytes, length_bigEndian]
  by_cases hlong : Nat.size n / 8 + 1 = 33
  · -- the sign byte
    have hhead : bigEndian 33 n = 0 :: bigEndian 32 n := by
      rw [bigEndian_succ, Nat.div_eq_of_lt h]
      rfl
    rw [hlong, hhead]
    simp
  · have hlen : Nat.size n / 8 + 1 ≤ 32 := by omega
    have hpad := bigEndian_pad (bigIntegerBytes_lt n) (32 - (Nat.size n / 8 + 1))
    rw [Nat.add_sub_cancel' hlen] at hpad
    simp only [hlong, false_and, if_false, length_bigEndian]
    rw [if_pos hlen, hpad]

/-! ## What the server accepts -/

/-- A hex digit is itself in lower case, is no white space and not the `x` of `0x`. -/
theorem hexUnit_facts {d : ℕ} (hd : d < 16) :
    asciiLower (digitUnit d) = digitUnit d ∧ isWhiteSpace (digitUnit d) = false ∧
      digitUnit d ≠ 120 ∧
      (isDigit (digitUnit d) || (97 ≤ (digitUnit d).val && (digitUnit d).val ≤ 102)) = true := by
  have hall : ∀ d < 16, asciiLower (digitUnit d) = digitUnit d ∧
      isWhiteSpace (digitUnit d) = false ∧ digitUnit d ≠ 120 ∧
      (isDigit (digitUnit d) || (97 ≤ (digitUnit d).val && (digitUnit d).val ≤ 102)) = true := by
    decide
  exact hall d hd

/-- Texts of hex digits. -/
def HexText (s : JsString) : Prop := ∀ u ∈ s, ∃ d < 16, u = digitUnit d

theorem hexText_hexBytes (bs : List UInt8) : HexText (hexBytes bs) := fun _ => mem_hexBytes

theorem hexText_commitmentHex {c : ℕ} (h : c < PoseidonConstants.field) :
    HexText (commitmentHex c) ∧ (commitmentHex c).length = 64 ∧
      readDigits 16 (commitmentHex c) = some c := by
  have hfield : PoseidonConstants.field < 16 ^ 64 := by decide
  have hlt : c < 16 ^ 64 := by omega
  have heq : commitmentHex c = lowDigits 16 64 c := padStart_numText (by omega) (by omega) hlt
  rw [heq]
  exact ⟨fun u hu => mem_lowDigits (by omega) hu, length_lowDigits 16 64 c,
    readDigits_lowDigits (by omega) (by omega) (by omega) hlt⟩

namespace HexText

variable {s : JsString} (h : HexText s)

include h

theorem isAscii : IsAscii s := by
  intro u hu
  obtain ⟨d, hd, rfl⟩ := h u hu
  exact digitUnit_lt hd

theorem map_asciiLower : s.map asciiLower = s := by
  rw [List.map_congr_left (g := id), List.map_id]
  intro u hu
  obtain ⟨d, hd, rfl⟩ := h u hu
  exact (hexUnit_facts hd).1

theorem trim_eq : trim s = s := by
  refine trim_of_forall fun u hu => ?_
  obtain ⟨d, hd, rfl⟩ := h u hu
  exact (hexUnit_facts hd).2.1

theorem withoutHexPrefix_eq : withoutHexPrefix s = s := by
  unfold withoutHexPrefix
  split
  · next s =>
      obtain ⟨d, hd, heq⟩ := h 120 (by simp)
      exact absurd heq.symm (hexUnit_facts hd).2.2.1
  · rfl

theorem isHexRun_eq {low high : ℕ} (hlow : low ≤ s.length) (hhigh : s.length ≤ high) :
    isHexRun low high s = true := by
  have hall : (s.all fun u => isDigit u || (97 ≤ u.val && u.val ≤ 102)) = true := by
    rw [List.all_eq_true]
    intro u hu
    obtain ⟨d, hd, rfl⟩ := h u hu
    exact (hexUnit_facts hd).2.2.2
  simp only [isHexRun, hall, Bool.and_true, Bool.and_eq_true, decide_eq_true_eq]
  exact ⟨hlow, hhigh⟩

/-- The patterns accept a DID of the method `face` that ends in enough digits. -/
theorem matchesDid_eq {extra : List CodeUnit} (hextra : extra.contains 58 = false) {low high : ℕ}
    (hlow : low ≤ s.length) (hhigh : s.length ≤ high) :
    matchesDid extra low high (js "did:zeroauth:face:" ++ s) = true := by
  have hsplit : js "did:zeroauth:face:" = js "did:zeroauth:" ++ js "face" ++ [58] := by
    rfl
  have hletters : ((js "face").all fun u => 97 ≤ u.val && u.val ≤ 122) = true := rfl
  have htake : ((js "face" ++ 58 :: s).takeWhile fun u =>
      (97 ≤ u.val && u.val ≤ 122) || isDigit u || extra.contains u) = js "face" := by
    rw [List.takeWhile_append_of_pos, List.takeWhile_cons_of_neg, List.append_nil]
    · rw [hextra]
      decide
    · intro u hu
      have hu := List.all_eq_true.mp hletters u hu
      simp only [hu, Bool.true_or]
  have hdrop : (js "did:zeroauth:" ++ (js "face" ++ 58 :: s)).drop (js "did:zeroauth:").length =
      js "face" ++ 58 :: s := List.drop_left
  have hrest : (js "face" ++ 58 :: s).drop (js "face").length = 58 :: s := List.drop_left
  have hne : (js "face").isEmpty = false := rfl
  have hhead : (js "did:zeroauth:").isPrefixOf (js "did:zeroauth:" ++ (js "face" ++ 58 :: s)) =
      true := List.isPrefixOf_iff_prefix.mpr (List.prefix_append _ _)
  rw [hsplit, List.append_assoc, List.append_assoc, List.singleton_append, matchesDid, hdrop, htake,
    hrest, hhead, hne]
  exact h.isHexRun_eq hlow hhigh

end HexText

/-! ## One credential -/

/-- The element of the field that a secret stands for. -/
def secretField (secret : List UInt8) : ℕ := bigInteger secret % PoseidonConstants.field

def commitmentOf (secret : List UInt8) : ℕ := Poseidon.hash2 (secretField secret) 0

def didHashOf (secret : List UInt8) : ℕ := Poseidon.hash1 (commitmentOf secret)

def didOf (secret : List UInt8) : JsString := faceDid (commitmentHex (commitmentOf secret))

/-- The credential that every derivation ought to give. -/
def credentialFor (secret : List UInt8) : UnlockedCredential where
  biometricSecret := numText 10 (secretField secret)
  salt := numText 10 0
  commitment := numText 10 (commitmentOf secret)
  didHash := numText 10 (didHashOf secret)
  did := didOf secret

theorem secretField_lt (secret : List UInt8) : secretField secret < PoseidonConstants.field :=
  Nat.mod_lt _ Poseidon.field_pos

theorem commitmentOf_lt (secret : List UInt8) : commitmentOf secret < PoseidonConstants.field :=
  Poseidon.hash2_lt _ _

theorem didHashOf_lt (secret : List UInt8) : didHashOf secret < PoseidonConstants.field :=
  Poseidon.hash1_lt _

section

variable {secret : List UInt8} (h : secret.length = 32)

include h

theorem deriveDidAndCommitment_eq :
    deriveDidAndCommitment secret = .ok (didOf secret, commitmentHex (commitmentOf secret)) := by
  have hzero : bigInteger (List.replicate 32 0) = 0 := by decide
  rw [deriveDidAndCommitment, if_neg (not_not.mpr h), hzero]
  rfl

/-- The accessors give back the numbers that the buffers were made of. -/
theorem unlocked_credentialOf (wrongSize : JsString) :
    ∃ p, credentialOf wrongSize secret = .ok p ∧ p.unlocked = credentialFor secret := by
  have hfield : PoseidonConstants.field < 256 ^ 32 := by decide
  have hs : secretField secret < 256 ^ 32 := lt_trans (secretField_lt secret) hfield
  have hc : commitmentOf secret < 256 ^ 32 := lt_trans (commitmentOf_lt secret) hfield
  have hd : didHashOf secret < 256 ^ 32 := lt_trans (didHashOf_lt secret) hfield
  have h0 : 0 < 256 ^ 32 := by decide
  refine ⟨⟨bigEndian 32 (secretField secret), bigEndian 32 0, bigEndian 32 (commitmentOf secret),
    bigEndian 32 (didHashOf secret), didOf secret⟩, ?_, ?_⟩
  · have hok {α β : Type} (a : α) (f : α → Except JsString β) : (Except.ok a >>= f) = f a := rfl
    rw [credentialOf, if_neg (not_not.mpr h)]
    change (fieldToBytes32 (secretField secret) >>= fun s => fieldToBytes32 0 >>= fun t =>
      fieldToBytes32 (commitmentOf secret) >>= fun c => fieldToBytes32 (didHashOf secret) >>= fun d =>
        pure (PersistedUnlockedCredential.mk s t c d (didOf secret))) = _
    rw [fieldToBytes32_eq hs, fieldToBytes32_eq h0, fieldToBytes32_eq hc, fieldToBytes32_eq hd, hok,
      hok, hok, hok]
    rfl
  · rw [PersistedUnlockedCredential.unlocked, bigInteger_bigEndian hs, bigInteger_bigEndian h0,
      bigInteger_bigEndian hc, bigInteger_bigEndian hd, credentialFor]

theorem buildCredential_eq :
    buildCredential secret (commitmentHex (commitmentOf secret)) = .ok (credentialFor secret) := by
  obtain ⟨hhex, -, hread⟩ := hexText_commitmentHex (commitmentOf_lt secret)
  rw [buildCredential, if_neg (not_not.mpr h), hhex.withoutHexPrefix_eq, hread,
    deriveDidAndCommitment_eq h]
  rfl

end

/-- The registered DID and commitment of a secret, and the one credential, made of the
    numbers `s`, `t`, `c` and `d`, that every path signs in with. -/
structure Agreement (caseMapping : CaseMapping) (secret : List UInt8) (did hex : JsString)
    (u : UnlockedCredential) (s t c d : ℕ) : Prop where
  registered : deriveDidAndCommitment secret = .ok (did, hex)
  face : ∃ p, fromSecret secret = .ok p ∧ p.unlocked = u
  fallback : ∃ p, buildRegistrationFallbackCredential secret = .ok p ∧ p.unlocked = u
  registration : buildCredential secret hex = .ok u
  did_eq : u.did = did
  hex_eq : readDigits 16 hex = some c
  decimal : u.biometricSecret = numText 10 s ∧ u.salt = numText 10 t ∧ u.commitment = numText 10 c ∧
    u.didHash = numText 10 d
  inField : s < PoseidonConstants.field ∧ t < PoseidonConstants.field ∧
    c < PoseidonConstants.field ∧ d < PoseidonConstants.field
  required : ∀ name, ProverJs.requireField name u.biometricSecret = .ok s ∧
    ProverJs.requireField name u.salt = .ok t ∧ ProverJs.requireField name u.commitment = .ok c ∧
    ProverJs.requireField name u.didHash = .ok d
  recomputed : c = PoseidonJs.zaPoseidon2 s t
  /-- With any nonce that is accepted, the script builds a witness of this commitment. -/
  checked : ∀ nonce n, ProverJs.requireField (js "sessionNonce") nonce = .ok n → ∃ w,
    ProverJs.buildWitness ⟨u.biometricSecret, u.salt, some u.commitment, u.didHash, nonce⟩ = .ok w ∧
      w.commitment = u.commitment
  /-- The patterns of `registerFaceFirstIdentity`. -/
  faceFirst : matchesDid [45] 20 80 (did.map asciiLower) = true ∧
    matchesCommitment 1 80 (hex.map asciiLower) = true
  /-- The patterns of `submitCommitmentForRegistration`. -/
  ceremony : matchesDid [95, 45] 8 80 (caseMapping.toLowerCase (trim did)) = true ∧
    matchesCommitment 32 128 (caseMapping.toLowerCase (trim hex)) = true

theorem length_didSuffix (commitmentHex : JsString) :
    (hexBytes ((sha256 (utf8 commitmentHex)).take 20)).length = 40 := by
  have hlength (bs : List UInt8) : (hexBytes bs).length = 2 * bs.length := by
    induction bs with
    | nil => rfl
    | cons x bs ih =>
        rw [hexBytes_cons, List.length_cons, List.length_cons, List.length_cons, ih]
        omega
  rw [hlength, List.length_take, length_sha256]
  rfl

/-- Lower case and trimming leave a DID as it is. -/
theorem lower_trim_faceDid (caseMapping : CaseMapping) (hex : JsString) :
    (faceDid hex).map asciiLower = faceDid hex ∧
      caseMapping.toLowerCase (trim (faceDid hex)) = faceDid hex := by
  have hhex := hexText_hexBytes ((sha256 (utf8 hex)).take 20)
  have hhead : (js "did:zeroauth:face:").map asciiLower = js "did:zeroauth:face:" := by
    rfl
  have hspace : ((js "did:zeroauth:face:").all fun u => !isWhiteSpace u) = true := rfl
  have hascii : IsAscii (js "did:zeroauth:face:") := by decide
  have hmap : (faceDid hex).map asciiLower = faceDid hex := by
    rw [faceDid, List.map_append, hhead, hhex.map_asciiLower]
  have htrim : trim (faceDid hex) = faceDid hex := by
    refine trim_of_forall fun u hu => ?_
    rcases List.mem_append.mp hu with hu | hu
    · simpa using List.all_eq_true.mp hspace u hu
    · obtain ⟨d, hd, rfl⟩ := hhex u hu
      exact (hexUnit_facts hd).2.1
  refine ⟨hmap, ?_⟩
  have hascii' : IsAscii (faceDid hex) := hascii.append hhex.isAscii
  rw [htrim, caseMapping.lower_ascii _ hascii', hmap]

/-- Every derivation on the phone gives one credential, which its own prover and the
    server accept. -/
theorem credentials_agree (caseMapping : CaseMapping) {secret : List UInt8}
    (h : secret.length = 32) : ∃ did hex u s t c d, Agreement caseMapping secret did hex u s t c d := by
  have hfield : ProverJs.fieldModulus = PoseidonConstants.field := rfl
  have hs := secretField_lt secret
  have hc := commitmentOf_lt secret
  have hd := didHashOf_lt secret
  have h0 := Poseidon.field_pos
  have hzero : commitmentOf secret = PoseidonJs.zaPoseidon2 (secretField secret) 0 := by
    rw [PoseidonJs.zaPoseidon2_eq_hash2, commitmentOf]
  obtain ⟨hhex, hlen, hread⟩ := hexText_commitmentHex hc
  have hsuffix := hexText_hexBytes ((sha256 (utf8 (commitmentHex (commitmentOf secret)))).take 20)
  have hsuffixLen := length_didSuffix (commitmentHex (commitmentOf secret))
  obtain ⟨hlower, hnorm⟩ := lower_trim_faceDid caseMapping (commitmentHex (commitmentOf secret))
  refine ⟨didOf secret, commitmentHex (commitmentOf secret), credentialFor secret, secretField secret,
    0, commitmentOf secret, didHashOf secret, ?_⟩
  exact {
    registered := deriveDidAndCommitment_eq h
    face := unlocked_credentialOf h (js "FaceSecretCredential.fromSecret: secret must be 32 bytes; got ")
    fallback := unlocked_credentialOf h (js "registration secret must be 32 bytes; got ")
    registration := buildCredential_eq h
    did_eq := rfl
    hex_eq := hread
    decimal := by simp only [credentialFor, and_self]
    inField := ⟨hs, h0, hc, hd⟩
    required := by
      intro name
      simp only [credentialFor]
      exact ⟨ProverJs.requireField_numText hs name, ProverJs.requireField_numText h0 name,
        ProverJs.requireField_numText hc name, ProverJs.requireField_numText hd name⟩
    recomputed := hzero
    checked := by
      intro nonce n hn
      simp only [credentialFor]
      have hw := ProverJs.buildWitness_numText hs h0 hd hn hzero
      refine ⟨_, hw, ?_⟩
      dsimp only
    faceFirst := by
      rw [didOf, hlower, hhex.map_asciiLower]
      refine ⟨hsuffix.matchesDid_eq (by decide) (by omega) (by omega), ?_⟩
      rw [matchesCommitment, hhex.isHexRun_eq (by omega) (by omega), Bool.true_or]
    ceremony := by
      rw [didOf, hnorm, hhex.trim_eq, caseMapping.lower_ascii _ hhex.isAscii, hhex.map_asciiLower]
      refine ⟨hsuffix.matchesDid_eq (by decide) (by omega) (by omega), ?_⟩
      rw [matchesCommitment, hhex.isHexRun_eq (by omega) (by omega), Bool.true_or] }

/-- A secret above the modulus. -/
theorem credentials_agree_of_ones : ∃ did hex u s t c d,
    Agreement .ascii (List.replicate 32 255) did hex u s t c d :=
  credentials_agree .ascii (by decide)

end ZeroAuth.Android
