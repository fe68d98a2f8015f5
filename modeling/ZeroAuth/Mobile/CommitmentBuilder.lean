/-
  ZeroAuth.Mobile.CommitmentBuilder

  The face-to-commitment pipeline of mobile/biometric: `Quantizer`, the byte
  wrappers of `Poseidon`, and `CommitmentBuilder.buildFromEmbedding`.

  The commitment is one the server accepts, and a witness made of the same bytes
  satisfies the circuit.  The DID is `did:zeroauth:<hex>`, and both patterns of the
  server ask for a method between the two: no DID of the pipeline passes them
  (`built_refused`).
-/

import Mathlib.Data.Int.Bitwise
import ZeroAuth.Android.Credential
import ZeroAuth.Mobile.Floats
import ZeroAuth.Tenant.Runs

namespace ZeroAuth.Mobile

open ZeroAuth.Js ZeroAuth.Lib ZeroAuth.Tenant
open ZeroAuth.Android (bigInteger bigIntegerBytes bigInteger_bigEndian bigEndian_pad
  bigIntegerBytes_lt HexText hexText_hexBytes PoseidonConstants.field)

/-! ## The quantiser -/

/-- What the pipeline throws. -/
inductive PipelineError
  | illegalArgument (message : JsString)
  | illegalState (message : JsString)
  /-- `Quantizer: embedding[$i]=$v out of [-1, +1]; embedding is not L2-normalised (caller
      contract violated)`, an `IllegalArgumentException`. -/
  | notNormalised (i : ℕ) (v : ℚ)
  deriving DecidableEq

namespace Quantizer

def scale : ℚ := 1000

/-- `1.0001f`. -/
def bound : ℚ := 8389447 / 8388608

def int16Min : ℤ := -32768

def int16Max : ℤ := 32767

def checkComponent (i : ℕ) : KFloat → Except PipelineError ℚ
  | .finite v => if -bound ≤ v ∧ v ≤ bound then .ok v else .error (.notNormalised i v)
  | _ => .error (.illegalArgument (js "Quantizer: embedding[" ++ numText 10 i ++
      js "] is NaN or Infinity — refusing to quantise (would emit collision-prone bytes)"))

/-- The loop of checks, from index `i` on. -/
def checkAll : ℕ → List KFloat → Except PipelineError (List ℚ)
  | _, [] => .ok []
  | i, x :: rest => do
      let v ← checkComponent i x
      let vs ← checkAll (i + 1) rest
      return v :: vs

/-- The int16 that a component is written as. -/
def quantum (v : ℚ) : ℤ := max int16Min (min int16Max (roundToInt (toFloat (v * scale))))

def int16Bytes (q : ℤ) : List UInt8 :=
  [UInt8.ofNat ((q >>> 8) % 256).toNat, UInt8.ofNat (q % 256).toNat]

def quantize (embedding : List KFloat) : Except PipelineError (List UInt8) :=
  if embedding = [] then
    .error (.illegalArgument (js "Quantizer: empty embedding (wiring bug?)"))
  else do
    let vs ← checkAll 0 embedding
    return vs.flatMap fun v => int16Bytes (quantum v)

/-- A component that is accepted. -/
def InRange (x : KFloat) : Prop := ∃ v : ℚ, x = .finite v ∧ -bound ≤ v ∧ v ≤ bound

theorem checkComponent_ok_iff {i : ℕ} {x : KFloat} :
    (∃ v, checkComponent i x = .ok v) ↔ InRange x := by
  constructor
  · rintro ⟨v, h⟩
    cases x with
    | nan => cases h
    | infinite _ => cases h
    | finite w =>
        rw [checkComponent] at h
        split at h
        · next hw => exact ⟨w, rfl, hw⟩
        · cases h
  · rintro ⟨v, rfl, hv⟩
    exact ⟨v, if_pos hv⟩

theorem checkAll_ok_iff {i : ℕ} {xs : List KFloat} :
    (∃ vs, checkAll i xs = .ok vs ∧ vs.length = xs.length) ↔ ∀ x ∈ xs, InRange x := by
  induction xs generalizing i with
  | nil => exact ⟨fun _ _ hx => absurd hx List.not_mem_nil, fun _ => ⟨[], rfl, rfl⟩⟩
  | cons x xs ih =>
      rw [List.forall_mem_cons, ← ih (i := i + 1), ← checkComponent_ok_iff (i := i)]
      constructor
      · rintro ⟨vs, h, hlen⟩
        cases hx : checkComponent i x with
        | error e =>
            rw [checkAll, hx] at h
            cases h
        | ok v =>
            cases hxs : checkAll (i + 1) xs with
            | error e =>
                rw [checkAll, hx, hxs] at h
                cases h
            | ok ws =>
                rw [checkAll, hx, hxs] at h
                cases h
                rw [List.length_cons, List.length_cons, Nat.add_right_cancel_iff] at hlen
                exact ⟨⟨v, rfl⟩, ws, rfl, hlen⟩
      · rintro ⟨⟨v, hv⟩, ws, hws, hlen⟩
        refine ⟨v :: ws, ?_, by rw [List.length_cons, hlen, List.length_cons]⟩
        rw [checkAll, hv, hws]
        rfl

/-- An embedding is quantised, to two bytes a component, exactly if it is not empty and
    every component is in range. -/
theorem quantize_ok_iff {embedding : List KFloat} :
    (∃ q, quantize embedding = .ok q ∧ q.length = 2 * embedding.length) ↔
      embedding ≠ [] ∧ ∀ x ∈ embedding, InRange x := by
  -- each component makes two bytes
  have hbytes : ∀ vs : List ℚ, (vs.flatMap fun v => int16Bytes (quantum v)).length =
      2 * vs.length := by
    intro vs
    induction vs with
    | nil => rfl
    | cons v vs ih =>
        rw [List.flatMap_cons, List.length_append, ih, List.length_cons]
        change 2 + 2 * vs.length = _
        omega
  by_cases hne : embedding = []
  · rw [quantize, if_pos hne]
    constructor
    · rintro ⟨q, h, -⟩
      cases h
    · rintro ⟨h, -⟩
      exact absurd hne h
  · rw [quantize, if_neg hne, and_iff_right hne, ← checkAll_ok_iff (i := 0)]
    constructor
    · rintro ⟨q, h, hlen⟩
      cases hall : checkAll 0 embedding with
      | error e =>
          rw [hall] at h
          cases h
      | ok vs =>
          rw [hall] at h
          cases h
          rw [hbytes] at hlen
          exact ⟨vs, rfl, by omega⟩
    · rintro ⟨vs, hvs, hlen⟩
      refine ⟨_, by rw [hvs]; rfl, ?_⟩
      rw [hbytes, hlen]

end Quantizer

/-! ## Poseidon of byte arrays -/

namespace Poseidon

/-- The kernel, a copy of the one in the app. -/
def hash2Bi (a b : ℕ) : ℕ := Android.Poseidon.hash2 a b

/-- The top two bits are cleared. -/
def masked : List UInt8 → List UInt8
  | [] => []
  | b :: rest => (b &&& 0x3F) :: rest

/-- The element of the field that 32 bytes stand for. -/
def fieldOf (bytes : List UInt8) : ℕ := bigInteger (masked bytes) % PoseidonConstants.field

def toField (bytes : List UInt8) : Except PipelineError ℕ :=
  if bytes.length ≠ 32 then
    .error (.illegalArgument
      (js "Poseidon.toField: expected 32 bytes, got " ++ numText 10 bytes.length))
  else .ok (fieldOf bytes)

def toBytes32 (value : ℕ) : Except PipelineError (List UInt8) :=
  let raw := bigIntegerBytes value
  if raw.length = 32 then .ok raw
  else if raw.length = 33 ∧ raw.head? = some 0 then .ok (raw.drop 1)
  else if raw.length < 32 then .ok (List.replicate (32 - raw.length) 0 ++ raw)
  else .error (.illegalState
    (js "Poseidon output too large to fit in 32 bytes: " ++ numText 10 raw.length))

def hash2 (a b : List UInt8) : Except PipelineError (List UInt8) := do
  let aF ← toField a
  let bF ← toField b
  toBytes32 (hash2Bi aF bF)

/-- Whether `toByteArray` is short, exact or has a byte for the sign. -/
theorem toBytes32_eq {n : ℕ} (h : n < 256 ^ 32) : toBytes32 n = .ok (bigEndian 32 n) := by
  have hsize : Nat.size n ≤ 256 := by
    rw [Nat.size_le]
    calc n < 256 ^ 32 := h
      _ = 2 ^ 256 := by norm_num
  simp only [toBytes32, bigIntegerBytes, length_bigEndian]
  by_cases hexact : Nat.size n / 8 + 1 = 32
  · rw [if_pos hexact, hexact]
  rw [if_neg hexact]
  by_cases hlong : Nat.size n / 8 + 1 = 33
  · have hhead : bigEndian 33 n = 0 :: bigEndian 32 n := by
      rw [bigEndian_succ, Nat.div_eq_of_lt h]
      rfl
    rw [hlong, hhead, if_pos ⟨rfl, rfl⟩]
    rfl
  · have hshort : Nat.size n / 8 + 1 < 32 := by omega
    have hpad := bigEndian_pad (bigIntegerBytes_lt n) (32 - (Nat.size n / 8 + 1))
    rw [Nat.add_sub_cancel' hshort.le] at hpad
    rw [if_neg (fun hc => hlong hc.1), if_pos hshort, hpad]

theorem hash2_eq {a b : List UInt8} (ha : a.length = 32) (hb : b.length = 32) :
    hash2 a b = .ok (bigEndian 32 (hash2Bi (fieldOf a) (fieldOf b))) := by
  have hfield : PoseidonConstants.field < 256 ^ 32 := by decide
  have hlt : hash2Bi (fieldOf a) (fieldOf b) < 256 ^ 32 :=
    lt_trans (Android.Poseidon.hash2_lt _ _) hfield
  have hfa : toField a = .ok (fieldOf a) := if_neg (not_not.mpr ha)
  have hfb : toField b = .ok (fieldOf b) := if_neg (not_not.mpr hb)
  have hok {α β : Type} (x : α) (f : α → Except PipelineError β) :
      (Except.ok x >>= f) = f x := rfl
  rw [hash2, hfa, hok, hfb, hok, toBytes32_eq hlt]

end Poseidon

/-! ## The pipeline -/

def didPrefix : JsString := js "did:zeroauth:"

/-- What the pipeline returns; `did` and `value` are public. -/
structure Commitment where
  did : JsString
  value : List UInt8
  salt : List UInt8
  secret : List UInt8
  value_length : value.length = 32
  salt_length : salt.length = 32
  secret_length : secret.length = 32
  did_prefix : didPrefix.isPrefixOf did = true

/-- The constructor with its requirements. -/
def Commitment.init (did : JsString) (value salt secret : List UInt8) :
    Except PipelineError Commitment :=
  let must (name : String) (bytes : List UInt8) : PipelineError :=
    .illegalArgument (js "Commitment." ++ js name ++ js " must be 32 bytes, got " ++
      numText 10 bytes.length)
  if hvalue : value.length = 32 then
    if hsalt : salt.length = 32 then
      if hsecret : secret.length = 32 then
        if hdid : didPrefix.isPrefixOf did = true then
          .ok ⟨did, value, salt, secret, hvalue, hsalt, hsecret, hdid⟩
        else .error (.illegalArgument
          (js "Commitment.did must start with 'did:zeroauth:', got '" ++ did ++ js "'"))
      else .error (must "secret" secret)
    else .error (must "salt" salt)
  else .error (must "value" value)

/-- `Keccak256.digest(commitment).copyOfRange(0, 20).toHex()`. -/
def didSuffix (keccak : List UInt8 → List UInt8) (commitment : List UInt8) : JsString :=
  let digest := keccak commitment
  hexBytes (digest.take 20 ++ List.replicate (20 - digest.length) 0)

/-- `buildFromEmbedding`, with the digest of the Keccak engine and the bytes that the
    salt provider returns. -/
def buildFromEmbedding (keccak : List UInt8 → List UInt8) (providedSalt : List UInt8)
    (embedding : List KFloat) : Except PipelineError Commitment := do
  let quantised ← Quantizer.quantize embedding
  let secret := sha256 quantised
  let salt := providedSalt
  if salt.length ≠ 32 then
    .error (.illegalState (js "CommitmentBuilder: SaltProvider returned " ++
      numText 10 salt.length ++ js " bytes, expected 32"))
  else do
    let commitment ← Poseidon.hash2 secret salt
    let did := didPrefix ++ didSuffix keccak commitment
    Commitment.init did commitment salt secret

/-- The number behind a commitment. -/
def Commitment.number (c : Commitment) : ℕ :=
  Poseidon.hash2Bi (Poseidon.fieldOf c.secret) (Poseidon.fieldOf c.salt)

/-- A quantised embedding and a salt of 32 bytes give a commitment. -/
theorem buildFromEmbedding_eq {keccak : List UInt8 → List UInt8} {salt : List UInt8}
    {embedding : List KFloat} {quantised : List UInt8}
    (hquantised : Quantizer.quantize embedding = .ok quantised) (hsalt : salt.length = 32) :
    ∃ c, buildFromEmbedding keccak salt embedding = .ok c ∧ c.secret = sha256 quantised ∧
      c.salt = salt ∧ c.value = bigEndian 32 c.number ∧
      c.did = didPrefix ++ didSuffix keccak c.value := by
  have hok {α β : Type} (x : α) (f : α → Except PipelineError β) :
      (Except.ok x >>= f) = f x := rfl
  have hsecret := length_sha256 quantised
  have hstart (s : JsString) : didPrefix.isPrefixOf (didPrefix ++ s) = true :=
    List.isPrefixOf_iff_prefix.mpr (List.prefix_append _ _)
  rw [buildFromEmbedding, hquantised, hok, if_neg (not_not.mpr hsalt),
    Poseidon.hash2_eq hsecret hsalt, hok]
  rw [Commitment.init, dif_pos (length_bigEndian 32 _), dif_pos hsalt, dif_pos hsecret,
    dif_pos (hstart _)]
  exact ⟨_, rfl, rfl, rfl, rfl, rfl⟩

/-! ## What the server asks for -/

/-- The program gets past its checks: it is not a rejection before the first await. -/
def PassesChecks {α : Type} (p : Program α) : Prop := ∀ err : Failure, p ≠ throw err

/-- The value of a commitment is the number that the circuit wants for its secret and
    salt, below the order of the field. -/
structure Witnessed (c : Commitment) : Prop where
  bytes : c.value = bigEndian 32 c.number
  read : bigInteger c.value = c.number
  inField : c.number < PoseidonConstants.field
  circuit : c.number = Android.PoseidonJs.zaPoseidon2 (Poseidon.fieldOf c.secret)
    (Poseidon.fieldOf c.salt)

/-- The server takes a DID together with the commitment. -/
structure Accepts (cfg : Settings) (did commitment : JsString) : Prop where
  faceFirst : ∀ tenantId environment externalId,
    PassesChecks (registerFaceFirstIdentity cfg tenantId environment ⟨did, commitment, externalId⟩)
  ceremony : ∀ enrollCode attestationKind,
    PassesChecks (submitCommitmentForRegistration cfg ⟨enrollCode, did, commitment, attestationKind⟩)

theorem witnessed_of_value {c : Commitment} (h : c.value = bigEndian 32 c.number) :
    Witnessed c where
  bytes := h
  read := by
    have hfield : PoseidonConstants.field < 256 ^ 32 := by decide
    rw [h]
    exact bigInteger_bigEndian (lt_trans (Android.Poseidon.hash2_lt _ _) hfield)
  inField := Android.Poseidon.hash2_lt _ _
  circuit := by
    rw [Android.PoseidonJs.zaPoseidon2_eq_hash2]
    rfl

/-- The patterns want a colon behind the method. -/
theorem matchesDid_of_no_colon {extra : List CodeUnit} {low high : ℕ} {s : JsString}
    (h : (58 : CodeUnit) ∉ s) : matchesDid extra low high (didPrefix ++ s) = false := by
  have hdrop : (didPrefix ++ s).drop (js "did:zeroauth:").length = s := List.drop_left
  rw [matchesDid, hdrop]
  split
  · next hex heq =>
      have hmem : (58 : CodeUnit) ∈ s := List.mem_of_mem_drop (heq ▸ List.mem_cons_self)
      exact absurd hmem h
  · rw [Bool.and_false]

theorem no_colon_of_hexText {s : JsString} (h : HexText s) : (58 : CodeUnit) ∉ s := by
  intro hmem
  obtain ⟨d, hd, heq⟩ := h 58 hmem
  have hall : ∀ d < 16, digitUnit d ≠ 58 := by decide
  exact hall d hd heq.symm

/-- Lower case and trimming leave a prefix of the pipeline's kind and its hex as they are. -/
theorem lower_trim_did (caseMapping : CaseMapping) {head s : JsString}
    (hlower : head.map asciiLower = head) (hascii : IsAscii head)
    (hspace : ∀ u ∈ head, isWhiteSpace u = false) (h : HexText s) :
    (head ++ s).map asciiLower = head ++ s ∧
      caseMapping.toLowerCase (trim (head ++ s)) = head ++ s := by
  have hmap : (head ++ s).map asciiLower = head ++ s := by
    rw [List.map_append, hlower, h.map_asciiLower]
  have htrim : trim (head ++ s) = head ++ s := by
    refine trim_of_forall fun u hu => ?_
    rcases List.mem_append.mp hu with hu | hu
    · exact hspace u hu
    · obtain ⟨d, hd, rfl⟩ := h u hu
      exact (Android.hexUnit_facts hd).2.1
  refine ⟨hmap, ?_⟩
  rw [htrim, caseMapping.lower_ascii _ (hascii.append h.isAscii), hmap]

theorem didPrefix_facts : didPrefix.map asciiLower = didPrefix ∧ IsAscii didPrefix ∧
    ∀ u ∈ didPrefix, isWhiteSpace u = false := by
  have hspace : (didPrefix.all fun u => !isWhiteSpace u) = true := rfl
  refine ⟨by decide, by decide, fun u hu => ?_⟩
  simpa using List.all_eq_true.mp hspace u hu

section

variable (cfg : Settings) {s hex : JsString} (hs : HexText s) (hhex : HexText hex)

include hs

/-- A DID without a method is refused by both, whatever comes with it. -/
theorem did_refused :
    (∀ tenantId environment commitment externalId,
      registerFaceFirstIdentity cfg tenantId environment
        ⟨didPrefix ++ s, commitment, externalId⟩ =
      throw (.identityValidation (js "invalid_did_format")
        (js "DID must match did:zeroauth:<method>:<hex> pattern."))) ∧
    (∀ enrollCode commitment attestationKind,
      submitCommitmentForRegistration cfg
        ⟨enrollCode, didPrefix ++ s, commitment, attestationKind⟩ =
      throw (.registrationState .invalidCommitment)) := by
  obtain ⟨hlower, hascii, hspace⟩ := didPrefix_facts
  -- normalising changes nothing, and the pattern wants a third colon
  obtain ⟨hmap, hnorm⟩ := lower_trim_did cfg.caseMapping hlower hascii hspace hs
  have hcolon := no_colon_of_hexText hs
  constructor
  · intro tenantId environment commitment externalId
    have hne : didPrefix ++ s ≠ [] := by
      intro hnil
      have hprefix := (List.append_eq_nil_iff.mp hnil).1
      revert hprefix
      decide
    have hdid : (!matchesDid [45] 20 80 ((didPrefix ++ s).map asciiLower)) = true := by
      rw [hmap, matchesDid_of_no_colon hcolon]
      rfl
    rw [registerFaceFirstIdentity, if_neg hne, if_pos hdid]
  · intro enrollCode commitment attestationKind
    have hdid : (!matchesDid [95, 45] 8 80 (cfg.caseMapping.toLowerCase (trim (didPrefix ++ s)))) =
        true := by
      rw [hnorm, matchesDid_of_no_colon hcolon]
      rfl
    rw [submitCommitmentForRegistration]
    exact if_pos hdid

include hhex

/-- With the method `face` in between, digits enough and at most 80 of either, the server
    takes both. -/
theorem accepts_of_method (hslow : 20 ≤ s.length) (hshigh : s.length ≤ 80)
    (hlow : 32 ≤ hex.length) (hhigh : hex.length ≤ 80) :
    Accepts cfg (js "did:zeroauth:face:" ++ s) hex := by
  have hlower : (js "did:zeroauth:face:").map asciiLower = js "did:zeroauth:face:" := by
    rfl
  have hascii : IsAscii (js "did:zeroauth:face:") := by decide
  have hall : ((js "did:zeroauth:face:").all fun u => !isWhiteSpace u) = true := rfl
  have hspace : ∀ u ∈ js "did:zeroauth:face:", isWhiteSpace u = false := fun u hu => by
    simpa using List.all_eq_true.mp hall u hu
  -- normalising changes neither text
  obtain ⟨hmap, hnorm⟩ := lower_trim_did cfg.caseMapping hlower hascii hspace hs
  have hhexNorm : cfg.caseMapping.toLowerCase (trim hex) = hex := by
    rw [hhex.trim_eq, cfg.caseMapping.lower_ascii _ hhex.isAscii, hhex.map_asciiLower]
  refine ⟨fun tenantId environment externalId => ?_, fun enrollCode attestationKind => ?_⟩
  · -- the first service asks for 20 to 80 digits
    have hne : js "did:zeroauth:face:" ++ s ≠ [] := by
      intro hnil
      have hprefix := (List.append_eq_nil_iff.mp hnil).1
      revert hprefix
      decide
    have hhexNe : hex ≠ [] := by
      rintro rfl
      rw [List.length_nil] at hlow
      omega
    have hdid : ¬(!matchesDid [45] 20 80 ((js "did:zeroauth:face:" ++ s).map asciiLower)) = true := by
      rw [hmap, hs.matchesDid_eq (by decide) hslow hshigh]
      decide
    have hcommitment : ¬(!matchesCommitment 1 80 (hex.map asciiLower)) = true := by
      rw [hhex.map_asciiLower, matchesCommitment, hhex.isHexRun_eq (by omega) hhigh, Bool.true_or]
      decide
    rw [registerFaceFirstIdentity, if_neg hne, if_neg hdid, if_neg hhexNe, if_neg hcommitment]
    intro err hthrow
    cases hthrow
  · -- the second one for at least 8
    have hdid : ¬(!matchesDid [95, 45] 8 80
        (cfg.caseMapping.toLowerCase (trim (js "did:zeroauth:face:" ++ s)))) = true := by
      rw [hnorm, hs.matchesDid_eq (by decide) (by omega) hshigh]
      decide
    have hcommitment : ¬(!matchesCommitment 32 128 (cfg.caseMapping.toLowerCase (trim hex))) =
        true := by
      rw [hhexNorm, matchesCommitment, hhex.isHexRun_eq hlow (by omega), Bool.true_or]
      decide
    intro err
    rw [submitCommitmentForRegistration]
    dsimp only
    rw [if_neg hdid, if_neg hcommitment]
    intro hthrow
    cases hthrow

end

theorem hexText_didSuffix (keccak : List UInt8 → List UInt8) (commitment : List UInt8) :
    HexText (didSuffix keccak commitment) := hexText_hexBytes _

theorem length_didSuffix (keccak : List UInt8 → List UInt8) (commitment : List UInt8) :
    (didSuffix keccak commitment).length = 40 := by
  simp only [didSuffix, length_hexBytes, List.length_append, List.length_take,
    List.length_replicate]
  omega

/-- The DIDs of the pipeline have no method. -/
theorem not_accepts (cfg : Settings) (keccak : List UInt8 → List UInt8) (value : List UInt8)
    (commitment : JsString) : ¬ Accepts cfg (didPrefix ++ didSuffix keccak value) commitment := by
  intro h
  have hrefused := (did_refused cfg (hexText_didSuffix keccak value)).1 [] [] commitment none
  exact h.faceFirst [] [] none _ hrefused

/-- Every embedding that is quantised gives, with every salt, a commitment that the
    circuit accepts and a DID that the server does not.  With a method in the DID the
    server would take both. -/
theorem built_refused (keccak : List UInt8 → List UInt8) (cfg : Settings)
    {embedding : List KFloat} {quantised salt : List UInt8}
    (hquantised : Quantizer.quantize embedding = .ok quantised) (hsalt : salt.length = 32) :
    ∃ c, buildFromEmbedding keccak salt embedding = .ok c ∧
      ¬ Accepts cfg c.did (hexBytes c.value) ∧ Witnessed c ∧
      Accepts cfg (js "did:zeroauth:face:" ++ didSuffix keccak c.value) (hexBytes c.value) := by
  obtain ⟨c, hbuilt, -, -, hvalue, hdid⟩ := @buildFromEmbedding_eq keccak _ _ _ hquantised hsalt
  refine ⟨c, hbuilt, ?_, witnessed_of_value hvalue, ?_⟩
  · rw [hdid]
    exact not_accepts cfg keccak c.value _
  · have hlength := length_didSuffix keccak c.value
    have hhexLength : (hexBytes c.value).length = 64 := by
      rw [length_hexBytes, c.value_length]
    exact accepts_of_method cfg (hexText_didSuffix keccak c.value) (hexText_hexBytes c.value)
      (by omega) (by omega) (by omega) (by omega)

/-- An embedding along the first axis. -/
def firstAxis : List KFloat := .finite 1 :: List.replicate 127 (.finite 0)

theorem firstAxis_quantised : ∃ quantised, Quantizer.quantize firstAxis = .ok quantised ∧
    quantised.length = 2 * firstAxis.length := by
  refine Quantizer.quantize_ok_iff.mpr ⟨List.cons_ne_nil _ _, ?_⟩
  intro x hx
  rcases List.mem_cons.mp hx with rfl | hx
  · exact ⟨1, rfl, by decide +kernel, by decide +kernel⟩
  · rw [List.eq_of_mem_replicate hx]
    exact ⟨0, rfl, by decide +kernel, by decide +kernel⟩

theorem built_refused_of_firstAxis :
    (∃ quantised, Quantizer.quantize firstAxis = .ok quantised) ∧
    ∀ keccak : List UInt8 → List UInt8,
      ∃ c, buildFromEmbedding keccak (List.replicate 32 255) firstAxis = .ok c ∧
      ¬ Accepts settings c.did (hexBytes c.value) ∧ Witnessed c ∧
      Accepts settings (js "did:zeroauth:face:" ++ didSuffix keccak c.value) (hexBytes c.value) := by
  obtain ⟨quantised, hquantised, -⟩ := firstAxis_quantised
  refine ⟨⟨quantised, hquantised⟩, fun keccak => ?_⟩
  exact built_refused keccak settings hquantised List.length_replicate

/-- The pipeline and the server do not fit together. -/
theorem firstAxis_refused : ¬ ∀ (keccak : List UInt8 → List UInt8) (cfg : Settings)
    (embedding : List KFloat) (quantised salt : List UInt8),
    Quantizer.quantize embedding = .ok quantised → salt.length = 32 →
    ∃ c, buildFromEmbedding keccak salt embedding = .ok c ∧
      Accepts cfg c.did (hexBytes c.value) ∧ Witnessed c := by
  intro h
  obtain ⟨quantised, hquantised, -⟩ := firstAxis_quantised
  have hsalt : (List.replicate 32 (255 : UInt8)).length = 32 := List.length_replicate
  obtain ⟨c, hbuilt, haccepts, -⟩ :=
    h (fun _ => List.replicate 32 0) settings firstAxis quantised _ hquantised hsalt
  obtain ⟨c', hbuilt', -, -, -, hdid⟩ := @buildFromEmbedding_eq
    (fun _ => List.replicate 32 0) _ _ _ hquantised hsalt
  obtain rfl : c' = c := Except.ok.inj (hbuilt'.symm.trans hbuilt)
  rw [hdid] at haccepts
  exact not_accepts settings _ _ _ haccepts

end ZeroAuth.Mobile
