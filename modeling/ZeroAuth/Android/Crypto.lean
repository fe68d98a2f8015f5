/-
  ZeroAuth.Android.Crypto

  The commitment derivation of android/.../sec/Crypto.kt, and its twins: the bridge's
  iot/src/crypto.ts and `registerIdentity` of src/services/identity.ts.

  All three call one SHA-256 and one Poseidon.  What differs is how an email and a DID
  become bytes: Kotlin's `trim` knows U+001C to U+001F as white space and not U+FEFF,
  its encoder writes a lone surrogate as `?`, and each language has a lower-case mapping
  of its own (`agree_iff`).
-/

import ZeroAuth.Android.Credential
import ZeroAuth.Iot.Accounts
import ZeroAuth.Lib.Trim

namespace ZeroAuth.Android

open ZeroAuth.Js ZeroAuth.Lib

/-- The hash functions that the programs share. -/
structure Hashes where
  sha256 : List UInt8 → List UInt8
  length_sha256 : ∀ m, (sha256 m).length = 32
  poseidon1 : ℕ → ℕ
  poseidon2 : ℕ → ℕ → ℕ

/-- The ones they call. -/
def Hashes.real : Hashes := ⟨Lib.sha256, Lib.length_sha256, Poseidon.hash1, Poseidon.hash2⟩

/-- What a derivation computes from a template, a salt, an email and a DID. -/
structure Signals where
  biometricId : List UInt8
  biometricIdField : ℕ
  salt : ℕ
  biometricSecret : ℕ
  commitment : ℕ
  did : JsString
  didHash : ℕ
  identityBinding : ℕ

/-- `s.trim()`. -/
def trim (s : JsString) : JsString := trimBy isWhitespace s

/-! ## The derivations -/

section

variable (H : Hashes) (kt cm : CaseMapping)

namespace Crypto

def fieldBytes : ℕ := 31

def toFieldElement (buf : List UInt8) : Except JsString ℕ :=
  if buf.length ≥ fieldBytes then .ok (bigInteger (buf.take fieldBytes))
  else .error (js "toFieldElement: buffer too short (" ++ numText 10 buf.length ++
    js " bytes; need ≥ " ++ numText 10 fieldBytes ++ js ")")

/-- With the bytes of the generator. -/
def randomSalt (buf : List UInt8) : Except JsString ℕ := toFieldElement buf

def sha256Utf8 (str : JsString) : List UInt8 := H.sha256 (toByteArray str)

def biometricId (templateBytes : List UInt8) : List UInt8 := H.sha256 templateBytes

def deriveBiometricSecret (biometricId : List UInt8) (salt : ℕ) : Except JsString ℕ := do
  return H.poseidon2 (← toFieldElement biometricId) salt

def computeCommitment (biometricSecret salt : ℕ) : ℕ := H.poseidon2 biometricSecret salt

/-- `kt` is the mapping of `lowercase(Locale.ROOT)`. -/
def deriveDid (email : JsString) : JsString :=
  let sha := sha256Utf8 H (kt.toLowerCase (trim email))
  js "did:zeroauth:demo:" ++ (hexBytes sha).take 32

def computeDidHash (did : JsString) : Except JsString ℕ := do
  return H.poseidon1 (← toFieldElement (sha256Utf8 H did))

def computeIdentityBinding (biometricSecret didHash : ℕ) : ℕ := H.poseidon2 biometricSecret didHash

/-- The steps on a template, the bytes of a salt, and a DID. -/
def signals (templateBytes saltBytes : List UInt8) (did : JsString) : Except JsString Signals := do
  let id := biometricId H templateBytes
  let field ← toFieldElement id
  let salt ← randomSalt saltBytes
  let secret ← deriveBiometricSecret H id salt
  let didHash ← computeDidHash H did
  return ⟨id, field, salt, secret, computeCommitment H secret salt, did, didHash,
    computeIdentityBinding H secret didHash⟩

/-- The order of `enrollNewAccount`. -/
def enrolled (templateBytes saltBytes : List UInt8) (email : JsString) : Except JsString Signals :=
  signals H templateBytes saltBytes (deriveDid H kt email)

end Crypto

namespace Bridge

/-- `toFieldElement` of crypto.ts. -/
def toFieldElement (buf : List UInt8) : Except JsString ℕ :=
  if buf.length < 31 then
    .error (js "toFieldElement: buffer too short (" ++ numText 10 buf.length ++ js ")")
  else .ok (Iot.bigIntOfBytes (buf.take 31))

def randomSalt (bytes : List UInt8) : Except JsString ℕ := toFieldElement bytes

def biometricId (templateBytes : List UInt8) : List UInt8 := H.sha256 templateBytes

def deriveBiometricSecret (biometricIDBuf : List UInt8) (salt : ℕ) : Except JsString ℕ := do
  return H.poseidon2 (← toFieldElement biometricIDBuf) salt

def computeCommitment (biometricSecret salt : ℕ) : ℕ := H.poseidon2 biometricSecret salt

/-- `cm` is the mapping of `toLowerCase()`. -/
def deriveDid (email : JsString) : JsString :=
  let suffix := (hexBytes (H.sha256 (utf8 (cm.toLowerCase (Js.trim email))))).take 32
  js "did:zeroauth:demo:" ++ suffix

def computeDidHash (did : JsString) : Except JsString ℕ := do
  return H.poseidon1 (← toFieldElement (H.sha256 (utf8 did)))

def computeIdentityBinding (biometricSecret didHash : ℕ) : ℕ := H.poseidon2 biometricSecret didHash

def signals (templateBytes saltBytes : List UInt8) (did : JsString) : Except JsString Signals := do
  let bid := biometricId H templateBytes
  let field ← toFieldElement bid
  let salt ← randomSalt saltBytes
  let biometricSecret ← deriveBiometricSecret H bid salt
  let didHash ← computeDidHash H did
  return ⟨bid, field, salt, biometricSecret, computeCommitment H biometricSecret salt, did, didHash,
    computeIdentityBinding H biometricSecret didHash⟩

/-- `deriveSignals`. -/
def deriveSignals (templateBytes saltBytes : List UInt8) (email : JsString) :
    Except JsString Signals :=
  signals H templateBytes saltBytes (deriveDid H cm email)

end Bridge

namespace Identity

/-- What `registerIdentity` returns. -/
structure Registered where
  did : JsString
  biometricIDHash : JsString
  commitment : JsString
  didHash : JsString
  biometricSecret : JsString
  salt : JsString
  txHash : JsString
  blockNumber : ℕ

/-- With the random bytes it draws, and what it has of the chain: nothing, a receipt, or
    the random bytes behind `offline-`. -/
def registerIdentity (biometricTemplate didBytes saltBytes : List UInt8)
    (chain : Option (Except (List UInt8) (JsString × ℕ))) : Registered :=
  let biometricID := H.sha256 biometricTemplate
  let did := js "did:zeroauth:base:" ++ hexBytes didBytes
  let salt := Iot.bigIntOfBytes saltBytes
  let biometricSecret := H.poseidon2 (Iot.bigIntOfBytes (biometricID.take 31)) salt
  let commitment := H.poseidon2 biometricSecret salt
  let didBuffer := H.sha256 (utf8 did)
  let didHash := H.poseidon1 (Iot.bigIntOfBytes (didBuffer.take 31))
  let (txHash, blockNumber) := match chain with
    | none => ([], 0)
    | some (.ok receipt) => receipt
    | some (.error bytes) => (js "offline-" ++ hexBytes bytes, 0)
  { did := did
    biometricIDHash := js "0x" ++ hexBytes biometricID
    commitment := numText 10 commitment
    didHash := numText 10 didHash
    biometricSecret := numText 10 biometricSecret
    salt := numText 10 salt
    txHash := txHash
    blockNumber := blockNumber }

end Identity

end

/-! ## Strings as bytes

  Both encoders go over the characters of a string; a lone surrogate becomes the
  character `r`. -/

def patch (r : CodeUnit) : JsString → JsString
  | [] => []
  | [u] => [if isSurrogate u then r else u]
  | h :: l :: s =>
      if isHigh h && isLow l then h :: l :: patch r s
      else (if isSurrogate h then r else h) :: patch r (l :: s)

theorem charUnits_byteChar (u : CodeUnit) :
    charUnits (byteChar u) = [if isSurrogate u then 63 else u] := by
  cases hu : isSurrogate u with
  | false => rw [byteChar_eq hu, charUnits_unitChar hu, if_neg (by decide)]
  | true =>
      rw [byteChar, hu, if_pos rfl, if_pos rfl]
      decide

theorem charUnits_unitChar_patch (u : CodeUnit) :
    charUnits (unitChar u) = [if isSurrogate u then 0xFFFD else u] := by
  cases hu : isSurrogate u with
  | false => rw [charUnits_unitChar hu, if_neg (by decide)]
  | true =>
      rw [unitChar, hu, if_pos rfl, if_pos rfl]
      decide

theorem flatMap_byteChars (s : JsString) : (byteChars s).flatMap charUnits = patch 63 s := by
  induction s using byteChars.induct with
  | case1 => rfl
  | case2 u =>
      rw [byteChars, patch, List.flatMap_singleton, charUnits_byteChar]
  | case3 h l s hp ih =>
      have hpair := hp
      rw [Bool.and_eq_true] at hpair
      rw [byteChars, if_pos hp, patch, if_pos hp, List.flatMap_cons, ih,
        charUnits_pairChar hpair.1 hpair.2]
      rfl
  | case4 h l s hp ih =>
      rw [byteChars, if_neg hp, patch, if_neg hp, List.flatMap_cons, ih, charUnits_byteChar]
      rfl

theorem flatMap_scalars_patch (s : JsString) :
    (scalars s).flatMap charUnits = patch 0xFFFD s := by
  induction s using scalars.induct with
  | case1 => rfl
  | case2 u =>
      rw [scalars, patch, List.flatMap_singleton, charUnits_unitChar_patch]
  | case3 h l s hp ih =>
      have hpair := hp
      rw [Bool.and_eq_true] at hpair
      rw [scalars, if_pos hp, patch, if_pos hp, List.flatMap_cons, ih,
        charUnits_pairChar hpair.1 hpair.2]
      rfl
  | case4 h l s hp ih =>
      rw [scalars, if_neg hp, patch, if_neg hp, List.flatMap_cons, ih, charUnits_unitChar_patch]
      rfl

/-- Equal bytes are equal characters. -/
theorem flatMap_utf8EncodeChar_inj {cs cs' : List Char}
    (h : cs.flatMap String.utf8EncodeChar = cs'.flatMap String.utf8EncodeChar) : cs = cs' := by
  have henc : cs.utf8Encode = cs'.utf8Encode := congrArg List.toByteArray h
  have hdec := congrArg ByteArray.utf8Decode? henc
  rw [List.utf8Decode?_utf8Encode, List.utf8Decode?_utf8Encode] at hdec
  exact Array.toList_inj.mpr (Option.some.inj hdec)

/-- Strings that the two encoders make the same bytes of. -/
theorem patch_eq_of_bytes {s s' : JsString} (h : toByteArray s = utf8 s') :
    patch 63 s = patch 0xFFFD s' := by
  rw [← flatMap_byteChars, ← flatMap_scalars_patch, flatMap_utf8EncodeChar_inj h]

section

variable {r u : CodeUnit}

/-- The first unit is kept, unless it is half of a character. -/
theorem head?_patch (hu : isSurrogate u = false) (hr : u ≠ r) (s : JsString) :
    (patch r s).head? = some u ↔ s.head? = some u := by
  have hkeep : ∀ v : CodeUnit, (if isSurrogate v then r else v) = u ↔ v = u := by
    intro v
    cases hv : isSurrogate v with
    | false => rw [if_neg (by decide)]
    | true =>
        rw [if_pos rfl]
        constructor
        · rintro rfl
          exact absurd rfl hr
        · rintro rfl
          rw [hv] at hu
          cases hu
  match s with
  | [] => rfl
  | [v] => rw [patch, List.head?_cons, List.head?_cons, Option.some_inj, Option.some_inj, hkeep]
  | v :: w :: s =>
      rw [patch]
      split
      · rfl
      · rw [List.head?_cons, List.head?_cons, Option.some_inj, Option.some_inj, hkeep]

theorem patch_ne_nil {s : JsString} (h : s ≠ []) : patch r s ≠ [] := by
  match s with
  | [] => exact absurd rfl h
  | [v] => exact List.cons_ne_nil _ _
  | v :: w :: s =>
      rw [patch]
      split
      · exact List.cons_ne_nil _ _
      · exact List.cons_ne_nil _ _

theorem getLast?_patch (hu : isSurrogate u = false) (hr : u ≠ r) (s : JsString) :
    (patch r s).getLast? = some u ↔ s.getLast? = some u := by
  have hcons : ∀ (v : CodeUnit) (t : JsString), t ≠ [] → (v :: t).getLast? = t.getLast? := by
    intro v t ht
    rw [List.getLast?_cons, List.getLast?_eq_some_getLast ht]
    rfl
  induction s using patch.induct with
  | case1 => rfl
  | case2 v => exact head?_patch hu hr [v]
  | case3 h l s hp ih =>
      rw [patch, if_pos hp]
      by_cases hs : s = []
      · rw [hs]
        rfl
      · have hne : patch r s ≠ [] := patch_ne_nil hs
        rw [hcons h _ (List.cons_ne_nil _ _), hcons l _ hne, hcons h _ (List.cons_ne_nil _ _),
          hcons l _ hs]
        exact ih
  | case4 h l s hp ih =>
      have hne : patch r (l :: s) ≠ [] := patch_ne_nil (List.cons_ne_nil _ _)
      rw [patch, if_neg hp, hcons _ _ hne, hcons h _ (List.cons_ne_nil _ _)]
      exact ih

end

/-- A lone surrogate has two different bytes. -/
theorem wellFormed_of_patch {s : JsString} (h : patch 63 s = patch 0xFFFD s) :
    WellFormed s = true := by
  have hunit : ∀ u : CodeUnit, (if isSurrogate u then (63 : CodeUnit) else u) =
      (if isSurrogate u then 0xFFFD else u) → isSurrogate u = false := by
    intro u hu
    cases hs : isSurrogate u with
    | false => rfl
    | true =>
        rw [hs, if_pos rfl, if_pos rfl] at hu
        exact absurd hu (by decide)
  induction s using patch.induct with
  | case1 => rfl
  | case2 u =>
      rw [patch, patch] at h
      rw [WellFormed, hunit u (List.cons.inj h).1]
      rfl
  | case3 a b s hp ih =>
      rw [patch, patch, if_pos hp, if_pos hp] at h
      rw [WellFormed, if_pos hp]
      exact ih (List.cons.inj (List.cons.inj h).2).2
  | case4 a b s hp ih =>
      rw [patch, patch, if_neg hp, if_neg hp] at h
      obtain ⟨hhead, htail⟩ := List.cons.inj h
      rw [WellFormed, if_neg hp, hunit a hhead, ih htail]
      rfl

/-- One string has one encoding exactly if it has no lone surrogate. -/
theorem bytes_eq_iff {s : JsString} : toByteArray s = utf8 s ↔ WellFormed s = true :=
  ⟨fun h => wellFormed_of_patch (patch_eq_of_bytes h), toByteArray_eq_utf8⟩

/-! ## White space -/

/-- Units that only one of the two languages trims: U+FEFF is white space in
    JavaScript, U+001C to U+001F are in Kotlin. -/
def isMark (u : CodeUnit) : Bool := u.val == 0xFEFF || (28 ≤ u.val && u.val ≤ 31)

/-- What both trim: the white space of JavaScript without U+FEFF. -/
def isCommonSpace (u : CodeUnit) : Bool := isWhiteSpace u && u.val != 0xFEFF

theorem isWhitespace_cases (u : CodeUnit) :
    (isWhitespace u = true ↔ isCommonSpace u = true ∨ (28 ≤ u.val ∧ u.val ≤ 31)) ∧
      (isWhiteSpace u = true ↔ isCommonSpace u = true ∨ u.val = 0xFEFF) := by
  have hcommon : isCommonSpace u = true ↔ isWhiteSpace u = true ∧ u.val ≠ 0xFEFF := by
    rw [isCommonSpace, Bool.and_eq_true, bne_iff_ne]
  have hspace : isWhiteSpace u = true ∨ u.val ≠ 0xFEFF := by
    rw [or_iff_not_imp_right, not_not]
    intro h
    rw [isWhiteSpace, Bool.or_eq_true, beq_iff_eq]
    exact .inr h
  refine ⟨?_, by tauto⟩
  rw [hcommon]
  simp only [isWhiteSpace, isWhitespace, Bool.and_eq_true, Bool.or_eq_true, decide_eq_true_eq,
    beq_iff_eq]
  omega

theorem isMark_iff {u : CodeUnit} : isMark u = true ↔ u.val = 0xFEFF ∨ (28 ≤ u.val ∧ u.val ≤ 31) := by
  simp only [isMark, Bool.or_eq_true, Bool.and_eq_true, decide_eq_true_eq, beq_iff_eq]

theorem isMark_facts {u : CodeUnit} (h : isMark u = true) :
    isSurrogate u = false ∧ u ≠ 63 ∧ u ≠ 0xFFFD := by
  have hu := isMark_iff.mp h
  refine ⟨?_, ?_, ?_⟩
  · simp only [isSurrogate, isHigh, isLow, Bool.or_eq_false_iff, Bool.and_eq_false_iff,
      decide_eq_false_iff_not]
    omega
  · rintro rfl
    revert hu
    decide
  · rintro rfl
    revert hu
    decide

/-- What a lower-case mapping does with what has no case: a lone surrogate stays one, and
    a mark and a question mark stay and are the lower case of nothing else. -/
structure Lower (cm : CaseMapping) : Prop where
  wellFormed : ∀ s, WellFormed (cm.toLowerCase s) = WellFormed s
  question : ∀ s, (cm.toLowerCase s).count 63 = s.count 63
  head : ∀ s u, isMark u = true → ((cm.toLowerCase s).head? = some u ↔ s.head? = some u)
  last : ∀ s u, isMark u = true → ((cm.toLowerCase s).getLast? = some u ↔ s.getLast? = some u)

/-- Without the white space that both languages know, the email neither begins nor ends
    with a mark. -/
structure Unmarked (email : JsString) : Prop where
  head : ∀ u ∈ (trimBy isCommonSpace email).head?, isMark u = false
  last : ∀ u ∈ (trimBy isCommonSpace email).getLast?, isMark u = false

section

variable {email : JsString}

theorem common_le (u : CodeUnit) (h : isCommonSpace u = true) :
    isWhitespace u = true ∧ isWhiteSpace u = true :=
  ⟨(isWhitespace_cases u).1.mpr (.inl h), (isWhitespace_cases u).2.mpr (.inl h)⟩

/-- Both languages trim such an email alike. -/
theorem trim_of_unmarked (h : Unmarked email) :
    trim email = trimBy isCommonSpace email ∧ Js.trim email = trimBy isCommonSpace email := by
  have hspared : ∀ u : CodeUnit, isCommonSpace u = false → isMark u = false →
      isWhitespace u = false ∧ isWhiteSpace u = false := by
    intro u hcommon hmark
    have hnot := mt isMark_iff.mpr (Bool.eq_false_iff.mp hmark)
    constructor
    · rw [Bool.eq_false_iff, ne_eq, (isWhitespace_cases u).1, hcommon]
      rintro (hc | hc)
      · cases hc
      · exact hnot (.inr hc)
    · rw [Bool.eq_false_iff, ne_eq, (isWhitespace_cases u).2, hcommon]
      rintro (hc | hc)
      · cases hc
      · exact hnot (.inl hc)
  have hhead := fun u hu => hspared u (head_trimBy u hu) (h.head u hu)
  have hlast := fun u hu => hspared u (last_trimBy u hu) (h.last u hu)
  constructor
  · exact trimBy_eq_of_ends (fun u hu => (common_le u hu).1) (fun u hu => (hhead u hu).1)
      fun u hu => (hlast u hu).1
  · exact trimBy_eq_of_ends (fun u hu => (common_le u hu).2) (fun u hu => (hhead u hu).2)
      fun u hu => (hlast u hu).2

/-- One end of a string, `f`: trimming leaves none of its own there and none that it
    spares is lost, and the mappings and the encoders keep the marks. -/
structure IsEnd (f : JsString → Option CodeUnit) : Prop where
  trimmed : ∀ (p : CodeUnit → Bool) s, ∀ u ∈ f (trimBy p s), p u = false
  spared : ∀ (p : CodeUnit → Bool), (∀ u, isCommonSpace u = true → p u = true) → ∀ s u,
    f (trimBy isCommonSpace s) = some u → p u = false → f (trimBy p s) = some u
  lower : ∀ {cm : CaseMapping}, Lower cm → ∀ s u, isMark u = true →
    (f (cm.toLowerCase s) = some u ↔ f s = some u)
  patch : ∀ r s u, isMark u = true → u ≠ r → (f (patch r s) = some u ↔ f s = some u)

theorem isEnd_head : IsEnd List.head? where
  trimmed _ _ := head_trimBy
  spared _ hp _ _ := head?_trimBy hp
  lower h := h.head
  patch _ s _ hu hr := head?_patch (isMark_facts hu).1 hr s

theorem isEnd_last : IsEnd List.getLast? where
  trimmed _ _ := last_trimBy
  spared _ hp _ _ := getLast?_trimBy hp
  lower h := h.last
  patch _ s _ hu hr := getLast?_patch (isMark_facts hu).1 hr s

variable {kt cm : CaseMapping}

/-- A mark at an end is trimmed by one language and hashed by the other. -/
theorem IsEnd.not_mark {f : JsString → Option CodeUnit} (hf : IsEnd f) (hkt : Lower kt)
    (hcm : Lower cm)
    (h : toByteArray (kt.toLowerCase (trim email)) = utf8 (cm.toLowerCase (Js.trim email))) :
    ∀ u ∈ f (trimBy isCommonSpace email), isMark u = false := by
  intro u hu
  by_contra hne
  have hmark : isMark u = true := by simpa using hne
  have hbytes := patch_eq_of_bytes h
  obtain ⟨-, h63, hfffd⟩ := isMark_facts hmark
  -- what the two strings show at this end
  have hsame : f (trim email) = some u ↔ f (Js.trim email) = some u := by
    rw [← hf.lower hkt (trim email) u hmark, ← hf.patch 63 _ u hmark h63, hbytes,
      hf.patch 0xFFFD _ u hmark hfffd, hf.lower hcm (Js.trim email) u hmark]
  have hcommon : isCommonSpace u = false := hf.trimmed _ _ u hu
  rcases isMark_iff.mp hmark with hbom | hsep
  · have hspared : isWhitespace u = false := by
      rw [Bool.eq_false_iff, ne_eq, (isWhitespace_cases u).1, hcommon]
      rintro (hc | hc)
      · cases hc
      · omega
    have hkept := hf.spared isWhitespace (fun v hv => (common_le v hv).1) email u hu hspared
    have hnot : isWhiteSpace u = false := hf.trimmed isWhiteSpace email u (hsame.mp hkept)
    rw [(isWhitespace_cases u).2.mpr (.inr hbom)] at hnot
    cases hnot
  · have hspared : isWhiteSpace u = false := by
      rw [Bool.eq_false_iff, ne_eq, (isWhitespace_cases u).2, hcommon]
      rintro (hc | hc)
      · cases hc
      · omega
    have hkept := hf.spared isWhiteSpace (fun v hv => (common_le v hv).2) email u hu hspared
    have hnot : isWhitespace u = false := hf.trimmed isWhitespace email u (hsame.mpr hkept)
    rw [(isWhitespace_cases u).1.mpr (.inr hsep)] at hnot
    cases hnot

/-- The encoder of JavaScript makes no question mark. -/
theorem count_patch_replacement (s : JsString) : (patch 0xFFFD s).count 63 = s.count 63 := by
  have hunit : ∀ u : CodeUnit, isSurrogate u = true → ¬ u = 63 := by
    rintro u hu rfl
    cases hu
  induction s using patch.induct with
  | case1 => rfl
  | case2 u => rw [patch]; split <;> simp_all
  | case3 h l s hp ih => rw [patch, if_pos hp]; simp [List.count_cons, ih]
  | case4 h l s hp ih => rw [patch, if_neg hp]; split <;> simp_all [List.count_cons]

/-- The encoder of Kotlin makes one of every lone surrogate. -/
theorem count_patch_question (s : JsString) :
    s.count 63 ≤ (patch 63 s).count 63 ∧
      ((patch 63 s).count 63 = s.count 63 → WellFormed s = true) := by
  -- a question mark is no surrogate, so each replacement adds one
  have hne : ∀ u : CodeUnit, isSurrogate u = true → u ≠ 63 := by
    rintro u hu rfl
    cases hu
  induction s using patch.induct with
  | case1 => exact ⟨le_rfl, fun _ => rfl⟩
  | case2 u =>
      rw [patch, WellFormed]
      cases hu : isSurrogate u with
      | false => exact ⟨le_rfl, fun _ => rfl⟩
      | true =>
          rw [if_pos rfl, List.count_singleton_self, List.count_singleton,
            if_neg (beq_iff_eq.not.mpr (hne u hu))]
          exact ⟨Nat.zero_le 1, fun h => absurd h (by decide)⟩
  | case3 h l s hp ih =>
      obtain ⟨hle, hwf⟩ := ih
      rw [patch, if_pos hp, WellFormed, if_pos hp]
      simp only [List.count_cons]
      exact ⟨by omega, fun heq => hwf (by omega)⟩
  | case4 h l s hp ih =>
      obtain ⟨hle, hwf⟩ := ih
      have hcount : (h :: l :: s).count 63 = (l :: s).count 63 + if h == 63 then 1 else 0 :=
        List.count_cons
      rw [patch, if_neg hp, WellFormed, if_neg hp, hcount]
      cases hh : isSurrogate h with
      | false =>
          rw [if_neg Bool.false_ne_true, @List.count_cons _ _ 63 h (patch 63 (l :: s))]
          exact ⟨by omega, fun heq => by rw [hwf (by omega)]; rfl⟩
      | true =>
          rw [if_pos rfl, if_neg (beq_iff_eq.not.mpr (hne h hh)), List.count_cons_self]
          exact ⟨by omega, fun heq => by omega⟩

/-- The mappings keep the question marks, so a lone surrogate cannot hide as one. -/
theorem wellFormed_of_lower (hkt : Lower kt) (hcm : Lower cm) {s : JsString}
    (h : toByteArray (kt.toLowerCase s) = utf8 (cm.toLowerCase s)) : WellFormed s = true := by
  have hcount := congrArg (List.count 63) (patch_eq_of_bytes h)
  rw [count_patch_replacement, hcm.question] at hcount
  rw [← hkt.wellFormed]
  exact (count_patch_question _).2 (hcount.trans (hkt.question s).symm)

/-- The bytes that are hashed for the DID of an email. -/
theorem email_bytes_iff (hkt : Lower kt) (hcm : Lower cm) :
    toByteArray (kt.toLowerCase (trim email)) = utf8 (cm.toLowerCase (Js.trim email)) ↔
      Unmarked email ∧ WellFormed (Js.trim email) = true ∧
        kt.toLowerCase (Js.trim email) = cm.toLowerCase (Js.trim email) := by
  constructor
  · intro h
    have hunmarked : Unmarked email :=
      ⟨isEnd_head.not_mark hkt hcm h, isEnd_last.not_mark hkt hcm h⟩
    obtain ⟨hkotlin, hjs⟩ := trim_of_unmarked hunmarked
    rw [hkotlin, ← hjs] at h
    have hwf := wellFormed_of_lower hkt hcm h
    have hktwf := (hkt.wellFormed _).trans hwf
    have hcmwf := (hcm.wellFormed _).trans hwf
    rw [toByteArray_eq_utf8 hktwf] at h
    exact ⟨hunmarked, hwf, utf8_injective_of_wellFormed hktwf hcmwf h⟩
  · rintro ⟨hunmarked, hwf, hsame⟩
    obtain ⟨hkotlin, hjs⟩ := trim_of_unmarked hunmarked
    rw [hkotlin, ← hjs, hsame, bytes_eq_iff, hcm.wellFormed]
    exact hwf

end

/-! ## The three derivations -/

/-- The phone, the bridge and the server derive the same: from a DID, from an email, and
    with the server's own DID. -/
structure Agree (H : Hashes) (kt cm : CaseMapping) (template saltBytes : List UInt8)
    (email did : JsString) : Prop where
  given : ∃ s, Crypto.signals H template saltBytes did = .ok s ∧
    Bridge.signals H template saltBytes did = .ok s
  enrolled : ∃ s, Crypto.enrolled H kt template saltBytes email = .ok s ∧
    Bridge.deriveSignals H cm template saltBytes email = .ok s
  server : ∀ didBytes chain, ∃ s,
    let r := Identity.registerIdentity H template didBytes saltBytes chain
    Crypto.signals H template saltBytes r.did = .ok s ∧
      Bridge.signals H template saltBytes r.did = .ok s ∧
      r.biometricSecret = numText 10 s.biometricSecret ∧ r.commitment = numText 10 s.commitment ∧
      r.didHash = numText 10 s.didHash ∧ r.salt = numText 10 s.salt

/-- The number of the first 31 bytes. -/
def fieldOf (buf : List UInt8) : ℕ := bigInteger (buf.take 31)

theorem toFieldElement_ok {buf : List UInt8} (h : 31 ≤ buf.length) :
    Crypto.toFieldElement buf = .ok (fieldOf buf) ∧ Bridge.toFieldElement buf = .ok (fieldOf buf) :=
  ⟨if_pos h, if_neg (by omega)⟩

section

variable (H : Hashes) (template : List UInt8) {saltBytes : List UInt8}

/-- The signals when `hashed` is hashed for the DID. -/
def signalsOf (H : Hashes) (template saltBytes hashed : List UInt8) (did : JsString) : Signals :=
  let secret := H.poseidon2 (fieldOf (H.sha256 template)) (fieldOf saltBytes)
  let didHash := H.poseidon1 (fieldOf (H.sha256 hashed))
  { biometricId := H.sha256 template
    biometricIdField := fieldOf (H.sha256 template)
    salt := fieldOf saltBytes
    biometricSecret := secret
    commitment := H.poseidon2 secret (fieldOf saltBytes)
    did := did
    didHash := didHash
    identityBinding := H.poseidon2 secret didHash }

theorem signals_eq (hsalt : saltBytes.length = 31) (did : JsString) :
    Crypto.signals H template saltBytes did =
        .ok (signalsOf H template saltBytes (toByteArray did) did) ∧
      Bridge.signals H template saltBytes did =
        .ok (signalsOf H template saltBytes (utf8 did) did) := by
  have hok {α β : Type} (a : α) (f : α → Except JsString β) : (Except.ok a >>= f) = f a := rfl
  have hdigest : ∀ m, 31 ≤ (H.sha256 m).length := by
    intro m
    rw [H.length_sha256]
    omega
  have hfield := fun m => toFieldElement_ok (hdigest m)
  have hs := @toFieldElement_ok saltBytes (by omega)
  constructor
  · rw [Crypto.signals, Crypto.biometricId, (hfield template).1, hok, Crypto.randomSalt, hs.1, hok,
      Crypto.deriveBiometricSecret, (hfield template).1, hok, Crypto.computeDidHash,
      Crypto.sha256Utf8, (hfield _).1]
    rfl
  · rw [Bridge.signals, Bridge.biometricId, (hfield template).2, hok, Bridge.randomSalt, hs.2, hok,
      Bridge.deriveBiometricSecret, (hfield template).2, hok, Bridge.computeDidHash, (hfield _).2]
    rfl

end

/-- The signals of an account of the bridge. -/
theorem deriveSignals_eq_accounts (cfg : Iot.BridgeConfig) {cm : CaseMapping}
    (hlower : cm.toLowerCase = cfg.toLowerCase) (template : List UInt8) {saltBytes : List UInt8}
    (hsalt : saltBytes.length = 31) (email : JsString) :
    ∃ s, Bridge.deriveSignals ⟨Lib.sha256, Lib.length_sha256, cfg.poseidon1, cfg.poseidon2⟩ cm
        template saltBytes email = .ok s ∧
      Iot.deriveSignals cfg template email s.salt =
        ⟨s.biometricSecret, s.salt, s.commitment, s.didHash, s.identityBinding, s.did⟩ := by
  refine ⟨_, (signals_eq _ template hsalt _).2, ?_⟩
  rw [Iot.deriveSignals, Iot.deriveDid, ← hlower]
  rfl

/-- A SHA-256 that tells one message from all others, with Poseidon functions that lose
    nothing. -/
def telling (x : List UInt8) : Hashes where
  sha256 m := if m = x then List.replicate 32 1 else List.replicate 32 0
  length_sha256 m := by
    split
    · rfl
    · rfl
  poseidon1 := id
  poseidon2 := Nat.add

theorem telling_inj {x y : List UInt8} (h : (hexBytes ((telling x).sha256 y)).take 32 =
    (hexBytes ((telling x).sha256 x)).take 32) : y = x := by
  by_contra hne
  have hx : (telling x).sha256 x = List.replicate 32 1 := if_pos rfl
  have hy : (telling x).sha256 y = List.replicate 32 0 := if_neg hne
  rw [hx, hy] at h
  revert h
  decide

theorem telling_field_inj {x y : List UInt8}
    (h : fieldOf ((telling x).sha256 y) = fieldOf ((telling x).sha256 x)) : y = x := by
  by_contra hne
  have hx : (telling x).sha256 x = List.replicate 32 1 := if_pos rfl
  have hy : (telling x).sha256 y = List.replicate 32 0 := if_neg hne
  rw [hx, hy] at h
  revert h
  decide

/-- A DID of ASCII characters has one encoding. -/
theorem wellFormed_registered (H : Hashes) (template didBytes saltBytes : List UInt8)
    (chain : Option (Except (List UInt8) (JsString × ℕ))) :
    WellFormed (Identity.registerIdentity H template didBytes saltBytes chain).did = true := by
  have hhead : IsAscii (js "did:zeroauth:base:") := by decide
  exact (hhead.append (hexText_hexBytes didBytes).isAscii).wellFormed

theorem wellFormed_deriveDid (H : Hashes) (cm : CaseMapping) (email : JsString) :
    WellFormed (Bridge.deriveDid H cm email) = true := by
  have hhead : IsAscii (js "did:zeroauth:demo:") := by decide
  refine (hhead.append fun u hu => ?_).wellFormed
  exact (hexText_hexBytes _).isAscii u (List.mem_of_mem_take hu)

section

variable {kt cm : CaseMapping} {email did : JsString}

theorem deriveDid_eq (hbytes : toByteArray (kt.toLowerCase (trim email)) =
    utf8 (cm.toLowerCase (Js.trim email))) (H : Hashes) :
    Crypto.deriveDid H kt email = Bridge.deriveDid H cm email := by
  rw [Crypto.deriveDid, Crypto.sha256Utf8, hbytes]
  rfl

/-- Where the bytes agree, so does everything. -/
theorem agree_of_bytes (H : Hashes) (template : List UInt8) {saltBytes : List UInt8}
    (hsalt : saltBytes.length = 31)
    (hemail : toByteArray (kt.toLowerCase (trim email)) = utf8 (cm.toLowerCase (Js.trim email)))
    (hdid : toByteArray did = utf8 did) : Agree H kt cm template saltBytes email did where
  given := by
    obtain ⟨hkotlin, hjs⟩ := signals_eq H template hsalt did
    rw [hdid] at hkotlin
    exact ⟨_, hkotlin, hjs⟩
  enrolled := by
    rw [Crypto.enrolled, deriveDid_eq hemail H, Bridge.deriveSignals]
    obtain ⟨hkotlin, hjs⟩ := signals_eq H template hsalt (Bridge.deriveDid H cm email)
    rw [toByteArray_eq_utf8 (wellFormed_deriveDid H cm email)] at hkotlin
    exact ⟨_, hkotlin, hjs⟩
  server := by
    intro didBytes chain
    have hwf := wellFormed_registered H template didBytes saltBytes chain
    obtain ⟨hkotlin, hjs⟩ := signals_eq H template hsalt
      (Identity.registerIdentity H template didBytes saltBytes chain).did
    rw [toByteArray_eq_utf8 hwf] at hkotlin
    have htake : saltBytes.take 31 = saltBytes := List.take_of_length_le (by omega)
    refine ⟨_, hkotlin, hjs, ?_, ?_, rfl, ?_⟩
    · simp only [Identity.registerIdentity, signalsOf, fieldOf, htake]
      rfl
    · simp only [Identity.registerIdentity, signalsOf, fieldOf, htake]
      rfl
    · simp only [Identity.registerIdentity, signalsOf, fieldOf, htake]
      rfl

/-- The derivations agree, whatever the hash functions, exactly for the emails that have
    no mark at an end and no lone surrogate and that the two languages write in the same
    small letters, and the DIDs without a lone surrogate. -/
theorem agree_iff (hkt : Lower kt) (hcm : Lower cm) (template : List UInt8)
    {saltBytes : List UInt8} (hsalt : saltBytes.length = 31) :
    (∀ H, Agree H kt cm template saltBytes email did) ↔
      (Unmarked email ∧ WellFormed (Js.trim email) = true ∧
        kt.toLowerCase (Js.trim email) = cm.toLowerCase (Js.trim email)) ∧
      WellFormed did = true := by
  rw [← email_bytes_iff hkt hcm, ← bytes_eq_iff]
  constructor
  · intro h
    constructor
    · obtain ⟨s, hkotlin, hjs⟩ := (h (telling (utf8 (cm.toLowerCase (Js.trim email))))).enrolled
      rw [Crypto.enrolled, (signals_eq _ template hsalt _).1] at hkotlin
      rw [Bridge.deriveSignals, (signals_eq _ template hsalt _).2] at hjs
      have hdids := congrArg Signals.did (Except.ok.inj (hkotlin.trans hjs.symm))
      exact telling_inj (List.append_cancel_left hdids)
    · obtain ⟨s, hkotlin, hjs⟩ := (h (telling (utf8 did))).given
      rw [(signals_eq _ template hsalt did).1] at hkotlin
      rw [(signals_eq _ template hsalt did).2] at hjs
      have hhashes := congrArg Signals.didHash (Except.ok.inj (hkotlin.trans hjs.symm))
      exact telling_field_inj hhashes
  · rintro ⟨hemail, hdid⟩ H
    exact agree_of_bytes H template hsalt hemail hdid

end

/-! ## Samples -/

theorem add_thirtyTwo_val {u : CodeUnit} (h : u.val < 0x100) : (u + 32).val = u.val + 32 := by
  rw [Fin.val_add]
  change (u.val + 32) % 0x10000 = _
  omega

/-- A mapping that replaces units one by one, none of them half of a character, a mark or
    a question mark. -/
structure Unitwise (f : CodeUnit → CodeUnit) : Prop where
  high : ∀ u, isHigh (f u) = isHigh u
  low : ∀ u, isLow (f u) = isLow u
  mark : ∀ u v, isMark u = true ∨ u = 63 → (f v = u ↔ v = u)

theorem Unitwise.lower {f : CodeUnit → CodeUnit} (h : Unitwise f) {cm : CaseMapping}
    (hcm : ∀ s, cm.toLowerCase s = s.map f) : Lower cm := by
  -- the mapping keeps the units that the encoders look at
  have hsurrogate : ∀ u, isSurrogate (f u) = isSurrogate u := by
    intro u
    rw [isSurrogate, isSurrogate, h.high, h.low]
  have hend : ∀ (o : Option CodeUnit) (u : CodeUnit), isMark u = true →
      (o.map f = some u ↔ o = some u) := by
    intro o u hu
    cases o with
    | none => rfl
    | some v => rw [Option.map_some, Option.some_inj, Option.some_inj, h.mark u v (.inl hu)]
  refine ⟨fun s => ?_, fun s => ?_, fun s u hu => ?_, fun s u hu => ?_⟩
  · rw [hcm]
    induction s using scalars.induct with
    | case1 => rfl
    | case2 u => rw [List.map_singleton, WellFormed, WellFormed, hsurrogate]
    | case3 a b s hp ih =>
        have hp' : (isHigh (f a) && isLow (f b)) = true := by rw [h.high, h.low, hp]
        rw [List.map_cons, List.map_cons, WellFormed, if_pos hp', WellFormed, if_pos hp, ih]
    | case4 a b s hp ih =>
        have hp' : ¬(isHigh (f a) && isLow (f b)) = true := by rwa [h.high, h.low]
        rw [List.map_cons] at ih
        rw [List.map_cons, List.map_cons, WellFormed, if_neg hp', WellFormed, if_neg hp, ih,
          hsurrogate]
  · rw [hcm]
    induction s with
    | nil => rfl
    | cons u s ih =>
        rw [List.map_cons, List.count_cons, List.count_cons, ih]
        simp only [beq_iff_eq, h.mark 63 u (.inr rfl)]
  · rw [hcm, List.head?_map, hend _ u hu]
  · rw [hcm, List.getLast?_map, hend _ u hu]

/-- Letters of a range that is added an offset to, which are neither halves of characters
    nor marks before or after. -/
theorem unitwise_of_shift {f : CodeUnit → CodeUnit} {p : CodeUnit → Prop}
    (hshift : ∀ u, p u → 64 < u.val ∧ u.val < 0x100 ∧ (f u).val = u.val + 32)
    (hkeep : ∀ u, ¬ p u → f u = u) : Unitwise f := by
  have hbelow : ∀ u : CodeUnit, u.val < 0xD800 → isHigh u = false ∧ isLow u = false :=
    fun u hu => Bool.or_eq_false_iff.mp (isSurrogate_eq_false_of_lt hu)
  have hclass : ∀ u, isHigh (f u) = isHigh u ∧ isLow (f u) = isLow u := by
    intro u
    by_cases hp : p u
    · obtain ⟨-, hlt, hval⟩ := hshift u hp
      obtain ⟨h₁, h₂⟩ := hbelow u (by omega)
      obtain ⟨h₁', h₂'⟩ := hbelow (f u) (by omega)
      rw [h₁, h₂, h₁', h₂']
      exact ⟨rfl, rfl⟩
    · rw [hkeep u hp]
      exact ⟨rfl, rfl⟩
  refine ⟨fun u => (hclass u).1, fun u => (hclass u).2, fun u v hu => ?_⟩
  have hval : u.val = 0xFEFF ∨ (28 ≤ u.val ∧ u.val ≤ 31) ∨ u.val = 63 := by
    rcases hu with hu | rfl
    · rcases isMark_iff.mp hu with h | h
      · exact .inl h
      · exact .inr (.inl h)
    · exact .inr (.inr rfl)
  by_cases hp : p v
  · -- neither the letter nor its small form is one of these
    obtain ⟨hgt, hlt, hf⟩ := hshift v hp
    rw [Fin.ext_iff, Fin.ext_iff, hf]
    omega
  · rw [hkeep v hp]

/-- The letters of ASCII. -/
theorem unitwise_asciiLower : Unitwise asciiLower := by
  refine unitwise_of_shift (p := fun u => 0x41 ≤ u.val ∧ u.val ≤ 0x5A) (fun u hu => ?_)
    fun u hu => if_neg hu
  rw [asciiLower, if_pos hu, add_thirtyTwo_val (by omega)]
  omega

/-- The capitals of Latin-1: those of ASCII, and U+00C0 to U+00DE without the sign U+00D7. -/
def isLatinCapital (u : CodeUnit) : Bool :=
  (0x41 ≤ u.val && u.val ≤ 0x5A) || (0xC0 ≤ u.val && u.val ≤ 0xDE && u.val != 0xD7)

def latinLower (u : CodeUnit) : CodeUnit := if isLatinCapital u then u + 0x20 else u

theorem isLatinCapital_iff {u : CodeUnit} : isLatinCapital u = true ↔
    (0x41 ≤ u.val ∧ u.val ≤ 0x5A) ∨ (0xC0 ≤ u.val ∧ u.val ≤ 0xDE ∧ u.val ≠ 0xD7) := by
  simp only [isLatinCapital, Bool.or_eq_true, Bool.and_eq_true, decide_eq_true_eq, bne_iff_ne,
    and_assoc]

theorem unitwise_latinLower : Unitwise latinLower := by
  refine unitwise_of_shift (p := fun u => isLatinCapital u = true) (fun u hu => ?_)
    fun u hu => if_neg hu
  have hval := isLatinCapital_iff.mp hu
  rw [latinLower, if_pos hu, add_thirtyTwo_val (by omega)]
  omega

theorem latinLower_ascii (s : JsString) (hs : IsAscii s) :
    s.map latinLower = s.map asciiLower := by
  refine List.map_congr_left fun u hu => ?_
  have hascii := hs u hu
  rw [latinLower, asciiLower]
  refine if_congr ?_ rfl rfl
  rw [isLatinCapital_iff]
  omega

/-- A mapping that knows the letters of Latin-1. -/
def latin : CaseMapping :=
  ⟨List.map latinLower, List.map asciiUpper, latinLower_ascii, CaseMapping.ascii.upper_ascii⟩

theorem lower_ascii : Lower .ascii := unitwise_asciiLower.lower fun _ => rfl

theorem lower_latin : Lower latin := unitwise_latinLower.lower fun _ => rfl

/-- An email in blanks and capitals, and one with a letter that only one of the mappings
    knows. -/
theorem agree_of_blanks :
    (∀ H, Agree H .ascii latin [1, 2, 3] (List.replicate 31 255)
      (js " Ann@Example.org\n") (js "did:zeroauth:demo:00")) ∧
    ¬ ∀ H, Agree H .ascii latin [1, 2, 3] (List.replicate 31 255)
      (0xC9 :: js "va@example.org") (js "did:zeroauth:demo:00") := by
  have hsalt : (List.replicate 31 (255 : UInt8)).length = 31 := List.length_replicate
  have hends : (trimBy isCommonSpace (js " Ann@Example.org\n")).head? = some 65 ∧
      (trimBy isCommonSpace (js " Ann@Example.org\n")).getLast? = some 103 := by
    decide +kernel
  constructor
  · refine (agree_iff lower_ascii lower_latin [1, 2, 3] hsalt).mpr ⟨⟨⟨?_, ?_⟩, ?_, ?_⟩, ?_⟩
    · rw [hends.1]
      rintro u ⟨⟩
      rfl
    · rw [hends.2]
      rintro u ⟨⟩
      rfl
    · decide +kernel
    · decide +kernel
    · decide +kernel
  · rw [agree_iff lower_ascii lower_latin [1, 2, 3] hsalt]
    rintro ⟨⟨-, -, hsame⟩, -⟩
    revert hsame
    decide +kernel

/-- A byte order mark in front of an email: the bridge trims it, the phone hashes it. -/
theorem byteOrderMark_disagrees : ¬ ∀ (H : Hashes) (kt cm : CaseMapping), Lower kt → Lower cm →
    ∀ (template saltBytes : List UInt8) (email did : JsString), saltBytes.length = 31 →
      Agree H kt cm template saltBytes email did := by
  intro h
  have hsalt : (List.replicate 31 (0 : UInt8)).length = 31 := List.length_replicate
  obtain ⟨s, hkotlin, hjs⟩ :=
    (h .real .ascii .ascii lower_ascii lower_ascii [] (List.replicate 31 0) (0xFEFF :: js "ann@example.org") [] hsalt).enrolled
  rw [Crypto.enrolled, (signals_eq _ [] hsalt _).1] at hkotlin
  rw [Bridge.deriveSignals, (signals_eq _ [] hsalt _).2] at hjs
  have hdids := congrArg Signals.did (Except.ok.inj (hkotlin.trans hjs.symm))
  have hhashes : (hexBytes (Lib.sha256 (toByteArray (List.map asciiLower
        (trim (0xFEFF :: js "ann@example.org")))))).take 32 =
      (hexBytes (Lib.sha256 (utf8 (List.map asciiLower
        (Js.trim (0xFEFF :: js "ann@example.org")))))).take 32 := List.append_cancel_left hdids
  rw [sha256_eq_flat, sha256_eq_flat] at hhashes
  revert hhashes
  decide

end ZeroAuth.Android
