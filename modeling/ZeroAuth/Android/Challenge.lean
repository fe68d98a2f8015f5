/-
  ZeroAuth.Android.Challenge

  The challenge QR: `parseChallenge` of QrPayload.kt reads what
  `buildQrPayload` of src/services/proof-pairing.ts writes.

  `parseChallenge` checks the length of the nonce but not its digits.  A text
  that carries the right tag is accepted with any 62 characters in that field
  (`challenge_read_back`).
-/

import ZeroAuth.Android.Text
import ZeroAuth.Pairing.Session

namespace ZeroAuth.Android

open ZeroAuth.Lib ZeroAuth.Js ZeroAuth.Pairing

def challengePrefix : JsString := js "za:pair:1:"

structure QrParseException where
  code : JsString
  message : JsString

structure DesktopChallenge where
  sessionId : JsString
  nonceHex : JsString
  tenantDomain : JsString
  integrityTag : JsString

/-- The first two bytes of the digest, in hex. -/
def DesktopChallenge.computedTag (c : DesktopChallenge) : JsString :=
  let canonical := c.sessionId ++ js "|" ++ c.nonceHex ++ js "|" ++ c.tenantDomain
  hexBytes ((sha256 (toByteArray canonical)).take 2)

def DesktopChallenge.verifyIntegrityTag (c : DesktopChallenge) : Bool :=
  equalsIgnoreCase c.computedTag c.integrityTag

/-- The checks on the four segments. -/
def checkChallenge (challenge : DesktopChallenge) : Except QrParseException DesktopChallenge :=
  if challenge.nonceHex.length ≠ 62 then
    .error ⟨js "qr_parse_failed", js "Nonce must be 62 hex chars (31 bytes); got " ++
      numText 10 challenge.nonceHex.length⟩
  else if challenge.integrityTag.length ≠ 4 then
    .error ⟨js "qr_parse_failed", js "Integrity tag must be 4 hex chars; got " ++
      numText 10 challenge.integrityTag.length⟩
  else if challenge.verifyIntegrityTag = false then
    .error ⟨js "qr_integrity_mismatch",
      js "Integrity tag does not match — check for a typo in the pasted code."⟩
  else .ok challenge

def parseChallenge (text : JsString) : Except QrParseException DesktopChallenge :=
  if challengePrefix.isPrefixOf text = false then
    .error ⟨js "qr_parse_failed", js "Missing za:pair:1: prefix"⟩
  else
    let parts := (text.drop challengePrefix.length).splitOn 58
    match parts with
    | [sessionId, nonceHex, tenantDomain, integrityTag] =>
        checkChallenge ⟨sessionId, nonceHex, tenantDomain, integrityTag⟩
    | _ => .error ⟨js "qr_parse_failed",
        js "Expected 4 colon-separated segments, got " ++ numText 10 parts.length⟩

/-! ## What is accepted -/

/-- `za:pair:1:` and the four segments, separated by colons. -/
def DesktopChallenge.text (c : DesktopChallenge) : JsString :=
  challengePrefix ++ c.sessionId ++ 58 :: c.nonceHex ++ 58 :: c.tenantDomain ++ 58 :: c.integrityTag

/-- No segment contains a colon. -/
structure DesktopChallenge.Separated (c : DesktopChallenge) : Prop where
  sessionId : (58 : CodeUnit) ∉ c.sessionId
  nonceHex : (58 : CodeUnit) ∉ c.nonceHex
  tenantDomain : (58 : CodeUnit) ∉ c.tenantDomain
  integrityTag : (58 : CodeUnit) ∉ c.integrityTag

/-- A 62-character nonce and the right tag. -/
structure DesktopChallenge.Tagged (c : DesktopChallenge) : Prop where
  nonceLength : c.nonceHex.length = 62
  tagLength : c.integrityTag.length = 4
  tag : c.verifyIntegrityTag = true

theorem checkChallenge_eq_ok {c c' : DesktopChallenge} :
    checkChallenge c = .ok c' ↔ c' = c ∧ c.Tagged := by
  unfold checkChallenge
  constructor
  · intro h
    split at h
    · cases h
    · next hnonce =>
        split at h
        · cases h
        · next htag =>
            split at h
            · cases h
            · next hverify =>
                cases h
                exact ⟨rfl, not_not.mp hnonce, not_not.mp htag, by simpa using hverify⟩
  · rintro ⟨rfl, hnonce, htag, hverify⟩
    rw [if_neg (by simp [hnonce]), if_neg (by simp [htag]), if_neg (by simp [hverify])]

theorem not_mem_of_mem_splitOn {x : CodeUnit} {s : JsString} :
    ∀ l ∈ s.splitOn x, x ∉ l := by
  induction s with
  | nil => simp [List.splitOn_nil]
  | cons u s ih =>
      rw [List.splitOn_cons_eq_if_modifyHead]
      split
      · intro l hl
        rcases List.mem_cons.mp hl with rfl | hl
        · simp
        · exact ih l hl
      · next hne =>
          have hux : x ≠ u := fun h => hne (by simp [h])
          cases hsplit : s.splitOn x with
          | nil => simp
          | cons p ps =>
              rw [hsplit] at ih
              intro l hl
              rcases List.mem_cons.mp hl with rfl | hl
              · exact List.not_mem_cons_of_ne_of_not_mem hux (ih p (by simp))
              · exact ih l (by simp [hl])

theorem splitOn_segments {c : DesktopChallenge} (h : c.Separated) :
    (c.sessionId ++ 58 :: c.nonceHex ++ 58 :: c.tenantDomain ++ 58 :: c.integrityTag).splitOn 58 =
      [c.sessionId, c.nonceHex, c.tenantDomain, c.integrityTag] := by
  simp only [List.append_assoc, List.cons_append]
  rw [List.splitOn_append_cons_self_of_not_mem h.sessionId,
    List.splitOn_append_cons_self_of_not_mem h.nonceHex,
    List.splitOn_append_cons_self_of_not_mem h.tenantDomain,
    List.splitOn_eq_singleton h.integrityTag]

/-- Exactly the tagged texts of four segments are accepted. -/
theorem parseChallenge_eq_ok {text : JsString} {c : DesktopChallenge} :
    parseChallenge text = .ok c ↔ text = c.text ∧ c.Separated ∧ c.Tagged := by
  constructor
  · intro h
    unfold parseChallenge at h
    split at h
    · cases h
    · next hpre =>
        have hpre : challengePrefix <+: text := by
          rw [← List.isPrefixOf_iff_prefix]
          simpa using hpre
        obtain ⟨rest, rfl⟩ := hpre
        rw [List.drop_left] at h
        dsimp only at h
        split at h
        · next sessionId nonceHex tenantDomain integrityTag hsplit =>
            obtain ⟨rfl, htagged⟩ := checkChallenge_eq_ok.mp h
            have hrest : [58].intercalate (rest.splitOn 58) = rest := List.intercalate_splitOn _
            have hnone := not_mem_of_mem_splitOn (x := 58) (s := rest)
            rw [hsplit] at hrest hnone
            refine ⟨?_, ⟨hnone _ (by simp), hnone _ (by simp), hnone _ (by simp),
              hnone _ (by simp)⟩, htagged⟩
            rw [← hrest]
            simp [DesktopChallenge.text, List.intercalate_cons_cons]
        · cases h
  · rintro ⟨rfl, hsep, htagged⟩
    have hpre : challengePrefix.isPrefixOf c.text = true := by
      rw [List.isPrefixOf_iff_prefix]
      exact ⟨_, by rw [DesktopChallenge.text, List.append_assoc, List.append_assoc, List.append_assoc]⟩
    have hdrop : c.text.drop challengePrefix.length = c.sessionId ++ 58 :: c.nonceHex ++
        58 :: c.tenantDomain ++ 58 :: c.integrityTag := by
      simp [DesktopChallenge.text]
    unfold parseChallenge
    rw [if_neg (by simp [hpre]), hdrop, splitOn_segments hsep]
    exact checkChallenge_eq_ok.mpr ⟨rfl, htagged⟩

/-! ## What the server writes -/

/-- The challenge in a QR code of the server. -/
def issuedChallenge (sessionId nonceHex tenantDomain : JsString) : DesktopChallenge :=
  { sessionId := sessionId
    nonceHex := nonceHex
    tenantDomain := tenantDomain
    integrityTag := (sha256Hex (sessionId ++ js "|" ++ nonceHex ++ js "|" ++ tenantDomain)).take 4 }

theorem buildQrPayload_eq_text (sessionId nonceHex tenantDomain : JsString) :
    buildQrPayload sessionId nonceHex tenantDomain =
      (issuedChallenge sessionId nonceHex tenantDomain).text := by
  have hcolon : js ":" = [58] := rfl
  simp [buildQrPayload, DesktopChallenge.text, issuedChallenge, challengePrefix, hcolon]

theorem take_hexBytes (bs : List UInt8) : (hexBytes bs).take 4 = hexBytes (bs.take 2) := by
  match bs with
  | [] => rfl
  | [_] => rfl
  | _ :: _ :: _ => rfl

/-- The phone computes the tag that the server wrote. -/
theorem computedTag_issuedChallenge {sessionId nonceHex tenantDomain : JsString}
    (h : WellFormed (sessionId ++ js "|" ++ nonceHex ++ js "|" ++ tenantDomain) = true) :
    (issuedChallenge sessionId nonceHex tenantDomain).computedTag =
      (issuedChallenge sessionId nonceHex tenantDomain).integrityTag := by
  have hbytes := toByteArray_eq_utf8 h
  rw [DesktopChallenge.computedTag, issuedChallenge, sha256Hex, take_hexBytes, hbytes]

theorem length_integrityTag (sessionId nonceHex tenantDomain : JsString) :
    (issuedChallenge sessionId nonceHex tenantDomain).integrityTag.length = 4 := by
  have hlength : ∀ bs : List UInt8, (hexBytes bs).length = 2 * bs.length := by
    intro bs
    induction bs with
    | nil => rfl
    | cons b bs ih =>
        rw [hexBytes, List.flatMap_cons, List.length_append, List.length_cons, ← hexBytes, ih]
        simp only [List.length_cons, List.length_nil]
        omega
  rw [issuedChallenge, List.length_take, sha256Hex, hlength, length_sha256]
  rfl

/-- The phone reads a code of the server whose parts contain no colon. -/
theorem parseChallenge_buildQrPayload {sessionId nonceHex tenantDomain : JsString}
    (hid : (58 : CodeUnit) ∉ sessionId) (hnonce : (58 : CodeUnit) ∉ nonceHex)
    (hdomain : (58 : CodeUnit) ∉ tenantDomain) (hlength : nonceHex.length = 62)
    (hw : WellFormed (sessionId ++ js "|" ++ nonceHex ++ js "|" ++ tenantDomain) = true) :
    parseChallenge (buildQrPayload sessionId nonceHex tenantDomain) =
      .ok (issuedChallenge sessionId nonceHex tenantDomain) := by
  rw [buildQrPayload_eq_text, parseChallenge_eq_ok]
  have htag : (58 : CodeUnit) ∉ (issuedChallenge sessionId nonceHex tenantDomain).integrityTag := by
    intro hmem
    obtain ⟨d, hd, heq⟩ := mem_hexBytes (List.mem_of_mem_take hmem)
    have hall : ∀ d < 16, (58 : CodeUnit) ≠ digitUnit d := by decide
    exact hall d hd heq
  refine ⟨rfl, ⟨hid, hnonce, hdomain, htag⟩, hlength, length_integrityTag _ _ _, ?_⟩
  rw [DesktopChallenge.verifyIntegrityTag, computedTag_issuedChallenge hw]
  exact equalsIgnoreCase_self _

/-! ## Both directions -/

/-- Hex digits of either case and hyphens, as in every UUID. -/
def UuidUnits (s : JsString) : Prop := ∀ u ∈ s, u = 45 ∨ (digitIn 16 u).isSome = true

instance (s : JsString) : Decidable (UuidUnits s) :=
  decidable_of_iff ((s.all fun u => u == 45 || (digitIn 16 u).isSome) = true) (by simp [UuidUnits])

theorem UuidUnits.isAscii {s : JsString} (h : UuidUnits s) : IsAscii s := by
  intro u hu
  rcases h u hu with rfl | hd
  · decide
  · have hval := val_of_digitIn hd
    omega

theorem UuidUnits.colon_not_mem {s : JsString} (h : UuidUnits s) : (58 : CodeUnit) ∉ s := by
  intro hmem
  rcases h 58 hmem with heq | hd
  · exact absurd heq (by decide)
  · exact (val_of_digitIn hd).2.2 rfl

theorem uuidUnits_of_isNonceHex {s : JsString} (h : isNonceHex s = true) :
    s.length = 62 ∧ UuidUnits s := by
  simp only [isNonceHex, Bool.and_eq_true, beq_iff_eq, List.all_eq_true] at h
  exact ⟨h.1, fun u hu => .inr (h.2 u hu)⟩

theorem exists_readDigits {s : JsString} (hne : s ≠ [])
    (h : ∀ u ∈ s, (digitIn 16 u).isSome = true) : ∃ n, readDigits 16 s = some n := by
  have hall : ∃ ds, s.mapM (digitIn 16) = some ds := by
    clear hne
    induction s with
    | nil => exact ⟨[], rfl⟩
    | cons u s ih =>
        obtain ⟨d, hd⟩ := Option.isSome_iff_exists.mp (h u (by simp))
        obtain ⟨ds, hds⟩ := ih fun v hv => h v (by simp [hv])
        exact ⟨d :: ds, by rw [List.mapM_cons, hd, hds]; rfl⟩
  obtain ⟨ds, hds⟩ := hall
  exact ⟨_, by rw [readDigits, if_neg hne, hds, Option.map_some]⟩

theorem hexDigits_of_isNonceHex {s : JsString} (h : isNonceHex s = true) :
    s.length = 62 ∧ ∀ u ∈ s, (digitIn 16 u).isSome = true := by
  simpa only [isNonceHex, Bool.and_eq_true, beq_iff_eq, List.all_eq_true] using h

/-- `BigInt` reads a nonce as `BigInteger(nonceHex, 16)` does. -/
theorem nonceHexToField_eq {s : JsString} (h : isNonceHex s = true) {n : ℕ}
    (hn : readDigits 16 s = some n) : nonceHexToField s = .ok n := by
  have hspace : ∀ u ∈ js "0x" ++ s, isWhiteSpace u = false := by
    intro u hu
    rcases List.mem_append.mp hu with hu | hu
    · have hall : ((js "0x").all fun u => !isWhiteSpace u) = true := rfl
      simpa using List.all_eq_true.mp hall u hu
    · have hval := val_of_digitIn ((hexDigits_of_isNonceHex h).2 u hu)
      simp only [isWhiteSpace, Bool.or_eq_false_iff, Bool.and_eq_false_iff,
        decide_eq_false_iff_not, beq_eq_false_iff_ne]
      omega
  have hx : js "0x" = [48, 120] := by decide
  rw [nonceHexToField, if_pos h, bigIntOf, trim_of_forall hspace, hx]
  simp [hn]

/-- `nonceHexToField` accepts exactly the nonces of 62 hex digits. -/
theorem exists_nonceHexToField {s : JsString} :
    (∃ field, nonceHexToField s = .ok field) ↔ isNonceHex s = true := by
  constructor
  · rintro ⟨field, h⟩
    by_contra hne
    rw [nonceHexToField, if_neg hne] at h
    cases h
  · intro h
    obtain ⟨hlength, hdigits⟩ := hexDigits_of_isNonceHex h
    obtain ⟨n, hn⟩ := exists_readDigits (List.ne_nil_of_length_pos (by omega)) hdigits
    exact ⟨n, nonceHexToField_eq h hn⟩

/-- What an accepted challenge ought to be. -/
structure WellFormedChallenge (text : JsString) (c : DesktopChallenge) : Prop where
  text_eq : text = c.text
  separated : c.Separated
  nonce : isNonceHex c.nonceHex = true
  tagLength : c.integrityTag.length = 4
  tag : equalsIgnoreCase c.computedTag c.integrityTag = true
  field : ∃ field, nonceHexToField c.nonceHex = .ok field

/-- The text of a tagged challenge with 62 characters for a nonce that are not
    all hex digits. -/
def MalformedNonce (text : JsString) : Prop :=
  ∃ c : DesktopChallenge, text = c.text ∧ c.Separated ∧ c.Tagged ∧ isNonceHex c.nonceHex = false

/-- The phone reads back what the server writes, and what it accepts is a
    well-formed challenge for every text but those of a tagged challenge with a
    malformed nonce. -/
theorem challenge_read_back (sessionId nonceHex tenantDomain text : JsString) :
    (UuidUnits sessionId → isNonceHex nonceHex = true → WellFormed tenantDomain = true →
      (58 : CodeUnit) ∉ tenantDomain →
        ∃ tag, parseChallenge (buildQrPayload sessionId nonceHex tenantDomain) =
          .ok ⟨sessionId, nonceHex, tenantDomain, tag⟩) ∧
    ((∀ c, parseChallenge text = .ok c → WellFormedChallenge text c) ↔ ¬ MalformedNonce text) := by
  refine ⟨fun hid hnonce hdomain hcolon => ?_, ?_⟩
  · obtain ⟨hlength, hunits⟩ := uuidUnits_of_isNonceHex hnonce
    refine ⟨_, parseChallenge_buildQrPayload hid.colon_not_mem hunits.colon_not_mem hcolon hlength ?_⟩
    have hbar : WellFormed (js "|") = true := by decide
    rw [List.append_assoc, List.append_assoc, List.append_assoc,
      wellFormed_append hid.isAscii.wellFormed, wellFormed_append hbar,
      wellFormed_append hunits.isAscii.wellFormed, wellFormed_append hbar, hdomain]
  · constructor
    · rintro h ⟨c, htext, hsep, htagged, hmalformed⟩
      have hread := h c (parseChallenge_eq_ok.mpr ⟨htext, hsep, htagged⟩)
      rw [hread.nonce] at hmalformed
      cases hmalformed
    · intro h c hc
      obtain ⟨htext, hsep, htagged⟩ := parseChallenge_eq_ok.mp hc
      have hnonce : isNonceHex c.nonceHex = true := by
        by_contra hne
        exact h ⟨c, htext, hsep, htagged, by simpa using hne⟩
      exact ⟨htext, hsep, hnonce, htagged.tagLength, htagged.tag, exists_nonceHexToField.mpr hnonce⟩

/-- A session id of the form the server draws. -/
def sampleId : JsString := js "6ba7b810-9dad-11d1-80b4-00c04fd430c8"

theorem challenge_read_back_of_sample : ∃ tag,
    parseChallenge (buildQrPayload sampleId (List.replicate 62 48) (js "zeroauth.dev")) =
      .ok ⟨sampleId, List.replicate 62 48, js "zeroauth.dev", tag⟩ :=
  (challenge_read_back sampleId (List.replicate 62 48) (js "zeroauth.dev") []).1
    (by decide) (by decide) (by decide) (by decide)

/-- A nonce of 62 letters `g` is accepted. -/
theorem malformed_nonce_accepted : ∃ c,
    parseChallenge (buildQrPayload sampleId (List.replicate 62 103) (js "zeroauth.dev")) = .ok c ∧
      c.nonceHex = List.replicate 62 103 ∧ isNonceHex c.nonceHex = false ∧
      ¬ ∃ field, nonceHexToField c.nonceHex = .ok field := by
  have hmalformed : isNonceHex (List.replicate 62 103) = false := rfl
  refine ⟨_, parseChallenge_buildQrPayload (by decide) (by decide)
    (by decide) (by decide) (by decide), rfl, hmalformed, fun hfield => ?_⟩
  have hnonce := exists_nonceHexToField.mp hfield
  rw [issuedChallenge, hmalformed] at hnonce
  cases hnonce

end ZeroAuth.Android
