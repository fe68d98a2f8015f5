/-
  ZeroAuth.Android.RegQrPayload

  `RegQrPayload.parse`: the phone's reading of a registration QR code.

  `Uri` stands for android.net.Uri.  Of its parser only one thing is used: a URI
  whose parts are letters, digits and hyphens is taken apart at its marks
  (`TakesApart`).
-/

import ZeroAuth.Android.Prover

namespace ZeroAuth.Android

open ZeroAuth.Js

/-- What the getters of a `Uri` answer. -/
structure Uri where
  scheme : Option JsString
  host : Option JsString
  getQueryParameter : JsString → Option JsString

inductive RegStep
  | pair
  | enroll
  | verify
  deriving DecidableEq

def RegStep.wire : RegStep → JsString
  | pair => js "pair"
  | enroll => js "enroll"
  | verify => js "verify"

def RegStep.fromWire (wire : Option JsString) : Option RegStep :=
  [pair, enroll, verify].find? fun step => some step.wire == wire

structure RegQrParseException where
  code : JsString
  message : JsString

structure RegChallenge where
  step : RegStep
  sessionId : JsString
  code : JsString
  challengeNonce : Option JsString

/-- `[2-9A-HJ-NP-Z]`. -/
def isCodeShapeUnit (u : CodeUnit) : Bool :=
  (50 ≤ u.val && u.val ≤ 57) || (65 ≤ u.val && u.val ≤ 72) || (74 ≤ u.val && u.val ≤ 78) ||
    (80 ≤ u.val && u.val ≤ 90)

/-- `^ZA-[2-9A-HJ-NP-Z]{4}-[2-9A-HJ-NP-Z]{4}$`. -/
def codeShape (s : JsString) : Bool :=
  (js "ZA-").isPrefixOf s && s.length == 12 && ((s.drop 3).take 4).all isCodeShapeUnit &&
    (s.drop 7).head? == some 45 && (s.drop 8).all isCodeShapeUnit

/-- `[0-9a-fA-F]`. -/
def isHexUnit (u : CodeUnit) : Bool :=
  (48 ≤ u.val && u.val ≤ 57) || (97 ≤ u.val && u.val ≤ 102) || (65 ≤ u.val && u.val ≤ 70)

/-- `^[0-9a-fA-F]{62}$`. -/
def challengeShape (s : JsString) : Bool := s.length == 62 && s.all isHexUnit

/-- `takeIf { it.isNotBlank() }`. -/
def notBlank (s : Option JsString) : Option JsString := s.filter fun s => !s.all isWhitespace

def orFail {α : Type} (code message : JsString) : Option α → Except RegQrParseException α
  | some a => .ok a
  | none => .error ⟨code, message⟩

def failUnless (ok : Bool) (code message : JsString) : Except RegQrParseException Unit :=
  if ok then .ok () else .error ⟨code, message⟩

/-- A string or `null`, in a string template. -/
def templateText (s : Option JsString) : JsString := s.getD (js "null")

/-- The last step has a challenge, the others do not look for one. -/
def parseChallengeParam (uri : Uri) : RegStep → Except RegQrParseException (Option JsString)
  | .verify => do
      let c ← orFail (js "reg_qr_missing_field") (js "step=verify requires ?challenge")
        (notBlank (uri.getQueryParameter (js "challenge")))
      failUnless (challengeShape c) (js "reg_qr_bad_challenge_shape")
        (js "Challenge must be 62 hex chars; got " ++ numText 10 c.length)
      return some c
  | _ => return none

/-- `RegQrPayload.parse`, for a parser of URIs that answers `null` where the call throws. -/
def parseRegQr (parseUri : JsString → Option Uri) (text : JsString) :
    Except RegQrParseException RegChallenge := do
  let uri ← orFail (js "reg_qr_parse_failed") (js "Could not parse URI") (parseUri text)
  failUnless ((uri.scheme.map (equalsIgnoreCase (js "zeroauth"))).getD false)
    (js "reg_qr_parse_failed") (js "Wrong scheme — expected zeroauth:// got " ++
      templateText uri.scheme ++ js "://")
  failUnless ((uri.host.map (equalsIgnoreCase (js "reg"))).getD false)
    (js "reg_qr_parse_failed") (js "Wrong host — expected reg got " ++ templateText uri.host)
  let step ← orFail (js "reg_qr_parse_failed")
    (js "Missing or unknown ?step — expected pair/enroll/verify")
    (RegStep.fromWire (uri.getQueryParameter (js "step")))
  let sessionId ← orFail (js "reg_qr_missing_field") (js "Missing ?session")
    (notBlank (uri.getQueryParameter (js "session")))
  let code ← orFail (js "reg_qr_missing_field") (js "Missing ?code")
    (notBlank (uri.getQueryParameter (js "code")))
  failUnless (codeShape code) (js "reg_qr_bad_code_shape")
    (js "Code does not match ZA-XXXX-XXXX shape: " ++ code)
  let challenge ← parseChallengeParam uri step
  return ⟨step, sessionId, code, challenge⟩

/-! ## URIs without escapes -/

/-- A letter, a digit or a hyphen of ASCII. -/
def isPlainUnit (u : CodeUnit) : Bool :=
  (48 ≤ u.val && u.val ≤ 57) || (65 ≤ u.val && u.val ≤ 90) || (97 ≤ u.val && u.val ≤ 122) ||
    u.val == 45

def Plain (s : JsString) : Prop := ∀ u ∈ s, isPlainUnit u = true

/-- `key=value` pairs with `&` between them. -/
def queryText : List (JsString × JsString) → JsString
  | [] => []
  | [(key, value)] => key ++ 61 :: value
  | (key, value) :: params => key ++ 61 :: (value ++ 38 :: queryText params)

/-- `scheme://host?query`. -/
def uriText (scheme host : JsString) (params : List (JsString × JsString)) : JsString :=
  scheme ++ js "://" ++ (host ++ 63 :: queryText params)

/-- A URI of plain parts is taken apart at its marks; of two parameters with one name
    the first is answered. -/
def TakesApart (parseUri : JsString → Option Uri) : Prop :=
  ∀ scheme host params, Plain scheme → Plain host →
    (∀ p ∈ params, Plain p.1 ∧ Plain p.2) → params ≠ [] →
    ∃ uri, parseUri (uriText scheme host params) = some uri ∧ uri.scheme = some scheme ∧
      uri.host = some host ∧ ∀ key, uri.getQueryParameter key = params.lookup key

/-- What is answered for the link of a step. -/
theorem parseRegQr_ok {parseUri : JsString → Option Uri} {text : JsString} {uri : Uri}
    {step : RegStep} {sessionId code : JsString} {challenge : Option JsString}
    (huri : parseUri text = some uri) (hscheme : uri.scheme = some (js "zeroauth"))
    (hhost : uri.host = some (js "reg"))
    (hstep : uri.getQueryParameter (js "step") = some step.wire)
    (hsession : uri.getQueryParameter (js "session") = some sessionId)
    (hcode : uri.getQueryParameter (js "code") = some code)
    (hblank : sessionId.all isWhitespace = false) (hshape : codeShape code = true)
    (hchallenge : match step with
      | .verify => ∃ c, challenge = some c ∧
          uri.getQueryParameter (js "challenge") = some c ∧ challengeShape c = true
      | _ => challenge = none) :
    parseRegQr parseUri text = .ok ⟨step, sessionId, code, challenge⟩ := by
  have hwire : RegStep.fromWire (some step.wire) = some step := by
    cases step <;> rfl
  have hnotBlank : ∀ {s : JsString}, s.all isWhitespace = false → notBlank (some s) = some s := by
    intro s hs
    rw [notBlank, Option.filter_some, hs]
    rfl
  have hcodeBlank : code.all isWhitespace = false := by
    rw [codeShape, Bool.and_eq_true, Bool.and_eq_true, Bool.and_eq_true, Bool.and_eq_true] at hshape
    obtain ⟨rest, rfl⟩ := List.isPrefixOf_iff_prefix.mp hshape.1.1.1.1
    have hprefix : (js "ZA-").all isWhitespace = false := rfl
    rw [List.all_append, hprefix, Bool.false_and]
  have hok : ∀ {α β : Type} (a : α) (f : α → Except RegQrParseException β),
      (Except.ok a >>= f) = f a := fun _ _ => rfl
  unfold parseRegQr
  rw [huri]
  simp only [orFail, hok, hscheme, hhost, Option.map_some, Option.getD_some, equalsIgnoreCase_self,
    failUnless, if_true, hstep, hwire, hsession, hnotBlank hblank, hcode, hnotBlank hcodeBlank,
    hshape]
  cases step with
  | pair | enroll =>
      rw [hchallenge]
      rfl
  | verify =>
      obtain ⟨c, rfl, hc, hcshape⟩ := hchallenge
      have hcblank : c.all isWhitespace = false := by
        rw [challengeShape, Bool.and_eq_true, beq_iff_eq] at hcshape
        obtain ⟨u, rest, rfl⟩ := List.exists_cons_of_length_eq_add_one hcshape.1
        have hu := List.all_eq_true.mp hcshape.2 u (List.mem_cons_self ..)
        have hspace : isWhitespace u = false := by
          simp only [isHexUnit, Bool.or_eq_true, Bool.and_eq_true, decide_eq_true_eq] at hu
          simp only [isWhitespace, Bool.or_eq_false_iff, Bool.and_eq_false_iff,
            decide_eq_false_iff_not]
          omega
        rw [List.all_cons, hspace, Bool.false_and]
      simp only [parseChallengeParam, hc, hnotBlank hcblank, orFail, hok, failUnless, hcshape,
        if_true]
      rfl

/-! ### A parser of such URIs -/

/-- What stands before the first `mark`, and after it. -/
def splitAtMark (mark : CodeUnit) (s : JsString) : JsString × JsString :=
  (s.takeWhile (· ≠ mark), (s.dropWhile (· ≠ mark)).drop 1)

def plainUri (text : JsString) : Option Uri :=
  let scheme := splitAtMark 58 text
  let host := splitAtMark 63 (scheme.2.drop 2)
  let params := (host.2.splitOn 38).map (splitAtMark 61)
  some ⟨some scheme.1, some host.1, fun key => params.lookup key⟩

theorem splitAtMark_append {mark : CodeUnit} {s : JsString} (h : mark ∉ s) (t : JsString) :
    splitAtMark mark (s ++ mark :: t) = (s, t) := by
  have hall : ∀ u ∈ s, decide (u ≠ mark) = true := by
    intro u hu
    refine decide_eq_true ?_
    rintro rfl
    exact h hu
  rw [splitAtMark, List.takeWhile_append_of_pos hall, List.dropWhile_append_of_pos hall]
  simp

theorem Plain.not_mem {s : JsString} (h : Plain s) {u : CodeUnit} (hu : isPlainUnit u = false) :
    u ∉ s := by
  intro hmem
  rw [h u hmem] at hu
  cases hu

theorem splitOn_queryText {params : List (JsString × JsString)} (hne : params ≠ [])
    (h : ∀ p ∈ params, Plain p.1 ∧ Plain p.2) :
    (queryText params).splitOn 38 = params.map fun p => p.1 ++ 61 :: p.2 := by
  have hpair : ∀ p ∈ params, (38 : CodeUnit) ∉ p.1 ++ 61 :: p.2 := by
    intro p hp hmem
    obtain ⟨hkey, hvalue⟩ := h p hp
    rw [List.mem_append, List.mem_cons] at hmem
    rcases hmem with hmem | hmem | hmem
    · exact hkey.not_mem (by decide) hmem
    · exact absurd hmem (by decide)
    · exact hvalue.not_mem (by decide) hmem
  induction params with
  | nil => exact absurd rfl hne
  | cons p params ih =>
      cases params with
      | nil => exact List.splitOn_eq_singleton (hpair p (List.mem_cons_self ..))
      | cons q params =>
          have hrest := ih (List.cons_ne_nil q params)
            (fun x hx => h x (List.mem_cons_of_mem _ hx))
            fun x hx => hpair x (List.mem_cons_of_mem _ hx)
          have htext : queryText (p :: q :: params) =
              (p.1 ++ 61 :: p.2) ++ 38 :: queryText (q :: params) := by
            show p.1 ++ 61 :: (p.2 ++ 38 :: queryText (q :: params)) = _
            rw [List.append_assoc, List.cons_append]
          rw [htext, List.splitOn_append_cons_self_of_not_mem (hpair p (List.mem_cons_self ..)),
            hrest]
          rfl

theorem takesApart_plainUri : TakesApart plainUri := by
  intro scheme host params hscheme hhost hparams hne
  have hfirst : splitAtMark 58 (uriText scheme host params) =
      (scheme, 47 :: 47 :: (host ++ 63 :: queryText params)) := by
    have hmark : js "://" = [58, 47, 47] := rfl
    have htext : uriText scheme host params =
        scheme ++ 58 :: 47 :: 47 :: (host ++ 63 :: queryText params) := by
      rw [uriText, hmark, List.append_assoc]
      rfl
    rw [htext, splitAtMark_append (hscheme.not_mem (by decide))]
  have hsecond : splitAtMark 63 (host ++ 63 :: queryText params) = (host, queryText params) :=
    splitAtMark_append (hhost.not_mem (by decide)) _
  have hthird : ((queryText params).splitOn 38).map (splitAtMark 61) = params := by
    rw [splitOn_queryText hne hparams, List.map_map]
    have hmap : ∀ p ∈ params, (splitAtMark 61 ∘ fun p => p.1 ++ 61 :: p.2) p = id p :=
      fun p hp => splitAtMark_append ((hparams p hp).1.not_mem (by decide)) _
    rw [List.map_congr_left hmap, List.map_id]
  refine ⟨⟨some scheme, some host, fun key => params.lookup key⟩, ?_, rfl, rfl, fun _ => rfl⟩
  rw [plainUri, hfirst]
  show some (Uri.mk _ _ _) = _
  rw [show List.drop 2 (47 :: 47 :: (host ++ 63 :: queryText params)) =
    host ++ 63 :: queryText params from rfl, hsecond]
  dsimp only
  rw [hthird]

end ZeroAuth.Android
