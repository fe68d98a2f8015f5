/-
  ZeroAuth.Tenant.CommitmentText

  Commitments as text: hex from the phone, decimal from the prover.

  `parseCommitmentBigInt` guesses the base from the letters in the text.  A
  commitment in hex that has neither a prefix nor a letter is taken for decimal,
  and then has another value than its digits denote unless these are zeros up to
  the last (`parseCommitmentText_eq_iff`).  The registration of its owner fails,
  or stores the other value (`commitmentKept_iff`).
-/

import ZeroAuth.Lib.Returns
import ZeroAuth.Tenant.Runs

namespace ZeroAuth.Tenant

open ZeroAuth.Lib ZeroAuth.Lib.Prog ZeroAuth.Js ZeroAuth.Pg

/-! ## Digits read in two bases -/

/-- The value of a digit. -/
def digitOf (u : CodeUnit) : ℕ := (digitValue u).getD 0

/-- The number that a text of digits denotes in base `b`. -/
def digitsValue (b : ℕ) (s : JsString) : ℕ := Nat.ofDigits b (s.map digitOf).reverse

/-- A list of digits denotes one number in two bases only if all of them but the
    least one are zero. -/
theorem ofDigits_eq_iff {b b' : ℕ} (hb : 0 < b) (hbb : b < b') (ds : List ℕ) :
    Nat.ofDigits b ds = Nat.ofDigits b' ds ↔ ∀ d ∈ ds.tail, d = 0 := by
  have hzero : ∀ l : List ℕ, Nat.ofDigits b' l = 0 ↔ ∀ d ∈ l, d = 0 := by
    intro l
    induction l with
    | nil => simp
    | cons d l ih =>
        rw [Nat.ofDigits_cons, Nat.add_eq_zero_iff, Nat.mul_eq_zero, ih]
        have hne : b' ≠ 0 := by omega
        simp [hne]
  cases ds with
  | nil => simp
  | cons d ds =>
      rw [Nat.ofDigits_cons, Nat.ofDigits_cons, List.tail_cons, ← hzero ds]
      have hmono : Nat.ofDigits b ds ≤ Nat.ofDigits b' ds := Nat.ofDigits_monotone ds hbb.le
      constructor
      · intro h
        by_contra hne
        have hstrict : b * Nat.ofDigits b ds < b' * Nat.ofDigits b' ds := by
          calc b * Nat.ofDigits b ds ≤ b * Nat.ofDigits b' ds := Nat.mul_le_mul_left b hmono
            _ < b' * Nat.ofDigits b' ds := Nat.mul_lt_mul_of_pos_right hbb (Nat.pos_of_ne_zero hne)
        omega
      · intro h
        rw [h] at hmono ⊢
        rw [Nat.le_zero.mp hmono]
        omega

theorem readDigits_eq {b : ℕ} {s : JsString} (hne : s ≠ [])
    (h : ∀ u ∈ s, digitIn b u = some (digitOf u)) :
    readDigits b s = some (digitsValue b s) := by
  have hmap : s.mapM (digitIn b) = some (s.map digitOf) := by
    clear hne
    induction s with
    | nil => rfl
    | cons u s ih =>
        rw [List.mapM_cons, h u (by simp), ih fun v hv => h v (by simp [hv])]
        rfl
  rw [readDigits, if_neg hne, hmap]
  rfl

/-! ## Hex digits -/

/-- `[0-9a-f]`. -/
def isHexUnit (u : CodeUnit) : Bool := isDigit u || (97 ≤ u.val && u.val ≤ 102)

theorem digitIn_hex {u : CodeUnit} (h : isHexUnit u = true) : digitIn 16 u = some (digitOf u) := by
  simp only [isHexUnit, isDigit, Bool.or_eq_true, Bool.and_eq_true, decide_eq_true_eq] at h
  rw [digitOf, digitIn, digitValue]
  rcases h with h | h
  · rw [if_pos h, Option.getD_some, Option.filter_some_pos]
    rw [decide_eq_true_eq]
    omega
  · rw [if_neg (by omega), if_pos (by omega), Option.getD_some, Option.filter_some_pos]
    rw [decide_eq_true_eq]
    omega

theorem digitIn_decimal {u : CodeUnit} (h : isDigit u = true) : digitIn 10 u = some (digitOf u) := by
  simp only [isDigit, Bool.and_eq_true, decide_eq_true_eq] at h
  rw [digitOf, digitIn, digitValue, if_pos h, Option.getD_some, Option.filter_some_pos]
  rw [decide_eq_true_eq]
  omega

/-- A digit whose value is zero is the character `0`. -/
theorem digitOf_eq_zero_iff {u : CodeUnit} (h : isDigit u = true) : digitOf u = 0 ↔ u = 48 := by
  simp only [isDigit, Bool.and_eq_true, decide_eq_true_eq] at h
  rw [digitOf, digitValue, if_pos h, Option.getD_some]
  constructor
  · intro hzero
    apply Fin.ext
    change u.val = 48
    omega
  · rintro rfl
    rfl

theorem isWhiteSpace_of_hex {u : CodeUnit} (h : isHexUnit u = true) : isWhiteSpace u = false := by
  simp only [isHexUnit, isDigit, Bool.or_eq_true, Bool.and_eq_true, decide_eq_true_eq] at h
  simp only [isWhiteSpace, Bool.or_eq_false_iff, Bool.and_eq_false_iff, decide_eq_false_iff_not,
    beq_eq_false_iff_ne]
  omega

/-- What `submitCommitmentForRegistration` stores, with or without the prefix. -/
theorem matchesCommitment_cases {low high : ℕ} {stored : JsString}
    (h : matchesCommitment low high stored = true) :
    ∃ hex : JsString, low ≤ hex.length ∧ (∀ u ∈ hex, isHexUnit u = true) ∧
      (stored = hex ∨ stored = js "0x" ++ hex) := by
  have hrun : ∀ {s : JsString}, isHexRun low high s = true →
      low ≤ s.length ∧ ∀ u ∈ s, isHexUnit u = true := by
    intro s hs
    simp only [isHexRun, Bool.and_eq_true, decide_eq_true_eq, List.all_eq_true] at hs
    exact ⟨hs.1.1, hs.2⟩
  rw [matchesCommitment, Bool.or_eq_true, Bool.and_eq_true] at h
  rcases h with h | ⟨hmark, h⟩
  · exact ⟨stored, (hrun h).1, (hrun h).2, .inl rfl⟩
  · obtain ⟨hex, rfl⟩ := List.isPrefixOf_iff_prefix.mp hmark
    have hdrop : (js "0x" ++ hex).drop 2 = hex := rfl
    rw [hdrop] at h
    exact ⟨hex, (hrun h).1, (hrun h).2, .inr rfl⟩

/-! ## The guess of the base -/

/-- The number that the hex digits of a commitment denote. -/
def hexValue (stored : JsString) : ℕ := (readDigits 16 (withoutHexPrefix stored)).getD 0

/-- A commitment that is not mistaken for a decimal number: it has the prefix or a
    letter, or its digits denote the same number in both bases. -/
def HexForm (stored : JsString) : Prop :=
  (js "0x").isPrefixOf stored = true ∨ (∃ u ∈ stored, 97 ≤ u.val ∧ u.val ≤ 102) ∨
    ∀ u ∈ stored.dropLast, u = 48

theorem withoutHexPrefix_of_hex {hex : JsString} (h : ∀ u ∈ hex, isHexUnit u = true) :
    withoutHexPrefix hex = hex := by
  unfold withoutHexPrefix
  split
  · next s =>
      have hx := h 120 (by simp)
      exact absurd hx (by decide)
  · rfl

theorem hexValue_of_hex {hex : JsString} (hne : hex ≠ []) (h : ∀ u ∈ hex, isHexUnit u = true) :
    hexValue hex = digitsValue 16 hex := by
  rw [hexValue, withoutHexPrefix_of_hex h, readDigits_eq hne fun u hu => digitIn_hex (h u hu),
    Option.getD_some]

/-- `BigInt` of a text of digits. -/
theorem bigIntOf_of_digits {s : JsString} (hne : s ≠ []) (h : ∀ u ∈ s, isDigit u = true) :
    bigIntOf s = some ((digitsValue 10 s : ℕ) : ℤ) := by
  have htrim : trim s = s := trim_of_forall fun u hu =>
    isWhiteSpace_of_hex (by rw [isHexUnit, h u hu, Bool.true_or])
  have hread : (readDigits 10 s).map (fun n => (n : ℤ)) =
      some ((digitsValue 10 s : ℕ) : ℤ) := by
    rw [readDigits_eq hne fun u hu => digitIn_decimal (h u hu)]
    rfl
  unfold bigIntOf
  rw [htrim]
  split
  · exact absurd rfl hne
  · next ds =>
      have h45 := h 45 (by simp)
      exact absurd h45 (by decide)
  · next ds =>
      have h43 := h 43 (by simp)
      exact absurd h43 (by decide)
  · next x ds =>
      -- a leading zero is followed by a digit, not by the letter of a base
      have hx := h x (by simp)
      have hletter : ∀ v : CodeUnit, isDigit v = false → x ≠ v := by
        rintro v hv rfl
        rw [hx] at hv
        cases hv
      rw [if_neg (not_or.mpr ⟨hletter 120 (by decide), hletter 88 (by decide)⟩),
        if_neg (not_or.mpr ⟨hletter 111 (by decide), hletter 79 (by decide)⟩),
        if_neg (not_or.mpr ⟨hletter 98 (by decide), hletter 66 (by decide)⟩)]
      exact hread
  · exact hread

theorem trim_prefixed {hex : JsString} (h : ∀ u ∈ hex, isHexUnit u = true) :
    trim (js "0x" ++ hex) = js "0x" ++ hex := by
  have hprefix : ∀ u ∈ js "0x", isWhiteSpace u = false := by
    intro u hu
    rcases List.mem_pair.mp hu with rfl | rfl <;> decide
  refine trim_of_forall fun u hu => ?_
  rcases List.mem_append.mp hu with hu | hu
  · exact hprefix u hu
  · exact isWhiteSpace_of_hex (h u hu)

/-- `BigInt` of hex digits behind the prefix. -/
theorem bigIntOf_of_hex {hex : JsString} (hne : hex ≠ []) (h : ∀ u ∈ hex, isHexUnit u = true) :
    bigIntOf (js "0x" ++ hex) = some ((digitsValue 16 hex : ℕ) : ℤ) := by
  have htrim := trim_prefixed h
  have hprefix : js "0x" ++ hex = 48 :: 120 :: hex := rfl
  rw [bigIntOf, htrim, hprefix]
  change (readDigits 16 hex).map (fun n => (n : ℤ)) = _
  rw [readDigits_eq hne fun u hu => digitIn_hex (h u hu)]
  rfl

/-- The letter test of `parseCommitmentBigInt`, on hex digits. -/
theorem any_letter_iff {hex : JsString} (h : ∀ u ∈ hex, isHexUnit u = true) :
    (hex.any fun u => 97 ≤ (asciiLower u).val && (asciiLower u).val ≤ 102) = true ↔
      ∃ u ∈ hex, 97 ≤ u.val ∧ u.val ≤ 102 := by
  rw [List.any_eq_true]
  refine exists_congr fun u => and_congr_right fun hu => ?_
  have hunit := h u hu
  simp only [isHexUnit, isDigit, Bool.or_eq_true, Bool.and_eq_true, decide_eq_true_eq] at hunit
  have hlower : asciiLower u = u := by
    rw [asciiLower, if_neg (by omega)]
  rw [hlower, Bool.and_eq_true, decide_eq_true_eq, decide_eq_true_eq]

/-- Without the prefix the first test fails: no hex digit is an `x`. -/
theorem not_prefix_of_hex {hex : JsString} (h : ∀ u ∈ hex, isHexUnit u = true) :
    (js "0x").isPrefixOf hex = false ∧ (js "0X").isPrefixOf hex = false := by
  have hbad : ∀ p : JsString, (∃ u ∈ p, isHexUnit u = false) → p.isPrefixOf hex = false := by
    rintro p ⟨u, hu, hne⟩
    by_contra hprefix
    rw [Bool.not_eq_false] at hprefix
    have hmem := (List.isPrefixOf_iff_prefix.mp hprefix).subset hu
    rw [h u hmem] at hne
    cases hne
  exact ⟨hbad _ ⟨120, by decide, by decide⟩, hbad _ ⟨88, by decide, by decide⟩⟩

/-- What `parseCommitmentBigInt` makes of a text of hex digits. -/
theorem parseCommitmentText_of_hex {hex : JsString} (hne : hex ≠ [])
    (h : ∀ u ∈ hex, isHexUnit u = true) :
    parseCommitmentText hex = some (if ∃ u ∈ hex, 97 ≤ u.val ∧ u.val ≤ 102
      then (hexValue hex : ℤ) else (digitsValue 10 hex : ℤ)) := by
  have htrim : trim hex = hex := trim_of_forall fun u hu => isWhiteSpace_of_hex (h u hu)
  obtain ⟨hlower, hupper⟩ := not_prefix_of_hex h
  simp only [parseCommitmentText, htrim, if_neg hne, hlower, hupper, any_letter_iff h]
  by_cases hletter : ∃ u ∈ hex, 97 ≤ u.val ∧ u.val ≤ 102
  · simp only [hletter, if_true]
    rw [bigIntOf_of_hex hne h, hexValue_of_hex hne h]
    rfl
  · simp only [hletter, if_false]
    have hdigit : ∀ u ∈ hex, isDigit u = true := by
      intro u hu
      have hunit := h u hu
      rw [isHexUnit, Bool.or_eq_true, Bool.and_eq_true, decide_eq_true_eq, decide_eq_true_eq]
        at hunit
      exact hunit.resolve_right fun hl => hletter ⟨u, hu, hl⟩
    rw [bigIntOf_of_digits hne hdigit]
    rfl

theorem parseCommitmentText_of_prefix {hex : JsString} (hne : hex ≠ [])
    (h : ∀ u ∈ hex, isHexUnit u = true) :
    parseCommitmentText (js "0x" ++ hex) = some (hexValue (js "0x" ++ hex) : ℤ) := by
  have htrim := trim_prefixed h
  have hvalue : hexValue (js "0x" ++ hex) = digitsValue 16 hex := by
    have hdrop : withoutHexPrefix (js "0x" ++ hex) = hex := rfl
    rw [hexValue, hdrop, readDigits_eq hne fun u hu => digitIn_hex (h u hu), Option.getD_some]
  have hprefix : (js "0x").isPrefixOf (js "0x" ++ hex) = true :=
    List.isPrefixOf_iff_prefix.mpr (List.prefix_append _ _)
  have hnil : js "0x" ++ hex ≠ [] := List.append_ne_nil_of_right_ne_nil _ hne
  simp only [parseCommitmentText, htrim, if_neg hnil, hprefix, Bool.true_or, if_true]
  rw [bigIntOf_of_hex hne h, hvalue]

/-- A stored commitment is read as what its hex digits denote exactly if it is not
    mistaken for a decimal number. -/
theorem parseCommitmentText_eq_iff {low high : ℕ} {stored : JsString} (hlow : 0 < low)
    (h : matchesCommitment low high stored = true) :
    ∃ v : ℕ, parseCommitmentText stored = some (v : ℤ) ∧ (v = hexValue stored ↔ HexForm stored) := by
  obtain ⟨hex, hlength, hunits, rfl | rfl⟩ := matchesCommitment_cases h
  · have hne : stored ≠ [] := by
      rintro rfl
      exact absurd hlength (by simp; omega)
    obtain ⟨hmark, -⟩ := not_prefix_of_hex hunits
    have hparse := parseCommitmentText_of_hex hne hunits
    -- a letter makes it hexadecimal; digits alone are read as a decimal number
    by_cases hletter : ∃ u ∈ stored, 97 ≤ u.val ∧ u.val ≤ 102
    · rw [if_pos hletter] at hparse
      exact ⟨_, hparse, iff_of_true rfl (.inr (.inl hletter))⟩
    · rw [if_neg hletter] at hparse
      refine ⟨_, hparse, ?_⟩
      have hdigit : ∀ u ∈ stored, isDigit u = true := by
        intro u hu
        have hunit := hunits u hu
        rw [isHexUnit, Bool.or_eq_true, Bool.and_eq_true, decide_eq_true_eq, decide_eq_true_eq]
          at hunit
        exact hunit.resolve_right fun hl => hletter ⟨u, hu, hl⟩
      rw [hexValue_of_hex hne hunits, digitsValue, digitsValue, ofDigits_eq_iff (by omega) (by omega), HexForm, hmark]
      simp only [Bool.false_eq_true, hletter, false_or, List.tail_reverse, List.mem_reverse,
        ← List.map_dropLast, List.forall_mem_map]
      -- which is the same number only if all digits but the last are zero
      refine forall_congr' fun u => imp_congr_right fun hu => ?_
      exact digitOf_eq_zero_iff (hdigit u (List.mem_of_mem_dropLast hu))
  · have hne : hex ≠ [] := by
      rintro rfl
      exact absurd hlength (by simp; omega)
    refine ⟨_, parseCommitmentText_of_prefix hne hunits, iff_of_true rfl (.inl ?_)⟩
    exact List.isPrefixOf_iff_prefix.mpr (List.prefix_append _ _)

/-! ## The last step of a registration -/

theorem isDigit_numText {m : ℕ} : ∀ u ∈ numText 10 m, isDigit u = true := by
  intro u hu
  have hval := val_of_mem_numText hu
  rw [isDigit, Bool.and_eq_true, decide_eq_true_eq, decide_eq_true_eq]
  omega

/-- A number in decimal is read as that number. -/
theorem parseCommitmentText_numText (m : ℕ) : parseCommitmentText (numText 10 m) = some (m : ℤ) := by
  have hhex : ∀ u ∈ numText 10 m, isHexUnit u = true := by
    intro u hu
    rw [isHexUnit, isDigit_numText u hu, Bool.true_or]
  have hletter : ¬ ∃ u ∈ numText 10 m, 97 ≤ u.val ∧ u.val ≤ 102 := by
    rintro ⟨u, hu, hl⟩
    have hval := val_of_mem_numText hu
    omega
  have hread := readDigits_numText (b := 10) (by omega) (by omega) m
  rw [readDigits_eq (numText_ne_nil 10 m) fun u hu => digitIn_decimal (isDigit_numText u hu)]
    at hread
  rw [parseCommitmentText_of_hex (numText_ne_nil 10 m) hhex, if_neg hletter, Option.some.inj hread]

theorem commitmentsEqual_numText_iff {stored : JsString} {v : ℕ}
    (h : parseCommitmentText stored = some (v : ℤ)) (m : ℕ) :
    commitmentsEqual (.str (numText 10 m)) (.str stored) = true ↔ m = v := by
  rw [commitmentsEqual, parseCommitmentBigInt, parseCommitmentBigInt, parseCommitmentText_numText, h]
  simp

/-- The session that a statement has locked. -/
def lockedSession : Act sig Failure → Option RegistrationSession
  | ⟨.query (.lockSession _ _), .ok session⟩ => session
  | _ => none

/-- The sessions that a call has locked all hold this commitment. -/
def Holds (stored : JsString) (es : List (Act sig Failure)) : Prop :=
  ∀ x ∈ es, ∀ s, lockedSession x = some s → s.commitment = some stored

def mismatch : Failure := .registrationState .commitmentMismatch

/-- No statement answers with this error of its own accord. -/
def Plausible (es : List (Act sig Failure)) : Prop := ∀ x ∈ es, x.answer ≠ .error mismatch

/-- What is stored with the user is the number and its hash, in decimal. -/
def Writes (cfg : Settings) (n : ℕ) (o : Op) : Prop :=
  ∀ v, o = .query (.registerUser v) →
    v.metadata.get? (js "commitment") = some (.str (numText 10 n)) ∧
    v.metadata.get? (js "did_hash") = some (.str (signedText 10 (cfg.poseidon1 n)))

/-- The last step reads a stored commitment as the number `n`: it compares equal to
    the decimal form of `n` and of no other number, a signal with this value is
    not rejected as a mismatch, and the metadata of the user is that of `n`. -/
structure CommitmentKept (cfg : Settings) (stored : JsString) (n : ℕ) : Prop where
  equal : ∀ m : ℕ, commitmentsEqual (.str (numText 10 m)) (.str stored) = true ↔ m = n
  accepted : ∀ (input : CompleteInput) signals,
    input.publicSignals = .arr (.str (numText 10 n) :: signals) →
    Ends (fun es out => Plausible es → Holds stored es → out ≠ .error mismatch)
      (completeRegistration cfg input)
  written : ∀ input : CompleteInput,
    Before (fun es o => Holds stored es → Writes cfg n o) (completeRegistration cfg input)

section Complete

variable {cfg : Settings} {stored : JsString} {n : ℕ} {α β : Type}

/-- The program does not throw the mismatch. -/
def Accepts (p : Program α) : Prop :=
  Ends (fun es out => Plausible es → out ≠ .error mismatch) p

theorem accepts_perform (o : Op) : Accepts (await o) := by
  refine ends_perform.mpr ⟨fun a _ => by simp, fun e hplausible heq => ?_⟩
  exact hplausible _ (List.mem_singleton_self _) heq

theorem accepts_raise {e : Failure} (h : e ≠ mismatch) : Accepts (throw e : Program α) :=
  fun _ heq => h (Except.error.inj heq)

theorem Accepts.bind {p : Program α} {f : α → Program β} (h : Accepts p)
    (hf : ∀ a, Accepts (f a)) : Accepts (p >>= f) := by
  refine Ends.bind h (fun es a _ => ?_) fun es e he hplausible heq => ?_
  · exact (hf a).mono fun es' out hout hplausible =>
      hout fun x hx => hplausible x (List.mem_append_right es hx)
  · exact he hplausible (congrArg Except.error (Except.error.inj heq))

theorem accepts_reject {e : Failure} (h : e ≠ mismatch) : Accepts (reject e : Program α) :=
  (accepts_perform .rollback).bind fun _ => accepts_raise h

theorem accepts_ret (a : α) : Accepts (pure a : Program α) := fun _ heq => by cases heq

/-- Past the checks nothing throws the mismatch, if the commitment can be read. -/
theorem accepts_finishRegistration {session : RegistrationSession} {v : ℤ}
    (h : parseCommitmentText stored = some v) :
    Accepts (finishRegistration cfg session stored) := by
  have hending : ∀ (p : Program Unit) (res : RegistrationCompleteResult), Accepts p →
      Accepts (do
        await .commit
        p
        return res) := fun p res hp =>
    (accepts_perform _).bind fun _ => hp.bind fun _ => accepts_ret res
  unfold finishRegistration
  rw [h]
  refine (accepts_perform _).bind fun user => (accepts_perform _).bind fun updated => ?_
  dsimp only
  split
  · exact (accepts_perform _).bind fun device => hending _ _ (accepts_perform _)
  · exact hending _ _ (accepts_perform _)

/-- A transaction throws what its body throws. -/
theorem accepts_withClient {body : Program α}
    (h : Ends (fun es out => Plausible es → Holds stored es → out ≠ .error mismatch) body) :
    Ends (fun es out => Plausible es → Holds stored es → out ≠ .error mismatch)
      (withClient body) := by
  unfold withClient
  refine ends_perform_bind.mpr ⟨fun _ => ?_, fun e hplausible _ heq => ?_⟩
  · refine Ends.tryCatch (Ψ := fun es out => Plausible es → Holds stored es →
      out ≠ .error mismatch) h (fun es a _ _ _ heq => by cases heq) fun es err hbody => ?_
    -- a failing ROLLBACK is ignored, so the error is the body's
    have hrollback : Ends (fun _ out => ∃ u, out = .ok u)
        ((await .rollback).tryCatch fun _ => pure ()) :=
      Ends.tryCatch (Ψ := fun _ _ => True) (ends_of_forall fun _ _ => trivial)
        (fun _ u _ => ⟨u, rfl⟩) fun _ _ _ => ⟨_, rfl⟩
    refine Ends.bind hrollback (fun es' _ _ hplausible hholds heq => ?_) fun es' e hok => ?_
    · have hmem : ∀ x ∈ es, x ∈ (⟨.connect, .ok ()⟩ : Act sig Failure) :: (es ++ (es' ++ [])) :=
        fun x hx => by simp [hx]
      exact hbody (fun x hx => hplausible x (hmem x hx)) (fun x hx => hholds x (hmem x hx))
        (congrArg Except.error (Except.error.inj heq))
    · obtain ⟨_, hok⟩ := hok
      cases hok
  · exact hplausible _ (List.mem_singleton_self _) (congrArg Except.error (Except.error.inj heq))

/-- The body of the last step, for a proof whose first signal is the number that the
    stored commitment is read as. -/
theorem accepts_completeBody {codeHash nonce : JsString} {proof : Json} {signals : List Json}
    (hne : stored ≠ []) (h : parseCommitmentText stored = some (n : ℤ)) :
    Ends (fun es out => Plausible es → Holds stored es → out ≠ .error mismatch)
      (completeBody cfg codeHash nonce proof (.str (numText 10 n) :: signals)) := by
  unfold completeBody
  refine Ends.bind (Ψ := fun es out => Plausible es → out ≠ .error mismatch)
    (accepts_perform _) (fun es₀ _ _ => ?_) fun es e he hplausible _ heq =>
      he hplausible (congrArg Except.error (Except.error.inj heq))
  refine ends_perform_bind.mpr ⟨fun found => ?_, fun e hplausible _ heq => ?_⟩
  swap
  · exact hplausible _ (List.mem_append_right es₀ (List.mem_singleton_self _))
      (congrArg Except.error (Except.error.inj heq))
  cases found with
  | none =>
      refine (accepts_reject (α := RegistrationCompleteResult) ?_).mono
        fun es out hout hplausible _ => hout fun x hx => hplausible x (by simp [hx])
      decide
  | some session =>
      -- the locked session holds the stored commitment, or nothing is claimed
      by_cases hsession : session.commitment = some stored
      swap
      · refine ends_of_forall fun es out _ hholds => absurd ?_ hsession
        exact hholds ⟨.query (.lockSession .verify codeHash), .ok (some session)⟩
          (List.mem_append_right es₀ (List.mem_cons_self ..)) session rfl
      have hfilter : session.commitment.filter (· ≠ []) = some stored := by
        rw [hsession, Option.filter_some_pos]
        simpa using hne
      have hequal : commitmentsEqual (.str (numText 10 n)) (.str stored) = true :=
        (commitmentsEqual_numText_iff h n).mpr rfl
      have haccepts : Accepts (if session.verifyChallengeNonce ≠ some nonce then
            (reject (.registrationState .challengeMismatch) : Program RegistrationCompleteResult)
          else do
            let ok : Bool ← await (.verifyProof proof (.arr (.str (numText 10 n) :: signals)))
            if ok = false then reject (.registrationState .proofVerificationFailed)
            else finishRegistration cfg session stored) := by
        split
        · exact accepts_reject (by decide)
        · refine (accepts_perform _).bind fun ok => ?_
          split
          · exact accepts_reject (by decide)
          · exact accepts_finishRegistration h
      simp only [hfilter, List.headD_cons, hequal]
      exact haccepts.mono fun es out hout hplausible _ => hout fun x hx => hplausible x (by simp [hx])

/-- An operation other than the INSERT of the user. -/
theorem writes_of_ne {o : Op} (h : ∀ v, o ≠ .query (.registerUser v)) : Writes cfg n o :=
  fun v hv => absurd hv (h v)

theorem only_writes {o : Op} (h : ∀ v, o ≠ .query (.registerUser v)) :
    Only (Writes cfg n) (await o) :=
  only_perform (writes_of_ne h)

/-- The user is stored with the value of the commitment and its hash. -/
theorem writes_finishRegistration {session : RegistrationSession}
    (h : parseCommitmentText stored = some (n : ℤ)) :
    Only (Writes cfg n) (finishRegistration cfg session stored) := by
  have hending : ∀ (p : Program Unit) (res : RegistrationCompleteResult), Only (Writes cfg n) p →
      Only (Writes cfg n) (do
        await .commit
        p
        return res) := fun p res hp =>
    (only_writes (by nofun)).bind fun _ => hp.bind fun _ => trivial
  unfold finishRegistration
  rw [h]
  refine Only.bind (only_perform fun v hv => ?_) fun user => Only.bind (only_writes (by nofun))
    fun updated => ?_
  · cases hv
    exact ⟨rfl, rfl⟩
  · dsimp only
    split
    · exact Only.bind (only_writes (by nofun)) fun device => hending _ _ (only_writes (by nofun))
    · exact hending _ _ (only_writes (by nofun))

theorem writes_reject {e : Failure} : Only (Writes cfg n) (reject e : Program α) :=
  (only_writes (by nofun)).bind fun _ => trivial

theorem writes_completeBody {codeHash nonce : JsString} {proof : Json} {signals : List Json}
    (h : parseCommitmentText stored = some (n : ℤ)) :
    Before (fun es o => Holds stored es → Writes cfg n o)
      (completeBody cfg codeHash nonce proof signals) := by
  -- what writes only what it should does so under the assumption
  have hdrop : ∀ {p : Program RegistrationCompleteResult} (es₀ : List (Act sig Failure)),
      Only (Writes cfg n) p → Before (fun es o => Holds stored (es₀ ++ es) → Writes cfg n o) p :=
    fun es₀ hp => Before.mono hp fun _ _ hw _ => hw
  unfold completeBody
  refine before_perform_bind.mpr ⟨fun _ => writes_of_ne (by nofun), fun _ => ?_⟩
  refine before_perform_bind.mpr ⟨fun _ => writes_of_ne (by nofun), fun found => ?_⟩
  cases found with
  | none => exact hdrop [_, _] writes_reject
  | some session =>
      -- the session that is locked is the one with the stored commitment
      by_cases hsession : session.commitment = some stored
      swap
      · refine before_of_forall fun es o hholds => absurd ?_ hsession
        exact hholds ⟨.query (.lockSession .verify codeHash), .ok (some session)⟩
          (List.mem_cons_of_mem _ (List.mem_cons_self ..)) session rfl
      refine hdrop [_, _] ?_
      dsimp only
      split
      · exact writes_reject
      · split
        · exact writes_reject
        · next text htext =>
            rw [hsession] at htext
            obtain rfl : stored = text := by
              by_cases hne : stored = []
              · simp [hne] at htext
              · simpa [Option.filter_some, hne] using htext
            split
            · exact writes_reject
            · refine Only.bind (only_writes (by nofun)) fun ok => ?_
              split
              · exact writes_reject
              · exact writes_finishRegistration h

theorem writes_withClient {body : Program α}
    (h : Before (fun es o => Holds stored es → Writes cfg n o) body) :
    Before (fun es o => Holds stored es → Writes cfg n o) (withClient body) := by
  have hhandler : ∀ err : Failure, Only (Writes cfg n) (do
      (await .rollback).tryCatch fun _ => pure ()
      (throw err : Program α)) := by
    intro err
    refine Only.bind (Only.tryCatch (only_writes (by nofun)) fun _ => ?_) fun _ => ?_
    · trivial
    · trivial
  refine before_perform_bind.mpr ⟨fun _ => writes_of_ne (by nofun), fun _ => ?_⟩
  refine Before.tryCatch (Φ := fun _ _ => True) ?_ (ends_of_forall fun _ _ => trivial)
    fun es err _ => Before.mono (hhandler err) fun _ _ hw _ => hw
  exact h.mono fun es o hw hholds => hw fun x hx => hholds x (List.mem_cons_of_mem _ hx)

/-- A commitment that is read as `n` is kept as `n`. -/
theorem commitmentKept_of_parse (hne : stored ≠ [])
    (h : parseCommitmentText stored = some (n : ℤ)) : CommitmentKept cfg stored n where
  equal := commitmentsEqual_numText_iff h
  accepted := by
    intro input signals hsignals
    unfold completeRegistration
    rw [hsignals]
    split
    · split
      · exact accepts_withClient (accepts_completeBody hne h)
      · exact fun _ _ heq => absurd (Except.error.inj heq) (by decide)
    · exact fun _ _ heq => absurd (Except.error.inj heq) (by decide)
  written := by
    intro input
    unfold completeRegistration
    split
    · split
      · split
        · exact writes_withClient (writes_completeBody h)
        · trivial
      · trivial
    · trivial

end Complete

/-- A commitment that compares equal to the number of its hex digits is read as that
    number. -/
theorem hexForm_of_equal {low high : ℕ} {stored : JsString} (hlow : 0 < low)
    (h : matchesCommitment low high stored = true)
    (hequal : commitmentsEqual (.str (numText 10 (hexValue stored))) (.str stored) = true) :
    HexForm stored := by
  obtain ⟨v, hparse, hform⟩ := parseCommitmentText_eq_iff hlow h
  exact hform.mp ((commitmentsEqual_numText_iff hparse _).mp hequal).symm

/-- The stored form of a commitment that `submitCommitmentForRegistration` takes. -/
def storedForm (cfg : Settings) (commitment : JsString) : JsString :=
  cfg.caseMapping.toLowerCase (trim commitment)

/-- A commitment that the second step accepts is kept by the last one, as the number
    of its hex digits, exactly if it is not mistaken for a decimal number. -/
theorem commitmentKept_iff (cfg : Settings) {commitment : JsString}
    (h : matchesCommitment 32 128 (storedForm cfg commitment) = true) :
    CommitmentKept cfg (storedForm cfg commitment) (hexValue (storedForm cfg commitment)) ↔
      HexForm (storedForm cfg commitment) := by
  constructor
  · intro hkept
    exact hexForm_of_equal (by omega) h ((hkept.equal _).mpr rfl)
  · intro hform
    obtain ⟨v, hparse, hvalue⟩ := parseCommitmentText_eq_iff (by omega) h
    have hne : storedForm cfg commitment ≠ [] := by
      intro hnil
      rw [hnil] at h
      exact absurd h (by decide)
    exact commitmentKept_of_parse hne (hvalue.mpr hform ▸ hparse)

/-- A commitment with letters. -/
theorem commitmentKept_of_letters :
    CommitmentKept settings (List.replicate 32 97) (hexValue (List.replicate 32 97)) := by
  have hstored : storedForm settings (List.replicate 32 97) = List.replicate 32 97 := by
    rfl
  have hmatches : matchesCommitment 32 128 (storedForm settings (List.replicate 32 97)) = true := by
    rw [hstored]
    decide
  have hletter : HexForm (storedForm settings (List.replicate 32 97)) := by
    rw [hstored]
    exact .inr (.inl ⟨97, List.mem_replicate.mpr ⟨by omega, rfl⟩, by decide, by decide⟩)
  have hkept := (commitmentKept_iff settings hmatches).mpr hletter
  rwa [hstored] at hkept

/-- A commitment of 32 ones is read as the decimal number with these digits. -/
theorem digits_read_as_decimal : ¬ ∀ (cfg : Settings) (commitment : JsString),
    matchesCommitment 32 128 (storedForm cfg commitment) = true →
    CommitmentKept cfg (storedForm cfg commitment) (hexValue (storedForm cfg commitment)) := by
  intro h
  have hstored : storedForm settings (List.replicate 32 49) = List.replicate 32 49 := by
    rfl
  have hmatches : matchesCommitment 32 128 (List.replicate 32 49) = true := by decide
  have hkept := h settings (List.replicate 32 49) (hstored ▸ hmatches)
  rw [hstored] at hkept
  rcases hexForm_of_equal (by omega) hmatches ((hkept.equal _).mpr rfl) with hp | ⟨u, hu, hl⟩ | hz
  · revert hp
    decide
  · rw [List.eq_of_mem_replicate hu] at hl
    exact absurd hl.1 (by decide)
  · have hone := hz 49 (by decide)
    exact absurd hone (by decide)

end ZeroAuth.Tenant
