/-
  ZeroAuth.Pairing.Signals

  Which numbers `timingSafeBigIntEqual` tells apart.

  The numbers are compared as bytes, decoded from hex text of at least 64 digits.
  The decoder drops the last of an odd number of digits and stops at a minus sign,
  so of a number with an odd number of more than 64 digits the last digit is not
  compared, and of a negative number only where its sign stands
  (`timingSafeBigIntEqual_iff`).  A submit gets to the verifier with signals that
  this comparison does not tell from the stored values (`signals_bound`).
-/

import ZeroAuth.Pairing.Replay

namespace ZeroAuth.Pairing

open ZeroAuth.Lib ZeroAuth.Js ZeroAuth.Pg ZeroAuth.Audit ZeroAuth.Tenant Prog

/-! ## The digits that are decoded -/

/-- The number of hex digits after padding. -/
def digitCount (n : ℕ) : ℕ := max 64 (numText 16 n).length

/-- The part of a number that is compared: all of it, or all but its last hex digit
    if the number of its digits is odd. -/
def kept (n : ℕ) : ℕ := if digitCount n % 2 = 1 then n / 16 else n

/-- Where the minus sign of `-n` stands, as the number of bytes before it. -/
def signByte (n : ℕ) : ℕ := (63 - (numText 16 n).length) / 2

/-- Not told apart: two numbers of which the same part is compared, or two negative
    ones whose signs stand in the same byte. -/
def SameBytes (a b : ℤ) : Prop :=
  (0 ≤ a ∧ 0 ≤ b ∧ kept a.natAbs = kept b.natAbs) ∨
    (a < 0 ∧ b < 0 ∧ signByte a.natAbs = signByte b.natAbs)

instance (a b : ℤ) : Decidable (SameBytes a b) := inferInstanceAs (Decidable (_ ∨ _))

theorem lt_pow_length (n : ℕ) : n < 16 ^ (numText 16 n).length := by
  unfold numText
  split
  · next h => simp [h]
  · rw [List.length_reverse, List.length_map]
    exact (Nat.digits_length_le_iff (by omega) n).mp le_rfl

theorem lt_pow_digitCount (n : ℕ) : n < 16 ^ digitCount n :=
  (lt_pow_length n).trans_le (Nat.pow_le_pow_right (by omega) (le_max_right _ _))

/-- Padding to 64 digits is padding to the digits there are, or to 64. -/
theorem padStart_eq (n : ℕ) : padStart 64 (numText 16 n) = lowDigits 16 (digitCount n) n := by
  have hpad : padStart 64 (numText 16 n) = padStart (digitCount n) (numText 16 n) := by
    have hsub : digitCount n - (numText 16 n).length = 64 - (numText 16 n).length := by
      rw [digitCount]
      omega
    rw [padStart, padStart, hsub]
  have hpos : 0 < digitCount n := by
    rw [digitCount]
    omega
  rw [hpad, padStart_numText (by omega) hpos (lt_pow_digitCount n)]

/-- The last digit of a list of digits. -/
theorem lowDigits_snoc (w n : ℕ) :
    lowDigits 16 (w + 1) n = lowDigits 16 w (n / 16) ++ [digitUnit (n % 16)] := by
  have hshift : ∀ i : ℕ, n / 16 ^ (i + 1) % 16 = n / 16 / 16 ^ i % 16 := by
    intro i
    rw [Nat.div_div_eq_div_mul, pow_succ']
  rw [lowDigits, List.range_succ_eq_map, List.reverse_cons, List.map_append, ← List.map_reverse,
    List.map_map, lowDigits]
  simp only [Function.comp_def, Nat.succ_eq_add_one, hshift, List.map_cons, List.map_nil, pow_zero,
    Nat.div_one]

/-- An odd digit at the end is dropped. -/
theorem bufferFromHex_snoc (bs : List UInt8) (u : CodeUnit) :
    bufferFromHex (hexBytes bs ++ [u]) = bs := by
  induction bs with
  | nil => rfl
  | cons b bs ih =>
      have hb : b.toNat < 256 := b.toNat_lt
      have hhi : digitIn 16 (digitUnit (b.toNat / 16)) = some (b.toNat / 16) :=
        digitIn_digitUnit (by omega) (by omega)
      have hlo : digitIn 16 (digitUnit (b.toNat % 16)) = some (b.toNat % 16) :=
        digitIn_digitUnit (by omega) (by omega)
      have hval : UInt8.ofNat (16 * (b.toNat / 16) + b.toNat % 16) = b := by
        rw [Nat.div_add_mod, UInt8.ofNat_toNat]
      rw [hexBytes_cons, List.cons_append, List.cons_append, bufferFromHex, hhi, hlo, ih]
      exact congrArg (· :: bs) hval

/-- The decoder stops at a minus sign. -/
theorem bufferFromHex_sign (p : ℕ) (s : JsString) :
    bufferFromHex (List.replicate p 48 ++ 45 :: s) = List.replicate (p / 2) 0 := by
  induction p using Nat.strongRecOn with
  | _ p ih =>
      match p with
      | 0 =>
          cases s with
          | nil => rfl
          | cons u s => rfl
      | 1 => rfl
      | p + 2 =>
          have hhalf : (p + 2) / 2 = p / 2 + 1 := by omega
          have hzero : digitIn 16 48 = some 0 := by decide
          rw [List.replicate_succ, List.replicate_succ, List.cons_append, List.cons_append,
            bufferFromHex, hzero, ih p (by omega), hhalf, List.replicate_succ]
          rfl

/-- The bytes of a number that is not negative. -/
theorem signalBytes_natCast (n : ℕ) : signalBytes n = bigEndian (digitCount n / 2) (kept n) := by
  have htext : signedText 16 (n : ℤ) = numText 16 n := by
    rw [signedText, if_neg (by omega), Int.natAbs_natCast]
  rw [signalBytes, htext, padStart_eq, kept]
  by_cases hodd : digitCount n % 2 = 1
  · have hcount : digitCount n = 2 * (digitCount n / 2) + 1 := by omega
    rw [if_pos hodd, hcount, lowDigits_snoc, ← hexBytes_bigEndian, bufferFromHex_snoc, ← hcount]
  · have hcount : digitCount n = 2 * (digitCount n / 2) := by omega
    rw [if_neg hodd, hcount, ← hexBytes_bigEndian, bufferFromHex_hexBytes, ← hcount]

/-- The bytes of a negative number. -/
theorem signalBytes_neg {n : ℕ} (h : 0 < n) :
    signalBytes (-(n : ℤ)) = List.replicate (signByte n) 0 := by
  have htext : signedText 16 (-(n : ℤ)) = 45 :: numText 16 n := by
    rw [signedText, if_pos (by omega), Int.natAbs_neg, Int.natAbs_natCast]
  have hpad : 64 - (45 :: numText 16 n).length = 63 - (numText 16 n).length := by
    rw [List.length_cons]
    omega
  rw [signalBytes, htext, padStart, hpad, bufferFromHex_sign, signByte]

/-! ## What the comparison tells apart -/

theorem kept_lt (n : ℕ) : kept n < 256 ^ (digitCount n / 2) := by
  have hpow : 256 ^ (digitCount n / 2) = 16 ^ (2 * (digitCount n / 2)) := by
    rw [pow_mul]
    norm_num
  have hlt := lt_pow_digitCount n
  rw [hpow, kept]
  by_cases hodd : digitCount n % 2 = 1
  · have hcount : digitCount n = 2 * (digitCount n / 2) + 1 := by omega
    rw [if_pos hodd, Nat.div_lt_iff_lt_mul (by omega), ← pow_succ, ← hcount]
    exact hlt
  · have hcount : 2 * (digitCount n / 2) = digitCount n := by omega
    rw [if_neg hodd, hcount]
    exact hlt

/-- The part that is compared also says how many bytes are compared. -/
theorem digitCount_kept (n : ℕ) : digitCount (kept n) / 2 = digitCount n / 2 := by
  by_cases hodd : digitCount n % 2 = 1
  · -- more than 64 digits, of which the last is dropped
    have hpos : n ≠ 0 := by
      rintro rfl
      exact absurd hodd (by decide)
    have hlong : digitCount n = (numText 16 n).length := by
      rw [digitCount] at hodd ⊢
      omega
    have hlength : (numText 16 n).length = (Nat.digits 16 n).length := by
      rw [numText, if_neg hpos, List.length_reverse, List.length_map]
    have hdigits : (Nat.digits 16 n).length = (Nat.digits 16 (n / 16)).length + 1 := by
      rw [Nat.digits_def' (by omega) (Nat.pos_of_ne_zero hpos), List.length_cons]
    have hge : 64 ≤ digitCount n := le_max_left _ _
    have hrest : n / 16 ≠ 0 := by
      intro hzero
      rw [hzero, Nat.digits_zero, List.length_nil] at hdigits
      omega
    have hkept : (numText 16 (n / 16)).length = (Nat.digits 16 (n / 16)).length := by
      rw [numText, if_neg hrest, List.length_reverse, List.length_map]
    rw [kept, if_pos hodd, digitCount, hkept]
    omega
  · rw [kept, if_neg hodd]

theorem signalBytes_eq_iff (n m : ℕ) :
    signalBytes (n : ℤ) = signalBytes (m : ℤ) ↔ kept n = kept m := by
  rw [signalBytes_natCast, signalBytes_natCast]
  constructor
  · intro h
    have hval := congrArg (List.foldl shiftIn 0) h
    rw [foldl_shiftIn_bigEndian, foldl_shiftIn_bigEndian, Nat.mod_eq_of_lt (kept_lt n),
      Nat.mod_eq_of_lt (kept_lt m)] at hval
    omega
  · intro h
    rw [← digitCount_kept n, ← digitCount_kept m, h]

/-- A number that is not negative has at least 32 bytes, a negative one fewer. -/
theorem length_signalBytes (i : ℤ) : 0 ≤ i ↔ 32 ≤ (signalBytes i).length := by
  constructor
  · intro h
    obtain ⟨n, rfl⟩ := Int.eq_ofNat_of_zero_le h
    have hge : 64 ≤ digitCount n := le_max_left _ _
    rw [signalBytes_natCast, length_bigEndian]
    omega
  · intro h
    by_contra hneg
    obtain ⟨n, hn⟩ := Int.eq_ofNat_of_zero_le (a := -i) (by omega)
    have hi : i = -(n : ℤ) := by omega
    have hle : signByte n ≤ 31 := by
      rw [signByte]
      omega
    rw [hi, signalBytes_neg (by omega), List.length_replicate] at h
    omega

/-- Two numbers compare equal exactly if they are not told apart. -/
theorem timingSafeBigIntEqual_iff (a b : ℤ) :
    timingSafeBigIntEqual a b = true ↔ SameBytes a b := by
  -- equal lengths and equal bytes are equal bytes
  have hbytes : timingSafeBigIntEqual a b = true ↔ signalBytes a = signalBytes b := by
    rw [timingSafeBigIntEqual, Bool.and_eq_true, beq_iff_eq, beq_iff_eq]
    exact ⟨fun h => h.2, fun h => ⟨congrArg List.length h, h⟩⟩
  rw [hbytes, SameBytes]
  -- a negative number has too few bytes, all of them zero
  rcases le_or_gt 0 a with ha | ha
  · rcases le_or_gt 0 b with hb | hb
    · obtain ⟨n, rfl⟩ := Int.eq_ofNat_of_zero_le ha
      obtain ⟨m, rfl⟩ := Int.eq_ofNat_of_zero_le hb
      rw [signalBytes_eq_iff, Int.natAbs_natCast, Int.natAbs_natCast]
      omega
    · have hne : signalBytes a ≠ signalBytes b := by
        intro heq
        have hlength := (length_signalBytes a).mp ha
        rw [heq, ← length_signalBytes] at hlength
        omega
      exact iff_of_false hne (by omega)
  · rcases le_or_gt 0 b with hb | hb
    · have hne : signalBytes a ≠ signalBytes b := by
        intro heq
        have hlength := (length_signalBytes b).mp hb
        rw [← heq, ← length_signalBytes] at hlength
        omega
      exact iff_of_false hne (by omega)
    · have hsign : ∀ i : ℤ, i < 0 → signalBytes i = List.replicate (signByte i.natAbs) 0 := by
        intro i hi
        have heq : i = -(i.natAbs : ℤ) := by omega
        rw [heq, signalBytes_neg (by omega), ← heq]
      rw [hsign a ha, hsign b hb]
      constructor
      · intro h
        have hlength := congrArg List.length h
        rw [List.length_replicate, List.length_replicate] at hlength
        exact .inr ⟨ha, hb, hlength⟩
      · rintro (⟨hpos, -⟩ | ⟨-, -, h⟩)
        · omega
        · rw [h]

/-! ## What gets to the verifier -/

/-- The commitment in a user's metadata. -/
def commitmentOf (metadata : Json) : Option ℤ :=
  match metadata.get? (js "commitment") with
  | some (.str commitment) => (parseBigIntText commitment).toOption
  | _ => none

/-- What a submit compares its signals with: the commitment of the user that was
    found, and the hash of its DID hash and of the nonce of the row that was read. -/
def Stored (cfg : Settings) (es : List (Act sig Failure)) (commitment hash : ℤ) : Prop :=
  ∃ x ∈ es, ∃ y ∈ es, ∃ row metadata d n, loadedRow x = some row ∧
    answeredMetadata y = some metadata ∧ commitmentOf metadata = some commitment ∧
    didHashOf metadata = some d ∧ nonceHexToField row.nonceHex = .ok n ∧
    hash = cfg.poseidon2 d n

/-- There are three signals, and the first two denote `a` and `b`. -/
def Denote (publicSignals : Json) (a b : ℤ) : Prop :=
  ∃ s₀ s₁ s₂, publicSignals = .arr [s₀, s₁, s₂] ∧ parseBigIntFromSignal s₀ = .ok a ∧
    parseBigIntFromSignal s₁ = .ok b

section Calls

variable {cfg : Settings} {input : SubmitInput}

/-- The user that was found, and the signals compared with it. -/
theorem returns_checkUser_signals :
    Returns (fun es user => ∃ y ∈ es, ∃ metadata s₀ s₂ a c, answeredMetadata y = some metadata ∧
      metadata.get? (js "did_hash") = some (.str user.1.didHash) ∧
      commitmentOf metadata = some c ∧ input.publicSignals = .arr [s₀, user.2, s₂] ∧
      parseBigIntFromSignal s₀ = .ok a ∧ SameBytes a c) (checkUser input) := by
  -- a user that is found has the texts of a row's metadata
  have hfound : Returns (fun es user => ∀ u, user = some u → ∃ y ∈ es, ∃ metadata,
      answeredMetadata y = some metadata ∧
        metadata.get? (js "did_hash") = some (.str u.didHash) ∧
        metadata.get? (js "commitment") = some (.str u.commitment))
      (findUserByDid input.tenantId input.environment input.did) := by
    apply returns_perform_bind
    intro row
    cases row with
    | none => exact returns_ret nofun
    | some row =>
        obtain ⟨id, metadata⟩ := row
        simp only
        split
        · next didHash commitment hhash hcommitment =>
            apply returns_ret
            intro u hu
            split at hu
            · cases hu
            · cases hu
              exact ⟨_, List.mem_cons_self, metadata, rfl, hhash, hcommitment⟩
        · exact returns_ret nofun
  apply hfound.bind
  intro es user huser
  split
  · exact returns_raise
  · next user =>
      obtain ⟨y, hy, metadata, hmeta, hhash, hcommitment⟩ := huser user rfl
      split
      · exact returns_raise
      · next s₀ s₁ hsignals =>
          -- there are exactly three signals
          obtain ⟨s₂, hthree⟩ : ∃ s₂, input.publicSignals = .arr [s₀, s₁, s₂] := by
            revert hsignals
            unfold threeSignals
            split
            · next s₂ hthree =>
                intro h
                cases h
                exact ⟨s₂, hthree⟩
            · exact nofun
          -- the first one and the stored commitment are read as numbers and compared
          apply Returns.bind (returns_ofExcept (Q := fun _ a => parseBigIntFromSignal s₀ = .ok a)
            fun _ h => h)
          intro es₁ a ha
          apply Returns.bind (returns_ofExcept
            (Q := fun _ c => parseBigIntText user.commitment = .ok c) fun _ h => h)
          intro es₂ c hc
          split
          · next heq =>
              apply returns_ret
              refine ⟨y, List.mem_append_left _ hy, metadata, s₀, s₂, a, c, hmeta, hhash, ?_, hthree,
                ha, (timingSafeBigIntEqual_iff a c).mp heq⟩
              rw [commitmentOf, hcommitment]
              simp only [hc, Except.toOption]
          · exact returns_raise

/-- Where the verifier is called, both comparisons have passed. -/
def VerifierBound (cfg : Settings) (input : SubmitInput) (es : List (Act sig Failure)) (o : Op) :
    Prop :=
  o.kind = .verify → ∃ a b c e, Denote input.publicSignals a b ∧ Stored cfg es c e ∧
    SameBytes a c ∧ SameBytes b e

theorem verifierBound_of_within {ks : List OpKind} {es : List (Act sig Failure)} {o : Op}
    (h : o.Within input.sessionId ks) (hks : .verify ∉ ks) : VerifierBound cfg input es o :=
  fun hk => absurd hk (h.kind_ne hks)

/-- The checks of a row that was read. -/
theorem before_checkRow_bound (correlationId : Uuid) {row : SessionRow}
    {es₀ : List (Act sig Failure)} (hrow : ∃ x ∈ es₀, loadedRow x = some row) :
    Before (fun es o => VerifierBound cfg input (es₀ ++ es) o)
      (checkRow cfg input correlationId row) := by
  obtain ⟨x, hx, hx'⟩ := hrow
  refine Before.bind (Φ := fun _ _ => True)
    (only_checkPlayIntegrity.before fun _ _ ho => verifierBound_of_within ho (by decide))
    (ends_of_forall fun _ _ => trivial) fun es₁ _ _ => ?_
  refine Before.bind (Φ := fun _ _ => True)
    ((only_checkBindToken row).before fun _ _ ho => verifierBound_of_within ho (by decide))
    (ends_of_forall fun _ _ => trivial) fun es₂ _ _ => ?_
  refine Before.bind
    (only_checkUser.before fun _ _ ho => verifierBound_of_within ho (by decide))
    returns_checkUser_signals fun es₃ user huser => ?_
  obtain ⟨y, hy, metadata, s₀, s₂, a, c, hmeta, hhash, hc, hsignals, ha, hac⟩ := huser user rfl
  refine Before.bind
    ((only_checkNonce row _ _).before fun _ _ ho => verifierBound_of_within ho (by decide))
    (returns_checkNonce row user.1 user.2) fun es₄ _ hnonce => ?_
  obtain ⟨d, n, b, hd, hn, hb, heq⟩ := hnonce () rfl
  -- from here on both comparisons have passed
  apply before_of_forall
  intro es₅ o _
  refine ⟨a, b, c, cfg.poseidon2 d n, ⟨s₀, user.2, s₂, hsignals, ha, hb⟩, ?_, hac,
    (timingSafeBigIntEqual_iff b _).mp heq⟩
  refine ⟨x, by simp [hx], y, by simp [hy], row, metadata, d, n, hx', hmeta, hc, ?_, hn, rfl⟩
  rw [didHashOf, hhash]
  simp only [hd, Except.toOption]

theorem before_submitProof_verifier : Before (VerifierBound cfg input) (submitProof cfg input) := by
  refine before_perform_bind.mpr ⟨by simp [VerifierBound, Op.kind], fun start => ?_⟩
  refine before_perform_bind.mpr ⟨by simp [VerifierBound, Op.kind], fun correlationId => ?_⟩
  refine Before.tryCatch (Φ := fun _ _ => True) ?_ (ends_of_forall fun _ _ => trivial)
    fun es e _ => (only_submitCatch correlationId start e).before fun _ _ ho =>
      verifierBound_of_within ho (by decide)
  refine Before.bind (Φ := fun _ _ => True) ?_ (ends_of_forall fun _ _ => trivial)
    fun es user _ => ?_
  · refine Before.bind (only_loadOpenSession.before fun _ _ ho =>
      verifierBound_of_within ho (by decide)) returns_loadOpenSession fun es row hload => ?_
    obtain ⟨x, hx, hrow⟩ := hload row rfl
    have hloaded : ∃ x ∈ (⟨.now, .ok start⟩ :: ⟨.uuidv4, .ok correlationId⟩ :: es :
        List (Act sig Failure)), loadedRow x = some row := ⟨x, by simp [hx], hrow⟩
    exact before_checkRow_bound correlationId hloaded
  · refine Only.before (P := Op.Within input.sessionId [.claim, .trail, .plain]) ?_ fun _ _ ho =>
      verifierBound_of_within ho (by decide)
    refine Only.bind ((only_claimSession user).mono fun _ ho => ho.mono (by simp)) fun row => ?_
    exact (only_mintTokens user correlationId start row).mono fun _ ho => ho.mono (by simp)

end Calls

/-- Different numbers that the comparison does not tell apart. -/
def Confused (a b : ℤ) : Prop := a ≠ b ∧ SameBytes a b

/-- The comparison is that of the numbers except for two that are confused.  And a
    submit gets to the verifier only with three signals of which the first denotes
    the stored commitment and the second the hash of DID hash and nonce, or a number
    that is confused with it. -/
theorem signals_bound (cfg : Settings) :
    (∀ a b : ℤ, (timingSafeBigIntEqual a b = true ↔ a = b) ↔ ¬ Confused a b) ∧
    ∀ input : SubmitInput, Before (fun es (o : Op) => o.kind = .verify → ∃ a b c e,
      Denote input.publicSignals a b ∧ Stored cfg es c e ∧ (a = c ∨ Confused a c) ∧
        (b = e ∨ Confused b e)) (submitProof cfg input) := by
  have hsplit : ∀ a b : ℤ, SameBytes a b → a = b ∨ Confused a b := by
    intro a b h
    by_cases hab : a = b
    · exact .inl hab
    · exact .inr ⟨hab, h⟩
  refine ⟨fun a b => ?_, fun input => before_submitProof_verifier.mono fun es o h hk => ?_⟩
  · rw [timingSafeBigIntEqual_iff]
    constructor
    · rintro h ⟨hne, hsame⟩
      exact hne (h.mp hsame)
    · intro h
      constructor
      · exact fun hsame => (hsplit a b hsame).resolve_right h
      · rintro rfl
        exact (timingSafeBigIntEqual_iff a a).mp (by simp [timingSafeBigIntEqual])
  · obtain ⟨a, b, c, e, hdenote, hstored, hac, hbe⟩ := h hk
    exact ⟨a, b, c, e, hdenote, hstored, hsplit a c hac, hsplit b e hbe⟩

/-! ## A signal with one digit too many -/

/-- The commitment `2 ^ 252`, of 64 hex digits. -/
def wideUser : TenantUser :=
  { enrolled with
    metadata := .obj [(js "did", .str (js "did:zeroauth:face:00")), (js "did_hash", .str (js "1")),
      (js "commitment", .str (js
        "7237005577332262213973186563042994240829374041602535252466099000494570602496"))] }

/-- The first signal is `2 ^ 256`, the commitment with a zero behind it. -/
def wideSubmit : SubmitInput :=
  { submitWith (some bindCookie) with
    publicSignals := .arr [.str (js
      "115792089237316195423570985008687907853269984665640564039457584007913129639936"),
      .str didHashSession, .str (js "0")] }

/-- The submit, up to the call of the verifier. -/
def wideRun : List (Label Call Oracle Env) :=
  opening ++ .start (.submit wideSubmit) :: (List.replicate 6 1).map fun t => .resume t {}

/-- Call 1 awaits the verifier with the signal `2 ^ 256`, and all commitments are
    `2 ^ 252`. -/
def awaitsVerifier (c : State) : Bool :=
  match c.threads[(1 : ℕ)]? with
  | some ⟨.submit input, _, .await o _⟩ =>
      c.world.users.all (fun u => commitmentOf u.metadata = some (2 ^ 252)) &&
        decide (Op.kind o = .verify) && decide ((threeSignals input.publicSignals).bind
          (fun s => (parseBigIntFromSignal s.1).toOption) = some (2 ^ 256))
  | _ => false

/-- A submit gets to the verifier with a first signal that is not the stored
    commitment. -/
theorem wide_signal_not_told_apart : ¬ ∀ (cfg : Settings) (input : SubmitInput),
    Before (fun es (o : Op) => o.kind = .verify → ∃ a b c e, Denote input.publicSignals a b ∧
      Stored cfg es c e ∧ a = c ∧ b = e) (submitProof cfg input) := by
  intro h
  have hrun : (((system settings jsonb).run (.init { initial with users := [wideUser] })
      wideRun).map awaitsVerifier) = some true := by
    decide +kernel
  obtain ⟨c, hc, hawaits⟩ := Option.map_eq_some_iff.mp hrun
  have hempty : Empty { initial with users := [wideUser] } := rfl
  have hreach : (system settings jsonb).Reach Empty (fun _ _ => True) c :=
    System.Reach.run (.init hempty) (System.keeps_of_forall fun _ _ _ => trivial) hc
  unfold awaitsVerifier at hawaits
  split at hawaits
  · next input past o k hth =>
      rw [Bool.and_eq_true, Bool.and_eq_true, List.all_eq_true, decide_eq_true_eq,
        decide_eq_true_eq] at hawaits
      obtain ⟨⟨husers, hkind⟩, hsignal⟩ := hawaits
      have hcode := Before.bind (Φ := fun _ _ => True) (h settings input)
        (ends_of_forall fun _ _ => trivial)
        (f := fun r => pure (Result.submitted r)) fun _ _ _ => trivial
      obtain ⟨a, b, commitment, e, ⟨s₀, s₁, s₂, hthree, ha, -⟩, ⟨x, -, y, hy, row, metadata, d, n, -,
        hmeta, hcommitment, -⟩, hequal, -⟩ := hreach.before hth hcode hkind
      obtain ⟨u, hu, rfl⟩ := user_of_answered hreach _ ((hreach.mem_log hth).mp hy) metadata hmeta
      have hstored := of_decide_eq_true (husers u hu)
      rw [hcommitment] at hstored
      rw [hthree, threeSignals, Option.bind_some, ha] at hsignal
      rw [Option.some.inj hsignal, Option.some.inj hstored] at hequal
      exact absurd hequal (by norm_num)
  · cases hawaits

end ZeroAuth.Pairing
