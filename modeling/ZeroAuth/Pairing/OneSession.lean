/-
  ZeroAuth.Pairing.OneSession

  The public signals of a login are good for one session.

  An accepted second signal is the hash of a DID hash and of the nonce of its session,
  and no two sessions have the same nonce.  So no signals are accepted twice as they
  stand, in any run (`accepted_differ`).  But a number of 65 hex digits is compared
  without its last one, and the field element that it denotes may be that of the
  signal of another session (`alias_accepted`).  `signals_good_for_one_session` is
  about the runs in which nobody sends such a number.
-/

import ZeroAuth.Pairing.Signals

namespace ZeroAuth.Pairing

open ZeroAuth.Lib ZeroAuth.Js ZeroAuth.Pg ZeroAuth.Audit ZeroAuth.Tenant Prog

/-! ## The property and the condition -/

/-- The order of the scalar field of BN254. -/
def scalarField : ℤ :=
  21888242871839275222246405745257275088548364400416034343698204186575808495617

/-- Of the DID hashes that are stored and the nonces of the sessions, no two pairs
    with different nonces have the same hash. -/
def InjectiveOn (poseidon2 : ℤ → ℤ → ℤ) (w : World) : Prop :=
  ∀ u ∈ w.users, ∀ u' ∈ w.users, ∀ r ∈ w.sessions, ∀ r' ∈ w.sessions, ∀ d d' n n',
    didHashOf u.metadata = some d → didHashOf u'.metadata = some d' →
    nonceHexToField r.nonceHex = .ok n → nonceHexToField r'.nonceHex = .ok n' →
    poseidon2 d n = poseidon2 d' n' → n = n'

/-- Two submits whose second signals denote different field elements. -/
def OtherElement (input input' : SubmitInput) : Prop :=
  ∃ i i', secondSignal input.publicSignals = some i ∧ secondSignal input'.publicSignals = some i' ∧
    ¬ i ≡ i' [ZMOD scalarField]

/-- A number with one hex digit more than 64, which is that of a field element without
    its last digit. -/
def Overlong (i : ℤ) : Prop := 2 ^ 256 ≤ i ∧ i < 16 * scalarField

instance (i : ℤ) : Decidable (Overlong i) := inferInstanceAs (Decidable (_ ∧ _))

/-- The second signal of a submit is not overlong. -/
def NotOverlong (input : SubmitInput) : Prop :=
  ∀ i, secondSignal input.publicSignals = some i → ¬ Overlong i

/-- Nobody submits an overlong signal. -/
def NoOverlong (_ : State) : Label Call Oracle Env → Prop
  | .start (.submit input) => NotOverlong input
  | _ => True

/-! ## What the comparison leaves open -/

/-- A number of at most 64 hex digits is compared as it is. -/
theorem kept_of_lt {n : ℕ} (h : n < 2 ^ 256) : kept n = n := by
  have hlength : (numText 16 n).length ≤ 64 := by
    unfold numText
    split
    · simp
    · rw [List.length_reverse, List.length_map, Nat.digits_length_le_iff (by omega)]
      exact h.trans_eq (by norm_num)
  have hcount : digitCount n = 64 := by
    rw [digitCount, max_eq_left hlength]
  rw [kept, hcount, if_neg (by omega)]

/-- Beside a field element itself only an overlong number is taken for it. -/
theorem eq_or_overlong {i hash : ℤ} (hhash : 0 ≤ hash ∧ hash < scalarField)
    (h : timingSafeBigIntEqual i hash = true) : i = hash ∨ Overlong i := by
  have hfield : scalarField < 2 ^ 256 := by decide
  rcases (timingSafeBigIntEqual_iff i hash).mp h with ⟨hi, -, hkept⟩ | ⟨-, hneg, -⟩
  · obtain ⟨n, rfl⟩ := Int.eq_ofNat_of_zero_le hi
    obtain ⟨m, rfl⟩ := Int.eq_ofNat_of_zero_le hhash.1
    rw [Int.natAbs_natCast, Int.natAbs_natCast, kept_of_lt (n := m) (by omega)] at hkept
    by_cases hn : n < 2 ^ 256
    · rw [kept_of_lt hn] at hkept
      exact .inl (congrArg Nat.cast hkept)
    · right
      rw [kept] at hkept
      split at hkept
      · exact ⟨by omega, by omega⟩
      · omega
  · omega

/-! ## Runs -/

section Runs

variable {cfg : Settings} {pg : Jsonb} {good : State → Label Call Oracle Env → Prop} {c : State}

/-- Two sessions with one field element as nonce are one. -/
theorem id_of_nonce (h : (system cfg pg).Reach Empty good c)
    (hnonces : ∀ r ∈ c.world.sessions, ∀ r' ∈ c.world.sessions,
      r.nonceHex = r'.nonceHex → r.id = r'.id) :
    ∀ r ∈ c.world.sessions, ∀ r' ∈ c.world.sessions, ∃ n n', nonceHexToField r.nonceHex = .ok n ∧
      nonceHexToField r'.nonceHex = .ok n' ∧ (n = n' → r.id = r'.id) := by
  intro r hr r' hr'
  obtain ⟨bs, hlen, htext⟩ := nonce_of_reach h r hr
  obtain ⟨bs', hlen', htext'⟩ := nonce_of_reach h r' hr'
  obtain ⟨ds, -, -, hn⟩ := nonceHexToField_hexBytes hlen
  obtain ⟨ds', -, -, hn'⟩ := nonceHexToField_hexBytes hlen'
  refine ⟨_, _, htext ▸ hn, htext' ▸ hn', fun heq => hnonces r hr r' hr' ?_⟩
  rw [← heq] at hn'
  rw [htext, htext']
  exact nonceHexToField_injective hlen hlen' hn hn'

/-- The hashes that the signals of two logins on two sessions were compared with are
    different field elements. -/
theorem hashes_of_accepted
    (hfield : ∀ d n, 0 ≤ cfg.poseidon2 d n ∧ cfg.poseidon2 d n < scalarField)
    (h : (system cfg pg).Reach Empty good c)
    (hnonces : ∀ r ∈ c.world.sessions, ∀ r' ∈ c.world.sessions,
      r.nonceHex = r'.nonceHex → r.id = r'.id)
    (hposeidon : InjectiveOn cfg.poseidon2 c.world) {t t' : ℕ} {input input' : SubmitInput}
    (hacc : Accepted c t input) (hacc' : Accepted c t' input')
    (hne : Uuid.parse input.sessionId ≠ Uuid.parse input'.sessionId) :
    ∃ i i' hash hash', secondSignal input.publicSignals = some i ∧
      secondSignal input'.publicSignals = some i' ∧ (0 ≤ hash ∧ hash < scalarField) ∧
      (0 ≤ hash' ∧ hash' < scalarField) ∧ timingSafeBigIntEqual i hash = true ∧
      timingSafeBigIntEqual i' hash' = true ∧ hash ≠ hash' := by
  obtain ⟨r, hr, u, hu, i, d, n, hparse, hd, hn, hi, heq⟩ := bound_of_accepted h hacc
  obtain ⟨r', hr', u', hu', i', d', n', hparse', hd', hn', hi', heq'⟩ := bound_of_accepted h hacc'
  refine ⟨i, i', _, _, hi, hi', hfield d n, hfield d' n', heq, heq', fun hsame => ?_⟩
  have hnn := hposeidon u hu u' hu' r hr r' hr' d d' n n' hd hd' hn hn' hsame
  obtain ⟨m, m', hm, hm', hid⟩ := id_of_nonce h hnonces r hr r' hr'
  have hmm : m = m' := by
    rw [hn] at hm
    rw [hn'] at hm'
    rw [← Except.ok.inj hm, ← Except.ok.inj hm', hnn]
  rw [hparse, hparse', hid hmm] at hne
  exact hne rfl

/-- In every run the signals that are accepted on two sessions differ, and denote
    different integers. -/
theorem accepted_differ
    (hfield : ∀ d n, 0 ≤ cfg.poseidon2 d n ∧ cfg.poseidon2 d n < scalarField)
    (h : (system cfg pg).Reach Empty good c)
    (hnonces : ∀ r ∈ c.world.sessions, ∀ r' ∈ c.world.sessions,
      r.nonceHex = r'.nonceHex → r.id = r'.id)
    (hposeidon : InjectiveOn cfg.poseidon2 c.world) {t t' : ℕ} {input input' : SubmitInput}
    (hacc : Accepted c t input) (hacc' : Accepted c t' input')
    (hne : Uuid.parse input.sessionId ≠ Uuid.parse input'.sessionId) :
    input.publicSignals ≠ input'.publicSignals ∧ ∃ i i', secondSignal input.publicSignals = some i ∧
      secondSignal input'.publicSignals = some i' ∧ i ≠ i' := by
  obtain ⟨i, i', hash, hash', hi, hi', hlt, hlt', heq, heq', hhash⟩ :=
    hashes_of_accepted hfield h hnonces hposeidon hacc hacc' hne
  have hwide : scalarField < 2 ^ 256 := by decide
  have hii : i ≠ i' := by
    rintro rfl
    exact hhash (signalBytes_injective ⟨hlt.1, hlt.2.trans hwide⟩ ⟨hlt'.1, hlt'.2.trans hwide⟩
      ((signalBytes_of_equal heq).symm.trans (signalBytes_of_equal heq')))
  refine ⟨fun hsame => ?_, i, i', hi, hi', hii⟩
  rw [hsame, hi'] at hi
  exact hii (Option.some.inj hi).symm

/-- The public signals of a login are good for one session: over all runs without
    overlong signals, tokens are issued on two sessions only for signals of which the
    second ones denote different field elements. -/
theorem signals_good_for_one_session
    (hfield : ∀ d n, 0 ≤ cfg.poseidon2 d n ∧ cfg.poseidon2 d n < scalarField)
    (h : (system cfg pg).Reach Empty NoOverlong c)
    (hnonces : ∀ r ∈ c.world.sessions, ∀ r' ∈ c.world.sessions,
      r.nonceHex = r'.nonceHex → r.id = r'.id)
    (hposeidon : InjectiveOn cfg.poseidon2 c.world) :
    -- two sessions have two field elements as nonces
    (∀ r ∈ c.world.sessions, ∀ r' ∈ c.world.sessions, ∃ n n', nonceHexToField r.nonceHex = .ok n ∧
      nonceHexToField r'.nonceHex = .ok n' ∧ (n = n' → r.id = r'.id)) ∧
    -- no signals are accepted for both
    ∀ t t' input input', Accepted c t input → Accepted c t' input' →
      Uuid.parse input.sessionId ≠ Uuid.parse input'.sessionId →
      input.publicSignals ≠ input'.publicSignals ∧ OtherElement input input' := by
  refine ⟨id_of_nonce h hnonces, fun t t' input input' hacc hacc' hne =>
    ⟨(accepted_differ hfield h hnonces hposeidon hacc hacc' hne).1, ?_⟩⟩
  have hsubmitted : ∀ {t : ℕ} {input : SubmitInput}, Accepted c t input → NotOverlong input := by
    rintro t input ⟨th, hth, hcall, -⟩
    have hcalls := h.call_good (P := fun a => ∀ input, a = .submit input → NotOverlong input)
      (fun _ a hg input ha => by subst ha; exact hg) hth
    exact hcalls input hcall
  obtain ⟨i, i', hash, hash', hi, hi', hlt, hlt', heq, heq', hhash⟩ :=
    hashes_of_accepted hfield h hnonces hposeidon hacc hacc' hne
  -- the signals are the hashes themselves
  obtain rfl := (eq_or_overlong hlt heq).resolve_right (hsubmitted hacc i hi)
  obtain rfl := (eq_or_overlong hlt' heq').resolve_right (hsubmitted hacc' i' hi')
  refine ⟨i, i', hi, hi', fun hmod => hhash ?_⟩
  rwa [Int.ModEq, Int.emod_eq_of_lt hlt.1 hlt.2, Int.emod_eq_of_lt hlt'.1 hlt'.2] at hmod

end Runs

/-! ## Two sessions of one user -/

/-- The hashes of a DID hash with the two nonces 2 and 3. -/
def twoHashes (two three : ℤ) (_ n : ℤ) : ℤ := if n = 3 then three else two

def twoSettings (two three : ℤ) : Settings := ⟨js "zeroauth.dev", none, true, twoHashes two three⟩

/-- Both sessions are opened, and one login is made on each. -/
def twoLogins (first second : SubmitInput) : List (Label Call Oracle Env) :=
  opening ++ secondOpening ++ [.start (.submit first), .start (.submit second)] ++
    (List.replicate 15 2 ++ List.replicate 15 3).map fun t => .resume t {}

/-- The nonces of all sessions are 2 and 3, and different. -/
def nonceTwoOrThree (c : State) : Bool :=
  c.world.sessions.all fun r =>
    ((nonceHexToField r.nonceHex).toOption = some 2 || (nonceHexToField r.nonceHex).toOption = some 3) &&
      c.world.sessions.all fun r' => r.nonceHex ≠ r'.nonceHex || r.id = r'.id

/-- Calls 2 and 3 have returned, on different sessions. -/
def bothReturned (c : State) : Bool :=
  match ended? c 2, ended? c 3 with
  | some (input, .ok _), some (input', .ok _) =>
      Uuid.parse input.sessionId ≠ Uuid.parse input'.sessionId
  | _, _ => false

theorem exists_of_bothReturned {c : State} (h : bothReturned c = true) :
    ∃ input res input' res', ended? c 2 = some (input, .ok res) ∧
      ended? c 3 = some (input', .ok res') ∧
      Uuid.parse input.sessionId ≠ Uuid.parse input'.sessionId := by
  unfold bothReturned at h
  split at h
  · next input res input' res' hend hend' =>
      exact ⟨input, res, input', res', hend, hend', of_decide_eq_true h⟩
  · cases h

section TwoHashes

variable {two three : ℤ} {c : State}

theorem twoHashes_lt (htwo : 0 ≤ two ∧ two < scalarField) (hthree : 0 ≤ three ∧ three < scalarField)
    (d n : ℤ) : 0 ≤ twoHashes two three d n ∧ twoHashes two three d n < scalarField := by
  unfold twoHashes
  split
  · exact hthree
  · exact htwo

/-- The two hashes differ where the nonces do. -/
theorem injectiveOn_twoHashes (hne : two ≠ three) (h : nonceTwoOrThree c = true) :
    InjectiveOn (twoHashes two three) c.world := by
  intro u _ u' _ r hr r' hr' d d' n n' _ _ hn hn' heq
  have hval : ∀ r ∈ c.world.sessions, ∀ n, nonceHexToField r.nonceHex = .ok n → n = 2 ∨ n = 3 := by
    intro r hr n hn
    have hone := (Bool.and_eq_true_iff.mp (List.all_eq_true.mp h r hr)).1
    simp only [hn, Except.toOption, Option.some.injEq, Bool.or_eq_true, decide_eq_true_eq] at hone
    exact hone
  have htwo : ∀ d, twoHashes two three d 2 = two := fun d => if_neg (by decide)
  have hthree : ∀ d, twoHashes two three d 3 = three := fun d => if_pos rfl
  rcases hval r hr n hn with rfl | rfl
  · rcases hval r' hr' n' hn' with rfl | rfl
    · rfl
    · rw [htwo, hthree] at heq
      exact absurd heq hne
  · rcases hval r' hr' n' hn' with rfl | rfl
    · rw [htwo, hthree] at heq
      exact absurd heq.symm hne
    · rfl

theorem ids_of_nonces (h : nonceTwoOrThree c = true) :
    ∀ r ∈ c.world.sessions, ∀ r' ∈ c.world.sessions, r.nonceHex = r'.nonceHex → r.id = r'.id := by
  intro r hr r' hr' heq
  have hone := (Bool.and_eq_true_iff.mp (List.all_eq_true.mp h r hr)).2
  have htwo := List.all_eq_true.mp hone r' hr'
  simpa [heq] using htwo

end TwoHashes

/-- The Poseidon hash of 1 and 2. -/
def hashTwo : ℤ := 7853200120776062878684798364095072458815029376092732009249414926327459813530

/-- The Poseidon hash of 1 and 3. -/
def hashThree : ℤ := 21106761926285267690763443010820487107972411248208546226053195422384279971821

/-- The field element that `16 * hashTwo` denotes. -/
def aliasOfTwo : ℤ := 16209987573220629947724745099234783898298648015403540429499617888360314538395

def notOverlong (_ : State) : Label Call Oracle Env → Bool
  | .start (.submit input) =>
      (secondSignal input.publicSignals).all fun i => decide (¬ Overlong i)
  | _ => true

theorem noOverlong_of_test (c : State) (l : Label Call Oracle Env) (h : notOverlong c l = true) :
    NoOverlong c l := by
  cases l with
  | start a =>
      cases a with
      | submit input =>
          intro i hi
          rw [notOverlong, hi] at h
          exact of_decide_eq_true h
      | _ => trivial
  | _ => trivial

/-- Two logins of one user on two sessions, each with its own second signal. -/
theorem signals_good_for_one_session_of_two : ∃ c input input',
    (system (twoSettings hashTwo hashThree) jsonb).Reach Empty NoOverlong c ∧ Accepted c 2 input ∧
      Accepted c 3 input' ∧ input.publicSignals ≠ input'.publicSignals ∧
      OtherElement input input' := by
  have hrun : (((system (twoSettings hashTwo hashThree) jsonb).runChecked notOverlong (.init initial)
      (twoLogins (submitWith (some bindCookie)) (secondSubmit (js
        "21106761926285267690763443010820487107972411248208546226053195422384279971821")))).map
      fun c => bothReturned c && nonceTwoOrThree c) = some true := by
    decide +kernel
  obtain ⟨c, hc, hcheck⟩ := Option.map_eq_some_iff.mp hrun
  obtain ⟨hboth, hnonces⟩ := Bool.and_eq_true_iff.mp hcheck
  obtain ⟨input, res, input', res', hend, hend', hne⟩ := exists_of_bothReturned hboth
  have hreach : (system (twoSettings hashTwo hashThree) jsonb).Reach Empty NoOverlong c :=
    System.Reach.runChecked (.init empty_initial) noOverlong_of_test hc
  have hacc := accepted_of_ended hreach (ended_of_ended? hend)
  have hacc' := accepted_of_ended hreach (ended_of_ended? hend')
  have hgood := (signals_good_for_one_session (twoHashes_lt (by decide) (by decide)) hreach
    (ids_of_nonces hnonces) (injectiveOn_twoHashes (by decide) hnonces)).2 2 3 input input' hacc
      hacc' hne
  exact ⟨c, input, input', hreach, hacc, hacc', hgood⟩

/-! ## One field element on two sessions -/

/-- The first submit, with `16 * hashTwo` for `hashTwo`: one hex digit more. -/
def aliasSubmit : SubmitInput :=
  { submitWith (some bindCookie) with
    publicSignals := .arr [.str (js "5"), .str (js
      "125651201932417006058956773825521159341040470017483712147990638821239357016480"),
      .str (js "0")] }

/-- Calls 2 and 3 were made with signals that denote one field element. -/
def sameElement (c : State) : Bool :=
  match ended? c 2, ended? c 3 with
  | some (input, _), some (input', _) =>
      match secondSignal input.publicSignals, secondSignal input'.publicSignals with
      | some i, some i' => decide (i % scalarField = i' % scalarField)
      | _, _ => false
  | _, _ => false

/-- Where the hash of the second session is the field element of `16 * hashTwo`, the two
    signals denote one field element, and both are accepted. -/
theorem alias_accepted : ¬ ∀ (cfg : Settings) (pg : Jsonb) (c : State),
    (∀ d n, 0 ≤ cfg.poseidon2 d n ∧ cfg.poseidon2 d n < scalarField) →
    (system cfg pg).Reach Empty (fun _ _ => True) c →
    (∀ r ∈ c.world.sessions, ∀ r' ∈ c.world.sessions, r.nonceHex = r'.nonceHex → r.id = r'.id) →
    InjectiveOn cfg.poseidon2 c.world → ∀ t t' input input', Accepted c t input →
      Accepted c t' input' → Uuid.parse input.sessionId ≠ Uuid.parse input'.sessionId →
      OtherElement input input' := by
  intro h
  have hrun : (((system (twoSettings hashTwo aliasOfTwo) jsonb).run (.init initial)
      (twoLogins aliasSubmit (secondSubmit (js
        "16209987573220629947724745099234783898298648015403540429499617888360314538395")))).map
      fun c => bothReturned c && nonceTwoOrThree c && sameElement c) = some true := by
    decide +kernel
  obtain ⟨c, hc, hcheck⟩ := Option.map_eq_some_iff.mp hrun
  rw [Bool.and_eq_true, Bool.and_eq_true] at hcheck
  obtain ⟨⟨hboth, hnonces⟩, hsame⟩ := hcheck
  have hreach : (system (twoSettings hashTwo aliasOfTwo) jsonb).Reach Empty (fun _ _ => True) c :=
    System.Reach.run (.init empty_initial) (System.keeps_of_forall fun _ _ _ => trivial) hc
  obtain ⟨input, res, input', res', hend, hend', hne⟩ := exists_of_bothReturned hboth
  obtain ⟨i, i', hi, hi', hmod⟩ := h _ jsonb c (twoHashes_lt (by decide) (by decide)) hreach
    (ids_of_nonces hnonces) (injectiveOn_twoHashes (by decide) hnonces) 2 3 input input'
    (accepted_of_ended hreach (ended_of_ended? hend))
    (accepted_of_ended hreach (ended_of_ended? hend')) hne
  rw [sameElement, hend, hend'] at hsame
  simp only [hi, hi', decide_eq_true_eq] at hsame
  exact hmod hsame

end ZeroAuth.Pairing
