/-
  ZeroAuth.Android.ProverJs

  The scripts of the prover page: the Poseidon hash of assets/prover/poseidon.js, and
  what assets/prover/prover.js checks and computes before it calls snarkjs.
  `zaPoseidon2` is the hash of Poseidon.kt (`zaPoseidon2_eq_hash2`).
-/

import ZeroAuth.Android.Poseidon
import ZeroAuth.Android.ProofQr
import ZeroAuth.Js.Value
import Mathlib.Tactic.Ring

namespace ZeroAuth.Android

open ZeroAuth.Js ZeroAuth.Lib

/-! ## poseidon.js -/

namespace PoseidonJs

def fieldModulus : ℕ :=
  21888242871839275222246405745257275088548364400416034343698204186575808495617

/-- `C_B64.map(b64ToBigInt)`: the base64 strings of poseidon.js encode the numbers of
    `C_T3`. -/
def c : List ℕ := PoseidonConstants.cT3

/-- `M_B64`, decoded in the same way: the rows of `M_T3`. -/
def m : List (List ℕ) := PoseidonConstants.mT3

def nRoundsF : ℕ := 8

def nRoundsP : ℕ := 57

def pow5 (v : ℕ) : ℕ :=
  let o := v * v % fieldModulus
  v * o % fieldModulus * o % fieldModulus

def mix (state : List ℕ) : List ℕ :=
  (List.range 3).map fun x =>
    (List.range 3).foldl (fun o y => o + (m.getD x []).getD y 0 * state.getD y 0) 0 % fieldModulus

/-- Round `x`. -/
def round (state : List ℕ) (x : ℕ) : List ℕ :=
  mix ((List.range 3).map fun y =>
    let s := (state.getD y 0 + c.getD (x * 3 + y) 0) % fieldModulus
    if x < nRoundsF / 2 || x ≥ nRoundsF / 2 + nRoundsP then pow5 s
    else if y = 0 then pow5 s
    else s)

/-- `window.zaPoseidon2`. -/
def zaPoseidon2 (a b : ℕ) : ℕ :=
  ((List.range (nRoundsF + nRoundsP)).foldl round [0, a, b]).getD 0 0 % fieldModulus

/-! ### The hash of Poseidon.kt -/

theorem pow5_eq (v : ℕ) : pow5 v = Poseidon.pow5 v := by
  have hfield : fieldModulus = PoseidonConstants.field := rfl
  simp only [pow5, Poseidon.pow5, hfield]
  rw [Nat.mod_mul_mod, Nat.mod_mul_mod]
  congr 1
  ring

/-- One row of the matrix: the loop adds up what `zipWith` and `sum` do. -/
theorem foldl_row (a b c p q r : ℕ) :
    (List.range 3).foldl (fun o y => o + [a, b, c].getD y 0 * [p, q, r].getD y 0) 0 =
      (List.zipWith (· * ·) [a, b, c] [p, q, r]).sum := by
  simp only [List.range_succ, List.range_zero, List.nil_append, List.cons_append, List.foldl_cons,
    List.foldl_nil, List.getD_cons_zero, List.getD_cons_succ, List.zipWith_cons_cons,
    List.zipWith_nil_left, List.sum_cons, List.sum_nil]
  ring

theorem mix_eq (p q r : ℕ) :
    mix [p, q, r] = Poseidon.mix [p, q, r] PoseidonConstants.mT3 := by
  have hrange : List.range 3 = [0, 1, 2] := rfl
  have hrow (x : ℕ) (a b c : ℕ) (hx : m.getD x [] = [a, b, c]) :
      [0, 1, 2].foldl (fun o y => o + (m.getD x []).getD y 0 * [p, q, r].getD y 0) 0 %
          fieldModulus =
        (List.zipWith (· * ·) [a, b, c] [p, q, r]).sum % PoseidonConstants.field := by
    rw [hx, ← hrange, foldl_row]
    rfl
  unfold mix
  rw [hrange]
  rw [List.map_cons, List.map_cons, List.map_cons, List.map_nil, hrow 0 _ _ _ rfl,
    hrow 1 _ _ _ rfl, hrow 2 _ _ _ rfl]
  rfl

theorem length_c : PoseidonConstants.cT3.length = 195 := by decide +kernel

/-- Round `x` of both: the script reduces a lane when it has added the constant, the
    Kotlin code has its lanes reduced already. -/
theorem round_eq {x : ℕ} (hx : x < 65) (p q r : ℕ) :
    round [p, q, r] x = Poseidon.round PoseidonConstants.cT3 PoseidonConstants.mT3 57 3
      [p % PoseidonConstants.field, q % PoseidonConstants.field, r % PoseidonConstants.field] x := by
  have hlen : PoseidonConstants.cT3.length = 195 := length_c
  have hget (i : ℕ) (hi : x * 3 + i < PoseidonConstants.cT3.length) :
      c.getD (x * 3 + i) 0 = PoseidonConstants.cT3[x * 3 + i] := by
    rw [List.getD_eq_getElem?_getD, c, List.getElem?_eq_getElem hi, Option.getD_some]
  have hdrop : PoseidonConstants.cT3.drop (x * 3) =
      c.getD (x * 3 + 0) 0 :: c.getD (x * 3 + 1) 0 :: c.getD (x * 3 + 2) 0 ::
        PoseidonConstants.cT3.drop (x * 3 + 3) := by
    rw [hget 0 (by omega), hget 1 (by omega), hget 2 (by omega),
      List.drop_eq_getElem_cons (by omega), List.drop_eq_getElem_cons (i := x * 3 + 1) (by omega),
      List.drop_eq_getElem_cons (i := x * 3 + 2) (by omega)]
    rfl
  have hfield : fieldModulus = PoseidonConstants.field := rfl
  have hrange : List.range 3 = [0, 1, 2] := rfl
  unfold round Poseidon.round
  simp only [hdrop, hrange, hfield, List.map_cons, List.map_nil, List.zipWith_cons_cons,
    List.zipWith_nil_left, List.getD_cons_zero, List.getD_cons_succ, Nat.mod_add_mod, pow5_eq,
    if_true, Nat.one_ne_zero, if_false, OfNat.ofNat_ne_zero]
  rw [show nRoundsF = PoseidonConstants.nRoundsF from rfl, show nRoundsP = 57 from rfl]
  split
  · exact mix_eq _ _ _
  · exact mix_eq _ _ _

theorem round_lanes (x p q r : ℕ) :
    ∃ p' q' r', round [p, q, r] x = [p', q', r'] ∧ p' < fieldModulus ∧ q' < fieldModulus ∧
      r' < fieldModulus := by
  have hrange : List.range 3 = [0, 1, 2] := rfl
  have hpos : 0 < fieldModulus := by decide
  unfold round
  rw [mix, hrange]
  exact ⟨_, _, _, rfl, Nat.mod_lt _ hpos, Nat.mod_lt _ hpos, Nat.mod_lt _ hpos⟩

/-- After the first round no lane is left to reduce, and the rounds agree. -/
theorem foldl_round_eq {xs : List ℕ} (hxs : ∀ x ∈ xs, x < 65) {p q r : ℕ}
    (hp : p < fieldModulus) (hq : q < fieldModulus) (hr : r < fieldModulus) :
    xs.foldl round [p, q, r] =
      xs.foldl (Poseidon.round PoseidonConstants.cT3 PoseidonConstants.mT3 57 3) [p, q, r] := by
  induction xs generalizing p q r with
  | nil => rfl
  | cons x xs ih =>
      have hx : x < 65 := hxs x (by simp)
      have hfield : fieldModulus = PoseidonConstants.field := rfl
      obtain ⟨p', q', r', hround, hp', hq', hr'⟩ := round_lanes x p q r
      have heq := round_eq hx p q r
      rw [← hfield, Nat.mod_eq_of_lt hp, Nat.mod_eq_of_lt hq, Nat.mod_eq_of_lt hr] at heq
      rw [List.foldl_cons, List.foldl_cons, ← heq, hround,
        ih (fun x hx => hxs x (by simp [hx])) hp' hq' hr']

/-- The prover page and the Kotlin code have one hash. -/
theorem zaPoseidon2_eq_hash2 (a b : ℕ) : zaPoseidon2 a b = Poseidon.hash2 a b := by
  have hrange : List.range (nRoundsF + nRoundsP) = 0 :: (List.range 64).map (· + 1) := by
    rw [show nRoundsF + nRoundsP = 64 + 1 from rfl, List.range_succ_eq_map]
  have hlt : ∀ x ∈ (List.range 64).map (· + 1), x < 65 := by
    intro x hx
    obtain ⟨i, hi, rfl⟩ := List.mem_map.mp hx
    have hi := List.mem_range.mp hi
    omega
  have hzero : 0 % PoseidonConstants.field = 0 := rfl
  obtain ⟨p, q, r, hround, hp, hq, hr⟩ := round_lanes 0 0 a b
  have hfirst := round_eq (x := 0) (by omega) 0 a b
  rw [hround, hzero] at hfirst
  have hcore : Poseidon.hash2 a b = ((List.range (nRoundsF + nRoundsP)).foldl
      (Poseidon.round PoseidonConstants.cT3 PoseidonConstants.mT3 57 3)
      [0, a % PoseidonConstants.field, b % PoseidonConstants.field]).headD 0 := rfl
  have hreduced : Poseidon.hash2 a b % fieldModulus = Poseidon.hash2 a b :=
    Nat.mod_eq_of_lt (Poseidon.hash2_lt a b)
  rw [← hreduced, hcore, zaPoseidon2, hrange, List.foldl_cons, List.foldl_cons, hround, ← hfirst,
    foldl_round_eq hlt hp hq hr]
  generalize List.foldl _ _ _ = state
  cases state with
  | nil => rfl
  | cons v rest => rfl

end PoseidonJs

/-! ## prover.js -/

namespace ProverJs

open PoseidonJs (zaPoseidon2)

def fieldModulus : ℕ :=
  21888242871839275222246405745257275088548364400416034343698204186575808495617

/-- `/^[0-9]+$/.test(raw)`, for a string that is not empty. -/
def isDecimal (raw : JsString) : Bool := raw.all isDigit

def requireField (name raw : JsString) : Except JsString ℕ :=
  if raw = [] then .error (name ++ js " must be a non-empty decimal string")
  else if !isDecimal raw then .error (name ++ js " must be a decimal string of digits")
  else
    match bigIntOf raw with
    | none => .error (js "Cannot convert to a BigInt")
    | some n =>
        if n < 0 ∨ n ≥ fieldModulus then .error (name ++ js " is outside the BN128 scalar field")
        else .ok n.toNat

/-- The `inputs` of a prove request; `commitment` is optional. -/
structure Inputs where
  biometricSecret : JsString
  salt : JsString
  commitment : Option JsString
  didHashRaw : JsString
  sessionNonce : JsString
  deriving DecidableEq

/-- What `fullProve` is handed. -/
structure Witness where
  biometricSecret : JsString
  salt : JsString
  commitment : JsString
  didHash : JsString
  identityBinding : JsString
  deriving DecidableEq

/-- The re-check of the commitment that the host has passed, if any. -/
def checkCommitment (given : Option JsString) (commitment : ℕ) : Except JsString Unit :=
  match given with
  | none | some [] => .ok ()
  | some raw =>
      match bigIntOf raw with
      | none => .error (js "Cannot convert to a BigInt")
      | some expectedCommitment =>
          if expectedCommitment ≠ (commitment : ℤ) then
            .error (js "host commitment does not match Poseidon(biometricSecret, salt)")
          else .ok ()

/-- `generateProof`, up to the call of `fullProve`. -/
def buildWitness (inputs : Inputs) : Except JsString Witness := do
  let biometricSecret ← requireField (js "biometricSecret") inputs.biometricSecret
  let salt ← requireField (js "salt") inputs.salt
  let didHashRaw ← requireField (js "didHashRaw") inputs.didHashRaw
  let sessionNonce ← requireField (js "sessionNonce") inputs.sessionNonce
  let didHashSession := zaPoseidon2 didHashRaw sessionNonce
  let identityBinding := zaPoseidon2 biometricSecret didHashSession
  let commitment := zaPoseidon2 biometricSecret salt
  checkCommitment inputs.commitment commitment
  return ⟨numText 10 biometricSecret, numText 10 salt, numText 10 commitment,
    numText 10 didHashSession, numText 10 identityBinding⟩

/-- snarkjs with the bundled circuit and verification key. -/
structure Snarkjs where
  fullProve : Witness → Except JsString (Groth16Proof × List JsString)
  loadVerificationKey : Except JsString Json
  verify : Json → List JsString → Groth16Proof → Except JsString Bool

structure ProveResult where
  proof : Groth16Proof
  publicSignals : List JsString
  didHashSession : JsString
  identityBinding : JsString
  commitment : JsString

def generateProof (snarkjs : Snarkjs) (inputs : Inputs) : Except JsString ProveResult := do
  let witness ← buildWitness inputs
  let (proof, publicSignals) ← snarkjs.fullProve witness
  let vkey ← snarkjs.loadVerificationKey
  let verifyOk ← match snarkjs.verify vkey publicSignals proof with
    | .ok verifyOk => Except.ok verifyOk
    | .error message => .error (js "self-verify threw: " ++ message)
  if !verifyOk then .error (js "snarkjs.groth16.verify returned false")
  else
    return ⟨proof, publicSignals, witness.didHash, witness.identityBinding, witness.commitment⟩

/-- A string property of an object. -/
def stringAt (key : JsString) (data : Json) : JsString :=
  match data.get? key with
  | some (.str s) => s
  | _ => []

/-- The request of `handleProveRequest`: `data.type` and `data.inputs`.  A property that
    is no string fails the first check of `requireField`, like an empty one. -/
def readRequest (data : Json) : Except JsString Inputs :=
  match data.get? (js "type") with
  | some (.str s) =>
      if s = js "prove" then
        let inputs := (data.get? (js "inputs")).getD (.obj [])
        .ok ⟨stringAt (js "biometricSecret") inputs, stringAt (js "salt") inputs,
          some (stringAt (js "commitment") inputs), stringAt (js "didHashRaw") inputs,
          stringAt (js "sessionNonce") inputs⟩
      else .error (js "unsupported message type: " ++ s)
  | _ => .error (js "unsupported message type: undefined")

/-! ### What is accepted -/

/-- The decimal text of an element of the field is accepted and read back. -/
theorem requireField_numText {n : ℕ} (h : n < fieldModulus) (name : JsString) :
    requireField name (numText 10 n) = .ok n := by
  have hdecimal : isDecimal (numText 10 n) = true :=
    List.all_eq_true.mpr fun u hu => isDigit_of_mem_numText u hu
  have hrange : ¬((n : ℤ) < 0 ∨ (n : ℤ) ≥ fieldModulus) := by omega
  rw [requireField, if_neg (numText_ne_nil 10 n), hdecimal, bigIntOf_numText]
  simp only [Bool.not_true, Bool.false_eq_true, if_false, if_neg hrange, Int.toNat_natCast]

theorem checkCommitment_numText (n : ℕ) : checkCommitment (some (numText 10 n)) n = .ok () := by
  unfold checkCommitment
  split
  · rfl
  · next h => exact absurd (Option.some.inj h) (numText_ne_nil 10 n)
  · next raw hne h =>
      obtain rfl := Option.some.inj h
      rw [bigIntOf_numText]
      simp only [ne_eq, not_true_eq_false, if_false]

/-- Accepted fields give a witness when the commitment passes its re-check. -/
theorem buildWitness_ok (inputs : Inputs) {s t d n : ℕ}
    (hs : requireField (js "biometricSecret") inputs.biometricSecret = .ok s)
    (ht : requireField (js "salt") inputs.salt = .ok t)
    (hd : requireField (js "didHashRaw") inputs.didHashRaw = .ok d)
    (hn : requireField (js "sessionNonce") inputs.sessionNonce = .ok n)
    (hc : checkCommitment inputs.commitment (zaPoseidon2 s t) = .ok ()) :
    buildWitness inputs =
      .ok ⟨numText 10 s, numText 10 t, numText 10 (zaPoseidon2 s t),
        numText 10 (zaPoseidon2 d n), numText 10 (zaPoseidon2 s (zaPoseidon2 d n))⟩ := by
  have hok {α β : Type} (a : α) (f : α → Except JsString β) : (Except.ok a >>= f) = f a := rfl
  unfold buildWitness
  rw [hs, ht, hd, hn]
  -- no step may unfold the hash: its rounds do not end on variables
  generalize zaPoseidon2 = hash at hc ⊢
  simp only [hok]
  rw [hc, hok]
  rfl

/-- Elements of the field pass every check when the commitment is that of the secret and
    the salt. -/
theorem buildWitness_numText {s t c d n : ℕ} {nonce : JsString} (hs : s < fieldModulus)
    (ht : t < fieldModulus) (hd : d < fieldModulus)
    (hn : requireField (js "sessionNonce") nonce = .ok n) (hc : c = zaPoseidon2 s t) :
    buildWitness ⟨numText 10 s, numText 10 t, some (numText 10 c), numText 10 d, nonce⟩ =
      .ok ⟨numText 10 s, numText 10 t, numText 10 c, numText 10 (zaPoseidon2 d n),
        numText 10 (zaPoseidon2 s (zaPoseidon2 d n))⟩ := by
  have hs' := requireField_numText hs (js "biometricSecret")
  have ht' := requireField_numText ht (js "salt")
  have hd' := requireField_numText hd (js "didHashRaw")
  have hc' := checkCommitment_numText c
  have hok := buildWitness_ok ⟨numText 10 s, numText 10 t, some (numText 10 c), numText 10 d, nonce⟩
    hs' ht' hd' hn (by rw [← hc]; exact hc')
  rw [hok, ← hc]

end ProverJs

end ZeroAuth.Android
