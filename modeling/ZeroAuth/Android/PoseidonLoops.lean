/-
  ZeroAuth.Android.PoseidonLoops

  The loops of the three Poseidon implementations, over any round constants and any
  matrix: `core` of android/.../sec/Poseidon.kt, of which mobile/.../biometric/Poseidon.kt
  holds a copy, and `poseidon2` of assets/prover/poseidon.js.

  The Kotlin code keeps its lanes in the field. The script fuses two of the loops and takes
  remainders with the sign of the dividend, so its lanes are those of the Kotlin code up to
  multiples of the prime: one round of the one is one round of the other (`round_reduced`),
  and the script puts the last lane right (`poseidon_agree`).
-/

import ZeroAuth.Android.ProverJs
import Mathlib.Data.Int.ModEq

namespace ZeroAuth.Android

namespace PoseidonLoops

/-! ## Kotlin -/

namespace Kotlin

open PoseidonConstants (field nRoundsF)

/-- `BigInteger.mod`. -/
def modF (v : ℤ) : ℤ := v % (field : ℤ)

def pow5 (v : ℤ) : ℤ :=
  let v2 := modF (v * v)
  let v4 := modF (v2 * v2)
  modF (v4 * v)

/-- One lane of `mix`, before the reduction; `none` where an index is out of bounds. -/
def mixLane (state : List ℤ) (m : List (List ℤ)) (x : ℕ) (ys : List ℕ) (acc : ℤ) : Option ℤ :=
  ys.foldlM (fun acc y => do
    let row ← m[x]?
    let k ← row[y]?
    let s ← state[y]?
    return acc + k * s) acc

def mix (state : List ℤ) (m : List (List ℤ)) : Option (List ℤ) :=
  let t := state.length
  (List.range t).foldlM (fun out x => do
    let acc ← mixLane state m x (List.range t) 0
    return out.set x (modF acc)) (List.replicate t 0)

/-- "Add round constants". -/
def addConstants (cs : List ℤ) (t x : ℕ) (state : List ℤ) : Option (List ℤ) :=
  (List.range t).foldlM (fun state y => do
    let s ← state[y]?
    let k ← cs[x * t + y]?
    return state.set y (modF (s + k))) state

/-- "Apply S-box". -/
def applySBox (inFullRound : Bool) (t : ℕ) (state : List ℤ) : Option (List ℤ) :=
  if inFullRound then
    (List.range t).foldlM (fun state y => do
      let s ← state[y]?
      return state.set y (pow5 s)) state
  else do
    let s ← state[0]?
    return state.set 0 (pow5 s)

/-- Round `x` over `t` lanes. -/
def round (c : List ℤ) (m : List (List ℤ)) (nRoundsP t : ℕ) (state : List ℤ) (x : ℕ) :
    Option (List ℤ) := do
  let state ← addConstants c t x state
  let inFullRound := x < nRoundsF / 2 || x ≥ nRoundsF / 2 + nRoundsP
  let state ← applySBox inFullRound t state
  mix state m

/-- `core`; `none` where a `require` fails or an index is out of bounds. -/
def core (inputs c : List ℤ) (m : List (List ℤ)) : Option ℤ := do
  let nInputs := inputs.length
  guard (1 ≤ nInputs ∧ nInputs ≤ PoseidonConstants.nRoundsP.length)
  let t := nInputs + 1
  guard (m.length = t)
  let nRoundsP ← PoseidonConstants.nRoundsP[t - 2]?
  let totalRounds := nRoundsF + nRoundsP
  let state := 0 :: inputs.map modF
  let state ← (List.range totalRounds).foldlM (round c m nRoundsP t) state
  state[0]?

/-- `hash2` of sec/Poseidon.kt, its tables given. -/
def hash2 (c : List ℤ) (m : List (List ℤ)) (a b : ℤ) : Option ℤ := core [a, b] c m

/-- `hash2Bi` of the biometric module, its tables given. -/
def hash2Bi (c : List ℤ) (m : List (List ℤ)) (a b : ℤ) : Option ℤ := core [a, b] c m

end Kotlin

/-! ## poseidon.js -/

namespace Script

open PoseidonJs (nRoundsF nRoundsP)

/-- `v % F` of two `BigInt`s. -/
def rem (v : ℤ) : ℤ := v.tmod (PoseidonJs.fieldModulus : ℤ)

def pow5 (v : ℤ) : ℤ :=
  let o := rem (v * v)
  rem (rem (v * o) * o)

/-- One lane of `mix`; `none` where an operand is undefined. -/
def mixLane (m : List (List ℤ)) (state : List ℤ) (x : ℕ) (ys : List ℕ) (o : ℤ) : Option ℤ :=
  ys.foldlM (fun o y => do
    let row ← m[x]?
    let k ← row[y]?
    let s ← state[y]?
    return o + k * s) o

def mix (m : List (List ℤ)) (state : List ℤ) : Option (List ℤ) :=
  (List.range 3).foldlM (fun out x => do
    let o ← mixLane m state x (List.range 3) 0
    return out.set x (rem o)) [0, 0, 0]

/-- The body of the inner loop: the constant is added and the S-box applied lane by lane. -/
def lane (cs : List ℤ) (x : ℕ) (state : List ℤ) (y : ℕ) : Option (List ℤ) := do
  let s ← state[y]?
  let k ← cs[x * 3 + y]?
  let state := state.set y (rem (s + k))
  let s ← state[y]?
  if x < nRoundsF / 2 || x ≥ nRoundsF / 2 + nRoundsP then return state.set y (pow5 s)
  else if y = 0 then return state.set y (pow5 s)
  else return state

def round (c : List ℤ) (m : List (List ℤ)) (state : List ℤ) (x : ℕ) : Option (List ℤ) := do
  let state ← (List.range 3).foldlM (lane c x) state
  mix m state

/-- `zaPoseidon2`, the tables given. -/
def zaPoseidon2 (c : List ℤ) (m : List (List ℤ)) (a b : ℤ) : Option ℤ := do
  let state ← (List.range (nRoundsF + nRoundsP)).foldlM (round c m) [0, a, b]
  let s ← state[0]?
  let out := rem s
  return if out < 0 then out + PoseidonJs.fieldModulus else out

end Script

/-! ## Remainders -/

open Kotlin (modF)

theorem fieldModulus_eq : PoseidonJs.fieldModulus = PoseidonConstants.field := rfl

theorem field_pos : (0 : ℤ) < PoseidonConstants.field := by
  exact_mod_cast Poseidon.field_pos

@[simp] theorem modF_modF (v : ℤ) : modF (modF v) = modF v := Int.emod_emod_of_dvd _ dvd_rfl

/-- Both remainders leave the class of a number alone. -/
@[simp] theorem modF_rem (v : ℤ) : modF (Script.rem v) = modF v := by
  rw [Script.rem, fieldModulus_eq]
  have hdiv := Int.mul_tdiv_add_tmod v PoseidonConstants.field
  have hrem : v.tmod PoseidonConstants.field =
      v + PoseidonConstants.field * (-(v.tdiv PoseidonConstants.field)) := by
    rw [mul_neg]
    omega
  rw [modF, modF, hrem, Int.add_mul_emod_self_left]

theorem modF_add {v w : ℤ} (h : modF v = modF w) (k : ℤ) : modF (v + k) = modF (w + k) :=
  Int.ModEq.add_right k h

theorem modF_mul {v w v' w' : ℤ} (h : modF v = modF w) (h' : modF v' = modF w') :
    modF (v * v') = modF (w * w') :=
  Int.ModEq.mul h h'

theorem modF_pow5 {v w : ℤ} (h : modF v = modF w) : modF (Kotlin.pow5 v) = modF (Script.pow5 w) := by
  have hsquare : modF (modF (v * v)) = modF (Script.rem (w * w)) := by
    rw [modF_modF, modF_rem]
    exact modF_mul h h
  have hfourth : modF (modF (modF (v * v) * modF (v * v)) * v) =
      modF (modF (v * v) * modF (v * v) * v) := modF_mul (modF_modF _) rfl
  have hscript : modF (Script.rem (w * Script.rem (w * w)) * Script.rem (w * w)) =
      modF (w * Script.rem (w * w) * Script.rem (w * w)) := modF_mul (modF_rem _) rfl
  show modF (modF _) = modF (Script.rem _)
  rw [modF_modF, modF_rem, hfourth, hscript,
    show modF (v * v) * modF (v * v) * v = v * modF (v * v) * modF (v * v) by ring]
  exact modF_mul (modF_mul h hsquare) hsquare

/-! ## One round -/

/-- The lanes in the field. -/
def reduced (state : List ℤ) : List ℤ := state.map modF

theorem getElem?_reduced {s s' : List ℤ} (h : reduced s = reduced s') (y : ℕ) :
    s[y]?.map modF = s'[y]?.map modF := by
  rw [← List.getElem?_map, ← List.getElem?_map]
  exact congrArg (·[y]?) h

theorem kotlin_mixLane_cons (s : List ℤ) (m : List (List ℤ)) (x y : ℕ) (ys : List ℕ) (acc : ℤ) :
    Kotlin.mixLane s m x (y :: ys) acc = m[x]?.bind fun row => row[y]?.bind fun k =>
      s[y]?.bind fun v => Kotlin.mixLane s m x ys (acc + k * v) := by
  simp only [Kotlin.mixLane, List.foldlM_cons, Option.bind_eq_bind, Option.pure_def,
    Option.bind_assoc, Option.bind_some]

theorem script_mixLane_cons (m : List (List ℤ)) (s : List ℤ) (x y : ℕ) (ys : List ℕ) (o : ℤ) :
    Script.mixLane m s x (y :: ys) o = m[x]?.bind fun row => row[y]?.bind fun k =>
      s[y]?.bind fun v => Script.mixLane m s x ys (o + k * v) := by
  simp only [Script.mixLane, List.foldlM_cons, Option.bind_eq_bind, Option.pure_def,
    Option.bind_assoc, Option.bind_some]

/-- Lanes of one class have one product with a row of the matrix, up to its class. -/
theorem mixLane_reduced {s s' : List ℤ} (h : reduced s = reduced s') (m : List (List ℤ)) (x : ℕ)
    (ys : List ℕ) {acc acc' : ℤ} (hacc : modF acc = modF acc') :
    (Kotlin.mixLane s m x ys acc).map modF = (Script.mixLane m s' x ys acc').map modF := by
  induction ys generalizing acc acc' with
  | nil => exact congrArg some hacc
  | cons y ys ih =>
      rw [kotlin_mixLane_cons, script_mixLane_cons]
      have hlane := getElem?_reduced h y
      cases hrow : m[x]? with
      | none => rfl
      | some row =>
      rw [Option.bind_some, Option.bind_some]
      cases hk : row[y]? with
      | none => rfl
      | some k =>
      rw [Option.bind_some, Option.bind_some]
      cases hs : s[y]? with
      | none =>
          rw [hs] at hlane
          rw [Option.map_eq_none_iff.mp hlane.symm]
          rfl
      | some v =>
          rw [hs] at hlane
          obtain ⟨v', hs', hv⟩ := Option.map_eq_some_iff.mp hlane.symm
          rw [hs', Option.bind_some, Option.bind_some]
          have hprod : modF (k * v) = modF (k * v') := modF_mul rfl hv.symm
          exact ih (Int.ModEq.add hacc hprod)

theorem mix_reduced {s s' : List ℤ} (h : reduced s = reduced s') (hlength : s.length = 3)
    (m : List (List ℤ)) : Kotlin.mix s m = (Script.mix m s').map reduced := by
  have hloop : ∀ (xs : List ℕ) (out : List ℤ),
      xs.foldlM (fun out x => (Kotlin.mixLane s m x (List.range 3) 0).bind fun acc =>
        some (out.set x (modF acc))) (reduced out) =
      (xs.foldlM (fun out x => (Script.mixLane m s' x (List.range 3) 0).bind fun o =>
        some (out.set x (Script.rem o))) out).map reduced := by
    intro xs
    induction xs with
    | nil => intro out; rfl
    | cons x xs ih =>
        intro out
        simp only [List.foldlM_cons, Option.bind_eq_bind]
        have hlane := mixLane_reduced h m x (List.range 3) (rfl : modF 0 = modF 0)
        cases hacc : Kotlin.mixLane s m x (List.range 3) 0 with
        | none =>
            rw [hacc] at hlane
            have ho : Script.mixLane m s' x (List.range 3) 0 = none := by simpa using hlane.symm
            simp [ho]
        | some acc =>
            rw [hacc] at hlane
            obtain ⟨o, ho, hclass⟩ := Option.map_eq_some_iff.mp hlane.symm
            have hset : (reduced out).set x (modF acc) = reduced (out.set x (Script.rem o)) := by
              rw [reduced, reduced, List.map_set, modF_rem, hclass]
            simp only [ho, Option.bind_some, hset]
            exact ih _
  rw [Kotlin.mix, hlength]
  exact hloop (List.range 3) [0, 0, 0]

theorem length_mix {m : List (List ℤ)} {state out : List ℤ} (h : Script.mix m state = some out) :
    out.length = 3 := by
  have hloop : ∀ (xs : List ℕ) (out₀ out : List ℤ),
      xs.foldlM (fun out x => (Script.mixLane m state x (List.range 3) 0).bind fun o =>
        some (out.set x (Script.rem o))) out₀ = some out → out.length = out₀.length := by
    intro xs
    induction xs with
    | nil =>
        intro out₀ out h
        cases h
        rfl
    | cons x xs ih =>
        intro out₀ out h
        rw [List.foldlM_cons] at h
        obtain ⟨out₁, h₁, h⟩ := Option.bind_eq_some_iff.mp h
        obtain ⟨o, -, h₁⟩ := Option.bind_eq_some_iff.mp h₁
        cases h₁
        rw [ih _ _ h, List.length_set]
  exact hloop (List.range 3) [0, 0, 0] out h

theorem addConstants_lanes (cs : List ℤ) (x : ℕ) (p q r : ℤ) :
    Kotlin.addConstants cs 3 x [p, q, r] = cs[x * 3 + 0]?.bind fun k₀ => cs[x * 3 + 1]?.bind fun k₁ =>
      cs[x * 3 + 2]?.bind fun k₂ => some [modF (p + k₀), modF (q + k₁), modF (r + k₂)] := by
  have hrange : List.range 3 = [0, 1, 2] := rfl
  simp only [Kotlin.addConstants, hrange, List.foldlM_cons, List.foldlM_nil, Option.bind_eq_bind,
    Option.pure_def]
  cases cs[x * 3 + 0]? with
  | none => rfl
  | some k₀ =>
  cases cs[x * 3 + 1]? with
  | none => rfl
  | some k₁ => cases cs[x * 3 + 2]? <;> rfl

/-- Which lanes are boxed in a round. -/
def boxed (full : Bool) (box : ℤ → ℤ) : List ℤ → List ℤ
  | [] => []
  | p :: rest => box p :: if full then rest.map box else rest

theorem applySBox_lanes (full : Bool) (p q r : ℤ) :
    Kotlin.applySBox full 3 [p, q, r] = some (boxed full Kotlin.pow5 [p, q, r]) := by
  cases full <;> rfl

theorem lane_lanes (cs : List ℤ) (x : ℕ) (p q r : ℤ) :
    (List.range 3).foldlM (Script.lane cs x) [p, q, r] = cs[x * 3 + 0]?.bind fun k₀ =>
      cs[x * 3 + 1]?.bind fun k₁ => cs[x * 3 + 2]?.bind fun k₂ =>
        some (boxed (x < PoseidonJs.nRoundsF / 2 || x ≥ PoseidonJs.nRoundsF / 2 + PoseidonJs.nRoundsP)
          Script.pow5 [Script.rem (p + k₀), Script.rem (q + k₁), Script.rem (r + k₂)]) := by
  have hrange : List.range 3 = [0, 1, 2] := rfl
  simp only [Script.lane, hrange, List.foldlM_cons, List.foldlM_nil, Option.bind_eq_bind,
    Option.pure_def]
  generalize (decide (x < _) || decide (x ≥ _)) = full
  cases cs[x * 3 + 0]? with
  | none => rfl
  | some k₀ =>
  cases cs[x * 3 + 1]? with
  | none => cases full <;> rfl
  | some k₁ => cases cs[x * 3 + 2]? <;> cases full <;> rfl

/-- One round of the script, its lanes reduced, is one round of the Kotlin code: the fused loop
    reads the constants in the order of the first Kotlin loop and boxes the same lanes. -/
theorem round_reduced (cs : List ℤ) (m : List (List ℤ)) (p q r : ℤ) (x : ℕ) :
    Kotlin.round cs m 57 3 (reduced [p, q, r]) x = (Script.round cs m [p, q, r] x).map reduced := by
  have hadd (v k : ℤ) : modF (modF (modF v + k)) = modF (Script.rem (v + k)) := by
    rw [modF_modF, modF_rem]
    exact modF_add (modF_modF v) k
  have hrounds : PoseidonConstants.nRoundsF = PoseidonJs.nRoundsF := rfl
  have hpartial : PoseidonJs.nRoundsP = 57 := rfl
  show Kotlin.round cs m 57 3 [modF p, modF q, modF r] x = _
  rw [Kotlin.round, Script.round, addConstants_lanes, lane_lanes, hrounds, hpartial]
  generalize (decide (x < _) || decide (x ≥ _)) = full
  cases cs[x * 3 + 0]? with
  | none => rfl
  | some k₀ =>
  cases cs[x * 3 + 1]? with
  | none => rfl
  | some k₁ =>
  cases cs[x * 3 + 2]? with
  | none => rfl
  | some k₂ =>
  simp only [Option.bind_eq_bind, Option.bind_some, applySBox_lanes]
  apply mix_reduced
  · -- lane by lane: the constants are added and the same lanes are boxed
    cases full
    · simp only [boxed, reduced, List.map_cons, List.map_nil, Bool.false_eq_true, if_false, hadd,
        modF_pow5 (hadd p k₀)]
    · simp only [boxed, reduced, List.map_cons, List.map_nil, if_true, modF_pow5 (hadd p k₀),
        modF_pow5 (hadd q k₁), modF_pow5 (hadd r k₂)]
  · cases full <;> rfl

theorem foldlM_round_reduced (c : List ℤ) (m : List (List ℤ)) (xs : List ℕ) {state : List ℤ}
    (h : state.length = 3) : xs.foldlM (Kotlin.round c m 57 3) (reduced state) =
      (xs.foldlM (Script.round c m) state).map reduced := by
  induction xs generalizing state with
  | nil => rfl
  | cons x xs ih =>
      obtain ⟨p, q, r, rfl⟩ := List.length_eq_three.mp h
      rw [List.foldlM_cons, List.foldlM_cons, round_reduced]
      cases hround : Script.round c m [p, q, r] x with
      | none => rfl
      | some out =>
          obtain ⟨boxed, -, hmix⟩ := Option.bind_eq_some_iff.mp hround
          exact ih (length_mix hmix)

/-! ## The hash -/

/-- The last step of the script. -/
theorem script_result (v : ℤ) :
    (if Script.rem v < 0 then Script.rem v + PoseidonJs.fieldModulus else Script.rem v) = modF v := by
  have hpos := field_pos
  have hclass : modF (Script.rem v) = modF v := modF_rem v
  have hupper : Script.rem v < PoseidonConstants.field := Int.tmod_lt_of_pos v hpos
  have hlower : -(PoseidonConstants.field : ℤ) < Script.rem v := Int.lt_tmod_of_pos v hpos
  rw [← hclass, fieldModulus_eq, modF]
  split
  next hneg =>
    rw [← Int.add_emod_right, Int.emod_eq_of_lt (by omega) (by omega)]
  next hnonneg => rw [Int.emod_eq_of_lt (by omega) hupper]

/-- The script does not look at how many rows the matrix has; the Kotlin code wants three. -/
theorem kotlin_hash2 (c : List ℤ) (m : List (List ℤ)) (a b : ℤ) :
    Kotlin.hash2 c m a b = if m.length = 3 then Script.zaPoseidon2 c m a b else none := by
  by_cases hrows : m.length = 3
  · have hstart : (0 : ℤ) :: [a, b].map modF = reduced [0, a, b] := rfl
    have hlength : [0, a, b].length = 3 := rfl
    have hfold := foldlM_round_reduced c m (List.range (PoseidonJs.nRoundsF + PoseidonJs.nRoundsP))
      hlength
    have hcore : Kotlin.core [a, b] c m =
        ((List.range (PoseidonJs.nRoundsF + PoseidonJs.nRoundsP)).foldlM (Kotlin.round c m 57 3)
          (0 :: [a, b].map modF)).bind fun state => state[0]? := by
      simp only [Kotlin.core, List.length_cons, List.length_nil, hrows]
      rfl
    rw [if_pos hrows, Kotlin.hash2, hcore, hstart, hfold, Script.zaPoseidon2]
    cases List.foldlM (Script.round c m) _ _ with
    | none => rfl
    | some state =>
        simp only [Option.map_some, Option.bind_some, Option.bind_eq_bind, Option.pure_def, reduced,
          List.getElem?_map, script_result]
        cases state[0]? <;> rfl
  · rw [if_neg hrows, Kotlin.hash2, Kotlin.core]
    simp [hrows]

/-- The three implementations are one function of the tables and the two inputs. -/
theorem poseidon_agree (c : List ℤ) (m : List (List ℤ)) (a b : ℤ) :
    Kotlin.hash2Bi c m a b = Kotlin.hash2 c m a b ∧
    Kotlin.hash2 c m a b = if m.length = 3 then Script.zaPoseidon2 c m a b else none :=
  ⟨rfl, kotlin_hash2 c m a b⟩

/-! ## With the tables of the source -/

def ofNats (l : List ℕ) : List ℤ := l.map Nat.cast

theorem rem_natCast (n : ℕ) : Script.rem n = (n % PoseidonJs.fieldModulus : ℕ) :=
  (Int.ofNat_tmod n PoseidonJs.fieldModulus).symm

theorem pow5_natCast (v : ℕ) : Script.pow5 v = (PoseidonJs.pow5 v : ℕ) := by
  rw [Script.pow5, PoseidonJs.pow5]
  simp only [← Nat.cast_mul, rem_natCast]

theorem mix_natCast (p q r : ℕ) :
    Script.mix (PoseidonJs.m.map ofNats) (ofNats [p, q, r]) =
      some (ofNats (PoseidonJs.mix [p, q, r])) := by
  obtain ⟨a, b, c, d, e, f, g, h, i, hm⟩ : ∃ a b c d e f g h i : ℕ,
      PoseidonJs.m = [[a, b, c], [d, e, f], [g, h, i]] := ⟨_, _, _, _, _, _, _, _, _, rfl⟩
  have hscript : Script.mix (PoseidonJs.m.map ofNats) (ofNats [p, q, r]) =
      some [Script.rem (0 + a * p + b * q + c * r), Script.rem (0 + d * p + e * q + f * r),
        Script.rem (0 + g * p + h * q + i * r)] := by
    rw [hm]
    rfl
  have hnats : PoseidonJs.mix [p, q, r] =
      [(0 + a * p + b * q + c * r) % PoseidonJs.fieldModulus,
        (0 + d * p + e * q + f * r) % PoseidonJs.fieldModulus,
        (0 + g * p + h * q + i * r) % PoseidonJs.fieldModulus] := by
    rw [PoseidonJs.mix, hm]
    rfl
  rw [hscript, hnats]
  simp only [ofNats, List.map_cons, List.map_nil, ← rem_natCast]
  push_cast
  rfl

theorem round_natCast {x : ℕ} (hx : x < 65) (p q r : ℕ) :
    Script.round (ofNats PoseidonJs.c) (PoseidonJs.m.map ofNats) (ofNats [p, q, r]) x =
      some (ofNats (PoseidonJs.round [p, q, r] x)) := by
  have hconstant (y : ℕ) (hy : y < 3) : (ofNats PoseidonJs.c)[x * 3 + y]? =
      some ((PoseidonJs.c.getD (x * 3 + y) 0 : ℕ) : ℤ) := by
    have hlt : x * 3 + y < PoseidonJs.c.length := by
      rw [PoseidonJs.c, PoseidonJs.length_c]
      omega
    rw [ofNats, List.getElem?_map, List.getD_eq_getElem?_getD, List.getElem?_eq_getElem hlt]
    rfl
  have hsum (v k : ℕ) : Script.rem ((v : ℤ) + (k : ℤ)) = ((v + k) % PoseidonJs.fieldModulus : ℕ) := by
    rw [← Nat.cast_add, rem_natCast]
  have hrange : List.range 3 = [0, 1, 2] := rfl
  rw [Script.round, show ofNats [p, q, r] = [(p : ℤ), (q : ℤ), (r : ℤ)] from rfl, lane_lanes,
    hconstant 0 (by omega), hconstant 1 (by omega), hconstant 2 (by omega)]
  simp only [Option.bind_eq_bind, Option.bind_some, hsum]
  rw [PoseidonJs.round, hrange]
  simp only [List.map_cons, List.map_nil, List.getD_cons_zero, List.getD_cons_succ]
  generalize (decide (x < _) || decide (x ≥ _)) = full
  cases full
  · simp only [boxed, Bool.false_eq_true, if_false, if_true, Nat.one_ne_zero, OfNat.ofNat_ne_zero,
      pow5_natCast]
    exact mix_natCast _ _ _
  · simp only [boxed, if_true, List.map_cons, List.map_nil, pow5_natCast]
    exact mix_natCast _ _ _

theorem foldlM_round_natCast {xs : List ℕ} (hxs : ∀ x ∈ xs, x < 65) (p q r : ℕ) :
    xs.foldlM (Script.round (ofNats PoseidonJs.c) (PoseidonJs.m.map ofNats)) (ofNats [p, q, r]) =
      some (ofNats (xs.foldl PoseidonJs.round [p, q, r])) := by
  induction xs generalizing p q r with
  | nil => rfl
  | cons x xs ih =>
      obtain ⟨p', q', r', hround, -⟩ := PoseidonJs.round_lanes x p q r
      rw [List.foldlM_cons, round_natCast (hxs x (by simp)), List.foldl_cons, hround]
      exact ih (fun x hx => hxs x (by simp [hx])) p' q' r'

/-- With the tables of the source the loops compute the hash of the rest of the model. -/
theorem hash2_natCast (a b : ℕ) :
    Kotlin.hash2 (ofNats PoseidonConstants.cT3) (PoseidonConstants.mT3.map ofNats) a b =
      some (Poseidon.hash2 a b : ℤ) := by
  have hrows : (PoseidonConstants.mT3.map ofNats).length = 3 := rfl
  have hxs : ∀ x ∈ List.range (PoseidonJs.nRoundsF + PoseidonJs.nRoundsP), x < 65 :=
    fun x hx => List.mem_range.mp hx
  -- every round index is within the table
  have hfold := foldlM_round_natCast hxs 0 a b
  have hstate : ofNats [0, a, b] = [(0 : ℤ), (a : ℤ), (b : ℤ)] := rfl
  have hposition : ∀ state : List ℕ, state.length = 3 →
      (ofNats state)[0]? = some ((state.getD 0 0 : ℕ) : ℤ) := by
    intro state hlength
    obtain ⟨p, q, r, rfl⟩ := List.length_eq_three.mp hlength
    rfl
  -- the state keeps its three lanes
  have hlanes : ∀ (xs : List ℕ) (p q r : ℕ), (xs.foldl PoseidonJs.round [p, q, r]).length = 3 := by
    intro xs
    induction xs with
    | nil => intro p q r; rfl
    | cons x xs ih =>
        intro p q r
        obtain ⟨p', q', r', hround, -⟩ := PoseidonJs.round_lanes x p q r
        rw [List.foldl_cons, hround]
        exact ih p' q' r'
  -- both sides are loops over the rounds now
  rw [kotlin_hash2, if_pos hrows, ← PoseidonJs.zaPoseidon2_eq_hash2,
    Script.zaPoseidon2, PoseidonJs.zaPoseidon2]
  rw [hstate] at hfold
  show ((List.range (PoseidonJs.nRoundsF + PoseidonJs.nRoundsP)).foldlM
    (Script.round (ofNats PoseidonJs.c) (PoseidonJs.m.map ofNats)) [0, (a : ℤ), (b : ℤ)]).bind _ = _
  rw [hfold, Option.bind_some, hposition _ (hlanes _ 0 a b)]
  simp only [Option.bind_eq_bind, Option.bind_some, Option.pure_def, rem_natCast]
  rw [if_neg (by omega)]

end PoseidonLoops

end ZeroAuth.Android
