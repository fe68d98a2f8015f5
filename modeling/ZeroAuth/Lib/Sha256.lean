/-
  ZeroAuth.Lib.Sha256

  SHA-256 over byte strings.  Words are natural numbers below 2^32.
-/

import Mathlib.Data.List.Basic

namespace ZeroAuth.Lib.Sha256

def wordMod : ℕ := 0x100000000

def rotr (x n : ℕ) : ℕ := (x >>> n) ||| ((x <<< (32 - n)) % wordMod)

/-- The round constants. -/
def roundConstants : List ℕ := [
  0x428a2f98, 0x71374491, 0xb5c0fbcf, 0xe9b5dba5, 0x3956c25b, 0x59f111f1, 0x923f82a4, 0xab1c5ed5,
  0xd807aa98, 0x12835b01, 0x243185be, 0x550c7dc3, 0x72be5d74, 0x80deb1fe, 0x9bdc06a7, 0xc19bf174,
  0xe49b69c1, 0xefbe4786, 0x0fc19dc6, 0x240ca1cc, 0x2de92c6f, 0x4a7484aa, 0x5cb0a9dc, 0x76f988da,
  0x983e5152, 0xa831c66d, 0xb00327c8, 0xbf597fc7, 0xc6e00bf3, 0xd5a79147, 0x06ca6351, 0x14292967,
  0x27b70a85, 0x2e1b2138, 0x4d2c6dfc, 0x53380d13, 0x650a7354, 0x766a0abb, 0x81c2c92e, 0x92722c85,
  0xa2bfe8a1, 0xa81a664b, 0xc24b8b70, 0xc76c51a3, 0xd192e819, 0xd6990624, 0xf40e3585, 0x106aa070,
  0x19a4c116, 0x1e376c08, 0x2748774c, 0x34b0bcb5, 0x391c0cb3, 0x4ed8aa4a, 0x5b9cca4f, 0x682e6ff3,
  0x748f82ee, 0x78a5636f, 0x84c87814, 0x8cc70208, 0x90befffa, 0xa4506ceb, 0xbef9a3f7, 0xc67178f2]

/-- The eight chaining words. -/
structure Chain where
  (a b c d e f g h : ℕ)

def initial : Chain :=
  ⟨0x6a09e667, 0xbb67ae85, 0x3c6ef372, 0xa54ff53a, 0x510e527f, 0x9b05688c, 0x1f83d9ab, 0x5be0cd19⟩

def ch (x y z : ℕ) : ℕ := (x &&& y) ^^^ ((x ^^^ 0xffffffff) &&& z)

def maj (x y z : ℕ) : ℕ := (x &&& y) ^^^ (x &&& z) ^^^ (y &&& z)

def bigSigma0 (x : ℕ) : ℕ := rotr x 2 ^^^ rotr x 13 ^^^ rotr x 22

def bigSigma1 (x : ℕ) : ℕ := rotr x 6 ^^^ rotr x 11 ^^^ rotr x 25

def smallSigma0 (x : ℕ) : ℕ := rotr x 7 ^^^ rotr x 18 ^^^ (x >>> 3)

def smallSigma1 (x : ℕ) : ℕ := rotr x 17 ^^^ rotr x 19 ^^^ (x >>> 10)

/-- The rounds of one block.  The window holds the sixteen schedule words from
    the current round on; every round appends the next one. -/
def rounds : List ℕ → List ℕ → Chain → Chain
  | [], _, s => s
  | k :: ks, w, s =>
      let t₁ := (s.h + bigSigma1 s.e + ch s.e s.f s.g + k + w.getD 0 0) % wordMod
      let t₂ := (bigSigma0 s.a + maj s.a s.b s.c) % wordMod
      let next := (smallSigma1 (w.getD 14 0) + w.getD 9 0 + smallSigma0 (w.getD 1 0) +
        w.getD 0 0) % wordMod
      rounds ks (w.tail ++ [next])
        ⟨(t₁ + t₂) % wordMod, s.a, s.b, s.c, (s.d + t₁) % wordMod, s.e, s.f, s.g⟩

def compress (s : Chain) (w : List ℕ) : Chain :=
  let r := rounds roundConstants w s
  ⟨(s.a + r.a) % wordMod, (s.b + r.b) % wordMod, (s.c + r.c) % wordMod, (s.d + r.d) % wordMod,
    (s.e + r.e) % wordMod, (s.f + r.f) % wordMod, (s.g + r.g) % wordMod, (s.h + r.h) % wordMod⟩

/-- Big-endian words. -/
def words : List ℕ → List ℕ
  | a :: b :: c :: d :: r => (((a * 256 + b) * 256 + c) * 256 + d) :: words r
  | _ => []

/-- The message, a one bit, zeros up to a block boundary, and the bit length. -/
def pad (m : List ℕ) : List ℕ :=
  let bits := 8 * m.length
  m ++ [0x80] ++ List.replicate ((119 - m.length % 64) % 64) 0 ++
    [56, 48, 40, 32, 24, 16, 8, 0].map fun n => (bits >>> n) % 256

/-- Absorb `n` blocks. -/
def absorb : ℕ → Chain → List ℕ → Chain
  | 0, s, _ => s
  | n + 1, s, ws => absorb n (compress s (ws.take 16)) (ws.drop 16)

def wordBytes (x : ℕ) : List UInt8 := [24, 16, 8, 0].map fun n => UInt8.ofNat (x >>> n)

end Sha256

/-- The SHA-256 digest of a byte string: 32 bytes. -/
def sha256 (m : List UInt8) : List UInt8 :=
  let ws := Sha256.words (Sha256.pad (m.map UInt8.toNat))
  let s := Sha256.absorb (ws.length / 16) Sha256.initial ws
  [s.a, s.b, s.c, s.d, s.e, s.f, s.g, s.h].flatMap Sha256.wordBytes

theorem length_sha256 (m : List UInt8) : (sha256 m).length = 32 := rfl

/-! ## A form for evaluation

The same function with the window and the chaining words as arguments and the
operations of `ℕ` written out, which the kernel evaluates several times faster. -/

namespace Sha256

def rotrNat (x n : ℕ) : ℕ :=
  Nat.lor (Nat.shiftRight x n) (Nat.mod (Nat.shiftLeft x (Nat.sub 32 n)) 0x100000000)

def xor₃ (x y z : ℕ) : ℕ := Nat.xor (Nat.xor x y) z

def roundsFlat : List ℕ → (a b c d e f g h : ℕ) →
    (w₀ w₁ w₂ w₃ w₄ w₅ w₆ w₇ w₈ w₉ w₁₀ w₁₁ w₁₂ w₁₃ w₁₄ w₁₅ : ℕ) → Chain
  | [], a, b, c, d, e, f, g, h, _, _, _, _, _, _, _, _, _, _, _, _, _, _, _, _ =>
      ⟨a, b, c, d, e, f, g, h⟩
  | k :: ks, a, b, c, d, e, f, g, h,
      w₀, w₁, w₂, w₃, w₄, w₅, w₆, w₇, w₈, w₉, w₁₀, w₁₁, w₁₂, w₁₃, w₁₄, w₁₅ =>
      let t₁ := Nat.mod (Nat.add (Nat.add (Nat.add (Nat.add h
        (xor₃ (rotrNat e 6) (rotrNat e 11) (rotrNat e 25)))
        (Nat.xor (Nat.land e f) (Nat.land (Nat.xor e 0xffffffff) g))) k) w₀) 0x100000000
      let t₂ := Nat.mod (Nat.add (xor₃ (rotrNat a 2) (rotrNat a 13) (rotrNat a 22))
        (xor₃ (Nat.land a b) (Nat.land a c) (Nat.land b c))) 0x100000000
      let next := Nat.mod (Nat.add (Nat.add (Nat.add
        (xor₃ (rotrNat w₁₄ 17) (rotrNat w₁₄ 19) (Nat.shiftRight w₁₄ 10)) w₉)
        (xor₃ (rotrNat w₁ 7) (rotrNat w₁ 18) (Nat.shiftRight w₁ 3))) w₀) 0x100000000
      roundsFlat ks (Nat.mod (Nat.add t₁ t₂) 0x100000000) a b c
        (Nat.mod (Nat.add d t₁) 0x100000000) e f g
        w₁ w₂ w₃ w₄ w₅ w₆ w₇ w₈ w₉ w₁₀ w₁₁ w₁₂ w₁₃ w₁₄ w₁₅ next

def addWord (x y : ℕ) : ℕ := Nat.mod (Nat.add x y) 0x100000000

def compressFlat (s : Chain) : List ℕ → Chain
  | [w₀, w₁, w₂, w₃, w₄, w₅, w₆, w₇, w₈, w₉, w₁₀, w₁₁, w₁₂, w₁₃, w₁₄, w₁₅] =>
      let r := roundsFlat roundConstants s.a s.b s.c s.d s.e s.f s.g s.h
        w₀ w₁ w₂ w₃ w₄ w₅ w₆ w₇ w₈ w₉ w₁₀ w₁₁ w₁₂ w₁₃ w₁₄ w₁₅
      ⟨addWord s.a r.a, addWord s.b r.b, addWord s.c r.c, addWord s.d r.d, addWord s.e r.e,
        addWord s.f r.f, addWord s.g r.g, addWord s.h r.h⟩
  | ws => compress s ws

def absorbFlat : ℕ → Chain → List ℕ → Chain
  | 0, s, _ => s
  | n + 1, s, ws => absorbFlat n (compressFlat s (ws.take 16)) (ws.drop 16)

theorem roundsFlat_eq (ks : List ℕ) (s : Chain)
    (w₀ w₁ w₂ w₃ w₄ w₅ w₆ w₇ w₈ w₉ w₁₀ w₁₁ w₁₂ w₁₃ w₁₄ w₁₅ : ℕ) :
    roundsFlat ks s.a s.b s.c s.d s.e s.f s.g s.h
        w₀ w₁ w₂ w₃ w₄ w₅ w₆ w₇ w₈ w₉ w₁₀ w₁₁ w₁₂ w₁₃ w₁₄ w₁₅ =
      rounds ks [w₀, w₁, w₂, w₃, w₄, w₅, w₆, w₇, w₈, w₉, w₁₀, w₁₁, w₁₂, w₁₃, w₁₄, w₁₅] s := by
  induction ks generalizing s w₀ w₁ w₂ w₃ w₄ w₅ w₆ w₇ w₈ w₉ w₁₀ w₁₁ w₁₂ w₁₃ w₁₄ w₁₅ with
  | nil => rfl
  | cons k ks ih => exact ih ⟨_, s.a, s.b, s.c, _, s.e, s.f, s.g⟩ _ _ _ _ _ _ _ _ _ _ _ _ _ _ _ _

theorem compressFlat_eq (s : Chain) (ws : List ℕ) : compressFlat s ws = compress s ws := by
  unfold compressFlat
  split
  · rw [roundsFlat_eq]
    rfl
  · rfl

theorem absorbFlat_eq (n : ℕ) (s : Chain) (ws : List ℕ) : absorbFlat n s ws = absorb n s ws := by
  induction n generalizing s ws with
  | zero => rfl
  | succ n ih => rw [absorbFlat, absorb, compressFlat_eq, ih]

end Sha256

def sha256Flat (m : List UInt8) : List UInt8 :=
  let ws := Sha256.words (Sha256.pad (m.map UInt8.toNat))
  let s := Sha256.absorbFlat (ws.length / 16) Sha256.initial ws
  [s.a, s.b, s.c, s.d, s.e, s.f, s.g, s.h].flatMap Sha256.wordBytes

theorem sha256_eq_flat (m : List UInt8) : sha256 m = sha256Flat m := by
  rw [sha256, sha256Flat, Sha256.absorbFlat_eq]

-- The standard's first test vector, the digest of "abc".
example : sha256 [97, 98, 99] =
    [0xba, 0x78, 0x16, 0xbf, 0x8f, 0x01, 0xcf, 0xea, 0x41, 0x41, 0x40, 0xde, 0x5d, 0xae, 0x22, 0x23,
      0xb0, 0x03, 0x61, 0xa3, 0x96, 0x17, 0x7a, 0x9c, 0xb4, 0x10, 0xff, 0x61, 0xf2, 0x00, 0x15,
      0xad] := by
  decide +kernel

end ZeroAuth.Lib
