/-
  ZeroAuth.Js.Base64

  `buffer.toString('base64url')` and `buffer.toString('base64')`.
-/

import ZeroAuth.Js.Text

namespace ZeroAuth.Js

/-- One digit of base64url. -/
def base64Unit (n : ℕ) : CodeUnit :=
  Fin.ofNat _ (if n < 26 then 65 + n else if n < 52 then 71 + n else if n < 62 then n - 4
    else if n = 62 then 45 else 95)

/-- `buffer.toString('base64url')`: no padding. -/
def base64url : List UInt8 → JsString
  | a :: b :: c :: bs =>
      let n := a.toNat * 65536 + b.toNat * 256 + c.toNat
      base64Unit (n / 262144) :: base64Unit (n / 4096 % 64) :: base64Unit (n / 64 % 64) ::
        base64Unit (n % 64) :: base64url bs
  | [a, b] =>
      let n := a.toNat * 256 + b.toNat
      [base64Unit (n / 1024), base64Unit (n / 16 % 64), base64Unit (n * 4 % 64)]
  | [a] => [base64Unit (a.toNat / 4), base64Unit (a.toNat * 16 % 64)]
  | [] => []

/-- One digit of base64. -/
def base64StdUnit (n : ℕ) : CodeUnit :=
  if n = 62 then 43 else if n = 63 then 47 else base64Unit n

/-- `buffer.toString('base64')`: padded. -/
def base64 : List UInt8 → JsString
  | a :: b :: c :: bs =>
      let n := a.toNat * 65536 + b.toNat * 256 + c.toNat
      base64StdUnit (n / 262144) :: base64StdUnit (n / 4096 % 64) ::
        base64StdUnit (n / 64 % 64) :: base64StdUnit (n % 64) :: base64 bs
  | [a, b] =>
      let n := a.toNat * 256 + b.toNat
      [base64StdUnit (n / 1024), base64StdUnit (n / 16 % 64), base64StdUnit (n * 4 % 64), 61]
  | [a] => [base64StdUnit (a.toNat / 4), base64StdUnit (a.toNat * 16 % 64), 61, 61]
  | [] => []

/-- A digit of base64 or base64url. -/
def base64Digit (u : CodeUnit) : Option ℕ :=
  if 65 ≤ u.val ∧ u.val ≤ 90 then some (u.val - 65)
  else if 97 ≤ u.val ∧ u.val ≤ 122 then some (u.val - 71)
  else if 48 ≤ u.val ∧ u.val ≤ 57 then some (u.val + 4)
  else if u.val = 45 ∨ u.val = 43 then some 62
  else if u.val = 95 ∨ u.val = 47 then some 63
  else none

/-- The whole bytes that a list of six-bit digits contains. -/
def bytesOfDigits : List ℕ → List UInt8
  | a :: b :: c :: d :: ds =>
      let n := a * 262144 + b * 4096 + c * 64 + d
      UInt8.ofNat (n / 65536) :: UInt8.ofNat (n / 256 % 256) :: UInt8.ofNat (n % 256) ::
        bytesOfDigits ds
  | [a, b, c] =>
      let n := a * 4096 + b * 64 + c
      [UInt8.ofNat (n / 1024), UInt8.ofNat (n / 4 % 256)]
  | [a, b] => [UInt8.ofNat ((a * 64 + b) / 16)]
  | _ => []

/-- `Buffer.from(s, 'base64url')`: other characters are skipped. -/
def bufferFromBase64url (s : JsString) : List UInt8 := bytesOfDigits (s.filterMap base64Digit)

end ZeroAuth.Js
