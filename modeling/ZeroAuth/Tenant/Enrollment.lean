/-
  ZeroAuth.Tenant.Enrollment

  The primitives of src/services/device-enrollment.ts: one-time codes that a
  person can type, and device fingerprints.  The server stores SHA-256 of both.
-/

import ZeroAuth.Lib.Sha256
import ZeroAuth.Js.Number

namespace ZeroAuth.Tenant

open ZeroAuth.Lib ZeroAuth.Js

/-- SHA-256 hex, lower-case. -/
def sha256Hex (input : JsString) : JsString := hexBytes (sha256 (utf8 input))

/-- No 0, 1, I, L, O, U. -/
def codeAlphabet : JsString := js "23456789ABCDEFGHJKMNPQRSTVWXYZ"

def codeGroupLen : ℕ := 4

def codeGroups : ℕ := 2

/-- `ZA-XXXX-XXXX`, as both the generator and the normaliser write it. -/
def codeText (body : JsString) : JsString :=
  js "ZA-" ++ body.take codeGroupLen ++ 45 :: body.drop codeGroupLen

/-- `generateEnrollmentCode`, given the draws of `crypto.randomInt`. -/
def enrollmentCodeOf (draws : List ℕ) : JsString :=
  codeText (draws.map fun i => codeAlphabet.getD i 48)

/-- White space and hyphens are dropped, and an input of the right shape gets
    its hyphens back. -/
def normaliseEnrollmentCode (cm : CaseMapping) (raw : JsString) : JsString :=
  let stripped := (cm.toUpperCase (trim raw)).filter fun u => !(isWhiteSpace u || u == 45)
  if (js "ZA").isPrefixOf stripped && stripped.length == 2 + codeGroups * codeGroupLen then
    codeText (stripped.drop 2)
  else stripped

/-- 15 minutes. -/
def enrollmentCodeTtlMs : ℕ := 15 * 60 * 1000

/-- SHA-256 hash of the device-supplied fingerprint. -/
def fingerprintHash (fingerprint : JsString) : JsString := sha256Hex fingerprint

/-- At least 16 characters, so that "default" cannot be bound. -/
def isValidFingerprint (fp : JsString) : Bool := (trim fp).length ≥ 16 && fp.length ≤ 4096

/-- The name of a device whose fingerprint is bound. -/
def deviceExternalId (fpHash : JsString) : JsString := js "dev_" ++ fpHash.take 16

/-- Thirty-two hex digits without hyphens, cut after the twelfth. -/
def shortId (uuidText : JsString) : JsString := (uuidText.filter (· ≠ 45)).take 12

-- Lower case, spaces and a missing hyphen are all the same to the server.
example : normaliseEnrollmentCode .ascii (js " za 7k2m-9qwx ") = js "ZA-7K2M-9QWX" := by
  rfl

end ZeroAuth.Tenant
