/-
  ZeroAuth.Android.ProofQr

  The proof QR that the phone writes: `encodeProof` of QrPayload.kt, a
  hand-written CBOR encoder for one shape, then gzip and base64url.
-/

import ZeroAuth.Android.Text
import ZeroAuth.Pairing.Session

namespace ZeroAuth.Android

open ZeroAuth.Js ZeroAuth.Pairing

/-- `gzip` of the phone's class library and `gunzipSync` of the server's, whose
    error is `none`. -/
structure Gzip where
  gzip : List UInt8 → List UInt8
  gunzip : List UInt8 → Option (List UInt8)
  gunzip_gzip : ∀ bs, gunzip (gzip bs) = some bs

def proofPrefix : JsString := js "za:proof:1:"

/-- `PROOF_QR_MAX_BYTES`, on both sides. -/
def proofQrMaxBytes : ℕ := 1500

/-! ## Values -/

/-- A signed 64-bit integer. -/
abbrev Long := { i : ℤ // -2 ^ 63 ≤ i ∧ i < 2 ^ 63 }

structure Groth16Proof where
  pi_a : List JsString
  pi_b : List (List JsString)
  pi_c : List JsString
  protocol : JsString
  curve : JsString

structure ClientMeta where
  appVersion : JsString
  platform : JsString
  model : JsString
  proofMs : Long
  playIntegrityVerdict : Option JsString

structure ProofEnvelope where
  sessionId : JsString
  proof : Groth16Proof
  publicSignals : List JsString
  did : JsString
  clientMeta : ClientMeta

/-- What `encodeProof` throws.  A byte array has less than 2^31 elements. -/
inductive EncodeError
  | outOfMemory
  | illegalArgument (message : JsString)

/-! ## CBOR -/

def majorUnsignedInt : ℕ := 0

def majorTextString : ℕ := 3

def majorArray : ℕ := 4

/-- The major type and a length in the shortest form; `out.write` takes the low
    eight bits. -/
def writeMajorAndLength (major length : ℕ) : List UInt8 :=
  let majorShift := major <<< 5
  if length < 24 then [UInt8.ofNat (majorShift ||| length)]
  else if length < 256 then [UInt8.ofNat (majorShift ||| 24), UInt8.ofNat length]
  else if length < 65536 then
    [UInt8.ofNat (majorShift ||| 25), UInt8.ofNat (length >>> 8), UInt8.ofNat length]
  else if length < 4294967296 then
    [UInt8.ofNat (majorShift ||| 26), UInt8.ofNat (length >>> 24), UInt8.ofNat (length >>> 16),
      UInt8.ofNat (length >>> 8), UInt8.ofNat length]
  else
    UInt8.ofNat (majorShift ||| 27) ::
      [56, 48, 40, 32, 24, 16, 8, 0].map fun shift => UInt8.ofNat (length >>> shift)

def writeTextString (value : JsString) : List UInt8 :=
  let bytes := toByteArray value
  writeMajorAndLength majorTextString bytes.length ++ bytes

def writeArrayHeader (length : ℕ) : List UInt8 := writeMajorAndLength majorArray length

def writeTextStringArray (values : List JsString) : List UInt8 :=
  writeArrayHeader values.length ++ values.flatMap writeTextString

def writeUnsignedInt (value : Long) : Except EncodeError (List UInt8) :=
  if 0 ≤ value.val then .ok (writeMajorAndLength majorUnsignedInt value.val.toNat)
  else .error (.illegalArgument (js "CBOR unsigned int requires non-negative value, got " ++
    signedText 10 value.val))

def writeProof (proof : Groth16Proof) : List UInt8 :=
  [0xA5] ++ writeTextString (js "pi_a") ++ writeTextStringArray proof.pi_a ++
    writeTextString (js "pi_b") ++
    (writeArrayHeader proof.pi_b.length ++ proof.pi_b.flatMap writeTextStringArray) ++
    writeTextString (js "pi_c") ++ writeTextStringArray proof.pi_c ++
    writeTextString (js "protocol") ++ writeTextString proof.protocol ++
    writeTextString (js "curve") ++ writeTextString proof.curve

def writeClientMeta (clientMeta : ClientMeta) : Except EncodeError (List UInt8) := do
  let pairs := if clientMeta.playIntegrityVerdict.isNone then 4 else 5
  let proofMs ← writeUnsignedInt clientMeta.proofMs
  return [UInt8.ofNat (0xA0 ||| pairs)] ++
    writeTextString (js "av") ++ writeTextString clientMeta.appVersion ++
    writeTextString (js "pl") ++ writeTextString clientMeta.platform ++
    writeTextString (js "md") ++ writeTextString clientMeta.model ++
    writeTextString (js "ms") ++ proofMs ++
    match clientMeta.playIntegrityVerdict with
    | none => []
    | some verdict => writeTextString (js "pi") ++ writeTextString verdict

def encodeCborMap5 (payload : ProofEnvelope) : Except EncodeError (List UInt8) := do
  let clientMeta ← writeClientMeta payload.clientMeta
  return [0xA5] ++ writeTextString (js "s") ++ writeTextString payload.sessionId ++
    writeTextString (js "p") ++ writeProof payload.proof ++
    writeTextString (js "ps") ++ writeTextStringArray payload.publicSignals ++
    writeTextString (js "d") ++ writeTextString payload.did ++
    writeTextString (js "m") ++ clientMeta

def encodeProof (z : Gzip) (payload : ProofEnvelope) : Except EncodeError JsString := do
  let cbor ← encodeCborMap5 payload
  if 2 ^ 31 ≤ cbor.length then
    throw .outOfMemory
  let full := proofPrefix ++ base64url (z.gzip cbor)
  if proofQrMaxBytes < full.length then
    throw (.illegalArgument (js "Proof QR exceeded 1500 bytes (got " ++ numText 10 full.length ++
      js ")"))
  return full

end ZeroAuth.Android
