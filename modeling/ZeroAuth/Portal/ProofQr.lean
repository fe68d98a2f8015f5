/-
  ZeroAuth.Portal.ProofQr

  The proof QR that the server reads: `CborReader` and `decodeProofQr` of
  src/routes/demo-portal.ts.
-/

import ZeroAuth.Js.Base64
import ZeroAuth.Android.ProofQr
import ZeroAuth.Js.Double
import ZeroAuth.Js.Utf8

namespace ZeroAuth.Portal

open ZeroAuth.Js ZeroAuth.Android

/-! ## CBOR -/

/-- What the reader makes of a data item.  An object has its own properties,
    newest first; assigning an object to `__proto__` makes it the prototype. -/
inductive CborValue
  | number (n : ℕ)
  | text (s : JsString)
  | array (items : List CborValue)
  | object (own : List (JsString × CborValue))
  | inheriting (proto : CborValue) (own : List (JsString × CborValue))

namespace CborValue

/-- `typeof v === 'object'`. -/
def isObject : CborValue → Bool
  | number _ | text _ => false
  | array _ | object _ | inheriting _ _ => true

/-- `obj[key] = value` on the object that the reader fills. -/
def setProp (obj : CborValue) (key : JsString) (value : CborValue) : CborValue :=
  match obj with
  | object own =>
      if key = js "__proto__" then if value.isObject then inheriting value own else object own
      else object ((key, value) :: own)
  | inheriting proto own =>
      if key = js "__proto__" then if value.isObject then inheriting value own else inheriting proto own
      else inheriting proto ((key, value) :: own)
  | v => v

/-- `obj[key]`, for keys that the built-in prototypes do not have. -/
def getProp (key : JsString) : CborValue → Option CborValue
  | object own => own.lookup key
  | inheriting proto own => (own.lookup key).or (proto.getProp key)
  | _ => none

end CborValue

/-- A `ProofPayloadError` with its message, or a value. -/
abbrev Decoded := Except JsString

/-- Reading from the rest of the bytes. -/
abbrev Reader (α : Type) := List UInt8 → Decoded (α × List UInt8)

def readByte : Reader UInt8
  | [] => .error (js "Unexpected end of CBOR input")
  | b :: bs => .ok (b, bs)

/-- `v = (v << 8n) | BigInt(this.readByte())`, `n` times. -/
def readBytes : ℕ → ℕ → Reader ℕ
  | 0, v, bs => .ok (v, bs)
  | n + 1, v, bs => do
      let (b, bs) ← readByte bs
      readBytes n (v <<< 8 ||| b.toNat) bs

def readLength (additional : ℕ) : Reader ℕ := fun bs =>
  if additional < 24 then .ok (additional, bs)
  else if additional = 24 then readBytes 1 0 bs
  else if additional = 25 then readBytes 2 0 bs
  else if additional = 26 then readBytes 4 0 bs
  else if additional = 27 then readBytes 8 0 bs
  else .error (js "Unsupported CBOR length encoding " ++ numText 10 additional)

/-- The loop over the items of an array. -/
def readItems (item : Reader CborValue) : ℕ → Reader (List CborValue)
  | 0, bs => .ok ([], bs)
  | n + 1, bs => do
      let (v, bs) ← item bs
      let (vs, bs) ← readItems item n bs
      return (v :: vs, bs)

/-- The loop over the entries of a map. -/
def readEntries (item : Reader CborValue) : ℕ → CborValue → Reader CborValue
  | 0, obj, bs => .ok (obj, bs)
  | n + 1, obj, bs => do
      let (key, bs) ← item bs
      match key with
      | .text key =>
          let (value, bs) ← item bs
          readEntries item n (obj.setProp key value) bs
      | _ => .error (js "CBOR map key was not a text string")

/-- The `switch` on the major type; `item` reads a nested item. -/
def readContent (item : Reader CborValue) (major length : ℕ) : Reader CborValue := fun bs =>
  match major with
  | 0 => .ok (.number (toNumber length), bs)
  | 3 =>
      let len := toNumber length
      .ok (.text (decodeUtf8 (bs.take len)), bs.drop len)
  | 4 => do
      let (items, bs) ← readItems item (toNumber length) bs
      return (.array items, bs)
  | 5 => readEntries item (toNumber length) (.object []) bs
  | _ => .error (js "Unsupported CBOR major type " ++ numText 10 major)

/-- Read one data item.  Every item has a first byte, so `fuel` is enough when it
    is the number of bytes that are left. -/
def read : ℕ → Reader CborValue
  | 0, _ => .error (js "Unexpected end of CBOR input")
  | fuel + 1, bs => do
      let (initial, bs) ← readByte bs
      let major := initial.toNat >>> 5
      let additional := initial.toNat &&& 0x1f
      let (length, bs) ← readLength additional bs
      readContent (read fuel) major length bs

/-! ## The envelope -/

/-- The fields of `clientMeta` apart from `source: 'demo-portal'`. -/
structure DecodedClientMeta where
  appVersion : Option JsString
  platform : Option JsString
  model : Option JsString
  proofMs : Option ℕ
  playIntegrityVerdict : Option JsString

structure DecodedProofEnvelope where
  sessionId : JsString
  proof : Groth16Proof
  publicSignals : List JsString
  did : JsString
  clientMeta : DecodedClientMeta

/-- `typeof v === 'string'`. -/
def stringOf : Option CborValue → Option JsString
  | some (.text s) => some s
  | _ => none

/-- `typeof v === 'number'`. -/
def numberOf : Option CborValue → Option ℕ
  | some (.number n) => some n
  | _ => none

/-- An array of `n` strings. -/
def stringsOf (n : ℕ) : Option CborValue → Option (List JsString)
  | some (.array items) =>
      if items.length = n then items.mapM fun v => stringOf (some v) else none
  | _ => none

/-- An array of `n` arrays of `m` strings. -/
def stringRowsOf (n m : ℕ) : Option CborValue → Option (List (List JsString))
  | some (.array items) =>
      if items.length = n then items.mapM fun v => stringsOf m (some v) else none
  | _ => none

/-- A string that is not empty. -/
def nonEmptyOf (v : Option CborValue) : Option JsString := (stringOf v).filter fun s => s ≠ []

/-- An object, `null` and `undefined` excluded. -/
def objectOf (v : Option CborValue) : Option CborValue := v.filter CborValue.isObject

def orThrow {α : Type} (message : JsString) : Option α → Decoded α
  | some a => .ok a
  | none => .error message

def proofOf (pm : CborValue) : Option Groth16Proof := do
  let pi_a ← stringsOf 3 (pm.getProp (js "pi_a"))
  let pi_b ← stringRowsOf 3 2 (pm.getProp (js "pi_b"))
  let pi_c ← stringsOf 3 (pm.getProp (js "pi_c"))
  let protocol ← (stringOf (pm.getProp (js "protocol"))).filter fun s => s = js "groth16"
  let curve ← (stringOf (pm.getProp (js "curve"))).filter fun s => s = js "bn128"
  return ⟨pi_a, pi_b, pi_c, protocol, curve⟩

/-- A missing or ill-typed `m`, or field of it, is left out. -/
def clientMetaOf (metaMap : Option CborValue) : DecodedClientMeta :=
  match objectOf metaMap with
  | some mm =>
      { appVersion := stringOf (mm.getProp (js "av"))
        platform := stringOf (mm.getProp (js "pl"))
        model := stringOf (mm.getProp (js "md"))
        proofMs := numberOf (mm.getProp (js "ms"))
        playIntegrityVerdict := stringOf (mm.getProp (js "pi")) }
  | none => ⟨none, none, none, none, none⟩

/-- The checks on the root map, in the order of the source. -/
def envelopeOf (raw : CborValue) : Decoded DecodedProofEnvelope := do
  let root ← orThrow (js "Proof QR root was not a CBOR map.") (objectOf (some raw))
  let sessionId ← orThrow (js "Proof QR field \"s\" (sessionId) was missing or not a string.")
    (nonEmptyOf (root.getProp (js "s")))
  let did ← orThrow (js "Proof QR field \"d\" (did) was missing or not a string.")
    (nonEmptyOf (root.getProp (js "d")))
  let publicSignals ← orThrow (js "Proof QR field \"ps\" (publicSignals) must be a 3-string array.")
    (stringsOf 3 (root.getProp (js "ps")))
  let pm ← orThrow (js "Proof QR field \"p\" (proof) was missing or not a CBOR map.")
    (objectOf (root.getProp (js "p")))
  let proof ← orThrow (js "Proof QR field \"p\" (proof) shape was not a valid Groth16 proof.")
    (proofOf pm)
  return ⟨sessionId, proof, publicSignals, did, clientMetaOf (root.getProp (js "m"))⟩

def decodeProofQr (z : Gzip) (payload : JsString) : Decoded DecodedProofEnvelope := do
  let trimmed := trim payload
  if proofPrefix.isPrefixOf trimmed = false then
    throw (js "Expected payload starting with \"za:proof:1:\".")
  if proofQrMaxBytes < trimmed.length then
    throw (js "Proof QR exceeded 1500 bytes.")
  let b64 := trimmed.drop proofPrefix.length
  let cbor ← orThrow (js "Proof QR body could not be gunzipped.") (z.gunzip (bufferFromBase64url b64))
  let (raw, _) ← read cbor.length cbor
  envelopeOf raw

end ZeroAuth.Portal
