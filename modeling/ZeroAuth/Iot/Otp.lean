/-
  ZeroAuth.Iot.Otp

  One-time codes by email and the sessions they open (iot/src/otp.ts): `request`,
  `verify`, `consumeSession` and `gc` over two maps of one process.

  A pending entry is an object, so it has an identity; the log of a run says which
  entry a call made and with which entry's hash it compared what was submitted.
-/

import ZeroAuth.Js.Base64
import ZeroAuth.Js.Number
import ZeroAuth.Lib.Machine
import ZeroAuth.Lib.Sha256

namespace ZeroAuth.Iot

open ZeroAuth.Lib ZeroAuth.Js

/-! ## Constants -/

def codeLength : ℕ := 6

def codeTtlMs : ℕ := 5 * 60 * 1000

def sessionTtlMs : ℕ := 2 * 60 * 1000

def maxAttempts : ℕ := 5

def requestCooldownMs : ℕ := 30 * 1000

/-! ## The two maps -/

inductive OtpKind
  | signup
  | login
  deriving DecidableEq

def OtpKind.text : OtpKind → JsString
  | signup => js "signup"
  | login => js "login"

structure PendingEntry where
  /-- The identity of the object: how many were made before it. -/
  ref : ℕ
  codeHash : List UInt8
  expiresAt : ℕ
  attempts : ℕ
  kind : OtpKind
  issuedAt : ℕ
  deriving DecidableEq

/-- A `Session` of the bridge. -/
structure OtpSession where
  email : JsString
  kind : OtpKind
  expiresAt : ℕ
  deriving DecidableEq

structure OtpState where
  pending : JsString → Option PendingEntry
  sessions : JsString → Option OtpSession
  /-- How many pending entries have been made. -/
  made : ℕ

def OtpState.empty : OtpState := ⟨fun _ => none, fun _ => none, 0⟩

def OtpState.deletePending (s : OtpState) (key : JsString) : OtpState :=
  { s with pending := Function.update s.pending key none }

/-- `${email}|${kind}`. -/
def otpKey (email : JsString) (kind : OtpKind) : JsString := email ++ js "|" ++ kind.text

def hashCode (code : JsString) : List UInt8 := sha256 (utf8 code)

/-- The code for a draw of `randomInt(0, 1_000_000)`. -/
def generateCode (n : ℕ) : JsString := padStart codeLength (numText 10 n)

/-! ## The operations -/

structure RequestOtpResult where
  code : JsString
  expiresAt : ℕ
  deriving DecidableEq

/-- `request`; the error is `retryAfterMs` of an `OtpRateLimitedError`. -/
def request (s : OtpState) (now : ℕ) (email : JsString) (kind : OtpKind) (n : ℕ) :
    Except ℤ RequestOtpResult × OtpState :=
  let key := otpKey email kind
  let fresh : Except ℤ RequestOtpResult × OtpState :=
    let code := generateCode n
    (.ok ⟨code, now + codeTtlMs⟩,
      { s with
        pending := Function.update s.pending key
          (some ⟨s.made, hashCode code, now + codeTtlMs, 0, kind, now⟩)
        made := s.made + 1 })
  match s.pending key with
  | none => fresh
  | some existing =>
      if (now : ℤ) - existing.issuedAt < requestCooldownMs then
        (.error (requestCooldownMs - (now - existing.issuedAt)), s)
      else fresh

inductive VerifyErr
  | noPending
  | expired
  | tooManyAttempts
  | wrongCode
  | kindMismatch
  deriving DecidableEq

structure VerifyOk where
  email : JsString
  kind : OtpKind
  sessionToken : JsString
  sessionExpiresAt : ℕ
  deriving DecidableEq

/-- The checks of `verify` that come before the comparison. -/
def liveEntry (s : OtpState) (now : ℕ) (email : JsString) (kind : OtpKind) :
    Except (VerifyErr × OtpState) PendingEntry :=
  let key := otpKey email kind
  match s.pending key with
  | none => .error (.noPending, s)
  | some entry =>
      if now ≥ entry.expiresAt then .error (.expired, s.deletePending key)
      else if entry.kind ≠ kind then .error (.kindMismatch, s)
      else if entry.attempts ≥ maxAttempts then .error (.tooManyAttempts, s.deletePending key)
      else .ok entry

/-- `verify`; `bytes` are the 24 random bytes of the session token. -/
def verify (s : OtpState) (now : ℕ) (email code : JsString) (kind : OtpKind)
    (bytes : List UInt8) : Except VerifyErr VerifyOk × OtpState :=
  let key := otpKey email kind
  match liveEntry s now email kind with
  | .error (reason, s') => (.error reason, s')
  | .ok found =>
      let entry := { found with attempts := found.attempts + 1 }
      let submitted := hashCode code
      let matched := submitted.length == entry.codeHash.length && submitted == entry.codeHash
      if !matched then
        if entry.attempts ≥ maxAttempts then (.error .tooManyAttempts, s.deletePending key)
        else (.error .wrongCode, { s with pending := Function.update s.pending key (some entry) })
      else
        let sessionToken := base64url bytes
        let s' := s.deletePending key
        (.ok ⟨email, kind, sessionToken, now + sessionTtlMs⟩,
          { s' with
            sessions := Function.update s'.sessions sessionToken
              (some ⟨email, kind, now + sessionTtlMs⟩) })

def consumeSession (s : OtpState) (now : ℕ) (sessionToken email : JsString) (kind : OtpKind) :
    Bool × OtpState :=
  match s.sessions sessionToken with
  | none => (false, s)
  | some session =>
      let s' := { s with sessions := Function.update s.sessions sessionToken none }
      if session.expiresAt < now then (false, s')
      else if session.email ≠ email then (false, s')
      else if session.kind ≠ kind then (false, s')
      else (true, s')

def gc (s : OtpState) (now : ℕ) : OtpState :=
  { s with
    pending := fun key => (s.pending key).filter fun v => !(v.expiresAt < now)
    sessions := fun key => (s.sessions key).filter fun v => !(v.expiresAt < now) }

/-! ## Runs -/

inductive OtpCall
  | request (email : JsString) (kind : OtpKind) (n : ℕ)
  | verify (email code : JsString) (kind : OtpKind) (bytes : List UInt8)
  | consumeSession (sessionToken email : JsString) (kind : OtpKind)
  | gc
  deriving DecidableEq

inductive OtpAnswer
  | requested (result : Except ℤ RequestOtpResult)
  | verified (result : Except VerifyErr VerifyOk)
  | consumed (valid : Bool)
  | collected

def OtpState.step (s : OtpState) (now : ℕ) : OtpCall → OtpAnswer × OtpState
  | .request email kind n => (request s now email kind n).map .requested id
  | .verify email code kind bytes => (verify s now email code kind bytes).map .verified id
  | .consumeSession sessionToken email kind =>
      (consumeSession s now sessionToken email kind).map .consumed id
  | .gc => (.collected, gc s now)

/-- The pending entry a call makes. -/
def created (s : OtpState) (now : ℕ) : OtpCall → Option ℕ
  | .request email kind n =>
      match (request s now email kind n).1 with
      | .ok _ => some s.made
      | .error _ => none
  | _ => none

/-- The pending entry with whose hash a call compares the code submitted to it. -/
def compared (s : OtpState) (now : ℕ) : OtpCall → Option ℕ
  | .verify email _ kind _ =>
      match liveEntry s now email kind with
      | .ok entry => some entry.ref
      | .error _ => none
  | _ => none

/-- One line of the log. -/
structure OtpRecord where
  now : ℕ
  call : OtpCall
  answer : OtpAnswer
  created : Option ℕ
  compared : Option ℕ

structure OtpWorld where
  state : OtpState
  /-- When the last call was made. -/
  clock : ℕ
  log : List OtpRecord

def OtpWorld.start : OtpWorld := ⟨.empty, 0, []⟩

def OtpState.record (s : OtpState) (now : ℕ) (call : OtpCall) : OtpRecord :=
  ⟨now, call, (s.step now call).1, created s now call, compared s now call⟩

/-- Calls come one after the other, at times that do not decrease. -/
def otp : Machine OtpWorld (ℕ × OtpCall) where
  step w l :=
    if l.1 < w.clock then none
    else some ⟨(w.state.step l.1 l.2).2, l.1, w.log ++ [w.state.record l.1 l.2]⟩

end ZeroAuth.Iot
