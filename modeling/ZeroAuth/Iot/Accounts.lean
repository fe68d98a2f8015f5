/-
  ZeroAuth.Iot.Accounts

  The accounts of the fingerprint bridge (iot/src/bridge.ts): the map from email to
  account, its mirror on disk, the mutex around the sensor, and the operations that
  change the map: `enroll`, `simEnroll`, `syncSignupToCentral`, `syncLoginToCentral`
  and `reset`.  The signals of an account come from iot/src/crypto.ts.

  The file is modelled by the value that `JSON.parse` reads from it.
-/

import ZeroAuth.Js.Base64
import ZeroAuth.Js.Json
import ZeroAuth.Lib.Words
import ZeroAuth.Lib.Interleaving
import ZeroAuth.Lib.Sha256

namespace ZeroAuth.Iot

open ZeroAuth.Lib ZeroAuth.Js

/-! ## Accounts and their map -/

structure Account where
  email : JsString
  template : JsString
  salt : JsString
  commitment : JsString
  didHash : JsString
  identityBinding : JsString
  did : JsString
  createdAt : JsString
  centralUserId : Option JsString
  deriving DecidableEq

/-- An account object; `ref` is its identity. -/
structure Held where
  ref : ℕ
  account : Account
  deriving DecidableEq

/-- `Map<string, Account>`, in insertion order. -/
abbrev AccountMap := List (JsString × Held)

namespace AccountMap

def get? (m : AccountMap) (email : JsString) : Option Held := m.lookup email

def has (m : AccountMap) (email : JsString) : Bool := (m.get? email).isSome

/-- `map.set`: a key that is there keeps its place. -/
def set : AccountMap → JsString → Held → AccountMap
  | [], key, v => [(key, v)]
  | (k, x) :: m, key, v => if k = key then (k, v) :: m else (k, x) :: set m key v

/-- `object.centralUserId = userId`, for the object with identity `ref`. -/
def attach (m : AccountMap) (ref : ℕ) (userId : JsString) : AccountMap :=
  m.map fun (k, x) =>
    (k, if x.ref = ref then { x with account := { x.account with centralUserId := some userId } }
      else x)

end AccountMap

def Account.json (a : Account) : Json :=
  .obj ([(js "email", .str a.email), (js "template", .str a.template), (js "salt", .str a.salt),
    (js "commitment", .str a.commitment), (js "didHash", .str a.didHash),
    (js "identityBinding", .str a.identityBinding), (js "did", .str a.did),
    (js "createdAt", .str a.createdAt)] ++
      match a.centralUserId with
      | some userId => [(js "centralUserId", .str userId)]
      | none => [])

def stringField (o : Json) (key : JsString) : Option JsString :=
  match o.get? key with
  | some (.str s) => some s
  | _ => none

/-- `isValidAccount`, with the account that a valid candidate is. -/
def isValidAccount (o : Json) : Option Account := do
  let email ← stringField o (js "email")
  let template ← stringField o (js "template")
  let salt ← stringField o (js "salt")
  let commitment ← stringField o (js "commitment")
  let didHash ← stringField o (js "didHash")
  let identityBinding ← stringField o (js "identityBinding")
  let did ← stringField o (js "did")
  let createdAt ← stringField o (js "createdAt")
  return ⟨email, template, salt, commitment, didHash, identityBinding, did, createdAt,
    stringField o (js "centralUserId")⟩

/-! ## Configuration -/

/-- `lower_lower`: lower-casing a string twice is lower-casing it once. -/
structure BridgeConfig where
  toLowerCase : JsString → JsString
  lower_lower : ∀ s, toLowerCase (toLowerCase s) = toLowerCase s
  poseidon1 : ℕ → ℕ
  poseidon2 : ℕ → ℕ → ℕ
  /-- `sensor` is open. -/
  sensor : Bool
  /-- Set when the central API is configured and its device is known. -/
  centralDeviceId : Option JsString

variable (cfg : BridgeConfig)

/-- The loop of `loadAccounts`, on what `readFile` and `JSON.parse` give: `none` is a
    file that is not there, `some none` one that is not JSON. -/
def restore (file : Option (Option Json)) : AccountMap × ℕ :=
  match file with
  | some (some (.arr items)) =>
      items.foldl (fun (m, made) candidate =>
        match isValidAccount candidate with
        | some a => (AccountMap.set m (cfg.toLowerCase a.email) ⟨made, a⟩, made + 1)
        | none => (m, made)) (([] : AccountMap), 0)
  | _ => ([], 0)

def loadAccounts (file : Option (Option Json)) : AccountMap := (restore cfg file).1

/-- What `normalizeEmail` returns. -/
structure Email where
  text : JsString
  lower_text : cfg.toLowerCase text = text

/-- `[^\s@]`. -/
def isEmailUnit (u : CodeUnit) : Bool := !isWhiteSpace u && u ≠ 64

/-- `/^[^\s@]+@[^\s@]+\.[^\s@]+$/`. -/
def isEmail (s : JsString) : Bool :=
  let name := s.takeWhile isEmailUnit
  match s.dropWhile isEmailUnit with
  | 64 :: domain =>
      name ≠ [] && domain.all isEmailUnit && ((domain.drop 1).dropLast).contains 46
  | _ => false

def normalizeEmail (raw : JsString) : Option (Email cfg) :=
  let trimmed := cfg.toLowerCase (trim raw)
  if isEmail trimmed then some ⟨trimmed, cfg.lower_lower (trim raw)⟩ else none

/-! ## Signals -/

structure IdentitySignals where
  biometricSecret : ℕ
  salt : ℕ
  commitment : ℕ
  didHash : ℕ
  identityBinding : ℕ
  did : JsString

/-- `BigInt('0x' + buf.toString('hex'))`. -/
def bigIntOfBytes (buf : List UInt8) : ℕ := buf.foldl shiftIn 0

/-- A buffer cut to 31 bytes and read as a number.  The source throws for a shorter one; here a
    buffer is a digest or 31 random bytes. -/
def toFieldElement (buf : List UInt8) : ℕ := bigIntOfBytes (buf.take 31)

def deriveDid (email : JsString) : JsString :=
  js "did:zeroauth:demo:" ++
    (hexBytes (sha256 (utf8 (cfg.toLowerCase (trim email))))).take 32

def deriveSignals (templateBytes : List UInt8) (email : JsString) (salt : ℕ) : IdentitySignals :=
  let bid := sha256 templateBytes
  let biometricSecret := cfg.poseidon2 (toFieldElement bid) salt
  let did := deriveDid cfg email
  let didHash := cfg.poseidon1 (toFieldElement (sha256 (utf8 did)))
  { biometricSecret := biometricSecret
    salt := salt
    commitment := cfg.poseidon2 biometricSecret salt
    didHash := didHash
    identityBinding := cfg.poseidon2 biometricSecret didHash
    did := did }

/-- The account that both enrolments build. -/
def accountOf (email : JsString) (templateBytes : List UInt8) (signals : IdentitySignals)
    (createdAt : JsString) : Account where
  email := email
  template := base64 templateBytes
  salt := numText 10 signals.salt
  commitment := numText 10 signals.commitment
  didHash := numText 10 signals.didHash
  identityBinding := numText 10 signals.identityBinding
  did := signals.did
  createdAt := createdAt
  centralUserId := none

/-! ## Operations -/

inductive SensorStep
  | waitForFinger
  | imageToCharBuffer (n : ℕ)
  | waitForFingerRemoval
  | combineToTemplate

/-- What a program may wait for, or do to the shared state between two awaits. -/
inductive BridgeOp
  | has (email : JsString)
  /-- The call takes its place in the chain behind `sensorLock`. -/
  | enqueue
  | acquire (ticket : ℕ)
  | release
  | sensor (step : SensorStep)
  | uploadCharacteristic
  /-- 31 of them. -/
  | randomBytes
  | generateProof (signals : IdentitySignals)
  | verifyProof (proof : JsString)
  | toISOString
  | setAccount (email : JsString) (account : Account)
  /-- The duplicate check and `accounts.set` of `simEnroll`, with no await between. -/
  | insertNew (email : JsString) (account : JsString → Account)
  | clear
  | mkdir
  /-- The snapshot of the map, and `writeFile` begins. -/
  | startWrite
  | writeFile
  | registerUser (email : JsString)
  /-- `accounts.get(email)`, and its `centralUserId` is set if there is one. -/
  | attach (email userId : JsString)
  | getAccount (email : JsString)
  | attachTo (ref : ℕ) (userId : JsString)
  | recordVerification (userId : JsString) (confidenceScore : Option ℕ) (attendanceType : JsString)
  | recordCheckIn (userId verificationId attendanceType : JsString)

def BridgeOp.Resp : BridgeOp → Type
  | has _ => Bool
  | enqueue => ℕ
  | uploadCharacteristic => List UInt8
  | randomBytes => List UInt8
  | generateProof _ => JsString
  | verifyProof _ => Bool
  | toISOString => JsString
  | insertNew _ _ => Option Account
  | registerUser _ => Option JsString
  | attach _ _ => Bool
  | getAccount _ => Option Held
  | recordVerification _ _ _ => Option JsString
  | recordCheckIn _ _ _ => Option JsString
  | _ => Unit

abbrev bridgeSig : Sig := ⟨BridgeOp, BridgeOp.Resp⟩

inductive BridgeError
  /-- `EmailAlreadyRegisteredError`. -/
  | emailAlreadyRegistered (email : JsString)
  | error (message : JsString)
  deriving DecidableEq

abbrev BridgeProgram (α : Type) := Prog bridgeSig BridgeError α

def await (o : BridgeOp) : BridgeProgram o.Resp := Prog.perform (S := bridgeSig) o

/-- What follows in the chain starts when `fn` has ended, either way; to settle a
    promise does not throw. -/
def withSensorLock {α : Type} (fn : BridgeProgram α) : BridgeProgram α := do
  let ticket : ℕ ← await .enqueue
  await (.acquire ticket)
  let result ← Prog.tryCatch (do
    let a ← fn
    return (.ok a : Except BridgeError α)) fun err => return .error err
  Prog.await (S := bridgeSig) .release fun _ => Prog.ofExcept result

def saveAccounts : BridgeProgram Unit := do
  await .mkdir
  await .startWrite
  await .writeFile

/-! ## Enrolment -/

def BridgeError.message : BridgeError → JsString
  | emailAlreadyRegistered email => js "Email already registered: " ++ email
  | error message => message

def classifyRetryable (err : BridgeError) : Option JsString :=
  if includes err.message (js "0xa") then
    some (js "The two scans did not match each other. Use the same finger both times, with similar placement.")
  else if includes err.message (js "0x6") then
    some (js "The scan was unclear. Try a cleaner, more centred placement.")
  else if includes err.message (js "0x7") then
    some (js "Not enough ridge detail captured. Press a little more firmly.")
  else none

def maxEnrollAttempts : ℕ := 3

/-- The `try` block of `enroll`. -/
def enrollAttempt (email : JsString) : BridgeProgram Account := do
  -- first touch
  await (.sensor .waitForFinger)
  await (.sensor (.imageToCharBuffer 1))
  await (.sensor .waitForFingerRemoval)
  -- second touch, combined with the first on the sensor
  await (.sensor .waitForFinger)
  await (.sensor (.imageToCharBuffer 2))
  await (.sensor .combineToTemplate)
  let templateBytes : List UInt8 ← await .uploadCharacteristic
  -- the identity: signals, proof, and the proof checked before anything is kept
  let random : List UInt8 ← await .randomBytes
  let signals := deriveSignals cfg templateBytes email (toFieldElement random)
  let proof : JsString ← await (.generateProof signals)
  let ok : Bool ← await (.verifyProof proof)
  if !ok then
    throw (.error (js "Signup-time proof failed verification — refusing to persist account."))
  let createdAt : JsString ← await .toISOString
  let account := accountOf email templateBytes signals createdAt
  await (.setAccount email account)
  saveAccounts
  return account

/-- The loop of `enroll`, with `more` attempts after this one. -/
def enrollLoop (email : JsString) : ℕ → BridgeProgram Account
  | 0 => enrollAttempt cfg email
  | more + 1 =>
      Prog.tryCatch (enrollAttempt cfg email) fun err =>
        match classifyRetryable err with
        | none => throw err
        | some _ => do
            Prog.tryCatch (await (.sensor .waitForFingerRemoval)) fun _ => return ()
            enrollLoop email more

def enroll (email : JsString) : BridgeProgram Account := do
  if !cfg.sensor then throw (.error (js "Sensor not initialised"))
  let registered : Bool ← await (.has email)
  if registered then throw (.emailAlreadyRegistered email)
  withSensorLock (enrollLoop cfg email (maxEnrollAttempts - 1))

/-- The synthetic template: a digest repeated to 768 bytes. -/
def simTemplate (email : JsString) : List UInt8 :=
  (List.replicate 24 (sha256 (utf8 (js "zeroauth-sim:" ++ email)))).flatten

def simEnroll (email : JsString) : BridgeProgram Account := do
  let templateBytes := simTemplate email
  let salt := bigIntOfBytes (sha256 (utf8 (js "sim-salt:" ++ email)))
  let signals := deriveSignals cfg templateBytes email salt
  let inserted : Option Account ← await (.insertNew email (accountOf email templateBytes signals))
  match inserted with
  | none => throw (.emailAlreadyRegistered email)
  | some account =>
      saveAccounts
      return account

/-! ## The other writers -/

/-- The last of the central-sync events. -/
inductive CentralResult
  | skippedNotConfigured
  | skippedRemoteError
  | synced (id : JsString)
  deriving DecidableEq

def syncSignupToCentral (email : JsString) : BridgeProgram CentralResult := do
  match cfg.centralDeviceId with
  | none => return .skippedNotConfigured
  | some _ =>
      let user : Option JsString ← await (.registerUser email)
      match user with
      | none => return .skippedRemoteError
      | some id =>
          let attached : Bool ← await (.attach email id)
          if attached then saveAccounts
          return .synced id

/-- A missing and an empty `centralUserId` are both not set. -/
def userIdOf (account : Option Held) : Option JsString :=
  (account.bind fun x => x.account.centralUserId).filter fun s => s ≠ []

/-- The back-fill of `syncLoginToCentral`, for a login without a central user. -/
def backfillUser (email : JsString) (account : Option Held) : BridgeProgram Unit := do
  let user : Option JsString ← await (.registerUser email)
  match user, account with
  | some id, some x =>
      await (.attachTo x.ref id)
      saveAccounts
  | _, _ => return ()

def syncLoginToCentral (email : JsString) (matchScore : Option ℕ) (attendanceType : JsString) :
    BridgeProgram CentralResult := do
  match cfg.centralDeviceId with
  | none => return .skippedNotConfigured
  | some _ =>
      let account : Option Held ← await (.getAccount email)
      -- signed up before the central API knew the user: one attempt to fill in the id
      if (userIdOf account).isNone then backfillUser email account
      let current : Option Held ← await (.getAccount email)
      match userIdOf current with
      | none => return .skippedRemoteError
      | some userId =>
          let verification : Option JsString ←
            await (.recordVerification userId matchScore attendanceType)
          match verification with
          | none => return .skippedRemoteError
          | some verificationId =>
              let attendance : Option JsString ←
                await (.recordCheckIn userId verificationId attendanceType)
              match attendance with
              | none => return .skippedRemoteError
              | some id => return .synced id

def reset : BridgeProgram Unit := do
  await .clear
  saveAccounts

/-! ## The process -/

/-- A call; emails have gone through `normalizeEmail`. -/
inductive BridgeCall
  | enroll (email : Email cfg)
  | simEnroll (email : Email cfg)
  | syncSignup (email : Email cfg)
  | syncLogin (email : Email cfg) (matchScore : Option ℕ) (attendanceType : JsString)
  | reset

inductive BridgeResult
  | enrolled (account : Account)
  | central (result : CentralResult)
  | cleared
  deriving DecidableEq

variable {cfg}

def BridgeCall.code : BridgeCall cfg → BridgeProgram BridgeResult
  | enroll email => do
      let account ← Iot.enroll cfg email.text
      return .enrolled account
  | simEnroll email => do
      let account ← Iot.simEnroll cfg email.text
      return .enrolled account
  | syncSignup email => do
      let result ← syncSignupToCentral cfg email.text
      return .central result
  | syncLogin email matchScore attendanceType => do
      let result ← syncLoginToCentral cfg email.text matchScore attendanceType
      return .central result
  | reset => do
      Iot.reset
      return .cleared

/-- A `writeFile` in progress. -/
structure FileWrite where
  thread : ℕ
  contents : Json
  /-- No other `writeFile` has been in progress at the same time. -/
  alone : Bool

structure BridgeWorld where
  accounts : AccountMap
  /-- How many account objects have been made. -/
  made : ℕ
  queued : ℕ
  served : ℕ
  file : Option (Option Json)
  writes : List FileWrite

/-- What the sensor, the disk, the prover and the central API may do. -/
inductive BridgeOracle
  | ok
  | fails (message : JsString)
  | bytes (bs : List UInt8)
  | text (s : JsString)
  | verdict (ok : Bool)
  | found (id : Option JsString)
  /-- `writeFile` ends; the contents count where writes overlap or one fails. -/
  | wrote (contents : Option Json)
  | writeFails (message : JsString) (contents : Option Json)

def failure {α : Type} (message : JsString) : Except BridgeError α := .error (.error message)

namespace BridgeWorld

/-- `set` of a new object. -/
def store (w : BridgeWorld) (email : JsString) (account : Account) : BridgeWorld :=
  { w with accounts := w.accounts.set email ⟨w.made, account⟩, made := w.made + 1 }

/-- `[...accounts.values()]`, as it is written. -/
def snapshot (w : BridgeWorld) : Json := .arr (w.accounts.map fun p => p.2.account.json)

/-- The file is emptied; overlapping `writeFile`s of one file are not safe. -/
def openFile (w : BridgeWorld) (t : ℕ) : BridgeWorld :=
  { w with
    file := some none
    writes := w.writes.map (fun x => { x with alone := false }) ++
      [⟨t, w.snapshot, w.writes.isEmpty⟩] }

def closeFile (w : BridgeWorld) (t : ℕ) (contents : Option Json) : BridgeWorld :=
  { w with file := some contents, writes := w.writes.filter fun x => x.thread ≠ t }

end BridgeWorld

def bridgeExec (t : ℕ) (o : BridgeOp) (ω : BridgeOracle) (w : BridgeWorld) :
    Option (Except BridgeError o.Resp × BridgeWorld) :=
  match o, ω with
  | .has email, .ok => some (.ok (w.accounts.has email), w)
  | .enqueue, .ok => some (.ok w.queued, { w with queued := w.queued + 1 })
  -- the lock serves its tickets in order
  | .acquire ticket, .ok => if w.served = ticket then some (.ok (), w) else none
  | .release, .ok => some (.ok (), { w with served := w.served + 1 })
  | .sensor _, .ok => some (.ok (), w)
  | .sensor _, .fails message => some (failure message, w)
  | .uploadCharacteristic, .bytes bs => some (.ok bs, w)
  | .uploadCharacteristic, .fails message => some (failure message, w)
  | .randomBytes, .bytes bs => if bs.length = 31 then some (.ok bs, w) else none
  | .randomBytes, .fails message => some (failure message, w)
  | .generateProof _, .text proof => some (.ok proof, w)
  | .generateProof _, .fails message => some (failure message, w)
  | .verifyProof _, .verdict ok => some (.ok ok, w)
  | .verifyProof _, .fails message => some (failure message, w)
  | .toISOString, .text s => some (.ok s, w)
  -- the map of accounts
  | .setAccount email account, .ok => some (.ok (), w.store email account)
  | .insertNew email account, .text createdAt =>
      if w.accounts.has email then some (.ok none, w)
      else some (.ok (some (account createdAt)), w.store email (account createdAt))
  | .clear, .ok => some (.ok (), { w with accounts := [] })
  -- the file: opened, then written or broken off with whatever has reached it
  | .mkdir, .ok => some (.ok (), w)
  | .mkdir, .fails message => some (failure message, w)
  | .startWrite, .ok => some (.ok (), w.openFile t)
  | .writeFile, .wrote contents =>
      (w.writes.find? fun x => x.thread = t).map fun x =>
        (.ok (), w.closeFile t (if x.alone then some x.contents else contents))
  | .writeFile, .writeFails message contents => some (failure message, w.closeFile t contents)
  -- the central API
  | .registerUser _, .found id => some (.ok id, w)
  | .attach email userId, .ok =>
      match w.accounts.get? email with
      | some x => some (.ok true, { w with accounts := w.accounts.attach x.ref userId })
      | none => some (.ok false, w)
  | .getAccount email, .ok => some (.ok (w.accounts.get? email), w)
  | .attachTo ref userId, .ok =>
      some (.ok (), { w with accounts := w.accounts.attach ref userId })
  | .recordVerification _ _ _, .found id => some (.ok id, w)
  | .recordCheckIn _ _ _, .found id => some (.ok id, w)
  | _, _ => none

/-- One bridge process; its environment does nothing of its own. -/
def bridge (cfg : BridgeConfig) : System bridgeSig BridgeError BridgeResult (BridgeCall cfg)
    BridgeWorld BridgeOracle Empty where
  code := BridgeCall.code
  exec := bridgeExec
  env := fun e => nomatch e

/-- The process has started on the file that is there. -/
def BridgeWorld.Initial (cfg : BridgeConfig) (w : BridgeWorld) : Prop :=
  ∃ file, w = ⟨loadAccounts cfg file, (restore cfg file).2, 0, 0, file, []⟩

end ZeroAuth.Iot
