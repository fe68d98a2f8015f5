/-
  ZeroAuth.Iot.CentralApi

  The client of iot/src/central-api.ts and the routes of the platform that it calls:
  POST and GET of src/routes/v1/devices.ts and src/routes/v1/users.ts.

  The client is a program over HTTP requests; a request that throws (timeout, no
  network) is answered by an error.  The POST routes are programs over the
  database of `ZeroAuth.Tenant.System` and are run there without interruption; a
  GET answers with a listing of the rows of its tenant and environment.
-/

import ZeroAuth.Lib.Solo
import ZeroAuth.Lib.Sorting
import ZeroAuth.Lib.Trim
import ZeroAuth.Tenant.System

namespace ZeroAuth.Iot.Central

open ZeroAuth.Lib ZeroAuth.Js ZeroAuth.Pg ZeroAuth.Tenant

/-! ## Configuration -/

theorem trim_eq_trimBy (s : JsString) : trim s = trimBy isWhiteSpace s := rfl

theorem trim_ne_nil {s : JsString} {u : CodeUnit} (hmem : u ∈ s) (hu : isWhiteSpace u = false) :
    trim s ≠ [] := by
  intro hnil
  obtain ⟨a, b, hs, ha, hb⟩ := trimBy_split isWhiteSpace s
  rw [← trim_eq_trimBy, hnil, List.append_nil] at hs
  rw [hs, List.mem_append] at hmem
  rcases hmem with hmem | hmem
  · rw [ha u hmem] at hu
    cases hu
  · rw [hb u hmem] at hu
    cases hu

/-- What `trim` leaves is not blank unless it is empty. -/
theorem trim_trim_ne_nil {s : JsString} (h : trim s ≠ []) : trim (trim s) ≠ [] := by
  have hlast : (trim s).getLast? = some ((trim s).getLast h) := List.getLast?_eq_some_getLast h
  exact trim_ne_nil (List.getLast_mem h) (last_trimBy (s := s) _ hlast)

/-- `(variable ?? '').trim() || fallback`. -/
def envText (value : Option JsString) (fallback : JsString) : JsString :=
  if trim (value.getD []) = [] then fallback else trim (value.getD [])

theorem trim_envText_ne_nil {fallback : JsString} (h : trim fallback ≠ [])
    (value : Option JsString) : trim (envText value fallback) ≠ [] := by
  unfold envText
  split
  · exact h
  · next hne => exact trim_trim_ne_nil hne

/-- `iot-bridge-${hostname}`. -/
def defaultDeviceId (hostname : JsString) : JsString := js "iot-bridge-" ++ hostname

theorem trim_defaultDeviceId_ne_nil (hostname : JsString) : trim (defaultDeviceId hostname) ≠ [] :=
  trim_ne_nil (u := 105) (List.mem_append_left _ (by decide)) (by decide)

structure CentralApiConfig where
  baseUrl : JsString
  apiKey : JsString
  deviceExternalId : JsString
  deviceName : JsString
  deviceExternalId_nonblank : trim deviceExternalId ≠ []
  deviceName_nonblank : trim deviceName ≠ []

/-- The variables that the client reads. -/
structure BridgeEnv where
  apiUrl : Option JsString
  apiKey : Option JsString
  deviceId : Option JsString
  deviceName : Option JsString

def readConfigFromEnv (env : BridgeEnv) (hostname : JsString) : Option CentralApiConfig :=
  let baseUrl := (trim (env.apiUrl.getD [])).rdropWhile (· = 47)
  let apiKey := trim (env.apiKey.getD [])
  if baseUrl = [] ∨ apiKey = [] then none
  else some
    { baseUrl := baseUrl
      apiKey := apiKey
      deviceExternalId := envText env.deviceId (defaultDeviceId hostname)
      deviceName := envText env.deviceName (js "IoT bridge")
      deviceExternalId_nonblank := trim_envText_ne_nil (trim_defaultDeviceId_ne_nil hostname) _
      deviceName_nonblank := trim_envText_ne_nil (by decide) _ }

/-! ## The client -/

structure DeviceRecord where
  id : Uuid
  externalId : JsString
  deriving DecidableEq

structure UserRecord where
  id : Uuid
  externalId : JsString
  fullName : JsString
  deriving DecidableEq

structure DeviceBody where
  name : JsString
  externalId : JsString
  metadata : Json

structure UserBody where
  fullName : JsString
  externalId : JsString
  email : JsString
  metadata : Json

inductive Request
  | postDevices (body : DeviceBody)
  | getDevices (limit : ℤ)
  | postUsers (body : UserBody)
  | getUsers (limit : ℤ)

/-- What the client reads of a body: `device`, `devices`, `user` or `users`. -/
def Request.Body : Request → Type
  | postDevices _ => DeviceRecord
  | getDevices _ => List DeviceRecord
  | postUsers _ => UserRecord
  | getUsers _ => List UserRecord

/-- A status, and the body where it has what the client reads. -/
structure Response (β : Type) where
  status : ℕ
  body : Option β

abbrev http : Sig := ⟨Request, fun o => Response o.Body⟩

/-- A call of the client; a request that throws has no answer. -/
abbrev Client (α : Type) := Prog http Unit α

/-- The body of an answer whose status is not expected is not read; no answer is `null`. -/
def request (o : Request) (expect : List ℕ) : Client (Option (Response o.Body)) :=
  Prog.tryCatch
    (do
      let res : Response o.Body ← Prog.perform (S := http) o
      return some (if res.status ∈ expect then res else ⟨res.status, none⟩))
    fun _ => return none

/-- `{ source: 'iot-bridge' }`. -/
def bridgeMetadata : Json := .obj [(js "source", .str (js "iot-bridge"))]

/-- The result, and what the cache holds then. -/
def ensureDevice (cfg : CentralApiConfig) (deviceCache : Option DeviceRecord) :
    Client (Option DeviceRecord × Option DeviceRecord) :=
  match deviceCache with
  | some device => return (some device, some device)
  | none => do
      let created : Option (Response DeviceRecord) ← request
        (.postDevices ⟨cfg.deviceName, cfg.deviceExternalId, bridgeMetadata⟩) [201, 409]
      match created with
      | some ⟨201, some device⟩ => return (some device, some device)
      | _ => do
          let list : Option (Response (List DeviceRecord)) ← request (.getDevices 200) [200]
          match list.bind Response.body with
          | none => return (none, none)
          | some devices =>
              let found := devices.find? fun d => d.externalId = cfg.deviceExternalId
              return (found, found)

def registerUser (email : JsString) : Client (Option UserRecord) := do
  let res : Option (Response UserRecord) ← request
    (.postUsers ⟨email, email, email, bridgeMetadata⟩) [201, 409]
  match res with
  | some ⟨201, some user⟩ => return some user
  | some ⟨409, _⟩ => do
      let list : Option (Response (List UserRecord)) ← request (.getUsers 200) [200]
      return (list.bind Response.body).bind fun users => users.find? fun u => u.externalId = email
  | _ => return none

/-! ## The routes -/

/-- The API key of a request: whose rows it reads and writes. -/
structure ApiKey where
  id : Uuid
  tenantId : Uuid
  environment : JsString

def ApiKey.devices (key : ApiKey) (db : Db) : List Device :=
  (Db.devices db).filter fun d => d.tenantId = key.tenantId ∧ d.environment = key.environment

def ApiKey.users (key : ApiKey) (db : Db) : List TenantUser :=
  (Db.users db).filter fun u => u.tenantId = key.tenantId ∧ u.environment = key.environment

def ApiKey.actor (key : ApiKey) : AuditActor := ⟨js "api_key", some key.id.text, none⟩

def deviceRecord (d : Device) : DeviceRecord := ⟨d.id, d.externalId⟩

def userRecord (u : TenantUser) : UserRecord := ⟨u.id, u.externalId, u.fullName⟩

/-- `(err as Error).message.includes('duplicate key')`. -/
def isDuplicateKey : Failure → Bool
  | .other message => includes message (js "duplicate key")
  | _ => false

def createFailed {β : Type} (err : Failure) : Response β :=
  if isDuplicateKey err then ⟨409, none⟩ else ⟨500, none⟩

/-- `POST /v1/devices`, for a body without `deviceType`, `locationId` and `batteryLevel`. -/
def postDevices (key : ApiKey) (body : DeviceBody) : Program (Response DeviceRecord) :=
  if trim body.name = [] then return ⟨400, none⟩
  else Prog.tryCatch
    (do
      let device : Device ← createDevice key.tenantId.text key.environment
        { externalId := some body.externalId
          name := body.name
          deviceType := none
          locationId := none
          batteryLevel := none
          metadata := some body.metadata } (some key.actor)
      return ⟨201, some (deviceRecord device)⟩)
    fun err => return createFailed err

/-- `POST /v1/users`, for a body without `phone`, `employeeCode` and `primaryDeviceId`.  The
    client sends no `primaryDeviceId`, so the 404 of the route is not met. -/
def postUsers (cfg : Settings) (key : ApiKey) (body : UserBody) : Program (Response UserRecord) :=
  if trim body.fullName = [] then return ⟨400, none⟩
  else Prog.tryCatch
    (do
      let user : TenantUser ← createTenantUser cfg key.tenantId.text key.environment
        { externalId := some body.externalId
          fullName := body.fullName
          email := some body.email
          phone := none
          employeeCode := none
          primaryDeviceId := none
          metadata := some body.metadata } (some key.actor)
      return ⟨201, some (userRecord user)⟩)
    fun err => return createFailed err

/-- `none` and 0 stand for a limit that is missing or `NaN`. -/
def sanitizeLimit (limit : Option ℤ) : ℕ :=
  match limit with
  | none | some 0 => 50
  | some n => (max 1 (min 100 n)).toNat

def ListDevices (key : ApiKey) (db : Db) (limit : Option ℤ) (rows : List Device) : Prop :=
  IsListing Device.createdAt (key.devices db) (sanitizeLimit limit) rows

def ListTenantUsers (key : ApiKey) (db : Db) (limit : Option ℤ) (rows : List TenantUser) : Prop :=
  IsListing TenantUser.createdAt (key.users db) (sanitizeLimit limit) rows

/-- A statement of a route that does not fail by itself, and whose answer arrives. -/
def Statement (pg : Jsonb) (o : Op) (w : World) (r : Except Failure o.Resp) (w' : World) : Prop :=
  ∃ ω : Oracle, ω.failure = none ∧ ω.lost = none ∧ exec pg 0 o ω w = some (r, w')

/-- The platform answers a request; the network does not fail. -/
def Serves (pg : Jsonb) (cfg : Settings) (key : ApiKey) :
    (o : Request) → World → Except Unit (Response o.Body) → World → Prop
  | .postDevices body, w, r, w' =>
      ∃ res, Prog.Solo (Statement pg) (postDevices key body) w (.ok res) w' ∧ r = .ok res
  | .postUsers body, w, r, w' =>
      ∃ res, Prog.Solo (Statement pg) (postUsers cfg key body) w (.ok res) w' ∧ r = .ok res
  | .getDevices limit, w, r, w' =>
      ∃ rows, ListDevices key w.store.db (some limit) rows ∧
        r = .ok ⟨200, some (rows.map deviceRecord)⟩ ∧ w' = w
  | .getUsers limit, w, r, w' =>
      ∃ rows, ListTenantUsers key w.store.db (some limit) rows ∧
        r = .ok ⟨200, some (rows.map userRecord)⟩ ∧ w' = w

end ZeroAuth.Iot.Central
