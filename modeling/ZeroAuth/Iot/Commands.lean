/-
  ZeroAuth.Iot.Commands

  The commands of the R307 sensor that are answered by one ACK (iot/src/sensor.ts),
  called one after another, and a sensor that answers each of them once, in order, after
  any delay.

  An answer does not say which command it is for.  The waiter of a command that has timed
  out is gone, but the answer may still come, and then it goes to whoever waits
  (`late_answer`).  When no late answer comes while a command waits, each command that
  returns has read its own answer (`own_answers`).
-/

import ZeroAuth.Iot.Sensor

namespace ZeroAuth.Iot

open ZeroAuth.Js ZeroAuth.Lib

/-! ## The commands -/

namespace CMD

def getImage : UInt8 := 0x01
def imgToTz : UInt8 := 0x02
def «match» : UInt8 := 0x03
def search : UInt8 := 0x04
def regModel : UInt8 := 0x05
def store : UInt8 := 0x06
def deleteChar : UInt8 := 0x0c
def empty : UInt8 := 0x0d
def verifyPassword : UInt8 := 0x13
def getRandom : UInt8 := 0x14
def getSysParams : UInt8 := 0x0f
def templateCount : UInt8 := 0x1d
def readIndexTable : UInt8 := 0x1f

end CMD

namespace CONF

def notMatch : ℕ := 0x08
def noMatchFound : ℕ := 0x09

end CONF

/-- `getImage` is one poll of `waitForFinger` and `waitForFingerRemoval`,
    `readIndexPage` one turn of `readIndexTable`. -/
inductive Command
  | verifyPassword (password : UInt32)
  | getSystemParams
  | getTemplateCount
  | readIndexPage (page : UInt8)
  | getImage
  | imageToCharBuffer (buffer : UInt8)
  | combineToTemplate
  | storeTemplate (slot : UInt16) (buffer : UInt8)
  | search (startSlot count : UInt16) (buffer : UInt8)
  | «match»
  | deleteTemplate (slot : UInt16)
  | emptyDatabase
  | getRandom
  deriving DecidableEq

structure SystemParams where
  statusRegister : ℕ
  systemIdentifier : ℕ
  templateLibrarySize : ℕ
  securityLevel : ℕ
  deviceAddress : ℕ
  packetSize : ℤ
  baudRate : ℕ
  deriving DecidableEq

structure SearchResult where
  pageId : ℕ
  matchScore : ℕ
  deriving DecidableEq

/-- What a command returns. -/
inductive Value
  | done
  | verified (ok : Bool)
  | confirmation (conf : ℕ)
  | params (p : SystemParams)
  | number (n : ℕ)
  | bitmap (bytes : List UInt8)
  | found (result : Option SearchResult)
  | score (result : Option ℕ)
  deriving DecidableEq

inductive CommandError
  | sensor (e : SensorError)
  | refused (what : JsString) (conf : ℕ)

def CommandError.message : CommandError → JsString
  | sensor e => e.message
  | refused what conf => what ++ js " confirmation=0x" ++ numText 16 conf

namespace Command

/-- Opcode and arguments. -/
def payload : Command → List UInt8
  | verifyPassword password => CMD.verifyPassword :: bigEndian 4 password.toNat
  | getSystemParams => [CMD.getSysParams]
  | getTemplateCount => [CMD.templateCount]
  | readIndexPage page => [CMD.readIndexTable, page]
  | getImage => [CMD.getImage]
  | imageToCharBuffer buffer => [CMD.imgToTz, buffer]
  | combineToTemplate => [CMD.regModel]
  | storeTemplate slot buffer => CMD.store :: buffer :: bigEndian 2 slot.toNat
  | search startSlot count buffer =>
      CMD.search :: buffer :: bigEndian 2 startSlot.toNat ++ bigEndian 2 count.toNat
  | «match» => [CMD.match]
  | deleteTemplate slot => CMD.deleteChar :: bigEndian 2 slot.toNat ++ bigEndian 2 1
  | emptyDatabase => [CMD.empty]
  | getRandom => [CMD.getRandom]

/-- `ack.readUInt8(i)`, `ack.readUInt16BE(i)` and `ack.readUInt32BE(i)`. -/
def read (k : ℕ) (ack : List UInt8) (i : ℕ) : Except CommandError ℕ :=
  if ack.length < i + k then .error (.sensor .outOfRange) else .ok (readUIntBE k ack i)

/-- Throws unless the confirmation is OK. -/
def confirm (what : JsString) (ack : List UInt8) : Except CommandError Unit := do
  let conf ← read 1 ack 0
  if conf ≠ CONF.ok then throw (.refused what conf)

/-- `32 << n`. -/
def packetSize (n : ℕ) : ℤ :=
  let bits := 32 * 2 ^ (n % 32) % 2 ^ 32
  if bits < 2 ^ 31 then bits else bits - 2 ^ 32

def systemParams (ack : List UInt8) : Except CommandError SystemParams := do
  let statusRegister ← read 2 ack 1
  let systemIdentifier ← read 2 ack 3
  let templateLibrarySize ← read 2 ack 5
  let securityLevel ← read 2 ack 7
  let deviceAddress ← read 4 ack 9
  let packets ← read 2 ack 13
  let bauds ← read 2 ack 15
  return ⟨statusRegister, systemIdentifier, templateLibrarySize, securityLevel, deviceAddress,
    packetSize packets, bauds * 9600⟩

/-- What the method makes of the payload that `cmd` returns. -/
def result (ack : List UInt8) : Command → Except CommandError Value
  | verifyPassword _ => do return .verified ((← read 1 ack 0) = CONF.ok)
  | getSystemParams => do
      confirm (js "get_sys_params") ack
      return .params (← systemParams ack)
  | getTemplateCount => do
      confirm (js "template_count") ack
      return .number (← read 2 ack 1)
  | readIndexPage page => do
      confirm (js "read_index_table page=" ++ numText 10 page.toNat) ack
      return .bitmap (ack.drop 1)
  | getImage => do return .confirmation (← read 1 ack 0)
  | imageToCharBuffer buffer => do
      confirm (js "img_to_tz buffer=" ++ numText 10 buffer.toNat) ack
      return .done
  | combineToTemplate => do
      confirm (js "reg_model") ack
      return .done
  | storeTemplate slot _ => do
      confirm (js "store slot=" ++ numText 10 slot.toNat) ack
      return .done
  -- `NO_MATCH_FOUND` is an answer here, every other code an error
  | search _ _ _ => do
      let conf ← read 1 ack 0
      if conf = CONF.noMatchFound then return .found none
      confirm (js "search") ack
      return .found (some ⟨← read 2 ack 1, ← read 2 ack 3⟩)
  -- likewise `NOT_MATCH`
  | «match» => do
      let conf ← read 1 ack 0
      if conf = CONF.notMatch then return .score none
      confirm (js "match") ack
      return .score (some (← read 2 ack 1))
  | deleteTemplate slot => do
      confirm (js "delete slot=" ++ numText 10 slot.toNat) ack
      return .done
  | emptyDatabase => do
      confirm (js "empty") ack
      return .done
  | getRandom => do
      confirm (js "get_random") ack
      return .number (← read 4 ack 1)

end Command

/-! ## The driver and the sensor -/

/-- Where the one call under way is suspended, with its number. -/
inductive Client
  | idle
  | writing (n : ℕ) (command : Command)
  | wrote (n : ℕ) (command : Command)
  | acknowledging (n : ℕ) (command : Command) (promise : ℕ)

/-- A call that has ended. -/
structure Ended where
  number : ℕ
  command : Command
  outcome : Except CommandError Value

structure Link where
  /-- No upload runs: `sensor.upload` stays as it is. -/
  sensor : R307Sensor
  client : Client
  calls : ℕ
  /-- The commands on their way to the sensor. -/
  outgoing : List ℕ
  /-- The answers of the sensor, each with the number of its command. -/
  answered : List (ℕ × ParsedPacket)
  /-- The bytes of the answers that the port has not delivered. -/
  wire : List UInt8
  /-- The answers that the driver has not parsed. -/
  inTransit : List (ℕ × ParsedPacket)
  ended : List Ended

namespace Link

/-- The write has not reached the sensor. -/
def lose (w : Link) (n : ℕ) : Link := { w with outgoing := w.outgoing.filter fun m => m ≠ n }

def finish (w : Link) (n : ℕ) (command : Command) (outcome : Except CommandError Value) : Link :=
  { w with client := .idle, ended := w.ended ++ [⟨n, command, outcome⟩] }

/-- The first part of `cmd`. -/
def call (w : Link) (command : Command) : Link :=
  let packet := buildPacket ⟨w.sensor.options.address, PID.command, command.payload⟩
  { w with
    sensor := { w.sensor with written := w.sensor.written ++ packet }
    client := .writing w.calls command
    calls := w.calls + 1
    outgoing := w.outgoing ++ [w.calls] }

/-- The rest of `cmd`, and of the method that called it. -/
def acknowledged (w : Link) (n : ℕ) (command : Command) :
    Except SensorError ParsedPacket → Link
  | .error e => w.finish n command (.error (.sensor e))
  | .ok ack =>
      if ack.pid ≠ PID.ack then w.finish n command (.error (.sensor (.expectedAck ack.pid)))
      else w.finish n command (command.result ack.payload)

/-- Go on after an `await` whose promise is settled. -/
def resume (w : Link) : Option Link :=
  match w.client with
  | .wrote n command => some { w with
      sensor := w.sensor.readPacket
      client := .acknowledging n command w.sensor.promises }
  | .acknowledging n command promise =>
      (w.sensor.settled promise).map fun r => w.acknowledged n command r
  | .idle | .writing _ _ => none

/-- The sensor answers the next command. -/
def answer (w : Link) (packet : ParsedPacket) : Option Link :=
  match w.outgoing with
  | [] => none
  | n :: outgoing => some { w with
      outgoing := outgoing
      answered := w.answered ++ [(n, packet)]
      wire := w.wire ++ buildPacket packet
      inTransit := w.inTransit ++ [(n, packet)] }

/-- The packets that the driver completes with the next `k` bytes. -/
def completes (w : Link) (k : ℕ) : List ParsedPacket :=
  let buffer := w.sensor.buffer ++ w.wire.take k
  (packetFraming.split buffer.length buffer).1

/-- The port delivers `k` bytes. -/
def data (w : Link) (k : ℕ) : Link :=
  { w with
    sensor := w.sensor.onData (w.wire.take k)
    wire := w.wire.drop k
    inTransit := w.inTransit.drop (w.completes k).length }

end Link

/-- A write that fails may have reached the sensor. -/
inductive LinkEvent
  | call (command : Command)
  | written
  | writeFailed (message : JsString) (lost : Bool)
  | answer (packet : ParsedPacket)
  | data (k : ℕ)
  | portError (message : JsString)
  | elapse (ms : ℕ)
  | timeout (promise : ℕ)
  | resume

instance (p : ParsedPacket) : Decidable p.WellFormed :=
  decidable_of_iff (p.address < 2 ^ 32 ∧ p.pid < 2 ^ 8 ∧ p.length < 2 ^ 16)
    ⟨fun ⟨ha, hp, hl⟩ => ⟨ha, hp, hl⟩, fun h => ⟨h.address, h.pid, h.length⟩⟩

def linkStep (w : Link) : LinkEvent → Option Link
  | .call command =>
      match w.client with
      | .idle => some (w.call command)
      | _ => none
  | .written =>
      match w.client with
      | .writing n command => some { w with client := .wrote n command }
      | _ => none
  -- the port's error may come before or after the packet has left
  | .writeFailed message lost =>
      match w.client with
      | .writing n command =>
          some ((if lost then w.lose n else w).finish n command (.error (.sensor (.port message))))
      | _ => none
  | .answer packet => if packet.WellFormed then w.answer packet else none
  | .data k => some (w.data k)
  | .portError message => some { w with sensor := w.sensor.onError message }
  | .elapse ms => some { w with sensor := { w.sensor with now := w.sensor.now + ms } }
  -- the timer of a waiter that still waits
  | .timeout promise =>
      if ∃ waiter ∈ w.sensor.waiters, waiter.promise = promise ∧ waiter.deadline ≤ w.sensor.now then
        some { w with sensor := w.sensor.onTimeout promise }
      else none
  | .resume => w.resume

abbrev link : Machine Link LinkEvent := ⟨linkStep⟩

/-- The port is open and no command has been called. -/
def Link.opened (options : SensorOptions) : Link where
  sensor :=
    { options := options, buffer := [], waiters := [], settled := fun _ => none, promises := 0
      now := 0, written := [], upload := .returned [] }
  client := .idle
  calls := 0
  outgoing := []
  answered := []
  wire := []
  inTransit := []
  ended := []

/-- The bytes that complete a packet while a command waits begin with its own answer. -/
def Timely (w : Link) : LinkEvent → Prop
  | .data k => w.completes k ≠ [] → ∀ n command promise,
      w.client = .acknowledging n command promise → w.sensor.waiters ≠ [] →
        w.inTransit.head?.map Prod.fst = some n
  | _ => True

/-! ## Whose answer a command reads -/

/-- Every command that has returned made its value of the sensor's answer to it. -/
structure OwnAnswers (w : Link) : Prop where
  once : (w.answered.map Prod.fst).Nodup
  own : ∀ e ∈ w.ended, ∀ v, e.outcome = .ok v → ∃ ack, (e.number, ack) ∈ w.answered ∧
    e.command.result ack.payload = .ok v

/-- Command `n` awaits a promise, which may have been settled by its own answer. -/
inductive Awaiting (waiters : List Waiter) (settled : ℕ → Option (Except SensorError ParsedPacket))
    (answered : List (ℕ × ParsedPacket)) (n promise : ℕ) : Prop
  | pending (hw : waiters.map Waiter.promise = [promise]) (hnone : settled promise = none)
  | settled (hw : waiters = []) (r : Except SensorError ParsedPacket)
      (hr : settled promise = some r) (hown : ∀ ack, r = .ok ack → (n, ack) ∈ answered)

/-- Where the call under way stands. -/
def Placed (w : Link) : Prop :=
  match w.client with
  | .acknowledging n _ promise => promise < w.sensor.promises ∧
      Awaiting w.sensor.waiters w.sensor.settled w.answered n promise
  | _ => w.sensor.waiters = []

structure Synced (w : Link) : Prop where
  stream : w.sensor.buffer ++ w.wire = packetFraming.wire (w.inTransit.map Prod.snd)
  wellFormed : ∀ x ∈ w.inTransit, x.2.WellFormed
  answered : ∀ x ∈ w.inTransit, x ∈ w.answered
  once : (w.answered.map Prod.fst ++ w.outgoing).Nodup
  called : ∀ n ∈ w.answered.map Prod.fst ++ w.outgoing, n < w.calls
  fresh : Fresh w.sensor
  placed : Placed w
  own : ∀ e ∈ w.ended, ∀ v, e.outcome = .ok v → ∃ ack, (e.number, ack) ∈ w.answered ∧
    e.command.result ack.payload = .ok v

theorem synced_opened (options : SensorOptions) : Synced (.opened options) where
  stream := rfl
  wellFormed _ hx := nomatch hx
  answered _ hx := nomatch hx
  once := List.nodup_nil
  called _ hn := nomatch hn
  fresh _ _ := rfl
  placed := rfl
  own _ he := nomatch he

section Steps

variable {w w' : Link}

/-- The driver alone has changed, and its buffer has not. -/
theorem Synced.withSensor (h : Synced w) {sensor : R307Sensor} (hbuffer : sensor.buffer = w.sensor.buffer)
    (hfresh : Fresh sensor) (hplaced : Placed { w with sensor := sensor }) :
    Synced { w with sensor := sensor } :=
  { stream := by
      show sensor.buffer ++ w.wire = _
      rw [hbuffer]
      exact h.stream
    wellFormed := h.wellFormed
    answered := h.answered
    once := h.once
    called := h.called
    fresh := hfresh
    placed := hplaced
    own := h.own }

/-- A call ends while nobody waits. -/
theorem Synced.finish (h : Synced w) (hw : w.sensor.waiters = []) {n : ℕ} {command : Command}
    {outcome : Except CommandError Value}
    (hown : ∀ v, outcome = .ok v → ∃ ack, (n, ack) ∈ w.answered ∧ command.result ack.payload = .ok v) :
    Synced (w.finish n command outcome) := by
  refine ⟨h.stream, h.wellFormed, h.answered, h.once, h.called, h.fresh, hw, fun e he v hv => ?_⟩
  rcases List.mem_append.mp he with he | he
  · exact h.own e he v hv
  · obtain rfl := List.mem_singleton.mp he
    exact hown v hv

theorem Synced.call (h : Synced w) (hidle : w.client = .idle) (command : Command) :
    Synced (w.call command) := by
  have hw : w.sensor.waiters = [] := by
    have hplaced := h.placed
    rwa [Placed, hidle] at hplaced
  refine ⟨h.stream, h.wellFormed, h.answered, ?_, fun n hn => ?_, h.fresh, hw, h.own⟩
  · show (w.answered.map Prod.fst ++ (w.outgoing ++ [w.calls])).Nodup
    rw [← List.append_assoc, List.nodup_append]
    refine ⟨h.once, List.nodup_singleton _, fun n hn m hm heq => ?_⟩
    rw [List.mem_singleton.mp hm] at heq
    exact Nat.lt_irrefl _ (heq ▸ h.called n hn)
  · show n < w.calls + 1
    have hn' : n ∈ w.answered.map Prod.fst ++ (w.outgoing ++ [w.calls]) := hn
    rw [← List.append_assoc, List.mem_append, List.mem_singleton] at hn'
    rcases hn' with hn' | rfl
    · exact (h.called n hn').trans (Nat.lt_succ_self _)
    · exact Nat.lt_succ_self _

theorem Synced.lose (h : Synced w) (n : ℕ) : Synced (w.lose n) := by
  have hsub : (w.answered.map Prod.fst ++ (w.outgoing.filter fun m => m ≠ n)).Sublist
      (w.answered.map Prod.fst ++ w.outgoing) :=
    List.filter_sublist.append_left _
  exact ⟨h.stream, h.wellFormed, h.answered, h.once.sublist hsub, fun m hm => h.called m (hsub.subset hm),
    h.fresh, h.placed, h.own⟩

/-- The promise that the next packet settles has been made. -/
theorem Synced.waiters (h : Synced w) : w.sensor.waiters = [] ∨ ∃ n command promise,
    w.client = .acknowledging n command promise ∧ promise < w.sensor.promises ∧
      w.sensor.waiters.map Waiter.promise = [promise] := by
  have hplaced := h.placed
  unfold Placed at hplaced
  split at hplaced
  · next n command promise hclient =>
      obtain ⟨hmade, hawait⟩ := hplaced
      cases hawait with
      | pending hw hnone => exact .inr ⟨n, command, promise, hclient, hmade, hw⟩
      | settled hw r hr hown => exact .inl hw
  · exact .inl hplaced

theorem Synced.answer (h : Synced w) {packet : ParsedPacket} (hpacket : packet.WellFormed)
    (ha : w.answer packet = some w') : Synced w' := by
  unfold Link.answer at ha
  split at ha
  · cases ha
  · next n outgoing hout =>
      obtain rfl := Option.some.inj ha
      -- the answered command moves from one list to the other
      have hperm : (w.answered.map Prod.fst ++ [n] ++ outgoing) =
          w.answered.map Prod.fst ++ w.outgoing := by
        rw [hout, List.append_assoc]
        rfl
      refine ⟨?_, fun x hx => ?_, fun x hx => ?_, ?_, fun m hm => ?_, h.fresh, ?_, fun e he v hv => ?_⟩
      · show w.sensor.buffer ++ (w.wire ++ buildPacket packet) = _
        rw [← List.append_assoc, h.stream, List.map_append, Framing.wire, Framing.wire,
          List.flatMap_append, List.map_singleton, List.flatMap_singleton]
        rfl
      · rcases List.mem_append.mp hx with hx | hx
        · exact h.wellFormed x hx
        · rw [List.mem_singleton.mp hx]
          exact hpacket
      · rcases List.mem_append.mp hx with hx | hx
        · exact List.mem_append_left _ (h.answered x hx)
        · exact List.mem_append_right _ hx
      · show ((w.answered ++ [(n, packet)]).map Prod.fst ++ outgoing).Nodup
        rw [List.map_append]
        exact hperm ▸ h.once
      · apply h.called m
        have hm' : m ∈ (w.answered ++ [(n, packet)]).map Prod.fst ++ outgoing := hm
        rw [List.map_append] at hm'
        exact hperm ▸ hm'
      · -- the client does not notice before the bytes arrive
        have hplaced := h.placed
        unfold Placed at hplaced ⊢
        dsimp only
        split at hplaced
        · obtain ⟨hmade, hawait⟩ := hplaced
          refine ⟨hmade, ?_⟩
          cases hawait with
          | pending hw hnone => exact .pending hw hnone
          | settled hw r hr hown =>
              exact .settled hw r hr fun ack hack => List.mem_append_left _ (hown ack hack)
        · exact hplaced
      · obtain ⟨ack, hack, hresult⟩ := h.own e he v hv
        exact ⟨ack, List.mem_append_left _ hack, hresult⟩

/-- The packets that a chunk completes are handed over in their order. -/
theorem onData_eq (s : R307Sensor) (chunk : List UInt8) : s.onData chunk =
    { (packetFraming.split (s.buffer ++ chunk).length (s.buffer ++ chunk)).1.foldl
        R307Sensor.handOver s with
      buffer := (packetFraming.split (s.buffer ++ chunk).length (s.buffer ++ chunk)).2 } := by
  rw [R307Sensor.onData, onDataLoop_eq, foldl_handOver_buffer]

/-- The one waiter gets the first packet; the others are gone. -/
theorem foldl_handOver_of_single {s : R307Sensor} {waiter : Waiter} (hw : s.waiters = [waiter])
    (p : ParsedPacket) (ps : List ParsedPacket) : (p :: ps).foldl R307Sensor.handOver s =
      { s with waiters := [] }.settle waiter.promise (.ok p) := by
  have hone : s.handOver p = { s with waiters := [] }.settle waiter.promise (.ok p) := by
    rw [R307Sensor.handOver, hw]
  rw [List.foldl_cons, hone]
  exact foldl_handOver_of_nil rfl ps

theorem Synced.data (h : Synced w) {k : ℕ} (hgood : Timely w (.data k)) : Synced (w.data k) := by
  have hcut : (w.sensor.buffer ++ w.wire.take k) ++ w.wire.drop k =
      packetFraming.wire (w.inTransit.map Prod.snd) := by
    rw [List.append_assoc, List.take_append_drop]
    exact h.stream
  have hwf : ∀ p ∈ w.inTransit.map Prod.snd, packetFraming.WellFormed p := by
    intro p hp
    obtain ⟨x, hx, rfl⟩ := List.mem_map.mp hp
    exact h.wellFormed x hx
  obtain ⟨found, left, tail, hps, hsplit, hrest, -⟩ :=
    packetFraming.split_wire hwf hcut (le_refl _)
  have hcompletes : w.completes k = found := congrArg Prod.fst hsplit
  have hsensor : w.sensor.onData (w.wire.take k) =
      { found.foldl R307Sensor.handOver w.sensor with buffer := tail } := by
    rw [onData_eq, hsplit]
  have hleft : (w.inTransit.drop found.length).map Prod.snd = left := by
    rw [List.map_drop, hps, List.drop_left]
  -- whoever waits, the driver is in a good place
  have hdriver : Fresh (found.foldl R307Sensor.handOver w.sensor) ∧
      Placed { w with sensor := found.foldl R307Sensor.handOver w.sensor } := by
    obtain hw | ⟨n, command, promise, hclient, hmade, hw⟩ := h.waiters
    · rw [foldl_handOver_of_nil hw]
      exact ⟨h.fresh, h.placed⟩
    · cases hfound : found with
      | nil => exact ⟨h.fresh, h.placed⟩
      | cons p ps =>
          obtain ⟨waiter, hwaiter, rfl⟩ : ∃ waiter, w.sensor.waiters = [waiter] ∧
              waiter.promise = promise := by
            obtain ⟨waiter, rest, hws, hpromise, hnil⟩ := List.map_eq_cons_iff.mp hw
            exact ⟨waiter, by rw [hws, List.map_eq_nil_iff.mp hnil], hpromise⟩
          have hhead : w.inTransit.head?.map Prod.fst = some n := by
            apply hgood _ n command waiter.promise hclient
            · rw [hwaiter]
              exact List.cons_ne_nil _ _
            · rw [hcompletes, hfound]
              exact List.cons_ne_nil _ _
          have hfirst : (n, p) ∈ w.inTransit := by
            cases hin : w.inTransit with
            | nil =>
                rw [hin] at hhead
                cases hhead
            | cons x xs =>
                rw [hin] at hhead hps
                rw [hfound] at hps
                have hn : x.1 = n := Option.some.inj hhead
                have hp : x.2 = p := (List.cons.inj hps).1
                rw [← hn, ← hp]
                exact List.mem_cons_self
          rw [foldl_handOver_of_single hwaiter]
          refine ⟨fun m hm => ?_, ?_⟩
          · have hne : m ≠ waiter.promise := Nat.ne_of_gt (Nat.lt_of_lt_of_le hmade hm)
            exact (Function.update_of_ne hne _ _).trans (h.fresh m hm)
          · unfold Placed
            simp only [hclient]
            refine ⟨hmade, .settled rfl (.ok p) (Function.update_self _ _ _) fun ack hack => ?_⟩
            rw [← Except.ok.inj hack]
            exact h.answered _ hfirst
  have hdata : w.data k = { w with
      sensor := { found.foldl R307Sensor.handOver w.sensor with buffer := tail }
      wire := w.wire.drop k
      inTransit := w.inTransit.drop found.length } := by
    rw [Link.data, hcompletes, hsensor]
  rw [hdata]
  refine ⟨?_, fun x hx => h.wellFormed x (List.mem_of_mem_drop hx),
    fun x hx => h.answered x (List.mem_of_mem_drop hx), h.once, h.called, hdriver.1, hdriver.2,
    h.own⟩
  show tail ++ w.wire.drop k = packetFraming.wire ((w.inTransit.drop found.length).map Prod.snd)
  rw [hleft]
  exact hrest

/-- The waiter is rejected, by its timer or by the port. -/
theorem Synced.reject (h : Synced w) {sensor : R307Sensor} {promise : ℕ} {e : SensorError}
    (hwaits : w.sensor.waiters.map Waiter.promise = [promise])
    (hbuffer : sensor.buffer = w.sensor.buffer) (hpromises : sensor.promises = w.sensor.promises)
    (hw : sensor.waiters = [])
    (hsettled : sensor.settled = Function.update w.sensor.settled promise (some (.error e))) :
    Synced { w with sensor := sensor } := by
  obtain hnil | ⟨n, command, promise', hclient, hmade, hw'⟩ := h.waiters
  · rw [hnil] at hwaits
    cases hwaits
  · obtain rfl : promise' = promise := List.cons.inj (hw'.symm.trans hwaits) |>.1
    refine h.withSensor hbuffer (fun m hm => ?_) ?_
    · rw [hpromises] at hm
      rw [hsettled, Function.update_of_ne (Nat.ne_of_gt (Nat.lt_of_lt_of_le hmade hm))]
      exact h.fresh m hm
    · unfold Placed
      simp only [hclient]
      refine ⟨hpromises ▸ hmade, .settled hw (.error e) ?_ fun ack hack => by cases hack⟩
      rw [hsettled, Function.update_self]

theorem Synced.onTimeout (h : Synced w) {promise : ℕ}
    (hwaiter : ∃ waiter ∈ w.sensor.waiters, waiter.promise = promise) :
    Synced { w with sensor := w.sensor.onTimeout promise } := by
  obtain ⟨waiter, hmem, rfl⟩ := hwaiter
  obtain hw | ⟨n, command, promise', hclient, -, hw⟩ := h.waiters
  · rw [hw] at hmem
    cases hmem
  · have hone : waiter.promise = promise' := by
      have hin : waiter.promise ∈ w.sensor.waiters.map Waiter.promise := List.mem_map_of_mem hmem
      rw [hw] at hin
      exact List.mem_singleton.mp hin
    subst hone
    refine h.reject hw rfl rfl ?_ rfl
    show w.sensor.waiters.filter (fun x => x.promise ≠ waiter.promise) = []
    rw [List.filter_eq_nil_iff]
    intro x hx
    have hin : x.promise ∈ w.sensor.waiters.map Waiter.promise := List.mem_map_of_mem hx
    rw [hw] at hin
    rw [List.mem_singleton.mp hin]
    simp

theorem Synced.onError (h : Synced w) (message : JsString) :
    Synced { w with sensor := w.sensor.onError message } := by
  obtain hw | ⟨n, command, promise, hclient, hmade, hw⟩ := h.waiters
  · have hnone : w.sensor.onError message = w.sensor := by
      rw [R307Sensor.onError, hw, List.foldl_nil, ← hw]
    rw [hnone]
    exact h
  · obtain ⟨waiter, rest, hws, hpromise, hnil⟩ := List.map_eq_cons_iff.mp hw
    rw [List.map_eq_nil_iff] at hnil
    subst hnil
    refine h.reject (e := .port message) hw ?_ ?_ rfl ?_
    all_goals
      rw [R307Sensor.onError, hws, List.foldl_cons, List.foldl_nil]
    · rfl
    · rfl
    · rw [← hpromise]
      rfl

theorem Synced.acknowledged (h : Synced w) {n : ℕ} {command : Command}
    {r : Except SensorError ParsedPacket} (hw : w.sensor.waiters = [])
    (hown : ∀ ack, r = .ok ack → (n, ack) ∈ w.answered) : Synced (w.acknowledged n command r) := by
  cases r with
  | error e => exact h.finish hw fun v hv => nomatch hv
  | ok ack =>
      show Synced (if _ then _ else _)
      split
      · exact h.finish hw fun v hv => nomatch hv
      · exact h.finish hw fun v hv => ⟨ack, hown ack rfl, hv⟩

theorem Synced.resume (h : Synced w) (hr : w.resume = some w') : Synced w' := by
  have hplaced := h.placed
  unfold Link.resume at hr
  split at hr
  · next n command hclient =>
      obtain rfl := Option.some.inj hr
      rw [Placed, hclient] at hplaced
      have hw : w.sensor.waiters = [] := hplaced
      refine ⟨h.stream, h.wellFormed, h.answered, h.once, h.called, fun m hm => ?_, ?_, h.own⟩
      · exact h.fresh m (Nat.le_of_succ_le hm)
      · refine ⟨Nat.lt_succ_self _, .pending ?_ (h.fresh _ (le_refl _))⟩
        show (w.sensor.waiters ++ [_]).map Waiter.promise = _
        rw [hw]
        rfl
  · next n command promise hclient =>
      obtain ⟨r, hsettled, rfl⟩ := Option.map_eq_some_iff.mp hr
      rw [Placed, hclient] at hplaced
      obtain ⟨-, hawait⟩ := hplaced
      cases hawait with
      | pending hw hnone =>
          rw [hnone] at hsettled
          cases hsettled
      | settled hw r' hr' hown =>
          obtain rfl := Option.some.inj (hr'.symm.trans hsettled)
          exact h.acknowledged hw hown
  · cases hr
  · cases hr

/-- One step. -/
theorem Synced.step (h : Synced w) {e : LinkEvent} (hgood : Timely w e)
    (hs : linkStep w e = some w') : Synced w' := by
  cases e with
  | call command =>
      simp only [linkStep] at hs
      split at hs
      · next hclient =>
          obtain rfl := Option.some.inj hs
          exact h.call hclient command
      · cases hs
  | written =>
      simp only [linkStep] at hs
      split at hs
      · next n command hclient =>
          obtain rfl := Option.some.inj hs
          have hplaced := h.placed
          rw [Placed, hclient] at hplaced
          exact ⟨h.stream, h.wellFormed, h.answered, h.once, h.called, h.fresh, hplaced, h.own⟩
      · cases hs
  | writeFailed message lost =>
      simp only [linkStep] at hs
      split at hs
      · next n command hclient =>
          obtain rfl := Option.some.inj hs
          have hplaced := h.placed
          rw [Placed, hclient] at hplaced
          -- the bytes of a write that failed may have gone out, or not
          cases lost with
          | false => exact h.finish hplaced fun v hv => nomatch hv
          | true => exact (h.lose n).finish hplaced fun v hv => nomatch hv
      · cases hs
  | answer packet =>
      obtain ⟨hpacket, ha⟩ := Option.ite_none_right_eq_some.mp hs
      exact h.answer hpacket ha
  | data k =>
      obtain rfl := Option.some.inj hs
      exact h.data hgood
  | portError message =>
      obtain rfl := Option.some.inj hs
      exact h.onError message
  | elapse ms =>
      obtain rfl := Option.some.inj hs
      exact ⟨h.stream, h.wellFormed, h.answered, h.once, h.called, h.fresh, h.placed, h.own⟩
  | timeout promise =>
      obtain ⟨⟨waiter, hmem, hpromise, -⟩, heq⟩ := Option.ite_none_right_eq_some.mp hs
      obtain rfl := Option.some.inj heq
      exact h.onTimeout ⟨waiter, hmem, hpromise⟩
  | resume => exact h.resume hs

end Steps

def timelyTest (w : Link) : LinkEvent → Bool
  | .data k =>
      match w.client with
      | .acknowledging n _ _ => (w.completes k).isEmpty || w.sensor.waiters.isEmpty ||
          w.inTransit.head?.map Prod.fst = some n
      | _ => true
  | _ => true

theorem timely_of_test (w : Link) (e : LinkEvent) (h : timelyTest w e = true) : Timely w e := by
  cases e with
  | data k =>
      intro hsome n command promise hclient hwaits
      simp only [timelyTest, hclient, Bool.or_eq_true, List.isEmpty_iff, decide_eq_true_eq] at h
      rcases h with (h | h) | h
      · exact absurd h hsome
      · exact absurd h hwaits
      · exact h
  | _ => trivial

/-- While no answer to an earlier command comes in as a command waits, every command that
    returns has read its own answer. -/
theorem own_answers (options : SensorOptions) {w : Link}
    (h : link.Later Timely (.opened options) w) : OwnAnswers w := by
  have hsynced : Synced w := h.invariant (fun _ _ _ hI hgood hs => hI.step hgood hs)
    (synced_opened options)
  exact ⟨(List.nodup_append.mp hsynced.once).1, hsynced.own⟩

def sensorOptions : SensorOptions := ⟨defaultAddress, 3000⟩

/-- The sensor could not write its flash. -/
def refusal : ParsedPacket := ⟨defaultAddress, PID.ack, [0x18]⟩

/-- Three calls, the first with its answer in two chunks and the second one refused. -/
def answeredCalls : List LinkEvent :=
  [.call .combineToTemplate, .written, .resume, .answer okAck, .data 7, .data 5, .resume,
    .call (.storeTemplate 7 1), .written, .resume, .answer refusal, .data 12, .resume,
    .call .combineToTemplate, .written, .resume, .answer okAck, .data 12, .resume]

theorem own_answers_of_calls : ∃ w,
    link.runChecked timelyTest (.opened sensorOptions) answeredCalls = some w ∧
      w.ended.map (fun e => (e.command, e.outcome.toOption)) =
        [(.combineToTemplate, some .done), (.storeTemplate 7 1, none),
          (.combineToTemplate, some .done)] ∧ OwnAnswers w := by
  have hrun : (link.runChecked timelyTest (.opened sensorOptions) answeredCalls).map
      (fun w => w.ended.map fun e => (e.command, e.outcome.toOption)) =
        some [(.combineToTemplate, some .done), (.storeTemplate 7 1, none),
          (.combineToTemplate, some .done)] := by
    decide
  obtain ⟨w, hw, hended⟩ := Option.map_eq_some_iff.mp hrun
  exact ⟨w, hw, hended, own_answers sensorOptions (Machine.later_of_runChecked timely_of_test hw)⟩

/-! ## A late answer -/

/-- The OK for `combineToTemplate` comes after its timeout, while `storeTemplate` waits; the
    sensor then refuses to store. -/
def lateAnswer : List LinkEvent :=
  [.call .combineToTemplate, .written, .resume, .elapse 3000, .timeout 0, .resume,
    .call (.storeTemplate 7 1), .written, .resume, .answer okAck, .data 12, .resume,
    .answer refusal]

/-- `storeTemplate` reports success although the sensor has stored nothing. -/
theorem late_answer : ¬ ∀ (options : SensorOptions) (w : Link),
    link.Later (fun _ _ => True) (.opened options) w → OwnAnswers w := by
  intro h
  -- the answer of the first command arrives while the second one waits
  have hrun : (link.run (.opened sensorOptions) lateAnswer).map (fun w => (w.answered,
      w.ended.map fun e => (e.number, e.command, e.outcome.toOption))) =
      some ([(0, okAck), (1, refusal)],
        [(0, .combineToTemplate, none), (1, .storeTemplate 7 1, some .done)]) := by
    decide
  obtain ⟨w, hw, hfacts⟩ := Option.map_eq_some_iff.mp hrun
  obtain ⟨hanswered, hended⟩ := Prod.mk.inj hfacts
  have hmem : ((1, .storeTemplate 7 1, some .done) : ℕ × Command × Option Value) ∈
      w.ended.map fun e => (e.number, e.command, e.outcome.toOption) := by
    rw [hended]
    simp
  obtain ⟨e, he, hfields⟩ := List.mem_map.mp hmem
  obtain ⟨hnumber, hfields⟩ := Prod.mk.inj hfields
  obtain ⟨hcommand, houtcome⟩ := Prod.mk.inj hfields
  -- the second one reports success,
  have hok : e.outcome = .ok .done := by
    cases ho : e.outcome with
    | error err =>
        rw [ho] at houtcome
        cases houtcome
    | ok v =>
        rw [ho] at houtcome
        cases houtcome
        rfl
  obtain ⟨ack, hack, hresult⟩ :=
    (h sensorOptions w (Machine.later_of_run hw)).own e he .done hok
  rw [hnumber, hanswered] at hack
  -- though the sensor's own answer to it was a refusal
  obtain rfl : ack = refusal := by
    rcases List.mem_cons.mp hack with heq | hack
    · cases heq
    · exact (Prod.mk.inj (List.mem_singleton.mp hack)).2
  rw [hcommand] at hresult
  cases hresult

end ZeroAuth.Iot
