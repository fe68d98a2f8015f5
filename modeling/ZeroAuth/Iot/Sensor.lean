/-
  ZeroAuth.Iot.Sensor

  The driver of the R307 sensor (iot/src/sensor.ts) during one
  `uploadCharacteristic`.

  `onData` parses whatever the port delivers and gives each packet to the reader
  that waits longest; a packet that nobody waits for is gone.  The upload asks for
  one packet at a time, so the result depends on how packets and chunks line up:
  it is the concatenation of all payloads exactly when the packets that met no
  reader are DATA packets without payload (`upload_returns_iff`).
-/

import ZeroAuth.Iot.Packet
import ZeroAuth.Js.Number
import ZeroAuth.Lib.Machine

namespace ZeroAuth.Iot

open ZeroAuth.Js ZeroAuth.Lib

/-! ## The driver -/

structure SensorOptions where
  address : ℕ
  packetTimeoutMs : ℕ

inductive SensorError
  | port (message : JsString)
  | timeout (timeoutMs : ℕ)
  | expectedAck (pid : ℕ)
  | expectedData (pid : ℕ)
  | upChar (conf : ℕ)
  | outOfRange

def SensorError.message : SensorError → JsString
  | port message => message
  | timeout timeoutMs => js "Timeout waiting for sensor packet (" ++ numText 10 timeoutMs ++ js "ms)"
  | expectedAck pid => js "Expected ACK packet, got pid=0x" ++ numText 16 pid
  | expectedData pid => js "Expected DATA/END_DATA, got pid=0x" ++ numText 16 pid
  | upChar conf => js "up_char confirmation=0x" ++ numText 16 conf
  | outOfRange => js "Attempt to access memory outside buffer bounds"

/-- An entry of `this.waiters`: the promise it settles, and when its timer fires. -/
structure Waiter where
  promise : ℕ
  deadline : ℕ

/-- Where `uploadCharacteristic` is suspended: in `writeRaw`, in the `readPacket` of
    `cmd`, or in the one of its own loop. -/
inductive Upload
  | writing
  | wrote
  | acknowledging (promise : ℕ)
  | reading (chunks : List (List UInt8)) (promise : ℕ)
  | returned (characteristic : List UInt8)
  | thrown (error : SensorError)

structure R307Sensor where
  options : SensorOptions
  buffer : List UInt8
  waiters : List Waiter
  /-- The promises of `readPacket`, numbered as they were made. -/
  settled : ℕ → Option (Except SensorError ParsedPacket)
  promises : ℕ
  now : ℕ
  /-- What was written to the port. -/
  written : List UInt8
  upload : Upload

namespace R307Sensor

/-- Only promises of `waiters` and of timers that have not been cleared are settled, so
    each is settled once. -/
def settle (s : R307Sensor) (promise : ℕ) (r : Except SensorError ParsedPacket) : R307Sensor :=
  { s with settled := Function.update s.settled promise (some r) }

/-- `this.waiters.shift()`, and its `resolve`. -/
def handOver (s : R307Sensor) (packet : ParsedPacket) : R307Sensor :=
  match s.waiters with
  | [] => s
  | waiter :: waiters => { s with waiters := waiters }.settle waiter.promise (.ok packet)

/-- The loop of `onData`; a round takes at least one byte off the buffer. -/
def onDataLoop : ℕ → R307Sensor → R307Sensor
  | 0, s => s
  | n + 1, s =>
      match tryParsePacket s.buffer 0 with
      | none => s
      | some result =>
          onDataLoop n ({ s with buffer := s.buffer.drop result.nextOffset }.handOver result.packet)

def onData (s : R307Sensor) (chunk : List UInt8) : R307Sensor :=
  onDataLoop (s.buffer ++ chunk).length { s with buffer := s.buffer ++ chunk }

/-- `this.port.on('error', …)`. -/
def onError (s : R307Sensor) (message : JsString) : R307Sensor :=
  { s.waiters.foldl (fun s w => s.settle w.promise (.error (.port message))) s with waiters := [] }

/-- The new promise is number `s.promises`. -/
def readPacket (s : R307Sensor) : R307Sensor :=
  { s with
    waiters := s.waiters ++ [⟨s.promises, s.now + s.options.packetTimeoutMs⟩]
    promises := s.promises + 1 }

def onTimeout (s : R307Sensor) (promise : ℕ) : R307Sensor :=
  { s with waiters := s.waiters.filter fun w => w.promise ≠ promise }.settle promise
    (.error (.timeout s.options.packetTimeoutMs))

/-! ## uploadCharacteristic -/

def uploadCharacteristic (options : SensorOptions) (buffer : UInt8) : R307Sensor where
  options := options
  buffer := []
  waiters := []
  settled _ := none
  promises := 0
  now := 0
  written := buildPacket ⟨options.address, PID.command, [CMD.upChar, buffer]⟩
  upload := .writing

/-- The top of the loop. -/
def readMore (s : R307Sensor) (chunks : List (List UInt8)) : R307Sensor :=
  { s.readPacket with upload := .reading chunks s.promises }

def afterAck (s : R307Sensor) (ack : ParsedPacket) : R307Sensor :=
  if ack.pid ≠ PID.ack then { s with upload := .thrown (.expectedAck ack.pid) }
  else
    match ack.payload with
    | [] => { s with upload := .thrown .outOfRange }
    | conf :: _ =>
        if conf.toNat ≠ CONF.ok then { s with upload := .thrown (.upChar conf.toNat) }
        else s.readMore []

def afterPacket (s : R307Sensor) (chunks : List (List UInt8)) (pkt : ParsedPacket) : R307Sensor :=
  if pkt.pid ≠ PID.data ∧ pkt.pid ≠ PID.endData then
    { s with upload := .thrown (.expectedData pkt.pid) }
  else if pkt.pid = PID.endData then
    { s with upload := .returned (chunks ++ [pkt.payload]).flatten }
  else s.readMore (chunks ++ [pkt.payload])

/-- Go on after an `await` whose promise is settled. -/
def resume (s : R307Sensor) : Option R307Sensor :=
  match s.upload with
  | .wrote => some { s.readPacket with upload := .acknowledging s.promises }
  | .acknowledging promise =>
      match s.settled promise with
      | none => none
      | some (.error e) => some { s with upload := .thrown e }
      | some (.ok ack) => some (s.afterAck ack)
  | .reading chunks promise =>
      match s.settled promise with
      | none => none
      | some (.error e) => some { s with upload := .thrown e }
      | some (.ok pkt) => some (s.afterPacket chunks pkt)
  | .writing | .returned _ | .thrown _ => none

end R307Sensor

/-- What the event loop can do next. -/
inductive SensorEvent
  | written
  | writeFailed (message : JsString)
  | data (chunk : List UInt8)
  | portError (message : JsString)
  | elapse (ms : ℕ)
  | timeout (promise : ℕ)
  | resume

def sensorStep (s : R307Sensor) : SensorEvent → Option R307Sensor
  | .written =>
      match s.upload with
      | .writing => some { s with upload := .wrote }
      | _ => none
  | .writeFailed message =>
      match s.upload with
      | .writing => some { s with upload := .thrown (.port message) }
      | _ => none
  | .data chunk => some (s.onData chunk)
  | .portError message => some (s.onError message)
  | .elapse ms => some { s with now := s.now + ms }
  | .timeout promise =>
      if ∃ w ∈ s.waiters, w.promise = promise ∧ w.deadline ≤ s.now then some (s.onTimeout promise)
      else none
  | .resume => s.resume

abbrev sensor : Machine R307Sensor SensorEvent := ⟨sensorStep⟩

/-- The bytes that the port delivers. -/
def received (es : List SensorEvent) : List UInt8 :=
  es.flatMap fun
    | .data chunk => chunk
    | _ => []

theorem received_cons (e : SensorEvent) (es : List SensorEvent) :
    received (e :: es) = received [e] ++ received es := by
  rw [received, received, received, List.flatMap_cons, List.flatMap_singleton]

/-- Nothing fails, and no timer fires. -/
def inTime (s : R307Sensor) : SensorEvent → Bool
  | .elapse ms => s.waiters.all fun w => s.now + ms < w.deadline
  | .writeFailed _ | .portError _ | .timeout _ => false
  | _ => true

/-- The packets that an event completes and nobody waits for. -/
def unheard (s : R307Sensor) : SensorEvent → List ParsedPacket
  | .data chunk =>
      (packetFraming.split (s.buffer ++ chunk).length (s.buffer ++ chunk)).1.drop s.waiters.length
  | _ => []

def Heard (s : R307Sensor) (e : SensorEvent) : Prop :=
  ∀ p ∈ unheard s e, p.pid = PID.data ∧ p.payload = []

/-! ## Where an upload stands -/

/-- The upload awaits a promise, which `got` may have fulfilled. -/
structure Pending (s : R307Sensor) (promise : ℕ) (got : Option ParsedPacket) : Prop where
  made : promise < s.promises
  waiters : s.waiters.map Waiter.promise = if got.isSome then [] else [promise]
  settled : s.settled promise = got.map .ok

/-- An ACK with the OK code. -/
def OkAck (p : ParsedPacket) : Prop :=
  p.pid = PID.ack ∧ ∃ conf extra, p.payload = conf :: extra ∧ conf.toNat = CONF.ok

/-- An ACK, DATA packets and one END_DATA packet. -/
def Complete (heard : List ParsedPacket) : Prop :=
  ∃ a ps e, heard = a :: ps ++ [e] ∧ OkAck a ∧ (∀ p ∈ ps, p.pid = PID.data) ∧ e.pid = PID.endData

/-- Where an upload stands, given the packets that met a reader. -/
inductive Phase (s : R307Sensor) : List ParsedPacket → Prop
  | started (hu : s.upload = .writing ∨ s.upload = .wrote) (hw : s.waiters = []) : Phase s []
  | acknowledging {promise : ℕ} {got : Option ParsedPacket} (hu : s.upload = .acknowledging promise)
      (hp : Pending s promise got) : Phase s got.toList
  | reading {promise : ℕ} {got : Option ParsedPacket} {a : ParsedPacket} {ps : List ParsedPacket}
      (hu : s.upload = .reading (ps.map ParsedPacket.payload) promise) (hp : Pending s promise got)
      (ha : OkAck a) (hps : ∀ p ∈ ps, p.pid = PID.data) : Phase s (a :: ps ++ got.toList)
  | returned {a e : ParsedPacket} {ps : List ParsedPacket}
      (hu : s.upload = .returned ((ps ++ [e]).flatMap ParsedPacket.payload)) (hw : s.waiters = [])
      (ha : OkAck a) (hps : ∀ p ∈ ps, p.pid = PID.data) (he : e.pid = PID.endData) :
      Phase s (a :: ps ++ [e])
  | thrown {heard : List ParsedPacket} {error : SensorError} (hu : s.upload = .thrown error)
      (hw : s.waiters = []) (hno : ¬Complete heard) : Phase s heard

/-- Promises that have not been made are not settled. -/
def Fresh (s : R307Sensor) : Prop := ∀ promise, s.promises ≤ promise → s.settled promise = none

section Steps

variable {s s' : R307Sensor} {heard : List ParsedPacket} {p : ParsedPacket}

theorem Pending.congr {promise : ℕ} {got : Option ParsedPacket} (h : Pending s promise got)
    (hw : s'.waiters = s.waiters) (hs : s'.settled = s.settled) (hn : s'.promises = s.promises) :
    Pending s' promise got :=
  ⟨hn ▸ h.made, hw ▸ h.waiters, hs ▸ h.settled⟩

theorem Phase.congr (h : Phase s heard) (hu : s'.upload = s.upload) (hw : s'.waiters = s.waiters)
    (hs : s'.settled = s.settled) (hn : s'.promises = s.promises) : Phase s' heard := by
  cases h with
  | started hu' hw' => exact .started (hu ▸ hu') (hw ▸ hw')
  | acknowledging hu' hp => exact .acknowledging (hu ▸ hu') (hp.congr hw hs hn)
  | reading hu' hp ha hps => exact .reading (hu ▸ hu') (hp.congr hw hs hn) ha hps
  | returned hu' hw' ha hps he => exact .returned (hu ▸ hu') (hw ▸ hw') ha hps he
  | thrown hu' hw' hno => exact .thrown (hu ▸ hu') (hw ▸ hw') hno

theorem Phase.wrote (h : Phase s heard) (hu : s.upload = .writing) :
    Phase { s with upload := .wrote } heard := by
  cases h with
  | started hu' hw => exact .started (.inr rfl) hw
  | acknowledging hu' => cases hu.symm.trans hu'
  | reading hu' => cases hu.symm.trans hu'
  | returned hu' => cases hu.symm.trans hu'
  | thrown hu' => cases hu.symm.trans hu'

/-- There is at most one reader. -/
theorem Phase.waiters_cases (h : Phase s heard) : s.waiters = [] ∨ ∃ w, s.waiters = [w] := by
  have hpending : ∀ {promise got}, Pending s promise got → s.waiters = [] ∨ ∃ w, s.waiters = [w] := by
    intro promise got hp
    have hw := hp.waiters
    split at hw
    · exact .inl (List.map_eq_nil_iff.mp hw)
    · obtain ⟨w, ws, hws, -, hnil⟩ := List.map_eq_cons_iff.mp hw
      rw [List.map_eq_nil_iff.mp hnil] at hws
      exact .inr ⟨w, hws⟩
  cases h with
  | started hu hw => exact .inl hw
  | acknowledging hu hp => exact hpending hp
  | reading hu hp => exact hpending hp
  | returned hu hw => exact .inl hw
  | thrown hu hw => exact .inl hw

theorem Pending.handOver {promise : ℕ} {got : Option ParsedPacket} (h : Pending s promise got)
    {w : Waiter} (hw : s.waiters = [w]) (p : ParsedPacket) :
    got = none ∧ Pending (s.handOver p) promise (some p) := by
  have hwaiters := h.waiters
  rw [hw] at hwaiters
  cases got with
  | some q => cases hwaiters
  | none =>
      have hpromise : w.promise = promise := (List.cons.inj hwaiters).1
      refine ⟨rfl, ?_, ?_, ?_⟩
      · rw [R307Sensor.handOver, hw]
        exact h.made
      · rw [R307Sensor.handOver, hw]
        rfl
      · rw [R307Sensor.handOver, hw, ← hpromise]
        exact Function.update_self ..

/-- The reader gets the packet. -/
theorem Phase.handOver (h : Phase s heard) {w : Waiter} (hw : s.waiters = [w]) (p : ParsedPacket) :
    Phase (s.handOver p) (heard ++ [p]) := by
  have hupload : (s.handOver p).upload = s.upload := by
    rw [R307Sensor.handOver, hw]
    rfl
  cases h with
  | started hu hw' => cases hw.symm.trans hw'
  | acknowledging hu hp =>
      obtain ⟨rfl, hnext⟩ := hp.handOver hw p
      exact .acknowledging (hupload.trans hu) hnext
  | @reading promise got a ps hu hp ha hps =>
      obtain ⟨rfl, hnext⟩ := hp.handOver hw p
      rw [Option.toList_none, List.append_nil]
      exact .reading (hupload.trans hu) hnext ha hps
  | returned hu hw' => cases hw.symm.trans hw'
  | thrown hu hw' => cases hw.symm.trans hw'

theorem handOver_of_nil (hw : s.waiters = []) (p : ParsedPacket) : s.handOver p = s := by
  rw [R307Sensor.handOver, hw]

theorem foldl_handOver_of_nil (hw : s.waiters = []) (ps : List ParsedPacket) :
    ps.foldl R307Sensor.handOver s = s := by
  induction ps with
  | nil => rfl
  | cons p ps ih => rw [List.foldl_cons, handOver_of_nil hw, ih]

theorem handOver_buffer (s : R307Sensor) (buffer : List UInt8) (p : ParsedPacket) :
    { s with buffer := buffer }.handOver p = { s.handOver p with buffer := buffer } := by
  obtain ⟨options, _, waiters, settled, promises, now, written, upload⟩ := s
  cases waiters <;> rfl

theorem foldl_handOver_buffer (s : R307Sensor) (buffer : List UInt8) (ps : List ParsedPacket) :
    ps.foldl R307Sensor.handOver { s with buffer := buffer } =
      { ps.foldl R307Sensor.handOver s with buffer := buffer } := by
  induction ps generalizing s with
  | nil => rfl
  | cons p ps ih => rw [List.foldl_cons, List.foldl_cons, handOver_buffer, ih]

/-- The loop parses what it can and hands the packets over. -/
theorem onDataLoop_eq (n : ℕ) (s : R307Sensor) : s.onDataLoop n =
    { (packetFraming.split n s.buffer).1.foldl R307Sensor.handOver s with
      buffer := (packetFraming.split n s.buffer).2 } := by
  induction n generalizing s with
  | zero => rfl
  | succ n ih =>
      rw [R307Sensor.onDataLoop]
      cases hr : tryParsePacket s.buffer 0 with
      | none =>
          have hparse : packetFraming.parse s.buffer = none := congrArg (Option.map _) hr
          rw [packetFraming.split_succ_of_none hparse]
          rfl
      | some result =>
          have hparse : packetFraming.parse s.buffer =
              some (result.packet, s.buffer.drop result.nextOffset) := congrArg (Option.map _) hr
          rw [packetFraming.split_succ_of_some hparse, List.foldl_cons, ← foldl_handOver_buffer]
          simp only [ih, handOver_buffer, foldl_handOver_buffer]

theorem Fresh.handOver (hf : Fresh s) (h : Phase s heard) (p : ParsedPacket) : Fresh (s.handOver p) := by
  obtain hw | ⟨w, hw⟩ := h.waiters_cases
  · rw [handOver_of_nil hw]
    exact hf
  · have hmade : w.promise < s.promises := by
      have hpending : ∀ {promise got}, Pending s promise got → w.promise < s.promises := by
        intro promise got hp
        have hwaiters := hp.waiters
        rw [hw] at hwaiters
        split at hwaiters
        · cases hwaiters
        · rw [(List.cons.inj hwaiters).1]
          exact hp.made
      cases h with
      | started hu hw' => cases hw.symm.trans hw'
      | acknowledging hu hp => exact hpending hp
      | reading hu hp => exact hpending hp
      | returned hu hw' => cases hw.symm.trans hw'
      | thrown hu hw' => cases hw.symm.trans hw'
    intro promise hpromise
    rw [R307Sensor.handOver, hw] at hpromise ⊢
    have hne : promise ≠ w.promise := Nat.ne_of_gt (Nat.lt_of_lt_of_le hmade hpromise)
    exact (Function.update_of_ne hne _ _).trans (hf promise hpromise)

/-- The first packet meets the reader, if there is one. -/
theorem Phase.foldl_handOver (h : Phase s heard) (hf : Fresh s) (ps : List ParsedPacket) :
    Phase (ps.foldl R307Sensor.handOver s) (heard ++ ps.take s.waiters.length) ∧
      Fresh (ps.foldl R307Sensor.handOver s) := by
  obtain hw | ⟨w, hw⟩ := h.waiters_cases
  · rw [foldl_handOver_of_nil hw, hw, List.length_nil, List.take_zero, List.append_nil]
    exact ⟨h, hf⟩
  · cases ps with
    | nil =>
        rw [List.take_nil, List.append_nil]
        exact ⟨h, hf⟩
    | cons p ps =>
        have hnil : (s.handOver p).waiters = [] := by
          rw [R307Sensor.handOver, hw]
          rfl
        rw [List.foldl_cons, foldl_handOver_of_nil hnil, hw, List.length_singleton, List.take_succ_cons,
          List.take_zero]
        exact ⟨h.handOver hw p, hf.handOver h p⟩

/-- A new promise is pending. -/
theorem Pending.readPacket (hw : s.waiters = []) (hf : Fresh s) (upload : Upload) :
    Pending { s.readPacket with upload := upload } s.promises none := by
  refine ⟨Nat.lt_succ_self _, ?_, hf _ (Nat.le_refl _)⟩
  show (s.waiters ++ [_]).map Waiter.promise = [s.promises]
  rw [hw]
  rfl

theorem Fresh.readPacket (hf : Fresh s) (upload : Upload) :
    Fresh { s.readPacket with upload := upload } :=
  fun promise hp => hf promise (Nat.le_of_succ_le hp)

theorem Pending.waiters_eq_nil {promise : ℕ} {got : Option ParsedPacket} (h : Pending s promise got)
    (hgot : got.isSome) : s.waiters = [] := by
  have hw := h.waiters
  rw [if_pos hgot] at hw
  exact List.map_eq_nil_iff.mp hw

/-- What a continuation keeps. -/
structure Resumed (s s' : R307Sensor) (heard : List ParsedPacket) : Prop where
  phase : Phase s' heard
  fresh : Fresh s'
  buffer : s'.buffer = s.buffer

theorem Resumed.thrown (hf : Fresh s) (hw : s.waiters = []) (hno : ¬Complete heard)
    (error : SensorError) : Resumed s { s with upload := .thrown error } heard :=
  ⟨.thrown rfl hw hno, hf, rfl⟩

theorem resumed_of_ack (hf : Fresh s) (hw : s.waiters = []) : Resumed s (s.afterAck p) [p] := by
  have hno : ¬Complete [p] := by
    rintro ⟨a, ps, e, heq, -⟩
    have hlength := congrArg List.length heq
    simp only [List.length_cons, List.length_append, List.length_nil] at hlength
    omega
  rw [R307Sensor.afterAck]
  split
  · exact .thrown hf hw hno _
  · next hpid =>
      split
      · exact .thrown hf hw hno _
      · next conf extra hpayload =>
          split
          · exact .thrown hf hw hno _
          · next hconf =>
              have ha : OkAck p := ⟨not_not.mp hpid, conf, extra, hpayload, not_not.mp hconf⟩
              exact ⟨.reading rfl (.readPacket hw hf _) ha (show ∀ p ∈ [], _ from nofun), hf.readPacket _, rfl⟩

theorem resumed_of_packet {a : ParsedPacket} {ps : List ParsedPacket} (hf : Fresh s) (hw : s.waiters = [])
    (ha : OkAck a) (hps : ∀ q ∈ ps, q.pid = PID.data) :
    Resumed s (s.afterPacket (ps.map ParsedPacket.payload) p) (a :: ps ++ [p]) := by
  rw [R307Sensor.afterPacket]
  split
  · next hpid =>
      -- neither data nor the end: the upload throws
      refine .thrown hf hw ?_ _
      rintro ⟨a', ps', e, heq, -, -, he⟩
      obtain ⟨-, hlast⟩ := List.append_inj' heq rfl
      exact hpid.2 ((List.cons.inj hlast).1 ▸ he)
  · next hpid =>
      split
      · next hend =>
          -- the end of the data: the upload returns what it has
          refine ⟨.returned ?_ hw ha hps hend, hf, rfl⟩
          show Upload.returned _ = _
          rw [List.flatMap_def, List.map_append, List.map_singleton]
      · next hend =>
          -- data: one more packet is awaited
          have hdata : p.pid = PID.data := by
            by_contra hne
            exact hpid ⟨hne, hend⟩
          have hps' : ∀ q ∈ ps ++ [p], q.pid = PID.data := by
            intro q hq
            rcases List.mem_append.mp hq with hq | hq
            · exact hps q hq
            · rw [List.mem_singleton.mp hq]
              exact hdata
          have hupload : (s.readMore (ps.map ParsedPacket.payload ++ [p.payload])).upload =
              .reading ((ps ++ [p]).map ParsedPacket.payload) s.promises := by
            rw [List.map_append, List.map_singleton]
            rfl
          have hphase := Phase.reading hupload (.readPacket hw hf _) ha hps'
          rw [Option.toList_none, List.append_nil] at hphase
          exact ⟨hphase, hf.readPacket _, rfl⟩

theorem resumed_of_resume (h : Phase s heard) (hf : Fresh s) (hs : s.resume = some s') :
    Resumed s s' heard := by
  cases h with
  | started hu hw =>
      rcases hu with hu | hu
      · rw [R307Sensor.resume, hu] at hs
        cases hs
      · rw [R307Sensor.resume, hu] at hs
        cases hs
        exact ⟨.acknowledging rfl (show Pending _ _ none from .readPacket hw hf _), hf.readPacket _, rfl⟩
  -- the promise of the acknowledgement has been settled, or nothing resumes
  | @acknowledging promise got hu hp =>
      cases got with
      | none =>
          simp only [R307Sensor.resume, hu, hp.settled, Option.map_none] at hs
          cases hs
      | some p =>
          simp only [R307Sensor.resume, hu, hp.settled, Option.map_some] at hs
          cases hs
          exact resumed_of_ack hf (hp.waiters_eq_nil rfl)
  -- the same for the promise of a data packet
  | @reading promise got a ps hu hp ha hps =>
      cases got with
      | none =>
          simp only [R307Sensor.resume, hu, hp.settled, Option.map_none] at hs
          cases hs
      | some p =>
          simp only [R307Sensor.resume, hu, hp.settled, Option.map_some] at hs
          cases hs
          exact resumed_of_packet hf (hp.waiters_eq_nil rfl) ha hps
  | returned hu hw =>
      rw [R307Sensor.resume, hu] at hs
      cases hs
  | thrown hu hw =>
      rw [R307Sensor.resume, hu] at hs
      cases hs

end Steps

/-! ## Runs -/

/-- The packets that met a reader, out of those that arrived. -/
def heardOf (arrived : List (ParsedPacket × Bool)) : List ParsedPacket :=
  (arrived.filter Prod.snd).map Prod.fst

/-- `arrived` is what has arrived, `left` is still to come, `rest` are the bytes that the
    port has not delivered. -/
structure Following (s : R307Sensor) (arrived : List (ParsedPacket × Bool)) (left : List ParsedPacket)
    (rest : List UInt8) : Prop where
  phase : Phase s (heardOf arrived)
  fresh : Fresh s
  bytes : s.buffer ++ rest = packetFraming.wire left
  within : packetFraming.Within left s.buffer

def Unharmed (x : ParsedPacket × Bool) : Prop :=
  x.2 = false → x.1.pid = PID.data ∧ x.1.payload = []

section Runs

variable {s s' : R307Sensor} {arrived : List (ParsedPacket × Bool)} {left : List ParsedPacket}
  {rest : List UInt8}

theorem heardOf_append (xs ys : List (ParsedPacket × Bool)) :
    heardOf (xs ++ ys) = heardOf xs ++ heardOf ys := by
  simp only [heardOf, List.filter_append, List.map_append]

/-- `found`, of which the first `k` meet a reader. -/
def flagged (k : ℕ) (found : List ParsedPacket) : List (ParsedPacket × Bool) :=
  (found.take k).map (fun p => (p, true)) ++ (found.drop k).map fun p => (p, false)

theorem map_fst_flagged (k : ℕ) (found : List ParsedPacket) : (flagged k found).map Prod.fst = found := by
  rw [flagged, List.map_append, List.map_map, List.map_map]
  show (found.take k).map id ++ (found.drop k).map id = found
  rw [List.map_id, List.map_id, List.take_append_drop]

theorem heardOf_flagged (k : ℕ) (found : List ParsedPacket) : heardOf (flagged k found) = found.take k := by
  have hkept : ∀ ps : List ParsedPacket, (ps.map fun p => (p, true)).filter Prod.snd =
      ps.map fun p => (p, true) := by
    intro ps
    refine List.filter_eq_self.mpr fun x hx => ?_
    obtain ⟨p, -, rfl⟩ := List.mem_map.mp hx
    rfl
  have hlost : ∀ ps : List ParsedPacket, (ps.map fun p => (p, false)).filter Prod.snd = [] := by
    intro ps
    refine List.filter_eq_nil_iff.mpr fun x hx => ?_
    obtain ⟨p, -, rfl⟩ := List.mem_map.mp hx
    exact Bool.false_ne_true
  rw [flagged, heardOf_append, heardOf, heardOf, hkept, hlost, List.map_map, List.map_nil,
    List.append_nil]
  exact List.map_id _

theorem unharmed_flagged (k : ℕ) (found : List ParsedPacket) : (∀ x ∈ flagged k found, Unharmed x) ↔
    ∀ p ∈ found.drop k, p.pid = PID.data ∧ p.payload = [] := by
  constructor
  · intro h p hp
    exact h (p, false) (List.mem_append_right _ (List.mem_map.mpr ⟨p, hp, rfl⟩)) rfl
  · intro h x hx hlost
    rcases List.mem_append.mp hx with hx | hx
    · obtain ⟨p, -, rfl⟩ := List.mem_map.mp hx
      cases hlost
    · obtain ⟨p, hp, rfl⟩ := List.mem_map.mp hx
      exact h p hp

/-- A chunk completes some packets, and the first ones meet the readers. -/
theorem Following.data {chunk : List UInt8} (h : Following s arrived left (chunk ++ rest))
    (hwf : ∀ p ∈ left, p.WellFormed) : ∃ found left', left = found.map Prod.fst ++ left' ∧
      Following (s.onData chunk) (arrived ++ found) left' rest ∧
      (Heard s (.data chunk) ↔ ∀ x ∈ found, Unharmed x) := by
  have hbytes : (s.buffer ++ chunk) ++ rest = packetFraming.wire left := by
    rw [List.append_assoc]
    exact h.bytes
  obtain ⟨found, left', tail, rfl, hsplit, hrest, hwithin⟩ :=
    packetFraming.split_wire hwf hbytes (Nat.le_refl _)
  have hphase : Phase { s with buffer := s.buffer ++ chunk } (heardOf arrived) :=
    h.phase.congr rfl rfl rfl rfl
  obtain ⟨hphase, hfresh⟩ := hphase.foldl_handOver h.fresh found
  refine ⟨flagged s.waiters.length found, left', ?_, ⟨?_, ?_, ?_, ?_⟩, ?_⟩
  · rw [map_fst_flagged]
  · rw [heardOf_append, heardOf_flagged, R307Sensor.onData, onDataLoop_eq]
    simp only [hsplit]
    exact hphase.congr rfl rfl rfl rfl
  · rw [R307Sensor.onData, onDataLoop_eq]
    simp only [hsplit]
    exact hfresh
  · rw [R307Sensor.onData, onDataLoop_eq, hsplit]
    exact hrest
  · rw [R307Sensor.onData, onDataLoop_eq, hsplit]
    exact hwithin
  · rw [unharmed_flagged, Heard, unheard, hsplit]

theorem Following.step {e : SensorEvent} (h : Following s arrived left (received [e] ++ rest))
    (hwf : ∀ p ∈ left, p.WellFormed) (htime : inTime s e = true) (hs : sensorStep s e = some s') :
    ∃ found left', left = found.map Prod.fst ++ left' ∧
      Following s' (arrived ++ found) left' rest ∧ (Heard s e ↔ ∀ x ∈ found, Unharmed x) := by
  -- what brings no bytes finds no packet and leaves none unheard
  have hquiet : ∀ e, unheard s e = [] → Phase s' (heardOf arrived) → Fresh s' →
      s'.buffer = s.buffer → received [e] = [] → Following s arrived left (received [e] ++ rest) →
      ∃ found left', left = found.map Prod.fst ++ left' ∧
        Following s' (arrived ++ found) left' rest ∧ (Heard s e ↔ ∀ x ∈ found, Unharmed x) := by
    intro e hunheard hphase hfresh hbuffer hreceived h
    rw [hreceived, List.nil_append] at h
    refine ⟨[], left, rfl, ⟨?_, hfresh, hbuffer ▸ h.bytes, hbuffer ▸ h.within⟩, ?_⟩
    · rw [List.append_nil]
      exact hphase
    · rw [Heard, hunheard]
      exact ⟨fun _ => nofun, fun _ => nofun⟩
  cases e with
  | data chunk =>
      cases hs
      rw [received, List.flatMap_singleton] at h
      exact h.data hwf
  | written =>
      simp only [sensorStep] at hs
      split at hs
      · next hu =>
          cases hs
          exact hquiet _ rfl (h.phase.wrote hu) h.fresh rfl rfl h
      · cases hs
  | writeFailed message => cases htime
  | portError message => cases htime
  | elapse ms =>
      cases hs
      exact hquiet _ rfl (h.phase.congr rfl rfl rfl rfl) h.fresh rfl rfl h
  | timeout promise => cases htime
  | resume =>
      obtain ⟨hphase, hfresh, hbuffer⟩ := resumed_of_resume h.phase h.fresh hs
      exact hquiet _ rfl hphase hfresh hbuffer rfl h

theorem Following.run {es : List SensorEvent} (h : Following s arrived left (received es))
    (hwf : ∀ p ∈ left, p.WellFormed) (hr : sensor.runChecked inTime s es = some s') :
    ∃ found left', left = found.map Prod.fst ++ left' ∧ Following s' (arrived ++ found) left' [] ∧
      (sensor.Keeps Heard s es ↔ ∀ x ∈ found, Unharmed x) := by
  induction es generalizing s arrived left with
  | nil =>
      cases hr
      refine ⟨[], left, rfl, by rwa [List.append_nil], fun _ x hx => ?_, fun _ => trivial⟩
      cases hx
  | cons e es ih =>
      simp only [Machine.runChecked, Option.ite_none_right_eq_some] at hr
      obtain ⟨htime, hr⟩ := hr
      obtain ⟨s₁, hs, hr⟩ := Option.bind_eq_some_iff.mp hr
      rw [received_cons] at h
      obtain ⟨found₁, left₁, rfl, h₁, hheard₁⟩ := h.step hwf htime hs
      obtain ⟨found₂, left₂, rfl, h₂, hheard₂⟩ :=
        ih h₁ (fun p hp => hwf p (List.mem_append_right _ hp)) hr
      refine ⟨found₁ ++ found₂, left₂, ?_, ?_, ?_⟩
      · rw [List.map_append, List.append_assoc]
      · rw [← List.append_assoc]
        exact h₂
      · rw [List.forall_mem_append, ← hheard₁, ← hheard₂]
        constructor
        · rintro ⟨hhead, htail⟩
          exact ⟨hhead, htail s₁ hs⟩
        · rintro ⟨hhead, htail⟩
          refine ⟨hhead, fun w hw => ?_⟩
          cases hs.symm.trans hw
          exact htail

/-- When every byte has been delivered, every packet has arrived. -/
theorem Following.left_eq_nil (h : Following s arrived left []) : left = [] := by
  cases left with
  | nil => rfl
  | cons p ps =>
      obtain ⟨suf, hbuild, hsuf⟩ := h.within
      have hbytes := h.bytes
      rw [List.append_nil, Framing.wire_cons, hbuild] at hbytes
      have hlength := congrArg List.length hbytes
      rw [List.length_append, List.length_append] at hlength
      have hpos := List.length_pos_of_ne_nil hsuf
      omega

/-! ## What the upload returns -/

/-- The payloads of the packets that met a reader, and of all that arrived. -/
theorem flatMap_heardOf (xs : List (ParsedPacket × Bool)) :
    (heardOf xs).flatMap ParsedPacket.payload = (xs.map Prod.fst).flatMap ParsedPacket.payload ↔
      ∀ x ∈ xs, x.2 = false → x.1.payload = [] := by
  have hle : ∀ ys, ((heardOf ys).flatMap ParsedPacket.payload).length ≤
      ((ys.map Prod.fst).flatMap ParsedPacket.payload).length := by
    intro ys
    exact ((List.filter_sublist.map _).flatMap _).length_le
  induction xs with
  | nil => exact ⟨fun _ => nofun, fun _ => rfl⟩
  | cons x xs ih =>
      obtain ⟨p, met⟩ := x
      rw [List.forall_mem_cons]
      cases met with
      | true =>
          show p.payload ++ _ = p.payload ++ _ ↔ _
          rw [List.append_cancel_left_eq]
          exact ⟨fun h => ⟨nofun, ih.mp h⟩, fun h => ih.mpr h.2⟩
      | false =>
          show (heardOf xs).flatMap _ = p.payload ++ _ ↔ _
          constructor
          · intro h
            have hlength := congrArg List.length h
            have hxs := hle xs
            rw [List.length_append] at hlength
            change _ = _ + ((xs.map Prod.fst).flatMap ParsedPacket.payload).length at hlength
            have hnil : p.payload = [] := List.eq_nil_of_length_eq_zero (by omega)
            rw [hnil, List.nil_append] at h
            exact ⟨fun _ => hnil, ih.mp h⟩
          · rintro ⟨hnil, h⟩
            rw [hnil rfl, List.nil_append]
            exact ih.mpr h

/-- The event loop has nothing left to do for the upload. -/
def Idle (s : R307Sensor) : Prop :=
  sensorStep s .written = none ∧ sensorStep s .resume = none

theorem Pending.not_idle {promise : ℕ} {p : ParsedPacket} (h : Pending s promise (some p))
    (hu : s.upload = .acknowledging promise ∨ ∃ chunks, s.upload = .reading chunks promise) :
    ¬Idle s := by
  rintro ⟨-, hresume⟩
  rcases hu with hu | ⟨chunks, hu⟩
  · simp only [sensorStep, R307Sensor.resume, hu, h.settled, Option.map_some] at hresume
    cases hresume
  · simp only [sensorStep, R307Sensor.resume, hu, h.settled, Option.map_some] at hresume
    cases hresume

/-- An upload that has heard everything it waits for has returned it. -/
theorem Phase.returned_of_complete {ack fin : ParsedPacket} {datas : List ParsedPacket}
    (h : Phase s (ack :: datas ++ [fin])) (hidle : Idle s) (hack : OkAck ack)
    (hdatas : ∀ p ∈ datas, p.pid = PID.data) (hfin : fin.pid = PID.endData) :
    s.upload = .returned ((datas ++ [fin]).flatMap ParsedPacket.payload) := by
  generalize hheard : ack :: datas ++ [fin] = heard at h
  cases h with
  | started => cases hheard
  | @acknowledging promise got hu hp =>
      cases got with
      | none => cases hheard
      | some p => exact absurd hidle (hp.not_idle (.inl hu))
  | @reading promise got a ps hu hp ha hps =>
      cases got with
      | none =>
          -- an END_DATA packet is among those that the loop has gone past
          have hmem : fin ∈ a :: ps ++ [] := hheard ▸ List.mem_append_right _ (List.mem_singleton.mpr rfl)
          rw [List.append_nil, List.mem_cons] at hmem
          rcases hmem with rfl | hmem
          · cases hfin.symm.trans ha.1
          · cases hfin.symm.trans (hps fin hmem)
      | some p => exact absurd hidle (hp.not_idle (.inr ⟨_, hu⟩))
  | returned hu hw =>
      rw [List.cons_append, List.cons_append] at hheard
      rw [hu, (List.cons.inj hheard).2]
  | thrown hu hw hno => exact absurd ⟨ack, datas, fin, hheard.symm, hack, hdatas, hfin⟩ hno

theorem Phase.of_returned {heard : List ParsedPacket} {characteristic : List UInt8} (h : Phase s heard)
    (hu : s.upload = .returned characteristic) : ∃ a ps e, heard = a :: ps ++ [e] ∧ OkAck a ∧
      e.pid = PID.endData ∧ characteristic = (ps ++ [e]).flatMap ParsedPacket.payload := by
  cases h with
  | started hu' =>
      rcases hu' with hu' | hu'
      · cases hu.symm.trans hu'
      · cases hu.symm.trans hu'
  | acknowledging hu' => cases hu.symm.trans hu'
  | reading hu' => cases hu.symm.trans hu'
  | returned hu' hw ha hps he => exact ⟨_, _, _, rfl, ha, he, Upload.returned.inj (hu.symm.trans hu')⟩
  | thrown hu' => cases hu.symm.trans hu'

/-- The packets of one upload, with what became of each. -/
theorem frame_of_map_fst {found : List (ParsedPacket × Bool)} {ack fin : ParsedPacket}
    {datas : List ParsedPacket} (h : found.map Prod.fst = ack :: datas ++ [fin]) :
    ∃ met ds met', found = (ack, met) :: ds ++ [(fin, met')] ∧ ds.map Prod.fst = datas := by
  rw [List.cons_append] at h
  obtain ⟨⟨p, met⟩, rest, rfl, hp, hrest⟩ := List.map_eq_cons_iff.mp h
  obtain ⟨ds, last, rfl, hds, hlast⟩ := List.map_eq_append_iff.mp hrest
  obtain ⟨⟨q, met'⟩, none, rfl, hq, hnone⟩ := List.map_eq_cons_iff.mp hlast
  obtain rfl := List.map_eq_nil_iff.mp hnone
  exact ⟨met, ds, met', by rw [← hp, ← hq]; rfl, hds⟩

theorem mem_of_mem_heardOf {xs : List (ParsedPacket × Bool)} {p : ParsedPacket} (h : p ∈ heardOf xs) :
    (p, true) ∈ xs := by
  obtain ⟨⟨q, met⟩, hmem, rfl⟩ := List.mem_map.mp h
  obtain ⟨hmem, hmet⟩ := List.mem_filter.mp hmem
  obtain rfl : met = true := hmet
  exact hmem

theorem heardOf_frame {ack fin : ParsedPacket} {ds : List (ParsedPacket × Bool)} :
    heardOf ((ack, true) :: ds ++ [(fin, true)]) = ack :: heardOf ds ++ [fin] := by
  rw [List.cons_append, heardOf, List.filter_cons, if_pos rfl, List.filter_append]
  simp [heardOf]

variable {options : SensorOptions} {buffer : UInt8} {ack fin : ParsedPacket} {datas : List ParsedPacket}
  {es : List SensorEvent}

/-- The sensor answers with an OK ACK, DATA packets and one END_DATA packet, in whatever
    chunks, and no timer fires: `uploadCharacteristic` returns all their payloads, if
    and only if the packets that met no reader are DATA packets without payload. -/
theorem upload_returns_iff (hack : OkAck ack) (hdatas : ∀ p ∈ datas, p.pid = PID.data)
    (hfin : fin.pid = PID.endData) (hwf : ∀ p ∈ ack :: datas ++ [fin], p.WellFormed)
    (hbytes : received es = packetFraming.wire (ack :: datas ++ [fin]))
    (hr : sensor.runChecked inTime (R307Sensor.uploadCharacteristic options buffer) es = some s)
    (hidle : Idle s) :
    s.upload = .returned ((datas ++ [fin]).flatMap ParsedPacket.payload) ↔
      sensor.Keeps Heard (R307Sensor.uploadCharacteristic options buffer) es := by
  have hwithin : packetFraming.Within (ack :: datas ++ [fin]) [] :=
    ⟨_, rfl, packetFraming.build_ne_nil ack⟩
  have hstart : Following (R307Sensor.uploadCharacteristic options buffer) [] (ack :: datas ++ [fin])
      (received es) := ⟨.started (.inl rfl) rfl, fun _ _ => rfl, hbytes, hwithin⟩
  obtain ⟨found, left, hall, hend, hheard⟩ := hstart.run hwf hr
  rw [hend.left_eq_nil, List.append_nil] at hall
  obtain ⟨met, ds, met', rfl, rfl⟩ := frame_of_map_fst hall.symm
  have hphase := hend.phase
  rw [List.nil_append] at hphase
  have hdata : ∀ {x}, x ∈ ds → x.1.pid = PID.data := fun hx => hdatas _ (List.mem_map.mpr ⟨_, hx, rfl⟩)
  rw [hheard, List.forall_mem_append, List.forall_mem_cons, List.forall_mem_singleton]
  constructor
  · intro hreturned
    obtain ⟨a, ps, e, heq, ha, he, hpayload⟩ := hphase.of_returned hreturned
    -- only the first packet is an ACK, and only the last one an END_DATA
    have hmet : met = true := by
      have hmem : (a, true) ∈ (ack, met) :: ds ++ [(fin, met')] :=
        mem_of_mem_heardOf (heq ▸ List.mem_cons_self)
      rw [List.mem_append, List.mem_cons, List.mem_singleton] at hmem
      rcases hmem with (heq | hmem) | heq
      · exact (Prod.mk.inj heq).2.symm
      · cases ha.1.symm.trans (hdata hmem)
      · cases ha.1.symm.trans ((Prod.mk.inj heq).1 ▸ hfin)
    have hmet' : met' = true := by
      have hmem : (e, true) ∈ (ack, met) :: ds ++ [(fin, met')] :=
        mem_of_mem_heardOf (heq ▸ List.mem_append_right _ (List.mem_singleton.mpr rfl))
      rw [List.mem_append, List.mem_cons, List.mem_singleton] at hmem
      rcases hmem with (heq | hmem) | heq
      · cases he.symm.trans ((Prod.mk.inj heq).1 ▸ hack.1)
      · cases he.symm.trans (hdata hmem)
      · exact (Prod.mk.inj heq).2.symm
    subst hmet hmet'
    rw [heardOf_frame, List.cons_append, List.cons_append] at heq
    rw [← (List.cons.inj heq).2, List.flatMap_append, List.flatMap_append,
      List.append_cancel_right_eq] at hpayload
    have hnil := (flatMap_heardOf ds).mp hpayload.symm
    exact ⟨⟨nofun, fun x hx hlost => ⟨hdata hx, hnil x hx hlost⟩⟩, nofun⟩
  · rintro ⟨⟨hfirst, hds⟩, hlast⟩
    have hmet : met = true := by
      by_contra hne
      cases hack.1.symm.trans (hfirst (Bool.eq_false_of_not_eq_true hne)).1
    have hmet' : met' = true := by
      by_contra hne
      cases hfin.symm.trans (hlast (Bool.eq_false_of_not_eq_true hne)).1
    subst hmet hmet'
    rw [heardOf_frame] at hphase
    have hheardOf : ∀ p ∈ heardOf ds, p.pid = PID.data := fun p hp => hdata (mem_of_mem_heardOf hp)
    have hpayload := (flatMap_heardOf ds).mpr fun x hx hlost => (hds x hx hlost).2
    rw [hphase.returned_of_complete hidle hack hheardOf hfin, List.flatMap_append, hpayload,
      ← List.flatMap_append]

end Runs

/-! ## Two ways to cut the same bytes -/

def Upload.characteristic : Upload → Option (List UInt8)
  | returned characteristic => some characteristic
  | _ => none

theorem Upload.eq_of_characteristic {u : Upload} {characteristic : List UInt8}
    (h : u.characteristic = some characteristic) : u = .returned characteristic := by
  cases u with
  | returned c => exact congrArg returned (Option.some.inj h)
  | _ => cases h

def okAck : ParsedPacket := ⟨defaultAddress, PID.ack, [0]⟩

def firstPart : ParsedPacket := ⟨defaultAddress, PID.data, [1, 2, 3]⟩

def lastPart : ParsedPacket := ⟨defaultAddress, PID.endData, [4]⟩

def twoParts : List UInt8 := packetFraming.wire [okAck, firstPart, lastPart]

def startUpload : R307Sensor := R307Sensor.uploadCharacteristic ⟨defaultAddress, 3000⟩ 1

theorem wellFormed_twoParts : ∀ p ∈ [okAck, firstPart, lastPart], p.WellFormed := by
  intro p hp
  simp only [List.mem_cons, List.not_mem_nil, or_false] at hp
  rcases hp with rfl | rfl | rfl
  · exact ⟨by decide, by decide, by decide⟩
  · exact ⟨by decide, by decide, by decide⟩
  · exact ⟨by decide, by decide, by decide⟩

theorem okAck_ok : OkAck okAck := ⟨rfl, 0, [], rfl, rfl⟩

/-- A run that delivers the bytes ends idle with some characteristic. -/
def endsWith (es : List SensorEvent) (characteristic : List UInt8) : Bool :=
  match sensor.runChecked inTime startUpload es with
  | none => false
  | some s => (sensorStep s .written).isNone && (sensorStep s .resume).isNone &&
      s.upload.characteristic = some characteristic

theorem run_of_endsWith {es : List SensorEvent} {characteristic : List UInt8}
    (h : endsWith es characteristic = true) : ∃ s, sensor.runChecked inTime startUpload es = some s ∧
      Idle s ∧ s.upload = .returned characteristic := by
  rw [endsWith] at h
  split at h
  · cases h
  · next s hs =>
      simp only [Bool.and_eq_true, Option.isNone_iff_eq_none, decide_eq_true_eq] at h
      exact ⟨s, hs, h.1, Upload.eq_of_characteristic h.2⟩

/-- One chunk ends within the ACK, and one brings its end and the start of the DATA packet. -/
def smallChunks : List SensorEvent :=
  [.written, .resume, .data (twoParts.take 5), .elapse 20, .data ((twoParts.drop 5).take 10), .resume,
    .data ((twoParts.drop 15).take 11), .resume, .elapse 20, .data (twoParts.drop 26), .resume]

theorem upload_returns_iff_of_small : sensor.Keeps Heard startUpload smallChunks := by
  obtain ⟨s, hs, hidle, hreturned⟩ := run_of_endsWith
    (show endsWith smallChunks [1, 2, 3, 4] = true by decide)
  have hdatas : ∀ p ∈ [firstPart], p.pid = PID.data := by
    intro p hp
    rw [List.mem_singleton.mp hp]
    rfl
  have hbytes : received smallChunks = packetFraming.wire (okAck :: [firstPart] ++ [lastPart]) := by
    rfl
  exact (upload_returns_iff okAck_ok hdatas rfl wellFormed_twoParts hbytes hs hidle).mp hreturned

/-- The ACK and the DATA packet in one chunk: the DATA packet is lost, and the upload
    returns the payload of the END_DATA packet alone. -/
theorem part_lost : ¬ ∀ (options : SensorOptions) (buffer : UInt8) (ack fin : ParsedPacket)
    (datas : List ParsedPacket) (es : List SensorEvent) (s : R307Sensor),
    OkAck ack → (∀ p ∈ datas, p.pid = PID.data) → fin.pid = PID.endData →
    (∀ p ∈ ack :: datas ++ [fin], p.WellFormed) →
    received es = packetFraming.wire (ack :: datas ++ [fin]) →
    sensor.runChecked inTime (R307Sensor.uploadCharacteristic options buffer) es = some s → Idle s →
    s.upload = .returned ((datas ++ [fin]).flatMap ParsedPacket.payload) := by
  intro h
  obtain ⟨s, hs, hidle, hreturned⟩ := run_of_endsWith (show endsWith
    [.written, .resume, .data (twoParts.take 26), .resume, .data (twoParts.drop 26), .resume] [4] = true
    by decide +kernel)
  have hdatas : ∀ p ∈ [firstPart], p.pid = PID.data := by
    intro p hp
    rw [List.mem_singleton.mp hp]
    rfl
  have hall := h _ _ okAck lastPart [firstPart] _ s okAck_ok hdatas rfl wellFormed_twoParts
    (rfl) hs hidle
  cases hreturned.symm.trans hall

end ZeroAuth.Iot
