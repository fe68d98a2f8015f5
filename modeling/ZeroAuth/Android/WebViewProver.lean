/-
  ZeroAuth.Android.WebViewProver

  The in-process prover (android/.../prover/WebViewMobileProver.kt): `generate` calls from any
  coroutines, the main looper with its queue of runnables, and the page.

  The three shared fields `pending`, `inFlight` and `queuedPayload` are written one at a
  time.  A runnable of the main looper is the list of its writes, between which the caller's
  thread may run the catch block of a TIMEOUT.  Messages of the page say nothing of the call
  they belong to; the model notes for whose payload the page was run.
-/

import ZeroAuth.Js.Text
import ZeroAuth.Lib.Machine
import Mathlib.Logic.Function.Basic

namespace ZeroAuth.Android

namespace WebViewMobileProver

open ZeroAuth.Lib ZeroAuth.Js

/-! ## Calls -/

inductive Code
  | proverFailed
  | witnessInvalid
  | timeout
  | webviewCrashed
  deriving DecidableEq

structure ProverException where
  code : Code
  message : JsString
  deriving DecidableEq

def proveTimeoutMs : ℕ := 30000

/-- `ρ` is what `parseResult` reads off the message; `run` is the call whose payload the page
    had. -/
structure GenerateOutput (ρ : Type) where
  run : ℕ
  envelope : ρ
  did : JsString
  deriving DecidableEq

/-- What the continuation is resumed with. -/
abbrev Resumption (ρ : Type) := Except ProverException (GenerateOutput ρ)

inductive Outcome (ρ : Type)
  | returned (out : GenerateOutput ρ)
  | thrown (e : ProverException)
  | cancelled

/-- What has cancelled the coroutine: `withTimeout`, or its caller. -/
inductive Cause
  | timeout
  | cancellation
  deriving DecidableEq

/-- Where `generate` is. -/
inductive Phase (ρ : Type)
  /-- In `withTimeout`, before `compareAndSet`. -/
  | entering
  /-- `pending` is taken, nothing is posted yet. -/
  | holding
  | suspended
  | resumed (r : Resumption ρ)
  /-- The continuation has been cancelled. -/
  | aborted
  /-- `pending` is released; `none` is the exception of the cancellation. -/
  | leaving (r : Option (Resumption ρ))
  /-- In the catch block of the TIMEOUT. -/
  | clearingFlight
  | clearingQueued
  | ended (o : Outcome ρ)

structure Call (ρ : Type) where
  did : JsString
  phase : Phase ρ
  deadline : ℕ
  cause : Option Cause

/-- Between `compareAndSet` and the `finally` block. -/
def Phase.inside {ρ : Type} : Phase ρ → Bool
  | holding | suspended | resumed _ | aborted => true
  | _ => false

/-! ## The main looper -/

/-- What the page posts.  The contents of a result or its defect are given. -/
inductive Message (ρ : Type)
  | ready
  | progress (run : ℕ) (percent : ℕ)
  | result (run : ℕ) (envelope : Except JsString ρ)
  | error (code message : JsString)

inductive Runnable (ρ : Type)
  | start (k : ℕ)
  /-- What the cancellation handler of call `k` posts. -/
  | clear (k : ℕ)
  | dispatch (m : Message ρ)
  | destroy

/-- One action of a runnable; `owner` is the call whose catch block or cancellation handler
    clears a slot. -/
inductive Action (ρ : Type)
  | ensureWebView (k : ℕ)
  | setFlight (k : ℕ)
  | setQueued (k : ℕ)
  | load (k : ℕ)
  | release (k : ℕ)
  | clearFlight (owner : Option ℕ)
  | clearQueued (owner : Option ℕ)
  | send (k : ℕ)
  | onProgress (k run percent : ℕ)
  | resume (k : ℕ) (r : Resumption ρ)
  | dropWebView

/-- `inFlight` holds the call and whether its page has been ready. -/
structure State (ρ : Type) where
  pending : Bool
  inFlight : Option (ℕ × Bool)
  queuedPayload : Option ℕ
  webView : Bool
  calls : ℕ → Option (Call ρ)
  made : ℕ
  queue : List (Runnable ρ)
  /-- What is left of the runnable under way. -/
  current : List (Action ρ)
  /-- The calls whose payloads were sent to the page. -/
  requested : List ℕ
  clock : ℕ
  /-- Each call of an `onProgress`, with the run that it is about. -/
  progressed : List (ℕ × ℕ)
  /-- Each time a catch block or a handler has cleared a slot of a call that was inside: for
      whom, and whose it was. -/
  cleared : List (ℕ × ℕ)

def State.initial (ρ : Type) : State ρ :=
  ⟨false, none, none, false, fun _ => none, 0, [], [], [], 0, [], []⟩

section Steps

variable {ρ : Type}

namespace State

def setCall (s : State ρ) (k : ℕ) (call : Call ρ) : State ρ :=
  { s with calls := Function.update s.calls k (some call) }

def setPhase (s : State ρ) (k : ℕ) (phase : Phase ρ) : State ρ :=
  match s.calls k with
  | some call => s.setCall k { call with phase := phase }
  | none => s

/-- The call is inside. -/
def inside (s : State ρ) (k : ℕ) : Bool := (s.calls k).any fun call => call.phase.inside

def suspended (s : State ρ) (k : ℕ) : Bool :=
  (s.calls k).any fun call => match call.phase with
    | .suspended => true
    | _ => false

/-- Clearing a slot that holds `slot`. -/
def noteClear (s : State ρ) (owner slot : Option ℕ) : State ρ :=
  match owner, slot with
  | some k, some j => if s.inside j then { s with cleared := s.cleared ++ [(k, j)] } else s
  | _, _ => s

def clearFlight (s : State ρ) (owner : Option ℕ) : State ρ :=
  { s.noteClear owner (s.inFlight.map Prod.fst) with inFlight := none }

def clearQueued (s : State ρ) (owner : Option ℕ) : State ρ :=
  { s.noteClear owner s.queuedPayload with queuedPayload := none }

end State

def busy : ProverException := ⟨.proverFailed, js "MobileProver is busy with another proof"⟩

def tookTooLong : ProverException :=
  ⟨.timeout, js "Proof generation took longer than 30000 ms"⟩

/-- The catch block of the start runnable. -/
def startFailed (k : ℕ) (message : JsString) : List (Action ρ) :=
  [.release k, .clearFlight (some k), .clearQueued (some k),
    .resume k (.error ⟨.proverFailed, js "failed to load prover.html: " ++ message⟩)]

/-- The exception that an "error" message is mapped to. -/
def mapped (code message : JsString) : ProverException :=
  if code = js "self_verify_failed" then
    ⟨.proverFailed, js "snarkjs.groth16.verify returned false on-device"⟩
  else if code = js "boot_failed" ∨ code = js "serialize_failed" then
    ⟨.proverFailed, js "prover boot failed [" ++ code ++ js "]: " ++ message⟩
  else ⟨.witnessInvalid, js "prover error [" ++ code ++ js "]: " ++ message⟩

def parseResult (run : ℕ) (envelope : Except JsString ρ) (did : JsString) : Resumption ρ :=
  match envelope with
  | .ok envelope => .ok ⟨run, envelope, did⟩
  | .error message => .error ⟨.proverFailed, js "Malformed result envelope: " ++ message⟩

/-- What `dispatch` does once it has read `inFlight`. -/
def dispatch (s : State ρ) (m : Message ρ) : List (Action ρ) :=
  match s.inFlight with
  | none => []
  | some (k, ready) =>
      match m with
      | .ready => if ready then [] else [.send k]
      | .progress run percent => [.onProgress k run (min percent 100)]
      | .result run envelope =>
          if s.suspended k then
            let did := ((s.calls k).map Call.did).getD []
            [.clearFlight none, .resume k (parseResult run envelope did)]
          else []
      | .error code message =>
          if s.suspended k then [.clearFlight none, .resume k (.error (mapped code message))]
          else []

/-- The actions of a runnable, as it begins. -/
def actions (s : State ρ) : Runnable ρ → List (Action ρ)
  | .start k => [.ensureWebView k, .setFlight k, .setQueued k, .load k]
  | .clear k => [.clearFlight (some k), .clearQueued (some k)]
  | .dispatch m => dispatch s m
  | .destroy => [.clearFlight none, .clearQueued none, .dropWebView]

/-- One action; `failure` is what `WebView(..)` or `loadUrl` throws. -/
def act (s : State ρ) (failure : Option JsString) : Action ρ → State ρ
  | .ensureWebView k =>
      match failure with
      | some message => { s with current := startFailed k message }
      | none => { s with webView := true }
  | .setFlight k => { s with inFlight := some (k, false) }
  | .setQueued k => { s with queuedPayload := some k }
  | .load k =>
      match failure with
      | some message => { s with current := startFailed k message }
      | none => s
  | .release _ => { s with pending := false }
  | .clearFlight owner => s.clearFlight owner
  | .clearQueued owner => s.clearQueued owner
  | .send k =>
      { s with
        inFlight := s.inFlight.map fun flight => if flight.1 = k then (k, true) else flight
        queuedPayload := none
        requested := s.requested ++ if s.webView then s.queuedPayload.toList else [] }
  | .onProgress k run _ => { s with progressed := s.progressed ++ [(k, run)] }
  | .resume k r => if s.suspended k then s.setPhase k (.resumed r) else s
  | .dropWebView => { s with webView := false }

/-! ## The callers -/

/-- `generate` is called; `invalid` is why `buildPayload` throws. -/
def generate (s : State ρ) (did : JsString) (invalid : Option JsString) : State ρ :=
  let phase := match invalid with
    | some message => .ended (.thrown ⟨.witnessInvalid, message⟩)
    | none => .entering
  { s.setCall s.made ⟨did, phase, s.clock + proveTimeoutMs, none⟩ with made := s.made + 1 }

/-- The coroutine of call `k` goes on. -/
def runCall (s : State ρ) (k : ℕ) (call : Call ρ) : Option (State ρ) :=
  match call.phase with
  | .entering =>
      if s.pending then some (s.setPhase k (.ended (.thrown busy)))
      else some { s.setPhase k .holding with pending := true }
  | .holding =>
      -- a coroutine that is already cancelled runs its handler as it suspends
      some (match call.cause with
        | some _ => { s.setPhase k .aborted with queue := s.queue ++ [.start k, .clear k] }
        | none => { s.setPhase k .suspended with queue := s.queue ++ [.start k] })
  | .suspended => none
  | .resumed r =>
      -- an exception prevails over the cancellation; a value does not, and the handler runs
      let late := r.isOk && call.cause.isSome
      some { s.setPhase k (.leaving (if late then none else some r)) with
        pending := false
        queue := s.queue ++ if late then [.clear k] else [] }
  | .aborted => some { s.setPhase k (.leaving none) with pending := false }
  | .leaving r =>
      match r, call.cause with
      | some (.error e), _ => some (s.setPhase k (.ended (.thrown e)))
      | some (.ok out), none => some (s.setPhase k (.ended (.returned out)))
      | _, some .timeout => some (s.setPhase k .clearingFlight)
      | _, _ => some (s.setPhase k (.ended .cancelled))
  | .clearingFlight => some ((s.clearFlight (some k)).setPhase k .clearingQueued)
  | .clearingQueued => some ((s.clearQueued (some k)).setPhase k (.ended (.thrown tookTooLong)))
  | .ended _ => none

/-- The coroutine of call `k` is cancelled; only the first cause counts. -/
def cancelCall (s : State ρ) (k : ℕ) (call : Call ρ) (cause : Cause) : Option (State ρ) :=
  match call.cause, call.phase with
  | none, .suspended =>
      some { s.setCall k { call with phase := .aborted, cause := some cause } with
        queue := s.queue ++ [.clear k] }
  | none, .entering | none, .holding | none, .resumed _ | none, .leaving _ =>
      some (s.setCall k { call with cause := some cause })
  | _, _ => none

inductive Step (ρ : Type)
  | generate (did : JsString) (invalid : Option JsString)
  | run (k : ℕ)
  | timeout (k : ℕ)
  | cancel (k : ℕ)
  | main (failure : Option JsString)
  | post (m : Message ρ)
  | renderGone (message : JsString)
  | destroy
  | tick (ms : ℕ)

/-- A page speaks of a payload only once it has got it. -/
def Message.possible (s : State ρ) : Message ρ → Bool
  | .progress run _ | .result run _ => s.requested.contains run
  | _ => true

def step (s : State ρ) : Step ρ → Option (State ρ)
  | .generate did invalid => some (generate s did invalid)
  | .run k => (s.calls k).bind (runCall s k)
  | .timeout k => (s.calls k).bind fun call =>
      if call.deadline ≤ s.clock then cancelCall s k call .timeout else none
  | .cancel k => (s.calls k).bind fun call => cancelCall s k call .cancellation
  | .main failure =>
      match s.current, s.queue with
      | a :: current, _ => some (act { s with current := current } failure a)
      | [], r :: queue => some { s with queue := queue, current := actions s r }
      | [], [] => none
  | .post m => if m.possible s then some { s with queue := s.queue ++ [.dispatch m] } else none
  | .renderGone message =>
      match s.current with
      | [] => some { s with current := [.clearFlight none, .clearQueued none] ++
          (s.inFlight.map fun flight =>
            Action.resume flight.1 (.error ⟨.webviewCrashed, message⟩)).toList ++ [.dropWebView] }
      | _ => none
  | .destroy => some { s with queue := s.queue ++ [.destroy] }
  | .tick ms => some { s with clock := s.clock + ms }

end Steps

def prover (ρ : Type) : Machine (State ρ) (Step ρ) := ⟨step⟩

end WebViewMobileProver

end ZeroAuth.Android
