/-
  ZeroAuth.Android.ProverIsolation

  Which proof a call gets.  The service's answers carry no request id, so the client
  gives each to whatever call holds its slot.  When a call takes the slot only while
  nothing of an earlier request is left, in the channels or in the service, every
  call gets its own proof and its own progress (`proof_of_own_request`); otherwise
  the proof of a call that has timed out may end up with the next one
  (`late_proof_accepted`).
-/

import ZeroAuth.Android.Prover

namespace ZeroAuth.Android

open ZeroAuth.Js ZeroAuth.Lib

/-! ## The condition and the property -/

def Delivery.job? : Delivery → Option Job
  | progress job _ | success job _ => some job
  | failure _ => none

/-- No proof of an earlier request is wanted, being computed or on its way. -/
def ProverWorld.settled (w : ProverWorld) : Bool :=
  w.requests.isEmpty && (w.running.all fun x => x.2) && w.responses.all fun r => r.job?.isNone

/-- A call takes the slot only when everything before it is settled. -/
def entersSettled (w : ProverWorld) : ProverEvent → Bool
  | .runPosted _ =>
      match w.posted, w.inFlight with
      | .enter _ _ _ _ :: _, none => w.settled
      | _, _ => true
  | _ => true

abbrev EntersSettled (w : ProverWorld) (e : ProverEvent) : Prop := entersSettled w e = true

/-- `out` is what the WebView prover has computed for exactly this input. -/
def Proved (computed : List (ProverRequest × GenerateOutput)) (input : GenerateInput)
    (out : GenerateOutput) : Prop :=
  ∃ request out', buildRequest input = .ok request ∧ (request, out') ∈ computed ∧
    out = { out' with did := input.unlocked.did }

def CallStatus.request? : CallStatus → Option ProverRequest
  | queued request | connecting request | connected _ request => some request
  | _ => none

def CallStatus.output? : CallStatus → Option GenerateOutput
  | resumed (.ok out) | ended (.ok out) => some out
  | _ => none

/-! ## The invariant -/

structure CallOk (computed : List (ProverRequest × GenerateOutput)) (c : Call) : Prop where
  request : ∀ request, c.status.request? = some request → buildRequest c.input = .ok request
  output : ∀ out, c.status.output? = some out → Proved computed c.input out

theorem CallOk.silent {computed : List (ProverRequest × GenerateOutput)} {c : Call}
    (hrequest : c.status.request? = none) (hout : c.status.output? = none) : CallOk computed c := by
  refine ⟨fun request h => ?_, fun out h => ?_⟩
  · rw [hrequest] at h
    cases h
  · rw [hout] at h
    cases h

/-- The job is the request of its sender. -/
def Sent (inputs : List GenerateInput) (job : Job) : Prop :=
  ∃ input, inputs[job.sender]? = some input ∧ buildRequest input = .ok job.request

/-- The channels and the service. -/
structure Traffic (inputs : List GenerateInput) (requests : List Job) (running : Option (Job × Bool))
    (responses : List Delivery) (computed : List (ProverRequest × GenerateOutput)) : Prop where
  requests : ∀ j ∈ requests, Sent inputs j
  running : ∀ j b, running = some (j, b) → Sent inputs j
  success : ∀ j out, .success j out ∈ responses → Sent inputs j ∧ (j.request, out) ∈ computed

/-- Everything that is still to come is the call's own. -/
structure Owned (t : ℕ) (requests : List Job) (running : Option (Job × Bool))
    (responses : List Delivery) : Prop where
  requests : ∀ j ∈ requests, j.sender = t
  running : ∀ j, running = some (j, false) → j.sender = t
  responses : ∀ r ∈ responses, ∀ j, r.job? = some j → j.sender = t

def ProverWorld.inputs (w : ProverWorld) : List GenerateInput := w.calls.map Call.input

structure Matching (w : ProverWorld) : Prop where
  calls : ∀ c ∈ w.calls, CallOk w.computed c
  traffic : Traffic w.inputs w.requests w.running w.responses w.computed
  owned : ∀ flight, w.inFlight = some flight → Owned flight.cont w.requests w.running w.responses
  flight : ∀ flight, w.inFlight = some flight →
    ∃ input, w.inputs[flight.cont]? = some input ∧ flight.did = input.unlocked.did
  posted : ∀ t service request did, .enter t service request did ∈ w.posted →
    ∃ input, w.inputs[t]? = some input ∧ buildRequest input = .ok request ∧ did = input.unlocked.did
  progressed : ∀ x ∈ w.progressed, x.2.sender = x.1

section Client

variable {w w' : ProverWorld} {t : ℕ}

theorem inputs_setStatus (w : ProverWorld) (t : ℕ) (status : CallStatus) :
    (w.setStatus t status).inputs = w.inputs := by
  refine List.ext_getElem? fun i => ?_
  rw [ProverWorld.inputs, ProverWorld.inputs, ProverWorld.setStatus, List.getElem?_map,
    List.getElem?_map, List.getElem?_modify]
  cases w.calls[i]? with
  | none => rfl
  | some c =>
      show some (Call.input (if t = i then _ else c)) = some c.input
      split <;> rfl

theorem input_of_call {c : Call} (h : w.calls[t]? = some c) : w.inputs[t]? = some c.input := by
  rw [ProverWorld.inputs, List.getElem?_map, h, Option.map_some]

theorem Matching.setStatus (h : Matching w) {status : CallStatus}
    (hcall : ∀ c, w.calls[t]? = some c → CallOk w.computed { c with status := status }) :
    Matching (w.setStatus t status) := by
  have hinputs := inputs_setStatus w t status
  refine ⟨fun c hc => ?_, ?_, h.owned, ?_, ?_, h.progressed⟩
  · obtain ⟨i, hi⟩ := List.mem_iff_getElem?.mp hc
    rw [ProverWorld.setStatus, List.getElem?_modify, Option.map_eq_map] at hi
    obtain ⟨c', hc', rfl⟩ := Option.map_eq_some_iff.mp hi
    split
    · next heq => exact hcall c' (heq ▸ hc')
    · exact h.calls c' (List.mem_of_getElem? hc')
  · rw [hinputs]
    exact h.traffic
  · rw [hinputs]
    exact h.flight
  · rw [hinputs]
    exact h.posted

theorem Matching.post (h : Matching w) {r : Runnable}
    (hr : ∀ t service request did, r = .enter t service request did →
      ∃ input, w.inputs[t]? = some input ∧ buildRequest input = .ok request ∧
        did = input.unlocked.did) : Matching (w.post r) := by
  refine ⟨h.calls, h.traffic, h.owned, h.flight, fun t service request did hmem => ?_, h.progressed⟩
  rcases List.mem_append.mp hmem with hmem | hmem
  · exact h.posted t service request did hmem
  · exact hr t service request did (List.mem_singleton.mp hmem).symm

theorem Matching.unposted (h : Matching w) {r : Runnable} {rest : List Runnable}
    (hp : w.posted = r :: rest) : Matching { w with posted := rest } :=
  ⟨h.calls, h.traffic, h.owned, h.flight, fun t service request did hmem =>
    h.posted t service request did (hp ▸ List.mem_cons_of_mem _ hmem), h.progressed⟩

theorem Matching.vacate (h : Matching w) : Matching { w with inFlight := none } :=
  ⟨h.calls, h.traffic, nofun, nofun, h.posted, h.progressed⟩

/-- A call ends without an output, or with one that is its own. -/
theorem Matching.resume (h : Matching w) {result : CallResult}
    (hout : ∀ out input, result = .ok out → w.inputs[t]? = some input → Proved w.computed input out) :
    Matching (w.resume t result) := by
  rw [ProverWorld.resume.eq_def]
  split
  · refine h.setStatus fun c hc => ⟨fun request heq => (by cases heq), fun out heq => ?_⟩
    cases result with
    | error e => cases heq
    | ok out' =>
        cases heq
        exact hout out c.input rfl (input_of_call hc)
  · exact h

theorem Matching.resume_error (h : Matching w) (t : ℕ) (failure : CallFailure) :
    Matching (w.resume t (.error failure)) :=
  h.resume fun _ _ heq => by cases heq

theorem call_of_status {status : CallStatus} (h : w.status t = some status) :
    ∃ c, w.calls[t]? = some c ∧ c.status = status :=
  Option.map_eq_some_iff.mp h

theorem Matching.resumeConnecting (h : Matching w) (t : ℕ) (r : Except ProverException ℕ) :
    Matching (w.resumeConnecting t r) := by
  rw [ProverWorld.resumeConnecting.eq_def]
  split
  · next request service hstatus =>
      obtain ⟨c, hc, hcs⟩ := call_of_status hstatus
      refine h.setStatus fun c' hc' => ⟨fun request' heq => ?_, fun out heq => by cases heq⟩
      cases hc.symm.trans hc'
      cases heq
      exact (h.calls c (List.mem_of_getElem? hc)).request request (by rw [hcs]; rfl)
  · exact h.setStatus fun c hc => .silent rfl rfl
  · exact h

theorem Matching.failInFlight (h : Matching w) (e : ProverException) : Matching (w.failInFlight e) := by
  rw [ProverWorld.failInFlight.eq_def]
  split
  · exact h
  · exact h.vacate.resume_error _ _

theorem Matching.settleConnection (h : Matching w) (r : Except ProverException ℕ) :
    Matching (w.settleConnection r) := by
  rw [ProverWorld.settleConnection.eq_def]
  split
  · exact h
  · have hcleared : Matching { w with connectionContinuation := none } :=
      ⟨h.calls, h.traffic, h.owned, h.flight, h.posted, h.progressed⟩
    exact hcleared.resumeConnecting _ _

theorem Sent.append {inputs : List GenerateInput} {j : Job} (h : Sent inputs j)
    (more : List GenerateInput) : Sent (inputs ++ more) j := by
  obtain ⟨input, hinput, hrequest⟩ := h
  exact ⟨input, by rw [List.getElem?_append_left (List.getElem?_eq_some_iff.mp hinput).1, hinput],
    hrequest⟩

theorem Matching.generate (h : Matching w) (input : GenerateInput) : Matching (w.generate input) := by
  have hinputs : (w.generate input).inputs = w.inputs ++ [input] := by
    rw [ProverWorld.inputs, ProverWorld.generate, List.map_append]
    rfl
  have hget : ∀ {i : ℕ} {input'}, w.inputs[i]? = some input' → (w.generate input).inputs[i]? = some input' := by
    intro i input' hi
    rw [hinputs, List.getElem?_append_left (List.getElem?_eq_some_iff.mp hi).1, hi]
  refine ⟨fun c hc => ?_, ⟨fun j hj => ?_, fun j b hj => ?_, fun j out hj => ?_⟩, h.owned,
    fun flight hf => ?_, fun t service request did hmem => ?_, h.progressed⟩
  · rcases List.mem_append.mp hc with hc | hc
    · exact h.calls c hc
    · obtain rfl := List.mem_singleton.mp hc
      cases hr : buildRequest input with
      | error e => exact .silent rfl rfl
      | ok request =>
          refine ⟨fun request' heq => ?_, fun out heq => by cases heq⟩
          cases heq
          exact hr
  · exact hinputs ▸ (h.traffic.requests j hj).append _
  · exact hinputs ▸ (h.traffic.running j b hj).append _
  · exact ⟨hinputs ▸ (h.traffic.success j out hj).1.append _, (h.traffic.success j out hj).2⟩
  · obtain ⟨input', hinput, hdid⟩ := h.flight flight hf
    exact ⟨input', hget hinput, hdid⟩
  · obtain ⟨input', hinput, hrest⟩ := h.posted t service request did hmem
    exact ⟨input', hget hinput, hrest⟩

theorem Matching.invokeService (h : Matching w) {input : GenerateInput} {service : ℕ}
    {request : ProverRequest} (hinput : w.inputs[t]? = some input)
    (hrequest : buildRequest input = .ok request) :
    Matching (w.invokeService t input service request) := by
  refine Matching.post (h.setStatus fun c hc => .silent rfl rfl) fun t' service' request' did heq => ?_
  cases heq
  rw [inputs_setStatus]
  exact ⟨input, hinput, hrequest, rfl⟩

theorem Matching.lock (h : Matching w) (hs : w.lock t = some w') : Matching w' := by
  rw [ProverWorld.lock.eq_def] at hs
  split at hs
  · next input request hc hmutex =>
      have hrequest : buildRequest input = .ok request :=
        (h.calls _ (List.mem_of_getElem? hc)).request request rfl
      have hlocked : Matching { w with generateMutex := some t } :=
        ⟨h.calls, h.traffic, h.owned, h.flight, h.posted, h.progressed⟩
      split at hs
      · cases hs
        exact hlocked.invokeService (input_of_call hc) hrequest
      · cases hs
        refine (hlocked.setStatus fun c hc' => ⟨fun request' heq => ?_, fun out heq => by cases heq⟩).post
          fun _ _ _ _ heq => by cases heq
        cases heq
        cases hc.symm.trans hc'
        exact hrequest
  · cases hs

theorem Matching.dispatch (h : Matching w) (hs : w.dispatch t = some w') : Matching w' := by
  rw [ProverWorld.dispatch.eq_def] at hs
  split at hs
  · next input service request hc =>
      cases hs
      exact h.invokeService (input_of_call hc) ((h.calls _ (List.mem_of_getElem? hc)).request request rfl)
  · next input result hc =>
      cases hs
      have hfree : Matching { w with generateMutex := none } :=
        ⟨h.calls, h.traffic, h.owned, h.flight, h.posted, h.progressed⟩
      refine hfree.setStatus fun c hc' => ⟨fun request heq => (by cases heq), fun out heq => ?_⟩
      cases hc.symm.trans hc'
      refine (h.calls _ (List.mem_of_getElem? hc)).output out ?_
      cases result with
      | error e => cases heq
      | ok out' => exact heq
  · cases hs

theorem Matching.interrupt (h : Matching w) {failure : CallFailure}
    (hs : w.interrupt t failure = some w') : Matching w' := by
  have hstatus : Matching (w.setStatus t (.resumed (.error failure))) :=
    h.setStatus fun c hc => .silent rfl rfl
  rw [ProverWorld.interrupt.eq_def] at hs
  split at hs
  · cases hs
    exact hstatus.post fun _ _ _ _ heq => by cases heq
  · cases hs
    exact hstatus.post fun _ _ _ _ heq => by cases heq
  · cases hs
    exact hstatus.post fun _ _ _ _ heq => by cases heq
  · cases hs
    exact hstatus.post fun _ _ _ _ heq => by cases heq
  · cases hs

theorem Matching.cancel (h : Matching w) (hs : w.cancel t = some w') : Matching w' := by
  rw [ProverWorld.cancel.eq_def] at hs
  split at hs
  · cases hs
    exact h.setStatus fun c hc => .silent rfl rfl
  · exact h.interrupt hs

theorem Matching.runBind (h : Matching w) (t : ℕ) (didBind : Bool) : Matching (w.runBind t didBind) := by
  have hframe : ∀ cont bound, Matching { w with connectionContinuation := cont, bound := bound } :=
    fun _ _ => ⟨h.calls, h.traffic, h.owned, h.flight, h.posted, h.progressed⟩
  rw [ProverWorld.runBind.eq_def]
  split
  · exact h.resumeConnecting _ _
  · split
    · exact hframe (some t) w.bound
    · split
      · exact hframe (some t) true
      · exact (hframe none w.bound).resumeConnecting _ _

/-- A call that takes the slot while everything is settled owns what is to come. -/
theorem Matching.runEnter (h : Matching w) {service : ℕ} {request : ProverRequest} {did : JsString}
    (hposted : ∃ input, w.inputs[t]? = some input ∧ buildRequest input = .ok request ∧
      did = input.unlocked.did) (hsettled : w.inFlight = none → w.settled = true) :
    Matching (w.runEnter t service request did) := by
  rw [ProverWorld.runEnter.eq_def]
  split
  · exact h.resume_error _ _
  · next hslot =>
      split
      · obtain ⟨input, hinput, hrequest, hdid⟩ := hposted
        have hall := hsettled hslot
        simp only [ProverWorld.settled, Bool.and_eq_true, List.isEmpty_iff, List.all_eq_true,
          Option.isNone_iff_eq_none] at hall
        -- nothing of an earlier call is under way
        obtain ⟨⟨hrequests, hrunning⟩, hresponses⟩ := hall
        refine ⟨h.calls, ⟨fun j hj => ?_, h.traffic.running, h.traffic.success⟩, fun flight hf => ?_,
          fun flight hf => ?_, h.posted, h.progressed⟩
        · rw [hrequests, List.nil_append, List.mem_singleton] at hj
          subst hj
          exact ⟨input, hinput, hrequest⟩
        · cases hf
          refine ⟨fun j hj => ?_, fun j hj => ?_, fun r hr j hj => ?_⟩
          · rw [hrequests, List.nil_append, List.mem_singleton] at hj
            rw [hj]
          · rw [hj] at hrunning
            cases hrunning
          · rw [hresponses r hr] at hj
            cases hj
        · cases hf
          exact ⟨input, hinput, hdid⟩
      · exact h.resume_error _ _

theorem Matching.runPosted (h : Matching w) {didBind : Bool} (hg : EntersSettled w (.runPosted didBind))
    (hs : w.runPosted didBind = some w') : Matching w' := by
  rw [ProverWorld.runPosted.eq_def] at hs
  split at hs
  · cases hs
  · next t rest hp =>
      cases hs
      exact (h.unposted hp).runBind t didBind
  · next rest hp =>
      cases hs
      have hnext := h.unposted hp
      exact ⟨hnext.calls, hnext.traffic, hnext.owned, hnext.flight, hnext.posted, hnext.progressed⟩
  · next t service request did rest hp =>
      cases hs
      refine (h.unposted hp).runEnter (h.posted t service request did (hp ▸ List.mem_cons_self))
        fun hslot => ?_
      simp only [EntersSettled, entersSettled, hp] at hg
      rw [show w.inFlight = none from hslot] at hg
      exact hg
  · next rest hp =>
      cases hs
      exact (h.unposted hp).vacate

/-- The call in the slot gets its own proof, and its own progress. -/
theorem Matching.deliver (h : Matching w) (hs : w.deliver = some w') : Matching w' := by
  rw [ProverWorld.deliver.eq_def] at hs
  split at hs
  · cases hs
  · next response rest hr =>
      cases hs
      have hrest : Matching { w with responses := rest } := by
        refine ⟨h.calls, ⟨h.traffic.requests, h.traffic.running, fun j out hj => ?_⟩, fun flight hf => ?_,
          h.flight, h.posted, h.progressed⟩
        · exact h.traffic.success j out (hr ▸ List.mem_cons_of_mem _ hj)
        · have howned := h.owned flight hf
          exact ⟨howned.requests, howned.running, fun r hmem =>
            howned.responses r (hr ▸ List.mem_cons_of_mem _ hmem)⟩
      have hmem : response ∈ w.responses := hr ▸ List.mem_cons_self
      rw [ProverWorld.handleResponse.eq_def]
      split
      · exact hrest
      · next flight job fraction hf =>
          refine ⟨hrest.calls, hrest.traffic, hrest.owned, hrest.flight, hrest.posted, fun x hx => ?_⟩
          rcases List.mem_append.mp hx with hx | hx
          · exact h.progressed x hx
          · obtain rfl := List.mem_singleton.mp hx
            exact (h.owned flight hf).responses _ hmem job rfl
      · next flight job out hf =>
          refine hrest.vacate.resume fun out' input heq hinput => ?_
          cases heq
          obtain ⟨input', hinput', hdid⟩ := h.flight flight hf
          obtain ⟨⟨sent, hsent, hrequest⟩, hcomputed⟩ := h.traffic.success job out hmem
          -- the job was sent by the call in the slot
          rw [(h.owned flight hf).responses _ hmem job rfl] at hsent
          cases hinput'.symm.trans hinput
          cases hinput'.symm.trans hsent
          exact ⟨job.request, out, hrequest, hcomputed, by rw [hdid]⟩
      · exact hrest.vacate.resume_error _ _

end Client

section Service

variable {w w' : ProverWorld}

/-- A message that is not from a proof, or that is from the running one. -/
theorem Matching.send (h : Matching w) {response : Delivery}
    (howned : ∀ flight, w.inFlight = some flight → ∀ j, response.job? = some j → j.sender = flight.cont)
    (hsuccess : ∀ j out, response = .success j out →
      Sent w.inputs j ∧ (j.request, out) ∈ w.computed) : Matching (w.send response) := by
  refine ⟨h.calls, ⟨h.traffic.requests, h.traffic.running, fun j out hmem => ?_⟩, fun flight hf => ?_,
    h.flight, h.posted, h.progressed⟩
  · rcases List.mem_append.mp hmem with hmem | hmem
    · exact h.traffic.success j out hmem
    · exact hsuccess j out (List.mem_singleton.mp hmem).symm
  · refine ⟨(h.owned flight hf).requests, (h.owned flight hf).running, fun r hmem j hj => ?_⟩
    rcases List.mem_append.mp hmem with hmem | hmem
    · exact (h.owned flight hf).responses r hmem j hj
    · rw [List.mem_singleton.mp hmem] at hj
      exact howned flight hf j hj

theorem Matching.send_failure (h : Matching w) (error : ProverException) :
    Matching (w.send (.failure error)) :=
  h.send (fun _ _ _ hj => by cases hj) fun _ _ heq => by cases heq

theorem Matching.handleRequest (h : Matching w) (hs : w.handleRequest = some w') : Matching w' := by
  rw [ProverWorld.handleRequest.eq_def] at hs
  split at hs
  · cases hs
  · next job rest x hrequests hrunning =>
      cases hs
      have hrest : Matching { w with requests := rest } := by
        refine ⟨h.calls, ⟨fun j hj => ?_, h.traffic.running, h.traffic.success⟩,
          fun flight hf => ⟨fun j hj => ?_, (h.owned flight hf).running, (h.owned flight hf).responses⟩,
          h.flight, h.posted, h.progressed⟩
        · exact h.traffic.requests j (hrequests ▸ List.mem_cons_of_mem _ hj)
        · exact (h.owned flight hf).requests j (hrequests ▸ List.mem_cons_of_mem _ hj)
      exact hrest.send_failure _
  · next job rest hrequests hrunning =>
      cases hs
      refine ⟨h.calls, ⟨fun j hj => ?_, fun j b hj => ?_, h.traffic.success⟩,
        fun flight hf => ⟨fun j hj => ?_, fun j hj => ?_, (h.owned flight hf).responses⟩,
        h.flight, h.posted, h.progressed⟩
      · exact h.traffic.requests j (hrequests ▸ List.mem_cons_of_mem _ hj)
      · cases hj
        exact h.traffic.requests job (hrequests ▸ List.mem_cons_self)
      · exact (h.owned flight hf).requests j (hrequests ▸ List.mem_cons_of_mem _ hj)
      · cases hj
        exact (h.owned flight hf).requests job (hrequests ▸ List.mem_cons_self)

theorem Matching.onProgress (h : Matching w) {fraction : ℚ} (hs : w.onProgress fraction = some w') :
    Matching w' := by
  rw [ProverWorld.onProgress.eq_def] at hs
  split at hs
  · next job hrunning =>
      cases hs
      refine h.send (fun flight hf j hj => ?_) fun j out heq => by cases heq
      cases hj
      exact (h.owned flight hf).running job hrunning
  · cases hs

/-- The coroutine ends: what the slot's call owns gets less. -/
theorem Matching.halt (h : Matching w) {job : Job} {b : Bool} (hr : w.running = some (job, b))
    {computed : List (ProverRequest × GenerateOutput)} (hsub : w.computed ⊆ computed) :
    Matching { w with running := some (job, true), computed := computed } := by
  have hproved : ∀ {input out}, Proved w.computed input out → Proved computed input out := by
    rintro input out ⟨request, out', hrequest, hmem, heq⟩
    exact ⟨request, out', hrequest, hsub hmem, heq⟩
  refine ⟨fun c hc => ⟨(h.calls c hc).request, fun out hout => hproved ((h.calls c hc).output out hout)⟩,
    ⟨h.traffic.requests, fun j b' hj => ?_, fun j out hmem => ?_⟩,
    fun flight hf => ⟨(h.owned flight hf).requests, fun j hj => ?_, (h.owned flight hf).responses⟩,
    h.flight, h.posted, h.progressed⟩
  · cases hj
    exact h.traffic.running job b hr
  · exact ⟨(h.traffic.success j out hmem).1, hsub (h.traffic.success j out hmem).2⟩
  · cases hj

theorem Matching.complete (h : Matching w) {out : GenerateOutput} (hs : w.complete out = some w') :
    Matching w' := by
  rw [ProverWorld.complete.eq_def] at hs
  split at hs
  · next job hrunning =>
      cases hs
      have hhalt := h.halt hrunning (List.subset_append_left w.computed [(job.request, out)])
      refine hhalt.send (fun flight hf j hj => ?_) fun j out' heq => ?_
      · cases hj
        exact (h.owned flight hf).running job hrunning
      · cases heq
        exact ⟨h.traffic.running job false hrunning, List.mem_append_right _ (List.mem_singleton.mpr rfl)⟩
  · cases hs

theorem Matching.fail (h : Matching w) {error : ProverException} (hs : w.fail error = some w') :
    Matching w' := by
  rw [ProverWorld.fail.eq_def] at hs
  split at hs
  · next job hrunning =>
      cases hs
      exact (h.halt hrunning (List.Subset.refl _)).send_failure error
  · cases hs

/-- No job is running. -/
theorem Matching.idle (h : Matching w) {process : ℕ} {requests : List Job}
    (hsub : requests ⊆ w.requests) :
    Matching { w with process := process, requests := requests, running := none } :=
  ⟨h.calls, ⟨fun j hj => h.traffic.requests j (hsub hj), nofun, h.traffic.success⟩,
    fun flight hf => ⟨fun j hj => (h.owned flight hf).requests j (hsub hj), nofun,
      (h.owned flight hf).responses⟩, h.flight, h.posted, h.progressed⟩

theorem Matching.finish (h : Matching w) (hs : w.finish = some w') : Matching w' := by
  rw [ProverWorld.finish.eq_def] at hs
  split at hs
  · cases hs
    exact h.idle (List.Subset.refl _)
  · cases hs

theorem Matching.step (h : Matching w) {e : ProverEvent} (hg : EntersSettled w e)
    (hs : proverStep w e = some w') : Matching w' := by
  -- a connection that is lost takes its messages with it
  have hlost : ∀ bound, Matching { w with outgoing := none, bound := bound } :=
    fun _ => ⟨h.calls, h.traffic, h.owned, h.flight, h.posted, h.progressed⟩
  cases e with
  | generate input =>
      cases hs
      exact h.generate input
  | lock t => exact h.lock hs
  | dispatch t => exact h.dispatch hs
  | timeout t => exact h.interrupt hs
  | cancel t => exact h.cancel hs
  | runPosted didBind => exact h.runPosted hg hs
  | onServiceConnected =>
      cases hs
      have hfound : Matching { w with outgoing := some w.process } :=
        ⟨h.calls, h.traffic, h.owned, h.flight, h.posted, h.progressed⟩
      exact hfound.settleConnection _
  | onServiceDisconnected =>
      cases hs
      exact (hlost w.bound).failInFlight _
  | onBindingDied =>
      cases hs
      exact ((hlost false).failInFlight _).settleConnection _
  | onNullBinding =>
      cases hs
      exact (h.failInFlight _).settleConnection _
  | deliver => exact h.deliver hs
  | handleRequest => exact h.handleRequest hs
  | onProgress fraction => exact h.onProgress hs
  | complete out => exact h.complete hs
  | fail error => exact h.fail hs
  | finish => exact h.finish hs
  | die =>
      cases hs
      exact h.idle (List.nil_subset _)

theorem matching_newProver (timeoutMs : ℕ) : Matching (newProver timeoutMs) where
  calls _ hc := absurd hc List.not_mem_nil
  traffic :=
    ⟨fun _ hj => absurd hj List.not_mem_nil, fun _ _ hj => (by cases hj),
      fun _ _ hj => absurd hj List.not_mem_nil⟩
  owned _ hf := by cases hf
  flight _ hf := by cases hf
  posted _ _ _ _ hmem := absurd hmem List.not_mem_nil
  progressed _ hx := absurd hx List.not_mem_nil

end Service

/-! ## Results -/

/-- Every output that a call has returned was computed for exactly its input, and every
    `onProgress` was invoked with progress of the call's own proof. -/
def OwnProofs (w : ProverWorld) : Prop :=
  (∀ (t : ℕ) input out, w.calls[t]? = some ⟨input, .ended (.ok out)⟩ → Proved w.computed input out) ∧
    ∀ x ∈ w.progressed, x.2.sender = x.1

/-- When a call takes the client's slot only while nothing of an earlier request is left,
    each call gets the proof of its own request, in every state that is reached. -/
theorem proof_of_own_request {timeoutMs : ℕ} {w : ProverWorld}
    (h : prover.Later EntersSettled (newProver timeoutMs) w) : OwnProofs w := by
  have hmatching : Matching w :=
    h.invariant (fun w e w' hI hg hs => Matching.step hI hg hs) (matching_newProver timeoutMs)
  exact ⟨fun t input out hc => (hmatching.calls _ (List.mem_of_getElem? hc)).output out rfl,
    hmatching.progressed⟩

/-! ## Two calls, and one that comes after a timeout -/

def sampleCredential : UnlockedCredential := ⟨js "1", js "2", js "3", js "4", js "did:zeroauth:face:5"⟩

/-- The nonce is a digit, 62 times. -/
def nonceInput (digit : CodeUnit) : GenerateInput := ⟨sampleCredential, List.replicate 62 digit⟩

def sampleOutput (did : JsString) : GenerateOutput :=
  ⟨⟨[js "1"], [], [js "2"], js "groth16", js "bn128"⟩, [js "3"], did, ⟨1200, by decide⟩⟩

def endedWith (w : ProverWorld) (t : ℕ) : Option GenerateOutput :=
  match w.calls[t]? with
  | some ⟨_, .ended (.ok out)⟩ => some out
  | _ => none

theorem of_endedWith {w : ProverWorld} {t : ℕ} (h : (endedWith w t).isSome = true) :
    ∃ input out, w.calls[t]? = some ⟨input, .ended (.ok out)⟩ := by
  rw [endedWith] at h
  split at h
  · next input out hc => exact ⟨input, out, hc⟩
  · cases h

/-- The second call waits for the first one, and its request for the slot of the service. -/
def twoCalls : List ProverEvent :=
  [.generate (nonceInput 49), .generate (nonceInput 50), .lock 0, .runPosted true,
    .onServiceConnected, .dispatch 0, .runPosted true, .handleRequest, .onProgress (2 / 5),
    .complete (sampleOutput []), .finish, .deliver, .deliver, .dispatch 0, .lock 1,
    .runPosted true, .handleRequest, .onProgress (1 / 5), .complete { sampleOutput [] with
      publicSignals := [js "4"] }, .finish, .deliver, .deliver, .dispatch 1]

theorem proof_of_own_request_of_two : ∃ w, prover.runChecked entersSettled (newProver 35000) twoCalls =
    some w ∧ endedWith w 0 = some (sampleOutput sampleCredential.did) ∧
      endedWith w 1 = some { sampleOutput sampleCredential.did with publicSignals := [js "4"] } ∧
        OwnProofs w := by
  have hrun : (prover.runChecked entersSettled (newProver 35000) twoCalls).map
      (fun w => (endedWith w 0, endedWith w 1)) = some (some (sampleOutput sampleCredential.did),
        some { sampleOutput sampleCredential.did with publicSignals := [js "4"] }) := by
    rfl
  obtain ⟨w, hw, hended⟩ := Option.map_eq_some_iff.mp hrun
  obtain ⟨hfirst, hsecond⟩ := Prod.mk.inj hended
  exact ⟨w, hw, hfirst, hsecond, proof_of_own_request (Machine.later_of_runChecked (fun _ _ h => h) hw)⟩

theorem nonce_of_buildRequest {input : GenerateInput} {request : ProverRequest}
    (h : buildRequest input = .ok request) : request.sessionNonceHex = input.sessionNonceHex := by
  simp only [buildRequest, bind, Except.bind] at h
  repeat' split at h
  all_goals cases h
  rfl

/-- The first call times out while its proof is being computed; the second one takes the
    slot, and is given that proof. -/
def lateAnswer : List ProverEvent :=
  [.generate (nonceInput 49), .generate (nonceInput 50), .lock 0, .runPosted true,
    .onServiceConnected, .dispatch 0, .runPosted true, .handleRequest, .timeout 0, .dispatch 0,
    .runPosted true, .lock 1, .runPosted true, .complete (sampleOutput []), .deliver, .dispatch 1]

theorem late_proof_accepted : ¬ ∀ (timeoutMs : ℕ) (w : ProverWorld),
    prover.Later (fun _ _ => True) (newProver timeoutMs) w → OwnProofs w := by
  intro h
  have hrun : (prover.run (newProver 35000) lateAnswer).map (fun w => (w.inputs, (endedWith w 1).isSome,
      w.computed.map fun x => x.1.sessionNonceHex)) =
      some ([nonceInput 49, nonceInput 50], true, [List.replicate 62 49]) := by
    rfl
  obtain ⟨w, hw, hends⟩ := Option.map_eq_some_iff.mp hrun
  obtain ⟨input, out, hcall⟩ := of_endedWith (congrArg (fun x => x.2.1) hends)
  have hinput : input = nonceInput 50 := by
    have hget := input_of_call hcall
    rw [show w.inputs = _ from congrArg Prod.fst hends] at hget
    exact (Option.some.inj hget).symm
  obtain ⟨request, out', hrequest, hmem, -⟩ :=
    (h 35000 w (Machine.later_of_run hw)).1 1 input out hcall
  have hcomputed : (w.computed.map fun x => x.1.sessionNonceHex) = [List.replicate 62 49] :=
    congrArg (fun x => x.2.2) hends
  have hnonce : request.sessionNonceHex ∈ [List.replicate 62 (49 : CodeUnit)] := by
    rw [← hcomputed]
    exact List.mem_map.mpr ⟨(request, out'), hmem, rfl⟩
  rw [nonce_of_buildRequest hrequest, hinput] at hnonce
  exact absurd hnonce (by decide)

end ZeroAuth.Android
