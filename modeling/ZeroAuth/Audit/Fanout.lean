/-
  ZeroAuth.Audit.Fanout

  `subscribeVerifications`, the `close` of a subscription and `emitVerificationEvent` of
  src/services/verification-events.ts, under any number of concurrent calls of
  `appendAuditEvent`.

  An event is delivered synchronously: until its last handler has returned no call goes
  on, but the handlers may subscribe, close subscriptions and start calls.  Each
  subscription has a listener of its own (`wrapped`), which is the number of the
  subscription here; it catches what its handler throws, so that the walk over the
  listeners goes on (`wrapped_eq`).

  The emitter walks a copy of its list of listeners.  So an event goes to the
  subscriptions that were open when it was emitted, also to one that is closed before its
  turn.  The emitter's key is the text that a caller gives as tenant id, where the
  database takes every spelling of a UUID.
-/

import ZeroAuth.Audit.Emissions
import ZeroAuth.Lib.Dispatch

namespace ZeroAuth.Audit.Fanout

open ZeroAuth.Lib ZeroAuth.Js ZeroAuth.Pg

/-! ## The emitter of the process -/

/-- What `subscribeVerifications` has been given; `closed` remembers `close`. -/
structure Subscription where
  tenantId : JsString
  closed : Bool

/-- An event with its time and, for the statements about it, the subscriptions of its tenant
    that were open then. -/
structure Emission where
  time : ℕ
  event : VerificationEvent
  audience : List ℕ

/-- `handled` lists the calls of the handlers. -/
structure World where
  audit : Audit.World
  emitter : Emitter JsString ℕ Emission
  subscriptions : List Subscription
  handled : List (ℕ × Emission)

/-- Two texts for one tenant. -/
def sameTenant (a b : JsString) : Bool :=
  a = b || ((Uuid.parse a).isSome && Uuid.parse a = Uuid.parse b)

namespace World

/-- The open subscriptions of the tenant. -/
def openOf (w : World) (tenantId : JsString) : List ℕ :=
  (List.range w.subscriptions.length).filter fun i =>
    w.subscriptions[i]?.any fun s => ! s.closed && sameTenant s.tenantId tenantId

/-- `emitter.emit(payload.tenant_id, payload)`. -/
def emitVerificationEvent (w : World) (event : VerificationEvent) : World :=
  { w with
    audit := { w.audit with emitted := w.audit.emitted ++ [(w.audit.clock, event)] }
    emitter := w.emitter.emit event.tenantId
      ⟨w.audit.clock, event, w.openOf event.tenantId⟩ }

def subscribeVerifications (w : World) (tenantId : JsString) : World :=
  { w with
    emitter := w.emitter.on tenantId w.subscriptions.length
    subscriptions := w.subscriptions ++ [⟨tenantId, false⟩] }

/-- `emitter.removeListener(tenantId, wrapped)`. -/
def close (w : World) (i : ℕ) : Option World :=
  w.subscriptions[i]?.map fun s =>
    { w with
      emitter := w.emitter.off s.tenantId i
      subscriptions := w.subscriptions.set i { s with closed := true } }

/-- The next `wrapped` is called; it leaves events of other tenants alone. -/
def call (w : World) : Option World :=
  match w.emitter.deliveries with
  | ⟨e, _, false, i :: _⟩ :: _ => w.emitter.call.map fun m =>
      { w with
        emitter := m
        handled := if w.subscriptions[i]?.map Subscription.tenantId = some e.event.tenantId then
            w.handled ++ [(i, e)]
          else w.handled }
  | _ => none

end World

/-! ## The system -/

/-- The end of `wrapped`: what its handler throws is caught. -/
def wrapped (handler : Except JsString Unit) : Except JsString Unit :=
  tryCatch handler fun _ => .ok ()

/-- The listener that runs ends; if it throws, the rest of the listeners is not called. -/
def listenerEnds (m : Emitter JsString ℕ Emission) :
    Except JsString Unit → Option (Emitter JsString ℕ Emission)
  | .ok () => m.ret
  | .error _ => m.throws

theorem wrapped_eq (handler : Except JsString Unit) : wrapped handler = .ok () := by
  cases handler with
  | ok x => rfl
  | error e => rfl

/-- No call goes on while an event is delivered. -/
def exec (pg : Postgres) (t : ℕ) (o : Op) (ω : Oracle) (w : World) :
    Option (Except DbError o.Resp × World) :=
  if w.emitter.deliveries.isEmpty then
    match o with
    | .emit event => some (.ok (), w.emitVerificationEvent event)
    | o => (Audit.exec pg t o ω w.audit).map fun (r, audit) => (r, { w with audit := audit })
  else none

/-- Time passes or a connection is lost; code that runs at the top level or in a handler
    subscribes or closes; the delivery goes on. -/
inductive Env
  | audit (e : Audit.Env)
  | subscribe (tenantId : JsString)
  | close (i : ℕ)
  | call
  /-- The handler that runs returns or throws. -/
  | ret (handler : Except JsString Unit)
  | finish

def env : Env → World → Option World
  | .audit e, w => (Audit.env e w.audit).map fun audit => { w with audit := audit }
  | .subscribe tenantId, w =>
      if w.emitter.idle then some (w.subscribeVerifications tenantId) else none
  | .close i, w => if w.emitter.idle then w.close i else none
  | .call, w => w.call
  | .ret handler, w =>
      (listenerEnds w.emitter (wrapped handler)).map fun m => { w with emitter := m }
  | .finish, w => w.emitter.finish.map fun m => { w with emitter := m }

/-- Any number of concurrent calls, with their subscribers. -/
abbrev fanout (pg : Postgres) : System sig DbError Result Call World Oracle Env :=
  { code := code, exec := exec pg, env := env }

abbrev State := Config sig DbError Result Call World

/-- No rows, no subscriptions. -/
def Empty (w : World) : Prop :=
  w.audit.store = .init [] ∧ w.audit.emitted = [] ∧ w.emitter = .init ∧ w.subscriptions = [] ∧
    w.handled = []

/-- The events that were emitted, oldest first. -/
def World.emissions (w : World) : List Emission :=
  w.emitter.finished.map Prod.fst ++ w.emitter.deliveries.map Delivery.event

/-- The calls of the handler of subscription `i`. -/
def World.handledBy (w : World) (i : ℕ) : List Emission :=
  (w.handled.filter fun x => x.1 = i).map Prod.snd

/-! ## Which subscriptions are registered -/

/-- Subscription `i` is open, and its tenant id is this text. -/
def World.Listens (w : World) (i : ℕ) (tenantId : JsString) : Prop :=
  ∃ s, w.subscriptions[i]? = some s ∧ s.closed = false ∧ s.tenantId = tenantId

/-- The emitter has each open subscription once, under its tenant id. -/
structure Registered (w : World) : Prop where
  nodup : w.emitter.listeners.Nodup
  mem : ∀ tenantId i, (tenantId, i) ∈ w.emitter.listeners ↔ w.Listens i tenantId

section Registered

variable {w w' : World}

theorem Registered.mem_listenersOf (h : Registered w) {tenantId : JsString} {i : ℕ} :
    i ∈ w.emitter.listenersOf tenantId ↔ w.Listens i tenantId := by
  rw [Emitter.mem_listenersOf, h.mem]

theorem listens_subscribe {tenantId tenantId' : JsString} {i : ℕ} :
    (w.subscribeVerifications tenantId).Listens i tenantId' ↔
      w.Listens i tenantId' ∨ (i = w.subscriptions.length ∧ tenantId' = tenantId) := by
  unfold World.Listens World.subscribeVerifications
  dsimp only
  -- an old number, the new one, or none of the list
  rcases Nat.lt_trichotomy i w.subscriptions.length with hlt | rfl | hgt
  · rw [List.getElem?_append_left hlt]
    constructor
    · exact .inl
    · rintro (h | ⟨rfl, -⟩)
      · exact h
      · omega
  · rw [List.getElem?_concat_length, List.getElem?_eq_none (le_refl _)]
    constructor
    · rintro ⟨s, hs, -, rfl⟩
      obtain rfl := Option.some.inj hs
      exact .inr ⟨rfl, rfl⟩
    · rintro (⟨s, hs, -⟩ | ⟨-, rfl⟩)
      · cases hs
      · exact ⟨_, rfl, rfl, rfl⟩
  · have hout : (w.subscriptions ++ [⟨tenantId, false⟩])[i]? = none := by
      rw [List.getElem?_eq_none_iff, List.length_append, List.length_singleton]
      omega
    rw [hout, List.getElem?_eq_none hgt.le]
    constructor
    · rintro ⟨s, hs, -⟩
      cases hs
    · rintro (⟨s, hs, -⟩ | ⟨rfl, -⟩)
      · cases hs
      · omega

theorem Registered.subscribe (h : Registered w) (tenantId : JsString) :
    Registered (w.subscribeVerifications tenantId) := by
  have hnew : (tenantId, w.subscriptions.length) ∉ w.emitter.listeners := by
    intro hmem
    obtain ⟨s, hs, -⟩ := (h.mem _ _).mp hmem
    rw [List.getElem?_eq_none (le_refl _)] at hs
    cases hs
  refine ⟨Emitter.nodup_on h.nodup hnew, fun tenantId' i => ?_⟩
  show _ ∈ (w.emitter.on tenantId w.subscriptions.length).listeners ↔ _
  rw [Emitter.mem_on, h.mem, listens_subscribe, Prod.mk.injEq]
  exact or_congr_right and_comm

theorem close_cases {i : ℕ} (hc : w.close i = some w') : ∃ s, w.subscriptions[i]? = some s ∧
    w' = { w with
      emitter := w.emitter.off s.tenantId i
      subscriptions := w.subscriptions.set i { s with closed := true } } := by
  obtain ⟨s, hs, rfl⟩ := Option.map_eq_some_iff.mp hc
  exact ⟨s, hs, rfl⟩

theorem listens_close {i : ℕ} (hc : w.close i = some w') {j : ℕ} {tenantId : JsString} :
    w'.Listens j tenantId ↔ w.Listens j tenantId ∧ j ≠ i := by
  obtain ⟨s, hs, rfl⟩ := close_cases hc
  have hlt := (List.getElem?_eq_some_iff.mp hs).1
  unfold World.Listens
  dsimp only
  by_cases hji : j = i
  · subst hji
    rw [List.getElem?_set_self hlt]
    constructor
    · rintro ⟨x, hx, hopen, -⟩
      obtain rfl := Option.some.inj hx
      cases hopen
    · exact fun h => absurd rfl h.2
  · rw [List.getElem?_set_ne fun h => hji h.symm]
    exact (and_iff_left hji).symm

theorem Registered.close (h : Registered w) {i : ℕ} (hc : w.close i = some w') : Registered w' := by
  have hlistens : ∀ j tenantId, w'.Listens j tenantId ↔ w.Listens j tenantId ∧ j ≠ i :=
    fun j tenantId => listens_close hc
  obtain ⟨s, hs, rfl⟩ := close_cases hc
  refine ⟨Emitter.nodup_off h.nodup, fun tenantId j => ?_⟩
  show _ ∈ (w.emitter.off s.tenantId i).listeners ↔ _
  rw [Emitter.mem_off h.nodup, h.mem, hlistens]
  constructor
  · rintro ⟨⟨x, hx, hopen, rfl⟩, hne⟩
    refine ⟨⟨x, hx, hopen, rfl⟩, fun hji => hne ?_⟩
    subst hji
    obtain rfl := Option.some.inj (hs.symm.trans hx)
    rfl
  · rintro ⟨hlisten, hne⟩
    exact ⟨hlisten, fun heq => hne (Prod.mk.inj heq).2⟩

theorem mem_openOf {tenantId : JsString} {i : ℕ} : i ∈ w.openOf tenantId ↔
    ∃ s, w.subscriptions[i]? = some s ∧ s.closed = false ∧ sameTenant s.tenantId tenantId = true := by
  unfold World.openOf
  rw [List.mem_filter, List.mem_range, Option.any_eq_true]
  constructor
  · rintro ⟨-, s, hs, hopen⟩
    rw [Bool.and_eq_true, Bool.not_eq_true'] at hopen
    exact ⟨s, hs, hopen⟩
  · rintro ⟨s, hs, hopen, htenant⟩
    refine ⟨(List.getElem?_eq_some_iff.mp hs).1, s, hs, ?_⟩
    rw [hopen, htenant]
    rfl

theorem listens_iff_openOf {tenantId : JsString} {i : ℕ} : w.Listens i tenantId ↔
    i ∈ w.openOf tenantId ∧ w.subscriptions[i]?.map Subscription.tenantId = some tenantId := by
  rw [mem_openOf]
  constructor
  · rintro ⟨s, hs, hopen, rfl⟩
    refine ⟨⟨s, hs, hopen, ?_⟩, ?_⟩
    · show (decide (s.tenantId = s.tenantId) || _) = true
      rw [decide_eq_true rfl, Bool.true_or]
    · rw [hs]
      rfl
  · rintro ⟨⟨s, hs, hopen, -⟩, htext⟩
    rw [hs] at htext
    exact ⟨s, hs, hopen, Option.some.inj htext⟩

end Registered

/-! ## The calls of the handlers -/

/-- The subscription was open when the event was emitted, and has its tenant id. -/
def World.Due (w : World) (i : ℕ) (e : Emission) : Prop :=
  i ∈ e.audience ∧ w.subscriptions[i]?.map Subscription.tenantId = some e.event.tenantId

instance (w : World) (i : ℕ) (e : Emission) : Decidable (w.Due i e) :=
  inferInstanceAs (Decidable (_ ∧ _))

/-- `l` has each subscription once that `e` is due to. -/
structure Audience (w : World) (e : Emission) (l : List ℕ) : Prop where
  nodup : l.Nodup
  lt_length : ∀ i ∈ e.audience, i < w.subscriptions.length
  mem_iff : ∀ i, i ∈ l ↔ w.Due i e

/-- The events with the listeners that have been called. -/
def World.turns (w : World) : List (Emission × List ℕ) :=
  w.emitter.finished ++ w.emitter.deliveries.map fun d => (d.event, d.called)

/-- The emitter is as the subscriptions say, every call of a handler is one of its own, and
    the events are those of the audit side. -/
structure Delivering (w : World) : Prop where
  emitted : w.emissions.map (fun e => (e.time, e.event)) = w.audit.emitted
  registered : Registered w
  single : w.emitter.deliveries.length ≤ 1
  audience : w.emitter.Keeps (Audience w)
  handled : w.handled = w.turns.flatMap fun x => x.2.map fun i => (i, x.1)

section Delivering

variable {w w' : World}

theorem delivering_empty (h : Empty w) : Delivering w := by
  obtain ⟨-, hemitted, hemitter, hsubscriptions, hhandled⟩ := h
  refine ⟨?_, ⟨?_, fun tenantId i => ?_⟩, ?_, ?_, ?_⟩
  · rw [hemitted, World.emissions, hemitter]
    rfl
  · rw [hemitter]
    exact List.nodup_nil
  · rw [hemitter]
    constructor
    · exact fun hmem => (nomatch hmem)
    · rintro ⟨s, hs, -⟩
      rw [hsubscriptions] at hs
      cases hs
  · rw [hemitter]
    exact Nat.zero_le _
  · rw [hemitter]
    exact Emitter.keeps_init
  · rw [hhandled, World.turns, hemitter]
    rfl

/-- The rest of the audit side does not matter. -/
theorem Delivering.withAudit (h : Delivering w) {audit : Audit.World}
    (hemitted : audit.emitted = w.audit.emitted) : Delivering { w with audit := audit } :=
  ⟨h.emitted.trans hemitted.symm, ⟨h.registered.nodup, h.registered.mem⟩, h.single, ⟨fun d hd => ⟨(h.audience.underWay d hd).nodup,
      (h.audience.underWay d hd).lt_length, (h.audience.underWay d hd).mem_iff⟩,
    fun x hx => ⟨(h.audience.ended x hx).nodup, (h.audience.ended x hx).lt_length,
      (h.audience.ended x hx).mem_iff⟩⟩, h.handled⟩

/-- The audience of an event stays when subscriptions keep their tenant ids. -/
theorem Audience.mono {e : Emission} {l : List ℕ} (h : Audience w e l)
    (hlength : w.subscriptions.length ≤ w'.subscriptions.length)
    (htext : ∀ i < w.subscriptions.length, w'.subscriptions[i]?.map Subscription.tenantId =
      w.subscriptions[i]?.map Subscription.tenantId) : Audience w' e l := by
  refine ⟨h.nodup, fun i hi => (h.lt_length i hi).trans_le hlength, fun i => ?_⟩
  rw [h.mem_iff]
  exact and_congr_right fun hi => by rw [htext i (h.lt_length i hi)]

theorem Delivering.emit (h : Delivering w) (hidle : w.emitter.deliveries = [])
    (event : VerificationEvent) : Delivering (w.emitVerificationEvent event) := by
  have hmem : ∀ i, i ∈ w.emitter.listenersOf event.tenantId ↔
      i ∈ w.openOf event.tenantId ∧
        w.subscriptions[i]?.map Subscription.tenantId = some event.tenantId := fun i =>
    h.registered.mem_listenersOf.trans listens_iff_openOf
  have haudience : Audience w ⟨w.audit.clock, event, w.openOf event.tenantId⟩
      (w.emitter.listenersOf event.tenantId) := by
    refine ⟨Emitter.nodup_listenersOf h.registered.nodup, fun i hi => ?_, hmem⟩
    obtain ⟨s, hs, -⟩ := mem_openOf.mp hi
    exact (List.getElem?_eq_some_iff.mp hs).1
  have hkeeps : (w.emitter.emit event.tenantId ⟨w.audit.clock, event,
      w.openOf event.tenantId⟩).Keeps (Audience w) := h.audience.emit haudience
  have hturns : (w.emitVerificationEvent event).turns =
      w.turns ++ [(⟨w.audit.clock, event, w.openOf event.tenantId⟩, [])] := by
    show w.emitter.finished ++ _ = w.emitter.finished ++ _ ++ _
    rw [hidle, List.map_nil, List.append_nil]
    show w.emitter.finished ++ List.map _ (_ :: w.emitter.deliveries) = _
    rw [hidle]
    rfl
  refine ⟨?_, ⟨h.registered.nodup, h.registered.mem⟩, ?_, ?_, ?_⟩
  · show (w.emitter.finished.map Prod.fst ++ _ :: w.emitter.deliveries.map _).map _ =
      w.audit.emitted ++ _
    rw [← h.emitted, World.emissions, hidle, List.map_append, List.map_append, List.map_nil,
      List.append_assoc]
    rfl
  · show (_ :: w.emitter.deliveries).length ≤ 1
    rw [hidle]
    exact le_refl _
  · exact hkeeps.mono fun e l hl => ⟨hl.nodup, hl.lt_length, hl.mem_iff⟩
  · -- nobody has been called yet
    rw [hturns, List.flatMap_append]
    show w.handled = _ ++ []
    rw [List.append_nil, h.handled]

theorem Delivering.subscribe (h : Delivering w) (tenantId : JsString) :
    Delivering (w.subscribeVerifications tenantId) := by
  refine ⟨h.emitted, h.registered.subscribe tenantId, h.single, ?_, h.handled⟩
  have hkeeps := h.audience.on tenantId w.subscriptions.length
  refine hkeeps.mono fun e l hl => hl.mono ?_ fun i hi => ?_
  · show _ ≤ (w.subscriptions ++ [_]).length
    rw [List.length_append]
    omega
  · show (w.subscriptions ++ [_])[i]?.map _ = _
    rw [List.getElem?_append_left hi]

theorem Delivering.close (h : Delivering w) {i : ℕ} (hc : w.close i = some w') :
    Delivering w' := by
  have hregistered := h.registered.close hc
  obtain ⟨s, hs, rfl⟩ := close_cases hc
  refine ⟨h.emitted, hregistered, h.single, ?_, h.handled⟩
  have hkeeps := h.audience.off s.tenantId i
  refine hkeeps.mono fun e l hl => hl.mono ?_ fun j hj => ?_
  · show _ ≤ (w.subscriptions.set i _).length
    rw [List.length_set]
  · show (w.subscriptions.set i _)[j]?.map _ = _
    by_cases hji : i = j
    · subst hji
      rw [List.getElem?_set_self hj, hs]
      rfl
    · rw [List.getElem?_set_ne hji]

/-- Everything that `call` can do: the guard of `wrapped` is met by every listener. -/
theorem call_cases (h : Delivering w) (hc : w.call = some w') : ∃ e called i rest,
    w.emitter.deliveries = [⟨e, called, false, i :: rest⟩] ∧
      w' = { w with
        emitter := { w.emitter with deliveries := [⟨e, called ++ [i], true, rest⟩] }
        handled := w.handled ++ [(i, e)] } := by
  unfold World.call at hc
  split at hc
  · next e called i rest ds hds =>
      have hnil : ds = [] := by
        have hlength := h.single
        rw [hds, List.length_cons] at hlength
        exact List.eq_nil_of_length_eq_zero (by omega)
      subst hnil
      have htext : w.subscriptions[i]?.map Subscription.tenantId = some e.event.tenantId := by
        have haudience := h.audience.underWay _ (hds ▸ List.mem_cons_self)
        have hmem : i ∈ called ++ i :: rest := List.mem_append_right _ List.mem_cons_self
        exact ((haudience.mem_iff i).mp hmem).2
      obtain ⟨m, hm, rfl⟩ := Option.map_eq_some_iff.mp hc
      rw [if_pos htext]
      have hcall : w.emitter.call =
          some { w.emitter with deliveries := [⟨e, called ++ [i], true, rest⟩] } := by
        unfold Emitter.call
        rw [hds]
      obtain rfl := Option.some.inj (hcall.symm.trans hm)
      exact ⟨e, called, i, rest, hds, rfl⟩
  · cases hc

theorem Delivering.call (h : Delivering w) (hc : w.call = some w') : Delivering w' := by
  obtain ⟨e, called, i, rest, hds, rfl⟩ := call_cases h hc
  have hcall : w.emitter.call =
      some { w.emitter with deliveries := [⟨e, called ++ [i], true, rest⟩] } := by
    unfold Emitter.call
    rw [hds]
  refine ⟨?_, ⟨h.registered.nodup, h.registered.mem⟩, le_refl _, ?_, ?_⟩
  · rw [← h.emitted, World.emissions, World.emissions, hds]
    rfl
  · exact (h.audience.call hcall).mono fun e l hl => ⟨hl.nodup, hl.lt_length, hl.mem_iff⟩
  · show w.handled ++ [(i, e)] = (w.emitter.finished ++ [(e, called ++ [i])]).flatMap _
    rw [h.handled, World.turns, hds, List.map_singleton, List.flatMap_append, List.flatMap_append,
      List.flatMap_singleton, List.flatMap_singleton, List.map_append, List.append_assoc]
    rfl

theorem Delivering.ret (h : Delivering w) {m : Emitter JsString ℕ Emission}
    (hm : w.emitter.ret = some m) : Delivering { w with emitter := m } := by
  have haudience := h.audience.ret hm
  obtain ⟨e, called, rest, ds, hds, rfl⟩ := Emitter.ret_cases hm
  have hsingle := h.single
  rw [hds] at hsingle
  refine ⟨?_, ⟨h.registered.nodup, h.registered.mem⟩, hsingle, ?_, ?_⟩
  · rw [← h.emitted, World.emissions, World.emissions, hds]
    rfl
  · exact haudience.mono fun e l hl => ⟨hl.nodup, hl.lt_length, hl.mem_iff⟩
  · rw [h.handled, World.turns, hds]
    rfl

theorem Delivering.finish (h : Delivering w) {m : Emitter JsString ℕ Emission}
    (hm : w.emitter.finish = some m) : Delivering { w with emitter := m } := by
  have haudience := h.audience.finish hm
  obtain ⟨e, called, ds, hds, rfl⟩ := Emitter.finish_cases hm
  have hsingle := h.single
  rw [hds, List.length_cons] at hsingle
  refine ⟨?_, ⟨h.registered.nodup, h.registered.mem⟩, ?_, ?_, ?_⟩
  · have hmove : (w.emitter.finished ++ [(e, called)]).map Prod.fst ++ ds.map Delivery.event =
        w.emissions := by
      rw [World.emissions, hds, List.map_append, List.append_assoc]
      rfl
    show ((w.emitter.finished ++ [(e, called)]).map Prod.fst ++ ds.map Delivery.event).map _ = _
    rw [hmove]
    exact h.emitted
  · show ds.length ≤ 1
    omega
  · exact haudience.mono fun e l hl => ⟨hl.nodup, hl.lt_length, hl.mem_iff⟩
  · -- the event moves from one list to the other
    rw [h.handled, World.turns, hds, List.map_cons, ← List.singleton_append, ← List.append_assoc]
    rfl

/-- One step of the environment. -/
theorem Delivering.env (h : Delivering w) {e : Env} (he : env e w = some w') : Delivering w' := by
  cases e with
  | audit e =>
      obtain ⟨audit, haudit, rfl⟩ := Option.map_eq_some_iff.mp he
      exact h.withAudit (env_emitted haudit)
  | subscribe tenantId =>
      obtain ⟨-, heq⟩ := Option.ite_none_right_eq_some.mp he
      obtain rfl := Option.some.inj heq
      exact h.subscribe tenantId
  | close i =>
      obtain ⟨-, hc⟩ := Option.ite_none_right_eq_some.mp he
      exact h.close hc
  | call => exact h.call he
  | ret handler =>
      obtain ⟨m, hm, rfl⟩ := Option.map_eq_some_iff.mp he
      rw [wrapped_eq] at hm
      exact h.ret hm
  | finish =>
      obtain ⟨m, hm, rfl⟩ := Option.map_eq_some_iff.mp he
      exact h.finish hm

/-- Everything that an operation can do. -/
theorem exec_cases {pg : Postgres} {t : ℕ} {o : Op} {ω : Oracle} {r : Except DbError o.Resp}
    (hx : exec pg t o ω w = some (r, w')) : w.emitter.deliveries = [] ∧
      ((∃ event, o = .emit event ∧ r ≍ (.ok () : Except DbError Unit) ∧
          w' = w.emitVerificationEvent event) ∨
        ((∀ event, o ≠ .emit event) ∧
          ∃ audit, Audit.exec pg t o ω w.audit = some (r, audit) ∧
            w' = { w with audit := audit })) := by
  unfold exec at hx
  obtain ⟨hidle, hx⟩ := Option.ite_none_right_eq_some.mp hx
  refine ⟨List.isEmpty_iff.mp hidle, ?_⟩
  cases o with
  | emit event =>
      cases hx
      exact .inl ⟨event, rfl, .rfl, rfl⟩
  | _ =>
      obtain ⟨⟨r', audit⟩, haudit, heq⟩ := Option.map_eq_some_iff.mp hx
      cases heq
      exact .inr ⟨fun _ => nofun, audit, haudit, rfl⟩

theorem Delivering.exec (h : Delivering w) {pg : Postgres} {t : ℕ} {o : Op} {ω : Oracle}
    {r : Except DbError o.Resp} (hx : exec pg t o ω w = some (r, w')) : Delivering w' := by
  obtain ⟨hidle, ⟨event, -, -, rfl⟩ | ⟨ho, audit, haudit, rfl⟩⟩ := exec_cases hx
  · exact h.emit hidle event
  · exact h.withAudit (exec_emitted ho haudit)

/-- The calls of one handler: those of the events that are over and due to it, then that
    of the event under way if it has been called. -/
theorem Delivering.handledBy (h : Delivering w) (i : ℕ) : w.handledBy i =
    ((w.emitter.finished.map Prod.fst).filter fun e => w.Due i e) ++
      (w.emitter.deliveries.filter fun d => i ∈ d.called).map Delivery.event := by
  have hnodup : ∀ x ∈ w.turns, x.2.Nodup := by
    intro x hx
    rcases List.mem_append.mp hx with hx | hx
    · exact (h.audience.ended x hx).nodup
    · obtain ⟨d, hd, rfl⟩ := List.mem_map.mp hx
      exact (List.nodup_append.mp (h.audience.underWay d hd).nodup).1
  have hdue : w.emitter.finished.filter (fun x => i ∈ x.2) =
      w.emitter.finished.filter fun x => w.Due i x.1 :=
    List.filter_congr fun x hx => decide_eq_decide.mpr ((h.audience.ended x hx).mem_iff i)
  unfold World.handledBy
  rw [h.handled, Emitter.calls_of_listener hnodup, World.turns, List.filter_append,
    List.map_append, hdue, List.filter_map, List.filter_map, List.map_map]
  rfl

end Delivering

/-! ## Runs -/

section Runs

variable {pg : Postgres} {good : State → Label Call Oracle Env → Prop} {c : State}

theorem exec_audit {t : ℕ} {o : Op} {ω : Oracle} {w w' : World} {r : Except DbError o.Resp}
    (hx : exec pg t o ω w = some (r, w')) : Audit.exec pg t o ω w.audit = some (r, w'.audit) := by
  obtain ⟨-, ⟨event, rfl, hr, rfl⟩ | ⟨-, audit, haudit, rfl⟩⟩ := exec_cases hx
  · cases hr
    rfl
  · exact haudit

/-- Whatever the handlers do, `emit` returns. -/
theorem exec_emit {t : ℕ} {event : VerificationEvent} {ω : Oracle} {w w' : World}
    {r : Except DbError Unit} (hx : exec pg t (.emit event) ω w = some (r, w')) : r = .ok () := by
  obtain ⟨-, ⟨_, -, hr, -⟩ | ⟨ho, -⟩⟩ := exec_cases hx
  · exact eq_of_heq hr
  · exact absurd rfl (ho event)

/-- The environment acts on the audit side as `Audit.env` does, or not at all. -/
theorem env_audit {e : Env} {w w' : World} (he : env e w = some w') :
    w'.audit = w.audit ∨ ∃ e', Audit.env e' w.audit = some w'.audit := by
  cases e with
  | audit e =>
      obtain ⟨audit, haudit, rfl⟩ := Option.map_eq_some_iff.mp he
      exact .inr ⟨e, haudit⟩
  | subscribe tenantId =>
      obtain ⟨-, heq⟩ := Option.ite_none_right_eq_some.mp he
      obtain rfl := Option.some.inj heq
      exact .inl rfl
  | close i =>
      obtain ⟨-, hc⟩ := Option.ite_none_right_eq_some.mp he
      obtain ⟨s, -, rfl⟩ := close_cases hc
      exact .inl rfl
  | call =>
      have hc : w.call = some w' := he
      unfold World.call at hc
      split at hc
      · obtain ⟨m, -, rfl⟩ := Option.map_eq_some_iff.mp hc
        exact .inl rfl
      · cases hc
  | ret handler =>
      obtain ⟨m, -, rfl⟩ := Option.map_eq_some_iff.mp he
      exact .inl rfl
  | finish =>
      obtain ⟨m, -, rfl⟩ := Option.map_eq_some_iff.mp he
      exact .inl rfl

/-- Subscribers do not show on the audit side: the calls run as they do without them. -/
theorem audit_of_reach (h : (fanout pg).Reach Empty good c) :
    (system pg).Reach (fun w => w.store = .init [] ∧ w.emitted = []) (fun _ _ => True)
      ⟨c.world.audit, c.log, c.threads⟩ := by
  refine System.Reach.invariant (I := fun c : State => (system pg).Reach
    (fun w => w.store = .init [] ∧ w.emitted = []) (fun _ _ => True)
      ⟨c.world.audit, c.log, c.threads⟩) ?_ ?_ ?_ ?_ h
  · exact fun w hw => .init ⟨hw.1, hw.2.1⟩
  · exact fun c a _ ih _ => ih.step (l := .start a) trivial rfl
  · intro c t ω a past o k r w _ ih _ ht hx
    exact ih.step (l := .resume t ω) trivial
      (System.step_resume (c := ⟨c.world.audit, c.log, c.threads⟩) ht (exec_audit hx))
  · intro c e w _ ih _ hw
    obtain hsame | ⟨e', he'⟩ := env_audit hw
    · dsimp only
      rw [hsame]
      exact ih
    · refine ih.step (l := .env e') trivial ?_
      show (Audit.env e' c.world.audit).map _ = _
      rw [he']
      rfl

theorem delivering_of_reach (h : (fanout pg).Reach Empty good c) : Delivering c.world :=
  h.world_invariant (I := fun w _ => Delivering w) (fun _ => delivering_empty)
    (fun _ _ _ _ _ _ _ ih hx => ih.exec hx) fun _ _ _ _ ih he => ih.env he

/-- A delivery always has a next step, however the handler that runs ends. -/
theorem proceeds {w : World} (h : w.emitter.deliveries ≠ []) (handler : Except JsString Unit) :
    ∃ e ∈ [Env.call, .ret handler, .finish], (env e w).isSome = true := by
  cases hds : w.emitter.deliveries with
  | nil => exact absurd hds h
  | cons d ds =>
      obtain ⟨e, called, running, rest⟩ := d
      cases running with
      | true =>
          refine ⟨.ret handler, by simp, ?_⟩
          simp [env, wrapped_eq, listenerEnds, Emitter.ret, hds]
      | false =>
          cases rest with
          | nil =>
              refine ⟨.finish, by simp, ?_⟩
              simp [env, Emitter.finish, hds]
          | cons i rest =>
              refine ⟨.call, by simp, ?_⟩
              simp [env, World.call, Emitter.call, hds]

end Runs

/-- The fan-out is exact.  Handlers have been called for the events that are over and due to
    them, in their order, and for the event under way those at its head. -/
structure Exact (c : State) : Prop where
  emits : c.world.emissions.map Emission.event = c.log.filterMap fun x => emitted? x.act
  appends : ∀ (t : ℕ) (th : Thread sig DbError Result Call) payload out,
    c.threads[t]? = some th → th.call = .append payload → th.rest.outcome? = some out →
      th.past.filterMap emitted? = completed payload out ∧
        (Committed th.past → ∃ a, out = .ok (.appended a))
  committed : ∀ e ∈ c.world.emissions, InTable c.world.audit.store.db e.event
  handled : ∀ i, c.world.handledBy i =
    ((c.world.emitter.finished.map Prod.fst).filter fun e => c.world.Due i e) ++
      (c.world.emitter.deliveries.filter fun d => i ∈ d.called).map Delivery.event
  underWay : ∀ d ∈ c.world.emitter.deliveries, (d.called ++ d.rest).Nodup ∧
    ∀ i, i ∈ d.called ++ d.rest ↔ c.world.Due i d.event
  proceeds : c.world.emitter.deliveries ≠ [] → ∀ handler,
    ∃ e ∈ [Env.call, .ret handler, .finish], (env e c.world).isSome = true

/-- Whatever the handlers do: an append emits one event for a committed row, and a subscription
    is called once, in the order of emission, for each event under its text that was emitted
    while it was open. -/
theorem fanout_exact (pg : Postgres) {c : State}
    (h : (fanout pg).Reach Empty (fun _ _ => True) c) : Exact c := by
  have hdelivering := delivering_of_reach h
  have haudit := audit_of_reach h
  have hinit : ∀ w : Audit.World, (w.store = .init [] ∧ w.emitted = []) → w.emitted = [] :=
    fun _ hw => hw.2
  refine ⟨?_, fun t th payload out hth hcall hout => ?_, fun e he => ?_, hdelivering.handledBy,
    fun d hd => ?_, proceeds⟩
  · rw [← emitted_eq_log hinit haudit, ← hdelivering.emitted, List.map_map]
    rfl
  · have hends := ends_append payload
    rw [← hcall] at hends
    refine h.ends hth hends hout fun event e hmem => ?_
    -- no emit in the log has failed
    have hlog : ∀ x ∈ c.log, ∀ event e, x.act ≠ ⟨.emit event, .error e⟩ := by
      refine h.log_forall fun w t o ω r w' hx event e heq => ?_
      cases heq
      have hemit : exec pg t (.emit event) ω w = some (.error e, w') := hx
      cases exec_emit hemit
    exact hlog _ ((h.mem_log hth).mp hmem) event e rfl
  · have hmem : (e.time, e.event) ∈ c.world.audit.emitted :=
      hdelivering.emitted ▸ List.mem_map_of_mem he
    exact emitted_committed hinit haudit _ hmem
  · have haudience := hdelivering.audience.underWay d hd
    exact ⟨haudience.nodup, haudience.mem_iff⟩

/-! ## One append with two subscriptions -/

def recorded (tenantId : JsString) : ChainedAuditPayload :=
  { integrityCheck tenantId with action := js "verification.recorded" }

def noSubscribers : World := ⟨initial, .init, [], []⟩

/-- The first handler is called, closes the second subscription and throws. -/
def closes (tenantId : JsString) : List (Label Call Oracle Env) :=
  [.env (.subscribe tenantLower), .env (.subscribe tenantLower),
    .start (.append (recorded tenantId))] ++ List.replicate 7 (.resume 0 .proceed)
      ++ [.env .call, .env (.close 1), .env (.ret (.error (js "Error")))]

theorem fanout_exact_of_two : ∃ c, (fanout postgres).run (.init noSubscribers)
      (closes tenantLower) = some c ∧ c.world.handled.map Prod.fst = [0] ∧ Exact c := by
  have hrun : (((fanout postgres).run (.init noSubscribers) (closes tenantLower)).map
      fun c => c.world.handled.map Prod.fst) = some [0] := by
    decide +kernel
  obtain ⟨c, hc, hhandled⟩ := Option.map_eq_some_iff.mp hrun
  refine ⟨c, hc, hhandled, fanout_exact postgres (System.Reach.run (.init ?_)
    (System.keeps_of_forall fun _ _ _ => trivial) hc)⟩
  exact ⟨rfl, rfl, rfl, rfl, rfl⟩

/-- The second handler is called although its subscription has been closed.  A subscription
    under another spelling of the tenant's UUID is never called. -/
theorem called_after_close :
    (¬ ∀ (pg : Postgres) (c c' : State), (fanout pg).Reach Empty (fun _ _ => True) c →
      (fanout pg).step c (.env .call) = some c' → ∀ i,
        c'.world.handled.map Prod.fst = c.world.handled.map Prod.fst ++ [i] →
          ∃ s, c.world.subscriptions[i]? = some s ∧ s.closed = false) ∧
    ¬ ∀ (pg : Postgres) (c : State), (fanout pg).Reach Empty (fun _ _ => True) c →
      c.world.emitter.deliveries = [] → ∀ e ∈ c.world.emissions, ∀ i ∈ e.audience,
        (i, e) ∈ c.world.handled := by
  have hempty : Empty noSubscribers := ⟨rfl, rfl, rfl, rfl, rfl⟩
  constructor
  · intro h
    -- the first handler has closed the second subscription, which is called next
    have hrun : (((fanout postgres).run (.init noSubscribers) (closes tenantLower)).map fun c =>
        (c.world.handled.map Prod.fst, c.world.subscriptions[1]?.map Subscription.closed,
          ((fanout postgres).step c (.env .call)).map fun c' => c'.world.handled.map Prod.fst)) =
        some ([0], some true, some [0, 1]) := by
      decide +kernel
    obtain ⟨c, hc, hfacts⟩ := Option.map_eq_some_iff.mp hrun
    obtain ⟨hhandled, hrest⟩ := Prod.mk.inj hfacts
    obtain ⟨hclosed, hstep⟩ := Prod.mk.inj hrest
    obtain ⟨c', hc', hcalled⟩ := Option.map_eq_some_iff.mp hstep
    have hreach : (fanout postgres).Reach Empty (fun _ _ => True) c :=
      System.Reach.run (.init hempty) (System.keeps_of_forall fun _ _ _ => trivial) hc
    obtain ⟨s, hs, hopen⟩ := h postgres c c' hreach hc' 1 (by rw [hcalled, hhandled]; rfl)
    rw [hs, Option.map_some, hopen] at hclosed
    cases hclosed
  · intro h
    -- the event carries the UUID in upper case and finds no listener
    have hrun : (((fanout postgres).run (.init noSubscribers) ([.env (.subscribe tenantLower),
        .start (.append (recorded tenantUpper))] ++ List.replicate 7 (.resume 0 .proceed)
          ++ [.env .finish])).map fun c => (c.world.emitter.deliveries.length,
            c.world.emissions.map Emission.audience, c.world.handled.length)) =
        some (0, [[0]], 0) := by
      decide +kernel
    obtain ⟨c, hc, hfacts⟩ := Option.map_eq_some_iff.mp hrun
    obtain ⟨hidle, hrest⟩ := Prod.mk.inj hfacts
    obtain ⟨haudience, hhandled⟩ := Prod.mk.inj hrest
    have hreach : (fanout postgres).Reach Empty (fun _ _ => True) c :=
      System.Reach.run (.init hempty) (System.keeps_of_forall fun _ _ _ => trivial) hc
    have hmem : [0] ∈ c.world.emissions.map Emission.audience := by
      rw [haudience]
      exact List.mem_singleton.mpr rfl
    obtain ⟨e, he, heq⟩ := List.mem_map.mp hmem
    have hcalled := h postgres c hreach (List.eq_nil_of_length_eq_zero hidle) e he 0
      (by rw [heq]; exact List.mem_singleton.mpr rfl)
    rw [List.eq_nil_of_length_eq_zero hhandled] at hcalled
    cases hcalled

end ZeroAuth.Audit.Fanout
