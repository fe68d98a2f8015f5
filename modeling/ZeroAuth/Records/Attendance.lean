/-
  ZeroAuth.Records.Attendance

  What the result of an attendance row says about the verification that it names.

  The two tables of events only grow, and a verification is never changed; so what a
  call has read of one stays true (`Entered`).  `attendance_result` puts that together
  with the history that `createAttendanceEvent` has when it writes its row
  (`before_createAttendanceEvent`).

  The verification is looked up by tenant and environment alone, so one user's pass
  marks another user present (`pass_marks_other`).
-/

import ZeroAuth.Records.Platform
import ZeroAuth.Tenant.Runs

namespace ZeroAuth.Records

open ZeroAuth.Lib ZeroAuth.Js ZeroAuth.Pg ZeroAuth.Tenant
open ZeroAuth.Audit (ofNullable)

/-! ## Single statements -/

section Statements

variable {pg : Jsonb} {t : ℕ} {ω : Oracle} {w w' : World} {tenantId environment : JsString}

theorem statement_cases {α : Type} {run : Except RecordFailure α × World}
    {r : Except RecordFailure α} (h : statement ω w run = some (r, w')) :
    (∃ message, r = .error (recordError message) ∧ w' = w) ∨ run = (r, w') := by
  unfold statement at h
  split at h
  · next message _ =>
      obtain ⟨rfl, rfl⟩ := Prod.mk.inj (Option.some.inj h)
      exact .inl ⟨message, rfl, rfl⟩
  · exact .inr (Option.some.inj h)

/-- A new verification has a fresh id and the values of the INSERT. -/
theorem insertVerification_cases {v : NewVerification} {r : Except RecordFailure VerificationRecord}
    (h : recordExec pg t (.insertVerification tenantId environment v) ω w = some (r, w')) :
    (∃ e, r = .error e ∧ w' = w) ∨ ∃ row, r = .ok row ∧
      (∀ x ∈ w.verifications, x.id ≠ row.id) ∧ row.userId = v.userId ∧ row.deviceId = v.deviceId ∧
      row.result = v.result ∧ row.occurredAt = v.occurredAt ∧
      w' = { w with verifications := w.verifications ++ [row] } := by
  rcases statement_cases h with ⟨message, rfl, rfl⟩ | h
  · exact .inl ⟨_, rfl, rfl⟩
  unfold insertVerification at h
  split at h
  · next u apiKeyId _ _ =>
      split at h
      · obtain ⟨rfl, rfl⟩ := Prod.mk.inj h
        exact .inl ⟨_, rfl, rfl⟩
      · next hfresh =>
          obtain ⟨rfl, rfl⟩ := Prod.mk.inj h
          refine .inr ⟨_, rfl, fun x hx hid => hfresh ?_, rfl, rfl, rfl, rfl, rfl⟩
          exact List.any_eq_true.mpr ⟨x, hx, decide_eq_true hid⟩
  · obtain ⟨rfl, rfl⟩ := Prod.mk.inj h
    exact .inl ⟨_, rfl, rfl⟩

/-- The row has the values of the INSERT. -/
structure Written (tenantId environment : JsString) (v : NewAttendance) (a : AttendanceEvent) :
    Prop where
  tenant : Uuid.parse tenantId = some a.tenantId
  environment : a.environment = environment
  verificationId : a.verificationId = v.verificationId
  result : a.result = v.result

theorem insertAttendance_cases {v : NewAttendance} {r : Except RecordFailure AttendanceEvent}
    (h : recordExec pg t (.insertAttendance tenantId environment v) ω w = some (r, w')) :
    (∃ e, r = .error e ∧ w' = w) ∨ ∃ a : AttendanceEvent, r = .ok a ∧
      Written tenantId environment v a ∧ w' = { w with attendance := w.attendance ++ [a] } := by
  rcases statement_cases h with ⟨message, rfl, rfl⟩ | h
  · exact .inl ⟨_, rfl, rfl⟩
  unfold insertAttendance at h
  split at h
  · next u hu =>
      split at h
      · obtain ⟨rfl, rfl⟩ := Prod.mk.inj h
        exact .inl ⟨_, rfl, rfl⟩
      · obtain ⟨rfl, rfl⟩ := Prod.mk.inj h
        exact .inr ⟨_, rfl, ⟨hu, rfl, rfl, rfl⟩, rfl⟩
  · obtain ⟨rfl, rfl⟩ := Prod.mk.inj h
    exact .inl ⟨_, rfl, rfl⟩

/-- What the SELECT of a verification has found. -/
structure Found (w : World) (tenantId environment : JsString) (r : VerificationRecord) : Prop where
  mem : r ∈ w.verifications
  tenant : Uuid.parse tenantId = some r.tenantId
  environment : r.environment = environment

theorem selectVerification_cases {id : JsString}
    {r : Except RecordFailure (Option VerificationRecord)}
    (h : recordExec pg t (.selectVerification id tenantId environment) ω w = some (r, w')) :
    w' = w ∧ ∀ v, r = .ok (some v) → Found w tenantId environment v := by
  rcases statement_cases h with ⟨message, rfl, rfl⟩ | h
  · exact ⟨rfl, fun v hv => (nomatch hv)⟩
  obtain ⟨hr, rfl⟩ := Prod.mk.inj h
  refine ⟨rfl, fun v hv => ?_⟩
  rw [hv] at hr
  unfold selectOwn at hr
  split at hr
  · next i u hi hu =>
      have hfind := Except.ok.inj hr
      have hown : VerificationRecord.isOwn i u environment v = true := List.find?_some hfind
      obtain ⟨-, htenant, henv⟩ := of_decide_eq_true hown
      exact ⟨List.mem_of_find?_eq_some hfind, htenant ▸ hu, henv⟩
  · cases hr

end Statements

/-! ## What has been read and written -/

/-- The answered INSERT of an attendance row. -/
abbrev attendanceAct (tenantId environment : JsString) (v : NewAttendance) (a : AttendanceEvent) :
    Act sig Failure :=
  ⟨.inl (.inr (.insertAttendance tenantId environment v)), .ok a⟩

/-- The answered SELECT of a verification. -/
abbrev verificationAct (id tenantId environment : JsString) (r : VerificationRecord) :
    Act sig Failure :=
  ⟨.inl (.inr (.selectVerification id tenantId environment)), .ok (some r)⟩

/-- Every row of `attendance_events` was written by a logged INSERT, and what was read of
    `verification_events` is still there. -/
structure Entered (w : World) (log : List (Event sig Failure)) : Prop where
  unique : (w.verifications.map VerificationRecord.id).Nodup
  recorded : ∀ a ∈ w.attendance, ∃ e ∈ log, ∃ tenantId environment v,
    e.act = attendanceAct tenantId environment v a
  written : ∀ e ∈ log, ∀ tenantId environment v a,
    e.act = attendanceAct tenantId environment v a → Written tenantId environment v a
  found : ∀ e ∈ log, ∀ id tenantId environment r,
    e.act = verificationAct id tenantId environment r → Found w tenantId environment r

section Entered

variable {cfg : Config} {pg : Jsonb} {t : ℕ} {w w' : World} {log : List (Event sig Failure)}
  {e : Event sig Failure}

theorem Found.mono {tenantId environment : JsString} {r : VerificationRecord}
    (h : Found w tenantId environment r) (hw : ∀ x ∈ w.verifications, x ∈ w'.verifications) :
    Found w' tenantId environment r :=
  ⟨hw r h.mem, h.tenant, h.environment⟩

/-- One more operation. -/
theorem Entered.snoc (h : Entered w log)
    (hverifications : ∀ x ∈ w.verifications, x ∈ w'.verifications)
    (hunique : (w'.verifications.map VerificationRecord.id).Nodup)
    (hattendance : ∀ a ∈ w'.attendance, a ∈ w.attendance ∨ ∃ tenantId environment v,
      e.act = attendanceAct tenantId environment v a)
    (hwritten : ∀ tenantId environment v a,
      e.act = attendanceAct tenantId environment v a → Written tenantId environment v a)
    (hfound : ∀ id tenantId environment r,
      e.act = verificationAct id tenantId environment r → Found w' tenantId environment r) :
    Entered w' (log ++ [e]) := by
  refine ⟨hunique, fun a ha => ?_, fun x hx => ?_, fun x hx => ?_⟩
  · rcases hattendance a ha with hold | hnew
    · obtain ⟨x, hx, hact⟩ := h.recorded a hold
      exact ⟨x, List.mem_append_left _ hx, hact⟩
    · exact ⟨e, List.mem_append_right _ List.mem_cons_self, hnew⟩
  · rcases List.mem_append.mp hx with hx | hx
    · exact h.written x hx
    · rw [List.mem_singleton.mp hx]
      exact hwritten
  · rcases List.mem_append.mp hx with hx | hx
    · intro id tenantId environment r hact
      exact (h.found x hx id tenantId environment r hact).mono hverifications
    · rw [List.mem_singleton.mp hx]
      exact hfound

/-- An operation that leaves the two tables alone, and reads no verification. -/
theorem Entered.quiet (h : Entered w log) (hverifications : w'.verifications = w.verifications)
    (hattendance : w'.attendance = w.attendance)
    (hwrites : ∀ tenantId environment v a, e.act ≠ attendanceAct tenantId environment v a)
    (hreads : ∀ id tenantId environment r, e.act ≠ verificationAct id tenantId environment r) :
    Entered w' (log ++ [e]) := by
  apply h.snoc
  · rw [hverifications]
    exact fun x hx => hx
  · rw [hverifications]
    exact h.unique
  · rw [hattendance]
    exact fun a ha => .inl ha
  · exact fun tenantId environment v a hact => absurd hact (hwrites tenantId environment v a)
  · exact fun id tenantId environment r hact => absurd hact (hreads id tenantId environment r)

theorem entered_recordExec (h : Entered w log) {o : RecordOp} {ω : Oracle}
    {r : Except RecordFailure o.Resp} (hx : recordExec pg t o ω w = some (r, w')) :
    Entered w' (log ++ [⟨t, ⟨.inl (.inr o), r.mapError .inl⟩⟩]) := by
  cases o with
  | insertVerification tenantId environment v =>
      rcases insertVerification_cases hx with ⟨err, rfl, rfl⟩ | ⟨row, rfl, hfresh, -, -, -, -, rfl⟩
      · exact h.quiet rfl rfl (fun _ _ _ _ => nofun) (fun _ _ _ _ => nofun)
      · apply h.snoc
        · exact fun x hx => List.mem_append_left _ hx
        · show ((w.verifications ++ [row]).map VerificationRecord.id).Nodup
          rw [List.map_append, List.nodup_append]
          refine ⟨h.unique, List.nodup_singleton _, fun i hi j hj => ?_⟩
          obtain ⟨x, hx, rfl⟩ := List.mem_map.mp hi
          rw [List.map_singleton, List.mem_singleton] at hj
          rw [hj]
          exact hfresh x hx
        · exact fun a ha => .inl ha
        · exact fun _ _ _ _ => nofun
        · exact fun _ _ _ _ => nofun
  | insertAttendance tenantId environment v =>
      rcases insertAttendance_cases hx with ⟨err, rfl, rfl⟩ | ⟨a, rfl, hwritten, rfl⟩
      · exact h.quiet rfl rfl (fun _ _ _ _ => nofun) (fun _ _ _ _ => nofun)
      · refine h.snoc (fun x hx => hx) h.unique (fun b hb => ?_) (fun _ _ _ b hact => ?_)
          (fun _ _ _ _ => nofun)
        · rcases List.mem_append.mp hb with hb | hb
          · exact .inl hb
          · rw [List.mem_singleton.mp hb]
            exact .inr ⟨tenantId, environment, v, rfl⟩
        · cases hact
          exact hwritten
  | selectVerification id tenantId environment =>
      obtain ⟨rfl, hfound⟩ := selectVerification_cases hx
      refine h.snoc (fun x hx => hx) h.unique (fun a ha => .inl ha) (fun _ _ _ _ => nofun) ?_
      intro _ _ _ v hact
      cases r with
      | error err => cases hact
      | ok found =>
          cases hact
          exact hfound v rfl
  | selectUser userId tenantId environment =>
      have hw : w' = w := by
        rcases statement_cases hx with ⟨message, -, rfl⟩ | hx
        · rfl
        · exact (Prod.mk.inj hx).2.symm
      rw [hw]
      exact h.quiet rfl rfl (fun _ _ _ _ => nofun) (fun _ _ _ _ => nofun)
  | touch touch =>
      obtain ⟨rfl, rfl⟩ := Prod.mk.inj (Option.some.inj hx)
      exact h.quiet rfl rfl (fun _ _ _ _ => nofun) (fun _ _ _ _ => nofun)

theorem entered_exec (h : Entered w log) {o : sig.Op} {ω : Oracle}
    {r : Except Failure (sig.Resp o)} (hx : exec pg t o ω w = some (r, w')) :
    Entered w' (log ++ [⟨t, ⟨o, r⟩⟩]) := by
  rcases o with (o | o) | o
  · obtain ⟨⟨r₀, tenant⟩, -, heq⟩ := Option.map_eq_some_iff.mp hx
    obtain ⟨rfl, rfl⟩ := Prod.mk.inj heq
    exact h.quiet rfl rfl (fun _ _ _ _ => nofun) (fun _ _ _ _ => nofun)
  · obtain ⟨⟨r₀, w₁⟩, hrun, heq⟩ := Option.map_eq_some_iff.mp hx
    obtain ⟨rfl, rfl⟩ := Prod.mk.inj heq
    exact entered_recordExec h hrun
  · obtain ⟨⟨r₀, pairing⟩, -, heq⟩ := Option.map_eq_some_iff.mp hx
    obtain ⟨rfl, rfl⟩ := Prod.mk.inj heq
    exact h.quiet rfl rfl (fun _ _ _ _ => nofun) (fun _ _ _ _ => nofun)

theorem env_touch {i : ℕ} {succeeds : Bool} (h : env (.touch i succeeds) w = some w') :
    ∃ t touch w₁, w.touches[i]? = some (t, touch) ∧
      (if succeeds then w.runTouch t touch else some w) = some w₁ ∧
      w' = { w₁ with touches := w.touches.eraseIdx i } := by
  rw [env] at h
  obtain ⟨⟨t, touch⟩, htouch, h⟩ := Option.bind_eq_some_iff.mp h
  refine ⟨t, touch, ?_⟩
  cases succeeds with
  | true =>
      obtain ⟨w₁, hrun, h⟩ := Option.bind_eq_some_iff.mp h
      exact ⟨w₁, htouch, hrun, (Option.some.inj h).symm⟩
  | false => exact ⟨w, htouch, rfl, (Option.some.inj h).symm⟩

theorem events_of_runTouch {touch : Touch} (h : w.runTouch t touch = some w') :
    w'.verifications = w.verifications ∧ w'.attendance = w.attendance := by
  unfold World.runTouch at h
  split at h
  · rw [← Option.some.inj h]
    exact ⟨rfl, rfl⟩
  · obtain ⟨x, -, rfl⟩ := Option.map_eq_some_iff.mp h
    exact ⟨rfl, rfl⟩

/-- What runs in the background touches devices and users only. -/
theorem events_of_env {e : Env} (hx : env e w = some w') :
    w'.verifications = w.verifications ∧ w'.attendance = w.attendance := by
  cases e with
  | tenant e =>
      obtain ⟨tenant, -, rfl⟩ := Option.map_eq_some_iff.mp hx
      exact ⟨rfl, rfl⟩
  | touch i succeeds =>
      obtain ⟨t, touch, w₁, -, hrun, rfl⟩ := env_touch hx
      have hw₁ : w₁.verifications = w.verifications ∧ w₁.attendance = w.attendance := by
        split at hrun
        · exact events_of_runTouch hrun
        · rw [← Option.some.inj hrun]
          exact ⟨rfl, rfl⟩
      exact hw₁
  | pairingJob i succeeds =>
      obtain ⟨pairing, -, rfl⟩ := Option.map_eq_some_iff.mp hx
      exact ⟨rfl, rfl⟩
  | setPolicy tenantId policy =>
      rw [env] at hx
      obtain ⟨pairing, -, rfl⟩ := Option.map_eq_some_iff.mp hx
      exact ⟨rfl, rfl⟩

theorem entered_of_reach {c : State} (h : (platform cfg pg).Reach Empty (fun _ _ => True) c) :
    Entered c.world c.log := by
  apply h.world_invariant (I := Entered)
  · intro w hempty
    obtain ⟨-, hverifications, hattendance, -, -⟩ := hempty
    refine ⟨?_, ?_, fun e he => (nomatch he), fun e he => (nomatch he)⟩
    · rw [hverifications]
      exact List.nodup_nil
    · rw [hattendance]
      exact fun a ha => (nomatch ha)
  · intro w log t o ω r w' hI hx
    exact entered_exec hI hx
  · intro w log e w' hI hx
    obtain ⟨hverifications, hattendance⟩ := events_of_env hx
    refine ⟨hverifications ▸ hI.unique, hattendance ▸ hI.recorded, hI.written, ?_⟩
    intro x hx id tenantId environment r hact
    apply (hI.found x hx id tenantId environment r hact).mono
    rw [hverifications]
    exact fun y hy => hy

end Entered

/-! ## What a call knows when it writes -/

section Program

variable {cfg : Settings} {tenantId environment apiKeyId : JsString} {α : Type}

/-- Every operation but the INSERT of an attendance row. -/
def writesAttendance : recordSig.Op → Bool
  | .inr (.insertAttendance _ _ _) => true
  | _ => false

/-- The program records no attendance. -/
abbrev NoAttendance (p : RecordProgram α) : Prop :=
  Prog.Only (fun o => writesAttendance o = false) p

theorem noAttendance_lift (p : Tenant.Program α) : NoAttendance (p.lift : RecordProgram α) := by
  have hall : Prog.Only (fun _ => True) p := Prog.before_of_forall fun _ _ => trivial
  exact hall.lift fun o _ => rfl

theorem noAttendance_record {o : RecordOp} (h : writesAttendance (.inr o) = false) :
    NoAttendance (record o) :=
  Prog.only_perform h

theorem noAttendance_parseTimestamp {text : Option JsString} :
    NoAttendance (parseTimestamp cfg text) := by
  unfold parseTimestamp
  split
  · exact (noAttendance_lift _).bind fun _ => trivial
  · exact (noAttendance_lift _).bind fun _ => trivial
  · split <;> trivial

theorem noAttendance_requireUser {userId : JsString} :
    NoAttendance (requireUser tenantId environment userId) := by
  apply Prog.Only.bind (noAttendance_record rfl)
  intro user
  cases user <;> trivial

theorem noAttendance_findNamedVerification {verificationId : Option JsString} :
    NoAttendance (findNamedVerification tenantId environment verificationId) := by
  unfold findNamedVerification
  split
  · trivial
  · apply Prog.Only.bind (noAttendance_record rfl)
    intro verification
    cases verification <;> trivial

theorem noAttendance_auditRecord {action entityType : String} {entityId : Uuid} {failed : Bool}
    {summary : JsString} {metadata : List (JsString × JsVal)} :
    NoAttendance (auditRecord tenantId environment apiKeyId action entityType entityId failed
      summary metadata) :=
  noAttendance_lift _

theorem noAttendance_touchIf {id : Option Uuid} {touch : Uuid → Touch} :
    NoAttendance (touchIf id touch) := by
  unfold touchIf
  split
  · exact noAttendance_record rfl
  · trivial

theorem noAttendance_createVerificationEvent {input : VerificationInput} :
    NoAttendance (createVerificationEvent cfg tenantId environment apiKeyId input) := by
  apply Prog.Only.bind noAttendance_parseTimestamp
  intro occurredAt
  apply Prog.Only.bind
  · unfold findUser
    split
    · trivial
    · exact noAttendance_requireUser.bind fun _ => trivial
  intro userId
  apply Prog.Only.bind (noAttendance_lift _)
  intro deviceId
  apply Prog.Only.bind (noAttendance_record rfl)
  intro verification
  apply Prog.Only.bind noAttendance_touchIf
  intro _
  apply Prog.Only.bind noAttendance_touchIf
  intro _
  apply Prog.Only.bind noAttendance_auditRecord
  exact fun _ => trivial

/-- The verification that a call names is one that it has read. -/
theorem ends_findNamedVerification {verificationId : Option JsString} :
    Prog.Ends (fun es out => ∀ r, out = .ok (some r) → ∃ id : JsString,
      (⟨.inr (.selectVerification id tenantId environment), .ok (some r)⟩ :
        Act recordSig RecordFailure) ∈ es)
      (findNamedVerification tenantId environment verificationId) := by
  unfold findNamedVerification
  split
  · exact fun r hr => (nomatch hr)
  · next id _ =>
      apply Prog.ends_perform_bind.mpr
      refine ⟨fun found => ?_, fun e r hr => (nomatch hr)⟩
      cases found with
      | none => exact fun r hr => (nomatch hr)
      | some r =>
          intro r' hr'
          obtain rfl := Option.some.inj (Except.ok.inj hr')
          exact ⟨id, List.mem_cons_self⟩

/-- What the values of the INSERT of an attendance row rest on. -/
def RestsOn (tenantId environment : JsString) (input : AttendanceInput)
    (es : List (Act recordSig RecordFailure)) (v : NewAttendance) : Prop :=
  ∀ i, v.verificationId = some i → ∃ (id : JsString) (r : VerificationRecord),
    ⟨.inr (.selectVerification id tenantId environment), .ok (some r)⟩ ∈ es ∧ r.id = i ∧
      v.result = derivedResult input.result (some r)

/-- The operation, if it is the INSERT of an attendance row, rests on what was read. -/
def Justified (tenantId environment : JsString) (input : AttendanceInput)
    (es : List (Act recordSig RecordFailure)) (o : recordSig.Op) : Prop :=
  ∀ tenantId' environment' v, o = .inr (.insertAttendance tenantId' environment' v) →
    tenantId' = tenantId ∧ environment' = environment ∧ RestsOn tenantId environment input es v

theorem NoAttendance.before {p : RecordProgram α} (h : NoAttendance p) {input : AttendanceInput}
    (es : List (Act recordSig RecordFailure)) :
    Prog.Before (fun es' o => Justified tenantId environment input (es ++ es') o) p := by
  apply Prog.Only.before h
  rintro es' o ho tenantId' environment' v rfl
  cases ho

theorem before_createAttendanceEvent {input : AttendanceInput} :
    Prog.Before (Justified tenantId environment input)
      (createAttendanceEvent cfg tenantId environment apiKeyId input) := by
  have hany : ∀ {β : Type} (p : RecordProgram β), Prog.Ends (fun _ _ => True) p :=
    fun p => Prog.ends_of_forall fun _ _ => trivial
  unfold createAttendanceEvent
  apply Prog.Before.bind (noAttendance_parseTimestamp.before []) (hany _)
  intro es₁ occurredAt _
  apply Prog.Before.bind (noAttendance_requireUser.before es₁) (hany _)
  intro es₂ user _
  simp only [← List.append_assoc]
  apply Prog.Before.bind ((noAttendance_lift _).before (es₁ ++ es₂)) (hany _)
  intro es₃ deviceId _
  simp only [← List.append_assoc]
  apply Prog.Before.bind (noAttendance_findNamedVerification.before (es₁ ++ es₂ ++ es₃))
    ends_findNamedVerification
  intro es₄ verification hread
  simp only [← List.append_assoc]
  -- what follows the INSERT records nothing more
  apply Prog.before_perform_bind.mpr
  refine ⟨?_, fun event => ?_⟩
  · rintro tenantId' environment' v hop
    obtain ⟨rfl, rfl, rfl⟩ := RecordOp.insertAttendance.inj (Sum.inr.inj hop)
    refine ⟨rfl, rfl, fun i hi => ?_⟩
    cases verification with
    | none => cases hi
    | some r =>
        obtain ⟨id, hmem⟩ := hread r rfl
        refine ⟨id, r, ?_, Option.some.inj hi, rfl⟩
        rw [List.append_nil]
        exact List.mem_append_right _ hmem
  · have hrest : NoAttendance (auditRecord tenantId environment apiKeyId "attendance.recorded"
        "attendance" event.id (event.result = .rejected)
        (event.type.text ++ js " " ++ event.result.text)
        [(js "userId", .str event.userId.text),
          (js "deviceId", ofNullable (event.deviceId.map Uuid.text)),
          (js "verificationId", ofNullable (event.verificationId.map Uuid.text))] >>= fun _ =>
        (return event)) :=
      noAttendance_auditRecord.bind fun _ => trivial
    apply Prog.Only.before hrest
    rintro es' o ho tenantId' environment' v rfl
    cases ho

end Program

/-! ## Attendance and verifications -/

section Runs

variable {cfg : Config} {pg : Jsonb} {c : State}

/-- An INSERT of an attendance row is awaited by a call for attendance, which has read the
    verification that the row names. -/
def Rests (call : Call) (es : List (Act sig Failure)) (o : sig.Op) : Prop :=
  ∀ tenantId environment v, o = .inl (.inr (.insertAttendance tenantId environment v)) →
    ∃ apiKeyId input, call = .attendance tenantId environment apiKeyId input ∧
      ∀ i, v.verificationId = some i → ∃ id r,
        verificationAct id tenantId environment r ∈ es ∧ r.id = i ∧
          v.result = derivedResult input.result (some r)

theorem before_code (call : Call) : Prog.Before (Rests call) (code cfg call) := by
  have hdone : ∀ {β : Type} (p : Program β) (f : β → Result), Prog.Before (Rests call) p →
      Prog.Before (Rests call) (p >>= fun b => return f b) := by
    intro β p f hp
    exact Prog.Before.bind hp (Prog.ends_of_forall (Φ := fun _ _ => True) fun _ _ => trivial)
      fun _ _ _ => trivial
  cases call with
  | tenant a =>
      apply hdone
      have hinner : NoAttendance ((Tenant.code cfg.tenant a).lift : RecordProgram _) :=
        noAttendance_lift _
      apply Prog.Before.lift hinner
      rintro es o ho tenantId environment v heq
      obtain rfl := Sum.inl.inj heq
      cases ho
  | verification tenantId environment apiKeyId input =>
      apply hdone
      apply Prog.Before.lift noAttendance_createVerificationEvent
      rintro es o ho tenantId' environment' v heq
      obtain rfl := Sum.inl.inj heq
      cases ho
  | attendance tenantId environment apiKeyId input =>
      apply hdone
      apply Prog.Before.lift before_createAttendanceEvent
      rintro es o ho tenantId' environment' v heq
      obtain rfl := Sum.inl.inj heq
      obtain ⟨rfl, rfl, hrests⟩ := ho tenantId' environment' v rfl
      refine ⟨apiKeyId, input, rfl, fun i hi => ?_⟩
      obtain ⟨id, r, hmem, hid, hresult⟩ := hrests i hi
      exact ⟨id, r, List.mem_map_of_mem (f := Act.inl) hmem, hid, hresult⟩
  | pairing a =>
      apply hdone
      have hinner : Prog.Before (fun _ _ => True) (Pairing.code cfg.pairing a) :=
        Prog.before_of_forall fun _ _ => trivial
      apply Prog.Before.liftRight hinner
      rintro es o - tenantId environment v heq
      cases heq

abbrev Thread := Lib.Thread sig Failure Result Call

/-- The call of the thread has written the row. -/
def RecordedBy (a : AttendanceEvent) (th : Thread) : Prop :=
  ∃ tenantId environment v, attendanceAct tenantId environment v a ∈ th.past

/-- The row follows the verification that it names: there is one such verification, it is of
    the row's tenant and environment, and the row is accepted exactly when it has passed. -/
def Follows (w : World) (a : AttendanceEvent) (v : Uuid) : Prop :=
  ∃ r ∈ w.verifications, r.id = v ∧ r.tenantId = a.tenantId ∧ r.environment = a.environment ∧
    (a.result = .accepted ↔ r.result = .pass) ∧ ∀ x ∈ w.verifications, x.id = v → x = r

theorem derivedResult_eq_accepted {r : VerificationRecord} :
    derivedResult none (some r) = .accepted ↔ r.result = .pass := by
  unfold derivedResult
  split <;> simp_all

theorem exists_recordedBy (h : (platform cfg pg).Reach Empty (fun _ _ => True) c)
    {a : AttendanceEvent} (ha : a ∈ c.world.attendance) :
    ∃ (t : ℕ) (th : Thread), c.threads[t]? = some th ∧ RecordedBy a th := by
  obtain ⟨e, he, tenantId, environment, v, hact⟩ := (entered_of_reach h).recorded a ha
  obtain ⟨th, hth, hpast⟩ := h.exists_thread he
  rw [hact] at hpast
  exact ⟨e.caller, th, hth, tenantId, environment, v, hpast⟩

theorem follows_of_recordedBy (h : (platform cfg pg).Reach Empty (fun _ _ => True) c)
    {a : AttendanceEvent} {v : Uuid} (hv : a.verificationId = some v) {t : ℕ}
    {th : Thread} (hth : c.threads[t]? = some th) (hrec : RecordedBy a th) :
    ∃ tenantId environment apiKeyId input,
      th.call = .attendance tenantId environment apiKeyId input ∧
      (input.result = none → Follows c.world a v) := by
  obtain ⟨tenantId, environment, values, hmem⟩ := hrec
  have hentered := entered_of_reach h
  have hlog := (h.mem_log hth).mp hmem
  have hwritten := hentered.written _ hlog tenantId environment values a rfl
  obtain ⟨pre, hpre, hΨ⟩ := h.before_of_mem hth (before_code th.call) hmem
  obtain ⟨apiKeyId, input, hcall, hrests⟩ := hΨ tenantId environment values rfl
  refine ⟨tenantId, environment, apiKeyId, input, hcall, fun hnone => ?_⟩
  obtain ⟨id, r, hread, hid, hresult⟩ := hrests v (hwritten.verificationId ▸ hv)
  -- what the call has read is still in the table
  have hfound := hentered.found _ ((h.mem_log hth).mp (hpre.subset hread)) id tenantId environment r
    rfl
  refine ⟨r, hfound.mem, hid, ?_, ?_, ?_, fun x hx hxid => ?_⟩
  · exact Option.some.inj (hfound.tenant.symm.trans hwritten.tenant)
  · exact hfound.environment.trans hwritten.environment.symm
  · rw [hwritten.result, hresult, hnone]
    exact derivedResult_eq_accepted
  · exact List.inj_on_of_nodup_map hentered.unique hx hfound.mem (hxid.trans hid.symm)

/-- Every attendance row was written by a call.  One that names a verification, and whose caller
    gave no result, is accepted exactly when that verification, which is of the same tenant and
    environment, has passed. -/
theorem attendance_follows_verification (h : (platform cfg pg).Reach Empty (fun _ _ => True) c)
    {a : AttendanceEvent} (ha : a ∈ c.world.attendance) :
    (∃ (t : ℕ) (th : Thread), c.threads[t]? = some th ∧ RecordedBy a th) ∧
    ∀ v, a.verificationId = some v →
      ∀ (t : ℕ) (th : Thread), c.threads[t]? = some th → RecordedBy a th →
        ∃ tenantId environment apiKeyId input,
          th.call = .attendance tenantId environment apiKeyId input ∧
          (input.result = none → Follows c.world a v) :=
  ⟨exists_recordedBy h ha, fun _ hv _ _ hth hrec => follows_of_recordedBy h hv hth hrec⟩

end Runs

/-! ## Two users of one tenant -/

/-- Pairing takes no part here. -/
def settings : Config := ⟨Tenant.settings, ⟨js "zeroauth.dev", none, true, fun _ _ => 0⟩⟩

def initial : World := ⟨Tenant.initial, [], [], [], ⟨[], [], [], [], [], 1000⟩⟩

theorem empty_initial : Empty initial := ⟨Tenant.empty_initial, rfl, rfl, rfl, rfl⟩

def uuidText (n : CodeUnit) : JsString := js "00000000-0000-0000-0000-00000000000" ++ [48 + n]

def enrolling (t : ℕ) (name : String) (id : Uuid) : List (Label Call Oracle Env) :=
  [.start (.tenant (.createTenantUser tenantText (js "live")
      ⟨some (js name), js name, none, none, none, none, none⟩ none)),
    .resume t { tenant := { uuid := id } }, .resume t {}]

/-- User 2 passes a verification, which gets the id 4. -/
def passing (t : ℕ) : List (Label Call Oracle Env) :=
  .start (.verification tenantText (js "live") (uuidText 9)
      ⟨some (uuidText 2), none, .zkp, .pass, none, none, none, none, none⟩) ::
    [.resume t {}, .resume t {}, .resume t { tenant := { uuid := .ofNat 4 } }, .resume t {},
      .resume t {}]

/-- User 3 is checked in with that verification. -/
def checkingIn (t : ℕ) : List (Label Call Oracle Env) :=
  .start (.attendance tenantText (js "live") (uuidText 9)
      ⟨uuidText 3, none, some (uuidText 4), .checkIn, none, none, none⟩) ::
    [.resume t {}, .resume t {}, .resume t {}, .resume t { tenant := { uuid := .ofNat 5 } },
      .resume t {}]

/-- What the run below is about. -/
def Marked (c : State) : Prop :=
  (∃ a ∈ c.world.attendance, a.verificationId = some (.ofNat 4) ∧ a.result = .accepted ∧
    a.userId = .ofNat 3) ∧
  (∀ r ∈ c.world.verifications, r.userId = some (.ofNat 2)) ∧
  ∀ th ∈ c.threads, (match th.call with
    | .attendance _ _ _ input => input.result.isNone
    | _ => true) = true

instance (c : State) : Decidable (Marked c) := inferInstanceAs (Decidable (_ ∧ _ ∧ _))

theorem exists_marked : ∃ c : State,
    (platform settings jsonb).Reach Empty (fun _ _ => True) c ∧ Marked c := by
  have hrun : (((platform settings jsonb).run (.init initial)
      (enrolling 0 "asha" ⟨2, by decide⟩ ++ enrolling 1 "bimal" ⟨3, by decide⟩ ++ passing 2 ++
        checkingIn 3)).map fun c => decide (Marked c)) = some true := by
    decide +kernel
  obtain ⟨c, hc, hmarked⟩ := Option.map_eq_some_iff.mp hrun
  exact ⟨c, System.Reach.run (.init empty_initial) (System.keeps_of_forall fun _ _ _ => trivial) hc,
    of_decide_eq_true hmarked⟩

/-- The row of user 3 follows the verification of user 2. -/
theorem attendance_follows_verification_marked : ∃ c : State, ∃ a ∈ c.world.attendance,
    a.result = .accepted ∧ Follows c.world a ⟨4, by decide⟩ := by
  obtain ⟨c, hreach, ⟨a, ha, hv, haccepted, -⟩, -, hcalls⟩ := exists_marked
  obtain ⟨⟨t, th, hth, hrec⟩, hall⟩ := attendance_follows_verification hreach ha
  obtain ⟨tenantId, environment, apiKeyId, input, hcall, hfollows⟩ := hall _ hv t th hth hrec
  have hnone := hcalls th (List.mem_of_getElem? hth)
  rw [hcall] at hnone
  exact ⟨c, a, ha, haccepted, hfollows (Option.isNone_iff_eq_none.mp hnone)⟩

/-- The row rests on a verification of its own user, which has passed if it is accepted. -/
def RestsOnOwn (w : World) (a : AttendanceEvent) (v : Uuid) : Prop :=
  ∃ r ∈ w.verifications, r.id = v ∧ (a.result = .accepted ↔ r.result = .pass) ∧
    (a.result = .accepted → r.userId = some a.userId)

/-- One user's pass marks another user present. -/
theorem pass_marks_other : ¬ ∀ (cfg : Config) (pg : Jsonb) (c : State),
    (platform cfg pg).Reach Empty (fun _ _ => True) c → ∀ a ∈ c.world.attendance, ∀ v,
      a.verificationId = some v → ∀ (t : ℕ) (th : Thread)
        (tenantId environment apiKeyId : JsString) (input : AttendanceInput),
        c.threads[t]? = some th → RecordedBy a th →
        th.call = .attendance tenantId environment apiKeyId input → input.result = none →
        RestsOnOwn c.world a v := by
  intro h
  obtain ⟨c, hreach, ⟨a, ha, hv, haccepted, huser⟩, hothers, hcalls⟩ := exists_marked
  obtain ⟨t, th, hth, hrec⟩ := exists_recordedBy hreach ha
  obtain ⟨tenantId, environment, apiKeyId, input, hcall, -⟩ :=
    follows_of_recordedBy hreach hv hth hrec
  have hnone := hcalls th (List.mem_of_getElem? hth)
  rw [hcall] at hnone
  obtain ⟨r, hr, -, -, hown⟩ := h settings jsonb c hreach a ha _ hv t th tenantId environment
    apiKeyId input hth hrec hcall (Option.isNone_iff_eq_none.mp hnone)
  have hsame := (hothers r hr).symm.trans (hown haccepted)
  rw [huser] at hsame
  exact absurd hsame (by decide)

end ZeroAuth.Records
