/-
  ZeroAuth.Iot.AccountTrail

  What each operation on the accounts has done when it ends: its last change of the
  map is on disk or a step of `saveAccounts` has failed, and an enrolment that throws
  has stored nothing.  A trail is folded over the history of the call.
-/

import ZeroAuth.Iot.Accounts
import ZeroAuth.Lib.Ghost

namespace ZeroAuth.Iot

open ZeroAuth.Lib ZeroAuth.Js

/-! ## What a call has done so far -/

/-- How far a call is with saving its last change of the map. -/
inductive SavePhase
  | idle
  | owing
  | writing
  deriving DecidableEq

/-- `saw`: the duplicate check has found the email registered; `stored`: an account
    has been set; `failed`: a step of `saveAccounts` has failed. -/
structure Trail where
  phase : SavePhase
  saw : Bool
  stored : Bool
  failed : Bool

def Trail.start : Trail := ⟨.idle, false, false, false⟩

abbrev BridgeAct := Act bridgeSig BridgeError

def note (s : Trail) : BridgeAct → Trail
  | ⟨.has _, .ok true⟩ => { s with saw := true }
  | ⟨.insertNew _ _, .ok none⟩ => { s with saw := true }
  | ⟨.insertNew _ _, .ok (some _)⟩ => { s with phase := .owing, stored := true }
  | ⟨.setAccount _ _, .ok _⟩ => { s with phase := .owing, stored := true }
  | ⟨.clear, .ok _⟩ => { s with phase := .owing }
  | ⟨.attach _ _, .ok true⟩ => { s with phase := .owing }
  | ⟨.attachTo _ _, .ok _⟩ => { s with phase := .owing }
  | ⟨.mkdir, .error _⟩ => { s with phase := .idle, failed := true }
  | ⟨.startWrite, .ok _⟩ => { s with phase := .writing }
  | ⟨.startWrite, .error _⟩ => { s with phase := .idle, failed := true }
  | ⟨.writeFile, .ok _⟩ => { s with phase := .idle }
  | ⟨.writeFile, .error _⟩ => { s with phase := .idle, failed := true }
  | _ => s

variable {cfg : BridgeConfig} {enrolled : Option JsString}

/-- The order of a change, `mkdir`, the snapshot and the end of the write; a call stores
    an account for the email it enrols, in lower case. -/
def InOrder (cfg : BridgeConfig) (enrolled : Option JsString) (s : Trail) : BridgeOp → Prop
  | .setAccount email account =>
      s.phase = .idle ∧ enrolled = some email ∧ cfg.toLowerCase email = email ∧
        account.email = email
  | .insertNew email account =>
      s.phase = .idle ∧ enrolled = some email ∧ cfg.toLowerCase email = email ∧
        ∀ createdAt, (account createdAt).email = email
  | .clear | .attach _ _ | .attachTo _ _ => s.phase = .idle
  | .mkdir | .startWrite => s.phase = .owing
  | .writeFile => s.phase = .writing
  | _ => True

abbrev BridgeLeads (cfg : BridgeConfig) (enrolled : Option JsString) {α : Type} (Q : Trail → Except BridgeError α → Prop) (s : Trail)
    (p : BridgeProgram α) : Prop := Prog.Leads note (InOrder cfg enrolled) Q s p

section Await

variable {α : Type} {o : BridgeOp} {s : Trail}

theorem leads_await {Q : Trail → Except BridgeError o.Resp → Prop} (horder : InOrder cfg enrolled s o)
    (hok : ∀ a, Q (note s ⟨o, .ok a⟩) (.ok a)) (herr : ∀ e, Q (note s ⟨o, .error e⟩) (.error e)) :
    BridgeLeads cfg enrolled Q s (await o) :=
  Prog.leads_perform.mpr ⟨horder, hok, herr⟩

theorem leads_await_bind {f : o.Resp → BridgeProgram α} {Q : Trail → Except BridgeError α → Prop}
    (horder : InOrder cfg enrolled s o) (hok : ∀ a, BridgeLeads cfg enrolled Q (note s ⟨o, .ok a⟩) (f a))
    (herr : ∀ e, Q (note s ⟨o, .error e⟩) (.error e)) : BridgeLeads cfg enrolled Q s (await o >>= f) :=
  Prog.leads_perform_bind.mpr ⟨horder, hok, herr⟩

end Await

/-- The change before it is on disk, or a step has failed. -/
theorem leads_saveAccounts {s : Trail} (h : s.phase = .owing) :
    BridgeLeads cfg enrolled (fun s' out => s' = { s with phase := .idle } ∧ out = .ok () ∨
      s' = { s with phase := .idle, failed := true } ∧ ∃ e, out = .error e) s saveAccounts := by
  unfold saveAccounts
  refine leads_await_bind h (fun _ => ?_) fun e => .inr ⟨rfl, e, rfl⟩
  refine leads_await_bind h (fun _ => ?_) fun e => .inr ⟨rfl, e, rfl⟩
  exact leads_await rfl (fun _ => .inl ⟨rfl, rfl⟩) fun e => .inr ⟨rfl, e, rfl⟩

/-- Nothing has been stored that is still in order. -/
structure Trail.Quiet (s : Trail) : Prop where
  idle : s.phase = .idle
  unseen : s.saw = false
  failed : s.stored = true → s.failed = true

/-- How the body of an enrolment ends. -/
def EnrollEnds (s : Trail) : Except BridgeError Account → Prop
  | .ok _ => s.phase = .idle ∧ s.saw = false ∧ s.stored = true
  | .error _ => s.Quiet

theorem leads_enrollAttempt {email : JsString} (hlower : cfg.toLowerCase email = email)
    {s : Trail} (hs : s.Quiet) :
    BridgeLeads cfg (some email) EnrollEnds s (enrollAttempt cfg email) := by
  unfold enrollAttempt
  -- the steps before `accounts.set` leave the trail as it is
  iterate 9 refine leads_await_bind trivial (fun _ => ?_) fun _ => hs
  refine leads_await_bind trivial (fun ok => ?_) fun e => hs
  cases ok with
  | false => exact hs
  | true =>
      refine leads_await_bind trivial (fun _ => ?_) fun e => hs
      refine leads_await_bind ⟨hs.idle, rfl, hlower, rfl⟩ (fun _ => ?_) fun e => hs
      apply (leads_saveAccounts rfl).bind
      · rintro s' _ (⟨rfl, -⟩ | ⟨-, e, he⟩)
        · exact ⟨rfl, hs.unseen, rfl⟩
        · cases he
      · rintro s' e (⟨-, he⟩ | ⟨rfl, -⟩)
        · cases he
        · exact ⟨rfl, hs.unseen, fun _ => rfl⟩

theorem leads_enrollLoop {email : JsString} (hlower : cfg.toLowerCase email = email) (more : ℕ)
    {s : Trail} (hs : s.Quiet) :
    BridgeLeads cfg (some email) EnrollEnds s (enrollLoop cfg email more) := by
  induction more generalizing s with
  | zero => exact leads_enrollAttempt hlower hs
  | succ more ih =>
      apply (leads_enrollAttempt hlower hs).tryCatch
      · exact fun _ _ h => h
      · intro s' err hs'
        cases classifyRetryable err with
        | none => exact hs'
        | some reason =>
            have hwait : BridgeLeads cfg (some email) (fun t out => t.Quiet ∧ out = .ok ()) s'
                (Prog.tryCatch (await (.sensor .waitForFingerRemoval)) fun _ => return ()) := by
              apply Prog.Leads.tryCatch (R := fun t _ => t.Quiet)
              · exact leads_await trivial (fun _ => hs') fun _ => hs'
              · exact fun _ _ h => ⟨h, rfl⟩
              · exact fun _ _ h => ⟨h, rfl⟩
            apply hwait.bind
            · exact fun t _ ht => ih ht.1
            · rintro t e ⟨-, he⟩
              cases he

theorem leads_withSensorLock {α : Type} {Q : Trail → Except BridgeError α → Prop} {s : Trail}
    {fn : BridgeProgram α} (h : BridgeLeads cfg enrolled Q s fn) (herr : ∀ e, Q s (.error e)) :
    BridgeLeads cfg enrolled Q s (withSensorLock fn) := by
  unfold withSensorLock
  refine leads_await_bind trivial (fun _ => ?_) herr
  refine leads_await_bind trivial (fun _ => ?_) herr
  have hresult : BridgeLeads cfg enrolled (fun s' out => ∃ result, out = .ok result ∧ Q s' result) s
      (Prog.tryCatch (do
        let a ← fn
        return (.ok a : Except BridgeError α)) fun err => return .error err) := by
    apply Prog.Leads.tryCatch (R := fun s' out => match out with
      | .ok result => Q s' result
      | .error e => Q s' (.error e))
    · apply h.bind
      · exact fun _ _ ha => ha
      · exact fun _ _ he => he
    · exact fun _ result ha => ⟨result, rfl, ha⟩
    · exact fun _ e he => ⟨.error e, rfl, he⟩
  apply hresult.bind
  · rintro s' result ⟨_, heq, hQ⟩
    cases heq
    exact ⟨trivial, fun _ => Prog.leads_ofExcept.mpr hQ⟩
  · rintro s' e ⟨_, heq, -⟩
    cases heq

/-- Whose enrolment a call is. -/
def BridgeCall.enrolls : BridgeCall cfg → Option JsString
  | .enroll email => some email.text
  | .simEnroll email => some email.text
  | _ => none

/-- How a call ends. -/
structure CallEnds (a : BridgeCall cfg) (s : Trail) (out : Except BridgeError BridgeResult) :
    Prop where
  idle : s.phase = .idle
  registered : ∀ email, a.enrolls = some email → s.saw = true →
    out = .error (.emailAlreadyRegistered email)
  unchanged : ∀ e, out = .error e → s.stored = true → a.enrolls.isSome → s.failed = true
  stored : ∀ r, out = .ok r → a.enrolls.isSome → s.stored = true

theorem leads_enroll {email : JsString} (hlower : cfg.toLowerCase email = email) :
    BridgeLeads cfg (some email) (fun s out => s.phase = .idle ∧
        (s.saw = true → out = .error (.emailAlreadyRegistered email)) ∧
        (∀ e, out = .error e → s.stored = true → s.failed = true) ∧
        (∀ a, out = .ok a → s.stored = true)) .start (enroll cfg email) := by
  have hquiet : Trail.start.Quiet := ⟨rfl, rfl, fun h => by cases h⟩
  unfold enroll
  split
  · exact ⟨rfl, fun h => (by cases h), fun _ _ h => (by cases h), fun _ h => (by cases h)⟩
  · refine leads_await_bind trivial (fun registered => ?_) fun e => ?_
    · cases registered with
      | true => exact ⟨rfl, fun _ => rfl, fun _ _ h => (by cases h), fun _ h => (by cases h)⟩
      | false =>
          apply (leads_withSensorLock (leads_enrollLoop hlower _ hquiet) fun _ => hquiet).mono
          intro s out h
          cases out with
          | ok a => exact ⟨h.1, fun hsaw => absurd (h.2.1.symm.trans hsaw) (by decide),
              fun e he => (by cases he), fun _ _ => h.2.2⟩
          | error e => exact ⟨h.idle, fun hsaw => absurd (h.unseen.symm.trans hsaw) (by decide),
              fun _ _ => h.failed, fun _ he => (by cases he)⟩
    · exact ⟨rfl, fun h => (by cases h), fun _ _ h => (by cases h), fun _ h => (by cases h)⟩

theorem leads_simEnroll {email : JsString} (hlower : cfg.toLowerCase email = email) :
    BridgeLeads cfg (some email) (fun s out => s.phase = .idle ∧
        (s.saw = true → out = .error (.emailAlreadyRegistered email)) ∧
        (∀ e, out = .error e → s.stored = true → s.failed = true) ∧
        (∀ a, out = .ok a → s.stored = true)) .start (simEnroll cfg email) := by
  unfold simEnroll
  refine leads_await_bind ⟨rfl, rfl, hlower, fun _ => rfl⟩ (fun inserted => ?_) fun e => ?_
  · cases inserted with
    | none => exact ⟨rfl, fun _ => rfl, fun _ _ h => (by cases h), fun _ h => (by cases h)⟩
    | some account =>
        apply (leads_saveAccounts rfl).bind
        · rintro s' _ (⟨rfl, -⟩ | ⟨-, e, he⟩)
          · exact ⟨rfl, fun h => (by cases h), fun _ h => (by cases h), fun _ _ => rfl⟩
          · cases he
        · rintro s' e (⟨-, he⟩ | ⟨rfl, -⟩)
          · cases he
          · exact ⟨rfl, fun h => (by cases h), fun _ _ _ => rfl, fun _ h => (by cases h)⟩
  · exact ⟨rfl, fun h => (by cases h), fun _ _ h => (by cases h), fun _ h => (by cases h)⟩

/-- What the other writers keep. -/
def EndsIdle {α : Type} (s : Trail) (_ : Except BridgeError α) : Prop := s.phase = .idle

theorem leads_save_idle {α : Type} {s : Trail} {f : Unit → BridgeProgram α} (h : s.phase = .owing)
    (hf : ∀ s', s'.phase = .idle → BridgeLeads cfg enrolled EndsIdle s' (f ())) :
    BridgeLeads cfg enrolled EndsIdle s (saveAccounts >>= f) := by
  apply (leads_saveAccounts h).bind
  · rintro s' _ (⟨rfl, -⟩ | ⟨rfl, -⟩) <;> exact hf _ rfl
  · rintro s' e (⟨rfl, -⟩ | ⟨rfl, -⟩) <;> exact rfl

theorem leads_syncSignup (email : JsString) {s : Trail} (h : s.phase = .idle) :
    BridgeLeads cfg enrolled EndsIdle s (syncSignupToCentral cfg email) := by
  unfold syncSignupToCentral
  cases cfg.centralDeviceId with
  | none => exact h
  | some deviceId =>
      refine leads_await_bind trivial (fun user => ?_) fun _ => h
      cases user with
      | none => exact h
      | some id =>
          refine leads_await_bind h (fun attached => ?_) fun _ => h
          cases attached with
          | false => exact h
          | true => exact leads_save_idle rfl fun _ h' => h'

theorem leads_backfillUser (email : JsString) (account : Option Held) {s : Trail}
    (h : s.phase = .idle) : BridgeLeads cfg enrolled EndsIdle s (backfillUser email account) := by
  unfold backfillUser
  refine leads_await_bind trivial (fun user => ?_) fun _ => h
  cases user with
  | none => exact h
  | some id =>
      cases account with
      | none => exact h
      | some x =>
          refine leads_await_bind h (fun _ => ?_) fun _ => h
          apply (leads_saveAccounts rfl).mono
          rintro s' out (⟨rfl, -⟩ | ⟨rfl, -⟩) <;> exact rfl

/-- The part of `syncLoginToCentral` after the user is known to the platform. -/
theorem leads_recordLogin (email : JsString) (matchScore : Option ℕ) (attendanceType : JsString)
    {s : Trail} (h : s.phase = .idle) : BridgeLeads cfg enrolled EndsIdle s (do
      let current : Option Held ← await (.getAccount email)
      match userIdOf current with
      | none => return CentralResult.skippedRemoteError
      | some userId =>
          let verification : Option JsString ←
            await (.recordVerification userId matchScore attendanceType)
          match verification with
          | none => return .skippedRemoteError
          | some verificationId =>
              let attendance : Option JsString ←
                await (.recordCheckIn userId verificationId attendanceType)
              match attendance with
              | none => return .skippedRemoteError
              | some id => return .synced id) := by
  refine leads_await_bind trivial (fun current => ?_) fun _ => h
  cases userIdOf current with
  | none => exact h
  | some userId =>
      refine leads_await_bind trivial (fun verification => ?_) fun _ => h
      cases verification with
      | none => exact h
      | some verificationId =>
          refine leads_await_bind trivial (fun attendance => ?_) fun _ => h
          cases attendance <;> exact h

theorem leads_syncLogin (email : JsString) (matchScore : Option ℕ) (attendanceType : JsString)
    {s : Trail} (h : s.phase = .idle) :
    BridgeLeads cfg enrolled EndsIdle s (syncLoginToCentral cfg email matchScore attendanceType) := by
  unfold syncLoginToCentral
  cases cfg.centralDeviceId with
  | none => exact h
  | some deviceId =>
      refine leads_await_bind trivial (fun account => ?_) fun _ => h
      split
      · apply (leads_backfillUser email account h).bind
        · exact fun s' _ hs' => leads_recordLogin email matchScore attendanceType hs'
        · exact fun s' _ hs' => hs'
      · exact leads_recordLogin email matchScore attendanceType h

theorem leads_code (a : BridgeCall cfg) : BridgeLeads cfg a.enrolls (CallEnds a) .start a.code := by
  cases a with
  | enroll email =>
      apply (leads_enroll email.lower_text).bind
      · rintro s x ⟨hidle, hsaw, herr, hok⟩
        refine ⟨hidle, fun _ _ hs => ?_, fun _ he => (by cases he), fun _ _ _ => hok x rfl⟩
        cases hsaw hs
      · rintro s e ⟨hidle, hsaw, herr, hok⟩
        refine ⟨hidle, ?_, fun _ _ hs _ => herr e rfl hs, fun _ he => (by cases he)⟩
        rintro _ ⟨⟩ hs
        cases hsaw hs
        rfl
  | simEnroll email =>
      apply (leads_simEnroll email.lower_text).bind
      · rintro s x ⟨hidle, hsaw, herr, hok⟩
        refine ⟨hidle, fun _ _ hs => ?_, fun _ he => (by cases he), fun _ _ _ => hok x rfl⟩
        cases hsaw hs
      · rintro s e ⟨hidle, hsaw, herr, hok⟩
        refine ⟨hidle, ?_, fun _ _ hs _ => herr e rfl hs, fun _ he => (by cases he)⟩
        rintro _ ⟨⟩ hs
        cases hsaw hs
        rfl
  | syncSignup email =>
      -- a call that enrols nobody only has to end idle
      have hidle : ∀ (s : Trail) out, s.phase = .idle → CallEnds (.syncSignup email) s out :=
        fun _ _ h => ⟨h, fun _ ha => (by cases ha), fun _ _ _ ha => (by cases ha),
          fun _ _ ha => (by cases ha)⟩
      apply (leads_syncSignup email.text rfl).bind
      · exact fun s _ hs => hidle s _ hs
      · exact fun s _ hs => hidle s _ hs
  | syncLogin email matchScore attendanceType =>
      have hidle : ∀ (s : Trail) out, s.phase = .idle →
          CallEnds (.syncLogin email matchScore attendanceType) s out :=
        fun _ _ h => ⟨h, fun _ ha => (by cases ha), fun _ _ _ ha => (by cases ha),
          fun _ _ ha => (by cases ha)⟩
      apply (leads_syncLogin email.text matchScore attendanceType rfl).bind
      · exact fun s _ hs => hidle s _ hs
      · exact fun s _ hs => hidle s _ hs
  | reset =>
      have hidle : ∀ (s : Trail) out, s.phase = .idle →
          CallEnds (.reset : BridgeCall cfg) s out :=
        fun _ _ h => ⟨h, fun _ ha => (by cases ha), fun _ _ _ ha => (by cases ha),
          fun _ _ ha => (by cases ha)⟩
      -- a reset clears the map and saves it
      have hreset : BridgeLeads cfg none EndsIdle .start reset := by
        unfold reset
        refine leads_await_bind rfl (fun _ => ?_) fun _ => rfl
        apply (leads_saveAccounts rfl).mono
        rintro s' out (⟨rfl, -⟩ | ⟨rfl, -⟩) <;> exact rfl
      apply hreset.bind
      · exact fun s _ hs => hidle s _ hs
      · exact fun s _ hs => hidle s _ hs

end ZeroAuth.Iot
