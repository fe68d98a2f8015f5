/-
  ZeroAuth.Tenant.Runs

  What holds in every run of the services, whatever the interleaving: the invariant in
  every state, and for every call that has ended its effect.

  A run may be restricted to steps that satisfy a condition; what the condition says
  about the statements that may execute is `ok`, and about their writes `extra`.
-/

import ZeroAuth.Tenant.Calls
import ZeroAuth.Tenant.Ceremony

namespace ZeroAuth.Tenant

open ZeroAuth.Lib ZeroAuth.Js ZeroAuth.Pg
open ZeroAuth.Audit (ChainedAuditPayload)

section Runs

variable {cfg : Settings} {pg : Jsonb} {ok : ℕ → Op → Oracle → World → Prop}
  {extra : Write → Prop} {t : ℕ} {w w' : World}

/-- A call that wraps the result of a service. -/
theorem safe_wrap {α : Type} {E : α → List Write → List ChainedAuditPayload → Prop}
    {p : Program α} {f : α → Result} {a : Call}
    (h : (discipline cfg pg ok extra).Safe t (Outcome E t) p w)
    (hE : ∀ x ws ps, E x ws ps → Effect cfg pg a (f x) ws ps) :
    (discipline cfg pg ok extra).Safe t (Post cfg pg a t) (p >>= fun x => pure (f x)) w := by
  apply Discipline.safe_bind
  apply h.mono
  intro out w' hout
  cases out with
  | error e =>
      refine hout.imp_right ?_
      rintro ⟨hlost, x, ws, ps, hdone, heffect⟩
      exact ⟨hlost, f x, ws, ps, hdone, hE x ws ps heffect⟩
  | ok x =>
      obtain ⟨ws, ps, hdone, heffect⟩ := hout
      exact ⟨ws, ps, hdone, hE x ws ps heffect⟩

theorem safe_code (hg : Guards pg ok extra) (a : Call) (h : Done t [] [] w) :
    (discipline cfg pg ok extra).Safe t (Post cfg pg a t) (code cfg a) w := by
  cases a with
  | createDevice => exact safe_wrap (safe_createDevice hg h) fun _ _ _ hE => hE
  | issueEnrollmentCode => exact safe_wrap (safe_issueEnrollmentCode hg h) fun _ _ _ hE => hE
  | regenerateEnrollmentCode =>
      exact safe_wrap (safe_regenerateEnrollmentCode hg h) fun _ _ _ hE => hE
  | claimDeviceWithCode => exact safe_wrap (safe_claimDeviceWithCode hg h) fun _ _ _ hE => hE
  | revokeDevice => exact safe_wrap (safe_revokeDevice hg h) fun _ _ _ hE => hE
  | updateDevice => exact safe_wrap (safe_updateDevice hg h) fun _ _ _ hE => hE
  | startRegistration => exact safe_wrap (safe_startRegistration hg h) fun _ _ _ hE => hE
  | pairDevice => exact safe_wrap (safe_pairDevice hg h) fun _ _ _ hE => hE
  | submitCommitment => exact safe_wrap (safe_submitCommitment hg h) fun _ _ _ hE => hE
  | completeRegistration => exact safe_wrap (safe_completeRegistration hg h) fun _ _ _ hE => hE
  | abandonRegistration => exact safe_wrap (safe_abandonRegistration hg h) fun _ _ _ hE => hE
  | getSignup => exact safe_wrap (safe_getSignup h) fun _ _ _ hE => hE
  | createTenantUser => exact safe_wrap (safe_createTenantUser hg h) fun _ _ _ hE => hE
  | updateTenantUser => exact safe_wrap (safe_updateTenantUser hg h) fun _ _ _ hE => hE
  | registerFaceFirst => exact safe_wrap (safe_registerFaceFirst hg h) fun _ _ _ hE => hE

/-- What a call has done, it has done for good. -/
theorem Post.rely {a : Call} {out : Except Failure Result} (h : Post cfg pg a t out w)
    (hr : Relies t w w') : Post cfg pg a t out w' := by
  cases out with
  | error e =>
      rcases h with hnone | ⟨hlost, x, ws, ps, hdone, heffect⟩
      · exact .inl (hnone.rely hr)
      · exact .inr ⟨hr.lost hlost, x, ws, ps, hdone.rely hr, heffect⟩
  | ok x =>
      obtain ⟨ws, ps, hdone, heffect⟩ := h
      exact ⟨ws, ps, hdone.rely hr, heffect⟩

theorem done_empty (h : Empty w) (t : ℕ) : Done t [] [] w := by
  obtain ⟨hstore, hspawned, -⟩ := h
  refine ⟨?_, ?_, ?_⟩
  · rw [hstore]
    rfl
  · rw [hstore]
    rfl
  · rw [World.spawnedBy, hspawned]
    rfl

/-- The condition on the steps of a run implies `ok` wherever an operation completes. -/
def Allows (good : State → Label Call Oracle Env → Prop)
    (ok : ℕ → Op → Oracle → World → Prop) : Prop :=
  ∀ (c : State) t ω a past o k, good c (.resume t ω) →
    c.threads[t]? = some ⟨a, past, .await o k⟩ → ok t o ω c.world

theorem allows_true (good : State → Label Call Oracle Env → Prop) :
    Allows good fun _ _ _ _ => True :=
  fun _ _ _ _ _ _ _ _ _ => trivial

theorem allows_onlyWhere (ok : ℕ → Op → Oracle → World → Prop) :
    Allows (System.OnlyWhere ok) ok :=
  fun _ _ _ a past o k hgood hth => hgood a past o k hth

variable {good : State → Label Call Oracle Env → Prop} {c : State}

theorem safe_of_reach (hg : Guards pg ok extra) (hok : Allows good ok)
    (h : (system cfg pg).Reach Empty good c) :
    Inv pg extra c.world ∧ (∀ t, c.threads.length ≤ t → Done t [] [] c.world) ∧
    ∀ t th, c.threads[t]? = some th →
      (discipline cfg pg ok extra).Safe t (Post cfg pg th.call t) th.rest c.world := by
  have hguarded := h.guarded hok
  exact hguarded.safe (D := discipline cfg pg ok extra) (P := fun _ => True)
    (Q := fun a t => Post cfg pg a t) (fun w hw => ⟨inv_empty hw, done_empty hw⟩)
    (fun a t w _ _ hf => safe_code hg a hf) (fun a t out w w' hp hr => hp.rely hr)
    fun _ _ _ => trivial

theorem inv_of_reach (hg : Guards pg ok extra) (hok : Allows good ok)
    (h : (system cfg pg).Reach Empty good c) : Inv pg extra c.world :=
  (safe_of_reach hg hok h).1

/-- A number that no call has yet has left nothing. -/
theorem done_of_reach (hg : Guards pg ok extra) (hok : Allows good ok)
    (h : (system cfg pg).Reach Empty good c) {t : ℕ} (ht : c.threads.length ≤ t) :
    Done t [] [] c.world :=
  (safe_of_reach hg hok h).2.1 t ht

/-- A call that has ended has had its effect. -/
theorem post_of_ended (hg : Guards pg ok extra) (hok : Allows good ok)
    (h : (system cfg pg).Reach Empty good c) {t : ℕ} {th : Thread sig Failure Result Call}
    (hth : c.threads[t]? = some th) {out : Except Failure Result}
    (hout : th.rest.outcome? = some out) : Post cfg pg th.call t out c.world := by
  have hs := (safe_of_reach hg hok h).2.2 t th hth
  obtain ⟨a, past, rest⟩ := th
  cases rest with
  | ret x =>
      cases hout
      exact hs
  | raise e =>
      cases hout
      exact hs
  | await o k => cases hout

end Runs

/-! ## A small installation -/

def jsonb : Jsonb := ⟨id, Json.Same.refl, Json.print⟩

/-- In production; texts are ASCII, dates are not printed, and Poseidon is the identity. -/
def settings : Settings :=
  { caseMapping := .ascii
    poseidon1 := id
    parseDate := fun _ => none
    toISOString := fun _ => []
    production := true }

def initial : World := ⟨.init [], 1000, [], [], []⟩

theorem empty_initial : Empty initial := ⟨rfl, rfl, rfl, rfl⟩

def tenantText : JsString := js "6ba7b810-9dad-11d1-80b4-00c04fd430c8"

def sessionUuid : Uuid := .ofNat 1

def admin : AuditActor := ⟨js "console", none, none⟩

/-- `startRegistration` to its end: the code is all first letters. -/
def starting (t : ℕ) (tenantId : JsString) (id : Uuid) : List (Label Call Oracle Env) :=
  .start (.startRegistration tenantId (js "live") none admin) ::
    ([{ ints := List.replicate (codeGroups * codeGroupLen) 0 }, {}, { uuid := id }, {}] :
      List Oracle).map (.resume t)

def phone : JsString := js "0123456789abcdef"

def deviceUuid : Uuid := .ofNat 2

/-- `pairDeviceForRegistration` with the first code, to its end. -/
def pairing (t : ℕ) : List (Label Call Oracle Env) :=
  .start (.pairDevice ⟨js "ZA-2222-2222", phone, none, none, none⟩) ::
    ([{ ints := List.replicate (codeGroups * codeGroupLen) 0 }, {}, {}, {}, {},
      { uuid := deviceUuid }, {}, {}, {}] : List Oracle).map (.resume t)

def sampleDid : JsString := js "did:zeroauth:face:0123456789abcdef"

def sampleCommitment : JsString := js "0123456789abcdef0123456789abcdef"

/-- `submitCommitmentForRegistration` with the code of the first letters, to its end. -/
def submitting (t : ℕ) : List (Label Call Oracle Env) :=
  .start (.submitCommitment ⟨js "ZA-2222-2222", sampleDid, sampleCommitment, none⟩) ::
    ([{ ints := List.replicate (codeGroups * codeGroupLen) 0 }, {},
      { bytes := List.replicate (challengeNonceHexLen / 2) 0 }, {}, {}, {}, {}, {}, {}] :
      List Oracle).map (.resume t)

/-- `abandonRegistration` to its end. -/
def abandoning (t : ℕ) : List (Label Call Oracle Env) :=
  [.start (.abandonRegistration tenantText (js "live") sessionUuid.text admin), .resume t {},
    .resume t {}]

end ZeroAuth.Tenant
