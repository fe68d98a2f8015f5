/-
  ZeroAuth.Audit.Concurrent

  Runs of any number of concurrent `appendAuditEvent` and `verifyAuditChain`
  calls, from an empty table.

  Two texts that denote one tenant id may hash to two advisory locks, and then
  two appends of one tenant do not wait for each other.  In runs whose calls
  take one lock per tenant the chains stay linear (`chains_never_fork`).
-/

import ZeroAuth.Audit.Chain

namespace ZeroAuth.Audit

open ZeroAuth.Lib ZeroAuth.Lib.HashChain ZeroAuth.Js ZeroAuth.Pg

/-- No rows, no transactions. -/
def Empty (w : World) : Prop := w.store = .init []

/-- A label starts only appends that satisfy `ok`. -/
def Appends (ok : ChainedAuditPayload → Prop) (_ : Config sig DbError Result Call World) :
    Label Call Oracle Env → Prop
  | .start (.append payload) => ok payload
  | _ => True

/-- The append takes the lock that `lockKey` assigns to its tenant. -/
def TakesLock (pg : Postgres) (lockKey : Uuid → ℤ) (payload : ChainedAuditPayload) : Prop :=
  ∀ u, Uuid.parse payload.tenantId = some u → pg.hashtext payload.tenantId = lockKey u

section Runs

variable {pg : Postgres} {lockKey : Uuid → ℤ} {okRow : AuditRow → Prop} {t : ℕ} {w : World}
  {ok : ChainedAuditPayload → Prop} {c : Config sig DbError Result Call World}

theorem chainInv_empty (h : Empty w) : ChainInv lockKey okRow w := by
  refine ⟨h ▸ Store.locked_init _, ?_, fun t tx htx => ?_⟩
  · rw [h]
    exact .nil okRow _
  · rw [h] at htx
    cases htx

theorem conns_empty (h : Empty w) (t : ℕ) : w.store.conns t = .idle := by
  rw [h]
  rfl

/-- The verdict is that of a part of the committed chain. -/
theorem safe_verifyAuditChain {text : JsString} {e : Option JsString} {options : VerifyOptions}
    {Q : Except DbError AuditVerdict → World → Prop}
    (hok : ∀ (u : Uuid) (start : ℤ) (n : ℕ) w', ChainInv lockKey okRow w' →
      Q (.ok (replay none (((chainOf w'.store.db u e).filter fun r => start ≤ r.id).take n))) w')
    (herr : ∀ err w', Q (.error err) w') :
    (discipline pg lockKey okRow).Safe t Q (verifyAuditChain text e options) w := by
  refine Discipline.safe_bind (Discipline.safe_perform fun w₁ hi _ ω r w₂ hx => ?_)
  cases ω with
  | fail err =>
      cases hx
      exact ⟨hi, fun t' _ => .refl _ t' _, herr _ _⟩
  | proceed =>
      simp only [exec] at hx
      split at hx
      · cases hx
        exact ⟨hi, fun t' _ => .refl _ t' _, hok _ _ _ _ hi⟩
      · cases hx
        exact ⟨hi, fun t' _ => .refl _ t' _, herr _ _⟩

/-- Every call is safe from a fresh thread, when the append writes a good row.
    `Q` need only hold of the verdicts. -/
theorem safe_code {Q : Except DbError Result → World → Prop}
    (hhash : ∀ r, okRow r → r.eventHash.isSome) (happended : ∀ a w, Q (.ok (.appended a)) w)
    (hverified : ∀ u e (start : ℤ) (n : ℕ) w, ChainInv lockKey okRow w → Q (.ok (.verified
      (replay none (((chainOf w.store.db u e).filter fun r => start ≤ r.id).take n)))) w)
    (herr : ∀ err w, Q (.error err) w) {a : Call}
    (ha : ∀ payload, a = .append payload → OkAppend pg lockKey okRow payload)
    (hfresh : w.store.conns t = .idle) :
    (discipline pg lockKey okRow).Safe t Q (code a) w := by
  cases a with
  | append payload =>
      refine Discipline.safe_bind ((safe_appendAuditEvent (ha payload rfl) hhash hfresh).mono ?_)
      intro out w' _
      cases out with
      | ok a => exact happended _ _
      | error err => exact herr _ _
  | verify text e options =>
      refine Discipline.safe_bind (safe_verifyAuditChain (fun u start n w' hi => ?_)
        fun err w' => herr _ _)
      exact hverified u e start n w' hi

/-- The invariant of every run, and a verdict that holds of all parts of sound
    chains holds of every call that has ended. -/
theorem chainInv_of_reach (hhash : ∀ r, okRow r → r.eventHash.isSome)
    (hok : ∀ payload, ok payload → OkAppend pg lockKey okRow payload)
    (h : (system pg).Reach Empty (Appends ok) c) : ChainInv lockKey okRow c.world := by
  refine (System.Reach.safe (D := discipline pg lockKey okRow)
    (P := fun a => ∀ payload, a = .append payload → ok payload)
    (Q := fun _ _ _ _ => True) (fun w hw => ⟨chainInv_empty hw, conns_empty hw⟩)
    (fun a t w ha _ hfresh => ?_) (fun _ _ _ _ _ _ _ => trivial) (fun c a hg payload ha => ?_)
    h).1
  · exact safe_code hhash (fun _ _ => trivial) (fun _ _ _ _ _ _ => trivial) (fun _ _ => trivial)
      (fun payload hp => hok payload (ha payload hp)) hfresh
  · subst ha
    exact hg

end Runs

/-! ## One list per chain -/

/-- The lock of a tenant is all that an append has to respect. -/
theorem okAppend_of_takesLock {pg : Postgres} {lockKey : Uuid → ℤ} {payload : ChainedAuditPayload}
    (h : TakesLock pg lockKey payload) :
    OkAppend pg lockKey (fun r => r.eventHash.isSome = true) payload :=
  ⟨h, fun _ _ _ _ _ _ _ => rfl⟩

/-- When all appends that name one tenant take one advisory lock, the committed
    rows of each tenant and environment form one list in id order, at every
    moment of every run. -/
theorem chains_never_fork (pg : Postgres) (lockKey : Uuid → ℤ)
    {c : Config sig DbError Result Call World}
    (h : (system pg).Reach Empty (Appends (TakesLock pg lockKey)) c) (u : Uuid)
    (e : Option JsString) :
    Linked AuditRow.previousHash AuditRow.eventHash (some genesisPreviousHash)
      (chainOf c.world.store.db u e) := by
  have hinv := chainInv_of_reach (fun _ hr => hr) (fun _ => okAppend_of_takesLock) h
  have hlinear := hinv.committed.linear u e
  rw [hlinear.chainOf_eq]
  exact hlinear.linked

/-- An append as `GET /audit-integrity` makes it. -/
def integrityCheck (tenantId : JsString) : ChainedAuditPayload :=
  { tenantId := tenantId
    environment := none
    actorType := js "system"
    actorId := none
    action := js "audit.integrity_check"
    entityType := js "tenant"
    entityId := some tenantId
    status := js "success"
    summary := js "Audit hash chain verified"
    metadata := .obj [(js "startId", .str (js "0")), (js "limit", .num ⟨js "100000", by decide⟩)] }

def tenantLower : JsString := js "6ba7b810-9dad-11d1-80b4-00c04fd430c8"

def tenantUpper : JsString := js "6BA7B810-9DAD-11D1-80B4-00C04FD430C8"

def tenant : Uuid := .ofNat 0x6ba7b8109dad11d180b400c04fd430c8

/-- A database whose `hashtext` tells the two texts apart. -/
def postgres : Postgres :=
  ⟨fun s => ((s.map Fin.val).sum : ℕ), id, fun _ => rfl⟩

/-- Two appends whose statements run in the order `turns`. -/
def twoAppends (first second : JsString) (turns : List ℕ) : List (Label Call Oracle Env) :=
  [.start (.append (integrityCheck first)), .start (.append (integrityCheck second))] ++
    turns.map fun t => .resume t .proceed

theorem empty_initial : Empty initial := rfl

theorem keeps_twoAppends {Y : System sig DbError Result Call World Oracle Env}
    {ok : ChainedAuditPayload → Prop} {first second : JsString} {turns : List ℕ}
    {c : Config sig DbError Result Call World} (h₁ : ok (integrityCheck first))
    (h₂ : ok (integrityCheck second)) : Y.Keeps (Appends ok) c (twoAppends first second turns) := by
  refine System.keeps_of_forall fun c l hl => ?_
  simp only [twoAppends, List.mem_append, List.mem_cons, List.not_mem_nil, or_false,
    List.mem_map] at hl
  obtain (rfl | rfl) | ⟨t, -, rfl⟩ := hl
  · exact h₁
  · exact h₂
  · trivial

/-- The second of two appends with one text waits for the first one's lock. -/
theorem run_twoAppends : ∃ c, (system postgres).run (.init initial)
      (twoAppends tenantLower tenantLower [0, 0, 0, 1, 1, 0, 0, 0, 1, 1, 1, 1]) = some c ∧
    (chainOf c.world.store.db tenant none).length = 2 := by
  have hrun : (((system postgres).run (.init initial)
      (twoAppends tenantLower tenantLower [0, 0, 0, 1, 1, 0, 0, 0, 1, 1, 1, 1])).map
      fun c => (chainOf c.world.store.db tenant none).length) = some 2 := by
    decide +kernel
  exact Option.map_eq_some_iff.mp hrun

/-- Two appends for one tenant and the chain they leave. -/
theorem chains_never_fork_of_two : ∃ c, (system postgres).run (.init initial)
      (twoAppends tenantLower tenantLower [0, 0, 0, 1, 1, 0, 0, 0, 1, 1, 1, 1]) = some c ∧
    (chainOf c.world.store.db tenant none).length = 2 ∧
    Linked AuditRow.previousHash AuditRow.eventHash (some genesisPreviousHash)
      (chainOf c.world.store.db tenant none) := by
  obtain ⟨c, hc, hlength⟩ := run_twoAppends
  refine ⟨c, hc, hlength, chains_never_fork postgres (fun _ => postgres.hashtext tenantLower)
    (System.Reach.run (.init empty_initial) (keeps_twoAppends ?_ ?_) hc) _ _⟩
  · exact fun _ _ => rfl
  · exact fun _ _ => rfl

/-- With the tenant id in two spellings the two appends hold different locks,
    and both rows name `'genesis'`. -/
theorem chain_forks : ¬ ∀ (pg : Postgres) (c : Config sig DbError Result Call World),
    (system pg).Reach Empty (fun _ _ => True) c → ∀ u e,
      Linked AuditRow.previousHash AuditRow.eventHash (some genesisPreviousHash)
        (chainOf c.world.store.db u e) := by
  intro h
  have hrun : (((system postgres).run (.init initial) (twoAppends tenantLower tenantUpper
      [0, 0, 0, 0, 1, 1, 1, 1, 1, 1, 0, 0])).map fun c => decide (Linked AuditRow.previousHash
      AuditRow.eventHash (some genesisPreviousHash) (chainOf c.world.store.db tenant none))) =
      some false := by
    decide +kernel
  obtain ⟨c, hc, hfork⟩ := Option.map_eq_some_iff.mp hrun
  exact of_decide_eq_false hfork (h postgres c (System.Reach.run (.init empty_initial)
    (System.keeps_of_forall fun _ _ _ => trivial) hc) tenant none)

end ZeroAuth.Audit
