/-
  ZeroAuth.Audit.Verify

  The replay loop of `verifyAuditChain`, and what its verdict says about the
  rows it was given.
-/

import ZeroAuth.Audit.Event
import ZeroAuth.Lib.HashChain

namespace ZeroAuth.Audit

open ZeroAuth.Js ZeroAuth.Pg

inductive AuditVerdict
  | ok
  | broken (brokenAt : JsString) (reason : JsString)
  deriving DecidableEq

/-- The loop over the rows.  `expected` is `expectedPreviousHash`: `none` at the
    start and after a row without hashes. -/
def replay (expected : Option JsString) : List AuditRow → AuditVerdict
  | [] => .ok
  | row :: rows =>
      match row.previousHash, row.eventHash with
      | some previousHash, some eventHash =>
          if expected ≠ none ∧ expected ≠ some previousHash then
            .broken (numText 10 row.id) (js "previous_hash mismatch: row says " ++
              previousHash ++ js ", expected " ++ expected.getD [])
          else
            let recomputed := computeEventHash row.payload previousHash
            if recomputed ≠ eventHash then
              .broken (numText 10 row.id) (js "event_hash mismatch: row says " ++ eventHash ++
                js ", recomputed " ++ recomputed)
            else replay (some eventHash) rows
      -- the backfill window: rows without hashes are skipped and the chain restarts
      | _, _ => replay none rows

/-- A row that carries both hashes. -/
def AuditRow.Hashed (row : AuditRow) : Bool := row.previousHash.isSome && row.eventHash.isSome

/-- The event hash of a row is that of its payload and previous hash. -/
def AuditRow.HashOk (row : AuditRow) : Prop :=
  ∃ previousHash, row.previousHash = some previousHash ∧
    row.eventHash = some (computeEventHash row.payload previousHash)

theorem AuditRow.HashOk.hashed {row : AuditRow} (h : row.HashOk) : row.Hashed = true := by
  obtain ⟨p, hp, he⟩ := h
  simp [Hashed, hp, he]

/-- Where the chain link of a row is in order. -/
def LinkOk (expected : Option JsString) (row : AuditRow) : Prop :=
  expected = none ∨ row.previousHash = expected

end ZeroAuth.Audit
