/-
  ZeroAuth.Verifier.Tamper

  What the replay of the verifier's audit log says about a table that was
  edited.  If it accepts the table and the last hash is the honest one, nothing was
  edited, unless the chain begins again behind a row whose hash is the one that the
  first row names (`Restarted`).  And a row that was changed in place stops it, unless
  a row before it was hashed with a lone surrogate and stops it first
  (`log_tamper_evident`).
-/

import ZeroAuth.Verifier.Chain

namespace ZeroAuth.Verifier

open ZeroAuth.Lib ZeroAuth.Lib.HashChain ZeroAuth.Js ZeroAuth.Pg

/-! ## The text that is hashed -/

theorem sortProps_props (e : Entry JsString) : Json.sortProps e.props =
    [(js "circuit_version", .str e.circuitVersion), (js "correlation_id", .str e.correlationId),
      (js "created_at", .str e.createdAt), (js "environment", .str e.environment),
      (js "id", .str e.id), (js "latency_us", .num (.ofInt e.latencyUs)),
      (js "prev_hash", .str e.prevHash), (js "proof_hash", .str e.proofHash),
      (js "pub_signals_hash", .str e.pubSignalsHash), (js "sequence", .num (.ofInt e.sequence)),
      (js "structural_fallback", .num (.ofInt e.structuralFallback)),
      (js "tenant_id", .str e.tenantId), (js "verified", .num (.ofInt e.verified))] := rfl

/-- The sorted properties determine the entry. -/
theorem sortProps_props_injective {e e' : Entry JsString}
    (h : Json.sortProps e.props = Json.sortProps e'.props) : e = e' := by
  rw [sortProps_props, sortProps_props] at h
  simp only [List.cons.injEq, Prod.mk.injEq, Json.str.injEq, Json.num.injEq,
    JsNumber.ofInt_injective.eq_iff, true_and, and_true] at h
  obtain ⟨h₁, h₂, h₃, h₄, h₅, h₆, h₇, h₈, h₉, h₁₀, h₁₁, h₁₂, h₁₃⟩ := h
  cases e
  simp only at h₁ h₂ h₃ h₄ h₅ h₆ h₇ h₈ h₉ h₁₀ h₁₁ h₁₂ h₁₃
  subst h₁ h₂ h₃ h₄ h₅ h₆ h₇ h₈ h₉ h₁₀ h₁₁ h₁₂ h₁₃
  rfl

/-- The hashed bytes are the text of an object and what follows its brace. -/
theorem preimage_injective {e e' : Entry JsString} {x x' : JsString} (hx : WellFormed x = true)
    (hx' : WellFormed x' = true) (h : preimage e x = preimage e' x') : e = e' ∧ x = x' := by
  have hwf : ∀ (e : Entry JsString) (x : JsString), WellFormed x = true →
      WellFormed (canonicalSerialize e ++ x) = true := by
    intro e x hx
    rw [canonicalSerialize, wellFormed_append (Json.wellFormed_print _)]
    exact hx
  have htext := utf8_injective_of_wellFormed (hwf e x hx) (hwf e' x' hx') h
  obtain ⟨hprops, hrest⟩ := Json.print_obj_append_inj htext
  exact ⟨sortProps_props_injective hprops, hrest⟩

theorem SqlText.text_injective : Function.Injective SqlText.text := by
  rintro ⟨s, hs⟩ ⟨s', hs'⟩ h
  cases h
  rfl

theorem StoredRow.read_injective : Function.Injective StoredRow.read := by
  rintro ⟨e, hash⟩ ⟨e', hash'⟩ h
  simp only [StoredRow.read, AuditRow.map, Entry.map, AuditRow.mk.injEq, Entry.mk.injEq,
    SqlText.text_injective.eq_iff] at h
  obtain ⟨⟨h₁, h₂, h₃, h₄, h₅, h₆, h₇, h₈, h₉, h₁₀, h₁₁, h₁₂, h₁₃⟩, rfl⟩ := h
  cases e
  simp only at h₁ h₂ h₃ h₄ h₅ h₆ h₇ h₈ h₉ h₁₀ h₁₁ h₁₂ h₁₃
  subst h₁ h₂ h₃ h₄ h₅ h₆ h₇ h₈ h₉ h₁₀ h₁₁ h₁₂ h₁₃
  rfl

/-! ## The entries of a run -/

/-- The entries of the rows that a run adds, as they were hashed: before their strings
    were stored. -/
def hashedEntries (circuitVersion : JsString) : List Step → Log → List (Entry JsString)
  | [], _ => []
  | st :: steps, s =>
      (if (s.step circuitVersion st).rows = s.rows then []
        else (s.entry circuitVersion st).toList) ++
      hashedEntries circuitVersion steps (s.step circuitVersion st)

/-- A run stores its entries in turn; each names the hash of the row before it. -/
theorem LogOk.rows_foldl {circuitVersion : JsString} {steps : List Step} {s : Log} (h : LogOk s) :
    LogOk (steps.foldl (Log.step circuitVersion) s) ∧
    (steps.foldl (Log.step circuitVersion) s).rows =
      s.rows ++ (hashedEntries circuitVersion steps s).map (fun e => e.stored e.prevHash) ∧
    ∀ e ∈ hashedEntries circuitVersion steps s, WellFormed e.prevHash = true := by
  induction steps generalizing s with
  | nil => exact ⟨h, by simp [hashedEntries], by simp [hashedEntries]⟩
  | cons st steps ih =>
      obtain ⟨hstep, hgrows⟩ := h.step circuitVersion st
      obtain ⟨hlog, hrows, hprevs⟩ := ih hstep
      obtain hsame | ⟨e, prevHash, he, rfl, hhead, hnew⟩ := hgrows
      · rw [List.foldl_cons, hashedEntries, if_pos hsame, List.nil_append]
        exact ⟨hlog, by rw [hrows, hsame], hprevs⟩
      · have hne : (s.step circuitVersion st).rows ≠ s.rows := by
          rw [hnew]
          simp
        rw [List.foldl_cons, hashedEntries, if_neg hne, he]
        refine ⟨hlog, by rw [hrows, hnew]; simp, fun e' he' => ?_⟩
        rcases List.mem_cons.mp he' with rfl | he'
        · exact hhead ▸ wellFormed_headHash _
        · exact hprevs e' he'

/-! ## Hashes that determine their entries -/

/-- The bytes that are hashed for an entry behind the row that it names. -/
def Entry.preimage (e : Entry JsString) : List UInt8 := Verifier.preimage e e.prevHash

/-- SHA-256 is injective on the preimages of these entries. -/
def HashInjective (es : List (Entry JsString)) : Prop :=
  ∀ e ∈ es, ∀ e' ∈ es, sha256 e.preimage = sha256 e'.preimage → e.preimage = e'.preimage

/-- The columns of rows as they are read back, without their hashes. -/
def entriesOf (rows : List StoredRow) : List (Entry JsString) :=
  rows.map fun r => r.read.toEntry

theorem mem_entriesOf {rows : List StoredRow} {r : StoredRow} (h : r ∈ rows) :
    r.read.toEntry ∈ entriesOf rows :=
  List.mem_map_of_mem h

/-- Two entries are equal if their hashes are. -/
theorem eq_of_computeEntryHash_eq {es : List (Entry JsString)} (hinj : HashInjective es)
    {e e' : Entry JsString} (he : e ∈ es) (he' : e' ∈ es) (hprev : WellFormed e.prevHash = true)
    (hprev' : WellFormed e'.prevHash = true)
    (h : computeEntryHash e e.prevHash = computeEntryHash e' e'.prevHash) : e = e' :=
  (preimage_injective hprev hprev' (hinj e he e' he' (hexBytes_injective h))).1

theorem StoredRow.wellFormed_read (r : StoredRow) : r.read.toEntry.WellFormed := by
  simp only [Entry.WellFormed, Entry.texts, StoredRow.read, AuditRow.map, Entry.map,
    List.forall_mem_cons]
  exact ⟨r.id.wellFormed, r.tenantId.wellFormed, r.environment.wellFormed,
    r.circuitVersion.wellFormed, r.correlationId.wellFormed, r.proofHash.wellFormed,
    r.pubSignalsHash.wellFormed, r.createdAt.wellFormed, r.prevHash.wellFormed, by simp⟩

/-- A row that carries its own hash is the stored form of its columns. -/
theorem stored_read {r : StoredRow} (hok : HashOk r.read) :
    r.read.toEntry.stored r.read.prevHash = r := by
  apply StoredRow.read_injective
  rw [read_map_hashed r.wellFormed_read]
  show (⟨r.read.toEntry, _⟩ : AuditRow JsString) = ⟨r.read.toEntry, r.read.entryHash⟩
  rw [hok]

/-- The rows are the stored forms of these entries and a chain from the start. -/
structure Recorded (es : List (Entry JsString)) (rows : List StoredRow) : Prop where
  stored : rows = es.map fun e => e.stored e.prevHash
  prevs : ∀ e ∈ es, WellFormed e.prevHash = true
  chained : Chained genesisPrevHash (rows.map StoredRow.read)

section Recorded

variable {es : List (Entry JsString)} {L S rows : List StoredRow} {e : Entry JsString}
  {r : StoredRow}

/-- A row that carries its own hash, which is the hash of an entry, has the columns of
    the entry as they were hashed. -/
theorem Recorded.read_eq (h : Recorded es L) (hinj : HashInjective (es ++ entriesOf rows))
    (he : e ∈ es) (hr : r ∈ rows) (hok : HashOk r.read)
    (hhash : (e.stored e.prevHash).entryHash = r.entryHash) : r.read.toEntry = e := by
  have hcomputed : computeEntryHash r.read.toEntry r.read.prevHash =
      computeEntryHash e e.prevHash := by
    rw [← entryHash_stored e e.prevHash, hhash]
    exact hok
  exact eq_of_computeEntryHash_eq hinj (List.mem_append_right _ (mem_entriesOf hr))
    (List.mem_append_left _ he) r.prevHash.wellFormed (h.prevs e he) hcomputed

/-- Such a row is the stored entry, which had no lone surrogate. -/
theorem Recorded.eq_stored (h : Recorded es L) (hinj : HashInjective (es ++ entriesOf rows))
    (he : e ∈ es) (hr : r ∈ rows) (hok : HashOk r.read)
    (hhash : (e.stored e.prevHash).entryHash = r.entryHash) :
    e.stored e.prevHash = r ∧ e.WellFormed := by
  have hread := h.read_eq hinj he hr hok hhash
  refine ⟨?_, hread ▸ r.wellFormed_read⟩
  rw [← hread]
  exact stored_read hok

/-- A stored entry carries its own hash if it had no lone surrogate, and only then. -/
theorem Recorded.hashOk_iff (h : Recorded es L) (hinj : HashInjective (es ++ entriesOf rows))
    (he : e ∈ es) (hr : e.stored e.prevHash ∈ rows) :
    HashOk (e.stored e.prevHash).read ↔ e.WellFormed := by
  refine ⟨fun hok => (h.eq_stored hinj he hr hok rfl).2, fun hwf => ?_⟩
  rw [read_map_hashed hwf]
  rfl

/-- The rows up to a place carry their own hashes if the entries had no lone
    surrogates. -/
theorem Recorded.hashOk_take (h : Recorded es L) {i : ℕ} (hwf : ∀ e ∈ es.take i, e.WellFormed) :
    ∀ r ∈ L.take i, HashOk r.read := by
  intro r hr
  rw [h.stored, ← List.map_take] at hr
  obtain ⟨e, he, rfl⟩ := List.mem_map.mp hr
  rw [read_map_hashed (hwf e he)]
  rfl

theorem Recorded.hashOk_drop (h : Recorded es L) {i : ℕ} (hwf : ∀ e ∈ es.drop i, e.WellFormed) :
    ∀ r ∈ L.drop i, HashOk r.read := by
  intro r hr
  rw [h.stored, ← List.map_drop] at hr
  obtain ⟨e, he, rfl⟩ := List.mem_map.mp hr
  rw [read_map_hashed (hwf e he)]
  rfl

/-! ## Where the replay stops -/

/-- A chain from the start, all of whose rows carry their own hashes. -/
def Sound (rows : List StoredRow) : Prop :=
  Chained genesisPrevHash (rows.map StoredRow.read) ∧ ∀ r ∈ rows, HashOk r.read

theorem Sound.forall_read (h : Sound rows) : ∀ r ∈ rows.map StoredRow.read, HashOk r := by
  intro r hr
  obtain ⟨s, hs, rfl⟩ := List.mem_map.mp hr
  exact h.2 s hs

/-- The replay accepts exactly the sound tables. -/
theorem verifyTable_iff_sound : (verifyTable rows).ok = true ↔ Sound rows := by
  constructor
  · intro h
    obtain ⟨hc, hok⟩ := verifyRows_ok h
    exact ⟨hc, fun r hr => hok _ (List.mem_map_of_mem hr)⟩
  · intro h
    have happend := verifyRows_append h.1 h.forall_read 0 []
    rw [List.append_nil] at happend
    rw [verifyTable, happend, verifyRows]

/-- The rows that the replay has counted carry their own hashes. -/
theorem hashOk_of_rowsChecked {first : JsString} {rows : List (AuditRow JsString)} {n i : ℕ}
    (h : n + i ≤ (verifyRows first n rows).rowsChecked) : ∀ r ∈ rows.take i, HashOk r := by
  induction rows generalizing first n i with
  | nil => simp
  | cons r rows ih =>
      cases i with
      | zero => simp
      | succ i =>
          rw [verifyRows] at h
          by_cases hprev : r.prevHash = first
          · rw [if_neg (not_not.mpr hprev)] at h
            by_cases hr : computeEntryHash r.toEntry first = r.entryHash
            · simp only [hr, ne_eq, not_true_eq_false, if_false] at h
              rw [List.take_succ_cons, List.forall_mem_cons, HashOk, hprev]
              exact ⟨hr, ih (show n + 1 + i ≤ (verifyRows r.entryHash (n + 1) rows).rowsChecked by omega)⟩
            · simp only [ne_eq, hr, not_false_eq_true, if_true] at h
              omega
          · rw [if_pos hprev] at h
            change n + (i + 1) ≤ n at h
            omega

/-- Behind a sound part of the table, a row that does not carry its own hash or does
    not name the one before it stops the replay. -/
theorem verifyTable_stops {kept : List StoredRow} (hkept : Sound kept) (hr : ¬ HashOk r.read)
    (rest : List StoredRow) : (verifyTable (kept ++ r :: rest)).ok = false ∧
      (verifyTable (kept ++ r :: rest)).rowsChecked = kept.length := by
  rw [verifyTable, List.map_append, verifyRows_append hkept.1 hkept.forall_read, List.length_map,
    Nat.zero_add, List.map_cons, verifyRows]
  by_cases hprev : r.read.prevHash = headHash (kept.map StoredRow.read)
  · have hne : computeEntryHash r.read.toEntry (headHash (kept.map StoredRow.read)) ≠
        r.read.entryHash := hprev ▸ hr
    rw [if_neg (not_not.mpr hprev)]
    simp only [if_pos hne, and_self]
  · rw [if_pos hprev]
    exact ⟨rfl, rfl⟩

/-! ## Honest rows and other rows -/

/-- What an accepted table with the honest last hash is to be. -/
def Intact (L S : List StoredRow) : Prop :=
  (verifyTable S).ok = true →
    S.getLast?.map (fun r => r.entryHash) = L.getLast?.map (fun r => r.entryHash) → S = L

/-- The rows `S` have the end of the rows `L`, but another beginning: each of the two
    beginnings is empty or ends in the hash that the first row of a table names, so that
    the chain begins again behind it.  The other beginning is sound, and no entry of the
    common end had a lone surrogate. -/
structure Restarted (es : List (Entry JsString)) (L S : List StoredRow) : Prop where
  last : S.getLast?.map (fun r => r.entryHash) = L.getLast?.map (fun r => r.entryHash)
  split : ∃ cut front kept, L = cut ++ kept ∧ S = front ++ kept ∧ cut ≠ front ∧
    headHash (cut.map StoredRow.read) = genesisPrevHash ∧
    headHash (front.map StoredRow.read) = genesisPrevHash ∧ Sound front ∧
    ∀ e ∈ es.drop cut.length, e.WellFormed

theorem headHash_of_getLast
    (h : S.getLast?.map (fun r => r.entryHash) = L.getLast?.map (fun r => r.entryHash)) :
    headHash (L.map StoredRow.read) = headHash (S.map StoredRow.read) := by
  obtain rfl | ⟨L, r, rfl⟩ := L.eq_nil_or_concat
  · rw [List.getLast?_nil, Option.map_none, Option.map_eq_none_iff, List.getLast?_eq_none_iff] at h
    rw [h]
  · obtain rfl | ⟨S, s, rfl⟩ := S.eq_nil_or_concat
    · simp at h
    · rw [List.concat_eq_append, List.concat_eq_append] at h ⊢
      rw [List.getLast?_concat, List.getLast?_concat, Option.map_some, Option.map_some] at h
      rw [headHash_append, headHash_append, Option.some.inj h]

/-- The replay does not see that a chain begins again. -/
theorem Restarted.sound (h : Recorded es L) (hrestart : Restarted es L S) : Sound S := by
  obtain ⟨cut, front, kept, rfl, rfl, -, hcut, hfront, hsound, hwf⟩ := hrestart.split
  have hchained := h.chained
  have hkept := h.hashOk_drop hwf
  rw [List.drop_left] at hkept
  rw [List.map_append] at hchained
  refine ⟨?_, fun r hr => (List.mem_append.mp hr).elim (hsound.2 r) (hkept r)⟩
  rw [List.map_append]
  refine (linked_append _ _).mpr ⟨hsound.1, ?_⟩
  have hrest := ((linked_append _ _).mp hchained).2
  rw [show headOf AuditRow.entryHash genesisPrevHash (cut.map StoredRow.read) = _ from hcut] at hrest
  rwa [show headOf AuditRow.entryHash genesisPrevHash (front.map StoredRow.read) = _ from hfront]

/-- An accepted table with the honest last hash has the honest rows, unless the chain
    begins again in one of the two. -/
theorem intact_iff (h : Recorded es L) (hinj : HashInjective (es ++ entriesOf S)) :
    Intact L S ↔ ¬ Restarted es L S := by
  constructor
  · intro hintact hrestart
    have hsame := hintact (verifyTable_iff_sound.mpr (hrestart.sound h)) hrestart.last
    obtain ⟨cut, front, kept, rfl, rfl, hne, -⟩ := hrestart.split
    exact hne (List.append_cancel_right hsame).symm
  · intro hnot hok hlast
    by_contra hne
    have hS := verifyTable_iff_sound.mp hok
    have hmem : ∀ r ∈ L, ∃ e ∈ es, e.stored e.prevHash = r := by
      rw [h.stored]
      exact fun r hr => List.mem_map.mp hr
    -- backwards from the last hash every hash determines its row
    have hrows : ∀ a ∈ L.map StoredRow.read, ∀ b ∈ S.map StoredRow.read,
        a.entryHash = b.entryHash → a = b := by
      intro a ha b hb hab
      obtain ⟨r, hr, rfl⟩ := List.mem_map.mp ha
      obtain ⟨s, hs, rfl⟩ := List.mem_map.mp hb
      obtain ⟨e, he, rfl⟩ := hmem r hr
      rw [(h.eq_stored hinj he hs (hS.2 s hs) (SqlText.text_injective hab)).1]
    obtain ⟨cut, front, kept, hcutL, hfrontS, hcut, hfront⟩ :=
      common_end_of_headOf_eq _ _ h.chained hS.1 hrows (headHash_of_getLast hlast)
    obtain ⟨cut, kept, rfl, rfl, rfl⟩ := List.map_eq_append_iff.mp hcutL
    obtain ⟨front, kept', rfl, rfl, hkept⟩ := List.map_eq_append_iff.mp hfrontS
    obtain rfl := List.map_injective_iff.mpr StoredRow.read_injective hkept
    refine hnot ⟨hlast, cut, front, kept', rfl, rfl, ?_, hcut, hfront, ⟨?_, ?_⟩, ?_⟩
    · rintro rfl
      exact hne rfl
    · have hchained := hS.1
      rw [List.map_append] at hchained
      exact ((linked_append _ _).mp hchained).1
    · exact fun r hr => hS.2 r (List.mem_append_left _ hr)
    · intro e he
      have hstored : e.stored e.prevHash ∈ kept' := by
        have hdrop := congrArg (List.drop cut.length) h.stored
        rw [List.drop_left, ← List.map_drop] at hdrop
        rw [hdrop]
        exact List.mem_map_of_mem he
      have hread := List.mem_append_right front hstored
      exact (h.hashOk_iff hinj (List.mem_of_mem_drop he) hread).mp (hS.2 _ hread)

/-- Where no row has the hash that the first row names, no chain begins again. -/
theorem not_restarted (hzero : ∀ r ∈ L ++ S, r.entryHash.text ≠ genesisPrevHash) :
    ¬ Restarted es L S := by
  intro hrestart
  obtain ⟨cut, front, kept, rfl, rfl, hne, hcut, hfront, -⟩ := hrestart.split
  have hnil : ∀ {part : List StoredRow}, part ⊆ (cut ++ kept) ++ (front ++ kept) →
      headHash (part.map StoredRow.read) = genesisPrevHash → part = [] := by
    intro part hsub hhead
    refine List.map_eq_nil_iff.mp (eq_nil_of_headOf_eq _ (fun a ha => ?_) hhead)
    obtain ⟨r, hr, rfl⟩ := List.mem_map.mp ha
    exact hzero r (hsub hr)
  refine hne ((hnil ?_ hcut).trans (hnil ?_ hfront).symm)
  · exact fun r hr => List.mem_append_left _ (List.mem_append_left _ hr)
  · exact fun r hr => List.mem_append_right _ (List.mem_append_left _ hr)

/-- What the replay of a table is to say in which row `i` was changed. -/
def StopsAt (S : List StoredRow) (i : ℕ) : Prop :=
  (verifyTable S).ok = false ∧ (verifyTable S).rowsChecked = i

/-- A changed row that kept its hash stops the replay, unless a row before it does. -/
theorem stopsAt_iff (h : Recorded es L) {i : ℕ} (hi : i < L.length) {r' : StoredRow}
    (hinj : HashInjective (es ++ entriesOf (L.set i r'))) (hne : r' ≠ L[i])
    (hhash : r'.entryHash = L[i].entryHash) :
    StopsAt (L.set i r') i ↔ ∀ e ∈ es.take i, e.WellFormed := by
  have hset : L.set i r' = L.take i ++ r' :: L.drop (i + 1) := by
    rw [List.set_eq_take_append_cons_drop, if_pos hi]
  have hlength : (L.take i).length = i := by
    rw [List.length_take, Nat.min_eq_left (Nat.le_of_lt hi)]
  have htake : L.take i = (es.take i).map fun e => e.stored e.prevHash := by
    rw [List.map_take, ← h.stored]
  constructor
  · rintro ⟨-, hchecked⟩ e he
    have hstored : e.stored e.prevHash ∈ L.take i := by
      rw [htake]
      exact List.mem_map_of_mem he
    have hcounted : ∀ r ∈ ((L.set i r').map StoredRow.read).take i, HashOk r :=
      hashOk_of_rowsChecked ((Nat.zero_add i).trans_le hchecked.ge)
    rw [← List.map_take, hset, List.take_append_of_le_length hlength.ge, List.take_take,
      Nat.min_self] at hcounted
    rw [hset] at hinj
    exact (h.hashOk_iff hinj (List.mem_of_mem_take he) (List.mem_append_left _ hstored)).mp
      (hcounted _ (List.mem_map_of_mem hstored))
  · intro hwf
    have hkept : Sound (L.take i) := by
      refine ⟨?_, h.hashOk_take hwf⟩
      have hchained := h.chained
      rw [← List.take_append_drop i L, List.map_append] at hchained
      exact ((linked_append _ _).mp hchained).1
    -- the row would be the honest one if it carried its own hash
    have hbad : ¬ HashOk r'.read := by
      intro hok
      have hi' : i < es.length := by
        rwa [h.stored, List.length_map] at hi
      have hrow : L[i] = es[i].stored es[i].prevHash := by
        simp only [h.stored, List.getElem_map]
      have hr' : r' ∈ L.set i r' := by
        rw [hset]
        simp
      exact hne (hrow ▸ (h.eq_stored hinj (List.getElem_mem hi') hr' hok
        (by rw [hhash, hrow])).1.symm)
    have hstops := verifyTable_stops hkept hbad (L.drop (i + 1))
    rw [← hset, hlength] at hstops
    exact hstops

end Recorded

/-- Let `L` be the table of a run and `S` the rows that a replay reads, however they came
    about.  If the replay accepts them and the last hash is the one of `L`, they are the
    rows of `L`, unless a chain begins again; if one row of `L` was changed and kept its
    hash, the replay stops there, unless an entry before it had a lone surrogate. -/
theorem log_tamper_evident (circuitVersion : JsString) (steps : List Step) (S : List StoredRow)
    (hinj : HashInjective (hashedEntries circuitVersion steps (.booted []) ++ entriesOf S)) :
    let L := (run circuitVersion steps).rows
    let es := hashedEntries circuitVersion steps (.booted [])
    (Intact L S ↔ ¬ Restarted es L S) ∧
    ∀ (i : ℕ) (hi : i < L.length) (r' : StoredRow), r' ≠ L[i] → r'.entryHash = L[i].entryHash →
      S = L.set i r' → (StopsAt S i ↔ ∀ e ∈ es.take i, e.WellFormed) := by
  obtain ⟨hlog, hrows, hprevs⟩ : _ ∧ (run circuitVersion steps).rows = _ ∧ _ :=
    logOk_empty.rows_foldl
  have h : Recorded (hashedEntries circuitVersion steps (.booted [])) (run circuitVersion steps).rows :=
    ⟨hrows, hprevs, hlog.chained⟩
  intro L es
  refine ⟨intact_iff h hinj, fun i hi r' hne hhash hS => ?_⟩
  rw [hS] at hinj ⊢
  exact stopsAt_iff h hi hinj hne hhash

/-! ### Four rows -/

/-- It is enough that different entries have different hashes. -/
theorem hashInjective_of_nodup {base es : List (Entry JsString)}
    (hbase : (base.map fun e => computeEntryHash e e.prevHash).Nodup) (hsub : es ⊆ base) :
    HashInjective es := by
  intro e he e' he' hsha
  have hhash : computeEntryHash e e.prevHash = computeEntryHash e' e'.prevHash :=
    congrArg hexBytes hsha
  rw [List.inj_on_of_nodup_map hbase (hsub he) (hsub he') hhash]

/-- The columns of a row are read back as they were, whatever its hash. -/
theorem read_columns {e : Entry JsString} (h : e.WellFormed) (hash : SqlText) :
    (StoredRow.read ⟨e.map SqlText.ofString, hash⟩).toEntry = e :=
  congrArg AuditRow.toEntry (@read_map_hashed e genesisPrevHash h)

/-- A step that adds a row. -/
theorem hashedEntries_cons {circuitVersion : JsString} {st : Step} {steps : List Step} {s s' : Log}
    {e : Entry JsString} {row : StoredRow} (hstep : s.step circuitVersion st = s')
    (hrows : s'.rows = s.rows ++ [row]) (he : s.entry circuitVersion st = some e) :
    hashedEntries circuitVersion (st :: steps) s =
      e :: hashedEntries circuitVersion steps s' := by
  have hne : s'.rows ≠ s.rows := by
    rw [hrows]
    simp
  rw [hashedEntries, hstep, if_neg hne, he]
  rfl

/-- A first start and three events. -/
def fourSteps (tenantId : JsString) : List Step :=
  .init (draw 1) :: .verify (request tenantId) verified (draw 2) ::
    [.verify (request (js "t")) verified (draw 3), .verify (request (js "t")) verified (draw 4)]

theorem ids_draw : ([draw 1, draw 2, draw 3, draw 4].map fun d => d.id.text).Nodup := by
  decide

/-- The log of such a run; entries and hashes are given by equations, so that no hash is
    computed here. -/
theorem rows_fourSteps {tenantId h₁ h₂ h₃ h₄ : JsString} {e₂ e₃ e₄ : Entry JsString}
    (hh₁ : computeEntryHash (genesisEntry (draw 1)) genesisPrevHash = h₁)
    (he₂ : ((request tenantId).appendInput (js "v1") verified).entry (draw 2) 1 h₁ = e₂)
    (hh₂ : computeEntryHash e₂ h₁ = h₂)
    (he₃ : ((request (js "t")).appendInput (js "v1") verified).entry (draw 3) 2 h₂ = e₃)
    (hh₃ : computeEntryHash e₃ h₂ = h₃)
    (he₄ : ((request (js "t")).appendInput (js "v1") verified).entry (draw 4) 3 h₃ = e₄)
    (hh₄ : computeEntryHash e₄ h₃ = h₄) (hnodup : [h₁, h₂, h₃, h₄].Nodup) :
    (run (js "v1") (fourSteps tenantId)).rows =
      [(genesisEntry (draw 1)).stored genesisPrevHash, e₂.stored h₁, e₃.stored h₂, e₄.stored h₃] ∧
    hashedEntries (js "v1") (fourSteps tenantId) (.booted []) =
      [genesisEntry (draw 1), e₂, e₃, e₄] := by
  have hids := ids_draw
  simp only [List.map_cons, List.map_nil, List.nodup_cons, List.mem_cons, List.not_mem_nil,
    or_false, not_or] at hids hnodup
  obtain ⟨⟨hid₁₂, hid₁₃, hid₁₄⟩, ⟨hid₂₃, hid₂₄⟩, hid₃₄, -⟩ := hids
  obtain ⟨⟨h₁₂, h₁₃, h₁₄⟩, ⟨h₂₃, h₂₄⟩, h₃₄, -⟩ := hnodup
  have hid₁ := id_stored (genesisEntry (draw 1)) rfl genesisPrevHash
  have hid₂ := id_stored e₂ (d := draw 2) (he₂ ▸ rfl) h₁
  have hid₃ := id_stored e₃ (d := draw 3) (he₃ ▸ rfl) h₂
  have hhash₁ := entryHash_stored (genesisEntry (draw 1)) genesisPrevHash
  have hhash₂ := entryHash_stored e₂ h₁
  have hhash₃ := entryHash_stored e₃ h₂
  rw [hh₁] at hhash₁
  rw [hh₂] at hhash₂
  rw [hh₃] at hhash₃
  -- the genesis row, and then one row a request: no id and no hash is there twice
  have hone : Log.step (js "v1") (.booted []) (.init (draw 1)) =
      ⟨[(genesisEntry (draw 1)).stored genesisPrevHash], true, 1, h₁⟩ := by
    rw [← hh₁]
    exact initAuditLog_new rfl
  have htwo : Log.step (js "v1") ⟨[(genesisEntry (draw 1)).stored genesisPrevHash], true, 1, h₁⟩
      (.verify (request tenantId) verified (draw 2)) =
        ⟨[(genesisEntry (draw 1)).stored genesisPrevHash, e₂.stored h₁], true, 2, h₂⟩ :=
    step_verify_new he₂ rfl hh₂ rfl (by simp [hid₁, hid₁₂]) (by simp [hhash₁, h₁₂])
  have hthree : Log.step (js "v1")
      ⟨[(genesisEntry (draw 1)).stored genesisPrevHash, e₂.stored h₁], true, 2, h₂⟩
      (.verify (request (js "t")) verified (draw 3)) =
        ⟨[(genesisEntry (draw 1)).stored genesisPrevHash, e₂.stored h₁, e₃.stored h₂], true, 3,
          h₃⟩ :=
    step_verify_new he₃ rfl hh₃ rfl (by simp [hid₁, hid₂, hid₁₃, hid₂₃])
      (by simp [hhash₁, hhash₂, h₁₃, h₂₃])
  have hfour : Log.step (js "v1")
      ⟨[(genesisEntry (draw 1)).stored genesisPrevHash, e₂.stored h₁, e₃.stored h₂], true, 3, h₃⟩
      (.verify (request (js "t")) verified (draw 4)) =
        ⟨[(genesisEntry (draw 1)).stored genesisPrevHash, e₂.stored h₁, e₃.stored h₂,
          e₄.stored h₃], true, 4, h₄⟩ :=
    step_verify_new he₄ rfl hh₄ rfl (by simp [hid₁, hid₂, hid₃, hid₁₄, hid₂₄, hid₃₄])
      (by simp [hhash₁, hhash₂, hhash₃, h₁₄, h₂₄, h₃₄])
  constructor
  · simp only [run, fourSteps, List.foldl_cons, List.foldl_nil, hone, htwo, hthree, hfour]
  · rw [fourSteps, hashedEntries_cons hone rfl rfl,
      hashedEntries_cons htwo rfl (congrArg some he₂),
      hashedEntries_cons hthree rfl (congrArg some he₃),
      hashedEntries_cons hfour rfl (congrArg some he₄)]
    rfl

/-- A row whose strings have no lone surrogates. -/
theorem wellFormed_plainEntry {prevHash : JsString} (hprev : WellFormed prevHash = true) (d : Draw)
    (n : ℤ) : (((request (js "t")).appendInput (js "v1") verified).entry d n prevHash).WellFormed :=
  wellFormed_entry ⟨by decide, by decide, by decide⟩ hprev d n

/-- The rows of three events without lone surrogates. -/
def plainSecond : Entry JsString :=
  ((request (js "t")).appendInput (js "v1") verified).entry (draw 2) 1 genesisHash

@[irreducible] def plainSecondHash : JsString := computeEntryHash plainSecond genesisHash

def plainThird : Entry JsString :=
  ((request (js "t")).appendInput (js "v1") verified).entry (draw 3) 2 plainSecondHash

@[irreducible] def plainThirdHash : JsString := computeEntryHash plainThird plainSecondHash

def plainFourth : Entry JsString :=
  ((request (js "t")).appendInput (js "v1") verified).entry (draw 4) 3 plainThirdHash

@[irreducible] def plainFourthHash : JsString := computeEntryHash plainFourth plainThirdHash

def plainEntries : List (Entry JsString) :=
  [genesisEntry (draw 1), plainSecond, plainThird, plainFourth]

theorem hashes_plain :
    [genesisPrevHash, genesisHash, plainSecondHash, plainThirdHash, plainFourthHash].Nodup := by
  simp only [plainFourthHash, plainFourth, plainThirdHash, plainThird, plainSecondHash, plainSecond,
    genesisHash, computeEntryHash, sha256_eq_flat]
  decide +kernel

theorem hashes_plainEntries : (plainEntries.map fun e => computeEntryHash e e.prevHash) =
    [genesisHash, plainSecondHash, plainThirdHash, plainFourthHash] := by
  rw [genesisHash, plainSecondHash, plainThirdHash, plainFourthHash]
  rfl

theorem wellFormed_plainEntries : ∀ e ∈ plainEntries, e.WellFormed := by
  have hgenesis : WellFormed genesisHash = true := by
    rw [genesisHash]
    exact wellFormed_computeEntryHash _ _
  have hsecond : WellFormed plainSecondHash = true := by
    rw [plainSecondHash]
    exact wellFormed_computeEntryHash _ _
  have hthird : WellFormed plainThirdHash = true := by
    rw [plainThirdHash]
    exact wellFormed_computeEntryHash _ _
  simp only [plainEntries, List.forall_mem_cons]
  exact ⟨wellFormed_genesisEntry _, wellFormed_plainEntry hgenesis _ _,
    wellFormed_plainEntry hsecond _ _, wellFormed_plainEntry hthird _ _, by simp⟩

theorem hash_genesisEntry : computeEntryHash (genesisEntry (draw 1)) genesisPrevHash = genesisHash := by
  rw [genesisHash]

theorem rows_plain :
    (run (js "v1") (fourSteps (js "t"))).rows = plainEntries.map (fun e => e.stored e.prevHash) ∧
    hashedEntries (js "v1") (fourSteps (js "t")) (.booted []) = plainEntries := by
  have h₂ : computeEntryHash plainSecond genesisHash = plainSecondHash := by
    rw [plainSecondHash]
  have h₃ : computeEntryHash plainThird plainSecondHash = plainThirdHash := by
    rw [plainThirdHash]
  have h₄ : computeEntryHash plainFourth plainThirdHash = plainFourthHash := by
    rw [plainFourthHash]
  exact rows_fourSteps hash_genesisEntry rfl h₂ rfl h₃ rfl h₄ (List.nodup_cons.mp hashes_plain).2

/-- Tables whose rows have columns of the four rows. -/
theorem entriesOf_subset {S : List StoredRow}
    (h : ∀ r ∈ S, ∃ e ∈ plainEntries, r.toEntry = e.map SqlText.ofString) :
    entriesOf S ⊆ plainEntries := by
  intro e' he'
  obtain ⟨r, hr, rfl⟩ := List.mem_map.mp he'
  obtain ⟨e, he, hentry⟩ := h r hr
  have hread : r.read.toEntry = e :=
    (congrArg (Entry.map SqlText.text) hentry).trans
      (read_columns (wellFormed_plainEntries e he) r.entryHash)
  exact hread ▸ he

/-- The four rows. -/
def plainRows : List StoredRow := plainEntries.map fun e => e.stored e.prevHash

/-- The columns of the first row under the hash of the third. -/
def editedThird : StoredRow :=
  ⟨(genesisEntry (draw 1)).map SqlText.ofString, (plainThird.stored plainSecondHash).entryHash⟩

/-- The rows as they are, with a third row that was edited, and without the second. -/
def plainTables : List (List StoredRow) :=
  [plainRows, plainRows.set 2 editedThird, plainRows.eraseIdx 1]

theorem of_mem_plainTables {S : List StoredRow} (hS : S ∈ plainTables) : ∀ r ∈ S,
    (∃ e ∈ plainEntries, r.toEntry = e.map SqlText.ofString) ∧
      ∃ e ∈ plainEntries, r.entryHash = (e.stored e.prevHash).entryHash := by
  have hplain : ∀ r ∈ plainRows, (∃ e ∈ plainEntries, r.toEntry = e.map SqlText.ofString) ∧
      ∃ e ∈ plainEntries, r.entryHash = (e.stored e.prevHash).entryHash := by
    intro r hr
    obtain ⟨e, he, rfl⟩ := List.mem_map.mp hr
    exact ⟨⟨e, he, rfl⟩, e, he, rfl⟩
  intro r hr
  simp only [plainTables, List.mem_cons, List.not_mem_nil, or_false] at hS
  rcases hS with rfl | rfl | rfl
  · exact hplain r hr
  · rcases List.mem_or_eq_of_mem_set hr with hr | rfl
    · exact hplain r hr
    · exact ⟨⟨_, List.mem_cons_self, rfl⟩, plainThird, by simp [plainEntries], rfl⟩
  · exact hplain r (List.mem_of_mem_eraseIdx hr)

/-- The last hash of each of these tables is the honest one; the replay stops at the
    changed row of the second, and accepts only the first. -/
theorem log_tamper_evident_of_four :
    (run (js "v1") (fourSteps (js "t"))).rows = plainRows ∧
    (∀ S ∈ plainTables, Intact plainRows S ∧
      S.getLast?.map (fun r => r.entryHash) = plainRows.getLast?.map fun r => r.entryHash) ∧
    StopsAt (plainRows.set 2 editedThird) 2 := by
  obtain ⟨hrows, hentries⟩ := rows_plain
  have hnodup := List.nodup_cons.mp hashes_plain
  -- the hashes that occur are told apart
  have hinj : ∀ {S : List StoredRow}, S ∈ plainTables → HashInjective (plainEntries ++ entriesOf S) :=
    fun hS => hashInjective_of_nodup (hashes_plainEntries ▸ hnodup.2) (List.append_subset.mpr
      ⟨List.Subset.refl _, entriesOf_subset fun r hr => (of_mem_plainTables hS r hr).1⟩)
  have hzero : ∀ {S : List StoredRow}, S ∈ plainTables →
      ∀ r ∈ S, r.entryHash.text ≠ genesisPrevHash := by
    intro S hS r hr heq
    obtain ⟨-, e, he, hhash⟩ := of_mem_plainTables hS r hr
    rw [hhash, entryHash_stored] at heq
    exact hnodup.1 (hashes_plainEntries ▸ heq ▸ List.mem_map_of_mem he)
  have hwhole : plainRows ∈ plainTables := List.mem_cons_self
  have hedited : plainRows.set 2 editedThird ∈ plainTables := by simp [plainTables]
  refine ⟨hrows, fun S hS => ⟨?_, ?_⟩, ?_⟩
  · -- the first half, for each of the tables
    have htamper := (log_tamper_evident (js "v1") (fourSteps (js "t")) S
      (by rw [hentries]; exact hinj hS)).1
    rw [hrows, hentries] at htamper
    exact htamper.mpr (not_restarted fun r hr =>
      (List.mem_append.mp hr).elim (hzero hwhole r) (hzero hS r))
  · simp only [plainTables, List.mem_cons, List.not_mem_nil, or_false] at hS
    obtain ⟨r₁, r₂, r₃, r₄, hfour⟩ : ∃ r₁ r₂ r₃ r₄, plainRows = [r₁, r₂, r₃, r₄] :=
      ⟨_, _, _, _, rfl⟩
    rw [hfour] at hS ⊢
    rcases hS with rfl | rfl | rfl <;> rfl
  · have htamper := (log_tamper_evident (js "v1") (fourSteps (js "t"))
      (plainRows.set 2 editedThird) (by rw [hentries]; exact hinj hedited)).2 2
    simp only [hrows, hentries] at htamper
    -- the third row is edited: its number is another
    have hthird : plainRows[2] = plainThird.stored plainSecondHash := rfl
    have hne : editedThird ≠ plainRows[2] := by
      rw [hthird]
      intro h
      have hseq : (0 : ℤ) = 2 := congrArg (fun r : StoredRow => r.sequence) h
      exact absurd hseq (by decide)
    have hhash : editedThird.entryHash = plainRows[2].entryHash := by
      rw [hthird, editedThird]
    exact (htamper (by decide) editedThird hne hhash rfl).mpr
      fun e he => wellFormed_plainEntries e (List.mem_of_mem_take he)

/-! ### An edit behind a lone surrogate -/

/-- The same events, but the first has a tenant id that is half of a surrogate pair. -/
def loneRows : List StoredRow :=
  [(genesisEntry (draw 1)).stored genesisPrevHash, loneEntry.stored genesisHash,
    thirdEntry.stored loneHash, fourthEntry.stored thirdHash]

/-- The second row as it reads back. -/
def readBack : Entry JsString := (StoredRow.read (loneEntry.stored genesisHash)).toEntry

theorem hash_loneEntry : computeEntryHash loneEntry genesisHash = loneHash := by
  rw [loneHash]

theorem hash_thirdEntry : computeEntryHash thirdEntry loneHash = thirdHash := by
  rw [thirdHash]

theorem hash_fourthEntry : computeEntryHash fourthEntry thirdHash = fourthHash := by
  rw [fourthHash]

theorem hash_readBack : computeEntryHash readBack readBack.prevHash = readBackHash := by
  have hwf : WellFormed genesisHash = true := by
    rw [genesisHash]
    exact wellFormed_computeEntryHash _ _
  have hprev : readBack.prevHash = genesisHash := SqlText.text_ofString hwf
  rw [hprev, readBackHash, readBack]

theorem rows_lone : (run (js "v1") (fourSteps [0xD800])).rows = loneRows ∧
    hashedEntries (js "v1") (fourSteps [0xD800]) (.booted []) =
      [genesisEntry (draw 1), loneEntry, thirdEntry, fourthEntry] := by
  have hnodup : [genesisHash, loneHash, thirdHash, fourthHash].Nodup :=
    hashes_lone.sublist (.cons _ (.cons_cons _ (.cons_cons _ (.cons _ (.refl _)))))
  exact rows_fourSteps hash_genesisEntry rfl hash_loneEntry rfl hash_thirdEntry rfl
    hash_fourthEntry hnodup

theorem hashes_loneEntries :
    ([genesisEntry (draw 1), loneEntry, readBack, thirdEntry, fourthEntry].map
      fun e => computeEntryHash e e.prevHash) =
    [genesisHash, loneHash, readBackHash, thirdHash, fourthHash] := by
  show [computeEntryHash (genesisEntry (draw 1)) genesisPrevHash,
    computeEntryHash loneEntry genesisHash, computeEntryHash readBack readBack.prevHash,
    computeEntryHash thirdEntry loneHash, computeEntryHash fourthEntry thirdHash] = _
  rw [hash_genesisEntry, hash_loneEntry, hash_readBack, hash_thirdEntry, hash_fourthEntry]

/-- The columns of the first row under the hash of the third. -/
def editedBehindLone : StoredRow :=
  ⟨(genesisEntry (draw 1)).map SqlText.ofString, (thirdEntry.stored loneHash).entryHash⟩

/-- The rows of the run, with the third one edited. -/
def loneTable : List StoredRow :=
  [(genesisEntry (draw 1)).stored genesisPrevHash, loneEntry.stored genesisHash, editedBehindLone,
    fourthEntry.stored thirdHash]

theorem entriesOf_loneTable : entriesOf loneTable =
    [genesisEntry (draw 1), readBack, genesisEntry (draw 1), fourthEntry] := by
  have hwf : WellFormed thirdHash = true := by
    rw [thirdHash]
    exact wellFormed_computeEntryHash _ _
  have hfirst := fun hash => read_columns (wellFormed_genesisEntry (draw 1)) hash
  have hfourth : fourthEntry.WellFormed := wellFormed_plainEntry hwf _ _
  simp only [entriesOf, loneTable, List.map_cons, List.map_nil, List.cons.injEq, and_true]
  exact ⟨hfirst _, rfl, hfirst _, read_columns hfourth _⟩

theorem hashes_loneTable : ∀ r ∈ loneRows ++ loneTable,
    r.entryHash.text ∈ [genesisHash, loneHash, thirdHash, fourthHash] := by
  have h₁ := (entryHash_stored (genesisEntry (draw 1)) genesisPrevHash).trans hash_genesisEntry
  have h₂ := (entryHash_stored loneEntry genesisHash).trans hash_loneEntry
  have h₃ := (entryHash_stored thirdEntry loneHash).trans hash_thirdEntry
  have h₄ := (entryHash_stored fourthEntry thirdHash).trans hash_fourthEntry
  have hedited : editedBehindLone.entryHash.text = thirdHash := h₃
  simp [loneRows, loneTable, h₁, h₂, h₃, h₄, hedited]

/-- The table of this run holds four rows and the third is edited, but the
    replay stops at the second. -/
theorem lone_surrogate_hides_edit :
    (run (js "v1") (fourSteps [0xD800])).rows = loneRows ∧
      loneTable = loneRows.set 2 editedBehindLone ∧ editedBehindLone ≠ loneRows[2] ∧
      editedBehindLone.entryHash = loneRows[2].entryHash ∧
      HashInjective (hashedEntries (js "v1") (fourSteps [0xD800]) (.booted []) ++
        entriesOf loneTable) ∧
      (∀ r ∈ loneRows ++ loneTable, r.entryHash.text ≠ genesisPrevHash) ∧
      (verifyTable loneTable).ok = false ∧ (verifyTable loneTable).rowsChecked = 1 := by
  obtain ⟨hrows, hentries⟩ := rows_lone
  have hthird : loneRows[2] = thirdEntry.stored loneHash := rfl
  obtain ⟨hzero, hnodup⟩ := List.nodup_cons.mp hashes_lone
  refine ⟨hrows, rfl, ?_, ?_, ?_, fun r hr heq => ?_, ?_⟩
  · rw [hthird]
    intro h
    have hseq : (0 : ℤ) = 2 := congrArg (fun r : StoredRow => r.sequence) h
    exact absurd hseq (by decide)
  · rw [hthird, editedBehindLone]
  · rw [hentries, entriesOf_loneTable]
    exact hashInjective_of_nodup (hashes_loneEntries ▸ hnodup) (by simp)
  · have hmem := hashes_loneTable r hr
    rw [heq] at hmem
    refine hzero (List.Sublist.subset ?_ hmem)
    exact .cons_cons _ (.cons_cons _ (.cons _ (.refl _)))
  · -- the genesis row is as it was hashed
    have hgenesis : (StoredRow.read ((genesisEntry (draw 1)).stored genesisPrevHash)) =
        (genesisEntry (draw 1)).hashed genesisPrevHash :=
      read_map_hashed (wellFormed_genesisEntry _)
    -- so the replay gets past it, and stops at the row with the lone surrogate
    have hkept : Sound [(genesisEntry (draw 1)).stored genesisPrevHash] := by
      have hprev : (genesisEntry (draw 1)).prevHash = genesisPrevHash := rfl
      refine ⟨⟨?_, trivial⟩, List.forall_mem_singleton.mpr ?_⟩
      · rw [hgenesis]
        exact hprev
      · rw [hgenesis, HashOk]
        exact congrArg (computeEntryHash (genesisEntry (draw 1))) hprev
    exact verifyTable_stops hkept not_hashOk_lone [editedBehindLone, fourthEntry.stored thirdHash]

end ZeroAuth.Verifier
