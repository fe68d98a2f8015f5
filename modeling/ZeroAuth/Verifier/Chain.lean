/-
  ZeroAuth.Verifier.Chain

  Runs of the verifier's audit log: the module variables stay in step with the
  table, and the replay accepts it as long as no appended string has a lone
  surrogate (`chain_verifies`).
-/

import ZeroAuth.Lib.HashChain
import ZeroAuth.Verifier.AuditLog

namespace ZeroAuth.Verifier

open ZeroAuth.Lib ZeroAuth.Lib.HashChain ZeroAuth.Js ZeroAuth.Pg

/-! ## Stored text -/

theorem SqlText.text_ofString {s : JsString} (h : WellFormed s = true) :
    (SqlText.ofString s).text = s := flatMap_scalars h

theorem isAscii_genesisPrevHash : IsAscii genesisPrevHash := by
  intro u hu
  rw [List.eq_of_mem_replicate hu]
  decide

theorem wellFormed_computeEntryHash (row : Entry JsString) (prevHash : JsString) :
    WellFormed (computeEntryHash row prevHash) = true := (isAscii_hexBytes _).wellFormed

/-- The strings of an entry. -/
def Entry.texts (e : Entry JsString) : List JsString :=
  [e.id, e.tenantId, e.environment, e.circuitVersion, e.correlationId, e.proofHash,
    e.pubSignalsHash, e.createdAt, e.prevHash]

/-- No string has a lone surrogate. -/
def Entry.WellFormed (e : Entry JsString) : Prop := ∀ s ∈ e.texts, Js.WellFormed s = true

/-- What is stored reads back as it was. -/
theorem read_map_hashed {e : Entry JsString} {prevHash : JsString} (h : e.WellFormed) :
    StoredRow.read ((e.hashed prevHash).map SqlText.ofString) = e.hashed prevHash := by
  have hback : ∀ s ∈ e.texts, (SqlText.ofString s).text = s :=
    fun s hs => SqlText.text_ofString (h s hs)
  have hhash := SqlText.text_ofString (wellFormed_computeEntryHash e prevHash)
  simp only [Entry.texts, List.forall_mem_cons] at hback
  obtain ⟨h₁, h₂, h₃, h₄, h₅, h₆, h₇, h₈, h₉, -⟩ := hback
  simp only [StoredRow.read, AuditRow.map, Entry.map, Entry.hashed, h₁, h₂, h₃, h₄, h₅, h₆, h₇,
    h₈, h₉, hhash]

/-! ## The replay -/

/-- The stored hash is the one that the replay computes. -/
def HashOk (r : AuditRow JsString) : Prop := computeEntryHash r.toEntry r.prevHash = r.entryHash

instance (r : AuditRow JsString) : Decidable (HashOk r) := inferInstanceAs (Decidable (_ = _))

/-- The rows name each other's hashes, from `first` on. -/
abbrev Chained (first : JsString) (rows : List (AuditRow JsString)) : Prop :=
  Linked (fun r : AuditRow JsString => r.prevHash) AuditRow.entryHash first rows

abbrev headHash (rows : List (AuditRow JsString)) : JsString :=
  headOf AuditRow.entryHash genesisPrevHash rows

/-- A sound part of the table is passed over and counted. -/
theorem verifyRows_append {first : JsString} {rows : List (AuditRow JsString)}
    (hc : Chained first rows) (hok : ∀ r ∈ rows, HashOk r) (n : ℕ)
    (rest : List (AuditRow JsString)) :
    verifyRows first n (rows ++ rest) =
      verifyRows (headOf AuditRow.entryHash first rows) (n + rows.length) rest := by
  induction rows generalizing first n with
  | nil => rfl
  | cons r rows ih =>
      obtain ⟨hprev, hrest⟩ := hc
      have hr : computeEntryHash r.toEntry first = r.entryHash := hprev ▸ hok r (by simp)
      have hlen : n + 1 + rows.length = n + (r :: rows).length := by
        rw [List.length_cons]
        omega
      rw [List.cons_append, verifyRows, if_neg (not_not.mpr hprev)]
      simp only [hr, ne_eq, not_true_eq_false, if_false]
      rw [ih hrest (fun s hs => hok s (by simp [hs])), hlen]
      rfl

/-- What the replay accepts is a chain of rows that carry their own hashes. -/
theorem verifyRows_ok {first : JsString} {rows : List (AuditRow JsString)} {n : ℕ}
    (h : (verifyRows first n rows).ok = true) :
    Chained first rows ∧ ∀ r ∈ rows, HashOk r := by
  induction rows generalizing first n with
  | nil => exact ⟨trivial, by simp⟩
  | cons r rows ih =>
      rw [verifyRows] at h
      by_cases hprev : r.prevHash = first
      · rw [if_neg (not_not.mpr hprev)] at h
        by_cases hr : computeEntryHash r.toEntry first = r.entryHash
        · simp only [hr, ne_eq, not_true_eq_false, if_false] at h
          obtain ⟨hc, hok⟩ := ih h
          refine ⟨⟨hprev, hc⟩, fun s hs => ?_⟩
          rcases List.mem_cons.mp hs with rfl | hs
          · rw [HashOk, hprev]
            exact hr
          · exact hok s hs
        · simp only [ne_eq, hr, not_false_eq_true, if_true] at h
          cases h
      · rw [if_pos hprev] at h
        cases h

/-! ## Runs -/

theorem headHash_append (rows : List StoredRow) (r : StoredRow) :
    headHash ((rows ++ [r]).map StoredRow.read) = r.entryHash.text := by
  rw [List.map_append, List.map_singleton]
  exact headOf_append_singleton AuditRow.entryHash _ _ _

theorem wellFormed_headHash (rows : List StoredRow) :
    WellFormed (headHash (rows.map StoredRow.read)) = true := by
  obtain rfl | ⟨rows, r, rfl⟩ := rows.eq_nil_or_concat
  · exact isAscii_genesisPrevHash.wellFormed
  · rw [List.concat_eq_append, headHash_append]
    exact r.entryHash.wellFormed

/-- The table is numbered from 0, its rows are chained, and an open log knows
    the next number and the last hash; the variables of a log that has not been
    opened have their initial values. -/
structure LogOk (s : Log) : Prop where
  numbered : s.rows.map (fun r => r.sequence) = (List.range s.rows.length).map Int.ofNat
  chained : Chained genesisPrevHash (s.rows.map StoredRow.read)
  head : s.opened = true → s.nextSequence = s.rows.length ∧
    s.lastEntryHash = headHash (s.rows.map StoredRow.read)
  closed : s.opened = false → s.nextSequence = 0 ∧ s.lastEntryHash = genesisPrevHash

theorem LogOk.booted {s : Log} (h : LogOk s) : LogOk (.booted s.rows) :=
  ⟨h.numbered, h.chained, fun ho => (by cases ho), fun _ => ⟨rfl, rfl⟩⟩

theorem logOk_empty : LogOk (.booted []) :=
  ⟨rfl, trivial, fun ho => (by cases ho), fun _ => ⟨rfl, rfl⟩⟩

/-- Insertion order is sequence order. -/
theorem LogOk.bySequence_eq {s : Log} (h : LogOk s) : bySequence s.rows = s.rows := by
  have hrange : ((List.range s.rows.length).map Int.ofNat).Pairwise (· ≤ ·) :=
    List.pairwise_map.mpr
      (List.pairwise_lt_range.imp fun hlt => Int.ofNat_le.mpr (Nat.le_of_lt hlt))
  rw [← h.numbered] at hrange
  exact List.Pairwise.insertionSort_eq (List.pairwise_map.mp hrange)

theorem LogOk.sequence_last {s : Log} (h : LogOk s) {rows : List StoredRow} {last : StoredRow}
    (hrows : s.rows = rows ++ [last]) : last.sequence = rows.length := by
  have hnum := h.numbered
  rw [hrows, List.length_append, List.length_singleton, List.range_succ, List.map_append,
    List.map_append] at hnum
  exact (List.cons.inj (List.append_inj' hnum rfl).2).1

theorem insertRow_ok {d : Draw} {row : AuditRow JsString} {s s' : Log}
    (h : insertRow d row s = .ok s') :
    s.opened = true ∧ s' = { s with rows := s.rows ++ [row.map SqlText.ofString] } := by
  simp only [insertRow] at h
  by_cases ho : s.opened = false
  · rw [if_pos ho] at h
    cases h
  · rw [if_neg ho] at h
    split at h
    · cases h
    · exact ⟨(Bool.not_eq_false _).mp ho, (Except.ok.inj h).symm⟩

/-- The stored form of an entry that names `prevHash`. -/
abbrev Entry.stored (e : Entry JsString) (prevHash : JsString) : StoredRow :=
  (e.hashed prevHash).map SqlText.ofString

/-- An entry with the next number and the last hash goes to the end of the
    table, and the variables move on to it. -/
theorem LogOk.append {s s' : Log} (h : LogOk s) {e : Entry JsString} {prevHash : JsString}
    (hseq : e.sequence = s.rows.length) (he : e.prevHash = prevHash)
    (hprev : prevHash = headHash (s.rows.map StoredRow.read)) (hopened : s'.opened = true)
    (hrows : s'.rows = s.rows ++ [e.stored prevHash]) (hnext : s'.nextSequence = e.sequence + 1)
    (hlast : s'.lastEntryHash = computeEntryHash e prevHash) : LogOk s' := by
  have hhash : (e.stored prevHash).entryHash.text = computeEntryHash e prevHash :=
    SqlText.text_ofString (wellFormed_computeEntryHash e prevHash)
  have hback : (e.stored prevHash).prevHash.text = prevHash := by
    rw [← he] at hprev ⊢
    exact SqlText.text_ofString (hprev ▸ wellFormed_headHash s.rows)
  have hlen : s'.rows.length = s.rows.length + 1 := by
    rw [hrows, List.length_append, List.length_singleton]
  refine ⟨?_, ?_, fun _ => ⟨?_, ?_⟩, fun ho => ?_⟩
  · rw [hlen, hrows, List.map_append, h.numbered, List.range_succ, List.map_append]
    exact congrArg (fun i => List.map Int.ofNat (List.range s.rows.length) ++ [i]) hseq
  · rw [hrows, List.map_append, List.map_singleton]
    exact (linked_append_singleton _ _).mpr ⟨h.chained, hback.trans hprev⟩
  · rw [hnext, hseq, hlen]
    omega
  · rw [hlast, hrows, headHash_append, hhash]
  · rw [hopened] at ho
    cases ho

/-- What a step does to the table: nothing, or one entry that satisfies `P` and
    names the last hash is appended. -/
def Grows (P : Entry JsString → Prop) (s s' : Log) : Prop :=
  s'.rows = s.rows ∨ ∃ (e : Entry JsString) (prevHash : JsString), P e ∧ e.prevHash = prevHash ∧
    prevHash = headHash (s.rows.map StoredRow.read) ∧ s'.rows = s.rows ++ [e.stored prevHash]

theorem appendEvent_ok {s : Log} (h : LogOk s) (input : AuditAppendInput) (d : Draw) :
    LogOk (appendEvent input d s).2 ∧
      Grows (· = input.entry d s.nextSequence s.lastEntryHash) s (appendEvent input d s).2 := by
  simp only [appendEvent]
  cases hins : insertRow d ((input.entry d s.nextSequence s.lastEntryHash).hashed s.lastEntryHash)
      s with
  | error err => exact ⟨h, .inl rfl⟩
  | ok s' =>
      obtain ⟨hopened, rfl⟩ := insertRow_ok hins
      obtain ⟨hnext, hhead⟩ := h.head hopened
      exact ⟨h.append hnext rfl hhead hopened rfl rfl rfl,
        .inr ⟨_, _, rfl, rfl, hhead, rfl⟩⟩

theorem insertGenesisRow_ok {s : Log} (h : LogOk s) (hrows : s.rows = []) (d : Draw) :
    LogOk (insertGenesisRow d s).2 ∧ Grows (· = genesisEntry d) s (insertGenesisRow d s).2 := by
  have hhead : genesisPrevHash = headHash (s.rows.map StoredRow.read) := by
    rw [hrows]
    rfl
  have hseq : (genesisEntry d).sequence = s.rows.length := by
    rw [hrows]
    rfl
  simp only [insertGenesisRow]
  cases hins : insertRow d ((genesisEntry d).hashed genesisPrevHash) s with
  | error err => exact ⟨h, .inl rfl⟩
  | ok s' =>
      obtain ⟨hopened, rfl⟩ := insertRow_ok hins
      exact ⟨h.append hseq rfl hhead hopened rfl rfl rfl, .inr ⟨_, _, rfl, rfl, hhead, rfl⟩⟩

theorem initAuditLog_ok {s : Log} (h : LogOk s) (d : Draw) :
    LogOk (initAuditLog d s).2 ∧ Grows (· = genesisEntry d) s (initAuditLog d s).2 := by
  by_cases hopened : s.opened = true
  · rw [initAuditLog, if_pos hopened]
    exact ⟨h, .inl rfl⟩
  · obtain ⟨hnext, hhead⟩ := h.closed ((Bool.not_eq_true _).mp hopened)
    rw [initAuditLog, if_neg hopened]
    simp only [h.bySequence_eq]
    cases hlast : s.rows.getLast? with
    | some last =>
        obtain ⟨rows, hrows⟩ := List.getLast?_eq_some_iff.mp hlast
        refine ⟨⟨h.numbered, h.chained, fun _ => ⟨?_, ?_⟩, fun ho => by cases ho⟩, .inl rfl⟩
        · show last.sequence + 1 = (s.rows.length : ℤ)
          rw [h.sequence_last hrows, hrows, List.length_append, List.length_singleton]
          omega
        · show last.entryHash.text = headHash (s.rows.map StoredRow.read)
          rw [hrows, headHash_append]
    | none =>
        have hrows : s.rows = [] := List.getLast?_eq_none_iff.mp hlast
        -- an empty table goes with the initial values of the variables
        have hempty : LogOk { s with opened := true } :=
          { numbered := h.numbered
            chained := h.chained
            head := fun _ => ⟨by rw [hrows]; exact hnext, by rw [hrows]; exact hhead⟩
            closed := fun ho => by cases ho }
        exact insertGenesisRow_ok hempty hrows d

/-- The entry that a step hands to its INSERT, before its strings are stored. -/
def Log.entry (circuitVersion : JsString) (s : Log) : Step → Option (Entry JsString)
  | .init d => some (genesisEntry d)
  | .verify body out d =>
      some ((body.appendInput circuitVersion out).entry d s.nextSequence s.lastEntryHash)
  | .restart => none

/-- The entries that a step may append. -/
def Entry.AppendedBy (circuitVersion : JsString) (e : Entry JsString) (st : Step) : Prop :=
  ∃ s : Log, s.entry circuitVersion st = some e

theorem LogOk.step {s : Log} (h : LogOk s) (circuitVersion : JsString) (st : Step) :
    LogOk (s.step circuitVersion st) ∧
      Grows (s.entry circuitVersion st = some ·) s (s.step circuitVersion st) := by
  cases st with
  | init d =>
      obtain ⟨hs, hgrows⟩ := initAuditLog_ok h d
      exact ⟨hs, hgrows.imp_right fun ⟨e, prevHash, he, hrest⟩ =>
        ⟨e, prevHash, he ▸ rfl, hrest⟩⟩
  | verify body out d =>
      obtain ⟨hs, hgrows⟩ := appendEvent_ok h (body.appendInput circuitVersion out) d
      exact ⟨hs, hgrows.imp_right fun ⟨e, prevHash, he, hrest⟩ =>
        ⟨e, prevHash, he ▸ rfl, hrest⟩⟩
  | restart => exact ⟨h.booted, .inl rfl⟩

/-- The rule for runs: what holds of the empty table and is kept by every entry
    that some step appends holds of the table of every run. -/
theorem run_invariant {circuitVersion : JsString} {steps : List Step} {I : List StoredRow → Prop}
    (hnil : I []) (happend : ∀ rows (e : Entry JsString) prevHash st, st ∈ steps →
      e.AppendedBy circuitVersion st → e.prevHash = prevHash →
      prevHash = headHash (rows.map StoredRow.read) → I rows → I (rows ++ [e.stored prevHash])) :
    LogOk (run circuitVersion steps) ∧ I (run circuitVersion steps).rows := by
  have hfold : ∀ (l : List Step) (s : Log), (∀ st ∈ l, st ∈ steps) → LogOk s → I s.rows →
      LogOk (l.foldl (Log.step circuitVersion) s) ∧
        I (l.foldl (Log.step circuitVersion) s).rows := by
    intro l
    induction l with
    | nil => exact fun s _ hs hI => ⟨hs, hI⟩
    | cons st l ih =>
        intro s hmem hs hI
        obtain ⟨hs', hgrows⟩ := hs.step circuitVersion st
        refine ih _ (fun st' h' => hmem st' (by simp [h'])) hs' ?_
        obtain hsame | ⟨e, prevHash, he, hprev, hhead, hrows⟩ := hgrows
        · exact hsame ▸ hI
        · exact hrows ▸ happend _ e prevHash st (hmem st (by simp)) ⟨s, he⟩ hprev hhead hI
  exact hfold steps _ (fun _ h => h) logOk_empty hnil

/-- The strings that the caller of `appendEvent` chooses have no lone
    surrogates. -/
structure AuditAppendInput.WellFormed (input : AuditAppendInput) : Prop where
  tenantId : Js.WellFormed input.tenantId = true
  circuitVersion : Js.WellFormed input.circuitVersion = true
  correlationId : Js.WellFormed input.correlationId = true

def Step.WellFormed (circuitVersion : JsString) : Step → Prop
  | .verify body out _ => (body.appendInput circuitVersion out).WellFormed
  | _ => True

theorem wellFormed_genesisEntry (d : Draw) : (genesisEntry d).WellFormed := by
  have hid := (Uuid.isAscii_text d.id).wellFormed
  have hzero := isAscii_genesisPrevHash.wellFormed
  simp only [Entry.WellFormed, Entry.texts, genesisEntry, List.forall_mem_cons]
  exact ⟨hid, by decide, by decide, by decide, hid, hzero, hzero, d.isAscii.wellFormed, hzero,
    by simp⟩

theorem isAscii_hashPayload (payload : Json) : IsAscii (hashPayload payload) := by
  cases payload <;> exact isAscii_hexBytes _

theorem wellFormed_entry {circuitVersion : JsString} {body : VerifyBody} {out : Outcome}
    (h : (body.appendInput circuitVersion out).WellFormed) {prevHash : JsString}
    (hprev : Js.WellFormed prevHash = true) (d : Draw) (n : ℤ) :
    ((body.appendInput circuitVersion out).entry d n prevHash).WellFormed := by
  have henv : Js.WellFormed (body.appendInput circuitVersion out).environment = true := by
    simp only [VerifyBody.appendInput]
    split <;> decide
  simp only [Entry.WellFormed, Entry.texts, AuditAppendInput.entry, List.forall_mem_cons]
  exact ⟨(Uuid.isAscii_text d.id).wellFormed, h.tenantId, henv, h.circuitVersion, h.correlationId,
    (isAscii_hashPayload _).wellFormed, (isAscii_hashPayload _).wellFormed, d.isAscii.wellFormed,
    hprev, by simp⟩

/-- Every row of such a run carries its own hash. -/
theorem hashOk_of_run {circuitVersion : JsString} {steps : List Step}
    (h : ∀ st ∈ steps, st.WellFormed circuitVersion) :
    LogOk (run circuitVersion steps) ∧ ∀ r ∈ (run circuitVersion steps).rows, HashOk r.read := by
  refine run_invariant (I := fun rows => ∀ r ∈ rows, HashOk r.read) (by simp) ?_
  intro rows e prevHash st hst he hprev hhead hrows r hr
  have hwf : e.WellFormed := by
    obtain ⟨s, he⟩ := he
    cases st with
    | init d =>
        cases he
        exact wellFormed_genesisEntry d
    | verify body out d =>
        cases he
        have hlast : s.lastEntryHash = headHash (rows.map StoredRow.read) := hprev.trans hhead
        exact wellFormed_entry (h _ hst) (hlast ▸ wellFormed_headHash rows) d _
    | restart => cases he
  rcases List.mem_append.mp hr with hr | hr
  · exact hrows r hr
  · obtain rfl := List.mem_singleton.mp hr
    rw [read_map_hashed hwf, HashOk]
    exact congrArg (computeEntryHash e) hprev

/-- A log of sound rows is accepted as a whole. -/
theorem verifyTable_of_logOk {s : Log} (h : LogOk s) (hok : ∀ r ∈ s.rows, HashOk r.read) :
    verifyTable s.rows = ⟨true, s.rows.length, none, none⟩ := by
  have hrows : ∀ r ∈ s.rows.map StoredRow.read, HashOk r := by
    intro r hr
    obtain ⟨r', hr', rfl⟩ := List.mem_map.mp hr
    exact hok r' hr'
  have happend := verifyRows_append h.chained hrows 0 []
  rw [List.append_nil, List.length_map, Nat.zero_add] at happend
  rw [verifyTable, happend, verifyRows]

/-- Runs whose appended strings have no lone surrogates: an open log verifies,
    with all its rows, and the rows are numbered from 0 in insertion order. -/
theorem chain_verifies (circuitVersion : JsString) (steps : List Step)
    (h : ∀ st ∈ steps, st.WellFormed circuitVersion) :
    let s := run circuitVersion steps
    (s.opened = true → verifyChain s = .ok ⟨true, s.rows.length, none, none⟩) ∧
      s.rows.map (fun r => r.sequence) = (List.range s.rows.length).map Int.ofNat := by
  obtain ⟨hlog, hok⟩ := hashOk_of_run h
  refine ⟨fun hopened => ?_, hlog.numbered⟩
  rw [verifyChain, hopened, if_neg (by decide), hlog.bySequence_eq, verifyTable_of_logOk hlog hok]

/-! ### Two events -/

-- the instance behind the numerals of `Fin 100`, for `decide` to evaluate
instance (priority := 2000) neZeroHundred : NeZero 100 := ⟨by decide⟩

/-- An INSERT that succeeds. -/
def draw (n : Fin 100) : Draw :=
  { id := ⟨n, by omega⟩
    createdAt := js "2026-01-01T00:00:00.000Z"
    isAscii := by decide
    fails := false }

/-- A request for `tenantId`. -/
def request (tenantId : JsString) : VerifyBody :=
  { proof := .obj []
    publicSignals := .arr [.str [49], .str [50], .str [51]]
    tenantId := some tenantId
    environment := none
    circuitVersion := none
    correlationId := none }

def verified : Outcome := ⟨true, false, 5⟩

theorem chain_verifies_of_two :
    let s := run (js "v1") [.init (draw 1), .verify (request (js "t")) verified (draw 2), .restart,
      .init (draw 3)]
    (s.opened = true → verifyChain s = .ok ⟨true, s.rows.length, none, none⟩) ∧
      s.rows.map (fun r => r.sequence) = (List.range s.rows.length).map Int.ofNat := by
  refine chain_verifies (js "v1") _ fun st hst => ?_
  simp only [List.mem_cons, List.not_mem_nil, or_false] at hst
  rcases hst with rfl | rfl | rfl | rfl
  · trivial
  · exact ⟨by decide, by decide, by decide⟩
  · trivial
  · trivial

/-! ### A tenant id that is half of a surrogate pair -/

/-- An append to an open log whose id and hash are new. -/
theorem appendEvent_new {s : Log} {input : AuditAppendInput} {d : Draw} {e : Entry JsString}
    {prevHash : JsString} (hopened : s.opened = true) (hd : d.fails = false)
    (he : input.entry d s.nextSequence s.lastEntryHash = e) (hprev : s.lastEntryHash = prevHash)
    (hid : ∀ r ∈ s.rows, r.id.text ≠ d.id.text)
    (hhash : ∀ r ∈ s.rows, r.entryHash.text ≠ computeEntryHash e prevHash) :
    (appendEvent input d s).2 = ⟨s.rows ++ [e.stored prevHash], true, s.nextSequence + 1,
      computeEntryHash e prevHash⟩ := by
  subst he hprev
  have hnew : ¬ (d.fails = true ∨ ∃ r ∈ s.rows,
      r.id = SqlText.ofString d.id.text ∨ r.entryHash = SqlText.ofString
        (computeEntryHash (input.entry d s.nextSequence s.lastEntryHash) s.lastEntryHash)) := by
    rintro (hfails | ⟨r, hr, hsame | hsame⟩)
    · rw [hd] at hfails
      cases hfails
    · refine hid r hr ?_
      rw [hsame, SqlText.text_ofString (Uuid.isAscii_text d.id).wellFormed]
    · refine hhash r hr ?_
      rw [hsame, SqlText.text_ofString (wellFormed_computeEntryHash _ _)]
  have hins : insertRow d ((input.entry d s.nextSequence s.lastEntryHash).hashed s.lastEntryHash) s =
      .ok { s with rows := s.rows ++
        [(input.entry d s.nextSequence s.lastEntryHash).stored s.lastEntryHash] } := by
    rw [insertRow, if_neg (by rw [hopened]; decide)]
    exact if_neg hnew
  simp only [appendEvent, hins, hopened]
  rfl

theorem initAuditLog_new {d : Draw} (hd : d.fails = false) :
    (initAuditLog d (.booted [])).2 = ⟨[(genesisEntry d).stored genesisPrevHash], true, 1,
      computeEntryHash (genesisEntry d) genesisPrevHash⟩ := by
  have hins : insertRow d ((genesisEntry d).hashed genesisPrevHash) ⟨[], true, 0, genesisPrevHash⟩ =
      .ok ⟨[(genesisEntry d).stored genesisPrevHash], true, 0, genesisPrevHash⟩ := by
    simp [insertRow, hd]
  have hnone : (bySequence []).getLast? = none := rfl
  rw [initAuditLog, Log.booted, if_neg (by decide)]
  simp only [hnone, insertGenesisRow, hins]
  rfl

theorem id_stored (e : Entry JsString) {d : Draw} (he : e.id = d.id.text) (prevHash : JsString) :
    (e.stored prevHash).id.text = d.id.text :=
  he ▸ SqlText.text_ofString (he ▸ (Uuid.isAscii_text d.id).wellFormed)

theorem entryHash_stored (e : Entry JsString) (prevHash : JsString) :
    (e.stored prevHash).entryHash.text = computeEntryHash e prevHash :=
  SqlText.text_ofString (wellFormed_computeEntryHash _ _)

theorem hashOk_stored_iff {e : Entry JsString} {prevHash : JsString} (he : e.prevHash = prevHash)
    (hwf : WellFormed prevHash = true) : HashOk (e.stored prevHash).read ↔
      computeEntryHash (e.stored prevHash).read.toEntry prevHash = computeEntryHash e prevHash := by
  have hprev : (e.stored prevHash).read.prevHash = prevHash := by
    subst he
    exact SqlText.text_ofString hwf
  rw [HashOk, hprev, show (e.stored prevHash).read.entryHash = _ from entryHash_stored e prevHash]

/-- One more event; the entry, its row and its hash are given by equations, so
    that no hash is computed when this is applied to a concrete log. -/
theorem step_verify_new {circuitVersion prevHash hash : JsString} {rows : List StoredRow} {n : ℤ}
    {d : Draw} {body : VerifyBody} {out : Outcome} {e : Entry JsString} {row : StoredRow}
    (he : (body.appendInput circuitVersion out).entry d n prevHash = e)
    (hrow : e.stored prevHash = row) (hhash : computeEntryHash e prevHash = hash)
    (hd : d.fails = false) (hid : ∀ r ∈ rows, r.id.text ≠ d.id.text)
    (hnew : ∀ r ∈ rows, r.entryHash.text ≠ hash) :
    Log.step circuitVersion ⟨rows, true, n, prevHash⟩ (.verify body out d) =
      ⟨rows ++ [row], true, n + 1, hash⟩ := by
  subst hrow hhash
  exact appendEvent_new rfl hd he rfl hid hnew

/-- A first start and one event. -/
theorem run_two {circuitVersion first last : JsString} {d₁ d₂ : Draw} {body : VerifyBody}
    {out : Outcome} {e : Entry JsString} (hd₁ : d₁.fails = false) (hd₂ : d₂.fails = false)
    (hid : d₁.id.text ≠ d₂.id.text)
    (hfirst : computeEntryHash (genesisEntry d₁) genesisPrevHash = first)
    (he : (body.appendInput circuitVersion out).entry d₂ 1 first = e)
    (hlast : computeEntryHash e first = last) (hne : first ≠ last) :
    run circuitVersion [.init d₁, .verify body out d₂] =
      ⟨[(genesisEntry d₁).stored genesisPrevHash, e.stored first], true, 2, last⟩ := by
  have hinit : (initAuditLog d₁ (.booted [])).2 =
      ⟨[(genesisEntry d₁).stored genesisPrevHash], true, 1, first⟩ := by
    rw [initAuditLog_new hd₁, hfirst]
  have hid₁ : ∀ r ∈ [(genesisEntry d₁).stored genesisPrevHash], r.id.text ≠ d₂.id.text := by
    intro r hr
    rwa [List.mem_singleton.mp hr, id_stored _ rfl]
  have hhash₁ : ∀ r ∈ [(genesisEntry d₁).stored genesisPrevHash], r.entryHash.text ≠ last := by
    intro r hr
    rwa [List.mem_singleton.mp hr, entryHash_stored, hfirst]
  have hverify := step_verify_new he rfl hlast hd₂ hid₁ hhash₁
  show Log.step circuitVersion (initAuditLog d₁ (.booted [])).2 (.verify body out d₂) = _
  rw [hinit, hverify]
  rfl

/-- The hash of the genesis row, and the row after it. -/
@[irreducible] def genesisHash : JsString := computeEntryHash (genesisEntry (draw 1)) genesisPrevHash

def loneEntry : Entry JsString :=
  ((request [0xD800]).appendInput (js "v1") verified).entry (draw 2) 1 genesisHash

@[irreducible] def loneHash : JsString := computeEntryHash loneEntry genesisHash

/-- Two more rows. -/
def thirdEntry : Entry JsString :=
  ((request (js "t")).appendInput (js "v1") verified).entry (draw 3) 2 loneHash

@[irreducible] def thirdHash : JsString := computeEntryHash thirdEntry loneHash

def fourthEntry : Entry JsString :=
  ((request (js "t")).appendInput (js "v1") verified).entry (draw 4) 3 thirdHash

@[irreducible] def fourthHash : JsString := computeEntryHash fourthEntry thirdHash

/-- The hash of the second row as it reads back. -/
@[irreducible] def readBackHash : JsString :=
  computeEntryHash (loneEntry.stored genesisHash).read.toEntry genesisHash

/-- The hashes differ. -/
theorem hashes_lone :
    [genesisPrevHash, genesisHash, loneHash, readBackHash, thirdHash, fourthHash].Nodup := by
  simp only [readBackHash, fourthHash, fourthEntry, thirdHash, thirdEntry, loneHash, loneEntry,
    genesisHash, computeEntryHash, sha256_eq_flat]
  decide +kernel

theorem run_lone : run (js "v1") [.init (draw 1), .verify (request [0xD800]) verified (draw 2)] =
    ⟨[(genesisEntry (draw 1)).stored genesisPrevHash, loneEntry.stored genesisHash], true, 2,
      loneHash⟩ := by
  have hdistinct := hashes_lone
  simp only [List.nodup_cons, List.mem_cons, List.not_mem_nil, or_false, not_or] at hdistinct
  refine run_two rfl rfl (by decide) ?_ rfl ?_ hdistinct.2.1.1
  · rw [genesisHash]
  · rw [loneHash]

theorem not_hashOk_lone : ¬ HashOk (loneEntry.stored genesisHash).read := by
  have hwf : WellFormed genesisHash = true := by
    rw [genesisHash]
    exact wellFormed_computeEntryHash _ _
  have hprev : loneEntry.prevHash = genesisHash := rfl
  have hne : readBackHash ≠ loneHash := by
    have hdistinct := hashes_lone
    simp only [List.nodup_cons, List.mem_cons, not_or] at hdistinct
    exact Ne.symm hdistinct.2.2.1.1
  rw [readBackHash, loneHash] at hne
  intro hok
  exact hne ((hashOk_stored_iff hprev hwf).mp hok)

/-- The log of this run does not verify. -/
theorem lone_surrogate_breaks_chain :
    let s := run (js "v1") [.init (draw 1), .verify (request [0xD800]) verified (draw 2)]
    s.opened = true ∧ s.rows.length = 2 ∧ ∃ v, verifyChain s = .ok v ∧ v.ok = false := by
  rw [run_lone]
  refine ⟨rfl, rfl, _, rfl, ?_⟩
  by_contra hok
  obtain ⟨-, hrows⟩ := verifyRows_ok ((Bool.not_eq_false _).mp hok)
  have hmem : loneEntry.stored genesisHash ∈ bySequence
      [(genesisEntry (draw 1)).stored genesisPrevHash, loneEntry.stored genesisHash] := by
    rw [bySequence, List.mem_insertionSort]
    exact List.mem_cons_of_mem _ (List.mem_singleton_self _)
  exact not_hashOk_lone (hrows _ (List.mem_map_of_mem hmem))

end ZeroAuth.Verifier
