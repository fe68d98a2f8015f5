/-
  ZeroAuth.Portal.RoundTrip

  The server reads back the proof QR that the phone writes.

  `Reads bs v` says that the CBOR reader makes `v` of the bytes `bs`, whatever
  follows them.  There is one rule for each kind of data item that the phone
  writes; the envelope is put together from these (`proof_qr_round_trip`).
-/

import ZeroAuth.Lib.Words
import ZeroAuth.Portal.ProofQr

namespace ZeroAuth.Portal

open ZeroAuth.Lib ZeroAuth.Js ZeroAuth.Pairing ZeroAuth.Android

/-! ## Heads -/

theorem readBytes_append (l : List UInt8) (v : ℕ) (rest : List UInt8) :
    readBytes l.length v (l ++ rest) = .ok (l.foldl shiftIn v, rest) := by
  induction l generalizing v with
  | nil => rfl
  | cons b l ih => exact ih (shiftIn v b)

theorem readBytes_bigEndian {k n : ℕ} (h : n < 256 ^ k) (rest : List UInt8) :
    readBytes k 0 (bigEndian k n ++ rest) = .ok (n, rest) := by
  have hread := readBytes_append (bigEndian k n) 0 rest
  rw [length_bigEndian, foldl_shiftIn_bigEndian, Nat.zero_mul, Nat.zero_add,
    Nat.mod_eq_of_lt h] at hread
  exact hread

/-- The two parts of a first byte. -/
theorem initial_parts {major additional : ℕ} (hm : major < 8) (ha : additional < 32) :
    (UInt8.ofNat (major <<< 5 ||| additional)).toNat >>> 5 = major ∧
      (UInt8.ofNat (major <<< 5 ||| additional)).toNat &&& 0x1f = additional := by
  have hall : ∀ m < 8, ∀ a < 32, (UInt8.ofNat (m <<< 5 ||| a)).toNat >>> 5 = m ∧
      (UInt8.ofNat (m <<< 5 ||| a)).toNat &&& 0x1f = a := by
    decide
  exact hall major hm additional ha

/-- The head of a data item is read as it was written, in each of the five
    forms of a length. -/
theorem exists_head {major length : ℕ} (hm : major < 8) (hl : length < 2 ^ 64) :
    ∃ initial bytes, writeMajorAndLength major length = initial :: bytes ∧
      initial.toNat >>> 5 = major ∧
      ∀ rest, readLength (initial.toNat &&& 0x1f) (bytes ++ rest) = .ok (length, rest) := by
  unfold writeMajorAndLength
  -- the length is in the initial byte, or in one, two, four or eight bytes behind it
  split
  · next hlt =>
      obtain ⟨hmajor, hadd⟩ := initial_parts hm (show length < 32 by omega)
      refine ⟨_, _, rfl, hmajor, fun rest => ?_⟩
      rw [hadd, readLength, if_pos hlt]
      rfl
  · split
    · next hlt =>
        obtain ⟨hmajor, hadd⟩ := initial_parts hm (show 24 < 32 by omega)
        refine ⟨_, bigEndian 1 length, rfl, hmajor, fun rest => ?_⟩
        rw [hadd]
        exact readBytes_bigEndian (k := 1) (by omega) rest
    · split
      · next hlt =>
          obtain ⟨hmajor, hadd⟩ := initial_parts hm (show 25 < 32 by omega)
          refine ⟨_, bigEndian 2 length, rfl, hmajor, fun rest => ?_⟩
          rw [hadd]
          exact readBytes_bigEndian (k := 2) (by omega) rest
      · split
        · next hlt =>
            obtain ⟨hmajor, hadd⟩ := initial_parts hm (show 26 < 32 by omega)
            refine ⟨_, bigEndian 4 length, rfl, hmajor, fun rest => ?_⟩
            rw [hadd]
            exact readBytes_bigEndian (k := 4) (by omega) rest
        · obtain ⟨hmajor, hadd⟩ := initial_parts hm (show 27 < 32 by omega)
          refine ⟨_, bigEndian 8 length, rfl, hmajor, fun rest => ?_⟩
          rw [hadd]
          exact readBytes_bigEndian (k := 8) (by omega) rest

theorem read_head {major length fuel : ℕ} (hm : major < 8) (hl : length < 2 ^ 64)
    (bs : List UInt8) :
    read (fuel + 1) (writeMajorAndLength major length ++ bs) =
      readContent (read fuel) major length bs := by
  obtain ⟨initial, bytes, heq, hmajor, hlength⟩ := exists_head hm hl
  rw [heq, List.cons_append, read]
  simp only [readByte, Except.bind, bind, hlength, hmajor]

/-! ## Data items -/

/-- The reader makes `v` of these bytes, if they fit into a byte array. -/
def Reads (bs : List UInt8) (v : CborValue) : Prop :=
  bs.length < 2 ^ 31 → ∀ fuel rest, bs.length ≤ fuel → read fuel (bs ++ rest) = .ok (v, rest)

/-- An item is not empty, so its head is read with one turn of fuel. -/
theorem Reads.of_head {major length : ℕ} {body : List UInt8} {v : CborValue} (hm : major < 8)
    (hl : (writeMajorAndLength major length ++ body).length < 2 ^ 31 → length < 2 ^ 64)
    (h : (writeMajorAndLength major length ++ body).length < 2 ^ 31 → ∀ fuel rest,
      body.length ≤ fuel → readContent (read fuel) major length (body ++ rest) = .ok (v, rest)) :
    Reads (writeMajorAndLength major length ++ body) v := by
  intro hsize fuel rest hfuel
  have hpos : 0 < (writeMajorAndLength major length).length := by
    obtain ⟨initial, bytes, heq, -⟩ := exists_head hm (hl hsize)
    rw [heq]
    exact Nat.succ_pos _
  rw [List.length_append] at hfuel
  obtain ⟨fuel, rfl⟩ : ∃ n, fuel = n + 1 := ⟨fuel - 1, by omega⟩
  rw [List.append_assoc, read_head hm (hl hsize)]
  exact h hsize fuel rest (by omega)

theorem reads_writeTextString {s : JsString} (h : WellFormed s = true) :
    Reads (writeTextString s) (.text s) := by
  have hle : (writeTextString s).length < 2 ^ 31 → (toByteArray s).length < 2 ^ 31 := by
    intro hsize
    rw [writeTextString, List.length_append] at hsize
    omega
  refine Reads.of_head (by decide) (fun hsize => (hle hsize).trans (by decide))
    fun hsize fuel rest _ => ?_
  have hlength : toNumber (toByteArray s).length = (toByteArray s).length :=
    toNumber_of_le ((hle hsize).le.trans (by decide))
  show Except.ok (CborValue.text _, _) = _
  rw [hlength, List.take_left, List.drop_left, toByteArray_eq_utf8 h, decodeUtf8_utf8 h]

theorem reads_writeMajorAndLength {n : ℕ} (h : n < 2 ^ 64) :
    Reads (writeMajorAndLength majorUnsignedInt n) (.number (toNumber n)) := by
  have hreads : Reads (writeMajorAndLength majorUnsignedInt n ++ []) (.number (toNumber n)) :=
    .of_head (by decide) (fun _ => h) fun _ fuel rest _ => rfl
  rwa [List.append_nil] at hreads

theorem Reads.length_pos {bs : List UInt8} {v : CborValue} (h : Reads bs v) : 0 < bs.length := by
  by_contra hzero
  have hnil : bs = [] := List.length_eq_zero_iff.mp (by omega)
  subst hnil
  have hread := h (by simp) 0 [] (Nat.le_refl _)
  cases hread

/-- Items that are written one after the other. -/
theorem readItems_flatMap {α : Type} {write : α → List UInt8} {value : α → CborValue} {xs : List α}
    (h : ∀ x ∈ xs, Reads (write x) (value x)) {fuel : ℕ} (rest : List UInt8)
    (hfuel : (xs.flatMap write).length ≤ fuel) (hsize : (xs.flatMap write).length < 2 ^ 31) :
    readItems (read fuel) xs.length (xs.flatMap write ++ rest) = .ok (xs.map value, rest) := by
  induction xs with
  | nil => rfl
  | cons x xs ih =>
      rw [List.flatMap_cons, List.length_append] at hfuel hsize
      have hx := h x (by simp) (by omega) fuel (xs.flatMap write ++ rest) (by omega)
      have hxs := ih (fun y hy => h y (by simp [hy])) (by omega) (by omega)
      rw [List.flatMap_cons, List.append_assoc, List.length_cons, readItems, hx]
      simp only [bind, Except.bind, hxs]
      rfl

theorem length_le_flatMap {α : Type} {write : α → List UInt8} {value : α → CborValue} {xs : List α}
    (h : ∀ x ∈ xs, Reads (write x) (value x)) : xs.length ≤ (xs.flatMap write).length := by
  induction xs with
  | nil => simp
  | cons x xs ih =>
      have hx := (h x (by simp)).length_pos
      have hxs := ih fun y hy => h y (by simp [hy])
      rw [List.flatMap_cons, List.length_append, List.length_cons]
      omega

/-- An array of items. -/
theorem reads_array {α : Type} {write : α → List UInt8} {value : α → CborValue} {xs : List α}
    (h : ∀ x ∈ xs, Reads (write x) (value x)) :
    Reads (writeArrayHeader xs.length ++ xs.flatMap write) (.array (xs.map value)) := by
  have hle : (writeArrayHeader xs.length ++ xs.flatMap write).length < 2 ^ 31 →
      (xs.flatMap write).length < 2 ^ 31 ∧ xs.length < 2 ^ 31 := by
    intro hsize
    have hcount := length_le_flatMap h
    rw [List.length_append] at hsize
    omega
  refine Reads.of_head (by decide) (fun hsize => (hle hsize).2.trans (by decide))
    fun hsize fuel rest hfuel => ?_
  have hcount : toNumber xs.length = xs.length :=
    toNumber_of_le ((hle hsize).2.le.trans (by decide))
  have hitems := readItems_flatMap h rest hfuel (hle hsize).1
  show Bind.bind (readItems (read fuel) (toNumber xs.length) _) _ = _
  rw [hcount, hitems]
  rfl

theorem reads_writeTextStringArray {values : List JsString}
    (h : ∀ s ∈ values, WellFormed s = true) :
    Reads (writeTextStringArray values) (.array (values.map .text)) :=
  reads_array fun s hs => reads_writeTextString (h s hs)

/-- A key and what is written after it. -/
structure Entry where
  key : JsString
  bytes : List UInt8
  value : CborValue

def Entry.write (e : Entry) : List UInt8 := writeTextString e.key ++ e.bytes

/-- The entry can be read. -/
structure Entry.Ok (e : Entry) : Prop where
  key : WellFormed e.key = true
  bytes : Reads e.bytes e.value

/-- The object that the entries make. -/
def assemble (es : List Entry) (obj : CborValue) : CborValue :=
  es.foldl (fun obj e => obj.setProp e.key e.value) obj

theorem readEntries_flatMap {es : List Entry} (h : ∀ e ∈ es, e.Ok) {fuel : ℕ}
    (rest : List UInt8) (obj : CborValue) (hfuel : (es.flatMap Entry.write).length ≤ fuel)
    (hsize : (es.flatMap Entry.write).length < 2 ^ 31) :
    readEntries (read fuel) es.length obj (es.flatMap Entry.write ++ rest) =
      .ok (assemble es obj, rest) := by
  induction es generalizing obj with
  | nil => rfl
  | cons e es ih =>
      obtain ⟨hkey, hbytes⟩ := h e (by simp)
      simp only [List.flatMap_cons, Entry.write, List.length_append] at hfuel hsize
      have hk := reads_writeTextString hkey (by omega) fuel
        (e.bytes ++ (es.flatMap Entry.write ++ rest)) (by omega)
      have hv := hbytes (by omega) fuel (es.flatMap Entry.write ++ rest) (by omega)
      have hes := ih (fun e' he' => h e' (by simp [he'])) (obj.setProp e.key e.value) (by omega)
        (by omega)
      rw [List.flatMap_cons, Entry.write, List.append_assoc, List.append_assoc, List.length_cons,
        readEntries, hk]
      simp only [bind, Except.bind, hv]
      exact hes

/-- A map with fewer than 24 entries, as its header is one byte. -/
theorem reads_map {es : List Entry} (h : ∀ e ∈ es, e.Ok) (hshort : es.length < 24) :
    Reads (writeMajorAndLength 5 es.length ++ es.flatMap Entry.write)
      (assemble es (.object [])) := by
  refine Reads.of_head (by decide) (fun _ => by omega) fun hsize fuel rest hfuel => ?_
  rw [List.length_append] at hsize
  have hcount : toNumber es.length = es.length := toNumber_of_le (by omega)
  show readEntries (read fuel) (toNumber es.length) (.object []) _ = _
  rw [hcount]
  exact readEntries_flatMap h rest _ hfuel (by omega)

/-! ## The envelope -/

def texts (values : List JsString) : CborValue := .array (values.map .text)

/-- No string of the envelope has a lone surrogate. -/
structure UnicodeEnvelope (payload : ProofEnvelope) : Prop where
  sessionId : WellFormed payload.sessionId = true
  pi_a : ∀ s ∈ payload.proof.pi_a, WellFormed s = true
  pi_b : ∀ row ∈ payload.proof.pi_b, ∀ s ∈ row, WellFormed s = true
  pi_c : ∀ s ∈ payload.proof.pi_c, WellFormed s = true
  publicSignals : ∀ s ∈ payload.publicSignals, WellFormed s = true
  did : WellFormed payload.did = true
  appVersion : WellFormed payload.clientMeta.appVersion = true
  platform : WellFormed payload.clientMeta.platform = true
  model : WellFormed payload.clientMeta.model = true
  playIntegrityVerdict : ∀ s ∈ payload.clientMeta.playIntegrityVerdict, WellFormed s = true

/-- Three, three times two and three strings. -/
structure Groth16Shape (proof : Groth16Proof) : Prop where
  pi_a : proof.pi_a.length = 3
  pi_b : proof.pi_b.length = 3
  rows : ∀ row ∈ proof.pi_b, row.length = 2
  pi_c : proof.pi_c.length = 3
  protocol : proof.protocol = js "groth16"
  curve : proof.curve = js "bn128"

def proofEntries (proof : Groth16Proof) : List Entry :=
  [⟨js "pi_a", writeTextStringArray proof.pi_a, texts proof.pi_a⟩,
    ⟨js "pi_b", writeArrayHeader proof.pi_b.length ++ proof.pi_b.flatMap writeTextStringArray,
      .array (proof.pi_b.map texts)⟩,
    ⟨js "pi_c", writeTextStringArray proof.pi_c, texts proof.pi_c⟩,
    ⟨js "protocol", writeTextString proof.protocol, .text proof.protocol⟩,
    ⟨js "curve", writeTextString proof.curve, .text proof.curve⟩]

def verdictEntries (verdict : Option JsString) : List Entry :=
  verdict.toList.map fun s => ⟨js "pi", writeTextString s, .text s⟩

def metaEntries (clientMeta : ClientMeta) : List Entry :=
  let proofMs := clientMeta.proofMs.val.toNat
  [⟨js "av", writeTextString clientMeta.appVersion, .text clientMeta.appVersion⟩,
    ⟨js "pl", writeTextString clientMeta.platform, .text clientMeta.platform⟩,
    ⟨js "md", writeTextString clientMeta.model, .text clientMeta.model⟩,
    ⟨js "ms", writeMajorAndLength majorUnsignedInt proofMs, .number (toNumber proofMs)⟩] ++
    verdictEntries clientMeta.playIntegrityVerdict

/-- The bytes of a map and the object it makes. -/
def mapBytes (es : List Entry) : List UInt8 := writeMajorAndLength 5 es.length ++ es.flatMap Entry.write

def mapValue (es : List Entry) : CborValue := assemble es (.object [])

def rootEntries (payload : ProofEnvelope) : List Entry :=
  [⟨js "s", writeTextString payload.sessionId, .text payload.sessionId⟩,
    ⟨js "p", mapBytes (proofEntries payload.proof), mapValue (proofEntries payload.proof)⟩,
    ⟨js "ps", writeTextStringArray payload.publicSignals, texts payload.publicSignals⟩,
    ⟨js "d", writeTextString payload.did, .text payload.did⟩,
    ⟨js "m", mapBytes (metaEntries payload.clientMeta), mapValue (metaEntries payload.clientMeta)⟩]

theorem writeProof_eq (proof : Groth16Proof) : writeProof proof = mapBytes (proofEntries proof) := by
  have hhead : writeMajorAndLength 5 5 = [0xA5] := by decide
  simp only [writeProof, mapBytes, proofEntries, List.length_cons, List.length_nil, List.flatMap_cons,
    List.flatMap_nil, Entry.write, List.append_assoc, List.append_nil, hhead, Nat.reduceAdd]

theorem writeClientMeta_eq {clientMeta : ClientMeta} {bytes : List UInt8}
    (h : writeClientMeta clientMeta = .ok bytes) : bytes = mapBytes (metaEntries clientMeta) := by
  have hfour : writeMajorAndLength 5 4 = [UInt8.ofNat (0xA0 ||| 4)] := by decide
  have hfive : writeMajorAndLength 5 5 = [UInt8.ofNat (0xA0 ||| 5)] := by decide
  by_cases hms : 0 ≤ clientMeta.proofMs.val
  · simp only [writeClientMeta, writeUnsignedInt, if_pos hms, bind, Except.bind, pure, Except.pure,
      Except.ok.injEq] at h
    subst h
    cases hv : clientMeta.playIntegrityVerdict with
    | none =>
        simp [mapBytes, metaEntries, verdictEntries, Entry.write, hv, hfour]
    | some verdict =>
        simp [mapBytes, metaEntries, verdictEntries, Entry.write, hv, hfive]
  · simp only [writeClientMeta, writeUnsignedInt, if_neg hms, bind, Except.bind] at h
    cases h

/-- What is encoded is the map of the root entries. -/
theorem encodeCborMap5_eq {payload : ProofEnvelope} {cbor : List UInt8}
    (h : encodeCborMap5 payload = .ok cbor) : cbor = mapBytes (rootEntries payload) := by
  have hhead : writeMajorAndLength 5 5 = [0xA5] := by decide
  unfold encodeCborMap5 at h
  cases hmeta : writeClientMeta payload.clientMeta with
  | error e =>
      rw [hmeta] at h
      cases h
  | ok bytes =>
      rw [hmeta] at h
      simp only [bind, Except.bind, pure, Except.pure, Except.ok.injEq] at h
      rw [← h, writeClientMeta_eq hmeta, writeProof_eq]
      simp only [mapBytes, rootEntries, List.length_cons, List.length_nil, List.flatMap_cons,
        List.flatMap_nil, Entry.write, List.append_assoc, List.append_nil, hhead, Nat.reduceAdd]

theorem assemble_object {es : List Entry} (h : ∀ e ∈ es, e.key ≠ js "__proto__")
    (own : List (JsString × CborValue)) : assemble es (.object own) =
      .object ((es.map fun e => (e.key, e.value)).reverse ++ own) := by
  induction es generalizing own with
  | nil => rfl
  | cons e es ih =>
      have hset : (CborValue.object own).setProp e.key e.value = .object ((e.key, e.value) :: own) := by
        rw [CborValue.setProp, if_neg (h e (by simp))]
      rw [assemble, List.foldl_cons, ← assemble, hset, ih fun e' he' => h e' (by simp [he'])]
      simp

/-- The keys of the phone's maps. -/
def plainKeys : List JsString :=
  [js "s", js "p", js "ps", js "d", js "m", js "pi_a", js "pi_b", js "pi_c", js "protocol",
    js "curve", js "av", js "pl", js "md", js "ms", js "pi"]

theorem mapValue_eq {es : List Entry} (h : ∀ e ∈ es, e.key ∈ plainKeys) :
    mapValue es = .object (es.map fun e => (e.key, e.value)).reverse := by
  have hne : ∀ key ∈ plainKeys, key ≠ js "__proto__" := by decide
  rw [mapValue, assemble_object fun e he => hne _ (h e he), List.append_nil]

theorem wellFormed_plainKeys : ∀ key ∈ plainKeys, WellFormed key = true := by decide

/-- Entries with keys of the phone are read when their values are. -/
theorem reads_mapBytes {es : List Entry} (hkeys : ∀ e ∈ es, e.key ∈ plainKeys)
    (h : ∀ e ∈ es, Reads e.bytes e.value) (hshort : es.length < 24) :
    Reads (mapBytes es) (mapValue es) :=
  reads_map (fun e he => ⟨wellFormed_plainKeys _ (hkeys e he), h e he⟩) hshort

theorem reads_proof {payload : ProofEnvelope} (h : UnicodeEnvelope payload)
    (hshape : Groth16Shape payload.proof) :
    Reads (mapBytes (proofEntries payload.proof)) (mapValue (proofEntries payload.proof)) := by
  have hprotocol : WellFormed payload.proof.protocol = true := by
    rw [hshape.protocol]
    decide
  have hcurve : WellFormed payload.proof.curve = true := by
    rw [hshape.curve]
    decide
  refine reads_mapBytes (by simp [proofEntries, plainKeys]) ?_ (by simp [proofEntries])
  simp only [proofEntries, List.forall_mem_cons, List.not_mem_nil, false_imp_iff, implies_true,
    and_true]
  exact ⟨reads_writeTextStringArray h.pi_a,
    reads_array fun row hrow => reads_writeTextStringArray (h.pi_b row hrow),
    reads_writeTextStringArray h.pi_c, reads_writeTextString hprotocol,
    reads_writeTextString hcurve⟩

theorem reads_meta {payload : ProofEnvelope} (h : UnicodeEnvelope payload) :
    Reads (mapBytes (metaEntries payload.clientMeta)) (mapValue (metaEntries payload.clientMeta)) := by
  have hms : payload.clientMeta.proofMs.val.toNat < 2 ^ 64 := by
    have hlt := payload.clientMeta.proofMs.property.2
    omega
  refine reads_mapBytes ?_ ?_ ?_
  · cases hv : payload.clientMeta.playIntegrityVerdict <;>
      simp [metaEntries, verdictEntries, hv, plainKeys]
  · intro e he
    rcases List.mem_append.mp he with he | he
    · simp only [List.mem_cons, List.not_mem_nil, or_false] at he
      rcases he with rfl | rfl | rfl | rfl
      · exact reads_writeTextString h.appVersion
      · exact reads_writeTextString h.platform
      · exact reads_writeTextString h.model
      · exact reads_writeMajorAndLength hms
    · obtain ⟨verdict, hverdict, rfl⟩ := List.mem_map.mp he
      exact reads_writeTextString (h.playIntegrityVerdict verdict (Option.mem_toList.mp hverdict))
  · cases hv : payload.clientMeta.playIntegrityVerdict <;> simp [metaEntries, verdictEntries, hv]

/-- The reader makes the root object of the encoded envelope. -/
theorem reads_root {payload : ProofEnvelope} (h : UnicodeEnvelope payload)
    (hshape : Groth16Shape payload.proof) :
    Reads (mapBytes (rootEntries payload)) (mapValue (rootEntries payload)) := by
  refine reads_mapBytes (by simp [rootEntries, plainKeys]) ?_ (by simp [rootEntries])
  simp only [rootEntries, List.forall_mem_cons, List.not_mem_nil, false_imp_iff, implies_true,
    and_true]
  exact ⟨reads_writeTextString h.sessionId, reads_proof h hshape,
    reads_writeTextStringArray h.publicSignals, reads_writeTextString h.did, reads_meta h⟩

/-! ### The checks on the object -/

theorem stringsOf_texts {values : List JsString} {n : ℕ} (h : values.length = n) :
    stringsOf n (some (texts values)) = some values := by
  have hmap : (values.map CborValue.text).mapM (fun v => stringOf (some v)) = some values := by
    clear h
    induction values with
    | nil => rfl
    | cons s values ih =>
        rw [List.map_cons, List.mapM_cons, ih]
        rfl
  rw [texts, stringsOf, if_pos (by rw [List.length_map, h]), hmap]

theorem stringRowsOf_texts {rows : List (List JsString)} {n m : ℕ} (h : rows.length = n)
    (hrows : ∀ row ∈ rows, row.length = m) :
    stringRowsOf n m (some (.array (rows.map texts))) = some rows := by
  have hmap : (rows.map texts).mapM (fun v => stringsOf m (some v)) = some rows := by
    clear h
    induction rows with
    | nil => rfl
    | cons row rows ih =>
        rw [List.map_cons, List.mapM_cons, stringsOf_texts (hrows row (by simp)),
          ih fun row' hrow' => hrows row' (by simp [hrow'])]
        rfl
  rw [stringRowsOf, if_pos (by rw [List.length_map, h]), hmap]

/-- The properties of an object made of the phone's entries. -/
theorem getProp_mapValue {es : List Entry} (hkeys : ∀ e ∈ es, e.key ∈ plainKeys) (key : JsString) :
    (mapValue es).getProp key = ((es.map fun e => (e.key, e.value)).reverse).lookup key := by
  rw [mapValue_eq hkeys, CborValue.getProp]

theorem proofOf_mapValue {proof : Groth16Proof} (h : Groth16Shape proof) :
    proofOf (mapValue (proofEntries proof)) = some proof := by
  have hkeys : ∀ e ∈ proofEntries proof, e.key ∈ plainKeys := by simp [proofEntries, plainKeys]
  have hget := getProp_mapValue hkeys
  have h₁ : (mapValue (proofEntries proof)).getProp (js "pi_a") = some (texts proof.pi_a) :=
    (hget _).trans rfl
  have h₂ : (mapValue (proofEntries proof)).getProp (js "pi_b") =
      some (.array (proof.pi_b.map texts)) := (hget _).trans rfl
  have h₃ : (mapValue (proofEntries proof)).getProp (js "pi_c") = some (texts proof.pi_c) :=
    (hget _).trans rfl
  have h₄ : (mapValue (proofEntries proof)).getProp (js "protocol") = some (.text proof.protocol) :=
    (hget _).trans rfl
  have h₅ : (mapValue (proofEntries proof)).getProp (js "curve") = some (.text proof.curve) :=
    (hget _).trans rfl
  have hprotocol : (stringOf (some (.text proof.protocol))).filter (fun s => s = js "groth16") =
      some proof.protocol := by
    simp [stringOf, h.protocol]
  have hcurve : (stringOf (some (.text proof.curve))).filter (fun s => s = js "bn128") =
      some proof.curve := by
    simp [stringOf, h.curve]
  rw [proofOf, h₁, h₂, h₃, h₄, h₅, stringsOf_texts h.pi_a, stringRowsOf_texts h.pi_b h.rows,
    stringsOf_texts h.pi_c, hprotocol, hcurve]
  rfl

theorem objectOf_mapValue {es : List Entry} (hkeys : ∀ e ∈ es, e.key ∈ plainKeys) :
    objectOf (some (mapValue es)) = some (mapValue es) := by
  rw [mapValue_eq hkeys]
  rfl

/-- What the server makes of the metadata. -/
def decodedMeta (clientMeta : ClientMeta) : DecodedClientMeta :=
  { appVersion := some clientMeta.appVersion
    platform := some clientMeta.platform
    model := some clientMeta.model
    proofMs := some (toNumber clientMeta.proofMs.val.toNat)
    playIntegrityVerdict := clientMeta.playIntegrityVerdict }

theorem clientMetaOf_mapValue (clientMeta : ClientMeta) :
    clientMetaOf (some (mapValue (metaEntries clientMeta))) = decodedMeta clientMeta := by
  obtain ⟨appVersion, platform, model, proofMs, verdict⟩ := clientMeta
  have hkeys : ∀ e ∈ metaEntries ⟨appVersion, platform, model, proofMs, verdict⟩,
      e.key ∈ plainKeys := by
    cases verdict <;> simp [metaEntries, verdictEntries, plainKeys]
  simp only [clientMetaOf, objectOf_mapValue hkeys, getProp_mapValue hkeys]
  cases verdict <;> rfl

/-- What the server makes of the envelope. -/
def decodedEnvelope (payload : ProofEnvelope) : DecodedProofEnvelope :=
  { sessionId := payload.sessionId
    proof := payload.proof
    publicSignals := payload.publicSignals
    did := payload.did
    clientMeta := decodedMeta payload.clientMeta }

theorem nonEmptyOf_text {s : JsString} (h : s ≠ []) : nonEmptyOf (some (.text s)) = some s := by
  simp [nonEmptyOf, stringOf, h]

theorem envelopeOf_mapValue {payload : ProofEnvelope} (hshape : Groth16Shape payload.proof)
    (hsignals : payload.publicSignals.length = 3) (hsession : payload.sessionId ≠ [])
    (hdid : payload.did ≠ []) :
    envelopeOf (mapValue (rootEntries payload)) = .ok (decodedEnvelope payload) := by
  have hkeys : ∀ e ∈ rootEntries payload, e.key ∈ plainKeys := by simp [rootEntries, plainKeys]
  have hproof : ∀ e ∈ proofEntries payload.proof, e.key ∈ plainKeys := by
    simp [proofEntries, plainKeys]
  have hget := getProp_mapValue hkeys
  have h₁ : (mapValue (rootEntries payload)).getProp (js "s") = some (.text payload.sessionId) :=
    (hget _).trans rfl
  have h₂ : (mapValue (rootEntries payload)).getProp (js "d") = some (.text payload.did) :=
    (hget _).trans rfl
  have h₃ : (mapValue (rootEntries payload)).getProp (js "ps") = some (texts payload.publicSignals) :=
    (hget _).trans rfl
  have h₄ : (mapValue (rootEntries payload)).getProp (js "p") =
      some (mapValue (proofEntries payload.proof)) := (hget _).trans rfl
  have h₅ : (mapValue (rootEntries payload)).getProp (js "m") =
      some (mapValue (metaEntries payload.clientMeta)) := (hget _).trans rfl
  simp only [envelopeOf, objectOf_mapValue hkeys, orThrow, bind, Except.bind, h₁, h₂, h₃, h₄, h₅,
    nonEmptyOf_text hsession, nonEmptyOf_text hdid, stringsOf_texts hsignals,
    objectOf_mapValue hproof, proofOf_mapValue hshape, clientMetaOf_mapValue]
  rfl

/-! ### base64url -/

theorem base64Digit_base64Unit {n : ℕ} (h : n < 64) : base64Digit (base64Unit n) = some n := by
  have hall : ∀ n < 64, base64Digit (base64Unit n) = some n := by decide
  exact hall n h

theorem filterMap_base64Unit {n : ℕ} (h : n < 64) (us : JsString) :
    (base64Unit n :: us).filterMap base64Digit = n :: us.filterMap base64Digit :=
  List.filterMap_cons_some (base64Digit_base64Unit h)

/-- A number below 2^24 is given by its four digits of six bits. -/
theorem sextets (n : ℕ) :
    n / 262144 * 262144 + n / 4096 % 64 * 4096 + n / 64 % 64 * 64 + n % 64 = n := by
  omega

/-- Decoding what was encoded gives the bytes again, three at a time. -/
theorem bufferFromBase64url_base64url (bs : List UInt8) :
    bufferFromBase64url (base64url bs) = bs := by
  induction bs using base64url.induct with
  | case1 a b c bs ih =>
      have ha : a.toNat < 256 := a.toNat_lt
      have hb : b.toNat < 256 := b.toNat_lt
      have hc : c.toNat < 256 := c.toNat_lt
      rw [bufferFromBase64url] at ih
      simp only [bufferFromBase64url, base64url]
      -- three bytes are one number of 24 bits, cut into four digits
      generalize hn : a.toNat * 65536 + b.toNat * 256 + c.toNat = n
      rw [filterMap_base64Unit (by omega), filterMap_base64Unit (by omega),
        filterMap_base64Unit (by omega), filterMap_base64Unit (by omega), bytesOfDigits, ih]
      have h₁ : n / 65536 = a.toNat := by omega
      have h₂ : n / 256 % 256 = b.toNat := by omega
      have h₃ : n % 256 = c.toNat := by omega
      simp only [sextets, h₁, h₂, h₃, UInt8.ofNat_toNat]
  | case2 a b =>
      have ha : a.toNat < 256 := a.toNat_lt
      have hb : b.toNat < 256 := b.toNat_lt
      simp only [bufferFromBase64url, base64url]
      -- two bytes at the end are three digits
      generalize hn : a.toNat * 256 + b.toNat = n
      rw [filterMap_base64Unit (by omega), filterMap_base64Unit (by omega),
        filterMap_base64Unit (by omega), List.filterMap_nil, bytesOfDigits]
      have h₁ : (n / 1024 * 4096 + n / 16 % 64 * 64 + n * 4 % 64) / 1024 = a.toNat := by omega
      have h₂ : (n / 1024 * 4096 + n / 16 % 64 * 64 + n * 4 % 64) / 4 % 256 = b.toNat := by omega
      simp only [h₁, h₂, UInt8.ofNat_toNat]
  | case3 a =>
      have ha : a.toNat < 256 := a.toNat_lt
      simp only [bufferFromBase64url, base64url]
      rw [filterMap_base64Unit (by omega), filterMap_base64Unit (by omega), List.filterMap_nil,
        bytesOfDigits]
      have h₁ : (a.toNat / 4 * 64 + a.toNat * 16 % 64) / 16 = a.toNat := by omega
      rw [h₁, UInt8.ofNat_toNat]
  | case4 => rfl

/-- The digits are neither white space nor anything else that is trimmed. -/
theorem exists_base64Unit {bs : List UInt8} {u : CodeUnit} (hu : u ∈ base64url bs) :
    ∃ n < 64, u = base64Unit n := by
  induction bs using base64url.induct with
  | case1 a b c bs ih =>
      have ha : a.toNat < 256 := a.toNat_lt
      have hb : b.toNat < 256 := b.toNat_lt
      have hc : c.toNat < 256 := c.toNat_lt
      simp only [base64url, List.mem_cons] at hu
      rcases hu with rfl | rfl | rfl | rfl | hu
      · exact ⟨_, by omega, rfl⟩
      · exact ⟨_, by omega, rfl⟩
      · exact ⟨_, by omega, rfl⟩
      · exact ⟨_, by omega, rfl⟩
      · exact ih hu
  | case2 a b =>
      have ha : a.toNat < 256 := a.toNat_lt
      have hb : b.toNat < 256 := b.toNat_lt
      simp only [base64url, List.mem_cons, List.not_mem_nil, or_false] at hu
      rcases hu with rfl | rfl | rfl
      · exact ⟨_, by omega, rfl⟩
      · exact ⟨_, by omega, rfl⟩
      · exact ⟨_, by omega, rfl⟩
  | case3 a =>
      have ha : a.toNat < 256 := a.toNat_lt
      simp only [base64url, List.mem_cons, List.not_mem_nil, or_false] at hu
      rcases hu with rfl | rfl
      · exact ⟨_, by omega, rfl⟩
      · exact ⟨_, by omega, rfl⟩
  | case4 => cases hu

theorem isWhiteSpace_base64url {bs : List UInt8} {u : CodeUnit} (hu : u ∈ base64url bs) :
    isWhiteSpace u = false := by
  have hall : ∀ n < 64, isWhiteSpace (base64Unit n) = false := by decide
  obtain ⟨n, hn, rfl⟩ := exists_base64Unit hu
  exact hall n hn

/-! ### The whole way -/

/-- A proof QR that the phone makes is read by the server as the same envelope;
    only `proofMs` goes through a double. -/
theorem decodeProofQr_encodeProof {z : Gzip} {payload : ProofEnvelope} {qr : JsString}
    (h : UnicodeEnvelope payload) (hshape : Groth16Shape payload.proof)
    (hsignals : payload.publicSignals.length = 3) (hsession : payload.sessionId ≠ [])
    (hdid : payload.did ≠ []) (hqr : encodeProof z payload = .ok qr) :
    decodeProofQr z qr = .ok (decodedEnvelope payload) := by
  unfold encodeProof at hqr
  cases hcbor : encodeCborMap5 payload with
  | error e =>
      rw [hcbor] at hqr
      cases hqr
  | ok cbor =>
      rw [hcbor] at hqr
      obtain rfl := encodeCborMap5_eq hcbor
      generalize hbytes : mapBytes (rootEntries payload) = cbor at hqr
      dsimp only [bind, Except.bind] at hqr
      split at hqr
      · cases hqr
      · -- the encoder refuses a text that is too long
        next hsize =>
          split at hqr
          · cases hqr
          · next hlength =>
              cases hqr
              -- the text has no white space at its ends, and starts with the prefix
              have htrim : trim (proofPrefix ++ base64url (z.gzip cbor)) =
                  proofPrefix ++ base64url (z.gzip cbor) := by
                refine trim_of_forall fun u hu => ?_
                rcases List.mem_append.mp hu with hu | hu
                · have hall : (proofPrefix.all fun u => !isWhiteSpace u) = true := by decide
                  simpa using List.all_eq_true.mp hall u hu
                · exact isWhiteSpace_base64url hu
              have hpre : proofPrefix.isPrefixOf (proofPrefix ++ base64url (z.gzip cbor)) = true :=
                List.isPrefixOf_iff_prefix.mpr (List.prefix_append _ _)
              -- what gunzip gives back is read to its end
              have hreads := reads_root h hshape
              rw [hbytes] at hreads
              have hread := hreads (by omega) cbor.length [] (Nat.le_refl _)
              rw [List.append_nil] at hread
              simp only [decodeProofQr, htrim, hpre, List.drop_left, bufferFromBase64url_base64url,
                z.gunzip_gzip, orThrow, bind, Except.bind, hread, if_neg hlength,
                envelopeOf_mapValue hshape hsignals hsession hdid]
              rfl

/-- The server reads back what the phone writes: every field as it was, the
    verdict exactly when there is one, and `proofMs` as the nearest double.  That
    is `proofMs` itself if it has at most 53 significant bits, and so up to
    2^53. -/
theorem proof_qr_round_trip (z : Gzip) {payload : ProofEnvelope} (h : UnicodeEnvelope payload)
    (hshape : Groth16Shape payload.proof) (hsignals : payload.publicSignals.length = 3)
    (hsession : payload.sessionId ≠ []) (hdid : payload.did ≠ []) {qr : JsString}
    (hqr : encodeProof z payload = .ok qr) :
    ∃ d ms, decodeProofQr z qr = .ok d ∧ payload.clientMeta.proofMs.val = (ms : ℕ) ∧
      d.sessionId = payload.sessionId ∧ d.proof = payload.proof ∧
      d.publicSignals = payload.publicSignals ∧ d.did = payload.did ∧
      d.clientMeta.appVersion = some payload.clientMeta.appVersion ∧
      d.clientMeta.platform = some payload.clientMeta.platform ∧
      d.clientMeta.model = some payload.clientMeta.model ∧
      d.clientMeta.playIntegrityVerdict = payload.clientMeta.playIntegrityVerdict ∧
      d.clientMeta.proofMs = some (toNumber ms) ∧
      (d.clientMeta.proofMs = some ms ↔ 2 ^ excessBits ms ∣ ms) ∧
      (ms ≤ 2 ^ 53 → d.clientMeta.proofMs = some ms) := by
  have hdecode := decodeProofQr_encodeProof h hshape hsignals hsession hdid hqr
  have hms : 0 ≤ payload.clientMeta.proofMs.val := by
    by_contra hneg
    simp only [encodeProof, encodeCborMap5, writeClientMeta, writeUnsignedInt, if_neg hneg, bind,
      Except.bind] at hqr
    cases hqr
  refine ⟨decodedEnvelope payload, payload.clientMeta.proofMs.val.toNat, hdecode,
    (Int.toNat_of_nonneg hms).symm, rfl, rfl, rfl, rfl, rfl, rfl, rfl, rfl, rfl, ?_, fun hle => ?_⟩
  · exact Option.some_inj.trans toNumber_eq_self_iff
  · exact congrArg some (toNumber_of_le hle)

/-! ### Two envelopes -/

/-- gzip where only one input matters. -/
def tableGzip (bytes zipped : List UInt8) (h : zipped.head? = some 0x1f) : Gzip where
  gzip bs := if bs = bytes then zipped else 0 :: bs
  gunzip zs := if zs = zipped then some bytes else zs.tail?
  gunzip_gzip := by
    intro bs
    by_cases hbs : bs = bytes
    · rw [if_pos hbs, if_pos rfl, hbs]
    · have hne : 0 :: bs ≠ zipped := by
        rintro rfl
        cases h
      rw [if_neg hbs, if_neg hne, List.tail?_cons]

def sampleProof : Groth16Proof :=
  { pi_a := [js "1", js "2", js "1"]
    pi_b := [[js "3", js "4"], [js "5", js "6"], [js "1", js "0"]]
    pi_c := [js "7", js "8", js "1"]
    protocol := js "groth16"
    curve := js "bn128" }

def sampleSignals : List JsString := [js "1", js "2", js "3"]

def sampleEnvelope (proofMs : Long) : ProofEnvelope :=
  { sessionId := js "s"
    proof := sampleProof
    publicSignals := sampleSignals
    did := js "d"
    clientMeta := ⟨js "1", js "android", js "m", proofMs, none⟩ }

def sampleCbor (proofMs : Long) : List UInt8 := mapBytes (rootEntries (sampleEnvelope proofMs))

theorem groth16Shape_sample (proofMs : Long) : Groth16Shape (sampleEnvelope proofMs).proof :=
  ⟨rfl, rfl, by simp [sampleEnvelope, sampleProof], rfl, rfl, rfl⟩

theorem wellFormed_sampleProof : (∀ s ∈ sampleProof.pi_a, WellFormed s = true) ∧
    (∀ row ∈ sampleProof.pi_b, ∀ s ∈ row, WellFormed s = true) ∧
    ∀ s ∈ sampleProof.pi_c, WellFormed s = true := by
  decide

theorem wellFormed_sampleSignals : ∀ s ∈ sampleSignals, WellFormed s = true := by decide

theorem unicodeEnvelope_sample (proofMs : Long) : UnicodeEnvelope (sampleEnvelope proofMs) :=
  { sessionId := rfl
    pi_a := wellFormed_sampleProof.1
    pi_b := wellFormed_sampleProof.2.1
    pi_c := wellFormed_sampleProof.2.2
    publicSignals := wellFormed_sampleSignals
    did := rfl
    appVersion := rfl
    platform := rfl
    model := rfl
    playIntegrityVerdict := by simp [sampleEnvelope] }

/-- The gzip file of the envelope with 4820 ms. -/
def zipped4820 : List UInt8 :=
  [31, 139, 8, 0, 0, 0, 0, 0, 0, 0, 37, 140, 193, 13, 131, 48, 16, 4, 123, 224, 151, 46, 56, 32, 132,
    110, 162, 61, 219, 50, 72, 24, 159, 236, 64, 1, 118, 43, 208, 81, 10, 202, 161, 104, 62, 163, 121,
    204, 133, 172, 200, 101, 101, 121, 163, 130, 208, 129, 110, 231, 90, 208, 99, 40, 120, 98, 44, 154,
    219, 59, 154, 138, 23, 38, 208, 44, 41, 126, 162, 137, 171, 247, 42, 51, 141, 206, 236, 233, 112,
    142, 55, 234, 38, 150, 252, 255, 244, 176, 74, 56, 25, 7, 136, 101, 245, 216, 108, 138, 139, 229,
    160, 149, 67, 126, 52, 223, 31, 44, 214, 224, 44, 126, 0, 0, 0]

/-- The gzip file of the envelope with 2^53 + 1 ms. -/
def zippedLong : List UInt8 :=
  [31, 139, 8, 0, 0, 0, 0, 0, 0, 0, 37, 140, 193, 13, 194, 48, 16, 4, 67, 29, 124, 40, 129, 75, 32,
    164, 27, 180, 103, 91, 78, 164, 56, 62, 217, 144, 2, 236, 86, 146, 62, 57, 139, 157, 207, 104, 30,
    123, 34, 43, 114, 90, 89, 222, 168, 32, 244, 160, 230, 92, 11, 6, 60, 10, 158, 24, 139, 230, 123,
    139, 166, 226, 133, 9, 52, 75, 138, 159, 104, 226, 234, 189, 202, 76, 163, 51, 223, 180, 59, 199,
    27, 245, 19, 75, 254, 255, 12, 176, 74, 56, 24, 59, 136, 101, 245, 216, 108, 138, 139, 229, 160,
    149, 67, 190, 118, 183, 174, 237, 242, 3, 39, 32, 111, 215, 132, 0, 0, 0]

def ms4820 : Long := ⟨4820, by decide⟩

def msLong : Long := ⟨2 ^ 53 + 1, by decide⟩

def gzip4820 : Gzip := tableGzip (sampleCbor ms4820) zipped4820 rfl

def gzipLong : Gzip := tableGzip (sampleCbor msLong) zippedLong rfl

/-- Whether a QR is made at all. -/
def encodes (z : Gzip) (payload : ProofEnvelope) : Bool := (encodeProof z payload).isOk

theorem exists_qr {z : Gzip} {payload : ProofEnvelope} (h : encodes z payload = true) :
    ∃ qr, encodeProof z payload = .ok qr := by
  unfold encodes at h
  cases hqr : encodeProof z payload with
  | ok qr => exact ⟨qr, rfl⟩
  | error e =>
      rw [hqr] at h
      cases h

theorem proof_qr_round_trip_of_sample : ∃ qr d,
    encodeProof gzip4820 (sampleEnvelope ms4820) = .ok qr ∧ decodeProofQr gzip4820 qr = .ok d ∧
      d.clientMeta.proofMs = some 4820 := by
  obtain ⟨qr, hqr⟩ := exists_qr
    (show encodes gzip4820 (sampleEnvelope ms4820) = true by decide +kernel)
  obtain ⟨d, ms, hd, hval, -, -, -, -, -, -, -, -, -, -, hsmall⟩ :=
    proof_qr_round_trip gzip4820 (unicodeEnvelope_sample ms4820) (groth16Shape_sample ms4820) rfl
      (by decide) (by decide) hqr
  obtain rfl : 4820 = ms := Int.ofNat_inj.mp hval
  exact ⟨qr, d, hqr, hd, hsmall (by decide)⟩

/-- 2^53 + 1 ms are read back as 2^53 ms. -/
theorem long_proofMs_rounded : ∃ qr d,
    encodeProof gzipLong (sampleEnvelope msLong) = .ok qr ∧ decodeProofQr gzipLong qr = .ok d ∧
      msLong.val = 2 ^ 53 + 1 ∧ d.clientMeta.proofMs = some (2 ^ 53) := by
  obtain ⟨qr, hqr⟩ := exists_qr
    (show encodes gzipLong (sampleEnvelope msLong) = true by decide +kernel)
  have hd := decodeProofQr_encodeProof (unicodeEnvelope_sample msLong) (groth16Shape_sample msLong)
    rfl (by decide) (by decide) hqr
  refine ⟨qr, _, hqr, hd, rfl, ?_⟩
  show some (toNumber (2 ^ 53 + 1)) = some (2 ^ 53)
  decide

end ZeroAuth.Portal
