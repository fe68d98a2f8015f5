/-
  ZeroAuth.Portal.CborReader

  `CborReader` of src/routes/demo-portal.ts with its cursor.

  Single bytes are checked against the end of the buffer, text strings are not:
  `toString` stops at the end of the buffer and the cursor goes on past it.  And
  some items have no value that the reader can make: an integer that is no double,
  text that is not UTF-8, a key that comes twice or is `__proto__`.  A read is
  strict exactly on the buffers that neither break off inside the text string that
  comes last nor begin with such an item (`strict_iff`).
-/

import ZeroAuth.Portal.CborItem

namespace ZeroAuth.Portal.CborReader

open ZeroAuth.Lib ZeroAuth.Js

/-- A node Buffer; its length is a safe integer. -/
abbrev Buffer := {bytes : List UInt8 // bytes.length < 2 ^ 53}

/-- How a read ends without a value. -/
inductive Stop
  | payloadError (message : JsString)
  | outOfFuel

/-- A read moves `this.offset`. -/
abbrev Cursor (α : Type) := ℕ → Except Stop (α × ℕ)

section Reader

variable (bytes : List UInt8)

def readByte : Cursor UInt8 := fun offset =>
  match bytes[offset]? with
  | none => .error (.payloadError (js "Unexpected end of CBOR input"))
  | some b => .ok (b, offset + 1)

/-- `v = (v << 8n) | BigInt(this.readByte())`, `n` times. -/
def readBytes : ℕ → ℕ → Cursor ℕ
  | 0, v, offset => .ok (v, offset)
  | n + 1, v, offset => do
      let (b, offset) ← readByte bytes offset
      readBytes n (shiftIn v b) offset

def readLength (additional : ℕ) : Cursor ℕ := fun offset =>
  if additional < 24 then .ok (additional, offset)
  else if additional = 24 then readBytes bytes 1 0 offset
  else if additional = 25 then readBytes bytes 2 0 offset
  else if additional = 26 then readBytes bytes 4 0 offset
  else if additional = 27 then readBytes bytes 8 0 offset
  else .error (.payloadError (js "Unsupported CBOR length encoding " ++ numText 10 additional))

/-- `this.bytes.toString('utf8', this.offset, this.offset + len)`. -/
def readText (len : ℕ) : Cursor JsString := fun offset =>
  let stop := toNumber (offset + len)
  .ok (decodeUtf8 ((bytes.take stop).drop offset), stop)

/-- The loop over the items of an array. -/
def readItems (item : Cursor CborValue) : ℕ → Cursor (List CborValue)
  | 0, offset => .ok ([], offset)
  | n + 1, offset => do
      let (v, offset) ← item offset
      let (vs, offset) ← readItems item n offset
      return (v :: vs, offset)

/-- The loop over the entries of a map. -/
def readEntries (item : Cursor CborValue) : ℕ → CborValue → Cursor CborValue
  | 0, obj, offset => .ok (obj, offset)
  | n + 1, obj, offset => do
      let (key, offset) ← item offset
      match key with
      | .text key =>
          let (value, offset) ← item offset
          readEntries item n (obj.setProp key value) offset
      | _ => .error (.payloadError (js "CBOR map key was not a text string"))

/-- The `switch` on the major type; `item` reads a nested item. -/
def readContent (item : Cursor CborValue) (major length : ℕ) : Cursor CborValue := fun offset =>
  match major with
  | 0 => .ok (.number (toNumber length), offset)
  | 3 => do
      let (s, offset) ← readText bytes (toNumber length) offset
      return (.text s, offset)
  | 4 => do
      let (items, offset) ← readItems item (toNumber length) offset
      return (.array items, offset)
  | 5 => readEntries item (toNumber length) (.object []) offset
  | _ => .error (.payloadError (js "Unsupported CBOR major type " ++ numText 10 major))

/-- The first byte and the length: major type and length. -/
def readHead : Cursor (ℕ × ℕ) := fun offset => do
  let (initial, offset) ← readByte bytes offset
  let (length, offset) ← readLength bytes (initial.toNat &&& 0x1f) offset
  return ((initial.toNat >>> 5, length), offset)

/-- Read one data item; `fuel` bounds the nesting. -/
def readItem : ℕ → Cursor CborValue
  | 0, _ => .error .outOfFuel
  | fuel + 1, offset => do
      let ((major, length), offset) ← readHead bytes offset
      readContent bytes (readItem fuel) major length offset

/-- `new CborReader(bytes).read()`.  Every item has a first byte, so the nesting
    stays below the number of bytes. -/
def read : Except Stop (CborValue × ℕ) := readItem bytes (bytes.length + 1) 0

end Reader

/-! ## Broken off -/

/-- The bytes break off inside the contents of a text string, and nothing but this
    string is missing: it stands last in all that is around it. -/
inductive CutShort : Shape → List UInt8 → Prop
  | text {n : ℕ} {head content : List UInt8} : Head 3 n head → content.length < n →
      CutShort .item (head ++ content)
  | array {n : ℕ} {head content : List UInt8} : Head 4 n head → CutShort (.items n) content →
      CutShort .item (head ++ content)
  | map {n : ℕ} {head content : List UInt8} : Head 5 n head → CutShort (.entries n) content →
      CutShort .item (head ++ content)
  | lastItem {last : List UInt8} : CutShort .item last → CutShort (.items 1) last
  | items {n : ℕ} {i : Item} {first others : List UInt8} : Encodes (.item i) first →
      CutShort (.items n) others → CutShort (.items (n + 1)) (first ++ others)
  | lastValue {k key value : List UInt8} : Encodes (.item (.text k)) key →
      CutShort .item value → CutShort (.entries 1) (key ++ value)
  | entries {n : ℕ} {i : Item} {k key value others : List UInt8} :
      Encodes (.item (.text k)) key → Encodes (.item i) value → CutShort (.entries n) others →
      CutShort (.entries (n + 1)) (key ++ (value ++ others))

/-! ## Spans -/

variable {bytes : List UInt8}

/-- The bytes `pre` stand between the two offsets. -/
def Span (bytes : List UInt8) (offset : ℕ) (pre : List UInt8) (offset' : ℕ) : Prop :=
  bytes.drop offset = pre ++ bytes.drop offset' ∧ offset' = offset + pre.length

theorem Span.nil (offset : ℕ) : Span bytes offset [] offset := ⟨rfl, rfl⟩

theorem Span.trans {o₀ o₁ o₂ : ℕ} {pre pre' : List UInt8} (h : Span bytes o₀ pre o₁)
    (h' : Span bytes o₁ pre' o₂) : Span bytes o₀ (pre ++ pre') o₂ := by
  refine ⟨?_, ?_⟩
  · rw [h.1, h'.1, List.append_assoc]
  · rw [h'.2, h.2, List.length_append, Nat.add_assoc]

/-- What stands at an offset, in two pieces. -/
theorem Span.of_append {offset : ℕ} {pre rest : List UInt8} (h : bytes.drop offset = pre ++ rest) :
    Span bytes offset pre (offset + pre.length) ∧ bytes.drop (offset + pre.length) = rest := by
  have hrest : bytes.drop (offset + pre.length) = rest := by
    rw [← List.drop_drop, h, List.drop_left]
  exact ⟨⟨by rw [h, hrest], rfl⟩, hrest⟩

theorem Span.split {o₀ o₂ : ℕ} {pre pre' : List UInt8} (h : Span bytes o₀ (pre ++ pre') o₂) :
    Span bytes o₀ pre (o₀ + pre.length) ∧ Span bytes (o₀ + pre.length) pre' o₂ := by
  obtain ⟨hdrop, hoffset⟩ := h
  rw [List.append_assoc] at hdrop
  obtain ⟨hfirst, hrest⟩ := Span.of_append hdrop
  refine ⟨hfirst, hrest, ?_⟩
  rw [hoffset, List.length_append, Nat.add_assoc]

/-- A span that is not empty lies in the buffer. -/
theorem Span.le {o o' : ℕ} {pre : List UInt8} (h : Span bytes o pre o') (hpos : 0 < pre.length) :
    o' ≤ bytes.length := by
  have hlength := congrArg List.length h.1
  rw [List.length_append, List.length_drop, List.length_drop] at hlength
  have hoffset := h.2
  omega

theorem Span.take {o' : ℕ} {pre : List UInt8} (h : Span bytes 0 pre o') : pre = bytes.take o' := by
  obtain ⟨hdrop, hoffset⟩ := h
  rw [List.drop_zero] at hdrop
  rw [Nat.zero_add] at hoffset
  rw [hdrop, hoffset, List.take_left]

/-! ## Heads -/

theorem readByte_eq_ok_iff {offset offset' : ℕ} {b : UInt8} :
    readByte bytes offset = .ok (b, offset') ↔ Span bytes offset [b] offset' := by
  unfold readByte
  split
  · next hnone =>
      have hdrop : bytes.drop offset = [] := by
        rw [List.drop_eq_nil_iff]
        exact List.getElem?_eq_none_iff.mp hnone
      refine ⟨nofun, fun h => ?_⟩
      have hspan := h.1
      rw [hdrop] at hspan
      cases hspan
  · next b' hsome =>
      obtain ⟨hlt, rfl⟩ := List.getElem?_eq_some_iff.mp hsome
      have hdrop : bytes.drop offset = bytes[offset] :: bytes.drop (offset + 1) :=
        List.drop_eq_getElem_cons hlt
      constructor
      · intro h
        cases h
        exact ⟨hdrop, rfl⟩
      · rintro ⟨hspan, rfl⟩
        rw [hdrop, List.cons_append] at hspan
        obtain ⟨rfl, -⟩ := List.cons.inj hspan
        rfl

theorem readByte_error {offset : ℕ} {e : Stop} (h : readByte bytes offset = .error e) :
    e ≠ .outOfFuel := by
  unfold readByte at h
  split at h
  · cases h
    nofun
  · cases h

/-- What a sequence of two reads answers. -/
theorem exists_of_bind {α β : Type} {x : Except Stop α} {f : α → Except Stop β} {r : β}
    (h : x >>= f = .ok r) : ∃ a, x = .ok a ∧ f a = .ok r := by
  cases x with
  | error e => cases h
  | ok a => exact ⟨a, rfl, h⟩

theorem error_of_bind {α β : Type} {x : Except Stop α} {f : α → Except Stop β} {e : Stop}
    (h : x >>= f = .error e) : x = .error e ∨ ∃ a, x = .ok a ∧ f a = .error e := by
  cases x with
  | error e' =>
      cases h
      exact .inl rfl
  | ok a => exact .inr ⟨a, rfl, h⟩

theorem readBytes_eq_ok_iff {k v n offset offset' : ℕ} :
    readBytes bytes k v offset = .ok (n, offset') ↔
      ∃ ext : List UInt8, ext.length = k ∧ ext.foldl shiftIn v = n ∧ Span bytes offset ext offset' := by
  induction k generalizing v offset with
  | zero =>
      constructor
      · intro h
        cases h
        exact ⟨[], rfl, rfl, .nil _⟩
      · rintro ⟨ext, hlength, hfold, hspan⟩
        obtain rfl := List.length_eq_zero_iff.mp hlength
        obtain ⟨-, rfl⟩ := hspan
        rw [← hfold]
        rfl
  | succ k ih =>
      constructor
      · intro h
        obtain ⟨⟨b, o⟩, hbyte, hrest⟩ := exists_of_bind h
        obtain ⟨ext, hlength, hfold, hspan⟩ := ih.mp hrest
        exact ⟨b :: ext, congrArg Nat.succ hlength, hfold,
          (readByte_eq_ok_iff.mp hbyte).trans hspan⟩
      · rintro ⟨ext, hlength, hfold, hspan⟩
        obtain ⟨b, ext, rfl⟩ := List.exists_cons_of_length_eq_add_one hlength
        obtain ⟨hbyte, hspan⟩ := @Span.split _ _ _ [b] _ hspan
        rw [readBytes, readByte_eq_ok_iff.mpr hbyte]
        exact ih.mpr ⟨ext, Nat.succ.inj hlength, hfold, hspan⟩

theorem readBytes_error {k v offset : ℕ} {e : Stop} (h : readBytes bytes k v offset = .error e) :
    e ≠ .outOfFuel := by
  induction k generalizing v offset with
  | zero => cases h
  | succ k ih =>
      rcases error_of_bind h with hbyte | ⟨⟨b, o⟩, -, hrest⟩
      · exact readByte_error hbyte
      · exact ih hrest

/-- A length stands in the additional bits, or in the one, two, four or eight bytes
    that follow. -/
theorem readLength_eq_ok_iff {additional n offset offset' : ℕ} :
    readLength bytes additional offset = .ok (n, offset') ↔
      (additional < 24 ∧ n = additional ∧ offset' = offset) ∨
        ∃ k < 4, additional = 24 + k ∧ readBytes bytes (2 ^ k) 0 offset = .ok (n, offset') := by
  unfold readLength
  split
  · next hlt =>
      constructor
      · intro h
        cases h
        exact .inl ⟨hlt, rfl, rfl⟩
      · rintro (⟨-, rfl, rfl⟩ | ⟨k, -, hk, -⟩)
        · rfl
        · omega
  · next hge =>
      -- for an additional value from 24 on only one of the four widths is possible
      have hfollowing : ∀ j < 4, additional = 24 + j → ∀ P : ℕ → Prop,
          (additional < 24 ∧ n = additional ∧ offset' = offset ∨
            ∃ k < 4, additional = 24 + k ∧ P k) ↔ P j := by
        intro j hj hadditional P
        constructor
        · rintro (⟨hlt, -⟩ | ⟨k, -, hk, hP⟩)
          · exact absurd hlt hge
          · obtain rfl : k = j := by omega
            exact hP
        · intro hP
          exact .inr ⟨j, hj, hadditional, hP⟩
      split
      · next h => exact (hfollowing 0 (by omega) h fun k => readBytes bytes (2 ^ k) 0 offset = _).symm
      · split
        · next h =>
            exact (hfollowing 1 (by omega) h fun k => readBytes bytes (2 ^ k) 0 offset = _).symm
        · split
          · next h =>
              exact (hfollowing 2 (by omega) h fun k => readBytes bytes (2 ^ k) 0 offset = _).symm
          · split
            · next h =>
                exact (hfollowing 3 (by omega) h fun k => readBytes bytes (2 ^ k) 0 offset = _).symm
            · refine ⟨nofun, ?_⟩
              rintro (⟨hlt, -⟩ | ⟨k, hk, hadditional, -⟩)
              · exact absurd hlt hge
              · omega

theorem readLength_error {additional offset : ℕ} {e : Stop}
    (h : readLength bytes additional offset = .error e) : e ≠ .outOfFuel := by
  unfold readLength at h
  split at h
  · cases h
  · split at h
    · exact readBytes_error h
    · split at h
      · exact readBytes_error h
      · split at h
        · exact readBytes_error h
        · split at h
          · exact readBytes_error h
          · cases h
            nofun

theorem readHead_eq_ok_iff {major n offset offset' : ℕ} :
    readHead bytes offset = .ok ((major, n), offset') ↔
      ∃ head, Head major n head ∧ Span bytes offset head offset' := by
  constructor
  · intro h
    obtain ⟨⟨initial, o₁⟩, hbyte, h⟩ := exists_of_bind h
    obtain ⟨⟨length, o₂⟩, hlength, h⟩ := exists_of_bind h
    cases h
    have hinitial := readByte_eq_ok_iff.mp hbyte
    rcases readLength_eq_ok_iff.mp hlength with ⟨hlt, rfl, rfl⟩ | ⟨k, hk, hadditional, hread⟩
    · exact ⟨[initial], .direct rfl hlt, hinitial⟩
    · obtain ⟨ext, hext, rfl, hspan⟩ := readBytes_eq_ok_iff.mp hread
      exact ⟨initial :: ext, .following rfl hadditional hk hext, hinitial.trans hspan⟩
  · rintro ⟨head, hhead, hspan⟩
    cases hhead with
    | @direct initial hmajor hlt =>
        obtain ⟨-, hoffset⟩ := id hspan
        rw [readHead, readByte_eq_ok_iff.mpr hspan]
        simp only [bind, Except.bind, readLength, if_pos hlt, hmajor]
        rfl
    | @following initial ext k hmajor hadditional hk hext =>
        obtain ⟨hbyte, hrest⟩ := @Span.split _ _ _ [initial] _ hspan
        have hread : readLength bytes (initial.toNat &&& 0x1f) (offset + 1) =
            .ok (ext.foldl shiftIn 0, offset') :=
          readLength_eq_ok_iff.mpr
            (.inr ⟨k, hk, hadditional, readBytes_eq_ok_iff.mpr ⟨ext, hext, rfl, hrest⟩⟩)
        rw [readHead, readByte_eq_ok_iff.mpr hbyte]
        simp only [bind, Except.bind, List.length_singleton, hread, hmajor]
        rfl

theorem readHead_error {offset : ℕ} {e : Stop} (h : readHead bytes offset = .error e) :
    e ≠ .outOfFuel := by
  rcases error_of_bind h with hbyte | ⟨⟨initial, o₁⟩, -, h⟩
  · exact readByte_error hbyte
  · rcases error_of_bind h with hlength | ⟨⟨length, o₂⟩, -, h⟩
    · exact readLength_error hlength
    · cases h

/-! ## What is answered

  A part is read completely, or it is cut short and the cursor is past the end. -/

/-- What a read took from the buffer: bytes that are `whole`, or all the rest of it,
    which is `broken`. -/
inductive Took (bytes : List UInt8) (whole broken : List UInt8 → Prop) (offset offset' : ℕ) : Prop
  | complete {pre : List UInt8} : whole pre → Span bytes offset pre offset' →
      offset' ≤ bytes.length → Took bytes whole broken offset offset'
  | cut : broken (bytes.drop offset) → bytes.length < offset' →
      Took bytes whole broken offset offset'

/-- A read of an item that answers `v`. -/
abbrev TookItem (bytes : List UInt8) (v : CborValue) : ℕ → ℕ → Prop :=
  Took bytes (fun pre => ∃ i, Encodes (.item i) pre ∧ i.made = v) (CutShort .item)

/-- Where a read of an item begins and ends. -/
theorem TookItem.lt {o o' : ℕ} {v : CborValue} (ho : o < bytes.length)
    (h : TookItem bytes v o o') : o < o' := by
  cases h with
  | complete hwhole hspan _ =>
      obtain ⟨i, hencodes, -⟩ := hwhole
      have hpos := hencodes.length_pos
      have hoffset := hspan.2
      omega
  | cut _ hpast => omega

/-- Where a text string ends, as a double: its bytes are all there and so counted
    exactly, or the end is past the buffer. -/
theorem stop_cases (hsmall : bytes.length < 2 ^ 53) (o n : ℕ) :
    (o + n ≤ bytes.length ∧ toNumber (o + toNumber n) = o + n) ∨
      (bytes.length < o + n ∧ bytes.length < toNumber (o + toNumber n)) := by
  rcases Nat.lt_or_ge (o + n) (2 ^ 53) with hlt | hge
  · have hn : toNumber n = n := toNumber_of_le (by omega)
    have hstop : toNumber (o + n) = o + n := toNumber_of_le (by omega)
    rw [hn, hstop]
    omega
  · refine .inr ⟨by omega, ?_⟩
    have hbig : 2 ^ 53 ≤ o + toNumber n := by
      rcases Nat.lt_or_ge n (2 ^ 53) with hn | hn
      · rw [toNumber_of_le (by omega)]
        omega
      · have hle := two_pow_le_toNumber hn
        omega
    have hstop := two_pow_le_toNumber hbig
    omega

/-- A text string that ends past the buffer is longer than what is left of it. -/
theorem le_of_over (hsmall : bytes.length < 2 ^ 53) {o n : ℕ} (h : bytes.length < o + n) :
    bytes.length ≤ o + toNumber n := by
  rcases Nat.lt_or_ge n (2 ^ 53) with hn | hn
  · rw [toNumber_of_le hn.le]
    exact h.le
  · have hle := two_pow_le_toNumber hn
    omega

/-- A count that is below the buffer's length is read exactly. -/
theorem toNumber_count {n m : ℕ} (h : toNumber n ≤ m) (hm : m < 2 ^ 53) : toNumber n = n := by
  refine toNumber_of_le ?_
  by_contra hlt
  have hle := two_pow_le_toNumber (n := n) (by omega)
  omega

section Sound

variable {item : Cursor CborValue}
  (hitem : ∀ {o o' : ℕ} {v : CborValue}, item o = .ok (v, o') →
    o < bytes.length ∧ TookItem bytes v o o')

include hitem

/-- Each item that is read begins in the buffer, so only the last one can be cut
    short. -/
theorem took_items {n o o' : ℕ} {vs : List CborValue} (h : readItems item n o = .ok (vs, o'))
    (ho : o ≤ bytes.length) :
    n ≤ bytes.length - o ∧
      Took bytes (fun pre => ∃ is, Encodes (.items is) pre ∧ is.length = n ∧ Item.madeItems is = vs)
        (CutShort (.items n)) o o' := by
  induction n generalizing o vs with
  | zero =>
      cases h
      exact ⟨Nat.zero_le _, .complete ⟨[], .noItems, rfl, rfl⟩ (.nil _) ho⟩
  | succ n ih =>
      obtain ⟨⟨v, o₁⟩, hv, h⟩ := exists_of_bind h
      obtain ⟨⟨vs, o₂⟩, hvs, h⟩ := exists_of_bind h
      cases h
      obtain ⟨hlt, htook⟩ := hitem hv
      have hforward := htook.lt hlt
      cases htook with
      | complete hwhole hspan hle =>
          obtain ⟨i, hencodes, rfl⟩ := hwhole
          obtain ⟨hcount, hrest⟩ := ih hvs hle
          refine ⟨by omega, ?_⟩
          cases hrest with
          | complete hothers hspan' hle' =>
              obtain ⟨is, hencodes', rfl, rfl⟩ := hothers
              exact .complete ⟨i :: is, .items hencodes hencodes', rfl, rfl⟩
                (hspan.trans hspan') hle'
          | cut hcut hpast =>
              refine .cut ?_ hpast
              rw [hspan.1]
              exact .items hencodes hcut
      | cut hcut hpast =>
          cases n with
          | zero =>
              cases hvs
              exact ⟨by omega, .cut (.lastItem hcut) hpast⟩
          | succ n =>
              -- the next item would begin past the end
              obtain ⟨⟨w, o₃⟩, hw, -⟩ := exists_of_bind hvs
              have hin := (hitem hw).1
              omega

theorem took_entries {n o o' : ℕ} {obj v : CborValue}
    (h : readEntries item n obj o = .ok (v, o')) (ho : o ≤ bytes.length) :
    n ≤ bytes.length - o ∧
      Took bytes
        (fun pre => ∃ es, Encodes (.entries es) pre ∧ es.length = n ∧ Item.madeEntries es obj = v)
        (CutShort (.entries n)) o o' := by
  induction n generalizing o obj with
  | zero =>
      cases h
      exact ⟨Nat.zero_le _, .complete ⟨[], .noEntries, rfl, rfl⟩ (.nil _) ho⟩
  | succ n ih =>
      obtain ⟨⟨key, o₁⟩, hkey, h⟩ := exists_of_bind h
      cases key with
      | number _ | array _ | object _ | inheriting _ _ => cases h
      | text s =>
      obtain ⟨⟨value, o₂⟩, hvalue, h⟩ := exists_of_bind h
      obtain ⟨hlt, htook⟩ := hitem hkey
      obtain ⟨hlt', htook'⟩ := hitem hvalue
      have hforward := htook.lt hlt
      have hforward' := htook'.lt hlt'
      cases htook with
      -- a key that breaks off leaves nothing to read its value from
      | cut _ hpast => omega
      | complete hwhole hspan _ =>
      obtain ⟨k, hencodes, hmade⟩ := hwhole
      -- a key is a text
      obtain ⟨k, rfl, rfl⟩ := Item.text_of_made hmade
      cases htook' with
      | complete hwhole' hspan' hle =>
          obtain ⟨i, hencodes', rfl⟩ := hwhole'
          obtain ⟨hcount, hrest⟩ := ih h hle
          refine ⟨by omega, ?_⟩
          cases hrest with
          | complete hothers hspan'' hle' =>
              obtain ⟨es, hencodes'', rfl, rfl⟩ := hothers
              exact .complete ⟨(k, i) :: es, .entries hencodes hencodes' hencodes'', rfl, rfl⟩
                (hspan.trans (hspan'.trans hspan'')) hle'
          | cut hcut hpast =>
              refine .cut ?_ hpast
              rw [hspan.1, hspan'.1]
              exact .entries hencodes hencodes' hcut
      | cut hcut hpast =>
          cases n with
          -- the value of the last entry may break off
          | zero =>
              cases h
              refine ⟨by omega, .cut ?_ hpast⟩
              rw [hspan.1]
              exact .lastValue hencodes hcut
          | succ n =>
              obtain ⟨⟨w, o₃⟩, hw, -⟩ := exists_of_bind h
              -- after a value that breaks off no further entry can be read
              have hin := (hitem hw).1
              omega

end Sound

/-- A buffer holds what is read from it, or breaks off in the text string that was
    read last. -/
theorem took_of_readItem (hsmall : bytes.length < 2 ^ 53) {fuel o o' : ℕ} {v : CborValue}
    (h : readItem bytes fuel o = .ok (v, o')) : o < bytes.length ∧ TookItem bytes v o o' := by
  induction fuel generalizing o o' v with
  | zero => cases h
  | succ fuel ih =>
      obtain ⟨⟨⟨major, n⟩, o₁⟩, hread, h⟩ := exists_of_bind h
      obtain ⟨head, hhead, hspan⟩ := readHead_eq_ok_iff.mp hread
      have hpos := hhead.length_pos
      have hle := hspan.le hpos
      have hoffset := hspan.2
      refine ⟨by omega, ?_⟩
      dsimp only [readContent] at h
      split at h
      · cases h
        exact .complete ⟨_, .uint hhead, rfl⟩ hspan hle
      · obtain ⟨⟨s, o₂⟩, htext, h⟩ := exists_of_bind h
        cases htext
        cases h
        -- the text is in the buffer, or the buffer ends in it
        rcases stop_cases hsmall o₁ n with ⟨hfits, hstop⟩ | ⟨hover, hstop⟩
        · have hcontent : (bytes.take (o₁ + n)).drop o₁ = (bytes.drop o₁).take n := by
            rw [List.drop_take, Nat.add_sub_cancel_left]
          have hlength : ((bytes.drop o₁).take n).length = n := by
            rw [List.length_take, List.length_drop]
            omega
          -- the bytes between the two cursors are the content of the text
          have hsplit : Span bytes o₁ ((bytes.drop o₁).take n) (o₁ + n) := by
            refine ⟨?_, by rw [hlength]⟩
            rw [← List.drop_drop, List.take_append_drop]
          rw [hstop, hcontent]
          refine .complete ⟨_, .text ?_, rfl⟩ (hspan.trans hsplit) hfits
          rw [hlength]
          exact hhead
        · refine .cut ?_ hstop
          rw [hspan.1]
          refine .text hhead ?_
          rw [List.length_drop]
          omega
      · obtain ⟨⟨items, o₂⟩, hitems, h⟩ := exists_of_bind h
        cases h
        obtain ⟨hcount, htook⟩ := took_items ih hitems hle
        -- a count that was read to its end is exact as a number
        rw [toNumber_count hcount (by omega)] at htook
        cases htook with
        | complete hwhole hspan' hle' =>
            obtain ⟨is, hencodes, rfl, rfl⟩ := hwhole
            exact .complete ⟨_, .array hhead hencodes, rfl⟩ (hspan.trans hspan') hle'
        | cut hcut hpast =>
            refine .cut ?_ hpast
            rw [hspan.1]
            exact .array hhead hcut
      · obtain ⟨hcount, htook⟩ := took_entries ih h hle
        rw [toNumber_count hcount (by omega)] at htook
        cases htook with
        | complete hwhole hspan' hle' =>
            obtain ⟨es, hencodes, rfl, rfl⟩ := hwhole
            exact .complete ⟨_, .map hhead hencodes, rfl⟩ (hspan.trans hspan') hle'
        | cut hcut hpast =>
            refine .cut ?_ hpast
            rw [hspan.1]
            exact .map hhead hcut
      · cases h

/-! ## What is accepted

  A complete part is read, and so is one that is cut short. -/

theorem CutShort.length_pos {cut : List UInt8} (h : CutShort .item cut) : 0 < cut.length := by
  cases h with
  | text hhead _ | array hhead _ | map hhead _ =>
      rw [List.length_append]
      exact Nat.add_pos_left hhead.length_pos _

theorem CutShort.count_le {p : Shape} {cut : List UInt8} (h : CutShort p cut) :
    p.count ≤ cut.length := by
  induction h with
  | text | array | map => exact Nat.zero_le _
  | lastItem hlast => exact hlast.length_pos
  | lastValue hkey hvalue =>
      have hpos := hkey.length_pos
      simp only [Shape.count, List.length_append]
      omega
  | items hfirst _ ih =>
      have hpos := hfirst.length_pos
      simp only [Shape.count, List.length_append] at ih ⊢
      omega
  | entries hkey _ _ ih =>
      have hpos := hkey.length_pos
      simp only [Shape.count, List.length_append] at ih ⊢
      omega

/-- The head of an item is read with one turn of fuel. -/
theorem readItem_head {major n o o' fuel : ℕ} {head : List UInt8} (hhead : Head major n head)
    (hspan : Span bytes o head o') :
    readItem bytes (fuel + 1) o = readContent bytes (readItem bytes fuel) major n o' := by
  rw [readItem, readHead_eq_ok_iff.mpr ⟨head, hhead, hspan⟩]
  rfl

/-- A part whose first bytes stand at an offset of the buffer is not longer than it. -/
theorem length_le_of_drop {o : ℕ} {pre rest : List UInt8} (h : bytes.drop o = pre ++ rest) :
    pre.length ≤ bytes.length := by
  have hlength := congrArg List.length h
  rw [List.length_drop, List.length_append] at hlength
  omega

section Steps

variable {item : Cursor CborValue} {n o o₁ o₂ : ℕ} {v : CborValue}

theorem readItems_succ {vs : List CborValue} (hv : item o = .ok (v, o₁))
    (hvs : readItems item n o₁ = .ok (vs, o₂)) :
    readItems item (n + 1) o = .ok (v :: vs, o₂) := by
  rw [readItems, hv]
  simp only [bind, Except.bind, hvs]
  rfl

theorem readEntries_succ {obj : CborValue} {s : JsString} (hkey : item o = .ok (.text s, o₁))
    (hvalue : item o₁ = .ok (v, o₂)) :
    readEntries item (n + 1) obj o = readEntries item n (obj.setProp s v) o₂ := by
  rw [readEntries, hkey]
  simp only [bind, Except.bind, hvalue]

end Steps

/-- A part is read with nested items of at most `fuel` levels. -/
def ReadsPart (bytes : List UInt8) (fuel : ℕ) : Part → ℕ → ℕ → Prop
  | .item i, o, o' => readItem bytes fuel o = .ok (i.made, o')
  | .items is, o, o' => readItems (readItem bytes fuel) is.length o = .ok (Item.madeItems is, o')
  | .entries es, o, o' => ∀ obj,
      readEntries (readItem bytes fuel) es.length obj o = .ok (Item.madeEntries es obj, o')

/-- What is complete is read, and the cursor stands behind it. -/
theorem read_of_encodes (hsmall : bytes.length < 2 ^ 53) {p : Part} {pre : List UInt8}
    (h : Encodes p pre) (fuel : ℕ) {o o' : ℕ} (hspan : Span bytes o pre o')
    (hfuel : pre.length ≤ fuel) : ReadsPart bytes fuel p o o' := by
  have hle := length_le_of_drop hspan.1
  -- by induction on the encoding; each head uses one unit of fuel
  induction h generalizing fuel o o' with
  | uint hhead =>
      obtain ⟨fuel, rfl⟩ := Nat.exists_eq_succ_of_ne_zero (n := fuel)
        (by have hpos := hhead.length_pos; omega)
      exact readItem_head hhead hspan
  | @text head content hhead =>
      rw [List.length_append] at hfuel
      obtain ⟨fuel, rfl⟩ := Nat.exists_eq_succ_of_ne_zero (n := fuel)
        (by have hpos := hhead.length_pos; omega)
      obtain ⟨hfirst, hcontent⟩ := hspan.split
      rw [ReadsPart, readItem_head hhead hfirst]
      have hend : o + head.length + content.length ≤ bytes.length := by
        have hlength := congrArg List.length hcontent.1
        rw [List.length_drop, List.length_append] at hlength
        have hpos := hfirst.le hhead.length_pos
        omega
      -- the whole text is in the buffer, so its end is where the length says
      rcases stop_cases hsmall (o + head.length) content.length with ⟨-, hstop⟩ | ⟨hover, -⟩
      · have htake : (bytes.take (o + head.length + content.length)).drop (o + head.length) =
            content := by
          rw [List.drop_take, Nat.add_sub_cancel_left, hcontent.1, List.take_left]
        simp only [readContent, readText, hstop, htake, bind, Except.bind]
        rw [← hcontent.2]
        rfl
      · omega
  | @array is head content hhead hcontent ih =>
      rw [List.length_append] at hfuel hle
      have hpos := hhead.length_pos
      obtain ⟨fuel, rfl⟩ := Nat.exists_eq_succ_of_ne_zero (n := fuel) (by omega)
      obtain ⟨hfirst, hrest⟩ := hspan.split
      -- a buffer holds at least as many bytes as it has items, so the count is exact
      have hn : is.length ≤ content.length := hcontent.count_le
      have hread : readItems (readItem bytes fuel) is.length (o + head.length) = _ :=
        ih fuel hrest (by omega) (by omega)
      rw [ReadsPart, readItem_head hhead hfirst]
      dsimp only [readContent]
      rw [toNumber_of_le (by omega), hread]
      rfl
  | @map es head content hhead hcontent ih =>
      rw [List.length_append] at hfuel hle
      have hpos := hhead.length_pos
      obtain ⟨fuel, rfl⟩ := Nat.exists_eq_succ_of_ne_zero (n := fuel) (by omega)
      obtain ⟨hfirst, hrest⟩ := hspan.split
      have hn : es.length ≤ content.length := hcontent.count_le
      have hread : ReadsPart bytes fuel (.entries es) (o + head.length) o' :=
        ih fuel hrest (by omega) (by omega)
      rw [ReadsPart, readItem_head hhead hfirst]
      dsimp only [readContent]
      rw [toNumber_of_le (by omega)]
      exact hread _
  | noItems =>
      obtain ⟨-, rfl⟩ := hspan
      rfl
  | items hfirst hothers ihfirst ihothers =>
      rw [List.length_append] at hfuel hle
      obtain ⟨hspan₁, hspan₂⟩ := hspan.split
      have hv := ihfirst fuel hspan₁ (by omega) (by omega)
      exact readItems_succ hv (ihothers fuel hspan₂ (by omega) (by omega))
  | noEntries =>
      obtain ⟨-, rfl⟩ := hspan
      exact fun _ => rfl
  | entries hkey hvalue hothers ihkey ihvalue ihothers =>
      rw [List.length_append, List.length_append] at hfuel hle
      obtain ⟨hspan₁, hspan'⟩ := hspan.split
      obtain ⟨hspan₂, hspan₃⟩ := hspan'.split
      have hk := ihkey fuel hspan₁ (by omega) (by omega)
      have hv := ihvalue fuel hspan₂ (by omega) (by omega)
      intro obj
      exact (readEntries_succ hk hv).trans (ihothers fuel hspan₃ (by omega) (by omega) _)

/-- A read of this shape answers, and the cursor is past the end. -/
def ReadsPast (bytes : List UInt8) (fuel : ℕ) : Shape → ℕ → Prop
  | .item, o => ∃ v o', readItem bytes fuel o = .ok (v, o') ∧ bytes.length < o'
  | .items n, o => ∃ vs o', readItems (readItem bytes fuel) n o = .ok (vs, o') ∧ bytes.length < o'
  | .entries n, o => ∀ obj, ∃ v o',
      readEntries (readItem bytes fuel) n obj o = .ok (v, o') ∧ bytes.length < o'

theorem read_of_cutShort (hsmall : bytes.length < 2 ^ 53) {p : Shape} {cut : List UInt8}
    (h : CutShort p cut) (fuel : ℕ) {o : ℕ} (hdrop : bytes.drop o = cut)
    (hfuel : cut.length ≤ fuel) : ReadsPast bytes fuel p o := by
  have hle : cut.length ≤ bytes.length := by
    rw [← hdrop, List.length_drop]
    exact Nat.sub_le _ _
  -- by induction on the way to the text that breaks off
  induction h generalizing fuel o with
  | @text n head content hhead hlt =>
      rw [List.length_append] at hfuel
      obtain ⟨fuel, rfl⟩ := Nat.exists_eq_succ_of_ne_zero (n := fuel)
        (by have hpos := hhead.length_pos; omega)
      obtain ⟨hfirst, hcontent⟩ := Span.of_append hdrop
      rw [ReadsPast, readItem_head hhead hfirst]
      have hlength := congrArg List.length hcontent
      rw [List.length_drop] at hlength
      have hin := hfirst.le hhead.length_pos
      -- the text ends behind the buffer
      rcases stop_cases hsmall (o + head.length) n with ⟨hfits, -⟩ | ⟨-, hstop⟩
      · omega
      · exact ⟨_, _, rfl, hstop⟩
  | @array n head content hhead hcontent ih =>
      rw [List.length_append] at hfuel hle
      have hpos := hhead.length_pos
      obtain ⟨fuel, rfl⟩ := Nat.exists_eq_succ_of_ne_zero (n := fuel) (by omega)
      obtain ⟨hfirst, hrest⟩ := Span.of_append hdrop
      have hn : n ≤ content.length := hcontent.count_le
      obtain ⟨vs, o', hread, hpast⟩ := ih fuel hrest (by omega) (by omega)
      refine ⟨.array vs, o', ?_, hpast⟩
      rw [readItem_head hhead hfirst]
      dsimp only [readContent]
      rw [toNumber_of_le (by omega), hread]
      rfl
  | @map n head content hhead hcontent ih =>
      rw [List.length_append] at hfuel hle
      have hpos := hhead.length_pos
      obtain ⟨fuel, rfl⟩ := Nat.exists_eq_succ_of_ne_zero (n := fuel) (by omega)
      obtain ⟨hfirst, hrest⟩ := Span.of_append hdrop
      have hn : n ≤ content.length := hcontent.count_le
      obtain ⟨v, o', hread, hpast⟩ := ih fuel hrest (by omega) (by omega) (.object [])
      refine ⟨v, o', ?_, hpast⟩
      rw [readItem_head hhead hfirst]
      dsimp only [readContent]
      rw [toNumber_of_le (by omega)]
      exact hread
  | lastItem _ ih =>
      obtain ⟨v, o', hread, hpast⟩ := ih fuel hdrop hfuel hle
      exact ⟨[v], o', readItems_succ hread rfl, hpast⟩
  | items hfirst _ ih =>
      rw [List.length_append] at hfuel hle
      obtain ⟨hspan, hrest⟩ := Span.of_append hdrop
      have hv := read_of_encodes hsmall hfirst fuel hspan (by omega)
      obtain ⟨vs, o', hread, hpast⟩ := ih fuel hrest (by omega) (by omega)
      exact ⟨_, o', readItems_succ hv hread, hpast⟩
  | lastValue hkey _ ih =>
      rw [List.length_append] at hfuel hle
      obtain ⟨hspan, hrest⟩ := Span.of_append hdrop
      have hk := read_of_encodes hsmall hkey fuel hspan (by omega)
      obtain ⟨v, o', hread, hpast⟩ := ih fuel hrest (by omega) (by omega)
      exact fun obj => ⟨_, o', readEntries_succ hk hread, hpast⟩
  | entries hkey hvalue _ ih =>
      rw [List.length_append, List.length_append] at hfuel hle
      obtain ⟨hspan, hrest⟩ := Span.of_append hdrop
      obtain ⟨hspan', hrest'⟩ := Span.of_append hrest
      have hk := read_of_encodes hsmall hkey fuel hspan (by omega)
      have hv := read_of_encodes hsmall hvalue fuel hspan' (by omega)
      intro obj
      obtain ⟨w, o', hread, hpast⟩ := ih fuel hrest' (by omega) (by omega) (obj.setProp _ _)
      exact ⟨w, o', (readEntries_succ hk hv).trans hread, hpast⟩

/-! ## Termination -/

/-- Two readers of nested items that agree from an offset on, and move forward. -/
def Agree (item item' : Cursor CborValue) (o : ℕ) : Prop :=
  ∀ o', o ≤ o' → item o' = item' o' ∧ item o' ≠ .error .outOfFuel ∧
    ∀ {o'' : ℕ} {v : CborValue}, item o' = .ok (v, o'') → o' ≤ o''

theorem Agree.mono {item item' : Cursor CborValue} {o o' : ℕ} (h : Agree item item' o)
    (ho : o ≤ o') : Agree item item' o' := fun o'' ho'' => h o'' (ho.trans ho'')

theorem readItems_agree {item item' : Cursor CborValue} {n o : ℕ} (h : Agree item item' o) :
    readItems item n o = readItems item' n o ∧ readItems item n o ≠ .error .outOfFuel := by
  induction n generalizing o with
  | zero => exact ⟨rfl, nofun⟩
  | succ n ih =>
      obtain ⟨heq, hfuel, hforward⟩ := h o (Nat.le_refl _)
      rw [readItems, readItems, ← heq]
      cases hv : item o with
      | error e =>
          refine ⟨rfl, fun hstop => ?_⟩
          cases hstop
          exact hfuel hv
      | ok r =>
          obtain ⟨v, o₁⟩ := r
          obtain ⟨hrest, hfuel'⟩ := ih (h.mono (hforward hv))
          simp only [bind, Except.bind, ← hrest, true_and]
          intro hstop
          rcases error_of_bind hstop with hstop | ⟨_, _, hstop⟩
          · exact hfuel' hstop
          · cases hstop

theorem readEntries_agree {item item' : Cursor CborValue} {n o : ℕ} {obj : CborValue}
    (h : Agree item item' o) : readEntries item n obj o = readEntries item' n obj o ∧
      readEntries item n obj o ≠ .error .outOfFuel := by
  induction n generalizing o obj with
  | zero => exact ⟨rfl, nofun⟩
  | succ n ih =>
      obtain ⟨heq, hfuel, hforward⟩ := h o (Nat.le_refl _)
      rw [readEntries, readEntries, ← heq]
      cases hkey : item o with
      | error e =>
          rw [hkey] at hfuel
          exact ⟨rfl, hfuel⟩
      | ok r =>
          obtain ⟨key, o₁⟩ := r
          have ho₁ := hforward hkey
          cases key with
          | number _ | array _ | object _ | inheriting _ _ => exact ⟨rfl, nofun⟩
          | text s =>
              obtain ⟨heq', hfuel', hforward'⟩ := h o₁ ho₁
              simp only [bind, Except.bind, ← heq']
              cases hvalue : item o₁ with
              | error e =>
                  rw [hvalue] at hfuel'
                  exact ⟨rfl, hfuel'⟩
              | ok r =>
                  obtain ⟨v, o₂⟩ := r
                  exact ih (h.mono (ho₁.trans (hforward' hvalue)))

theorem readContent_agree {item item' : Cursor CborValue} {major n o : ℕ}
    (h : Agree item item' o) :
    readContent bytes item major n o = readContent bytes item' major n o ∧
      readContent bytes item major n o ≠ .error .outOfFuel := by
  dsimp only [readContent]
  split
  · exact ⟨rfl, nofun⟩
  · exact ⟨rfl, nofun⟩
  · obtain ⟨heq, hfuel⟩ := readItems_agree (n := toNumber n) h
    rw [← heq]
    refine ⟨rfl, fun hstop => ?_⟩
    rcases error_of_bind hstop with hstop | ⟨_, _, hstop⟩
    · exact hfuel hstop
    · cases hstop
  · exact readEntries_agree h
  · exact ⟨rfl, nofun⟩

/-- A read ends, and with every fuel that exceeds the bytes that are left it ends in
    the same way. -/
theorem readItem_stable (hsmall : bytes.length < 2 ^ 53) {fuel fuel' o : ℕ}
    (h : bytes.length - o < fuel) (h' : bytes.length - o < fuel') :
    readItem bytes fuel o = readItem bytes fuel' o ∧ readItem bytes fuel o ≠ .error .outOfFuel := by
  induction fuel generalizing fuel' o with
  | zero => omega
  | succ fuel ih =>
      obtain ⟨fuel', rfl⟩ := Nat.exists_eq_succ_of_ne_zero (n := fuel') (by omega)
      rw [readItem, readItem]
      cases hhead : readHead bytes o with
      | error e =>
          refine ⟨rfl, fun hstop => ?_⟩
          cases hstop
          exact readHead_error hhead rfl
      | ok r =>
          obtain ⟨⟨major, n⟩, o₁⟩ := r
          obtain ⟨head, hform, hspan⟩ := readHead_eq_ok_iff.mp hhead
          have hpos := hform.length_pos
          have hle := hspan.le hpos
          have hoffset := hspan.2
          apply readContent_agree
          intro o₂ ho₂
          obtain ⟨heq, hfuel⟩ := @ih fuel' o₂ (by omega) (by omega)
          refine ⟨heq, hfuel, fun hread => ?_⟩
          obtain ⟨hlt, htook⟩ := took_of_readItem hsmall hread
          exact (htook.lt hlt).le

/-! ## The reader without a cursor

  `Portal.read` sees what is left of the bytes; past the end nothing is left. -/

/-- What is left of the bytes where the cursor stands. -/
def forget {α : Type} (bytes : List UInt8) : Except Stop (α × ℕ) → Decoded (α × List UInt8)
  | .ok (a, offset) => .ok (a, bytes.drop offset)
  | .error (.payloadError message) => .error message
  | .error .outOfFuel => .error (js "Unexpected end of CBOR input")

/-- Reads that follow each other forget the cursor one by one. -/
theorem forget_bind {α β : Type} {x : Except Stop (α × ℕ)} {f : α × ℕ → Except Stop (β × ℕ)}
    {g : α × List UInt8 → Decoded (β × List UInt8)}
    (h : ∀ a o, g (a, bytes.drop o) = forget bytes (f (a, o))) :
    (forget bytes x >>= g) = forget bytes (x >>= f) := by
  cases x with
  | error e => cases e <;> rfl
  | ok r => exact h r.1 r.2

theorem readByte_forget (o : ℕ) :
    Portal.readByte (bytes.drop o) = forget bytes (readByte bytes o) := by
  unfold readByte
  split
  · next hnone =>
      rw [List.drop_eq_nil_iff.mpr (List.getElem?_eq_none_iff.mp hnone)]
      rfl
  · next b hsome =>
      obtain ⟨hlt, rfl⟩ := List.getElem?_eq_some_iff.mp hsome
      rw [List.drop_eq_getElem_cons hlt]
      rfl

theorem readBytes_forget (k v o : ℕ) :
    Portal.readBytes k v (bytes.drop o) = forget bytes (readBytes bytes k v o) := by
  induction k generalizing v o with
  | zero => rfl
  | succ k ih =>
      rw [Portal.readBytes, readByte_forget]
      exact forget_bind fun b o => ih (shiftIn v b) o

theorem readLength_forget (additional o : ℕ) :
    Portal.readLength additional (bytes.drop o) = forget bytes (readLength bytes additional o) := by
  have hread := fun k => @readBytes_forget bytes k 0 o
  unfold Portal.readLength readLength
  simp only [hread]
  split
  · rfl
  · split
    · rfl
    · split
      · rfl
      · split
        · rfl
        · split
          · rfl
          · rfl

section Forget

variable {item : Cursor CborValue} {item' : Reader CborValue}
  (hitem : ∀ o, item' (bytes.drop o) = forget bytes (item o))

include hitem

theorem readItems_forget (n o : ℕ) :
    Portal.readItems item' n (bytes.drop o) = forget bytes (readItems item n o) := by
  induction n generalizing o with
  | zero => rfl
  | succ n ih =>
      rw [Portal.readItems, hitem]
      refine forget_bind fun v o => ?_
      dsimp only
      rw [ih]
      exact forget_bind fun vs o => rfl

theorem readEntries_forget (n o : ℕ) (obj : CborValue) :
    Portal.readEntries item' n obj (bytes.drop o) = forget bytes (readEntries item n obj o) := by
  induction n generalizing o obj with
  | zero => rfl
  | succ n ih =>
      rw [Portal.readEntries, hitem]
      refine forget_bind fun key o => ?_
      cases key with
      | number _ | array _ | object _ | inheriting _ _ => rfl
      | text s =>
          dsimp only
          rw [hitem]
          exact forget_bind fun v o => ih o (obj.setProp s v)

theorem readContent_forget (hsmall : bytes.length < 2 ^ 53) (major n o : ℕ) :
    Portal.readContent item' major n (bytes.drop o) =
      forget bytes (readContent bytes item major n o) := by
  rcases major with _ | _ | _ | _ | _ | _ | major
  · rfl
  · rfl
  · rfl
  · -- the contents of a text string, all of them or up to the end of the buffer
    have htake : (bytes.take (toNumber (o + toNumber n))).drop o =
        (bytes.drop o).take (toNumber n) := by
      rcases stop_cases hsmall o n with ⟨hfits, hstop⟩ | ⟨hover, hstop⟩
      · rw [hstop, toNumber_of_le (by omega), List.drop_take, Nat.add_sub_cancel_left]
      · have hlong := le_of_over hsmall hover
        rw [List.take_of_length_le hstop.le, List.take_of_length_le]
        rw [List.length_drop]
        omega
    have hdrop : bytes.drop (toNumber (o + toNumber n)) = (bytes.drop o).drop (toNumber n) := by
      rw [List.drop_drop]
      rcases stop_cases hsmall o n with ⟨hfits, hstop⟩ | ⟨hover, hstop⟩
      · rw [hstop, toNumber_of_le (by omega)]
      · have hlong := le_of_over hsmall hover
        rw [List.drop_eq_nil_of_le hstop.le, List.drop_eq_nil_of_le hlong]
    show Except.ok (CborValue.text _, _) = Except.ok (CborValue.text _, _)
    rw [htake, hdrop]
  · rw [Portal.readContent, readItems_forget hitem]
    exact forget_bind fun items o => rfl
  · exact readEntries_forget hitem _ _ _
  · rfl

end Forget

theorem read_forget (hsmall : bytes.length < 2 ^ 53) (fuel o : ℕ) :
    Portal.read fuel (bytes.drop o) = forget bytes (readItem bytes fuel o) := by
  induction fuel generalizing o with
  | zero => rfl
  | succ fuel ih =>
      rw [Portal.read, readByte_forget, readItem, readHead]
      simp only [bind_assoc]
      refine forget_bind fun initial o => ?_
      dsimp only
      rw [readLength_forget]
      exact forget_bind fun n o => readContent_forget ih hsmall _ n o

/-! ## Strictness -/

/-- The reader is strict on a buffer: it ends; a value is that of a complete item
    that the buffer begins with, and the cursor stands behind this item; a buffer
    that an item is not complete in is refused. -/
structure Strict (b : Buffer) : Prop where
  terminates : read b.val ≠ .error .outOfFuel ∧
    ∀ fuel, b.val.length < fuel → readItem b.val fuel 0 = read b.val
  sound : ∀ v offset, read b.val = .ok (v, offset) →
    offset ≤ b.val.length ∧ ∃ i : Item, Encodes (.item i) (b.val.take offset) ∧ i.IsValue v
  truncated : ∀ (e : Buffer) (i : Item), Encodes (.item i) e.val → b.val <+: e.val →
    b ≠ e → ∃ message, read b.val = .error (.payloadError message)

/-- An item at the beginning of a buffer is what the reader reads. -/
theorem read_of_item (b : Buffer) {pre rest : List UInt8} {i : Item}
    (h : Encodes (.item i) pre) (hb : b.val = pre ++ rest) :
    read b.val = .ok (i.made, pre.length) := by
  have hspan := (@Span.of_append b.val 0 _ _ hb).1
  rw [Nat.zero_add] at hspan
  have hle := @length_le_of_drop b.val 0 _ _ hb
  exact read_of_encodes b.property h (b.val.length + 1) hspan (by omega)

/-- What is read from a buffer that does not break off is what it begins with. -/
theorem item_of_read (b : Buffer) (hcut : ¬CutShort .item b.val) {v : CborValue} {offset : ℕ}
    (h : read b.val = .ok (v, offset)) :
    offset ≤ b.val.length ∧ ∃ i : Item, Encodes (.item i) (b.val.take offset) ∧ i.made = v := by
  obtain ⟨-, htook⟩ := took_of_readItem b.property h
  cases htook with
  | complete hwhole hspan hle =>
      rw [hspan.take] at hwhole
      exact ⟨hle, hwhole⟩
  | cut hcut' _ => exact absurd hcut' hcut

/-- The item that a buffer begins with has a value in JavaScript. -/
def BeginsExact (b : Buffer) : Prop :=
  ∀ (i : Item) (pre : List UInt8), Encodes (.item i) pre → pre <+: b.val → i.Exact

/-- The reader is strict on exactly the buffers that do not break off in the text
    string that comes last and do not begin with an item that JavaScript has no value
    for. -/
theorem strict_iff (b : Buffer) : Strict b ↔ ¬CutShort .item b.val ∧ BeginsExact b := by
  constructor
  · intro hstrict
    refine ⟨fun hcut => ?_, fun i pre hencodes hprefix => ?_⟩
    · obtain ⟨v, o', hread, hpast⟩ :=
        read_of_cutShort b.property hcut (b.val.length + 1) (o := 0) rfl (Nat.le_succ _)
      have hle := (hstrict.sound v o' hread).1
      omega
    · obtain ⟨rest, hrest⟩ := hprefix
      obtain ⟨-, i', hencodes', hvalue⟩ :=
        hstrict.sound _ _ (read_of_item b hencodes hrest.symm)
      rw [← hrest, List.take_left] at hencodes'
      -- the same bytes, so the same item
      obtain ⟨hitem, -⟩ := hencodes.unique hencodes' rfl (congrArg (· ++ []) rfl)
      cases hitem
      exact (Item.isValue_made i).mp hvalue
  · rintro ⟨hcut, hexact⟩
    have hends : read b.val ≠ .error .outOfFuel :=
      (@readItem_stable _ b.property _ (b.val.length + 1) _ (by omega) (by omega)).2
    refine ⟨⟨hends, fun fuel hfuel => ?_⟩, fun v offset hread => ?_, ?_⟩
    · exact (readItem_stable b.property (by omega) (by omega)).1
    · obtain ⟨hle, i, hencodes, rfl⟩ := item_of_read b hcut hread
      exact ⟨hle, i, hencodes,
        (Item.isValue_made i).mpr (hexact i _ hencodes (List.take_prefix _ _))⟩
    · intro e w he hprefix hne
      cases hread : read b.val with
      | error stop =>
          cases stop with
          | payloadError message => exact ⟨message, rfl⟩
          | outOfFuel => exact absurd hread hends
      | ok r =>
          -- the item that was read and `e` both begin `e`, so they are one
          obtain ⟨v, offset⟩ := r
          obtain ⟨hle, i, hencodes, -⟩ := item_of_read b hcut hread
          obtain ⟨rest, hrest⟩ := hprefix
          have hsplit : b.val.take offset ++ (b.val.drop offset ++ rest) = e.val ++ [] := by
            rw [← List.append_assoc, List.take_append_drop, hrest, List.append_nil]
          obtain ⟨-, -, hnil⟩ := hencodes.unique he rfl hsplit
          rw [(List.append_eq_nil_iff.mp hnil).2, List.append_nil] at hrest
          exact absurd (Subtype.ext hrest) hne

-- complete items that JavaScript has no value for: `2 ^ 53 + 1`, text that is not UTF-8, and a
-- map whose one key is `__proto__`
example : read [0x1b, 0, 0x20, 0, 0, 0, 0, 0, 1] = .ok (.number (2 ^ 53), 9) := rfl

example : read [0x61, 0xff] = .ok (.text [0xFFFD], 2) := rfl

example : read [0xa1, 0x69, 0x5f, 0x5f, 0x70, 0x72, 0x6f, 0x74, 0x6f, 0x5f, 0x5f, 0x01] =
    .ok (.object [], 12) := rfl

/-- A text string of five bytes, of which the buffer has two. -/
def truncatedText : Buffer := ⟨[0x65, 0x68, 0x69], by decide⟩

theorem truncated_text_read :
    read truncatedText.val = .ok (.text (js "hi"), 6) ∧ ¬Strict truncatedText := by
  have hread : read truncatedText.val = .ok (.text (js "hi"), 6) := by
    have hcontent : decodeUtf8 ((truncatedText.val.take 6).drop 1) = js "hi" := rfl
    have hstop : toNumber (1 + toNumber 5) = 6 := rfl
    show Except.ok (CborValue.text (decodeUtf8 ((truncatedText.val.take
      (toNumber (1 + toNumber 5))).drop 1)), toNumber (1 + toNumber 5)) = _
    rw [hstop, hcontent]
  refine ⟨hread, fun hstrict => ?_⟩
  have hle := (hstrict.sound _ _ hread).1
  exact absurd hle (by decide)

end ZeroAuth.Portal.CborReader
