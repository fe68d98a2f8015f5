/-
  ZeroAuth.Portal.CborItem

  The subset of CBOR that src/routes/demo-portal.ts supports, apart from the reader: the
  data items, their bytes and their values.

  Unsigned integers, text strings, arrays, and maps with text keys, all of definite
  length.  No complete item begins another one (`Encodes.unique`).
-/

import ZeroAuth.Lib.Words
import ZeroAuth.Portal.ProofQr

namespace ZeroAuth.Portal

open ZeroAuth.Lib ZeroAuth.Js

/-! ## Items and their bytes -/

/-- A data item.  A text string and a key of a map are the bytes of their contents. -/
inductive Item
  | uint (n : ℕ)
  | text (content : List UInt8)
  | array (items : List Item)
  | map (entries : List (List UInt8 × Item))

/-- The head of an item: major type, length and bytes. -/
inductive Head (major : ℕ) : ℕ → List UInt8 → Prop
  | direct {initial : UInt8} : initial.toNat >>> 5 = major → initial.toNat &&& 0x1f < 24 →
      Head major (initial.toNat &&& 0x1f) [initial]
  | following {initial : UInt8} {ext : List UInt8} {k : ℕ} : initial.toNat >>> 5 = major →
      initial.toNat &&& 0x1f = 24 + k → k < 4 → ext.length = 2 ^ k →
      Head major (ext.foldl shiftIn 0) (initial :: ext)

/-- What stands together in the bytes: an item, the items of an array, or the entries of
    a map. -/
inductive Part
  | item (i : Item)
  | items (is : List Item)
  | entries (es : List (List UInt8 × Item))

/-- The kind of a part, with the count that the head in front of it declares. -/
inductive Shape
  | item
  | items (n : ℕ)
  | entries (n : ℕ)

def Shape.count : Shape → ℕ
  | item => 0
  | items n | entries n => n

def Part.shape : Part → Shape
  | item _ => .item
  | items is => .items is.length
  | entries es => .entries es.length

/-- The bytes are this part, all of it. -/
inductive Encodes : Part → List UInt8 → Prop
  | uint {n : ℕ} {head : List UInt8} : Head 0 n head → Encodes (.item (.uint n)) head
  | text {head content : List UInt8} : Head 3 content.length head →
      Encodes (.item (.text content)) (head ++ content)
  | array {is : List Item} {head content : List UInt8} : Head 4 is.length head →
      Encodes (.items is) content → Encodes (.item (.array is)) (head ++ content)
  | map {es : List (List UInt8 × Item)} {head content : List UInt8} : Head 5 es.length head →
      Encodes (.entries es) content → Encodes (.item (.map es)) (head ++ content)
  | noItems : Encodes (.items []) []
  | items {i : Item} {is : List Item} {first others : List UInt8} : Encodes (.item i) first →
      Encodes (.items is) others → Encodes (.items (i :: is)) (first ++ others)
  | noEntries : Encodes (.entries []) []
  | entries {k : List UInt8} {i : Item} {es : List (List UInt8 × Item)}
      {key value others : List UInt8} : Encodes (.item (.text k)) key →
      Encodes (.item i) value → Encodes (.entries es) others →
      Encodes (.entries ((k, i) :: es)) (key ++ (value ++ others))

theorem Head.length_pos {major n : ℕ} {head : List UInt8} (h : Head major n head) :
    0 < head.length := by
  cases h with
  | direct => exact Nat.one_pos
  | following => exact Nat.succ_pos _

/-- The first byte says how long a head is. -/
theorem Head.unique {major major' n n' : ℕ} {head head' rest rest' : List UInt8}
    (h : Head major n head) (h' : Head major' n' head') (heq : head ++ rest = head' ++ rest') :
    major = major' ∧ n = n' ∧ head = head' ∧ rest = rest' := by
  cases h with
  | direct hmajor hlt =>
      cases h' with
      | direct hmajor' hlt' =>
          obtain ⟨rfl, hrest⟩ := List.cons.inj heq
          exact ⟨hmajor.symm.trans hmajor', rfl, rfl, hrest⟩
      | following hmajor' hadditional' hk' hext' =>
          obtain ⟨rfl, -⟩ := List.cons.inj heq
          omega
  | following hmajor hadditional hk hext =>
      cases h' with
      | direct hmajor' hlt' =>
          obtain ⟨rfl, -⟩ := List.cons.inj heq
          omega
      | following hmajor' hadditional' hk' hext' =>
          obtain ⟨rfl, htail⟩ := List.cons.inj heq
          -- the same additional bits, so equally many bytes follow
          have hlength := (Nat.add_left_cancel (hadditional.symm.trans hadditional'))
          subst hlength
          obtain ⟨rfl, hrest⟩ := List.append_inj htail (hext.trans hext'.symm)
          exact ⟨hmajor.symm.trans hmajor', rfl, rfl, hrest⟩

theorem Encodes.length_pos {i : Item} {pre : List UInt8} (h : Encodes (.item i) pre) :
    0 < pre.length := by
  cases h with
  | uint hhead => exact hhead.length_pos
  | text hhead | array hhead _ | map hhead _ =>
      rw [List.length_append]
      exact Nat.add_pos_left hhead.length_pos _

/-- What follows a head takes at least as many bytes as the head counts. -/
theorem Encodes.count_le {p : Part} {pre : List UInt8} (h : Encodes p pre) :
    p.shape.count ≤ pre.length := by
  induction h with
  | uint | text | array | map | noItems | noEntries => exact Nat.zero_le _
  | items hfirst _ _ ih =>
      have hpos := hfirst.length_pos
      simp only [Part.shape, Shape.count, List.length_cons, List.length_append] at ih ⊢
      omega
  | entries hkey _ _ _ _ ih =>
      have hpos := hkey.length_pos
      simp only [Part.shape, Shape.count, List.length_cons, List.length_append] at ih ⊢
      omega

/-- Bytes begin with at most one complete part of a shape. -/
theorem Encodes.unique {p : Part} {pre : List UInt8} (h : Encodes p pre) :
    ∀ {p' : Part} {pre' rest rest' : List UInt8}, Encodes p' pre' → p.shape = p'.shape →
      pre ++ rest = pre' ++ rest' → p = p' ∧ pre = pre' ∧ rest = rest' := by
  -- the head gives the kind and the length, the rest follows from the parts
  induction h with
  | uint hhead =>
      intro p' pre' rest rest' h' hshape heq
      cases h' with
      | uint hhead' =>
          obtain ⟨-, rfl, rfl, hrest⟩ := hhead.unique hhead' heq
          exact ⟨rfl, rfl, hrest⟩
      | text hhead' | array hhead' _ | map hhead' _ =>
          rw [List.append_assoc] at heq
          have hmajor := (hhead.unique hhead' heq).1
          omega
      | noItems | items _ _ | noEntries | entries _ _ _ => cases hshape
  | text hhead =>
      intro p' pre' rest rest' h' hshape heq
      rw [List.append_assoc] at heq
      cases h' with
      | text hhead' =>
          rw [List.append_assoc] at heq
          obtain ⟨-, hlength, rfl, htail⟩ := hhead.unique hhead' heq
          obtain ⟨rfl, hrest⟩ := List.append_inj htail hlength
          exact ⟨rfl, rfl, hrest⟩
      | uint hhead' =>
          have hmajor := (hhead.unique hhead' heq).1
          omega
      | array hhead' _ | map hhead' _ =>
          rw [List.append_assoc] at heq
          have hmajor := (hhead.unique hhead' heq).1
          omega
      | noItems | items _ _ | noEntries | entries _ _ _ => cases hshape
  | array hhead _ ih =>
      intro p' pre' rest rest' h' hshape heq
      rw [List.append_assoc] at heq
      cases h' with
      | array hhead' hcontent' =>
          rw [List.append_assoc] at heq
          obtain ⟨-, hlength, rfl, htail⟩ := hhead.unique hhead' heq
          obtain ⟨hitems, rfl, hrest⟩ := ih hcontent' (congrArg Shape.items hlength) htail
          cases hitems
          exact ⟨rfl, rfl, hrest⟩
      | uint hhead' =>
          have hmajor := (hhead.unique hhead' heq).1
          omega
      | text hhead' | map hhead' _ =>
          rw [List.append_assoc] at heq
          have hmajor := (hhead.unique hhead' heq).1
          omega
      | noItems | items _ _ | noEntries | entries _ _ _ => cases hshape
  | map hhead _ ih =>
      intro p' pre' rest rest' h' hshape heq
      rw [List.append_assoc] at heq
      cases h' with
      | map hhead' hcontent' =>
          rw [List.append_assoc] at heq
          obtain ⟨-, hlength, rfl, htail⟩ := hhead.unique hhead' heq
          obtain ⟨hentries, rfl, hrest⟩ := ih hcontent' (congrArg Shape.entries hlength) htail
          cases hentries
          exact ⟨rfl, rfl, hrest⟩
      | uint hhead' =>
          have hmajor := (hhead.unique hhead' heq).1
          omega
      | text hhead' | array hhead' _ =>
          rw [List.append_assoc] at heq
          have hmajor := (hhead.unique hhead' heq).1
          omega
      | noItems | items _ _ | noEntries | entries _ _ _ => cases hshape
  | noItems =>
      intro p' pre' rest rest' h' hshape heq
      cases h' with
      | noItems => exact ⟨rfl, rfl, heq⟩
      | items _ _ | uint _ | text _ | array _ _ | map _ _ | noEntries | entries _ _ _ => cases hshape
  | items _ _ ihfirst ihothers =>
      intro p' pre' rest rest' h' hshape heq
      cases h' with
      | items hfirst' hothers' =>
          rw [List.append_assoc, List.append_assoc] at heq
          obtain ⟨hitem, rfl, htail⟩ := ihfirst hfirst' rfl heq
          cases hitem
          have hcount : Shape.items _ = Shape.items _ :=
            congrArg Shape.items (Nat.succ.inj (Shape.items.inj hshape))
          obtain ⟨hitems, rfl, hrest⟩ := ihothers hothers' hcount htail
          cases hitems
          exact ⟨rfl, rfl, hrest⟩
      | noItems | uint _ | text _ | array _ _ | map _ _ | noEntries | entries _ _ _ => cases hshape
  | noEntries =>
      intro p' pre' rest rest' h' hshape heq
      cases h' with
      | noEntries => exact ⟨rfl, rfl, heq⟩
      | entries _ _ _ | uint _ | text _ | array _ _ | map _ _ | noItems | items _ _ => cases hshape
  | entries _ _ _ ihkey ihvalue ihothers =>
      intro p' pre' rest rest' h' hshape heq
      cases h' with
      | entries hkey' hvalue' hothers' =>
          simp only [List.append_assoc] at heq
          obtain ⟨hkey, rfl, htail₁⟩ := ihkey hkey' rfl heq
          cases hkey
          obtain ⟨hvalue, rfl, htail₂⟩ := ihvalue hvalue' rfl htail₁
          cases hvalue
          have hcount : Shape.entries _ = Shape.entries _ :=
            congrArg Shape.entries (Nat.succ.inj (Shape.entries.inj hshape))
          obtain ⟨hentries, rfl, hrest⟩ := ihothers hothers' hcount htail₂
          cases hentries
          exact ⟨rfl, rfl, hrest⟩
      | noEntries | uint _ | text _ | array _ _ | map _ _ | noItems | items _ _ => cases hshape

/-! ## Values -/

/-- The string has these bytes in UTF-8. -/
def Spells (s : JsString) (content : List UInt8) : Prop := WellFormed s = true ∧ utf8 s = content

theorem Spells.decode {s : JsString} {content : List UInt8} (h : Spells s content) :
    decodeUtf8 content = s := by
  rw [← h.2, decodeUtf8_utf8 h.1]

theorem spells_decode {content : List UInt8} (h : ∃ s, Spells s content) :
    Spells (decodeUtf8 content) content := by
  obtain ⟨s, hs⟩ := h
  rwa [hs.decode]

namespace Item

mutual

/-- `v` is the value of the item: the integer itself, the string with these bytes, the
    array of the values, an object with an own property for each entry and no other. -/
def IsValue : Item → CborValue → Prop
  | uint n, v => v = .number n
  | text content, v => ∃ s, v = .text s ∧ Spells s content
  | array is, v => ∃ vs, v = .array vs ∧ AreValues is vs
  | map es, v => ∃ own, v = .object own ∧ (es.map Prod.fst).Nodup ∧ (own.map Prod.fst).Nodup ∧
      own.length = es.length ∧ AreProps es own

def AreValues : List Item → List CborValue → Prop
  | [], vs => vs = []
  | i :: is, vs => ∃ v ws, vs = v :: ws ∧ IsValue i v ∧ AreValues is ws

def AreProps : List (List UInt8 × Item) → List (JsString × CborValue) → Prop
  | [], _ => True
  | (key, i) :: es, own =>
      (∃ s v, Spells s key ∧ own.lookup s = some v ∧ IsValue i v) ∧ AreProps es own

end

mutual

/-- What JavaScript has a value for, in objects that are filled by assignments: integers
    that are doubles, text in UTF-8, different keys, and none of them `__proto__`. -/
def Exact : Item → Prop
  | uint n => toNumber n = n
  | text content => ∃ s, Spells s content
  | array is => AllExact is
  | map es => (es.map Prod.fst).Nodup ∧ (∀ e ∈ es, e.1 ≠ utf8 (js "__proto__")) ∧
      (∀ e ∈ es, ∃ s, Spells s e.1) ∧ EntriesExact es

def AllExact : List Item → Prop
  | [] => True
  | i :: is => Exact i ∧ AllExact is

def EntriesExact : List (List UInt8 × Item) → Prop
  | [] => True
  | (_, i) :: es => Exact i ∧ EntriesExact es

end

mutual

/-- What the reader makes of an item: the nearest double, the decoded text, and an object
    that the entries are assigned to in their order. -/
def made : Item → CborValue
  | uint n => .number (toNumber n)
  | text content => .text (decodeUtf8 content)
  | array is => .array (madeItems is)
  | map es => madeEntries es (.object [])

def madeItems : List Item → List CborValue
  | [] => []
  | i :: is => made i :: madeItems is

def madeEntries : List (List UInt8 × Item) → CborValue → CborValue
  | [], obj => obj
  | (key, i) :: es, obj => madeEntries es (obj.setProp (decodeUtf8 key) (made i))

end

/-! ### What assignments make -/

/-- The property that an entry becomes. -/
def prop (e : List UInt8 × Item) : JsString × CborValue := (decodeUtf8 e.1, e.2.made)

theorem madeEntries_inheriting {es : List (List UInt8 × Item)} :
    ∀ {proto : CborValue} {own : List (JsString × CborValue)},
      ∃ proto' own', madeEntries es (.inheriting proto own) = .inheriting proto' own' := by
  induction es with
  | nil => exact fun {proto own} => ⟨proto, own, rfl⟩
  | cons e es ih =>
      intro proto own
      obtain ⟨key, i⟩ := e
      rw [madeEntries, CborValue.setProp]
      split
      · split
        · exact ih
        · exact ih
      · exact ih

/-- An object that stays without a prototype of its own has a property for each entry,
    apart from those under `__proto__`. -/
theorem own_of_madeEntries {es : List (List UInt8 × Item)} :
    ∀ {own₀ own : List (JsString × CborValue)}, madeEntries es (.object own₀) = .object own →
      own = ((es.map prop).filter fun p => decide (p.1 ≠ js "__proto__")).reverse ++ own₀ := by
  induction es with
  | nil =>
      rintro own₀ own ⟨⟩
      rfl
  | cons e es ih =>
      intro own₀ own h
      obtain ⟨key, i⟩ := e
      rw [madeEntries, CborValue.setProp] at h
      by_cases hkey : decodeUtf8 key = js "__proto__"
      · rw [if_pos hkey] at h
        have hskip : decide ((prop (key, i)).1 ≠ js "__proto__") = false :=
          decide_eq_false (not_not.mpr hkey)
        simp only [List.map_cons, List.filter_cons, hskip, Bool.false_eq_true, if_false]
        split at h
        · obtain ⟨proto', own', hinheriting⟩ := @madeEntries_inheriting es (made i) own₀
          rw [hinheriting] at h
          cases h
        · exact ih h
      · rw [if_neg hkey] at h
        have hkeep : decide ((prop (key, i)).1 ≠ js "__proto__") = true := decide_eq_true hkey
        simp only [List.map_cons, List.filter_cons, hkeep, if_true, List.reverse_cons,
          List.append_assoc]
        exact ih h

theorem madeEntries_object {es : List (List UInt8 × Item)} :
    ∀ {own : List (JsString × CborValue)}, (∀ e ∈ es, decodeUtf8 e.1 ≠ js "__proto__") →
      madeEntries es (.object own) = .object ((es.map prop).reverse ++ own) := by
  induction es with
  | nil => exact fun _ => rfl
  | cons e es ih =>
      intro own h
      obtain ⟨hkey, hes⟩ := List.forall_mem_cons.mp h
      obtain ⟨key, i⟩ := e
      rw [madeEntries, CborValue.setProp, if_neg hkey, ih hes, List.map_cons, List.reverse_cons,
        List.append_assoc]
      rfl

/-- A map never becomes a text string. -/
theorem isObject_madeEntries {es : List (List UInt8 × Item)} :
    ∀ {obj : CborValue}, obj.isObject = true → (madeEntries es obj).isObject = true := by
  induction es with
  | nil => exact fun h => h
  | cons e es ih =>
      intro obj h
      obtain ⟨key, i⟩ := e
      refine ih ?_
      cases obj with
      | number | text => cases h
      | array => rfl
      | object | inheriting =>
          rw [CborValue.setProp]
          split
          · split
            · rfl
            · rfl
          · rfl

theorem text_of_made {i : Item} {s : JsString} (h : i.made = .text s) :
    ∃ content, i = .text content ∧ decodeUtf8 content = s := by
  cases i with
  | uint | array => cases h
  | text content => exact ⟨content, rfl, CborValue.text.inj h⟩
  | map es =>
      have hobject := @isObject_madeEntries es (.object []) rfl
      rw [made] at h
      rw [h] at hobject
      cases hobject

/-! ### When it is the value -/

mutual

/-- The reader makes the value of exactly the items that JavaScript has a value for. -/
theorem isValue_made : ∀ i : Item, IsValue i (made i) ↔ Exact i
  | uint n => by
      rw [IsValue, made, Exact, CborValue.number.injEq]
  | text content => by
      rw [IsValue, made, Exact]
      constructor
      · rintro ⟨s, -, hs⟩
        exact ⟨s, hs⟩
      · exact fun h => ⟨_, rfl, spells_decode h⟩
  | array is => by
      rw [IsValue, made, Exact, ← areValues_made is]
      constructor
      · rintro ⟨vs, hvs, h⟩
        rwa [CborValue.array.inj hvs]
      · exact fun h => ⟨_, rfl, h⟩
  | map es => by
      rw [IsValue, made, Exact]
      constructor
      · rintro ⟨own, hmade, hes, hown, hlength, hprops⟩
        -- as many properties as entries, so no assignment went to the prototype
        have hfilter := own_of_madeEntries hmade
        rw [List.append_nil] at hfilter
        have hall : ∀ p ∈ es.map prop, decide (p.1 ≠ js "__proto__") = true := by
          rw [← List.length_filter_eq_length_iff, ← List.length_reverse, ← hfilter, hlength,
            List.length_map]
        rw [List.filter_eq_self.mpr hall] at hfilter
        have hlookup : ∀ e ∈ es, own.lookup (decodeUtf8 e.1) = some e.2.made := by
          intro e he
          refine Json.lookup_of_mem hown ?_
          rw [hfilter, List.mem_reverse]
          exact List.mem_map_of_mem he
        obtain ⟨hspelled, hexact⟩ := (areProps_made es hlookup).mp hprops
        refine ⟨hes, fun e he hproto => ?_, hspelled, hexact⟩
        have hwf : WellFormed (js "__proto__") = true := by decide
        have hkey := of_decide_eq_true (hall _ (List.mem_map_of_mem he))
        rw [prop, hproto, decodeUtf8_utf8 hwf] at hkey
        exact hkey rfl
      · rintro ⟨hes, hproto, hspelled, hexact⟩
        have hkeys : ∀ e ∈ es, decodeUtf8 e.1 ≠ js "__proto__" := by
          intro e he hkey
          refine hproto e he ?_
          rw [← hkey, (spells_decode (hspelled e he)).2]
        have hnodup : (((es.map prop).reverse).map Prod.fst).Nodup := by
          rw [List.map_reverse, List.nodup_reverse, List.map_map]
          refine List.Nodup.of_map (fun s => utf8 s) ?_
          rw [List.map_map]
          have hback : es.map ((fun s => utf8 s) ∘ Prod.fst ∘ prop) = es.map Prod.fst :=
            List.map_congr_left fun e he => (spells_decode (hspelled e he)).2
          rwa [hback]
        refine ⟨(es.map prop).reverse, ?_, hes, hnodup, ?_, ?_⟩
        · rw [madeEntries_object hkeys, List.append_nil]
        · rw [List.length_reverse, List.length_map]
        · refine (areProps_made es fun e he => ?_).mpr ⟨hspelled, hexact⟩
          exact Json.lookup_of_mem hnodup (List.mem_reverse.mpr (List.mem_map_of_mem he))

theorem areValues_made : ∀ is : List Item, AreValues is (madeItems is) ↔ AllExact is
  | [] => by
      rw [AreValues, madeItems, AllExact]
      exact ⟨fun _ => trivial, fun _ => rfl⟩
  | i :: is => by
      rw [AreValues, madeItems, AllExact, ← isValue_made i, ← areValues_made is]
      constructor
      · rintro ⟨v, ws, heq, hv, hws⟩
        obtain ⟨rfl, rfl⟩ := List.cons.inj heq
        exact ⟨hv, hws⟩
      · exact fun ⟨hv, hws⟩ => ⟨_, _, rfl, hv, hws⟩

/-- In an object that has what the reader makes under the decoded keys. -/
theorem areProps_made : ∀ (es : List (List UInt8 × Item)) {own : List (JsString × CborValue)},
    (∀ e ∈ es, own.lookup (decodeUtf8 e.1) = some e.2.made) →
      (AreProps es own ↔ (∀ e ∈ es, ∃ s, Spells s e.1) ∧ EntriesExact es)
  | [], own, _ => by simp [AreProps, EntriesExact]
  | (key, i) :: es, own, h => by
      obtain ⟨hfirst, hes⟩ := List.forall_mem_cons.mp h
      rw [AreProps, EntriesExact, List.forall_mem_cons, areProps_made es hes, ← isValue_made i]
      constructor
      · rintro ⟨⟨s, v, hs, hv, hi⟩, hspelled, hexact⟩
        rw [← hs.decode, hfirst] at hv
        rw [Option.some.inj hv]
        exact ⟨⟨⟨s, hs⟩, hspelled⟩, hi, hexact⟩
      · rintro ⟨⟨hs, hspelled⟩, hi, hexact⟩
        exact ⟨⟨_, _, spells_decode hs, hfirst, hi⟩, hspelled, hexact⟩

end

end Item

end ZeroAuth.Portal
