/-
  ZeroAuth.Pg.Columns

  The column types of Postgres that the services rely on.

  UUID: what its input accepts and how it is printed.  Several texts denote one
  UUID; the printed form is the lower-case one with hyphens.

  JSONB: what is read back, and the operator `->>`.
-/

import ZeroAuth.Js.Json

namespace ZeroAuth.Pg

open ZeroAuth.Js

structure Uuid where
  val : ℕ
  isLt : val < 2 ^ 128
  deriving DecidableEq

namespace Uuid

def ofNat (n : ℕ) : Uuid := ⟨n % 2 ^ 128, Nat.mod_lt _ (by decide)⟩

/-- The printed form, `xxxxxxxx-xxxx-xxxx-xxxx-xxxxxxxxxxxx` in lower case. -/
def text (u : Uuid) : JsString :=
  let ds := padStart 32 (numText 16 u.val)
  ds.take 8 ++ 45 :: (ds.drop 8).take 4 ++ 45 :: (ds.drop 12).take 4 ++
    45 :: (ds.drop 16).take 4 ++ 45 :: ds.drop 20

def skipHyphen : JsString → JsString
  | 45 :: s => s
  | s => s

/-- Read `k` more hex digits of either case; one hyphen may follow every fourth. -/
def readHex : ℕ → JsString → Option (List ℕ × JsString)
  | 0, s => some ([], s)
  | _ + 1, [] => none
  | k + 1, u :: s => do
      let d ← digitIn 16 u
      let (ds, r) ← readHex k (if k % 4 = 0 ∧ k ≠ 0 then skipHyphen s else s)
      return (d :: ds, r)

def ofDigits (ds : List ℕ) : Uuid :=
  ⟨Nat.ofDigits 16 ds.reverse % 2 ^ 128, Nat.mod_lt _ (by decide)⟩

/-- The input function of the type: 32 hex digits, optional hyphens between
    groups of four, optional braces around everything. -/
def parse : JsString → Option Uuid
  | 123 :: s =>
      match readHex 32 s with
      | some (ds, [125]) => some (ofDigits ds)
      | _ => none
  | s =>
      match readHex 32 s with
      | some (ds, []) => some (ofDigits ds)
      | _ => none

/-- The printed form has lower-case hex digits and hyphens only. -/
theorem mem_text {id : Uuid} {u : CodeUnit} (hu : u ∈ id.text) :
    u = 45 ∨ ∃ d < 16, u = digitUnit d := by
  have hdigits : ∀ v ∈ padStart 32 (numText 16 id.val), ∃ d < 16, v = digitUnit d := by
    intro v hv
    rcases mem_padStart hv with rfl | hv
    · exact ⟨0, by omega, rfl⟩
    · exact mem_numText (by omega) hv
  simp only [text, List.mem_append, List.mem_cons] at hu
  rcases hu with (((hu | rfl | hu) | rfl | hu) | rfl | hu) | rfl | hu
  · exact .inr (hdigits u (List.mem_of_mem_take hu))
  · exact .inl rfl
  · exact .inr (hdigits u (List.mem_of_mem_drop (List.mem_of_mem_take hu)))
  · exact .inl rfl
  · exact .inr (hdigits u (List.mem_of_mem_drop (List.mem_of_mem_take hu)))
  · exact .inl rfl
  · exact .inr (hdigits u (List.mem_of_mem_drop (List.mem_of_mem_take hu)))
  · exact .inl rfl
  · exact .inr (hdigits u (List.mem_of_mem_drop hu))

theorem isAscii_text (id : Uuid) : IsAscii id.text := by
  intro u hu
  rcases mem_text hu with rfl | ⟨d, hd, rfl⟩
  · decide
  · exact digitUnit_lt hd

/-! ## Printing and reading back -/

/-- The digits of the printed form. -/
def hexDigits (u : Uuid) : List ℕ :=
  List.replicate (32 - (numText 16 u.val).length) 0 ++
    if u.val = 0 then [0] else (Nat.digits 16 u.val).reverse

theorem map_hexDigits (u : Uuid) :
    u.hexDigits.map digitUnit = padStart 32 (numText 16 u.val) := by
  have hnum : (if u.val = 0 then [0] else (Nat.digits 16 u.val).reverse).map digitUnit =
      numText 16 u.val := by
    rw [numText]
    split
    · rfl
    · rw [List.map_reverse]
  have hzero : digitUnit 0 = 48 := by decide
  rw [hexDigits, List.map_append, List.map_replicate, hnum, hzero, padStart]

theorem hexDigits_lt {u : Uuid} : ∀ d ∈ u.hexDigits, d < 16 := by
  intro d hd
  rcases List.mem_append.mp hd with hd | hd
  · rw [(List.mem_replicate.mp hd).2]
    omega
  · split at hd
    · rw [List.mem_singleton.mp hd]
      omega
    · exact Nat.digits_lt_base (by omega) (List.mem_reverse.mp hd)

theorem length_hexDigits (u : Uuid) : u.hexDigits.length = 32 := by
  have hlen : (numText 16 u.val).length ≤ 32 := by
    rw [numText]
    split
    · simp
    · next hne =>
        rw [List.length_reverse, List.length_map, Nat.digits_length_le_iff (by omega)]
        exact lt_of_lt_of_eq u.isLt (by norm_num)
  rw [← List.length_map digitUnit, map_hexDigits, padStart, List.length_append,
    List.length_replicate]
  omega

theorem ofDigits_hexDigits (u : Uuid) : ofDigits u.hexDigits = u := by
  have hval : Nat.ofDigits 16 u.hexDigits.reverse = u.val := by
    rw [hexDigits, List.reverse_append, List.reverse_replicate, Nat.ofDigits_append_replicate_zero]
    split
    · next h => simp [h]
    · rw [List.reverse_reverse, Nat.ofDigits_digits]
  obtain ⟨n, hn⟩ := u
  simp only [ofDigits, hval, Nat.mod_eq_of_lt hn]

/-- One group of digits. -/
theorem readHex_group {l : List ℕ} (hne : l ≠ []) (hl : ∀ d ∈ l, d < 16) (k : ℕ) (s : JsString) :
    readHex (k + l.length) (l.map digitUnit ++ s) =
      (readHex k (if k % 4 = 0 ∧ k ≠ 0 then skipHyphen s else s)).map fun (ds, r) => (l ++ ds, r) := by
  induction l with
  | nil => exact absurd rfl hne
  | cons d l ih =>
      have hd := digitIn_digitUnit (b := 16) (by omega) (hl d (by simp))
      cases l with
      | nil =>
          show readHex (k + 1) (digitUnit d :: s) = _
          rw [readHex, hd, Option.bind_eq_bind, Option.bind_some]
          cases readHex k (if k % 4 = 0 ∧ k ≠ 0 then skipHyphen s else s) <;> rfl
      | cons d' l =>
          have hrest := ih (by simp) fun x hx => hl x (by simp [hx])
          have hskip : skipHyphen ((d' :: l).map digitUnit ++ s) = (d' :: l).map digitUnit ++ s := by
            have hall : ∀ d < 16, digitUnit d ≠ 45 := by decide
            have hne := hall d' (hl d' (by simp))
            rw [List.map_cons, List.cons_append]
            unfold skipHyphen
            split
            · next heq => exact absurd (List.cons.inj heq).1 hne
            · rfl
          show readHex (k + (d' :: l).length + 1) (digitUnit d :: ((d' :: l).map digitUnit ++ s)) = _
          rw [readHex, hd, Option.bind_eq_bind, Option.bind_some, hskip, ite_self, hrest]
          cases readHex k (if k % 4 = 0 ∧ k ≠ 0 then skipHyphen s else s) <;> rfl

/-- The printed form is read back. -/
theorem parse_text (u : Uuid) : parse u.text = some u := by
  have hlen := u.length_hexDigits
  have hlt : ∀ d ∈ u.hexDigits, d < 16 := hexDigits_lt
  -- the digits in groups of 8, 4, 4, 4 and 12
  have hgroup : ∀ i n k s, 0 < n → i + n ≤ 32 →
      readHex (k + n) (((u.hexDigits.drop i).take n).map digitUnit ++ s) =
        (readHex k (if k % 4 = 0 ∧ k ≠ 0 then skipHyphen s else s)).map fun (ds, r) =>
          ((u.hexDigits.drop i).take n ++ ds, r) := by
    intro i n k s hn hi
    have hlength : ((u.hexDigits.drop i).take n).length = n := by
      rw [List.length_take, List.length_drop]
      omega
    have hne : (u.hexDigits.drop i).take n ≠ [] := by
      intro hnil
      rw [hnil, List.length_nil] at hlength
      omega
    have hread := readHex_group hne
      (fun d hd => hlt d (List.mem_of_mem_drop (List.mem_of_mem_take hd))) k s
    rwa [hlength] at hread
  have htext : u.text = ((u.hexDigits.drop 0).take 8).map digitUnit ++
      45 :: (((u.hexDigits.drop 8).take 4).map digitUnit ++
      45 :: (((u.hexDigits.drop 12).take 4).map digitUnit ++
      45 :: (((u.hexDigits.drop 16).take 4).map digitUnit ++
      45 :: (((u.hexDigits.drop 20).take 12).map digitUnit ++ [])))) := by
    have hlast : (u.hexDigits.drop 20).take 12 = u.hexDigits.drop 20 :=
      List.take_of_length_le (by rw [List.length_drop]; omega)
    simp only [text, ← map_hexDigits, ← List.map_take, ← List.map_drop, hlast, List.drop_zero,
      List.append_assoc, List.cons_append, List.append_nil]
  have hsplit : (u.hexDigits.drop 0).take 8 ++ ((u.hexDigits.drop 8).take 4 ++
      ((u.hexDigits.drop 12).take 4 ++ ((u.hexDigits.drop 16).take 4 ++
      (u.hexDigits.drop 20).take 12))) = u.hexDigits := by
    rw [List.take_of_length_le (l := u.hexDigits.drop 20) (by rw [List.length_drop]; omega)]
    have hstep : ∀ i n, (u.hexDigits.drop i).take n ++ u.hexDigits.drop (i + n) =
        u.hexDigits.drop i := fun i n => by rw [← List.drop_drop, List.take_append_drop]
    rw [hstep 16 4, hstep 12 4, hstep 8 4, hstep 0 8, List.drop_zero]
  have hread : readHex 32 u.text = some (u.hexDigits, []) := by
    rw [htext, hgroup 0 8 24 _ (by omega) (by omega), if_pos (by decide), skipHyphen,
      hgroup 8 4 20 _ (by omega) (by omega), if_pos (by decide), skipHyphen,
      hgroup 12 4 16 _ (by omega) (by omega), if_pos (by decide), skipHyphen,
      hgroup 16 4 12 _ (by omega) (by omega), if_pos (by decide), skipHyphen,
      hgroup 20 12 0 _ (by omega) (by omega), if_neg (by decide), readHex]
    simp only [Option.map_some, List.append_nil]
    rw [hsplit]
  unfold parse
  split
  · next s heq =>
      -- no digit is a brace
      have hmem : (123 : CodeUnit) ∈ u.text := by rw [heq]; simp
      have hall : ∀ d < 16, digitUnit d ≠ 123 := by decide
      rcases mem_text hmem with h | ⟨d, hd, h⟩
      · exact absurd h (by decide)
      · exact absurd h.symm (hall d hd)
  · rw [hread]
    exact congrArg some u.ofDigits_hexDigits

theorem text_injective : Function.Injective text := fun u v h =>
  Option.some_inj.mp ((parse_text u).symm.trans ((congrArg parse h).trans (parse_text v)))

end Uuid

-- Two spellings of one UUID.
example : (Uuid.parse (js "6BA7B810-9DAD-11D1-80B4-00C04FD430C8")).map Uuid.text =
    some (js "6ba7b810-9dad-11d1-80b4-00c04fd430c8") := by
  rfl

/-! ## JSONB -/

/-- A JSONB column keeps a value up to the order of its keys; `text` is how an
    array or object is printed by `->>`. -/
structure Jsonb where
  store : Json → Json
  store_same : ∀ j, (store j).Same j
  text : Json → JsString

/-- `value->>key`: a string as it is, any other value as its text; `null` and a
    missing key are NULL. -/
def Jsonb.arrowText (pg : Jsonb) (key : JsString) (value : Json) : Option JsString :=
  match value.get? key with
  | none | some .null => none
  | some (.str s) => some s
  | some (.bool b) => some (Json.bool b).print
  | some (.num n) => some n.text
  | some nested => some (pg.text nested)

end ZeroAuth.Pg
