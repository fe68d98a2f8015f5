/-
  ZeroAuth.Js.Utf8

  `buffer.toString('utf8')`: bytes that are no UTF-8 become U+FFFD, one for each
  maximal part of a sequence.
-/

import ZeroAuth.Js.Text

namespace ZeroAuth.Js

/-- The number of bytes that a first byte announces. -/
def sequenceLength (b : UInt8) : ℕ :=
  if 0xC2 ≤ b.toNat ∧ b.toNat ≤ 0xDF then 2
  else if 0xE0 ≤ b.toNat ∧ b.toNat ≤ 0xEF then 3
  else if 0xF0 ≤ b.toNat ∧ b.toNat ≤ 0xF4 then 4
  else 1

/-- Whether a byte may come second. -/
def mayFollow (first second : UInt8) : Bool :=
  (if first.toNat = 0xE0 then 0xA0 else if first.toNat = 0xF0 then 0x90 else 0x80) ≤ second.toNat &&
    second.toNat ≤ (if first.toNat = 0xED then 0x9F else if first.toNat = 0xF4 then 0x8F else 0xBF)

/-- How many bytes one U+FFFD stands for where no character can be read. -/
def invalidLength : List UInt8 → ℕ
  | first :: second :: rest =>
      if 3 ≤ sequenceLength first ∧ mayFollow first second then
        match rest with
        | third :: _ =>
            if sequenceLength first = 4 ∧ 0x80 ≤ third.toNat ∧ third.toNat ≤ 0xBF then 3 else 2
        | [] => 2
      else 1
  | _ => 1

/-- Every turn consumes a byte, so as many turns as there are bytes are enough. -/
def decodeUtf8From : ℕ → List UInt8 → JsString
  | _, [] => []
  | 0, _ :: _ => []
  | n + 1, bs@(_ :: _) =>
      match bs.toByteArray.utf8DecodeChar? 0 with
      | some c => charUnits c ++ decodeUtf8From n (bs.drop c.utf8Size)
      | none => 0xFFFD :: decodeUtf8From n (bs.drop (invalidLength bs))

def decodeUtf8 (bs : List UInt8) : JsString := decodeUtf8From bs.length bs

theorem decodeUtf8From_utf8EncodeChar (n : ℕ) (c : Char) (bs : List UInt8) :
    decodeUtf8From (n + 1) (String.utf8EncodeChar c ++ bs) = charUnits c ++ decodeUtf8From n bs := by
  have hdecode : (String.utf8EncodeChar c ++ bs).toByteArray.utf8DecodeChar? 0 = some c := by
    rw [List.toByteArray_append]
    exact ByteArray.utf8DecodeChar?_utf8EncodeChar_append
  have hdrop : (String.utf8EncodeChar c ++ bs).drop c.utf8Size = bs := by
    rw [← String.length_utf8EncodeChar, List.drop_left]
  have hpos : 0 < (String.utf8EncodeChar c ++ bs).length := by
    rw [List.length_append, String.length_utf8EncodeChar]
    have := c.utf8Size_pos
    omega
  obtain ⟨b, rest, heq⟩ := List.exists_cons_of_length_pos hpos
  rw [heq] at hdecode hdrop ⊢
  rw [decodeUtf8From, hdecode]
  dsimp only
  rw [hdrop]

theorem decodeUtf8From_flatMap (cs : List Char) {n : ℕ} (hn : cs.length ≤ n) :
    decodeUtf8From n (cs.flatMap String.utf8EncodeChar) = cs.flatMap charUnits := by
  induction cs generalizing n with
  | nil => cases n <;> rfl
  | cons c cs ih =>
      rw [List.length_cons] at hn
      obtain ⟨n, rfl⟩ : ∃ m, n = m + 1 := ⟨n - 1, by omega⟩
      rw [List.flatMap_cons, List.flatMap_cons, decodeUtf8From_utf8EncodeChar, ih (by omega)]

/-- What was encoded is decoded again. -/
theorem decodeUtf8_utf8 {s : JsString} (h : WellFormed s = true) : decodeUtf8 (utf8 s) = s := by
  have hlength : (scalars s).length ≤ (utf8 s).length := by
    rw [utf8]
    induction scalars s with
    | nil => simp
    | cons c cs ih =>
        have := c.utf8Size_pos
        rw [List.flatMap_cons, List.length_append, String.length_utf8EncodeChar, List.length_cons]
        omega
  have hdecode := decodeUtf8From_flatMap (scalars s) hlength
  rwa [flatMap_scalars h] at hdecode

end ZeroAuth.Js
