/-
  ZeroAuth.Logs.RingBuffer

  `LogRingBuffer` of src/services/log-ring-buffer.ts, without its subscribers: an
  array of `capacity` slots, the slot `head` that the next push overwrites, and the number
  `count` of slots that are filled.

  `LogRingBuffer.Holds r xs` relates a buffer to everything that has been pushed
  since the last `clear`, oldest first: the entry that was pushed `j` pushes ago is in
  slot `(head - 1 - j) mod capacity`.  Every operation has a lemma about `Holds`, and
  `tail_eq` reads the last entries off it.
-/

import ZeroAuth.Js.Text
import ZeroAuth.Js.Value
import Mathlib.Data.List.DropRight

namespace ZeroAuth.Logs

open ZeroAuth.Js

/-! ## Entries -/

structure LogEntry where
  ts : JsString
  level : JsString
  message : JsString
  metadata : Option (List (JsString × JsVal))

/-- `REDACT_KEY_SUBSTRINGS`. -/
def redactKeySubstrings : List JsString :=
  [js "image", js "template", js "pixel", js "depth", js "frame", js "embedding"]

def redactMeta (cm : CaseMapping) (metadata : List (JsString × JsVal)) :
    List (JsString × JsVal) :=
  metadata.map fun (key, value) =>
    (key, if redactKeySubstrings.any fun part => includes (cm.toLowerCase key) part then
      .str (js "[redacted]") else value)

/-- The entry as it is buffered. -/
def buffered (cm : CaseMapping) (entry : LogEntry) : LogEntry :=
  { entry with metadata := some (redactMeta cm (entry.metadata.getD [])) }

/-! ## The buffer -/

structure LogRingBuffer (α : Type) where
  capacity : ℕ
  slots : List (Option α)
  head : ℕ
  count : ℕ
  length_slots : slots.length = capacity
  head_lt : head < capacity
  count_le : count ≤ capacity

namespace LogRingBuffer

variable {α : Type}

def empty (capacity : ℕ) (h : 1 ≤ capacity) : LogRingBuffer α where
  capacity := capacity
  slots := List.replicate capacity none
  head := 0
  count := 0
  length_slots := List.length_replicate
  head_lt := h
  count_le := Nat.zero_le _

/-- The constructor. -/
def create (capacity : ℤ) : Except JsString (LogRingBuffer α) :=
  if h : capacity < 1 then
    .error (js "LogRingBuffer capacity must be a positive integer; got " ++ js (toString capacity))
  else .ok (empty capacity.toNat (by omega))

def size (r : LogRingBuffer α) : ℕ := r.count

/-- The part of `push` before the subscribers are called. -/
def push (r : LogRingBuffer α) (a : α) : LogRingBuffer α where
  capacity := r.capacity
  slots := r.slots.set r.head (some a)
  head := (r.head + 1) % r.capacity
  count := if r.count < r.capacity then r.count + 1 else r.count
  length_slots := List.length_set.trans r.length_slots
  head_lt := Nat.mod_lt _ (Nat.zero_lt_of_lt r.head_lt)
  count_le := by
    have := r.count_le
    split <;> omega

/-- `undefined` for a slot that is not filled. -/
def slot (r : LogRingBuffer α) (i : ℕ) : Option α := (r.slots[i]?).join

def tail (r : LogRingBuffer α) (n : ℤ) : List (Option α) :=
  if n ≤ 0 ∨ r.count = 0 then []
  else
    let take := min n.toNat r.count
    let start := (r.head + r.capacity - r.count) % r.capacity
    let skip := r.count - take
    (List.range take).map fun i => r.slot ((start + skip + i) % r.capacity)

def clear (r : LogRingBuffer α) : LogRingBuffer α where
  capacity := r.capacity
  slots := r.slots.map fun _ => none
  head := 0
  count := 0
  length_slots := (List.length_map _).trans r.length_slots
  head_lt := Nat.zero_lt_of_lt r.head_lt
  count_le := Nat.zero_le _

/-! ## What it holds -/

/-- `xs` is what has been pushed since the last `clear`. -/
structure Holds (r : LogRingBuffer α) (xs : List α) : Prop where
  count : r.count = min r.capacity xs.length
  recent : ∀ j, j < r.count →
    r.slot ((r.head + r.capacity - 1 - j) % r.capacity) = xs.reverse[j]?

theorem holds_empty (capacity : ℕ) (h : 1 ≤ capacity) : (empty capacity h : LogRingBuffer α).Holds [] where
  count := (Nat.min_zero _).symm
  recent _ hj := absurd hj (Nat.not_lt_zero _)

variable {r : LogRingBuffer α} {xs : List α}

theorem holds_clear (r : LogRingBuffer α) : r.clear.Holds [] where
  count := (Nat.min_zero _).symm
  recent _ hj := absurd hj (Nat.not_lt_zero _)

theorem slot_push (r : LogRingBuffer α) (a : α) {i : ℕ} (hi : i < r.capacity) :
    (r.push a).slot i = if i = r.head then some a else r.slot i := by
  have hlen : i < r.slots.length := by rw [r.length_slots]; exact hi
  rw [slot, push, List.getElem?_set]
  split
  · next heq =>
      rw [if_pos heq.symm, if_pos (heq ▸ hlen)]
      rfl
  · next hne => rw [if_neg fun heq => hne heq.symm, slot]

/-- Stepping back from the slot after `head`. -/
theorem back_succ {head capacity j : ℕ} (hhead : head < capacity) (hj : j + 1 < capacity) :
    ((head + 1) % capacity + capacity - 1 - (j + 1)) % capacity =
      (head + capacity - 1 - j) % capacity := by
  by_cases hwrap : head + 1 < capacity
  · rw [Nat.mod_eq_of_lt hwrap]
    congr 1
    omega
  · -- `head` is the last slot, and its successor the first
    have hlast : head + 1 = capacity := by omega
    rw [hlast, Nat.mod_self]
    have hsplit : head + capacity - 1 - j = 0 + capacity - 1 - (j + 1) + capacity := by omega
    rw [hsplit, Nat.add_mod_right]

theorem back_zero {head capacity : ℕ} (hhead : head < capacity) :
    ((head + 1) % capacity + capacity - 1 - 0) % capacity = head := by
  by_cases hwrap : head + 1 < capacity
  · have hsplit : (head + 1) % capacity + capacity - 1 - 0 = head + capacity := by
      rw [Nat.mod_eq_of_lt hwrap]
      omega
    rw [hsplit, Nat.add_mod_right, Nat.mod_eq_of_lt hhead]
  · have hlast : head + 1 = capacity := by omega
    rw [hlast, Nat.mod_self, Nat.mod_eq_of_lt (by omega)]
    omega

/-- The slots of older entries are other slots than `head`. -/
theorem back_ne {head capacity j : ℕ} (hhead : head < capacity) (hj : j + 1 < capacity) :
    (head + capacity - 1 - j) % capacity ≠ head := by
  by_cases hlow : j < head
  · have hsplit : head + capacity - 1 - j = head - 1 - j + capacity := by omega
    rw [hsplit, Nat.add_mod_right, Nat.mod_eq_of_lt (by omega)]
    omega
  · rw [Nat.mod_eq_of_lt (by omega)]
    omega

theorem Holds.push (h : r.Holds xs) (a : α) : (r.push a).Holds (xs ++ [a]) := by
  have hcap : 0 < r.capacity := Nat.zero_lt_of_lt r.head_lt
  have hcount := h.count
  constructor
  · show (if r.count < r.capacity then r.count + 1 else r.count) = min r.capacity (xs ++ [a]).length
    rw [List.length_append, List.length_singleton]
    split <;> omega
  · intro j hj
    have hj' : j < if r.count < r.capacity then r.count + 1 else r.count := hj
    show (r.push a).slot (((r.head + 1) % r.capacity + r.capacity - 1 - j) % r.capacity) = _
    rw [slot_push r a (Nat.mod_lt _ hcap), List.reverse_append, List.reverse_singleton,
      List.singleton_append]
    cases j with
    | zero => rw [back_zero r.head_lt, if_pos rfl, List.getElem?_cons_zero]
    | succ j =>
        have hlt : j + 1 < r.capacity := by
          have := r.count_le
          split at hj' <;> omega
        rw [back_succ r.head_lt hlt, if_neg (back_ne r.head_lt hlt), List.getElem?_cons_succ]
        apply h.recent
        split at hj' <;> omega

theorem Holds.size (h : r.Holds xs) : r.size = min r.capacity xs.length := h.count

/-- Where `tail` looks for its `i`-th entry. -/
theorem tail_index {head capacity count take i : ℕ} (hcount : count ≤ capacity) (htake : take ≤ count) (hi : i < take) :
    ((head + capacity - count) % capacity + (count - take) + i) % capacity =
      (head + capacity - 1 - (take - 1 - i)) % capacity := by
  rw [Nat.add_assoc, Nat.mod_add_mod]
  congr 1
  omega

/-- The last `n` entries, oldest first. -/
theorem Holds.tail (h : r.Holds xs) (n : ℤ) :
    r.tail n = (xs.rtake (min n.toNat r.size)).map some := by
  have hcount := h.count
  have hle := r.count_le
  unfold LogRingBuffer.tail LogRingBuffer.size
  split
  · next hnone =>
      have hzero : min n.toNat r.count = 0 := by omega
      rw [hzero, List.rtake_zero]
      rfl
  · next hsome =>
      have htake : min n.toNat r.count ≤ r.count := Nat.min_le_right _ _
      have hlen : (xs.rtake (min n.toNat r.count)).length = min n.toNat r.count := by
        rw [List.rtake_eq_reverse_take_reverse, List.length_reverse, List.length_take,
          List.length_reverse]
        omega
      apply List.ext_getElem
      · simp only [List.length_map, List.length_range, hlen]
      · intro i hi hi'
        have hlt : i < min n.toNat r.count := by simpa using hi
        simp only [List.getElem_map, List.getElem_range]
        rw [tail_index hle htake hlt, h.recent _ (by omega)]
        have hrev : (xs.rtake (min n.toNat r.count))[i]? =
            xs.reverse[min n.toNat r.count - 1 - i]? := by
          rw [List.rtake_eq_reverse_take_reverse, List.getElem?_reverse]
          · rw [List.length_take, List.length_reverse, List.getElem?_take_of_lt (by omega)]
            congr 1
            omega
          · rw [List.length_take, List.length_reverse]
            omega
        rw [← hrev, List.getElem?_eq_getElem]

end LogRingBuffer

end ZeroAuth.Logs
