/-
  ZeroAuth.Lib.Framing

  Packets on a byte stream.  A format is self-delimiting when a packet can be
  parsed off the front of any stream and no proper prefix of a packet parses; then
  a reader that keeps what it cannot parse yet finds the packets of the stream,
  however the stream was cut (`split_wire`).
-/

import Mathlib.Data.List.Basic

namespace ZeroAuth.Lib

structure Framing (β P : Type) where
  WellFormed : P → Prop
  build : P → List β
  parse : List β → Option (P × List β)
  parse_nil : parse [] = none
  build_ne_nil : ∀ p, build p ≠ []
  parse_build : ∀ {p}, WellFormed p → ∀ rest, parse (build p ++ rest) = some (p, rest)
  parse_prefix : ∀ {p pre suf}, WellFormed p → build p = pre ++ suf → suf ≠ [] → parse pre = none

namespace Framing

variable {β P : Type} (F : Framing β P)

/-- The bytes of a list of packets. -/
def wire (ps : List P) : List β := ps.flatMap F.build

/-- Parse packets off the front, at most `n` of them. -/
def split : ℕ → List β → List P × List β
  | 0, s => ([], s)
  | n + 1, s =>
      match F.parse s with
      | none => ([], s)
      | some (p, rest) => (p :: (split n rest).1, (split n rest).2)

@[simp] theorem wire_nil : F.wire [] = [] := rfl

@[simp] theorem wire_cons (p : P) (ps : List P) : F.wire (p :: ps) = F.build p ++ F.wire ps := rfl

theorem split_succ_of_none {s : List β} (h : F.parse s = none) (n : ℕ) :
    F.split (n + 1) s = ([], s) := by
  rw [split, h]

theorem split_succ_of_some {s rest : List β} {p : P} (h : F.parse s = some (p, rest)) (n : ℕ) :
    F.split (n + 1) s = (p :: (F.split n rest).1, (F.split n rest).2) := by
  rw [split, h]

/-- `tail` is where the stream of the packets `ps` was cut, inside its first packet. -/
def Within (ps : List P) (tail : List β) : Prop :=
  match ps with
  | [] => tail = []
  | p :: _ => ∃ suf, F.build p = tail ++ suf ∧ suf ≠ []

theorem split_of_within {ps : List P} (hwf : ∀ p ∈ ps, F.WellFormed p) {tail : List β}
    (h : F.Within ps tail) (n : ℕ) : F.split n tail = ([], tail) := by
  have hnone : F.parse tail = none := by
    cases ps with
    | nil =>
        rw [show tail = [] from h]
        exact F.parse_nil
    | cons p ps =>
        obtain ⟨suf, hbuild, hsuf⟩ := h
        exact F.parse_prefix (hwf p List.mem_cons_self) hbuild hsuf
  cases n with
  | zero => rfl
  | succ n => exact F.split_succ_of_none hnone n

/-- A stream that was cut somewhere: the packets before the cut are parsed, and what is
    left lies within the next one. -/
theorem split_wire {ps : List P} (hwf : ∀ p ∈ ps, F.WellFormed p) {s rest : List β} {n : ℕ}
    (h : s ++ rest = F.wire ps) (hn : s.length ≤ n) :
    ∃ found left tail, ps = found ++ left ∧ F.split n s = (found, tail) ∧
      tail ++ rest = F.wire left ∧ F.Within left tail := by
  induction ps generalizing s n with
  | nil =>
      obtain ⟨rfl, -⟩ := List.append_eq_nil_iff.mp h
      have hend : F.Within [] [] := rfl
      exact ⟨[], [], [], rfl, F.split_of_within (by simp) hend n, h, rfl⟩
  | cons p ps ih =>
      have hp := hwf p List.mem_cons_self
      rw [wire_cons] at h
      by_cases hcut : s.length < (F.build p).length
      · -- the cut lies within this packet
        obtain ⟨suf, hbuild⟩ : s <+: F.build p :=
          List.prefix_of_prefix_length_le ⟨rest, h⟩ ⟨_, rfl⟩ (Nat.le_of_lt hcut)
        have hsuf : suf ≠ [] := by
          rintro rfl
          rw [← hbuild, List.append_nil] at hcut
          omega
        have hwithin : F.Within (p :: ps) s := ⟨suf, hbuild.symm, hsuf⟩
        exact ⟨[], p :: ps, s, rfl, F.split_of_within hwf hwithin n, h, hwithin⟩
      · obtain ⟨s', rfl⟩ : F.build p <+: s :=
          List.prefix_of_prefix_length_le ⟨_, rfl⟩ ⟨rest, h⟩ (by omega)
        rw [List.append_assoc, List.append_cancel_left_eq] at h
        have hpos : 0 < (F.build p).length := List.length_pos_of_ne_nil (F.build_ne_nil p)
        rw [List.length_append] at hn
        obtain ⟨m, rfl⟩ : ∃ m, n = m + 1 := ⟨n - 1, by omega⟩
        obtain ⟨found, left, tail, rfl, hsplit, hrest, hwithin⟩ :=
          ih (fun q hq => hwf q (List.mem_cons_of_mem _ hq)) h (n := m) (by omega)
        refine ⟨p :: found, left, tail, rfl, ?_, hrest, hwithin⟩
        rw [F.split_succ_of_some (F.parse_build hp s'), hsplit]

end Framing

end ZeroAuth.Lib
