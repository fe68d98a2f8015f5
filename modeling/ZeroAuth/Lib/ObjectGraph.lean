/-
  ZeroAuth.Lib.ObjectGraph

  A heap of objects whose slots hold primitive values or references to objects, possibly in
  cycles, and the paths of keys through it.

  Allocation adds objects and changes none: what a path finds stays the same
  (`follow_alloc`).
-/

import Mathlib.Data.List.Nodup

namespace ZeroAuth.Lib

variable {κ π : Type} [DecidableEq κ]

inductive Slot (π : Type)
  | prim (p : π)
  | ref (a : ℕ)
  deriving DecidableEq

/-- The slot is no reference past the heap. -/
def Slot.Below (n : ℕ) : Slot π → Prop
  | prim _ => True
  | ref a => a < n

instance (n : ℕ) : (v : Slot π) → Decidable (v.Below n)
  | .prim _ => isTrue trivial
  | .ref a => inferInstanceAs (Decidable (a < n))

theorem Slot.Below.mono {n m : ℕ} (hnm : n ≤ m) : ∀ {v : Slot π}, v.Below n → v.Below m
  | prim _, _ => trivial
  | ref _, h => Nat.lt_of_lt_of_le h hnm

/-- An object: its own keys, each once, with their slots. -/
structure Node (κ π : Type) where
  entries : List (κ × Slot π)
  nodup : (entries.map Prod.fst).Nodup

namespace Node

def empty : Node κ π := ⟨[], List.nodup_nil⟩

def get (node : Node κ π) (k : κ) : Option (Slot π) := node.entries.lookup k

def Below (n : ℕ) (node : Node κ π) : Prop := ∀ e ∈ node.entries, e.2.Below n

instance (n : ℕ) (node : Node κ π) : Decidable (node.Below n) :=
  inferInstanceAs (Decidable (∀ e ∈ node.entries, e.2.Below n))

omit [DecidableEq κ] in
theorem Below.mono {n m : ℕ} (hnm : n ≤ m) {node : Node κ π} (h : node.Below n) : node.Below m :=
  fun e he => (h e he).mono hnm

theorem get_mem {node : Node κ π} {k : κ} {v : Slot π} (h : node.get k = some v) :
    (k, v) ∈ node.entries := by
  obtain ⟨l, l', hentries, -⟩ := List.lookup_eq_some_iff.mp h
  rw [hentries]
  exact List.mem_append_right _ List.mem_cons_self

theorem Below.get {n : ℕ} {node : Node κ π} (h : node.Below n) {k : κ} {v : Slot π}
    (hv : node.get k = some v) : v.Below n := h _ (get_mem hv)

end Node

/-! ## Entries of a derived object -/

/-- The keys are filtered. -/
theorem lookup_filter (p : κ → Bool) (k : κ) (entries : List (κ × Slot π)) :
    (entries.filter fun e => p e.1).lookup k = if p k then entries.lookup k else none := by
  induction entries with
  | nil => simp
  | cons e entries ih =>
    by_cases he : k = e.1
    · subst he
      rw [List.lookup_cons, beq_self_eq_true, List.filter_cons]
      by_cases hp : p e.1
      · rw [if_pos hp, if_pos hp, List.lookup_cons, beq_self_eq_true]
      · rw [if_neg hp, if_neg hp, ih, if_neg hp]
    · have hne : (k == e.1) = false := beq_eq_false_iff_ne.mpr he
      rw [List.lookup_cons, hne, List.filter_cons]
      by_cases hp : p e.1
      · rw [if_pos hp, List.lookup_cons, hne]
        exact ih
      · rw [if_neg hp]
        exact ih

/-- The slots are replaced according to their keys. -/
theorem lookup_map (f : κ → Slot π → Slot π) (k : κ) (entries : List (κ × Slot π)) :
    (entries.map fun e => (e.1, f e.1 e.2)).lookup k = (entries.lookup k).map (f k) := by
  induction entries with
  | nil => rfl
  | cons e entries ih =>
    rw [List.map_cons, List.lookup_cons, List.lookup_cons]
    by_cases he : k = e.1
    · subst he
      simp
    · rw [beq_eq_false_iff_ne.mpr he]
      exact ih


/-- The address of an object is its place in the list. -/
structure ObjectHeap (κ π : Type) where
  nodes : List (Node κ π)
  closed : ∀ node ∈ nodes, node.Below nodes.length

namespace ObjectHeap

variable {heap heap' : ObjectHeap κ π}

/-- The object at an address; there is none past the end. -/
def object (heap : ObjectHeap κ π) (a : ℕ) : Node κ π := (heap.nodes[a]?).getD .empty

omit [DecidableEq κ] in
theorem below_object (heap : ObjectHeap κ π) (a : ℕ) : (heap.object a).Below heap.nodes.length := by
  unfold object
  cases hnode : heap.nodes[a]? with
  | none => nofun
  | some node => exact heap.closed node (List.mem_of_getElem? hnode)

/-- A new object, whose address is the old number of objects. -/
def alloc (heap : ObjectHeap κ π) (node : Node κ π) (h : node.Below heap.nodes.length) :
    ObjectHeap κ π where
  nodes := heap.nodes ++ [node]
  closed n hn := by
    rw [List.length_append]
    rcases List.mem_append.mp hn with hn | hn
    · exact (heap.closed n hn).mono (Nat.le_add_right _ _)
    · rw [List.mem_singleton.mp hn]
      exact h.mono (Nat.le_add_right _ _)

/-- The slot at the end of a path of keys. -/
def follow (heap : ObjectHeap κ π) : Slot π → List κ → Option (Slot π)
  | v, [] => some v
  | .prim _, _ :: _ => none
  | .ref a, k :: path => do
      let node ← heap.nodes[a]?
      let v ← node.get k
      heap.follow v path

@[simp] theorem follow_nil (v : Slot π) : heap.follow v [] = some v := by
  unfold follow
  rfl

theorem follow_object (a : ℕ) (k : κ) (path : List κ) :
    heap.follow (.ref a) (k :: path) = ((heap.object a).get k).bind fun v => heap.follow v path := by
  rw [follow, object]
  cases heap.nodes[a]? <;> rfl

/-- Objects have been added, and none has been changed. -/
def Extends (heap heap' : ObjectHeap κ π) : Prop := heap.nodes <+: heap'.nodes

omit [DecidableEq κ] in
theorem Extends.get {a : ℕ} {node : Node κ π} (h : heap.Extends heap')
    (hnode : heap.nodes[a]? = some node) : heap'.nodes[a]? = some node := by
  obtain ⟨added, hnodes⟩ := h
  have ha : a < heap.nodes.length := (List.getElem?_eq_some_iff.mp hnode).1
  rw [← hnodes, List.getElem?_append_left ha]
  exact hnode

omit [DecidableEq κ] in
theorem Extends.object {a : ℕ} (h : heap.Extends heap') (ha : a < heap.nodes.length) :
    heap'.object a = heap.object a := by
  unfold ObjectHeap.object
  rw [h.get (List.getElem?_eq_getElem ha), List.getElem?_eq_getElem ha]

omit [DecidableEq κ] in
theorem extends_alloc (heap : ObjectHeap κ π) (node : Node κ π)
    (h : node.Below heap.nodes.length) : heap.Extends (heap.alloc node h) :=
  List.prefix_append _ _

omit [DecidableEq κ] in
theorem object_alloc (heap : ObjectHeap κ π) (node : Node κ π)
    (h : node.Below heap.nodes.length) : (heap.alloc node h).object heap.nodes.length = node := by
  unfold object alloc
  rw [List.getElem?_concat_length]
  rfl

/-- Old paths find what they found. -/
theorem Extends.follow (h : heap.Extends heap') (path : List κ) :
    ∀ v : Slot π, v.Below heap.nodes.length → heap'.follow v path = heap.follow v path := by
  induction path with
  | nil =>
    intro v _
    rw [follow_nil, follow_nil]
  | cons k path ih =>
    intro v hv
    cases v with
    | prim p => rfl
    | ref a =>
      rw [follow_object, follow_object, h.object hv]
      cases hget : (heap.object a).get k with
      | none => rfl
      | some w => exact ih w ((heap.below_object a).get hget)

end ObjectHeap

end ZeroAuth.Lib
