/-
  ZeroAuth.Lib.ItemQueue

  Values written to a queue of items and read off its front.

  `Reads r items a` says that the reader `r` takes exactly `items` off any queue that begins
  with them, and returns `a`.  Readers compose as the writers append.
-/

import Mathlib.Data.List.Basic

namespace ZeroAuth.Lib

/-- A reader fails, or takes items off the front. -/
abbrev Reader (ι α : Type) := StateT (List ι) Option α

variable {ι α β : Type}

/-- The first item, if it is one of the wanted kind. -/
def readItem (wanted : ι → Option α) : Reader ι α := fun items =>
  match items with
  | item :: rest => (wanted item).map fun a => (a, rest)
  | [] => none

def readFail : Reader ι α := fun _ => none

def readTimes (n : ℕ) (r : Reader ι α) : Reader ι (List α) :=
  match n with
  | 0 => pure []
  | n + 1 => do
      let a ← r
      let rest ← readTimes n r
      return a :: rest

/-- One reader after the other. -/
def readEach (r : β → Reader ι α) : List β → Reader ι (List α)
  | [] => pure []
  | b :: bs => do
      let a ← r b
      let rest ← readEach r bs
      return a :: rest

def Reads (r : Reader ι α) (items : List ι) (a : α) : Prop :=
  ∀ rest, r.run (items ++ rest) = some (a, rest)

namespace Reads

theorem pure (a : α) : Reads (Pure.pure a : Reader ι α) [] a := fun _ => rfl

theorem item {wanted : ι → Option α} {item : ι} {a : α} (h : wanted item = some a) :
    Reads (readItem wanted) [item] a := by
  intro rest
  show (wanted item).map _ = _
  rw [h]
  rfl

theorem bind {r : Reader ι α} {f : α → Reader ι β} {items more : List ι} {a : α} {b : β}
    (hr : Reads r items a) (hf : Reads (f a) more b) : Reads (r >>= f) (items ++ more) b := by
  intro rest
  show (r.run (items ++ more ++ rest)).bind (fun x => (f x.1).run x.2) = _
  rw [List.append_assoc, hr (more ++ rest)]
  exact hf rest

theorem map {r : Reader ι α} {items : List ι} {a : α} (hr : Reads r items a) (f : α → β) :
    Reads (r >>= fun x => Pure.pure (f x)) items (f a) := by
  have hbind : Reads (r >>= fun x => Pure.pure (f x)) (items ++ []) (f a) := hr.bind (pure (f a))
  rwa [List.append_nil] at hbind

/-- A list is read element by element. -/
theorem times {r : Reader ι α} {write : α → List ι} (hr : ∀ a, Reads r (write a) a) (as : List α) :
    Reads (readTimes as.length r) (as.flatMap write) as := by
  induction as with
  | nil => exact pure []
  | cons a as ih =>
      rw [List.flatMap_cons]
      exact (hr a).bind (ih.map (a :: ·))

theorem each {r : β → Reader ι α} {key : α → β} {write : α → List ι}
    (hr : ∀ a, Reads (r (key a)) (write a) a) (as : List α) :
    Reads (readEach r (as.map key)) (as.flatMap write) as := by
  induction as with
  | nil => exact pure []
  | cons a as ih =>
      rw [List.flatMap_cons]
      exact (hr a).bind (ih.map (a :: ·))

end Reads

end ZeroAuth.Lib
