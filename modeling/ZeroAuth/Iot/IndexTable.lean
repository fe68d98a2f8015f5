/-
  ZeroAuth.Iot.IndexTable

  `readIndexTable` of the R307 driver (iot/src/sensor.ts): the slots of the sensor that hold
  a template, one page of 256 bits for each `READ_INDEX_TABLE` command.

  Every bit of every page is decoded, in order.  Nothing stops at the size of the library, so
  the bits of the last page past it are listed too (`readIndexTable_exact`).
-/

import ZeroAuth.Iot.Commands
import ZeroAuth.Lib.Scan

namespace ZeroAuth.Iot

open ZeroAuth.Js ZeroAuth.Lib

/-! ## The loops -/

/-- The 32 bytes of a page. -/
abbrev Page := Vector UInt8 32

/-- `Math.ceil(librarySize / 256)`. -/
def pageCount (librarySize : ℕ) : ℕ := (librarySize + 255) / 256

/-- The loop over the bits of a byte. -/
def pushBits (slots : List ℕ) (page byteIdx byte : ℕ) : List ℕ :=
  (List.range 8).foldl
    (fun slots bitIdx =>
      if (byte >>> bitIdx) &&& 1 ≠ 0 then slots ++ [page * 256 + byteIdx * 8 + bitIdx]
      else slots)
    slots

/-- The loop over the bytes of a page. -/
def pushBytes (slots : List ℕ) (page : ℕ) (bitmap : List UInt8) : List ℕ :=
  (List.range bitmap.length).foldl
    (fun slots byteIdx => pushBits slots page byteIdx (bitmap.getD byteIdx 0).toNat) slots

/-- The bitmap in an answer. -/
def pageBitmap (page : ℕ) (ack : List UInt8) : Except CommandError (List UInt8) := do
  Command.confirm (js "read_index_table page=" ++ numText 10 page) ack
  return ack.drop 1

/-- `cmd k command` is how the `k`-th `cmd` ends. -/
def readIndexTable (cmd : ℕ → Command → Except CommandError (List UInt8)) (librarySize : ℕ) :
    Except CommandError (List ℕ) :=
  (List.range (pageCount librarySize)).foldlM
    (fun slots page => do
      let ack ← cmd page (.readIndexPage (UInt8.ofNat page))
      let bitmap ← pageBitmap page ack
      return pushBytes slots page bitmap)
    []

/-- A turn of the loop reads what the command reads. -/
theorem result_readIndexPage (page : UInt8) (ack : List UInt8) :
    (Command.readIndexPage page).result ack = (pageBitmap page.toNat ack).map .bitmap := by
  show (Command.confirm _ ack >>= fun _ => _) = (Command.confirm _ ack >>= fun _ => _).map _
  cases Command.confirm (js "read_index_table page=" ++ numText 10 page.toNat) ack <;> rfl

/-! ## The bits -/

/-- The bit of slot `s`. -/
def slotBit (pages : ℕ → Page) (s : ℕ) : Bool :=
  ((pages (s / 256)).toList.getD (s % 256 / 8) 0).toNat.testBit (s % 8)

theorem pushBits_eq (slots : List ℕ) (page byteIdx byte : ℕ) :
    pushBits slots page byteIdx byte =
      slots ++ (scan 8 byte.testBit).map (page * 256 + byteIdx * 8 + ·) := by
  rw [← foldl_push]
  unfold pushBits
  congr 1
  funext slots bitIdx
  have hbit : (byte >>> bitIdx) &&& 1 ≠ 0 ↔ byte.testBit bitIdx = true := by
    unfold Nat.testBit
    rw [Nat.and_comm, bne_iff_ne]
  by_cases h : byte.testBit bitIdx
  · rw [if_pos h, if_pos (hbit.mpr h)]
  · rw [if_neg h, if_neg (hbit.not.mpr h)]

/-- A page pushes its set bits in order. -/
theorem pushBytes_eq (slots : List ℕ) (page : ℕ) (bytes : Page) :
    pushBytes slots page bytes.toList =
      slots ++ (scan 256 fun i => (bytes.toList.getD (i / 8) 0).toNat.testBit (i % 8)).map
        (page * 256 + ·) := by
  unfold pushBytes
  have hpush : (fun slots byteIdx =>
      pushBits slots page byteIdx (bytes.toList.getD byteIdx 0).toNat) =
      fun slots byteIdx => slots ++
        (scan 8 (bytes.toList.getD byteIdx 0).toNat.testBit).map
          (page * 256 + byteIdx * 8 + ·) := by
    funext slots byteIdx
    exact pushBits_eq slots page byteIdx _
  have htile := scan_mul 32 8 fun i => (bytes.toList.getD (i / 8) 0).toNat.testBit (i % 8)
  rw [hpush, List.foldl_append_eq_append, Vector.length_toList, htile, List.map_flatMap]
  refine congrArg (slots ++ ·) (List.flatMap_congr fun byteIdx _ => ?_)
  -- byte `byteIdx` holds the bits from `byteIdx * 8` on
  have hbits : scan 8 (fun j => (bytes.toList.getD ((byteIdx * 8 + j) / 8) 0).toNat.testBit
      ((byteIdx * 8 + j) % 8)) = scan 8 (bytes.toList.getD byteIdx 0).toNat.testBit := by
    apply List.filter_congr
    intro j hj
    have hj : j < 8 := List.mem_range.mp hj
    rw [show (byteIdx * 8 + j) / 8 = byteIdx by omega, show (byteIdx * 8 + j) % 8 = j by omega]
  rw [hbits, List.map_map]
  apply List.map_congr_left
  intro j _
  exact Nat.add_assoc _ _ _

/-- The bits of one page. -/
theorem slotBit_page (pages : ℕ → Page) (page : ℕ) :
    (scan 256 fun i => slotBit pages (page * 256 + i)) =
      scan 256 fun i => ((pages page).toList.getD (i / 8) 0).toNat.testBit (i % 8) := by
  apply List.filter_congr
  intro i hi
  have hi : i < 256 := List.mem_range.mp hi
  unfold slotBit
  rw [show (page * 256 + i) / 256 = page by omega, show (page * 256 + i) % 256 = i by omega,
    show (page * 256 + i) % 8 = i % 8 by omega]

/-- The answers of a sensor whose pages are `pages`. -/
def Answers (cmd : ℕ → Command → Except CommandError (List UInt8)) (librarySize : ℕ)
    (pages : ℕ → Page) : Prop :=
  ∀ page < pageCount librarySize,
    cmd page (.readIndexPage (UInt8.ofNat page)) = .ok (UInt8.ofNat CONF.ok :: (pages page).toList)

/-- An OK byte is confirmed. -/
theorem pageBitmap_ok (page : ℕ) (bitmap : List UInt8) :
    pageBitmap page (UInt8.ofNat CONF.ok :: bitmap) = .ok bitmap := by
  have hread : Command.read 1 (UInt8.ofNat CONF.ok :: bitmap) 0 = .ok CONF.ok := by
    unfold Command.read
    rw [if_neg (by rw [List.length_cons]; omega)]
    rfl
  unfold pageBitmap Command.confirm
  rw [hread]
  rfl

theorem ok_bind {ε α β : Type} (a : α) (f : α → Except ε β) : (Except.ok a >>= f) = f a := rfl

/-- All set bits of the pages are listed, past the size of the library too. -/
theorem readIndexTable_eq {cmd : ℕ → Command → Except CommandError (List UInt8)}
    {librarySize : ℕ} {pages : ℕ → Page} (h : Answers cmd librarySize pages) :
    readIndexTable cmd librarySize = .ok (scan (pageCount librarySize * 256) (slotBit pages)) := by
  unfold Answers at h
  unfold readIndexTable
  generalize pageCount librarySize = n at h ⊢
  -- by induction on the number of pages read
  induction n with
  | zero => rfl
  | succ page ih =>
    have hturn : (do
          let ack ← cmd page (.readIndexPage (UInt8.ofNat page))
          let bitmap ← pageBitmap page ack
          return pushBytes (scan (page * 256) (slotBit pages)) page bitmap) =
        Except.ok (scan ((page + 1) * 256) (slotBit pages)) := by
      rw [h page (Nat.lt_succ_self page), ok_bind, pageBitmap_ok, ok_bind, pushBytes_eq,
        Nat.succ_mul, scan_add, slotBit_page]
      rfl
    rw [List.range_succ, List.foldlM_append, ih fun k hk => h k (Nat.lt_succ_of_lt hk), ok_bind,
      List.foldlM_cons, hturn, ok_bind]
    rfl

/-! ## The list is cut at the page -/

theorem le_pageCount (librarySize : ℕ) : librarySize ≤ pageCount librarySize * 256 := by
  unfold pageCount
  omega

/-- The strictly increasing list of the slots below `librarySize` whose bit is set. -/
structure ExactSlots (librarySize : ℕ) (pages : ℕ → Page) (slots : List ℕ) : Prop where
  increasing : slots.Pairwise (· < ·)
  mem : ∀ s, s ∈ slots ↔ s < librarySize ∧ slotBit pages s = true

theorem exactSlots_scan (librarySize : ℕ) (pages : ℕ → Page) :
    ExactSlots librarySize pages (scan librarySize (slotBit pages)) :=
  ⟨scan_increasing _ _, fun _ => mem_scan⟩

theorem ExactSlots.eq_scan {librarySize : ℕ} {pages : ℕ → Page} {slots : List ℕ}
    (h : ExactSlots librarySize pages slots) : slots = scan librarySize (slotBit pages) :=
  eq_of_increasing h.increasing (scan_increasing _ _) fun s => (h.mem s).trans mem_scan.symm

/-- `readIndexTable` returns exactly the set slots of the library when no bit of the last page
    past the library is set, and otherwise it does not. -/
theorem readIndexTable_exact (cmd : ℕ → Command → Except CommandError (List UInt8))
    (librarySize : ℕ) (pages : ℕ → Page) (h : Answers cmd librarySize pages) :
    (∃ slots, readIndexTable cmd librarySize = .ok slots ∧
        ExactSlots librarySize pages slots) ↔
      ∀ s, librarySize ≤ s → s < pageCount librarySize * 256 → slotBit pages s = false := by
  rw [readIndexTable_eq h, ← scan_eq_scan_iff (le_pageCount librarySize)]
  constructor
  · rintro ⟨slots, heq, hexact⟩
    cases heq
    exact hexact.eq_scan
  · intro heq
    exact ⟨_, rfl, heq ▸ exactSlots_scan librarySize pages⟩

/-! ## A sensor -/

/-- A sensor that answers `READ_INDEX_TABLE` with the page asked for. -/
def tableSensor (pages : ℕ → Page) (_turn : ℕ) : Command → Except CommandError (List UInt8)
  | .readIndexPage page => .ok (UInt8.ofNat CONF.ok :: (pages page.toNat).toList)
  | _ => .error (.sensor (.timeout 3000))

/-- The page is one byte of the command. -/
theorem answers_tableSensor {librarySize : ℕ} (h : pageCount librarySize ≤ 256)
    (pages : ℕ → Page) : Answers (tableSensor pages) librarySize pages := by
  intro page hpage
  have hbyte : (UInt8.ofNat page).toNat = page := UInt8.toNat_ofNat_of_lt (by
    show page < 256
    omega)
  show Except.ok (_ :: (pages (UInt8.ofNat page).toNat).toList) = _
  rw [hbyte]

/-- One page with one byte that is not zero. -/
def oneByte (page byteIdx : ℕ) (byte : UInt8) (k : ℕ) : Page :=
  Vector.ofFn fun i => if k = page ∧ i.val = byteIdx then byte else 0

theorem slotBit_oneByte (page byteIdx : ℕ) (byte : UInt8) (s : ℕ) :
    slotBit (oneByte page byteIdx byte) s =
      (decide (s / 256 = page ∧ s % 256 / 8 = byteIdx) && byte.toNat.testBit (s % 8)) := by
  have hs : s % 256 / 8 < 32 := by omega
  have hbyte : (oneByte page byteIdx byte (s / 256)).toList.getD (s % 256 / 8) 0 =
      if s / 256 = page ∧ s % 256 / 8 = byteIdx then byte else 0 := by
    unfold oneByte
    simp [hs]
  unfold slotBit
  rw [hbyte]
  split
  next h => simp [h]
  next h => simp [h]

/-- The slots 0 and 2 of a library of 1000. -/
theorem readIndexTable_two :
    ∃ slots, readIndexTable (tableSensor (oneByte 0 0 5)) 1000 = .ok slots ∧
      ExactSlots 1000 (oneByte 0 0 5) slots :=
  (readIndexTable_exact _ _ _ (answers_tableSensor (by decide) _)).mpr fun s hs _ => by
    rw [slotBit_oneByte, decide_eq_false (by omega), Bool.false_and]

/-- The bit after the last slot of a library of 1000 is listed as slot 1000. -/
theorem readIndexTable_past :
    ¬ ∀ (cmd : ℕ → Command → Except CommandError (List UInt8)) (librarySize : ℕ)
        (pages : ℕ → Page), Answers cmd librarySize pages →
      ∃ slots, readIndexTable cmd librarySize = .ok slots ∧
        ExactSlots librarySize pages slots := by
  intro h
  have hanswers := @answers_tableSensor 1000 (by decide) (oneByte 3 29 1)
  obtain ⟨slots, heq, hexact⟩ := h _ _ _ hanswers
  rw [readIndexTable_eq hanswers] at heq
  have hbit : slotBit (oneByte 3 29 1) 1000 = true := by
    rw [slotBit_oneByte]
    decide
  have hslot : 1000 ∈ slots := by
    rw [← Except.ok.inj heq]
    exact mem_scan.mpr ⟨by decide, hbit⟩
  exact absurd ((hexact.mem 1000).mp hslot).1 (by decide)

end ZeroAuth.Iot
