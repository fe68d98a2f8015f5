/-
  ZeroAuth.Iot.Resync

  `tryParsePacket` (iot/src/sensor.ts) on any bytes. It skips what stands before the first
  header, waits for the rest of the packet, and reads the fields off that packet; the two
  checksum bytes are never looked at (the comment above the return says so).
-/

import ZeroAuth.Iot.Packet
import Mathlib.Data.List.Infix

namespace ZeroAuth.Iot

open ZeroAuth.Lib

/-! ## The header search -/

/-- The two header bytes stand nowhere in `buf`. -/
def NoHeader (buf : List UInt8) : Prop := ¬ [0xef, 0x01] <:+: buf

theorem readUIntBE_pair (a b : UInt8) :
    readUIntBE 2 [a, b] 0 = packetHeader ↔ a = 0xef ∧ b = 0x01 := by
  have hread : readUIntBE 2 [a, b] 0 = a.toNat * 256 + b.toNat := by
    show shiftIn (shiftIn 0 a) b = _
    rw [shiftIn_eq, shiftIn_eq, Nat.zero_mul, Nat.zero_add]
  have ha := a.toNat_lt
  have hb := b.toNat_lt
  rw [hread, packetHeader, ← UInt8.toNat_inj, ← UInt8.toNat_inj]
  show _ ↔ a.toNat = 0xef ∧ b.toNat = 0x01
  omega

theorem NoHeader.tail {a : UInt8} {buf : List UInt8} (h : NoHeader (a :: buf)) : NoHeader buf :=
  fun hin => h (hin.trans (List.suffix_cons a buf).isInfix)

theorem NoHeader.head_ne {a b : UInt8} {buf : List UInt8} (h : NoHeader (a :: b :: buf)) :
    readUIntBE 2 [a, b] 0 ≠ packetHeader := by
  intro hread
  obtain ⟨rfl, rfl⟩ := (readUIntBE_pair a b).mp hread
  exact h ⟨[], buf, rfl⟩

/-- A header byte that follows `g` makes no header with `g`'s last byte. -/
theorem NoHeader.joint {g : List UInt8} (h : NoHeader g) : NoHeader (g ++ [0xef]) := by
  induction g with
  | nil =>
      intro hin
      have hlength := hin.length_le
      simp at hlength
  | cons a g ih =>
      intro hin
      rcases List.infix_cons_iff.mp hin with hhead | hrest
      · match g, h with
        | [], _ =>
            -- the byte after `a` is 0xef, not 0x01
            obtain ⟨t, ht⟩ := hhead
            have hsecond := (List.cons.inj (List.cons.inj ht).2).1
            exact absurd hsecond (by decide)
        | b :: g, h =>
            obtain ⟨t, ht⟩ := hhead
            obtain ⟨rfl, hrest⟩ := List.cons.inj ht
            obtain ⟨rfl, -⟩ := List.cons.inj hrest
            exact h ⟨[], g, rfl⟩
      · exact ih h.tail hrest

/-- Without a header the search stops at the last byte. -/
theorem headerOffset_of_noHeader {buf : List UInt8} (h : NoHeader buf) :
    headerOffset buf = buf.length - 1 := by
  induction buf with
  | nil => rfl
  | cons a buf ih =>
      match buf, ih, h with
      | [], _, _ => rfl
      | b :: buf, ih, h =>
          rw [headerOffset, if_neg h.head_ne, ih h.tail]
          simp only [List.length_cons]
          omega

/-- The search passes over bytes that hold no header, also not with the byte after them. -/
theorem headerOffset_append {g : List UInt8} {b : UInt8} (h : NoHeader (g ++ [b]))
    (buf : List UInt8) : headerOffset (g ++ b :: buf) = g.length + headerOffset (b :: buf) := by
  induction g with
  | nil => exact (Nat.zero_add _).symm
  | cons a g ih =>
      have htail : headerOffset (g ++ b :: buf) = g.length + headerOffset (b :: buf) := ih h.tail
      match g, h, htail with
      | [], h, htail =>
          rw [List.singleton_append, headerOffset, if_neg h.head_ne, List.length_singleton]
          omega
      | c :: g, h, htail =>
          rw [List.cons_append, List.cons_append, headerOffset, if_neg h.head_ne, ← List.cons_append,
            htail]
          simp only [List.length_cons]
          omega

/-- Where the search stops before the last byte there is a header, the first one. -/
theorem header_of_headerOffset {buf : List UInt8} (h : headerOffset buf + 1 < buf.length) :
    ∃ g rest, buf = g ++ 0xef :: 0x01 :: rest ∧ NoHeader g ∧ headerOffset buf = g.length := by
  induction buf with
  | nil => exact absurd h (Nat.not_lt_zero _)
  | cons a buf ih =>
      match buf, ih, h with
      | [], _, h => exact absurd h (by show ¬ 0 + 1 < 1; omega)
      | b :: buf, ih, h =>
          by_cases hread : readUIntBE 2 [a, b] 0 = packetHeader
          · obtain ⟨rfl, rfl⟩ := (readUIntBE_pair a b).mp hread
            have hempty : NoHeader [] := fun hin => absurd (List.infix_nil.mp hin) (List.cons_ne_nil _ _)
            have hzero : headerOffset (0xef :: 0x01 :: buf) = 0 := if_pos hread
            exact ⟨[], buf, rfl, hempty, hzero⟩
          · rw [headerOffset, if_neg hread] at h ⊢
            obtain ⟨g, rest, hbuf, hg, hoffset⟩ := ih (by simp only [List.length_cons] at h ⊢; omega)
            refine ⟨a :: g, rest, by rw [hbuf, List.cons_append], fun hin => ?_, by rw [hoffset]; rfl⟩
            -- a header at the front of `a :: g` would be the pair that was just read
            rcases List.infix_cons_iff.mp hin with ⟨t, ht⟩ | hin
            · obtain ⟨rfl, rfl⟩ := List.cons.inj ht
              change b :: buf = 0x01 :: (t ++ 0xef :: 0x01 :: rest) at hbuf
              obtain ⟨rfl, -⟩ := List.cons.inj hbuf
              exact hread ((readUIntBE_pair _ _).mpr ⟨rfl, rfl⟩)
            · exact hg hin

/-! ## Frames -/

/-- The number that the bytes stand for. -/
def bytesNat (bytes : List UInt8) : ℕ := bytes.foldl shiftIn 0

theorem bytesNat_bigEndian {k n : ℕ} (h : n < 256 ^ k) : bytesNat (bigEndian k n) = n := by
  rw [bytesNat, foldl_shiftIn_bigEndian, Nat.zero_mul, Nat.zero_add, Nat.mod_eq_of_lt h]

theorem readUIntBE_middle {k i : ℕ} (pre mid post : List UInt8) (hi : i = pre.length)
    (hk : k = mid.length) : readUIntBE k (pre ++ (mid ++ post)) i = bytesNat mid := by
  rw [readUIntBE, hi, hk, List.drop_left, List.take_left, bytesNat]

/-- A header with any fields behind it, and a body as long as the length field says. -/
structure Frame where
  address : List UInt8
  pid : UInt8
  length : List UInt8
  body : List UInt8
  length_address : address.length = 4
  length_length : length.length = 2
  length_body : body.length = bytesNat length

namespace Frame

variable (f : Frame)

/-- The bytes up to the body. -/
def head : List UInt8 := 0xef :: 0x01 :: (f.address ++ f.pid :: f.length)

def bytes : List UInt8 := f.head ++ f.body

/-- What the parser reads off a frame: the last two bytes of the body are left out. -/
def packet : ParsedPacket := ⟨bytesNat f.address, f.pid.toNat, f.body.take (f.body.length - 2)⟩

@[simp] theorem length_head : f.head.length = 9 := by
  simp [head, f.length_address, f.length_length]

@[simp] theorem length_bytes : f.bytes.length = 9 + f.body.length := by
  rw [bytes, List.length_append, length_head]

/-- Behind bytes without a header the search stops at the frame. -/
theorem headerOffset_head {g : List UInt8} (hg : NoHeader g) (post : List UInt8) :
    headerOffset (g ++ (f.head ++ post)) = g.length := by
  show headerOffset (g ++ 0xef :: 0x01 :: (f.address ++ f.pid :: f.length ++ post)) = _
  rw [headerOffset_append hg.joint, headerOffset, if_pos (by decide)]
  rfl

/-- The fields at their offsets. -/
theorem read_head (g post : List UInt8) :
    readUIntBE 4 (g ++ (f.head ++ post)) (g.length + 2) = bytesNat f.address ∧
    readUIntBE 1 (g ++ (f.head ++ post)) (g.length + 6) = f.pid.toNat ∧
    readUIntBE 2 (g ++ (f.head ++ post)) (g.length + 7) = bytesNat f.length := by
  have hpid : bytesNat [f.pid] = f.pid.toNat := by
    show shiftIn 0 f.pid = _
    rw [shiftIn_eq, Nat.zero_mul, Nat.zero_add]
  have haddress : g ++ (f.head ++ post) =
      (g ++ [0xef, 0x01]) ++ (f.address ++ ([f.pid] ++ (f.length ++ post))) := by simp [head]
  have hsecond : g ++ (f.head ++ post) =
      (g ++ [0xef, 0x01] ++ f.address) ++ ([f.pid] ++ (f.length ++ post)) := by simp [head]
  have hthird : g ++ (f.head ++ post) =
      (g ++ [0xef, 0x01] ++ f.address ++ [f.pid]) ++ (f.length ++ post) := by simp [head]
  refine ⟨?_, ?_, ?_⟩
  · rw [haddress]
    exact readUIntBE_middle _ _ _ (by simp) f.length_address.symm
  · rw [hsecond, ← hpid]
    exact readUIntBE_middle _ _ _ (by simp [f.length_address]) rfl
  · rw [hthird]
    exact readUIntBE_middle _ _ _ (by simp [f.length_address]) f.length_length.symm

end Frame

/-! ## What is parsed -/

/-- A frame is read off wherever it stands first. -/
theorem tryParsePacket_frame (f : Frame) {g : List UInt8} (hg : NoHeader g) (r : List UInt8) :
    tryParsePacket (g ++ (f.bytes ++ r)) 0 = some ⟨f.packet, g.length + f.bytes.length⟩ := by
  have hbuf : g ++ (f.bytes ++ r) = g ++ (f.head ++ (f.body ++ r)) := by
    rw [Frame.bytes, List.append_assoc]
  obtain ⟨haddress, hpid, hlength⟩ := f.read_head g (f.body ++ r)
  have hoffset := f.headerOffset_head hg (f.body ++ r)
  have hsize : (g ++ (f.head ++ (f.body ++ r))).length = g.length + (9 + (f.body.length + r.length)) := by
    rw [List.length_append, List.length_append, List.length_append, f.length_head]
  have hpayload : ((g ++ (f.head ++ (f.body ++ r))).drop (g.length + 9)).take (bytesNat f.length - 2) =
      f.body.take (f.body.length - 2) := by
    have hdrop : (g ++ (f.head ++ (f.body ++ r))).drop (g.length + 9) = f.body ++ r := by
      rw [← f.length_head, ← List.length_append, ← List.append_assoc, List.drop_left]
    rw [hdrop, ← f.length_body, List.take_append_of_le_length (by omega)]
  rw [hbuf, tryParsePacket]
  simp only [List.drop_zero, Nat.zero_add, hoffset, hlength, haddress, hpid, hpayload]
  rw [if_neg (by omega), if_neg (by rw [hsize, ← f.length_body]; omega), f.length_bytes, Frame.packet,
    f.length_body]

/-- Nothing is read before the last byte of the frame has arrived. -/
theorem tryParsePacket_frame_cut (f : Frame) {g pre suf : List UInt8} (hg : NoHeader g)
    (hcut : g ++ f.bytes = pre ++ suf) (hsuf : suf ≠ []) : tryParsePacket pre 0 = none := by
  have hlt : pre.length < g.length + (9 + f.body.length) := by
    have hlength := congrArg List.length hcut
    rw [List.length_append, List.length_append, f.length_bytes] at hlength
    have hpos := List.length_pos_of_ne_nil hsuf
    omega
  have hpre : pre <+: g ++ f.bytes := ⟨suf, hcut.symm⟩
  by_cases hshort : pre.length < g.length + 9
  · rw [tryParsePacket]
    simp only [List.drop_zero, Nat.zero_add]
    by_cases hfirst : pre.length ≤ g.length + 1
    · -- the second header byte is not there yet
      have hjoint : pre <+: g ++ [0xef] :=
        List.prefix_of_prefix_length_le hpre ⟨f.bytes.tail, by simp [Frame.bytes, Frame.head]⟩
          (by simpa using hfirst)
      have hno : NoHeader pre := fun hin => hg.joint (hin.trans hjoint.isInfix)
      rw [if_pos (by rw [headerOffset_of_noHeader hno]; omega)]
    · obtain ⟨t, rfl⟩ : g ++ [0xef, 0x01] <+: pre :=
        List.prefix_of_prefix_length_le ⟨f.bytes.tail.tail, by simp [Frame.bytes, Frame.head]⟩ hpre
          (by simp; omega)
      have hoffset : headerOffset (g ++ [0xef, 0x01] ++ t) = g.length := by
        rw [List.append_assoc]
        show headerOffset (g ++ 0xef :: 0x01 :: t) = _
        rw [headerOffset_append hg.joint, headerOffset, if_pos (by decide)]
        rfl
      rw [if_pos (by rw [hoffset]; omega)]
  · obtain ⟨t, rfl⟩ : g ++ f.head <+: pre :=
      List.prefix_of_prefix_length_le ⟨f.body, by rw [Frame.bytes, List.append_assoc]⟩ hpre
        (by rw [List.length_append, f.length_head]; omega)
    have hlength := (f.read_head g t).2.2
    have hoffset := f.headerOffset_head hg t
    rw [List.append_assoc] at hlt hshort ⊢
    rw [tryParsePacket]
    simp only [List.drop_zero, Nat.zero_add, hoffset, hlength]
    rw [if_neg (by omega), if_pos (by rw [← f.length_body]; omega)]

theorem exists_split {n : ℕ} {l : List UInt8} (h : n ≤ l.length) :
    ∃ a b, l = a ++ b ∧ a.length = n :=
  ⟨l.take n, l.drop n, (List.take_append_drop n l).symm, List.length_take_of_le h⟩

/-- Whatever is returned was read off the first frame of the buffer. -/
theorem frame_of_tryParsePacket {buf : List UInt8} {res : ParseResult}
    (h : tryParsePacket buf 0 = some res) :
    ∃ (g : List UInt8) (f : Frame) (r : List UInt8), NoHeader g ∧ buf = g ++ (f.bytes ++ r) := by
  rw [tryParsePacket] at h
  simp only [List.drop_zero, Nat.zero_add] at h
  split at h
  · cases h
  next hhead =>
    split at h
    · cases h
    next hsize =>
      have hroom : headerOffset buf + 1 < buf.length := by omega
      obtain ⟨g, rest, rfl, hg, hoffset⟩ := header_of_headerOffset hroom
      rw [hoffset] at hhead hsize
      have hrest : 7 ≤ rest.length := by
        simp only [List.length_append, List.length_cons] at hhead
        omega
      obtain ⟨address, rest, rfl, haddress⟩ := exists_split (n := 4) (l := rest) (by omega)
      rw [List.length_append, haddress] at hrest
      obtain ⟨pids, rest, rfl, hpid⟩ := exists_split (n := 1) (l := rest) (by omega)
      rw [List.length_append, hpid] at hrest
      obtain ⟨pid, rfl⟩ := List.length_eq_one_iff.mp hpid
      obtain ⟨length, rest, rfl, hlength⟩ := exists_split (n := 2) (l := rest) (by omega)
      have hread : readUIntBE 2 (g ++ 0xef :: 0x01 :: (address ++ ([pid] ++ (length ++ rest))))
          (g.length + 7) = bytesNat length := by
        have hbuf : g ++ 0xef :: 0x01 :: (address ++ ([pid] ++ (length ++ rest))) =
            (g ++ 0xef :: 0x01 :: (address ++ [pid])) ++ (length ++ rest) := by simp
        rw [hbuf]
        exact readUIntBE_middle _ _ _ (by simp [haddress]) hlength.symm
      have hbody : bytesNat length ≤ rest.length := by
        rw [hread] at hsize
        simp only [List.length_append, List.length_cons, List.length_nil] at hsize
        omega
      obtain ⟨body, r, rfl, hlen⟩ := exists_split hbody
      exact ⟨g, ⟨address, pid, length, body, haddress, hlength, hlen⟩, r, hg,
        by simp [Frame.bytes, Frame.head]⟩

theorem tryParsePacket_eq_some_iff (buf : List UInt8) (res : ParseResult) :
    tryParsePacket buf 0 = some res ↔
      ∃ (g : List UInt8) (f : Frame) (r : List UInt8), NoHeader g ∧ buf = g ++ (f.bytes ++ r) ∧
        res = ⟨f.packet, g.length + f.bytes.length⟩ := by
  constructor
  · intro h
    obtain ⟨g, f, r, hg, rfl⟩ := frame_of_tryParsePacket h
    rw [tryParsePacket_frame f hg r] at h
    exact ⟨g, f, r, hg, rfl, (Option.some.inj h).symm⟩
  · rintro ⟨g, f, r, hg, rfl, rfl⟩
    exact tryParsePacket_frame f hg r

/-! ## What is built -/

/-- The frame of a packet. -/
def ParsedPacket.frame (p : ParsedPacket) (h : p.WellFormed) : Frame where
  address := bigEndian 4 p.address
  pid := UInt8.ofNat p.pid
  length := bigEndian 2 p.length
  body := packetTail p
  length_address := length_bigEndian 4 _
  length_length := length_bigEndian 2 _
  length_body := by rw [length_packetTail, bytesNat_bigEndian h.length]

theorem ParsedPacket.bytes_frame (p : ParsedPacket) (h : p.WellFormed) :
    (p.frame h).bytes = buildPacket p := by
  have hpid : bigEndian 1 p.pid = [UInt8.ofNat p.pid] := by
    rw [bigEndian_succ, pow_zero, Nat.div_one]
    rfl
  have hheader : bigEndian 2 packetHeader = [0xef, 0x01] := rfl
  rw [buildPacket_eq, Frame.bytes, packetHead, hpid, hheader]
  show _ ++ packetTail p = _ ++ packetTail p
  congr 1

theorem ParsedPacket.packet_frame (p : ParsedPacket) (h : p.WellFormed) : (p.frame h).packet = p := by
  have haddress : bytesNat (bigEndian 4 p.address) = p.address := bytesNat_bigEndian h.address
  have hpid : (UInt8.ofNat p.pid).toNat = p.pid := by
    rw [UInt8.toNat_ofNat']
    exact Nat.mod_eq_of_lt h.pid
  have hpayload : (packetTail p).take ((packetTail p).length - 2) = p.payload := by
    rw [length_packetTail, packetTail]
    exact List.take_left' rfl
  show ParsedPacket.mk (bytesNat (bigEndian 4 p.address)) (UInt8.ofNat p.pid).toNat
    ((packetTail p).take ((packetTail p).length - 2)) = p
  rw [haddress, hpid, hpayload]

/-- Packets are found behind any bytes that hold no header, and only as a whole; what is read
    is the first frame, whatever its last two bytes are. -/
theorem packets_resync :
    (∀ (p : ParsedPacket) (g r : List UInt8), p.WellFormed → NoHeader g →
      tryParsePacket (g ++ buildPacket p ++ r) 0 = some ⟨p, g.length + (buildPacket p).length⟩) ∧
    (∀ (p : ParsedPacket) (g pre suf : List UInt8), p.WellFormed → NoHeader g →
      g ++ buildPacket p = pre ++ suf → suf ≠ [] → tryParsePacket pre 0 = none) ∧
    ∀ (buf : List UInt8) (res : ParseResult), tryParsePacket buf 0 = some res ↔
      ∃ (g : List UInt8) (f : Frame) (r : List UInt8), NoHeader g ∧ buf = g ++ (f.bytes ++ r) ∧
        res = ⟨f.packet, g.length + f.bytes.length⟩ := by
  refine ⟨fun p g r hp hg => ?_, fun p g pre suf hp hg hcut hsuf => ?_, tryParsePacket_eq_some_iff⟩
  · have hparsed := tryParsePacket_frame (p.frame hp) hg r
    rw [p.bytes_frame hp, p.packet_frame hp, ← List.append_assoc] at hparsed
    exact hparsed
  · rw [← p.bytes_frame hp] at hcut
    exact tryParsePacket_frame_cut (p.frame hp) hg hcut hsuf

/-- An acknowledgement behind two stray bytes, the second of which is a header's first byte. -/
theorem packets_resync_ack :
    tryParsePacket ([0x00, 0xef] ++ buildPacket ⟨defaultAddress, PID.ack, [0x00]⟩ ++ [0xef]) 0 =
      some ⟨⟨defaultAddress, PID.ack, [0x00]⟩, 14⟩ :=
  packets_resync.1 ⟨defaultAddress, PID.ack, [0x00]⟩ [0x00, 0xef] [0xef]
    ⟨by decide, by decide, by decide⟩ (by unfold NoHeader; decide)

/-- The last two bytes of the packet are the checksum of its fields. -/
def ChecksumMatches (buf : List UInt8) (res : ParseResult) : Prop :=
  (buf.take res.nextOffset).drop (res.nextOffset - 2) =
    bigEndian 2 (checksum res.packet.pid (bigEndian 2 res.packet.length) res.packet.payload)

instance (buf : List UInt8) (res : ParseResult) : Decidable (ChecksumMatches buf res) :=
  inferInstanceAs (Decidable (_ = _))

/-- An acknowledgement with a zero checksum is returned. -/
theorem checksum_unread :
    ¬ ∀ (buf : List UInt8) (res : ParseResult), tryParsePacket buf 0 = some res →
      ChecksumMatches buf res := by
  intro h
  have hmatch := h [0xef, 0x01, 0xff, 0xff, 0xff, 0xff, 0x07, 0x00, 0x03, 0x00, 0x00, 0x00] _ rfl
  revert hmatch
  decide

end ZeroAuth.Iot
