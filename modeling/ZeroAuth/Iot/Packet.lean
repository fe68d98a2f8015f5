/-
  ZeroAuth.Iot.Packet

  The packets of the fingerprint sensor (iot/src/sensor.ts): `buildPacket` and
  `tryParsePacket`.

      header (0xEF 0x01) | address (4B BE) | PID (1B) | length (2B BE) | payload | checksum (2B BE)

  The parser finds what `buildPacket` has written and nothing shorter, so the
  format is self-delimiting (`packetFraming`).
-/

import ZeroAuth.Lib.Words
import ZeroAuth.Lib.Framing

namespace ZeroAuth.Iot

open ZeroAuth.Lib

/-! ## Constants -/

def packetHeader : ℕ := 0xef01

def defaultAddress : ℕ := 0xffffffff

namespace PID

def command : ℕ := 0x01
def data : ℕ := 0x02
def ack : ℕ := 0x07
def endData : ℕ := 0x08

end PID

namespace CMD

def upChar : UInt8 := 0x08

end CMD

namespace CONF

def ok : ℕ := 0x00

end CONF

/-! ## Codec -/

structure ParsedPacket where
  address : ℕ
  pid : ℕ
  payload : List UInt8
  deriving DecidableEq

/-- Payload and checksum. -/
def ParsedPacket.length (p : ParsedPacket) : ℕ := p.payload.length + 2

/-- The low 16 bits of the sum of PID, length bytes and payload bytes. -/
def checksum (pid : ℕ) (lenBuf payload : List UInt8) : ℕ :=
  (pid + ((lenBuf ++ payload).map UInt8.toNat).sum) % 2 ^ 16

def buildPacket (p : ParsedPacket) : List UInt8 :=
  let lenBuf := bigEndian 2 p.length
  bigEndian 2 packetHeader ++ bigEndian 4 p.address ++ bigEndian 1 p.pid ++ lenBuf ++ p.payload ++
    bigEndian 2 (checksum p.pid lenBuf p.payload)

/-- `buf.readUInt8(i)`, `buf.readUInt16BE(i)` and `buf.readUInt32BE(i)`. -/
def readUIntBE (k : ℕ) (buf : List UInt8) (i : ℕ) : ℕ := ((buf.drop i).take k).foldl shiftIn 0

/-- How far the header is. -/
def headerOffset : List UInt8 → ℕ
  | a :: b :: buf => if readUIntBE 2 [a, b] 0 = packetHeader then 0 else headerOffset (b :: buf) + 1
  | _ => 0

structure ParseResult where
  packet : ParsedPacket
  nextOffset : ℕ

def tryParsePacket (buf : List UInt8) (offset : ℕ) : Option ParseResult :=
  let offset := offset + headerOffset (buf.drop offset)
  if offset + 9 > buf.length then none
  else
    let length := readUIntBE 2 buf (offset + 7)
    let totalSize := 9 + length
    if offset + totalSize > buf.length then none
    else some
      { packet :=
          { address := readUIntBE 4 buf (offset + 2)
            pid := readUIntBE 1 buf (offset + 6)
            payload := (buf.drop (offset + 9)).take (length - 2) }
        nextOffset := offset + totalSize }

/-! ## What is built is parsed -/

/-- A packet whose fields fit their bytes. -/
structure ParsedPacket.WellFormed (p : ParsedPacket) : Prop where
  address : p.address < 2 ^ 32
  pid : p.pid < 2 ^ 8
  length : p.length < 2 ^ 16

theorem readUIntBE_append {k : ℕ} {n : ℕ} (pre post : List UInt8) (hn : n < 256 ^ k) :
    readUIntBE k (pre ++ (bigEndian k n ++ post)) pre.length = n := by
  have hread := foldl_shiftIn_bigEndian k n 0
  rw [readUIntBE, List.drop_left, List.take_left' (length_bigEndian k n), hread,
    Nat.mod_eq_of_lt hn, Nat.zero_mul, Nat.zero_add]

/-- The bytes before the payload. -/
def packetHead (p : ParsedPacket) : List UInt8 :=
  bigEndian 2 packetHeader ++ bigEndian 4 p.address ++ bigEndian 1 p.pid ++ bigEndian 2 p.length

def packetTail (p : ParsedPacket) : List UInt8 :=
  p.payload ++ bigEndian 2 (checksum p.pid (bigEndian 2 p.length) p.payload)

theorem buildPacket_eq (p : ParsedPacket) : buildPacket p = packetHead p ++ packetTail p := by
  simp only [buildPacket, packetHead, packetTail, List.append_assoc]

@[simp] theorem length_packetHead (p : ParsedPacket) : (packetHead p).length = 9 := by
  simp [packetHead]

@[simp] theorem length_packetTail (p : ParsedPacket) : (packetTail p).length = p.length := by
  simp [packetTail, ParsedPacket.length]

@[simp] theorem length_buildPacket (p : ParsedPacket) : (buildPacket p).length = 9 + p.length := by
  rw [buildPacket_eq, List.length_append, length_packetHead, length_packetTail]

/-- The fields of a stream that starts with a packet's first nine bytes. -/
theorem read_packetHead {p : ParsedPacket} (h : p.WellFormed) (post : List UInt8) :
    readUIntBE 4 (packetHead p ++ post) 2 = p.address ∧
    readUIntBE 1 (packetHead p ++ post) 6 = p.pid ∧
    readUIntBE 2 (packetHead p ++ post) 7 = p.length := by
  have haddress := readUIntBE_append (bigEndian 2 packetHeader)
    (bigEndian 1 p.pid ++ (bigEndian 2 p.length ++ post)) (k := 4) (n := p.address) h.address
  have hpid := readUIntBE_append (bigEndian 2 packetHeader ++ bigEndian 4 p.address)
    (bigEndian 2 p.length ++ post) (k := 1) (n := p.pid) h.pid
  have hlength := readUIntBE_append (bigEndian 2 packetHeader ++ bigEndian 4 p.address ++
    bigEndian 1 p.pid) post (k := 2) (n := p.length) h.length
  simp only [length_bigEndian, List.length_append] at haddress hpid hlength
  simp only [packetHead, List.append_assoc] at haddress hpid hlength ⊢
  exact ⟨haddress, hpid, hlength⟩

/-- The header is where it stands. -/
theorem headerOffset_of_prefix {p : ParsedPacket} {pre suf : List UInt8}
    (h : packetHead p = pre ++ suf) (post : List UInt8) (hpost : suf ≠ [] → post = []) :
    headerOffset (pre ++ post) = 0 := by
  have hhead : packetHead p = 0xef :: 0x01 ::
      (bigEndian 4 p.address ++ bigEndian 1 p.pid ++ bigEndian 2 p.length) := by
    rw [packetHead, show bigEndian 2 packetHeader = [0xef, 0x01] by decide]
    rfl
  match pre with
  | [] =>
      have hsuf : suf ≠ [] := by
        rintro rfl
        rw [hhead] at h
        cases h
      rw [hpost hsuf]
      rfl
  | [a] =>
      have hsuf : suf ≠ [] := by
        rintro rfl
        rw [hhead] at h
        cases h
      rw [hpost hsuf]
      rfl
  | a :: b :: pre =>
      rw [hhead, List.cons_append, List.cons_append] at h
      obtain ⟨rfl, htail⟩ := List.cons.inj h
      obtain ⟨rfl, -⟩ := List.cons.inj htail
      rw [List.cons_append, List.cons_append, headerOffset, if_pos (by decide)]

theorem tryParsePacket_build {p : ParsedPacket} (h : p.WellFormed) (rest : List UInt8) :
    tryParsePacket (buildPacket p ++ rest) 0 = some ⟨p, (buildPacket p).length⟩ := by
  obtain ⟨haddress, hpid, hlength⟩ := read_packetHead h (packetTail p ++ rest)
  have hbuf : buildPacket p ++ rest = packetHead p ++ (packetTail p ++ rest) := by
    rw [buildPacket_eq, List.append_assoc]
  have hoffset : headerOffset (packetHead p ++ (packetTail p ++ rest)) = 0 :=
    headerOffset_of_prefix (List.append_nil _).symm _ fun hne => absurd rfl hne
  have hpayload : ((packetHead p ++ (packetTail p ++ rest)).drop 9).take (p.length - 2) = p.payload := by
    rw [← length_packetHead p, List.drop_left, packetTail, List.append_assoc]
    exact List.take_left
  have hsize : ¬9 + p.length > (packetHead p ++ (packetTail p ++ rest)).length := by
    rw [List.length_append, List.length_append, length_packetHead, length_packetTail]
    omega
  have hhead : ¬9 > (packetHead p ++ (packetTail p ++ rest)).length := by omega
  rw [hbuf, tryParsePacket]
  simp only [List.drop_zero, hoffset, Nat.zero_add, hlength, if_neg hhead, if_neg hsize, haddress,
    hpid, hpayload, length_buildPacket]

/-- A packet that has not arrived in full is not parsed. -/
theorem tryParsePacket_of_cut {p : ParsedPacket} (h : p.WellFormed) {pre suf : List UInt8}
    (hbuild : buildPacket p = pre ++ suf) (hsuf : suf ≠ []) : tryParsePacket pre 0 = none := by
  have hlt : pre.length < 9 + p.length := by
    have hlength := congrArg List.length hbuild
    rw [length_buildPacket, List.length_append] at hlength
    have hpos := List.length_pos_of_ne_nil hsuf
    omega
  rw [buildPacket_eq] at hbuild
  by_cases hhead : pre.length < 9
  · obtain ⟨s, hs⟩ : pre <+: packetHead p :=
      List.prefix_of_prefix_length_le ⟨suf, hbuild.symm⟩ ⟨_, rfl⟩ (by rw [length_packetHead]; omega)
    have hoffset := headerOffset_of_prefix hs.symm [] fun _ => rfl
    rw [List.append_nil] at hoffset
    rw [tryParsePacket]
    simp only [List.drop_zero, hoffset]
    rw [if_pos (by omega)]
  · obtain ⟨t, rfl⟩ : packetHead p <+: pre :=
      List.prefix_of_prefix_length_le ⟨_, rfl⟩ ⟨suf, hbuild.symm⟩ (by rw [length_packetHead]; omega)
    have hoffset := headerOffset_of_prefix (List.append_nil (packetHead p)).symm t fun hne => absurd rfl hne
    rw [tryParsePacket]
    simp only [List.drop_zero, hoffset, Nat.zero_add, (read_packetHead h t).2.2]
    rw [if_neg (by omega), if_pos (by omega)]

def packetFraming : Framing UInt8 ParsedPacket where
  WellFormed := ParsedPacket.WellFormed
  build := buildPacket
  parse buf := (tryParsePacket buf 0).map fun r => (r.packet, buf.drop r.nextOffset)
  parse_nil := rfl
  build_ne_nil p := List.ne_nil_of_length_pos (by rw [length_buildPacket]; omega)
  parse_build h rest := by
    rw [tryParsePacket_build h, Option.map_some, List.drop_left]
  parse_prefix h hbuild hsuf := by
    rw [tryParsePacket_of_cut h hbuild hsuf, Option.map_none]

end ZeroAuth.Iot
