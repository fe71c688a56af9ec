import NixieVfdCentral.Foundations.Framing

/-!
# The packet header on the wire

Both directions of a UART link use one frame layout: the packed structure
`PacketHeader`, then the bytes of the topic, then the bytes of the payload. The
microcontroller is little-endian, so a `uint16_t` travels low byte first.
-/

namespace NixieVfdCentral

open Framing

/-- A finite byte sequence. -/
abbrev Bytes := List UInt8

/-- Dropping bytes at the front shifts the positions of those behind them. -/
theorem getD_drop (bytes : Bytes) (k i : ℕ) :
    (bytes.drop k).getD i 0 = bytes.getD (k + i) 0 := by
  rw [List.getD_eq_getElem?_getD, List.getElem?_drop, List.getD_eq_getElem?_getD]

/-- The bytes of an ASCII text. -/
def ascii (text : List Char) : Bytes := text.map fun c => UInt8.ofNat c.toNat

/-- The magic number every packet header carries. -/
def ProtocolMagic : UInt16 := 0xBEEF

/-- The packed structure `PacketHeader` with its default member initialisers. -/
structure PacketHeader where
  /-- Number of topic bytes after the header. -/
  topicLength : UInt16 := 0
  /-- The status byte, set by the clocks only. -/
  status : UInt8 := 0
  /-- The magic number. -/
  magic : UInt16 := ProtocolMagic
  /-- Number of payload bytes after the topic. -/
  payloadSize : UInt16 := 0
  deriving DecidableEq

/-- `sizeof(PacketHeader)`: the structure is packed. -/
def sizeofPacketHeader : ℕ := 7

/-- The two bytes of a `uint16_t`, low byte first. -/
def littleEndian (x : UInt16) : Bytes := [UInt8.ofNat x.toNat, UInt8.ofNat (x.toNat / 256)]

/-- The `uint16_t` with the given low and high byte. -/
def ofLittleEndian (low high : UInt8) : UInt16 := UInt16.ofNat (low.toNat + 256 * high.toNat)

/-- The memory image of a header. -/
def PacketHeader.toBytes (h : PacketHeader) : Bytes :=
  littleEndian h.topicLength ++ [h.status] ++ littleEndian h.magic ++ littleEndian h.payloadSize

/-- The header whose memory image starts the given bytes. -/
def PacketHeader.ofBytes (bytes : Bytes) : PacketHeader where
  topicLength := ofLittleEndian (bytes.getD 0 0) (bytes.getD 1 0)
  status := bytes.getD 2 0
  magic := ofLittleEndian (bytes.getD 3 0) (bytes.getD 4 0)
  payloadSize := ofLittleEndian (bytes.getD 5 0) (bytes.getD 6 0)

/-- Reading back the two bytes of a `uint16_t` gives the number. -/
theorem ofLittleEndian_littleEndian (x : UInt16) :
    ofLittleEndian (UInt8.ofNat x.toNat) (UInt8.ofNat (x.toNat / 256)) = x := by
  have hx := x.toNat_lt
  apply UInt16.toNat_inj.mp
  simp only [ofLittleEndian, UInt16.toNat_ofNat', UInt8.toNat_ofNat']
  omega

/-- The value of a `uint16_t` in terms of its two bytes. -/
theorem toNat_ofLittleEndian (low high : UInt8) :
    (ofLittleEndian low high).toNat = low.toNat + 256 * high.toNat := by
  have hlow := low.toNat_lt
  have hhigh := high.toNat_lt
  simp only [ofLittleEndian, UInt16.toNat_ofNat']
  omega

/-- The memory image of a header has the size of the packed structure. -/
@[simp] theorem PacketHeader.length_toBytes (h : PacketHeader) :
    h.toBytes.length = sizeofPacketHeader := rfl

/-- **Header round trip.** The memory image determines the header, whatever follows it. -/
theorem PacketHeader.ofBytes_toBytes (h : PacketHeader) (rest : Bytes) :
    PacketHeader.ofBytes (h.toBytes ++ rest) = h := by
  simp only [PacketHeader.ofBytes, PacketHeader.toBytes, littleEndian, List.cons_append,
    List.nil_append, List.getD_cons_zero, List.getD_cons_succ, ofLittleEndian_littleEndian]

/-- The frame layout: the magic number is decided by the first five bytes of the
header, the length of the body by its two length fields. -/
def packetFormat : Format UInt8 where
  headerLength := sizeofPacketHeader
  markerLength := 5
  markerLength_le := by decide
  headerLength_pos := by decide
  hasMarker bytes := (PacketHeader.ofBytes bytes).magic == ProtocolMagic
  bodyLength bytes :=
    (PacketHeader.ofBytes bytes).topicLength.toNat + (PacketHeader.ofBytes bytes).payloadSize.toNat

/-- Only the first seven bytes of a header are read. -/
theorem PacketHeader.ofBytes_take (bytes : Bytes) :
    PacketHeader.ofBytes (bytes.take sizeofPacketHeader) = PacketHeader.ofBytes bytes := by
  simp [PacketHeader.ofBytes, sizeofPacketHeader, List.getD_eq_getElem?_getD]

/-- The magic number is read from the first five bytes. -/
theorem PacketHeader.magic_ofBytes_take (bytes : Bytes) :
    (PacketHeader.ofBytes (bytes.take 5)).magic = (PacketHeader.ofBytes bytes).magic := by
  simp [PacketHeader.ofBytes, List.getD_eq_getElem?_getD]

/-- A header starts the bytes when seven of them are there and the magic number is right. -/
theorem startsHeader_iff {bytes : Bytes} :
    packetFormat.StartsHeader bytes ↔
      sizeofPacketHeader ≤ bytes.length ∧ (PacketHeader.ofBytes bytes).magic = ProtocolMagic := by
  change sizeofPacketHeader ≤ bytes.length ∧
    ((PacketHeader.ofBytes (bytes.take 5)).magic == ProtocolMagic) = true ↔ _
  rw [PacketHeader.magic_ofBytes_take, beq_iff_eq]

/-- The announced frame length: a header, and what its two length fields say. -/
theorem frameLength_eq (bytes : Bytes) :
    packetFormat.frameLength bytes = sizeofPacketHeader +
      ((PacketHeader.ofBytes bytes).topicLength.toNat +
        (PacketHeader.ofBytes bytes).payloadSize.toNat) := by
  change sizeofPacketHeader +
    ((PacketHeader.ofBytes (bytes.take sizeofPacketHeader)).topicLength.toNat +
      (PacketHeader.ofBytes (bytes.take sizeofPacketHeader)).payloadSize.toNat) = _
  rw [PacketHeader.ofBytes_take]

end NixieVfdCentral
