import NixieVfdCentral.Uart.Packets
import NixieVfdCentral.Uart.Receiver

/-!
# The receive path under valid traffic

A sender puts well-formed frames on the line. The bytes arrive in the stream buffer
`rxStream`, and each call of the packet processor receives some of them. The frames come
out at the other end as long as the shift of the full buffer is not reached, and no byte
is lost as long as no receive fills the buffer without using it up.
-/

namespace NixieVfdCentral

open Runs Framing PacketProcessor

/-- A frame that fits the receive buffer. -/
structure Frame where
  /-- The status byte of the header. -/
  status : UInt8
  /-- The topic bytes. -/
  topic : Bytes
  /-- The payload bytes. -/
  payload : Bytes
  /-- Header, topic and payload fit the receive buffer. -/
  fits : sizeofPacketHeader + topic.length + payload.length ≤ RxBufferSize

namespace Frame

/-- The header of a frame. -/
def header (f : Frame) : PacketHeader where
  topicLength := UInt16.ofNat f.topic.length
  status := f.status
  payloadSize := UInt16.ofNat f.payload.length

/-- The shortest frame, without topic and payload. -/
def shortest : Frame where
  status := 0
  topic := []
  payload := []
  fits := by decide

/-- The frame on the wire. -/
def toBytes (f : Frame) : Bytes := f.header.toBytes ++ f.topic ++ f.payload

/-- Topic and payload. -/
def packet (f : Frame) : Bytes × Bytes := (f.topic, f.payload)

variable (f : Frame)

/-- A frame on the wire is as long as its header, its topic and its payload together. -/
theorem length_toBytes : f.toBytes.length =
    sizeofPacketHeader + f.topic.length + f.payload.length :=
  PacketHeader.length_packet f.header f.topic f.payload

/-- The length fields do not overflow in a frame that fits the buffer. -/
theorem announces : f.header.Announces f.topic f.payload := by
  have hfits := f.fits
  unfold RxBufferSize at hfits
  have hsize : 256 < UInt16.size := by decide
  exact PacketHeader.announces_of_lt _ (by omega) (by omega)

/-- A frame on the wire is a frame of the format, whole and without anything behind it. -/
theorem isFrame_toBytes : packetFormat.IsFrame f.toBytes := f.announces.isFrame

/-- Reading a frame back gives its topic and its payload. -/
theorem packet_exposedOf : (exposedOf f.toBytes).packet = f.packet := f.announces.packet_eq

end Frame

/-- The bytes of a sequence of frames. -/
def encode (frames : List Frame) : Bytes := frames.flatMap Frame.toBytes

/-- The packets that the calls which returned true exposed, in order. -/
def Receiver.packets (r : Receiver) : List (Bytes × Bytes) :=
  r.results.filterMap fun result => result.map Exposed.packet

/-- The line, the stream buffer, and the packet processor that reads it. -/
structure ReceivePath where
  /-- Bytes sent that have not arrived yet. -/
  line : Bytes
  /-- Bytes in the stream buffer. -/
  rxStream : Bytes
  /-- The packet processor and its history. -/
  receiver : Receiver

namespace ReceivePath

/-- What may happen next. -/
inductive Event
  /-- The next `n` bytes of the line arrive in the stream buffer. -/
  | arrive (n : ℕ)
  /-- A call in which `receive` returns the next `n` bytes of the stream buffer. -/
  | call (n : ℕ)

/-- Nothing has arrived yet. -/
def initial (rxBuffer : Vector UInt8 RxBufferSize) (frames : List Frame) : ReceivePath :=
  ⟨encode frames, [], Receiver.initial rxBuffer⟩

/-- One event. A `receive` that is asked for at least one byte returns at least one; a
call that received nothing resets the stream buffer. -/
def step (s : ReceivePath) : Event → Option ReceivePath
  | .arrive n =>
    if n ≤ s.line.length then
      some { s with line := s.line.drop n, rxStream := s.rxStream ++ s.line.take n }
    else none
  | .call n =>
    if n ≤ s.rxStream.length ∧ (0 < s.receiver.processor.requestedCapacity → 0 < n) then
      (s.receiver.step (s.rxStream.take n)).map fun receiver =>
        { s with rxStream := if n = 0 then [] else s.rxStream.drop n, receiver := receiver }
    else none

end ReceivePath

end NixieVfdCentral
