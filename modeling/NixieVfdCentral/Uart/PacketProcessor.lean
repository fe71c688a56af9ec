import NixieVfdCentral.Foundations.Buffers
import NixieVfdCentral.Uart.Protocol

/-!
# The packet processor

`PacketProcessor::extractPacketFromReceiveStream` collects what `rxStream.receive`
returns in a buffer of 256 bytes, searches it for a packet header and exposes the
first complete packet through the pointers `topic` and `payload`. Each piece of the
function is one definition below; `extractPacketFromReceiveStream` puts them together
in the order of the source. The blocking call of `receive` splits the function:
`beginExtract` is what runs before it, and the received bytes are an argument.
-/

namespace NixieVfdCentral

open Buffers

/-- `PacketProcessor::RxBufferSize`. -/
def RxBufferSize : ℕ := 256

/-- Subtraction of two `size_t` values, 32 bits wide on this target: it wraps around. -/
def sizeSub (a b : ℕ) : ℕ := (a + UInt32.size - b) % UInt32.size

/-- Inside the buffer a `size_t` subtraction is the ordinary one. -/
theorem sizeSub_eq {a b : ℕ} (hb : b ≤ a) (ha : a ≤ RxBufferSize) : sizeSub a b = a - b := by
  unfold RxBufferSize at ha
  unfold sizeSub UInt32.size
  omega

/-- The data members of `PacketProcessor`. The pointers `topic` and `payload` point
into `rxBuffer` and are represented by their offset there, `none` being `nullptr`. -/
structure PacketProcessor where
  /-- First byte of the buffer that is not consumed yet. -/
  bufferStartPosition : ℕ
  /-- First byte of the buffer behind the received ones. -/
  bufferLastPosition : ℕ
  /-- Where the topic of the exposed packet starts. -/
  topic : Option ℕ
  /-- Where the payload of the exposed packet starts. -/
  payload : Option ℕ
  /-- The header read last. -/
  header : PacketHeader
  /-- The receive buffer. -/
  rxBuffer : Vector UInt8 RxBufferSize

namespace PacketProcessor

/-- The state after construction; the content of `rxBuffer` is not initialised. -/
def initial (rxBuffer : Vector UInt8 RxBufferSize) : PacketProcessor where
  bufferStartPosition := 0
  bufferLastPosition := 0
  topic := none
  payload := none
  header := {}
  rxBuffer := rxBuffer

/-- An empty buffer is used from its beginning again. -/
def rewind (p : PacketProcessor) : PacketProcessor :=
  if p.bufferStartPosition = p.bufferLastPosition then
    { p with bufferStartPosition := 0, bufferLastPosition := 0 }
  else p

/-- Everything before the call of `rxStream.receive`. -/
def beginExtract (p : PacketProcessor) : PacketProcessor :=
  { p with topic := none, payload := none }.rewind

/-- The capacity `extractPacketFromReceiveStream` asks `rxStream.receive` for. -/
def requestedCapacity (p : PacketProcessor) : ℕ :=
  sizeSub RxBufferSize p.beginExtract.bufferLastPosition

/-- `receive` writes behind the received bytes, and the position moves on. -/
def storeReceived (p : PacketProcessor) (received : Bytes) : PacketProcessor :=
  { p with
    rxBuffer := overwrite p.rxBuffer p.bufferLastPosition received
    bufferLastPosition := p.bufferLastPosition + received.length }

/-- Shift the buffer to the beginning once it is full. The start position is cleared
before it is subtracted from the last position, as in the source. -/
def shiftBuffer (p : PacketProcessor) : PacketProcessor :=
  if RxBufferSize ≤ p.bufferLastPosition ∧ 0 < p.bufferStartPosition then
    let p := { p with
      rxBuffer := overwrite p.rxBuffer 0
        (slice p.rxBuffer p.bufferStartPosition
          (sizeSub p.bufferLastPosition p.bufferStartPosition)) }
    let p := { p with bufferStartPosition := 0 }
    { p with bufferLastPosition := sizeSub p.bufferLastPosition p.bufferStartPosition }
  else p

/-- The header search loop, for at most `fuel` rounds. The flag tells whether a header
was found; `none` means that the loop has not ended within the rounds. -/
def searchHeader : ℕ → PacketProcessor → Option (Bool × PacketProcessor)
  | 0, _ => none
  | fuel + 1, p =>
    if sizeSub p.bufferLastPosition p.bufferStartPosition < sizeofPacketHeader then some (false, p)
    else
      let p := { p with header :=
        PacketHeader.ofBytes (slice p.rxBuffer p.bufferStartPosition sizeofPacketHeader) }
      if p.header.magic = ProtocolMagic then some (true, p)
      else searchHeader fuel { p with bufferStartPosition := p.bufferStartPosition + 1 }

/-- Expose the packet whose header was found, if it is complete, and consume it. -/
def takePacket (p : PacketProcessor) : Bool × PacketProcessor :=
  if p.header.topicLength.toNat + p.header.payloadSize.toNat >
      sizeSub (sizeSub p.bufferLastPosition p.bufferStartPosition) sizeofPacketHeader then
    (false, p)
  else
    let topic := p.bufferStartPosition + sizeofPacketHeader
    let p := { p with topic := some topic }
    let p := if 0 < p.header.payloadSize.toNat then
        { p with payload := some (topic + p.header.topicLength.toNat) }
      else p
    (true, { p with bufferStartPosition := p.bufferStartPosition +
      (sizeofPacketHeader + p.header.topicLength.toNat + p.header.payloadSize.toNat) })

/-- `PacketProcessor::extractPacketFromReceiveStream`, given what `rxStream.receive`
returned. Besides, a call that received nothing resets `rxStream`. -/
def extractPacketFromReceiveStream (p : PacketProcessor) (received : Bytes) :
    Option (Bool × PacketProcessor) :=
  let p := p.beginExtract
  if received.length = 0 then some (false, p)
  else
    ((p.storeReceived received).shiftBuffer.searchHeader (RxBufferSize + 1)).map
      fun (found, p) => if found then p.takePacket else (false, p)

/-- What the pointers expose after a call, the lengths being those of the header. -/
structure Exposed where
  /-- The bytes at `topic`, unless it is `nullptr`. -/
  topic : Option Bytes
  /-- The bytes at `payload`, unless it is `nullptr`. -/
  payload : Option Bytes
  deriving DecidableEq

/-- The topic and payload bytes that `processPacket` reads. -/
def exposed (p : PacketProcessor) : Exposed where
  topic := p.topic.map fun start => slice p.rxBuffer start p.header.topicLength.toNat
  payload := p.payload.map fun start => slice p.rxBuffer start p.header.payloadSize.toNat

/-- `PacketProcessor::processPacket`: whether it calls `timeSource.queueTimeSend`. The
strings built from a null pointer have length zero. -/
def processPacket (p : PacketProcessor) : Bool :=
  let topicString := p.exposed.topic.getD []
  let payloadString := p.exposed.payload.getD []
  topicString == ascii ['c', 'l', 'o', 'c', 'k'] &&
    payloadString == ascii ['r', 'e', 'q', 'u', 'e', 's', 't']

/-- The received bytes that are in the buffer, consumed or not. -/
def contents (p : PacketProcessor) : Bytes := p.rxBuffer.toList.take p.bufferLastPosition

/-- The bytes received and not consumed yet. -/
def window (p : PacketProcessor) : Bytes :=
  slice p.rxBuffer p.bufferStartPosition (p.bufferLastPosition - p.bufferStartPosition)

/-- The positions are in order and inside the buffer. -/
structure WellFormed (p : PacketProcessor) : Prop where
  /-- The start does not pass the end of the received bytes. -/
  start_le_last : p.bufferStartPosition ≤ p.bufferLastPosition
  /-- The received bytes lie inside the buffer. -/
  last_le_size : p.bufferLastPosition ≤ RxBufferSize

end PacketProcessor

end NixieVfdCentral
