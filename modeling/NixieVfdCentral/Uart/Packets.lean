import NixieVfdCentral.Uart.ExtractSemantics

/-!
# Packets on the wire

A packet is a header that announces a topic and a payload, followed by the two. It is a
frame of the packet format, and what the packet processor exposes of it is its topic and
its payload, whoever sent it and whatever bytes it carries.
-/

namespace NixieVfdCentral

open Framing PacketProcessor

/-- The topic and the payload that a call which returned true exposed. -/
def PacketProcessor.Exposed.packet (e : Exposed) : Bytes × Bytes :=
  (e.topic.getD [], e.payload.getD [])

namespace PacketHeader

/-- The header carries the magic number and announces exactly this topic and this payload. -/
structure Announces (h : PacketHeader) (topic payload : Bytes) : Prop where
  magic : h.magic = ProtocolMagic
  topicLength : h.topicLength.toNat = topic.length
  payloadSize : h.payloadSize.toNat = payload.length

variable {h : PacketHeader} {topic payload : Bytes}

/-- A header filled with the lengths announces the topic and the payload, as long as the
lengths fit their fields. -/
theorem announces_of_lt (status : UInt8) (htopic : topic.length < UInt16.size)
    (hpayload : payload.length < UInt16.size) :
    Announces
      { topicLength := UInt16.ofNat topic.length
        status := status
        payloadSize := UInt16.ofNat payload.length } topic payload :=
  ⟨rfl, UInt16.toNat_ofNat_of_lt' htopic, UInt16.toNat_ofNat_of_lt' hpayload⟩

/-- The header is read back from the front of its packet. -/
theorem ofBytes_packet (h : PacketHeader) (topic payload : Bytes) :
    PacketHeader.ofBytes (h.toBytes ++ topic ++ payload) = h := by
  rw [List.append_assoc, PacketHeader.ofBytes_toBytes]

/-- A packet is as long as its header, its topic and its payload together. -/
theorem length_packet (h : PacketHeader) (topic payload : Bytes) :
    (h.toBytes ++ topic ++ payload).length =
      sizeofPacketHeader + topic.length + payload.length := by
  rw [List.length_append, List.length_append, length_toBytes]

namespace Announces

/-- A packet is a frame of the format, whole and without anything behind it. -/
theorem isFrame (ha : h.Announces topic payload) :
    packetFormat.IsFrame (h.toBytes ++ topic ++ payload) := by
  constructor
  · rw [startsHeader_iff, ofBytes_packet, length_packet]
    exact ⟨by omega, ha.magic⟩
  · rw [frameLength_eq, ofBytes_packet, ha.topicLength, ha.payloadSize, length_packet]
    omega

/-- Reading a packet exposes its topic and its payload, the latter as a null pointer when
it is empty. -/
theorem exposedOf_eq (ha : h.Announces topic payload) :
    exposedOf (h.toBytes ++ topic ++ payload) =
      { topic := some topic
        payload := if 0 < payload.length then some payload else none } := by
  have hbody : (h.toBytes ++ topic ++ payload).drop sizeofPacketHeader = topic ++ payload := by
    rw [List.append_assoc]
    exact List.drop_left' h.length_toBytes
  rw [exposedOf, ofBytes_packet, ha.topicLength, ha.payloadSize, hbody]
  simp

/-- **Reading a packet gives back its topic and its payload.** -/
theorem packet_eq (ha : h.Announces topic payload) :
    (exposedOf (h.toBytes ++ topic ++ payload)).packet = (topic, payload) := by
  rw [ha.exposedOf_eq, Exposed.packet]
  by_cases hpayload : 0 < payload.length
  · simp [hpayload]
  · have hnil : payload = [] := List.eq_nil_of_length_eq_zero (by omega)
    simp [hnil]

end Announces

end PacketHeader

end NixieVfdCentral
