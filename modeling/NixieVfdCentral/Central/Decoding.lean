import NixieVfdCentral.Central.Messages
import NixieVfdCentral.Uart.Packets

/-!
# The clocks can read what is sent

Each message of the program is a packet, so a stream that carries message after message
is read back by the frame grammar of the packet processor: the length fields say where
each packet ends, whatever bytes its topic and its payload consist of.
-/

namespace NixieVfdCentral

open Framing SharedLogs PacketProcessor

/-- A data event with a topic that starts with the main topic and whose lengths fit the
length fields of a header, the data not being empty. -/
structure TopicEvent where
  /-- The event. -/
  event : MqttEvent
  /-- The topic starts with the main topic. -/
  main_starts : TopicMainString <+: event.topic
  /-- The topic is at most 65535 bytes long. -/
  topic_lt : event.topic.length < UInt16.size
  /-- There is data. -/
  data_pos : 0 < event.data.length
  /-- The data is at most 65535 bytes long. -/
  data_lt : event.data.length < UInt16.size

/-- A message to the clocks, named by the function that produces it. -/
inductive ClockMessage
  /-- `TimeSource::sendTimePerUart`. -/
  | sendTimePerUart (localTime : LocalTime)
  /-- `TimeSource::sendTimeSync`. -/
  | sendTimeSync
  /-- `MqttClient::dataCallback`. -/
  | dataCallback (event : TopicEvent)

namespace ClockMessage

/-- The sends that produce the message. -/
def sends : ClockMessage → Sends
  | .sendTimePerUart localTime => NixieVfdCentral.sendTimePerUart localTime
  | .sendTimeSync => NixieVfdCentral.sendTimeSync
  | .dataCallback event => (NixieVfdCentral.dataCallback event.event).sends

/-- The topic and the payload that a clock is to read. -/
def packet : ClockMessage → Bytes × Bytes
  | .sendTimePerUart localTime => (ascii ['c', 'l', 'o', 'c', 'k'], localTime.print)
  | .sendTimeSync => (ascii ['s', 'y', 'n', 'c'], [])
  | .dataCallback event => (event.event.topic.drop TopicMainString.length, event.event.data)

/-- All bytes of a sequence of messages that go to one stream. -/
def sentTo (stream : TxStream) (messages : List ClockMessage) : Bytes :=
  messages.flatMap fun message => whole stream message.sends

/-- **Each message is a packet** of its topic and its payload, on both streams. -/
theorem whole_sends (message : ClockMessage) (stream : TxStream) :
    ∃ header : PacketHeader, header.Announces message.packet.1 message.packet.2 ∧
      whole stream message.sends = header.toBytes ++ message.packet.1 ++ message.packet.2 := by
  cases message with
  | sendTimePerUart localTime =>
    have htopic : (sendTimePerUart localTime).packet.1.length < UInt16.size :=
      (by decide : 5 < UInt16.size)
    have hpayload : (sendTimePerUart localTime).packet.2.length < UInt16.size :=
      (by decide : 8 < UInt16.size)
    refine ⟨_, PacketHeader.announces_of_lt 0 htopic hpayload, ?_⟩
    · change (select stream (sendToBoth _)).flatten = _
      rw [select_sendToBoth]
      simp [packet, LocalTime.print, twoDigits, ascii]
  | sendTimeSync =>
    refine ⟨_, PacketHeader.announces_of_lt 0 (by decide) (by decide), ?_⟩
    change (select stream (sendToBoth _)).flatten = _
    rw [select_sendToBoth]
    simp [packet]
  | dataCallback event =>
    obtain ⟨topic, htopic⟩ := event.main_starts
    have hevent : event.event = ⟨TopicMainString ++ topic, event.event.data⟩ := by rw [htopic]
    have hpacket : (dataCallback event).packet = (topic, event.event.data) := by
      rw [packet, ← htopic, List.drop_left]
    have hlength : topic.length < UInt16.size := by
      have := event.topic_lt
      rw [← htopic, List.length_append] at this
      omega
    refine ⟨forwardedHeader topic event.event.data, ?_, ?_⟩
    · rw [hpacket]
      exact PacketHeader.announces_of_lt 0 hlength event.data_lt
    · rw [whole, sends, hevent, sends_dataCallback_main topic
        (List.ne_nil_of_length_pos event.data_pos) event.data_lt, select_sendToBoth, hpacket]
      simp

/-- **The clocks can read what is sent.** On either stream, the frame grammar reads any
sequence of messages back as exactly their topics and payloads; no byte is skipped and
none is left over. So two sequences with the same bytes are the same packets. -/
theorem read_sentTo (messages : List ClockMessage) (stream : TxStream) :
    (packetFormat.read (sentTo stream messages)).frames.map (fun frame =>
        (exposedOf frame).packet) = messages.map packet ∧
      (packetFormat.read (sentTo stream messages)).skipped = [] ∧
      (packetFormat.read (sentTo stream messages)).left = [] := by
  have hframes : ∀ frame ∈ messages.map (fun message => whole stream message.sends),
      packetFormat.IsFrame frame := by
    intro frame hframe
    obtain ⟨message, _, rfl⟩ := List.mem_map.mp hframe
    obtain ⟨header, hannounces, hbytes⟩ := message.whole_sends stream
    rw [hbytes]
    exact hannounces.isFrame
  rw [sentTo, List.flatMap_def, read_flatten hframes]
  refine ⟨?_, rfl, rfl⟩
  rw [List.map_map]
  refine List.map_congr_left fun message _ => ?_
  obtain ⟨header, hannounces, hbytes⟩ := message.whole_sends stream
  change (exposedOf (whole stream message.sends)).packet = message.packet
  rw [hbytes]
  exact hannounces.packet_eq

end ClockMessage

end NixieVfdCentral
