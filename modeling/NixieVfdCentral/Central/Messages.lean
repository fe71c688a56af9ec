import NixieVfdCentral.Foundations.SharedLogs
import NixieVfdCentral.Uart.Protocol

/-!
# The messages to the clocks

`TimeSource::sendTimePerUart`, `TimeSource::sendTimeSync` and `MqttClient::dataCallback`
each send one message to both clocks: a header, a topic and, unless it is empty by design,
a payload, every piece with a `send` of its own, first to `txStream0`, then to `txStream1`.
-/

namespace NixieVfdCentral

open SharedLogs

/-- The two transmit streams. -/
inductive TxStream
  /-- `txStream0`, towards the first clock. -/
  | txStream0
  /-- `txStream1`, towards the second clock. -/
  | txStream1
  deriving DecidableEq

/-- The sends of one message, each with its stream. -/
abbrev Sends := Message TxStream UInt8

/-- The pieces of a message are sent to the one stream and then to the other. -/
def sendToBoth (pieces : List Bytes) : Sends :=
  pieces.map (fun piece => (TxStream.txStream0, piece)) ++
    pieces.map fun piece => (TxStream.txStream1, piece)

/-- Each stream gets every piece that is sent to both, in the same order. -/
@[simp] theorem select_sendToBoth (k : TxStream) (pieces : List Bytes) :
    select k (sendToBoth pieces) = pieces := by
  cases k <;> simp [sendToBoth, select, List.filter_map, Function.comp_def]

/-- The fields of `std::tm` that are printed. -/
structure LocalTime where
  /-- `tm_hour`. -/
  hour : Fin 24
  /-- `tm_min`. -/
  minute : Fin 60
  /-- `tm_sec`, including a leap second. -/
  second : Fin 61
  deriving DecidableEq

/-- The conversion `%02d` of a number below one hundred. -/
def twoDigits (n : ℕ) : Bytes := [UInt8.ofNat (48 + n / 10), UInt8.ofNat (48 + n % 10)]

/-- What `snprintf` writes for `"%02d:%02d:%02d"`. -/
def LocalTime.print (t : LocalTime) : Bytes :=
  twoDigits t.hour ++ ascii [':'] ++ twoDigits t.minute ++ ascii [':'] ++ twoDigits t.second

/-- The sends of `TimeSource::sendTimePerUart`. -/
def sendTimePerUart (localTime : LocalTime) : Sends :=
  let topic := ascii ['c', 'l', 'o', 'c', 'k']
  let buffer := localTime.print
  let numberOfCharacters := UInt16.ofNat buffer.length
  let header : PacketHeader :=
    { topicLength := UInt16.ofNat topic.length, payloadSize := numberOfCharacters }
  sendToBoth [header.toBytes, topic, buffer.take numberOfCharacters.toNat]

/-- The sends of `TimeSource::sendTimeSync`. -/
def sendTimeSync : Sends :=
  let topic := ascii ['s', 'y', 'n', 'c']
  let header : PacketHeader := { topicLength := UInt16.ofNat topic.length, payloadSize := 0 }
  sendToBoth [header.toBytes, topic]

/-- The topic and the data of an MQTT data event. Their lengths are the fields `topic_len`
and `data_len` of the event. -/
structure MqttEvent where
  /-- The bytes at `topic`. -/
  topic : Bytes
  /-- The bytes at `data`. -/
  data : Bytes
  deriving DecidableEq

/-- `MqttClient::TopicMainString`. -/
def TopicMainString : Bytes :=
  ascii ['n', 'i', 'x', 'i', 'e', '-', 'v', 'f', 'd', '-', 'c', 'l', 'o', 'c', 'k', '/']

/-- How `MqttClient::dataCallback` goes on after its checks. -/
inductive DataCallback
  /-- It returns at once. -/
  | ignored
  /-- `substr` raises `out_of_range`, which aborts the program. -/
  | aborted
  /-- It performs the sends and then, if `aligns` is set, aligns the time sync. -/
  | forwards (sends : Sends) (aligns : Bool)

/-- `MqttClient::dataCallback`. -/
def dataCallback (event : MqttEvent) : DataCallback :=
  if event.topic.length = 0 ∨ event.data.length = 0 then .ignored
  else
    let dataLength := UInt16.ofNat event.data.length
    let data := event.data.take dataLength.toNat
    if event.topic.length < TopicMainString.length then .aborted
    else
      let topic := event.topic.drop TopicMainString.length
      let header : PacketHeader :=
        { topicLength := UInt16.ofNat topic.length, payloadSize := dataLength }
      .forwards (sendToBoth [header.toBytes, topic, data])
        (topic == ascii ['c', 'o', 'u', 'n', 't', 'd', 'o', 'w', 'n'] &&
          ((ascii ['s', 't', 'a', 'r', 't']).isPrefixOf data ||
            data == ascii ['r', 'e', 's', 'u', 'm', 'e']))

/-- Every message is sent to both streams alike. -/
def SentAlike (sends : Sends) : Prop := select .txStream0 sends = select .txStream1 sends

/-- What is sent piece by piece to both streams is sent to them alike. -/
theorem sentAlike_sendToBoth (pieces : List Bytes) : SentAlike (sendToBoth pieces) := by
  rw [SentAlike, select_sendToBoth, select_sendToBoth]

/-- The time is sent alike to both streams: header, topic and payload each to one and then to the
other. -/
theorem sentAlike_sendTimePerUart (localTime : LocalTime) : SentAlike (sendTimePerUart localTime) :=
  sentAlike_sendToBoth _

/-- A synchronisation is sent alike to both streams. -/
theorem sentAlike_sendTimeSync : SentAlike sendTimeSync := sentAlike_sendToBoth _

/-- What `dataCallback` forwards, it sends to both streams alike. -/
theorem sentAlike_of_dataCallback {event : MqttEvent} {sends : Sends} {aligns : Bool}
    (h : dataCallback event = .forwards sends aligns) : SentAlike sends := by
  unfold dataCallback at h
  split_ifs at h
  obtain ⟨rfl, _⟩ := DataCallback.forwards.inj h
  exact sentAlike_sendToBoth _

/-! ### The sends of one call -/

/-- The sends that a call of `dataCallback` performs. -/
def DataCallback.sends : DataCallback → Sends
  | .ignored | .aborted => []
  | .forwards sends _ => sends

/-- The header that `dataCallback` builds for a topic behind the main topic and its data. -/
def forwardedHeader (topic data : Bytes) : PacketHeader where
  topicLength := UInt16.ofNat topic.length
  payloadSize := UInt16.ofNat data.length

/-- An event without a topic or without data is ignored. -/
theorem dataCallback_of_empty {event : MqttEvent} (h : event.topic = [] ∨ event.data = []) :
    dataCallback event = .ignored := by
  rw [dataCallback, if_pos]
  simpa using h

/-- **What is forwarded of an event below the main topic**: a header, the rest of the topic
and as many data bytes as the header says. -/
theorem dataCallback_main (topic : Bytes) {data : Bytes} (hdata : data ≠ []) :
    ∃ aligns, dataCallback ⟨TopicMainString ++ topic, data⟩ = .forwards
      (sendToBoth [(forwardedHeader topic data).toBytes, topic,
        data.take (UInt16.ofNat data.length).toNat]) aligns := by
  have hmain : ¬TopicMainString.length = 0 := by decide
  have hlength : (TopicMainString ++ topic).length = TopicMainString.length + topic.length :=
    List.length_append
  have hguard : ¬((TopicMainString ++ topic).length = 0 ∨ data.length = 0) := by
    rw [List.length_eq_zero_iff (l := data)]
    exact not_or.mpr ⟨by omega, hdata⟩
  rw [dataCallback, if_neg hguard]
  simp only [if_neg (show ¬(TopicMainString ++ topic).length < TopicMainString.length by omega),
    List.drop_left]
  exact ⟨_, rfl⟩

/-- The data bytes are all forwarded when their number fits the length field. -/
theorem sends_dataCallback_main (topic : Bytes) {data : Bytes} (hdata : data ≠ [])
    (hfits : data.length < UInt16.size) :
    (dataCallback ⟨TopicMainString ++ topic, data⟩).sends =
      sendToBoth [(forwardedHeader topic data).toBytes, topic, data] := by
  obtain ⟨aligns, h⟩ := dataCallback_main topic hdata
  rw [h, UInt16.toNat_ofNat_of_lt' hfits, List.take_length]
  rfl

end NixieVfdCentral
