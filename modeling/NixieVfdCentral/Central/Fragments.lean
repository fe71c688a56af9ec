import NixieVfdCentral.Central.Messages

/-!
# Messages that arrive in parts

The MQTT library hands over a message that is longer than its receive buffer in several
data events. Only the first one carries the topic, and `MqttClient::dataCallback` ignores
events without a topic.
-/

namespace NixieVfdCentral

open SharedLogs

/-- The data events of a message that arrives in parts. -/
def dataEvents (topic first : Bytes) (later : List Bytes) : List MqttEvent :=
  ⟨topic, first⟩ :: later.map fun part => ⟨[], part⟩

/-- The payload of the frame that an event makes `dataCallback` send to a stream: what is
sent behind the header and the topic. -/
def framePayload (stream : TxStream) (event : MqttEvent) : Bytes :=
  ((select stream (dataCallback event).sends).drop 2).flatten

/-- The payloads of the frames sent for a sequence of events. -/
def forwardedPayload (stream : TxStream) (events : List MqttEvent) : Bytes :=
  events.flatMap (framePayload stream)

/-- An event without a topic makes no frame, so its part of the payload is forwarded nowhere. -/
theorem framePayload_of_no_topic (stream : TxStream) (part : Bytes) :
    framePayload stream ⟨[], part⟩ = [] := by
  rw [framePayload, dataCallback_of_empty (Or.inl rfl)]
  rfl

/-- An event below the main topic makes a frame with its data. -/
theorem framePayload_main (stream : TxStream) (topic : Bytes) {data : Bytes}
    (hfits : data.length < UInt16.size) :
    framePayload stream ⟨TopicMainString ++ topic, data⟩ = data := by
  by_cases hdata : data = []
  · rw [framePayload, dataCallback_of_empty (Or.inr hdata), hdata]
    rfl
  · rw [framePayload, sends_dataCallback_main topic hdata hfits, select_sendToBoth]
    simp

/-- Of a message that arrives in parts only the first part is forwarded. -/
theorem forwardedPayload_dataEvents (stream : TxStream) (topic : Bytes) {first : Bytes}
    (later : List Bytes) (hfits : first.length < UInt16.size) :
    forwardedPayload stream (dataEvents (TopicMainString ++ topic) first later) = first := by
  have hlater : (later.map fun part => (⟨[], part⟩ : MqttEvent)).flatMap (framePayload stream) =
      [] := by
    simp [List.flatMap_eq_nil_iff, framePayload_of_no_topic]
  rw [forwardedPayload, dataEvents, List.flatMap_cons, framePayload_main stream topic hfits,
    hlater, List.append_nil]

/-- **A message is forwarded completely** exactly if all of its payload arrives with the first
event: the later parts are empty. -/
theorem forwardedPayload_eq_iff (stream : TxStream) (topic first : Bytes) (later : List Bytes)
    (hfits : (first ++ later.flatten).length < UInt16.size) :
    forwardedPayload stream (dataEvents (TopicMainString ++ topic) first later) =
      first ++ later.flatten ↔ ∀ part ∈ later, part = [] := by
  have hfirst : first.length < UInt16.size := by
    rw [List.length_append] at hfits
    omega
  rw [forwardedPayload_dataEvents stream topic later hfirst, List.self_eq_append_right,
    List.flatten_eq_nil_iff]

/-- Of a payload of two bytes that arrives in two parts the second byte is lost. -/
theorem secondPart_lost :
    forwardedPayload .txStream0 (dataEvents (TopicMainString ++ ascii ['t', 'e', 'x', 't'])
      (ascii ['h']) [ascii ['i']]) ≠ ascii ['h', 'i'] := by
  decide +kernel

/-- A payload that arrives whole with the first event is forwarded whole. -/
theorem forwardedPayload_one_part :
    forwardedPayload .txStream0 (dataEvents (TopicMainString ++ ascii ['t', 'e', 'x', 't'])
      (ascii ['h', 'i']) []) = ascii ['h', 'i'] :=
  (forwardedPayload_eq_iff .txStream0 _ (ascii ['h', 'i']) [] (by decide)).mpr (by simp)

end NixieVfdCentral
