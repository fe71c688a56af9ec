import NixieVfdCentral.Central.Messages
import NixieVfdCentral.Foundations.TopicFilter

/-!
# What the subscription lets through

`MqttClient::createSubscribers` subscribes to `TopicWildcard`, and the broker delivers the
topics that this filter matches. `MqttClient::dataCallback` strips `TopicMainString` from a
topic by its length. Besides the topics with that prefix the filter matches its parent
level, which is one character shorter than the prefix.
-/

namespace NixieVfdCentral

open SharedLogs TopicFilter

/-- `MqttClient::TopicWildcard`. -/
def TopicWildcard : Bytes :=
  ascii ['n', 'i', 'x', 'i', 'e', '-', 'v', 'f', 'd', '-', 'c', 'l', 'o', 'c', 'k', '/', '#']

/-- The special characters of MQTT 3.1.1. In UTF-8 their bytes occur in no other character. -/
def mqttAlphabet : Alphabet UInt8 where
  separator := UInt8.ofNat '/'.toNat
  singleLevel := UInt8.ofNat '+'.toNat
  multiLevel := UInt8.ofNat '#'.toNat
  reserved := UInt8.ofNat '$'.toNat
  multiLevel_ne := by decide

/-- The topic of the parent level, without a separator. -/
def parentTopic : Bytes :=
  ascii ['n', 'i', 'x', 'i', 'e', '-', 'v', 'f', 'd', '-', 'c', 'l', 'o', 'c', 'k']

/-- The broker delivers events with this topic. -/
def Delivered (topic : Bytes) : Prop := mqttAlphabet.Matches TopicWildcard topic

instance (topic : Bytes) : Decidable (Delivered topic) :=
  inferInstanceAs (Decidable (mqttAlphabet.Matches _ _))

/-- `dataCallback` does not abort the program, and of a topic that starts with the main topic
it forwards exactly the rest. -/
structure Handled (event : MqttEvent) : Prop where
  notAborted : dataCallback event ≠ .aborted
  forwardsRest : ∀ rest, event.topic = TopicMainString ++ rest → ∀ stream,
    (select stream (dataCallback event).sends)[1]? = some rest

/-- The delivered topics are the parent level and those that start with the main topic. -/
theorem delivered_iff {topic : Bytes} :
    Delivered topic ↔ topic = parentTopic ∨ TopicMainString <+: topic :=
  matches_anyRest_iff (by decide : mqttAlphabet.Plain parentTopic)

/-- An event of the parent level is too short for the prefix that is stripped. -/
theorem dataCallback_parentTopic {data : Bytes} (hdata : data ≠ []) :
    dataCallback ⟨parentTopic, data⟩ = .aborted := by
  have hguard : ¬(parentTopic.length = 0 ∨ data.length = 0) := by
    rw [List.length_eq_zero_iff (l := data)]
    exact not_or.mpr ⟨by decide, hdata⟩
  rw [dataCallback, if_neg hguard]
  exact if_pos (by decide : parentTopic.length < TopicMainString.length)

/-- An event whose topic begins with the main topic is handled when it has data, whatever comes
behind the main topic. -/
theorem handled_main (rest : Bytes) {data : Bytes} (hdata : data ≠ []) :
    Handled ⟨TopicMainString ++ rest, data⟩ := by
  obtain ⟨aligns, h⟩ := dataCallback_main rest hdata
  refine ⟨by simp [h], fun other hother stream => ?_⟩
  obtain rfl : rest = other := List.append_cancel_left hother
  rw [h, DataCallback.sends, select_sendToBoth]
  rfl

/-- **Every topic but the parent level is handled.** Of the events that the subscription lets
through and that carry data, `dataCallback` handles exactly those with another topic than
the parent level. -/
theorem handled_iff_ne_parentTopic (event : MqttEvent) (hdelivered : Delivered event.topic)
    (hdata : event.data ≠ []) : Handled event ↔ event.topic ≠ parentTopic := by
  obtain ⟨topic, data⟩ := event
  constructor
  · rintro hhandled rfl
    exact hhandled.notAborted (dataCallback_parentTopic hdata)
  · intro hne
    obtain ⟨rest, rfl⟩ := (delivered_iff.mp hdelivered).resolve_left hne
    exact handled_main rest hdata

/-- The parent level is delivered, and an event with this topic aborts the program. -/
theorem parentTopic_aborts :
    Delivered parentTopic ∧ ¬Handled ⟨parentTopic, ascii ['x']⟩ :=
  ⟨by decide, fun hhandled => hhandled.notAborted rfl⟩

/-- An event of the topic `text` below the main topic, with one byte of data, is handled. -/
theorem handled_text : Handled ⟨TopicMainString ++ ascii ['t', 'e', 'x', 't'], ascii ['x']⟩ :=
  (handled_iff_ne_parentTopic _ (by decide) (by decide)).mpr (by decide)

end NixieVfdCentral
