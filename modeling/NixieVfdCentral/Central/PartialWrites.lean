import NixieVfdCentral.Central.Messages
import NixieVfdCentral.Foundations.BoundedStreams
import NixieVfdCentral.Uart.Packets

/-!
# Messages on a stream that may be full

The transmit streams hold 512 bytes. `MqttClient::dataCallback` sends the header, the topic
and the data one after another and does not look at how many bytes each send took, while
`UartTx::taskMain` takes bytes from the streams at any time. A message that does not fit is
cut off inside, and its header still announces all of it.
-/

namespace NixieVfdCentral

open Runs SharedLogs

/-- `Application::BufferSize`, the capacity of the transmit streams. -/
def Application.BufferSize : ℕ := 512

/-- What is put on a stream is nothing, or the header, the topic and the data, the header
announcing the numbers of topic and data bytes. -/
def WholeOrNothing (topic data appended : Bytes) : Prop :=
  appended = [] ∨ (forwardedHeader topic data).Announces topic data ∧
    appended = (forwardedHeader topic data).toBytes ++ topic ++ data

/-- The state in which `dataCallback` starts to send an event below the main topic. -/
def forwarding (streams : TxStream → StreamBuffer UInt8 Application.BufferSize)
    (topic data : Bytes) : Sending.State TxStream UInt8 Application.BufferSize :=
  Sending.start streams (dataCallback ⟨TopicMainString ++ topic, data⟩).sends

/-- **A message is put on a stream whole or not at all** exactly if each of its sends to the
stream finds room for its whole piece, or each of them finds no room. -/
theorem wholeOrNothing_iff (streams : TxStream → StreamBuffer UInt8 Application.BufferSize)
    (topic data : Bytes) (hdata : data ≠ []) (hmax : data.length ≤ 1024)
    (actions : List (Sending.Action TxStream))
    {t : Sending.State TxStream UInt8 Application.BufferSize}
    (hrun : run Sending.step (forwarding streams topic data) actions = some t)
    (hdone : t.pending = []) (stream : TxStream) :
    WholeOrNothing topic data (t.appended stream) ↔
      Along Sending.step (Sending.Fits stream) (forwarding streams topic data) actions ∨
        Along Sending.step (Sending.FindsNoRoom stream) (forwarding streams topic data)
          actions := by
  have hsize : 1024 < UInt16.size := by decide
  have hpayload : data.length < UInt16.size := by omega
  have hselect : select stream (dataCallback ⟨TopicMainString ++ topic, data⟩).sends =
      [(forwardedHeader topic data).toBytes, topic, data] := by
    rw [sends_dataCallback_main topic hdata hpayload, select_sendToBoth]
  have hwhole : whole stream (dataCallback ⟨TopicMainString ++ topic, data⟩).sends =
      (forwardedHeader topic data).toBytes ++ topic ++ data := by
    rw [whole, hselect]
    simp
  obtain ⟨hall, hnone⟩ := Sending.appended_eq_iff streams _ stream hrun hdone
  rw [hwhole] at hall
  rw [WholeOrNothing, hnone, hall, or_comm]
  refine or_congr_left ⟨And.right, fun hfits => ⟨?_, hfits⟩⟩
  have htopic : topic.length ≤ Application.BufferSize :=
    Sending.length_le_of_fits streams _ hrun hdone hfits topic (by rw [hselect]; simp)
  have hcapacity : Application.BufferSize < UInt16.size := by decide
  exact PacketHeader.announces_of_lt 0 (by omega) hpayload

/-- Streams with nothing in them. -/
def emptyStreams : TxStream → StreamBuffer UInt8 Application.BufferSize :=
  fun _ => ⟨[], Nat.zero_le _⟩

/-- A topic behind the main topic. -/
def textTopic : Bytes := ascii ['t', 'e', 'x', 't']

/-- Data of 600 bytes. -/
def longData : Bytes := List.replicate 600 65

/-- Data of 600 bytes, sent to empty streams, is cut off after the 501 bytes for which there is
room behind the header and the topic. -/
theorem longData_cut_off :
    ∃ t, run Sending.step (forwarding emptyStreams textTopic longData)
        [.send, .send, .send, .send, .send, .send] = some t ∧ t.pending = [] ∧
      ¬WholeOrNothing textTopic longData (t.appended .txStream0) := by
  have hrun : (run Sending.step (forwarding emptyStreams textTopic longData)
      [.send, .send, .send, .send, .send, .send]).map
        (fun t => (t.pending, (t.appended .txStream0).length)) = some ([], 512) := by
    decide +kernel
  obtain ⟨t, ht, heq⟩ := Option.map_eq_some_iff.mp hrun
  obtain ⟨hpending, hlength⟩ := Prod.mk.inj heq
  refine ⟨t, ht, hpending, ?_⟩
  rintro (hnothing | ⟨_, hwhole⟩)
  · rw [hnothing] at hlength
    cases hlength
  · have hdata : longData.length = 600 := List.length_replicate
    rw [hwhole, PacketHeader.length_packet] at hlength
    omega

/-- A short message, of which the consumer takes some bytes between the sends. -/
theorem wholeOrNothing_shortData :
    ∃ t, run Sending.step (forwarding emptyStreams textTopic (ascii ['h', 'i']))
        [.send, .drain .txStream0 5, .send, .send, .send, .send, .send] = some t ∧
      WholeOrNothing textTopic (ascii ['h', 'i']) (t.appended .txStream0) := by
  have hrun : (run Sending.step (forwarding emptyStreams textTopic (ascii ['h', 'i']))
      [.send, .drain .txStream0 5, .send, .send, .send, .send, .send]).map
        (fun t => t.pending) = some [] := by
    decide +kernel
  obtain ⟨t, ht, hpending⟩ := Option.map_eq_some_iff.mp hrun
  refine ⟨t, ht, ?_⟩
  rw [wholeOrNothing_iff emptyStreams _ _ (by decide) (by decide) _ ht hpending]
  exact Or.inl (by decide +kernel)

end NixieVfdCentral
