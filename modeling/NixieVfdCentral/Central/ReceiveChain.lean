import NixieVfdCentral.Central.PartialWrites
import NixieVfdCentral.Uart.EventAccounting
import NixieVfdCentral.Uart.ReceivePath

/-!
# From the line to the time requests

The bytes of a clock pass through the buffer of the UART driver, the event task, the stream
`rxStream` and the buffer of the packet processor, whose task hands each packet it extracts to
`processPacket`. Every one of these stages cuts the bytes in its own way, and none of them looks
at what the others do. The packets handed over are nevertheless those that a reader of the packet
format finds in the bytes that arrived, noise included, as long as no data event waits whenever
the event task flushes the input of the driver (when it starts, and when the driver reports a
full buffer or queue), the stream has room for what is sent to it, and every receive returns at
least one byte and has no full buffer shifted. The time is asked for once for each packet that
requests it.
-/

namespace NixieVfdCentral

open Runs Framing PacketProcessor

/-- Topic and payload of a packet that asks for the time. -/
def timeRequest : Bytes × Bytes :=
  (ascii ['c', 'l', 'o', 'c', 'k'], ascii ['r', 'e', 'q', 'u', 'e', 's', 't'])

/-- `processPacket` calls `queueTimeSend` exactly for a packet that asks for the time. -/
theorem PacketProcessor.processPacket_iff (p : PacketProcessor) :
    p.processPacket = true ↔ p.exposed.packet = timeRequest := by
  simp only [processPacket, Exposed.packet, timeRequest, Bool.and_eq_true, beq_iff_eq,
    Prod.mk.injEq]

/-- Whether the last call of `extractPacketFromReceiveStream` returned true. -/
def Receiver.returned (r : Receiver) : Bool := (r.results.getLast?.getD none).isSome

namespace UartEvent

/-- The bytes that a step of the driver brings in. -/
def arriving : Action → Bytes
  | .arrive bytes => bytes
  | _ => []

/-- The bytes that the event task has read but not sent yet. -/
def inHand (s : UartEvent) : Bytes :=
  match s.position with
  | .forwarding _ read => read
  | _ => []

/-- The bytes that a step of the event task sends to `rxStream`. -/
def sending (s : UartEvent) : Action → Bytes
  | .send => s.inHand
  | _ => []

/-- **A step that throws no announced bytes away loses none**: what is sent, in hand and in the
buffer after it is what was in hand and in the buffer before it, and what arrives. -/
theorem step_keeps_bytes {s s' : UartEvent} {a : Action} (hinStep : InStep s)
    (hguard : FlushesUnannounced s a) (hstep : s.step a = some s') :
    s.sending a ++ (s'.inHand ++ s'.rxBuffer) = s.inHand ++ s.rxBuffer ++ arriving a := by
  cases stepped_of_step hstep with
  | arrive bytes _ => simp [sending, inHand, arriving]
  | report _ _ => simp [sending, inHand, arriving]
  | flush _ hflushes hannounced =>
    have hempty : s.rxBuffer = [] := by
      rw [hinStep.buffer_eq, hannounced, List.flatMap_eq_nil_iff]
      exact fun event hevent => DriverEvent.own_eq_nil (hguard hflushes event hevent)
    cases a with
    | flushInput =>
      simp only [step, Option.ite_none_right_eq_some] at hstep
      simp [sending, inHand, arriving, flush, hempty, hstep.1]
    | handleEvent =>
      rcases hflushes with hposition | hposition
      · simp [sending, inHand, arriving, flush, hempty, hposition]
      · simp [sending, inHand, arriving, flush, hempty, hposition]
    | arrive | report | receiveEvent | readBytes | send => exact hflushes.elim
  | receiveEvent event events hposition _ => simp [sending, inHand, arriving, hposition]
  | readBytes own hposition _ => simp [sending, inHand, arriving, hposition]
  | send own read hposition => simp [sending, inHand, arriving, hposition]
  | dismiss event hposition _ _ => simp [sending, inHand, arriving, hposition]

end UartEvent

/-- The stages between the line and the time source. -/
structure ReceiveChain where
  /-- The driver and the event task. -/
  uartEvent : UartEvent
  /-- `rxStream`. -/
  rxStream : StreamBuffer UInt8 Application.BufferSize
  /-- The packet processor and the history of its calls. -/
  receiver : Receiver
  /-- How often `processPacket` has called `queueTimeSend`. -/
  queueTimeSends : ℕ
  /-- The bytes that have arrived. -/
  arrived : Bytes

namespace ReceiveChain

/-- Nothing has arrived. -/
def initial (rxBuffer : Vector UInt8 RxBufferSize) : ReceiveChain where
  uartEvent := UartEvent.initial
  rxStream := ⟨[], Nat.zero_le _⟩
  receiver := Receiver.initial rxBuffer
  queueTimeSends := 0
  arrived := []

/-- The steps of the stages. -/
inductive Action
  /-- A step of the driver or of the event task. -/
  | uart (a : UartEvent.Action)
  /-- A round of the loop of the packet processor in which `receive` returns `n` bytes. -/
  | extract (n : ℕ)

/-- One step. A `receive` that may return something waits until it can, and one that returns
nothing is followed by a reset of the stream. A packet that a call exposes is processed before
the next call. -/
def step (s : ReceiveChain) : Action → Option ReceiveChain
  | .uart a =>
    (s.uartEvent.step a).map fun uartEvent =>
      { s with
        uartEvent := uartEvent
        rxStream := s.rxStream.send (s.uartEvent.sending a)
        arrived := s.arrived ++ UartEvent.arriving a }
  | .extract n =>
    if n ≤ s.rxStream.content.length ∧ (0 < s.receiver.processor.requestedCapacity → 0 < n) then
      (s.receiver.step (s.rxStream.content.take n)).map fun receiver =>
        { s with
          rxStream := s.rxStream.drain (if n = 0 then s.rxStream.content.length else n)
          receiver := receiver
          queueTimeSends := s.queueTimeSends +
            if receiver.returned && receiver.processor.processPacket then 1 else 0 }
    else none

/-- The packets that a reader of the packet format finds in some bytes. -/
def packetsIn (bytes : Bytes) : List (Bytes × Bytes) :=
  (packetFormat.read bytes).frames.map fun frame => (exposedOf frame).packet

/-- Nothing gets lost in a stage: the input of the driver is flushed only while no data event
waits, when the event task starts as well as when the driver reports a full buffer or queue; what
is sent to `rxStream` fits; and a receive returns something and does not have the full buffer
shifted. -/
def Unhindered (s : ReceiveChain) : Action → Prop
  | .uart a => UartEvent.FlushesUnannounced s.uartEvent a ∧
      (s.uartEvent.sending a).length ≤ s.rxStream.free
  | .extract n => 0 < n ∧ ¬s.receiver.processor.TakesShift (s.rxStream.content.take n)

instance (s : ReceiveChain) : (a : Action) → Decidable (s.Unhindered a)
  | .uart _ | .extract _ => inferInstanceAs (Decidable (_ ∧ _))

/-- The bytes between the line and the packet processor. -/
def onTheWay (s : ReceiveChain) : Bytes :=
  s.rxStream.content ++ (s.uartEvent.inHand ++ s.uartEvent.rxBuffer)

/-- The packets handed over are the first ones of those that arrived, and they are all of them
once no byte is on its way and the packet processor holds no further packet. -/
structure Faithful (s : ReceiveChain) : Prop where
  inOrder : s.receiver.packets <+: packetsIn s.arrived
  complete : s.onTheWay = [] → packetFormat.nextFrame s.receiver.processor.window = none →
    s.receiver.packets = packetsIn s.arrived

/-- Every byte that arrived is on its way or was received, and the packet processor has taken
packet after packet off what it received. -/
structure InOrder (s : ReceiveChain) : Prop where
  behind : UartEvent.Behind s.uartEvent
  inStep : UartEvent.InStep s.uartEvent
  wellFormed : s.receiver.processor.WellFormed
  arrived_eq : s.arrived = s.receiver.received ++ s.onTheWay
  takenOff : ∃ done, packetFormat.TakenOff s.receiver.received done s.receiver.processor.window ∧
    s.receiver.packets = done.map fun frame => (exposedOf frame).packet

/-- At the start no byte has arrived, and the bytes are in order. -/
theorem initial_inOrder (rxBuffer : Vector UInt8 RxBufferSize) : InOrder (initial rxBuffer) :=
  ⟨UartEvent.initial_behind, UartEvent.initial_inStep, Receiver.initial_wellFormed rxBuffer, rfl,
    [], Format.TakenOff.nil, rfl⟩

/-- What is in order is faithful: the packets taken off so far begin the packets of what arrived,
and are all of them once nothing is left over. -/
theorem InOrder.faithful {s : ReceiveChain} (h : s.InOrder) : s.Faithful := by
  obtain ⟨done, htakenOff, hpackets⟩ := h.takenOff
  have hreceived := htakenOff.frames_eq
  constructor
  · have hmore := frames_read_append (F := packetFormat) s.receiver.received s.onTheWay
    rw [← h.arrived_eq, hreceived] at hmore
    rw [hpackets]
    exact ((List.prefix_append done _).trans hmore).map _
  · intro hnothing hnone
    rw [h.arrived_eq, hnothing, List.append_nil, packetsIn, hreceived,
      read_of_nextFrame_eq_none hnone, List.append_nil, hpackets]

variable {s s' : ReceiveChain}

/-- The driver and the event task keep the bytes in order. -/
theorem InOrder.uart (h : s.InOrder) {a : UartEvent.Action} (hguard : s.Unhindered (.uart a))
    (hstep : s.step (.uart a) = some s') : s'.InOrder := by
  obtain ⟨uartEvent, huart, rfl⟩ := Option.map_eq_some_iff.mp hstep
  obtain ⟨hflushes, hfits⟩ := hguard
  refine ⟨h.behind.step huart, (h.inStep.step_iff h.behind huart).mpr hflushes, h.wellFormed, ?_,
    h.takenOff⟩
  have hkeeps := UartEvent.step_keeps_bytes h.inStep hflushes huart
  change s.arrived ++ _ = s.receiver.received ++ (s.rxStream.content ++
    s.rxStream.taken (s.uartEvent.sending a) ++ (uartEvent.inHand ++ uartEvent.rxBuffer))
  rw [StreamBuffer.taken_of_le hfits, List.append_assoc s.rxStream.content, hkeeps, h.arrived_eq,
    onTheWay]
  simp

/-- A round of the packet processor, in terms of what its call received. -/
theorem step_extract {n : ℕ} (hstep : s.step (.extract n) = some s') :
    n ≤ s.rxStream.content.length ∧
      s.receiver.step (s.rxStream.content.take n) = some s'.receiver ∧
      s' = { s with
        rxStream := s.rxStream.drain (if n = 0 then s.rxStream.content.length else n)
        receiver := s'.receiver
        queueTimeSends := s.queueTimeSends +
          if s'.receiver.returned && s'.receiver.processor.processPacket then 1 else 0 } := by
  simp only [step, Option.ite_none_right_eq_some] at hstep
  obtain ⟨⟨hn, _⟩, hmap⟩ := hstep
  obtain ⟨receiver, hreceiver, rfl⟩ := Option.map_eq_some_iff.mp hmap
  exact ⟨hn, hreceiver, rfl⟩

/-- A call that does not shift the buffer takes the next packet off what was received, or it
finds none. -/
theorem InOrder.extract (h : s.InOrder) {n : ℕ} (hguard : s.Unhindered (.extract n))
    (hstep : s.step (.extract n) = some s') : s'.InOrder := by
  obtain ⟨hn, hreceiver, heq⟩ := step_extract hstep
  obtain ⟨hpos, hshift⟩ := hguard
  have hchunk : s.rxStream.content.take n ≠ [] := by
    apply List.ne_nil_of_length_pos
    rwa [List.length_take, Nat.min_eq_left hn]
  obtain ⟨hreceived, returned, hcall, hresults⟩ :=
    Receiver.step_of_ne h.wellFormed hchunk hreceiver
  have hwf := Receiver.step_wellFormed h.wellFormed hreceiver
  obtain ⟨done, htakenOff, hpackets⟩ := h.takenOff
  have hpending := htakenOff.receive (s.rxStream.content.take n)
  rw [← h.wellFormed.pendingAfterReceive_eq_append hshift, ← hreceived] at hpending
  refine ⟨by rw [heq]; exact h.behind, by rw [heq]; exact h.inStep, hwf, ?_, ?_⟩
  · rw [hreceived, heq, onTheWay]
    change s.arrived = _ ++ (s.rxStream.content.drop (if n = 0 then _ else n) ++ _)
    rw [if_neg (Nat.pos_iff_ne_zero.mp hpos), h.arrived_eq, onTheWay, List.append_assoc,
      ← List.append_assoc (s.rxStream.content.take n), List.take_append_drop]
  · have hpackets' : s'.receiver.packets = s.receiver.packets ++
        [if returned = true then some s'.receiver.processor.exposed else none].filterMap
          (Option.map Exposed.packet) := by
      rw [Receiver.packets, hresults, List.filterMap_append]
      rfl
    rcases hcall.outcome with ⟨rfl, frame, hnext, hexposed⟩ | ⟨rfl, _, hwindow, _⟩
    · refine ⟨done ++ [frame], hpending.take hnext, ?_⟩
      rw [hpackets', hpackets, if_pos rfl, hexposed, List.map_append]
      rfl
    · refine ⟨done, hwindow ▸ hpending.resync, ?_⟩
      rw [hpackets', hpackets]
      exact List.append_nil _

/-- Every unhindered step of the driver, the event task or the packet processor keeps the bytes in
order. -/
theorem InOrder.step (h : s.InOrder) {a : Action} (hguard : s.Unhindered a)
    (hstep : s.step a = some s') : s'.InOrder := by
  cases a with
  | uart a => exact h.uart hguard hstep
  | extract n => exact h.extract hguard hstep

/-- **What arrives is what is handed over.** In every run in which no data event waits when the
driver's input is flushed, also at the start, the stream has room for what is sent to it and no
receive has the full buffer shifted, the packets handed to `processPacket` are those that a reader
of the packet format finds in the bytes that arrived, in order, however the driver, the stream and
the packet processor cut the bytes. -/
theorem faithful_of_unhindered (rxBuffer : Vector UInt8 RxBufferSize) (actions : List Action)
    (hguard : Along step Unhindered (initial rxBuffer) actions) :
    Visited step Faithful (initial rxBuffer) actions :=
  (hguard.visited (fun _ _ _ h hunhindered hstep => h.step hunhindered hstep)
    (initial_inOrder rxBuffer)).mono fun _ h => h.faithful

/-- A call adds what it exposed to the packets, and tells by its result whether it did. -/
theorem step_packets {r r' : Receiver} {chunk : Bytes} (hwf : r.processor.WellFormed)
    (hstep : r.step chunk = some r') :
    r'.packets = r.packets ++ if r'.returned then [r'.processor.exposed.packet] else [] := by
  have hresults : ∃ returned : Bool, r'.results =
      r.results ++ [if returned = true then some r'.processor.exposed else none] := by
    obtain ⟨_, _, ⟨_, _, hnone⟩ | ⟨_, returned, _, hresults⟩⟩ := Receiver.step_cases hwf hstep
    · exact ⟨false, hnone⟩
    · exact ⟨returned, hresults⟩
  obtain ⟨returned, hresults⟩ := hresults
  cases returned <;> simp [Receiver.packets, Receiver.returned, hresults]

/-- The time was asked for once for each packet handed over that requests it. -/
def Asked (s : ReceiveChain) : Prop :=
  s.receiver.processor.WellFormed ∧ s.queueTimeSends = s.receiver.packets.count timeRequest

/-- Every step asks for the time exactly if it hands a request over. -/
theorem Asked.step (h : s.Asked) {a : Action} (hstep : s.step a = some s') : s'.Asked := by
  cases a with
  | uart a =>
    obtain ⟨uartEvent, _, rfl⟩ := Option.map_eq_some_iff.mp hstep
    exact h
  | extract n =>
    obtain ⟨_, hreceiver, heq⟩ := step_extract hstep
    refine ⟨Receiver.step_wellFormed h.1 hreceiver, ?_⟩
    rw [step_packets h.1 hreceiver, List.count_append, ← h.2,
      congrArg ReceiveChain.queueTimeSends heq]
    refine congrArg (s.queueTimeSends + ·) ?_
    cases hreturned : s'.receiver.returned with
    | false => rfl
    | true =>
      have hrequest := s'.receiver.processor.processPacket_iff
      cases hprocess : s'.receiver.processor.processPacket with
      | false =>
        have hother : ¬s'.receiver.processor.exposed.packet = timeRequest := by
          simp [← hrequest, hprocess]
        rw [if_pos rfl, List.count_singleton]
        simp [hother]
      | true =>
        rw [if_pos rfl, hrequest.mp hprocess, List.count_singleton_self]
        rfl

/-- The bytes of a request, between noise. -/
def noisyRequest : Bytes :=
  [0x55] ++ (PacketHeader.toBytes { topicLength := 5, payloadSize := 7 } ++ timeRequest.1 ++
    timeRequest.2) ++ [0xEF]

/-- The request arrives in two pieces, which are cut once more between the stream and the packet
processor. -/
def requestInPieces : List Action :=
  [.uart .flushInput, .uart (.arrive (noisyRequest.take 4)), .uart .receiveEvent,
    .uart (.arrive (noisyRequest.drop 4)), .uart .readBytes, .uart .send, .extract 3,
    .uart .receiveEvent, .uart .readBytes, .uart .send, .extract 18]

/-- The request that arrives in pieces between noise is handed over as it was sent. -/
theorem faithful_requestInPieces :
    Visited step Faithful (initial (Vector.replicate RxBufferSize 0)) requestInPieces :=
  faithful_of_unhindered _ _ (by decide +kernel)

end ReceiveChain

end NixieVfdCentral
