import NixieVfdCentral.Central.Transmission
import NixieVfdCentral.Central.WireFrames

/-!
# What the clocks are told

The tasks set out to tell the clocks topics and payloads; what reaches a clock is a sequence of
bytes, cut at places that have nothing to do with the messages. A reader of the packet format
finds in these bytes the messages of both tasks, each task's in its order, provided no task
sends into a message of the other one and every piece finds room in its stream.
-/

namespace NixieVfdCentral.Outgoing

open Runs SharedLogs Framing PacketProcessor

/-- What a reader of the packet format finds in the bytes on a wire. -/
def reading (s : Outgoing) (stream : TxStream) : Reading UInt8 :=
  packetFormat.read (s.uartTx stream).wire

/-- The topics and payloads of the packets on a wire. -/
def delivered (s : Outgoing) (stream : TxStream) : List (Bytes × Bytes) :=
  (s.reading stream).frames.map fun frame => (exposedOf frame).packet

/-- A task sends while the other one is not in the middle of a message, the stream has room for
the piece, and what a task sets out to tell has lengths that a header can announce. -/
def Reliable (s : Outgoing) : Action → Prop
  | .central a => s.central.SendsExclusively a ∧
      (∀ piece ∈ s.central.piece a, piece.2.length ≤ (s.uartTx piece.1).txStream.free) ∧
        ∀ said ∈ s.central.saying a,
          said.2.1.length < UInt16.size ∧ said.2.2.length < UInt16.size
  | .receive _ _ | .write _ => True

instance (s : Outgoing) : (a : Action) → Decidable (s.Reliable a)
  | .central _ => inferInstanceAs (Decidable (_ ∧ _ ∧ _))
  | .receive _ _ | .write _ => .isTrue trivial

/-- The packets on the wire are messages of the tasks, each task's in its order. Nothing between
them is skipped, and once nothing is on its way any more, they are all the messages. -/
structure Delivers (s : Outgoing) (stream : TxStream) : Prop where
  skipped : (s.reading stream).skipped = []
  inOrder : ∃ messages : List (Writer × Bytes × Bytes),
    s.delivered stream = messages.map Prod.snd ∧
      ∀ writer, select writer messages <+: select writer s.said
  complete : s.central.tx.Quiet → (s.uartTx stream).Drained →
    (s.reading stream).left = [] ∧ ∃ messages : List (Writer × Bytes × Bytes),
      s.delivered stream = messages.map Prod.snd ∧
        ∀ writer, select writer messages = select writer s.said

/-- The packet that the bytes of a message make on a stream. -/
def packetOf (stream : TxStream) (sends : Sends) : Bytes × Bytes :=
  (exposedOf (whole stream sends)).packet

/-- A message that tells a packet of announceable lengths is a frame, and reading it gives back
the packet. -/
theorem packetOf_eq {sends : Sends} {packet : Bytes × Bytes} (h : Tells sends packet)
    (htopic : packet.1.length < UInt16.size) (hpayload : packet.2.length < UInt16.size)
    (stream : TxStream) :
    packetFormat.IsFrame (whole stream sends) ∧ packetOf stream sends = packet := by
  have hannounces : (forwardedHeader packet.1 packet.2).Announces packet.1 packet.2 :=
    PacketHeader.announces_of_lt 0 htopic hpayload
  have hwhole := h stream
  rw [UInt16.toNat_ofNat_of_lt' hpayload, List.take_length] at hwhole
  rw [packetOf, hwhole]
  exact ⟨hannounces.isFrame, hannounces.packet_eq⟩

/-- Each stream has taken whole messages and the beginning of at most one more, and the messages
of each task are the frames of what it has set out to tell. -/
structure Intact (s : Outgoing) : Prop where
  framed : s.central.Framed
  accounted : ∀ stream, s.Accounted stream
  taken : ∀ stream, (s.uartTx stream).taken = (s.central.tx.log stream).map Prod.snd
  isFrame : ∀ writer stream, ∀ sends ∈ s.central.tx.begun writer,
    packetFormat.IsFrame (whole stream sends)
  said : ∀ writer stream,
    select writer s.said = (s.central.tx.begun writer).map (packetOf stream)

/-- At the start every stream is intact: nothing was sent, and no message was begun. -/
theorem initial_intact : Intact initial :=
  ⟨Central.initial_framed, fun _ => ⟨.nil, UartTx.initial_accounted⟩, fun _ => rfl,
    fun _ _ _ h => absurd h List.not_mem_nil, fun _ _ => rfl⟩

variable {s s' : Outgoing} {stream : TxStream} {a : Action}

/-- What was read are the first of the given messages, if these have the bytes on the wire as a
beginning. -/
theorem delivered_of_beginning {messages : List (Writer × Sends)}
    (hframes : ∀ message ∈ messages, packetFormat.IsFrame (whole stream message.2))
    (hwire : (s.uartTx stream).wire <+: messages.flatMap fun message => whole stream message.2) :
    (s.reading stream).skipped = [] ∧ ∃ n, s.delivered stream =
      ((messages.take n).map fun message => packetOf stream message.2) := by
  rw [List.flatMap_def] at hwire
  obtain ⟨done, rest, left, hsplit, hread, _⟩ :=
    exists_read_of_beginning (List.forall_mem_map.mpr hframes) hwire
  refine ⟨by rw [reading, hread], done.length, ?_⟩
  have hdone : done = (messages.take done.length).map fun message => whole stream message.2 := by
    rw [List.map_take, hsplit, List.take_left]
  rw [delivered, reading, hread]
  calc done.map (fun frame => (exposedOf frame).packet)
      = ((messages.take done.length).map fun message => whole stream message.2).map
          fun frame => (exposedOf frame).packet := by rw [← hdone]
    _ = (messages.take done.length).map fun message => packetOf stream message.2 := by
        rw [List.map_map]
        rfl

/-- Messages whose packets are delivered give the topics and payloads themselves, each with its
writer and in the same order. -/
theorem exists_packets (s : Outgoing) (stream : TxStream) {messages : List (Writer × Sends)}
    (h : s.delivered stream = messages.map fun message => packetOf stream message.2) :
    ∃ packets : List (Writer × Bytes × Bytes), s.delivered stream = packets.map Prod.snd ∧
      ∀ writer, select writer packets = (select writer messages).map (packetOf stream) :=
  ⟨messages.map fun message => (message.1, packetOf stream message.2),
    by rw [h, List.map_map]; rfl, fun writer => select_map writer _ messages⟩

/-- The bytes on the wire are a beginning of those that were sent to the stream. -/
theorem Intact.wire_begins (h : s.Intact) (stream : TxStream) :
    (s.uartTx stream).wire <+: s.central.tx.content stream := by
  have htaken := (h.accounted stream).accounted.taken_eq
  rw [h.taken stream, ← List.flatMap_def, List.append_assoc] at htaken
  exact ⟨_, htaken.symm⟩

/-- Messages that were begun are frames of the packet format, whichever task began them. -/
theorem Intact.isFrame_of_begun (h : s.Intact) (stream : TxStream)
    {messages : List (Writer × Sends)}
    (hmessages : ∀ writer, select writer messages <+: s.central.tx.begun writer) :
    ∀ message ∈ messages, packetFormat.IsFrame (whole stream message.2) := fun message hmessage =>
  h.isFrame message.1 stream message.2 ((hmessages message.1).subset (mem_select hmessage))

/-- Whole messages on the stream are whole packets on the wire. -/
theorem Intact.delivers (h : s.Intact) (stream : TxStream) : s.Delivers stream := by
  obtain ⟨done, tail, hwhole⟩ := h.framed.2 stream
  obtain ⟨messages, hmessages, hcontent⟩ := hwhole.exists_messages
  have hwire := (h.wire_begins stream).trans hcontent
  obtain ⟨hskipped, n, hdelivered⟩ :=
    delivered_of_beginning (h.isFrame_of_begun stream hmessages) hwire
  refine ⟨hskipped, ?_, fun hquiet hdrained => ?_⟩
  · obtain ⟨packets, hpackets, hselect⟩ := exists_packets s stream hdelivered
    refine ⟨packets, hpackets, fun writer => ?_⟩
    rw [hselect, h.said writer stream]
    exact ((prefix_select writer n messages).trans (hmessages writer)).map _
  · obtain ⟨hbegun, hall⟩ := hwhole.of_quiet hquiet
    have hwire : (s.uartTx stream).wire =
        (done.map fun message => whole stream message.2).flatten := by
      have htaken := (h.accounted stream).accounted.taken_eq
      rw [h.taken stream, ← List.flatMap_def, hdrained.1, hdrained.2, List.append_nil,
        List.append_nil] at htaken
      rw [← htaken, ← List.flatMap_def]
      exact hall
    have hframes := h.isFrame_of_begun stream fun writer => hwhole.prefix_begun writer
    have hread : s.reading stream = ⟨done.map fun message => whole stream message.2, [], []⟩ := by
      rw [reading, hwire]
      exact read_flatten (List.forall_mem_map.mpr hframes)
    have hdelivered : s.delivered stream =
        done.map fun message => packetOf stream message.2 := by
      rw [delivered, hread, List.map_map]
      rfl
    obtain ⟨packets, hpackets, hselect⟩ := exists_packets s stream hdelivered
    refine ⟨by rw [hread], packets, hpackets, fun writer => ?_⟩
    rw [hselect, hbegun writer, h.said writer stream]

/-- A message that is begun is a frame of what its task sets out to tell. -/
theorem Intact.begin (h : s.Intact) {writer : Writer} {packet : Bytes × Bytes} {sends : Sends}
    (htells : Tells sends packet) (htopic : packet.1.length < UInt16.size)
    (hpayload : packet.2.length < UInt16.size)
    (htx : s'.central.tx = s.central.tx.start writer sends)
    (hsaid : s'.said = s.said ++ [(writer, packet)]) (other : Writer) (stream : TxStream) :
    (∀ message ∈ s'.central.tx.begun other, packetFormat.IsFrame (whole stream message)) ∧
      select other s'.said = (s'.central.tx.begun other).map (packetOf stream) := by
  obtain ⟨hframe, hpacket⟩ := packetOf_eq htells htopic hpayload stream
  rw [htx, hsaid, select_append]
  by_cases hother : other = writer
  · subst hother
    refine ⟨?_, ?_⟩
    · simp only [State.start, Function.update_self, List.mem_append, List.mem_singleton]
      rintro message (hmessage | rfl)
      · exact h.isFrame other stream message hmessage
      · exact hframe
    · simp [State.start, h.said other stream, hpacket, select_cons_self]
  · simp only [State.start, Function.update_of_ne hother,
      select_cons_of_ne (Ne.symm hother), select_nil, List.append_nil]
    exact ⟨h.isFrame other stream, h.said other stream⟩

/-- Every reliable step leaves whole messages, or the beginning of one, on both streams. -/
theorem Intact.step (h : s.Intact) (hreliable : s.Reliable a) (hstep : s.step a = some s') :
    s'.Intact := by
  have hplaced := h.framed.1
  obtain ⟨_, haccounted⟩ := step_accounted hplaced h.accounted hstep
  by_cases ha : ∃ central, a = .central central
  · obtain ⟨central, rfl⟩ := ha
    obtain ⟨hexclusive, hfits, hlengths⟩ := hreliable
    obtain ⟨hcentral, hsaid, hstreams⟩ := step_central hplaced hstep
    have hframed := h.framed.step hexclusive hcentral
    have htaken : ∀ stream, (s'.uartTx stream).taken =
        (s'.central.tx.log stream).map Prod.snd := by
      intro stream
      rcases hstreams stream with ⟨htx, hlog⟩ | ⟨writer, piece, hpiece, htx, hlog⟩
      · rw [htx, hlog, h.taken]
      · have hroom := hfits (stream, piece) hpiece
        rw [htx, hlog, UartTx.offer, StreamBuffer.taken_of_le hroom, h.taken, List.map_append]
        rfl
    cases Central.txStepped_of_step hplaced hcentral with
    | unchanged _ hsaying htx =>
      rw [hsaying, Option.toList_none, List.append_nil] at hsaid
      exact ⟨hframed, haccounted, htaken, by rw [htx]; exact h.isFrame,
        by rw [htx, hsaid]; exact h.said⟩
    | begins writer packet sends _ hsaying _ htells htx =>
      obtain ⟨htopic, hpayload⟩ := hlengths (writer, packet) (by rw [hsaying]; rfl)
      rw [hsaying] at hsaid
      have hbegin := h.begin htells htopic hpayload htx hsaid
      exact ⟨hframed, haccounted, htaken, fun other stream => (hbegin other stream).1,
        fun other stream => (hbegin other stream).2⟩
    | sends writer _ _ _ hsaying _ hsend _ =>
      have hbegun : s'.central.tx.begun = s.central.tx.begun := by
        obtain ⟨_, _, _, _, heq⟩ := State.send_eq_some hsend
        rw [heq]
      rw [hsaying, Option.toList_none, List.append_nil] at hsaid
      exact ⟨hframed, haccounted, htaken, by rw [hbegun]; exact h.isFrame,
        by rw [hbegun, hsaid]; exact h.said⟩
  · obtain ⟨hcentral, hsaid, other, tx, htx, hupdate⟩ :=
      step_uartTx (fun central heq => ha ⟨central, heq⟩) hstep
    refine ⟨hcentral ▸ h.framed, haccounted, fun stream => ?_, hcentral ▸ h.isFrame,
      by rw [hcentral, hsaid]; exact h.said⟩
    rw [hcentral, ← h.taken stream, hupdate]
    by_cases hstream : stream = other
    · subst hstream
      rw [Function.update_self]
      rcases htx with ⟨_, _, hreceive⟩ | ⟨_, hwrite⟩
      · obtain ⟨_, _, _, _, rfl⟩ := UartTx.receive_eq_some hreceive
        rfl
      · obtain ⟨_, _, rfl⟩ := UartTx.write_eq_some hwrite
        rfl
    · rw [Function.update_of_ne hstream]

/-- **The clocks are told what the tasks set out to tell them**, in every run whose steps are all
reliable, however the sends and the two `UartTx` tasks interleave and wherever the bytes on the
wires are cut. -/
theorem delivers_of_reliable (actions : List Action)
    (hguard : Along step Reliable initial actions) :
    Visited step (fun s => ∀ stream, s.Delivers stream) initial actions :=
  (hguard.visited (fun _ _ _ h hreliable hstep => h.step hreliable hstep) initial_intact).mono
    fun _ h stream => h.delivers stream

/-- A message of the MQTT task, then a sync, with the bytes of the first stream cut inside the
first packet. -/
def textThenSync : List Action :=
  [.central (.dataCallback Central.textEvent), .central (.send .mqttTask),
    .receive .txStream0 5, .central (.send .mqttTask), .central (.send .mqttTask),
    .central (.send .mqttTask), .write .txStream0, .central (.send .mqttTask),
    .central (.send .mqttTask), .receive .txStream0 6, .central .returnFromCallback,
    .central .delayReturns, .central .testPrepareForCountdown, .central .testShouldSendTime,
    .central (.send .timeTask), .write .txStream0, .central (.send .timeTask),
    .central (.send .timeTask), .central (.send .timeTask), .central .returnFromTimeSync]

/-- A text and a synchronisation, sent one after the other, are delivered on both streams. -/
theorem delivers_textThenSync :
    Visited step (fun s => ∀ stream, s.Delivers stream) initial textThenSync :=
  delivers_of_reliable _ (by decide +kernel)

/-- **What was said can be delivered.** From any state of a reliable run in which the tasks have
nothing left to send, the `UartTx` task of a stream can bring every message to its wire. -/
theorem exists_delivery {actions : List Action} {s : Outgoing}
    (hguard : Along step Reliable initial actions) (hrun : run step initial actions = some s)
    (hquiet : s.central.tx.Quiet) (stream : TxStream) :
    ∃ more t, run step s more = some t ∧ (∀ a ∈ more, Empties stream a) ∧
      (t.reading stream).left = [] ∧ ∃ messages : List (Writer × Bytes × Bytes),
        t.delivered stream = messages.map Prod.snd ∧
          ∀ writer, select writer messages = select writer s.said := by
  have hintact := hguard.invariant Intact (fun _ _ _ h hreliable hstep => h.step hreliable hstep)
    initial_intact hrun
  obtain ⟨more, t, hmore, hempties, hcentral, hsaid, hdrained⟩ := s.exists_drained stream
  have hreliable : Along step Reliable s more := along_of_forall_mem fun s a ha => by
    cases a with
    | central a => exact (hempties _ ha).elim
    | receive | write => trivial
  have ht := hreliable.invariant Intact (fun _ _ _ h hreliable hstep => h.step hreliable hstep)
    hintact hmore
  rw [← hsaid]
  exact ⟨more, t, hmore, hempties, (ht.delivers stream).complete (hcentral ▸ hquiet) hdrained⟩

/-- The packets of the run above can all be brought to the wire. -/
theorem exists_delivery_textThenSync :
    ∃ s more t, run step initial textThenSync = some s ∧ run step s more = some t ∧
      (∀ a ∈ more, Empties .txStream0 a) ∧ (t.reading .txStream0).left = [] ∧
      ∃ messages : List (Writer × Bytes × Bytes),
        t.delivered .txStream0 = messages.map Prod.snd ∧
          ∀ writer, select writer messages = select writer s.said := by
  have hrun : (run step initial textThenSync).map
      (fun s => decide (∀ writer, s.central.tx.pending writer = [])) = some true := by
    decide +kernel
  obtain ⟨s, hs, hdecide⟩ := Option.map_eq_some_iff.mp hrun
  have hquiet := of_decide_eq_true hdecide
  obtain ⟨more, t, hmore, hempties, hdelivered⟩ :=
    exists_delivery (by decide +kernel) hs hquiet .txStream0
  exact ⟨s, more, t, hs, hmore, hempties, hdelivered⟩

end NixieVfdCentral.Outgoing
