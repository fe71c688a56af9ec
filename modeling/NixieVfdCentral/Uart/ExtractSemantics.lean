import NixieVfdCentral.Uart.WindowSemantics

/-!
# The specification of one call

The header search of the source is resynchronisation of the pending bytes, and the
packet it exposes is their next frame. Together with the semantics of storing and
shifting this gives one specification of `extractPacketFromReceiveStream`, which every
statement about runs of the packet processor rests on.
-/

namespace NixieVfdCentral.PacketProcessor

open Buffers Framing

variable {p : PacketProcessor} {received : Bytes}

/-- The topic and payload pointers as a complete frame determines them: the payload
pointer is null exactly when the header announces an empty payload. -/
def exposedOf (frame : Bytes) : Exposed :=
  let header := PacketHeader.ofBytes frame
  let body := frame.drop sizeofPacketHeader
  { topic := some (body.take header.topicLength.toNat)
    payload := if 0 < header.payloadSize.toNat then
        some ((body.drop header.topicLength.toNat).take header.payloadSize.toNat)
      else none }

/-- What the header search from `p` ends with: the pending bytes are resynchronised and
nothing else but the header changes. -/
structure Searched (p : PacketProcessor) (found : Bool) (p' : PacketProcessor) : Prop where
  wellFormed : p'.WellFormed
  last_eq : p'.bufferLastPosition = p.bufferLastPosition
  rxBuffer_eq : p'.rxBuffer = p.rxBuffer
  topic_eq : p'.topic = p.topic
  payload_eq : p'.payload = p.payload
  window_eq : p'.window = packetFormat.resync p.window
  found_iff : found = true ↔ packetFormat.StartsHeader p'.window
  header_eq : found = true → p'.header = PacketHeader.ofBytes p'.window

/-- The header that was read last is no part of the pending bytes. -/
private theorem window_with_header (p : PacketProcessor) (header : PacketHeader) :
    ({ p with header := header } : PacketProcessor).window = p.window := rfl

/-- Skipping one byte drops the first pending byte. -/
theorem window_skip (p : PacketProcessor) :
    ({ p with bufferStartPosition := p.bufferStartPosition + 1 } : PacketProcessor).window =
      p.window.drop 1 := by
  rw [window, window, drop_slice, Nat.sub_sub]

/-- **The search loop** ends within as many rounds as bytes are pending, and it
resynchronises them. -/
theorem WellFormed.searchHeader {fuel : ℕ} (hp : p.WellFormed) (hfuel : p.window.length < fuel) :
    ∃ found p', p.searchHeader fuel = some (found, p') ∧ Searched p found p' := by
  induction fuel generalizing p with
  | zero => omega
  | succ fuel ih =>
    have hstart := hp.start_le_last
    have hlast := hp.last_le_size
    have hlength := hp.length_window
    have hsub : sizeSub p.bufferLastPosition p.bufferStartPosition = p.window.length := by
      rw [hlength]
      exact sizeSub_eq hstart hlast
    rw [PacketProcessor.searchHeader, hsub]
    by_cases hshort : p.window.length < sizeofPacketHeader
    · have hresync : packetFormat.resync p.window = p.window := resync_of_short hshort
      have hnone : ¬packetFormat.StartsHeader p.window := fun h => by
        have := (startsHeader_iff.mp h).1
        omega
      refine ⟨false, p, by rw [if_pos hshort], ?_⟩
      exact ⟨hp, rfl, rfl, rfl, rfl, hresync.symm, by simp [hnone], by simp⟩
    · have hheader : PacketHeader.ofBytes
          (slice p.rxBuffer p.bufferStartPosition sizeofPacketHeader) =
          PacketHeader.ofBytes p.window := by
        have hseven : sizeofPacketHeader ≤ p.bufferLastPosition - p.bufferStartPosition := by omega
        rw [← take_slice p.rxBuffer hseven, PacketHeader.ofBytes_take]
        rfl
      simp only [if_neg hshort, hheader]
      by_cases hmagic : (PacketHeader.ofBytes p.window).magic = ProtocolMagic
      · have hstarts : packetFormat.StartsHeader p.window :=
          startsHeader_iff.mpr ⟨by omega, hmagic⟩
        refine ⟨true, { p with header := PacketHeader.ofBytes p.window }, by rw [if_pos hmagic], ?_⟩
        refine ⟨⟨hstart, hlast⟩, rfl, rfl, rfl, rfl, ?_, ?_, fun _ => rfl⟩
        · rw [window_with_header, resync_of_startsHeader hstarts]
        · rw [window_with_header]
          exact ⟨fun _ => hstarts, fun _ => rfl⟩
      · have hnoise : ¬packetFormat.StartsHeader p.window := fun h =>
          hmagic (startsHeader_iff.mp h).2
        let q : PacketProcessor := { p with
          header := PacketHeader.ofBytes p.window
          bufferStartPosition := p.bufferStartPosition + 1 }
        have hq : q.WellFormed := by
          refine ⟨?_, hlast⟩
          change p.bufferStartPosition + 1 ≤ p.bufferLastPosition
          unfold sizeofPacketHeader at hshort
          omega
        have hwindow : q.window = p.window.drop 1 := window_skip p
        have hdropped : packetFormat.resync q.window = packetFormat.resync p.window := by
          rw [hwindow]
          cases hw : p.window with
          | nil => rfl
          | cons b w =>
            rw [hw] at hshort hnoise
            exact (resync_cons_of_noise (F := packetFormat) (Nat.le_of_not_lt hshort) hnoise).symm
        obtain ⟨found, p', hrun, hsearched⟩ := ih hq (by
          rw [hwindow, List.length_drop]
          unfold sizeofPacketHeader at hshort
          omega)
        refine ⟨found, p', by rw [if_neg hmagic]; exact hrun, ?_⟩
        exact { hsearched with window_eq := hsearched.window_eq.trans hdropped }

/-- The pointers into the buffer expose what the frame at the front of the pending bytes
determines. -/
theorem exposedOf_front (hread : p.header = PacketHeader.ofBytes p.window)
    (hfits : packetFormat.frameLength p.window ≤ p.window.length)
    (hlength : p.window.length = p.bufferLastPosition - p.bufferStartPosition) :
    exposedOf (p.window.take (packetFormat.frameLength p.window)) =
      { topic := some (slice p.rxBuffer (p.bufferStartPosition + sizeofPacketHeader)
          p.header.topicLength.toNat)
        payload := if 0 < p.header.payloadSize.toNat then
            some (slice p.rxBuffer (p.bufferStartPosition + sizeofPacketHeader +
              p.header.topicLength.toNat) p.header.payloadSize.toNat)
          else none } := by
  have hframe := frameLength_eq p.window
  rw [← hread] at hframe
  have htake : ∀ offset length, offset + length ≤ packetFormat.frameLength p.window →
      slice p.rxBuffer (p.bufferStartPosition + offset) length =
        ((p.window.take (packetFormat.frameLength p.window)).drop offset).take length := by
    intro offset length hle
    rw [List.drop_take, List.take_take, Nat.min_eq_left (by omega), window, drop_slice,
      take_slice p.rxBuffer (by omega)]
  have hofBytes : PacketHeader.ofBytes (p.window.take (packetFormat.frameLength p.window)) =
      p.header := by
    rw [hread, ← PacketHeader.ofBytes_take (p.window.take _), List.take_take,
      Nat.min_eq_left (by omega), PacketHeader.ofBytes_take]
  rw [exposedOf, hofBytes, Nat.add_assoc, htake sizeofPacketHeader _ (by omega),
    htake (sizeofPacketHeader + p.header.topicLength.toNat) _ (by omega), List.drop_drop]

/-- The number of bytes behind the header, as the source computes it. -/
theorem WellFormed.sizeSub_behindHeader (hp : p.WellFormed)
    (hheader : p.bufferStartPosition + sizeofPacketHeader ≤ p.bufferLastPosition) :
    sizeSub (sizeSub p.bufferLastPosition p.bufferStartPosition) sizeofPacketHeader =
      p.bufferLastPosition - p.bufferStartPosition - sizeofPacketHeader := by
  have hlast := hp.last_le_size
  rw [sizeSub_eq hp.start_le_last hlast]
  exact sizeSub_eq (by omega) (by omega)

/-- A packet whose bytes are all there is exposed by its two pointers and consumed. -/
theorem takePacket_of_fits (p : PacketProcessor)
    (hfits : ¬p.header.topicLength.toNat + p.header.payloadSize.toNat >
      sizeSub (sizeSub p.bufferLastPosition p.bufferStartPosition) sizeofPacketHeader) :
    p.takePacket = (true, { p with
      topic := some (p.bufferStartPosition + sizeofPacketHeader)
      payload := if 0 < p.header.payloadSize.toNat then
          some (p.bufferStartPosition + sizeofPacketHeader + p.header.topicLength.toNat)
        else p.payload
      bufferStartPosition := p.bufferStartPosition +
        (sizeofPacketHeader + p.header.topicLength.toNat + p.header.payloadSize.toNat) }) := by
  rw [PacketProcessor.takePacket, if_neg hfits]
  by_cases hpay : 0 < p.header.payloadSize.toNat
  · simp only [if_pos hpay]
  · simp only [if_neg hpay]

/-- **Exposing a packet.** When a header was found, the packet is taken exactly if the
announced frame is there; it is then the front of the pending bytes and is consumed. -/
theorem WellFormed.takePacket (hp : p.WellFormed) (hheader : packetFormat.StartsHeader p.window)
    (hread : p.header = PacketHeader.ofBytes p.window) (hpayload : p.payload = none) :
    (packetFormat.frameLength p.window ≤ p.window.length ∧
      ∃ p', p.takePacket = (true, p') ∧ p'.WellFormed ∧
        p'.bufferLastPosition = p.bufferLastPosition ∧ p'.rxBuffer = p.rxBuffer ∧
        p'.window = p.window.drop (packetFormat.frameLength p.window) ∧
        p'.exposed = exposedOf (p.window.take (packetFormat.frameLength p.window))) ∨
    (p.window.length < packetFormat.frameLength p.window ∧ p.takePacket = (false, p)) := by
  have hstart := hp.start_le_last
  have hlast := hp.last_le_size
  have hlength := hp.length_window
  have hseven := (startsHeader_iff.mp hheader).1
  have hsub := hp.sizeSub_behindHeader (by omega)
  have hframe := frameLength_eq p.window
  rw [← hread] at hframe
  by_cases hfits : packetFormat.frameLength p.window ≤ p.window.length
  · left
    have hconsumed : p.window.drop (packetFormat.frameLength p.window) =
        slice p.rxBuffer (p.bufferStartPosition + packetFormat.frameLength p.window)
          (p.bufferLastPosition - (p.bufferStartPosition + packetFormat.frameLength p.window)) := by
      rw [window, drop_slice, Nat.sub_sub]
    refine ⟨hfits, ?_⟩
    rw [takePacket_of_fits p (by omega), exposedOf_front hread hfits hlength, hconsumed,
      show packetFormat.frameLength p.window =
        sizeofPacketHeader + p.header.topicLength.toNat + p.header.payloadSize.toNat by omega]
    refine ⟨_, rfl, ⟨?_, hlast⟩, rfl, rfl, rfl, ?_⟩
    · change p.bufferStartPosition + _ ≤ p.bufferLastPosition
      omega
    · by_cases hpay : 0 < p.header.payloadSize.toNat
      · simp only [exposed, if_pos hpay, Option.map_some]
      · simp only [exposed, if_neg hpay, hpayload, Option.map_none, Option.map_some]
  · right
    exact ⟨by omega, by rw [PacketProcessor.takePacket, if_pos (by omega)]⟩

/-- What a call on the state `p` does, given what `receive` returned. -/
structure Extracted (p : PacketProcessor) (received : Bytes) (returned : Bool)
    (p' : PacketProcessor) : Prop where
  /-- The positions stay in order and inside the buffer. -/
  wellFormed : p'.WellFormed
  /-- The last position moves by what was received, whether the buffer was shifted or not. -/
  last_eq : p'.bufferLastPosition = p.beginExtract.bufferLastPosition + received.length
  /-- The buffer keeps the received bytes in order as long as it is not shifted. -/
  contents_eq : ¬p.TakesShift received → p'.contents = p.beginExtract.contents ++ received
  /-- The call returns true with the next frame of the pending bytes, or false without one. -/
  outcome :
    (returned = true ∧ ∃ frame, packetFormat.nextFrame (p.pendingAfterReceive received) =
        some (frame, p'.window) ∧ p'.exposed = exposedOf frame) ∨
      (returned = false ∧ packetFormat.nextFrame (p.pendingAfterReceive received) = none ∧
        p'.window = packetFormat.resync (p.pendingAfterReceive received) ∧
        p'.topic = none ∧ p'.payload = none)

/-- A call that returned true took the next frame of the pending bytes. -/
theorem Extracted.of_true {p' : PacketProcessor} (hcall : Extracted p received true p') :
    ∃ frame, packetFormat.nextFrame (p.pendingAfterReceive received) = some (frame, p'.window) ∧
      p'.exposed = exposedOf frame :=
  (hcall.outcome.resolve_right fun h => by cases h.1).2

/-- A call that returned false found no frame and dropped the noise. -/
theorem Extracted.of_false {p' : PacketProcessor} (hcall : Extracted p received false p') :
    packetFormat.nextFrame (p.pendingAfterReceive received) = none ∧
      p'.window = packetFormat.resync (p.pendingAfterReceive received) ∧
      p'.topic = none ∧ p'.payload = none :=
  (hcall.outcome.resolve_left fun h => by cases h.1).2

/-- A call that received nothing returns false and keeps the pending bytes. -/
theorem extractPacketFromReceiveStream_nil (p : PacketProcessor) :
    p.extractPacketFromReceiveStream [] = some (false, p.beginExtract) := rfl

/-- A call that received something is decided by the header search. -/
theorem extractPacketFromReceiveStream_of_search {found : Bool} {q : PacketProcessor}
    (hne : received ≠ [])
    (hsearch : (p.stored received).searchHeader (RxBufferSize + 1) = some (found, q)) :
    p.extractPacketFromReceiveStream received =
      some (if found = true then q.takePacket else (false, q)) := by
  have hlength : ¬received.length = 0 := by simpa using hne
  rw [stored] at hsearch
  rw [extractPacketFromReceiveStream, if_neg hlength, hsearch]
  rfl

/-- **The specification of a call that received something.** The call ends, and what it
returns and leaves behind is what the pending bytes after the receive determine. -/
theorem WellFormed.extract (hp : p.WellFormed) (hfits : received.length ≤ p.requestedCapacity)
    (hne : received ≠ []) :
    ∃ returned p', p.extractPacketFromReceiveStream received = some (returned, p') ∧
      Extracted p received returned p' := by
  obtain ⟨hq, hqlast, hqwindow⟩ := hp.stored hfits
  have hqcontents := hp.contents_stored hfits
  have hfuel : (p.stored received).window.length < RxBufferSize + 1 := by
    have := hq.last_le_size
    rw [hq.length_window]
    omega
  obtain ⟨found, q', hsearch, hs⟩ := hq.searchHeader hfuel
  have hwindow : q'.window = packetFormat.resync (p.pendingAfterReceive received) := by
    rw [hs.window_eq, hqwindow]
  have hlast : q'.bufferLastPosition = p.beginExtract.bufferLastPosition + received.length := by
    rw [hs.last_eq, hqlast]
  have hcontents : ¬p.TakesShift received → q'.contents = p.beginExtract.contents ++ received := by
    intro h
    rw [contents, hs.last_eq, hs.rxBuffer_eq]
    exact hqcontents h
  have hpayload : q'.payload = none := by rw [hs.payload_eq, payload_stored]
  have htopic : q'.topic = none := by rw [hs.topic_eq, topic_stored]
  rw [extractPacketFromReceiveStream_of_search hne hsearch]
  cases found with
  | false =>
    have hnone : ¬packetFormat.StartsHeader q'.window := fun h => by simpa using hs.found_iff.mpr h
    refine ⟨false, q', rfl, hs.wellFormed, hlast, hcontents,
      Or.inr ⟨rfl, ?_, hwindow, htopic, hpayload⟩⟩
    exact nextFrame_eq_none_iff.mpr (Or.inl (hwindow ▸ hnone))
  | true =>
    have hheader := hs.found_iff.mp rfl
    rcases hs.wellFormed.takePacket hheader (hs.header_eq rfl) hpayload with
      ⟨hle, p', htake, hwf, hlast', hbuffer, hrest, hexposed⟩ | ⟨hlt, htake⟩
    · refine ⟨true, p', by rw [if_pos rfl, htake], hwf, by rw [hlast', hlast], fun h => ?_,
        Or.inl ⟨rfl, ?_⟩⟩
      · rw [contents, hlast', hbuffer]
        exact hcontents h
      · refine ⟨_, nextFrame_eq_some_iff.mpr ⟨hwindow ▸ hheader, ?_, ?_⟩, hexposed⟩
        · rw [← hwindow, List.length_take, Nat.min_eq_left hle]
        · rw [← hwindow, hrest, List.take_append_drop]
    · refine ⟨false, q', by rw [if_pos rfl, htake], hs.wellFormed, hlast, hcontents,
        Or.inr ⟨rfl, ?_, hwindow, htopic, hpayload⟩⟩
      exact nextFrame_eq_none_iff.mpr (Or.inr (by rw [← hwindow]; exact hlt))

end NixieVfdCentral.PacketProcessor
