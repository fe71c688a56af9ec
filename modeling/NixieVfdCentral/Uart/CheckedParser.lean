import NixieVfdCentral.Foundations.CheckedAccess
import NixieVfdCentral.Uart.Receiver

/-!
# The packet processor stays inside its buffer

The functions of `PacketProcessor` again, with every access to `rxBuffer` and every unsigned
subtraction checked before it is made. A byte counts as written when `rxStream.receive` put
it there, or when it was moved there from such a place. The checked functions stop at the
first fault; the theorem is that they never do, and that they are the functions themselves.
-/

namespace NixieVfdCentral

open Runs Buffers CheckedAccess

/-- The packet processor, and which bytes of its buffer stem from a receive. -/
structure CheckedProcessor where
  /-- The data members. -/
  processor : PacketProcessor
  /-- For every byte of `rxBuffer` whether it was received. -/
  written : Vector Bool RxBufferSize

namespace CheckedProcessor

/-- After construction nothing has been received. -/
def initial (rxBuffer : Vector UInt8 RxBufferSize) : CheckedProcessor where
  processor := .initial rxBuffer
  written := .replicate RxBufferSize false

/-- The bytes are read: they lie below the last position and were received. -/
def read (c : CheckedProcessor) (start length : ℕ) : Except Fault Unit :=
  checkRead c.written start length c.processor.bufferLastPosition

/-- `rxStream.receive` may write to as many bytes as it is told, from the last position on. -/
def receive (c : CheckedProcessor) : Except Fault Unit := do
  let capacity ← checkedSub RxBufferSize c.processor.bufferLastPosition
  checkRange c.processor.bufferLastPosition capacity RxBufferSize

/-- The received bytes are behind the last position, and the position moves on. -/
def storeReceived (c : CheckedProcessor) (received : Bytes) : CheckedProcessor where
  processor := c.processor.storeReceived received
  written := overwrite c.written c.processor.bufferLastPosition
    (List.replicate received.length true)

/-- The shift of the full buffer. The start position is zero when it is subtracted. -/
def shiftBuffer (c : CheckedProcessor) : Except Fault CheckedProcessor :=
  let start := c.processor.bufferStartPosition
  let last := c.processor.bufferLastPosition
  if RxBufferSize ≤ last ∧ 0 < start then do
    let length ← checkedSub last start
    c.read start length
    checkRange 0 length RxBufferSize
    let _ ← checkedSub last 0
    return {
      processor := c.processor.shiftBuffer
      written := overwrite c.written 0 (slice c.written start length) }
  else return c

/-- The header search loop. Running out of rounds is a fault. -/
def searchHeader : ℕ → CheckedProcessor → Except Fault (Bool × CheckedProcessor)
  | 0, _ => .error .endless
  | fuel + 1, c => do
    let p := c.processor
    let available ← checkedSub p.bufferLastPosition p.bufferStartPosition
    if available < sizeofPacketHeader then return (false, c)
    else do
      c.read p.bufferStartPosition sizeofPacketHeader
      let p := { p with header :=
        PacketHeader.ofBytes (slice p.rxBuffer p.bufferStartPosition sizeofPacketHeader) }
      if p.header.magic = ProtocolMagic then return (true, { c with processor := p })
      else searchHeader fuel { c with
        processor := { p with bufferStartPosition := p.bufferStartPosition + 1 } }

/-- Expose the packet whose header was found, if it is complete. -/
def takePacket (c : CheckedProcessor) : Except Fault (Bool × CheckedProcessor) := do
  let available ← checkedSub c.processor.bufferLastPosition c.processor.bufferStartPosition
  let _ ← checkedSub available sizeofPacketHeader
  return (c.processor.takePacket.1, { c with processor := c.processor.takePacket.2 })

/-- The bytes a pointer points at are read, unless it is `nullptr`. -/
def readAt (c : CheckedProcessor) (pointer : Option ℕ) (length : ℕ) : Except Fault Unit :=
  match pointer with
  | none => return
  | some start => c.read start length

/-- `processPacket` reads the topic and the payload. -/
def processPacket (c : CheckedProcessor) : Except Fault Unit := do
  c.readAt c.processor.topic c.processor.header.topicLength.toNat
  c.readAt c.processor.payload c.processor.header.payloadSize.toNat

/-- `extractPacketFromReceiveStream`, given what `rxStream.receive` returned. -/
def extractPacketFromReceiveStream (c : CheckedProcessor) (received : Bytes) :
    Except Fault (Bool × CheckedProcessor) := do
  let c := { c with processor := c.processor.beginExtract }
  c.receive
  if received.length = 0 then return (false, c)
  else do
    let c ← (c.storeReceived received).shiftBuffer
    let (found, c) ← c.searchHeader (RxBufferSize + 1)
    if found then c.takePacket else return (false, c)

/-- One round of `PacketProcessor::taskMain`. -/
def taskRound (c : CheckedProcessor) (received : Bytes) :
    Except Fault (Bool × CheckedProcessor) := do
  let (returned, c) ← c.extractPacketFromReceiveStream received
  if returned then do
    c.processPacket
    return (returned, c)
  else return (returned, c)

/-- One round in which `receive` returns at most as many bytes as it is asked for. -/
def step (c : CheckedProcessor) (received : Bytes) : Option CheckedProcessor :=
  if received.length ≤ c.processor.requestedCapacity then
    match c.taskRound received with
    | .ok (_, c) => some c
    | .error _ => none
  else none

/-- The positions are in order and inside the buffer, and the next round makes no fault,
whatever it receives: it does what `extractPacketFromReceiveStream` does. -/
structure Safe (c : CheckedProcessor) : Prop where
  start_le_last : c.processor.bufferStartPosition ≤ c.processor.bufferLastPosition
  last_le_size : c.processor.bufferLastPosition ≤ RxBufferSize
  round : ∀ received : Bytes, received.length ≤ c.processor.requestedCapacity →
    ∃ returned c', c.taskRound received = .ok (returned, c') ∧
      c.processor.extractPacketFromReceiveStream received = some (returned, c'.processor)

/-- The positions are in order, and all bytes below the last position were received. -/
structure Sound (c : CheckedProcessor) : Prop where
  wellFormed : c.processor.WellFormed
  written : AllWritten c.written c.processor.bufferLastPosition

variable {c : CheckedProcessor} {received : Bytes} {start length : ℕ}

/-- Reading a range that lies among the received bytes passes the check. -/
theorem Sound.read (h : Sound c) (hle : start + length ≤ c.processor.bufferLastPosition) :
    c.read start length = .ok () :=
  h.written.checkRead h.wellFormed.last_le_size hle

/-- Reading received bytes behind a pointer passes the check, as does a null pointer. -/
theorem Sound.readAt {pointer : Option ℕ} (h : Sound c)
    (hle : ∀ start ∈ pointer, start + length ≤ c.processor.bufferLastPosition) :
    c.readAt pointer length = .ok () := by
  cases pointer with
  | none => rfl
  | some start => exact h.read (hle start rfl)

/-- `receive` may write to the free part of the buffer: its range passes the check. -/
theorem Sound.receive (h : Sound c) : c.receive = .ok () := by
  have hlast := h.wellFormed.last_le_size
  rw [CheckedProcessor.receive, checkedSub_of_le hlast]
  exact checkRange_of_le (by omega)

/-- Storing received bytes that fit keeps the state sound: they are written before they are in use.
-/
theorem Sound.storeReceived (h : Sound c)
    (hfits : c.processor.bufferLastPosition + received.length ≤ RxBufferSize) :
    Sound (c.storeReceived received) :=
  ⟨h.wellFormed.storeReceived hfits, h.written.append hfits⟩

/-- **The shift** makes no fault, keeps the state sound and does what the unchecked one does. -/
theorem Sound.shiftBuffer (h : Sound c) :
    ∃ c', c.shiftBuffer = .ok c' ∧ Sound c' ∧ c'.processor = c.processor.shiftBuffer := by
  obtain ⟨hwf, hlast, _⟩ := h.wellFormed.shiftBuffer
  rw [CheckedProcessor.shiftBuffer]
  by_cases hfull : RxBufferSize ≤ c.processor.bufferLastPosition ∧
      0 < c.processor.bufferStartPosition
  · have hstart := h.wellFormed.start_le_last
    have hsize := Nat.le_antisymm h.wellFormed.last_le_size hfull.1
    have hread : c.read c.processor.bufferStartPosition
        (c.processor.bufferLastPosition - c.processor.bufferStartPosition) = .ok () :=
      h.read (by omega)
    rw [if_pos hfull, checkedSub_of_le hstart, ok_bind, hread, ok_bind,
      checkRange_of_le (by omega), ok_bind, checkedSub_of_le (Nat.zero_le _), ok_bind]
    refine ⟨_, rfl, ⟨hwf, ?_⟩, rfl⟩
    have hwritten := h.written
    change AllWritten (overwrite c.written 0 (slice c.written _ _)) (PacketProcessor.shiftBuffer
      c.processor).bufferLastPosition
    rw [hlast]
    rw [hsize] at hwritten hstart ⊢
    exact hwritten.shift hstart
  · rw [if_neg hfull]
    exact ⟨c, rfl, h, (PacketProcessor.shiftBuffer_of_not hfull).symm⟩

/-- **The header search** makes no fault and ends; what it finds is a whole header. -/
theorem Sound.searchHeader {fuel : ℕ} (h : Sound c)
    (hfuel : c.processor.bufferLastPosition - c.processor.bufferStartPosition < fuel) :
    ∃ found c', c.searchHeader fuel = .ok (found, c') ∧ Sound c' ∧
      c.processor.searchHeader fuel = some (found, c'.processor) ∧
      c'.processor.payload = c.processor.payload ∧
      (found = true → c'.processor.bufferStartPosition + sizeofPacketHeader ≤
        c'.processor.bufferLastPosition) := by
  induction fuel generalizing c with
  | zero => omega
  | succ fuel ih =>
    have hstart := h.wellFormed.start_le_last
    have hlast := h.wellFormed.last_le_size
    simp only [CheckedProcessor.searchHeader, checkedSub_of_le hstart, ok_bind,
      PacketProcessor.searchHeader, sizeSub_eq hstart hlast]
    by_cases hshort : c.processor.bufferLastPosition - c.processor.bufferStartPosition <
        sizeofPacketHeader
    · rw [if_pos hshort, if_pos hshort]
      exact ⟨false, c, rfl, h, rfl, rfl, by simp⟩
    · have hheader : c.processor.bufferStartPosition + sizeofPacketHeader ≤
          c.processor.bufferLastPosition := by omega
      have hread := h.read hheader
      rw [if_neg hshort, if_neg hshort, hread, ok_bind]
      split_ifs with hmagic
      · exact ⟨true, _, rfl, ⟨⟨hstart, hlast⟩, h.written⟩, rfl, rfl, fun _ => hheader⟩
      · let p : PacketProcessor := { c.processor with
          header := PacketHeader.ofBytes
            (slice c.processor.rxBuffer c.processor.bufferStartPosition sizeofPacketHeader)
          bufferStartPosition := c.processor.bufferStartPosition + 1 }
        have hskip : c.processor.bufferStartPosition + 1 ≤ c.processor.bufferLastPosition := by
          unfold sizeofPacketHeader at hshort
          omega
        have hsound : Sound ⟨p, c.written⟩ := ⟨⟨hskip, hlast⟩, h.written⟩
        exact ih hsound (by
          change c.processor.bufferLastPosition - (c.processor.bufferStartPosition + 1) < fuel
          omega)

/-- Taking a packet exposes only bytes below the last position. -/
theorem takePacket_cases {p : PacketProcessor} (hwf : p.WellFormed)
    (hheader : p.bufferStartPosition + sizeofPacketHeader ≤ p.bufferLastPosition)
    (hpayload : p.payload = none) :
    p.takePacket = (false, p) ∨ ∃ p', p.takePacket = (true, p') ∧ p'.WellFormed ∧
      p'.bufferLastPosition = p.bufferLastPosition ∧
      (∀ start ∈ p'.topic, start + p'.header.topicLength.toNat ≤ p.bufferLastPosition) ∧
      ∀ start ∈ p'.payload, start + p'.header.payloadSize.toNat ≤ p.bufferLastPosition := by
  have hlast := hwf.last_le_size
  have hsub := hwf.sizeSub_behindHeader hheader
  by_cases hlong : p.header.topicLength.toNat + p.header.payloadSize.toNat >
      sizeSub (sizeSub p.bufferLastPosition p.bufferStartPosition) sizeofPacketHeader
  · exact Or.inl (if_pos hlong)
  · refine Or.inr ⟨_, PacketProcessor.takePacket_of_fits p hlong, ⟨?_, hlast⟩, rfl, ?_, ?_⟩
    · change p.bufferStartPosition + _ ≤ p.bufferLastPosition
      omega
    · intro start hmem
      obtain rfl := Option.some.inj hmem
      change p.bufferStartPosition + sizeofPacketHeader + p.header.topicLength.toNat ≤ _
      omega
    · intro start hmem
      rw [hpayload, Option.mem_def, Option.ite_none_right_eq_some] at hmem
      obtain rfl := Option.some.inj hmem.2
      change p.bufferStartPosition + sizeofPacketHeader + p.header.topicLength.toNat +
        p.header.payloadSize.toNat ≤ _
      omega

/-- **Taking a packet** makes no fault, and neither does reading it afterwards. -/
theorem Sound.takePacket (h : Sound c) (hheader : c.processor.bufferStartPosition +
    sizeofPacketHeader ≤ c.processor.bufferLastPosition) (hpayload : c.processor.payload = none) :
    ∃ returned c', c.takePacket = .ok (returned, c') ∧ Sound c' ∧
      c.processor.takePacket = (returned, c'.processor) ∧
      (returned = true → c'.processPacket = .ok ()) := by
  rw [CheckedProcessor.takePacket, checkedSub_of_le h.wellFormed.start_le_last, ok_bind,
    checkedSub_of_le (by omega), ok_bind]
  rcases takePacket_cases h.wellFormed hheader hpayload with
    htake | ⟨p, htake, hwf, hlast, htopic, hread⟩
  · exact ⟨false, c, by rw [htake]; rfl, h, htake, by simp⟩
  · have hsound : Sound ⟨p, c.written⟩ := ⟨hwf, hlast.symm ▸ h.written⟩
    refine ⟨true, ⟨p, c.written⟩, by rw [htake]; rfl, hsound, htake, fun _ => ?_⟩
    rw [← hlast] at htopic hread
    rw [processPacket, hsound.readAt htopic, ok_bind, hsound.readAt hread]

/-- **One round** of the task makes no fault and does what the unchecked call does. -/
theorem Sound.taskRound (h : Sound c) (hfits : received.length ≤ c.processor.requestedCapacity) :
    ∃ returned c', c.taskRound received = .ok (returned, c') ∧ Sound c' ∧
      c.processor.extractPacketFromReceiveStream received = some (returned, c'.processor) := by
  have hbegin : Sound { c with processor := c.processor.beginExtract } := by
    refine ⟨h.wellFormed.beginExtract, h.written.mono ?_⟩
    rcases c.processor.beginExtract_cases with ⟨_, _, hl⟩ | ⟨_, _, hl⟩
    · exact hl ▸ Nat.zero_le _
    · exact Nat.le_of_eq hl
  rw [CheckedProcessor.taskRound, CheckedProcessor.extractPacketFromReceiveStream,
    hbegin.receive, ok_bind]
  by_cases hnil : received.length = 0
  · rw [if_pos hnil]
    refine ⟨false, _, rfl, hbegin, ?_⟩
    rw [PacketProcessor.extractPacketFromReceiveStream, if_pos hnil]
  · obtain ⟨c₁, hshift, hsound, hstored⟩ :=
      (hbegin.storeReceived (h.wellFormed.stored_le_size hfits)).shiftBuffer
    have hlast := hsound.wellFormed.last_le_size
    have hfuel : c₁.processor.bufferLastPosition - c₁.processor.bufferStartPosition <
        RxBufferSize + 1 := by omega
    obtain ⟨found, c₂, hsearch, hsound', hsearch', hpayload, hheader⟩ := hsound.searchHeader hfuel
    rw [hstored] at hsearch' hpayload
    rw [if_neg hnil, hshift, ok_bind, hsearch, ok_bind,
      PacketProcessor.extractPacketFromReceiveStream_of_search (by simpa using hnil) hsearch']
    cases found with
    | false => exact ⟨false, c₂, rfl, hsound', rfl⟩
    | true =>
      have hnull : c₂.processor.payload = none :=
        hpayload.trans (PacketProcessor.payload_stored c.processor received)
      obtain ⟨returned, c₃, htake, hsound₃, htake', hprocess⟩ :=
        hsound'.takePacket (hheader rfl) hnull
      refine ⟨returned, c₃, ?_, hsound₃, by rw [if_pos rfl, htake']⟩
      simp only [if_true, htake, ok_bind]
      cases returned with
      | false => rfl
      | true => simp only [if_true, hprocess rfl, ok_bind]; rfl

/-- At the start nothing is in use, so nothing that is in use was not written. -/
theorem sound_initial (rxBuffer : Vector UInt8 RxBufferSize) : Sound (initial rxBuffer) :=
  ⟨PacketProcessor.initial_wellFormed rxBuffer, allWritten_zero⟩

/-- A sound state makes no fault in its next round. -/
theorem Sound.safe (h : Sound c) : Safe c where
  start_le_last := h.wellFormed.start_le_last
  last_le_size := h.wellFormed.last_le_size
  round _ hfits := by
    obtain ⟨returned, c', hround, _, hcall⟩ := h.taskRound hfits
    exact ⟨returned, c', hround, hcall⟩

/-- Every round that passes its checks, whatever it receives, keeps the state sound. -/
theorem Sound.step {c' : CheckedProcessor} (h : Sound c) (hstep : c.step received = some c') :
    Sound c' := by
  unfold CheckedProcessor.step at hstep
  split_ifs at hstep with hfits
  obtain ⟨returned, c'', hround, hsound, _⟩ := h.taskRound hfits
  rw [hround] at hstep
  obtain rfl := Option.some.inj hstep
  exact hsound

/-- **The parser never leaves its buffer.** Whatever the calls of `receive` return, and
however often it is called, in every state it passes through the positions are in order and
inside the buffer and the next round makes no fault. -/
theorem visited_safe (rxBuffer : Vector UInt8 RxBufferSize) (chunks : List Bytes) :
    Visited step Safe (initial rxBuffer) chunks :=
  (visited_of_invariant (fun _ _ _ h hstep => h.step hstep) (sound_initial rxBuffer)
    chunks).mono fun _ h => h.safe

end CheckedProcessor

end NixieVfdCentral
