import NixieVfdCentral.Uart.PacketProcessor

/-!
# What one call does to the pending bytes

The positions and the buffer only matter through two byte sequences: the received
bytes that are in the buffer and, at their end, the bytes not consumed yet. This file
proves what each piece of `extractPacketFromReceiveStream` does to them, and from that
the specification of the whole call in the vocabulary of frames and resynchronisation.
-/

namespace NixieVfdCentral.PacketProcessor

open Buffers Framing

variable {p : PacketProcessor} {received : Bytes}

/-- The pending bytes are the end of the received ones. -/
theorem window_eq_drop_contents (p : PacketProcessor) :
    p.window = p.contents.drop p.bufferStartPosition :=
  slice_eq_drop_take p.rxBuffer p.bufferStartPosition p.bufferLastPosition

/-- The number of pending bytes is the distance of the positions. -/
theorem WellFormed.length_window (hp : p.WellFormed) :
    p.window.length = p.bufferLastPosition - p.bufferStartPosition :=
  length_slice p.rxBuffer (by have := hp.start_le_last; have := hp.last_le_size; omega)

/-- The number of bytes in the buffer is its last position. -/
theorem WellFormed.length_contents (hp : p.WellFormed) :
    p.contents.length = p.bufferLastPosition := by
  have := hp.last_le_size
  rw [contents, List.length_take, Vector.length_toList]
  omega

/-- At the start both positions are zero, so they are in order. -/
theorem initial_wellFormed (rxBuffer : Vector UInt8 RxBufferSize) :
    (initial rxBuffer).WellFormed :=
  ⟨Nat.le_refl 0, Nat.zero_le _⟩

/-- The state before the call of `receive`, case by case. -/
theorem beginExtract_cases (p : PacketProcessor) :
    (p.bufferStartPosition = p.bufferLastPosition ∧
        p.beginExtract.bufferStartPosition = 0 ∧ p.beginExtract.bufferLastPosition = 0) ∨
      (p.bufferStartPosition ≠ p.bufferLastPosition ∧
        p.beginExtract.bufferStartPosition = p.bufferStartPosition ∧
        p.beginExtract.bufferLastPosition = p.bufferLastPosition) := by
  unfold beginExtract rewind
  split_ifs with h
  · exact Or.inl ⟨h, rfl, rfl⟩
  · exact Or.inr ⟨h, rfl, rfl⟩

/-- What a call does before `receive` does not touch the bytes of the buffer. -/
@[simp] theorem rxBuffer_beginExtract (p : PacketProcessor) :
    p.beginExtract.rxBuffer = p.rxBuffer := by
  unfold beginExtract rewind
  split_ifs <;> rfl

/-- What runs before `receive` clears the pointer to the topic. -/
@[simp] theorem topic_beginExtract (p : PacketProcessor) : p.beginExtract.topic = none := by
  unfold beginExtract rewind
  split_ifs <;> rfl

/-- What runs before `receive` clears the pointer to the payload. -/
@[simp] theorem payload_beginExtract (p : PacketProcessor) : p.beginExtract.payload = none := by
  unfold beginExtract rewind
  split_ifs <;> rfl

/-- What a call does before `receive` keeps the two positions in order. -/
theorem WellFormed.beginExtract (hp : p.WellFormed) : p.beginExtract.WellFormed := by
  have hstart := hp.start_le_last
  have hlast := hp.last_le_size
  rcases p.beginExtract_cases with ⟨_, hs, hl⟩ | ⟨_, hs, hl⟩
  · exact ⟨by omega, by omega⟩
  · exact ⟨by omega, by omega⟩

/-- Rewinding an empty buffer does not touch the pending bytes. -/
@[simp] theorem window_beginExtract (p : PacketProcessor) : p.beginExtract.window = p.window := by
  rcases p.beginExtract_cases with ⟨heq, hs, hl⟩ | ⟨_, hs, hl⟩
  · simp [window, hs, hl, heq, slice]
  · simp [window, hs, hl]

/-- The requested capacity is the free space behind the received bytes. -/
theorem WellFormed.requestedCapacity_eq (hp : p.WellFormed) :
    p.requestedCapacity = RxBufferSize - p.beginExtract.bufferLastPosition :=
  sizeSub_eq hp.beginExtract.last_le_size (Nat.le_refl _)

/-- Received bytes that fit the requested capacity fit behind those in the buffer. -/
theorem WellFormed.stored_le_size (hp : p.WellFormed)
    (hfits : received.length ≤ p.requestedCapacity) :
    p.beginExtract.bufferLastPosition + received.length ≤ RxBufferSize := by
  have := hp.beginExtract.last_le_size
  rw [hp.requestedCapacity_eq] at hfits
  omega

/-- The branch that shifts the buffer is taken: the received bytes fill the buffer up
while its first bytes are already consumed. -/
def TakesShift (p : PacketProcessor) (received : Bytes) : Prop :=
  RxBufferSize ≤ p.beginExtract.bufferLastPosition + received.length ∧
    0 < p.beginExtract.bufferStartPosition

instance (p : PacketProcessor) (received : Bytes) : Decidable (p.TakesShift received) :=
  inferInstanceAs (Decidable (_ ∧ _))

/-- The bytes the header search works on: the received bytes from the start position on
and, when the full buffer is shifted to its beginning, the stale bytes behind them that the
last position keeps covering. -/
def pendingAfterReceive (p : PacketProcessor) (received : Bytes) : Bytes :=
  let all := p.beginExtract.contents ++ received
  let start := p.beginExtract.bufferStartPosition
  if p.TakesShift received then all.drop start ++ all.drop (RxBufferSize - start)
  else all.drop start

/-- The state in which the header search starts. -/
def stored (p : PacketProcessor) (received : Bytes) : PacketProcessor :=
  (p.beginExtract.storeReceived received).shiftBuffer

/-- The received bytes follow those that are in the buffer. -/
theorem contents_storeReceived (q : PacketProcessor)
    (hfits : q.bufferLastPosition + received.length ≤ RxBufferSize) :
    (q.storeReceived received).contents = q.contents ++ received :=
  take_overwrite q.rxBuffer hfits

/-- Received bytes that fit behind the last position keep the two positions in order. -/
theorem WellFormed.storeReceived {q : PacketProcessor} (hq : q.WellFormed)
    (hfits : q.bufferLastPosition + received.length ≤ RxBufferSize) :
    (q.storeReceived received).WellFormed :=
  ⟨Nat.le_add_right_of_le hq.start_le_last, hfits⟩

/-- A buffer that is not full, or whose first byte is pending, is left as it is. -/
theorem shiftBuffer_of_not {q : PacketProcessor}
    (h : ¬(RxBufferSize ≤ q.bufferLastPosition ∧ 0 < q.bufferStartPosition)) :
    q.shiftBuffer = q := by
  rw [shiftBuffer, if_neg h]

/-- A full buffer is shifted, but its last position stays at the end of the buffer. -/
theorem WellFormed.shiftBuffer_of_full {q : PacketProcessor} (hq : q.WellFormed)
    (h : RxBufferSize ≤ q.bufferLastPosition ∧ 0 < q.bufferStartPosition) :
    q.shiftBuffer = { q with
      bufferStartPosition := 0
      bufferLastPosition := RxBufferSize
      rxBuffer := overwrite q.rxBuffer 0
        (slice q.rxBuffer q.bufferStartPosition (RxBufferSize - q.bufferStartPosition)) } := by
  have hlast : q.bufferLastPosition = RxBufferSize := Nat.le_antisymm hq.last_le_size h.1
  have hsub : sizeSub RxBufferSize q.bufferStartPosition = RxBufferSize - q.bufferStartPosition :=
    sizeSub_eq (hlast ▸ hq.start_le_last) (Nat.le_refl _)
  have hzero : sizeSub RxBufferSize 0 = RxBufferSize := by decide
  rw [shiftBuffer, if_pos h]
  simp only [hlast, hsub, hzero]

/-- Shifting leaves the last position where it is; a full buffer shows, behind its
pending bytes, as many stale bytes as were consumed. -/
theorem WellFormed.shiftBuffer {q : PacketProcessor} (hq : q.WellFormed) :
    q.shiftBuffer.WellFormed ∧ q.shiftBuffer.bufferLastPosition = q.bufferLastPosition ∧
      q.shiftBuffer.window =
        if RxBufferSize ≤ q.bufferLastPosition ∧ 0 < q.bufferStartPosition then
          q.contents.drop q.bufferStartPosition ++
            q.contents.drop (RxBufferSize - q.bufferStartPosition)
        else q.contents.drop q.bufferStartPosition := by
  by_cases hfull : RxBufferSize ≤ q.bufferLastPosition ∧ 0 < q.bufferStartPosition
  · have hlast : q.bufferLastPosition = RxBufferSize := Nat.le_antisymm hq.last_le_size hfull.1
    have hall : q.contents = q.rxBuffer.toList :=
      List.take_of_length_le (Nat.le_of_eq (by rw [Vector.length_toList, hlast]))
    rw [if_pos hfull, hq.shiftBuffer_of_full hfull, hall,
      ← toList_overwrite_shift q.rxBuffer (hlast ▸ hq.start_le_last)]
    refine ⟨⟨Nat.zero_le _, Nat.le_refl _⟩, hlast.symm, ?_⟩
    apply List.take_of_length_le
    simp
  · rw [if_neg hfull, shiftBuffer_of_not hfull, window_eq_drop_contents]
    exact ⟨hq, rfl, rfl⟩

/-- **The buffer before the search.** Storing keeps the invariant, moves the last
position by what was received, and leaves `pendingAfterReceive` as the pending bytes. -/
theorem WellFormed.stored (hp : p.WellFormed) (hfits : received.length ≤ p.requestedCapacity) :
    (p.stored received).WellFormed ∧
      (p.stored received).bufferLastPosition =
        p.beginExtract.bufferLastPosition + received.length ∧
      (p.stored received).window = p.pendingAfterReceive received := by
  have hle := hp.stored_le_size hfits
  have h := (hp.beginExtract.storeReceived hle).shiftBuffer
  rwa [contents_storeReceived p.beginExtract hle] at h

/-- Without a shift the buffer holds what it held and, behind it, what was received. -/
theorem WellFormed.contents_stored (hp : p.WellFormed)
    (hfits : received.length ≤ p.requestedCapacity) (h : ¬p.TakesShift received) :
    (p.stored received).contents = p.beginExtract.contents ++ received := by
  have hshift : p.stored received = p.beginExtract.storeReceived received := shiftBuffer_of_not h
  rw [hshift]
  exact contents_storeReceived p.beginExtract (hp.stored_le_size hfits)

/-- The pending bytes and the received ones are the end of what is in the buffer then. -/
private theorem WellFormed.window_append (hp : p.WellFormed) (received : Bytes) :
    p.window ++ received =
      (p.beginExtract.contents ++ received).drop p.beginExtract.bufferStartPosition := by
  rw [← p.window_beginExtract, window_eq_drop_contents]
  refine (List.drop_append_of_le_length ?_).symm
  rw [hp.beginExtract.length_contents]
  exact hp.beginExtract.start_le_last

/-- Without a shift the search works on the pending bytes followed by the received ones. -/
theorem WellFormed.pendingAfterReceive_eq_append (hp : p.WellFormed) (h : ¬p.TakesShift received) :
    p.pendingAfterReceive received = p.window ++ received := by
  rw [pendingAfterReceive, if_neg h, hp.window_append]

/-- In any case the search works on the pending bytes, the received ones and, after a
shift, some stale bytes. -/
theorem WellFormed.pendingAfterReceive_prefix (hp : p.WellFormed) (received : Bytes) :
    p.window ++ received <+: p.pendingAfterReceive received := by
  rw [pendingAfterReceive, hp.window_append]
  split_ifs
  · exact List.prefix_append _ _
  · exact List.prefix_refl _

/-- A shift of the full buffer leaves stale bytes pending behind the received ones. -/
theorem WellFormed.pendingAfterReceive_of_shift (hp : p.WellFormed) (h : p.TakesShift received) :
    ∃ stale, stale ≠ [] ∧ p.pendingAfterReceive received = p.window ++ received ++ stale := by
  rw [pendingAfterReceive, if_pos h, hp.window_append]
  refine ⟨_, List.ne_nil_of_length_pos ?_, rfl⟩
  obtain ⟨hfull, hstart⟩ := h
  rw [List.length_drop, List.length_append, hp.beginExtract.length_contents]
  have := hp.beginExtract.start_le_last
  have := hp.beginExtract.last_le_size
  omega

/-- Storing and shifting leave the pointer to the topic cleared. -/
@[simp] theorem topic_stored (p : PacketProcessor) (received : Bytes) :
    (p.stored received).topic = none := by
  rw [stored, shiftBuffer]
  split_ifs <;> exact p.topic_beginExtract

/-- Storing and shifting leave the pointer to the payload cleared. -/
@[simp] theorem payload_stored (p : PacketProcessor) (received : Bytes) :
    (p.stored received).payload = none := by
  rw [stored, shiftBuffer]
  split_ifs <;> exact p.payload_beginExtract

end NixieVfdCentral.PacketProcessor
