import NixieVfdCentral.Uart.Receiver

/-!
# The pending bytes are the last ones received

Rewinding, skipping and consuming only take bytes away from the front of the pending ones,
and a receive adds its bytes at their end. So between two calls the buffer should hold, from
the start position to the last one, the end of everything received so far. The shift of the
full buffer is the one piece that does not respect this: the last position stays where it
is, and what was consumed comes back as stale bytes. This file proves that nothing else
breaks the correspondence.
-/

namespace NixieVfdCentral

open Runs Framing PacketProcessor

/-- The pending bytes are the last ones of those received so far. -/
def PendingIsTail (r : Receiver) : Prop := r.processor.window <:+ r.received

instance (r : Receiver) : Decidable (PendingIsTail r) := inferInstanceAs (Decidable (_ <:+ _))

/-- A call whose compaction neither drops, repeats nor adds a pending byte. A call that
receives nothing returns in front of the compaction. -/
def CompactionKeepsPending (r : Receiver) (chunk : Bytes) : Prop :=
  chunk ≠ [] → (r.processor.stored chunk).window =
    (r.processor.beginExtract.storeReceived chunk).window

/-- A call in which the received bytes do not fill the buffer up while its first bytes are
already consumed. -/
def ReceivesWithoutShift (r : Receiver) (chunk : Bytes) : Prop :=
  chunk ≠ [] → ¬r.processor.TakesShift chunk

instance (r : Receiver) (chunk : Bytes) : Decidable (ReceivesWithoutShift r chunk) :=
  inferInstanceAs (Decidable (_ → _))

/-- Storing adds the received bytes at the end of the pending ones. -/
theorem PacketProcessor.WellFormed.window_storeReceived {p : PacketProcessor} {received : Bytes}
    (hwf : p.WellFormed) (hfits : p.bufferLastPosition + received.length ≤ RxBufferSize) :
    (p.storeReceived received).window = p.window ++ received := by
  have hstart : p.bufferStartPosition ≤ p.contents.length := by
    rw [hwf.length_contents]
    exact hwf.start_le_last
  rw [window_eq_drop_contents, contents_storeReceived p hfits, window_eq_drop_contents p]
  exact List.drop_append_of_le_length hstart

/-- The compaction keeps the pending bytes exactly when the buffer is not shifted. -/
theorem compactionKeepsPending_iff {r : Receiver} {chunk : Bytes}
    (hwf : r.processor.WellFormed) (hfits : chunk.length ≤ r.processor.requestedCapacity) :
    CompactionKeepsPending r chunk ↔ ReceivesWithoutShift r chunk := by
  obtain ⟨_, _, hstored⟩ := hwf.stored hfits
  have hpending := hwf.beginExtract.window_storeReceived (hwf.stored_le_size hfits)
  rw [window_beginExtract] at hpending
  refine forall_congr' fun _ => ?_
  rw [hstored, hpending]
  constructor
  · intro hkept hshift
    obtain ⟨stale, hne, hall⟩ := hwf.pendingAfterReceive_of_shift hshift
    rw [hall] at hkept
    exact hne (List.append_right_eq_self.mp hkept)
  · exact hwf.pendingAfterReceive_eq_append

/-- A call without a shift ends with an end of the pending and the received bytes. -/
theorem window_suffix_of_extracted {p p' : PacketProcessor} {received : Bytes} {returned : Bool}
    (hwf : p.WellFormed) (hshift : ¬p.TakesShift received)
    (hcall : Extracted p received returned p') : p'.window <:+ p.window ++ received := by
  rw [← hwf.pendingAfterReceive_eq_append hshift]
  rcases hcall.outcome with ⟨_, frame, hframe, _⟩ | ⟨_, _, hwindow, _⟩
  · obtain ⟨_, _, hresync⟩ := nextFrame_eq_some_iff.mp hframe
    exact (List.suffix_append frame p'.window).trans (hresync ▸ resync_suffix _)
  · exact hwindow ▸ resync_suffix _

/-- **One call** without a shift keeps the pending bytes the last ones received. -/
theorem PendingIsTail.step {r r' : Receiver} {chunk : Bytes} (h : PendingIsTail r)
    (hwf : r.processor.WellFormed) (hkeeps : ReceivesWithoutShift r chunk)
    (hstep : r.step chunk = some r') : PendingIsTail r' := by
  unfold PendingIsTail at h ⊢
  obtain ⟨_, hreceived, ⟨rfl, hp, _⟩ | ⟨hne, _, hcall, _⟩⟩ := Receiver.step_cases hwf hstep
  · rwa [hp, window_beginExtract, hreceived, List.append_nil]
  · obtain ⟨before, hbefore⟩ := h
    rw [hreceived, ← hbefore, List.append_assoc]
    exact (window_suffix_of_extracted hwf (hkeeps hne) hcall).trans (List.suffix_append _ _)

/-- **The pending bytes stay the last ones received**, and no compaction changes them, in
a run exactly when no receive of the run has the buffer shifted. -/
theorem pendingIsTail_iff_receivesWithoutShift (rxBuffer : Vector UInt8 RxBufferSize)
    (chunks : List Bytes) (r : Receiver)
    (hrun : run Receiver.step (Receiver.initial rxBuffer) chunks = some r) :
    (Visited Receiver.step PendingIsTail (Receiver.initial rxBuffer) chunks ∧
        Along Receiver.step CompactionKeepsPending (Receiver.initial rxBuffer) chunks) ↔
      Along Receiver.step ReceivesWithoutShift (Receiver.initial rxBuffer) chunks := by
  have hwf := Receiver.initial_wellFormed rxBuffer
  have hkeeps : Along Receiver.step CompactionKeepsPending (Receiver.initial rxBuffer) chunks ↔
      Along Receiver.step ReceivesWithoutShift (Receiver.initial rxBuffer) chunks :=
    along_iff_along (fun r => r.processor.WellFormed)
      (fun _ _ _ hwf hstep => Receiver.step_wellFormed hwf hstep)
      (fun _ _ _ hwf hstep => compactionKeepsPending_iff hwf (Receiver.step_cases hwf hstep).1)
      hwf hrun
  refine ⟨fun h => hkeeps.mp h.2, fun h => ⟨?_, hkeeps.mpr h⟩⟩
  have hvisited : Visited Receiver.step (fun r => r.processor.WellFormed ∧ PendingIsTail r)
      (Receiver.initial rxBuffer) chunks :=
    h.visited (fun _ _ _ hr hguard hstep =>
      ⟨Receiver.step_wellFormed hr.1 hstep, hr.2.step hr.1 hguard hstep⟩)
      ⟨hwf, List.suffix_refl _⟩
  exact hvisited.mono fun _ hr => hr.2

/-- What the first receive returns: a frame without topic and payload, one with 200 bytes of
payload, and the header of a third one with the first 34 of its 100 bytes of payload. -/
def framesUpToEnd : Bytes :=
  PacketHeader.toBytes {} ++
    (PacketHeader.toBytes { payloadSize := 200 } ++ List.replicate 200 0) ++
    (PacketHeader.toBytes { payloadSize := 100 } ++ List.replicate 34 1)

/-- The next byte fills the buffer behind the consumed first frame: the stale bytes then
stand behind the received part of the third frame. -/
theorem framesUpToEnd_leave_stale :
    ¬Visited Receiver.step PendingIsTail (Receiver.initial (Vector.replicate RxBufferSize 0))
      [framesUpToEnd, [2]] := by
  intro hvisited
  have hlast : (run Receiver.step (Receiver.initial (Vector.replicate RxBufferSize 0))
      [framesUpToEnd, [2]]).map (fun r => decide (PendingIsTail r)) = some false := by
    decide +kernel
  obtain ⟨r, hrun, htail⟩ := Option.map_eq_some_iff.mp hlast
  exact of_decide_eq_false htail (hvisited.last hrun)

/-- The equivalence, on a run in which a consumed frame is followed by the beginning of the
next one and then by a call that receives nothing. -/
theorem pendingIsTail_twoFrames :
    Visited Receiver.step PendingIsTail (Receiver.initial (Vector.replicate RxBufferSize 0))
        [PacketHeader.toBytes {} ++ [5, 0], [], [0, 0xEF]] ∧
      Along Receiver.step CompactionKeepsPending
        (Receiver.initial (Vector.replicate RxBufferSize 0))
        [PacketHeader.toBytes {} ++ [5, 0], [], [0, 0xEF]] := by
  have henabled : (run Receiver.step (Receiver.initial (Vector.replicate RxBufferSize 0))
      [PacketHeader.toBytes {} ++ [5, 0], [], [0, 0xEF]]).isSome = true := by
    decide +kernel
  obtain ⟨r, hr⟩ := Option.isSome_iff_exists.mp henabled
  exact (pendingIsTail_iff_receivesWithoutShift _ _ r hr).mpr (by decide +kernel)

end NixieVfdCentral
