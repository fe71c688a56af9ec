import NixieVfdCentral.Uart.Receiver

/-!
# Frames left waiting in the buffer

A call hands over at most one packet and the next call waits for input before it looks
at the buffer again. So a complete frame stays in the buffer, unanswered, whenever one
receive brings the end of more than one frame; this file proves that it is the only way.
-/

namespace NixieVfdCentral

open Runs Framing PacketProcessor

/-- The bytes in the buffer do not yield a complete frame: what a call that is about to
wait in `receive` should find. -/
def NoFrameWaits (r : Receiver) : Prop := packetFormat.nextFrame r.processor.window = none

instance (r : Receiver) : Decidable (NoFrameWaits r) := inferInstanceAs (Decidable (_ = _))

/-- The pending bytes once `receive` has returned. A call that received nothing leaves
them alone. -/
def bufferedAfter (p : PacketProcessor) (received : Bytes) : Bytes :=
  if received = [] then p.window else p.pendingAfterReceive received

/-- The byte sequence holds at most one complete frame. -/
def HoldsAtMostOneFrame (w : Bytes) : Prop :=
  ∀ frame rest, packetFormat.nextFrame w = some (frame, rest) → packetFormat.nextFrame rest = none

/-- A receive after which the buffer holds at most one complete frame. -/
def DeliversAtMostOneFrame (r : Receiver) (chunk : Bytes) : Prop :=
  HoldsAtMostOneFrame (bufferedAfter r.processor chunk)

/-- A call from a state without a waiting frame leaves none behind exactly when the
receive delivered at most one. -/
theorem noFrameWaits_step_iff {r r' : Receiver} {chunk : Bytes} (hwf : r.processor.WellFormed)
    (hnone : NoFrameWaits r) (hstep : r.step chunk = some r') :
    NoFrameWaits r' ↔ DeliversAtMostOneFrame r chunk := by
  unfold NoFrameWaits at hnone ⊢
  obtain ⟨_, _, ⟨rfl, hp, _⟩ | ⟨hne, returned, hcall, _⟩⟩ := Receiver.step_cases hwf hstep
  · rw [hp, window_beginExtract, DeliversAtMostOneFrame, bufferedAfter, if_pos rfl]
    refine ⟨fun _ frame rest hframe => ?_, fun _ => hnone⟩
    rw [hnone] at hframe
    cases hframe
  · rw [DeliversAtMostOneFrame, bufferedAfter, if_neg hne]
    rcases hcall.outcome with ⟨_, frame, hframe, _⟩ | ⟨_, hquiet, hwindow, _⟩
    · constructor
      · intro h frame' rest hframe'
        rw [hframe] at hframe'
        obtain ⟨_, rfl⟩ := Prod.mk.inj (Option.some.inj hframe')
        exact h
      · intro h
        exact h frame _ hframe
    · rw [hwindow, nextFrame_resync]
      refine ⟨fun _ frame rest hframe => ?_, fun _ => hquiet⟩
      rw [hquiet] at hframe
      cases hframe

/-- **No complete frame waits while the task blocks for input**, at any of the calls of a
run, exactly when every receive of the run delivers at most one complete frame. -/
theorem noFrameWaits_iff_deliversAtMostOne (rxBuffer : Vector UInt8 RxBufferSize)
    (chunks : List Bytes) (r : Receiver)
    (hrun : run Receiver.step (Receiver.initial rxBuffer) chunks = some r) :
    Visited Receiver.step NoFrameWaits (Receiver.initial rxBuffer) chunks ↔
      Along Receiver.step DeliversAtMostOneFrame (Receiver.initial rxBuffer) chunks :=
  visited_iff_along (fun r => r.processor.WellFormed)
    (fun _ _ _ hwf hstep => Receiver.step_wellFormed hwf hstep)
    (fun _ _ _ hwf hnone hstep => noFrameWaits_step_iff hwf hnone hstep)
    (Receiver.initial_wellFormed rxBuffer) rfl hrun

/-- A frame with the topic `a` and, right behind it, the time request of a clock. -/
def frameThenRequest : Bytes :=
  (PacketHeader.toBytes { topicLength := 1 } ++ ascii ['a']) ++
    (PacketHeader.toBytes { topicLength := 5, payloadSize := 7 } ++
      ascii ['c', 'l', 'o', 'c', 'k'] ++ ascii ['r', 'e', 'q', 'u', 'e', 's', 't'])

/-- The time request that arrives in one chunk with the frame before it waits in the buffer. -/
theorem request_waits_behind_frame :
    ¬Visited Receiver.step NoFrameWaits (Receiver.initial (Vector.replicate RxBufferSize 0))
      [frameThenRequest] := by
  intro hvisited
  have hstep : ((Receiver.initial (Vector.replicate RxBufferSize 0)).step frameThenRequest).map
      (fun r => decide (NoFrameWaits r)) = some false := by
    decide +kernel
  obtain ⟨r, hr, hwaits⟩ := Option.map_eq_some_iff.mp hstep
  exact of_decide_eq_false hwaits (hvisited.2 r hr)

/-- The equivalence, on a run that delivers the two frames in one chunk. -/
theorem noFrameWaits_iff_deliversAtMostOne_frameThenRequest :
    ∃ r, run Receiver.step (Receiver.initial (Vector.replicate RxBufferSize 0))
        [frameThenRequest] = some r ∧
      (Visited Receiver.step NoFrameWaits (Receiver.initial (Vector.replicate RxBufferSize 0))
          [frameThenRequest] ↔
        Along Receiver.step DeliversAtMostOneFrame
          (Receiver.initial (Vector.replicate RxBufferSize 0)) [frameThenRequest]) := by
  have henabled : (run Receiver.step (Receiver.initial (Vector.replicate RxBufferSize 0))
      [frameThenRequest]).isSome = true := by
    decide +kernel
  obtain ⟨r, hr⟩ := Option.isSome_iff_exists.mp henabled
  exact ⟨r, hr, noFrameWaits_iff_deliversAtMostOne _ _ r hr⟩

end NixieVfdCentral
