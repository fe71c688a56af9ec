import NixieVfdCentral.Uart.ValidTraffic

/-!
# Valid traffic and the full buffer

A receive that fills the buffer to its end leaves the next call nothing to ask for,
unless that call finds the buffer used up. The next call then resets the stream buffer,
and what had arrived there is lost. Neither happens as long as every receive leaves room
behind it or completes a frame that takes the whole buffer.
-/

namespace NixieVfdCentral

open Runs Framing PacketProcessor

namespace ReceivePath

/-- The receive does not fill the buffer to its end, or it completes a frame that takes
the whole buffer. -/
def LeavesRoom (s : ReceivePath) : Event → Prop
  | .arrive _ => True
  | .call n =>
    s.receiver.processor.beginExtract.bufferLastPosition + n < RxBufferSize ∨
      s.receiver.processor.beginExtract.bufferStartPosition = 0 ∧
        packetFormat.frameLength (s.receiver.processor.window ++ s.rxStream.take n) = RxBufferSize

instance (s : ReceivePath) : (e : Event) → Decidable (LeavesRoom s e)
  | .arrive _ => .isTrue trivial
  | .call _ => inferInstanceAs (Decidable (_ ∨ _ ∧ _))

/-- The next call asks for at least one byte, and every byte that was sent has been
received or is still on its way. -/
def Flows (frames : List Frame) (s : ReceivePath) : Prop :=
  0 < s.receiver.processor.requestedCapacity ∧
    s.receiver.received ++ (s.rxStream ++ s.line) = encode frames

instance (frames : List Frame) (s : ReceivePath) : Decidable (Flows frames s) :=
  inferInstanceAs (Decidable (_ ∧ _))

variable {s s' : ReceivePath} {n : ℕ} {exposed todo : List Frame}

/-- A call that leaves room does not shift the buffer. -/
theorem not_takesShift_of_leavesRoom (hroom : LeavesRoom s (.call n)) :
    ¬s.receiver.processor.TakesShift (s.rxStream.take n) := by
  rintro ⟨hfull, hstart⟩
  rw [List.length_take] at hfull
  rcases hroom with hroom | ⟨hzero, _⟩
  · omega
  · omega

/-- **A call that leaves room** finds room again at the next call. -/
theorem InSync.capacity_of_leavesRoom (h : InSync exposed todo s) (hpos : 0 < n)
    (hroom : LeavesRoom s (.call n)) (hstep : s.step (.call n) = some s') :
    0 < s'.receiver.processor.requestedCapacity := by
  obtain ⟨hn, _, hreceiver, _⟩ := step_call hstep
  have hwf := Receiver.step_wellFormed h.wellFormed hreceiver
  have hlast := call_last h.wellFormed hpos hstep
  rw [Nat.pos_iff_ne_zero, Ne, Receiver.requestedCapacity_eq_zero_iff hwf]
  rintro ⟨hfull, hstart⟩
  rcases hroom with hroom | ⟨hzero, hlength⟩
  · omega
  · -- the received bytes start with a frame as long as the buffer, and nothing is left behind it
    have hshift := not_takesShift_of_leavesRoom (.inr ⟨hzero, hlength⟩)
    obtain ⟨f, rest, rfl, hcases⟩ := h.call_cases hpos hshift hstep
    obtain ⟨hheader, hframe⟩ := f.isFrame_toBytes
    have hpending : (s.receiver.processor.window ++ s.rxStream.take n).length = RxBufferSize := by
      rw [List.length_append, List.length_take, Nat.min_eq_left hn, ← window_beginExtract,
        h.wellFormed.beginExtract.length_window, ← hfull, hlast, hzero]
      rfl
    rcases hcases with ⟨hafter, _⟩ | ⟨hkept, hproper, _⟩
    · rw [hafter, frameLength_append hheader.1] at hlength
      rw [hafter, List.length_append, ← hframe, hlength] at hpending
      have hused := hwf.length_window
      have := hwf.start_le_last
      omega
    · rw [← hkept, hpending, f.length_toBytes] at hproper
      exact absurd f.fits (Nat.not_le.mpr hproper)

/-- **Valid traffic flows.** In every run whose receives leave room, every call asks for at
least one byte and no byte is lost, in every state of the run. -/
theorem flows_of_leavesRoom (rxBuffer : Vector UInt8 RxBufferSize) (frames : List Frame)
    (events : List Event) (hguard : Along step LeavesRoom (initial rxBuffer frames) events) :
    Visited step (Flows frames) (initial rxBuffer frames) events := by
  let Inv : ReceivePath → Prop := fun s =>
    0 < s.receiver.processor.requestedCapacity ∧
      ∃ exposed todo, exposed ++ todo = frames ∧ InSync exposed todo s
  have hstart : Inv (initial rxBuffer frames) :=
    ⟨(by decide : 0 < sizeSub RxBufferSize 0), [], frames, rfl, initial_inSync rxBuffer frames⟩
  have hstep : ∀ s e s', Inv s → LeavesRoom s e → s.step e = some s' → Inv s' := by
    rintro s e s' ⟨hcapacity, exposed, todo, rfl, hsync⟩ hroom hstep
    cases e with
    | arrive n =>
      obtain ⟨hreceiver, _⟩ := step_arrive hstep
      exact ⟨hreceiver ▸ hcapacity, exposed, todo, rfl, hsync.arrive hstep⟩
    | call n =>
      have hpos : 0 < n := (step_call hstep).2.1 hcapacity
      obtain ⟨exposed', todo', heq, hsync'⟩ :=
        hsync.call hpos (not_takesShift_of_leavesRoom hroom) hstep
      exact ⟨hsync.capacity_of_leavesRoom hpos hroom hstep, exposed', todo', heq, hsync'⟩
  refine (hguard.visited hstep hstart).mono ?_
  rintro s ⟨hcapacity, exposed, todo, rfl, hsync⟩
  exact ⟨hcapacity, hsync.received_eq⟩

/-- Two frames that fill the buffer together, and a third one. -/
def fillingPair : List Frame :=
  [.shortest,
    { status := 0, topic := [], payload := List.replicate 242 0, fits := by decide +kernel },
    .shortest]

/-- When the two frames arrive in one chunk, the next call asks for nothing, and the bytes
of the third frame are lost. -/
theorem fillingPair_starves :
    ¬Visited step (Flows fillingPair) (initial (Vector.replicate RxBufferSize 0) fillingPair)
      [.arrive 263, .call 256, .call 0] := by
  intro hvisited
  have hlost : (run step (initial (Vector.replicate RxBufferSize 0) fillingPair)
      [.arrive 263, .call 256, .call 0]).map
        (fun s => decide (Flows fillingPair s)) = some false := by
    decide +kernel
  obtain ⟨s, hrun, hs⟩ := Option.map_eq_some_iff.mp hlost
  exact of_decide_eq_false hs (hvisited.last hrun)

/-- The same frames, received with room left behind each of them. -/
theorem flows_fillingPair :
    Visited step (Flows fillingPair) (initial (Vector.replicate RxBufferSize 0) fillingPair)
      [.arrive 263, .call 7, .call 249, .call 7] :=
  flows_of_leavesRoom _ _ _ (by decide +kernel)

end ReceivePath

end NixieVfdCentral
