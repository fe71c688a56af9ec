import NixieVfdCentral.Uart.ValidTraffic

/-!
# Decoding undoes encoding

The packets that come out are the first of those that were sent, however the stream is
cut into chunks, unless the full buffer is shifted while its pending bytes end inside a
frame: the last position then covers stale bytes, and these are taken for the rest of it.
-/

namespace NixieVfdCentral

open Runs Framing PacketProcessor

namespace ReceivePath

/-- The shift of the full buffer only happens once the pending bytes and the received
ones contain a whole frame. -/
def ShiftsOnlyWholeFrame (s : ReceivePath) : Event → Prop
  | .arrive _ => True
  | .call n => 0 < n → s.receiver.processor.TakesShift (s.rxStream.take n) →
      packetFormat.nextFrame (s.receiver.processor.window ++ s.rxStream.take n) ≠ none

instance (s : ReceivePath) : (e : Event) → Decidable (ShiftsOnlyWholeFrame s e)
  | .arrive _ => .isTrue trivial
  | .call n => inferInstanceAs (Decidable (0 < n → _ → _ ≠ none))

/-- The frames `exposed` have come out, and no call can receive anything any more. -/
structure Wedged (exposed : List Frame) (s : ReceivePath) : Prop where
  wellFormed : s.receiver.processor.WellFormed
  packets_eq : s.receiver.packets = exposed.map Frame.packet
  capacity_eq : s.receiver.processor.requestedCapacity = 0

variable {s s' : ReceivePath} {n : ℕ} {exposed todo : List Frame}

/-- **A shift after a whole frame** exposes that frame and leaves a buffer that is full. -/
theorem InSync.call_shift (h : InSync exposed todo s) (hpos : 0 < n)
    (hshift : s.receiver.processor.TakesShift (s.rxStream.take n))
    (hwhole : packetFormat.nextFrame (s.receiver.processor.window ++ s.rxStream.take n) ≠ none)
    (hstep : s.step (.call n) = some s') :
    ∃ exposed' todo', exposed' ++ todo' = exposed ++ todo ∧ Wedged exposed' s' := by
  obtain ⟨hn, _, hreceiver, _⟩ := step_call hstep
  have hwf := Receiver.step_wellFormed h.wellFormed hreceiver
  obtain ⟨f, rest, rfl, hcases⟩ := h.next_frame hn hpos
  have hframe := f.isFrame_toBytes
  rcases hcases with ⟨after, hafter⟩ | ⟨hbegins, hproper⟩
  · obtain ⟨stale, hstale, hpending⟩ := h.wellFormed.pendingAfterReceive_of_shift hshift
    rw [hafter, List.append_assoc] at hpending
    have houtcome := call_outcome h.wellFormed hpos hstep
    rw [hpending, nextFrame_of_frame hframe] at houtcome
    rcases houtcome with ⟨frame, hnext, hpackets⟩ | ⟨hnone, _⟩
    · obtain ⟨rfl, hwindow⟩ := Prod.mk.inj (Option.some.inj hnext)
      refine ⟨exposed ++ [f], rest, by simp, hwf, ?_, ?_⟩
      · rw [hpackets, h.packets_eq, f.packet_exposedOf, List.map_append]
        rfl
      · have hlast := call_last h.wellFormed hpos hstep
        have hleft : 0 < s'.receiver.processor.window.length := by
          rw [← hwindow, List.length_append]
          have := List.length_pos_iff.mpr hstale
          omega
        rw [hwf.length_window] at hleft
        have hfull := hshift.1
        rw [List.length_take, Nat.min_eq_left hn, ← hlast] at hfull
        have := hwf.last_le_size
        exact (Receiver.requestedCapacity_eq_zero_iff hwf).mpr ⟨by omega, by omega⟩
    · cases hnone
  · exact absurd (resync_of_proper_beginning hframe hbegins hproper).2 hwhole

/-- Once the buffer is full and not used up, every call returns false and changes nothing. -/
theorem Wedged.step {e : Event} (h : Wedged exposed s) (hstep : s.step e = some s') :
    Wedged exposed s' := by
  cases e with
  | arrive n =>
    obtain ⟨hreceiver, _⟩ := step_arrive hstep
    exact ⟨hreceiver ▸ h.wellFormed, hreceiver ▸ h.packets_eq, hreceiver ▸ h.capacity_eq⟩
  | call n =>
    obtain ⟨_, _, hreceiver, _⟩ := step_call hstep
    obtain ⟨hlast, hstart⟩ := (Receiver.requestedCapacity_eq_zero_iff h.wellFormed).mp h.capacity_eq
    have hwf := Receiver.step_wellFormed h.wellFormed hreceiver
    obtain ⟨hfits, _, ⟨_, hprocessor, hresults⟩ | ⟨hne, _⟩⟩ :=
      Receiver.step_cases h.wellFormed hreceiver
    · refine ⟨hwf, ?_, (Receiver.requestedCapacity_eq_zero_iff hwf).mpr ?_⟩
      · rw [Receiver.packets, hresults, List.filterMap_append, ← h.packets_eq]
        exact List.append_nil _
      · rw [hprocessor]
        rcases s.receiver.processor.beginExtract_cases with ⟨heq, _, _⟩ | ⟨_, hs, hl⟩
        · omega
        · exact ⟨by omega, by omega⟩
    · rw [h.capacity_eq] at hfits
      exact absurd (List.eq_nil_of_length_eq_zero (Nat.le_zero.mp hfits)) hne

/-- Either everything is in sync, or the buffer is full for good. -/
def Delivering (frames : List Frame) (s : ReceivePath) : Prop :=
  ∃ exposed todo, exposed ++ todo = frames ∧ (InSync exposed todo s ∨ Wedged exposed s)

/-- One event keeps what has come out a beginning of what was sent. -/
theorem Delivering.step {frames : List Frame} {e : Event} (h : Delivering frames s)
    (hguard : ShiftsOnlyWholeFrame s e) (hstep : s.step e = some s') : Delivering frames s' := by
  obtain ⟨exposed, todo, rfl, hsync | hwedged⟩ := h
  · cases e with
    | arrive n => exact ⟨exposed, todo, rfl, Or.inl (hsync.arrive hstep)⟩
    | call n =>
      by_cases hcapacity : s.receiver.processor.requestedCapacity = 0
      · have hwedged : Wedged exposed s := ⟨hsync.wellFormed, hsync.packets_eq, hcapacity⟩
        exact ⟨exposed, todo, rfl, Or.inr (hwedged.step hstep)⟩
      · have hpos : 0 < n := (step_call hstep).2.1 (Nat.pos_iff_ne_zero.mpr hcapacity)
        by_cases hshift : s.receiver.processor.TakesShift (s.rxStream.take n)
        · obtain ⟨exposed', todo', heq, h'⟩ :=
            hsync.call_shift hpos hshift (hguard hpos hshift) hstep
          exact ⟨exposed', todo', heq, Or.inr h'⟩
        · obtain ⟨exposed', todo', heq, h'⟩ := hsync.call hpos hshift hstep
          exact ⟨exposed', todo', heq, Or.inl h'⟩
  · exact ⟨exposed, todo, rfl, Or.inr (hwedged.step hstep)⟩

/-- **Decoding undoes encoding.** In every run that shifts the buffer only after a whole
frame, the packets that came out are the first of those that were sent. -/
theorem packets_prefix_of_shiftsOnlyWholeFrame (rxBuffer : Vector UInt8 RxBufferSize)
    (frames : List Frame) (events : List Event) (s : ReceivePath)
    (hguard : Along step ShiftsOnlyWholeFrame (initial rxBuffer frames) events)
    (hrun : run step (initial rxBuffer frames) events = some s) :
    s.receiver.packets <+: frames.map Frame.packet := by
  have hstart : Delivering frames (initial rxBuffer frames) :=
    ⟨[], frames, rfl, Or.inl (initial_inSync rxBuffer frames)⟩
  obtain ⟨exposed, todo, rfl, hcases⟩ :=
    hguard.invariant (Delivering frames) (fun _ _ _ h hg hs => h.step hg hs) hstart hrun
  have hpackets : s.receiver.packets = exposed.map Frame.packet := by
    rcases hcases with h | h
    · exact h.packets_eq
    · exact h.packets_eq
  rw [hpackets, List.map_append]
  exact List.prefix_append _ _

/-- A frame without topic and payload, and one that fills the buffer. -/
def shortThenLongest : List Frame :=
  [.shortest,
    { status := 0, topic := [], payload := List.replicate 242 0 ++ List.replicate 7 1,
      fits := by decide +kernel }]

/-- Of the 263 bytes 256 are received, and the last seven of the long frame are missing: it
comes out with stale bytes in their place. -/
theorem shortThenLongest_corrupted :
    ∃ s, run step (initial (Vector.replicate RxBufferSize 0) shortThenLongest)
        [.arrive 263, .call 255, .call 1] = some s ∧
      ¬s.receiver.packets <+: shortThenLongest.map Frame.packet := by
  have hpackets : (run step (initial (Vector.replicate RxBufferSize 0) shortThenLongest)
      [.arrive 263, .call 255, .call 1]).map (fun s => s.receiver.packets) =
        some [([], []), ([], List.replicate 249 0)] := by
    decide +kernel
  obtain ⟨s, hrun, hs⟩ := Option.map_eq_some_iff.mp hpackets
  refine ⟨s, hrun, ?_⟩
  rw [hs]
  decide +kernel

/-- The same two frames come out as they were sent when they are received one by one. -/
theorem packets_prefix_shortThenLongest :
    ∃ s, run step (initial (Vector.replicate RxBufferSize 0) shortThenLongest)
        [.arrive 263, .call 7, .call 256] = some s ∧
      s.receiver.packets <+: shortThenLongest.map Frame.packet := by
  have henabled : (run step (initial (Vector.replicate RxBufferSize 0) shortThenLongest)
      [.arrive 263, .call 7, .call 256]).isSome = true := by
    decide +kernel
  obtain ⟨s, hrun⟩ := Option.isSome_iff_exists.mp henabled
  exact ⟨s, hrun, packets_prefix_of_shiftsOnlyWholeFrame _ _ _ s (by decide +kernel) hrun⟩

end ReceivePath

end NixieVfdCentral
