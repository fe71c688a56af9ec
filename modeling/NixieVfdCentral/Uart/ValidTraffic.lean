import NixieVfdCentral.Uart.ReceivePath

/-!
# Valid traffic through the packet processor

The invariant of the receive path is that the pending bytes, the stream buffer and the
line together are exactly the frames not exposed yet. Every call preserves it unless it
shifts the full buffer, or finds the buffer full and not used up.
-/

namespace NixieVfdCentral

open Runs Framing PacketProcessor

/-- The bytes of a series of frames are those of the first one and then those of the others. -/
theorem encode_cons (f : Frame) (frames : List Frame) :
    encode (f :: frames) = f.toBytes ++ encode frames := rfl

namespace ReceivePath

/-- The frames `exposed` have come out, and the frames `todo` are exactly what is pending,
in the stream buffer and on the line; every byte so far is accounted for. -/
structure InSync (exposed todo : List Frame) (s : ReceivePath) : Prop where
  wellFormed : s.receiver.processor.WellFormed
  packets_eq : s.receiver.packets = exposed.map Frame.packet
  pending_eq : s.receiver.processor.window ++ (s.rxStream ++ s.line) = encode todo
  received_eq : s.receiver.received ++ (s.rxStream ++ s.line) = encode (exposed ++ todo)

/-- At the start no frame has come out, and all of them are on the line. -/
theorem initial_inSync (rxBuffer : Vector UInt8 RxBufferSize) (frames : List Frame) :
    InSync [] frames (initial rxBuffer frames) :=
  ⟨Receiver.initial_wellFormed rxBuffer, rfl, rfl, rfl⟩

variable {s s' : ReceivePath} {n : ℕ}

/-- Arriving bytes only move from the line to the stream buffer. -/
theorem step_arrive (hstep : s.step (.arrive n) = some s') :
    s'.receiver = s.receiver ∧ s'.rxStream ++ s'.line = s.rxStream ++ s.line := by
  simp only [step] at hstep
  split_ifs at hstep
  obtain rfl := Option.some.inj hstep
  refine ⟨rfl, ?_⟩
  change s.rxStream ++ s.line.take n ++ s.line.drop n = _
  rw [List.append_assoc, List.take_append_drop]

/-- A call receives the next bytes of the stream buffer. -/
theorem step_call (hstep : s.step (.call n) = some s') :
    n ≤ s.rxStream.length ∧ (0 < s.receiver.processor.requestedCapacity → 0 < n) ∧
      s.receiver.step (s.rxStream.take n) = some s'.receiver ∧ s'.line = s.line ∧
      s'.rxStream = if n = 0 then [] else s.rxStream.drop n := by
  simp only [step, Option.ite_none_right_eq_some] at hstep
  obtain ⟨⟨hn, hpos⟩, hmap⟩ := hstep
  obtain ⟨receiver, hreceiver, rfl⟩ := Option.map_eq_some_iff.mp hmap
  exact ⟨hn, hpos, hreceiver, rfl, rfl⟩

/-- Bytes that arrive only move on to the stream, so the receive path stays in sync. -/
theorem InSync.arrive {exposed todo : List Frame} (h : InSync exposed todo s)
    (hstep : s.step (.arrive n) = some s') : InSync exposed todo s' := by
  obtain ⟨hreceiver, hbytes⟩ := step_arrive hstep
  exact ⟨hreceiver ▸ h.wellFormed, hreceiver ▸ h.packets_eq,
    by rw [hreceiver, hbytes, h.pending_eq], by rw [hreceiver, hbytes, h.received_eq]⟩

/-- Receiving moves bytes from the stream buffer behind the pending ones. -/
theorem InSync.received_pending {exposed todo : List Frame} (h : InSync exposed todo s) (n : ℕ) :
    s.receiver.processor.window ++ s.rxStream.take n ++ (s.rxStream.drop n ++ s.line) =
      encode todo := by
  rw [← h.pending_eq, List.append_assoc, ← List.append_assoc (s.rxStream.take n),
    List.take_append_drop]

/-- Before a call that receives something, the pending bytes and the received chunk start
with the next frame, or they are a proper beginning of it. -/
theorem InSync.next_frame {exposed todo : List Frame} (h : InSync exposed todo s)
    (hn : n ≤ s.rxStream.length) (hpos : 0 < n) :
    ∃ f rest, todo = f :: rest ∧
      ((∃ after, s.receiver.processor.window ++ s.rxStream.take n = f.toBytes ++ after) ∨
        (s.receiver.processor.window ++ s.rxStream.take n <+: f.toBytes ∧
          (s.receiver.processor.window ++ s.rxStream.take n).length < f.toBytes.length)) := by
  have hsplit := h.received_pending n
  have hlength : 0 < (s.receiver.processor.window ++ s.rxStream.take n).length := by
    rw [List.length_append, List.length_take, Nat.min_eq_left hn]
    omega
  generalize s.receiver.processor.window ++ s.rxStream.take n = pending at hsplit hlength ⊢
  cases todo with
  | nil =>
    rw [(List.append_eq_nil_iff.mp hsplit).1] at hlength
    exact absurd hlength (Nat.lt_irrefl 0)
  | cons f rest =>
    rw [encode_cons] at hsplit
    have hframe : f.toBytes <+: f.toBytes ++ encode rest := List.prefix_append _ _
    have hpending : pending <+: f.toBytes ++ encode rest := hsplit ▸ List.prefix_append _ _
    refine ⟨f, rest, rfl, ?_⟩
    by_cases hwhole : f.toBytes.length ≤ pending.length
    · obtain ⟨after, hafter⟩ := List.prefix_of_prefix_length_le hframe hpending hwhole
      exact Or.inl ⟨after, hafter.symm⟩
    · exact Or.inr ⟨List.prefix_of_prefix_length_le hpending hframe (by omega), by omega⟩

/-- What a call that receives something returns, given how the buffer looks to the search. -/
theorem call_outcome (hwf : s.receiver.processor.WellFormed) (hpos : 0 < n)
    (hstep : s.step (.call n) = some s') :
    (∃ frame,
      packetFormat.nextFrame (s.receiver.processor.pendingAfterReceive (s.rxStream.take n)) =
        some (frame, s'.receiver.processor.window) ∧
      s'.receiver.packets = s.receiver.packets ++ [(exposedOf frame).packet]) ∨
      (packetFormat.nextFrame (s.receiver.processor.pendingAfterReceive (s.rxStream.take n)) =
          none ∧
        s'.receiver.processor.window =
          packetFormat.resync (s.receiver.processor.pendingAfterReceive (s.rxStream.take n)) ∧
        s'.receiver.packets = s.receiver.packets) := by
  obtain ⟨hn, _, hreceiver, _⟩ := step_call hstep
  have hchunk : s.rxStream.take n ≠ [] := by
    apply List.ne_nil_of_length_pos
    rwa [List.length_take, Nat.min_eq_left hn]
  obtain ⟨_, _, ⟨hnil, _⟩ | ⟨_, returned, hcall, hresults⟩⟩ := Receiver.step_cases hwf hreceiver
  · exact absurd hnil hchunk
  · rcases hcall.outcome with ⟨rfl, frame, hnext, hexposed⟩ | ⟨rfl, hnone, hwindow, _⟩
    · refine Or.inl ⟨frame, hnext, ?_⟩
      rw [Receiver.packets, hresults, List.filterMap_append, if_pos rfl, hexposed]
      rfl
    · refine Or.inr ⟨hnone, hwindow, ?_⟩
      rw [Receiver.packets, hresults, List.filterMap_append]
      exact List.append_nil _

/-- A call moves the last position by what it received. -/
theorem call_last (hwf : s.receiver.processor.WellFormed) (hpos : 0 < n)
    (hstep : s.step (.call n) = some s') :
    s'.receiver.processor.bufferLastPosition =
      s.receiver.processor.beginExtract.bufferLastPosition + n := by
  obtain ⟨hn, _, hreceiver, _⟩ := step_call hstep
  have hlength : (s.rxStream.take n).length = n := by
    rw [List.length_take, Nat.min_eq_left hn]
  obtain ⟨_, _, ⟨hnil, _⟩ | ⟨_, _, hcall, _⟩⟩ := Receiver.step_cases hwf hreceiver
  · rw [hnil] at hlength
    exact absurd hlength.symm (Nat.pos_iff_ne_zero.mp hpos)
  · rw [hcall.last_eq, hlength]

/-- **One call without a shift** exposes the next frame and consumes it if it is complete
now, and otherwise keeps all its bytes. -/
theorem InSync.call_cases {exposed todo : List Frame} (h : InSync exposed todo s) (hpos : 0 < n)
    (hshift : ¬s.receiver.processor.TakesShift (s.rxStream.take n))
    (hstep : s.step (.call n) = some s') :
    ∃ f rest, todo = f :: rest ∧
      ((s.receiver.processor.window ++ s.rxStream.take n =
          f.toBytes ++ s'.receiver.processor.window ∧
          s'.receiver.packets = s.receiver.packets ++ [f.packet]) ∨
        (s.receiver.processor.window ++ s.rxStream.take n = s'.receiver.processor.window ∧
          s'.receiver.processor.window.length < f.toBytes.length ∧
          s'.receiver.packets = s.receiver.packets)) := by
  obtain ⟨f, rest, rfl, hcases⟩ := h.next_frame (step_call hstep).1 hpos
  have hframe := f.isFrame_toBytes
  have houtcome := call_outcome h.wellFormed hpos hstep
  rw [h.wellFormed.pendingAfterReceive_eq_append hshift] at houtcome
  refine ⟨f, rest, rfl, ?_⟩
  rcases hcases with ⟨after, hafter⟩ | ⟨hbegins, hproper⟩
  · rw [hafter, nextFrame_of_frame hframe after] at houtcome
    rcases houtcome with ⟨frame, hnext, hpackets⟩ | ⟨hnone, _⟩
    · obtain ⟨rfl, rfl⟩ := Prod.mk.inj (Option.some.inj hnext)
      rw [f.packet_exposedOf] at hpackets
      exact Or.inl ⟨hafter, hpackets⟩
    · cases hnone
  · obtain ⟨hkeep, hnone⟩ := resync_of_proper_beginning hframe hbegins hproper
    rw [hkeep, hnone] at houtcome
    rcases houtcome with ⟨_, hnext, _⟩ | ⟨_, hwindow, hpackets⟩
    · cases hnext
    · exact Or.inr ⟨hwindow.symm, hwindow ▸ hproper, hpackets⟩

/-- **A call without a shift keeps the receive path in sync.** -/
theorem InSync.call {exposed todo : List Frame} (h : InSync exposed todo s) (hpos : 0 < n)
    (hshift : ¬s.receiver.processor.TakesShift (s.rxStream.take n))
    (hstep : s.step (.call n) = some s') :
    ∃ exposed' todo', exposed' ++ todo' = exposed ++ todo ∧ InSync exposed' todo' s' := by
  obtain ⟨f, rest, rfl, hcases⟩ := h.call_cases hpos hshift hstep
  obtain ⟨_, _, hreceiver, hline, hstream⟩ := step_call hstep
  rw [if_neg (Nat.pos_iff_ne_zero.mp hpos)] at hstream
  have hwf := Receiver.step_wellFormed h.wellFormed hreceiver
  have hreceived : s'.receiver.received ++ (s'.rxStream ++ s'.line) =
      encode (exposed ++ f :: rest) := by
    obtain ⟨_, hreceived, _⟩ := Receiver.step_cases h.wellFormed hreceiver
    rw [hreceived, hstream, hline, ← h.received_eq, List.append_assoc,
      ← List.append_assoc (s.rxStream.take n), List.take_append_drop]
  have hsplit := h.received_pending n
  rw [← hstream, ← hline] at hsplit
  rcases hcases with ⟨hpending, hpackets⟩ | ⟨hpending, _, hpackets⟩
  · refine ⟨exposed ++ [f], rest, by simp, hwf, ?_, ?_, by rw [hreceived]; simp⟩
    · rw [hpackets, h.packets_eq, List.map_append]
      rfl
    · rw [hpending, encode_cons, List.append_assoc] at hsplit
      exact List.append_cancel_left hsplit
  · refine ⟨exposed, f :: rest, rfl, hwf, by rw [hpackets, h.packets_eq], ?_, hreceived⟩
    rwa [hpending] at hsplit

end ReceivePath

end NixieVfdCentral
