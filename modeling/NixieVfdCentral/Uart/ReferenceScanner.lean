import NixieVfdCentral.Uart.Receiver

/-!
# Refinement of a reference scanner

The reference scanner never forgets a byte: it keeps the whole history and a position
in it. At every chunk it moves the position over noise and emits at most one frame. As
long as the receive buffer does not fill up, the packet processor with its rewinds and
its bounded buffer behaves exactly like this scanner, call by call.
-/

namespace NixieVfdCentral

open Runs Framing PacketProcessor

/-- The 16-bit little-endian value at a position of the history. -/
def littleEndianAt (history : Bytes) (i : ℕ) : ℕ :=
  (history.getD i 0).toNat + 256 * (history.getD (i + 1) 0).toNat

/-- The reference scanner. -/
structure Scanner where
  /-- Everything received so far. -/
  history : Bytes
  /-- Everything before this position is settled. -/
  position : ℕ
  /-- For every chunk so far the frame emitted after it, if any. -/
  emitted : List (Option Exposed)

namespace Scanner

/-- Before anything is received. -/
def initial : Scanner := ⟨[], 0, []⟩

/-- While seven bytes remain and the magic number is not in place, advance by one. -/
def advance (history : Bytes) (position : ℕ) : ℕ :=
  if position + 7 ≤ history.length ∧ littleEndianAt history (position + 3) ≠ 0xBEEF then
    advance history (position + 1)
  else position
termination_by history.length - position

/-- Resume at a position of the history: the new position and the frame that is emitted,
provided all of its announced bytes are there. -/
def scan (history : Bytes) (position : ℕ) : ℕ × Option Exposed :=
  let position := advance history position
  let topicLength := littleEndianAt history position
  let payloadSize := littleEndianAt history (position + 5)
  if position + 7 ≤ history.length ∧ position + 7 + topicLength + payloadSize ≤ history.length then
    (position + 7 + topicLength + payloadSize, some
      { topic := some ((history.drop (position + 7)).take topicLength)
        payload := if payloadSize = 0 then none
          else some ((history.drop (position + 7 + topicLength)).take payloadSize) })
  else (position, none)

/-- Resume on the history extended by a chunk. -/
def feed (s : Scanner) (chunk : Bytes) : Scanner where
  history := s.history ++ chunk
  position := (scan (s.history ++ chunk) s.position).1
  emitted := s.emitted ++ [(scan (s.history ++ chunk) s.position).2]

end Scanner

variable {history : Bytes} {position : ℕ}

/-- The fields of the header at a position, as the scanner reads them. -/
theorem header_at (history : Bytes) (position : ℕ) :
    (PacketHeader.ofBytes (history.drop position)).topicLength.toNat =
        littleEndianAt history position ∧
      (PacketHeader.ofBytes (history.drop position)).magic.toNat =
        littleEndianAt history (position + 3) ∧
      (PacketHeader.ofBytes (history.drop position)).payloadSize.toNat =
        littleEndianAt history (position + 5) := by
  refine ⟨?_, ?_, ?_⟩ <;>
    simp only [PacketHeader.ofBytes, toNat_ofLittleEndian, getD_drop, littleEndianAt, Nat.add_assoc,
      Nat.add_zero]

/-- A header stands at a position exactly when the scanner does not move on from it. -/
theorem startsHeader_drop_iff :
    packetFormat.StartsHeader (history.drop position) ↔
      position + 7 ≤ history.length ∧ littleEndianAt history (position + 3) = 0xBEEF := by
  rw [startsHeader_iff, ← UInt16.toNat_inj, (header_at history position).2.1, List.length_drop]
  change 7 ≤ history.length - position ∧ littleEndianAt history (position + 3) = 0xBEEF ↔ _
  constructor
  · rintro ⟨hlength, hmagic⟩
    exact ⟨by omega, hmagic⟩
  · rintro ⟨hlength, hmagic⟩
    exact ⟨by omega, hmagic⟩

/-- **Advancing is resynchronising**: the bytes from the new position on are those that the search
for a header keeps. -/
theorem Scanner.advance_spec (hposition : position ≤ history.length) :
    position ≤ advance history position ∧ advance history position ≤ history.length ∧
      history.drop (advance history position) = packetFormat.resync (history.drop position) := by
  induction position using Scanner.advance.induct history with
  | case1 position hnoise ih =>
    rw [Scanner.advance, if_pos hnoise]
    obtain ⟨hle, hlength, hdrop⟩ := ih (by omega)
    refine ⟨by omega, hlength, ?_⟩
    have hheader : ¬packetFormat.StartsHeader (history.drop position) := fun h =>
      hnoise.2 (startsHeader_drop_iff.mp h).2
    have hbound : position < history.length := by omega
    have hcons : history.drop position = history[position] :: history.drop (position + 1) :=
      List.drop_eq_getElem_cons hbound
    rw [hdrop, hcons]
    refine (resync_cons_of_noise ?_ (hcons ▸ hheader)).symm
    change 7 ≤ _
    rw [← hcons, List.length_drop]
    omega
  | case2 position hstop =>
    rw [Scanner.advance, if_neg hstop]
    refine ⟨Nat.le_refl _, hposition, ?_⟩
    by_cases hlength : position + 7 ≤ history.length
    · have hmagic : littleEndianAt history (position + 3) = 0xBEEF := by
        by_contra h
        exact hstop ⟨hlength, h⟩
      exact (resync_of_startsHeader (startsHeader_drop_iff.mpr ⟨hlength, hmagic⟩)).symm
    · refine (resync_of_short ?_).symm
      change _ < 7
      rw [List.length_drop]
      omega

/-- The frame the scanner emits at a position, read from the history. -/
theorem exposedOf_at (history : Bytes) {length : ℕ}
    (hlength : length = packetFormat.frameLength (history.drop position)) :
    exposedOf ((history.drop position).take length) =
      { topic := some ((history.drop (position + 7)).take (littleEndianAt history position))
        payload := if littleEndianAt history (position + 5) = 0 then none
          else some ((history.drop (position + 7 + littleEndianAt history position)).take
            (littleEndianAt history (position + 5))) } := by
  obtain ⟨htopic, _, hpayload⟩ := header_at history position
  rw [frameLength_eq, htopic, hpayload] at hlength
  change length = 7 + _ at hlength
  have hofBytes : PacketHeader.ofBytes ((history.drop position).take length) =
      PacketHeader.ofBytes (history.drop position) := by
    rw [← PacketHeader.ofBytes_take ((history.drop position).take length), List.take_take,
      Nat.min_eq_left (by unfold sizeofPacketHeader; omega), PacketHeader.ofBytes_take]
  have hpart : ∀ offset count, offset + count ≤ length →
      (((history.drop position).take length).drop offset).take count =
        (history.drop (position + offset)).take count := by
    intro offset count hle
    rw [List.drop_take, List.take_take, Nat.min_eq_left (by omega), List.drop_drop]
  rw [exposedOf, hofBytes, htopic, hpayload, List.drop_drop]
  change Exposed.mk (some (List.take _ (List.drop 7 _)))
    (if _ then some (List.take _ (List.drop (7 + _) _)) else none) = _
  rw [hpart 7 _ (by omega), hpart (7 + littleEndianAt history position) _ (by omega)]
  by_cases hzero : littleEndianAt history (position + 5) = 0
  · rw [if_neg (by omega), if_pos hzero]
  · rw [if_pos (by omega), if_neg hzero, Nat.add_assoc]

/-- **The scanner reads frames.** It emits the next frame of the bytes from its position
on and moves behind it; without one it only moves over the noise. -/
theorem Scanner.scan_spec (hposition : position ≤ history.length) :
    (Scanner.scan history position).1 ≤ history.length ∧
      ((∃ frame, packetFormat.nextFrame (history.drop position) =
          some (frame, history.drop (Scanner.scan history position).1) ∧
          (Scanner.scan history position).2 = some (exposedOf frame)) ∨
        (packetFormat.nextFrame (history.drop position) = none ∧
          history.drop (Scanner.scan history position).1 =
            packetFormat.resync (history.drop position) ∧
          (Scanner.scan history position).2 = none)) := by
  obtain ⟨_, hlength, hresync⟩ := Scanner.advance_spec hposition
  rw [Scanner.scan]
  generalize Scanner.advance history position = start at hlength hresync ⊢
  obtain ⟨htopic, _, hpayload⟩ := header_at history start
  have hframeLength : packetFormat.frameLength (history.drop start) =
      7 + (littleEndianAt history start + littleEndianAt history (start + 5)) := by
    rw [frameLength_eq, htopic, hpayload]
    rfl
  by_cases hall : start + 7 ≤ history.length ∧
      start + 7 + littleEndianAt history start + littleEndianAt history (start + 5) ≤ history.length
  · simp only [if_pos hall]
    have hheader : packetFormat.StartsHeader (packetFormat.resync (history.drop position)) := by
      refine (resync_stops (history.drop position)).resolve_right fun hfew => ?_
      rw [← hresync, List.length_drop] at hfew
      change _ < 7 at hfew
      omega
    refine ⟨hall.2, Or.inl
      ⟨(history.drop start).take (packetFormat.frameLength (history.drop start)),
        nextFrame_eq_some_iff.mpr ⟨hheader, ?_, ?_⟩, ?_⟩⟩
    · rw [← hresync, List.length_take, List.length_drop]
      omega
    · rw [← hresync]
      have hsplit := List.take_append_drop (packetFormat.frameLength (history.drop start))
        (history.drop start)
      rw [List.drop_drop] at hsplit
      rw [show start + 7 + littleEndianAt history start + littleEndianAt history (start + 5) =
        start + packetFormat.frameLength (history.drop start) by omega]
      exact hsplit.symm
    · rw [exposedOf_at history rfl]
  · simp only [if_neg hall]
    refine ⟨hlength, Or.inr ⟨nextFrame_eq_none_iff.mpr ?_, hresync, trivial⟩⟩
    rw [← hresync, hframeLength, startsHeader_drop_iff, List.length_drop]
    omega

/-- The packet processor and the scanner have seen the same bytes and agree on what
happened; what the packet processor still holds is what the scanner has not settled. -/
structure Refines (r : Receiver) (s : Scanner) : Prop where
  wellFormed : r.processor.WellFormed
  received_eq : r.received = s.history
  results_eq : r.results = s.emitted
  position_le : s.position ≤ s.history.length
  window_eq : r.processor.window = s.history.drop s.position

/-- A receive that brings at least one byte and leaves the last position below the end
of the buffer. -/
def ReceivesBelowEnd (r : Receiver) (chunk : Bytes) : Prop :=
  chunk ≠ [] ∧ r.processor.beginExtract.bufferLastPosition + chunk.length < RxBufferSize

/-- At the start neither the packet processor nor the scanner has received anything. -/
theorem initial_refines (rxBuffer : Vector UInt8 RxBufferSize) :
    Refines (Receiver.initial rxBuffer) Scanner.initial :=
  ⟨Receiver.initial_wellFormed rxBuffer, rfl, rfl, Nat.le_refl 0, rfl⟩

/-- **One call refines one step of the scanner**, as long as it does not reach the end of the
buffer. -/
theorem Refines.step {r r' : Receiver} {s : Scanner} {chunk : Bytes} (h : Refines r s)
    (hbelow : ReceivesBelowEnd r chunk) (hstep : r.step chunk = some r') :
    Refines r' (s.feed chunk) := by
  obtain ⟨hreceived, returned, hcall, hresults⟩ :=
    Receiver.step_of_ne h.wellFormed hbelow.1 hstep
  have hshift : ¬r.processor.TakesShift chunk := fun hfull => by
    have := hfull.1
    have := hbelow.2
    omega
  have hpending : r.processor.pendingAfterReceive chunk = (s.history ++ chunk).drop s.position := by
    rw [h.wellFormed.pendingAfterReceive_eq_append hshift, h.window_eq]
    exact (List.drop_append_of_le_length h.position_le).symm
  have hlength : s.position ≤ (s.history ++ chunk).length := by
    rw [List.length_append]
    exact Nat.le_add_right_of_le h.position_le
  obtain ⟨hposition, hscan⟩ := Scanner.scan_spec hlength
  have houtcome := hcall.outcome
  rw [hpending] at houtcome
  refine ⟨hcall.wellFormed, by rw [hreceived, h.received_eq]; rfl, ?_, hposition, ?_⟩
  · change r'.results = s.emitted ++ [(Scanner.scan (s.history ++ chunk) s.position).2]
    rw [hresults, h.results_eq]
    rcases houtcome with ⟨rfl, frame, hframe, hexposed⟩ | ⟨rfl, hnone, _⟩
    · rcases hscan with ⟨frame', hframe', hemitted⟩ | ⟨hnone, _⟩
      · rw [hframe] at hframe'
        obtain ⟨rfl, _⟩ := Prod.mk.inj (Option.some.inj hframe')
        rw [if_pos rfl, hexposed, hemitted]
      · rw [hframe] at hnone
        cases hnone
    · rcases hscan with ⟨frame', hframe', _⟩ | ⟨_, _, hemitted⟩
      · rw [hnone] at hframe'
        cases hframe'
      · rw [hemitted]
        rfl
  · change r'.processor.window =
      (s.history ++ chunk).drop (Scanner.scan (s.history ++ chunk) s.position).1
    rcases houtcome with ⟨_, frame, hframe, _⟩ | ⟨_, hnone, hwindow, _⟩
    · rcases hscan with ⟨frame', hframe', _⟩ | ⟨hnone, _⟩
      · rw [hframe] at hframe'
        exact (Prod.mk.inj (Option.some.inj hframe')).2
      · rw [hframe] at hnone
        cases hnone
    · rcases hscan with ⟨frame', hframe', _⟩ | ⟨_, hresync, _⟩
      · rw [hnone] at hframe'
        cases hframe'
      · rw [hwindow, hresync]

instance (r : Receiver) (chunk : Bytes) : Decidable (ReceivesBelowEnd r chunk) :=
  inferInstanceAs (Decidable (_ ∧ _))

/-- A receive that leaves the last position below the end fits the requested capacity. -/
theorem ReceivesBelowEnd.fits {r : Receiver} {chunk : Bytes} (hwf : r.processor.WellFormed)
    (hbelow : ReceivesBelowEnd r chunk) : chunk.length ≤ r.processor.requestedCapacity := by
  have := hbelow.2
  rw [hwf.requestedCapacity_eq]
  omega

/-- A run that never fills the buffer takes the packet processor and the scanner to
related states. -/
theorem Refines.run {r : Receiver} {s : Scanner} {chunks : List Bytes} (h : Refines r s)
    (hbelow : Along Receiver.step ReceivesBelowEnd r chunks) :
    ∃ r', Runs.run Receiver.step r chunks = some r' ∧ Refines r' (chunks.foldl Scanner.feed s) := by
  induction chunks generalizing r s with
  | nil => exact ⟨r, rfl, h⟩
  | cons chunk chunks ih =>
    obtain ⟨r₁, hstep⟩ := Receiver.step_enabled h.wellFormed (hbelow.1.fits h.wellFormed)
    obtain ⟨r', hrun, hrefines⟩ := ih (h.step hbelow.1 hstep) (hbelow.2 r₁ hstep)
    exact ⟨r', run_cons_eq_some.mpr ⟨r₁, hstep, hrun⟩, hrefines⟩

/-- **The packet processor refines the reference scanner.** In every run in which the last
position stays below the end of the buffer, each call exposes what the scanner emits after the
same chunk, and the bytes it still holds are those the scanner has not settled yet. -/
theorem extract_refines_scanner (rxBuffer : Vector UInt8 RxBufferSize) (chunks : List Bytes)
    (hbelow : Along Receiver.step ReceivesBelowEnd (Receiver.initial rxBuffer) chunks) :
    ∃ r, Runs.run Receiver.step (Receiver.initial rxBuffer) chunks = some r ∧
      r.received = (chunks.foldl Scanner.feed Scanner.initial).history ∧
      r.results = (chunks.foldl Scanner.feed Scanner.initial).emitted ∧
      r.processor.window =
        r.received.drop (chunks.foldl Scanner.feed Scanner.initial).position := by
  obtain ⟨r, hrun, hrefines⟩ := (initial_refines rxBuffer).run hbelow
  exact ⟨r, hrun, hrefines.received_eq, hrefines.results_eq,
    by rw [hrefines.window_eq, hrefines.received_eq]⟩

/-- Noise, then a frame cut inside its magic number: the refinement applies. -/
theorem extract_refines_scanner_split_magic :
    ∃ r, Runs.run Receiver.step (Receiver.initial (Vector.replicate RxBufferSize 0))
        [[0x55, 2, 0, 0, 0xEF], [0xBE, 1, 0, 0x61, 0x62, 0x63]] = some r ∧
      r.received = [0x55, 2, 0, 0, 0xEF, 0xBE, 1, 0, 0x61, 0x62, 0x63] ∧
      r.results = [none, some ⟨some [0x61, 0x62], some [0x63]⟩] ∧ r.processor.window = [] := by
  obtain ⟨r, hrun, hreceived, hresults, hwindow⟩ :=
    extract_refines_scanner (Vector.replicate RxBufferSize 0)
      [[0x55, 2, 0, 0, 0xEF], [0xBE, 1, 0, 0x61, 0x62, 0x63]] (by decide +kernel)
  have hscanner : [[0x55, 2, 0, 0, 0xEF], [0xBE, 1, 0, 0x61, 0x62, 0x63]].foldl Scanner.feed
      Scanner.initial = ⟨[0x55, 2, 0, 0, 0xEF, 0xBE, 1, 0, 0x61, 0x62, 0x63], 11,
        [none, some ⟨some [0x61, 0x62], some [0x63]⟩]⟩ := by
    simp [Scanner.feed, Scanner.initial, Scanner.scan, Scanner.advance, littleEndianAt]
  rw [hscanner] at hreceived hresults hwindow
  exact ⟨r, hrun, hreceived, hresults, by rw [hwindow, hreceived]; rfl⟩

end NixieVfdCentral
