import NixieVfdCentral.Uart.Receiver
import NixieVfdCentral.Uart.OversizedHeader

/-!
# Completing a frame in the buffer

A receive buffer that is full and not used up asks `receive` for nothing, and nothing
changes any more. So a packet processor that is to return true again has to do so by the
time its buffer is full. This file reduces all continuations to that: a state recovers
exactly when its buffer is used up or can be filled, in one call or in two, such that a
complete frame is pending then.
-/

namespace NixieVfdCentral

open Runs Framing PacketProcessor

/-- Some finite continuation makes a call return true. -/
def Recovers (r : Receiver) : Prop :=
  ∃ chunks chunk r' frame, run Receiver.step r (chunks ++ [chunk]) = some r' ∧
    Along Receiver.step Receiver.ReceiveWaits r (chunks ++ [chunk]) ∧
    r'.results.getLast? = some (some frame)

/-- The pending bytes when `all` is in the buffer and is consumed up to `start`: a full
buffer is shifted and shows stale bytes behind them. -/
def pendingOf (all : Bytes) (start : ℕ) : Bytes :=
  if RxBufferSize ≤ all.length ∧ 0 < start then all.drop start ++ all.drop (RxBufferSize - start)
  else all.drop start

/-- The start position after a call that received `first` and returned false. -/
def startAfter (p : PacketProcessor) (first : Bytes) : ℕ :=
  if first = [] then p.bufferStartPosition
  else p.bufferLastPosition + first.length - (packetFormat.resync (p.window ++ first)).length

/-- The rest of the buffer can be filled, in one call or in two, such that the pending
bytes then contain a complete frame. -/
def FillCompletes (p : PacketProcessor) : Prop :=
  ∃ first second : Bytes, second ≠ [] ∧
    p.bufferLastPosition + first.length + second.length = RxBufferSize ∧
    packetFormat.nextFrame (pendingOf (p.contents ++ first ++ second) (startAfter p first)) ≠ none

/-- Recovery is possible: the buffer is used up, or the bytes that still fit behind the
received ones can complete a frame. -/
def CanComplete (p : PacketProcessor) : Prop :=
  p.bufferStartPosition = p.bufferLastPosition ∨
    (p.bufferLastPosition < RxBufferSize ∧ FillCompletes p)

/-- The bytes in the buffer from the start position on are pending in any case. -/
theorem drop_prefix_pendingOf (all : Bytes) (start : ℕ) :
    all.drop start <+: pendingOf all start := by
  unfold pendingOf
  split_ifs
  · exact List.prefix_append _ _
  · exact List.prefix_refl _

/-- What is pending in a buffer that is not full stays pending when it fills up. -/
theorem pendingOf_prefix_append {all : Bytes} (hall : all.length < RxBufferSize) (z : Bytes)
    (start : ℕ) : pendingOf all start <+: pendingOf (all ++ z) start := by
  have hopen : pendingOf all start = all.drop start := by
    unfold pendingOf
    exact if_neg fun h => by omega
  rw [hopen]
  refine List.IsPrefix.trans ?_ (drop_prefix_pendingOf (all ++ z) start)
  rw [List.drop_append]
  exact List.prefix_append _ _

section OneCall

variable {p p' : PacketProcessor} {received : Bytes}

/-- A buffer that is not used up keeps its positions when a call begins. -/
theorem beginExtract_positions (hne : p.bufferStartPosition ≠ p.bufferLastPosition) :
    p.beginExtract.bufferStartPosition = p.bufferStartPosition ∧
      p.beginExtract.bufferLastPosition = p.bufferLastPosition := by
  rcases p.beginExtract_cases with ⟨heq, _⟩ | ⟨_, hstart, hlast⟩
  · exact absurd heq hne
  · exact ⟨hstart, hlast⟩

/-- What is in a buffer that is not used up stays in it. -/
theorem contents_beginExtract (hne : p.bufferStartPosition ≠ p.bufferLastPosition) :
    p.beginExtract.contents = p.contents := by
  rw [contents, contents, rxBuffer_beginExtract, (beginExtract_positions hne).2]

/-- The pending bytes of a call in terms of the buffer before it. -/
theorem pendingAfterReceive_eq_pendingOf (hwf : p.WellFormed)
    (hne : p.bufferStartPosition ≠ p.bufferLastPosition) :
    p.pendingAfterReceive received = pendingOf (p.contents ++ received) p.bufferStartPosition := by
  obtain ⟨hstart, hlast⟩ := beginExtract_positions hne
  have hlength : (p.contents ++ received).length = p.bufferLastPosition + received.length := by
    rw [List.length_append, hwf.length_contents]
  have hiff : p.TakesShift received ↔
      RxBufferSize ≤ (p.contents ++ received).length ∧ 0 < p.bufferStartPosition := by
    unfold TakesShift
    rw [hlength, hstart, hlast]
  by_cases hshift : p.TakesShift received
  · rw [pendingAfterReceive, if_pos hshift, pendingOf, if_pos (hiff.mp hshift),
      contents_beginExtract hne, hstart]
  · rw [pendingAfterReceive, if_neg hshift, pendingOf, if_neg (fun h => hshift (hiff.mpr h)),
      contents_beginExtract hne, hstart]

/-- The search for a header leaves nothing over only where there was nothing. -/
theorem resync_ne_nil {w : Bytes} (h : w ≠ []) : packetFormat.resync w ≠ [] := by
  induction w with
  | nil => exact absurd rfl h
  | cons b w ih =>
    by_cases hnoise :
        packetFormat.headerLength ≤ (b :: w).length ∧ ¬packetFormat.StartsHeader (b :: w)
    · rw [resync_cons_of_noise hnoise.1 hnoise.2]
      apply ih
      rintro rfl
      exact absurd hnoise.1 (by change ¬7 ≤ 1; omega)
    · rcases not_and_or.mp hnoise with hshort | hheader
      · rw [resync_of_short (Nat.lt_of_not_le hshort)]
        exact h
      · rw [resync_of_startsHeader (not_not.mp hheader)]
        exact h

/-- A call that returns false and does not fill the buffer only moves the start position:
the received bytes stay in the buffer in order, and some of them stay pending. -/
theorem extracted_of_false (hwf : p.WellFormed) (hne : p.bufferStartPosition ≠ p.bufferLastPosition)
    (hreceived : received ≠ []) (hroom : p.bufferLastPosition + received.length < RxBufferSize)
    (hcall : Extracted p received false p') :
    p'.contents = p.contents ++ received ∧
      p'.bufferLastPosition = p.bufferLastPosition + received.length ∧
      p'.window = packetFormat.resync (p.window ++ received) ∧
      p'.bufferStartPosition = startAfter p received ∧
      p'.bufferStartPosition ≠ p'.bufferLastPosition := by
  obtain ⟨hstart, hlast⟩ := beginExtract_positions hne
  have hshift : ¬p.TakesShift received := fun h => by
    have := h.1
    omega
  have hcontents := hcall.contents_eq hshift
  rw [contents_beginExtract hne] at hcontents
  have hlast' := hcall.last_eq
  rw [hlast] at hlast'
  have hwindow : p'.window = packetFormat.resync (p.window ++ received) := by
    rw [hcall.of_false.2.1, hwf.pendingAfterReceive_eq_append hshift]
  have hlength := hcall.wellFormed.length_window
  have hle := hcall.wellFormed.start_le_last
  refine ⟨hcontents, hlast', hwindow, ?_, ?_⟩
  · rw [startAfter, if_neg hreceived, ← hwindow, hlength]
    omega
  · intro heq
    have hempty : p'.window = [] := List.eq_nil_of_length_eq_zero (by omega)
    rw [hwindow] at hempty
    exact resync_ne_nil (by simp [hreceived]) hempty

end OneCall

/-- A call that returns true shows that recovery was possible. -/
theorem canComplete_of_true {p p' : PacketProcessor} {received : Bytes} (hwf : p.WellFormed)
    (hfits : received.length ≤ p.requestedCapacity) (hreceived : received ≠ [])
    (hcall : Extracted p received true p') : CanComplete p := by
  by_cases hne : p.bufferStartPosition = p.bufferLastPosition
  · exact Or.inl hne
  have hroom := hwf.stored_le_size hfits
  rw [(beginExtract_positions hne).2] at hroom
  have hpos : 0 < received.length := List.length_pos_iff.mpr hreceived
  have hframe : packetFormat.nextFrame (pendingOf (p.contents ++ received) p.bufferStartPosition) ≠
      none := by
    obtain ⟨frame, hframe, _⟩ := hcall.of_true
    rw [← pendingAfterReceive_eq_pendingOf hwf hne, hframe]
    exact Option.some_ne_none _
  -- what is missing to a full buffer is padded with zeros
  let padding : Bytes :=
    List.replicate (RxBufferSize - (p.bufferLastPosition + received.length)) 0
  have hpadding : padding.length = RxBufferSize - (p.bufferLastPosition + received.length) :=
    List.length_replicate
  refine Or.inr ⟨by omega, [], received ++ padding, by simp [hreceived], ?_, ?_⟩
  · rw [List.length_nil, List.length_append, hpadding]
    omega
  · rw [startAfter, if_pos rfl, List.append_nil, ← List.append_assoc]
    by_cases hfull : p.bufferLastPosition + received.length < RxBufferSize
    · refine nextFrame_ne_none_of_prefix (pendingOf_prefix_append ?_ padding _) hframe
      rwa [List.length_append, hwf.length_contents]
    · rw [List.eq_nil_of_length_eq_zero (l := padding) (by omega), List.append_nil]
      exact hframe

/-- If recovery is possible after a call that returned false, it was possible before. -/
theorem canComplete_of_false {p p' : PacketProcessor} {received : Bytes} (hwf : p.WellFormed)
    (hfits : received.length ≤ p.requestedCapacity) (hreceived : received ≠ [])
    (hcall : Extracted p received false p') (hafter : CanComplete p') : CanComplete p := by
  by_cases hne : p.bufferStartPosition = p.bufferLastPosition
  · exact Or.inl hne
  have hpos : 0 < received.length := List.length_pos_iff.mpr hreceived
  have hlast' := hcall.last_eq
  rw [(beginExtract_positions hne).2] at hlast'
  have hroom := hwf.stored_le_size hfits
  rw [(beginExtract_positions hne).2] at hroom
  by_cases hfull : p.bufferLastPosition + received.length < RxBufferSize
  · obtain ⟨hcontents, _, hwindow, hstart, hne'⟩ := extracted_of_false hwf hne hreceived hfull hcall
    rcases hafter with heq | ⟨_, first, second, hsecond, hfill, hframe⟩
    · exact absurd heq hne'
    refine Or.inr ⟨by omega, received ++ first, second, hsecond, ?_, ?_⟩
    · rw [List.length_append]
      omega
    · have hstart' : startAfter p (received ++ first) = startAfter p' first := by
        by_cases hfirst : first = []
        · rw [hfirst, List.append_nil, startAfter, if_neg hreceived, startAfter, if_pos rfl, hstart,
            startAfter, if_neg hreceived]
        · rw [startAfter, if_neg (by simp [hreceived]), startAfter, if_neg hfirst, hwindow,
            resync_resync_append, List.append_assoc, hlast', List.length_append]
          congr 1
          omega
      rw [hstart', ← List.append_assoc, ← hcontents]
      exact hframe
  · -- a buffer that is full after a call that returned false stays full
    have hempty : p'.bufferStartPosition = p'.bufferLastPosition := by
      rcases hafter with heq | ⟨hlt, _⟩
      · exact heq
      · omega
    have hwindow := hcall.of_false.2.1
    have hlength := hcall.wellFormed.length_window
    have hnil : p'.window = [] := List.eq_nil_of_length_eq_zero (by omega)
    refine absurd (hwindow.symm.trans hnil) (resync_ne_nil fun h => ?_)
    have hbegins := hwf.pendingAfterReceive_prefix received
    rw [h, List.prefix_nil] at hbegins
    exact hreceived (List.append_eq_nil_iff.mp hbegins).2

/-- Using an empty buffer from its beginning again does not make recovery possible where it was not.
-/
theorem canComplete_of_beginExtract {p : PacketProcessor} (h : CanComplete p.beginExtract) :
    CanComplete p := by
  by_cases hne : p.bufferStartPosition = p.bufferLastPosition
  · exact Or.inl hne
  obtain ⟨hstart, hlast⟩ := beginExtract_positions hne
  rcases h with heq | ⟨hroom, first, second, hsecond, hfill, hframe⟩
  · rw [hstart, hlast] at heq
    exact absurd heq hne
  · have hafter : startAfter p.beginExtract first = startAfter p first := by
      rw [startAfter, startAfter, hstart, hlast, window_beginExtract]
    rw [hlast] at hroom hfill
    rw [contents_beginExtract hne, hafter] at hframe
    exact Or.inr ⟨hroom, first, second, hsecond, hfill, hframe⟩

/-- **Recovery needs a state in which it is possible**: if the last call of a run returns true, a
frame could be completed before the run. -/
theorem canComplete_of_run {r r' : Receiver} {chunks : List Bytes} {frame : Exposed}
    (hwf : r.processor.WellFormed) (hne : chunks ≠ []) (hrun : run Receiver.step r chunks = some r')
    (hlast : r'.results.getLast? = some (some frame)) : CanComplete r.processor := by
  induction chunks generalizing r with
  | nil => exact absurd rfl hne
  | cons chunk chunks ih =>
    obtain ⟨r₁, hstep, hrest⟩ := run_cons_eq_some.mp hrun
    have hwf₁ := Receiver.step_wellFormed hwf hstep
    have hopen : r₁.results = r.results ++ [none] → chunks ≠ [] := by
      rintro hresults rfl
      obtain rfl : r₁ = r' := by simpa using hrest
      simp [hresults] at hlast
    obtain ⟨hfits, _, ⟨_, hp, hresults⟩ | ⟨hreceived, returned, hcall, hresults⟩⟩ :=
      Receiver.step_cases hwf hstep
    · exact canComplete_of_beginExtract (hp ▸ ih hwf₁ (hopen hresults) hrest)
    · cases returned with
      | true => exact canComplete_of_true hwf hfits hreceived hcall
      | false =>
        exact canComplete_of_false hwf hfits hreceived hcall (ih hwf₁ (hopen hresults) hrest)

/-- One call that finds a complete frame in the pending bytes. -/
theorem recovers_of_call {r : Receiver} {chunk : Bytes} (hwf : r.processor.WellFormed)
    (hfits : chunk.length ≤ r.processor.requestedCapacity) (hne : chunk ≠ [])
    (hframe : packetFormat.nextFrame (r.processor.pendingAfterReceive chunk) ≠ none) :
    ∃ r' frame, r.step chunk = some r' ∧ r'.results.getLast? = some (some frame) := by
  obtain ⟨r', hstep⟩ := Receiver.step_enabled hwf hfits
  obtain ⟨_, returned, hcall, hresults⟩ := Receiver.step_of_ne hwf hne hstep
  cases returned with
  | true => exact ⟨r', r'.processor.exposed, hstep, by simp [hresults]⟩
  | false => exact absurd hcall.of_false.1 hframe

/-- **Recovery is possible where it seems to be**: receives that fill the buffer so lead to a call
that returns true. -/
theorem recovers_of_canComplete {r : Receiver} (hwf : r.processor.WellFormed)
    (h : CanComplete r.processor) : Recovers r := by
  have hsingle : ∀ chunk : Bytes, chunk.length ≤ r.processor.requestedCapacity → chunk ≠ [] →
      packetFormat.nextFrame (r.processor.pendingAfterReceive chunk) ≠ none → Recovers r := by
    intro chunk hfits hne hframe
    obtain ⟨r', frame, hstep, hlast⟩ := recovers_of_call hwf hfits hne hframe
    exact ⟨[], chunk, r', frame, run_cons_eq_some.mpr ⟨r', hstep, rfl⟩,
      ⟨fun _ => hne, fun _ _ => trivial⟩, hlast⟩
  by_cases hne : r.processor.bufferStartPosition = r.processor.bufferLastPosition
  · -- an empty buffer takes the shortest frame in one chunk
    have hwindow : r.processor.window = [] := by
      apply List.eq_nil_of_length_eq_zero
      rw [hwf.length_window]
      omega
    have hcapacity : r.processor.requestedCapacity = RxBufferSize := by
      rcases r.processor.beginExtract_cases with ⟨_, _, hl⟩ | ⟨hne', _⟩
      · rw [hwf.requestedCapacity_eq, hl]
        rfl
      · exact absurd hne hne'
    refine hsingle shortestFrame (by rw [hcapacity]; decide) (by decide) ?_
    refine nextFrame_ne_none_of_prefix (hwf.pendingAfterReceive_prefix shortestFrame) ?_
    rw [hwindow]
    decide
  rcases h with heq | ⟨_, first, second, hsecond, hfill, hframe⟩
  · exact absurd heq hne
  have hsecondPos : 0 < second.length := List.length_pos_iff.mpr hsecond
  have hcapacity := hwf.requestedCapacity_eq
  rw [(beginExtract_positions hne).2] at hcapacity
  by_cases hfirst : first = []
  · subst hfirst
    rw [List.append_nil, startAfter, if_pos rfl] at hframe
    rw [List.length_nil] at hfill
    exact hsingle second (by omega) hsecond
      (by rwa [pendingAfterReceive_eq_pendingOf hwf hne])
  · have hfits : first.length ≤ r.processor.requestedCapacity := by omega
    obtain ⟨r₁, hstep⟩ := Receiver.step_enabled hwf hfits
    have hwf₁ := Receiver.step_wellFormed hwf hstep
    obtain ⟨_, returned, hcall, hresults⟩ := Receiver.step_of_ne hwf hfirst hstep
    cases returned with
    | true =>
      exact ⟨[], first, r₁, r₁.processor.exposed, run_cons_eq_some.mpr ⟨r₁, hstep, rfl⟩,
        ⟨fun _ => hfirst, fun _ _ => trivial⟩, by simp [hresults]⟩
    | false =>
      obtain ⟨hcontents, hlast, _, hstart, hne₁⟩ :=
        extracted_of_false hwf hne hfirst (by omega) hcall
      have hcapacity₁ := hwf₁.requestedCapacity_eq
      rw [(beginExtract_positions hne₁).2, hlast] at hcapacity₁
      have hfits₁ : second.length ≤ r₁.processor.requestedCapacity := by omega
      obtain ⟨r', frame, hstep', hlast'⟩ := recovers_of_call hwf₁ hfits₁ hsecond
        (by rwa [pendingAfterReceive_eq_pendingOf hwf₁ hne₁, hcontents, hstart])
      refine ⟨[first], second, r', frame, ?_, ?_, hlast'⟩
      · exact run_cons_eq_some.mpr ⟨r₁, hstep, run_cons_eq_some.mpr ⟨r', hstep', rfl⟩⟩
      · exact ⟨fun _ => hfirst, fun _ _ => ⟨fun _ => hsecond, fun _ _ => trivial⟩⟩

section FreeHeader

variable {p : PacketProcessor}

/-- What a first call that returned false keeps of the received bytes. -/
theorem drop_startAfter (hwf : p.WellFormed) (first : Bytes) :
    startAfter p first ≤ (p.contents ++ first).length ∧
      (p.contents ++ first).drop (startAfter p first) =
        if first = [] then p.window else packetFormat.resync (p.window ++ first) := by
  have hlength : (p.contents ++ first).length = p.bufferLastPosition + first.length := by
    rw [List.length_append, hwf.length_contents]
  by_cases hfirst : first = []
  · subst hfirst
    rw [startAfter, if_pos rfl, if_pos rfl, List.append_nil, ← window_eq_drop_contents,
      hwf.length_contents]
    exact ⟨hwf.start_le_last, rfl⟩
  · rw [startAfter, if_neg hfirst, if_neg hfirst, hlength]
    refine ⟨Nat.sub_le _ _, ?_⟩
    have hsuffix : packetFormat.resync (p.window ++ first) <:+ p.contents ++ first := by
      refine (resync_suffix _).trans ?_
      rw [window_eq_drop_contents]
      exact ⟨p.contents.take p.bufferStartPosition,
        by rw [← List.append_assoc, List.take_append_drop]⟩
    rw [← hlength]
    exact (List.suffix_iff_eq_drop.mp hsuffix).symm

/-- A full buffer shows 256 pending bytes after a shift, and without one if nothing of it
is consumed. -/
theorem length_pendingOf {all : Bytes} {start : ℕ} (hall : all.length = RxBufferSize)
    (hstart : start ≤ RxBufferSize) : (pendingOf all start).length = RxBufferSize := by
  unfold pendingOf
  split_ifs with h
  · simp only [List.length_append, List.length_drop]
    omega
  · rw [List.length_drop]
    omega

/-- The bytes pending in the filled buffer: what was kept, and the second part. -/
theorem prefix_pendingOf_fill (hwf : p.WellFormed) (first second : Bytes) :
    (if first = [] then p.window else packetFormat.resync (p.window ++ first)) ++ second <+:
      pendingOf (p.contents ++ first ++ second) (startAfter p first) := by
  obtain ⟨hle, hdrop⟩ := drop_startAfter hwf first
  rw [← hdrop, ← List.drop_append_of_le_length hle]
  exact drop_prefix_pendingOf _ _

/-- Once too much is announced, filling the buffer completes nothing. -/
theorem AnnouncesTooMuch.not_fillCompletes (hwf : p.WellFormed) (h : AnnouncesTooMuch p.window) :
    ¬FillCompletes p := by
  rintro ⟨first, second, _, hfill, hframe⟩
  apply hframe
  have hall : (p.contents ++ first ++ second).length = RxBufferSize := by
    rw [List.length_append, List.length_append, hwf.length_contents]
    exact hfill
  have hstart : startAfter p first ≤ RxBufferSize := by
    have := (drop_startAfter hwf first).1
    rw [List.length_append] at hall
    omega
  have hkept : AnnouncesTooMuch
      (if first = [] then p.window else packetFormat.resync (p.window ++ first)) := by
    split_ifs
    · exact h
    · exact (h.append first).1
  obtain ⟨z, hz⟩ := prefix_pendingOf_fill hwf first second
  rw [List.append_assoc] at hz
  rw [← hz]
  refine (hkept.append (second ++ z)).2 (Nat.le_of_eq ?_)
  rw [hz, length_pendingOf hall hstart]

/-- With room for a header, filling the buffer completes a frame unless too much is
announced already. -/
theorem fillCompletes_of_room (hwf : p.WellFormed)
    (hroom : p.bufferLastPosition + sizeofPacketHeader ≤ RxBufferSize)
    (h : ¬AnnouncesTooMuch p.window) : FillCompletes p := by
  have hseven : sizeofPacketHeader = 7 := rfl
  by_cases hheader : packetFormat.StartsHeader (packetFormat.resync (p.window ++ [0, 0]))
  · -- the announced frame is completed with zeros, its header first
    have hfits :
        packetFormat.frameLength (packetFormat.resync (p.window ++ [0, 0])) ≤ RxBufferSize :=
      Nat.le_of_not_lt fun hlong => h ⟨hheader, hlong⟩
    let rest : Bytes := List.replicate (RxBufferSize - (p.bufferLastPosition + 2)) 0
    have hrest : rest.length = RxBufferSize - (p.bufferLastPosition + 2) := List.length_replicate
    have hall : (p.contents ++ [0, 0] ++ rest).length = RxBufferSize := by
      rw [List.length_append, List.length_append, hwf.length_contents, hrest]
      change p.bufferLastPosition + 2 + _ = _
      omega
    have hstart : startAfter p [0, 0] ≤ RxBufferSize := by
      have := (drop_startAfter hwf [0, 0]).1
      rw [List.length_append] at hall
      omega
    refine ⟨[0, 0], rest, ?_, ?_, ?_⟩
    · exact List.ne_nil_of_length_pos (by omega)
    · rw [hrest]
      change p.bufferLastPosition + 2 + _ = _
      omega
    · obtain ⟨z, hz⟩ := prefix_pendingOf_fill hwf [0, 0] rest
      rw [if_neg (List.cons_ne_nil _ _), List.append_assoc] at hz
      rw [← hz, Ne, nextFrame_eq_none_iff, resync_of_startsHeader (hheader.append _),
        frameLength_append hheader.1, hz, length_pendingOf hall hstart]
      exact not_or.mpr ⟨not_not.mpr (hz ▸ hheader.append _), Nat.not_lt.mpr hfits⟩
  · -- no magic number is in place: the shortest frame follows the noise
    let rest : Bytes :=
      List.replicate (RxBufferSize - (p.bufferLastPosition + sizeofPacketHeader)) 0
    have hrest : rest.length = RxBufferSize - (p.bufferLastPosition + sizeofPacketHeader) :=
      List.length_replicate
    refine ⟨[], shortestFrame ++ rest, by simp [shortestFrame], ?_, ?_⟩
    · rw [List.length_append, hrest]
      change p.bufferLastPosition + 0 + (7 + _) = _
      omega
    · refine nextFrame_ne_none_of_prefix (prefix_pendingOf_fill hwf [] (shortestFrame ++ rest)) ?_
      rw [if_pos rfl, nextFrame_noise_append hheader]
      exact Option.some_ne_none _

end FreeHeader

/-- A state recovers exactly when its buffer is used up or can be filled to complete a frame. -/
theorem recovers_iff_canComplete {r : Receiver} (hwf : r.processor.WellFormed) :
    Recovers r ↔ CanComplete r.processor := by
  refine ⟨?_, recovers_of_canComplete hwf⟩
  rintro ⟨chunks, chunk, r', frame, hrun, _, hlast⟩
  exact canComplete_of_run hwf (by simp) hrun hlast

end NixieVfdCentral
