import NixieVfdCentral.Uart.Completion

/-!
# Recovery from garbage

A header that announces more than the buffer holds silences the packet processor for
good, and so can pending bytes too close to the end of the buffer. Where fewer bytes are
free than a header has, they can only put a magic number in place among bytes that are in
the buffer already: those received last, and those that the shift of the full buffer
leaves behind them. The condition below says by position when that is possible. It is
decidable, and it determines exactly the states from which the packet processor recovers.
-/

namespace NixieVfdCentral

open Runs Framing PacketProcessor

/-- Where in a full buffer the byte stands that is at `t` once the bytes from `start` on
are moved to the beginning: behind the moved bytes, the buffer keeps what it had there. -/
def origin (start t : ℕ) : ℕ := if start + t < RxBufferSize then start + t else t

/-- The magic number of a header at `k` is in place. -/
def MagicAt (bytes : ℕ → UInt8) (k : ℕ) : Prop := bytes (k + 3) = 0xEF ∧ bytes (k + 4) = 0xBE

/-- Where the frame of a header at `k` ends, by its two length fields. -/
def frameEnd (bytes : ℕ → UInt8) (k : ℕ) : ℕ :=
  k + sizeofPacketHeader + ((ofLittleEndian (bytes k) (bytes (k + 1))).toNat +
    (ofLittleEndian (bytes (k + 5)) (bytes (k + 6))).toNat)

/-- The buffer with its free bytes set: to the magic number where a header at `place`
needs it once the bytes from `start` on are moved to the beginning, else to zero. -/
def filledByte (p : PacketProcessor) (start place a : ℕ) : UInt8 :=
  if a < p.bufferLastPosition then p.contents.getD a 0
  else if a = origin start (place + 3) then 0xEF
  else if a = origin start (place + 4) then 0xBE
  else 0

/-- The header search can have stopped at `start` before the buffer is full. With two bytes
free it can have moved on, over positions without a magic number, to a magic number that
is already received or to any place with fewer than a header's bytes behind it. -/
def CanStopAt (p : PacketProcessor) (bytes : ℕ → UInt8) (start : ℕ) : Prop :=
  start = p.bufferStartPosition ∨
    (p.bufferStartPosition < start ∧ p.bufferLastPosition + 2 ≤ RxBufferSize ∧
      (∀ k < start, p.bufferStartPosition ≤ k → ¬MagicAt bytes k) ∧
      (start + 4 < p.bufferLastPosition ∧ MagicAt bytes start ∨
        p.bufferLastPosition ≤ start + 5 ∧ start + sizeofPacketHeader ≤ RxBufferSize))

/-- The first magic number in place is the one of a header at `place`, and its frame ends
within the buffer. -/
def FitsAt (bytes : ℕ → UInt8) (place : ℕ) : Prop :=
  (∀ k < place, ¬MagicAt bytes k) ∧ MagicAt bytes place ∧ frameEnd bytes place ≤ RxBufferSize

/-- The free bytes suffice: for some start position and some place, setting them for this
place makes the moved bytes show a frame that fits there. -/
def FreeBytesSuffice (p : PacketProcessor) : Prop :=
  ∃ start < RxBufferSize, ∃ place < RxBufferSize,
    CanStopAt p (filledByte p start place) start ∧
      FitsAt (fun t => filledByte p start place (origin start t)) place

/-- The condition for recovery. The buffer is used up; or there is room for a header
and no pending header announces more than the buffer holds; or, with one to six bytes
free, these suffice. -/
def RecoveryPossible (p : PacketProcessor) : Prop :=
  p.bufferStartPosition = p.bufferLastPosition ∨
    (p.bufferLastPosition + sizeofPacketHeader ≤ RxBufferSize ∧ ¬AnnouncesTooMuch p.window) ∨
    (RxBufferSize < p.bufferLastPosition + sizeofPacketHeader ∧
      p.bufferLastPosition < RxBufferSize ∧ FreeBytesSuffice p)

instance (bytes : ℕ → UInt8) (k : ℕ) : Decidable (MagicAt bytes k) :=
  inferInstanceAs (Decidable (_ ∧ _))

instance (p : PacketProcessor) (bytes : ℕ → UInt8) (start : ℕ) :
    Decidable (CanStopAt p bytes start) :=
  inferInstanceAs (Decidable (_ ∨ (_ ∧ _ ∧ (∀ k < start, _ ≤ k → ¬MagicAt bytes k) ∧ _)))

instance (bytes : ℕ → UInt8) (place : ℕ) : Decidable (FitsAt bytes place) :=
  inferInstanceAs (Decidable ((∀ k < place, _) ∧ _ ∧ _))

instance (p : PacketProcessor) : Decidable (RecoveryPossible p) :=
  inferInstanceAs (Decidable (_ ∨ (_ ∧ _) ∨ (_ ∧ _ ∧
    ∃ start < RxBufferSize, ∃ place < RxBufferSize,
      CanStopAt p (filledByte p start place) start ∧
        FitsAt (fun t => filledByte p start place (origin start t)) place)))

/-! ### Headers by position -/

/-- The byte at a position of a sequence, zero behind its end. -/
def byteAt (w : Bytes) (a : ℕ) : UInt8 := w.getD a 0

/-- Dropping bytes at the front shifts the positions of the others. -/
theorem byteAt_drop (w : Bytes) (k a : ℕ) : byteAt (w.drop k) a = byteAt w (k + a) :=
  getD_drop w k a

/-- What is appended leaves the bytes before it as they are. -/
theorem byteAt_append {w : Bytes} (z : Bytes) {a : ℕ} (ha : a < w.length) :
    byteAt (w ++ z) a = byteAt w a :=
  List.getD_append _ _ _ _ ha

/-- Behind a sequence, the bytes are those of what is appended. -/
theorem byteAt_append_right {w : Bytes} (z : Bytes) {a : ℕ} (ha : w.length ≤ a) :
    byteAt (w ++ z) a = byteAt z (a - w.length) :=
  List.getD_append_right _ _ _ _ ha

/-- A magic number in place depends on its two bytes only. -/
theorem MagicAt.congr {bytes bytes' : ℕ → UInt8} {k : ℕ} (h : MagicAt bytes k)
    (hlow : bytes (k + 3) = bytes' (k + 3)) (hhigh : bytes (k + 4) = bytes' (k + 4)) :
    MagicAt bytes' k :=
  ⟨hlow ▸ h.1, hhigh ▸ h.2⟩

/-- A header stands at a position when seven bytes are there and the magic number is in place. -/
theorem startsHeader_drop_iff_magicAt {w : Bytes} {k : ℕ} :
    packetFormat.StartsHeader (w.drop k) ↔
      k + sizeofPacketHeader ≤ w.length ∧ MagicAt (byteAt w) k := by
  have hseven : sizeofPacketHeader = 7 := rfl
  rw [startsHeader_iff, magic_eq_iff, List.length_drop]
  change _ ∧ byteAt (w.drop k) 3 = _ ∧ byteAt (w.drop k) 4 = _ ↔ _
  rw [byteAt_drop, byteAt_drop]
  exact and_congr_left' (by omega)

/-- The frame announced at a position ends where its two lengths say. -/
theorem frameLength_drop (w : Bytes) (k : ℕ) :
    k + packetFormat.frameLength (w.drop k) = frameEnd (byteAt w) k := by
  rw [frameLength_eq]
  change k + (sizeofPacketHeader +
    ((ofLittleEndian (byteAt (w.drop k) 0) (byteAt (w.drop k) 1)).toNat +
      (ofLittleEndian (byteAt (w.drop k) 5) (byteAt (w.drop k) 6)).toNat)) = _
  rw [byteAt_drop, byteAt_drop, byteAt_drop, byteAt_drop, ← Nat.add_assoc]
  rfl

/-- A complete frame is pending in a full buffer exactly when one is found by position. -/
theorem nextFrame_ne_none_iff_fitsAt {w : Bytes} (hw : w.length = RxBufferSize) :
    packetFormat.nextFrame w ≠ none ↔ ∃ place, FitsAt (byteAt w) place := by
  rw [nextFrame_ne_none_iff]
  refine exists_congr fun place => ?_
  rw [frameLength_drop, startsHeader_drop_iff_magicAt, hw]
  have hend : place + sizeofPacketHeader ≤ frameEnd (byteAt w) place := Nat.le_add_right _ _
  constructor
  · rintro ⟨hnoise, ⟨hseven, hmagic⟩, hfits⟩
    exact ⟨fun k hk h => hnoise k hk (startsHeader_drop_iff_magicAt.mpr ⟨by omega, h⟩),
      hmagic, hfits⟩
  · rintro ⟨hnoise, hmagic, hfits⟩
    exact ⟨fun k hk h => hnoise k hk (startsHeader_drop_iff_magicAt.mp h).2,
      ⟨by omega, hmagic⟩, hfits⟩

/-- The pending bytes of a full buffer, byte by byte. -/
theorem byteAt_pendingOf {all : Bytes} (hall : all.length = RxBufferSize) {start : ℕ}
    (hstart : start < RxBufferSize) (t : ℕ) :
    byteAt (pendingOf all start) t = byteAt all (origin start t) := by
  unfold pendingOf origin
  by_cases hzero : 0 < start
  · rw [if_pos ⟨Nat.le_of_eq hall.symm, hzero⟩]
    have hlength : (all.drop start).length = RxBufferSize - start := by
      rw [List.length_drop, hall]
    split_ifs with ht
    · rw [byteAt_append _ (by omega), byteAt_drop]
    · rw [byteAt_append_right _ (by omega), byteAt_drop, hlength]
      congr 1
      omega
  · rw [if_neg fun h => hzero h.2, byteAt_drop]
    congr 1
    split_ifs <;> omega

section NearlyFull

variable {p : PacketProcessor}

/-! ### Where the search stops before the buffer is full -/

/-- The pending bytes with received ones are the end of the buffer with them. -/
theorem window_append_eq (hwf : p.WellFormed) (first : Bytes) :
    p.window ++ first = (p.contents ++ first).drop p.bufferStartPosition := by
  rw [List.drop_append_of_le_length (hwf.length_contents ▸ hwf.start_le_last),
    window_eq_drop_contents]

/-- With received bytes, the contents of the buffer are longer by their number. -/
theorem length_contents_append (hwf : p.WellFormed) (first : Bytes) :
    (p.contents ++ first).length = p.bufferLastPosition + first.length := by
  rw [List.length_append, hwf.length_contents]

/-- The start position moves over positions without a magic number, to one with a magic
number or to where fewer than a header's bytes follow. -/
theorem startAfter_spec (hwf : p.WellFormed) {first : Bytes} (hfirst : first ≠ []) :
    p.bufferStartPosition ≤ startAfter p first ∧
      (∀ k < startAfter p first, p.bufferStartPosition ≤ k →
        k + sizeofPacketHeader ≤ p.bufferLastPosition + first.length ∧
          ¬MagicAt (byteAt (p.contents ++ first)) k) ∧
      (startAfter p first + sizeofPacketHeader ≤ p.bufferLastPosition + first.length ∧
          MagicAt (byteAt (p.contents ++ first)) (startAfter p first) ∨
        p.bufferLastPosition + first.length < startAfter p first + sizeofPacketHeader) := by
  have hlength := length_contents_append hwf first
  have hle := hwf.start_le_last
  obtain ⟨dropped, hdropped, hdrop, hnoise⟩ :=
    exists_resync_eq_drop (F := packetFormat) (p.window ++ first)
  have hstops := resync_stops (F := packetFormat) (p.window ++ first)
  have hstart : startAfter p first = p.bufferStartPosition + dropped := by
    rw [window_append_eq hwf, List.length_drop, hlength] at hdropped
    rw [startAfter, if_neg hfirst, hdrop, window_append_eq hwf, List.length_drop, List.length_drop,
      hlength]
    omega
  rw [hdrop] at hstops
  simp only [window_append_eq hwf, List.drop_drop, startsHeader_drop_iff_magicAt, List.length_drop,
    hlength] at hnoise hstops
  rw [hstart]
  refine ⟨Nat.le_add_right _ _, fun k hk hstartk => ?_, ?_⟩
  · obtain ⟨hlong, hheader⟩ := hnoise (k - p.bufferStartPosition) (by omega)
    rw [Nat.add_sub_cancel' hstartk] at hlong hheader
    have hseven : k + sizeofPacketHeader ≤ p.bufferLastPosition + first.length := by
      change 7 ≤ _ at hlong
      change k + 7 ≤ _
      omega
    exact ⟨hseven, fun hmagic => hheader ⟨hseven, hmagic⟩⟩
  · refine hstops.imp id fun hshort => ?_
    change _ < 7 at hshort
    change _ < _ + 7
    omega

/-- The three properties of the start position determine it: there is only one position with them.
-/
theorem startAfter_eq (hwf : p.WellFormed) {first : Bytes} (hfirst : first ≠ []) {start : ℕ}
    (hle : p.bufferStartPosition ≤ start) (hlast : start ≤ p.bufferLastPosition + first.length)
    (hnoise : ∀ k < start, p.bufferStartPosition ≤ k →
        k + sizeofPacketHeader ≤ p.bufferLastPosition + first.length ∧
          ¬MagicAt (byteAt (p.contents ++ first)) k)
    (hstop : MagicAt (byteAt (p.contents ++ first)) start ∨
        p.bufferLastPosition + first.length < start + sizeofPacketHeader) :
    startAfter p first = start := by
  have hlength := length_contents_append hwf first
  have hdrop : packetFormat.resync (p.window ++ first) = (p.contents ++ first).drop start := by
    have hback : p.bufferStartPosition + (start - p.bufferStartPosition) = start := by omega
    rw [window_append_eq hwf, ← hback, ← List.drop_drop]
    apply resync_eq_drop
    · intro u hu
      obtain ⟨hlong, hmagic⟩ := hnoise (p.bufferStartPosition + u) (by omega) (by omega)
      rw [List.drop_drop, startsHeader_drop_iff_magicAt, List.length_drop, hlength]
      refine ⟨?_, fun h => hmagic h.2⟩
      change _ + 7 ≤ _ at hlong
      change 7 ≤ _
      omega
    · rw [List.drop_drop, hback, startsHeader_drop_iff_magicAt, List.length_drop, hlength]
      change (_ + 7 ≤ _ ∧ _) ∨ _ < 7
      change _ ∨ _ < _ + 7 at hstop
      by_cases hshort : p.bufferLastPosition + first.length < start + 7
      · exact Or.inr (by omega)
      · exact Or.inl ⟨by omega, hstop.resolve_right hshort⟩
  rw [startAfter, if_neg hfirst, hdrop, List.length_drop, hlength]
  omega

/-! ### Setting the free bytes -/

/-- Whatever fills the buffer such that a header stands at `place`, the byte set there is the
same or zero. -/
theorem filledByte_eq_or {x : ℕ → UInt8} {start place : ℕ}
    (hx : ∀ a < p.bufferLastPosition, x a = p.contents.getD a 0)
    (hmagic : MagicAt (fun t => x (origin start t)) place) (a : ℕ) :
    filledByte p start place a = x a ∨ filledByte p start place a = 0 := by
  unfold filledByte
  split_ifs with hreceived hlow hhigh
  · exact Or.inl (hx a hreceived).symm
  · exact Or.inl (hlow ▸ hmagic.1.symm)
  · exact Or.inl (hhigh ▸ hmagic.2.symm)
  · exact Or.inr rfl

/-- The magic number is in place where the free bytes are set for it. -/
theorem magicAt_filledByte {x : ℕ → UInt8} {start place : ℕ}
    (hx : ∀ a < p.bufferLastPosition, x a = p.contents.getD a 0)
    (hmagic : MagicAt (fun t => x (origin start t)) place) :
    MagicAt (fun t => filledByte p start place (origin start t)) place := by
  obtain ⟨hlow, hhigh⟩ := hmagic
  have hdiffer : origin start (place + 4) ≠ origin start (place + 3) := fun h => by
    simp only [h, hlow] at hhigh
    exact absurd hhigh (by decide)
  constructor
  · change filledByte p start place (origin start (place + 3)) = 0xEF
    unfold filledByte
    by_cases hreceived : origin start (place + 3) < p.bufferLastPosition
    · rw [if_pos hreceived, ← hx _ hreceived]
      exact hlow
    · rw [if_neg hreceived, if_pos rfl]
  · change filledByte p start place (origin start (place + 4)) = 0xBE
    unfold filledByte
    by_cases hreceived : origin start (place + 4) < p.bufferLastPosition
    · rw [if_pos hreceived, ← hx _ hreceived]
      exact hhigh
    · rw [if_neg hreceived, if_neg hdiffer, if_pos rfl]

/-- A magic number that the set bytes show is there in any such filling. -/
theorem MagicAt.of_eq_or {bytes x : ℕ → UInt8} (hor : ∀ a, bytes a = x a ∨ bytes a = 0) {k : ℕ}
    (h : MagicAt bytes k) : MagicAt x k := by
  refine ⟨?_, ?_⟩
  · rcases hor (k + 3) with heq | hzero
    · exact heq ▸ h.1
    · exact absurd (hzero.symm.trans h.1) (by decide)
  · rcases hor (k + 4) with heq | hzero
    · exact heq ▸ h.2
    · exact absurd (hzero.symm.trans h.2) (by decide)

/-- Zeros in the place of length bytes announce no longer a frame. -/
theorem frameEnd_le {bytes x : ℕ → UInt8} (hor : ∀ a, bytes a = x a ∨ bytes a = 0) (k : ℕ) :
    frameEnd bytes k ≤ frameEnd x k := by
  have hle : ∀ a, (bytes a).toNat ≤ (x a).toNat := fun a => by
    rcases hor a with heq | hzero
    · exact Nat.le_of_eq (congrArg UInt8.toNat heq)
    · rw [hzero]
      exact Nat.zero_le _
  have h0 := hle k
  have h1 := hle (k + 1)
  have h5 := hle (k + 5)
  have h6 := hle (k + 6)
  simp only [frameEnd, toNat_ofLittleEndian]
  omega

/-- A frame that some filling of the free bytes completes is completed by setting them to
zero around its magic number. -/
theorem FitsAt.setBytes {x : ℕ → UInt8} {start place : ℕ}
    (hx : ∀ a < p.bufferLastPosition, x a = p.contents.getD a 0)
    (h : FitsAt (fun t => x (origin start t)) place) :
    FitsAt (fun t => filledByte p start place (origin start t)) place := by
  obtain ⟨hnoise, hmagic, hfits⟩ := h
  have hor : ∀ t, filledByte p start place (origin start t) = x (origin start t) ∨
      filledByte p start place (origin start t) = 0 :=
    fun t => filledByte_eq_or hx hmagic _
  refine ⟨fun k hk hfound => hnoise k hk (hfound.of_eq_or hor), magicAt_filledByte hx hmagic, ?_⟩
  exact Nat.le_trans (frameEnd_le hor place) hfits

/-- A byte below the last position is received and stays as it is. -/
theorem filledByte_of_lt {start place a : ℕ} (ha : a < p.bufferLastPosition) :
    filledByte p start place a = p.contents.getD a 0 :=
  if_pos ha

/-- The start position after the first part of a filling is one the search can stop at with
the free bytes set. -/
theorem canStopAt_startAfter (hwf : p.WellFormed) {first second : Bytes} (hsecond : second ≠ [])
    (hfill : p.bufferLastPosition + first.length + second.length = RxBufferSize) {place : ℕ}
    (hx : ∀ a < p.bufferLastPosition,
      byteAt (p.contents ++ first ++ second) a = p.contents.getD a 0)
    (hmagic : MagicAt (fun t => byteAt (p.contents ++ first ++ second)
      (origin (startAfter p first) t)) place) :
    CanStopAt p (filledByte p (startAfter p first) place) (startAfter p first) := by
  by_cases hfirst : first = []
  · exact Or.inl (by rw [startAfter, if_pos hfirst])
  have hlength := length_contents_append hwf first
  have hfirstPos := List.length_pos_iff.mpr hfirst
  have hsecondPos := List.length_pos_iff.mpr hsecond
  have hseven : sizeofPacketHeader = 7 := rfl
  obtain ⟨hle, hnoise, hstop⟩ := startAfter_spec hwf hfirst
  rcases Nat.eq_or_lt_of_le hle with heq | hlt
  · exact Or.inl heq.symm
  refine Or.inr ⟨hlt, by omega, fun k hk hstart hfound => ?_, ?_⟩
  · -- the first part of the filling shows this magic number too
    obtain ⟨hlong, hnone⟩ := hnoise k hk hstart
    exact hnone ((hfound.of_eq_or (filledByte_eq_or hx hmagic)).congr
      (byteAt_append second (by omega)) (byteAt_append second (by omega)))
  · rcases hstop with ⟨hlong, hfound⟩ | hshort
    · by_cases hreceived : startAfter p first + 4 < p.bufferLastPosition
      · refine Or.inl ⟨hreceived, hfound.congr ?_ ?_⟩
        · rw [filledByte_of_lt (by omega), ← hx _ (by omega), byteAt_append second (by omega)]
        · rw [filledByte_of_lt (by omega), ← hx _ (by omega), byteAt_append second (by omega)]
      · exact Or.inr ⟨by omega, by omega⟩
    · -- the position before was passed, so exactly six bytes are left
      have hbefore := (hnoise (startAfter p first - 1) (by omega) (by omega)).1
      exact Or.inr ⟨by omega, by omega⟩

/-- The free bytes, set. -/
def freeFill (p : PacketProcessor) (start place : ℕ) : Bytes :=
  (List.range (RxBufferSize - p.bufferLastPosition)).map fun i =>
    filledByte p start place (p.bufferLastPosition + i)

/-- The bytes that are set are as many as are free. -/
@[simp] theorem length_freeFill (start place : ℕ) :
    (freeFill p start place).length = RxBufferSize - p.bufferLastPosition := by
  rw [freeFill, List.length_map, List.length_range]

/-- The received bytes and the first free ones, byte by byte. -/
theorem byteAt_append_take_freeFill (hwf : p.WellFormed) (start place : ℕ) {n a : ℕ}
    (hn : n ≤ RxBufferSize - p.bufferLastPosition) (ha : a < p.bufferLastPosition + n) :
    byteAt (p.contents ++ (freeFill p start place).take n) a = filledByte p start place a := by
  by_cases hreceived : a < p.bufferLastPosition
  · rw [byteAt_append _ (hwf.length_contents.symm ▸ hreceived), filledByte_of_lt hreceived]
    rfl
  · rw [byteAt_append_right _ (by rw [hwf.length_contents]; omega), hwf.length_contents, byteAt,
      List.getD_eq_getElem?_getD, List.getElem?_take_of_lt (by omega), freeFill, List.getElem?_map,
      List.getElem?_range (by omega), Option.map_some, Option.getD_some]
    congr 1
    omega

/-- The search stops wherever it can stop, once a first part of the free bytes is received. -/
theorem exists_startAfter_eq (hwf : p.WellFormed) (hroom : p.bufferLastPosition < RxBufferSize)
    {start place : ℕ} (hstop : CanStopAt p (filledByte p start place) start) :
    ∃ n < RxBufferSize - p.bufferLastPosition,
      startAfter p ((freeFill p start place).take n) = start := by
  have hseven : sizeofPacketHeader = 7 := rfl
  rcases hstop with heq | ⟨hlt, htwo, hnoise, hplace⟩
  · exact ⟨0, by omega, by rw [List.take_zero, startAfter, if_pos rfl, heq]⟩
  -- one byte is enough in front of a received magic number, else six bytes are to be left
  obtain ⟨n, hpos, hn, hlong, hfound⟩ : ∃ n, 0 < n ∧ n < RxBufferSize - p.bufferLastPosition ∧
      start + 6 ≤ p.bufferLastPosition + n ∧
      (start + 4 < p.bufferLastPosition + n ∧ MagicAt (filledByte p start place) start ∨
        p.bufferLastPosition + n < start + sizeofPacketHeader) := by
    rcases hplace with ⟨hreceived, hmagic⟩ | ⟨hlow, hhigh⟩
    · exact ⟨1, by omega, by omega, by omega, Or.inl ⟨by omega, hmagic⟩⟩
    · exact ⟨start + 6 - p.bufferLastPosition, by omega, by omega, by omega, Or.inr (by omega)⟩
  have hlength : ((freeFill p start place).take n).length = n := by
    rw [List.length_take, length_freeFill, Nat.min_eq_left (Nat.le_of_lt hn)]
  have hbytes : ∀ a < p.bufferLastPosition + n,
      byteAt (p.contents ++ (freeFill p start place).take n) a = filledByte p start place a :=
    fun a ha => byteAt_append_take_freeFill hwf start place (Nat.le_of_lt hn) ha
  refine ⟨n, hn, startAfter_eq hwf ?_ (Nat.le_of_lt hlt) ?_ ?_ ?_⟩
  · exact List.ne_nil_of_length_pos (by omega)
  · omega
  · intro k hk hstartk
    refine ⟨by omega, fun hmagic => hnoise k hk hstartk (hmagic.congr ?_ ?_)⟩
    · exact hbytes _ (by omega)
    · exact hbytes _ (by omega)
  · rcases hfound with ⟨hplaced, hmagic⟩ | hshort
    · refine Or.inl (hmagic.congr ?_ ?_)
      · exact (hbytes _ (by omega)).symm
      · exact (hbytes _ (by omega)).symm
    · exact Or.inr (by omega)

/-- Every position of the full buffer shows a byte from inside the buffer. -/
theorem origin_lt (start : ℕ) {t : ℕ} (ht : t < RxBufferSize) : origin start t < RxBufferSize := by
  unfold origin
  split_ifs with h
  · exact h
  · exact ht

/-- The full buffer with the free bytes set, byte by byte. -/
theorem byteAt_append_freeFill (hwf : p.WellFormed) {start place : ℕ}
    (hplace : place + 4 < RxBufferSize) (a : ℕ) :
    byteAt (p.contents ++ freeFill p start place) a = filledByte p start place a := by
  have hlast := hwf.last_le_size
  by_cases ha : a < RxBufferSize
  · have htake := byteAt_append_take_freeFill hwf start place (Nat.le_refl _)
      (show a < p.bufferLastPosition + (RxBufferSize - p.bufferLastPosition) by omega)
    rwa [List.take_of_length_le (Nat.le_of_eq (length_freeFill start place))] at htake
  · have hlow : origin start (place + 3) < RxBufferSize := origin_lt start (by omega)
    have hhigh := origin_lt start hplace
    rw [byteAt, List.getD_eq_default, filledByte, if_neg (by omega), if_neg (by omega),
      if_neg (by omega)]
    rw [List.length_append, hwf.length_contents, length_freeFill]
    omega

/-- **The free bytes suffice exactly when some filling completes a frame.** -/
theorem fillCompletes_iff_freeBytesSuffice (hwf : p.WellFormed)
    (hroom : p.bufferLastPosition < RxBufferSize) : FillCompletes p ↔ FreeBytesSuffice p := by
  constructor
  · rintro ⟨first, second, hsecond, hfill, hframe⟩
    have hall : (p.contents ++ first ++ second).length = RxBufferSize := by
      rw [List.length_append, length_contents_append hwf, hfill]
    have hsecondPos := List.length_pos_iff.mpr hsecond
    have hstart : startAfter p first < RxBufferSize := by
      have hle := (drop_startAfter hwf first).1
      rw [length_contents_append hwf] at hle
      omega
    obtain ⟨place, hfits⟩ :=
      (nextFrame_ne_none_iff_fitsAt (length_pendingOf hall (Nat.le_of_lt hstart))).mp hframe
    rw [funext (byteAt_pendingOf hall hstart)] at hfits
    have hx : ∀ a < p.bufferLastPosition,
        byteAt (p.contents ++ first ++ second) a = p.contents.getD a 0 := fun a ha => by
      rw [List.append_assoc]
      exact byteAt_append _ (hwf.length_contents.symm ▸ ha)
    have hplace : place < RxBufferSize := by
      have hend := hfits.2.2
      unfold frameEnd sizeofPacketHeader at hend
      omega
    exact ⟨startAfter p first, hstart, place, hplace,
      canStopAt_startAfter hwf hsecond hfill hx hfits.2.1, hfits.setBytes hx⟩
  · rintro ⟨start, hstart, place, _, hstop, hfits⟩
    have hplace : place + 4 < RxBufferSize := by
      have hend := hfits.2.2
      unfold frameEnd sizeofPacketHeader at hend
      omega
    obtain ⟨n, hn, hafter⟩ := exists_startAfter_eq hwf hroom hstop
    have hlast := hwf.last_le_size
    have hall : (p.contents ++ freeFill p start place).length = RxBufferSize := by
      rw [List.length_append, hwf.length_contents, length_freeFill]
      omega
    refine ⟨(freeFill p start place).take n, (freeFill p start place).drop n, ?_, ?_, ?_⟩
    · exact List.ne_nil_of_length_pos (by rw [List.length_drop, length_freeFill]; omega)
    · rw [List.length_take, List.length_drop, length_freeFill]
      omega
    · rw [hafter, List.append_assoc, List.take_append_drop]
      refine (nextFrame_ne_none_iff_fitsAt (length_pendingOf hall (Nat.le_of_lt hstart))).mpr
        ⟨place, ?_⟩
      rw [funext (byteAt_pendingOf hall hstart), funext (byteAt_append_freeFill hwf hplace)]
      exact hfits

end NearlyFull

section WholeHeader

variable {p : PacketProcessor}

/-- A header that stands whole at the start position is where it was once it is moved to the
beginning, whatever is set behind it. -/
theorem filledByte_origin_header
    (hwhole : p.bufferStartPosition + sizeofPacketHeader ≤ p.bufferLastPosition)
    (hroom : p.bufferLastPosition < RxBufferSize) (place : ℕ) {t : ℕ}
    (ht : t < sizeofPacketHeader) :
    filledByte p p.bufferStartPosition place (origin p.bufferStartPosition t) =
      byteAt p.contents (p.bufferStartPosition + t) := by
  rw [origin, if_pos (by omega), filledByte_of_lt (by omega)]
  rfl

/-- Behind a whole pending header the free bytes suffice exactly when its frame fits. -/
theorem freeBytesSuffice_iff_of_header
    (hwhole : p.bufferStartPosition + sizeofPacketHeader ≤ p.bufferLastPosition)
    (hroom : p.bufferLastPosition < RxBufferSize)
    (hmagic : MagicAt (byteAt p.contents) p.bufferStartPosition) :
    FreeBytesSuffice p ↔
      frameEnd (byteAt p.contents) p.bufferStartPosition ≤
        p.bufferStartPosition + RxBufferSize := by
  have hseven : sizeofPacketHeader = 7 := rfl
  let shown (place t : ℕ) : UInt8 :=
    filledByte p p.bufferStartPosition place (origin p.bufferStartPosition t)
  have hshown : ∀ place t, t < 7 →
      shown place t = byteAt p.contents (p.bufferStartPosition + t) :=
    fun place t ht => filledByte_origin_header hwhole hroom place ht
  have hfront : ∀ place, MagicAt (shown place) 0 := fun place =>
    ⟨(hshown place 3 (by omega)).trans hmagic.1, (hshown place 4 (by omega)).trans hmagic.2⟩
  have hend : ∀ place, p.bufferStartPosition + frameEnd (shown place) 0 =
      frameEnd (byteAt p.contents) p.bufferStartPosition := fun place => by
    simp only [frameEnd, Nat.zero_add, hshown place 0 (by omega), hshown place 1 (by omega),
      hshown place 5 (by omega), hshown place 6 (by omega), Nat.add_zero, Nat.add_assoc]
  constructor
  · rintro ⟨start, _, place, _, hstop, hnoise, _, hfits⟩
    -- the search cannot pass the magic number, so the header is the one that is found
    obtain rfl : start = p.bufferStartPosition := by
      rcases hstop with heq | ⟨hlt, _, hpassed, _⟩
      · exact heq
      · refine absurd (hmagic.congr ?_ ?_) (hpassed _ hlt (Nat.le_refl _))
        · exact (filledByte_of_lt (by omega)).symm
        · exact (filledByte_of_lt (by omega)).symm
    obtain rfl : place = 0 := by
      by_contra hplace
      exact hnoise 0 (Nat.pos_of_ne_zero hplace) (hfront place)
    rw [← hend 0]
    exact Nat.add_le_add_left hfits _
  · intro hfits
    refine ⟨p.bufferStartPosition, by omega, 0, by decide, Or.inl rfl, ?_, hfront 0, ?_⟩
    · exact fun k hk => absurd hk (Nat.not_lt_zero k)
    · have hzero := hend 0
      change frameEnd (shown 0) 0 ≤ _
      omega

/-- **Behind a whole pending header**, recovery is possible exactly when its two lengths
announce a frame of at most 256 bytes. -/
theorem recoveryPossible_iff_of_header (hwf : p.WellFormed)
    (hwhole : p.bufferStartPosition + sizeofPacketHeader ≤ p.bufferLastPosition)
    (hroom : p.bufferLastPosition < RxBufferSize)
    (hmagic : MagicAt (byteAt p.contents) p.bufferStartPosition) :
    RecoveryPossible p ↔
      frameEnd (byteAt p.contents) p.bufferStartPosition ≤
        p.bufferStartPosition + RxBufferSize := by
  have hseven : sizeofPacketHeader = 7 := rfl
  have hne : p.bufferStartPosition ≠ p.bufferLastPosition := by omega
  have hheader : packetFormat.StartsHeader p.window := by
    rw [window_eq_drop_contents, startsHeader_drop_iff_magicAt, hwf.length_contents]
    exact ⟨hwhole, hmagic⟩
  have hannounces : AnnouncesTooMuch p.window ↔
      p.bufferStartPosition + RxBufferSize <
        frameEnd (byteAt p.contents) p.bufferStartPosition := by
    rw [AnnouncesTooMuch, resync_of_startsHeader (hheader.append _), frameLength_append hheader.1,
      and_iff_right (hheader.append _), ← frameLength_drop, window_eq_drop_contents]
    exact (Nat.add_lt_add_iff_left).symm
  rw [RecoveryPossible, freeBytesSuffice_iff_of_header hwhole hroom hmagic, hannounces]
  omega

end WholeHeader

/-- A frame can be completed exactly when recovery is possible by the bytes in the buffer. -/
theorem canComplete_iff_recoveryPossible {p : PacketProcessor} (hwf : p.WellFormed) :
    CanComplete p ↔ RecoveryPossible p := by
  have hseven : sizeofPacketHeader = 7 := rfl
  constructor
  · rintro (heq | ⟨hlast, hfill⟩)
    · exact Or.inl heq
    · by_cases hroom : p.bufferLastPosition + sizeofPacketHeader ≤ RxBufferSize
      · exact Or.inr (Or.inl ⟨hroom, fun h => h.not_fillCompletes hwf hfill⟩)
      · exact Or.inr (Or.inr ⟨Nat.lt_of_not_le hroom, hlast,
          (fillCompletes_iff_freeBytesSuffice hwf hlast).mp hfill⟩)
  · rintro (heq | ⟨hroom, hfree⟩ | ⟨_, hlast, hsuffice⟩)
    · exact Or.inl heq
    · exact Or.inr ⟨by omega, fillCompletes_of_room hwf hroom hfree⟩
    · exact Or.inr ⟨hlast, (fillCompletes_iff_freeBytesSuffice hwf hlast).mpr hsuffice⟩

/-- **Recovery from garbage, exactly.** In the state reached by any finite byte sequence
in any chunking, a finite continuation makes some call return true if and only if the
condition above holds. -/
theorem recovers_iff_recoveryPossible (rxBuffer : Vector UInt8 RxBufferSize) (chunks : List Bytes)
    (r : Receiver) (hrun : run Receiver.step (Receiver.initial rxBuffer) chunks = some r) :
    Recovers r ↔ RecoveryPossible r.processor := by
  have hwf := Receiver.run_wellFormed (Receiver.initial_wellFormed rxBuffer) hrun
  exact (recovers_iff_canComplete hwf).trans (canComplete_iff_recoveryPossible hwf)

/-- A single header that announces a topic of 65535 bytes. -/
def endlessTopic : Bytes := PacketHeader.toBytes { topicLength := 0xFFFF }

/-- After a single bad header no continuation makes a call return true. -/
theorem endlessTopic_never_recovers :
    ∃ r, run Receiver.step (Receiver.initial (Vector.replicate RxBufferSize 0)) [endlessTopic] =
      some r ∧ ¬Recovers r := by
  have hstep : ((Receiver.initial (Vector.replicate RxBufferSize 0)).step endlessTopic).map
      (fun r => decide (r.processor.bufferStartPosition = 0 ∧ r.processor.bufferLastPosition = 7 ∧
        MagicAt (byteAt r.processor.contents) 0 ∧
        RxBufferSize < frameEnd (byteAt r.processor.contents) 0)) = some true := by
    decide +kernel
  obtain ⟨r, hr, hstate⟩ := Option.map_eq_some_iff.mp hstep
  obtain ⟨hstart, hlast, hmagic, hlong⟩ := of_decide_eq_true hstate
  have hwf := Receiver.step_wellFormed (Receiver.initial_wellFormed _) hr
  refine ⟨r, run_cons_eq_some.mpr ⟨r, hr, rfl⟩, fun hrecovers => ?_⟩
  have hpossible := (canComplete_iff_recoveryPossible hwf).mp
    ((recovers_iff_canComplete hwf).mp hrecovers)
  rw [recoveryPossible_iff_of_header hwf (by rw [hstart, hlast]; decide) (by rw [hlast]; decide)
    (hstart ▸ hmagic), hstart] at hpossible
  omega

/-- The equivalence in the state after the bad header, where neither side holds. -/
theorem recovers_iff_recoveryPossible_endlessTopic :
    ∃ r, run Receiver.step (Receiver.initial (Vector.replicate RxBufferSize 0)) [endlessTopic] =
      some r ∧ (Recovers r ↔ RecoveryPossible r.processor) := by
  have henabled : (run Receiver.step (Receiver.initial (Vector.replicate RxBufferSize 0))
      [endlessTopic]).isSome = true := by
    decide +kernel
  obtain ⟨r, hr⟩ := Option.isSome_iff_exists.mp henabled
  exact ⟨r, hr, recovers_iff_recoveryPossible _ _ r hr⟩

end NixieVfdCentral
