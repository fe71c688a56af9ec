import NixieVfdCentral.Uart.PacketProcessor
import Mathlib.Data.List.GetD

/-!
# Headers that announce too much

The two length fields may announce a frame of up to 131077 bytes, but only 256 fit the
receive buffer. Whether the pending bytes are doomed to such a frame is decided as soon
as a magic number stands in place: the missing bytes of the header can only make the
announced frame longer. The other extreme is a byte sequence without any magic number in
place, which never spoils a whole frame that follows it.
-/

namespace NixieVfdCentral

open Framing

/-- The missing bytes of a header are read as zero, so two zeros behind it change nothing. -/
theorem ofBytes_append_zeros (w : Bytes) :
    PacketHeader.ofBytes (w ++ [0, 0]) = PacketHeader.ofBytes w := by
  have hget : ∀ i, (w ++ [0, 0]).getD i 0 = w.getD i 0 := by
    intro i
    by_cases hi : i < w.length
    · rw [List.getD_append _ _ _ _ hi]
    · rw [List.getD_append_right _ _ _ _ (by omega), List.getD_eq_default w 0 (by omega)]
      match i - w.length with
      | 0 => rfl
      | 1 => rfl
      | _ + 2 => rfl
  simp only [PacketHeader.ofBytes, hget]

/-- With five bytes of a header its magic number is settled. -/
theorem magic_append {w : Bytes} (h : 5 ≤ w.length) (z : Bytes) :
    (PacketHeader.ofBytes (w ++ z)).magic = (PacketHeader.ofBytes w).magic := by
  rw [← PacketHeader.magic_ofBytes_take, List.take_append_of_le_length h,
    PacketHeader.magic_ofBytes_take]

/-- More bytes of a header can only make the announced frame longer. -/
theorem frameLength_le_append {w : Bytes} (h : 2 ≤ w.length) (z : Bytes) :
    packetFormat.frameLength w ≤ packetFormat.frameLength (w ++ z) := by
  have hsettled : ∀ i, i < 2 → (w ++ z).getD i 0 = w.getD i 0 := fun i hi =>
    List.getD_append _ _ _ _ (by omega)
  have hmono : ∀ i, (w.getD i 0).toNat ≤ ((w ++ z).getD i 0).toNat := by
    intro i
    by_cases hi : i < w.length
    · exact Nat.le_of_eq (congrArg UInt8.toNat (List.getD_append _ _ _ _ hi).symm)
    · rw [List.getD_eq_default w 0 (by omega)]
      exact Nat.zero_le _
  have h5 := hmono 5
  have h6 := hmono 6
  simp only [frameLength_eq, PacketHeader.ofBytes, toNat_ofLittleEndian, hsettled 0 (by omega),
    hsettled 1 (by omega)]
  omega

/-- The first magic number in place, behind noise, belongs to a header that announces more
than the buffer holds. The header may be cut off behind its magic number; then the missing
bytes count as zero. -/
def AnnouncesTooMuch (w : Bytes) : Prop :=
  packetFormat.StartsHeader (packetFormat.resync (w ++ [0, 0])) ∧
    RxBufferSize < packetFormat.frameLength (packetFormat.resync (w ++ [0, 0]))

instance (w : Bytes) : Decidable (AnnouncesTooMuch w) := inferInstanceAs (Decidable (_ ∧ _))

/-- Once five bytes are there, whether a header follows is a matter of the length. -/
private theorem startsHeader_append_iff {w : Bytes} (h : 5 ≤ w.length) (z : Bytes) :
    packetFormat.StartsHeader (w ++ z) ↔
      sizeofPacketHeader ≤ (w ++ z).length ∧
        (PacketHeader.ofBytes w).magic = ProtocolMagic := by
  rw [startsHeader_iff, magic_append h]

/-- A sequence that announces too much has a magic number in place, at its front or
behind a first byte of noise. -/
private theorem AnnouncesTooMuch.cases {b : UInt8} {w : Bytes} (h : AnnouncesTooMuch (b :: w)) :
    5 ≤ (b :: w).length ∧
      (((PacketHeader.ofBytes (b :: w)).magic = ProtocolMagic ∧
          RxBufferSize < packetFormat.frameLength (b :: w)) ∨
        ((PacketHeader.ofBytes (b :: w)).magic ≠ ProtocolMagic ∧ AnnouncesTooMuch w)) := by
  have hlength : 5 ≤ (b :: w).length := by
    by_contra hshort
    have hfew : (b :: w ++ [0, 0]).length < packetFormat.headerLength := by
      change _ < 7
      rw [List.length_append]
      change _ + 2 < 7
      omega
    have := h.1.1
    rw [resync_of_short hfew] at this
    omega
  have hseven : sizeofPacketHeader ≤ (b :: w ++ [0, 0]).length := by
    rw [List.length_append]
    change 7 ≤ _ + 2
    omega
  refine ⟨hlength, ?_⟩
  unfold AnnouncesTooMuch at h
  by_cases hmagic : (PacketHeader.ofBytes (b :: w)).magic = ProtocolMagic
  · left
    rw [resync_of_startsHeader ((startsHeader_append_iff hlength _).mpr ⟨hseven, hmagic⟩),
      frameLength_eq, ofBytes_append_zeros, ← frameLength_eq] at h
    exact ⟨hmagic, h.2⟩
  · right
    have hnoise : ¬packetFormat.StartsHeader (b :: (w ++ [0, 0])) := fun hs =>
      hmagic ((startsHeader_append_iff hlength [0, 0]).mp hs).2
    rw [List.cons_append, resync_cons_of_noise hseven hnoise] at h
    exact ⟨hmagic, h⟩

/-- **No way out.** Once too much is announced, no complete frame appears within the
bounds of the buffer, and what the search keeps announces too much again. -/
theorem AnnouncesTooMuch.append {w : Bytes} (h : AnnouncesTooMuch w) (z : Bytes) :
    AnnouncesTooMuch (packetFormat.resync (w ++ z)) ∧
      ((w ++ z).length ≤ RxBufferSize → packetFormat.nextFrame (w ++ z) = none) := by
  induction w with
  | nil => exact absurd h (by decide)
  | cons b w ih =>
    obtain ⟨hlength, ⟨hmagic, hlong⟩ | ⟨hmagic, hrest⟩⟩ := h.cases
    · have hgrow : ∀ y, RxBufferSize < packetFormat.frameLength (b :: w ++ y) := fun y =>
        Nat.lt_of_lt_of_le hlong (frameLength_le_append (by omega) y)
      have hkeep : packetFormat.resync (b :: w ++ z) = b :: w ++ z := by
        by_cases hseven : sizeofPacketHeader ≤ (b :: w ++ z).length
        · exact resync_of_startsHeader ((startsHeader_append_iff hlength z).mpr ⟨hseven, hmagic⟩)
        · exact resync_of_short (Nat.lt_of_not_le hseven)
      rw [hkeep]
      constructor
      · have hheader : packetFormat.StartsHeader (b :: w ++ z ++ [0, 0]) := by
          rw [List.append_assoc, startsHeader_append_iff hlength]
          refine ⟨?_, hmagic⟩
          change 7 ≤ _
          simp only [List.length_append, List.length_cons, List.length_nil] at hlength ⊢
          omega
        refine ⟨by rwa [resync_of_startsHeader hheader], ?_⟩
        rw [resync_of_startsHeader hheader, List.append_assoc]
        exact hgrow _
      · intro hfits
        refine nextFrame_eq_none_iff.mpr (Or.inr ?_)
        rw [hkeep]
        exact Nat.lt_of_le_of_lt hfits (hgrow z)
    · obtain ⟨hkept, hsilent⟩ := ih hrest
      by_cases hseven : sizeofPacketHeader ≤ (b :: w ++ z).length
      · have hnoise : ¬packetFormat.StartsHeader (b :: (w ++ z)) := fun hs =>
          hmagic ((startsHeader_append_iff hlength z).mp hs).2
        have hdrop : packetFormat.resync (b :: w ++ z) = packetFormat.resync (w ++ z) :=
          resync_cons_of_noise hseven hnoise
        refine ⟨by rwa [hdrop], fun hfits => ?_⟩
        rw [← nextFrame_resync, hdrop, nextFrame_resync]
        exact hsilent (Nat.le_of_succ_le hfits)
      · have hshort : (b :: w ++ z).length < packetFormat.headerLength := Nat.lt_of_not_le hseven
        rw [resync_of_short (w := w ++ z) (Nat.lt_of_succ_lt hshort)] at hkept
        rw [resync_of_short hshort]
        constructor
        · have hnoise : ¬packetFormat.StartsHeader (b :: (w ++ z ++ [0, 0])) := fun hs => by
            rw [← List.cons_append, ← List.cons_append, List.append_assoc,
              startsHeader_append_iff hlength] at hs
            exact hmagic hs.2
          have hlong : packetFormat.headerLength ≤ (b :: (w ++ z ++ [0, 0])).length := by
            change 7 ≤ _
            simp only [List.length_append, List.length_cons, List.length_nil] at hlength ⊢
            omega
          unfold AnnouncesTooMuch
          rw [List.cons_append, List.cons_append, resync_cons_of_noise hlong hnoise]
          exact hkept
        · intro _
          refine nextFrame_eq_none_iff.mpr (Or.inr ?_)
          rw [resync_of_short hshort]
          exact Nat.lt_of_lt_of_le hshort (Nat.le_add_right _ _)

/-- The magic number is in place exactly when its two bytes are. -/
theorem magic_eq_iff {w : Bytes} :
    (PacketHeader.ofBytes w).magic = ProtocolMagic ↔ w.getD 3 0 = 0xEF ∧ w.getD 4 0 = 0xBE := by
  have hlow := (w.getD 3 0).toNat_lt
  have hhigh := (w.getD 4 0).toNat_lt
  rw [← UInt16.toNat_inj, ← UInt8.toNat_inj, ← UInt8.toNat_inj]
  change (ofLittleEndian (w.getD 3 0) (w.getD 4 0)).toNat = 0xBEEF ↔
    (w.getD 3 0).toNat = 0xEF ∧ (w.getD 4 0).toNat = 0xBE
  rw [toNat_ofLittleEndian]
  omega

/-- The shortest frame: no topic and no payload. -/
def shortestFrame : Bytes := [0, 0, 0, 0xEF, 0xBE, 0, 0]

/-- In front of the shortest frame, noise can only contain a magic number that is in place
within the noise itself. -/
private theorem not_startsHeader_before_shortestFrame {b : UInt8} {w : Bytes}
    (hnoise : ¬packetFormat.StartsHeader (packetFormat.resync (b :: w ++ [0, 0]))) (z : Bytes) :
    ¬packetFormat.StartsHeader (b :: w ++ (shortestFrame ++ z)) := by
  intro hs
  have hmagic := magic_eq_iff.mp (startsHeader_iff.mp hs).2
  match w with
  | [] => exact absurd hmagic.1 (show ¬(0 : UInt8) = 0xEF by decide)
  | [_] => exact absurd hmagic.1 (show ¬(0 : UInt8) = 0xEF by decide)
  | [_, _] => exact absurd hmagic.1 (show ¬(0 : UInt8) = 0xEF by decide)
  | [_, _, _] => exact absurd hmagic.2 (show ¬(0 : UInt8) = 0xBE by decide)
  | b₁ :: b₂ :: b₃ :: b₄ :: w =>
    have hlength : 5 ≤ (b :: b₁ :: b₂ :: b₃ :: b₄ :: w).length := by
      simp only [List.length_cons]
      omega
    have hfound : packetFormat.StartsHeader (b :: b₁ :: b₂ :: b₃ :: b₄ :: w ++ [0, 0]) := by
      refine (startsHeader_append_iff hlength _).mpr ⟨?_, magic_eq_iff.mpr hmagic⟩
      rw [List.length_append]
      exact Nat.add_le_add_right hlength 2
    rw [resync_of_startsHeader hfound] at hnoise
    exact hnoise hfound

/-- Noise without a magic number in place does not spoil a whole frame behind it. -/
theorem nextFrame_noise_append {w : Bytes}
    (hnoise : ¬packetFormat.StartsHeader (packetFormat.resync (w ++ [0, 0]))) (z : Bytes) :
    packetFormat.nextFrame (w ++ (shortestFrame ++ z)) = some (shortestFrame, z) := by
  induction w with
  | nil => exact nextFrame_of_frame (by decide) z
  | cons b w ih =>
    have hseven : packetFormat.headerLength ≤ (b :: (w ++ (shortestFrame ++ z))).length := by
      simp only [List.length_cons, List.length_append]
      change 7 ≤ w.length + (7 + z.length) + 1
      omega
    rw [← nextFrame_resync, List.cons_append,
      resync_cons_of_noise hseven (not_startsHeader_before_shortestFrame hnoise z),
      nextFrame_resync]
    exact ih fun hs => hnoise (startsHeader_resync_cons hs)

end NixieVfdCentral
