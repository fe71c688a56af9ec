import Mathlib.Data.List.Basic

/-!
# Self-synchronising frames

A frame starts with a header of fixed length. A marker inside the header tells it
from noise, and the header announces how long the body after it is. A reader of a
noisy stream drops elements until the marker stands in its place, and then waits
for the announced body. The facts below say how this reading behaves when more of
the stream arrives, which is all a reader fed in chunks needs.
-/

namespace NixieVfdCentral.Framing

variable {α : Type*}

/-- A frame format: the marker is decided by the first `markerLength` elements of
the header, the length of the body by the whole header. -/
structure Format (α : Type*) where
  /-- Number of elements of a header. -/
  headerLength : ℕ
  /-- Number of leading elements of the header that decide the marker. -/
  markerLength : ℕ
  /-- The marker lies inside the header. -/
  markerLength_le : markerLength ≤ headerLength
  /-- A header is not empty. -/
  headerLength_pos : 0 < headerLength
  /-- Whether the marker stands in its place. -/
  hasMarker : List α → Bool
  /-- The announced length of the body. -/
  bodyLength : List α → ℕ

variable (F : Format α)

/-- The stream starts with a whole header that carries the marker. -/
def Format.StartsHeader (w : List α) : Prop :=
  F.headerLength ≤ w.length ∧ F.hasMarker (w.take F.markerLength) = true

instance (w : List α) : Decidable (F.StartsHeader w) := inferInstanceAs (Decidable (_ ∧ _))

/-- The length of the frame that the header at the start of the stream announces. -/
def Format.frameLength (w : List α) : ℕ := F.headerLength + F.bodyLength (w.take F.headerLength)

/-- A frame that the format allows: a header with the marker and a body of the announced length. -/
def Format.IsFrame (frame : List α) : Prop :=
  F.StartsHeader frame ∧ F.frameLength frame = frame.length

instance (frame : List α) : Decidable (F.IsFrame frame) := inferInstanceAs (Decidable (_ ∧ _))

/-- Drop elements until a header stands at the start or too few elements remain. -/
def Format.resync : List α → List α
  | [] => []
  | a :: w =>
    if (a :: w).length < F.headerLength ∨ F.hasMarker ((a :: w).take F.markerLength) = true then
      a :: w
    else Format.resync w

/-- The first complete frame of the stream and what follows it, if there is one. -/
def Format.nextFrame (w : List α) : Option (List α × List α) :=
  let v := F.resync w
  if F.StartsHeader v ∧ F.frameLength v ≤ v.length then
    some (v.take (F.frameLength v), v.drop (F.frameLength v))
  else none

variable {F}

/-- The search drops nothing from an empty stream. -/
@[simp] theorem resync_nil : F.resync [] = [] := rfl

/-- Nothing is dropped when too few elements for a header are there. -/
theorem resync_of_short {w : List α} (h : w.length < F.headerLength) : F.resync w = w := by
  cases w with
  | nil => rfl
  | cons a w => rw [Format.resync, if_pos (Or.inl h)]

/-- Nothing is dropped in front of a header: the search stops there at once. -/
theorem resync_of_startsHeader {w : List α} (h : F.StartsHeader w) : F.resync w = w := by
  cases w with
  | nil => rfl
  | cons a w => rw [Format.resync, if_pos (Or.inr h.2)]

/-- An element that starts no header is dropped once a header's worth is there. -/
theorem resync_cons_of_noise {a : α} {w : List α} (hlength : F.headerLength ≤ (a :: w).length)
    (hnoise : ¬F.StartsHeader (a :: w)) : F.resync (a :: w) = F.resync w := by
  have hmarker : ¬F.hasMarker ((a :: w).take F.markerLength) = true := fun h => hnoise ⟨hlength, h⟩
  rw [Format.resync, if_neg (not_or.mpr ⟨by omega, hmarker⟩)]

/-- The search for a header drops elements at the front only: what it keeps is the end of the
stream. -/
theorem resync_suffix (w : List α) : F.resync w <:+ w := by
  induction w with
  | nil => exact List.suffix_refl []
  | cons a w ih =>
    rw [Format.resync]
    split
    · exact List.suffix_refl _
    · exact ih.trans (List.suffix_cons a w)

/-- The search for a header leaves no more elements than there were. -/
theorem resync_length_le (w : List α) : (F.resync w).length ≤ w.length :=
  (resync_suffix w).length_le

/-- The search ends at a header or with too few elements for one. -/
theorem resync_stops (w : List α) :
    F.StartsHeader (F.resync w) ∨ (F.resync w).length < F.headerLength := by
  induction w with
  | nil => exact Or.inr F.headerLength_pos
  | cons a w ih =>
    by_cases hlength : (a :: w).length < F.headerLength
    · rw [resync_of_short hlength]
      exact Or.inr hlength
    · by_cases hheader : F.StartsHeader (a :: w)
      · rw [resync_of_startsHeader hheader]
        exact Or.inl hheader
      · rw [resync_cons_of_noise (by omega) hheader]
        exact ih

/-- A header that is found is also found from one element earlier, or an earlier one is. -/
theorem startsHeader_resync_cons {a : α} {w : List α} (h : F.StartsHeader (F.resync w)) :
    F.StartsHeader (F.resync (a :: w)) := by
  by_cases hheader : F.StartsHeader (a :: w)
  · rwa [resync_of_startsHeader hheader]
  · have hlength := Nat.le_trans h.1 (resync_length_le w)
    rwa [resync_cons_of_noise (Nat.le_succ_of_le hlength) hheader]

/-- Searching again from where the search stopped drops nothing. -/
@[simp] theorem resync_resync (w : List α) : F.resync (F.resync w) = F.resync w := by
  rcases resync_stops (F := F) w with h | h
  · exact resync_of_startsHeader h
  · exact resync_of_short h

/-- A header at the start stays one when more of the stream arrives. -/
theorem Format.StartsHeader.append {w : List α} (h : F.StartsHeader w) (z : List α) :
    F.StartsHeader (w ++ z) := by
  have hmarker : F.markerLength ≤ w.length := Nat.le_trans F.markerLength_le h.1
  refine ⟨by rw [List.length_append]; exact Nat.le_add_right_of_le h.1, ?_⟩
  rw [List.take_append_of_le_length hmarker]
  exact h.2

/-- Noise at the start stays noise when more of the stream arrives. -/
theorem not_startsHeader_append {w z : List α} (hlength : F.headerLength ≤ w.length)
    (h : ¬F.StartsHeader w) : ¬F.StartsHeader (w ++ z) := by
  rintro ⟨-, hmarker⟩
  rw [List.take_append_of_le_length (Nat.le_trans F.markerLength_le hlength)] at hmarker
  exact h ⟨hlength, hmarker⟩

/-- The announced length does not change when more of the stream arrives. -/
theorem frameLength_append {w : List α} (hlength : F.headerLength ≤ w.length) (z : List α) :
    F.frameLength (w ++ z) = F.frameLength w := by
  rw [Format.frameLength, Format.frameLength, List.take_append_of_le_length hlength]

/-- The search may be resumed: searching the kept end together with what arrives
afterwards is searching everything. -/
theorem resync_resync_append (w z : List α) : F.resync (F.resync w ++ z) = F.resync (w ++ z) := by
  induction w with
  | nil => rfl
  | cons a w ih =>
    by_cases hlength : (a :: w).length < F.headerLength
    · rw [resync_of_short hlength]
    · by_cases hheader : F.StartsHeader (a :: w)
      · rw [resync_of_startsHeader hheader]
      · have hlong : F.headerLength ≤ (a :: (w ++ z)).length := by
          simp only [List.length_cons, List.length_append] at hlength ⊢
          omega
        rw [resync_cons_of_noise (by omega) hheader, ih, List.cons_append,
          resync_cons_of_noise hlong (not_startsHeader_append (by omega) hheader)]

/-- A header that the search found is still found when more of the stream arrives. -/
theorem resync_append_of_startsHeader {w : List α} (h : F.StartsHeader (F.resync w)) (z : List α) :
    F.resync (w ++ z) = F.resync w ++ z := by
  rw [← resync_resync_append, resync_of_startsHeader (h.append z)]

/-- What the next frame is, in terms of where the search stops. -/
theorem nextFrame_eq_some_iff {w frame rest : List α} :
    F.nextFrame w = some (frame, rest) ↔
      F.StartsHeader (F.resync w) ∧ F.frameLength (F.resync w) = frame.length ∧
        F.resync w = frame ++ rest := by
  simp only [Format.nextFrame, Option.ite_none_right_eq_some, Option.some.injEq, Prod.mk.injEq]
  constructor
  · rintro ⟨⟨hheader, hlength⟩, rfl, rfl⟩
    exact ⟨hheader, by rw [List.length_take, Nat.min_eq_left hlength],
      (List.take_append_drop _ _).symm⟩
  · rintro ⟨hheader, hlength, heq⟩
    refine ⟨⟨hheader, ?_⟩, ?_, ?_⟩
    · rw [heq, List.length_append, ← heq, hlength]
      omega
    · rw [hlength, heq, List.take_left]
    · rw [hlength, heq, List.drop_left]

/-- There is no complete frame exactly when no header is found or its body is not all there. -/
theorem nextFrame_eq_none_iff {w : List α} :
    F.nextFrame w = none ↔
      ¬F.StartsHeader (F.resync w) ∨ (F.resync w).length < F.frameLength (F.resync w) := by
  simp only [Format.nextFrame, ite_eq_right_iff, reduceCtorEq, imp_false, not_and_or, Nat.not_le]

/-- The next frame is the one found after the dropped noise. -/
@[simp] theorem nextFrame_resync (w : List α) : F.nextFrame (F.resync w) = F.nextFrame w := by
  rw [Format.nextFrame, Format.nextFrame, resync_resync]

/-- **A complete frame stays the next one when more of the stream arrives.** -/
theorem nextFrame_append {w frame rest : List α} (h : F.nextFrame w = some (frame, rest))
    (z : List α) : F.nextFrame (w ++ z) = some (frame, rest ++ z) := by
  obtain ⟨hheader, hlength, heq⟩ := nextFrame_eq_some_iff.mp h
  refine nextFrame_eq_some_iff.mpr ?_
  rw [resync_append_of_startsHeader hheader, frameLength_append hheader.1]
  exact ⟨hheader.append z, hlength, by rw [heq, List.append_assoc]⟩

/-- A stream with a complete frame keeps having one when more of it arrives. -/
theorem nextFrame_ne_none_of_prefix {w w' : List α} (hbegins : w <+: w')
    (h : F.nextFrame w ≠ none) : F.nextFrame w' ≠ none := by
  obtain ⟨z, rfl⟩ := hbegins
  obtain ⟨⟨frame, rest⟩, hframe⟩ := Option.ne_none_iff_exists'.mp h
  rw [nextFrame_append hframe]
  exact Option.some_ne_none _

/-- A stream that starts with a whole frame has it as its next frame. -/
theorem nextFrame_of_frame {frame : List α} (h : F.IsFrame frame) (rest : List α) :
    F.nextFrame (frame ++ rest) = some (frame, rest) := by
  obtain ⟨hheader, hlength⟩ := h
  refine nextFrame_eq_some_iff.mpr ?_
  rw [resync_of_startsHeader (hheader.append rest), frameLength_append hheader.1]
  exact ⟨hheader.append rest, hlength, rfl⟩

/-- The beginning of a frame is kept by the search and is not a complete frame yet. -/
theorem resync_of_proper_beginning {frame w : List α} (h : F.IsFrame frame)
    (hbegins : w <+: frame) (hproper : w.length < frame.length) :
    F.resync w = w ∧ F.nextFrame w = none := by
  obtain ⟨hheader, hlength⟩ := h
  by_cases hshort : w.length < F.headerLength
  · have hkeep := resync_of_short hshort
    refine ⟨hkeep, nextFrame_eq_none_iff.mpr (Or.inl ?_)⟩
    rw [hkeep]
    exact fun h => absurd h.1 (Nat.not_le.mpr hshort)
  · obtain ⟨z, rfl⟩ := hbegins
    have hlong : F.headerLength ≤ w.length := Nat.le_of_not_lt hshort
    have hstarts : F.StartsHeader w := by
      by_contra h
      exact not_startsHeader_append hlong h hheader
    have hkeep := resync_of_startsHeader hstarts
    refine ⟨hkeep, nextFrame_eq_none_iff.mpr (Or.inr ?_)⟩
    rw [hkeep, ← frameLength_append hlong z, hlength]
    exact hproper

/-! ### Where the search stops -/

/-- The search passes over elements that start no header while a header's worth is there. -/
theorem resync_eq_resync_drop {w : List α} {k : ℕ}
    (hnoise : ∀ u < k, F.headerLength ≤ (w.drop u).length ∧ ¬F.StartsHeader (w.drop u)) :
    F.resync w = F.resync (w.drop k) := by
  induction k with
  | zero => rw [List.drop_zero]
  | succ k ih =>
    obtain ⟨hlength, hheader⟩ := hnoise k (Nat.lt_succ_self k)
    rw [ih fun u hu => hnoise u (Nat.lt_succ_of_lt hu)]
    have hk : k < w.length := by
      have hpos := F.headerLength_pos
      rw [List.length_drop] at hlength
      omega
    rw [List.drop_eq_getElem_cons hk] at hlength hheader ⊢
    exact resync_cons_of_noise hlength hheader

/-- The search stops behind noise, at a header or where too few elements for one remain. -/
theorem resync_eq_drop {w : List α} {k : ℕ}
    (hnoise : ∀ u < k, F.headerLength ≤ (w.drop u).length ∧ ¬F.StartsHeader (w.drop u))
    (hstop : F.StartsHeader (w.drop k) ∨ (w.drop k).length < F.headerLength) :
    F.resync w = w.drop k := by
  rw [resync_eq_resync_drop hnoise]
  rcases hstop with hheader | hshort
  · exact resync_of_startsHeader hheader
  · exact resync_of_short hshort

/-- What the search drops starts no header anywhere, and a header's worth was there. -/
theorem exists_resync_eq_drop (w : List α) :
    ∃ k ≤ w.length, F.resync w = w.drop k ∧
      ∀ u < k, F.headerLength ≤ (w.drop u).length ∧ ¬F.StartsHeader (w.drop u) := by
  induction w with
  | nil => exact ⟨0, Nat.le_refl 0, rfl, by simp⟩
  | cons a w ih =>
    by_cases hstop : F.StartsHeader (a :: w) ∨ (a :: w).length < F.headerLength
    · exact ⟨0, Nat.zero_le _, resync_eq_drop (k := 0) (by simp) hstop, by simp⟩
    · obtain ⟨hheader, hlength⟩ := not_or.mp hstop
      obtain ⟨k, hk, hdrop, hnoise⟩ := ih
      refine ⟨k + 1, Nat.succ_le_succ hk, ?_, ?_⟩
      · rw [resync_cons_of_noise (Nat.le_of_not_lt hlength) hheader, hdrop, List.drop_succ_cons]
      · intro u hu
        cases u with
        | zero => exact ⟨Nat.le_of_not_lt hlength, hheader⟩
        | succ u => exact hnoise u (Nat.lt_of_succ_lt_succ hu)

/-- **A complete frame is there** exactly when behind some noise a header stands whose frame
ends within the stream. -/
theorem nextFrame_ne_none_iff {w : List α} :
    F.nextFrame w ≠ none ↔
      ∃ k, (∀ u < k, ¬F.StartsHeader (w.drop u)) ∧ F.StartsHeader (w.drop k) ∧
        k + F.frameLength (w.drop k) ≤ w.length := by
  rw [Ne, nextFrame_eq_none_iff, not_or, not_not, Nat.not_lt]
  constructor
  · rintro ⟨hheader, hlength⟩
    obtain ⟨k, hk, hdrop, hnoise⟩ := exists_resync_eq_drop (F := F) w
    rw [hdrop] at hheader hlength
    rw [List.length_drop] at hlength
    exact ⟨k, fun u hu => (hnoise u hu).2, hheader, by omega⟩
  · rintro ⟨k, hnoise, hheader, hlength⟩
    have hdrop : F.resync w = w.drop k := by
      refine resync_eq_drop (fun u hu => ⟨?_, hnoise u hu⟩) (Or.inl hheader)
      have hlong := hheader.1
      rw [List.length_drop] at hlong ⊢
      omega
    rw [hdrop, List.length_drop]
    exact ⟨hheader, by omega⟩

/-! ### Reading a whole stream -/

/-- What a reader finds in a stream. -/
structure Reading (α : Type*) where
  /-- The complete frames, in order. -/
  frames : List (List α)
  /-- The elements that were dropped as noise. -/
  skipped : List α
  /-- What is left over behind the last frame and the noise. -/
  left : List α

/-- The noise in front of the next header. -/
def Format.noise (F : Format α) (w : List α) : List α := w.take (w.length - (F.resync w).length)

/-- What follows the next frame is shorter than the stream. -/
theorem length_lt_of_nextFrame {w frame rest : List α} (h : F.nextFrame w = some (frame, rest)) :
    rest.length < w.length := by
  obtain ⟨hheader, hlength, heq⟩ := nextFrame_eq_some_iff.mp h
  have hsuffix := resync_length_le (F := F) w
  have hpos := F.headerLength_pos
  rw [heq, List.length_append] at hsuffix
  rw [Format.frameLength] at hlength
  omega

/-- Take frame after frame from the stream until no complete one follows. -/
def Format.read (F : Format α) (w : List α) : Reading α :=
  match _ : F.nextFrame w with
  | none => ⟨[], F.noise w, F.resync w⟩
  | some (frame, rest) =>
    let reading := F.read rest
    ⟨frame :: reading.frames, F.noise w ++ reading.skipped, reading.left⟩
termination_by w.length
decreasing_by exact length_lt_of_nextFrame ‹_›

/-- No noise stands in front of a frame, whatever follows the frame. -/
theorem noise_of_isFrame {frame : List α} (h : F.IsFrame frame) (rest : List α) :
    F.noise (frame ++ rest) = [] := by
  rw [Format.noise, resync_of_startsHeader (h.1.append rest), Nat.sub_self, List.take_zero]

/-- Reading an empty stream finds no frame, drops nothing and leaves nothing. -/
theorem read_nil : F.read [] = ⟨[], [], []⟩ := by
  have hnone : F.nextFrame [] = none :=
    nextFrame_eq_none_iff.mpr (Or.inl fun h => absurd h.1 (Nat.not_le.mpr F.headerLength_pos))
  rw [Format.read]
  split
  · rfl
  · rename_i h
    rw [hnone] at h
    cases h

/-- Reading a stream that starts with a frame takes this frame first. -/
theorem read_append {frame : List α} (h : F.IsFrame frame) (rest : List α) :
    F.read (frame ++ rest) =
      ⟨frame :: (F.read rest).frames, (F.read rest).skipped, (F.read rest).left⟩ := by
  have hnext := nextFrame_of_frame h rest
  rw [Format.read]
  split
  · rename_i hnone
    rw [hnext] at hnone
    cases hnone
  · rename_i frame' rest' hsome
    obtain ⟨rfl, rfl⟩ := Prod.mk.inj (Option.some.inj (hnext.symm.trans hsome))
    rw [noise_of_isFrame h]
    rfl

/-- **Reading undoes concatenation.** From a concatenation of frames the reader takes exactly
these frames; it drops nothing and leaves nothing over. -/
theorem read_flatten {frames : List (List α)} (h : ∀ frame ∈ frames, F.IsFrame frame) :
    F.read frames.flatten = ⟨frames, [], []⟩ := by
  induction frames with
  | nil => exact read_nil
  | cons frame frames ih =>
    rw [List.flatten_cons, read_append (h frame (by simp)),
      ih fun other hother => h other (List.mem_cons_of_mem frame hother)]

/-- Without a complete frame, reading finds the noise and keeps the rest. -/
theorem read_of_nextFrame_eq_none {w : List α} (h : F.nextFrame w = none) :
    F.read w = ⟨[], F.noise w, F.resync w⟩ := by
  rw [Format.read]
  split
  · rfl
  · rename_i hsome
    rw [h] at hsome
    cases hsome

/-- Reading takes the next frame and goes on behind it. -/
theorem read_of_nextFrame {w frame rest : List α} (h : F.nextFrame w = some (frame, rest)) :
    F.read w = ⟨frame :: (F.read rest).frames, F.noise w ++ (F.read rest).skipped,
      (F.read rest).left⟩ := by
  rw [Format.read]
  split
  · rename_i hnone
    rw [h] at hnone
    cases hnone
  · rename_i frame' rest' hsome
    obtain ⟨rfl, rfl⟩ := Prod.mk.inj (Option.some.inj (h.symm.trans hsome))
    rfl

/-- **Frames that were read stay read** when more of the stream arrives. -/
theorem frames_read_append (w z : List α) : (F.read w).frames <+: (F.read (w ++ z)).frames := by
  induction hlength : w.length using Nat.strongRecOn generalizing w with
  | ind n ih =>
    cases hnext : F.nextFrame w with
    | none =>
      rw [read_of_nextFrame_eq_none hnext]
      exact List.nil_prefix
    | some found =>
      obtain ⟨frame, rest⟩ := found
      have hrest := length_lt_of_nextFrame hnext
      rw [read_of_nextFrame hnext, read_of_nextFrame (nextFrame_append hnext z)]
      exact (List.prefix_cons_inj frame).mpr (ih rest.length (by omega) rest rfl)

/-- **Reading the beginning of a concatenation of frames** takes the frames that are all
there, drops nothing, and keeps the beginning of the next one. -/
theorem exists_read_of_beginning {frames : List (List α)} (h : ∀ frame ∈ frames, F.IsFrame frame)
    {w : List α} (hw : w <+: frames.flatten) :
    ∃ done rest left, frames = done ++ rest ∧ F.read w = ⟨done, [], left⟩ ∧
      w = done.flatten ++ left ∧ (rest = [] → left = []) ∧
      ∀ frame ∈ rest.head?, left <+: frame ∧ left.length < frame.length := by
  induction frames generalizing w with
  | nil =>
    rw [List.flatten_nil, List.prefix_nil] at hw
    subst hw
    exact ⟨[], [], [], rfl, read_nil, rfl, fun _ => rfl, by simp⟩
  | cons frame frames ih =>
    have hframe := h frame List.mem_cons_self
    rw [List.flatten_cons] at hw
    by_cases hlong : frame.length ≤ w.length
    · obtain ⟨w', rfl⟩ := List.prefix_of_prefix_length_le (List.prefix_append _ _) hw hlong
      obtain ⟨done, rest, left, hsplit, hread, hw', hnone, hnext⟩ :=
        ih (fun other hother => h other (List.mem_cons_of_mem frame hother))
          ((List.prefix_append_right_inj frame).mp hw)
      refine ⟨frame :: done, rest, left, by rw [hsplit, List.cons_append], ?_, ?_, hnone, hnext⟩
      · rw [read_append hframe, hread]
      · rw [hw', List.flatten_cons, List.append_assoc]
    · have hbegins : w <+: frame :=
        List.prefix_of_prefix_length_le hw (List.prefix_append _ _) (by omega)
      have hproper : w.length < frame.length := by omega
      obtain ⟨hkeep, hnone⟩ := resync_of_proper_beginning hframe hbegins hproper
      refine ⟨[], frame :: frames, w, rfl, ?_, rfl, by simp, by simp [hbegins, hproper]⟩
      rw [read_of_nextFrame_eq_none hnone, Format.noise, hkeep, Nat.sub_self, List.take_zero]

/-! ### Reading piece by piece -/

/-- Streams with the same next frame and the same rest behind it read the same frames. -/
theorem frames_read_congr {w w' : List α} (h : F.nextFrame w = F.nextFrame w') :
    (F.read w).frames = (F.read w').frames := by
  cases hnext : F.nextFrame w with
  | none =>
    have hnext' : F.nextFrame w' = none := h ▸ hnext
    rw [read_of_nextFrame_eq_none hnext, read_of_nextFrame_eq_none hnext']
  | some found =>
    have hnext' : F.nextFrame w' = some found := h ▸ hnext
    rw [read_of_nextFrame hnext, read_of_nextFrame hnext']

/-- Dropping the noise first does not change which frames are read, now or later. -/
theorem frames_read_resync_append (w z : List α) :
    (F.read (F.resync w ++ z)).frames = (F.read (w ++ z)).frames := by
  refine frames_read_congr ?_
  rw [← nextFrame_resync, resync_resync_append, nextFrame_resync]

/-- A reader that was given `received` has taken the frames `done` and keeps `window`: whatever
arrives later, the frames of the whole stream are `done` and those of what it keeps. -/
def Format.TakenOff (F : Format α) (received : List α) (done : List (List α)) (window : List α) :
    Prop :=
  ∀ z, (F.read (received ++ z)).frames = done ++ (F.read (window ++ z)).frames

namespace Format.TakenOff

variable {received window : List α} {done : List (List α)}

/-- From an empty stream nothing is taken, and nothing is kept. -/
theorem nil : F.TakenOff [] [] [] := fun _ => rfl

/-- What arrives is kept behind what was kept before. -/
theorem receive (h : F.TakenOff received done window) (chunk : List α) :
    F.TakenOff (received ++ chunk) done (window ++ chunk) := fun z => by
  rw [List.append_assoc, List.append_assoc, h]

/-- The next frame of what is kept may be taken, and what follows it is kept. -/
theorem take (h : F.TakenOff received done window) {frame rest : List α}
    (hnext : F.nextFrame window = some (frame, rest)) :
    F.TakenOff received (done ++ [frame]) rest := fun z => by
  rw [h, read_of_nextFrame (nextFrame_append hnext z), List.append_assoc]
  rfl

/-- Noise in front of the next header may be dropped from what is kept. -/
theorem resync (h : F.TakenOff received done window) :
    F.TakenOff received done (F.resync window) := fun z => by
  rw [h, frames_read_resync_append]

/-- The frames taken are the first ones of the stream. -/
theorem frames_eq (h : F.TakenOff received done window) :
    (F.read received).frames = done ++ (F.read window).frames := by
  simpa using h []

end Format.TakenOff

end NixieVfdCentral.Framing
