import Mathlib.Data.List.Basic

/-!
# Fixed-size buffers

A buffer of `n` cells is a vector. Copying a list into it at a position and reading
a range of it are total operations: what would fall outside the buffer is cut off,
and the lemmas state the range conditions under which nothing is.
-/

namespace NixieVfdCentral.Buffers

variable {α : Type*} {n : ℕ}

/-- The cells `[start, start + length)`, cut off at the end of the buffer. -/
def slice (buffer : Vector α n) (start length : ℕ) : List α :=
  (buffer.toList.drop start).take length

/-- Writing over some of the cells leaves their number as it is. -/
private theorem length_overwritten (cells bytes : List α) (position : ℕ) (h : cells.length = n) :
    ((cells.take position ++ bytes ++ cells.drop (position + bytes.length)).take n).length = n := by
  simp only [List.length_take, List.length_append, List.length_drop, h]
  omega

/-- Copy `bytes` into the buffer at `position`, cutting off what does not fit. -/
def overwrite (buffer : Vector α n) (position : ℕ) (bytes : List α) : Vector α n :=
  ⟨⟨(buffer.toList.take position ++ bytes ++ buffer.toList.drop (position + bytes.length)).take n⟩,
    length_overwritten buffer.toList bytes position buffer.length_toList⟩

/-- A copy that fits replaces exactly the cells it covers. -/
theorem toList_overwrite (buffer : Vector α n) {position : ℕ} {bytes : List α}
    (hfits : position + bytes.length ≤ n) :
    (overwrite buffer position bytes).toList =
      buffer.toList.take position ++ bytes ++ buffer.toList.drop (position + bytes.length) := by
  change List.take n _ = _
  apply List.take_of_length_le
  simp only [List.length_append, List.length_take, List.length_drop, Vector.length_toList]
  omega

/-- A range of cells inside the buffer has the requested length. -/
theorem length_slice (buffer : Vector α n) {start length : ℕ} (hfits : start + length ≤ n) :
    (slice buffer start length).length = length := by
  simp only [slice, List.length_take, List.length_drop, Vector.length_toList]
  omega

/-- Dropping the first cells of a range moves its start. -/
theorem drop_slice (buffer : Vector α n) (start length k : ℕ) :
    (slice buffer start length).drop k = slice buffer (start + k) (length - k) := by
  rw [slice, slice, List.drop_take, List.drop_drop]

/-- The first cells of a range are the range with the same start and that length. -/
theorem take_slice (buffer : Vector α n) {start length k : ℕ} (hk : k ≤ length) :
    (slice buffer start length).take k = slice buffer start k := by
  rw [slice, slice, List.take_take, Nat.min_eq_left hk]

/-- A copy leaves the cells before it as they are. -/
theorem take_overwrite (buffer : Vector α n) {position : ℕ} {bytes : List α}
    (hfits : position + bytes.length ≤ n) :
    (overwrite buffer position bytes).toList.take (position + bytes.length) =
      buffer.toList.take position ++ bytes := by
  rw [toList_overwrite buffer hfits]
  apply List.take_left'
  simp only [List.length_append, List.length_take, Vector.length_toList]
  omega

/-- A copy to the front of a buffer of equal cells. -/
theorem toList_overwrite_replicate (x : α) {bytes : List α} (hfits : bytes.length ≤ n) :
    (overwrite (Vector.replicate n x) 0 bytes).toList =
      bytes ++ List.replicate (n - bytes.length) x := by
  rw [toList_overwrite _ (by omega)]
  simp

/-- A range is what its end cuts off from the front part of the buffer. -/
theorem slice_eq_drop_take (buffer : Vector α n) (start last : ℕ) :
    slice buffer start (last - start) = (buffer.toList.take last).drop start := by
  rw [slice, List.drop_take]

/-- **Moving to the front.** Copying the end of the buffer to its front keeps, behind
the copy, the last cells as they were. -/
theorem toList_overwrite_shift (buffer : Vector α n) {start : ℕ} (hstart : start ≤ n) :
    (overwrite buffer 0 (slice buffer start (n - start))).toList =
      buffer.toList.drop start ++ buffer.toList.drop (n - start) := by
  have hlength : (slice buffer start (n - start)).length = n - start :=
    length_slice buffer (by omega)
  have hslice : slice buffer start (n - start) = buffer.toList.drop start := by
    rw [slice]
    apply List.take_of_length_le
    simp
  rw [toList_overwrite buffer (by omega), hlength, hslice]
  simp

end NixieVfdCentral.Buffers
