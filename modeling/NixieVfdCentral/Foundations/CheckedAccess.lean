import NixieVfdCentral.Foundations.Buffers

/-!
# Checked accesses to a buffer

A program with a fixed-size buffer goes wrong when it leaves the buffer, when it reads a
cell that nothing was written to, when an unsigned subtraction wraps around, or when a loop
does not end. A checked program performs the same steps but stops at the first such fault.
For each cell it keeps a flag whether its content was written.
-/

namespace NixieVfdCentral.CheckedAccess

open Buffers

variable {n : ℕ}

/-- What can go wrong. -/
inductive Fault
  /-- A range leaves the buffer, or its part in use. -/
  | outOfRange
  /-- A cell is read that was not written before. -/
  | notWritten
  /-- An unsigned subtraction wraps around. -/
  | wraps
  /-- A loop does not end. -/
  | endless
  deriving DecidableEq

/-- An unsigned subtraction. -/
def checkedSub (a b : ℕ) : Except Fault ℕ := if b ≤ a then .ok (a - b) else .error .wraps

/-- An access to `length` cells from `start` on, of which the first `limit` may be used. -/
def checkRange (start length limit : ℕ) : Except Fault Unit :=
  if start + length ≤ limit then .ok () else .error .outOfRange

/-- A read access: the cells are in use and were written before. -/
def checkRead (written : Vector Bool n) (start length limit : ℕ) : Except Fault Unit :=
  if start + length ≤ limit ∧ limit ≤ n then
    if (slice written start length).all id then .ok () else .error .notWritten
  else .error .outOfRange

/-- Every cell in use was written. -/
def AllWritten (written : Vector Bool n) (limit : ℕ) : Prop :=
  ∀ flag ∈ written.toList.take limit, flag = true

variable {written : Vector Bool n} {start length limit : ℕ}

/-- A check that succeeds goes on with the rest. -/
theorem ok_bind {α β : Type} (a : α) (f : α → Except Fault β) :
    ((.ok a : Except Fault α) >>= f) = f a := rfl

/-- A subtraction that does not go below zero passes with the ordinary difference. -/
theorem checkedSub_of_le {a b : ℕ} (h : b ≤ a) : checkedSub a b = .ok (a - b) := if_pos h

/-- An access that ends inside the limit passes. -/
theorem checkRange_of_le (h : start + length ≤ limit) : checkRange start length limit = .ok () :=
  if_pos h

/-- With fewer cells in use, still all of them were written. -/
theorem AllWritten.mono {limit' : ℕ} (h : AllWritten written limit) (hle : limit' ≤ limit) :
    AllWritten written limit' := by
  intro flag hflag
  rw [← Nat.min_eq_left hle, ← List.take_take] at hflag
  exact h flag (List.mem_of_mem_take hflag)

/-- Reading cells in use succeeds when all of them were written. -/
theorem AllWritten.checkRead (h : AllWritten written limit) (hlimit : limit ≤ n)
    (hle : start + length ≤ limit) : checkRead written start length limit = .ok () := by
  have hall : (slice written start length).all id = true := by
    rw [List.all_eq_true]
    intro flag hflag
    have hmem : flag ∈ (written.toList.take (start + length)).drop start := by
      rw [List.drop_take, Nat.add_sub_cancel_left]
      exact hflag
    exact h.mono hle flag (List.mem_of_mem_drop hmem)
  rw [CheckedAccess.checkRead, if_pos ⟨hle, hlimit⟩, if_pos hall]

/-- Before anything is written, no cell is in use, so every cell in use is written. -/
theorem allWritten_zero : AllWritten written 0 := by simp [AllWritten]

/-- Writing right behind the written cells leaves all cells written up to the new end. -/
theorem AllWritten.append (h : AllWritten written limit) (hfits : limit + length ≤ n) :
    AllWritten (overwrite written limit (List.replicate length true)) (limit + length) := by
  have hlength : (List.replicate length true).length = length := List.length_replicate
  have htake := take_overwrite written (hlength.symm ▸ hfits)
  rw [hlength] at htake
  intro flag hflag
  rw [htake] at hflag
  rcases List.mem_append.mp hflag with hflag | hflag
  · exact h flag hflag
  · exact (List.mem_replicate.mp hflag).2

/-- When the end of a buffer is moved to its front, all positions that were written stay written. -/
theorem AllWritten.shift (h : AllWritten written n) (hstart : start ≤ n) :
    AllWritten (overwrite written 0 (slice written start (n - start))) n := by
  have hall : ∀ flag ∈ written.toList, flag = true := fun flag hflag =>
    h flag (by rwa [List.take_of_length_le (Nat.le_of_eq written.length_toList)])
  intro flag hflag
  have hmem := List.mem_of_mem_take hflag
  rw [toList_overwrite_shift written hstart] at hmem
  rcases List.mem_append.mp hmem with hmem | hmem
  · exact hall flag (List.mem_of_mem_drop hmem)
  · exact hall flag (List.mem_of_mem_drop hmem)

end NixieVfdCentral.CheckedAccess
