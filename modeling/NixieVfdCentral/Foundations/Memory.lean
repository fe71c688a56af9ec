import Mathlib.Data.List.Basic

/-!
# Memory as a function of addresses

A write puts some cells at an address and leaves all others as they are. Two writes of which the
second begins in the first or right behind it, and ends no earlier, are one write. So a program
that writes a text piece by piece, and now and then writes over the end of a piece, is compared
with one write of the whole text.
-/

namespace NixieVfdCentral.Memory

variable {β : Type*} {m : ℕ → β} {p i : ℕ} {a b c : List β}

/-- Memory with `bytes` at `p`. -/
def store (m : ℕ → β) (p : ℕ) (bytes : List β) : ℕ → β := fun i =>
  if p ≤ i then (bytes[i - p]?).getD (m i) else m i

/-- The write touches nothing in front of it and nothing behind it. -/
theorem store_eq_self (h : i < p ∨ p + b.length ≤ i) : store m p b i = m i := by
  unfold store
  split
  · rw [List.getElem?_eq_none (by omega), Option.getD_none]
  · rfl

/-- **A write over the end of another one**, up to its end at least, is one write. -/
theorem store_store (hlength : c.length ≤ b.length) :
    store (store m p (a ++ c)) (p + a.length) b = store m p (a ++ b) := by
  funext i
  by_cases hi : p + a.length ≤ i
  · have hp : p ≤ i := by omega
    have ha : a.length ≤ i - p := by omega
    have hsub : i - p - a.length = i - (p + a.length) := by omega
    simp only [store, hi, hp, if_true, List.getElem?_append_right ha, hsub]
    by_cases hb : i - (p + a.length) < b.length
    · rw [List.getElem?_eq_getElem hb, Option.getD_some, Option.getD_some]
    · have hc : c.length ≤ i - (p + a.length) := by omega
      rw [List.getElem?_eq_none (Nat.le_of_not_lt hb), List.getElem?_eq_none hc, Option.getD_none]
  · simp only [store, hi, if_false]
    by_cases hp : p ≤ i
    · have ha : i - p < a.length := by omega
      simp only [hp, if_true, List.getElem?_append_left ha]
    · simp only [hp, if_false]

/-- Two writes one directly behind the other are the write of both pieces in a row. -/
theorem store_append : store (store m p a) (p + a.length) b = store m p (a ++ b) := by
  simpa using @store_store _ m p a b [] (Nat.zero_le _)

end NixieVfdCentral.Memory
