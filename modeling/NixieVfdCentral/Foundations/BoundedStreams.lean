import NixieVfdCentral.Foundations.Runs
import NixieVfdCentral.Foundations.SharedLogs

/-!
# Streams of bounded capacity

A stream buffer holds at most as many elements as its capacity. A send appends as much of
its piece as fits, and a consumer takes elements away from the front. A writer that sends a
message piece by piece, without looking at how much each send took, puts the message on a
stream as a whole, or not at all, only if the sends to this stream all fit or all find no
room.
-/

namespace NixieVfdCentral

variable {κ α : Type*} {capacity : ℕ}

/-- A stream buffer that never holds more than its capacity. -/
structure StreamBuffer (α : Type*) (capacity : ℕ) where
  /-- The elements in the buffer. -/
  content : List α
  /-- They fit. -/
  length_le : content.length ≤ capacity

namespace StreamBuffer

/-- The free space. -/
def free (b : StreamBuffer α capacity) : ℕ := capacity - b.content.length

/-- What a send takes of a piece. The send reports how many elements these are. -/
def taken (b : StreamBuffer α capacity) (piece : List α) : List α := piece.take b.free

/-- The buffer after a send. -/
def send (b : StreamBuffer α capacity) (piece : List α) : StreamBuffer α capacity where
  content := b.content ++ b.taken piece
  length_le := by
    have := b.length_le
    simp only [taken, free, List.length_append, List.length_take]
    omega

/-- The buffer after the consumer has taken `n` elements. -/
def drain (b : StreamBuffer α capacity) (n : ℕ) : StreamBuffer α capacity where
  content := b.content.drop n
  length_le := by
    have := b.length_le
    simp only [List.length_drop]
    omega

variable (b : StreamBuffer α capacity) (piece : List α)

/-- A piece that fits the free part of the stream is taken whole. -/
theorem taken_of_le {b : StreamBuffer α capacity} {piece : List α} (h : piece.length ≤ b.free) :
    b.taken piece = piece :=
  List.take_of_length_le h

/-- A stream takes no more than it is sent, whether the piece fits or not. -/
theorem length_taken_le : (b.taken piece).length ≤ piece.length := List.length_take_le' _ _

/-- A piece is taken whole only if it fits. -/
theorem le_free_of_length_taken {b : StreamBuffer α capacity} {piece : List α}
    (h : (b.taken piece).length = piece.length) : piece.length ≤ b.free := by
  rw [taken, List.length_take] at h
  omega

/-- Nothing is taken exactly if there is no room or nothing to take. -/
theorem taken_eq_nil_iff : b.taken piece = [] ↔ piece = [] ∨ b.free = 0 := by
  rw [taken, List.take_eq_nil_iff, or_comm]

end StreamBuffer

namespace Sending

open Runs SharedLogs

variable [DecidableEq κ]

/-- The streams, what a writer still has to send, and what it has put on each stream. -/
structure State (κ α : Type*) (capacity : ℕ) where
  /-- The streams. -/
  stream : κ → StreamBuffer α capacity
  /-- The pieces still to be sent. -/
  pending : Message κ α
  /-- What the sends so far have taken, stream by stream. -/
  appended : κ → List α

/-- The writer is about to send a message. -/
def start (stream : κ → StreamBuffer α capacity) (message : Message κ α) : State κ α capacity :=
  ⟨stream, message, fun _ => []⟩

/-- What may happen next. -/
inductive Action (κ : Type*)
  /-- The writer sends the next piece. -/
  | send
  /-- The consumer of a stream takes `n` elements. -/
  | drain (k : κ) (n : ℕ)

/-- One step. -/
def step (s : State κ α capacity) : Action κ → Option (State κ α capacity)
  | .send =>
    match s.pending with
    | [] => none
    | (k, piece) :: rest => some
      { stream := Function.update s.stream k ((s.stream k).send piece)
        pending := rest
        appended := Function.update s.appended k (s.appended k ++ (s.stream k).taken piece) }
  | .drain k n =>
    if n ≤ (s.stream k).content.length then
      some { s with stream := Function.update s.stream k ((s.stream k).drain n) }
    else none

/-- A piece that is sent to the stream `k` fits. -/
def Fits (k : κ) (s : State κ α capacity) : Action κ → Prop
  | .send => ∀ piece ∈ s.pending.head?, piece.1 = k → piece.2.length ≤ (s.stream k).free
  | .drain _ _ => True

/-- A piece that is sent to the stream `k` finds no room, or is empty. -/
def FindsNoRoom (k : κ) (s : State κ α capacity) : Action κ → Prop
  | .send => ∀ piece ∈ s.pending.head?, piece.1 = k → piece.2 = [] ∨ (s.stream k).free = 0
  | .drain _ _ => True

instance (k : κ) (s : State κ α capacity) : (a : Action κ) → Decidable (Fits k s a)
  | .send => inferInstanceAs (Decidable (∀ piece ∈ s.pending.head?, _ → _))
  | .drain _ _ => .isTrue trivial

instance [DecidableEq α] (k : κ) (s : State κ α capacity) :
    (a : Action κ) → Decidable (FindsNoRoom k s a)
  | .send => inferInstanceAs (Decidable (∀ piece ∈ s.pending.head?, _ → _))
  | .drain _ _ => .isTrue trivial

/-- What the sends between two states have put on a stream: all of the pieces sent to it
if each of them fitted, nothing if each of them found no room. -/
structure Put (k : κ) (s : State κ α capacity) (actions : List (Action κ)) (put : List α) :
    Prop where
  length_le : put.length ≤ (whole k s.pending).length
  fits_of_length : put.length = (whole k s.pending).length → Along step (Fits k) s actions
  eq_of_fits : Along step (Fits k) s actions →
    put = whole k s.pending ∧ ∀ piece ∈ select k s.pending, piece.length ≤ capacity
  eq_nil_iff : put = [] ↔ Along step (FindsNoRoom k) s actions

variable {k : κ} {s s' t : State κ α capacity} {a : Action κ} {actions : List (Action κ)}
  {piece put : List α}

/-- A piece for a stream comes first in what this stream gets of the message. -/
theorem whole_cons_self (k : κ) (piece : List α) (rest : Message κ α) :
    whole k ((k, piece) :: rest) = piece ++ whole k rest := by
  rw [whole, select_cons_self, List.flatten_cons]
  rfl

/-- A send takes the next piece of the message and appends as much of it as its stream has room for.
-/
theorem step_send (hstep : step s .send = some s') :
    ∃ k piece, s.pending = (k, piece) :: s'.pending ∧
      s'.appended = Function.update s.appended k (s.appended k ++ (s.stream k).taken piece) := by
  simp only [step] at hstep
  split at hstep
  · cases hstep
  · rename_i k piece rest hpending
    obtain rfl := Option.some.inj hstep
    exact ⟨k, piece, hpending, rfl⟩

/-- When the consumer takes bytes from a stream, the message and what was appended for it stay. -/
theorem step_drain {n : ℕ} (hstep : step s (.drain k n) = some s') :
    s'.pending = s.pending ∧ s'.appended = s.appended := by
  simp only [step, Option.ite_none_right_eq_some] at hstep
  obtain rfl := Option.some.inj hstep.2
  exact ⟨rfl, rfl⟩

/-- Nothing is put on a stream when nothing is left to send. -/
theorem Put.nil (hdone : s.pending = []) : Put k s [] [] where
  length_le := Nat.zero_le _
  fits_of_length _ := trivial
  eq_of_fits _ := by simp [hdone, whole]
  eq_nil_iff := iff_of_true rfl trivial

/-- A step that sends nothing to the stream puts nothing on it. -/
theorem Put.skip (hput : Put k s' actions put) (hstep : step s a = some s')
    (hpending : select k s'.pending = select k s.pending) (hfits : Fits k s a)
    (hroom : FindsNoRoom k s a) : Put k s (a :: actions) put := by
  have hwhole : whole k s'.pending = whole k s.pending := congrArg List.flatten hpending
  refine ⟨hwhole ▸ hput.length_le, fun hlength => ?_, fun halong => ?_, ?_⟩
  · exact (along_cons_iff hstep).mpr ⟨hfits, hput.fits_of_length (hwhole ▸ hlength)⟩
  · rw [← hwhole, ← hpending]
    exact hput.eq_of_fits ((along_cons_iff hstep).mp halong).2
  · rw [hput.eq_nil_iff, along_cons_iff hstep, and_iff_right hroom]

/-- A send to the stream puts on it what there is room for. -/
theorem Put.send (hput : Put k s' actions put) (hstep : step s .send = some s')
    (hpending : s.pending = (k, piece) :: s'.pending) :
    Put k s (.send :: actions) ((s.stream k).taken piece ++ put) := by
  have hwhole : whole k s.pending = piece ++ whole k s'.pending := by
    rw [hpending, whole_cons_self]
  have hfits : Fits k s .send ↔ piece.length ≤ (s.stream k).free := by simp [Fits, hpending]
  have hroom : FindsNoRoom k s .send ↔ piece = [] ∨ (s.stream k).free = 0 := by
    simp [FindsNoRoom, hpending]
  have htaken := (s.stream k).length_taken_le piece
  have hle := hput.length_le
  refine ⟨?_, fun hlength => ?_, fun halong => ?_, ?_⟩
  · rw [hwhole, List.length_append, List.length_append]
    omega
  · rw [hwhole, List.length_append, List.length_append] at hlength
    refine (along_cons_iff hstep).mpr ⟨hfits.mpr ?_, hput.fits_of_length (by omega)⟩
    exact StreamBuffer.le_free_of_length_taken (by omega)
  · obtain ⟨hfirst, halong⟩ := (along_cons_iff hstep).mp halong
    obtain ⟨hput', hcapacity⟩ := hput.eq_of_fits halong
    have hfree := hfits.mp hfirst
    refine ⟨by rw [StreamBuffer.taken_of_le hfree, hput', hwhole], ?_⟩
    rw [hpending, select_cons_self, List.forall_mem_cons]
    exact ⟨Nat.le_trans hfree (Nat.sub_le _ _), hcapacity⟩
  · rw [List.append_eq_nil_iff, StreamBuffer.taken_eq_nil_iff, hput.eq_nil_iff,
      along_cons_iff hstep, hroom]

/-- **What a complete sequence of sends puts on a stream.** -/
theorem exists_put (k : κ) (hrun : run step s actions = some t) (hdone : t.pending = []) :
    ∃ put, t.appended k = s.appended k ++ put ∧ Put k s actions put := by
  induction actions generalizing s with
  | nil =>
    obtain rfl : s = t := by simpa using hrun
    exact ⟨[], (List.append_nil _).symm, Put.nil hdone⟩
  | cons a actions ih =>
    obtain ⟨s', hstep, hrest⟩ := run_cons_eq_some.mp hrun
    obtain ⟨put, happended, hput⟩ := ih hrest
    cases a with
    | drain k' n =>
      obtain ⟨hpending, hsame⟩ := step_drain hstep
      exact ⟨put, by rw [happended, hsame], hput.skip hstep (by rw [hpending]) trivial trivial⟩
    | send =>
      obtain ⟨k', piece, hpending, htaken⟩ := step_send hstep
      by_cases hk : k' = k
      · subst hk
        refine ⟨_, ?_, hput.send hstep hpending⟩
        rw [happended, htaken, Function.update_self, List.append_assoc]
      · refine ⟨put, ?_, hput.skip hstep ?_ ?_ ?_⟩
        · rw [happended, htaken, Function.update_of_ne (Ne.symm hk)]
        · rw [hpending, select_cons_of_ne hk]
        · simp [Fits, hpending, hk]
        · simp [FindsNoRoom, hpending, hk]

/-- **Whole or nothing.** After all sends, a stream has got the whole message exactly if every
piece for it fitted, and nothing exactly if every piece for it found no room. -/
theorem appended_eq_iff (stream : κ → StreamBuffer α capacity) (message : Message κ α) (k : κ)
    (hrun : run step (start stream message) actions = some t) (hdone : t.pending = []) :
    (t.appended k = whole k message ↔ Along step (Fits k) (start stream message) actions) ∧
      (t.appended k = [] ↔ Along step (FindsNoRoom k) (start stream message) actions) := by
  obtain ⟨put, happended, hput⟩ := exists_put k hrun hdone
  rw [happended]
  exact ⟨⟨fun h => hput.fits_of_length (congrArg List.length h), fun h => (hput.eq_of_fits h).1⟩,
    hput.eq_nil_iff⟩

/-- A piece that fitted is not longer than the capacity. -/
theorem length_le_of_fits (stream : κ → StreamBuffer α capacity) (message : Message κ α)
    (hrun : run step (start stream message) actions = some t) (hdone : t.pending = [])
    (hfits : Along step (Fits k) (start stream message) actions) :
    ∀ piece ∈ select k message, piece.length ≤ capacity := by
  obtain ⟨put, _, hput⟩ := exists_put k hrun hdone
  exact (hput.eq_of_fits hfits).2

end Sending

end NixieVfdCentral
