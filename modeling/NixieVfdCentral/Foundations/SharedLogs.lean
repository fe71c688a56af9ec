import Mathlib.Data.Fintype.Defs
import Mathlib.Data.List.Basic
import Mathlib.Logic.Function.Basic

/-!
# Writers that share logs

Several writers append messages to several logs. A message is a list of pieces, each
bound for one of the logs, and the pieces are appended one at a time, so the messages of
different writers may mix. The first half of this file says when every log stays a
concatenation of whole messages, the second half when two logs that every message is
copied to stay equal. Neither condition asks for a lock, only for an order of the pieces.
-/

namespace NixieVfdCentral.SharedLogs

variable {ι κ α β : Type*} [DecidableEq ι] [DecidableEq κ]

/-! ### Entries with a key -/

/-- The values that stand under a key, in order. -/
def select (k : κ) (entries : List (κ × β)) : List β :=
  (entries.filter fun entry => entry.1 = k).map Prod.snd

/-- An empty log has no entries for any key. -/
@[simp] theorem select_nil (k : κ) : select k ([] : List (κ × β)) = [] := rfl

/-- The first entry comes first in the selection for its key. -/
theorem select_cons_self (k : κ) (x : β) (rest : List (κ × β)) :
    select k ((k, x) :: rest) = x :: select k rest := by
  simp [select]

/-- The first entry is left out of the selection for another key. -/
theorem select_cons_of_ne {k k' : κ} (h : k' ≠ k) (x : β) (rest : List (κ × β)) :
    select k ((k', x) :: rest) = select k rest := by
  simp [select, h]

/-- Selecting from a log in two parts is selecting from each of them. -/
@[simp] theorem select_append (k : κ) (first second : List (κ × β)) :
    select k (first ++ second) = select k first ++ select k second := by
  simp [select]

/-- The value of every entry is in the selection for its key. -/
theorem mem_select {entries : List (κ × β)} {entry : κ × β} (h : entry ∈ entries) :
    entry.2 ∈ select entry.1 entries :=
  List.mem_map_of_mem (List.mem_filter.mpr ⟨h, by simp⟩)

/-- An entry without a value under the key stands under another one. -/
theorem ne_of_select_eq_nil {k : κ} {entries : List (κ × β)} (h : select k entries = []) :
    ∀ entry ∈ entries, entry.1 ≠ k := by
  rintro entry hentry rfl
  have hmem := mem_select hentry
  rw [h] at hmem
  cases hmem

/-- If no entry has the key, nothing is selected for it. -/
theorem select_eq_nil {k : κ} {entries : List (κ × β)} (h : ∀ entry ∈ entries, entry.1 ≠ k) :
    select k entries = [] := by
  rw [select, List.filter_eq_nil_iff.mpr (by simpa using h), List.map_nil]

/-- A list without a value under any key is empty. -/
theorem eq_nil_of_select {entries : List (κ × β)} (h : ∀ k, select k entries = []) :
    entries = [] := by
  cases entries with
  | nil => rfl
  | cons entry rest => exact absurd rfl (ne_of_select_eq_nil (h entry.1) entry (by simp))

/-- When all entries stand under one key, selecting it keeps all values. -/
theorem select_eq_map {k : κ} {entries : List (κ × β)} (h : ∀ entry ∈ entries, entry.1 = k) :
    select k entries = entries.map Prod.snd := by
  rw [select, List.filter_eq_self.mpr (by simpa using h)]

/-- Selecting a key does not look at the values, so it goes along with any change of them. -/
theorem select_map {γ : Type*} (k : κ) (f : β → γ) (entries : List (κ × β)) :
    select k (entries.map fun entry => (entry.1, f entry.2)) = (select k entries).map f := by
  induction entries with
  | nil => rfl
  | cons entry rest ih =>
    obtain ⟨k', x⟩ := entry
    by_cases hk : k' = k
    · subst hk
      rw [List.map_cons, select_cons_self, select_cons_self, ih, List.map_cons]
    · rw [List.map_cons, select_cons_of_ne hk, select_cons_of_ne hk, ih]

/-- The values under a key in a beginning of the list are a beginning of all of them. -/
theorem prefix_select (k : κ) (n : ℕ) (entries : List (κ × β)) :
    select k (entries.take n) <+: select k entries := by
  conv_rhs => rw [← List.take_append_drop n entries, select_append]
  exact List.prefix_append _ _

/-! ### The logs -/

/-- The pieces of a message, each with the log it is appended to. -/
abbrev Message (κ α : Type*) := List (κ × List α)

/-- A whole message as it looks on one log. -/
def whole (k : κ) (m : Message κ α) : List α := (select k m).flatten

/-- The logs and what the writers are about to append. -/
structure State (ι κ α : Type*) where
  /-- The pieces on each log, with their writers. -/
  log : κ → List (ι × List α)
  /-- The messages each writer has begun, in order. -/
  begun : ι → List (Message κ α)
  /-- The pieces of its last message that a writer still has to append. -/
  pending : ι → Message κ α

namespace State

/-- Nothing is written and nothing begun. -/
def empty : State ι κ α := ⟨fun _ => [], fun _ => [], fun _ => []⟩

/-- A writer begins a message. -/
def start (s : State ι κ α) (i : ι) (m : Message κ α) : State ι κ α where
  log := s.log
  begun := Function.update s.begun i (s.begun i ++ [m])
  pending := Function.update s.pending i m

/-- A writer appends its next piece. -/
def send (s : State ι κ α) (i : ι) : Option (State ι κ α) :=
  match s.pending i with
  | [] => none
  | (k, piece) :: rest => some
    { s with
      log := Function.update s.log k (s.log k ++ [(i, piece)])
      pending := Function.update s.pending i rest }

/-- The content of a log. -/
def content (s : State ι κ α) (k : κ) : List α := (s.log k).flatMap Prod.snd

/-- No writer has a piece left to append. -/
def Quiet (s : State ι κ α) : Prop := ∀ i, s.pending i = []

/-- A writer has appended some of its last message to the log but not all of it. -/
def MidMessage (s : State ι κ α) (i : ι) (k : κ) : Prop :=
  select k (s.pending i) ≠ [] ∧
    (s.begun i).getLast?.map (select k) ≠ some (select k (s.pending i))

instance [DecidableEq α] (s : State ι κ α) (i : ι) (k : κ) : Decidable (s.MidMessage i k) :=
  inferInstanceAs (Decidable (_ ∧ _))

/-- The writer whose turn it is finds no other writer in the middle of a message on the
log its next piece goes to. -/
def Exclusive (s : State ι κ α) (i : ι) : Prop :=
  ∀ piece ∈ (s.pending i).head?, ∀ j, j ≠ i → ¬s.MidMessage j piece.1

instance [Fintype ι] [DecidableEq α] (s : State ι κ α) (i : ι) : Decidable (s.Exclusive i) :=
  inferInstanceAs (Decidable (∀ piece ∈ (s.pending i).head?, ∀ j, j ≠ i → ¬s.MidMessage j piece.1))

/-- If the next piece of the writer goes to `b`, then the piece at the same place on `a` is
the writer's as well. -/
def InTurn (a b : κ) (s : State ι κ α) (i : ι) : Prop :=
  (s.pending i).head?.map Prod.fst = some b →
    ((s.log a)[(s.log b).length]?).map Prod.fst = some i

instance (a b : κ) (s : State ι κ α) (i : ι) : Decidable (InTurn a b s i) :=
  inferInstanceAs (Decidable (_ → _))

variable {s s' : State ι κ α} {i : ι}

/-- Appending takes the next piece from its writer and puts it on its log. -/
theorem send_eq_some (h : s.send i = some s') :
    ∃ k piece rest, s.pending i = (k, piece) :: rest ∧ s' =
      { s with
        log := Function.update s.log k (s.log k ++ [(i, piece)])
        pending := Function.update s.pending i rest } := by
  unfold send at h
  cases hpending : s.pending i with
  | nil => simp [hpending] at h
  | cons piece rest =>
    rw [hpending] at h
    exact ⟨piece.1, piece.2, rest, rfl, (Option.some.inj h).symm⟩

end State

/-! ### Whole messages -/

/-- How far a writer has come on one log: `done` are the messages it has finished there,
and `sent` are the pieces it has appended of its last message, if that is not finished. -/
def Progress (k : κ) (begun : List (Message κ α)) (pending : Message κ α)
    (done : List (Message κ α)) (sent : List (List α)) : Prop :=
  (select k pending = [] ∧ begun = done ∧ sent = []) ∨
    ∃ m, select k pending ≠ [] ∧ begun = done ++ [m] ∧ select k m = sent ++ select k pending

/-- The log consists of the whole messages `done` and, behind them, of the pieces `tail`
that one writer has appended of its last message. Every writer's messages are in order. -/
structure WholeMessages (k : κ) (s : State ι κ α) (done : List (ι × Message κ α))
    (tail : List (ι × List α)) : Prop where
  progress : ∀ i, Progress k (s.begun i) (s.pending i) (select i done) (select i tail)
  alone : ∀ entry ∈ tail, ∀ other ∈ tail, other.1 = entry.1
  content_eq : s.content k = (done.flatMap fun entry => whole k entry.2) ++ tail.flatMap Prod.snd

namespace WholeMessages

open State

variable {k : κ} {s s' : State ι κ α} {i : ι} {done : List (ι × Message κ α)}
  {tail : List (ι × List α)}

/-- An empty log consists of no message, and of no beginning of one. -/
theorem empty : WholeMessages k (State.empty : State ι κ α) [] [] :=
  ⟨fun _ => Or.inl ⟨rfl, rfl, rfl⟩, by simp, rfl⟩

/-- A writer that is not in the middle of a message has no piece in the tail. -/
theorem select_tail_of_not_midMessage (h : WholeMessages k s done tail)
    (hmid : ¬s.MidMessage i k) : select i tail = [] := by
  rcases h.progress i with ⟨_, _, hsent⟩ | ⟨m, hpending, hbegun, hpieces⟩
  · exact hsent
  · by_contra hsent
    refine hmid ⟨hpending, ?_⟩
    rw [hbegun, List.getLast?_concat, Option.map_some, hpieces]
    intro heq
    exact hsent (List.append_left_eq_self.mp (Option.some.inj heq))

/-- Beginning a message keeps the log a sequence of whole messages. -/
theorem start (h : WholeMessages k s done tail) (hidle : s.pending i = []) (m : Message κ α) :
    ∃ done', WholeMessages k (s.start i m) done' tail := by
  have hi : s.begun i = select i done ∧ select i tail = [] := by
    rcases h.progress i with ⟨_, hbegun, hsent⟩ | ⟨_, hpending, _⟩
    · exact ⟨hbegun, hsent⟩
    · rw [hidle] at hpending
      exact absurd rfl hpending
  by_cases hpieces : select k m = []
  · -- nothing of the message goes to this log, so it is finished here at once
    refine ⟨done ++ [(i, m)], fun j => ?_, h.alone, ?_⟩
    · by_cases hj : j = i
      · subst hj
        refine Or.inl ⟨?_, ?_, hi.2⟩
        · simpa [State.start] using hpieces
        · simp [State.start, hi.1, select_cons_self]
      · simpa [State.start, Function.update_of_ne hj, select_cons_of_ne (Ne.symm hj)]
          using h.progress j
    · change s.content k = _
      rw [h.content_eq]
      simp [whole, hpieces]
  · refine ⟨done, fun j => ?_, h.alone, h.content_eq⟩
    by_cases hj : j = i
    · subst hj
      refine Or.inr ⟨m, ?_, ?_, ?_⟩
      · simpa [State.start] using hpieces
      · simp [State.start, hi.1]
      · simp [State.start, hi.2]
    · simpa [State.start, Function.update_of_ne hj] using h.progress j

/-- **A piece that is appended while no other writer is in the middle of a message** keeps
the log a sequence of whole messages. -/
theorem send (h : WholeMessages k s done tail) (hexclusive : s.Exclusive i)
    (hsend : s.send i = some s') : ∃ done' tail', WholeMessages k s' done' tail' := by
  obtain ⟨k', piece, rest, hpending, rfl⟩ := send_eq_some hsend
  by_cases hk : k' = k
  · subst hk
    have hothers : ∀ entry ∈ tail, entry.1 = i := by
      intro entry hentry
      by_contra hne
      have hquiet := hexclusive (k', piece) (by simp [hpending]) entry.1 hne
      exact ne_of_select_eq_nil (h.select_tail_of_not_midMessage hquiet) entry hentry rfl
    have hcontent : (⟨Function.update s.log k' (s.log k' ++ [(i, piece)]), s.begun,
        Function.update s.pending i rest⟩ : State ι κ α).content k' = s.content k' ++ piece := by
      simp [State.content]
    obtain ⟨m, hbegun, hpieces⟩ : ∃ m, s.begun i = select i done ++ [m] ∧
        select k' m = select i tail ++ piece :: select k' rest := by
      rcases h.progress i with ⟨hnone, _⟩ | ⟨m, _, hbegun, hpieces⟩
      · rw [hpending, select_cons_self] at hnone
        cases hnone
      · rw [hpending, select_cons_self] at hpieces
        exact ⟨m, hbegun, hpieces⟩
    by_cases hlast : select k' rest = []
    · -- the last piece on this log: the tail becomes a whole message
      refine ⟨done ++ [(i, m)], [], fun j => ?_, by simp, ?_⟩
      · by_cases hj : j = i
        · subst hj
          refine Or.inl ⟨?_, ?_, rfl⟩
          · simpa using hlast
          · simpa [select_cons_self] using hbegun
        · have hprogress := h.progress j
          have htail : select j tail = [] := by
            exact select_eq_nil fun entry hentry heq => hj (heq.symm.trans (hothers entry hentry))
          rw [htail] at hprogress
          simpa [Function.update_of_ne hj, select_cons_of_ne (Ne.symm hj)] using hprogress
      · rw [hcontent, h.content_eq, List.flatMap_append]
        simp [whole, hpieces, hlast, select_eq_map hothers, List.flatMap_def]
    · refine ⟨done, tail ++ [(i, piece)], fun j => ?_, ?_, ?_⟩
      · by_cases hj : j = i
        · subst hj
          refine Or.inr ⟨m, ?_, hbegun, ?_⟩
          · simpa using hlast
          · simpa [select_cons_self] using hpieces
        · simpa [Function.update_of_ne hj, select_cons_of_ne (Ne.symm hj)] using h.progress j
      · have hall : ∀ entry ∈ tail ++ [(i, piece)], entry.1 = i := by
          intro entry hentry
          rcases List.mem_append.mp hentry with hentry | hentry
          · exact hothers entry hentry
          · rw [List.mem_singleton.mp hentry]
        exact fun entry hentry other hother => (hall other hother).trans (hall entry hentry).symm
      · rw [hcontent, h.content_eq, List.flatMap_append, List.append_assoc]
        simp
  · -- the piece goes to another log
    refine ⟨done, tail, fun j => ?_, h.alone, ?_⟩
    · by_cases hj : j = i
      · subst hj
        have hprogress := h.progress j
        rw [hpending, Progress, select_cons_of_ne hk] at hprogress
        simpa [Progress] using hprogress
      · simpa [Function.update_of_ne hj] using h.progress j
    · rw [← h.content_eq]
      simp [State.content, Function.update_of_ne (Ne.symm hk)]

/-- The finished messages of a writer are a beginning of those it has begun. -/
theorem prefix_begun (h : WholeMessages k s done tail) (i : ι) :
    select i done <+: s.begun i := by
  rcases h.progress i with ⟨_, hbegun, _⟩ | ⟨m, _, hbegun, _⟩
  · exact hbegun ▸ List.prefix_refl _
  · rw [hbegun]
    exact List.prefix_append _ _

/-- **The log is the beginning of a concatenation of whole messages**, each writer's in the
order it began them. -/
theorem exists_messages (h : WholeMessages k s done tail) :
    ∃ messages : List (ι × Message κ α), (∀ i, select i messages <+: s.begun i) ∧
      s.content k <+: messages.flatMap fun entry => whole k entry.2 := by
  cases htail : tail with
  | nil =>
    have hcontent : s.content k = done.flatMap fun entry => whole k entry.2 := by
      rw [h.content_eq, htail, List.flatMap_nil, List.append_nil]
    exact ⟨done, h.prefix_begun, hcontent ▸ List.prefix_refl _⟩
  | cons entry rest =>
    -- all of the tail belongs to the last message of one writer
    have hmem : entry ∈ tail := by simp [htail]
    have hall : ∀ other ∈ tail, other.1 = entry.1 := h.alone entry hmem
    obtain ⟨m, hbegun, hpieces⟩ : ∃ m, s.begun entry.1 = select entry.1 done ++ [m] ∧
        select k m = select entry.1 tail ++ select k (s.pending entry.1) := by
      rcases h.progress entry.1 with ⟨_, _, hsent⟩ | ⟨m, _, hbegun, hpieces⟩
      · exact absurd rfl (ne_of_select_eq_nil hsent entry hmem)
      · exact ⟨m, hbegun, hpieces⟩
    refine ⟨done ++ [(entry.1, m)], fun i => ?_, ?_⟩
    · by_cases hi : i = entry.1
      · subst hi
        simp [hbegun, select_cons_self]
      · simpa [select_cons_of_ne (Ne.symm hi)] using h.prefix_begun i
    · rw [h.content_eq, List.flatMap_append, List.prefix_append_right_inj]
      simp [whole, hpieces, select_eq_map hall, List.flatMap_def]

/-- **When no writer is in the middle of a message**, the log consists of exactly the
messages that were begun, each writer's in the order it began them. -/
theorem of_quiet (h : WholeMessages k s done tail) (hquiet : s.Quiet) :
    (∀ i, select i done = s.begun i) ∧
      s.content k = done.flatMap fun entry => whole k entry.2 := by
  have hdone : ∀ i, s.begun i = select i done ∧ select i tail = [] := by
    intro i
    rcases h.progress i with ⟨_, hbegun, hsent⟩ | ⟨_, hpending, _⟩
    · exact ⟨hbegun, hsent⟩
    · rw [hquiet i] at hpending
      exact absurd rfl hpending
  refine ⟨fun i => (hdone i).1.symm, ?_⟩
  rw [h.content_eq, eq_nil_of_select fun i => (hdone i).2]
  simp

end WholeMessages

/-! ### Equal logs -/

/-- The log `b` is a beginning of the log `a`, and what each writer still has to append to
`b` is what `a` is ahead by and what the writer still has to append to `a`. -/
structure Mirrored (a b : κ) (s : State ι κ α) (ahead : List (ι × List α)) : Prop where
  log_eq : s.log a = s.log b ++ ahead
  pending_eq : ∀ i, select i ahead ++ select a (s.pending i) = select b (s.pending i)

namespace Mirrored

open State

variable {a b : κ} {s s' : State ι κ α} {i : ι} {ahead : List (ι × List α)}

/-- Two empty logs mirror each other, with nothing ahead. -/
theorem empty : Mirrored a b (State.empty : State ι κ α) [] :=
  ⟨rfl, fun _ => rfl⟩

/-- Beginning a message that goes to both logs alike keeps the logs mirrored. -/
theorem start (h : Mirrored a b s ahead) (hidle : s.pending i = []) {m : Message κ α}
    (hcopies : select a m = select b m) : Mirrored a b (s.start i m) ahead := by
  refine ⟨h.log_eq, fun j => ?_⟩
  by_cases hj : j = i
  · subst hj
    have hnothing := h.pending_eq j
    rw [hidle] at hnothing
    simp only [select_nil, List.append_nil] at hnothing
    simpa [State.start, hnothing] using hcopies
  · simpa [State.start, Function.update_of_ne hj] using h.pending_eq j

/-- **A piece appended in its turn** keeps the logs mirrored. -/
theorem send (hab : a ≠ b) (h : Mirrored a b s ahead) (hturn : InTurn a b s i)
    (hsend : s.send i = some s') : ∃ ahead', Mirrored a b s' ahead' := by
  obtain ⟨k, piece, rest, hpending, rfl⟩ := send_eq_some hsend
  have hi := h.pending_eq i
  rw [hpending] at hi
  by_cases hka : k = a
  · subst hka
    refine ⟨ahead ++ [(i, piece)], by simp [h.log_eq, Function.update_of_ne (Ne.symm hab)],
      fun j => ?_⟩
    by_cases hj : j = i
    · subst hj
      rw [select_cons_self, select_cons_of_ne hab] at hi
      simpa [select_cons_self] using hi
    · simpa [Function.update_of_ne hj, select_cons_of_ne (Ne.symm hj)] using h.pending_eq j
  · by_cases hkb : k = b
    · subst hkb
      -- the piece that `a` is ahead by first is this writer's, hence this very piece
      have hfirst := hturn (by simp [hpending])
      rw [h.log_eq, List.getElem?_append_right (Nat.le_refl _), Nat.sub_self] at hfirst
      cases ahead with
      | nil => simp at hfirst
      | cons entry ahead =>
        obtain ⟨j, piece'⟩ := entry
        obtain rfl : j = i := by simpa using hfirst
        rw [select_cons_self, select_cons_of_ne hka, select_cons_self, List.cons_append] at hi
        obtain ⟨rfl, hrest⟩ := List.cons.inj hi
        refine ⟨ahead, by simp [h.log_eq, Function.update_of_ne hab], fun l => ?_⟩
        by_cases hl : l = j
        · subst hl
          simpa using hrest
        · have hl' := h.pending_eq l
          rw [select_cons_of_ne (Ne.symm hl)] at hl'
          simpa [Function.update_of_ne hl] using hl'
    · refine ⟨ahead, ?_, fun j => ?_⟩
      · simpa [Function.update_of_ne (Ne.symm hka), Function.update_of_ne (Ne.symm hkb)]
          using h.log_eq
      · by_cases hj : j = i
        · subst hj
          rw [select_cons_of_ne hka, select_cons_of_ne hkb] at hi
          simpa using hi
        · simpa [Function.update_of_ne hj] using h.pending_eq j

/-- **When no writer is in the middle of a message**, mirrored logs are equal. -/
theorem of_quiet (h : Mirrored a b s ahead) (hquiet : s.Quiet) : s.log a = s.log b := by
  have hahead : ahead = [] := by
    refine eq_nil_of_select fun i => ?_
    have hi := h.pending_eq i
    rw [hquiet i] at hi
    simpa using hi
  rw [h.log_eq, hahead, List.append_nil]

end Mirrored

end NixieVfdCentral.SharedLogs
