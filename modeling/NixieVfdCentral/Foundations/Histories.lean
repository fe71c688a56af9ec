import Mathlib.Data.List.DropRight

/-!
# Flags and counters as functions of the history

A flag that some events set and others clear, and a counter that some events advance and others
reset, are functions of the events so far. The rules below say how the two change when one event
is added, so an implementation that updates a flag or a counter at every event is compared with
the history one event at a time. A log that records a value with every event is read in the
same way: each value belongs to the events before it.
-/

namespace NixieVfdCentral.Histories

variable {ε β : Type*}

/-- Some event has set the flag, and no event since has cleared it. -/
def HoldsSince (sets clears : ε → Prop) (history : List ε) : Prop :=
  ∃ before e after, history = before ++ e :: after ∧ sets e ∧ ∀ x ∈ after, ¬clears x

/-- How often an event has counted since the last one that resets. -/
def countSince (counts resets : ε → Bool) (history : List ε) : ℕ :=
  (history.rtakeWhile fun e => !resets e).countP counts

/-- Every value in the log belongs to the events before it. -/
def Recorded (belongs : List (ε × β) → β → Prop) (log : List (ε × β)) : Prop :=
  ∀ before e value after, log = before ++ (e, value) :: after → belongs before value

variable {sets clears : ε → Prop} {counts resets : ε → Bool} {history : List ε} {e : ε}

/-- An event of a history that goes on by one is the new event, or was there before. -/
theorem concat_eq_append_cons {x : ε} {before after : List ε} :
    history ++ [e] = before ++ x :: after ↔ history = before ∧ e = x ∧ after = [] ∨
      ∃ rest, history = before ++ x :: rest ∧ after = rest ++ [e] := by
  constructor
  · intro heq
    rcases List.eq_nil_or_concat after with rfl | ⟨rest, last, rfl⟩
    · obtain ⟨hbefore, hlast⟩ := List.append_inj' heq rfl
      exact Or.inl ⟨hbefore, List.singleton_inj.mp hlast, rfl⟩
    · rw [List.concat_eq_append] at heq ⊢
      rw [← List.cons_append, ← List.append_assoc] at heq
      obtain ⟨hbefore, hlast⟩ := List.append_inj' heq rfl
      rw [List.singleton_inj.mp hlast]
      exact Or.inr ⟨rest, hbefore, rfl⟩
  · rintro (⟨rfl, rfl, rfl⟩ | ⟨rest, rfl, rfl⟩)
    · rfl
    · simp

/-- Without any event the flag is not set. -/
@[simp] theorem not_holdsSince_nil : ¬HoldsSince sets clears [] := by
  rintro ⟨before, e, after, hnil, _⟩
  simp at hnil

/-- **One more event** sets the flag, or leaves it set unless it clears it. -/
theorem holdsSince_concat : HoldsSince sets clears (history ++ [e]) ↔
    sets e ∨ HoldsSince sets clears history ∧ ¬clears e := by
  constructor
  · rintro ⟨before, x, after, heq, hsets, hafter⟩
    rcases concat_eq_append_cons.mp heq with ⟨_, rfl, _⟩ | ⟨rest, hhistory, rfl⟩
    · exact Or.inl hsets
    · have hrest : ∀ y ∈ rest, ¬clears y := fun y hy => hafter y (List.mem_append_left _ hy)
      exact Or.inr ⟨⟨before, x, rest, hhistory, hsets, hrest⟩, hafter e (by simp)⟩
  · rintro (hsets | ⟨⟨before, x, after, rfl, hsets, hafter⟩, hclears⟩)
    · exact ⟨history, e, [], rfl, hsets, by simp⟩
    · refine ⟨before, x, after ++ [e], by simp, hsets, fun y hy => ?_⟩
      rcases List.mem_append.mp hy with hy | hy
      · exact hafter y hy
      · rw [List.mem_singleton.mp hy]
        exact hclears

/-- A flag read off the images of the events, which sets no less and clears no more. -/
theorem HoldsSince.map {sets' clears' : β → Prop} {f : ε → β}
    (h : HoldsSince sets clears history) (hsets : ∀ x, sets x → sets' (f x))
    (hclears : ∀ x, clears' (f x) → clears x) : HoldsSince sets' clears' (history.map f) := by
  obtain ⟨before, e, after, rfl, hset, hafter⟩ := h
  refine ⟨before.map f, f e, after.map f, by simp, hsets e hset, ?_⟩
  rintro _ hy
  obtain ⟨x, hx, rfl⟩ := List.mem_map.mp hy
  exact fun hclear => hafter x hx (hclears x hclear)

/-- A flag that is set stays set while none of the further events clears it. -/
theorem HoldsSince.append {more : List ε} (h : HoldsSince sets clears history)
    (hmore : ∀ x ∈ more, ¬clears x) : HoldsSince sets clears (history ++ more) := by
  obtain ⟨before, e, after, rfl, hset, hafter⟩ := h
  refine ⟨before, e, after ++ more, by simp, hset, fun x hx => ?_⟩
  exact (List.mem_append.mp hx).elim (hafter x) (hmore x)

/-- A flag is set when the last of the events that concern it has set it. -/
theorem holdsSince_iff_getLast? {concerns : ε → Bool}
    (hconcerns : ∀ x, concerns x = true ↔ sets x ∨ clears x) : HoldsSince sets clears history ↔
      ∃ e, (history.filter concerns).getLast? = some e ∧ sets e := by
  induction history using List.reverseRecOn with
  | nil => simp
  | append_singleton history e ih =>
    rw [holdsSince_concat, List.filter_append, ih]
    by_cases hconcern : concerns e = true
    · have hlast : (history.filter concerns ++ [e].filter concerns).getLast? = some e := by
        simp [hconcern]
      rw [hlast]
      constructor
      · rintro (hset | ⟨_, hclear⟩)
        · exact ⟨e, rfl, hset⟩
        · exact ⟨e, rfl, ((hconcerns e).mp hconcern).resolve_right hclear⟩
      · rintro ⟨_, heq, hset⟩
        exact Or.inl (Option.some.inj heq ▸ hset)
    · have hnone : ¬sets e ∧ ¬clears e := not_or.mp (mt (hconcerns e).mpr hconcern)
      simp [hconcern, hnone]

/-- In an empty history nothing has counted. -/
@[simp] theorem countSince_nil : countSince counts resets ([] : List ε) = 0 := rfl

/-- **One more event** starts the counter again or counts once more. -/
theorem countSince_concat : countSince counts resets (history ++ [e]) =
    if resets e then 0 else countSince counts resets history + if counts e then 1 else 0 := by
  cases hresets : resets e <;>
    simp [countSince, hresets, List.countP_append, List.countP_singleton]

/-- In an empty log there is no value that could fail to belong to the events before it. -/
theorem recorded_nil {belongs : List (ε × β) → β → Prop} : Recorded belongs [] := by
  intro before e value after hnil
  simp at hnil

/-- **One more entry**, whose value belongs to the log so far. -/
theorem Recorded.concat {belongs : List (ε × β) → β → Prop} {log : List (ε × β)}
    (h : Recorded belongs log) {value : β} (hvalue : belongs log value) :
    Recorded belongs (log ++ [(e, value)]) := by
  intro before x v after heq
  rcases concat_eq_append_cons.mp heq with ⟨rfl, hentry, _⟩ | ⟨rest, hlog, _⟩
  · rw [← (Prod.mk.inj hentry).2]
    exact hvalue
  · exact h before x v rest hlog

end NixieVfdCentral.Histories
