import Mathlib.Data.List.Basic

/-!
# Runs of a guarded transition system

A system is given by a partial step function: `step s a = none` says that the
action `a` is not enabled in `s`. A run executes a finite list of actions, so an
interleaving of several tasks is one such list. The two predicates `Visited` and
`Along` speak about the states a run passes through and about the steps it takes;
the rules below turn facts about one step into facts about every run.
-/

namespace NixieVfdCentral.Runs

variable {σ α : Type*}

/-- The state after a list of actions, if every action was enabled in its turn. -/
def run (step : σ → α → Option σ) : σ → List α → Option σ
  | s, [] => some s
  | s, a :: actions => (step s a).bind fun s' => run step s' actions

/-- `P` holds in every state the actions pass through, the first and the last included. -/
def Visited (step : σ → α → Option σ) (P : σ → Prop) : σ → List α → Prop
  | s, [] => P s
  | s, a :: actions => P s ∧ ∀ s', step s a = some s' → Visited step P s' actions

/-- `G` holds of every action together with the state in which it is taken. -/
def Along (step : σ → α → Option σ) (G : σ → α → Prop) : σ → List α → Prop
  | _, [] => True
  | s, a :: actions => G s a ∧ ∀ s', step s a = some s' → Along step G s' actions

instance Along.decidable (step : σ → α → Option σ) (G : σ → α → Prop)
    [∀ s a, Decidable (G s a)] (s : σ) : (actions : List α) → Decidable (Along step G s actions)
  | [] => .isTrue trivial
  | a :: actions =>
    match h : step s a with
    | none => decidable_of_iff (G s a) (by simp [Along, h])
    | some s' =>
      have := Along.decidable step G s' actions
      decidable_of_iff (G s a ∧ Along step G s' actions) (by simp [Along, h])

variable {step : σ → α → Option σ} {P Inv : σ → Prop} {G : σ → α → Prop}

/-- A run without actions stays in the state in which it begins. -/
@[simp] theorem run_nil (s : σ) : run step s [] = some s := rfl

/-- A nonempty run is a first step followed by a run from the state it reaches. -/
theorem run_cons_eq_some {s t : σ} {a : α} {actions : List α} :
    run step s (a :: actions) = some t ↔
      ∃ s', step s a = some s' ∧ run step s' actions = some t := by
  simp [run, Option.bind_eq_some_iff]

/-- A guard holds along a run if it holds of the first step and along the rest. -/
theorem along_cons_iff {s s' : σ} {a : α} {actions : List α} (hstep : step s a = some s') :
    Along step G s (a :: actions) ↔ G s a ∧ Along step G s' actions := by
  refine and_congr_right fun _ => ⟨fun h => h s' hstep, fun h u hu => ?_⟩
  obtain rfl : s' = u := Option.some.inj (hstep.symm.trans hu)
  exact h

/-- What holds in every visited state holds in the last one. -/
theorem Visited.last {s t : σ} {actions : List α} (hvisited : Visited step P s actions)
    (hrun : run step s actions = some t) : P t := by
  induction actions generalizing s with
  | nil =>
    obtain rfl : s = t := by simpa using hrun
    exact hvisited
  | cons a actions ih =>
    obtain ⟨s', hstep, hrest⟩ := run_cons_eq_some.mp hrun
    exact ih (hvisited.2 s' hstep) hrest

/-- Pointwise stronger state predicates are visited whenever the weaker ones are. -/
theorem Visited.mono {Q : σ → Prop} (hPQ : ∀ s, P s → Q s) {s : σ} {actions : List α}
    (hvisited : Visited step P s actions) : Visited step Q s actions := by
  induction actions generalizing s with
  | nil => exact hPQ s hvisited
  | cons a actions ih => exact ⟨hPQ s hvisited.1, fun s' hstep => ih (hvisited.2 s' hstep)⟩

/-- **The guarded invariant rule.** What the first state satisfies and every step
taken under the guard preserves holds in every state of a run whose steps all meet the guard. -/
theorem Along.visited (hstep : ∀ s a s', Inv s → G s a → step s a = some s' → Inv s') {s : σ}
    {actions : List α} (hstart : Inv s) (hguard : Along step G s actions) :
    Visited step Inv s actions := by
  induction actions generalizing s with
  | nil => exact hstart
  | cons a actions ih =>
    exact ⟨hstart, fun s' hs' => ih (hstep s a s' hstart hguard.1 hs') (hguard.2 s' hs')⟩

/-- The guarded invariant rule, read at the end of the run. -/
theorem Along.invariant (Inv : σ → Prop)
    (hstep : ∀ s a s', Inv s → G s a → step s a = some s' → Inv s') {s t : σ}
    {actions : List α} (hstart : Inv s) (hguard : Along step G s actions)
    (hrun : run step s actions = some t) : Inv t :=
  (hguard.visited hstep hstart).last hrun

/-- A guard that asks nothing holds along every run. -/
theorem along_of_forall (h : ∀ s a, G s a) (s : σ) (actions : List α) : Along step G s actions := by
  induction actions generalizing s with
  | nil => trivial
  | cons a actions ih => exact ⟨h s a, fun s' _ => ih s'⟩

/-- A guard that every action of the list meets in every state holds along the run. -/
theorem along_of_forall_mem {s : σ} {actions : List α} (h : ∀ s, ∀ a ∈ actions, G s a) :
    Along step G s actions := by
  induction actions generalizing s with
  | nil => trivial
  | cons a actions ih =>
    exact ⟨h s a List.mem_cons_self,
      fun s' _ => ih fun t b hb => h t b (List.mem_cons_of_mem a hb)⟩

/-- **The invariant rule.** What every step preserves holds in every visited state. -/
theorem visited_of_invariant (hstep : ∀ s a s', Inv s → step s a = some s' → Inv s') {s : σ}
    (hstart : Inv s) (actions : List α) : Visited step Inv s actions :=
  Along.visited (G := fun _ _ => True) (fun s a s' hs _ => hstep s a s' hs) hstart
    (along_of_forall (fun _ _ => trivial) s actions)

/-- The invariant rule, read at the end of the run. -/
theorem invariant_of_run (Inv : σ → Prop)
    (hstep : ∀ s a s', Inv s → step s a = some s' → Inv s') {s t : σ}
    {actions : List α} (hstart : Inv s) (hrun : run step s actions = some t) : Inv t :=
  (visited_of_invariant hstep hstart actions).last hrun

/-- **The exactness rule.** If a step from a good state leads to a good state precisely
when it meets the guard, then a run stays good precisely when all its steps meet the guard. -/
theorem visited_iff_along (Inv : σ → Prop)
    (hinv : ∀ s a s', Inv s → step s a = some s' → Inv s')
    (hexact : ∀ s a s', Inv s → P s → step s a = some s' → (P s' ↔ G s a)) {s t : σ}
    {actions : List α} (hstart : Inv s) (hgood : P s) (hrun : run step s actions = some t) :
    Visited step P s actions ↔ Along step G s actions := by
  induction actions generalizing s with
  | nil => exact ⟨fun _ => trivial, fun _ => hgood⟩
  | cons a actions ih =>
    obtain ⟨s', hs', hrest⟩ := run_cons_eq_some.mp hrun
    have hkey := hexact s a s' hstart hgood hs'
    have hstart' := hinv s a s' hstart hs'
    constructor
    · rintro ⟨_, hvisited⟩
      have hgood' : P s' := by
        have := hvisited s' hs'
        cases actions with
        | nil => exact this
        | cons => exact this.1
      refine ⟨hkey.mp hgood', fun u hu => ?_⟩
      obtain rfl : s' = u := Option.some.inj (hs'.symm.trans hu)
      exact (ih hstart' hgood' hrest).mp (hvisited s' hs')
    · rintro ⟨hguard, halong⟩
      refine ⟨hgood, fun u hu => ?_⟩
      obtain rfl : s' = u := Option.some.inj (hs'.symm.trans hu)
      exact (ih hstart' (hkey.mpr hguard) hrest).mpr (halong s' hs')

/-- Two guards that agree on every step from a state with the invariant hold along the
same runs. -/
theorem along_iff_along {H : σ → α → Prop} (Inv : σ → Prop)
    (hinv : ∀ s a s', Inv s → step s a = some s' → Inv s')
    (hagree : ∀ s a s', Inv s → step s a = some s' → (G s a ↔ H s a)) {s t : σ}
    {actions : List α} (hstart : Inv s) (hrun : run step s actions = some t) :
    Along step G s actions ↔ Along step H s actions := by
  induction actions generalizing s with
  | nil => exact Iff.rfl
  | cons a actions ih =>
    obtain ⟨s', hs', hrest⟩ := run_cons_eq_some.mp hrun
    rw [along_cons_iff hs', along_cons_iff hs', hagree s a s' hstart hs',
      ih (hinv s a s' hstart hs') hrest]

/-! ### What has happened -/

/-- A run of the actions passes through a state with `P`. -/
def Passes (step : σ → α → Option σ) (P : σ → Prop) (s : σ) (actions : List α) : Prop :=
  ∃ before after t, actions = before ++ after ∧ run step s before = some t ∧ P t

/-- What a run has passed through, it has still passed through when it goes on. -/
theorem Passes.append {s : σ} {actions : List α} (h : Passes step P s actions)
    (more : List α) : Passes step P s (actions ++ more) := by
  obtain ⟨before, after, t, rfl, hrun, ht⟩ := h
  exact ⟨before, after ++ more, t, List.append_assoc .., hrun, ht⟩

/-- A run passes through its last state, so it passes through `P` if that state has it. -/
theorem Passes.last {s t : σ} {actions : List α} (hrun : run step s actions = some t) (ht : P t) :
    Passes step P s actions :=
  ⟨actions, [], t, (List.append_nil _).symm, hrun, ht⟩

/-- A run that is followed by one more step is a run with one more action. -/
theorem run_concat {s t u : σ} {actions : List α} {a : α} (hrun : run step s actions = some t)
    (hstep : step t a = some u) : run step s (actions ++ [a]) = some u := by
  induction actions generalizing s with
  | nil =>
    obtain rfl : s = t := by simpa using hrun
    simp [run, hstep]
  | cons b actions ih =>
    obtain ⟨s', hs', hrest⟩ := run_cons_eq_some.mp hrun
    exact run_cons_eq_some.mpr ⟨s', hs', ih hrest⟩

/-- **The history rule.** What holds of the first state with no action taken, and what every step
preserves when its action is added to the history, holds at the end of every run of the actions
taken. -/
theorem invariant_of_history (Inv : List α → σ → Prop)
    (hstep : ∀ history s a s', Inv history s → step s a = some s' → Inv (history ++ [a]) s')
    {s t : σ} {actions : List α} (hstart : Inv [] s) (hrun : run step s actions = some t) :
    Inv actions t := by
  suffices h : ∀ history s, Inv history s → run step s actions = some t →
      Inv (history ++ actions) t by
    simpa using h [] s hstart hrun
  clear hstart hrun
  induction actions with
  | nil =>
    intro history s hs hrun
    obtain rfl : s = t := by simpa using hrun
    simpa using hs
  | cons a actions ih =>
    intro history s hs hrun
    obtain ⟨s', hs', hrest⟩ := run_cons_eq_some.mp hrun
    simpa using ih (history ++ [a]) s' (hstep history s a s' hs hs') hrest

end NixieVfdCentral.Runs
