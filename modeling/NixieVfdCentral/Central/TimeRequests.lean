import NixieVfdCentral.Central.Tasks

/-!
# Requests for the time

`queueTimeSend` raises a flag, and the loop of the time task clears it after it has sent
the time. A request that arrives after the local time was read and before the flag is
cleared is forgotten; this file proves that no other request is.
-/

namespace NixieVfdCentral.Central

open Runs

/-- For every request so far the flag is still up, or the local time was read after it. -/
def NoRequestLost (s : Central) : Prop :=
  ∀ sampled ∈ s.requests, s.shouldSendTime = true ∨ sampled = true

/-- The flag is only cleared when the local time was read after every request. -/
def ClearsOnlySampled (s : Central) (a : Action) : Prop :=
  a = .clearShouldSendTime → ∀ sampled ∈ s.requests, sampled = true

/-- Every action that clears the flag is preceded by one that reads the local time. -/
def SampleFirst (actions : List Action) : Prop :=
  ∀ before after, actions = before ++ .clearShouldSendTime :: after →
    ∃ localTime, Action.getLocaltime localTime ∈ before

/-- Between a request and any later clearing of the flag the local time is read. -/
def SampledAfterRequests (actions : List Action) : Prop :=
  ∀ before after, actions = before ++ .queueTimeSend :: after → SampleFirst after

variable {s s' : Central} {a : Action} {actions : List Action}

/-- Seen from the next action: it does not clear the flag, and it reads the local time unless that
is read first later. -/
theorem sampleFirst_cons :
    SampleFirst (a :: actions) ↔ a ≠ .clearShouldSendTime ∧
      ((∃ localTime, a = .getLocaltime localTime) ∨ SampleFirst actions) := by
  constructor
  · intro h
    refine ⟨fun ha => ?_, ?_⟩
    · obtain ⟨_, hmem⟩ := h [] actions (by rw [ha, List.nil_append])
      cases hmem
    · by_cases ha : ∃ localTime, a = .getLocaltime localTime
      · exact Or.inl ha
      · refine Or.inr fun before after hsplit => ?_
        obtain ⟨localTime, hmem⟩ := h (a :: before) after (by rw [hsplit, List.cons_append])
        rcases List.mem_cons.mp hmem with heq | hmem
        · exact absurd ⟨localTime, heq.symm⟩ ha
        · exact ⟨localTime, hmem⟩
  · rintro ⟨ha, hrest⟩ before after hsplit
    cases before with
    | nil => exact absurd (List.cons.inj hsplit).1 ha
    | cons first before =>
      obtain ⟨rfl, hactions⟩ := List.cons.inj hsplit
      rcases hrest with ⟨localTime, rfl⟩ | hrest
      · exact ⟨localTime, List.mem_cons_self⟩
      · obtain ⟨localTime, hmem⟩ := hrest before after hactions
        exact ⟨localTime, List.mem_cons_of_mem _ hmem⟩

/-- Seen from the next action: if it is a request, the local time is read first afterwards. -/
theorem sampledAfterRequests_cons :
    SampledAfterRequests (a :: actions) ↔
      (a = .queueTimeSend → SampleFirst actions) ∧ SampledAfterRequests actions := by
  constructor
  · intro h
    refine ⟨fun ha => h [] actions (by rw [ha, List.nil_append]), fun before after hsplit => ?_⟩
    exact h (a :: before) after (by rw [hsplit, List.cons_append])
  · rintro ⟨ha, hrest⟩ before after hsplit
    cases before with
    | nil =>
      obtain ⟨rfl, rfl⟩ := List.cons.inj hsplit
      exact ha rfl
    | cons first before => exact hrest before after (List.cons.inj hsplit).2

/-- **What one step does to the requests and to the flag.** -/
theorem step_requests (hstep : s.step a = some s') :
    (a = .queueTimeSend ∧ s'.shouldSendTime = true ∧ s'.requests = s.requests ++ [false]) ∨
      (∃ localTime, a = .getLocaltime localTime ∧ s'.shouldSendTime = s.shouldSendTime ∧
        s'.requests = s.requests.map fun _ => true) ∨
      (a = .clearShouldSendTime ∧ s'.shouldSendTime = false ∧ s'.requests = s.requests) ∨
      (a ≠ .queueTimeSend ∧ (∀ localTime, a ≠ .getLocaltime localTime) ∧
        a ≠ .clearShouldSendTime ∧ s'.shouldSendTime = s.shouldSendTime ∧
        s'.requests = s.requests) := by
  cases a with
  | queueTimeSend =>
    obtain rfl := Option.some.inj hstep
    exact Or.inl ⟨rfl, rfl, rfl⟩
  | getLocaltime localTime =>
    simp only [step, Option.ite_none_right_eq_some] at hstep
    obtain rfl := Option.some.inj hstep.2
    exact Or.inr (Or.inl ⟨localTime, rfl, rfl, rfl⟩)
  | clearShouldSendTime =>
    simp only [step, Option.ite_none_right_eq_some] at hstep
    obtain rfl := Option.some.inj hstep.2
    exact Or.inr (Or.inr (Or.inl ⟨rfl, rfl, rfl⟩))
  | dataCallback event =>
    refine Or.inr (Or.inr (Or.inr ⟨by simp, by simp, by simp, ?_⟩))
    obtain ⟨_, rfl | ⟨_, _, _, rfl⟩⟩ := step_dataCallback hstep
    · exact ⟨rfl, rfl⟩
    · exact ⟨rfl, rfl⟩
  | send writer =>
    obtain ⟨tx, _, rfl⟩ := Option.map_eq_some_iff.mp hstep
    exact Or.inr (Or.inr (Or.inr ⟨by simp, by simp, by simp, rfl, rfl⟩))
  | testShouldSendTime =>
    refine Or.inr (Or.inr (Or.inr ⟨by simp, by simp, by simp, ?_⟩))
    obtain ⟨_, rfl | rfl⟩ := step_testShouldSendTime hstep
    · exact ⟨rfl, rfl⟩
    · exact ⟨rfl, rfl⟩
  | returnFromCallback | setPrepareForCountdown | notify | delayReturns | testPrepareForCountdown
  | clearPrepareForCountdown | returnFromTimeSync =>
    simp only [step, Option.ite_none_right_eq_some] at hstep
    obtain rfl := Option.some.inj hstep.2
    exact Or.inr (Or.inr (Or.inr ⟨by simp, by simp, by simp, rfl, rfl⟩))

/-- A step loses no request exactly when it does not clear the flag over an unanswered one. -/
theorem noRequestLost_step_iff (h : NoRequestLost s) (hstep : s.step a = some s') :
    NoRequestLost s' ↔ ClearsOnlySampled s a := by
  unfold NoRequestLost ClearsOnlySampled at *
  rcases step_requests hstep with ⟨rfl, hflag, _⟩ | ⟨localTime, rfl, _, hrequests⟩ |
    ⟨rfl, hflag, hrequests⟩ | ⟨_, _, hclear, hflag, hrequests⟩
  · simp [hflag]
  · simp [hrequests]
  · simp [hflag, hrequests]
  · rw [hflag, hrequests]
    exact ⟨fun _ ha => absurd ha hclear, fun _ => h⟩

/-- Whether the flag is only cleared over answered requests can be read off the order of
the actions and the requests that are unanswered at the start. -/
theorem along_clearsOnlySampled_iff {t : Central} (hrun : run step s actions = some t) :
    Along step ClearsOnlySampled s actions ↔
      (false ∈ s.requests → SampleFirst actions) ∧ SampledAfterRequests actions := by
  induction actions generalizing s with
  | nil => simp [Along, SampleFirst, SampledAfterRequests]
  | cons a actions ih =>
    obtain ⟨s', hstep, hrest⟩ := run_cons_eq_some.mp hrun
    have halong : Along step ClearsOnlySampled s (a :: actions) ↔
        ClearsOnlySampled s a ∧ Along step ClearsOnlySampled s' actions := by
      simp [Along, hstep]
    rw [halong, ih hrest, sampleFirst_cons, sampledAfterRequests_cons]
    have hunanswered : (∀ sampled ∈ s.requests, sampled = true) ↔ false ∉ s.requests := by
      simp
    unfold ClearsOnlySampled
    rw [hunanswered]
    rcases step_requests hstep with ⟨rfl, _, hrequests⟩ | ⟨localTime, rfl, _, hrequests⟩ |
      ⟨rfl, _, hrequests⟩ | ⟨hqueue, hsample, hclear, _, hrequests⟩
    · have hmem : false ∈ s'.requests := by simp [hrequests]
      constructor
      · rintro ⟨_, hfirst, hlater⟩
        exact ⟨fun _ => ⟨by simp, Or.inr (hfirst hmem)⟩, fun _ => hfirst hmem, hlater⟩
      · rintro ⟨_, hfirst, hlater⟩
        exact ⟨by simp, fun _ => hfirst rfl, hlater⟩
    · simp [hrequests]
    · constructor
      · rintro ⟨hanswered, _, hlater⟩
        exact ⟨fun hmem => absurd hmem (hanswered rfl), by simp, hlater⟩
      · rintro ⟨hfirst, _, hlater⟩
        have hanswered : false ∉ s.requests := fun hmem => (hfirst hmem).1 rfl
        exact ⟨fun _ => hanswered, fun hmem => absurd (hrequests ▸ hmem) hanswered, hlater⟩
    · simp [hrequests, hqueue, hsample, hclear]

/-- **No request for the time is lost** in a run exactly when between every request and any
later clearing of the flag the local time is read. -/
theorem noRequestLost_iff_sampledAfterRequests (actions : List Action) (s : Central)
    (hrun : run step initial actions = some s) :
    Visited step NoRequestLost initial actions ↔
      ∀ before between after,
        actions = before ++ .queueTimeSend :: (between ++ .clearShouldSendTime :: after) →
        ∃ localTime, Action.getLocaltime localTime ∈ between := by
  have hexact : Visited step NoRequestLost initial actions ↔
      Along step ClearsOnlySampled initial actions :=
    visited_iff_along (fun _ => True) (fun _ _ _ _ _ => trivial)
      (fun _ _ _ _ h hstep => noRequestLost_step_iff h hstep) trivial
      (by simp [NoRequestLost, initial]) hrun
  rw [hexact, along_clearsOnlySampled_iff hrun]
  constructor
  · rintro ⟨_, h⟩ before between after hsplit
    exact h before _ hsplit between after rfl
  · intro h
    refine ⟨by simp [initial], fun before after hsplit between rest hafter => ?_⟩
    exact h before between rest (by rw [hsplit, hafter])

/-- The time task answers a request, and a second one arrives while it is sending. -/
def requestWhileSending : List Action :=
  [.queueTimeSend, .delayReturns, .testPrepareForCountdown, .testShouldSendTime,
    .getLocaltime ⟨12, 0, 0⟩, .send .timeTask, .send .timeTask, .send .timeTask, .queueTimeSend,
    .send .timeTask, .send .timeTask, .send .timeTask, .clearShouldSendTime]

/-- The second request, made between the reading of the local time and the clearing of the flag, is
lost. -/
theorem requestWhileSending_lost : ¬Visited step NoRequestLost initial requestWhileSending := by
  intro hvisited
  have hrun : (run step initial requestWhileSending).map (fun s =>
      decide (false ∈ s.requests ∧ s.shouldSendTime = false)) = some true := by
    decide +kernel
  obtain ⟨s, hs, hdecide⟩ := Option.map_eq_some_iff.mp hrun
  obtain ⟨hunanswered, hflag⟩ := of_decide_eq_true hdecide
  rcases hvisited.last hs false hunanswered with h | h
  · simp [hflag] at h
  · cases h

/-- The equivalence, on the run that loses a request between the reading of the time and the
clearing of the flag. -/
theorem noRequestLost_iff_requestWhileSending :
    ∃ s, run step initial requestWhileSending = some s ∧
      (Visited step NoRequestLost initial requestWhileSending ↔
        ∀ before between after, requestWhileSending =
            before ++ .queueTimeSend :: (between ++ .clearShouldSendTime :: after) →
          ∃ localTime, Action.getLocaltime localTime ∈ between) := by
  have henabled : (run step initial requestWhileSending).isSome = true := by
    decide +kernel
  obtain ⟨s, hs⟩ := Option.isSome_iff_exists.mp henabled
  exact ⟨s, hs, noRequestLost_iff_sampledAfterRequests _ s hs⟩

end NixieVfdCentral.Central
