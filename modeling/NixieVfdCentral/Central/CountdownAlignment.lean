import NixieVfdCentral.Central.Tasks

/-!
# Aligning the time sync to a countdown

`alignTimeSyncToCountdown` raises the flag `prepareForCountdown` and then notifies the time
task, which should wait for a full second before it sends again. The flag and the
notification are consumed at different points of the loop. They stay together unless the
loop clears the flag of a call whose notification has not ended a wait yet.
-/

namespace NixieVfdCentral.Central

open Runs

/-- The time task is inside one of the functions that send. -/
def EmitsTick (s : Central) : Prop :=
  s.time = .sampling ∨ s.time = .sendingTime ∨ s.time = .sendingSync

/-- An iteration that a notification has started does not send. -/
def NoTickOnNotification (s : Central) : Prop := s.EmitsTick → s.timedOut = true

/-- The flag is only cleared when no notification is pending and no call of
`alignTimeSyncToCountdown` is between its two steps. -/
def ClearsOnlyAnswered (s : Central) : Action → Prop
  | .clearPrepareForCountdown => s.notified = false ∧ s.mqtt ≠ .notifying
  | _ => True

instance (s : Central) : (a : Action) → Decidable (ClearsOnlyAnswered s a)
  | .clearPrepareForCountdown => inferInstanceAs (Decidable (_ ∧ _))
  | .dataCallback _ | .send _ | .returnFromCallback | .setPrepareForCountdown | .notify
  | .queueTimeSend | .delayReturns | .testPrepareForCountdown | .testShouldSendTime
  | .getLocaltime _ | .clearShouldSendTime | .returnFromTimeSync => .isTrue trivial

/-- The flag is up while a call of `alignTimeSyncToCountdown` has not been answered, and an
iteration that a notification has started goes no further than to clear it. -/
structure Aligned (s : Central) : Prop where
  notifying : s.mqtt = .notifying → s.prepareForCountdown = true
  notified : s.notified = true → s.prepareForCountdown = true
  woken : s.timedOut = false →
    s.time = .waiting ∨ s.time = .clearPrepareForCountdown ∨
      s.time = .testPrepareForCountdown ∧ s.prepareForCountdown = true

/-- At the start nothing has been notified, and the loop has not been woken by a notification. -/
theorem initial_aligned : Aligned initial where
  notifying := by simp [initial]
  notified := by simp [initial]
  woken := by simp [initial]

/-- Where the flag and the notification are aligned, an iteration that a notification has started
emits no tick. -/
theorem Aligned.noTickOnNotification {s : Central} (h : Aligned s) : NoTickOnNotification s := by
  intro hemits
  by_contra htimeout
  have htime := h.woken (by simpa using htimeout)
  rcases hemits with htime' | htime' | htime' <;> simp [htime'] at htime

variable {s s' : Central} {a : Action}

/-- One step keeps the flag and the notification together, if it clears only an answered flag. -/
theorem Aligned.step (h : Aligned s) (hguard : ClearsOnlyAnswered s a)
    (hstep : s.step a = some s') : Aligned s' := by
  obtain ⟨hnotifying, hnotified, hwoken⟩ := h
  cases a with
  | dataCallback event =>
    obtain ⟨_, rfl | ⟨_, _, _, rfl⟩⟩ := step_dataCallback hstep
    · exact ⟨hnotifying, hnotified, hwoken⟩
    · exact ⟨by simp, hnotified, hwoken⟩
  | send writer =>
    obtain ⟨tx, _, rfl⟩ := Option.map_eq_some_iff.mp hstep
    exact ⟨hnotifying, hnotified, hwoken⟩
  | returnFromCallback =>
    simp only [Central.step, Option.ite_none_right_eq_some] at hstep
    obtain rfl := Option.some.inj hstep.2
    exact ⟨by simp, hnotified, hwoken⟩
  | setPrepareForCountdown =>
    simp only [Central.step, Option.ite_none_right_eq_some] at hstep
    obtain rfl := Option.some.inj hstep.2
    refine ⟨fun _ => rfl, fun _ => rfl, fun htimeout => ?_⟩
    rcases hwoken htimeout with htime | htime | ⟨htime, _⟩
    · exact Or.inl htime
    · exact Or.inr (Or.inl htime)
    · exact Or.inr (Or.inr ⟨htime, rfl⟩)
  | notify =>
    simp only [Central.step, Option.ite_none_right_eq_some] at hstep
    obtain ⟨hposition, hstep⟩ := hstep
    obtain rfl := Option.some.inj hstep
    exact ⟨by simp, fun _ => hnotifying hposition, hwoken⟩
  | queueTimeSend =>
    obtain rfl := Option.some.inj hstep
    exact ⟨hnotifying, hnotified, hwoken⟩
  | delayReturns =>
    simp only [Central.step, Option.ite_none_right_eq_some] at hstep
    obtain rfl := Option.some.inj hstep.2
    refine ⟨hnotifying, by simp, fun htimeout => Or.inr (Or.inr ⟨rfl, hnotified ?_⟩)⟩
    simpa using htimeout
  | testPrepareForCountdown =>
    simp only [Central.step, Option.ite_none_right_eq_some] at hstep
    obtain ⟨hposition, hstep⟩ := hstep
    obtain rfl := Option.some.inj hstep
    refine ⟨hnotifying, hnotified, fun htimeout => ?_⟩
    rcases hwoken htimeout with htime | htime | ⟨_, hprepare⟩
    · simp [hposition] at htime
    · simp [hposition] at htime
    · exact Or.inr (Or.inl (by simp [hprepare]))
  | clearPrepareForCountdown =>
    simp only [Central.step, Option.ite_none_right_eq_some] at hstep
    obtain rfl := Option.some.inj hstep.2
    obtain ⟨hnone, hmqtt⟩ := hguard
    exact ⟨fun h => absurd h hmqtt, fun h => by simp [hnone] at h, fun _ => Or.inl rfl⟩
  | testShouldSendTime =>
    obtain ⟨hposition, hcases⟩ := step_testShouldSendTime hstep
    have htimeout : s.timedOut ≠ false := fun h => by
      have := hwoken h
      simp [hposition] at this
    rcases hcases with rfl | rfl
    · exact ⟨hnotifying, hnotified, fun h => absurd h htimeout⟩
    · exact ⟨hnotifying, hnotified, fun h => absurd h htimeout⟩
  | getLocaltime localTime =>
    simp only [Central.step, Option.ite_none_right_eq_some] at hstep
    obtain ⟨hposition, hstep⟩ := hstep
    obtain rfl := Option.some.inj hstep
    refine ⟨hnotifying, hnotified, fun htimeout => ?_⟩
    have := hwoken htimeout
    simp [hposition] at this
  | clearShouldSendTime | returnFromTimeSync =>
    simp only [Central.step, Option.ite_none_right_eq_some] at hstep
    obtain rfl := Option.some.inj hstep.2
    exact ⟨hnotifying, hnotified, fun _ => Or.inl rfl⟩

/-- **A notification emits no tick** in every run in which the loop clears the flag only
after the notification that belongs to it has ended a wait. -/
theorem noTickOnNotification_of_clearsOnlyAnswered (actions : List Action)
    (hguard : Along step ClearsOnlyAnswered initial actions) :
    Visited step NoTickOnNotification initial actions :=
  (hguard.visited (fun _ _ _ h hg hs => h.step hg hs) initial_aligned).mono
    fun _ h => h.noTickOnNotification

/-- The start of a countdown. -/
def countdownStart : MqttEvent where
  topic := TopicMainString ++ ascii ['c', 'o', 'u', 'n', 't', 'd', 'o', 'w', 'n']
  data := ascii ['s', 't', 'a', 'r', 't']

/-- The MQTT task handles the start of a countdown up to the alignment. -/
def forwardCountdownStart : List Action :=
  [.dataCallback countdownStart, .send .mqttTask, .send .mqttTask, .send .mqttTask,
    .send .mqttTask, .send .mqttTask, .send .mqttTask]

/-- The whole alignment falls between a timeout of the wait and the test of the flag. -/
def alignAfterTimeout : List Action :=
  forwardCountdownStart ++ [.delayReturns, .setPrepareForCountdown, .notify,
    .testPrepareForCountdown, .clearPrepareForCountdown, .delayReturns, .testPrepareForCountdown,
    .testShouldSendTime]

/-- The pending notification then ends the next wait at once, and a tick is sent. -/
theorem alignAfterTimeout_emits_tick :
    ¬Visited step NoTickOnNotification initial alignAfterTimeout := by
  intro hvisited
  have hrun : (run step initial alignAfterTimeout).map (fun s =>
      decide (s.time = .sendingSync ∧ s.timedOut = false)) = some true := by
    decide +kernel
  obtain ⟨s, hs, hdecide⟩ := Option.map_eq_some_iff.mp hrun
  obtain ⟨htime, htimeout⟩ := of_decide_eq_true hdecide
  have := hvisited.last hs (Or.inr (Or.inr htime))
  simp [htimeout] at this

/-- An alignment during a wait is answered, and the next tick follows a timeout. -/
theorem noTickOnNotification_alignDuringWait :
    Visited step NoTickOnNotification initial
      (forwardCountdownStart ++ [.setPrepareForCountdown, .notify, .delayReturns,
        .testPrepareForCountdown, .clearPrepareForCountdown, .delayReturns,
        .testPrepareForCountdown, .testShouldSendTime]) :=
  noTickOnNotification_of_clearsOnlyAnswered _ (by decide +kernel)

end NixieVfdCentral.Central
