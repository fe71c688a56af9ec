import Mathlib.Data.Finset.Insert
import NixieVfdCentral.Central.Messages
import NixieVfdCentral.Foundations.Runs

/-!
# The MQTT task and the time task

The MQTT task runs `MqttClient::dataCallback` for every data event, and the time task
runs the loop of `TimeSource::taskMain`. They share the two transmit streams and the flag
`prepareForCountdown`, and anyone may call `TimeSource::queueTimeSend`. An action is one
step of one task at the granularity of single accesses to what is shared, so a list of
actions is an interleaving. Every `send` takes all its bytes.
-/

namespace NixieVfdCentral

open Runs SharedLogs

/-- The tasks that write to the transmit streams. -/
inductive Writer
  /-- The task that runs `MqttClient::dataCallback`. -/
  | mqttTask
  /-- The task that runs `TimeSource::taskMain`. -/
  | timeTask
  deriving DecidableEq

instance : Fintype Writer where
  elems := {.mqttTask, .timeTask}
  complete writer := by cases writer <;> simp

/-- Where the MQTT task stands. -/
inductive MqttPosition
  /-- Outside `dataCallback`. -/
  | idle
  /-- Sending; whether `alignTimeSyncToCountdown` is called afterwards. -/
  | sending (aligns : Bool)
  /-- In `alignTimeSyncToCountdown`, before `notify`. -/
  | notifying
  deriving DecidableEq

/-- Where the time task stands in its loop. -/
inductive TimePosition
  /-- In `delayUntilEventOrTimeout`. -/
  | waiting
  /-- Before the test of `prepareForCountdown`. -/
  | testPrepareForCountdown
  /-- Before `prepareForCountdown` is cleared. -/
  | clearPrepareForCountdown
  /-- Before the test of `shouldSendTime`. -/
  | testShouldSendTime
  /-- In `sendTimePerUart`, before `getLocaltime`. -/
  | sampling
  /-- In `sendTimePerUart`, sending, and then before `shouldSendTime` is cleared. -/
  | sendingTime
  /-- In `sendTimeSync`. -/
  | sendingSync
  deriving DecidableEq

/-- The state the tasks share, their positions, and the history that statements about
runs speak of. -/
structure Central where
  /-- The transmit streams with everything sent so far, and the sends still to be done. -/
  tx : State Writer TxStream UInt8
  /-- Where the MQTT task stands. -/
  mqtt : MqttPosition
  /-- Where the time task stands. -/
  time : TimePosition
  /-- `TimeSource::shouldSendTime`. -/
  shouldSendTime : Bool
  /-- `TimeSource::prepareForCountdown`. -/
  prepareForCountdown : Bool
  /-- A notification for the time task is pending. -/
  notified : Bool
  /-- What `delayUntilEventOrTimeout` returned last; the loop does not look at it. -/
  timedOut : Bool
  /-- For every call of `queueTimeSend` so far, whether the local time was read after it. -/
  requests : List Bool

namespace Central

/-- Nothing is sent yet, and the time task is in its first wait. -/
def initial : Central where
  tx := .empty
  mqtt := .idle
  time := .waiting
  shouldSendTime := false
  prepareForCountdown := false
  notified := false
  timedOut := true
  requests := []

/-- The steps of the tasks. -/
inductive Action
  /-- The MQTT task enters `dataCallback`. -/
  | dataCallback (event : MqttEvent)
  /-- A task performs its next `send`. -/
  | send (writer : Writer)
  /-- The MQTT task leaves `dataCallback` after its sends. -/
  | returnFromCallback
  /-- First step of `alignTimeSyncToCountdown`. -/
  | setPrepareForCountdown
  /-- Second step of `alignTimeSyncToCountdown`. -/
  | notify
  /-- `queueTimeSend`, called by anyone. -/
  | queueTimeSend
  /-- `delayUntilEventOrTimeout` returns. -/
  | delayReturns
  /-- The loop tests `prepareForCountdown`. -/
  | testPrepareForCountdown
  /-- The loop clears `prepareForCountdown` and continues. -/
  | clearPrepareForCountdown
  /-- The loop tests `shouldSendTime` and enters one of the two send functions. -/
  | testShouldSendTime
  /-- `sendTimePerUart` reads the local time. -/
  | getLocaltime (localTime : LocalTime)
  /-- The loop clears `shouldSendTime` after `sendTimePerUart`. -/
  | clearShouldSendTime
  /-- The loop goes on after `sendTimeSync`. -/
  | returnFromTimeSync

/-- One step. A wait that finds a notification pending ends at once and consumes it;
otherwise it ends by its timeout. -/
def step (s : Central) : Action → Option Central
  | .dataCallback event =>
    if s.mqtt = .idle then
      match NixieVfdCentral.dataCallback event with
      | .ignored => some s
      | .aborted => none
      | .forwards sends aligns =>
        some { s with tx := s.tx.start .mqttTask sends, mqtt := .sending aligns }
    else none
  | .send writer => (s.tx.send writer).map fun tx => { s with tx := tx }
  | .returnFromCallback =>
    if s.mqtt = .sending false ∧ s.tx.pending .mqttTask = [] then some { s with mqtt := .idle }
    else none
  | .setPrepareForCountdown =>
    if s.mqtt = .sending true ∧ s.tx.pending .mqttTask = [] then
      some { s with prepareForCountdown := true, mqtt := .notifying }
    else none
  | .notify =>
    if s.mqtt = .notifying then some { s with notified := true, mqtt := .idle } else none
  | .queueTimeSend =>
    some { s with shouldSendTime := true, requests := s.requests ++ [false] }
  | .delayReturns =>
    if s.time = .waiting then
      some { s with timedOut := !s.notified, notified := false, time := .testPrepareForCountdown }
    else none
  | .testPrepareForCountdown =>
    if s.time = .testPrepareForCountdown then
      some { s with time :=
        if s.prepareForCountdown then .clearPrepareForCountdown else .testShouldSendTime }
    else none
  | .clearPrepareForCountdown =>
    if s.time = .clearPrepareForCountdown then
      some { s with prepareForCountdown := false, time := .waiting }
    else none
  | .testShouldSendTime =>
    if s.time = .testShouldSendTime then
      if s.shouldSendTime then some { s with time := .sampling }
      else some { s with tx := s.tx.start .timeTask sendTimeSync, time := .sendingSync }
    else none
  | .getLocaltime localTime =>
    if s.time = .sampling then
      some { s with
        tx := s.tx.start .timeTask (sendTimePerUart localTime)
        time := .sendingTime
        requests := s.requests.map fun _ => true }
    else none
  | .clearShouldSendTime =>
    if s.time = .sendingTime ∧ s.tx.pending .timeTask = [] then
      some { s with shouldSendTime := false, time := .waiting }
    else none
  | .returnFromTimeSync =>
    if s.time = .sendingSync ∧ s.tx.pending .timeTask = [] then some { s with time := .waiting }
    else none

/-- A task has sends left only while it is sending. -/
structure WellPlaced (s : Central) : Prop where
  mqtt : (∀ aligns, s.mqtt ≠ .sending aligns) → s.tx.pending .mqttTask = []
  time : s.time ≠ .sendingTime → s.time ≠ .sendingSync → s.tx.pending .timeTask = []

/-- Neither task is inside one of the functions that send. -/
def Outside (s : Central) : Prop :=
  s.mqtt = .idle ∧ s.time ≠ .sampling ∧ s.time ≠ .sendingTime ∧ s.time ≠ .sendingSync

/-- At the start no task is sending, and none has anything left to send. -/
theorem initial_wellPlaced : initial.WellPlaced := ⟨fun _ => rfl, fun _ _ => rfl⟩

variable {s s' : Central} {a : Action}

/-- Outside the functions that send, nothing is left to send. -/
theorem WellPlaced.quiet_of_outside (h : s.WellPlaced) (houtside : s.Outside) : s.tx.Quiet := by
  obtain ⟨hmqtt, _, htime, hsync⟩ := houtside
  intro writer
  cases writer with
  | mqttTask => exact h.mqtt (by simp [hmqtt])
  | timeTask => exact h.time htime hsync

/-- Entering `dataCallback` changes nothing if the event is ignored, and otherwise begins
the message. An aborted program takes no further step. -/
theorem step_dataCallback {event : MqttEvent} (hstep : s.step (.dataCallback event) = some s') :
    s.mqtt = .idle ∧ (s' = s ∨ ∃ sends aligns,
      NixieVfdCentral.dataCallback event = .forwards sends aligns ∧
        s' = { s with tx := s.tx.start .mqttTask sends, mqtt := .sending aligns }) := by
  simp only [step, Option.ite_none_right_eq_some] at hstep
  obtain ⟨hidle, hstep⟩ := hstep
  refine ⟨hidle, ?_⟩
  cases hevent : NixieVfdCentral.dataCallback event with
  | ignored =>
    rw [hevent] at hstep
    exact Or.inl (Option.some.inj hstep).symm
  | aborted =>
    rw [hevent] at hstep
    cases hstep
  | forwards sends aligns =>
    rw [hevent] at hstep
    exact Or.inr ⟨sends, aligns, rfl, (Option.some.inj hstep).symm⟩

/-- The test of `shouldSendTime` enters the one or the other send function. -/
theorem step_testShouldSendTime (hstep : s.step .testShouldSendTime = some s') :
    s.time = .testShouldSendTime ∧ (s' = { s with time := .sampling } ∨
      s' = { s with tx := s.tx.start .timeTask sendTimeSync, time := .sendingSync }) := by
  simp only [step, Option.ite_none_right_eq_some] at hstep
  obtain ⟨htime, hstep⟩ := hstep
  refine ⟨htime, ?_⟩
  split_ifs at hstep
  · exact Or.inl (Option.some.inj hstep).symm
  · exact Or.inr (Option.some.inj hstep).symm

/-- **What one step does to the streams**: a task that has nothing left to send begins a
message that goes to both streams alike, or a task performs its next send. -/
theorem step_tx (hplaced : s.WellPlaced) (hstep : s.step a = some s') :
    s'.tx = s.tx ∨
      (∃ writer sends, s.tx.pending writer = [] ∧ SentAlike sends ∧
        s'.tx = s.tx.start writer sends) ∨
      ∃ writer, a = .send writer ∧ s.tx.send writer = some s'.tx := by
  cases a with
  | dataCallback event =>
    obtain ⟨hidle, rfl | ⟨sends, aligns, hevent, rfl⟩⟩ := step_dataCallback hstep
    · exact Or.inl rfl
    · exact Or.inr (Or.inl ⟨_, sends, hplaced.mqtt (by simp [hidle]),
        sentAlike_of_dataCallback hevent, rfl⟩)
  | send writer =>
    obtain ⟨tx, hsend, rfl⟩ := Option.map_eq_some_iff.mp hstep
    exact Or.inr (Or.inr ⟨writer, rfl, hsend⟩)
  | testShouldSendTime =>
    obtain ⟨htime, rfl | rfl⟩ := step_testShouldSendTime hstep
    · exact Or.inl rfl
    · exact Or.inr (Or.inl ⟨_, _, hplaced.time (by simp [htime]) (by simp [htime]),
        sentAlike_sendTimeSync, rfl⟩)
  | getLocaltime localTime =>
    simp only [step, Option.ite_none_right_eq_some] at hstep
    obtain ⟨htime, hstep⟩ := hstep
    obtain rfl := Option.some.inj hstep
    exact Or.inr (Or.inl ⟨_, _, hplaced.time (by simp [htime]) (by simp [htime]),
      sentAlike_sendTimePerUart localTime, rfl⟩)
  | queueTimeSend =>
    obtain rfl := Option.some.inj hstep
    exact Or.inl rfl
  | returnFromCallback | setPrepareForCountdown | notify | delayReturns | testPrepareForCountdown
  | clearPrepareForCountdown | clearShouldSendTime | returnFromTimeSync =>
    simp only [step, Option.ite_none_right_eq_some] at hstep
    obtain rfl := Option.some.inj hstep.2
    exact Or.inl rfl

/-- A task that leaves its send function has nothing left to send. -/
theorem step_wellPlaced (hplaced : s.WellPlaced) (hstep : s.step a = some s') : s'.WellPlaced := by
  have hmqtt := hplaced.mqtt
  have htime := hplaced.time
  cases a with
  | dataCallback event =>
    obtain ⟨_, rfl | ⟨_, _, _, rfl⟩⟩ := step_dataCallback hstep
    · exact hplaced
    · exact ⟨fun h => absurd rfl (h _), htime⟩
  | send writer =>
    obtain ⟨tx, hsend, rfl⟩ := Option.map_eq_some_iff.mp hstep
    obtain ⟨k, piece, rest, hpending, rfl⟩ := State.send_eq_some hsend
    cases writer with
    | mqttTask =>
      refine ⟨fun h => ?_, htime⟩
      rw [hmqtt h] at hpending
      cases hpending
    | timeTask =>
      refine ⟨hmqtt, fun h h' => ?_⟩
      rw [htime h h'] at hpending
      cases hpending
  | testShouldSendTime =>
    obtain ⟨htest, rfl | rfl⟩ := step_testShouldSendTime hstep
    · exact ⟨hmqtt, fun _ _ => htime (by simp [htest]) (by simp [htest])⟩
    · exact ⟨hmqtt, fun _ h => absurd rfl h⟩
  | getLocaltime localTime =>
    simp only [step, Option.ite_none_right_eq_some] at hstep
    obtain rfl := Option.some.inj hstep.2
    exact ⟨hmqtt, fun h _ => absurd rfl h⟩
  | queueTimeSend =>
    obtain rfl := Option.some.inj hstep
    exact ⟨hmqtt, htime⟩
  | returnFromCallback | setPrepareForCountdown =>
    simp only [step, Option.ite_none_right_eq_some] at hstep
    obtain ⟨⟨_, hpending⟩, hstep⟩ := hstep
    obtain rfl := Option.some.inj hstep
    exact ⟨fun _ => hpending, htime⟩
  | notify =>
    simp only [step, Option.ite_none_right_eq_some] at hstep
    obtain ⟨hnotifying, hstep⟩ := hstep
    obtain rfl := Option.some.inj hstep
    exact ⟨fun _ => hmqtt (by simp [hnotifying]), htime⟩
  | delayReturns | testPrepareForCountdown | clearPrepareForCountdown =>
    simp only [step, Option.ite_none_right_eq_some] at hstep
    obtain ⟨hposition, hstep⟩ := hstep
    obtain rfl := Option.some.inj hstep
    exact ⟨hmqtt, fun _ _ => htime (by simp [hposition]) (by simp [hposition])⟩
  | clearShouldSendTime | returnFromTimeSync =>
    simp only [step, Option.ite_none_right_eq_some] at hstep
    obtain ⟨⟨_, hpending⟩, hstep⟩ := hstep
    obtain rfl := Option.some.inj hstep
    exact ⟨hmqtt, fun _ _ => hpending⟩

end Central

end NixieVfdCentral
