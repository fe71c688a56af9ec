import Mathlib.Data.Finset.Insert
import NixieVfdCentral.Foundations.EventGroup
import NixieVfdCentral.Foundations.Runs

/-!
# The tasks behind the wifi events

The callbacks of the wifi manager rewrite two bits of `Task::syncEventGroup`. The status
LED polls and consumes them, and the MQTT client and the time source wait for the first
of them before they start. An action is one step of one task between two accesses to the
event group; the callbacks run one after another in the task of the wifi manager.
-/

namespace NixieVfdCentral

/-- The bits of `sync_events`. -/
inductive SyncEvent
  /-- `ConnectedToWifi`. -/
  | ConnectedToWifi
  /-- `ConnectionFailed`. -/
  | ConnectionFailed
  /-- `TimeIsSynchronized`. -/
  | TimeIsSynchronized
  deriving DecidableEq

/-- The tasks that wait for bits. -/
inductive SyncTask
  /-- `StatusLed`. -/
  | statusLed
  /-- `MqttClient`. -/
  | mqttClient
  /-- `TimeSource`. -/
  | timeSource
  deriving DecidableEq

instance : Fintype SyncTask where
  elems := {.statusLed, .mqttClient, .timeSource}
  complete task := by cases task <;> simp

/-- The callbacks of the wifi manager. -/
inductive WifiCallback
  /-- `connectionCallback`. -/
  | connectionCallback
  /-- `disconnectionCallback`. -/
  | disconnectionCallback
  deriving DecidableEq

/-- The bit a callback clears first. -/
def WifiCallback.clears : WifiCallback → SyncEvent
  | .connectionCallback => .ConnectionFailed
  | .disconnectionCallback => .ConnectedToWifi

/-- The bit a callback then sets. -/
def WifiCallback.sets : WifiCallback → SyncEvent
  | .connectionCallback => .ConnectedToWifi
  | .disconnectionCallback => .ConnectionFailed

/-- The poll of the status LED; its time limit is zero. -/
def pollConnected : EventWait SyncEvent where
  mask := [.ConnectedToWifi]
  waitForAll := true
  clearOnExit := true

/-- The wait of the status LED for the end of the connection. -/
def waitFailed : EventWait SyncEvent where
  mask := [.ConnectionFailed]
  waitForAll := true
  clearOnExit := true

/-- The wait of the MQTT client and of the time source for the connection. -/
def waitConnected : EventWait SyncEvent where
  mask := [.ConnectedToWifi]
  waitForAll := true
  clearOnExit := false

/-- The wait of the time source for the first time synchronisation, up to ten seconds. -/
def waitSynchronized : EventWait SyncEvent where
  mask := [.TimeIsSynchronized]
  waitForAll := true
  clearOnExit := false

/-- Where the status LED stands in its loop. -/
inductive LedPosition
  /-- Before the poll of `ConnectedToWifi`. -/
  | polling
  /-- The poll succeeded; before the steady duty is set. -/
  | steady
  /-- Before the wait for `ConnectionFailed`. -/
  | beforeWait
  /-- In the wait for `ConnectionFailed`, blocked or just released. -/
  | inWait
  /-- The poll failed; before the blink step. -/
  | blinking
  deriving DecidableEq

/-- Where the MQTT client stands. -/
inductive MqttClientPosition
  /-- Before the wait for `ConnectedToWifi`. -/
  | starting
  /-- In this wait, blocked or just released. -/
  | inWait
  /-- Behind it. -/
  | started
  deriving DecidableEq

/-- Where the time source stands. -/
inductive TimeSourcePosition
  /-- Before the wait for `ConnectedToWifi`. -/
  | starting
  /-- In this wait, blocked or just released. -/
  | inWait
  /-- Before `initTimeSychronization` and the wait for `TimeIsSynchronized`. -/
  | initializing
  /-- In this wait, blocked or just released. -/
  | inSyncWait
  /-- Before the test of `TimeIsSynchronized`. -/
  | testing
  /-- In the main loop. -/
  | started
  deriving DecidableEq

/-- The event group, the tasks, and the last callback. -/
structure Wifi where
  /-- `Task::syncEventGroup`. -/
  events : EventGroup SyncTask SyncEvent
  /-- The last callback that has begun. -/
  last : Option WifiCallback
  /-- This callback has cleared its bit but not yet set the other one. -/
  halfDone : Bool
  /-- Where the status LED stands. -/
  led : LedPosition
  /-- `toggleLed`. -/
  toggleLed : Bool
  /-- The duty of the LED. -/
  duty : ℕ
  /-- Where the MQTT client stands. -/
  mqttClient : MqttClientPosition
  /-- Where the time source stands. -/
  timeSource : TimeSourcePosition

/-- The duty that `StatusLed::setLedDuty` sets, `MaximumDuty` being 255. -/
def setLedDuty (percentage : ℕ) : ℕ := percentage * 255 / 100

namespace Wifi

/-- No bit is set, and every task is at its beginning. -/
def initial : Wifi where
  events := .empty
  last := none
  halfDone := false
  led := .polling
  toggleLed := false
  duty := 0
  mqttClient := .starting
  timeSource := .starting

/-- The steps of the tasks. -/
inductive Action
  /-- A callback clears its bit. -/
  | callbackClears (callback : WifiCallback)
  /-- The running callback sets its bit. -/
  | callbackSets
  /-- `TimeSource::onTimeSync` sets `TimeIsSynchronized`. -/
  | onTimeSync
  /-- The status LED polls and clears `ConnectedToWifi`. -/
  | ledPolls
  /-- It sets the steady duty. -/
  | ledSteady
  /-- It waits for `ConnectionFailed`. -/
  | ledWaits
  /-- Released from this wait, it goes on. -/
  | ledReleased
  /-- It performs a blink step. -/
  | ledBlinks
  /-- The MQTT client waits for `ConnectedToWifi`. -/
  | mqttClientWaits
  /-- Released from this wait, it goes on. -/
  | mqttClientReleased
  /-- The time source waits for `ConnectedToWifi`. -/
  | timeSourceWaits
  /-- Released from this wait, it goes on. -/
  | timeSourceReleased
  /-- It starts the time synchronisation and waits for `TimeIsSynchronized`. -/
  | timeSourceWaitsForSync
  /-- Released from this wait or after ten seconds, it goes on. -/
  | timeSourceStopsWaiting
  /-- It tests `TimeIsSynchronized` and enters its main loop or tries again. -/
  | timeSourceTests

/-- The action is a step of a callback of the wifi manager. -/
def Action.isCallback : Action → Bool
  | .callbackClears _ | .callbackSets => true
  | _ => false

/-- One step. -/
def step (s : Wifi) : Action → Option Wifi
  | .callbackClears callback =>
    if s.halfDone = false then
      some { s with
        events := s.events.clearBits [callback.clears]
        last := some callback
        halfDone := true }
    else none
  | .callbackSets =>
    match s.last with
    | none => none
    | some callback =>
      if s.halfDone = true then
        some { s with events := s.events.setBits [callback.sets], halfDone := false }
      else none
  | .onTimeSync => some { s with events := s.events.setBits [.TimeIsSynchronized] }
  | .ledPolls =>
    if s.led = .polling then
      if pollConnected.satisfied s.events.bits then
        some { s with events := s.events.afterWait pollConnected, led := .steady }
      else some { s with led := .blinking }
    else none
  | .ledSteady =>
    if s.led = .steady then some { s with duty := setLedDuty 25, led := .beforeWait } else none
  | .ledWaits =>
    if s.led = .beforeWait then
      some { s with
        events := s.events.waitBits .statusLed waitFailed
        led := if waitFailed.satisfied s.events.bits then .polling else .inWait }
    else none
  | .ledReleased =>
    if s.led = .inWait ∧ s.events.blocked .statusLed = none then some { s with led := .polling }
    else none
  | .ledBlinks =>
    if s.led = .blinking then
      some { s with
        duty := setLedDuty (if s.toggleLed then 100 else 0)
        toggleLed := !s.toggleLed
        led := .polling }
    else none
  | .mqttClientWaits =>
    if s.mqttClient = .starting then
      some { s with
        events := s.events.waitBits .mqttClient waitConnected
        mqttClient := if waitConnected.satisfied s.events.bits then .started else .inWait }
    else none
  | .mqttClientReleased =>
    if s.mqttClient = .inWait ∧ s.events.blocked .mqttClient = none then
      some { s with mqttClient := .started }
    else none
  | .timeSourceWaits =>
    if s.timeSource = .starting then
      some { s with
        events := s.events.waitBits .timeSource waitConnected
        timeSource := if waitConnected.satisfied s.events.bits then .initializing else .inWait }
    else none
  | .timeSourceReleased =>
    if s.timeSource = .inWait ∧ s.events.blocked .timeSource = none then
      some { s with timeSource := .initializing }
    else none
  | .timeSourceWaitsForSync =>
    if s.timeSource = .initializing then
      some { s with
        events := s.events.waitBits .timeSource waitSynchronized
        timeSource := if waitSynchronized.satisfied s.events.bits then .testing else .inSyncWait }
    else none
  | .timeSourceStopsWaiting =>
    if s.timeSource = .inSyncWait then
      some { s with events := s.events.giveUp .timeSource, timeSource := .testing }
    else none
  | .timeSourceTests =>
    if s.timeSource = .testing then
      some { s with timeSource :=
        if s.events.bits .TimeIsSynchronized then .started else .initializing }
    else none

end Wifi

end NixieVfdCentral
