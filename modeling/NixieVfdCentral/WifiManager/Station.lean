import NixieVfdCentral.Wifi.StatusLed
import NixieVfdCentral.WifiManager.Reports

/-!
# From the driver to the status LED

The application registers a callback for `WM_EVENT_STA_GOT_IP` and one for
`WM_EVENT_STA_DISCONNECTED`. The task of the wifi manager calls them, so its queue lies between
the driver and the event group that the status LED looks at. The two models are put together here:
the manager says which callback runs, and the callback takes its two steps in the other model.
-/

namespace NixieVfdCentral

open Runs

/-- The callback that `app_main` registers for a message. -/
def callbackOf : ManagerMessage → Option WifiCallback
  | .staGotIp => some .connectionCallback
  | .staDisconnected => some .disconnectionCallback
  | _ => none

/-- The wifi manager and the tasks behind its callbacks. -/
structure Station where
  /-- The wifi manager. -/
  manager : WifiManager
  /-- The event group and the tasks that use it. -/
  wifi : Wifi

namespace Station

/-- Nothing has happened yet. -/
def initial : Station where
  manager := .initial
  wifi := .initial

/-- The steps of the station. -/
inductive Action
  /-- A step of the wifi manager, of the driver or of the timers. -/
  | manager (a : WifiManager.Action)
  /-- The callback that the manager has called clears its bit. -/
  | callbackClears
  /-- It sets its bit and returns to the manager. -/
  | callbackSets
  /-- A step of a task that uses the event group. -/
  | wifi (a : Wifi.Action)

/-- The callback that the manager has called. -/
def running (s : Station) : Option WifiCallback :=
  match s.manager.position with
  | .calling message => callbackOf message
  | _ => none

/-- One step. -/
def step (s : Station) : Action → Option Station
  | .manager .callback =>
    if s.running = none then
      (s.manager.step .callback).map fun manager => { s with manager := manager }
    else none
  | .manager a => (s.manager.step a).map fun manager => { s with manager := manager }
  | .callbackClears =>
    s.running.bind fun callback =>
      (s.wifi.step (.callbackClears callback)).map fun wifi => { s with wifi := wifi }
  | .callbackSets =>
    s.running.bind fun _ =>
      (s.wifi.step .callbackSets).bind fun wifi =>
        (s.manager.step .callback).map fun manager => ⟨manager, wifi⟩
  | .wifi a =>
    if a.isCallback then none else (s.wifi.step a).map fun wifi => { s with wifi := wifi }

/-- What a step does to the two parts. -/
inductive Stepped (s : Station) : Station → Prop
  | manager (a : WifiManager.Action) (manager : WifiManager)
      (hstep : s.manager.step a = some manager)
      (hother : a = .callback → s.running = none) : Stepped s { s with manager := manager }
  | callbackClears (callback : WifiCallback) (wifi : Wifi) (hrunning : s.running = some callback)
      (hstep : s.wifi.step (.callbackClears callback) = some wifi) :
      Stepped s { s with wifi := wifi }
  | callbackSets (callback : WifiCallback) (manager : WifiManager) (wifi : Wifi)
      (hrunning : s.running = some callback) (hwifi : s.wifi.step .callbackSets = some wifi)
      (hmanager : s.manager.step .callback = some manager) : Stepped s ⟨manager, wifi⟩
  | wifi (a : Wifi.Action) (wifi : Wifi) (ha : a.isCallback = false)
      (hstep : s.wifi.step a = some wifi) : Stepped s { s with wifi := wifi }

variable {s s' : Station} {a : Action}

/-- **What one step does**, part by part: the manager, the event group or both take a step. -/
theorem stepped_of_step (hstep : s.step a = some s') : Stepped s s' := by
  unfold step at hstep
  split at hstep
  · rw [Option.ite_none_right_eq_some] at hstep
    obtain ⟨hrunning, hstep⟩ := hstep
    obtain ⟨manager, hmanager, rfl⟩ := Option.map_eq_some_iff.mp hstep
    exact .manager _ manager hmanager fun _ => hrunning
  · rename_i b hb
    obtain ⟨manager, hmanager, rfl⟩ := Option.map_eq_some_iff.mp hstep
    exact .manager b manager hmanager fun h => (hb h).elim
  · obtain ⟨callback, hrunning, hstep⟩ := Option.bind_eq_some_iff.mp hstep
    obtain ⟨wifi, hwifi, rfl⟩ := Option.map_eq_some_iff.mp hstep
    exact .callbackClears callback wifi hrunning hwifi
  · obtain ⟨callback, hrunning, hstep⟩ := Option.bind_eq_some_iff.mp hstep
    obtain ⟨wifi, hwifi, hstep⟩ := Option.bind_eq_some_iff.mp hstep
    obtain ⟨manager, hmanager, rfl⟩ := Option.map_eq_some_iff.mp hstep
    exact .callbackSets callback manager wifi hrunning hwifi hmanager
  · rename_i b
    cases hb : b.isCallback with
    | true => simp [hb] at hstep
    | false =>
      rw [hb, if_neg Bool.false_ne_true] at hstep
      obtain ⟨wifi, hwifi, rfl⟩ := Option.map_eq_some_iff.mp hstep
      exact .wifi b wifi hb hwifi

/-! ### The last callback -/

/-- The last callback is the one for the last change of the connection that was called, or the
one that the manager has called and that is half done. -/
structure Linked (s : Station) : Prop where
  done : s.wifi.halfDone = false → s.wifi.last =
    (s.manager.called.filter ManagerMessage.isConnection).getLast?.bind callbackOf
  halfDone : s.wifi.halfDone = true → s.wifi.last = s.running ∧ s.running ≠ none

/-- Only changes of the connection have a callback of the application. -/
theorem callbackOf_eq_none {message : ManagerMessage} :
    callbackOf message = none ↔ message.isConnection = false := by
  cases message <;> simp [callbackOf, ManagerMessage.isConnection]

/-- No step but a callback changes which callback was the last one. -/
theorem last_wifi_step {wifi wifi' : Wifi} {a : Wifi.Action} (ha : a.isCallback = false)
    (hstep : wifi.step a = some wifi') :
    wifi'.last = wifi.last ∧ wifi'.halfDone = wifi.halfDone := by
  cases a with
  | callbackClears callback => cases ha
  | callbackSets => cases ha
  | onTimeSync =>
    obtain rfl := Option.some.inj hstep
    exact ⟨rfl, rfl⟩
  | ledPolls =>
    simp only [Wifi.step, Option.ite_none_right_eq_some] at hstep
    split_ifs at hstep
    all_goals
      obtain rfl := Option.some.inj hstep.2
      exact ⟨rfl, rfl⟩
  | _ =>
    simp only [Wifi.step, Option.ite_none_right_eq_some] at hstep
    obtain rfl := Option.some.inj hstep.2
    exact ⟨rfl, rfl⟩

/-- While a callback is half done, the manager waits for it. -/
theorem running_manager_step {b : WifiManager.Action} {manager : WifiManager}
    (hstep : s.manager.step b = some manager) (hother : b = .callback → s.running = none)
    (hrunning : s.running ≠ none) : running { s with manager := manager } = s.running := by
  have hcalling : ∃ message, s.manager.position = .calling message := by
    cases hposition : s.manager.position with
    | calling message => exact ⟨message, rfl⟩
    | _ => simp [running, hposition] at hrunning
  obtain ⟨message, hposition⟩ := hcalling
  cases WifiManager.stepped_of_step hstep with
  | receive _ _ h => cases hposition.symm.trans h
  | handle _ _ _ h => cases hposition.symm.trans h
  | sendOrder _ _ h => cases hposition.symm.trans h
  | callback => exact absurd (hother rfl) hrunning
  | _ => rfl

/-- A step of the manager that is not the callback of a change of the connection. -/
theorem called_manager_step {b : WifiManager.Action} {manager : WifiManager}
    (hstep : s.manager.step b = some manager) (hother : b = .callback → s.running = none) :
    manager.called.filter ManagerMessage.isConnection =
      s.manager.called.filter ManagerMessage.isConnection := by
  cases WifiManager.stepped_of_step hstep with
  | callback message hposition =>
    have hmessage : message.isConnection = false := by
      have hnone := hother rfl
      rw [running, hposition] at hnone
      exact callbackOf_eq_none.mp hnone
    simp [hmessage]
  | _ => rfl

/-- **Every step keeps the two parts linked**: the last callback is that of the last change called.
-/
theorem Linked.step (h : s.Linked) (hstep : s.step a = some s') : s'.Linked := by
  cases stepped_of_step hstep with
  | manager b manager hmanager hother =>
    refine ⟨fun hdone => ?_, fun hhalf => ?_⟩
    · rw [called_manager_step hmanager hother]
      exact h.done hdone
    · obtain ⟨hlast, hrunning⟩ := h.halfDone hhalf
      rw [running_manager_step hmanager hother hrunning]
      exact ⟨hlast, hrunning⟩
  | callbackClears callback wifi hrunning hwifi =>
    simp only [Wifi.step, Option.ite_none_right_eq_some] at hwifi
    obtain rfl := Option.some.inj hwifi.2
    refine ⟨by simp, fun _ => ⟨hrunning.symm, ?_⟩⟩
    change s.running ≠ none
    simp [hrunning]
  | callbackSets callback manager wifi hrunning hwifi hmanager =>
    simp only [Wifi.step] at hwifi
    split at hwifi
    · cases hwifi
    · rw [Option.ite_none_right_eq_some] at hwifi
      obtain ⟨hhalf, hwifi⟩ := hwifi
      obtain rfl := Option.some.inj hwifi
      refine ⟨fun _ => ?_, by simp⟩
      cases WifiManager.stepped_of_step hmanager with
      | callback message hposition =>
        have hcallback : callbackOf message = some callback := by
          rw [running, hposition] at hrunning
          exact hrunning
        have hconnection : message.isConnection = true := by
          by_contra hnot
          simp [callbackOf_eq_none.mpr (Bool.eq_false_iff.mpr hnot)] at hcallback
        change s.wifi.last = _
        rw [(h.halfDone hhalf).1, hrunning, List.filter_append, List.filter_singleton, hconnection,
          cond_true, List.getLast?_concat, Option.bind_some, hcallback]
  | wifi b wifi hb hwifi =>
    obtain ⟨hlast, hhalf⟩ := last_wifi_step hb hwifi
    refine ⟨fun hdone => ?_, fun hhalfDone => ?_⟩
    · exact hlast.trans (h.done (hhalf.symm.trans hdone))
    · obtain ⟨hrunning, hsome⟩ := h.halfDone (hhalf.symm.trans hhalfDone)
      exact ⟨hlast.trans hrunning, hsome⟩

/-- What the station keeps of its two parts and of their link. -/
structure Sound (s : Station) : Prop where
  reported : s.manager.Reported
  led : s.wifi.LedSound
  linked : s.Linked

/-- Every step of the tasks on the event group keeps the LED task sound. -/
theorem led_step {wifi wifi' : Wifi} {a : Wifi.Action} (h : wifi.LedSound)
    (hstep : wifi.step a = some wifi') : wifi'.LedSound := by
  obtain ⟨hevents, hview⟩ := Wifi.step_ledView h.1 hstep
  exact ⟨hevents, h.2.step hview⟩

/-- Every step keeps the manager and the event group sound and linked to each other. -/
theorem Sound.step (h : s.Sound) (hstep : s.step a = some s') : s'.Sound := by
  have hlinked := h.linked.step hstep
  cases stepped_of_step hstep with
  | manager b manager hmanager => exact ⟨h.reported.step hmanager, h.led, hlinked⟩
  | callbackClears callback wifi _ hwifi => exact ⟨h.reported, led_step h.led hwifi, hlinked⟩
  | callbackSets callback manager wifi _ hwifi hmanager =>
    exact ⟨h.reported.step hmanager, led_step h.led hwifi, hlinked⟩
  | wifi b wifi _ hwifi => exact ⟨h.reported, led_step h.led hwifi, hlinked⟩

/-- At the start both parts are sound, and no callback was called. -/
theorem initial_sound : Sound initial where
  reported := WifiManager.initial_reported
  led := by
    refine ⟨Wifi.LedConsumes.empty, ?_, ?_, ?_⟩ <;>
      simp [initial, Wifi.initial, Wifi.ledView, EventGroup.empty]
  linked := ⟨fun _ => rfl, by simp [initial, Wifi.initial]⟩

/-- Nothing is on its way from the driver to a callback. -/
def Quiet (s : Station) : Prop := s.manager.inFlight.filter ManagerMessage.isConnection = []

/-- When nothing is on its way no callback is half done, and the last one was for what the driver
has reported last. -/
theorem Sound.last_eq (h : s.Sound) (hquiet : s.Quiet) :
    s.wifi.halfDone = false ∧ s.wifi.last = s.manager.reported.getLast?.bind callbackOf := by
  have hreported := h.reported.reported_eq
  rw [show s.manager.inFlight.filter ManagerMessage.isConnection = [] from hquiet,
    List.append_nil] at hreported
  have hdone : s.wifi.halfDone = false := by
    by_contra hhalf
    have hrunning := (h.linked.halfDone (by simpa using hhalf)).2
    apply hrunning
    unfold running
    split
    · rename_i message hposition
      rw [callbackOf_eq_none]
      by_contra hconnection
      have hmem : message ∈ s.manager.inFlight.filter ManagerMessage.isConnection := by
        simp [WifiManager.inFlight, WifiManager.current, hposition,
          show message.isConnection = true by simpa using hconnection]
      rw [show s.manager.inFlight.filter ManagerMessage.isConnection = [] from hquiet] at hmem
      exact List.not_mem_nil hmem
    · rfl
  exact ⟨hdone, by rw [hreported]; exact h.linked.done hdone⟩

end Station

end NixieVfdCentral
