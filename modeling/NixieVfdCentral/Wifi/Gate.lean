import NixieVfdCentral.Wifi.SyncEvents

/-!
# The wifi gate

The MQTT client and the time source wait for `ConnectedToWifi` before they start and leave
the bit set, so that one connection opens the gate for both. The status LED clears the
same bit whenever its poll finds it set. A task that comes to its wait after the poll and
before the next connection is held there, although the wifi is connected.
-/

namespace NixieVfdCentral.Wifi

open Runs

/-- The last callback was a connection, and it is completed. -/
def Connected (s : Wifi) : Prop := s.last = some .connectionCallback ∧ s.halfDone = false

instance (s : Wifi) : Decidable s.Connected := inferInstanceAs (Decidable (_ ∧ _))

/-- The task is blocked in the wait for `ConnectedToWifi`. -/
def HeldAtGate (s : Wifi) (task : SyncTask) : Prop := s.events.blocked task = some waitConnected

/-- While the wifi is connected, the gate holds neither the MQTT client nor the time source. -/
def GateOpen (s : Wifi) : Prop :=
  s.Connected → ∀ task, task = .mqttClient ∨ task = .timeSource → ¬s.HeldAtGate task

/-- A task that starts its wait while the wifi is connected finds `ConnectedToWifi` set: no
poll of the status LED has cleared it since the connection. -/
def FindsBitSet (s : Wifi) : Action → Prop
  | .mqttClientWaits | .timeSourceWaits => s.Connected → s.events.bits .ConnectedToWifi = true
  | _ => True

instance (s : Wifi) : (a : Action) → Decidable (FindsBitSet s a)
  | .mqttClientWaits | .timeSourceWaits => inferInstanceAs (Decidable (s.Connected → _))
  | .callbackClears _ | .callbackSets | .onTimeSync | .ledPolls | .ledSteady | .ledWaits
  | .ledReleased | .ledBlinks | .mqttClientReleased | .timeSourceReleased
  | .timeSourceWaitsForSync | .timeSourceStopsWaiting | .timeSourceTests => .isTrue trivial

variable {s s' : Wifi} {a : Action}

/-- The wait for the connection is satisfied exactly when its bit is set. -/
@[simp] theorem satisfied_waitConnected (bits : SyncEvent → Bool) :
    waitConnected.satisfied bits = bits .ConnectedToWifi := by
  simp [EventWait.satisfied, waitConnected]

/-- A step that blocks no one at the gate keeps it open. -/
theorem GateOpen.of_held (h : GateOpen s) (hconnected : s'.Connected → s.Connected)
    (hheld : ∀ task, s'.HeldAtGate task → s.HeldAtGate task) : GateOpen s' :=
  fun hafter task htask hblocked => h (hconnected hafter) task htask (hheld task hblocked)

/-- The gate is open while the wifi is not connected. -/
theorem gateOpen_of_not_connected (h : ¬s.Connected) : GateOpen s :=
  fun hconnected => absurd hconnected h

/-- **The start of a wait** holds its task exactly if the bit is clear. -/
theorem GateOpen.waits_iff (h : GateOpen s) {task : SyncTask}
    (htask : task = .mqttClient ∨ task = .timeSource) (hconnected : s'.Connected ↔ s.Connected)
    (hevents : s'.events = s.events.waitBits task waitConnected) :
    GateOpen s' ↔ (s.Connected → s.events.bits .ConnectedToWifi = true) := by
  constructor
  · intro hopen hbefore
    by_contra hclear
    refine hopen (hconnected.mpr hbefore) task htask ?_
    rw [HeldAtGate, hevents, EventGroup.blocked_waitBits_self, satisfied_waitConnected,
      if_neg hclear]
  · intro hset hafter other hother hheld
    have hbefore := hconnected.mp hafter
    refine h hbefore other hother ?_
    rw [HeldAtGate, hevents] at hheld
    by_cases hsame : other = task
    · subst hsame
      rwa [EventGroup.blocked_waitBits_self, satisfied_waitConnected, if_pos (hset hbefore)]
        at hheld
    · rwa [EventGroup.blocked_waitBits_of_ne hsame] at hheld

/-- A wait for something else holds no one at the gate. -/
theorem held_of_waitBits {task : SyncTask} {w : EventWait SyncEvent}
    (hw : w.mask ≠ waitConnected.mask) {g : EventGroup SyncTask SyncEvent} {other : SyncTask}
    (hheld : (g.waitBits task w).blocked other = some waitConnected) :
    g.blocked other = some waitConnected := by
  by_cases hsame : other = task
  · subst hsame
    rw [EventGroup.blocked_waitBits_self] at hheld
    split_ifs at hheld
    · exact hheld
    · exact absurd (congrArg EventWait.mask (Option.some.inj hheld)) hw
  · rwa [EventGroup.blocked_waitBits_of_ne hsame] at hheld

/-- **One step keeps the gate open exactly if a wait that it starts finds the bit set.** -/
theorem GateOpen.step_iff (h : GateOpen s) (hstep : s.step a = some s') :
    GateOpen s' ↔ FindsBitSet s a := by
  cases a with
  | mqttClientWaits =>
    simp only [step, Option.ite_none_right_eq_some] at hstep
    obtain rfl := Option.some.inj hstep.2
    exact h.waits_iff (Or.inl rfl) Iff.rfl rfl
  | timeSourceWaits =>
    simp only [step, Option.ite_none_right_eq_some] at hstep
    obtain rfl := Option.some.inj hstep.2
    exact h.waits_iff (Or.inr rfl) Iff.rfl rfl
  | callbackClears callback =>
    simp only [step, Option.ite_none_right_eq_some] at hstep
    obtain rfl := Option.some.inj hstep.2
    exact iff_of_true (gateOpen_of_not_connected fun hconnected => by cases hconnected.2) trivial
  | callbackSets =>
    simp only [step] at hstep
    split at hstep
    · cases hstep
    · rename_i callback hlast
      rw [Option.ite_none_right_eq_some] at hstep
      obtain rfl := Option.some.inj hstep.2
      refine iff_of_true ?_ trivial
      cases callback with
      | connectionCallback =>
        -- the bit releases everyone who waits for it
        refine fun _ task _ => EventGroup.blocked_setBits_ne ?_ task
        simp [EventGroup.raised, WifiCallback.sets]
      | disconnectionCallback =>
        refine gateOpen_of_not_connected fun hconnected => ?_
        cases hlast.symm.trans hconnected.1
  | onTimeSync =>
    obtain rfl := Option.some.inj hstep
    exact iff_of_true (h.of_held id fun _ => EventGroup.blocked_of_mem_setBits) trivial
  | ledPolls =>
    simp only [step, Option.ite_none_right_eq_some] at hstep
    obtain ⟨_, hstep⟩ := hstep
    split_ifs at hstep
    · obtain rfl := Option.some.inj hstep
      exact iff_of_true (h.of_held id fun _ hheld => hheld) trivial
    · obtain rfl := Option.some.inj hstep
      exact iff_of_true (h.of_held id fun _ hheld => hheld) trivial
  | ledWaits =>
    simp only [step, Option.ite_none_right_eq_some] at hstep
    obtain rfl := Option.some.inj hstep.2
    exact iff_of_true (h.of_held id fun _ => held_of_waitBits (by decide)) trivial
  | timeSourceWaitsForSync =>
    simp only [step, Option.ite_none_right_eq_some] at hstep
    obtain rfl := Option.some.inj hstep.2
    exact iff_of_true (h.of_held id fun _ => held_of_waitBits (by decide)) trivial
  | timeSourceStopsWaiting =>
    simp only [step, Option.ite_none_right_eq_some] at hstep
    obtain rfl := Option.some.inj hstep.2
    refine iff_of_true (h.of_held id fun task hheld => ?_) trivial
    exact EventGroup.blocked_of_mem_giveUp hheld
  | ledSteady | ledReleased | ledBlinks | mqttClientReleased | timeSourceReleased
  | timeSourceTests =>
    simp only [step, Option.ite_none_right_eq_some] at hstep
    obtain rfl := Option.some.inj hstep.2
    exact iff_of_true (h.of_held id fun _ hheld => hheld) trivial

/-- **No task is held at the gate while the wifi is connected**, in every state of a run,
exactly when every wait that starts while the wifi is connected finds the bit set. -/
theorem gateOpen_iff_findsBitSet (actions : List Action) {t : Wifi}
    (hrun : run step initial actions = some t) :
    Visited step GateOpen initial actions ↔ Along step FindsBitSet initial actions :=
  visited_iff_along (fun _ => True) (fun _ _ _ _ _ => trivial)
    (fun _ _ _ _ hopen hstep => hopen.step_iff hstep) trivial
    (gateOpen_of_not_connected fun hconnected => by cases hconnected.1) hrun

/-- The status LED polls between the connection and the wait of the MQTT client. -/
def pollBeforeWait : List Action :=
  [.callbackClears .connectionCallback, .callbackSets, .ledPolls, .mqttClientWaits]

/-- The MQTT client is held at the gate although the wifi is connected. -/
theorem pollBeforeWait_holds : ¬Visited step GateOpen initial pollBeforeWait := by
  intro hvisited
  have hrun : ∃ s, run step initial pollBeforeWait = some s ∧ s.Connected ∧
      s.HeldAtGate .mqttClient :=
    ⟨_, rfl, ⟨rfl, rfl⟩, rfl⟩
  obtain ⟨s, hs, hconnected, hheld⟩ := hrun
  exact hvisited.last hs hconnected .mqttClient (Or.inl rfl) hheld

/-- When both tasks reach their waits before the LED polls, the connection lets both of them go on.
-/
theorem gateOpen_waitsBeforePoll :
    Visited step GateOpen initial [.timeSourceWaits, .callbackClears .connectionCallback,
      .callbackSets, .mqttClientWaits, .timeSourceReleased, .ledPolls] :=
  (gateOpen_iff_findsBitSet _ (t := _) rfl).mpr (by decide)

end NixieVfdCentral.Wifi
