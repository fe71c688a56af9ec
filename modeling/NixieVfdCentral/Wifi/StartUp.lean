import NixieVfdCentral.Wifi.Gate
import NixieVfdCentral.Wifi.StatusLed

/-!
# The order of the start

The MQTT client is started and the time synchronisation is set up only after a connection, and
the main loop of the time source, which sends to the clocks, runs only after the time was
synchronised as well. The first two rest on `ConnectedToWifi`, which comes and goes; the last one
rests on `TimeIsSynchronized`, which no one clears.
-/

namespace NixieVfdCentral.Wifi

open Runs

/-- The run has passed through a state in which the wifi was connected. -/
def HasConnected (actions : List Action) : Prop := Passes step Connected initial actions

variable {s s' : Wifi} {a : Action} {history : List Action}

/-- A bit that the status LED does not wait for is only set when bits are set. -/
theorem LedConsumes.bits_setBits {g : EventGroup SyncTask SyncEvent} (h : LedConsumes g)
    (e : SyncEvent) {b : SyncEvent} (hb : b ≠ .ConnectionFailed) :
    (g.setBits [e]).bits b = true ↔ g.bits b = true ∨ b = e := by
  have hkept : ¬g.Consumes [e] b := by
    rw [h.onlyConsumer.consumes_iff]
    rintro ⟨w, hw, _, _, hmem⟩
    rw [h.ledWait w hw] at hmem
    exact hb (List.mem_singleton.mp hmem)
  simp [EventGroup.bits_setBits_of_not_consumes hkept]

/-- The wait of the status LED clears no other bit. -/
theorem bits_waitFailed (g : EventGroup SyncTask SyncEvent) {b : SyncEvent}
    (hb : b ≠ .ConnectionFailed) : (g.waitBits .statusLed waitFailed).bits b = g.bits b := by
  cases hsatisfied : waitFailed.satisfied g.bits with
  | true =>
    rw [(EventGroup.waitBits_of_satisfied hsatisfied).2]
    simp [waitFailed, hb]
  | false => rw [(EventGroup.waitBits_of_not_satisfied hsatisfied).1]

/-- **What a step does to a bit that the status LED does not wait for**, given what the callbacks
do to it. -/
theorem bits_step (h : LedConsumes s.events) (hstep : s.step a = some s') :
    (s'.events.bits .TimeIsSynchronized = true ↔
      s.events.bits .TimeIsSynchronized = true ∨ a = .onTimeSync) ∧
    (s'.events.bits .ConnectedToWifi = true →
      s.events.bits .ConnectedToWifi = true ∨ s'.Connected) := by
  cases a with
  | callbackClears callback =>
    simp only [step, Option.ite_none_right_eq_some] at hstep
    obtain rfl := Option.some.inj hstep.2
    cases callback <;> simp +contextual [WifiCallback.clears]
  | callbackSets =>
    simp only [step] at hstep
    split at hstep
    · cases hstep
    · rename_i callback hlast
      rw [Option.ite_none_right_eq_some] at hstep
      obtain rfl := Option.some.inj hstep.2
      simp only [h.bits_setBits _ (show SyncEvent.TimeIsSynchronized ≠ .ConnectionFailed by decide),
        h.bits_setBits _ (show SyncEvent.ConnectedToWifi ≠ .ConnectionFailed by decide)]
      cases callback with
      | connectionCallback => exact ⟨by simp [WifiCallback.sets], fun _ => Or.inr ⟨hlast, rfl⟩⟩
      | disconnectionCallback => simp +contextual [WifiCallback.sets]
  | onTimeSync =>
    obtain rfl := Option.some.inj hstep
    simp only [h.bits_setBits _ (show SyncEvent.TimeIsSynchronized ≠ .ConnectionFailed by decide),
      h.bits_setBits _ (show SyncEvent.ConnectedToWifi ≠ .ConnectionFailed by decide)]
    simp +contextual
  | ledPolls =>
    simp only [step, Option.ite_none_right_eq_some] at hstep
    obtain ⟨_, hstep⟩ := hstep
    split_ifs at hstep
    · obtain rfl := Option.some.inj hstep
      simp [EventGroup.afterWait, pollConnected]
    · obtain rfl := Option.some.inj hstep
      simp +contextual
  | ledWaits =>
    simp only [step, Option.ite_none_right_eq_some] at hstep
    obtain rfl := Option.some.inj hstep.2
    simp only [bits_waitFailed s.events (show SyncEvent.TimeIsSynchronized ≠ .ConnectionFailed by
      decide), bits_waitFailed s.events (show SyncEvent.ConnectedToWifi ≠ .ConnectionFailed by
      decide)]
    simp +contextual
  | mqttClientWaits =>
    simp only [step, Option.ite_none_right_eq_some] at hstep
    obtain rfl := Option.some.inj hstep.2
    have hkept := (@LedConsumes.waitBits _ .mqttClient waitConnected h (by decide) rfl).2.1
    simp +contextual [hkept]
  | timeSourceWaits =>
    simp only [step, Option.ite_none_right_eq_some] at hstep
    obtain rfl := Option.some.inj hstep.2
    have hkept := (@LedConsumes.waitBits _ .timeSource waitConnected h (by decide) rfl).2.1
    simp +contextual [hkept]
  | timeSourceWaitsForSync =>
    simp only [step, Option.ite_none_right_eq_some] at hstep
    obtain rfl := Option.some.inj hstep.2
    have hkept := (@LedConsumes.waitBits _ .timeSource waitSynchronized h (by decide) rfl).2.1
    simp +contextual [hkept]
  | ledSteady | ledReleased | ledBlinks | mqttClientReleased | timeSourceReleased
  | timeSourceStopsWaiting | timeSourceTests =>
    simp only [step, Option.ite_none_right_eq_some] at hstep
    obtain rfl := Option.some.inj hstep.2
    simp +contextual [EventGroup.giveUp]

/-- A task that is released from its wait for `ConnectedToWifi` finds the bit set, or it is set
by what releases the task. -/
theorem connected_of_released {g : EventGroup SyncTask SyncEvent} {e : SyncEvent} {task : SyncTask}
    (hblocked : g.blocked task = some waitConnected) (hfree : (g.setBits [e]).blocked task = none) :
    g.bits .ConnectedToWifi = true ∨ e = .ConnectedToWifi := by
  rw [EventGroup.blocked_setBits] at hfree
  split_ifs at hfree with hreleases
  · rw [EventGroup.releases, hblocked, Option.any_some, satisfied_waitConnected,
      EventGroup.raised, Bool.or_eq_true, List.contains_iff_mem, List.mem_singleton] at hreleases
    exact hreleases.imp_right Eq.symm
  · rw [hblocked] at hfree
    cases hfree

/-- The MQTT client is blocked in its wait, has not reached it, or there was a connection. -/
structure MqttClientStarts (connected : Prop) (s : Wifi) : Prop where
  blocked : ∀ w ∈ s.events.blocked .mqttClient, w = waitConnected ∧ s.mqttClient = .inWait
  behind : s.mqttClient ≠ .starting → s.events.blocked .mqttClient = none → connected

/-- The time source is blocked in its first wait, has not reached it, or there was a connection;
and when it is in its main loop, the time was synchronised. -/
structure TimeSourceStarts (connected synchronized : Prop) (s : Wifi) : Prop where
  blocked : ∀ w ∈ s.events.blocked .timeSource,
    w = waitConnected ∧ s.timeSource = .inWait ∨ w = waitSynchronized ∧ s.timeSource = .inSyncWait
  behind : s.timeSource ≠ .starting →
    (s.timeSource = .inWait → s.events.blocked .timeSource = none) → connected
  started : s.timeSource = .started → synchronized

/-- The start so far went in order. -/
structure StartsInOrder (history : List Action) (s : Wifi) : Prop where
  run_eq : run step initial history = some s
  ledConsumes : LedConsumes s.events
  synchronized : s.events.bits .TimeIsSynchronized = true ↔ Action.onTimeSync ∈ history
  connected : s.events.bits .ConnectedToWifi = true → HasConnected history
  mqttClient : MqttClientStarts (HasConnected history) s
  timeSource : TimeSourceStarts (HasConnected history) (Action.onTimeSync ∈ history) s

/-- What does not concern the MQTT client leaves it where it is. -/
theorem MqttClientStarts.congr {c c' : Prop} (h : MqttClientStarts c s) (hc : c → c')
    (hevents : s'.events.blocked .mqttClient = s.events.blocked .mqttClient)
    (hposition : s'.mqttClient = s.mqttClient) : MqttClientStarts c' s' :=
  ⟨by rw [hevents, hposition]; exact h.blocked,
    fun hbehind hfree => hc (h.behind (hposition ▸ hbehind) (hevents ▸ hfree))⟩

/-- Setting bits releases the MQTT client only for a connection. -/
theorem MqttClientStarts.setBits {c c' : Prop} {e : SyncEvent} (h : MqttClientStarts c s)
    (hc : c → c') (hbit : s.events.bits .ConnectedToWifi = true → c')
    (he : e = .ConnectedToWifi → c')
    (hevents : s'.events = s.events.setBits [e]) (hposition : s'.mqttClient = s.mqttClient) :
    MqttClientStarts c' s' := by
  constructor
  · intro w hw
    rw [hevents] at hw
    rw [hposition]
    exact h.blocked w (EventGroup.blocked_of_mem_setBits hw)
  · intro hbehind hfree
    rw [hposition] at hbehind
    rw [hevents] at hfree
    cases hbefore : s.events.blocked .mqttClient with
    | none => exact hc (h.behind hbehind hbefore)
    | some w =>
      obtain ⟨rfl, _⟩ := h.blocked w hbefore
      rcases connected_of_released hbefore hfree with hset | hset
      · exact hbit hset
      · exact he hset

/-- What does not concern the time source leaves it where it is. -/
theorem TimeSourceStarts.congr {c c' y y' : Prop} (h : TimeSourceStarts c y s) (hc : c → c')
    (hy : y → y') (hevents : s'.events.blocked .timeSource = s.events.blocked .timeSource)
    (hposition : s'.timeSource = s.timeSource) : TimeSourceStarts c' y' s' :=
  ⟨by rw [hevents, hposition]; exact h.blocked,
    fun hbehind hfree => hc (h.behind (hposition ▸ hbehind)
      (by rw [← hposition, ← hevents]; exact hfree)),
    fun hstarted => hy (h.started (hposition ▸ hstarted))⟩

/-- Setting bits releases the time source from its first wait only for a connection. -/
theorem TimeSourceStarts.setBits {c c' y y' : Prop} {e : SyncEvent} (h : TimeSourceStarts c y s)
    (hc : c → c') (hy : y → y') (hbit : s.events.bits .ConnectedToWifi = true → c')
    (he : e = .ConnectedToWifi → c')
    (hevents : s'.events = s.events.setBits [e]) (hposition : s'.timeSource = s.timeSource) :
    TimeSourceStarts c' y' s' := by
  refine ⟨?_, ?_, fun hstarted => hy (h.started (hposition ▸ hstarted))⟩
  · intro w hw
    rw [hevents] at hw
    rw [hposition]
    exact h.blocked w (EventGroup.blocked_of_mem_setBits hw)
  · intro hbehind hfree
    rw [hposition] at hbehind hfree
    rw [hevents] at hfree
    by_cases hwait : s.timeSource = .inWait
    · cases hbefore : s.events.blocked .timeSource with
      | none => exact hc (h.behind hbehind fun _ => hbefore)
      | some w =>
        rcases h.blocked w hbefore with ⟨rfl, _⟩ | ⟨_, hposition⟩
        · rcases connected_of_released hbefore (hfree hwait) with hset | hset
          · exact hbit hset
          · exact he hset
        · rw [hwait] at hposition
          cases hposition
    · exact hc (h.behind hbehind fun heq => absurd heq hwait)

/-- A task that is not in a wait is not blocked. -/
theorem MqttClientStarts.free {c : Prop} (h : MqttClientStarts c s)
    (hposition : s.mqttClient ≠ .inWait) : s.events.blocked .mqttClient = none :=
  Option.eq_none_iff_forall_not_mem.mpr fun w hw => hposition (h.blocked w hw).2

/-- Outside its two waits the time source is not blocked. -/
theorem TimeSourceStarts.free {c y : Prop} (h : TimeSourceStarts c y s)
    (hwait : s.timeSource ≠ .inWait) (hsync : s.timeSource ≠ .inSyncWait) :
    s.events.blocked .timeSource = none :=
  Option.eq_none_iff_forall_not_mem.mpr fun w hw =>
    (h.blocked w hw).elim (fun h => hwait h.2) fun h => hsync h.2

/-- The wait for the synchronisation is satisfied exactly when its bit is set. -/
@[simp] theorem satisfied_waitSynchronized (bits : SyncEvent → Bool) :
    waitSynchronized.satisfied bits = bits .TimeIsSynchronized := by
  simp [EventWait.satisfied, waitSynchronized]

/-- The MQTT client stays in order in every step that keeps to the history of connections. -/
theorem MqttClientStarts.step {c c' : Prop} (h : MqttClientStarts c s) (hc : c → c')
    (hbit : s.events.bits .ConnectedToWifi = true → c') (hconnected : s'.Connected → c')
    (hstep : s.step a = some s') : MqttClientStarts c' s' := by
  cases a with
  | mqttClientWaits =>
    simp only [Wifi.step, Option.ite_none_right_eq_some, satisfied_waitConnected] at hstep
    obtain ⟨hposition, hstep⟩ := hstep
    obtain rfl := Option.some.inj hstep
    have hfree := h.free (by simp [hposition])
    have hblocked := EventGroup.blocked_waitBits_self (g := s.events) .mqttClient waitConnected
    rw [satisfied_waitConnected, hfree] at hblocked
    cases hset : s.events.bits .ConnectedToWifi with
    | true =>
      rw [hset] at hblocked
      exact ⟨fun w hw => (by rw [hblocked] at hw; cases hw), fun _ _ => hbit hset⟩
    | false =>
      rw [hset] at hblocked
      refine ⟨fun w hw => ?_, fun _ hfree => ?_⟩
      · rw [hblocked] at hw
        exact ⟨(Option.some.inj hw).symm, rfl⟩
      · rw [hblocked] at hfree
        cases hfree
  | mqttClientReleased =>
    simp only [Wifi.step, Option.ite_none_right_eq_some] at hstep
    obtain ⟨⟨hposition, hfree⟩, hstep⟩ := hstep
    obtain rfl := Option.some.inj hstep
    exact ⟨fun w hw => (by rw [hfree] at hw; cases hw),
      fun _ _ => hc (h.behind (by simp [hposition]) hfree)⟩
  | callbackClears callback =>
    simp only [Wifi.step, Option.ite_none_right_eq_some] at hstep
    obtain rfl := Option.some.inj hstep.2
    exact h.congr hc rfl rfl
  | callbackSets =>
    simp only [Wifi.step] at hstep
    split at hstep
    · cases hstep
    · rename_i callback hlast
      rw [Option.ite_none_right_eq_some] at hstep
      obtain rfl := Option.some.inj hstep.2
      refine h.setBits hc hbit (fun he => hconnected ⟨?_, rfl⟩) rfl rfl
      cases callback with
      | connectionCallback => exact hlast
      | disconnectionCallback => cases he
  | onTimeSync =>
    obtain rfl := Option.some.inj hstep
    exact h.setBits hc hbit (fun he => by cases he) rfl rfl
  | ledPolls =>
    simp only [Wifi.step, Option.ite_none_right_eq_some] at hstep
    obtain ⟨_, hstep⟩ := hstep
    split_ifs at hstep
    · obtain rfl := Option.some.inj hstep
      exact h.congr hc rfl rfl
    · obtain rfl := Option.some.inj hstep
      exact h.congr hc rfl rfl
  | ledWaits | timeSourceWaits | timeSourceWaitsForSync =>
    simp only [Wifi.step, Option.ite_none_right_eq_some] at hstep
    obtain rfl := Option.some.inj hstep.2
    exact h.congr hc (EventGroup.blocked_waitBits_of_ne (by decide) _) rfl
  | ledSteady | ledReleased | ledBlinks | timeSourceReleased | timeSourceTests =>
    simp only [Wifi.step, Option.ite_none_right_eq_some] at hstep
    obtain rfl := Option.some.inj hstep.2
    exact h.congr hc rfl rfl
  | timeSourceStopsWaiting =>
    simp only [Wifi.step, Option.ite_none_right_eq_some] at hstep
    obtain rfl := Option.some.inj hstep.2
    have hblocked : (s.events.giveUp .timeSource).blocked .mqttClient =
        s.events.blocked .mqttClient := by simp [EventGroup.giveUp]
    exact h.congr hc hblocked rfl

/-- The time source stays in order in every step that keeps to the histories of connections and
synchronisations. -/
theorem TimeSourceStarts.step {c c' y y' : Prop} (h : TimeSourceStarts c y s) (hc : c → c')
    (hy : y → y') (hbit : s.events.bits .ConnectedToWifi = true → c')
    (hconnected : s'.Connected → c') (hsync : s.events.bits .TimeIsSynchronized = true → y')
    (hstep : s.step a = some s') : TimeSourceStarts c' y' s' := by
  cases a with
  | timeSourceWaits =>
    simp only [Wifi.step, Option.ite_none_right_eq_some, satisfied_waitConnected] at hstep
    obtain ⟨hposition, hstep⟩ := hstep
    obtain rfl := Option.some.inj hstep
    have hfree := h.free (by simp [hposition]) (by simp [hposition])
    have hblocked := EventGroup.blocked_waitBits_self (g := s.events) .timeSource waitConnected
    rw [satisfied_waitConnected, hfree] at hblocked
    cases hset : s.events.bits .ConnectedToWifi with
    | true =>
      rw [hset] at hblocked
      exact ⟨fun w hw => (by rw [hblocked] at hw; cases hw), fun _ _ => hbit hset, by simp⟩
    | false =>
      rw [hset] at hblocked
      refine ⟨fun w hw => ?_, fun _ hfree => ?_, by simp⟩
      · rw [hblocked] at hw
        exact Or.inl ⟨(Option.some.inj hw).symm, rfl⟩
      · have hnone := hfree rfl
        rw [hblocked] at hnone
        cases hnone
  | timeSourceReleased =>
    simp only [Wifi.step, Option.ite_none_right_eq_some] at hstep
    obtain ⟨⟨hposition, hfree⟩, hstep⟩ := hstep
    obtain rfl := Option.some.inj hstep
    exact ⟨fun w hw => (by rw [hfree] at hw; cases hw),
      fun _ _ => hc (h.behind (by simp [hposition]) fun _ => hfree), by simp⟩
  | timeSourceWaitsForSync =>
    simp only [Wifi.step, Option.ite_none_right_eq_some, satisfied_waitSynchronized] at hstep
    obtain ⟨hposition, hstep⟩ := hstep
    obtain rfl := Option.some.inj hstep
    have hfree := h.free (by simp [hposition]) (by simp [hposition])
    have hblocked := EventGroup.blocked_waitBits_self (g := s.events) .timeSource waitSynchronized
    rw [satisfied_waitSynchronized, hfree] at hblocked
    have hbefore := hc (h.behind (by simp [hposition]) fun _ => hfree)
    cases hset : s.events.bits .TimeIsSynchronized with
    | true =>
      rw [hset] at hblocked
      exact ⟨fun w hw => (by rw [hblocked] at hw; cases hw), fun _ _ => hbefore, by simp⟩
    | false =>
      rw [hset] at hblocked
      refine ⟨fun w hw => ?_, fun _ _ => hbefore, by simp⟩
      rw [hblocked] at hw
      exact Or.inr ⟨(Option.some.inj hw).symm, rfl⟩
  | timeSourceStopsWaiting =>
    simp only [Wifi.step, Option.ite_none_right_eq_some] at hstep
    obtain ⟨hposition, hstep⟩ := hstep
    obtain rfl := Option.some.inj hstep
    have hblocked : (s.events.giveUp .timeSource).blocked .timeSource = none := by
      simp [EventGroup.giveUp]
    exact ⟨fun w hw => (by rw [hblocked] at hw; cases hw),
      fun _ _ => hc (h.behind (by simp [hposition]) (by simp [hposition])), by simp⟩
  | timeSourceTests =>
    simp only [Wifi.step, Option.ite_none_right_eq_some] at hstep
    obtain ⟨hposition, hstep⟩ := hstep
    obtain rfl := Option.some.inj hstep
    have hfree := h.free (by simp [hposition]) (by simp [hposition])
    refine ⟨fun w hw => (by rw [hfree] at hw; cases hw),
      fun _ _ => hc (h.behind (by simp [hposition]) (by simp [hposition])), fun hstarted => ?_⟩
    by_cases hset : s.events.bits .TimeIsSynchronized = true
    · exact hsync hset
    · simp [hset] at hstarted
  | callbackClears callback =>
    simp only [Wifi.step, Option.ite_none_right_eq_some] at hstep
    obtain rfl := Option.some.inj hstep.2
    exact h.congr hc hy rfl rfl
  | callbackSets =>
    simp only [Wifi.step] at hstep
    split at hstep
    · cases hstep
    · rename_i callback hlast
      rw [Option.ite_none_right_eq_some] at hstep
      obtain rfl := Option.some.inj hstep.2
      refine h.setBits hc hy hbit (fun he => hconnected ⟨?_, rfl⟩) rfl rfl
      cases callback with
      | connectionCallback => exact hlast
      | disconnectionCallback => cases he
  | onTimeSync =>
    obtain rfl := Option.some.inj hstep
    exact h.setBits hc hy hbit (fun he => by cases he) rfl rfl
  | ledPolls =>
    simp only [Wifi.step, Option.ite_none_right_eq_some] at hstep
    obtain ⟨_, hstep⟩ := hstep
    split_ifs at hstep
    · obtain rfl := Option.some.inj hstep
      exact h.congr hc hy rfl rfl
    · obtain rfl := Option.some.inj hstep
      exact h.congr hc hy rfl rfl
  | ledWaits | mqttClientWaits =>
    simp only [Wifi.step, Option.ite_none_right_eq_some] at hstep
    obtain rfl := Option.some.inj hstep.2
    exact h.congr hc hy (EventGroup.blocked_waitBits_of_ne (by decide) _) rfl
  | ledSteady | ledReleased | ledBlinks | mqttClientReleased =>
    simp only [Wifi.step, Option.ite_none_right_eq_some] at hstep
    obtain rfl := Option.some.inj hstep.2
    exact h.congr hc hy rfl rfl

/-- Every step keeps the start in order, with its action added to the history. -/
theorem StartsInOrder.step (h : StartsInOrder history s) (hstep : s.step a = some s') :
    StartsInOrder (history ++ [a]) s' := by
  have hrun := run_concat h.run_eq hstep
  obtain ⟨hsynchronized, hconnected⟩ := bits_step h.ledConsumes hstep
  have hc : HasConnected history → HasConnected (history ++ [a]) := fun hc => hc.append [a]
  have hlast : s'.Connected → HasConnected (history ++ [a]) := Passes.last hrun
  have hy : Action.onTimeSync ∈ history → Action.onTimeSync ∈ history ++ [a] :=
    List.mem_append_left [a]
  exact
    { run_eq := hrun
      ledConsumes := (step_ledView h.ledConsumes hstep).1
      synchronized := by
        rw [hsynchronized, h.synchronized, List.mem_append, List.mem_singleton, eq_comm]
      connected := fun hset => (hconnected hset).elim (fun hset => hc (h.connected hset)) hlast
      mqttClient := h.mqttClient.step hc (fun hset => hc (h.connected hset)) hlast hstep
      timeSource := h.timeSource.step hc hy (fun hset => hc (h.connected hset)) hlast
        (fun hset => hy (h.synchronized.mp hset)) hstep }

/-- At the start nobody has passed a wait, and nothing has happened. -/
theorem initial_startsInOrder : StartsInOrder [] initial where
  run_eq := rfl
  ledConsumes := LedConsumes.empty
  synchronized := by simp [initial, EventGroup.empty]
  connected := by simp [initial, EventGroup.empty]
  mqttClient := ⟨by simp [initial, EventGroup.empty], by simp [initial]⟩
  timeSource := ⟨by simp [initial, EventGroup.empty], by simp [initial], by simp [initial]⟩

/-- Nothing starts too early, and once the time was synchronised nothing keeps the time source
from its main loop. -/
structure StartedInOrder (actions : List Action) (s : Wifi) : Prop where
  mqttClient : s.mqttClient = .started → HasConnected actions
  timeSource : s.timeSource = .started → HasConnected actions ∧ Action.onTimeSync ∈ actions
  notHeld : Action.onTimeSync ∈ actions → s.events.blocked .timeSource ≠ some waitSynchronized
  starts : Action.onTimeSync ∈ actions → ∀ s', s.step .timeSourceTests = some s' →
    s'.timeSource = .started

/-- **Everything starts in order**: at the end of every run, the MQTT client is behind its wait
only if the run has passed through a connection, the time source is in its main loop only if the
time was synchronised as well, and after that it neither stays in its second wait nor repeats it. -/
theorem startedInOrder_of_run {actions : List Action} {s : Wifi}
    (hrun : run step initial actions = some s) : StartedInOrder actions s := by
  have h := invariant_of_history StartsInOrder (fun _ _ _ _ h hstep => h.step hstep)
    initial_startsInOrder hrun
  refine ⟨fun hstarted => ?_, fun hstarted => ⟨?_, h.timeSource.started hstarted⟩,
    fun hsync hblocked => ?_, fun hsync s' hstep => ?_⟩
  · exact h.mqttClient.behind (by simp [hstarted]) (h.mqttClient.free (by simp [hstarted]))
  · exact h.timeSource.behind (by simp [hstarted]) (by simp [hstarted])
  · have hclear := h.ledConsumes.settled _ _ hblocked
    rw [satisfied_waitSynchronized, h.synchronized.mpr hsync] at hclear
    cases hclear
  · simp only [step, Option.ite_none_right_eq_some, h.synchronized.mpr hsync, if_true] at hstep
    obtain rfl := Option.some.inj hstep.2
    rfl

/-- Both tasks wait for the connection, and the time is synchronised during the second wait. -/
def startAfterConnection : List Action :=
  [.mqttClientWaits, .timeSourceWaits, .callbackClears .connectionCallback, .callbackSets,
    .ledPolls, .mqttClientReleased, .timeSourceReleased, .timeSourceWaitsForSync, .onTimeSync,
    .timeSourceStopsWaiting, .timeSourceTests]

/-- After a connection and a synchronisation the time source has started. -/
theorem startedInOrder_startAfterConnection : ∃ s, run step initial startAfterConnection = some s ∧
    s.timeSource = .started ∧ StartedInOrder startAfterConnection s :=
  ⟨_, rfl, by decide, startedInOrder_of_run rfl⟩

end NixieVfdCentral.Wifi
