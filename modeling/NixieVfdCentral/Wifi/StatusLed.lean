import NixieVfdCentral.Wifi.SyncEvents

/-!
# The status LED tracks the wifi state

For the status LED only the two wifi bits matter, and whether the LED task is blocked.
This view is a small machine of its own, which the tasks refine: what the other tasks do
to the event group does not show in it. In the view, each callback leaves the LED task
with what it needs, because it clears the one bit before it sets the other.
-/

namespace NixieVfdCentral

open Runs

/-- What the status LED and the callbacks see. -/
structure LedView where
  /-- `ConnectedToWifi` is set. -/
  connected : Bool
  /-- `ConnectionFailed` is set. -/
  failed : Bool
  /-- The LED task is blocked. -/
  blocked : Bool
  /-- Where it stands. -/
  led : LedPosition
  /-- The last callback that has begun. -/
  last : Option WifiCallback
  /-- Whether it is half done. -/
  halfDone : Bool

namespace LedView

/-- The LED task is in its steady branch and not released from its wait. -/
def InSteadyBranch (v : LedView) : Prop :=
  v.led = .steady ∨ v.led = .beforeWait ∨ v.led = .inWait ∧ v.blocked = true

/-- The LED task is in its steady branch, before the wait. -/
def BeforeWait (v : LedView) : Prop := v.led = .steady ∨ v.led = .beforeWait

/-- One step in the view. -/
def step (v : LedView) : Wifi.Action → Option LedView
  | .callbackClears .connectionCallback =>
    if v.halfDone = false then
      some { v with failed := false, last := some .connectionCallback, halfDone := true }
    else none
  | .callbackClears .disconnectionCallback =>
    if v.halfDone = false then
      some { v with connected := false, last := some .disconnectionCallback, halfDone := true }
    else none
  | .callbackSets =>
    match v.last with
    | none => none
    | some .connectionCallback =>
      if v.halfDone = true then some { v with connected := true, halfDone := false } else none
    | some .disconnectionCallback =>
      if v.halfDone = true then
        some { v with failed := !v.blocked, blocked := false, halfDone := false }
      else none
  | .ledPolls =>
    if v.led = .polling then
      if v.connected then some { v with connected := false, led := .steady }
      else some { v with led := .blinking }
    else none
  | .ledSteady => if v.led = .steady then some { v with led := .beforeWait } else none
  | .ledWaits =>
    if v.led = .beforeWait then
      if v.failed then some { v with failed := false, led := .polling }
      else some { v with blocked := true, led := .inWait }
    else none
  | .ledReleased =>
    if v.led = .inWait ∧ v.blocked = false then some { v with led := .polling } else none
  | .ledBlinks => if v.led = .blinking then some { v with led := .polling } else none
  | .onTimeSync | .mqttClientWaits | .mqttClientReleased | .timeSourceWaits | .timeSourceReleased
  | .timeSourceWaitsForSync | .timeSourceStopsWaiting | .timeSourceTests => some v

/-- What the last callback has achieved. -/
structure Tracked (v : LedView) : Prop where
  inWait : v.blocked = true → v.led = .inWait
  connection : v.last = some .connectionCallback →
    v.failed = false ∧ (v.halfDone = false → v.connected = true ∨ v.InSteadyBranch)
  disconnection : v.last = some .disconnectionCallback →
    v.connected = false ∧
      (v.halfDone = false → v.blocked = false ∧ (v.BeforeWait → v.failed = true))

variable {v v' : LedView} {a : Wifi.Action}

/-- Outside its wait the LED task is not blocked on the event group. -/
theorem Tracked.not_blocked (h : Tracked v) (hled : v.led ≠ .inWait) : v.blocked = false := by
  by_contra hblocked
  exact hled (h.inWait (by simpa using hblocked))

/-- The LED task moves on outside its steady branch. -/
private theorem Tracked.outside (h : Tracked v) (hblocked : v.blocked = false)
    (hnot : ¬v.InSteadyBranch) (led : LedPosition)
    (hbefore : ¬BeforeWait { v with led := led }) : Tracked { v with led := led } where
  inWait hblocked' := by
    rw [show v.blocked = true from hblocked'] at hblocked
    cases hblocked
  connection hlast := ⟨(h.connection hlast).1, fun hdone =>
    Or.inl (((h.connection hlast).2 hdone).resolve_right hnot)⟩
  disconnection hlast := ⟨(h.disconnection hlast).1, fun _ =>
    ⟨hblocked, fun hbefore' => absurd hbefore' hbefore⟩⟩

/-- A callback that clears the bit of the other one keeps the view tracked. -/
private theorem Tracked.callbackClears {callback : WifiCallback} (h : Tracked v)
    (hstep : v.step (.callbackClears callback) = some v') : Tracked v' := by
  cases callback with
  | connectionCallback =>
    simp only [LedView.step, Option.ite_none_right_eq_some] at hstep
    obtain rfl := Option.some.inj hstep.2
    exact ⟨h.inWait, fun _ => ⟨rfl, by simp⟩, by simp⟩
  | disconnectionCallback =>
    simp only [LedView.step, Option.ite_none_right_eq_some] at hstep
    obtain rfl := Option.some.inj hstep.2
    exact ⟨h.inWait, by simp, fun _ => ⟨rfl, by simp⟩⟩

/-- A callback that sets its bit. A LED task that is blocked is released by the second bit,
one that is still before its wait finds the bit set. -/
private theorem Tracked.callbackSets (h : Tracked v) (hstep : v.step .callbackSets = some v') :
    Tracked v' := by
  simp only [LedView.step] at hstep
  split at hstep
  · cases hstep
  · rename_i hlast
    rw [Option.ite_none_right_eq_some] at hstep
    obtain rfl := Option.some.inj hstep.2
    refine ⟨h.inWait, fun _ => ⟨(h.connection hlast).1, fun _ => Or.inl rfl⟩, ?_⟩
    simp [hlast]
  · rename_i hlast
    rw [Option.ite_none_right_eq_some] at hstep
    obtain rfl := Option.some.inj hstep.2
    refine ⟨by simp, by simp [hlast], fun _ => ⟨(h.disconnection hlast).1, fun _ => ⟨rfl, ?_⟩⟩⟩
    rintro (hled | hled)
    · simp [h.not_blocked (by simp [show v.led = .steady from hled])]
    · simp [h.not_blocked (by simp [show v.led = .beforeWait from hled])]

/-- The poll of the LED task, which consumes the bit of a connection, keeps the view tracked. -/
private theorem Tracked.ledPolls (h : Tracked v) (hstep : v.step .ledPolls = some v') :
    Tracked v' := by
  simp only [LedView.step, Option.ite_none_right_eq_some] at hstep
  obtain ⟨hled, hstep⟩ := hstep
  have hblocked := h.not_blocked (by simp [hled])
  split_ifs at hstep with hconnected
  · obtain rfl := Option.some.inj hstep
    refine ⟨by simp [hblocked], fun hlast => ⟨(h.connection hlast).1, fun _ => ?_⟩, fun hlast => ?_⟩
    · exact Or.inr (Or.inl rfl)
    · rw [(h.disconnection hlast).1] at hconnected
      cases hconnected
  · obtain rfl := Option.some.inj hstep
    exact h.outside hblocked (by simp [InSteadyBranch, hled]) .blinking (by simp [BeforeWait])

/-- The wait of the LED task, which consumes the bit of a failure, keeps the view tracked. -/
private theorem Tracked.ledWaits (h : Tracked v) (hstep : v.step .ledWaits = some v') :
    Tracked v' := by
  simp only [LedView.step, Option.ite_none_right_eq_some] at hstep
  obtain ⟨hled, hstep⟩ := hstep
  have hblocked := h.not_blocked (by simp [hled])
  split_ifs at hstep with hfailed
  · obtain rfl := Option.some.inj hstep
    refine ⟨by simp [hblocked], fun hlast => ?_,
      fun hlast => ⟨(h.disconnection hlast).1, fun _ => ⟨hblocked, by simp [BeforeWait]⟩⟩⟩
    rw [(h.connection hlast).1] at hfailed
    cases hfailed
  · obtain rfl := Option.some.inj hstep
    refine ⟨fun _ => rfl, fun hlast => ⟨(h.connection hlast).1, fun _ => ?_⟩,
      fun hlast => ⟨(h.disconnection hlast).1, fun hdone => ?_⟩⟩
    · exact Or.inr (Or.inr (Or.inr ⟨rfl, rfl⟩))
    · exact absurd (((h.disconnection hlast).2 hdone).2 (Or.inr hled)) hfailed

/-- **One step keeps what the last callback has achieved**, whichever task takes it. -/
theorem Tracked.step (h : Tracked v) (hstep : v.step a = some v') : Tracked v' := by
  cases a with
  | callbackClears callback => exact h.callbackClears hstep
  | callbackSets => exact h.callbackSets hstep
  | ledPolls => exact h.ledPolls hstep
  | ledWaits => exact h.ledWaits hstep
  | ledSteady =>
    simp only [LedView.step, Option.ite_none_right_eq_some] at hstep
    obtain ⟨hled, hstep⟩ := hstep
    obtain rfl := Option.some.inj hstep
    have hblocked := h.not_blocked (by simp [hled])
    refine ⟨by simp [hblocked], fun hlast => ⟨(h.connection hlast).1, fun _ => ?_⟩,
      fun hlast => ⟨(h.disconnection hlast).1, fun hdone => ?_⟩⟩
    · exact Or.inr (Or.inr (Or.inl rfl))
    · exact ⟨hblocked, fun _ => ((h.disconnection hlast).2 hdone).2 (Or.inl hled)⟩
  | ledReleased =>
    simp only [LedView.step, Option.ite_none_right_eq_some] at hstep
    obtain ⟨⟨hled, hblocked⟩, hstep⟩ := hstep
    obtain rfl := Option.some.inj hstep
    exact h.outside hblocked (by simp [InSteadyBranch, hled, hblocked]) .polling
      (by simp [BeforeWait])
  | ledBlinks =>
    simp only [LedView.step, Option.ite_none_right_eq_some] at hstep
    obtain ⟨hled, hstep⟩ := hstep
    obtain rfl := Option.some.inj hstep
    exact h.outside (h.not_blocked (by simp [hled])) (by simp [InSteadyBranch, hled]) .polling
      (by simp [BeforeWait])
  | onTimeSync | mqttClientWaits | mqttClientReleased | timeSourceWaits | timeSourceReleased
  | timeSourceWaitsForSync | timeSourceStopsWaiting | timeSourceTests =>
    obtain rfl := Option.some.inj hstep
    exact h

/-- While `ConnectionFailed` is clear, no step but a callback leads out of the steady branch. -/
theorem inSteadyBranch_step (hfailed : v.failed = false) (hsteady : v.InSteadyBranch)
    (ha : a.isCallback = false) (hstep : v.step a = some v') : v'.InSteadyBranch := by
  cases a with
  | callbackClears callback => cases ha
  | callbackSets => cases ha
  | ledPolls =>
    simp only [LedView.step, Option.ite_none_right_eq_some] at hstep
    simp [InSteadyBranch, hstep.1] at hsteady
  | ledWaits =>
    simp only [LedView.step, Option.ite_none_right_eq_some, hfailed] at hstep
    obtain rfl := Option.some.inj hstep.2
    exact Or.inr (Or.inr ⟨rfl, rfl⟩)
  | ledSteady =>
    simp only [LedView.step, Option.ite_none_right_eq_some] at hstep
    obtain rfl := Option.some.inj hstep.2
    exact Or.inr (Or.inl rfl)
  | ledReleased =>
    simp only [LedView.step, Option.ite_none_right_eq_some] at hstep
    simp [InSteadyBranch, hstep.1] at hsteady
  | ledBlinks =>
    simp only [LedView.step, Option.ite_none_right_eq_some] at hstep
    simp [InSteadyBranch, hstep.1] at hsteady
  | onTimeSync | mqttClientWaits | mqttClientReleased | timeSourceWaits | timeSourceReleased
  | timeSourceWaitsForSync | timeSourceStopsWaiting | timeSourceTests =>
    obtain rfl := Option.some.inj hstep
    exact hsteady

end LedView

namespace Wifi

/-- The view of the status LED. -/
def ledView (s : Wifi) : LedView where
  connected := s.events.bits .ConnectedToWifi
  failed := s.events.bits .ConnectionFailed
  blocked := (s.events.blocked .statusLed).isSome
  led := s.led
  last := s.last
  halfDone := s.halfDone

/-- The wait for a failure is satisfied exactly when its bit is set. -/
@[simp] theorem satisfied_waitFailed (bits : SyncEvent → Bool) :
    waitFailed.satisfied bits = bits .ConnectionFailed := by
  simp [EventWait.satisfied, waitFailed]

/-- The poll of the connection is satisfied exactly when its bit is set. -/
@[simp] theorem satisfied_pollConnected (bits : SyncEvent → Bool) :
    pollConnected.satisfied bits = bits .ConnectedToWifi := by
  simp [EventWait.satisfied, pollConnected]

/-- The LED task alone consumes bits, and it blocks only for `ConnectionFailed`. -/
structure LedConsumes (g : EventGroup SyncTask SyncEvent) : Prop where
  settled : g.Settled
  onlyConsumer : g.OnlyConsumer .statusLed
  ledWait : ∀ w ∈ g.blocked .statusLed, w = waitFailed

variable {g : EventGroup SyncTask SyncEvent} {e : SyncEvent} {task : SyncTask}
  {w : EventWait SyncEvent}

/-- In an empty group nobody is blocked, so only the LED task consumes bits. -/
theorem LedConsumes.empty : LedConsumes .empty where
  settled := EventGroup.settled_empty
  onlyConsumer _ _ w hw := by cases hw
  ledWait w hw := by cases hw

/-- Clearing bits leaves the LED task the only one whose waits clear bits. -/
theorem LedConsumes.clearBits (h : LedConsumes g) (mask : List SyncEvent) :
    LedConsumes (g.clearBits mask) :=
  ⟨h.settled.clearBits mask, h.onlyConsumer, h.ledWait⟩

/-- Setting bits leaves the LED task the only one whose waits clear bits. -/
theorem LedConsumes.setBits (h : LedConsumes g) (mask : List SyncEvent) :
    LedConsumes (g.setBits mask) :=
  ⟨EventGroup.settled_setBits g mask, h.onlyConsumer.setBits mask,
    fun w hw => h.ledWait w (EventGroup.blocked_of_mem_setBits hw)⟩

/-- Setting a bit other than `ConnectionFailed` sets it, and does not release the LED task. -/
theorem LedConsumes.setBits_of_ne (h : LedConsumes g) (he : e ≠ .ConnectionFailed) :
    (∀ b, (g.setBits [e]).bits b = (g.bits b || [e].contains b)) ∧
      (g.setBits [e]).blocked .statusLed = g.blocked .statusLed := by
  have hunsatisfied : ∀ w ∈ g.blocked .statusLed, w.satisfied (g.raised [e]) = false := by
    intro w hw
    have hclear := h.settled _ w hw
    rw [h.ledWait w hw, satisfied_waitFailed] at hclear ⊢
    simpa [EventGroup.raised, hclear] using he.symm
  constructor
  · intro b
    refine EventGroup.bits_setBits_of_not_consumes fun hconsumes => ?_
    obtain ⟨w, hw, hsatisfied, _⟩ := h.onlyConsumer.consumes_iff.mp hconsumes
    rw [hunsatisfied w hw] at hsatisfied
    cases hsatisfied
  · rw [EventGroup.blocked_setBits, if_neg]
    intro hreleases
    obtain ⟨w, hw, hsatisfied⟩ := (Option.any_eq_true _ _).mp hreleases
    rw [hunsatisfied w hw] at hsatisfied
    cases hsatisfied

/-- Setting `ConnectionFailed` releases the LED task, and the bit stays set exactly when the
LED task was not blocked. -/
theorem LedConsumes.setBits_failed (h : LedConsumes g) :
    (g.setBits [.ConnectionFailed]).bits .ConnectedToWifi = g.bits .ConnectedToWifi ∧
      (g.setBits [.ConnectionFailed]).bits .ConnectionFailed = !(g.blocked .statusLed).isSome ∧
      (g.setBits [.ConnectionFailed]).blocked .statusLed = none := by
  have hconsumes : ∀ b, g.Consumes [.ConnectionFailed] b ↔
      (g.blocked .statusLed).isSome = true ∧ b = .ConnectionFailed := by
    intro b
    rw [h.onlyConsumer.consumes_iff]
    constructor
    · rintro ⟨w, hw, _, _, hb⟩
      rw [h.ledWait w hw] at hb
      exact ⟨Option.isSome_iff_exists.mpr ⟨w, hw⟩, List.mem_singleton.mp hb⟩
    · rintro ⟨hblocked, rfl⟩
      obtain ⟨w, hw⟩ := Option.isSome_iff_exists.mp hblocked
      refine ⟨w, hw, ?_⟩
      rw [h.ledWait w hw, satisfied_waitFailed]
      exact ⟨by simp [EventGroup.raised], rfl, List.mem_singleton_self _⟩
  refine ⟨?_, ?_, ?_⟩
  · rw [EventGroup.bits_setBits_of_not_consumes (by simp [hconsumes])]
    simp
  · cases hblocked : (g.blocked .statusLed).isSome with
    | true => rw [EventGroup.bits_setBits_of_consumes ((hconsumes _).mpr ⟨hblocked, rfl⟩)]; rfl
    | false =>
      rw [EventGroup.bits_setBits_of_not_consumes (by simp [hconsumes, hblocked])]
      simp
  · rw [EventGroup.blocked_setBits]
    cases hblocked : g.blocked .statusLed with
    | none => simp
    | some w =>
      have hw := h.ledWait w hblocked
      simp [EventGroup.releases, hblocked, hw, EventGroup.raised]

/-- A wait of another task that clears nothing does not show in the view of the LED. -/
theorem LedConsumes.waitBits (h : LedConsumes g) (htask : task ≠ .statusLed)
    (hw : w.clearOnExit = false) : LedConsumes (g.waitBits task w) ∧
      (g.waitBits task w).bits = g.bits ∧
      (g.waitBits task w).blocked .statusLed = g.blocked .statusLed := by
  have hview : (g.waitBits task w).bits = g.bits ∧
      (g.waitBits task w).blocked .statusLed = g.blocked .statusLed := by
    cases hsatisfied : w.satisfied g.bits with
    | true =>
      obtain ⟨hblocked, hbits⟩ := EventGroup.waitBits_of_satisfied (i := task) hsatisfied
      exact ⟨funext fun b => by rw [hbits, hw]; simp, by rw [hblocked]⟩
    | false =>
      obtain ⟨hbits, hblocked⟩ := EventGroup.waitBits_of_not_satisfied (i := task) hsatisfied
      exact ⟨hbits, by rw [hblocked, Function.update_of_ne htask.symm]⟩
  refine ⟨⟨h.settled.waitBits task w, h.onlyConsumer.waitBits (Or.inr hw), ?_⟩, hview⟩
  rw [hview.2]
  exact h.ledWait

/-- Another task that gives up changes nothing for the LED task. -/
theorem LedConsumes.giveUp (h : LedConsumes g) (task : SyncTask) (htask : task ≠ .statusLed) :
    LedConsumes (g.giveUp task) ∧ (g.giveUp task).blocked .statusLed = g.blocked .statusLed := by
  have hblocked : (g.giveUp task).blocked .statusLed = g.blocked .statusLed :=
    Function.update_of_ne htask.symm _ _
  refine ⟨⟨h.settled.giveUp task, h.onlyConsumer.giveUp task, ?_⟩, hblocked⟩
  rw [hblocked]
  exact h.ledWait

/-- The wait of the LED task ends at once and clears the bit, or the LED task blocks. -/
theorem LedConsumes.waitFailed (h : LedConsumes g) :
    LedConsumes (g.waitBits .statusLed waitFailed) ∧
      (g.waitBits .statusLed NixieVfdCentral.waitFailed).bits .ConnectedToWifi =
        g.bits .ConnectedToWifi ∧
      (g.waitBits .statusLed NixieVfdCentral.waitFailed).bits .ConnectionFailed = false ∧
      (g.waitBits .statusLed NixieVfdCentral.waitFailed).blocked .statusLed =
        if g.bits .ConnectionFailed then g.blocked .statusLed
        else some NixieVfdCentral.waitFailed := by
  have hsound := h.onlyConsumer.waitBits (j := .statusLed) (w := NixieVfdCentral.waitFailed)
    (Or.inl rfl)
  have hsettled := h.settled.waitBits .statusLed NixieVfdCentral.waitFailed
  cases hfailed : g.bits .ConnectionFailed with
  | true =>
    obtain ⟨hblocked, hbits⟩ := EventGroup.waitBits_of_satisfied (i := .statusLed)
      ((satisfied_waitFailed g.bits).trans hfailed)
    refine ⟨⟨hsettled, hsound, by rw [hblocked]; exact h.ledWait⟩, ?_, ?_, by simp [hblocked]⟩
    · rw [hbits]
      simp [NixieVfdCentral.waitFailed]
    · rw [hbits]
      simp [NixieVfdCentral.waitFailed]
  | false =>
    obtain ⟨hbits, hblocked⟩ := EventGroup.waitBits_of_not_satisfied (i := .statusLed)
      ((satisfied_waitFailed g.bits).trans hfailed)
    refine ⟨⟨hsettled, hsound, fun w hw => ?_⟩, by rw [hbits], by rw [hbits, hfailed], ?_⟩
    · rw [hblocked, Function.update_self] at hw
      exact (Option.some.inj hw).symm
    · rw [hblocked, Function.update_self]
      simp

variable {s s' : Wifi} {a : Action}

/-- Two states that differ in nothing the LED task looks at have the same view of it. -/
private theorem ledView_congr (hled : s'.led = s.led) (hlast : s'.last = s.last)
    (hhalf : s'.halfDone = s.halfDone) (hbits : ∀ b, b ≠ .TimeIsSynchronized →
      s'.events.bits b = s.events.bits b)
    (hblocked : s'.events.blocked .statusLed = s.events.blocked .statusLed) :
    s'.ledView = s.ledView := by
  simp only [ledView, hled, hlast, hhalf, hblocked, hbits .ConnectedToWifi (by decide),
    hbits .ConnectionFailed (by decide)]

/-- A wait of another task shows in no state that differs by it only. -/
private theorem ledView_waitBits (task : SyncTask) (w : EventWait SyncEvent)
    (h : LedConsumes s.events) (htask : task ≠ .statusLed)
    (hw : w.clearOnExit = false) {mqttClient : MqttClientPosition}
    {timeSource : TimeSourcePosition} :
    LedConsumes (s.events.waitBits task w) ∧ some s.ledView = some (ledView
      { s with
        events := s.events.waitBits task w
        mqttClient := mqttClient
        timeSource := timeSource }) := by
  obtain ⟨hsound, hbits, hblocked⟩ := h.waitBits htask hw
  refine ⟨hsound, congrArg some (Eq.symm ?_)⟩
  exact ledView_congr rfl rfl rfl (fun b _ => congrFun hbits b) hblocked

/-- **The tasks refine the view of the LED**, step by step. -/
theorem step_ledView (h : LedConsumes s.events) (hstep : s.step a = some s') :
    LedConsumes s'.events ∧ s.ledView.step a = some s'.ledView := by
  cases a with
  | callbackClears callback =>
    simp only [step, Option.ite_none_right_eq_some] at hstep
    obtain ⟨hdone, hstep⟩ := hstep
    obtain rfl := Option.some.inj hstep
    refine ⟨h.clearBits _, ?_⟩
    cases callback <;> simp [LedView.step, ledView, hdone, WifiCallback.clears]
  | callbackSets =>
    simp only [step] at hstep
    cases hlast : s.last with
    | none => simp [hlast] at hstep
    | some callback =>
      simp only [hlast, Option.ite_none_right_eq_some] at hstep
      obtain ⟨hhalf, hstep⟩ := hstep
      obtain rfl := Option.some.inj hstep
      refine ⟨h.setBits _, ?_⟩
      cases callback with
      | connectionCallback =>
        obtain ⟨hbits, hblocked⟩ := h.setBits_of_ne (e := .ConnectedToWifi) (by decide)
        simp [LedView.step, ledView, hlast, hhalf, WifiCallback.sets, hbits, hblocked]
      | disconnectionCallback =>
        obtain ⟨hconnected, hfailed, hblocked⟩ := h.setBits_failed
        simp [LedView.step, ledView, hlast, hhalf, WifiCallback.sets, hconnected, hfailed, hblocked]
  | onTimeSync =>
    obtain rfl := Option.some.inj hstep
    obtain ⟨hbits, hblocked⟩ := h.setBits_of_ne (e := .TimeIsSynchronized) (by decide)
    refine ⟨h.setBits _, ?_⟩
    change some s.ledView = some (ledView _)
    refine congrArg some (Eq.symm (ledView_congr rfl rfl rfl (fun b hb => ?_) hblocked))
    simp [hbits, hb]
  | ledPolls =>
    simp only [step, Option.ite_none_right_eq_some, satisfied_pollConnected] at hstep
    obtain ⟨hled, hstep⟩ := hstep
    split_ifs at hstep with hconnected
    · obtain rfl := Option.some.inj hstep
      refine ⟨h.clearBits _, ?_⟩
      simp [LedView.step, ledView, hled, hconnected, EventGroup.afterWait, pollConnected]
    · obtain rfl := Option.some.inj hstep
      refine ⟨h, ?_⟩
      simp [LedView.step, ledView, hled, hconnected]
  | ledWaits =>
    simp only [step, Option.ite_none_right_eq_some, satisfied_waitFailed] at hstep
    obtain ⟨hled, hstep⟩ := hstep
    obtain rfl := Option.some.inj hstep
    obtain ⟨hsound, hconnected, hfailed, hblocked⟩ := h.waitFailed
    refine ⟨hsound, ?_⟩
    cases hbit : s.events.bits .ConnectionFailed <;>
      simp [LedView.step, ledView, hled, hconnected, hfailed, hblocked, hbit]
  | ledSteady | ledBlinks =>
    simp only [step, Option.ite_none_right_eq_some] at hstep
    obtain ⟨hled, hstep⟩ := hstep
    obtain rfl := Option.some.inj hstep
    refine ⟨h, ?_⟩
    simp [LedView.step, ledView, hled]
  | ledReleased =>
    simp only [step, Option.ite_none_right_eq_some] at hstep
    obtain ⟨⟨hled, hblocked⟩, hstep⟩ := hstep
    obtain rfl := Option.some.inj hstep
    refine ⟨h, ?_⟩
    simp [LedView.step, ledView, hled, hblocked]
  | mqttClientWaits =>
    simp only [step, Option.ite_none_right_eq_some] at hstep
    obtain rfl := Option.some.inj hstep.2
    exact ledView_waitBits .mqttClient waitConnected h (by decide) rfl
  | timeSourceWaits =>
    simp only [step, Option.ite_none_right_eq_some] at hstep
    obtain rfl := Option.some.inj hstep.2
    exact ledView_waitBits .timeSource waitConnected h (by decide) rfl
  | timeSourceWaitsForSync =>
    simp only [step, Option.ite_none_right_eq_some] at hstep
    obtain rfl := Option.some.inj hstep.2
    exact ledView_waitBits .timeSource waitSynchronized h (by decide) rfl
  | timeSourceStopsWaiting =>
    simp only [step, Option.ite_none_right_eq_some] at hstep
    obtain rfl := Option.some.inj hstep.2
    obtain ⟨hsound, hblocked⟩ := h.giveUp .timeSource (by decide)
    refine ⟨hsound, ?_⟩
    change some s.ledView = some (ledView _)
    exact congrArg some (ledView_congr rfl rfl rfl (fun _ _ => rfl) hblocked).symm
  | mqttClientReleased | timeSourceReleased | timeSourceTests =>
    simp only [step, Option.ite_none_right_eq_some] at hstep
    obtain rfl := Option.some.inj hstep.2
    exact ⟨h, rfl⟩

/-- The status LED is in its steady branch, and not yet released from its wait. -/
def InSteadyBranch (s : Wifi) : Prop :=
  s.led = .steady ∨ s.led = .beforeWait ∨
    s.led = .inWait ∧ s.events.blocked .statusLed ≠ none

/-- The status LED is in its steady branch, before the wait. -/
def BeforeWait (s : Wifi) : Prop := s.led = .steady ∨ s.led = .beforeWait

/-- What holds once the last callback is completed. -/
structure LedTracksWifi (s : Wifi) : Prop where
  /-- After a connection the LED is steady or about to see that it has to be. -/
  connected : s.last = some .connectionCallback →
    s.events.bits .ConnectionFailed = false ∧
      (s.events.bits .ConnectedToWifi = true ∨ s.InSteadyBranch)
  /-- After a connection no step but a callback makes a steady LED blink. -/
  staysSteady : s.last = some .connectionCallback → s.InSteadyBranch →
    ∀ a s', a.isCallback = false → s.step a = some s' → s'.InSteadyBranch
  /-- After a disconnection the LED is blinking or about to see that it has to. -/
  disconnected : s.last = some .disconnectionCallback →
    s.events.bits .ConnectedToWifi = false ∧ s.events.blocked .statusLed = none ∧
      (s.BeforeWait → s.events.bits .ConnectionFailed = true)
  /-- After a disconnection a LED that has not reached its wait does not block there. -/
  returnsAtOnce : s.last = some .disconnectionCallback →
    ∀ s', s.step .ledWaits = some s' → s'.led = .polling

/-- What the tasks keep of the event group and of its view. -/
def LedSound (s : Wifi) : Prop := LedConsumes s.events ∧ s.ledView.Tracked

/-- The LED view is in the steady branch exactly when the tasks are. -/
theorem inSteadyBranch_ledView : s.ledView.InSteadyBranch ↔ s.InSteadyBranch := by
  simp [LedView.InSteadyBranch, InSteadyBranch, ledView, Option.isSome_iff_ne_none]

/-- Between the callbacks a sound LED task tracks the connection. -/
theorem LedSound.tracks (h : LedSound s) (hdone : s.halfDone = false) : LedTracksWifi s := by
  obtain ⟨hevents, htracked⟩ := h
  refine ⟨fun hlast => ?_, fun hlast hsteady a s' ha hstep => ?_, fun hlast => ?_,
    fun hlast s' hstep => ?_⟩
  · obtain ⟨hfailed, hconnected⟩ := htracked.connection hlast
    exact ⟨hfailed, (hconnected hdone).imp_right inSteadyBranch_ledView.mp⟩
  · rw [← inSteadyBranch_ledView] at hsteady ⊢
    exact LedView.inSteadyBranch_step (htracked.connection hlast).1 hsteady ha
      (step_ledView hevents hstep).2
  · obtain ⟨hconnected, hrest⟩ := htracked.disconnection hlast
    obtain ⟨hblocked, hfailed⟩ := hrest hdone
    exact ⟨hconnected, by simpa [ledView] using hblocked, hfailed⟩
  · simp only [step, Option.ite_none_right_eq_some, satisfied_waitFailed] at hstep
    obtain ⟨hled, hstep⟩ := hstep
    obtain rfl := Option.some.inj hstep
    have hfailed := ((htracked.disconnection hlast).2 hdone).2 (Or.inr hled)
    exact if_pos hfailed

/-- **The status LED tracks the wifi state.** In every state of every run in which no
callback is half done, the LED shows, or is about to show, what the last callback said. -/
theorem ledTracksWifi (actions : List Action) :
    Visited step (fun s => s.halfDone = false → LedTracksWifi s) initial actions := by
  have hstart : LedSound initial := by
    refine ⟨LedConsumes.empty, ?_, ?_, ?_⟩ <;> simp [initial, ledView, EventGroup.empty]
  have hstep : ∀ s a s', LedSound s → s.step a = some s' → LedSound s' := by
    rintro s a s' ⟨hevents, htracked⟩ hstep
    obtain ⟨hevents', hview⟩ := step_ledView hevents hstep
    exact ⟨hevents', htracked.step hview⟩
  exact (visited_of_invariant hstep hstart actions).mono fun s h => h.tracks

end Wifi

end NixieVfdCentral
