import NixieVfdCentral.WifiManager.Task

/-!
# What the driver reports

`wifi_manager_event_handler` rewrites `WIFI_MANAGER_WIFI_CONNECTED_BIT` at once, in the task of
the driver, while the callbacks of the application follow later, in the task of the wifi manager.
The queue in between keeps the order, so the callbacks lag behind the bit but agree with it as
soon as nothing is on its way. They stop for good if the task finds its own queue full.
-/

namespace NixieVfdCentral.WifiManager

open Runs

/-- The message that the task is working on. -/
def current (s : WifiManager) : Option ManagerMessage :=
  match s.position with
  | .receiving => none
  | .handling message | .sending message _ | .calling message => some message

/-- The messages between the driver and the callbacks, the oldest first. -/
def inFlight (s : WifiManager) : List ManagerMessage :=
  s.current.toList ++ s.queue ++ (s.pending .eventTask).toList

/-- Only the event task sends what concerns the connection. -/
structure SendsOrders (s : WifiManager) : Prop where
  pending : ∀ sender, sender ≠ .eventTask → ∀ message ∈ s.pending sender,
    message.isConnection = false
  order : ∀ message order, s.position = .sending message order → order.isConnection = false

/-- The callbacks and what is on its way are what the driver has reported, and the bit is what it
has reported last. -/
structure Reported (s : WifiManager) : Prop where
  queue_length : s.queue.length ≤ managerQueueLength
  sendsOrders : s.SendsOrders
  reported_eq : s.reported = s.called.filter ManagerMessage.isConnection ++
    s.inFlight.filter ManagerMessage.isConnection
  connected : s.bits.wifiConnected = true ↔ s.reported.getLast? = some .staGotIp

/-- At the start nothing is reported, nothing is on its way, and the bit is clear. -/
theorem initial_reported : Reported initial where
  queue_length := by decide
  sendsOrders := ⟨by simp [initial], by simp [initial]⟩
  reported_eq := rfl
  connected := by simp [initial]

variable {s s' : WifiManager} {a : Action}

/-- Handling a message leaves the bit of the driver alone. -/
theorem wifiConnected_bitsAfter (bits : ManagerBits) (message : ManagerMessage) :
    (bitsAfter bits message).wifiConnected = bits.wifiConnected := by
  cases message with
  | connectSta request => cases request <;> rfl
  | staDisconnected => cases h : bits.disconnection <;> simp [bitsAfter, h]
  | _ => rfl

/-- An order of the task to itself does not concern the connection. -/
theorem isConnection_orderOf {fetched : Bool} {message order : ManagerMessage}
    (h : s.orderOf fetched message = some order) : order.isConnection = false := by
  cases message with
  | loadAndRestoreSta =>
    cases fetched <;> obtain rfl := Option.some.inj h <;> rfl
  | staDisconnected =>
    cases hd : s.bits.disconnection with
    | failedAttempt => simp [orderOf, hd] at h
    | ordered =>
      simp only [orderOf, hd] at h
      obtain rfl := Option.some.inj h
      rfl
    | lost =>
      simp only [orderOf, hd, Option.ite_none_right_eq_some] at h
      obtain rfl := Option.some.inj h.2
      rfl
  | _ => cases h

/-- A message whose callback is left out is no change of the connection. -/
theorem isConnection_of_callsBack {message : ManagerMessage} (h : s.callsBack message = false) :
    message.isConnection = false := by
  cases message <;> first | rfl | cases h

/-- After an event the bit still says whether a connection was reported last. -/
theorem getLast?_reported (event : WifiDriverEvent) (bits : ManagerBits)
    {reported : List ManagerMessage}
    (h : bits.wifiConnected = true ↔ reported.getLast? = some .staGotIp) :
    (event.update bits).wifiConnected = true ↔
      (reported ++ event.message.toList.filter ManagerMessage.isConnection).getLast? =
        some .staGotIp := by
  cases event <;>
    simp [WifiDriverEvent.update, WifiDriverEvent.message, ManagerMessage.isConnection, h]

/-- A sender other than the event task that has nothing but orders to send. -/
theorem SendsOrders.update (h : s.SendsOrders) {sender : ManagerSender}
    {message : Option ManagerMessage}
    (hmessage : sender ≠ .eventTask → ∀ m ∈ message, m.isConnection = false)
    (hpending : s'.pending = Function.update s.pending sender message)
    (horder : ∀ m order, s'.position = .sending m order → order.isConnection = false) :
    s'.SendsOrders := by
  refine ⟨fun other hother m hm => ?_, horder⟩
  rw [hpending] at hm
  by_cases hsame : other = sender
  · subst hsame
    rw [Function.update_self] at hm
    exact hmessage hother m hm
  · rw [Function.update_of_ne hsame] at hm
    exact h.pending other hother m hm

/-- What a step must do to keep what the driver has reported in order. -/
theorem Reported.of_inFlight (h : s.Reported) (hlength : s'.queue.length ≤ managerQueueLength)
    (horders : s'.SendsOrders) (hbits : s'.bits.wifiConnected = s.bits.wifiConnected)
    (hsame : s'.reported = s.reported)
    (hkept : s'.called.filter ManagerMessage.isConnection ++
        s'.inFlight.filter ManagerMessage.isConnection =
      s.called.filter ManagerMessage.isConnection ++
        s.inFlight.filter ManagerMessage.isConnection) : s'.Reported :=
  ⟨hlength, horders, by rw [hsame, hkept, h.reported_eq], by rw [hbits, hsame]; exact h.connected⟩

/-- **Every step keeps the reports in order**, on their way and in the callbacks. -/
theorem Reported.step (h : s.Reported) (hstep : s.step a = some s') : s'.Reported := by
  have hlength := h.queue_length
  have horders := h.sendsOrders
  cases stepped_of_step hstep with
  | event event hidle =>
    refine ⟨hlength, horders.update (fun hne => absurd rfl hne) rfl horders.order, ?_,
      getLast?_reported event s.bits h.connected⟩
    change s.reported ++ _ = _
    rw [h.reported_eq]
    simp [inFlight, current, hidle, List.filter_append]
  | retryTimerExpires | shutdownApTimerExpires =>
    exact h.of_inFlight hlength
      (horders.update (fun _ m hm => Option.some.inj hm ▸ rfl) rfl horders.order) rfl rfl rfl
  | order order hidle =>
    have hmessage : order.message.isConnection = false := by cases order <;> rfl
    exact h.of_inFlight hlength
      (horders.update (fun _ m hm => Option.some.inj hm ▸ hmessage) rfl horders.order) rfl rfl rfl
  | send sender message hpending hroom =>
    refine h.of_inFlight ?_ (horders.update (by simp) rfl horders.order) rfl rfl ?_
    · rw [List.length_append, List.length_singleton]
      exact hroom
    · by_cases hsender : sender = .eventTask
      · subst hsender
        simp [inFlight, current, hpending]
      · have hmessage := horders.pending sender hsender message hpending
        simp [inFlight, current, hmessage, Function.update_of_ne (Ne.symm hsender)]
  | receive message queue hposition hqueue =>
    refine h.of_inFlight ?_ ⟨horders.pending, by simp⟩ rfl rfl ?_
    · rw [hqueue, List.length_cons] at hlength
      exact Nat.le_of_succ_le hlength
    · simp [inFlight, current, hposition, hqueue]
  | handle fetched message position hposition hnext =>
    have hconnection : position = .receiving → message.isConnection = false := by
      rintro rfl
      rcases hnext with ⟨_, _, hcalls⟩ | ⟨hpos, _⟩ | ⟨_, hpos, _⟩
      · exact isConnection_of_callsBack hcalls
      · cases hpos
      · cases hpos
    refine h.of_inFlight hlength ⟨horders.pending, ?_⟩ (wifiConnected_bitsAfter _ _) rfl ?_
    · rintro m order hpos
      rcases hnext with ⟨rfl, _⟩ | ⟨rfl, _⟩ | ⟨other, rfl, horder⟩
      · cases hpos
      · cases hpos
      · obtain ⟨_, rfl⟩ := ManagerPosition.sending.inj hpos
        exact isConnection_orderOf horder
    · rcases hnext with ⟨rfl, _⟩ | ⟨rfl, _⟩ | ⟨other, rfl, _⟩
      · simp [inFlight, current, hposition, effect, hconnection rfl]
      · simp [inFlight, current, hposition, effect]
      · simp [inFlight, current, hposition, effect]
  | sendOrder message order hposition hroom =>
    have horder := horders.order message order hposition
    refine h.of_inFlight ?_ ⟨horders.pending, by simp⟩ rfl rfl ?_
    · rw [List.length_append, List.length_singleton]
      exact hroom
    · simp [inFlight, current, hposition, horder, List.filter_cons]
  | callback message hposition =>
    refine h.of_inFlight hlength ⟨horders.pending, by simp⟩ rfl rfl ?_
    cases hmessage : message.isConnection <;>
      simp [inFlight, current, hposition, hmessage]

/-- The callbacks for changes of the connection are the changes the driver has reported, in
order and up to those on their way. When none is on its way, the last callback agrees with
`WIFI_MANAGER_WIFI_CONNECTED_BIT`. -/
structure CallbacksInOrder (s : WifiManager) : Prop where
  queue_length : s.queue.length ≤ managerQueueLength
  reported_eq : s.reported = s.called.filter ManagerMessage.isConnection ++
    s.inFlight.filter ManagerMessage.isConnection
  agree : s.inFlight.filter ManagerMessage.isConnection = [] →
    (s.bits.wifiConnected = true ↔
      (s.called.filter ManagerMessage.isConnection).getLast? = some .staGotIp)

/-- **The callbacks follow the driver.** In every run, whatever the driver reports and whoever
sends to the queue, no change of the connection is lost, repeated or overtaken by a later one on
its way to its callback. -/
theorem callbacksInOrder (actions : List Action) :
    Visited step CallbacksInOrder initial actions := by
  have hvisited : Visited step Reported initial actions :=
    visited_of_invariant (fun _ _ _ h hstep => h.step hstep) initial_reported actions
  refine hvisited.mono fun s h => ⟨h.queue_length, h.reported_eq, fun hnone => ?_⟩
  have hall := h.reported_eq
  rw [hnone, List.append_nil] at hall
  rw [← hall]
  exact h.connected

/-! ### A task that waits for itself -/

/-- The task waits to send an order to its own queue, which is full. -/
def WaitsForItself (s : WifiManager) : Prop :=
  (∃ message order, s.position = .sending message order) ∧ managerQueueLength ≤ s.queue.length

/-- While the task waits for itself nothing is taken from the queue. -/
theorem WaitsForItself.step (h : s.WaitsForItself) (hstep : s.step a = some s') :
    s'.WaitsForItself ∧ s'.handled = s.handled ∧ s'.called = s.called := by
  obtain ⟨⟨message, order, hposition⟩, hfull⟩ := h
  cases stepped_of_step hstep with
  | event | retryTimerExpires | shutdownApTimerExpires | order =>
    exact ⟨⟨⟨message, order, hposition⟩, hfull⟩, rfl, rfl⟩
  | send _ _ _ hroom => exact absurd hroom (Nat.not_lt.mpr hfull)
  | sendOrder _ _ _ hroom => exact absurd hroom (Nat.not_lt.mpr hfull)
  | receive _ _ hreceiving => cases hposition.symm.trans hreceiving
  | handle _ _ _ hhandling => cases hposition.symm.trans hhandling
  | callback _ hcalling => cases hposition.symm.trans hcalling

end NixieVfdCentral.WifiManager
