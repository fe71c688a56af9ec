import NixieVfdCentral.WifiManager.Reconnect
import NixieVfdCentral.WifiManager.Reports

/-!
# The access point

The task opens an access point, with a DNS server that leads every name to the device, when there
is no connection to restore, when the user has ordered a disconnection, and when the connection
was lost too often. A connection closes the DNS server at once, and the access point when a timer
has run down, unless the connection has been lost by then. Here the mode of the driver, the DNS
server and the timer are compared with the history of the messages handled.
-/

namespace NixieVfdCentral.WifiManager

open Runs Histories

/-- The access point has been opened, and since then it has not been closed. It is closed by an
order that finds the connection standing. -/
def ApOpen (handled : List (ManagerMessage × ManagerBits)) : Prop :=
  HoldsSince (fun e => e.1 = .startAp) (fun e => e.1 = .stopAp ∧ e.2.wifiConnected = true) handled

/-- The access point has been opened, and since then it has not been closed and the driver has
reported no connection. -/
def DnsOpen (handled : List (ManagerMessage × ManagerBits)) : Prop :=
  HoldsSince (fun e => e.1 = .startAp)
    (fun e => e.1 = .staGotIp ∨ e.1 = .stopAp ∧ e.2.wifiConnected = true) handled

/-- A connection that finds the access point started. -/
def isTimed (e : ManagerMessage × ManagerBits) : Bool :=
  decide (e.1 = .staGotIp ∧ e.2.apStarted = true)

/-- The driver has reported a connection while the access point was started, and since then no loss
has been handled and the access point has not been opened again. -/
def ShutdownOwed (handled : List (ManagerMessage × ManagerBits)) : Prop :=
  HoldsSince (fun e => e.1 = .staGotIp ∧ e.2.apStarted = true)
    (fun e => e.1 = .staDisconnected ∨ e.1 = .startAp) handled

variable {s s' : WifiManager} {a : Action}

/-! ### The mode and the DNS server -/

/-- The mode and the DNS server are what the history says. -/
structure ApTold (s : WifiManager) : Prop where
  apMode : s.apMode = true ↔ ApOpen s.handled
  dnsServer : s.dnsServer = true ↔ DnsOpen s.handled

/-- At the start the access point is closed and the DNS server is stopped. -/
theorem initial_apTold : ApTold initial where
  apMode := by simp [initial, ApOpen]
  dnsServer := by simp [initial, DnsOpen]

/-- The access point is open after an order to open it, and stays open until it is closed while the
connection stands. -/
theorem apModeAfter_iff (message : ManagerMessage) : s.apModeAfter message = true ↔
    message = .startAp ∨
      s.apMode = true ∧ ¬(message = .stopAp ∧ s.bits.wifiConnected = true) := by
  cases message <;> simp [apModeAfter]

/-- The DNS server runs after an order to open the access point, until a connection or an order to
close it while the connection stands. -/
theorem dnsServerAfter_iff (message : ManagerMessage) : s.dnsServerAfter message = true ↔
    message = .startAp ∨ s.dnsServer = true ∧
      ¬(message = .staGotIp ∨ message = .stopAp ∧ s.bits.wifiConnected = true) := by
  cases message <;> simp [dnsServerAfter]

/-- Every step keeps the mode and the DNS server in step with the history. -/
theorem ApTold.step (h : s.ApTold) (hstep : s.step a = some s') : s'.ApTold := by
  rcases kept_or_handles hstep with ⟨_, message, _, _, _, rfl⟩ | ⟨_, hhandled, _, _, hmode, hdns, _⟩
  · constructor
    · change s.apModeAfter message = true ↔ _
      rw [apModeAfter_iff, h.apMode, ApOpen, ApOpen, holdsSince_concat]
    · change s.dnsServerAfter message = true ↔ _
      rw [dnsServerAfter_iff, h.dnsServer, DnsOpen, DnsOpen, holdsSince_concat]
  · exact ⟨by rw [hmode, hhandled, h.apMode], by rw [hdns, hhandled, h.dnsServer]⟩

/-! ### How often the access point is opened and closed -/

/-- An order to open the access point, counted as four retries, is paid for by the retries that it
resets, by an ordered disconnection, or by the failure to restore a connection. -/
theorem startAp_le (fetched : Bool) (message : ManagerMessage) :
    (maxRetryStartAp + 1) * (s.orderOf fetched message).toList.count .startAp +
        s.retriesAfter message ≤
      s.retries + (maxRetryStartAp + 1) * ((if message = .loadAndRestoreSta then 1 else 0) +
        if isOrdered (message, s.bits) then 1 else 0) +
      if isLossWithoutAp (message, s.bits) then 1 else 0 := by
  cases message with
  | loadAndRestoreSta =>
    cases fetched <;> simp [orderOf, retriesAfter, isOrdered, isLossWithoutAp]
    omega
  | staDisconnected =>
    cases hd : s.bits.disconnection with
    | failedAttempt => simp [orderOf, retriesAfter, isOrdered, isLossWithoutAp, hd]
    | ordered =>
      simp [orderOf, retriesAfter, isOrdered, isLossWithoutAp, hd]
      omega
    | lost =>
      by_cases hstarted : s.bits.apStarted = false
      · by_cases hretries : s.retries < maxRetryStartAp
        · simp [orderOf, retriesAfter, isOrdered, isLossWithoutAp, hd, hstarted, hretries,
            Nat.not_le.mpr hretries]
        · have hlimit : maxRetryStartAp ≤ s.retries := Nat.le_of_not_lt hretries
          simp [orderOf, retriesAfter, isOrdered, isLossWithoutAp, hd, hstarted, hretries, hlimit]
      · simp [orderOf, retriesAfter, isOrdered, isLossWithoutAp, hd, hstarted]
  | staGotIp => simp [orderOf, retriesAfter]
  | _ => simp [orderOf, retriesAfter, isOrdered, isLossWithoutAp]

/-- How often the access point has been opened and closed, and will be. -/
structure ApCounted (s : WifiManager) : Prop where
  fetches : s.sent.count .loadAndRestoreSta = 1
  starts : (maxRetryStartAp + 1) * s.sent.count .startAp + s.retries ≤
    (maxRetryStartAp + 1) * ((s.handled.map Prod.fst).count .loadAndRestoreSta +
      s.handled.countP isOrdered) + s.handled.countP isLossWithoutAp
  stops : s.sent.count .stopAp + s.shutdownApTimer.toNat ≤ s.handled.countP isTimed

/-- At the start the first order is in the queue, and nothing else is counted. -/
theorem initial_apCounted : ApCounted initial where
  fetches := by decide
  starts := by decide
  stops := by decide

/-- Nobody orders the configuration to be fetched again, nobody but the task orders the access point
to be opened, and nobody but the timer orders it to be closed. -/
theorem count_setOut (hstep : s.step a = some s') :
    (s.setOut a).count .loadAndRestoreSta = 0 ∧
      ((∀ fetched, a ≠ .handle fetched) → (s.setOut a).count .startAp = 0) ∧
      (a ≠ .shutdownApTimerExpires → (s.setOut a).count .stopAp = 0) := by
  cases stepped_of_step hstep with
  | event event => cases event <;> simp [setOut, WifiDriverEvent.message]
  | order order => cases order <;> simp [setOut, UserOrder.message]
  | handle fetched message position hposition hnext =>
    have horder : ∀ order ∈ s.orderOf fetched message,
        order ≠ .loadAndRestoreSta ∧ order ≠ .stopAp := by
      cases message with
      | loadAndRestoreSta => cases fetched <;> simp [orderOf]
      | staDisconnected => cases hd : s.bits.disconnection <;> simp [orderOf, hd]
      | _ => simp [orderOf]
    refine ⟨?_, fun h => absurd rfl (h fetched), fun _ => ?_⟩
    · rw [List.count_eq_zero]
      exact fun hmem => (horder _ (by simpa [setOut, hposition] using hmem)).1 rfl
    · rw [List.count_eq_zero]
      exact fun hmem => (horder _ (by simpa [setOut, hposition] using hmem)).2 rfl
  | _ => simp [setOut]

/-- Handling a message starts the timer at a timed connection only. -/
theorem shutdownApTimerAfter_le (message : ManagerMessage) :
    (s.shutdownApTimerAfter message).toNat ≤
      s.shutdownApTimer.toNat + if isTimed (message, s.bits) then 1 else 0 := by
  cases message with
  | staGotIp =>
    cases htimer : s.shutdownApTimer <;> cases hstarted : s.bits.apStarted <;>
      simp [shutdownApTimerAfter, isTimed, htimer, hstarted]
  | _ => simp [shutdownApTimerAfter]

/-- Every step keeps the counts of the orders to open and to close the access point. -/
theorem ApCounted.step (h : s.ApCounted) (hstep : s.step a = some s') : s'.ApCounted := by
  obtain ⟨hfetches, hstarts, hstops⟩ := count_setOut hstep
  have hcount (m : ManagerMessage) : s'.sent.count m = s.sent.count m + (s.setOut a).count m := by
    rw [(sent_perm hstep).count_eq, List.count_append]
  refine ⟨by rw [hcount, hfetches, h.fetches], ?_, ?_⟩
  · have hbefore := h.starts
    rcases kept_or_handles hstep with
      ⟨fetched, message, position, rfl, hposition, heq⟩ | ⟨hother, hhandled, _, hretries, _⟩
    · have hhandled : s'.handled = s.handled ++ [(message, s.bits)] := by rw [heq]
      have hretries : s'.retries = s.retriesAfter message := by rw [heq]; rfl
      have horder := startAp_le (s := s) fetched message
      rw [hcount, hretries, hhandled]
      simp only [setOut, hposition, List.map_append, List.map_singleton, List.count_append,
        List.count_singleton, List.countP_append, List.countP_singleton, beq_iff_eq, Nat.mul_add]
      simp only [Nat.mul_add] at hbefore horder
      omega
    · rw [hcount, hstarts hother, hretries, hhandled]
      exact hbefore
  · have hbefore := h.stops
    cases stepped_of_step hstep with
    | shutdownApTimerExpires hactive hidle =>
      rw [hcount]
      simp only [hactive, Bool.toNat_true] at hbefore
      exact hbefore
    | handle fetched message position hposition hnext =>
      have htimer := shutdownApTimerAfter_le (s := s) message
      rw [hcount, hstops (by simp)]
      change s.sent.count .stopAp + 0 + (s.shutdownApTimerAfter message).toNat ≤
        (s.handled ++ [(message, s.bits)]).countP isTimed
      rw [List.countP_append, List.countP_singleton]
      omega
    | _ =>
      rw [hcount, hstops (by simp)]
      exact hbefore

/-- What the history tells about the access point, and how often it has been opened and closed. -/
structure ApFollowsHistory (s : WifiManager) : Prop where
  apMode : s.apMode = true ↔ ApOpen s.handled
  dnsServer : s.dnsServer = true ↔ DnsOpen s.handled
  apMode_of_dnsServer : s.dnsServer = true → s.apMode = true
  starts_le : (maxRetryStartAp + 1) * (s.handled.map Prod.fst).count .startAp ≤
    (maxRetryStartAp + 1) * (1 + s.handled.countP isOrdered) + s.handled.countP isLossWithoutAp
  stops_le : (s.handled.map Prod.fst).count .stopAp ≤ s.handled.countP isTimed

/-- **The access point follows the history.** In every run the mode of the driver includes the
access point exactly from the handling of an order to open it to the next order to close it that
finds the connection standing, and the DNS server runs from the same order to the next connection,
if that comes first. So the DNS server never runs without the access point. The access point is
opened at most once at the start, once for every disconnection that the user has ordered and once
for every four losses without it, and ordered to be closed at most once for every connection that
finds it started. -/
theorem apFollowsHistory (actions : List Action) :
    Visited step ApFollowsHistory initial actions := by
  have hvisited : Visited step (fun s => s.ApTold ∧ s.ApCounted) initial actions :=
    visited_of_invariant (fun _ _ _ h hstep => ⟨h.1.step hstep, h.2.step hstep⟩)
      ⟨initial_apTold, initial_apCounted⟩ actions
  refine hvisited.mono fun s ⟨htold, hcounted⟩ => ?_
  have hsent (m : ManagerMessage) : s.sent.count m =
      (s.handled.map Prod.fst).count m + s.upcoming.count m := List.count_append
  refine ⟨htold.apMode, htold.dnsServer, fun hdns => ?_, ?_, ?_⟩
  · have hopen : DnsOpen s.handled := htold.dnsServer.mp hdns
    refine htold.apMode.mpr ?_
    have hap : ApOpen (s.handled.map id) := hopen.map (fun _ h => h) fun _ h => Or.inr h
    rwa [List.map_id] at hap
  · have hstarts := hcounted.starts
    have hfetches := hcounted.fetches
    rw [hsent] at hstarts hfetches
    simp only [maxRetryStartAp] at hstarts ⊢
    omega
  · have hstops := hcounted.stops
    rw [hsent] at hstops
    omega

/-- The access point is opened, a connection found and lost. The access point stays open, and the
DNS server does not come back. -/
example : (run step initial [.receive, .handle false, .sendOrder, .callback, .receive,
    .handle false, .callback, .event .apStart, .event .staGotIp, .send .eventTask, .receive,
    .handle false, .callback, .event .staDisconnected, .send .eventTask, .receive,
    .handle false]).map (fun s => (s.apMode, s.dnsServer, s.shutdownApTimer)) =
      some (true, false, false) := rfl

/-! ### A connection closes the access point -/

/-- The changes of the connection that the driver has reported are those handled and those on their
way. -/
def ReportsHandled (s : WifiManager) : Prop :=
  s.reported = s.sent.filter ManagerMessage.isConnection

/-- Only the event task sends what concerns the connection. -/
theorem filter_sent (h : s.SendsOrders) : s.sent.filter ManagerMessage.isConnection =
    (s.handled.map Prod.fst ++
      (match s.position with
        | .handling message => [message]
        | _ => []) ++ s.queue ++ (s.pending .eventTask).toList).filter
      ManagerMessage.isConnection := by
  have hother (sender : ManagerSender) (hsender : sender ≠ .eventTask) :
      (s.pending sender).toList.filter ManagerMessage.isConnection = [] := by
    rw [List.filter_eq_nil_iff]
    intro message hmessage
    simp [h.pending sender hsender message (Option.mem_toList.mp hmessage)]
  simp only [sent, upcoming, List.filter_append, hother .timerTask (by simp),
    hother .httpServer (by simp), List.append_nil, List.append_assoc]
  cases hposition : s.position with
  | sending message order => simp [h.order message order hposition]
  | _ => rfl

/-- Every step keeps the reports in step with the messages handled. -/
theorem ReportsHandled.step (h : s.ReportsHandled) (hreported : s.Reported)
    (hstep : s.step a = some s') : s'.ReportsHandled := by
  rw [ReportsHandled, filter_sent (hreported.step hstep).sendsOrders]
  rw [ReportsHandled, filter_sent hreported.sendsOrders] at h
  have horders := hreported.sendsOrders
  cases stepped_of_step hstep with
  | event event hidle => simp [h, hidle]
  | retryTimerExpires | shutdownApTimerExpires | order => simpa using h
  | send sender message hpending hroom =>
    by_cases hsender : sender = .eventTask
    · subst hsender
      simpa [hpending] using h
    · have hmessage := horders.pending sender hsender message hpending
      simpa [hmessage, Function.update_of_ne (Ne.symm hsender)] using h
  | receive message queue hposition hqueue => simpa [hposition, hqueue] using h
  | handle fetched message position hposition hnext =>
    rcases hnext with ⟨rfl, _⟩ | ⟨rfl, _⟩ | ⟨order, rfl, _⟩ <;>
      simpa [effect, hposition] using h
  | sendOrder message order hposition hroom =>
    have horder := horders.order message order hposition
    simpa [hposition, horder] using h
  | callback message hposition => simpa [hposition] using h

/-- When the bit says that there is no connection although the last report handled was one, a loss
is on its way. -/
theorem staDisconnected_mem_upcoming (h : s.ReportsHandled) (hreported : s.Reported)
    (hbit : s.bits.wifiConnected = false) (howed : ShutdownOwed s.handled) :
    .staDisconnected ∈ s.upcoming := by
  by_contra hnone
  have hlast : HoldsSince (· = .staGotIp) (· = .staDisconnected) s.sent :=
    (howed.map (f := Prod.fst) (fun _ hsets => hsets.1) fun _ hclears => Or.inl hclears).append
      fun x hx hloss => hnone (hloss ▸ hx)
  have hconcerns (x : ManagerMessage) :
      x.isConnection = true ↔ x = .staGotIp ∨ x = .staDisconnected := by
    cases x <;> simp [ManagerMessage.isConnection]
  obtain ⟨_, hgetLast, rfl⟩ := (holdsSince_iff_getLast? hconcerns).mp hlast
  rw [← h, ← hreported.connected, hbit] at hgetLast
  cases hgetLast

/-- The access point is closed, or the timer or the order that closes it is on its way, or a loss of
the connection is. -/
def ShutdownUpcoming (s : WifiManager) : Prop :=
  s.apMode = false ∨ s.shutdownApTimer = true ∨ .stopAp ∈ s.upcoming ∨
    .staDisconnected ∈ s.upcoming

/-- After a step that handles a message, the mode is the one that this message leads to. -/
theorem apMode_of_handled (hstep : s.step a = some s') {message : ManagerMessage}
    (hhandled : s'.handled = s.handled ++ [(message, s.bits)]) :
    s'.apMode = s.apModeAfter message := by
  rcases kept_or_handles hstep with ⟨_, other, _, _, _, rfl⟩ | ⟨_, hkept, _⟩
  · obtain rfl : other = message := by simpa using hhandled
    rfl
  · simp [hkept] at hhandled

/-- The shutdown stays upcoming until a loss or an order to open the access point is handled, or an
order to close it that does not find the connection. -/
theorem ShutdownUpcoming.step (h : s.ShutdownUpcoming) (hstep : s.step a = some s') :
    s'.ShutdownUpcoming ∨ ∃ message, s'.handled = s.handled ++ [(message, s.bits)] ∧
      (message = .staDisconnected ∨ message = .startAp ∨
        message = .stopAp ∧ s.bits.wifiConnected = false) := by
  rcases h with hmode | htimer | hstop | hloss
  · rcases kept_or_handles hstep with ⟨_, message, _, _, _, heq⟩ | ⟨_, _, _, _, hkept, _⟩
    · have hhandled : s'.handled = s.handled ++ [(message, s.bits)] := by rw [heq]
      by_cases hstart : message = .startAp
      · exact Or.inr ⟨message, hhandled, Or.inr (Or.inl hstart)⟩
      · refine Or.inl (Or.inl ?_)
        rw [apMode_of_handled hstep hhandled, ← Bool.not_eq_true, apModeAfter_iff]
        simp [hstart, hmode]
    · exact Or.inl (Or.inl (hkept.trans hmode))
  · cases stepped_of_step hstep with
    | shutdownApTimerExpires => exact Or.inl (Or.inr (Or.inr (Or.inl (by simp [upcoming]))))
    | handle fetched message position hposition hnext =>
      by_cases hloss : message = .staDisconnected
      · exact Or.inr ⟨message, rfl, Or.inl hloss⟩
      · refine Or.inl (Or.inr (Or.inl ?_))
        change s.shutdownApTimerAfter message = true
        cases message <;> simp_all [shutdownApTimerAfter]
    | _ => exact Or.inl (Or.inr (Or.inl htimer))
  · rcases mem_upcoming_step hstop hstep with hstays | hhandled
    · exact Or.inl (Or.inr (Or.inr (Or.inl hstays)))
    · cases hconnected : s.bits.wifiConnected with
      | false => exact Or.inr ⟨.stopAp, hhandled, Or.inr (Or.inr ⟨rfl, rfl⟩)⟩
      | true =>
        refine Or.inl (Or.inl ?_)
        rw [apMode_of_handled hstep hhandled]
        simp [apModeAfter, hconnected]
  · rcases mem_upcoming_step hloss hstep with hstays | hhandled
    · exact Or.inl (Or.inr (Or.inr (Or.inr hstays)))
    · exact Or.inr ⟨.staDisconnected, hhandled, Or.inl rfl⟩

/-- **A connection owes a shutdown**, and the shutdown that is owed is upcoming. -/
theorem shutdownUpcoming_step (h : ShutdownOwed s.handled → s.ShutdownUpcoming)
    (hhandled : s.ReportsHandled) (hreported : s.Reported) (hstep : s.step a = some s') :
    ShutdownOwed s'.handled → s'.ShutdownUpcoming := by
  intro howed
  rcases kept_or_handles hstep with ⟨_, message, position, _, _, heq⟩ | ⟨_, hkept, _⟩
  · have hnow : s'.handled = s.handled ++ [(message, s.bits)] := by rw [heq]
    rw [hnow] at howed
    rcases holdsSince_concat.mp howed with ⟨hconnection, hstarted⟩ | ⟨hbefore, hother⟩
    · refine Or.inr (Or.inl ?_)
      simp only at hconnection hstarted
      rw [heq]
      change s.shutdownApTimerAfter message = true
      simp [hconnection, hstarted, shutdownApTimerAfter]
    · rcases (h hbefore).step hstep with hstays | ⟨last, hlast, hcases⟩
      · exact hstays
      · obtain rfl : message = last := by simpa using hnow.symm.trans hlast
        rcases hcases with hloss | hstart | ⟨hstop, hbit⟩
        · exact absurd (Or.inl hloss) hother
        · exact absurd (Or.inr hstart) hother
        · -- the order to close comes too late: the loss is behind it in the queue
          have hloss := staDisconnected_mem_upcoming hhandled hreported hbit hbefore
          rcases mem_upcoming_step hloss hstep with hstays | hlost
          · exact Or.inr (Or.inr (Or.inr hstays))
          · exact absurd (Or.inl (by simpa using hnow.symm.trans hlost)) hother
  · rw [hkept] at howed
    refine ((h howed).step hstep).resolve_right ?_
    rintro ⟨last, hlast, _⟩
    simp [hkept] at hlast

/-- **A connection closes the access point.** In every run, from the handling of a connection that
finds the access point started until a loss is handled or the access point is opened again, the
access point is closed, or the timer that closes it is active, or its order is waiting to enter
the queue, in the queue or being handled, or the loss of the connection is. In this time the bit
that an order to close it needs is missing only if a loss is on its way. -/
theorem shutdownUpcoming_of_owed (actions : List Action) :
    Visited step (fun s => ShutdownOwed s.handled → s.ShutdownUpcoming ∧
      (s.bits.wifiConnected = false → .staDisconnected ∈ s.upcoming)) initial actions := by
  have hvisited : Visited step (fun s => s.Reported ∧ s.ReportsHandled ∧
      (ShutdownOwed s.handled → s.ShutdownUpcoming)) initial actions :=
    visited_of_invariant (fun _ _ _ ⟨hreported, hhandled, h⟩ hstep =>
      ⟨hreported.step hstep, hhandled.step hreported hstep,
        shutdownUpcoming_step h hhandled hreported hstep⟩)
      ⟨initial_reported, rfl, fun howed : ShutdownOwed initial.handled =>
        absurd howed not_holdsSince_nil⟩ actions
  exact hvisited.mono fun _ ⟨hreported, hhandled, h⟩ howed =>
    ⟨h howed, fun hbit => staDisconnected_mem_upcoming hhandled hreported hbit howed⟩

end NixieVfdCentral.WifiManager
