import Mathlib.Data.Finset.Insert
import Mathlib.Logic.Function.Basic
import NixieVfdCentral.Foundations.Runs

/-!
# The task of the wifi manager

The task takes messages from a queue of three. The event task of the wifi driver, the timers
and the HTTP server send to this queue, and so does the task itself; whoever finds the queue
full waits until there is room. Each message is handled in one pass: the task reads the bits of
the event group once, decides what to do, may send one order to its own queue, and calls the
callback that is registered for the message. The restart of the HTTP server, for which the task
waits when it opens or closes the access point, is left out.
-/

namespace NixieVfdCentral

open Runs

/-- `connection_request_made_by_code_t`. -/
inductive ConnectionRequest
  /-- `CONNECTION_REQUEST_USER`. -/
  | user
  /-- `CONNECTION_REQUEST_AUTO_RECONNECT`. -/
  | autoReconnect
  /-- `CONNECTION_REQUEST_RESTORE_CONNECTION`. -/
  | restoreConnection
  deriving DecidableEq

/-- The messages that are sent, `queue_message` with its `message_code_t`. -/
inductive ManagerMessage
  /-- `WM_ORDER_START_WIFI_SCAN`. -/
  | startWifiScan
  /-- `WM_ORDER_LOAD_AND_RESTORE_STA`. -/
  | loadAndRestoreSta
  /-- `WM_ORDER_CONNECT_STA`. -/
  | connectSta (request : ConnectionRequest)
  /-- `WM_ORDER_DISCONNECT_STA`. -/
  | disconnectSta
  /-- `WM_ORDER_START_AP`. -/
  | startAp
  /-- `WM_ORDER_STOP_AP`. -/
  | stopAp
  /-- `WM_EVENT_SCAN_DONE`. -/
  | scanDone
  /-- `WM_EVENT_STA_DISCONNECTED`. -/
  | staDisconnected
  /-- `WM_EVENT_STA_GOT_IP`. -/
  | staGotIp
  deriving DecidableEq

/-- The message reports a change of the connection. -/
def ManagerMessage.isConnection : ManagerMessage → Bool
  | .staDisconnected | .staGotIp => true
  | _ => false

/-- The bits of `wifi_manager_event_group` that are used. -/
structure ManagerBits where
  /-- `WIFI_MANAGER_WIFI_CONNECTED_BIT`. -/
  wifiConnected : Bool
  /-- `WIFI_MANAGER_AP_STARTED_BIT`. -/
  apStarted : Bool
  /-- `WIFI_MANAGER_REQUEST_STA_CONNECT_BIT`. -/
  requestStaConnect : Bool
  /-- `WIFI_MANAGER_REQUEST_RESTORE_STA_BIT`. -/
  requestRestoreSta : Bool
  /-- `WIFI_MANAGER_SCAN_BIT`. -/
  scan : Bool
  /-- `WIFI_MANAGER_REQUEST_DISCONNECT_BIT`. -/
  requestDisconnect : Bool
  deriving DecidableEq

/-- The events of the driver that `wifi_manager_event_handler` acts on. -/
inductive WifiDriverEvent
  /-- `WIFI_EVENT_SCAN_DONE`. -/
  | scanDone
  /-- `WIFI_EVENT_STA_DISCONNECTED`. -/
  | staDisconnected
  /-- `IP_EVENT_STA_GOT_IP`. -/
  | staGotIp
  /-- `WIFI_EVENT_AP_START`. -/
  | apStart
  /-- `WIFI_EVENT_AP_STOP`. -/
  | apStop
  deriving DecidableEq

/-- What `wifi_manager_event_handler` does to the bits. -/
def WifiDriverEvent.update (bits : ManagerBits) : WifiDriverEvent → ManagerBits
  | .scanDone => { bits with scan := false }
  | .staDisconnected => { bits with wifiConnected := false, scan := false }
  | .staGotIp => { bits with wifiConnected := true }
  | .apStart => { bits with apStarted := true }
  | .apStop => { bits with apStarted := false }

/-- The message that `wifi_manager_event_handler` then sends. -/
def WifiDriverEvent.message : WifiDriverEvent → Option ManagerMessage
  | .scanDone => some .scanDone
  | .staDisconnected => some .staDisconnected
  | .staGotIp => some .staGotIp
  | .apStart | .apStop => none

/-- Those who send to the queue of the wifi manager, apart from its own task. -/
inductive ManagerSender
  /-- The event task of the driver, which runs `wifi_manager_event_handler`. -/
  | eventTask
  /-- The timer task, which runs the callbacks of the two timers. -/
  | timerTask
  /-- The HTTP server, which passes on the orders of the user. -/
  | httpServer
  deriving DecidableEq

/-- The orders of the user. -/
inductive UserOrder
  /-- `wifi_manager_scan_async`. -/
  | scan
  /-- `wifi_manager_connect_async`. -/
  | connect
  /-- `wifi_manager_disconnect_async`. -/
  | disconnect
  deriving DecidableEq

/-- The message that passes an order of the user on. -/
def UserOrder.message : UserOrder → ManagerMessage
  | .scan => .startWifiScan
  | .connect => .connectSta .user
  | .disconnect => .disconnectSta

/-- Where the task stands. -/
inductive ManagerPosition
  /-- In `xQueueReceive`. -/
  | receiving
  /-- With a message that it has not handled yet. -/
  | handling (message : ManagerMessage)
  /-- In `wifi_manager_send_message`, with an order to itself. -/
  | sending (message order : ManagerMessage)
  /-- Before the callback. -/
  | calling (message : ManagerMessage)
  deriving DecidableEq

/-- What the task asks of the driver and of the flash. -/
inductive ManagerCall
  /-- `esp_wifi_scan_start`. -/
  | scanStart
  /-- `esp_wifi_scan_stop`. -/
  | scanStop
  /-- `esp_wifi_connect`. -/
  | connect
  /-- `esp_wifi_disconnect`. -/
  | disconnect
  /-- `wifi_manager_save_sta_config` with the configuration of the connection. -/
  | saveConfig
  /-- `wifi_manager_save_sta_config` with the configuration set to zero. -/
  | eraseConfig
  deriving DecidableEq

/-- How a disconnection is treated. -/
inductive Disconnection
  /-- An attempt to connect on request of the user has failed. -/
  | failedAttempt
  /-- The user has ordered it. -/
  | ordered
  /-- The connection was lost, or could not be restored. -/
  | lost
  deriving DecidableEq

/-- What the task reads off the bits when it handles `WM_EVENT_STA_DISCONNECTED`. -/
def ManagerBits.disconnection (uxBits : ManagerBits) : Disconnection :=
  if uxBits.requestStaConnect then .failedAttempt
  else if uxBits.requestDisconnect then .ordered
  else .lost

/-- `WIFI_MANAGER_MAX_RETRY_START_AP` of this firmware. -/
def maxRetryStartAp : ℕ := 3

/-- The length of `wifi_manager_queue`. -/
def managerQueueLength : ℕ := 3

/-- The wifi manager and the history of what was sent to it and what it has handled. -/
structure WifiManager where
  /-- `wifi_manager_event_group`. -/
  bits : ManagerBits
  /-- `wifi_manager_queue`. -/
  queue : List ManagerMessage
  /-- The message that a sender is about to send, or waits to send. -/
  pending : ManagerSender → Option ManagerMessage
  /-- Where the task stands. -/
  position : ManagerPosition
  /-- `retries`. -/
  retries : ℕ
  /-- `wifi_manager_retry_timer` is active. -/
  retryTimer : Bool
  /-- `wifi_manager_shutdown_ap_timer` is active. -/
  shutdownApTimer : Bool
  /-- The wifi mode is `WIFI_MODE_APSTA`. -/
  apMode : Bool
  /-- The task of the DNS server exists. -/
  dnsServer : Bool
  /-- What the task has asked of the driver and of the flash. -/
  calls : List ManagerCall
  /-- The changes of the connection that the driver has reported. -/
  reported : List ManagerMessage
  /-- For every message handled so far, the bits the task has read. -/
  handled : List (ManagerMessage × ManagerBits)
  /-- The messages whose handling has come to its callback. -/
  called : List ManagerMessage

namespace WifiManager

/-- `wifi_manager_start` has been called, and the task has sent its first message. -/
def initial : WifiManager where
  bits := ⟨false, false, false, false, false, false⟩
  queue := [.loadAndRestoreSta]
  pending _ := none
  position := .receiving
  retries := 0
  retryTimer := false
  shutdownApTimer := false
  apMode := false
  dnsServer := false
  calls := []
  reported := []
  handled := []
  called := []

/-- The steps of the tasks. -/
inductive Action
  /-- The event task runs `wifi_manager_event_handler` up to its send. -/
  | event (event : WifiDriverEvent)
  /-- `wifi_manager_timer_retry_cb` runs up to its send. -/
  | retryTimerExpires
  /-- `wifi_manager_timer_shutdown_ap_cb` runs up to its send. -/
  | shutdownApTimerExpires
  /-- The HTTP server receives an order of the user. -/
  | order (order : UserOrder)
  /-- A sender puts its message into the queue. -/
  | send (sender : ManagerSender)
  /-- The task takes the next message from the queue. -/
  | receive
  /-- It handles the message. `fetched` is what `wifi_manager_fetch_wifi_sta_config` returns, for
  the message that calls it. -/
  | handle (fetched : Bool)
  /-- It puts its order to itself into the queue. -/
  | sendOrder
  /-- It calls the callback. -/
  | callback

/-- The order that the task sends to itself when it handles a message. -/
def orderOf (s : WifiManager) (fetched : Bool) : ManagerMessage → Option ManagerMessage
  | .loadAndRestoreSta => some (if fetched then .connectSta .restoreConnection else .startAp)
  | .staDisconnected =>
    match s.bits.disconnection with
    | .failedAttempt => none
    | .ordered => some .startAp
    | .lost =>
      if s.bits.apStarted = false ∧ maxRetryStartAp ≤ s.retries then some .startAp else none
  | _ => none

/-- What the task asks of the driver and of the flash when it handles a message. -/
def callsOf (s : WifiManager) : ManagerMessage → List ManagerCall
  | .startWifiScan => if s.bits.scan then [] else [.scanStart]
  | .connectSta _ =>
    if s.bits.wifiConnected then []
    else if s.bits.scan then [.scanStop, .connect]
    else [.connect]
  | .disconnectSta => [.disconnect]
  | .staDisconnected => if s.bits.disconnection = .ordered then [.eraseConfig] else []
  | .staGotIp => if s.bits.requestRestoreSta then [] else [.saveConfig]
  | .scanDone | .loadAndRestoreSta | .startAp | .stopAp => []

/-- How handling a message changes the bits. -/
def bitsAfter (bits : ManagerBits) : ManagerMessage → ManagerBits
  | .startWifiScan => { bits with scan := true }
  | .connectSta .user => { bits with requestStaConnect := true }
  | .connectSta .restoreConnection => { bits with requestRestoreSta := true }
  | .disconnectSta => { bits with requestDisconnect := true }
  | .staDisconnected =>
    match bits.disconnection with
    | .failedAttempt => { bits with requestStaConnect := false }
    | .ordered => { bits with requestDisconnect := false }
    | .lost => { bits with requestRestoreSta := false }
  | .staGotIp => { bits with requestStaConnect := false, requestRestoreSta := false }
  | .connectSta .autoReconnect | .scanDone | .loadAndRestoreSta | .startAp | .stopAp => bits

/-- How handling a message changes `retries`. -/
def retriesAfter (s : WifiManager) : ManagerMessage → ℕ
  | .staDisconnected =>
    if s.bits.disconnection = .lost ∧ s.bits.apStarted = false then
      if s.retries < maxRetryStartAp then s.retries + 1 else 0
    else s.retries
  | .staGotIp => 0
  | _ => s.retries

/-- How handling a message changes the timer that shuts the access point down. -/
def shutdownApTimerAfter (s : WifiManager) : ManagerMessage → Bool
  | .staDisconnected => false
  | .staGotIp => s.shutdownApTimer || s.bits.apStarted
  | _ => s.shutdownApTimer

/-- How handling a message changes the wifi mode. -/
def apModeAfter (s : WifiManager) : ManagerMessage → Bool
  | .startAp => true
  | .stopAp => s.apMode && !s.bits.wifiConnected
  | _ => s.apMode

/-- How handling a message changes whether the DNS server runs. -/
def dnsServerAfter (s : WifiManager) : ManagerMessage → Bool
  | .startAp => true
  | .stopAp => s.dnsServer && !s.bits.wifiConnected
  | .staGotIp => false
  | _ => s.dnsServer

/-- Handling a message, apart from the order and the callback. -/
def effect (s : WifiManager) (message : ManagerMessage) : WifiManager :=
  { s with
    bits := bitsAfter s.bits message
    retries := s.retriesAfter message
    retryTimer := s.retryTimer ||
      decide (message = .staDisconnected ∧ s.bits.disconnection = .lost)
    shutdownApTimer := s.shutdownApTimerAfter message
    apMode := s.apModeAfter message
    dnsServer := s.dnsServerAfter message
    calls := s.calls ++ s.callsOf message }

/-- The callback of a message is called, if there is one. -/
def callsBack (s : WifiManager) : ManagerMessage → Bool
  | .stopAp => s.bits.wifiConnected
  | _ => true

/-- One step. -/
def step (s : WifiManager) : Action → Option WifiManager
  | .event event =>
    if s.pending .eventTask = none then
      some { s with
        bits := event.update s.bits
        pending := Function.update s.pending .eventTask event.message
        reported := s.reported ++ event.message.toList.filter ManagerMessage.isConnection }
    else none
  | .retryTimerExpires =>
    if s.retryTimer = true ∧ s.pending .timerTask = none then
      some { s with
        retryTimer := false
        pending := Function.update s.pending .timerTask (some (.connectSta .autoReconnect)) }
    else none
  | .shutdownApTimerExpires =>
    if s.shutdownApTimer = true ∧ s.pending .timerTask = none then
      some { s with
        shutdownApTimer := false
        pending := Function.update s.pending .timerTask (some .stopAp) }
    else none
  | .order order =>
    if s.pending .httpServer = none then
      some { s with pending := Function.update s.pending .httpServer (some order.message) }
    else none
  | .send sender =>
    match s.pending sender with
    | none => none
    | some message =>
      if s.queue.length < managerQueueLength then
        some { s with
          queue := s.queue ++ [message]
          pending := Function.update s.pending sender none }
      else none
  | .receive =>
    match s.position, s.queue with
    | .receiving, message :: queue =>
      some { s with queue := queue, position := .handling message }
    | _, _ => none
  | .handle fetched =>
    match s.position with
    | .handling message => some
      { s.effect message with
        position :=
          match s.orderOf fetched message with
          | some order => .sending message order
          | none => if s.callsBack message then .calling message else .receiving
        handled := s.handled ++ [(message, s.bits)] }
    | _ => none
  | .sendOrder =>
    match s.position with
    | .sending message order =>
      if s.queue.length < managerQueueLength then
        some { s with queue := s.queue ++ [order], position := .calling message }
      else none
    | _ => none
  | .callback =>
    match s.position with
    | .calling message =>
      some { s with position := .receiving, called := s.called ++ [message] }
    | _ => none

/-- What a step does to the state in which it is taken. -/
inductive Stepped (s : WifiManager) : Action → WifiManager → Prop
  | event (event : WifiDriverEvent) (hidle : s.pending .eventTask = none) :
      Stepped s (.event event)
        { s with
          bits := event.update s.bits
          pending := Function.update s.pending .eventTask event.message
          reported := s.reported ++ event.message.toList.filter ManagerMessage.isConnection }
  | retryTimerExpires (hactive : s.retryTimer = true) (hidle : s.pending .timerTask = none) :
      Stepped s .retryTimerExpires
        { s with
          retryTimer := false
          pending := Function.update s.pending .timerTask (some (.connectSta .autoReconnect)) }
  | shutdownApTimerExpires (hactive : s.shutdownApTimer = true)
      (hidle : s.pending .timerTask = none) :
      Stepped s .shutdownApTimerExpires
        { s with
          shutdownApTimer := false
          pending := Function.update s.pending .timerTask (some .stopAp) }
  | order (order : UserOrder) (hidle : s.pending .httpServer = none) :
      Stepped s (.order order)
        { s with pending := Function.update s.pending .httpServer (some order.message) }
  | send (sender : ManagerSender) (message : ManagerMessage)
      (hpending : s.pending sender = some message) (hroom : s.queue.length < managerQueueLength) :
      Stepped s (.send sender)
        { s with
          queue := s.queue ++ [message]
          pending := Function.update s.pending sender none }
  | receive (message : ManagerMessage) (queue : List ManagerMessage)
      (hposition : s.position = .receiving) (hqueue : s.queue = message :: queue) :
      Stepped s .receive { s with queue := queue, position := .handling message }
  | handle (fetched : Bool) (message : ManagerMessage) (position : ManagerPosition)
      (hposition : s.position = .handling message)
      (hnext : position = .receiving ∧ s.orderOf fetched message = none ∧
          s.callsBack message = false ∨
        position = .calling message ∧ s.orderOf fetched message = none ∧
          s.callsBack message = true ∨
        ∃ order, position = .sending message order ∧ s.orderOf fetched message = some order) :
      Stepped s (.handle fetched)
        { s.effect message with
          position := position
          handled := s.handled ++ [(message, s.bits)] }
  | sendOrder (message order : ManagerMessage) (hposition : s.position = .sending message order)
      (hroom : s.queue.length < managerQueueLength) :
      Stepped s .sendOrder { s with queue := s.queue ++ [order], position := .calling message }
  | callback (message : ManagerMessage) (hposition : s.position = .calling message) :
      Stepped s .callback { s with position := .receiving, called := s.called ++ [message] }

variable {s s' : WifiManager} {a : Action}

/-- **What one step does**, case by case: every enabled action has the guard and the effect that
`Stepped` states for it. -/
theorem stepped_of_step (hstep : s.step a = some s') : Stepped s a s' := by
  cases a with
  | event event =>
    simp only [step, Option.ite_none_right_eq_some] at hstep
    obtain ⟨hidle, hstep⟩ := hstep
    obtain rfl := Option.some.inj hstep
    exact .event event hidle
  | retryTimerExpires =>
    simp only [step, Option.ite_none_right_eq_some] at hstep
    obtain ⟨⟨hactive, hidle⟩, hstep⟩ := hstep
    obtain rfl := Option.some.inj hstep
    exact .retryTimerExpires hactive hidle
  | shutdownApTimerExpires =>
    simp only [step, Option.ite_none_right_eq_some] at hstep
    obtain ⟨⟨hactive, hidle⟩, hstep⟩ := hstep
    obtain rfl := Option.some.inj hstep
    exact .shutdownApTimerExpires hactive hidle
  | order order =>
    simp only [step, Option.ite_none_right_eq_some] at hstep
    obtain ⟨hidle, hstep⟩ := hstep
    obtain rfl := Option.some.inj hstep
    exact .order order hidle
  | send sender =>
    simp only [step] at hstep
    cases hpending : s.pending sender with
    | none => simp [hpending] at hstep
    | some message =>
      simp only [hpending, Option.ite_none_right_eq_some] at hstep
      obtain ⟨hroom, hstep⟩ := hstep
      obtain rfl := Option.some.inj hstep
      exact .send sender message hpending hroom
  | receive =>
    simp only [step] at hstep
    split at hstep
    · rename_i message queue hposition hqueue
      obtain rfl := Option.some.inj hstep
      exact .receive message queue hposition hqueue
    · cases hstep
  | handle fetched =>
    simp only [step] at hstep
    split at hstep
    · rename_i message hposition
      obtain rfl := Option.some.inj hstep
      apply Stepped.handle fetched message _ hposition
      cases horder : s.orderOf fetched message with
      | some order => exact Or.inr (Or.inr ⟨order, rfl, rfl⟩)
      | none =>
        cases hcalls : s.callsBack message with
        | true => exact Or.inr (Or.inl ⟨rfl, rfl, rfl⟩)
        | false => exact Or.inl ⟨rfl, rfl, rfl⟩
    · cases hstep
  | sendOrder =>
    simp only [step] at hstep
    split at hstep
    · rename_i message order hposition
      rw [Option.ite_none_right_eq_some] at hstep
      obtain ⟨hroom, hstep⟩ := hstep
      obtain rfl := Option.some.inj hstep
      exact .sendOrder message order hposition hroom
    · cases hstep
  | callback =>
    simp only [step] at hstep
    split at hstep
    · rename_i message hposition
      obtain rfl := Option.some.inj hstep
      exact .callback message hposition
    · cases hstep

end WifiManager

end NixieVfdCentral
