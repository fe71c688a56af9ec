import NixieVfdCentral.WifiManager.Flash
import NixieVfdCentral.WifiManager.Reports

/-!
# The state of the connection on its page

When the user names a network, the HTTP server rewrites the configuration in memory, empties the
document for the state of the connection and sends the order to connect. The task writes the
document when it handles a change of the connection, with the name that is in memory at that
moment; for a disconnection that the user has ordered it sets the configuration to zero before.
Emptying the document is to keep the user from seeing what is left of an earlier connection;
whether it does depends on what is still on its way to the task.
-/

namespace NixieVfdCentral

open Runs

/-- The reason with which the document is written for a change of the connection. -/
def ManagerBits.updateReason (uxBits : ManagerBits) : ManagerMessage → UpdateReason
  | .staDisconnected =>
    match uxBits.disconnection with
    | .failedAttempt => .failedAttempt
    | .ordered => .userDisconnect
    | .lost => .lostConnection
  | _ => .connectionOk

/-- The wifi manager with what it shares with the HTTP server. -/
structure StatusPage where
  /-- The wifi manager. -/
  manager : WifiManager
  /-- `*wifi_manager_config_sta`. -/
  config : StaConfig
  /-- What `ip_info_json` was written from, or nothing while it is empty. -/
  ipInfoJson : Option (StaConfig × UpdateReason)
  /-- The document is written for the message that the task is working on. -/
  written : Bool
  /-- The task has set the configuration to zero, and is about to write the document. -/
  erasing : Bool
  /-- The HTTP server has rewritten the configuration, and is about to empty the document. -/
  requesting : Bool

namespace StatusPage

/-- `wifi_manager_start` has been called. -/
def initial : StatusPage where
  manager := .initial
  config := .zero
  ipInfoJson := none
  written := false
  erasing := false
  requesting := false

/-- The steps. -/
inductive Action
  /-- A step that concerns neither the document nor the configuration. -/
  | own (a : WifiManager.Action)
  /-- The task takes the next message from the queue. -/
  | receive
  /-- It sets the configuration to zero for a disconnection that the user has ordered. -/
  | erase
  /-- It writes the document for its message. -/
  | generate
  /-- It handles the message, apart from the document. If it fetches the configuration, `config` is
  what it finds. -/
  | handle (fetched : Bool) (config : StaConfig)
  /-- It calls the callback. -/
  | callback
  /-- The HTTP server accepts a request and rewrites the configuration. -/
  | request (ssid password : List UInt8)
  /-- It empties the document and sends the order. -/
  | connectAsync

/-- No step that has an action of its own, and no order of the user while the HTTP server is in a
request. -/
def isOwn (requesting : Bool) : WifiManager.Action → Bool
  | .receive | .handle _ | .callback | .order .connect => false
  | .order _ => !requesting
  | _ => true

/-- The bits that the task reads for its message. -/
def uxBits (s : StatusPage) : ManagerBits :=
  match s.manager.position, s.manager.handled.getLast? with
  | .sending _ _, some (_, bits) | .calling _, some (_, bits) => bits
  | _, _ => s.manager.bits

/-- The change of the connection that the task is working on and has not written the document
for. -/
def unwritten (s : StatusPage) : Option ManagerMessage :=
  if s.written then none else s.manager.current.filter ManagerMessage.isConnection

/-- One step. The task writes the document at some time between receiving the message and calling
the callback. The HTTP server does not wait for it, so a request may come in between setting the
configuration to zero and writing the document. -/
def step (s : StatusPage) : Action → Option StatusPage
  | .own a =>
    if isOwn s.requesting a = true then
      (s.manager.step a).map fun manager => { s with manager := manager }
    else none
  | .receive =>
    (s.manager.step .receive).map fun manager => { s with manager := manager, written := false }
  | .erase =>
    s.unwritten.bind fun message =>
      if s.uxBits.updateReason message = .userDisconnect ∧ s.erasing = false then
        some { s with config := .zero, erasing := true }
      else none
  | .generate =>
    s.unwritten.bind fun message =>
      if s.uxBits.updateReason message = .userDisconnect → s.erasing = true then
        some { s with
          ipInfoJson := some (s.config, s.uxBits.updateReason message)
          written := true
          erasing := false }
      else none
  | .handle fetched config =>
    (s.manager.step (.handle fetched)).map fun manager =>
      { s with
        manager := manager
        config := if s.manager.position = .handling .loadAndRestoreSta then config else s.config }
  | .callback =>
    if s.unwritten = none then
      (s.manager.step .callback).map fun manager => { s with manager := manager }
    else none
  | .request ssid password =>
    if s.requesting = false ∧ s.manager.pending .httpServer = none ∧
        0 < ssid.length ∧ ssid.length ≤ 32 ∧ 0 < password.length ∧ password.length ≤ 64 then
      some { s with config := .ofRequest ssid password, requesting := true }
    else none
  | .connectAsync =>
    if s.requesting = true then
      (s.manager.step (.order .connect)).map fun manager =>
        { s with manager := manager, ipInfoJson := none, requesting := false }
    else none

/-- What a step does to the state in which it is taken. -/
inductive Stepped (s : StatusPage) : Action → StatusPage → Prop
  | own (a : WifiManager.Action) (manager : WifiManager) (hown : isOwn s.requesting a = true)
      (hmanager : s.manager.step a = some manager) :
      Stepped s (.own a) { s with manager := manager }
  | receive (manager : WifiManager) (hmanager : s.manager.step .receive = some manager) :
      Stepped s .receive { s with manager := manager, written := false }
  | erase (message : ManagerMessage) (hunwritten : s.unwritten = some message)
      (hordered : s.uxBits.updateReason message = .userDisconnect) :
      Stepped s .erase { s with config := .zero, erasing := true }
  | generate (message : ManagerMessage) (hunwritten : s.unwritten = some message)
      (herased : s.uxBits.updateReason message = .userDisconnect → s.erasing = true) :
      Stepped s .generate
        { s with
          ipInfoJson := some (s.config, s.uxBits.updateReason message)
          written := true
          erasing := false }
  | handle (fetched : Bool) (config : StaConfig) (manager : WifiManager)
      (hmanager : s.manager.step (.handle fetched) = some manager) :
      Stepped s (.handle fetched config)
        { s with
          manager := manager
          config := if s.manager.position = .handling .loadAndRestoreSta then config else s.config }
  | callback (manager : WifiManager) (hwritten : s.unwritten = none)
      (hmanager : s.manager.step .callback = some manager) :
      Stepped s .callback { s with manager := manager }
  | request (ssid password : List UInt8) (hidle : s.requesting = false) :
      Stepped s (.request ssid password)
        { s with config := .ofRequest ssid password, requesting := true }
  | connectAsync (manager : WifiManager) (hrequesting : s.requesting = true)
      (hmanager : s.manager.step (.order .connect) = some manager) :
      Stepped s .connectAsync
        { s with manager := manager, ipInfoJson := none, requesting := false }

variable {s s' : StatusPage} {a : Action}

/-- **What one step does**, case by case: every enabled action has the guard and the effect that
`Stepped` states for it. -/
theorem stepped_of_step (hstep : s.step a = some s') : Stepped s a s' := by
  cases a with
  | own a =>
    rw [step, Option.ite_none_right_eq_some] at hstep
    obtain ⟨hown, hstep⟩ := hstep
    obtain ⟨manager, hmanager, rfl⟩ := Option.map_eq_some_iff.mp hstep
    exact .own a manager hown hmanager
  | receive =>
    rw [step] at hstep
    obtain ⟨manager, hmanager, rfl⟩ := Option.map_eq_some_iff.mp hstep
    exact .receive manager hmanager
  | erase =>
    rw [step, Option.bind_eq_some_iff] at hstep
    obtain ⟨message, hunwritten, hstep⟩ := hstep
    rw [Option.ite_none_right_eq_some] at hstep
    obtain ⟨⟨hordered, _⟩, hstep⟩ := hstep
    obtain rfl := Option.some.inj hstep
    exact .erase message hunwritten hordered
  | generate =>
    rw [step, Option.bind_eq_some_iff] at hstep
    obtain ⟨message, hunwritten, hstep⟩ := hstep
    rw [Option.ite_none_right_eq_some] at hstep
    obtain ⟨herased, hstep⟩ := hstep
    obtain rfl := Option.some.inj hstep
    exact .generate message hunwritten herased
  | handle fetched config =>
    rw [step] at hstep
    obtain ⟨manager, hmanager, rfl⟩ := Option.map_eq_some_iff.mp hstep
    exact .handle fetched config manager hmanager
  | callback =>
    rw [step, Option.ite_none_right_eq_some] at hstep
    obtain ⟨hwritten, hstep⟩ := hstep
    obtain ⟨manager, hmanager, rfl⟩ := Option.map_eq_some_iff.mp hstep
    exact .callback manager hwritten hmanager
  | request ssid password =>
    rw [step, Option.ite_none_right_eq_some] at hstep
    obtain ⟨⟨hidle, _⟩, hstep⟩ := hstep
    obtain rfl := Option.some.inj hstep
    exact .request ssid password hidle
  | connectAsync =>
    rw [step, Option.ite_none_right_eq_some] at hstep
    obtain ⟨hrequesting, hstep⟩ := hstep
    obtain ⟨manager, hmanager, rfl⟩ := Option.map_eq_some_iff.mp hstep
    exact .connectAsync manager hrequesting hmanager

/-! ### Changes of the connection on their way to the document -/

/-- The changes of the connection for which the document has been written, the oldest first. -/
def documented (s : StatusPage) : List ManagerMessage :=
  s.manager.called.filter ManagerMessage.isConnection ++
    if s.written then s.manager.current.toList.filter ManagerMessage.isConnection else []

/-- Those for which it will be. -/
def awaited (s : StatusPage) : List ManagerMessage :=
  s.unwritten.toList ++ (s.manager.queue ++ (s.manager.pending .eventTask).toList).filter
    ManagerMessage.isConnection

/-- The changes that the driver has reported are those of the document and those on their way. -/
theorem reported_eq (h : s.manager.Reported) :
    s.manager.reported = s.documented ++ s.awaited := by
  have hcurrent : s.manager.current.toList.filter ManagerMessage.isConnection =
      (s.manager.current.filter ManagerMessage.isConnection).toList := by
    cases s.manager.current with
    | none => rfl
    | some message => cases hmessage : message.isConnection <;> simp [Option.filter, hmessage]
  rw [h.reported_eq, WifiManager.inFlight, documented, awaited, unwritten, List.append_assoc,
    List.filter_append]
  cases s.written with
  | true => simp
  | false => simp [hcurrent]

/-- The task keeps its message in a step that has no action of its own. -/
theorem current_own {m m' : WifiManager} {requesting : Bool} {b : WifiManager.Action}
    (hown : isOwn requesting b = true) (hstep : m.step b = some m') :
    m'.called = m.called ∧ m'.current = m.current ∧ m'.handled = m.handled := by
  cases WifiManager.stepped_of_step hstep with
  | receive | handle | callback => cases hown
  | sendOrder message order hposition => exact ⟨rfl, by simp [WifiManager.current, hposition], rfl⟩
  | _ => exact ⟨rfl, rfl, rfl⟩

/-- The task keeps a change of the connection when it handles it. -/
theorem current_handle {m m' : WifiManager} {fetched : Bool} {message : ManagerMessage}
    (hcurrent : m.current = some message) (hmessage : message.isConnection = true)
    (hstep : m.step (.handle fetched) = some m') : m'.current = m.current := by
  cases WifiManager.stepped_of_step hstep with
  | handle _ other position hposition hnext =>
    obtain rfl : other = message := by simpa [WifiManager.current, hposition] using hcurrent
    rcases hnext with ⟨_, _, hcalls⟩ | ⟨rfl, _⟩ | ⟨order, rfl, _⟩
    · cases hmessage.symm.trans (WifiManager.isConnection_of_callsBack hcalls)
    · simp [WifiManager.current, hposition]
    · simp [WifiManager.current, hposition]

/-- **Every step writes the document for one more change, or for none.** Apart from writing it, only
a request of the user changes it. -/
theorem step_documented (hstep : s.step a = some s') :
    (∃ message, a = .generate ∧ s.unwritten = some message ∧
        s'.documented = s.documented ++ [message] ∧
        s'.ipInfoJson = some (s'.config, s.uxBits.updateReason message)) ∨
      (s'.documented = s.documented ∧
        (s'.ipInfoJson = s.ipInfoJson ∨ a = .connectAsync ∧ s'.ipInfoJson = none)) := by
  cases stepped_of_step hstep with
  | own b manager hown hmanager =>
    obtain ⟨hcalled, hcurrent, _⟩ := current_own hown hmanager
    exact Or.inr ⟨by simp [documented, hcalled, hcurrent], Or.inl rfl⟩
  | receive manager hmanager =>
    cases WifiManager.stepped_of_step hmanager with
    | receive message queue hposition hqueue =>
      exact Or.inr ⟨by simp [documented, WifiManager.current, hposition], Or.inl rfl⟩
  | erase message hunwritten hordered => exact Or.inr ⟨rfl, Or.inl rfl⟩
  | generate message hunwritten herased =>
    refine Or.inl ⟨message, rfl, hunwritten, ?_, rfl⟩
    rw [unwritten] at hunwritten
    split at hunwritten
    · cases hunwritten
    · rename_i hwritten
      obtain ⟨hcurrent, hmessage⟩ := Option.filter_eq_some_iff.mp hunwritten
      simp [documented, hwritten, hcurrent, hmessage]
  | handle fetched config manager hmanager =>
    refine Or.inr ⟨?_, Or.inl rfl⟩
    cases WifiManager.stepped_of_step hmanager with
    | handle fetched message position hposition hnext =>
      rcases hnext with ⟨rfl, _, hcalls⟩ | ⟨rfl, _⟩ | ⟨order, rfl, _⟩
      · have hmessage := WifiManager.isConnection_of_callsBack hcalls
        simp [documented, WifiManager.current, WifiManager.effect, hposition, hmessage]
      · simp [documented, WifiManager.current, WifiManager.effect, hposition]
      · simp [documented, WifiManager.current, WifiManager.effect, hposition]
  | callback manager hwritten hmanager =>
    refine Or.inr ⟨?_, Or.inl rfl⟩
    cases WifiManager.stepped_of_step hmanager with
    | callback message hposition =>
      have hcurrent : s.manager.current = some message := by
        simp [WifiManager.current, hposition]
      rw [unwritten, hcurrent] at hwritten
      cases hmessage : message.isConnection <;>
        simp_all [documented, WifiManager.current, Option.filter]
  | request ssid password hidle => exact Or.inr ⟨rfl, Or.inl rfl⟩
  | connectAsync manager hrequesting hmanager =>
    cases WifiManager.stepped_of_step hmanager with
    | order order hidle => exact Or.inr ⟨rfl, Or.inr ⟨rfl, rfl⟩⟩

end StatusPage

/-! ### The first message -/

namespace WifiManager

/-- The order to fetch the configuration is handled before every other message, and never again. -/
structure FetchesFirst (s : WifiManager) : Prop where
  pending : ∀ sender, s.pending sender ≠ some .loadAndRestoreSta
  order : ∀ message, s.position ≠ .sending message .loadAndRestoreSta
  first : s.handled = [] →
    (s.position = .receiving ∧ ∃ rest, s.queue = .loadAndRestoreSta :: rest ∧
      .loadAndRestoreSta ∉ rest) ∨
    (s.position = .handling .loadAndRestoreSta ∧ .loadAndRestoreSta ∉ s.queue)
  later : s.handled ≠ [] →
    .loadAndRestoreSta ∉ s.queue ∧ s.position ≠ .handling .loadAndRestoreSta

/-- At the start the order to fetch the configuration is the only message in the queue. -/
theorem initial_fetchesFirst : FetchesFirst initial where
  pending := by simp [initial]
  order := by simp [initial]
  first _ := Or.inl ⟨rfl, [], rfl, by simp⟩
  later h := absurd rfl h

variable {s s' : WifiManager} {a : Action}

/-- While it handles a message, the task never orders itself to fetch the configuration. -/
theorem orderOf_ne_loadAndRestoreSta (fetched : Bool) (message : ManagerMessage) :
    s.orderOf fetched message ≠ some .loadAndRestoreSta := by
  cases message with
  | loadAndRestoreSta => cases fetched <;> simp [orderOf]
  | staDisconnected => cases h : s.bits.disconnection <;> simp [orderOf, h]
  | _ => simp [orderOf]

/-- No sender gets the order to fetch the configuration by getting something else to send. -/
theorem FetchesFirst.update (h : s.FetchesFirst) {sender : ManagerSender}
    {message : Option ManagerMessage} (hmessage : message ≠ some .loadAndRestoreSta)
    (other : ManagerSender) :
    Function.update s.pending sender message other ≠ some .loadAndRestoreSta := by
  by_cases hother : other = sender
  · subst hother
    rwa [Function.update_self]
  · rw [Function.update_of_ne hother]
    exact h.pending other

/-- Every step keeps the order to fetch the configuration in front of all other messages. -/
theorem FetchesFirst.step (h : s.FetchesFirst) (hstep : s.step a = some s') :
    s'.FetchesFirst := by
  cases stepped_of_step hstep with
  | event event hidle =>
    exact ⟨h.update (by cases event <;> simp [WifiDriverEvent.message]), h.order, h.first, h.later⟩
  | retryTimerExpires | shutdownApTimerExpires =>
    exact ⟨h.update (by simp), h.order, h.first, h.later⟩
  | order order hidle =>
    exact ⟨h.update (by cases order <;> simp [UserOrder.message]), h.order, h.first, h.later⟩
  | send sender message hpending hroom =>
    have hmessage : message ≠ .loadAndRestoreSta := by
      rintro rfl
      exact h.pending sender hpending
    refine ⟨h.update (by simp), h.order, fun hhandled => ?_, fun hhandled => ?_⟩
    · rcases h.first hhandled with ⟨hposition, rest, hqueue, hrest⟩ | ⟨hposition, hqueue⟩
      · exact Or.inl ⟨hposition, rest ++ [message], by simp [hqueue],
          by simp [hrest, Ne.symm hmessage]⟩
      · exact Or.inr ⟨hposition, by simp [hqueue, Ne.symm hmessage]⟩
    · obtain ⟨hqueue, hposition⟩ := h.later hhandled
      exact ⟨by simp [hqueue, Ne.symm hmessage], hposition⟩
  | receive message queue hposition hqueue =>
    refine ⟨h.pending, by simp, fun hhandled => ?_, fun hhandled => ?_⟩
    · rcases h.first hhandled with ⟨_, rest, hfirst, hrest⟩ | ⟨hhandling, _⟩
      · obtain ⟨rfl, rfl⟩ := List.cons.inj (hqueue.symm.trans hfirst)
        exact Or.inr ⟨rfl, hrest⟩
      · cases hposition.symm.trans hhandling
    · have hnone := (h.later hhandled).1
      rw [hqueue, List.mem_cons, not_or] at hnone
      exact ⟨hnone.2, by simpa using Ne.symm hnone.1⟩
  | handle fetched message position hposition hnext =>
    have hqueue : .loadAndRestoreSta ∉ s.queue := by
      by_cases hhandled : s.handled = []
      · rcases h.first hhandled with ⟨hreceiving, _⟩ | ⟨_, hqueue⟩
        · cases hposition.symm.trans hreceiving
        · exact hqueue
      · exact (h.later hhandled).1
    have hne := @orderOf_ne_loadAndRestoreSta s fetched message
    refine ⟨h.pending, ?_, by simp, fun _ => ⟨hqueue, ?_⟩⟩
    · rintro other rfl
      rcases hnext with ⟨hposition', _⟩ | ⟨hposition', _⟩ | ⟨order, hposition', horder⟩
      · cases hposition'
      · cases hposition'
      · obtain ⟨_, rfl⟩ := ManagerPosition.sending.inj hposition'
        exact hne horder
    · rintro rfl
      rcases hnext with ⟨hposition', _⟩ | ⟨hposition', _⟩ | ⟨order, hposition', _⟩ <;>
        cases hposition'
  | sendOrder message order hposition hroom =>
    have horder : order ≠ .loadAndRestoreSta := by
      rintro rfl
      exact h.order message hposition
    have hhandled : s.handled ≠ [] := by
      intro hhandled
      rcases h.first hhandled with ⟨hother, _⟩ | ⟨hother, _⟩ <;> cases hposition.symm.trans hother
    exact ⟨h.pending, by simp, fun hnone => absurd hnone hhandled,
      fun _ => ⟨by simp [(h.later hhandled).1, Ne.symm horder], by simp⟩⟩
  | callback message hposition =>
    have hhandled : s.handled ≠ [] := by
      intro hhandled
      rcases h.first hhandled with ⟨hother, _⟩ | ⟨hother, _⟩ <;> cases hposition.symm.trans hother
    exact ⟨h.pending, by simp, fun hnone => absurd hnone hhandled,
      fun _ => ⟨(h.later hhandled).1, by simp⟩⟩

end WifiManager

namespace StatusPage

variable {s s' : StatusPage} {a : Action}

/-! ### What the document tells -/

/-- The document tells the last change for which it was written, under the name in memory. -/
structure Told (s : StatusPage) : Prop where
  reported : s.manager.Reported
  fetchesFirst : s.manager.FetchesFirst
  empty : s.manager.handled = [] → s.ipInfoJson = none
  erasing : s.erasing = true → ∃ message, s.unwritten = some message
  config_eq : s.requesting = false → s.erasing = false → ∀ config reason,
    s.ipInfoJson = some (config, reason) → config = s.config
  reason : ∀ config reason, s.ipInfoJson = some (config, reason) →
    (reason = .connectionOk ↔ s.documented.getLast? = some .staGotIp)

/-- At the start the document is empty, and nothing was handled. -/
theorem initial_told : Told initial where
  reported := WifiManager.initial_reported
  fetchesFirst := WifiManager.initial_fetchesFirst
  empty _ := rfl
  erasing h := by cases h
  config_eq _ _ _ _ h := by cases h
  reason _ _ h := by cases h

/-- The document is written with the reason of a connection for a connection only. -/
theorem updateReason_eq_connectionOk (bits : ManagerBits) {message : ManagerMessage}
    (h : message.isConnection = true) :
    bits.updateReason message = .connectionOk ↔ message = .staGotIp := by
  cases message with
  | staGotIp => simp [ManagerBits.updateReason]
  | staDisconnected =>
    cases hd : bits.disconnection <;> simp [ManagerBits.updateReason, hd]
  | _ => cases h

/-- A change that is written is one, and the task is working on it. -/
theorem current_of_unwritten {message : ManagerMessage} (h : s.unwritten = some message) :
    s.manager.current = some message ∧ message.isConnection = true := by
  rw [unwritten] at h
  split at h
  · cases h
  · exact Option.filter_eq_some_iff.mp h

/-- A step of the task, of the driver or of the timers, or none. -/
theorem manager_step (hstep : s.step a = some s') :
    s'.manager = s.manager ∨ ∃ b, s.manager.step b = some s'.manager := by
  cases stepped_of_step hstep with
  | own b manager _ hmanager => exact Or.inr ⟨b, hmanager⟩
  | receive manager hmanager | callback manager _ hmanager => exact Or.inr ⟨_, hmanager⟩
  | handle fetched config manager hmanager => exact Or.inr ⟨_, hmanager⟩
  | connectAsync manager _ hmanager => exact Or.inr ⟨_, hmanager⟩
  | erase | generate | request => exact Or.inl rfl

/-- The history of the handled messages only grows: if it is empty now, it was empty before. -/
theorem handled_of_handled_eq_nil {m m' : WifiManager} {b : WifiManager.Action}
    (hstep : m.step b = some m') (h : m'.handled = []) : m.handled = [] := by
  cases WifiManager.stepped_of_step hstep with
  | handle => simp at h
  | _ => exact h

/-- The configuration is set to zero only for a change that is still to be written. -/
theorem erasing_step (h : s.erasing = true → ∃ message, s.unwritten = some message)
    (hstep : s.step a = some s') (herasing : s'.erasing = true) :
    ∃ message, s'.unwritten = some message := by
  cases stepped_of_step hstep with
  | own b manager hown hmanager =>
    obtain ⟨message, hunwritten⟩ := h herasing
    refine ⟨message, ?_⟩
    rw [← hunwritten, unwritten, unwritten, (current_own hown hmanager).2.1]
  | receive manager hmanager =>
    obtain ⟨message, hunwritten⟩ := h herasing
    have hcurrent := (current_of_unwritten hunwritten).1
    cases WifiManager.stepped_of_step hmanager with
    | receive _ _ hposition _ => simp [WifiManager.current, hposition] at hcurrent
  | erase message hunwritten hordered => exact ⟨message, hunwritten⟩
  | generate => cases herasing
  | handle fetched config manager hmanager =>
    obtain ⟨message, hunwritten⟩ := h herasing
    obtain ⟨hcurrent, hmessage⟩ := current_of_unwritten hunwritten
    refine ⟨message, ?_⟩
    rw [← hunwritten, unwritten, unwritten, current_handle hcurrent hmessage hmanager]
  | callback manager hwritten hmanager =>
    obtain ⟨message, hunwritten⟩ := h herasing
    cases hwritten.symm.trans hunwritten
  | request ssid password hidle => exact h herasing
  | connectAsync manager hrequesting hmanager =>
    obtain ⟨message, hunwritten⟩ := h herasing
    refine ⟨message, ?_⟩
    cases WifiManager.stepped_of_step hmanager with
    | order => exact hunwritten

/-- **Every step keeps what the document tells**: its last change, and the name in memory. -/
theorem Told.step (h : s.Told) (hstep : s.step a = some s') : s'.Told := by
  have hmanager : s'.manager.Reported ∧ s'.manager.FetchesFirst ∧
      (s'.manager.handled = [] → s.manager.handled = []) := by
    rcases manager_step hstep with hsame | ⟨b, hb⟩
    · rw [hsame]
      exact ⟨h.reported, h.fetchesFirst, id⟩
    · exact ⟨h.reported.step hb, h.fetchesFirst.step hb, handled_of_handled_eq_nil hb⟩
  obtain ⟨hreported, hfetches, hhandled⟩ := hmanager
  rcases step_documented hstep with
    ⟨message, rfl, hunwritten, hdocumented, hjson⟩ | ⟨hdocumented, hjson⟩
  · obtain ⟨hcurrent, hmessage⟩ := current_of_unwritten hunwritten
    refine ⟨hreported, hfetches, fun hnone => ?_, erasing_step h.erasing hstep,
      fun _ _ config reason hsome => ?_, fun config reason hsome => ?_⟩
    · -- The first message is no change of the connection.
      rcases h.fetchesFirst.first (hhandled hnone) with ⟨hposition, _⟩ | ⟨hposition, _⟩
      · simp [WifiManager.current, hposition] at hcurrent
      · obtain rfl : .loadAndRestoreSta = message := by
          simpa [WifiManager.current, hposition] using hcurrent
        cases hmessage
    · rw [hjson] at hsome
      exact (congrArg Prod.fst (Option.some.inj hsome)).symm
    · rw [hjson] at hsome
      obtain ⟨_, rfl⟩ := Prod.mk.inj (Option.some.inj hsome)
      rw [hdocumented, updateReason_eq_connectionOk _ hmessage]
      simp
  · have hempty : s'.manager.handled = [] → s'.ipInfoJson = none := by
      intro hnone
      rcases hjson with hjson | ⟨_, hjson⟩
      · rw [hjson, h.empty (hhandled hnone)]
      · exact hjson
    refine ⟨hreported, hfetches, hempty, erasing_step h.erasing hstep, ?_, ?_⟩
    · intro hidle herasing config reason hsome
      rcases hjson with hjson | ⟨_, hjson⟩
      · rw [hjson] at hsome
        cases stepped_of_step hstep with
        | handle fetched config' manager hhandle =>
          have hold := h.config_eq hidle herasing config reason hsome
          by_cases hposition : s.manager.position = .handling .loadAndRestoreSta
          · -- The configuration is fetched while nothing is handled yet.
            have hfirst : s.manager.handled = [] := by
              by_contra hlater
              exact (h.fetchesFirst.later hlater).2 hposition
            rw [h.empty hfirst] at hsome
            cases hsome
          · rw [hold]
            exact (if_neg hposition).symm
        | generate message hunwritten =>
          exact (congrArg Prod.fst (Option.some.inj (hjson.trans hsome))).symm
        | erase => cases herasing
        | request => cases hidle
        | connectAsync => cases hjson.trans hsome
        | _ => exact h.config_eq hidle herasing config reason hsome
      · rw [hjson] at hsome
        cases hsome
    · intro config reason hsome
      rw [hdocumented]
      rcases hjson with hjson | ⟨_, hjson⟩
      · exact h.reason config reason (hjson.symm.trans hsome)
      · rw [hjson] at hsome
        cases hsome

/-- What the user can rely on when the document is not empty. -/
structure StatusTells (s : StatusPage) : Prop where
  /-- The name is the one in memory, unless the HTTP server has rewritten that and not emptied the
  document yet, or the task has set it to zero and not written the document yet. -/
  config_eq : s.requesting = false → s.erasing = false → ∀ config reason,
    s.ipInfoJson = some (config, reason) → config = s.config
  /-- The task sets it to zero only while it has a change still to write. -/
  erasing : s.erasing = true → ∃ message, s.unwritten = some message
  /-- The document is written for the changes that the driver has reported, in this order. -/
  reported_eq : s.manager.reported = s.documented ++ s.awaited
  /-- When none is on its way, it tells whether there is a connection. -/
  agree : s.awaited = [] → ∀ config reason, s.ipInfoJson = some (config, reason) →
    (reason = .connectionOk ↔ s.manager.bits.wifiConnected = true)

/-- **The document tells the state of the connection.** In every run, whatever the driver reports
and the user asks for, the document names the network in memory, except while the HTTP server is
between rewriting that and emptying the document, and while the task is between setting it to zero
and writing the document. It is written for the changes that the driver has reported, in order,
and if none is on its way to the task, it tells a connection exactly if there is one. -/
theorem statusTells (actions : List Action) : Visited step StatusTells initial actions := by
  have hvisited : Visited step Told initial actions :=
    visited_of_invariant (fun _ _ _ h hstep => h.step hstep) initial_told actions
  refine hvisited.mono fun s h => ⟨h.config_eq, h.erasing, s.reported_eq h.reported, ?_⟩
  intro hnone config reason hsome
  have hreported := s.reported_eq h.reported
  rw [hnone, List.append_nil] at hreported
  rw [h.reason config reason hsome, h.reported.connected, hreported]

/-! ### What is left of an earlier connection -/

/-- What was written and what was reported between a state in which the document was emptied and a
later one. -/
structure WrittenSince (s t : StatusPage) (written since : List ManagerMessage) : Prop where
  documented_eq : t.documented = s.documented ++ written
  reported_eq : t.manager.reported = s.manager.reported ++ since
  empty_iff : t.ipInfoJson = none ↔ written = []

/-- What the driver has reported stays reported, with more behind it. -/
theorem exists_reported (hstep : s.step a = some s') :
    ∃ since, s'.manager.reported = s.manager.reported ++ since := by
  rcases manager_step hstep with hsame | ⟨b, hb⟩
  · exact ⟨[], by rw [hsame, List.append_nil]⟩
  · generalize s'.manager = manager at hb ⊢
    cases WifiManager.stepped_of_step hb with
    | event event => exact ⟨_, rfl⟩
    | _ => exact ⟨[], (List.append_nil _).symm⟩

/-- Until the next request empties it, the document is only written for further changes. -/
theorem WrittenSince.step {u : StatusPage} {written since : List ManagerMessage}
    (h : WrittenSince u s written since) (ha : a ≠ .connectAsync) (hstep : s.step a = some s') :
    ∃ written' since', WrittenSince u s' written' since' := by
  obtain ⟨more, hmore⟩ := exists_reported hstep
  rcases step_documented hstep with ⟨message, _, _, hdocumented, hjson⟩ | ⟨hdocumented, hjson⟩
  · refine ⟨written ++ [message], since ++ more, ?_, ?_, ?_⟩
    · rw [hdocumented, h.documented_eq, List.append_assoc]
    · rw [hmore, h.reported_eq, List.append_assoc]
    · simp [hjson]
  · refine ⟨written, since ++ more, ?_, ?_, ?_⟩
    · rw [hdocumented, h.documented_eq]
    · rw [hmore, h.reported_eq, List.append_assoc]
    · rw [hjson.resolve_right fun hconnect => ha hconnect.1]
      exact h.empty_iff

end StatusPage

end NixieVfdCentral
