import NixieVfdCentral.Foundations.Histories
import NixieVfdCentral.WifiManager.Task

/-!
# Disconnections and retries

The driver reports a disconnection when an attempt to connect has failed, when the user has
ordered it, and when the connection was lost. It does not say which. The task of the wifi manager
tells them apart by two bits, which it sets when it handles the orders of the user; by a third one
it knows a connection that it has restored and need not save. It counts its retries. Here the bits
and the counter are compared with the history of the messages handled.
-/

namespace NixieVfdCentral.WifiManager

open Runs Histories

/-- The user has asked for a connection, and since then the driver has reported neither a
connection nor a disconnection. -/
def AttemptOpen (handled : List (ManagerMessage × ManagerBits)) : Prop :=
  HoldsSince (fun e => e.1 = .connectSta .user)
    (fun e => e.1 = .staGotIp ∨ e.1 = .staDisconnected) handled

/-- The user has asked for a disconnection, and every one since then was a failed attempt. -/
def OrderOpen (handled : List (ManagerMessage × ManagerBits)) : Prop :=
  HoldsSince (fun e => e.1 = .disconnectSta)
    (fun e => e.1 = .staDisconnected ∧ e.2.disconnection ≠ .failedAttempt) handled

/-- The task has set out to restore the saved connection, and since then it has handled neither a
connection nor a lost one. -/
def RestoreOpen (handled : List (ManagerMessage × ManagerBits)) : Prop :=
  HoldsSince (fun e => e.1 = .connectSta .restoreConnection)
    (fun e => e.1 = .staGotIp ∨ e.1 = .staDisconnected ∧ e.2.disconnection = .lost) handled

/-- A connection whose configuration is saved. -/
def isSaved (e : ManagerMessage × ManagerBits) : Bool :=
  decide (e.1 = .staGotIp ∧ e.2.requestRestoreSta = false)

/-- A disconnection that the user has ordered. -/
def isOrdered (e : ManagerMessage × ManagerBits) : Bool :=
  decide (e.1 = .staDisconnected ∧ e.2.disconnection = .ordered)

/-- A loss of the connection while the access point is not started. -/
def isLossWithoutAp (e : ManagerMessage × ManagerBits) : Bool :=
  decide (e.1 = .staDisconnected ∧ e.2.disconnection = .lost ∧ e.2.apStarted = false)

/-- The losses without an access point since the last connection. -/
def lossesWithoutAp (handled : List (ManagerMessage × ManagerBits)) : ℕ :=
  countSince isLossWithoutAp (fun e => decide (e.1 = .staGotIp)) handled

/-- The three bits say what the history says. -/
structure BitsTell (handled : List (ManagerMessage × ManagerBits)) (bits : ManagerBits) : Prop where
  requestStaConnect : bits.requestStaConnect = true ↔ AttemptOpen handled
  requestDisconnect : bits.requestDisconnect = true ↔ OrderOpen handled
  requestRestoreSta : bits.requestRestoreSta = true ↔ RestoreOpen handled

variable {s s' : WifiManager} {a : Action} {bits : ManagerBits}
  {handled : List (ManagerMessage × ManagerBits)}

/-! ### How a disconnection is told -/

/-- A failed attempt is told by the bit for a connection that was asked for. -/
theorem disconnection_eq_failedAttempt :
    bits.disconnection = .failedAttempt ↔ bits.requestStaConnect = true := by
  cases h : bits.requestStaConnect <;> cases hd : bits.requestDisconnect <;>
    simp [ManagerBits.disconnection, h, hd]

/-- An ordered disconnection is told by its bit, unless a connection was asked for. -/
theorem disconnection_eq_ordered : bits.disconnection = .ordered ↔
    ¬bits.requestStaConnect = true ∧ bits.requestDisconnect = true := by
  cases h : bits.requestStaConnect <;> cases hd : bits.requestDisconnect <;>
    simp [ManagerBits.disconnection, h, hd]

/-- A request of the user for a connection is remembered until the next report. -/
theorem requestStaConnect_bitsAfter (message : ManagerMessage) :
    (bitsAfter bits message).requestStaConnect = true ↔ message = .connectSta .user ∨
      bits.requestStaConnect = true ∧ ¬(message = .staGotIp ∨ message = .staDisconnected) := by
  cases message with
  | connectSta request => cases request <;> simp [bitsAfter]
  | staDisconnected =>
    cases h : bits.requestStaConnect <;> cases hd : bits.requestDisconnect <;>
      simp [bitsAfter, ManagerBits.disconnection, h, hd]
  | _ => simp [bitsAfter]

/-- A request for a disconnection is remembered until the next loss that is no failed attempt. -/
theorem requestDisconnect_bitsAfter (message : ManagerMessage) :
    (bitsAfter bits message).requestDisconnect = true ↔ message = .disconnectSta ∨
      bits.requestDisconnect = true ∧
        ¬(message = .staDisconnected ∧ bits.disconnection ≠ .failedAttempt) := by
  cases message with
  | connectSta request => cases request <;> simp [bitsAfter]
  | staDisconnected =>
    cases h : bits.requestStaConnect <;> cases hd : bits.requestDisconnect <;>
      simp [bitsAfter, ManagerBits.disconnection, h, hd]
  | _ => simp [bitsAfter]

/-- An order to restore is remembered until the next connection or loss. -/
theorem requestRestoreSta_bitsAfter (message : ManagerMessage) :
    (bitsAfter bits message).requestRestoreSta = true ↔
      message = .connectSta .restoreConnection ∨ bits.requestRestoreSta = true ∧
        ¬(message = .staGotIp ∨ message = .staDisconnected ∧ bits.disconnection = .lost) := by
  cases message with
  | connectSta request => cases request <;> simp [bitsAfter]
  | staDisconnected => cases hd : bits.disconnection <;> simp [bitsAfter, hd]
  | _ => simp [bitsAfter]

/-- Handling a message keeps the bits in step with the history. -/
theorem BitsTell.handle (h : BitsTell handled bits) (message : ManagerMessage) :
    BitsTell (handled ++ [(message, bits)]) (bitsAfter bits message) := by
  constructor
  · rw [requestStaConnect_bitsAfter, AttemptOpen, holdsSince_concat, h.requestStaConnect,
      AttemptOpen]
  · rw [requestDisconnect_bitsAfter, OrderOpen, holdsSince_concat, h.requestDisconnect, OrderOpen]
  · rw [requestRestoreSta_bitsAfter, RestoreOpen, holdsSince_concat, h.requestRestoreSta,
      RestoreOpen]

/-! ### The steps -/

/-- Apart from the handling of a message, no step touches the history, the calls, the retries, the
access point and the three bits. -/
theorem kept_or_handles (hstep : s.step a = some s') :
    (∃ fetched message position, a = .handle fetched ∧ s.position = .handling message ∧
      s' = { s.effect message with
        position := position, handled := s.handled ++ [(message, s.bits)] }) ∨
    (∀ fetched, a ≠ .handle fetched) ∧ s'.handled = s.handled ∧ s'.calls = s.calls ∧
      s'.retries = s.retries ∧ s'.apMode = s.apMode ∧ s'.dnsServer = s.dnsServer ∧
      s'.bits.requestStaConnect = s.bits.requestStaConnect ∧
      s'.bits.requestDisconnect = s.bits.requestDisconnect ∧
      s'.bits.requestRestoreSta = s.bits.requestRestoreSta := by
  cases stepped_of_step hstep with
  | handle fetched message position hposition =>
    exact Or.inl ⟨fetched, message, position, rfl, hposition, rfl⟩
  | event event => cases event <;> exact Or.inr ⟨by simp, rfl, rfl, rfl, rfl, rfl, rfl, rfl, rfl⟩
  | _ => exact Or.inr ⟨by simp, rfl, rfl, rfl, rfl, rfl, rfl, rfl, rfl⟩

/-- Handling a message erases the configuration once if it is an ordered disconnection, else not at
all. -/
theorem count_eraseConfig_callsOf (s : WifiManager) (message : ManagerMessage) :
    (s.callsOf message).count .eraseConfig = if isOrdered (message, s.bits) then 1 else 0 := by
  cases message with
  | startWifiScan => cases h : s.bits.scan <;> simp [callsOf, isOrdered, h]
  | connectSta request =>
    cases h : s.bits.wifiConnected <;> cases hscan : s.bits.scan <;>
      simp [callsOf, isOrdered, h, hscan]
  | staDisconnected => by_cases h : s.bits.disconnection = .ordered <;> simp [callsOf, isOrdered, h]
  | staGotIp => cases h : s.bits.requestRestoreSta <;> simp [callsOf, isOrdered, h]
  | _ => simp [callsOf, isOrdered]

/-- Handling a message saves the configuration once if it is a connection that is not restored, else
not at all. -/
theorem count_saveConfig_callsOf (s : WifiManager) (message : ManagerMessage) :
    (s.callsOf message).count .saveConfig = if isSaved (message, s.bits) then 1 else 0 := by
  cases message with
  | startWifiScan => cases h : s.bits.scan <;> simp [callsOf, isSaved, h]
  | connectSta request =>
    cases h : s.bits.wifiConnected <;> cases hscan : s.bits.scan <;>
      simp [callsOf, isSaved, h, hscan]
  | staDisconnected => by_cases h : s.bits.disconnection = .ordered <;> simp [callsOf, isSaved, h]
  | staGotIp => cases h : s.bits.requestRestoreSta <;> simp [callsOf, isSaved, h]
  | _ => simp [callsOf, isSaved]

/-- What the history tells about the bits, the configurations saved and the erasures. -/
structure Told (s : WifiManager) : Prop where
  bits : BitsTell s.handled s.bits
  recorded : Recorded BitsTell s.handled
  saved : s.calls.count .saveConfig = s.handled.countP isSaved
  erased : s.calls.count .eraseConfig = s.handled.countP isOrdered
  ordered : s.handled.countP isOrdered + s.bits.requestDisconnect.toNat ≤
    (s.handled.map Prod.fst).count .disconnectSta

/-- At the start the bits are clear, nothing is handled and nothing was called. -/
theorem initial_told : Told initial where
  bits := ⟨by simp [initial, AttemptOpen], by simp [initial, OrderOpen],
    by simp [initial, RestoreOpen]⟩
  recorded := recorded_nil
  saved := rfl
  erased := rfl
  ordered := le_rfl

/-- An order to disconnect is used up by the disconnection it is taken for. -/
theorem ordered_bitsAfter (bits : ManagerBits) (message : ManagerMessage) :
    (if isOrdered (message, bits) then 1 else 0) +
        (bitsAfter bits message).requestDisconnect.toNat ≤
      bits.requestDisconnect.toNat + if message = .disconnectSta then 1 else 0 := by
  cases message with
  | connectSta request => cases request <;> simp [bitsAfter, isOrdered]
  | staDisconnected =>
    cases h : bits.requestStaConnect <;> cases hd : bits.requestDisconnect <;>
      simp [bitsAfter, ManagerBits.disconnection, isOrdered, h, hd]
  | _ => simp [bitsAfter, isOrdered]

/-- **Every step keeps what the history tells** about the bits, the counter and the calls. -/
theorem Told.step (h : s.Told) (hstep : s.step a = some s') : s'.Told := by
  rcases kept_or_handles hstep with ⟨_, message, position, _, _, rfl⟩ | hkept
  · have hordered := h.ordered
    have hafter := ordered_bitsAfter s.bits message
    refine ⟨h.bits.handle message, h.recorded.concat h.bits, ?_, ?_, ?_⟩
    · change (s.calls ++ s.callsOf message).count .saveConfig = _
      rw [List.count_append, count_saveConfig_callsOf, h.saved, List.countP_append,
        List.countP_singleton]
    · change (s.calls ++ s.callsOf message).count .eraseConfig = _
      rw [List.count_append, count_eraseConfig_callsOf, h.erased, List.countP_append,
        List.countP_singleton]
    · change (s.handled ++ [(message, s.bits)]).countP isOrdered +
        (bitsAfter s.bits message).requestDisconnect.toNat ≤ _
      rw [List.countP_append, List.countP_singleton, List.map_append, List.count_append,
        List.map_singleton, List.count_singleton]
      simp only [beq_iff_eq]
      omega
  · obtain ⟨_, hhandled, hcalls, _, _, _, hconnect, hdisconnect, hrestore⟩ := hkept
    constructor
    · rw [hhandled]
      exact ⟨hconnect ▸ h.bits.requestStaConnect, hdisconnect ▸ h.bits.requestDisconnect,
        hrestore ▸ h.bits.requestRestoreSta⟩
    · rw [hhandled]
      exact h.recorded
    · rw [hcalls, hhandled, h.saved]
    · rw [hcalls, hhandled, h.erased]
    · rw [hhandled, hdisconnect]
      exact h.ordered

/-- How the disconnections handled so far have been treated. -/
structure DisconnectionsSorted (s : WifiManager) : Prop where
  failedAttempt : ∀ before bits after, s.handled = before ++ (.staDisconnected, bits) :: after →
    (bits.disconnection = .failedAttempt ↔ AttemptOpen before)
  ordered : ∀ before bits after, s.handled = before ++ (.staDisconnected, bits) :: after →
    (bits.disconnection = .ordered ↔ ¬AttemptOpen before ∧ OrderOpen before)
  erased : s.calls.count .eraseConfig = s.handled.countP isOrdered
  erased_le : s.calls.count .eraseConfig ≤ (s.handled.map Prod.fst).count .disconnectSta

/-- **Disconnections are told apart by the orders of the user.** In every run a disconnection is
taken for a failed attempt exactly when the user has asked for a connection and nothing has been
reported since, for an ordered one exactly when otherwise the user has asked for it, and for a
lost connection in the remaining cases. The saved configuration is erased for the ordered ones
only, and never more often than the user has asked for a disconnection. -/
theorem disconnectionsSorted (actions : List Action) :
    Visited step DisconnectionsSorted initial actions := by
  have hvisited : Visited step Told initial actions :=
    visited_of_invariant (fun _ _ _ h hstep => h.step hstep) initial_told actions
  refine hvisited.mono fun s h => ⟨?_, ?_, h.erased, ?_⟩
  · intro before bits after hhandled
    rw [disconnection_eq_failedAttempt]
    exact (h.recorded before _ bits after hhandled).requestStaConnect
  · intro before bits after hhandled
    have htold := h.recorded before _ bits after hhandled
    rw [disconnection_eq_ordered, htold.requestStaConnect, htold.requestDisconnect]
  · rw [h.erased]
    exact le_trans (Nat.le_add_right _ _) h.ordered

/-- Which of the connections handled so far have been saved. -/
structure ConnectionsSaved (s : WifiManager) : Prop where
  isSaved_iff : ∀ before bits after, s.handled = before ++ (.staGotIp, bits) :: after →
    (isSaved (.staGotIp, bits) = true ↔ ¬RestoreOpen before)
  saved : s.calls.count .saveConfig = s.handled.countP isSaved

/-- **A connection is saved unless one is to be restored.** In every run the configuration is saved
at exactly those connections before which no restored connection is outstanding. A connection that
the user has asked for while one is outstanding is not saved; a failed attempt of the user does
not end the restoration. -/
theorem connectionsSaved (actions : List Action) :
    Visited step ConnectionsSaved initial actions := by
  have hvisited : Visited step Told initial actions :=
    visited_of_invariant (fun _ _ _ h hstep => h.step hstep) initial_told actions
  refine hvisited.mono fun s h => ⟨fun before bits after hhandled => ?_, h.saved⟩
  have htold := h.recorded before _ bits after hhandled
  rw [← htold.requestRestoreSta]
  simp [isSaved]

/-! ### Retries -/

/-- Counting up to a limit and starting again at zero is counting modulo. -/
theorem countUp_eq_mod (n limit : ℕ) :
    (if n % (limit + 1) < limit then n % (limit + 1) + 1 else 0) = (n + 1) % (limit + 1) := by
  have hmod : n % (limit + 1) < limit + 1 := Nat.mod_lt n (Nat.succ_pos limit)
  rw [← Nat.mod_add_mod n (limit + 1) 1]
  rcases Nat.lt_or_ge (n % (limit + 1)) limit with hlt | hge
  · rw [if_pos hlt, Nat.mod_eq_of_lt (Nat.succ_lt_succ hlt)]
  · rw [if_neg (Nat.not_lt.mpr hge), show n % (limit + 1) = limit by omega, Nat.mod_self]

/-- The counter after a message is again the number of losses modulo four. -/
theorem retriesAfter_eq (h : s.retries = lossesWithoutAp handled % (maxRetryStartAp + 1))
    (message : ManagerMessage) : s.retriesAfter message =
      lossesWithoutAp (handled ++ [(message, s.bits)]) % (maxRetryStartAp + 1) := by
  rw [lossesWithoutAp, countSince_concat, ← lossesWithoutAp]
  cases message with
  | staDisconnected =>
    by_cases hloss : s.bits.disconnection = .lost ∧ s.bits.apStarted = false
    · have hcounts : isLossWithoutAp (.staDisconnected, s.bits) = true := by
        simp [isLossWithoutAp, hloss]
      simp only [retriesAfter, hloss, hcounts, and_self, if_true, reduceCtorEq, decide_false,
        Bool.false_eq_true, if_false]
      rw [h]
      exact countUp_eq_mod _ _
    · have hcounts : isLossWithoutAp (.staDisconnected, s.bits) = false := by
        simpa [isLossWithoutAp] using hloss
      simp [retriesAfter, hloss, hcounts, h]
  | staGotIp => simp [retriesAfter]
  | _ => simp [retriesAfter, isLossWithoutAp, h]

/-- Every step keeps the counter in step with the history. -/
theorem retries_step (h : s.retries = lossesWithoutAp s.handled % (maxRetryStartAp + 1))
    (hstep : s.step a = some s') :
    s'.retries = lossesWithoutAp s'.handled % (maxRetryStartAp + 1) := by
  rcases kept_or_handles hstep with ⟨_, message, _, _, _, rfl⟩ | ⟨_, hhandled, _, hretries, _⟩
  · exact retriesAfter_eq h message
  · rw [hretries, hhandled, h]

/-- A loss orders the access point exactly if it is an ordered disconnection or every fourth loss
without the access point. -/
theorem startsAp_iff (h : s.retries = lossesWithoutAp s.handled % (maxRetryStartAp + 1))
    (fetched : Bool) : s.orderOf fetched .staDisconnected = some .startAp ↔
      s.bits.disconnection = .ordered ∨ s.bits.disconnection = .lost ∧ s.bits.apStarted = false ∧
        (maxRetryStartAp + 1) ∣ lossesWithoutAp s.handled + 1 := by
  have hdvd : maxRetryStartAp ≤ s.retries ↔
      (maxRetryStartAp + 1) ∣ lossesWithoutAp s.handled + 1 := by
    rw [h, Nat.dvd_iff_mod_eq_zero]
    simp only [maxRetryStartAp]
    omega
  cases hd : s.bits.disconnection with
  | failedAttempt => simp [orderOf, hd]
  | ordered => simp [orderOf, hd]
  | lost => simp [orderOf, hd, hdvd]

/-- The task has counted the losses, and it orders the access point to be started after every
fourth, and after a disconnection that the user has ordered. -/
structure RetriesCounted (s : WifiManager) : Prop where
  retries_eq : s.retries = lossesWithoutAp s.handled % (maxRetryStartAp + 1)
  startsAp : ∀ fetched, s.orderOf fetched .staDisconnected = some .startAp ↔
    s.bits.disconnection = .ordered ∨ s.bits.disconnection = .lost ∧ s.bits.apStarted = false ∧
      (maxRetryStartAp + 1) ∣ lossesWithoutAp s.handled + 1

/-- **The access point is ordered at every fourth loss.** In every run the counter of the retries
is the number of losses since the last connection, up to multiples of four. Losses while the
access point is started do not count, and neither do failed attempts and ordered
disconnections. -/
theorem retriesCounted (actions : List Action) :
    Visited step RetriesCounted initial actions := by
  have hvisited : Visited step
      (fun s => s.retries = lossesWithoutAp s.handled % (maxRetryStartAp + 1)) initial actions :=
    visited_of_invariant (fun _ _ _ h hstep => retries_step h hstep) rfl actions
  exact hvisited.mono fun s h => ⟨h, startsAp_iff h⟩

/-! ### Messages on their way -/

/-- The messages that are about to be sent, in the queue, or being handled. -/
def upcoming (s : WifiManager) : List ManagerMessage :=
  (match s.position with
    | .handling message => [message]
    | .sending _ order => [order]
    | _ => []) ++ s.queue ++ (s.pending .eventTask).toList ++ (s.pending .timerTask).toList ++
    (s.pending .httpServer).toList

/-- The messages that have been handled and those on their way. -/
def sent (s : WifiManager) : List ManagerMessage := s.handled.map Prod.fst ++ s.upcoming

/-- What somebody sets out to send in a step. -/
def setOut (s : WifiManager) : Action → List ManagerMessage
  | .event event => event.message.toList
  | .retryTimerExpires => [.connectSta .autoReconnect]
  | .shutdownApTimerExpires => [.stopAp]
  | .order order => [order.message]
  | .handle fetched =>
    match s.position with
    | .handling message => (s.orderOf fetched message).toList
    | _ => []
  | .send _ | .receive | .sendOrder | .callback => []

/-- **No message is lost or made up**: what is set out to be sent is on its way until it is
handled. -/
theorem sent_perm (hstep : s.step a = some s') : s'.sent.Perm (s.sent ++ s.setOut a) := by
  rw [List.perm_iff_count]
  intro m
  cases stepped_of_step hstep with
  | event | retryTimerExpires | shutdownApTimerExpires | order =>
    simp only [sent, upcoming, setOut, ne_eq, reduceCtorEq, not_false_eq_true, Function.update_self,
      Function.update_of_ne, List.count_append, List.count_nil, Option.toList_some,
      Option.toList_none, *]
    omega
  | send sender message hpending hroom =>
    cases sender <;> simp [sent, upcoming, setOut, hpending, List.count_cons] <;> omega
  | receive message queue hposition hqueue =>
    simp [sent, upcoming, setOut, hposition, hqueue]
  | handle fetched message position hposition hnext =>
    rcases hnext with ⟨rfl, hnone, _⟩ | ⟨rfl, hnone, _⟩ | ⟨order, rfl, hsome⟩
    · simp [sent, upcoming, setOut, hposition, hnone, effect, List.count_cons]
    · simp [sent, upcoming, setOut, hposition, hnone, effect, List.count_cons]
    · simp [sent, upcoming, setOut, hposition, hsome, effect, List.count_cons]
      omega
  | sendOrder message order hposition hroom =>
    simp [sent, upcoming, setOut, hposition, List.count_cons]
    omega
  | callback message hposition => simp [sent, upcoming, setOut, hposition]

/-- A message on its way stays so until it is handled. -/
theorem mem_upcoming_step {message : ManagerMessage} (hmem : message ∈ s.upcoming)
    (hstep : s.step a = some s') :
    message ∈ s'.upcoming ∨ s'.handled = s.handled ++ [(message, s.bits)] := by
  have hstays (hcount : (s'.handled.map Prod.fst).count message ≤
      (s.handled.map Prod.fst).count message) : message ∈ s'.upcoming := by
    have hperm := (sent_perm hstep).count_eq message
    have hpos : 0 < s.upcoming.count message := List.count_pos_iff.mpr hmem
    simp only [sent, List.count_append] at hperm
    exact List.count_pos_iff.mp (by omega)
  rcases kept_or_handles hstep with ⟨_, other, _, _, _, heq⟩ | ⟨_, hhandled, _⟩
  · have hhandled : s'.handled = s.handled ++ [(other, s.bits)] := by rw [heq]
    by_cases hsame : other = message
    · exact Or.inr (hsame ▸ hhandled)
    · exact Or.inl (hstays (by simp [hhandled, hsame]))
  · exact Or.inl (hstays (by rw [hhandled]))

/-! ### No lost connection is forgotten -/

/-- The connection was lost, and no retry has been handled since. -/
def RetryOwed (handled : List (ManagerMessage × ManagerBits)) : Prop :=
  HoldsSince (fun e => e.1 = .staDisconnected ∧ e.2.disconnection = .lost)
    (fun e => e.1 = .connectSta .autoReconnect) handled

/-- The timer of the retries is active, or its order is on its way. -/
def RetryUpcoming (s : WifiManager) : Prop :=
  s.retryTimer = true ∨ .connectSta .autoReconnect ∈ s.upcoming

/-- A retry that is upcoming stays so in every step but the one that handles it. -/
theorem RetryUpcoming.step (h : s.RetryUpcoming) (hstep : s.step a = some s') :
    s'.RetryUpcoming ∨ s'.handled = s.handled ++ [(.connectSta .autoReconnect, s.bits)] := by
  rcases h with hactive | hmem
  · cases stepped_of_step hstep with
    | retryTimerExpires => exact Or.inl (Or.inr (by simp [upcoming]))
    | handle =>
      refine Or.inl (Or.inl ?_)
      change (s.retryTimer || decide _) = true
      rw [hactive, Bool.true_or]
    | _ => exact Or.inl (Or.inl hactive)
  · exact (mem_upcoming_step hmem hstep).imp_left Or.inr

/-- **A loss owes a retry**, and the retry that is owed is upcoming. -/
theorem retryUpcoming_step (h : RetryOwed s.handled → s.RetryUpcoming)
    (hstep : s.step a = some s') : RetryOwed s'.handled → s'.RetryUpcoming := by
  intro howed
  rcases kept_or_handles hstep with ⟨_, message, _, _, _, rfl⟩ | ⟨_, hhandled, _⟩
  · rcases holdsSince_concat.mp howed with ⟨hlost, hbits⟩ | ⟨hbefore, hother⟩
    · refine Or.inl ?_
      change (s.retryTimer || decide _) = true
      simp only at hlost hbits
      simp [hlost, hbits]
    · refine ((h hbefore).step hstep).resolve_right fun hretry => hother ?_
      simpa using hretry
  · rw [hhandled] at howed
    refine ((h howed).step hstep).resolve_right fun hretry => ?_
    simp [hhandled] at hretry

/-- **No lost connection is forgotten.** In every run, from the moment a loss is handled until a
retry is, the timer of the retries is active, or its order is in the queue, waits to get there, or
is being handled. -/
theorem retryUpcoming_of_owed (actions : List Action) :
    Visited step (fun s => RetryOwed s.handled → s.RetryUpcoming) initial actions :=
  visited_of_invariant (fun _ _ _ h hstep => retryUpcoming_step h hstep)
    (fun howed : RetryOwed initial.handled => absurd howed not_holdsSince_nil) actions

end NixieVfdCentral.WifiManager
