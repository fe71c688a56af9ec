import NixieVfdCentral.WifiManager.Flash
import NixieVfdCentral.WifiManager.Reconnect

/-!
# The configuration across power cycles

The wifi manager together with its flash. The HTTP server puts the name and the password of a
request into memory before it sends the order to connect. The task saves what is in memory when it
handles a connection, erases it when it handles a disconnection that the user has ordered, and
fetches it when it starts. Between any two steps the power may fail. A save, with its three blobs
and its commit, is one step: neither a failure of the power nor a request falls inside it.
-/

namespace NixieVfdCentral

open Runs

/-- What the task does with the flash when it handles a message. -/
inductive FlashUse
  /-- It calls `wifi_manager_fetch_wifi_sta_config`. -/
  | fetch
  /-- It calls `wifi_manager_save_sta_config`. -/
  | save
  /-- It sets the configuration to zero and calls `wifi_manager_save_sta_config`. -/
  | erase
  deriving DecidableEq

/-- The use of the flash for a message. -/
def WifiManager.flashUse (s : WifiManager) (message : ManagerMessage) : Option FlashUse :=
  if message = .loadAndRestoreSta then some .fetch
  else if .saveConfig ∈ s.callsOf message then some .save
  else if .eraseConfig ∈ s.callsOf message then some .erase
  else none

instance (ssid password : List UInt8) : Decidable (AcceptsConnect ssid password) :=
  decidable_of_iff (0 < ssid.length ∧ ssid.length ≤ 32 ∧ 0 < password.length ∧
    password.length ≤ 64 ∧ 0 ∉ ssid ∧ 0 ∉ password)
    ⟨fun ⟨h₁, h₂, h₃, h₄, h₅, h₆⟩ => ⟨h₁, h₂, h₃, h₄, h₅, h₆⟩,
      fun ⟨h₁, h₂, h₃, h₄, h₅, h₆⟩ => ⟨h₁, h₂, h₃, h₄, h₅, h₆⟩⟩

/-- The wifi manager, its flash and the history of what was saved. -/
structure Device where
  /-- The wifi manager. -/
  manager : WifiManager
  /-- The flash and the configuration in memory. -/
  store : ConfigStore
  /-- The configuration that the task has saved last, empty if it has erased it. -/
  kept : StaConfig
  /-- The calls of `wifi_manager_save_sta_config` since the power came on, each with what failed
  and with the state in which it was made. -/
  saves : List (NvsFaults × ConfigStore)

namespace Device

/-- Nothing has been saved, and `wifi_manager_start` has been called. -/
def fresh : Device where
  manager := .initial
  store := .fresh
  kept := .zero
  saves := []

/-- The steps. -/
inductive Action
  /-- A step of the tasks that concerns neither the flash nor the configuration. -/
  | own (a : WifiManager.Action)
  /-- The task handles its message. -/
  | handle (faults : NvsFaults)
  /-- The HTTP server receives the name and the password of a network. -/
  | connect (ssid password : List UInt8)
  /-- The power fails between two steps and comes back, and `wifi_manager_start` is called. -/
  | restart

/-- Neither the handling of a message nor an order to connect. -/
def isOwn : WifiManager.Action → Bool
  | .handle _ | .order .connect => false
  | _ => true

/-- The task handles a message after it has used the flash. -/
def handled (s : Device) (fetched : Bool) : Option WifiManager := s.manager.step (.handle fetched)

/-- The save for a connection, from the first blob to the commit. -/
def save (s : Device) (faults : NvsFaults) : Option Device :=
  (s.store.saveStaConfig faults).bind fun saved => (s.handled false).map fun manager =>
    { manager := manager
      store := saved.2
      kept := s.store.config.getD .zero
      saves := s.saves ++ [(faults, s.store)] }

/-- The configuration in memory is set to zero. -/
def erased (s : Device) : Device :=
  { s with store := { s.store with config := s.store.config.map fun _ => .zero } }

/-- The fetch. -/
def fetch (s : Device) (faults : NvsFaults) : Option Device :=
  (s.store.fetchWifiStaConfig faults).bind fun fetched => (s.handled fetched.1).map fun manager =>
    { s with manager := manager, store := fetched.2 }

/-- One step. -/
def step (s : Device) : Action → Option Device
  | .own a =>
    if isOwn a then (s.manager.step a).map fun manager => { s with manager := manager } else none
  | .handle faults =>
    match s.manager.position with
    | .handling message =>
      match s.manager.flashUse message with
      | none => (s.handled false).map fun manager => { s with manager := manager }
      | some .fetch => s.fetch faults
      | some .save => s.save faults
      | some .erase => s.erased.save faults
    | _ => none
  | .connect ssid password =>
    if AcceptsConnect ssid password then
      (s.manager.step (.order .connect)).map fun manager =>
        { s with
          manager := manager
          store := { s.store with config := some (.ofRequest ssid password) } }
    else some s
  | .restart =>
    some { manager := .initial, store := s.store.restart, kept := s.kept, saves := [] }

/-- What a step does to the state in which it is taken. -/
inductive Stepped (s : Device) : Action → Device → Prop
  | own (a : WifiManager.Action) (manager : WifiManager) (hown : isOwn a = true)
      (hmanager : s.manager.step a = some manager) :
      Stepped s (.own a) { s with manager := manager }
  | handle (faults : NvsFaults) (message : ManagerMessage) (manager : WifiManager)
      (hposition : s.manager.position = .handling message)
      (huse : s.manager.flashUse message = none) (hmanager : s.handled false = some manager) :
      Stepped s (.handle faults) { s with manager := manager }
  | fetch (faults : NvsFaults) (message : ManagerMessage) (fetched : Bool) (store : ConfigStore)
      (manager : WifiManager) (hposition : s.manager.position = .handling message)
      (huse : s.manager.flashUse message = some .fetch)
      (hfetch : s.store.fetchWifiStaConfig faults = some (fetched, store))
      (hmanager : s.handled fetched = some manager) :
      Stepped s (.handle faults) { s with manager := manager, store := store }
  | save (faults : NvsFaults) (message : ManagerMessage) (error : EspErr)
      (before store : ConfigStore) (manager : WifiManager)
      (hposition : s.manager.position = .handling message)
      (hbefore : s.manager.flashUse message = some .save ∧ before = s.store ∨
        s.manager.flashUse message = some .erase ∧ before = s.erased.store)
      (hsave : before.saveStaConfig faults = some (error, store))
      (hmanager : s.handled false = some manager) :
      Stepped s (.handle faults)
        { manager := manager
          store := store
          kept := before.config.getD .zero
          saves := s.saves ++ [(faults, before)] }
  | connect (ssid password : List UInt8) (manager : WifiManager)
      (haccepts : AcceptsConnect ssid password)
      (hmanager : s.manager.step (.order .connect) = some manager) :
      Stepped s (.connect ssid password)
        { s with
          manager := manager
          store := { s.store with config := some (.ofRequest ssid password) } }
  | reject (ssid password : List UInt8) (hrejects : ¬AcceptsConnect ssid password) :
      Stepped s (.connect ssid password) s
  | restart :
      Stepped s .restart
        { manager := .initial, store := s.store.restart, kept := s.kept, saves := [] }

variable {s s' : Device} {a : Action} {faults : NvsFaults}

/-- **What one step does**, case by case: every enabled action has the guard and the effect that
`Stepped` states for it. -/
theorem stepped_of_step (hstep : s.step a = some s') : Stepped s a s' := by
  cases a with
  | own a =>
    rw [step, Option.ite_none_right_eq_some] at hstep
    obtain ⟨hown, hstep⟩ := hstep
    obtain ⟨manager, hmanager, rfl⟩ := Option.map_eq_some_iff.mp hstep
    exact .own a manager hown hmanager
  | handle faults =>
    rw [step] at hstep
    split at hstep
    · rename_i message hposition
      split at hstep
      · rename_i huse
        obtain ⟨manager, hmanager, rfl⟩ := Option.map_eq_some_iff.mp hstep
        exact .handle faults message manager hposition huse hmanager
      · rename_i huse
        obtain ⟨⟨fetched, store⟩, hfetch, hstep⟩ := Option.bind_eq_some_iff.mp hstep
        obtain ⟨manager, hmanager, rfl⟩ := Option.map_eq_some_iff.mp hstep
        exact .fetch faults message fetched store manager hposition huse hfetch hmanager
      · rename_i huse
        obtain ⟨⟨error, store⟩, hsave, hstep⟩ := Option.bind_eq_some_iff.mp hstep
        obtain ⟨manager, hmanager, rfl⟩ := Option.map_eq_some_iff.mp hstep
        exact .save faults message error s.store store manager hposition (.inl ⟨huse, rfl⟩) hsave
          hmanager
      · rename_i huse
        obtain ⟨⟨error, store⟩, hsave, hstep⟩ := Option.bind_eq_some_iff.mp hstep
        obtain ⟨manager, hmanager, rfl⟩ := Option.map_eq_some_iff.mp hstep
        exact .save faults message error s.erased.store store manager hposition
          (.inr ⟨huse, rfl⟩) hsave hmanager
    · cases hstep
  | connect ssid password =>
    rw [step] at hstep
    split at hstep
    · rename_i haccepts
      obtain ⟨manager, hmanager, rfl⟩ := Option.map_eq_some_iff.mp hstep
      exact .connect ssid password manager haccepts hmanager
    · rename_i hrejects
      obtain rfl := Option.some.inj hstep
      exact .reject ssid password hrejects
  | restart =>
    obtain rfl := Option.some.inj hstep
    exact .restart

/-! ### What is kept is restored -/

/-- No call for the flash fails. -/
def Faultless : Action → Prop
  | .handle faults => faults = {}
  | .own _ | .connect _ _ | .restart => True

instance : DecidablePred Faultless := fun
  | .handle faults => inferInstanceAs (Decidable (faults = {}))
  | .own _ | .connect _ _ | .restart => inferInstanceAs (Decidable True)

/-- After a power cycle the task takes the configuration into memory and orders it to be restored,
or orders the access point to be started if there is none. -/
def Restores (s : Device) : Prop :=
  ∃ t, run step s [.restart, .own .receive, .handle {}] = some t ∧ t.store.config = some s.kept ∧
    t.manager.position = .sending .loadAndRestoreSta
      (if s.kept.hasName then .connectSta .restoreConnection else .startAp)

/-- Without a fault, every step keeps in the flash what was saved last. -/
theorem keeps_step (h : s.store.Keeps s.kept) (hfaultless : Faultless a)
    (hstep : s.step a = some s') : s'.store.Keeps s'.kept := by
  cases stepped_of_step hstep with
  | own a manager hown hmanager => exact h
  | handle faults message manager hposition huse hmanager => exact h
  | fetch faults message fetched store manager hposition huse hfetch hmanager =>
    obtain rfl : faults = {} := hfaultless
    obtain ⟨store', hfetch', hkeeps, _⟩ := h.fetch
    obtain ⟨_, rfl⟩ := Prod.mk.inj (Option.some.inj (hfetch'.symm.trans hfetch))
    exact hkeeps
  | save faults message error before store manager hposition hbefore hsave hmanager =>
    obtain rfl : faults = {} := hfaultless
    have hkeeps : before.Keeps s.kept := by
      rcases hbefore with ⟨_, rfl⟩ | ⟨_, rfl⟩
      · exact h
      · obtain ⟨c, hconfig, _⟩ := h.config
        have hzero : s.erased.store = { s.store with config := some .zero } := by
          simp [erased, hconfig]
        exact hzero ▸ h.setConfig StaConfig.proper_zero
    obtain ⟨c, hconfig, _⟩ := hkeeps.config
    obtain ⟨store', hsave', hkept⟩ := hkeeps.save hconfig
    obtain ⟨_, rfl⟩ := Prod.mk.inj (Option.some.inj (hsave'.symm.trans hsave))
    rwa [hconfig]
  | connect ssid password manager haccepts hmanager =>
    exact h.setConfig (StaConfig.proper_ofRequest haccepts)
  | reject ssid password hrejects => exact h
  | restart => exact h.restart

/-- The wifi manager with its first message. -/
def received : WifiManager :=
  { WifiManager.initial with queue := [], position := .handling .loadAndRestoreSta }

/-- What the flash keeps is restored after a power cycle, or the access point is ordered. -/
theorem restores_of_keeps (h : s.store.Keeps s.kept) : s.Restores := by
  obtain ⟨store, hfetch, _, hconfig⟩ := h.restart.fetch
  let manager : WifiManager :=
    { received.effect .loadAndRestoreSta with
      position := .sending .loadAndRestoreSta
        (if s.kept.hasName then .connectSta .restoreConnection else .startAp)
      handled := [(.loadAndRestoreSta, received.bits)] }
  have hmanager : received.step (.handle s.kept.hasName) = some manager := rfl
  have hhandle : step ⟨received, s.store.restart, s.kept, []⟩ (.handle {}) =
      some ⟨manager, store, s.kept, []⟩ := by
    change fetch _ _ = _
    rw [fetch, hfetch, Option.bind_some, handled, hmanager, Option.map_some]
  exact ⟨⟨manager, store, s.kept, []⟩, run_cons_eq_some.mpr ⟨_, rfl, run_cons_eq_some.mpr
    ⟨⟨received, s.store.restart, s.kept, []⟩, rfl, run_cons_eq_some.mpr ⟨_, hhandle, rfl⟩⟩⟩,
    hconfig rfl, rfl⟩

/-- **The last configuration saved is restored.** In every run without a failing call for the
flash, whatever the driver reports, whoever sends to the queue and however often the power fails
between two steps, a power cycle behind any step leads back to the configuration that was in memory
when the task has last saved it, or to the access point if none was saved or it was erased since.
A power failure within a save is not among them. -/
theorem restores_of_faultless {actions : List Action} (h : ∀ a ∈ actions, Faultless a) :
    Visited step Restores fresh actions := by
  have hvisited : Visited step (fun s => s.store.Keeps s.kept) fresh actions :=
    (along_of_forall_mem fun _ a ha => h a ha).visited
      (fun _ _ _ hkeeps hfaultless hstep => keeps_step hkeeps hfaultless hstep)
      ConfigStore.fresh_keeps
  exact hvisited.mono fun s hkeeps => restores_of_keeps hkeeps

/-- The access point is started, the user names a network, and the connection to it is saved. Then
the power fails. -/
def savesConnection : List Action :=
  [.own .receive, .handle {}, .own .sendOrder, .own .callback, .own .receive, .handle {},
    .own .callback, .connect (JsonText.text "net") (JsonText.text "secret"),
    .own (.send .httpServer), .own .receive, .handle {}, .own .callback, .own (.event .staGotIp),
    .own (.send .eventTask), .own .receive, .handle {}, .own .callback, .restart]

/-- The connection that was saved is restored after the power cycle, and all the way before. -/
theorem restores_savesConnection : (∃ s, run step fresh savesConnection = some s ∧
    s.kept = .ofRequest (JsonText.text "net") (JsonText.text "secret")) ∧
      Visited step Restores fresh savesConnection :=
  ⟨⟨_, rfl, rfl⟩, restores_of_faultless (by decide)⟩

/-! ### The mutex -/

/-- The mutex is taken exactly if a save since the power came on has left it so. -/
structure MutexTold (s : Device) : Prop where
  config : s.store.config.isSome = true
  locked : s.store.locked = true ↔
    ∃ call ∈ s.saves, ∃ config, call.2.LeavesLocked call.1 config

/-- At the start the mutex is free and no save was made. -/
theorem fresh_mutexTold : fresh.MutexTold where
  config := rfl
  locked := by simp [fresh, ConfigStore.fresh]

/-- Every step keeps to it that the mutex is taken exactly if a save has left it so, whatever fails.
-/
theorem MutexTold.step (h : s.MutexTold) (hstep : s.step a = some s') : s'.MutexTold := by
  cases stepped_of_step hstep with
  | own a manager hown hmanager => exact ⟨h.config, h.locked⟩
  | handle faults message manager hposition huse hmanager => exact ⟨h.config, h.locked⟩
  | fetch faults message fetched store manager hposition huse hfetch hmanager =>
    obtain ⟨hbefore, hafter, hconfig⟩ := ConfigStore.locked_fetchWifiStaConfig hfetch
    refine ⟨hconfig h.config, ?_⟩
    rw [← h.locked]
    exact iff_of_eq (by rw [hbefore, hafter])
  | save faults message error before store manager hposition hbefore hsave hmanager =>
    have hkeeps : before.config.isSome = true ∧ before.locked = s.store.locked := by
      rcases hbefore with ⟨_, rfl⟩ | ⟨_, rfl⟩
      · exact ⟨h.config, rfl⟩
      · exact ⟨by simpa [erased] using h.config, rfl⟩
    obtain ⟨c, hconfig⟩ := Option.isSome_iff_exists.mp hkeeps.1
    have hunlocked : before.locked = false := by
      cases hlocked : before.locked with
      | false => rfl
      | true => simp [(ConfigStore.saveStaConfig_eq_none hconfig).mpr hlocked] at hsave
    have hnone : ¬∃ call ∈ s.saves, ∃ config, call.2.LeavesLocked call.1 config := by
      rw [← h.locked, ← hkeeps.2, hunlocked]
      simp
    constructor
    · rw [ConfigStore.config_saveStaConfig hsave]
      exact hkeeps.1
    · rw [ConfigStore.locked_saveStaConfig hunlocked hsave]
      constructor
      · exact fun hleaves => ⟨_, List.mem_append_right _ (List.mem_singleton_self _), hleaves⟩
      · rintro ⟨call, hcall, hleaves⟩
        rcases List.mem_append.mp hcall with hcall | hcall
        · exact absurd ⟨call, hcall, hleaves⟩ hnone
        · rwa [List.mem_singleton.mp hcall] at hleaves
  | connect ssid password manager haccepts hmanager => exact ⟨rfl, h.locked⟩
  | reject ssid password hrejects => exact h
  | restart => exact ⟨rfl, by simp [ConfigStore.restart]⟩

/-- Which use a message makes of the flash depends on three bits. -/
theorem flashUse_congr {m m' : WifiManager} (message : ManagerMessage)
    (hconnect : m'.bits.requestStaConnect = m.bits.requestStaConnect)
    (hdisconnect : m'.bits.requestDisconnect = m.bits.requestDisconnect)
    (hrestore : m'.bits.requestRestoreSta = m.bits.requestRestoreSta) :
    m'.flashUse message = m.flashUse message := by
  have hdisconnection : m'.bits.disconnection = m.bits.disconnection := by
    rw [ManagerBits.disconnection, hconnect, hdisconnect, ← ManagerBits.disconnection]
  cases message with
  | staGotIp => simp [WifiManager.flashUse, WifiManager.callsOf, hrestore]
  | staDisconnected => simp [WifiManager.flashUse, WifiManager.callsOf, hdisconnection]
  | startWifiScan =>
    cases hscan : m.bits.scan <;> cases hscan' : m'.bits.scan <;>
      simp [WifiManager.flashUse, WifiManager.callsOf, hscan, hscan']
  | connectSta request =>
    have hnone : ∀ n : WifiManager, n.flashUse (.connectSta request) = none := by
      intro n
      cases hconnected : n.bits.wifiConnected <;> cases hscan : n.bits.scan <;>
        simp [WifiManager.flashUse, WifiManager.callsOf, hconnected, hscan]
    rw [hnone, hnone]
  | _ => rfl

/-- Where the task is in a message, no other step leads it out of there. -/
theorem own_of_handling {m m' : WifiManager} {b : WifiManager.Action} {message : ManagerMessage}
    (hposition : m.position = .handling message) (hb : ∀ fetched, b ≠ .handle fetched)
    (hstep : m.step b = some m') :
    m'.position = .handling message ∧ m'.handled = m.handled ∧
      m'.flashUse message = m.flashUse message := by
  cases WifiManager.stepped_of_step hstep with
  | event event hidle =>
    refine ⟨hposition, rfl, ?_⟩
    cases event <;> exact flashUse_congr message rfl rfl rfl
  | receive other queue hreceiving hqueue =>
    rw [hposition] at hreceiving
    cases hreceiving
  | handle fetched => exact absurd rfl (hb fetched)
  | sendOrder other order hsending hroom =>
    rw [hposition] at hsending
    cases hsending
  | callback other hcalling =>
    rw [hposition] at hcalling
    cases hcalling
  | _ => exact ⟨hposition, rfl, flashUse_congr message rfl rfl rfl⟩

/-- The task is in a message for which it needs the mutex, and the mutex is taken. -/
structure WaitsForMutex (s : Device) (message : ManagerMessage) : Prop where
  config : s.store.config.isSome = true
  locked : s.store.locked = true
  position : s.manager.position = .handling message
  uses : (s.manager.flashUse message).isSome = true

/-- Only a power cycle ends the waiting: any other step leaves the task where it is. -/
theorem WaitsForMutex.step {message : ManagerMessage} (h : s.WaitsForMutex message)
    (hrestart : a ≠ .restart) (hstep : s.step a = some s') :
    s'.WaitsForMutex message ∧ s'.manager.handled = s.manager.handled := by
  have hmessage {other : ManagerMessage} (hother : s.manager.position = .handling other) :
      other = message := ManagerPosition.handling.inj (hother.symm.trans h.position)
  cases stepped_of_step hstep with
  | own b manager hown hmanager =>
    have hb : ∀ fetched, b ≠ .handle fetched := by
      rintro fetched rfl
      cases hown
    obtain ⟨hposition, hhandled, huse⟩ := own_of_handling h.position hb hmanager
    exact ⟨⟨h.config, h.locked, hposition, huse ▸ h.uses⟩, hhandled⟩
  | handle faults other manager hposition huse hmanager =>
    obtain rfl := hmessage hposition
    have huses := h.uses
    simp [huse] at huses
  | fetch faults other fetched store manager hposition huse hfetch hmanager =>
    obtain ⟨hunlocked, _⟩ := ConfigStore.locked_fetchWifiStaConfig hfetch
    simp [h.locked] at hunlocked
  | save faults other error before store manager hposition hbefore hsave hmanager =>
    have hwaits : before.config.isSome = true ∧ before.locked = true := by
      rcases hbefore with ⟨_, rfl⟩ | ⟨_, rfl⟩
      · exact ⟨h.config, h.locked⟩
      · exact ⟨by simpa [erased] using h.config, h.locked⟩
    obtain ⟨c, hconfig⟩ := Option.isSome_iff_exists.mp hwaits.1
    simp [(ConfigStore.saveStaConfig_eq_none hconfig).mpr hwaits.2] at hsave
  | connect ssid password manager haccepts hmanager =>
    have hb : ∀ fetched, WifiManager.Action.order .connect ≠ .handle fetched := by
      intro fetched horder
      cases horder
    obtain ⟨hposition, hhandled, huse⟩ := own_of_handling h.position hb hmanager
    exact ⟨⟨rfl, h.locked, hposition, huse ▸ h.uses⟩, hhandled⟩
  | reject ssid password hrejects => exact ⟨h, rfl⟩
  | restart => exact absurd rfl hrestart

/-- Where the mutex is not taken, the message can be handled. -/
theorem handle_of_unlocked {message : ManagerMessage} (hconfig : s.store.config.isSome = true)
    (hunlocked : s.store.locked = false) (hposition : s.manager.position = .handling message)
    (huses : (s.manager.flashUse message).isSome = true) :
    ∃ t, s.step (.handle {}) = some t ∧
      t.manager.handled = s.manager.handled ++ [(message, s.manager.bits)] := by
  have hhandled (fetched : Bool) : ∃ manager, s.handled fetched = some manager ∧
      manager.handled = s.manager.handled ++ [(message, s.manager.bits)] := by
    rw [handled, WifiManager.step, hposition]
    exact ⟨_, rfl, rfl⟩
  have hsave {u : Device} (hu : u.manager = s.manager) (hc : u.store.config.isSome = true)
      (hl : u.store.locked = false) : ∃ t, u.save {} = some t ∧
        t.manager.handled = s.manager.handled ++ [(message, s.manager.bits)] := by
    obtain ⟨c, hc⟩ := Option.isSome_iff_exists.mp hc
    have hsaved : u.store.saveStaConfig {} ≠ none := by
      rw [Ne, ConfigStore.saveStaConfig_eq_none hc, hl]
      exact Bool.false_ne_true
    obtain ⟨saved, hsaved⟩ := Option.ne_none_iff_exists'.mp hsaved
    obtain ⟨manager, hmanager, hhistory⟩ := hhandled false
    have hmanager : u.handled false = some manager := by rw [handled, hu, ← handled, hmanager]
    rw [save, hsaved, Option.bind_some, hmanager, Option.map_some]
    exact ⟨_, rfl, hhistory⟩
  obtain ⟨use, huse⟩ := Option.isSome_iff_exists.mp huses
  cases use with
  | fetch =>
    have hfetched : s.store.fetchWifiStaConfig {} ≠ none := by
      rw [Ne, ConfigStore.fetchWifiStaConfig_eq_none, hunlocked]
      exact Bool.false_ne_true
    obtain ⟨⟨fetched, store⟩, hfetched⟩ := Option.ne_none_iff_exists'.mp hfetched
    obtain ⟨manager, hmanager, hhistory⟩ := hhandled fetched
    simp only [step, hposition, huse, fetch, hfetched, hmanager, Option.bind_some, Option.map_some]
    exact ⟨_, rfl, hhistory⟩
  | save =>
    simp only [step, hposition, huse]
    exact hsave rfl hconfig hunlocked
  | erase =>
    simp only [step, hposition, huse]
    exact @hsave s.erased rfl (by simpa [erased] using hconfig) hunlocked

/-- **Who waits for the mutex.** In every run, whatever fails, a message for which the task needs
the flash is never handled, nor any behind it, until the power fails, exactly when a save since the
power came on has left the mutex taken: one in which something was written and the commit failed,
or nothing was to be written and the settings could not be read. -/
theorem waitsForMutex_iff {actions : List Action} {message : ManagerMessage}
    (hrun : run step fresh actions = some s) (hposition : s.manager.position = .handling message)
    (huses : (s.manager.flashUse message).isSome = true) :
    (∀ more t, (∀ a ∈ more, a ≠ .restart) → run step s more = some t →
      t.manager.handled = s.manager.handled) ↔
        ∃ call ∈ s.saves, ∃ config, call.2.LeavesLocked call.1 config := by
  have htold : s.MutexTold := invariant_of_run MutexTold (fun _ _ _ h hstep => h.step hstep)
    fresh_mutexTold hrun
  rw [← htold.locked]
  constructor
  · intro hwaits
    by_contra hlocked
    obtain ⟨t, hstep, hhistory⟩ := handle_of_unlocked htold.config (by simpa using hlocked)
      hposition huses
    have hsame := hwaits [.handle {}] t (by simp) (run_cons_eq_some.mpr ⟨t, hstep, rfl⟩)
    rw [hhistory] at hsame
    exact absurd (congrArg List.length hsame) (by simp)
  · intro hlocked more t hmore hmoreRun
    have hwaits : s.WaitsForMutex message := ⟨htold.config, hlocked, hposition, huses⟩
    have hinvariant := Along.invariant
      (fun u => u.WaitsForMutex message ∧ u.manager.handled = s.manager.handled)
      (fun u a u' hu (ha : a ≠ .restart) hstep => by
        obtain ⟨hwaits', hsame⟩ := hu.1.step ha hstep
        exact ⟨hwaits', hsame.trans hu.2⟩)
      ⟨hwaits, rfl⟩ (along_of_forall_mem fun _ a ha => hmore a ha) hmoreRun
    exact hinvariant.2

/-- The connection is saved, but the commit fails. Then the driver reports a new address. -/
def losesMutex : List Action :=
  [.own .receive, .handle {}, .own .sendOrder, .own .callback, .own .receive, .handle {},
    .own .callback, .connect (JsonText.text "net") (JsonText.text "secret"),
    .own (.send .httpServer), .own .receive, .handle {}, .own .callback, .own (.event .staGotIp),
    .own (.send .eventTask), .own .receive, .handle { nvsCommit := true }, .own .callback,
    .own (.event .staGotIp), .own (.send .eventTask), .own .receive]

/-- After the save whose commit fails, the message behind it is never handled. -/
theorem waitsForMutex_losesMutex : ∃ s, run step fresh losesMutex = some s ∧
    ∀ more t, (∀ a ∈ more, a ≠ .restart) → run step s more = some t →
      t.manager.handled = s.manager.handled := by
  obtain ⟨s, hrun, hposition, huses, call, hcall, hleaves⟩ : ∃ s, run step fresh losesMutex =
      some s ∧ s.manager.position = .handling .staGotIp ∧
        (s.manager.flashUse .staGotIp).isSome = true ∧
        ∃ call ∈ s.saves, ∃ config, call.2.LeavesLocked call.1 config :=
    ⟨_, rfl, rfl, rfl, _, List.mem_singleton_self _, _, ⟨rfl, rfl, fun _ => rfl, fun _ => rfl,
      fun _ => rfl, rfl⟩⟩
  exact ⟨s, hrun, (waitsForMutex_iff hrun hposition huses).mpr ⟨call, hcall, hleaves⟩⟩

end Device

end NixieVfdCentral
