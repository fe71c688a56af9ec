import NixieVfdCentral.WifiManager.Status

/-!
# The saved configuration

The wifi manager saves the configuration of the connection in three blobs of the flash and fetches
it when it starts. It writes a blob only if it differs from what is there, and it compares names
and passwords as strings. A mutex protects the flash. Each call for the flash may fail; where a
commit fails, the mutex is not given back.
-/

namespace NixieVfdCentral

open Buffers

/-- `struct wifi_settings_t`. -/
structure WifiSettings where
  /-- `ap_ssid`. -/
  apSsid : Vector UInt8 32
  /-- `ap_pwd`, which follows the name in memory. -/
  apPwd : Vector UInt8 64
  /-- `ap_channel`, which follows the password. -/
  apChannel : UInt8
  /-- `ap_ssid_hidden`, which follows the channel. -/
  apSsidHidden : UInt8
  /-- `ap_bandwidth`. -/
  apBandwidth : ℕ
  /-- `sta_only`. -/
  staOnly : Bool
  /-- `sta_power_save`. -/
  staPowerSave : ℕ
  /-- `sta_static_ip`. -/
  staStaticIp : Bool
  /-- `sta_static_ip_config`. -/
  staStaticIpConfig : IpInfo

namespace WifiSettings

/-- All bytes are zero. -/
def zero : WifiSettings where
  apSsid := Vector.replicate 32 0
  apPwd := Vector.replicate 64 0
  apChannel := 0
  apSsidHidden := 0
  apBandwidth := 0
  staOnly := false
  staPowerSave := 0
  staStaticIp := false
  staStaticIpConfig := ⟨Vector.replicate 4 0, Vector.replicate 4 0, Vector.replicate 4 0⟩

/-- The settings of this firmware, which nothing but a fetch changes. -/
def firmware : WifiSettings :=
  { zero with
    apSsid := overwrite (Vector.replicate 32 0) 0 (JsonText.text "esp32")
    apPwd := overwrite (Vector.replicate 64 0) 0 (JsonText.text "esp32pwd")
    apChannel := 1
    apBandwidth := 1
    staOnly := true }

/-- The string that begins at `ap_pwd`. The bytes behind `ap_ssid_hidden` are padding. -/
def apPwdString (s : WifiSettings) : List UInt8 :=
  (s.apPwd.toList ++ [s.apChannel, s.apSsidHidden]).takeWhile fun c => c ≠ 0

/-- The string that begins at `ap_ssid`. -/
def apSsidString (s : WifiSettings) : List UInt8 :=
  (s.apSsid.toList ++ (s.apPwd.toList ++ [s.apChannel, s.apSsidHidden])).takeWhile fun c => c ≠ 0

/-- What is compared before the settings are written. -/
def differs (s found : WifiSettings) : Bool :=
  found.apSsidString ≠ s.apSsidString || found.apPwdString ≠ s.apPwdString ||
    found.apSsidHidden ≠ s.apSsidHidden || found.apBandwidth ≠ s.apBandwidth ||
    found.staOnly ≠ s.staOnly || found.staPowerSave ≠ s.staPowerSave ||
    found.apChannel ≠ s.apChannel

end WifiSettings

/-- `esp_err_t`, as far as it is told apart. -/
inductive EspErr
  /-- `ESP_OK`. -/
  | ok
  /-- `ESP_ERR_NVS_NOT_FOUND`. -/
  | nvsNotFound
  /-- Every other one. -/
  | other
  deriving DecidableEq

/-- The namespace `espwifimgr` of the flash. -/
structure Flash where
  /-- Opening it for writing creates it; before that it cannot be opened for reading. -/
  created : Bool
  /-- The blob `ssid`. -/
  ssid : Option (Vector UInt8 32)
  /-- The blob `password`. -/
  password : Option (Vector UInt8 64)
  /-- The blob `settings`. -/
  settings : Option WifiSettings

/-- Which calls for the flash fail. -/
structure NvsFaults where
  /-- `nvs_open`. -/
  nvsOpen : Bool := false
  /-- `nvs_get_blob` of `ssid`. -/
  getSsid : Bool := false
  /-- `nvs_set_blob` of `ssid`. -/
  setSsid : Bool := false
  /-- `nvs_get_blob` of `password`. -/
  getPassword : Bool := false
  /-- `nvs_set_blob` of `password`. -/
  setPassword : Bool := false
  /-- `nvs_get_blob` of `settings`. -/
  getSettings : Bool := false
  /-- `nvs_set_blob` of `settings`. -/
  setSettings : Bool := false
  /-- `nvs_commit`. -/
  nvsCommit : Bool := false
  deriving DecidableEq

/-- The flash, and what the wifi manager keeps in memory about it. -/
structure ConfigStore where
  /-- The flash. -/
  flash : Flash
  /-- `*wifi_manager_config_sta`, or nothing if the pointer is `NULL`. -/
  config : Option StaConfig
  /-- `wifi_settings`. -/
  settings : WifiSettings
  /-- `nvs_sync_mutex` is taken. -/
  locked : Bool

namespace StaConfig

/-- All bytes are zero. -/
def zero : StaConfig := ⟨Vector.replicate 32 0, Vector.replicate 64 0⟩

/-- The string that begins at `password`. The field behind it is zero. -/
def passwordString (config : StaConfig) : List UInt8 :=
  config.password.toList.takeWhile fun c => c ≠ 0

/-- The name differs from one that was read into a configuration of zeros. -/
def ssidDiffers (config : StaConfig) (found : Vector UInt8 32) : Bool :=
  { zero with ssid := found }.ssidString ≠ config.ssidString

/-- So does the password. -/
def passwordDiffers (config : StaConfig) (found : Vector UInt8 64) : Bool :=
  { zero with password := found }.passwordString ≠ config.passwordString

/-- The name is not empty. -/
def hasName (config : StaConfig) : Bool := config.ssid[0] ≠ 0

end StaConfig

/-- `nvs_get_blob`: a blob that is not there leaves the zeros. -/
def nvsGetBlob {β : Type} (fails : Bool) (stored : Option β) (zero : β) : EspErr × β :=
  if fails then (.other, zero)
  else match stored with
    | none => (.nvsNotFound, zero)
    | some blob => (.ok, blob)

/-- One of the three blocks of `wifi_manager_save_sta_config`: a blob is read, compared and written
if it `differs`. The result is the error, the blob and whether it was written; where the write
fails, the function returns. -/
def saveBlob {β : Type} (getFails setFails : Bool) (stored : Option β) (zero blob : β)
    (differs : β → Bool) : Except EspErr (EspErr × Option β × Bool) :=
  match nvsGetBlob getFails stored zero with
  | (error, found) =>
    if (error = .ok ∨ error = .nvsNotFound) ∧ differs found = true then
      if setFails then .error .other else .ok (.ok, some blob, true)
    else .ok (error, stored, false)

namespace ConfigStore

/-- `wifi_manager_save_sta_config`. There is no result when the mutex is not to be had. -/
def saveStaConfig (faults : NvsFaults) (s : ConfigStore) : Option (EspErr × ConfigStore) :=
  match s.config with
  | none => some (.ok, s)
  | some config =>
    if s.locked then none
    else if faults.nvsOpen then some (.other, s)
    else
      let flash := { s.flash with created := true }
      match saveBlob faults.getSsid faults.setSsid flash.ssid StaConfig.zero.ssid config.ssid
          config.ssidDiffers with
      | .error error => some (error, { s with flash := flash })
      | .ok (_, ssid, ssidChange) =>
        let flash := { flash with ssid := ssid }
        match saveBlob faults.getPassword faults.setPassword flash.password
            StaConfig.zero.password config.password config.passwordDiffers with
        | .error error => some (error, { s with flash := flash })
        | .ok (_, password, passwordChange) =>
          let flash := { flash with password := password }
          match saveBlob faults.getSettings faults.setSettings flash.settings WifiSettings.zero
              s.settings s.settings.differs with
          | .error error => some (error, { s with flash := flash })
          | .ok (error, settings, settingsChange) =>
            let flash := { flash with settings := settings }
            let error :=
              if ssidChange || passwordChange || settingsChange then
                if faults.nvsCommit then .other else .ok
              else error
            -- The function returns here without giving the mutex back.
            if error ≠ .ok then some (error, { s with flash := flash, locked := true })
            else some (.ok, { s with flash := flash })

/-- `wifi_manager_fetch_wifi_sta_config`. There is no result when the mutex is not to be had. -/
def fetchWifiStaConfig (faults : NvsFaults) (s : ConfigStore) : Option (Bool × ConfigStore) :=
  if s.locked then none
  else if faults.nvsOpen || !s.flash.created then some (false, s)
  else
    match nvsGetBlob faults.getSsid s.flash.ssid StaConfig.zero.ssid with
    | (.ok, ssid) =>
      match nvsGetBlob faults.getPassword s.flash.password StaConfig.zero.password with
      | (.ok, password) =>
        match nvsGetBlob faults.getSettings s.flash.settings WifiSettings.zero with
        | (.ok, settings) =>
          let config : StaConfig := ⟨ssid, password⟩
          some (config.hasName, { s with config := some config, settings := settings })
        | _ => some (false, { s with config := some ⟨ssid, password⟩ })
      | _ => some (false, { s with config := some { StaConfig.zero with ssid := ssid } })
    | _ => some (false, { s with config := some StaConfig.zero })

/-- `wifi_manager_start`, after a power cycle. -/
def restart (s : ConfigStore) : ConfigStore where
  flash := s.flash
  config := some .zero
  settings := .firmware
  locked := false

/-- Nothing has been saved yet. -/
def fresh : ConfigStore where
  flash := ⟨false, none, none, none⟩
  config := some .zero
  settings := .firmware
  locked := false

end ConfigStore

/-! ### Names and passwords as strings -/

namespace StaConfig

variable {c d : StaConfig} {ssid password : List UInt8}

/-- A name and a password that fit, or neither. -/
structure Fitting (ssid password : List UInt8) : Prop where
  ssid_le : ssid.length ≤ 32
  password_le : password.length ≤ 64
  zero_notMem_ssid : 0 ∉ ssid
  zero_notMem_password : 0 ∉ password
  both : ssid = [] ↔ password = []

/-- The configuration stems from a request, or is empty. -/
def Proper (c : StaConfig) : Prop :=
  ∃ ssid password, Fitting ssid password ∧ c = .ofRequest ssid password

/-- A request that the HTTP server accepts makes a proper configuration. -/
theorem proper_ofRequest (h : AcceptsConnect ssid password) : (ofRequest ssid password).Proper :=
  ⟨ssid, password, ⟨h.ssid_le, h.password_le, h.zero_notMem_ssid, h.zero_notMem_password,
    iff_of_false (List.ne_nil_of_length_pos h.ssid_pos)
      (List.ne_nil_of_length_pos h.password_pos)⟩, rfl⟩

/-- The configuration set to zero is that of an empty name and an empty password. -/
theorem zero_eq_ofRequest : zero = ofRequest [] [] := rfl

/-- The configuration set to zero is proper, being that of an empty request. -/
theorem proper_zero : zero.Proper :=
  ⟨[], [], ⟨by decide, by decide, by decide, by decide, Iff.rfl⟩, zero_eq_ofRequest⟩

/-- A field is read as the string that was copied into it. -/
theorem takeWhile_overwrite {n : ℕ} {bytes rest : List UInt8} (hlength : bytes.length ≤ n)
    (hbytes : 0 ∉ bytes) (hrest : rest.takeWhile (fun c => c ≠ 0) = []) :
    ((overwrite (Vector.replicate n 0) 0 bytes).toList ++ rest).takeWhile (fun c => c ≠ 0) =
      bytes := by
  rw [toList_overwrite_replicate 0 hlength, takeWhile_field hbytes, hrest, List.append_nil,
    ite_self]

/-- Equal names, of which the second one may run on into the password, fill equal fields. -/
theorem Proper.ssid_eq (hc : c.Proper) (hd : d.Proper) (h : d.ssidDiffers c.ssid = false) :
    c.ssid = d.ssid := by
  have h : { zero with ssid := c.ssid }.ssidString = d.ssidString := by simpa [ssidDiffers] using h
  obtain ⟨ssid, password, hfit, rfl⟩ := hc
  obtain ⟨ssid', password', hfit', rfl⟩ := hd
  have hpassword : ∀ p : List UInt8, p.length ≤ 64 → 0 ∉ p →
      (overwrite (Vector.replicate 64 0) 0 p).toList.takeWhile (fun c => c ≠ 0) = p := by
    intro p hlength hp
    simpa using @takeWhile_overwrite 64 p [] hlength hp rfl
  have hnothing : zero.password.toList.takeWhile (fun c => c ≠ 0) = [] := by decide
  have hfound : { zero with ssid := (ofRequest ssid password).ssid }.ssidString = ssid :=
    takeWhile_overwrite hfit.ssid_le hfit.zero_notMem_ssid hnothing
  have hconfig : (ofRequest ssid' password').ssidString =
      if 32 - ssid'.length = 0 then ssid' ++ password' else ssid' := by
    rw [ssidString, ofRequest, toList_overwrite_replicate 0 hfit'.ssid_le,
      takeWhile_field hfit'.zero_notMem_ssid,
      hpassword password' hfit'.password_le hfit'.zero_notMem_password]
  rw [hfound, hconfig] at h
  have hsame : ssid = ssid' := by
    split at h
    · -- The name fills its field, so nothing can stand behind it.
      rename_i hfull
      have hlength := hfit.ssid_le
      rw [h, List.length_append] at hlength
      have hempty : password' = [] := List.length_eq_zero_iff.mp (by omega)
      rw [hfit'.both.mpr hempty] at hfull
      cases hfull
    · exact h
  rw [ofRequest, ofRequest, hsame]

/-- In proper configurations, passwords that are equal as strings fill equal fields. -/
theorem Proper.password_eq (hc : c.Proper) (hd : d.Proper)
    (h : d.passwordDiffers c.password = false) : c.password = d.password := by
  have h : { zero with password := c.password }.passwordString = d.passwordString := by
    simpa [passwordDiffers] using h
  obtain ⟨ssid, password, hfit, rfl⟩ := hc
  obtain ⟨ssid', password', hfit', rfl⟩ := hd
  have hsame : password = password' := by
    have hread := @takeWhile_overwrite 64 password [] hfit.password_le hfit.zero_notMem_password rfl
    have hread' := @takeWhile_overwrite 64 password' [] hfit'.password_le
      hfit'.zero_notMem_password rfl
    rw [List.append_nil] at hread hread'
    rw [← hread, ← hread']
    exact h
  rw [ofRequest, ofRequest, hsame]

/-- A proper configuration without a password is the empty one. -/
theorem Proper.eq_zero_of_password (hc : c.Proper) (h : c.password = zero.password) : c = zero := by
  obtain ⟨ssid, password, hfit, rfl⟩ := hc
  have hread := @takeWhile_overwrite 64 password [] hfit.password_le hfit.zero_notMem_password rfl
  rw [List.append_nil] at hread
  have hempty : password = [] := by
    rw [← hread]
    change (ofRequest ssid password).password.toList.takeWhile _ = []
    rw [h]
    rfl
  rw [hempty, hfit.both.mpr hempty, zero_eq_ofRequest]

/-- A proper configuration without a name is the empty one. -/
theorem Proper.eq_zero_of_hasName (hc : c.Proper) (h : c.hasName = false) : c = zero := by
  obtain ⟨ssid, password, hfit, rfl⟩ := hc
  have hempty : ssid = [] := by
    cases ssid with
    | nil => rfl
    | cons b bytes =>
      have hb : b ≠ 0 := fun hzero => hfit.zero_notMem_ssid (hzero ▸ List.mem_cons_self)
      have hfirst : (ofRequest (b :: bytes) password).ssid[0] = b := by
        have hlist : (ofRequest (b :: bytes) password).ssid.toList[0]? = some b := by
          rw [ofRequest, toList_overwrite_replicate 0 hfit.ssid_le]
          rfl
        simpa using hlist
      simp [hasName, hfirst, hb] at h
  rw [hempty, hfit.both.mp hempty, zero_eq_ofRequest]

end StaConfig

namespace ConfigStore

variable {s s' : ConfigStore} {faults : NvsFaults} {kept c : StaConfig}

/-! ### What is saved is fetched -/

section blobs

variable {β : Type} {getFails setFails : Bool} {stored : Option β} {zero blob : β}
  {differs : β → Bool}

/-- One block, in terms of whether the blob is written. -/
theorem saveBlob_eq {writes : Bool} (h : (!getFails && differs (stored.getD zero)) = writes) :
    saveBlob getFails setFails stored zero blob differs =
      if writes = true ∧ setFails = true then .error .other
      else .ok (if writes then .ok else (nvsGetBlob getFails stored zero).1,
        if writes then some blob else stored, writes) := by
  subst h
  cases getFails with
  | true => simp [saveBlob, nvsGetBlob]
  | false =>
    cases stored with
    | none => cases hd : differs zero <;> cases setFails <;> simp [saveBlob, nvsGetBlob, hd]
    | some found => cases hd : differs found <;> cases setFails <;> simp [saveBlob, nvsGetBlob, hd]

/-- Where no call fails, the blob is the new one afterwards. -/
theorem saveBlob_faultless (h : differs (stored.getD zero) = false → stored.getD zero = blob) :
    ∃ error stored' changed, saveBlob false false stored zero blob differs =
        .ok (error, stored', changed) ∧ stored'.getD zero = blob ∧
      (error = .ok ∨ stored' = none) := by
  cases hdiffers : differs (stored.getD zero) with
  | true =>
    have hwrites : (!false && differs (stored.getD zero)) = true := hdiffers
    exact ⟨_, _, _, saveBlob_eq hwrites, rfl, .inl rfl⟩
  | false =>
    have hwrites : (!false && differs (stored.getD zero)) = false := hdiffers
    refine ⟨_, _, _, saveBlob_eq hwrites, h hdiffers, ?_⟩
    cases stored with
    | none => exact .inr rfl
    | some blob => exact .inl rfl

end blobs

/-- The flash holds the configuration `kept`, which is empty if there is none. -/
structure Keeps (s : ConfigStore) (kept : StaConfig) : Prop where
  unlocked : s.locked = false
  config : ∃ c, s.config = some c ∧ c.Proper
  settings_eq : s.settings = .firmware
  settings : s.flash.settings = none ∨ s.flash.settings = some .firmware
  proper : kept.Proper
  ssid_eq : s.flash.ssid.getD StaConfig.zero.ssid = kept.ssid
  password_eq : s.flash.password.getD StaConfig.zero.password = kept.password
  complete : kept.hasName = true → s.flash.created = true ∧ s.flash.settings = some .firmware

/-- A flash that was never written keeps the empty configuration. -/
theorem fresh_keeps : fresh.Keeps .zero where
  unlocked := rfl
  config := ⟨_, rfl, StaConfig.proper_zero⟩
  settings_eq := rfl
  settings := .inl rfl
  proper := StaConfig.proper_zero
  ssid_eq := rfl
  password_eq := rfl
  complete h := absurd h (by decide)

/-- A power cycle leaves the flash as it is, and so what it keeps. -/
theorem Keeps.restart (h : s.Keeps kept) : s.restart.Keeps kept where
  unlocked := rfl
  config := ⟨_, rfl, StaConfig.proper_zero⟩
  settings_eq := rfl
  settings := h.settings
  proper := h.proper
  ssid_eq := h.ssid_eq
  password_eq := h.password_eq
  complete := h.complete

/-- The configuration in memory may be changed, by a request or before it is saved. -/
theorem Keeps.setConfig (h : s.Keeps kept) (hc : c.Proper) :
    { s with config := some c }.Keeps kept where
  unlocked := h.unlocked
  config := ⟨c, rfl, hc⟩
  settings_eq := h.settings_eq
  settings := h.settings
  proper := h.proper
  ssid_eq := h.ssid_eq
  password_eq := h.password_eq
  complete := h.complete

/-- The settings of the firmware are not zero: they have a channel. -/
theorem zero_ne_firmware : WifiSettings.zero ≠ WifiSettings.firmware := fun h =>
  absurd (congrArg WifiSettings.apChannel h) (by decide)

/-- **Saving.** Afterwards the flash keeps the configuration in memory. -/
theorem Keeps.save (h : s.Keeps kept) (hconfig : s.config = some c) :
    ∃ s', s.saveStaConfig {} = some (.ok, s') ∧ s'.Keeps c := by
  obtain ⟨c', hc', hproper⟩ := h.config
  obtain rfl := Option.some.inj (hconfig.symm.trans hc')
  obtain ⟨e₁, ssid, change₁, hssid, hssid_eq, _⟩ := @saveBlob_faultless _ s.flash.ssid
    StaConfig.zero.ssid c.ssid c.ssidDiffers (by
      intro hsame
      rw [h.ssid_eq] at hsame ⊢
      exact h.proper.ssid_eq hproper hsame)
  obtain ⟨e₂, password, change₂, hpassword, hpassword_eq, _⟩ := @saveBlob_faultless _
    s.flash.password StaConfig.zero.password c.password c.passwordDiffers (by
      intro hsame
      rw [h.password_eq] at hsame ⊢
      exact h.proper.password_eq hproper hsame)
  obtain ⟨e₃, settings, change₃, hsettings, hsettings_eq, he₃⟩ := @saveBlob_faultless _
    s.flash.settings .zero s.settings s.settings.differs (by
      intro hsame
      rw [h.settings_eq] at hsame ⊢
      rcases h.settings with hnone | hsome
      · rw [hnone] at hsame
        exact absurd hsame (by decide)
      · rw [hsome]
        rfl)
  rw [h.settings_eq] at hsettings_eq
  obtain rfl : settings = some .firmware := by
    cases settings with
    | none => exact absurd hsettings_eq zero_ne_firmware
    | some found => rw [← hsettings_eq, Option.getD_some]
  obtain rfl : e₃ = .ok := he₃.resolve_right (Option.some_ne_none _)
  refine ⟨{ s with flash := ⟨true, ssid, password, some .firmware⟩ }, ?_, ?_⟩
  · simp [saveStaConfig, hconfig, h.unlocked, hssid, hpassword, hsettings]
  · exact {
      unlocked := h.unlocked
      config := ⟨c, hconfig, hproper⟩
      settings_eq := h.settings_eq
      settings := .inr rfl
      proper := hproper
      ssid_eq := hssid_eq
      password_eq := hpassword_eq
      complete := fun _ => ⟨rfl, rfl⟩ }

/-- **Fetching.** The result is whether a configuration is kept; after a power cycle that one is in
memory. -/
theorem Keeps.fetch (h : s.Keeps kept) : ∃ s', s.fetchWifiStaConfig {} = some (kept.hasName, s') ∧
    s'.Keeps kept ∧ (s.config = some .zero → s'.config = some kept) := by
  cases hname : kept.hasName with
  | true =>
    obtain ⟨hcreated, hsettings⟩ := h.complete hname
    have hssid : s.flash.ssid = some kept.ssid := by
      have hssid_eq := h.ssid_eq
      cases hstored : s.flash.ssid with
      | none =>
        rw [hstored, Option.getD_none] at hssid_eq
        rw [StaConfig.hasName, ← hssid_eq] at hname
        exact absurd hname (by decide)
      | some ssid =>
        rw [hstored, Option.getD_some] at hssid_eq
        rw [hssid_eq]
    have hpassword : s.flash.password = some kept.password := by
      have hpassword_eq := h.password_eq
      cases hstored : s.flash.password with
      | none =>
        rw [hstored, Option.getD_none] at hpassword_eq
        rw [h.proper.eq_zero_of_password hpassword_eq.symm] at hname
        exact absurd hname (by decide)
      | some password =>
        rw [hstored, Option.getD_some] at hpassword_eq
        rw [hpassword_eq]
    refine ⟨{ s with config := some kept, settings := .firmware }, ?_,
      { h.setConfig h.proper with settings_eq := rfl }, fun _ => rfl⟩
    simp [fetchWifiStaConfig, h.unlocked, hcreated, hssid, hpassword, hsettings, nvsGetBlob, hname]
  | false =>
    obtain rfl := h.proper.eq_zero_of_hasName hname
    have hzero := h.setConfig StaConfig.proper_zero
    have hssid_eq := h.ssid_eq
    have hpassword_eq := h.password_eq
    cases hcreated : s.flash.created with
    | false =>
      exact ⟨s, by simp [fetchWifiStaConfig, h.unlocked, hcreated], h, id⟩
    | true =>
      -- Whatever is missing, the blobs that are there are zero.
      cases hssid : s.flash.ssid with
      | none =>
        refine ⟨_, ?_, hzero, fun _ => rfl⟩
        simp [fetchWifiStaConfig, h.unlocked, hcreated, hssid, nvsGetBlob]
      | some ssid =>
        obtain rfl : ssid = StaConfig.zero.ssid := by simpa [hssid] using hssid_eq
        cases hpassword : s.flash.password with
        | none =>
          refine ⟨_, ?_, hzero, fun _ => rfl⟩
          simp [fetchWifiStaConfig, h.unlocked, hcreated, hssid, hpassword, nvsGetBlob]
        | some password =>
          obtain rfl : password = StaConfig.zero.password := by
            simpa [hpassword] using hpassword_eq
          rcases h.settings with hsettings | hsettings
          · refine ⟨_, ?_, hzero, fun _ => rfl⟩
            simp [fetchWifiStaConfig, h.unlocked, hcreated, hssid, hpassword, hsettings, nvsGetBlob]
          · refine ⟨{ s with config := some .zero, settings := .firmware }, ?_,
              { hzero with settings_eq := rfl }, fun _ => rfl⟩
            simp [fetchWifiStaConfig, h.unlocked, hcreated, hssid, hpassword, hsettings, nvsGetBlob,
              hname]

/-! ### The mutex -/

/-- The blob `ssid` is written. -/
def writesSsid (s : ConfigStore) (faults : NvsFaults) (config : StaConfig) : Bool :=
  !faults.getSsid && config.ssidDiffers (s.flash.ssid.getD StaConfig.zero.ssid)

/-- The blob `password` is written. -/
def writesPassword (s : ConfigStore) (faults : NvsFaults) (config : StaConfig) : Bool :=
  !faults.getPassword && config.passwordDiffers (s.flash.password.getD StaConfig.zero.password)

/-- The blob `settings` is written. -/
def writesSettings (s : ConfigStore) (faults : NvsFaults) : Bool :=
  !faults.getSettings && s.settings.differs (s.flash.settings.getD .zero)

/-- Every call up to the commit succeeds, and the commit fails; or nothing has changed and the
settings cannot be read. -/
structure LeavesLocked (s : ConfigStore) (faults : NvsFaults) (config : StaConfig) : Prop where
  config_eq : s.config = some config
  nvsOpen : faults.nvsOpen = false
  setSsid : s.writesSsid faults config = true → faults.setSsid = false
  setPassword : s.writesPassword faults config = true → faults.setPassword = false
  setSettings : s.writesSettings faults = true → faults.setSettings = false
  fails : if (s.writesSsid faults config || s.writesPassword faults config ||
      s.writesSettings faults) = true then faults.nvsCommit = true
    else faults.getSettings = true ∨ s.flash.settings = none

/-- Saving the configuration leaves the one in memory as it is. -/
theorem config_saveStaConfig {error : EspErr} (h : s.saveStaConfig faults = some (error, s')) :
    s'.config = s.config := by
  unfold saveStaConfig at h
  grind

/-- Saving waits for nothing but the mutex: it does not return exactly when that is taken. -/
theorem saveStaConfig_eq_none (hconfig : s.config = some c) :
    s.saveStaConfig faults = none ↔ s.locked = true := by
  unfold saveStaConfig
  grind

/-- Fetching waits for nothing but the mutex: it does not return exactly when that is taken. -/
theorem fetchWifiStaConfig_eq_none : s.fetchWifiStaConfig faults = none ↔ s.locked = true := by
  unfold fetchWifiStaConfig
  grind

/-- Fetching gives the mutex back, and leaves a configuration in memory. -/
theorem locked_fetchWifiStaConfig {fetched : Bool}
    (h : s.fetchWifiStaConfig faults = some (fetched, s')) :
    s.locked = false ∧ s'.locked = false ∧
      (s.config.isSome = true → s'.config.isSome = true) := by
  unfold fetchWifiStaConfig at h
  grind

/-- When the function returns behind the three blocks with an error. -/
theorem returnedError_ne_ok {changed writes : Bool} {faults : NvsFaults}
    {stored : Option WifiSettings} (h : writes = true → changed = true) :
    (if changed = true then if faults.nvsCommit = true then EspErr.other else .ok
      else if writes = true then .ok
      else (nvsGetBlob faults.getSettings stored .zero).1) ≠ .ok ↔
    if changed = true then faults.nvsCommit = true
    else faults.getSettings = true ∨ stored = none := by
  cases changed with
  | true => cases faults.nvsCommit <;> simp
  | false =>
    have hkept : writes = false := by simpa using h
    cases faults.getSettings <;> cases stored <;> simp [nvsGetBlob, hkept]

/-- **The mutex is left taken** by exactly the calls that `LeavesLocked` describes. -/
theorem locked_saveStaConfig {error : EspErr} (hunlocked : s.locked = false)
    (hsave : s.saveStaConfig faults = some (error, s')) :
    s'.locked = true ↔ ∃ config, s.LeavesLocked faults config := by
  cases hconfig : s.config with
  | none =>
    rw [saveStaConfig, hconfig] at hsave
    obtain ⟨_, rfl⟩ := Prod.mk.inj (Option.some.inj hsave)
    constructor
    · intro hlocked
      rw [hunlocked] at hlocked
      cases hlocked
    · rintro ⟨config, h⟩
      rw [h.config_eq] at hconfig
      cases hconfig
  | some config =>
    have hunique : (∃ config, s.LeavesLocked faults config) ↔ s.LeavesLocked faults config := by
      constructor
      · rintro ⟨config', h⟩
        rwa [Option.some.inj (h.config_eq.symm.trans hconfig)] at h
      · exact fun h => ⟨config, h⟩
    have hssid : (!faults.getSsid && config.ssidDiffers (s.flash.ssid.getD StaConfig.zero.ssid)) =
        s.writesSsid faults config := rfl
    have hpassword : (!faults.getPassword && config.passwordDiffers
        (s.flash.password.getD StaConfig.zero.password)) = s.writesPassword faults config := rfl
    have hsettings : (!faults.getSettings && s.settings.differs (s.flash.settings.getD .zero)) =
        s.writesSettings faults := rfl
    rw [hunique]
    simp only [saveStaConfig, hconfig, hunlocked, saveBlob_eq hssid, saveBlob_eq hpassword,
      saveBlob_eq hsettings, Bool.false_eq_true, if_false] at hsave
    by_cases hopen : faults.nvsOpen = true
    · rw [if_pos hopen] at hsave
      obtain ⟨_, rfl⟩ := Prod.mk.inj (Option.some.inj hsave)
      exact iff_of_false (by simp [hunlocked]) fun h => by simp [h.nvsOpen] at hopen
    rw [if_neg hopen] at hsave
    by_cases hset₁ : s.writesSsid faults config = true ∧ faults.setSsid = true
    · rw [if_pos hset₁] at hsave
      obtain ⟨_, rfl⟩ := Prod.mk.inj (Option.some.inj hsave)
      exact iff_of_false (by simp) fun h => by simp [h.setSsid hset₁.1] at hset₁
    rw [if_neg hset₁] at hsave
    by_cases hset₂ : s.writesPassword faults config = true ∧ faults.setPassword = true
    · simp only [if_pos hset₂] at hsave
      obtain ⟨_, rfl⟩ := Prod.mk.inj (Option.some.inj hsave)
      exact iff_of_false (by simp) fun h => by simp [h.setPassword hset₂.1] at hset₂
    simp only [if_neg hset₂] at hsave
    by_cases hset₃ : s.writesSettings faults = true ∧ faults.setSettings = true
    · simp only [if_pos hset₃] at hsave
      obtain ⟨_, rfl⟩ := Prod.mk.inj (Option.some.inj hsave)
      exact iff_of_false (by simp) fun h => by simp [h.setSettings hset₃.1] at hset₃
    simp only [if_neg hset₃] at hsave
    have hleaves : s.LeavesLocked faults config ↔ if (s.writesSsid faults config ||
        s.writesPassword faults config || s.writesSettings faults) = true then
          faults.nvsCommit = true
        else faults.getSettings = true ∨ s.flash.settings = none := by
      constructor
      · exact fun h => h.fails
      · intro h
        exact ⟨hconfig, by simpa using hopen, fun hw => by simpa [hw] using hset₁,
          fun hw => by simpa [hw] using hset₂, fun hw => by simpa [hw] using hset₃, h⟩
    have herror := @returnedError_ne_ok (s.writesSsid faults config ||
      s.writesPassword faults config || s.writesSettings faults) (s.writesSettings faults) faults
      s.flash.settings (fun hwrites => by simp [hwrites])
    rw [hleaves, ← herror]
    by_cases hreturns : (if (s.writesSsid faults config || s.writesPassword faults config ||
        s.writesSettings faults) = true then if faults.nvsCommit = true then EspErr.other else .ok
      else if s.writesSettings faults = true then .ok
      else (nvsGetBlob faults.getSettings s.flash.settings .zero).1) ≠ .ok
    · rw [if_pos hreturns] at hsave
      obtain ⟨_, rfl⟩ := Prod.mk.inj (Option.some.inj hsave)
      exact iff_of_true rfl hreturns
    · rw [if_neg hreturns] at hsave
      obtain ⟨_, rfl⟩ := Prod.mk.inj (Option.some.inj hsave)
      exact iff_of_false (by simp) hreturns

end ConfigStore

end NixieVfdCentral
