import NixieVfdCentral.WifiManager.Documents

/-!
# The state of the connection

The user asks for a connection by a name and a password, which the HTTP server puts side by side
into a `wifi_config_t`. The name may fill its 32 bytes, and then no zero follows it. The document
for the state of the connection prints the name as a string all the same.
-/

namespace NixieVfdCentral

open JsonText Memory Buffers

/-- What is used of the `sta` part of a `wifi_config_t`. -/
structure StaConfig where
  /-- `ssid`. -/
  ssid : Vector UInt8 32
  /-- `password`, which follows the name in memory. -/
  password : Vector UInt8 64

namespace StaConfig

/-- The string that begins at `ssid`. It ends with the first zero, and the field behind the password
is zero. -/
def ssidString (config : StaConfig) : List UInt8 :=
  (config.ssid.toList ++ config.password.toList).takeWhile fun c => c ≠ 0

/-- The configuration after `memset` and the two calls of `memcpy` in `http_server_post_handler`. -/
def ofRequest (ssid password : List UInt8) : StaConfig where
  ssid := overwrite (Vector.replicate 32 0) 0 ssid
  password := overwrite (Vector.replicate 64 0) 0 password

end StaConfig

/-- What `http_server_post_handler` asks of the two headers; as header values they hold no zero. -/
structure AcceptsConnect (ssid password : List UInt8) : Prop where
  ssid_pos : 0 < ssid.length
  ssid_le : ssid.length ≤ 32
  password_pos : 0 < password.length
  password_le : password.length ≤ 64
  zero_notMem_ssid : 0 ∉ ssid
  zero_notMem_password : 0 ∉ password

/-- `update_reason_code_t`. -/
inductive UpdateReason
  /-- `UPDATE_CONNECTION_OK`. -/
  | connectionOk
  /-- `UPDATE_FAILED_ATTEMPT`. -/
  | failedAttempt
  /-- `UPDATE_USER_DISCONNECT`. -/
  | userDisconnect
  /-- `UPDATE_LOST_CONNECTION`. -/
  | lostConnection
  deriving DecidableEq

/-- The value of a reason. -/
def UpdateReason.code : UpdateReason → ℕ
  | .connectionOk => 0
  | .failedAttempt => 1
  | .userDisconnect => 2
  | .lostConnection => 3

/-- `esp_netif_ip_info_t`. -/
structure IpInfo where
  /-- `ip`. -/
  ip : Vector UInt8 4
  /-- `netmask`. -/
  netmask : Vector UInt8 4
  /-- `gw`. -/
  gw : Vector UInt8 4

/-- `esp_ip4addr_ntoa`. -/
def ip4addrNtoa (addr : Vector UInt8 4) : List UInt8 :=
  decimal addr[0].toNat ++ text "." ++ decimal addr[1].toNat ++ text "." ++
    decimal addr[2].toNat ++ text "." ++ decimal addr[3].toNat

/-- An address as it is printed: there is none without a connection. -/
def addressText (reason : UpdateReason) (addr : Vector UInt8 4) : List UInt8 :=
  if reason = .connectionOk then ip4addrNtoa addr else text "0"

/-- `JSON_IP_INFO_SIZE`. -/
def jsonIpInfoSize : ℕ := 159

/-- What `ip_info_json_format` prints. -/
def ipInfoText (reason : UpdateReason) (info : IpInfo) : List UInt8 :=
  text ",\"ip\":\"" ++ addressText reason info.ip ++ text "\",\"netmask\":\"" ++
    addressText reason info.netmask ++ text "\",\"gw\":\"" ++ addressText reason info.gw ++
    text "\",\"urc\":" ++ decimal reason.code ++ text "\x7d\n"

/-- `wifi_manager_generate_ip_info_json`; there is no result when it leaves the buffer. -/
def generateIpInfoJson (config : StaConfig) (reason : UpdateReason) (info : IpInfo) :
    Option (BufferText jsonIpInfoSize) :=
  (BufferText.strcpy jsonIpInfoSize (text "\x7b\"ssid\":")).bind fun b =>
    (b.printString config.ssidString).bind fun b =>
      b.strcat ((ipInfoText reason info).take (jsonIpInfoSize - b.chars.length - 1))

/-- What the document shows as the name. -/
def shownSsid (ssid password : List UInt8) : List UInt8 :=
  if ssid.length < 32 then ssid else ssid ++ password

/-- The value of the document. -/
def statusJson (shown : List UInt8) (reason : UpdateReason) (info : IpInfo) : Json :=
  .object [(text "ssid", .string shown), (text "ip", .string (addressText reason info.ip)),
    (text "netmask", .string (addressText reason info.netmask)),
    (text "gw", .string (addressText reason info.gw)), (text "urc", .number reason.code)]

variable {ssid password shown : List UInt8} {reason : UpdateReason} {info : IpInfo}

/-! ### The name -/

/-- A string in a field with zeros behind it, and another field behind that one. -/
theorem takeWhile_field {bytes rest : List UInt8} (hbytes : 0 ∉ bytes) (k : ℕ) :
    (bytes ++ List.replicate k 0 ++ rest).takeWhile (fun c => c ≠ 0) =
      if k = 0 then bytes ++ rest.takeWhile (fun c => c ≠ 0) else bytes := by
  have hne : ∀ c ∈ bytes, decide (c ≠ 0) = true := by
    intro c hc
    simpa using ne_of_mem_of_not_mem hc hbytes
  rw [List.append_assoc, List.takeWhile_append_of_pos hne]
  cases k with
  | zero => rfl
  | succ k => simp [List.replicate_succ]

/-- **A name that fills its field runs on into the password.** -/
theorem ssidString_ofRequest (h : AcceptsConnect ssid password) :
    (StaConfig.ofRequest ssid password).ssidString = shownSsid ssid password := by
  have hpassword : (password ++ List.replicate (64 - password.length) 0).takeWhile
      (fun c => c ≠ 0) = password := by
    have hfield := @takeWhile_field password [] h.zero_notMem_password (64 - password.length)
    rw [List.append_nil] at hfield
    rw [hfield]
    split <;> simp
  rw [StaConfig.ssidString, StaConfig.ofRequest, toList_overwrite_replicate 0 h.ssid_le,
    toList_overwrite_replicate 0 h.password_le, takeWhile_field h.zero_notMem_ssid, hpassword,
    shownSsid]
  have hle := h.ssid_le
  by_cases hfull : ssid.length < 32
  · rw [if_neg (by omega), if_pos hfull]
  · rw [if_pos (by omega), if_neg hfull]

/-! ### The document -/

/-- The characters of an address need no escapes, so they are read back. -/
theorem readsString_addressText (reason : UpdateReason) (addr : Vector UInt8 4) :
    ReadsString (addressText reason addr) (addressText reason addr) := by
  have hdecimal (n : ℕ) : (decimal n).all isPlain = true :=
    List.all_eq_true.mpr fun c hc => isPlain_of_isDigit (isDigit_of_mem_decimal hc)
  have hdot : (text ".").all isPlain = true := by decide
  apply readsString_self
  unfold addressText
  split
  · simp only [ip4addrNtoa, List.all_append, hdecimal, hdot, Bool.and_true]
  · decide

/-- The members of the document. -/
def statusMembers (shown : List UInt8) (reason : UpdateReason) (info : IpInfo) : List UInt8 :=
  memberText (text "ssid") (quoted (shown.flatMap escaped)) ++
    valueSeparator :: (memberText (text "ip") (quoted (addressText reason info.ip)) ++
      valueSeparator :: (memberText (text "netmask") (quoted (addressText reason info.netmask)) ++
        valueSeparator :: (memberText (text "gw") (quoted (addressText reason info.gw)) ++
          valueSeparator :: memberText (text "urc") (decimal reason.code))))

/-- The members of the document are longer than the reader needs steps for them. -/
theorem le_length_statusMembers (shown : List UInt8) (reason : UpdateReason) (info : IpInfo) :
    6 ≤ (statusMembers shown reason info).length := by
  simp only [statusMembers, memberText, quoted, List.length_append, List.length_cons]
  omega

/-- The pieces that are printed for the document are the text of an object with its members. -/
theorem status_pieces (shown : List UInt8) (reason : UpdateReason) (info : IpInfo) :
    text "\x7b\"ssid\":" ++ quoted (shown.flatMap escaped) ++ ipInfoText reason info =
      beginObject :: (statusMembers shown reason info ++ [endObject]) ++ [0x0a] := by
  have hssid : text "\x7b\"ssid\":" =
      beginObject :: (quoted (text "ssid") ++ [nameSeparator]) := by decide
  have hip : text ",\"ip\":\"" =
      valueSeparator :: (quoted (text "ip") ++ [nameSeparator, quotationMark]) := by decide
  have hnetmask : text "\",\"netmask\":\"" =
      quotationMark :: valueSeparator :: (quoted (text "netmask") ++
        [nameSeparator, quotationMark]) := by decide
  have hgw : text "\",\"gw\":\"" =
      quotationMark :: valueSeparator :: (quoted (text "gw") ++
        [nameSeparator, quotationMark]) := by decide
  have hurc : text "\",\"urc\":" =
      quotationMark :: valueSeparator :: (quoted (text "urc") ++ [nameSeparator]) := by decide
  have hend : text "\x7d\n" = [endObject, 0x0a] := by decide
  have hquoted (t : List UInt8) : quoted t = quotationMark :: (t ++ [quotationMark]) := rfl
  simp only [ipInfoText, statusMembers, memberText, hssid, hip, hnetmask, hgw, hurc, hend,
    hquoted (addressText _ _), List.append_assoc, List.cons_append, List.nil_append]

/-- The members of the document are read back: the name, the three addresses and the reason. -/
theorem readsMembers_status (shown : List UInt8) (reason : UpdateReason) (info : IpInfo) :
    ReadsMembers 6 (statusMembers shown reason info) [(text "ssid", .string shown),
      (text "ip", .string (addressText reason info.ip)),
      (text "netmask", .string (addressText reason info.netmask)),
      (text "gw", .string (addressText reason info.gw)), (text "urc", .number reason.code)] := by
  have hssidName : ReadsString (text "ssid") (text "ssid") := readsString_self (by decide)
  have hipName : ReadsString (text "ip") (text "ip") := readsString_self (by decide)
  have hnetmaskName : ReadsString (text "netmask") (text "netmask") := readsString_self (by decide)
  have hgwName : ReadsString (text "gw") (text "gw") := readsString_self (by decide)
  have hurcName : ReadsString (text "urc") (text "urc") := readsString_self (by decide)
  have hssid := reads_string (readsString_flatMap_escaped shown)
  have hurc := reads_number reason.code
  rw [signedDecimal_natCast] at hurc
  exact readsMembers_cons hssidName hssid
    (readsMembers_cons hipName (reads_string (readsString_addressText reason info.ip))
      (readsMembers_cons hnetmaskName (reads_string (readsString_addressText reason info.netmask))
        (readsMembers_cons hgwName (reads_string (readsString_addressText reason info.gw))
          (readsMembers_singleton hurcName hurc))))

/-- The document is written up to the end of its buffer. -/
theorem generateIpInfoJson_eq (config : StaConfig) (reason : UpdateReason) (info : IpInfo) :
    generateIpInfoJson config reason info =
      (BufferText.strcpy jsonIpInfoSize
        (text "\x7b\"ssid\":" ++ quoted (config.ssidString.flatMap escaped))).bind fun b =>
          b.strcat ((ipInfoText reason info).take (jsonIpInfoSize - b.chars.length - 1)) := by
  have hname : ((BufferText.strcpy jsonIpInfoSize (text "\x7b\"ssid\":")).bind fun b =>
      b.printString config.ssidString) = BufferText.strcpy jsonIpInfoSize
        (text "\x7b\"ssid\":" ++ quoted (config.ssidString.flatMap escaped)) :=
    BufferText.strcpy_bind_strcat _ _
  rw [generateIpInfoJson, ← Option.bind_assoc, hname]

/-- What becomes of the document. -/
structure StatusDocument (ssid password : List UInt8) (reason : UpdateReason) (info : IpInfo) :
    Prop where
  /-- It stays inside its buffer exactly when the name does. -/
  isSome_iff : (generateIpInfoJson (StaConfig.ofRequest ssid password) reason info).isSome = true ↔
    10 + outputLength (shownSsid ssid password) < jsonIpInfoSize
  /-- When all of it fits, it is read back. -/
  reads : 10 + outputLength (shownSsid ssid password) + (ipInfoText reason info).length <
      jsonIpInfoSize →
    ∃ document, generateIpInfoJson (StaConfig.ofRequest ssid password) reason info = some document ∧
      readText document.chars = some (statusJson (shownSsid ssid password) reason info)

/-- The piece with the name is as long as the name with its escapes and ten more characters. -/
theorem length_namePiece (shown : List UInt8) :
    (text "\x7b\"ssid\":" ++ quoted (shown.flatMap escaped)).length = 10 + outputLength shown := by
  have hssid : (text "\x7b\"ssid\":").length = 8 := by decide
  simp only [quoted, List.length_append, List.length_cons, List.length_nil, hssid,
    length_flatMap_escaped]
  omega

/-- **The document shows the name, or the name and the password.** For every request that the HTTP
server accepts, the reader makes of the document the state of the connection when it fits. The
name in it is the name of the request if that is shorter than its field; a name of 32 bytes is
followed by the password. The reader passes bytes from 0x80 on through, be they UTF-8 or not. -/
theorem statusDocument (h : AcceptsConnect ssid password) (reason : UpdateReason) (info : IpInfo) :
    StatusDocument ssid password reason info := by
  have hgenerate := generateIpInfoJson_eq (StaConfig.ofRequest ssid password) reason info
  rw [ssidString_ofRequest h] at hgenerate
  have hname := length_namePiece (shownSsid ssid password)
  constructor
  · rw [hgenerate, ← hname, ← BufferText.isSome_strcpy]
    cases hcopied : BufferText.strcpy jsonIpInfoSize
        (text "\x7b\"ssid\":" ++ quoted ((shownSsid ssid password).flatMap escaped)) with
    | none => rfl
    | some b =>
      refine iff_of_true (BufferText.isSome_strcpy.mpr ?_) rfl
      have hfits := b.fits
      simp only [List.length_append, List.length_take]
      omega
  · intro hcomplete
    have hfits : (text "\x7b\"ssid\":" ++
        quoted ((shownSsid ssid password).flatMap escaped)).length < jsonIpInfoSize := by omega
    have htake : (ipInfoText reason info).take (jsonIpInfoSize - (text "\x7b\"ssid\":" ++
        quoted ((shownSsid ssid password).flatMap escaped)).length - 1) = ipInfoText reason info :=
      List.take_of_length_le (by omega)
    have hdocument : (text "\x7b\"ssid\":" ++ quoted ((shownSsid ssid password).flatMap escaped) ++
        ipInfoText reason info).length < jsonIpInfoSize := by
      rw [List.length_append]
      omega
    refine ⟨⟨_, hdocument⟩, ?_, ?_⟩
    · rw [hgenerate, BufferText.strcpy, dif_pos hfits, Option.bind_some]
      simp only [htake]
      exact dif_pos hdocument
    · have hobject : Reads 7
          (beginObject :: (statusMembers (shownSsid ssid password) reason info ++ [endObject]))
          (statusJson (shownSsid ssid password) reason info) :=
        reads_object (readsMembers_status (shownSsid ssid password) reason info)
      have hlength := le_length_statusMembers (shownSsid ssid password) reason info
      simp only [status_pieces]
      apply readText_of_reads hobject
      · simp only [List.length_append, List.length_cons]
        omega
      · decide

/-- A request whose name fills its field. -/
def fullName : List UInt8 := List.replicate 32 0x61

/-- No addresses. -/
def noIpInfo : IpInfo := ⟨Vector.replicate 4 0, Vector.replicate 4 0, Vector.replicate 4 0⟩

/-- The document for a name that fills its field shows the password behind it. -/
theorem statusDocument_fullName : ∃ document,
    generateIpInfoJson (StaConfig.ofRequest fullName (text "secret")) .failedAttempt noIpInfo =
        some document ∧
      readText document.chars =
        some (statusJson (fullName ++ text "secret") .failedAttempt noIpInfo) :=
  (statusDocument ⟨by decide, by decide, by decide, by decide, by decide, by decide⟩ _ _).reads
    (by decide)

end NixieVfdCentral
