import Mathlib.Algebra.Order.BigOperators.Group.List
import NixieVfdCentral.Foundations.Buffers
import NixieVfdCentral.WifiManager.AccessPoints
import NixieVfdCentral.WifiManager.Json

/-!
# The documents of the HTTP server

The wifi manager keeps two documents for the HTTP server, the list of access points and the state
of the connection. It writes both piece by piece into buffers of a fixed size. The texts are
compared here with the values they stand for, and the buffers with what is written into them.
-/

namespace NixieVfdCentral

open JsonText Memory Buffers

/-- A text in a buffer of `size` bytes, which has room for the zero behind it. -/
structure BufferText (size : ℕ) where
  /-- The characters in front of the zero. -/
  chars : List UInt8
  /-- The text and its zero fit. -/
  fits : chars.length < size

namespace BufferText

variable {size : ℕ}

/-- `strcpy`, where it stays inside the buffer. -/
def strcpy (size : ℕ) (s : List UInt8) : Option (BufferText size) :=
  if h : s.length < size then some ⟨s, h⟩ else none

/-- `strcat`, where it stays inside the buffer. -/
def strcat (buffer : BufferText size) (s : List UInt8) : Option (BufferText size) :=
  strcpy size (buffer.chars ++ s)

/-- `json_print_string` at the end of the text, where it stays inside the buffer. -/
def printString (buffer : BufferText size) (input : List UInt8) : Option (BufferText size) :=
  buffer.strcat (quoted (input.flatMap escaped))

/-- A text is copied exactly when it fits together with its zero. -/
theorem isSome_strcpy {s : List UInt8} : (strcpy size s).isSome = true ↔ s.length < size := by
  unfold strcpy
  split
  · rename_i h
    exact iff_of_true rfl h
  · rename_i h
    exact iff_of_false Bool.false_ne_true h

/-- Two pieces appended one after the other are appended like one, also if they do not fit. -/
theorem strcat_bind_strcat (buffer : BufferText size) (s t : List UInt8) :
    ((buffer.strcat s).bind fun b => b.strcat t) = buffer.strcat (s ++ t) := by
  by_cases hs : (buffer.chars ++ s).length < size
  · simp only [strcat, strcpy, hs, dif_pos, Option.bind_some, List.append_assoc]
  · have ht : ¬(buffer.chars ++ (s ++ t)).length < size := by
      simp only [List.length_append] at hs ⊢
      omega
    simp only [strcat, strcpy, hs, ht, dif_neg, not_false_eq_true, Option.bind_none]

/-- Appending an empty piece changes nothing and always fits. -/
theorem strcat_nil (buffer : BufferText size) : buffer.strcat [] = some buffer := by
  have hfits : (buffer.chars ++ []).length < size := by simpa using buffer.fits
  simp [strcat, strcpy, buffer.fits]

/-- Copying a piece and appending another one is copying both at once, also if they do not fit. -/
theorem strcpy_bind_strcat (s t : List UInt8) :
    ((strcpy size s).bind fun b => b.strcat t) = strcpy size (s ++ t) := by
  by_cases hs : s.length < size
  · simp only [strcat, strcpy, hs, dif_pos, Option.bind_some]
  · have ht : ¬(s ++ t).length < size := by
      rw [List.length_append]
      omega
    simp only [strcpy, hs, ht, dif_neg, not_false_eq_true, Option.bind_none]

/-- **In memory**, `json_print_string` at the end of a text writes over its zero, and what it
leaves there is the text with the string behind it. -/
theorem jsonPrintString_of_printString (memory : ℕ → UInt8) (p : ℕ) {buffer : BufferText size}
    {input : List UInt8} {buffer' : BufferText size}
    (hprint : buffer.printString input = some buffer') :
    jsonPrintString (store memory p (buffer.chars ++ [0])) input (p + buffer.chars.length) =
      store memory p (buffer'.chars ++ [0]) := by
  have hchars : buffer'.chars = buffer.chars ++ quoted (input.flatMap escaped) := by
    rw [printString, strcat, strcpy] at hprint
    split at hprint
    · rw [← Option.some.inj hprint]
    · cases hprint
  rw [jsonPrintString_eq_store, store_store (by simp), hchars, List.append_assoc]

end BufferText

/-! ### The list of access points -/

/-- `MAX_AP_NUM`. -/
def maxApNum : ℕ := 15

/-- `JSON_ONE_APP_SIZE`. -/
def jsonOneAppSize : ℕ := 99

/-- The size of `accessp_json`. -/
def accesspJsonSize : ℕ := maxApNum * jsonOneAppSize + 4

/-- What `oneap_str` prints, with `]` behind the last record and a comma behind the others. -/
def oneApStr (ap : ApRecord) (last : Bool) : List UInt8 :=
  text ",\"chan\":" ++ decimal ap.primary.toNat ++ text ",\"rssi\":" ++
    signedDecimal ap.rssi.toInt ++ text ",\"auth\":" ++ decimal ap.authmode.toNat ++
    [endObject, if last then endArray else valueSeparator, 0x0a]

/-- `one_ap`, after `snprintf` has printed no more than fits. -/
def oneAp (ap : ApRecord) (last : Bool) : List UInt8 := (oneApStr ap last).take (jsonOneAppSize - 1)

/-- The loop of `wifi_manager_generate_acess_points_json`. -/
def appendAccessPoints {size : ℕ} (buffer : BufferText size) :
    List ApRecord → Option (BufferText size)
  | [] => some buffer
  | ap :: aps =>
    (((buffer.strcat (text "\x7b\"ssid\":")).bind fun b =>
      b.printString ap.ssid.bytes).bind fun b =>
      b.strcat (oneAp ap aps.isEmpty)).bind fun b =>
      appendAccessPoints b aps

/-- `wifi_manager_generate_acess_points_json`; there is no result when it leaves the buffer. -/
def generateAcessPointsJson (aps : List ApRecord) : Option (BufferText accesspJsonSize) :=
  (BufferText.strcpy accesspJsonSize (text "[")).bind fun b => appendAccessPoints b aps

/-- The text of a record, without what separates it from the next one. -/
def recordText (ap : ApRecord) : List UInt8 :=
  beginObject :: (memberText (text "ssid") (quoted (ap.ssid.bytes.flatMap escaped)) ++
    valueSeparator :: (memberText (text "chan") (decimal ap.primary.toNat) ++
      valueSeparator :: (memberText (text "rssi") (signedDecimal ap.rssi.toInt) ++
        valueSeparator :: memberText (text "auth") (decimal ap.authmode.toNat))) ++ [endObject])

/-- The text of the list behind its opening bracket. -/
def listText : List ApRecord → List UInt8
  | [] => []
  | ap :: aps =>
    recordText ap ++ (if aps.isEmpty then endArray else valueSeparator) :: 0x0a :: listText aps

variable {ap : ApRecord} {aps : List ApRecord} {size : ℕ}

/-- A byte is written with at most three digits. -/
theorem length_decimal_toNat_le (c : UInt8) : (decimal c.toNat).length ≤ 3 :=
  length_decimal_le (by decide) (Nat.lt_trans c.toNat_lt (by decide))

/-- A signed byte is written with at most three digits and a sign. -/
theorem length_signedDecimal_toInt_le (c : Int8) : (signedDecimal c.toInt).length ≤ 4 := by
  have hdigits : (decimal c.toInt.natAbs).length ≤ 3 := by
    have hlow := c.le_toInt
    have hhigh := c.toInt_lt
    exact length_decimal_le (by decide) (by omega)
  unfold signedDecimal
  split
  · exact Nat.succ_le_succ hdigits
  · exact Nat.le_succ_of_le hdigits

/-- A number without a sign is written with at least one character. -/
theorem length_decimal_pos (n : ℕ) : 0 < (decimal n).length := by
  obtain ⟨c, more, hdecimal, _⟩ := decimal_eq_cons n
  rw [hdecimal]
  exact Nat.succ_pos _

/-- A number is written with at least one character. -/
theorem length_signedDecimal_pos (n : ℤ) : 0 < (signedDecimal n).length := by
  obtain ⟨c, more, hdecimal, _⟩ := signedDecimal_eq_cons n
  rw [hdecimal]
  exact Nat.succ_pos _

/-- Nothing is cut off from the text of a record. -/
theorem oneAp_eq (ap : ApRecord) (last : Bool) : oneAp ap last = oneApStr ap last := by
  have hprimary := length_decimal_toNat_le ap.primary
  have hrssi := length_signedDecimal_toInt_le ap.rssi
  have hauth := length_decimal_toNat_le ap.authmode
  apply List.take_of_length_le
  simp only [oneApStr, List.length_append, List.length_cons, List.length_nil, jsonOneAppSize]
  have hchan : (text ",\"chan\":").length = 8 := by decide
  have hrssiName : (text ",\"rssi\":").length = 8 := by decide
  have hauthName : (text ",\"auth\":").length = 8 := by decide
  omega

/-- The pieces that the loop appends for a record are its text and what separates it from the next
one. -/
theorem record_pieces (ap : ApRecord) (last : Bool) :
    text "\x7b\"ssid\":" ++ quoted (ap.ssid.bytes.flatMap escaped) ++ oneApStr ap last =
      recordText ap ++ [if last then endArray else valueSeparator, 0x0a] := by
  have hssid : text "\x7b\"ssid\":" = beginObject :: (quoted (text "ssid") ++ [nameSeparator]) := by
    decide
  have hchan : text ",\"chan\":" = valueSeparator :: (quoted (text "chan") ++ [nameSeparator]) := by
    decide
  have hrssi : text ",\"rssi\":" = valueSeparator :: (quoted (text "rssi") ++ [nameSeparator]) := by
    decide
  have hauth : text ",\"auth\":" = valueSeparator :: (quoted (text "auth") ++ [nameSeparator]) := by
    decide
  simp only [oneApStr, recordText, memberText, hssid, hchan, hrssi, hauth, List.append_assoc,
    List.cons_append, List.nil_append]

/-- **The loop appends the text of the list**, if it fits. -/
theorem appendAccessPoints_eq (buffer : BufferText size) (aps : List ApRecord) :
    appendAccessPoints buffer aps = buffer.strcat (listText aps) := by
  induction aps generalizing buffer with
  | nil => exact buffer.strcat_nil.symm
  | cons ap aps ih =>
    have hrest : (fun b : BufferText size => appendAccessPoints b aps) =
        fun b => b.strcat (listText aps) := funext ih
    have hlist : listText (ap :: aps) = recordText ap ++
        [if aps.isEmpty then endArray else valueSeparator, 0x0a] ++ listText aps := by
      simp [listText]
    rw [appendAccessPoints, hrest, hlist, ← record_pieces]
    simp only [BufferText.printString, BufferText.strcat_bind_strcat, oneAp_eq]

/-- **The document** of the list of access points, if it fits. -/
theorem generateAcessPointsJson_eq (aps : List ApRecord) :
    generateAcessPointsJson aps =
      BufferText.strcpy accesspJsonSize (beginArray :: listText aps) := by
  have hloop : (fun b : BufferText accesspJsonSize => appendAccessPoints b aps) =
      fun b => b.strcat (listText aps) := funext fun b => appendAccessPoints_eq b aps
  rw [generateAcessPointsJson, hloop, BufferText.strcpy_bind_strcat]
  rfl

/-- The value that stands for a record. -/
def ApRecord.toJson (ap : ApRecord) : Json :=
  .object [(text "ssid", .string ap.ssid.bytes), (text "chan", .number ap.primary.toNat),
    (text "rssi", .number ap.rssi.toInt), (text "auth", .number ap.authmode.toNat)]

/-- A number that is not negative is written without a sign. -/
theorem signedDecimal_natCast (n : ℕ) : signedDecimal (n : ℤ) = decimal n := by
  rw [signedDecimal, if_neg (by omega), Int.natAbs_natCast]

/-- The text of a record is an object with its four members. -/
theorem reads_recordText (ap : ApRecord) : Reads 6 (recordText ap) ap.toJson := by
  have hssid := reads_string (readsString_flatMap_escaped ap.ssid.bytes)
  have hchan := reads_number ap.primary.toNat
  have hrssi := reads_number ap.rssi.toInt
  have hauth := reads_number ap.authmode.toNat
  rw [signedDecimal_natCast] at hchan hauth
  have hssidName : ReadsString (text "ssid") (text "ssid") := readsString_self (by decide)
  have hchanName : ReadsString (text "chan") (text "chan") := readsString_self (by decide)
  have hrssiName : ReadsString (text "rssi") (text "rssi") := readsString_self (by decide)
  have hauthName : ReadsString (text "auth") (text "auth") := readsString_self (by decide)
  exact reads_object (readsMembers_cons hssidName hssid (readsMembers_cons hchanName hchan
    (readsMembers_cons hrssiName hrssi (readsMembers_singleton hauthName hauth))))

/-- The text of a record begins an object and has six more characters at least. -/
theorem exists_recordText (ap : ApRecord) :
    ∃ tail, recordText ap = beginObject :: tail ∧ 6 ≤ tail.length := by
  refine ⟨_, rfl, ?_⟩
  simp only [memberText, quoted, List.length_append, List.length_cons, List.length_nil]
  omega

/-- The items of the list, up to its closing bracket. -/
theorem exists_items (ap : ApRecord) (aps : List ApRecord) :
    ∃ items, listText (ap :: aps) = beginObject :: items ++ [endArray, 0x0a] ∧
      aps.length + 6 ≤ items.length ∧
      ReadsItems (aps.length + 7) (beginObject :: items) ((ap :: aps).map ApRecord.toJson) := by
  induction aps generalizing ap with
  | nil =>
    obtain ⟨tail, hrecord, hlength⟩ := exists_recordText ap
    refine ⟨tail, by simp [listText, hrecord], by simpa using hlength, ?_⟩
    rw [← hrecord]
    exact readsItems_singleton (reads_recordText ap)
  | cons ap' aps ih =>
    obtain ⟨tail, hrecord, hlength⟩ := exists_recordText ap
    obtain ⟨items, hitems, hitemsLength, hreads⟩ := ih ap'
    have hneed : max 6 (aps.length + 7) + 1 = (ap' :: aps).length + 7 := by
      rw [List.length_cons]
      omega
    have hcons := readsItems_cons (reads_recordText ap)
      (readsItems_blank (b := 0x0a) (by decide) hreads)
    rw [hneed, hrecord] at hcons
    refine ⟨tail ++ valueSeparator :: 0x0a :: beginObject :: items, ?_, ?_, hcons⟩
    · rw [listText, hitems, hrecord]
      simp
    · simp only [List.length_append, List.length_cons]
      omega

/-- **The list of access points is read back.** Whatever the names of the access points are, the
reader makes of the document the list of their records, provided that there is at least one. It
passes the bytes of the names from 0x80 on through, so for names that are no UTF-8 a reader that
checks this refuses the document. Without an access point the document is a single bracket, which
is no JSON text. -/
theorem readText_accessPointsJson {document : BufferText accesspJsonSize}
    (hdocument : generateAcessPointsJson aps = some document) :
    readText document.chars =
      if aps = [] then none else some (.array (aps.map ApRecord.toJson)) := by
  have hchars : document.chars = beginArray :: listText aps := by
    rw [generateAcessPointsJson_eq, BufferText.strcpy] at hdocument
    split at hdocument
    · rw [← Option.some.inj hdocument]
    · cases hdocument
  rw [hchars]
  cases aps with
  | nil => rfl
  | cons ap aps =>
    obtain ⟨items, hitems, hlength, hreads⟩ := exists_items ap aps
    have harray := reads_array (by decide) (by decide) hreads
    have htext : beginArray :: listText (ap :: aps) =
        beginArray :: (beginObject :: items ++ [endArray]) ++ [0x0a] := by
      rw [hitems]
      simp
    rw [if_neg (List.cons_ne_nil ap aps), htext]
    apply readText_of_reads harray
    · simp only [List.length_append, List.length_cons, List.length_nil]
      omega
    · decide

/-- Two networks, of which one has a quotation mark and a line feed in its name. -/
def twoAccessPoints : List ApRecord :=
  [⟨⟨[0x61, 0x22, 0x0a], by decide, by decide⟩, 6, -71, 3⟩,
    ⟨⟨[0x62, 0x01], by decide, by decide⟩, 11, -80, 0⟩]

/-- The list of the two networks, escapes included, is read back. -/
theorem readText_twoAccessPoints : ∃ document,
    generateAcessPointsJson twoAccessPoints = some document ∧
      readText document.chars = some (.array (twoAccessPoints.map ApRecord.toJson)) :=
  ⟨_, rfl, (readText_accessPointsJson rfl).trans (if_neg (List.cons_ne_nil _ _))⟩

/-- The characters of a record and of what separates it from the next one. -/
def recordLength (ap : ApRecord) : ℕ :=
  37 + outputLength ap.ssid.bytes + (decimal ap.primary.toNat).length +
    (signedDecimal ap.rssi.toInt).length + (decimal ap.authmode.toNat).length

/-- The text of the list is as long as its records with what separates them. -/
theorem length_listText (aps : List ApRecord) :
    (listText aps).length = (aps.map recordLength).sum := by
  have hnames : (text "ssid").length = 4 ∧ (text "chan").length = 4 ∧ (text "rssi").length = 4 ∧
      (text "auth").length = 4 := by decide
  obtain ⟨hssid, hchan, hrssi, hauth⟩ := hnames
  induction aps with
  | nil => rfl
  | cons ap aps ih =>
    rw [listText, List.map_cons, List.sum_cons, ← ih]
    simp only [recordText, memberText, quoted, recordLength, List.length_append, List.length_cons,
      List.length_nil, length_flatMap_escaped, hssid, hchan, hrssi, hauth]
    omega

/-- When the list of access points stays inside its buffer. -/
structure ListFits (aps : List ApRecord) : Prop where
  /-- Exactly when its records are short enough together. -/
  isSome_iff : (generateAcessPointsJson aps).isSome = true ↔
    1 + (aps.map recordLength).sum < accesspJsonSize
  /-- Always, when no name needs more than 52 characters, 20 more than its greatest length. -/
  isSome : aps.length ≤ maxApNum → (∀ ap ∈ aps, outputLength ap.ssid.bytes ≤ 52) →
    (generateAcessPointsJson aps).isSome = true
  /-- Never, when there are as many access points as there may be and each name needs 60 characters
  or more, as a name made of quotation marks does. -/
  eq_none : aps.length = maxApNum → (∀ ap ∈ aps, 60 ≤ outputLength ap.ssid.bytes) →
    generateAcessPointsJson aps = none

/-- The list stays inside its buffer exactly when its records are short enough together. -/
theorem isSome_generateAcessPointsJson (aps : List ApRecord) :
    (generateAcessPointsJson aps).isSome = true ↔
      1 + (aps.map recordLength).sum < accesspJsonSize := by
  rw [generateAcessPointsJson_eq, BufferText.isSome_strcpy, List.length_cons, length_listText,
    Nat.add_comm]

/-- **When the list of access points fits.** The size of the buffer allows for twenty escapes in
each name, not for thirty-two: fifteen names made of quotation marks leave it. -/
theorem accessPointsJson_fits (aps : List ApRecord) : ListFits aps where
  isSome_iff := isSome_generateAcessPointsJson aps
  isSome hlength hnames := by
    have hrecord : ∀ n ∈ aps.map recordLength, n ≤ 99 := by
      intro n hn
      obtain ⟨ap, hap, rfl⟩ := List.mem_map.mp hn
      have hname := hnames ap hap
      have hprimary := length_decimal_toNat_le ap.primary
      have hrssi := length_signedDecimal_toInt_le ap.rssi
      have hauth := length_decimal_toNat_le ap.authmode
      unfold recordLength
      omega
    have hsum := List.sum_le_card_nsmul _ 99 hrecord
    rw [List.length_map, nsmul_eq_mul, Nat.cast_id] at hsum
    rw [isSome_generateAcessPointsJson]
    simp only [accesspJsonSize, jsonOneAppSize, maxApNum] at hlength ⊢
    omega
  eq_none hlength hnames := by
    have hrecord : ∀ n ∈ aps.map recordLength, 100 ≤ n := by
      intro n hn
      obtain ⟨ap, hap, rfl⟩ := List.mem_map.mp hn
      have hname := hnames ap hap
      have hprimary := length_decimal_pos ap.primary.toNat
      have hrssi := length_signedDecimal_pos ap.rssi.toInt
      have hauth := length_decimal_pos ap.authmode.toNat
      unfold recordLength
      omega
    have hsum := List.card_nsmul_le_sum _ 100 hrecord
    rw [List.length_map, nsmul_eq_mul, Nat.cast_id] at hsum
    rw [← Option.not_isSome_iff_eq_none, isSome_generateAcessPointsJson]
    simp only [accesspJsonSize, jsonOneAppSize, maxApNum] at hlength ⊢
    omega

end NixieVfdCentral
