import NixieVfdCentral.Foundations.InPlace

/-!
# The list of access points

After a scan `wifi_manager_filter_unique` rewrites the records of the access points in place. An
access point that occurs several times with the same name and the same authentication stays once,
with its best signal, and the records that remain move to the front of the list.
-/

namespace NixieVfdCentral

open InPlace

/-- The name of a network, up to its terminating zero. -/
structure Ssid where
  /-- The characters. -/
  bytes : List UInt8
  /-- None of them is zero. -/
  zero_notMem : 0 ∉ bytes
  /-- There are at most `MAX_SSID_SIZE`. -/
  length_le : bytes.length ≤ 32
  deriving DecidableEq

/-- No name. -/
def Ssid.empty : Ssid := ⟨[], by decide, by decide⟩

/-- What the records of one network have in common. -/
structure Network where
  /-- `ssid`. -/
  ssid : Ssid
  /-- `authmode`, the number of one of its few values. -/
  authmode : UInt8
  deriving DecidableEq

/-- What is used of a `wifi_ap_record_t`. -/
structure ApRecord where
  /-- `ssid`. -/
  ssid : Ssid
  /-- `primary`, the channel. -/
  primary : UInt8
  /-- `rssi`. -/
  rssi : Int8
  /-- `authmode`, the number of one of its few values. -/
  authmode : UInt8
  deriving DecidableEq

namespace ApRecord

/-- A record that is cleared. -/
def cleared : ApRecord := ⟨.empty, 0, 0, 0⟩

/-- The record has no name. -/
def unnamed (ap : ApRecord) : Bool := decide (ap.ssid = .empty)

/-- The network of a record. -/
def network (ap : ApRecord) : Network := ⟨ap.ssid, ap.authmode⟩

/-- The better signal is saved for the display. -/
def saveRssi (ap ap1 : ApRecord) : ApRecord :=
  if ap.rssi.toInt < ap1.rssi.toInt then { ap with rssi := ap1.rssi } else ap

/-- The identical names with the same authentication are removed. -/
def removeIdentical (aplist : List ApRecord) : List ApRecord :=
  mergeDuplicates unnamed cleared network saveRssi aplist

/-- The list is reordered so that the access points follow each other. -/
def reorder (aplist : List ApRecord) : Compaction ApRecord := compact unnamed cleared aplist

/-- `wifi_manager_filter_unique`, for a list of `*aps` records; the new value of `*aps` is the
number of cells in use. -/
def filterUnique (aplist : List ApRecord) : Compaction ApRecord := reorder (removeIdentical aplist)

variable {ap ap' : ApRecord} {aplist : List ApRecord}

/-- Taking over a signal does not change which network a record is for. -/
theorem network_saveRssi (ap ap1 : ApRecord) : (ap.saveRssi ap1).network = ap.network := by
  unfold saveRssi
  split <;> rfl

/-- Names, cleared records and signals go together as the merging loop needs it. -/
theorem mergeLaws : MergeLaws unnamed cleared network saveRssi where
  blank_free := rfl
  key_join := network_saveRssi
  isFree_congr ap ap' h := by
    rw [unnamed, unnamed, (Network.mk.inj h).1]

/-- Saving the signals of some records changes only the signal, and leaves the best one. -/
theorem foldl_saveRssi (ap : ApRecord) (others : List ApRecord) :
    ∃ rssi, others.foldl saveRssi ap = { ap with rssi := rssi } ∧
      (∃ best ∈ ap :: others, best.rssi = rssi) ∧
      ∀ other ∈ ap :: others, other.rssi.toInt ≤ rssi.toInt := by
  induction others generalizing ap with
  | nil => exact ⟨ap.rssi, rfl, ⟨ap, by simp⟩, by simp⟩
  | cons other others ih =>
    obtain ⟨rssi, hfold, ⟨best, hbest, hrssi⟩, hle⟩ := ih (ap.saveRssi other)
    have hsaved : (ap.saveRssi other).rssi = ap.rssi ∨ (ap.saveRssi other).rssi = other.rssi := by
      unfold saveRssi
      split <;> simp
    have hself : ap.rssi.toInt ≤ (ap.saveRssi other).rssi.toInt ∧
        other.rssi.toInt ≤ (ap.saveRssi other).rssi.toInt := by
      unfold saveRssi
      split <;> simp <;> omega
    have hupdate : { ap.saveRssi other with rssi := rssi } = { ap with rssi := rssi } := by
      unfold saveRssi
      split <;> rfl
    have hfirst := hle _ List.mem_cons_self
    refine ⟨rssi, by rw [List.foldl_cons, hfold, hupdate], ?_, ?_⟩
    · rcases List.mem_cons.mp hbest with rfl | hbest
      · rcases hsaved with h | h
        · exact ⟨ap, List.mem_cons_self, h ▸ hrssi⟩
        · exact ⟨other, by simp, h ▸ hrssi⟩
      · exact ⟨best, by simp [hbest], hrssi⟩
    · intro record hrecord
      simp only [List.mem_cons] at hrecord
      rcases hrecord with rfl | rfl | hrecord
      · exact Int.le_trans hself.1 hfirst
      · exact Int.le_trans hself.2 hfirst
      · exact hle record (List.mem_cons_of_mem _ hrecord)

/-- The list of access points after a scan. -/
structure UniqueList (aplist out : List ApRecord) : Prop where
  /-- Every record has a name. -/
  named : ∀ ap ∈ out, ap.ssid ≠ .empty
  /-- The networks are those of the named records, in the order in which they occur first. -/
  networks_eq : out.map network = ((inUse unnamed aplist).map network).eraseDups
  /-- No network occurs twice. -/
  nodup : (out.map network).Nodup
  /-- Apart from the signal a record is the first one of its network. -/
  first : ∀ ap ∈ out, ∃ first ∈ aplist.find? fun other => decide (other.network = ap.network),
    ap = { first with rssi := ap.rssi }
  /-- Its signal is that of a record of its network. -/
  rssi_eq : ∀ ap ∈ out, ∃ best ∈ aplist, best.network = ap.network ∧ best.rssi = ap.rssi
  /-- No record of its network has a better one. -/
  rssi_le : ∀ ap ∈ out, ∀ other ∈ aplist, other.network = ap.network →
    other.rssi.toInt ≤ ap.rssi.toInt

/-- A record that remains after the merging has a name. -/
theorem unnamed_of_mem_grouped (hap : ap ∈ grouped network saveRssi (inUse unnamed aplist)) :
    unnamed ap = false := by
  have hnetwork : ap.network ∈ (grouped network saveRssi (inUse unnamed aplist)).map network :=
    List.mem_map_of_mem hap
  rw [map_key_grouped network_saveRssi, List.mem_eraseDups] at hnetwork
  obtain ⟨other, hother, hsame⟩ := List.mem_map.mp hnetwork
  rw [← mergeLaws.isFree_congr other ap hsame]
  exact isFree_of_mem_inUse hother

/-- A record that remains is the first of its network, with the signals of the others saved. -/
theorem exists_first_of_mem_grouped (hap : ap ∈ grouped network saveRssi (inUse unnamed aplist)) :
    ∃ first others, (aplist.filter fun other => decide (other.network = ap.network)) =
      first :: others ∧ ap = others.foldl saveRssi first := by
  have hjoined := (mem_grouped network_saveRssi).mp hap
  rw [mergeLaws.filter_inUse (unnamed_of_mem_grouped hap)] at hjoined
  cases hsame : aplist.filter fun other => decide (other.network = ap.network) with
  | nil => simp [hsame, joined] at hjoined
  | cons first others =>
    rw [hsame] at hjoined
    exact ⟨first, others, rfl, (Option.some.inj hjoined).symm⟩

/-- Merging the records of each network gives a list of access points. -/
theorem uniqueList_grouped (aplist : List ApRecord) :
    UniqueList aplist (grouped network saveRssi (inUse unnamed aplist)) where
  named ap hap hempty := by
    have hnamed := unnamed_of_mem_grouped hap
    simp [unnamed, hempty] at hnamed
  networks_eq := map_key_grouped network_saveRssi _
  nodup := by
    rw [map_key_grouped network_saveRssi]
    exact nodup_eraseDups _
  first ap hap := by
    obtain ⟨first, others, hsame, hfold⟩ := exists_first_of_mem_grouped hap
    obtain ⟨rssi, hrssi, _⟩ := foldl_saveRssi first others
    refine ⟨first, ?_, ?_⟩
    · rw [Option.mem_def, ← List.head?_filter, hsame]
      rfl
    · rw [hfold, hrssi]
  rssi_eq ap hap := by
    obtain ⟨first, others, hsame, hfold⟩ := exists_first_of_mem_grouped hap
    obtain ⟨rssi, hrssi, ⟨best, hbest, hbestRssi⟩, _⟩ := foldl_saveRssi first others
    rw [← hsame] at hbest
    obtain ⟨hmem, hnetwork⟩ := List.mem_filter.mp hbest
    refine ⟨best, hmem, by simpa using hnetwork, ?_⟩
    rw [hfold, hrssi]
    exact hbestRssi
  rssi_le ap hap other hother hnetwork := by
    obtain ⟨first, others, hsame, hfold⟩ := exists_first_of_mem_grouped hap
    obtain ⟨rssi, hrssi, _, hle⟩ := foldl_saveRssi first others
    have hmem : other ∈ first :: others := by
      rw [← hsame]
      exact List.mem_filter.mpr ⟨hother, by simpa using hnetwork⟩
    rw [hfold, hrssi]
    exact hle other hmem

/-- **The list of access points is unique.** Whatever the scan has found, the first `*aps` records
are one for each network that has a name, in the order in which the networks were found, each with
its best signal, and no record behind them has a name. -/
theorem filterUnique_unique (aplist : List ApRecord) :
    UniqueList aplist ((filterUnique aplist).cells.take (filterUnique aplist).used) ∧
      (filterUnique aplist).cells.length = aplist.length ∧
      ∀ ap ∈ (filterUnique aplist).cells.drop (filterUnique aplist).used, ap.ssid = .empty := by
  obtain ⟨hgrouped, hlength⟩ := mergeLaws.mergeDuplicates_eq aplist
  obtain ⟨free, hfree, hcells, hused, hfreeLength⟩ :=
    @compact_eq _ unnamed cleared rfl (removeIdentical aplist)
  have hfront : inUse unnamed (removeIdentical aplist) =
      grouped network saveRssi (inUse unnamed aplist) := hgrouped
  rw [filterUnique, reorder, hcells, hused, List.take_left' rfl, List.drop_left' rfl]
  refine ⟨hfront ▸ uniqueList_grouped aplist, ?_, fun ap hap => ?_⟩
  · rw [List.length_append, hfreeLength]
    exact hlength
  · simpa [unnamed] using hfree ap hap

end ApRecord

end NixieVfdCentral
