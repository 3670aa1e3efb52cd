import Steward.Frame

/-!
# The stored document under the writers

`json_patch` keeps members that the patch omits, and no document built from a
report has a `mac_aliases` member. So an identity write keeps the aliases of its
target; the enrichment writers, which store a whole document, do not.
-/

namespace Steward

open JsonValue RowTable

variable (doc : Json)

theorem get_mergePatch_absent (ps : Members) (k : String) (h : k ∉ ps.map Prod.fst) :
    (mergePatch doc (.obj ps)).get k = doc.get k := lookup_mergeMembers_absent ps doc.members k h

theorem get_mergePatch_str (ps : Members) (k s : String) (hn : (ps.map Prod.fst).Nodup)
    (h : ps.lookup k = some (.str s)) : (mergePatch doc (.obj ps)).get k = some (.str s) :=
  lookup_mergeMembers_str ps doc.members k s hn h

/-- A patch from a record: a text it fills wins, a text it omits stays. -/
theorem get_mergePatch_marshal (attr : ScanAttributes) (k s : String)
    (h : (marshalScanAttributes attr).get k = textField s) :
    (mergePatch doc (marshalScanAttributes attr)).get k =
      if s = "" then doc.get k else some (.str s) := by
  by_cases hs : s = ""
  · rw [if_pos hs]
    refine get_mergePatch_absent doc (present attr.fields) k fun hmem => ?_
    obtain ⟨m, hm, rfl⟩ := List.mem_map.mp hmem
    have hnone : (present attr.fields).lookup m.1 = none := by
      have : (marshalScanAttributes attr).get m.1 = none := by rw [h, textField, if_pos hs]
      exact this
    rw [List.lookup_eq_none_iff] at hnone
    exact absurd (hnone m hm) (by simp)
  · rw [if_neg hs]
    refine get_mergePatch_str doc (present attr.fields) k s
      (present_nodup attr.fields attr.fields_nodup) ?_
    have : (marshalScanAttributes attr).get k = some (.str s) := by rw [h, textField, if_neg hs]
    exact this

theorem get_stripHostname (now : Nat) (r : DeviceRow) (k : String) (h : k ≠ "hostname") :
    (stripHostname now r).scanAttributes.get k = r.scanAttributes.get k := by
  unfold stripHostname
  split
  · split
    · rfl
    · exact Assoc.lookup_erase r.scanAttributes.members "hostname" k h
  · rfl

section Refreshed

variable (w : IdentityWrite) (now : Nat) (r : DeviceRow)

theorem healName_document :
    (healName w now r).scanAttributes = r.scanAttributes := by
  unfold healName
  split <;> rfl

theorem healBrand_document :
    (healBrand w now r).scanAttributes = r.scanAttributes := by
  unfold healBrand
  split <;> rfl

/-- Apart from the host name, a refresh patches the document, or leaves it with a type that the
column does not admit. -/
theorem refresh_document (k : String) (h : k ≠ "hostname") :
    ((refresh w now r).scanAttributes.get k = r.scanAttributes.get k ∧
      DeviceType.ofText w.type = none) ∨
      (refresh w now r).scanAttributes.get k =
        (mergePatch r.scanAttributes w.scanAttributes).get k := by
  unfold refresh
  rw [get_stripHostname now _ k h, healName_document, healBrand_document]
  split
  · unfold replacementIdentityUpdate
    split
    · next hc =>
      split at hc
      · exact .inl ⟨rfl, hc⟩
      · cases hc
    · exact .inr rfl
  · unfold existingIdentityUpdate
    split
    · next hc =>
      split at hc
      · exact .inl ⟨rfl, hc⟩
      · cases hc
    · exact .inr rfl

end Refreshed

/-- A write built from a report. -/
def FromReport (w : IdentityWrite) : Prop :=
  ∃ rep, w.scanAttributes = marshalScanAttributes (buildScanAttributes rep)

theorem updateWrite_fromReport (rep : HostReport) (net : Option Nat) (batch : List String)
    (res : IdentityResolution) (before : Option DeviceRow) :
    FromReport (updateWrite rep net batch res before) :=
  ⟨stickyReport rep res before batch, by simp only [updateWrite, buildIdentityWrite]⟩

theorem bridgeWrite_fromReport (db : Db) (rep : HostReport) (van : Vantage)
    (res : IdentityResolution) :
    FromReport (bridgeWrite db rep van res) := by
  unfold bridgeWrite
  split
  · exact ⟨stampVerdict rep (inferType rep), by simp only [createWrite, buildIdentityWrite]⟩
  · exact updateWrite_fromReport ..

variable {w : IdentityWrite} {r : DeviceRow}

theorem refresh_mac_aliases (hw : FromReport w) (now : Nat) (r : DeviceRow) :
    (refresh w now r).scanAttributes.get "mac_aliases" = r.scanAttributes.get "mac_aliases" := by
  obtain ⟨rep, hdoc⟩ := hw
  rcases refresh_document w now r "mac_aliases" (by decide) with ⟨h, -⟩ | h
  · exact h
  · rw [h, hdoc]
    exact get_mergePatch_absent r.scanAttributes _ "mac_aliases"
      (ScanAttributes.mac_aliases_not_mem _)

theorem macIsHolderAlias_congr {s : DeviceRow}
    (h : r.scanAttributes.get "mac_aliases" = s.scanAttributes.get "mac_aliases") (mac : String) :
    macIsHolderAlias r mac = macIsHolderAlias s mac := by
  unfold macIsHolderAlias holderAliases
  rw [h]

theorem macIsHolderAlias_refresh (hw : FromReport w) (now : Nat) (r : DeviceRow) (mac : String) :
    macIsHolderAlias (refresh w now r) mac = macIsHolderAlias r mac :=
  macIsHolderAlias_congr (refresh_mac_aliases hw now r) mac

theorem get_recordHolderAlias (mac k : String) (h : k ≠ "mac_aliases") :
    (recordHolderAlias doc mac).get k = doc.get k := by
  unfold recordHolderAlias
  split
  · rfl
  · split
    · rfl
    · simp only [Json.get, members_obj]
      rw [Assoc.lookup_set, if_neg h]

theorem not_alias_of_absent {h : DeviceRow} (ha : h.scanAttributes.get "mac_aliases" = none)
    (mac : String) :
    macIsHolderAlias h mac = false := by
  unfold macIsHolderAlias holderAliases
  rw [ha]
  rfl

theorem not_alias_of_marshal {attr : ScanAttributes}
    (h : r.scanAttributes = marshalScanAttributes attr) (mac : String) :
    macIsHolderAlias r mac = false := by
  have habsent : r.scanAttributes.get "mac_aliases" = none := by
    rw [h, ScanAttributes.get_mac_aliases]
  exact not_alias_of_absent habsent mac

end Steward
