import Steward.BridgedRow

/-!
# Type stickiness over the pipeline

The bridge keeps a stored verdict that came from a protocol against a weaker one.
It reads the stored verdict from the document of the row, and the enrichment that
runs first in the same scan may have replaced that document.
-/

namespace Steward

open JsonValue RowTable

/-- The document carries a type that a protocol determined. -/
def CarriesVerdict (doc : Json) (t : String) : Prop :=
  doc.get "inferred_type" = some (.str t) ∧ doc.get "inferred_type_source" = some (.str "protocol")

instance (doc : Json) (t : String) : Decidable (CarriesVerdict doc t) :=
  inferInstanceAs (Decidable (_ ∧ _))

/-! ## The verdict of the write -/

section Bridge

variable {now : Nat} {rep : HostReport} {t : DeviceRow}

theorem stickyReport_verdict (res : IdentityResolution) (before : Option DeviceRow)
    (batch : List String) :
    verdict (buildScanAttributes (stickyReport rep res before batch)) =
      stickyVerdict rep res before := by
  rw [verdict_buildScanAttributes]
  unfold stickyReport
  split
  · simp [stampVerdict, HostReport.field_setField]
  · simp [stampVerdict, HostReport.field_setField]

/-- The verdict members of the document that a resolved row is patched with. -/
theorem updateWrite_verdict (net : Option Nat) (batch : List String) {res : IdentityResolution}
    {before : Option DeviceRow} {v : String × String} (hv : stickyVerdict rep res before = v) :
    (updateWrite rep net batch res before).scanAttributes.get "inferred_type" = textField v.1 ∧
      (updateWrite rep net batch res before).scanAttributes.get "inferred_type_source" =
        textField v.2 := by
  rw [← hv, ← stickyReport_verdict res before batch]
  simp only [updateWrite, buildIdentityWrite, ScanAttributes.get_inferred_type,
    ScanAttributes.get_inferred_type_source, verdict, and_self]

variable {w : IdentityWrite} {ty : String}

/-- A weak verdict that reaches the document displaces a protocol's verdict: it brings a source
of its own, or the type that has none. -/
theorem not_carries_of_weak {v : String × String} (hw : FromReport w)
    (htype : w.scanAttributes.get "inferred_type" = textField v.1)
    (hsource : w.scanAttributes.get "inferred_type_source" = textField v.2)
    (hwtype : w.type = v.1) (hv : Settled v) (hweak : v.2 ≠ "protocol") (hty : ty ≠ "other") :
    ¬ CarriesVerdict (refresh w now t).scanAttributes ty := by
  obtain ⟨rep', hdoc⟩ := hw
  have hpatched (k : String) (hk : k ≠ "hostname") : (refresh w now t).scanAttributes.get k =
      (mergePatch t.scanAttributes w.scanAttributes).get k := by
    have hvalid : (DeviceType.ofText w.type).isSome := hwtype ▸ hv.1
    rcases refresh_document w now t k hk with ⟨-, hnone⟩ | h
    · simp [hnone] at hvalid
    · exact h
  rintro ⟨hct, hcs⟩
  rw [hpatched _ (by decide), hdoc] at hct hcs
  rw [hdoc] at htype hsource
  rw [get_mergePatch_marshal _ _ _ _ htype] at hct
  rw [get_mergePatch_marshal _ _ _ _ hsource] at hcs
  by_cases hs : v.2 = ""
  · have hother : v.1 = "other" := hv.2 hs
    rw [hother, if_neg (by decide)] at hct
    exact hty (by simpa using hct.symm)
  · rw [if_neg hs] at hcs
    exact hweak (by simpa using hcs)

/-- A patch with the stored verdict keeps it. -/
theorem carries_of_sticky (hw : FromReport w) (hne : ty ≠ "")
    (htype : w.scanAttributes.get "inferred_type" = textField ty)
    (hsource : w.scanAttributes.get "inferred_type_source" = textField "protocol")
    (hc : CarriesVerdict t.scanAttributes ty) :
    CarriesVerdict (refresh w now t).scanAttributes ty := by
  obtain ⟨rep', hdoc⟩ := hw
  rw [hdoc] at htype hsource
  constructor
  · rcases refresh_document w now t "inferred_type" (by decide) with ⟨h, -⟩ | h
    · exact h.trans hc.1
    · rw [h, hdoc, get_mergePatch_marshal _ _ _ _ htype, if_neg hne]
  · rcases refresh_document w now t "inferred_type_source" (by decide) with ⟨h, -⟩ | h
    · exact h.trans hc.2
    · rw [h, hdoc, get_mergePatch_marshal _ _ _ _ hsource, if_neg (by decide)]

end Bridge

/-! ## What the bridge finds stored -/

variable {doc : Json}

theorem textOf_eq {k s : String} (h : doc.get k = some (.str s)) : textOf doc k = s := by
  simp [textOf, Json.getStr, h, Json.text?]

/-- A stored protocol verdict is found when the document decodes. -/
theorem applyTypeStickiness_stored {ty : String} {v : String × String}
    (hc : CarriesVerdict doc ty) (hne : ty ≠ "") (hother : ty ≠ "other")
    (hweak : v.2 ≠ "protocol") (hdec : (unmarshalScanAttributes doc).isSome) :
    applyTypeStickiness doc v = (ty, "protocol") := by
  obtain ⟨s, hs⟩ := Option.isSome_iff_exists.mp hdec
  obtain ⟨htype, hsource⟩ := ScanAttributes.unmarshal_verdict hs
  rw [textOf_eq hc.1] at htype
  rw [textOf_eq hc.2] at hsource
  simp [applyTypeStickiness, hs, htype, hsource, hne, hother, hweak]

/-- Nothing is found in a document that does not decode or has no source. -/
theorem applyTypeStickiness_blind (v : String × String)
    (h : unmarshalScanAttributes doc = none ∨ doc.get "inferred_type_source" = none) :
    applyTypeStickiness doc v = v := by
  unfold applyTypeStickiness
  cases hs : unmarshalScanAttributes doc with
  | none => rfl
  | some s =>
    have habsent : doc.get "inferred_type_source" = none := by simpa [hs] using h
    have hsource : s.inferredTypeSource = "" := by
      rw [(ScanAttributes.unmarshal_verdict hs).2]
      simp [textOf, Json.getStr, habsent]
    simp [hsource]

theorem recordRow_source (d : DeviceRef) (now : Nat) (r : DeviceRow) :
    (recordRow d now r).scanAttributes.get "inferred_type_source" = none := by
  simp only [recordRow, ScanAttributes.get_inferred_type_source]
  rfl

section Scan

variable {db : Db} {applied : Nat} {uuid : String} {rep : HostReport} {van : Vantage}
  {t : DeviceRow} {ty : String} {res : IdentityResolution}
  (hres : resolveDeviceIdentity db applied (reportMAC rep) rep.ip van.net = res) (ht : t ∈ db.rows)
  (hid : t.id = res.targetId) (hrep : res.replacedId = 0)

include hres ht hid hrep

/-- A scan that meets no usable stored verdict leaves none behind. -/
theorem bridge_drops_verdict (hblind : unmarshalScanAttributes t.scanAttributes = none ∨
      t.scanAttributes.get "inferred_type_source" = none) (hweak : (inferType rep).2 ≠ "protocol")
    (hother : ty ≠ "other") {r' : DeviceRow}
    (hr' : r' ∈ (applyDeviceBridge db applied uuid rep van).db.rows) (hr'id : r'.id = t.id) :
    ¬ CarriesVerdict r'.scanAttributes ty := by
  obtain ⟨s, hs, hsid, -, -, hdoc, -⟩ := bridge_target uuid hres ht hid
  obtain rfl : r' = s := Db.eq_of_id hr' hs (hr'id.trans hsid.symm)
  have hsticky : stickyVerdict rep res (some t) = inferType rep := by
    simp only [stickyVerdict, hrep, if_true, applyTypeStickiness_blind _ hblind]
  obtain ⟨htype, hsource⟩ := updateWrite_verdict van.net van.batchAliases hsticky
  unfold CarriesVerdict
  rw [hdoc _ (by decide), hdoc _ (by decide)]
  refine not_carries_of_weak (updateWrite_fromReport ..) htype hsource ?_ (inferType_settled rep)
    hweak hother
  simp only [updateWrite, buildIdentityWrite, hsticky]

/-- A scan that finds the stored verdict keeps it. -/
theorem bridge_keeps_verdict (hc : CarriesVerdict t.scanAttributes ty) (hne : ty ≠ "")
    (hother : ty ≠ "other") (hweak : (inferType rep).2 ≠ "protocol")
    (hdec : (unmarshalScanAttributes t.scanAttributes).isSome) :
    ∃ r' ∈ (applyDeviceBridge db applied uuid rep van).db.rows, r'.id = t.id ∧
      CarriesVerdict r'.scanAttributes ty := by
  obtain ⟨s, hs, hsid, -, -, hdoc, -⟩ := bridge_target uuid hres ht hid
  have hsticky : stickyVerdict rep res (some t) = (ty, "protocol") := by
    simp only [stickyVerdict, hrep, if_true, applyTypeStickiness_stored hc hne hother hweak hdec]
  obtain ⟨htype, hsource⟩ := updateWrite_verdict van.net van.batchAliases hsticky
  refine ⟨s, hs, hsid, ?_⟩
  unfold CarriesVerdict
  rw [hdoc _ (by decide), hdoc _ (by decide)]
  exact carries_of_sticky (updateWrite_fromReport ..) hne htype hsource hc

end Scan

/-- A protocol's verdict survives a weaker scan of its row exactly when the enrichment of
that scan goes elsewhere and the stored document decodes. -/
theorem localScan_keeps_verdict_iff {db : Db} {recorded applied : Nat} {uuid : String}
    {rep : HostReport} {van : Vantage} {r : DeviceRow} {ty : String} (hr : r ∈ db.rows)
    (hc : CarriesVerdict r.scanAttributes ty) (hne : ty ≠ "") (hother : ty ≠ "other")
    (htarget : (resolveDeviceIdentity (recordDevice db recorded rep.ip van.net rep.device) applied
      (reportMAC rep) rep.ip van.net).targetId = r.id)
    (hrep : (resolveDeviceIdentity (recordDevice db recorded rep.ip van.net rep.device) applied
      (reportMAC rep) rep.ip van.net).replacedId = 0)
    (hweak : (inferType rep).2 ≠ "protocol") :
    (∃ r' ∈ (localScan db recorded applied uuid rep van).db.rows, r'.id = r.id ∧
      CarriesVerdict r'.scanAttributes ty) ↔ recordTarget db rep.ip van.net rep.device ≠ some r ∧
        (unmarshalScanAttributes r.scanAttributes).isSome := by
  by_cases hhit : recordTarget db rep.ip van.net rep.device = some r
  · have hmem :
      recordRow rep.device recorded r ∈ (recordDevice db recorded rep.ip van.net rep.device).rows :=
      recordDevice_hit hhit
    refine ⟨?_, fun h => absurd hhit h.1⟩
    rintro ⟨r', hr', hr'id, hc'⟩
    exact absurd hc' (bridge_drops_verdict rfl hmem htarget.symm hrep (.inr (recordRow_source ..))
      hweak hother hr' hr'id)
  · have hmem : r ∈ (recordDevice db recorded rep.ip van.net rep.device).rows :=
      recordDevice_keep hr fun t ht he => hhit (by rw [ht, Db.eq_of_id hr (recordTarget_mem ht) he])
    constructor
    · rintro ⟨r', hr', hr'id, hc'⟩
      refine ⟨hhit, ?_⟩
      by_contra hundec
      have hblind : unmarshalScanAttributes r.scanAttributes = none := by simpa using hundec
      exact bridge_drops_verdict rfl hmem htarget.symm hrep (.inl hblind) hweak hother hr' hr'id hc'
    · rintro ⟨-, hdec⟩
      exact bridge_keeps_verdict rfl hmem htarget.symm hrep hc hne hother hweak hdec

/-- A switch that a protocol identified. -/
def identified : Db :=
  (localScan Db.empty 100 100 "u1" (sighting "00:11:22:33:44:55" "10.0.0.1") { net := some 1 }).db

/-- A guess about the device behind a MAC; the MAC comes from the evidence or from a field. -/
def guessed (mac evidence ip : String) : HostReport where
  ip := ip
  evidence := [{ kind := "mac", rawData := some (KeyMap.empty.set "mac" evidence) }]
  device :=
    { fields := ((KeyMap.empty.set "inferred_type" "router").set "inferred_type_source"
        "heuristic").set "mac" mac }

/-- A guess about the switch at another address, and one at its own. -/
def guessedElsewhere : HostReport := guessed "" "00:11:22:33:44:55" "10.0.0.2"

def guessedAtHome : HostReport := guessed "00:11:22:33:44:55" "" "10.0.0.1"

theorem guess_elsewhere_keeps_verdict :
    ∃ r ∈ identified.rows, CarriesVerdict r.scanAttributes "switch" ∧
      ∃ r' ∈ (localScan identified 200 200 "u2" guessedElsewhere { net := some 1 }).db.rows,
        r'.id = r.id ∧ CarriesVerdict r'.scanAttributes "switch" := by
  obtain ⟨r, hr, hc, htarget, hrep, hmiss, hdec⟩ :
    ∃ r ∈ identified.rows, CarriesVerdict r.scanAttributes "switch" ∧
      (resolveDeviceIdentity (recordDevice identified 200 "10.0.0.2" (some 1)
        guessedElsewhere.device) 200 (reportMAC guessedElsewhere) "10.0.0.2"
          (some 1)).targetId = r.id ∧
      (resolveDeviceIdentity (recordDevice identified 200 "10.0.0.2" (some 1)
        guessedElsewhere.device) 200 (reportMAC guessedElsewhere) "10.0.0.2"
          (some 1)).replacedId = 0 ∧
      recordTarget identified "10.0.0.2" (some 1) guessedElsewhere.device ≠ some r ∧
      (unmarshalScanAttributes r.scanAttributes).isSome := by
    decide +kernel
  exact ⟨r, hr, hc,
    (localScan_keeps_verdict_iff hr hc (by decide) (by decide) htarget hrep (by decide +kernel)).mpr
    ⟨hmiss, hdec⟩⟩

/-- A guess at the address of the switch: the enrichment has already dropped the stored verdict. -/
theorem guess_displaces_verdict :
    ∃ r ∈ identified.rows, CarriesVerdict r.scanAttributes "switch" ∧
      (inferType guessedAtHome).2 ≠ "protocol" ∧
      (resolveDeviceIdentity (recordDevice identified 200 "10.0.0.1" (some 1)
        guessedAtHome.device) 200 "00:11:22:33:44:55" "10.0.0.1" (some 1)) =
        { targetId := r.id } ∧
      ∀ r' ∈ (localScan identified 200 200 "u2" guessedAtHome { net := some 1 }).db.rows,
        r'.id = r.id → ¬ CarriesVerdict r'.scanAttributes "switch" := by
  decide +kernel

end Steward
