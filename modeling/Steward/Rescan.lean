import Steward.Stickiness

/-!
# Scanning twice

A second scan with the same report finds its row as the first one left it and
changes only the status and the timestamps. The columns that are filled while
empty, kept while the report is silent or healed are settled after one scan, and
so is the merged document.
-/

namespace Steward

open JsonValue RowTable

/-! ## Documents that settle -/

section Fields

variable {v : Json} {s : String}

theorem textField_some (h : textField s = some v) : v = .str s := by
  unfold textField at h
  split at h <;> cases h
  rfl

theorem textField_settles (h : textField s = some v) : v.Settles := by
  cases textField_some h
  exact .of_not_obj (by simp) (by simp)

variable {n : Int} {b : Bool} {items : List Json}

theorem intField_some (h : intField n = some v) : v = .num n := by
  unfold intField at h
  split at h <;> cases h
  rfl

theorem flagField_some (h : flagField b = some v) : v = .bool true := by
  unfold flagField at h
  split at h <;> cases h
  rfl

theorem listField_some (h : listField items = some v) : v = .arr items := by
  unfold listField at h
  split at h <;> cases h
  rfl

theorem textField_accepts (h : textField s = some v) : Shape.text.accepts v = true := by
  cases textField_some h
  rfl

theorem textField_keeps (h : textField s = some v) : v ≠ .null ∧ Shape.text.Keeps v := by
  cases textField_some h
  exact ⟨by simp, .of_not_obj rfl (by simp)⟩

/-- The range of Go's integers. -/
def Fits64 (n : Int) : Prop := -2 ^ 63 ≤ n ∧ n < 2 ^ 63

theorem intField_keeps (hn : Fits64 n) (h : intField n = some v) :
    v ≠ .null ∧ Shape.int.Keeps v := by
  cases intField_some h
  refine ⟨by simp, .of_not_obj ?_ (by simp)⟩
  simp only [Shape.accepts, Bool.and_eq_true, decide_eq_true_eq]
  exact hn

theorem flagField_keeps (h : flagField b = some v) : v ≠ .null ∧ Shape.flag.Keeps v := by
  cases flagField_some h
  exact ⟨by simp, .of_not_obj rfl (by simp)⟩

theorem listField_keeps {s : Shape} (hi : ∀ x ∈ items, s.accepts x = true)
    (h : listField items = some v) : v ≠ .null ∧ (Shape.list s).Keeps v := by
  cases listField_some h
  refine ⟨by simp, .of_not_obj ?_ (by simp)⟩
  simpa only [Shape.accepts, List.all_eq_true] using hi

end Fields

/-- A record without what only local probes fill, with numbers that Go can hold. -/
structure ScanAttributes.Plain (s : ScanAttributes) : Prop where
  snmp : s.snmp = none
  stp : s.stp = none
  extras : s.extras = []
  labels : ∀ p ∈ s.prometheus, p.labels = []
  cpuCount : Fits64 s.cpuCount
  memoryTotalBytes : Fits64 s.memoryTotalBytes
  uptimeSeconds : Fits64 s.uptimeSeconds
  ttl : Fits64 s.ttl
  lastScanRttMs : Fits64 s.lastScanRttMs
  openPorts : s.openPorts = []
  services : ∀ e ∈ s.detectedServices, Fits64 e.port
  hostname : s.hostname = "" ∨ plausibleHostname s.hostname = true

namespace ScanAttributes.Plain

variable {s : ScanAttributes} {p : PrometheusInfo}

theorem prometheus_settles (h : p.labels = []) : p.encode.Settles := by
  refine .present (by simp) ?_
  simp only [List.forall_mem_cons, h]
  refine ⟨fun _ => textField_settles, fun _ => textField_settles, ?_, by simp⟩
  intro v hv
  cases hv

theorem prometheus_keeps (h : p.labels = []) : prometheusShape.Keeps p.encode := by
  refine Shape.Keeps.present (by simp) ?_
  rw [h]
  refine .cons ⟨rfl, fun _ => textField_keeps⟩ (.cons ⟨rfl, fun _ => textField_keeps⟩
    (.cons ⟨rfl, ?_⟩ .nil))
  intro v hv
  cases hv

theorem fields_settle (h : s.Plain) : ∀ f ∈ s.fields, ∀ v, f.2 = some v → v.Settles := by
  have hprom : ∀ v, s.prometheus.map PrometheusInfo.encode = some v → v.Settles := by
    intro v hv
    obtain ⟨p, hp, rfl⟩ := Option.map_eq_some_iff.mp hv
    exact prometheus_settles (h.labels p hp)
  simp only [fields, List.forall_mem_cons, h.snmp, h.stp, h.extras]
  refine ⟨?_, ?_, ?_, ?_, ?_, ?_, ?_, ?_, ?_, ?_, ?_, ?_, ?_, ?_, ?_, ?_, ?_, ?_, ?_, ?_, ?_, ?_,
    ?_, ?_, ?_, ?_, ?_, hprom, ?_, by simp⟩
  all_goals
    intro v hv
    first
      | cases textField_some hv
      | cases intField_some hv
      | cases flagField_some hv
      | cases listField_some hv
      | cases hv
    all_goals exact .of_not_obj (by simp) (by simp)

theorem service_accepts {e : ServiceEntry} (h : Fits64 e.port) :
    serviceShape.accepts e.encode = true := by
  have hn : ([("port", some (Json.num e.port)), ("name", some (.str e.name)),
      ("protocol", textField e.protocol), ("version", textField e.version)].map
        Prod.fst).Nodup := by simp
  refine Shape.acceptsFields_iff.mpr ?_
  simp only [List.forall_mem_cons, lookup_present _ hn]
  refine ⟨?_, ?_, fun _ => textField_accepts, fun _ => textField_accepts, by simp⟩
  · rintro v ⟨⟩
    simp only [Shape.accepts, Bool.and_eq_true, decide_eq_true_eq]
    exact h
  · rintro v ⟨⟩
    rfl

theorem keeps (h : s.Plain) : ScanAttributes.shape.Keeps (marshalScanAttributes s) := by
  have hprom : ∀ v, s.prometheus.map PrometheusInfo.encode = some v →
      v ≠ .null ∧ prometheusShape.Keeps v := by
    intro v hv
    obtain ⟨p, hp, rfl⟩ := Option.map_eq_some_iff.mp hv
    exact ⟨by simp [PrometheusInfo.encode], prometheus_keeps (h.labels p hp)⟩
  have hservices : ∀ x ∈ s.detectedServices.map ServiceEntry.encode,
      serviceShape.accepts x = true := by
    intro x hx
    obtain ⟨e, he, rfl⟩ := List.mem_map.mp hx
    exact service_accepts (h.services e he)
  refine Shape.Keeps.present s.fields_nodup ?_
  simp only [fields, h.snmp, h.stp, h.extras, h.openPorts]
  repeat
    first
      | exact .nil
      | refine .cons ⟨rfl, ?_⟩ ?_
        · first
            | exact fun _ => textField_keeps
            | exact fun _ => flagField_keeps
            | exact fun _ => intField_keeps h.cpuCount
            | exact fun _ => intField_keeps h.memoryTotalBytes
            | exact fun _ => intField_keeps h.uptimeSeconds
            | exact fun _ => intField_keeps h.ttl
            | exact fun _ => intField_keeps h.lastScanRttMs
            | exact fun _ => listField_keeps hservices
            | exact hprom
            | rintro v ⟨⟩

end ScanAttributes.Plain

/-! ## The columns of a scan -/

/-- The columns that a scan writes, apart from the MAC, the status and the timestamps. -/
structure Scanned where
  name : String
  type : DeviceType
  brand : String
  model : String
  description : String
  location : String
  openPorts : String
  detectedServices : String
  prometheusUrl : String
  nodeExporterUrl : String
  scanAttributes : Json
  lastScanRttMs : Int

def DeviceRow.scan (r : DeviceRow) : Scanned where
  name := r.name
  type := r.type
  brand := r.brand
  model := r.model
  description := r.description
  location := r.location
  openPorts := r.openPorts
  detectedServices := r.detectedServices
  prometheusUrl := r.prometheusUrl
  nodeExporterUrl := r.nodeExporterUrl
  scanAttributes := r.scanAttributes
  lastScanRttMs := r.lastScanRttMs

variable (w : IdentityWrite)

def healedBrand (b : String) : String :=
  if Text.asciiLower b ≠ Text.asciiLower w.brand ∧
      (webServerBrandNames.contains (Text.asciiLower b) ∨ hasLetter b = false) then w.brand
  else b

def healedName (n : String) : String :=
  if n ≠ "" ∧ n ≠ w.ip ∧ plausibleHostname n = false then
    if plausibleHostname w.name then w.name else w.ip
  else n

def strippedDocument (doc : Json) : Json :=
  match doc.getStr "hostname" with
  | some h =>
    if plausibleHostname h then doc else .obj (Assoc.erase doc.members "hostname")
  | none => doc

/-- What the statements of a rescan do to the scanned columns of a row at `ip`. -/
def Scanned.rescan (ip : String) (c : Scanned) : Scanned :=
  match if c.type = .other ∧ w.type ≠ "" then DeviceType.ofText w.type else some c.type with
  | none =>
    { c with
      name := healedName w c.name
      brand := healedBrand w c.brand
      scanAttributes := strippedDocument c.scanAttributes }
  | some t =>
    { name := healedName w (if c.name = "" ∨ c.name = ip then w.name else c.name)
      type := t
      brand := healedBrand w (fillWhenEmpty c.brand w.brand)
      model := fillWhenEmpty c.model w.model
      description := fillWhenEmpty c.description w.description
      location := fillWhenEmpty c.location w.location
      openPorts := keepWhenEmpty c.openPorts w.openPortsJSON
      detectedServices := keepWhenEmpty c.detectedServices w.detectedServicesJSON
      prometheusUrl := keepWhenEmpty c.prometheusUrl w.prometheusURL
      nodeExporterUrl := keepWhenEmpty c.nodeExporterUrl w.nodeExporterURL
      scanAttributes := strippedDocument (mergePatch c.scanAttributes w.scanAttributes)
      lastScanRttMs := w.rttMs }

variable (now : Nat) (r : DeviceRow)

theorem scan_stripHostname : (stripHostname now r).scan =
    { r.scan with scanAttributes := strippedDocument r.scanAttributes } := by
  cases h : r.scanAttributes.getStr "hostname" with
  | none =>
    simp only [stripHostname, strippedDocument, h]
    rfl
  | some n =>
    simp only [stripHostname, strippedDocument, h]
    split <;> rfl

theorem scan_healName :
    (healName w now r).scan = { r.scan with name := healedName w r.name } := by
  unfold healName healedName
  split <;> rfl

theorem scan_healBrand :
    (healBrand w now r).scan = { r.scan with brand := healedBrand w r.brand } := by
  unfold healBrand healedBrand
  split <;> rfl

variable {w : IdentityWrite} {ip : String} {rep : HostReport} {v : String × String} {doc : Json}
  {net : Option Nat}

theorem scan_heals (w : IdentityWrite) (now : Nat) (r : DeviceRow) :
    (stripHostname now (healName w now (healBrand w now r))).scan =
      { r.scan with
        name := healedName w r.name
        brand := healedBrand w r.brand
        scanAttributes := strippedDocument r.scanAttributes } := by
  have hname : (healBrand w now r).name = r.name := congrArg Scanned.name (scan_healBrand w now r)
  rw [scan_stripHostname, scan_healName, healName_document, healBrand_document, scan_healBrand,
    hname]

theorem scan_refresh (hrep : w.replacedId = 0) (now : Nat) (r : DeviceRow) :
    (refresh w now r).scan = r.scan.rescan w r.ipAddress := by
  unfold refresh
  rw [if_neg (by simp [hrep]), scan_heals]
  have htype : r.scan.type = r.type := rfl
  cases ht : (if r.type = .other ∧ w.type ≠ "" then DeviceType.ofText w.type else some r.type) with
  | none =>
    simp only [existingIdentityUpdate, Scanned.rescan, htype, ht]
    rfl
  | some t =>
    simp only [existingIdentityUpdate, Scanned.rescan, htype, ht]
    rfl

/-! ## Settled columns -/

theorem fillWhenEmpty_self (x : String) : fillWhenEmpty x x = x := by
  unfold fillWhenEmpty
  split <;> rfl

theorem fillWhenEmpty_twice (old new : String) :
    fillWhenEmpty (fillWhenEmpty old new) new = fillWhenEmpty old new := by
  unfold fillWhenEmpty
  by_cases h : (old = "" ∨ old = "unknown") ∧ new ≠ "" <;> simp [h]

theorem keepWhenEmpty_twice (old new : String) :
    keepWhenEmpty (keepWhenEmpty old new) new = keepWhenEmpty old new := by
  unfold keepWhenEmpty
  split <;> rfl

variable (w)

theorem healedBrand_self : healedBrand w w.brand = w.brand := by
  simp [healedBrand]

theorem healedBrand_twice (b : String) :
    healedBrand w (healedBrand w b) = healedBrand w b := by
  by_cases h : Text.asciiLower b ≠ Text.asciiLower w.brand ∧
      (webServerBrandNames.contains (Text.asciiLower b) ∨ hasLetter b = false)
  · rw [show healedBrand w b = w.brand from if_pos h, healedBrand_self]
  · rw [show healedBrand w b = b from if_neg h, show healedBrand w b = b from if_neg h]

theorem brand_twice (b : String) :
    healedBrand w (fillWhenEmpty (healedBrand w (fillWhenEmpty b w.brand)) w.brand) =
      healedBrand w (fillWhenEmpty b w.brand) := by
  by_cases h : healedBrand w (fillWhenEmpty b w.brand) = w.brand
  · rw [h, fillWhenEmpty_self, healedBrand_self]
  · have hkept : healedBrand w (fillWhenEmpty b w.brand) = fillWhenEmpty b w.brand := by
      unfold healedBrand at h ⊢
      split
      · next hc => exact absurd (if_pos hc) h
      · rfl
    rw [hkept, fillWhenEmpty_twice, hkept]

theorem healedName_twice (n : String) :
    healedName w (healedName w n) = healedName w n := by
  by_cases h : n ≠ "" ∧ n ≠ w.ip ∧ plausibleHostname n = false
  · rw [show healedName w n = _ from if_pos h]
    by_cases hw : plausibleHostname w.name = true <;> simp [healedName, hw]
  · rw [show healedName w n = n from if_neg h, show healedName w n = n from if_neg h]

variable {w}

/-- A row that is named after its address takes the name of the report, on every scan. -/
theorem name_twice {n : String} (hw : w.name ≠ "") (hip : ip = w.ip ∨ n ≠ w.ip) :
    let named := healedName w (if n = "" ∨ n = ip then w.name else n)
    healedName w (if named = "" ∨ named = w.ip then w.name else named) = named := by
  intro named
  have hgiven : named = healedName w w.name ∨ (named = healedName w n ∧ n ≠ "" ∧ n ≠ w.ip) := by
    by_cases h : n = "" ∨ n = ip
    · exact .inl (by simp only [named, if_pos h])
    · simp only [not_or] at h
      refine .inr ⟨by simp only [named, if_neg (not_or.mpr h)], h.1, ?_⟩
      rcases hip with rfl | hip
      · exact h.2
      · exact hip
  by_cases hagain : named = "" ∨ named = w.ip
  · rw [if_pos hagain]
    rcases hgiven with h | ⟨h, hn, hnip⟩
    · exact h.symm
    · -- The row had a name of its own, so it was healed just now.
      have hbad : plausibleHostname n = false := by
        by_contra hgood
        have hkept : named = n := by simp [h, healedName, hgood]
        rcases hagain with he | he
        · exact hn (hkept.symm.trans he)
        · exact hnip (hkept.symm.trans he)
      have hhealed : named = if plausibleHostname w.name then w.name else w.ip := by
        rw [h, healedName, if_pos ⟨hn, hnip, hbad⟩]
      by_cases hw' : plausibleHostname w.name = true
      · rw [hhealed, if_pos hw']
        simp [healedName, hw']
      · rw [hhealed, if_neg hw']
        by_cases heq : w.name = w.ip
        · simp [healedName, heq]
        · simp [healedName, hw, heq, hw']
  · rw [if_neg hagain]
    exact healedName_twice w _

variable {t : DeviceType} {c : Scanned} {s : ScanAttributes} {r r' : DeviceRow}

theorem type_twice {c : DeviceType} {new : String}
    (h : (if c = .other ∧ new ≠ "" then DeviceType.ofText new else some c) = some t) :
    (if t = .other ∧ new ≠ "" then DeviceType.ofText new else some t) = some t := by
  by_cases hc : c = .other ∧ new ≠ ""
  · rw [if_pos hc] at h
    split
    · exact h
    · rfl
  · rw [if_neg hc] at h
    cases h
    rw [if_neg hc]

/-- A patch that brings no garbage as the host name. -/
structure CleanPatch (doc : Json) : Prop where
  fields : ∃ ps, doc = .obj ps ∧ (ps.map Prod.fst).Nodup ∧ ∀ m ∈ ps, m.2.Settles
  hostname : doc.get "hostname" = none ∨
    ∃ h, doc.get "hostname" = some (.str h) ∧ plausibleHostname h = true

theorem strippedDocument_cases (doc : Json) :
    strippedDocument doc = doc ∨
      (strippedDocument doc = .obj (Assoc.erase doc.members "hostname") ∧
        ∃ h, doc.getStr "hostname" = some h ∧ plausibleHostname h = false) := by
  cases h : doc.getStr "hostname" with
  | none => exact .inl (by simp only [strippedDocument, h])
  | some n =>
    by_cases hn : plausibleHostname n = true
    · exact .inl (by simp only [strippedDocument, h, hn, if_true])
    · exact .inr ⟨by simp only [strippedDocument, h, if_neg hn], n, rfl, by simpa using hn⟩

theorem strippedDocument_erased (ms : Members) :
    strippedDocument (.obj (Assoc.erase ms "hostname")) = .obj (Assoc.erase ms "hostname") := by
  have hnone : (Json.obj (Assoc.erase ms "hostname")).getStr "hostname" = none := by
    simp only [Json.getStr, Json.get, members_obj, Assoc.lookup_erase_same, Option.bind_none]
  simp only [strippedDocument, hnone]

theorem strippedDocument_twice (doc : Json) :
    strippedDocument (strippedDocument doc) = strippedDocument doc := by
  rcases strippedDocument_cases doc with h | ⟨h, -⟩
  · rw [h, h]
  · rw [h, strippedDocument_erased]

theorem document_twice {patch : Json} (h : CleanPatch patch) (doc : Json) :
    strippedDocument (mergePatch (strippedDocument (mergePatch doc patch)) patch) =
      strippedDocument (mergePatch doc patch) := by
  obtain ⟨ps, rfl, hn, hs⟩ := h.fields
  rcases strippedDocument_cases (mergePatch doc (.obj ps)) with hsame | ⟨hstrip, g, hg, hbad⟩
  · rw [hsame, (Json.Settles.obj hn hs).twice, hsame]
  · -- The garbage name was the row's own: the patch has none, so it stays away.
    have habsent : "hostname" ∉ ps.map Prod.fst := by
      intro hmem
      obtain ⟨m, hm, hk⟩ := List.mem_map.mp hmem
      have hlookup : ps.lookup "hostname" = some m.2 :=
        Assoc.lookup_of_mem hn (by rw [← hk]; exact hm)
      rcases h.hostname with hnone | ⟨n, hsome, hgood⟩
      · exact absurd (hlookup.symm.trans hnone) (by simp)
      · have hmerged := get_mergePatch_str doc ps "hostname" n hn hsome
        rw [Json.getStr, hmerged] at hg
        cases hg
        rw [hgood] at hbad
        cases hbad
    have habsorbs : Absorbs (Assoc.erase (mergeMembers doc.members ps) "hostname") ps :=
      (absorbs_merged hn hs doc.members).erase habsent
    rw [hstrip]
    simp only [mergePatch, members_obj]
    rw [mergeMembers_of_absorbs habsorbs, strippedDocument_erased]

/-- After one scan the next with the same write changes nothing. -/
theorem Scanned.rescan_twice (hdoc : CleanPatch w.scanAttributes) (hname : w.name ≠ "")
    (hip : ip = w.ip ∨ c.name ≠ w.ip) : (c.rescan w ip).rescan w w.ip = c.rescan w ip := by
  cases ht : (if c.type = .other ∧ w.type ≠ "" then DeviceType.ofText w.type else some c.type) with
  | none =>
    simp only [rescan, ht, healedName_twice, healedBrand_twice, strippedDocument_twice]
  | some t =>
    have hname := name_twice hname hip
    simp only [rescan, ht, type_twice ht, brand_twice, fillWhenEmpty_twice, keepWhenEmpty_twice,
      document_twice hdoc, hname]

/-! ## The verdict of the next scan -/

/-- A report whose document is plain and whose name is an address or a plausible one. -/
structure HostReport.Regular (rep : HostReport) : Prop where
  located : carriesNoLocation rep.ip = false
  plain : ∀ v, (buildScanAttributes (stampVerdict rep v)).Plain
  name : ∀ v mac, deviceDisplayName (stampVerdict rep v) mac = rep.ip ∨
    plausibleHostname (deviceDisplayName (stampVerdict rep v) mac) = true

theorem HostReport.Regular.ip_ne (h : rep.Regular) : rep.ip ≠ "" := by
  intro he
  have hloc := h.located
  rw [he] at hloc
  revert hloc
  decide

/-- The write of a scan with the verdict `v`, apart from the resolution. -/
def scanWrite (rep : HostReport) (net : Option Nat) (v : String × String) : IdentityWrite :=
  buildIdentityWrite (stampVerdict rep v) (reportMAC rep) v.1 net

/-- The verdict that a scan of row `r` stores. -/
def rescanVerdict (rep : HostReport) (r : DeviceRow) : String × String :=
  applyTypeStickiness r.scanAttributes (inferType rep)

theorem ScanAttributes.Plain.clean (h : s.Plain) : CleanPatch (marshalScanAttributes s) where
  fields := by
    refine ⟨present s.fields, rfl, present_nodup s.fields s.fields_nodup, ?_⟩
    exact fun m hm => h.fields_settle _ (mem_present.mp hm) m.2 rfl
  hostname := by
    rw [get_marshal, show (s.fields.lookup "hostname").join = textField s.hostname from rfl,
      textField]
    rcases h.hostname with he | hgood
    · exact .inl (by rw [if_pos he])
    · by_cases he : s.hostname = ""
      · exact .inl (by rw [if_pos he])
      · exact .inr ⟨s.hostname, by rw [if_neg he], hgood⟩

section Verdict

variable (rep : HostReport) (net : Option Nat) (v : String × String)

theorem scanWrite_document : (scanWrite rep net v).scanAttributes =
    marshalScanAttributes (buildScanAttributes (stampVerdict rep v)) := by
  simp only [scanWrite, buildIdentityWrite]

theorem scanWrite_name : (scanWrite rep net v).name =
    deviceDisplayName (stampVerdict rep v) (reportMAC rep) := by
  simp only [scanWrite, buildIdentityWrite]

variable {rep} in
theorem scanWrite_name_ne (h : rep.Regular) : (scanWrite rep net v).name ≠ "" := by
  rw [scanWrite_name]
  rcases h.name v (reportMAC rep) with heq | hgood
  · rw [heq]
    exact h.ip_ne
  · intro he
    rw [he] at hgood
    cases hgood

theorem scanWrite_verdict :
    (scanWrite rep net v).scanAttributes.get "inferred_type" = textField v.1 ∧
      (scanWrite rep net v).scanAttributes.get "inferred_type_source" = textField v.2 := by
  have hv : verdict (buildScanAttributes (stampVerdict rep v)) = v := by
    rw [verdict_buildScanAttributes]
    simp [stampVerdict, HostReport.field_setField]
  rw [scanWrite_document, ScanAttributes.get_inferred_type, ScanAttributes.get_inferred_type_source]
  exact ⟨congrArg (fun p => textField p.1) hv, congrArg (fun p => textField p.2) hv⟩

theorem scanWrite_fromReport : FromReport (scanWrite rep net v) :=
  ⟨stampVerdict rep v, scanWrite_document rep net v⟩

end Verdict

theorem get_of_textOf {k t : String} (h : textOf doc k = t) (hne : t ≠ "") :
    doc.get k = some (.str t) := by
  unfold textOf Json.getStr at h
  cases hg : doc.get k with
  | none =>
    rw [hg] at h
    exact absurd h.symm hne
  | some j =>
    rw [hg] at h
    cases j with
    | str u => rw [← h]; rfl
    | _ => exact absurd h.symm hne

/-- What stickiness decides: a stored protocol verdict wins, or the report does. -/
theorem applyTypeStickiness_cases (doc : Json) (v : String × String) :
    (∃ ty, CarriesVerdict doc ty ∧ ty ≠ "" ∧ ty ≠ "other" ∧ v.2 ≠ "protocol" ∧
        (unmarshalScanAttributes doc).isSome ∧ applyTypeStickiness doc v = (ty, "protocol")) ∨
      applyTypeStickiness doc v = v := by
  cases hs : unmarshalScanAttributes doc with
  | none => exact .inr (by simp only [applyTypeStickiness, hs])
  | some s =>
    by_cases hc : s.inferredTypeSource ≠ "protocol" ∨ s.inferredType = "" ∨ s.inferredType = "other"
    · exact .inr (by simp only [applyTypeStickiness, hs, if_pos hc])
    · by_cases hv : v.2 = "protocol"
      · exact .inr (by simp only [applyTypeStickiness, hs, if_neg hc, if_pos hv])
      · have hd := not_or.mp hc
        have hd' := not_or.mp hd.2
        obtain ⟨htype, hsource⟩ := ScanAttributes.unmarshal_verdict hs
        have hcarries : CarriesVerdict _ s.inferredType :=
          ⟨get_of_textOf htype.symm hd'.1,
            get_of_textOf (hsource.symm.trans (not_not.mp hd.1)) (by decide)⟩
        refine .inl ⟨s.inferredType, hcarries, hd'.1, hd'.2, hv, rfl, ?_⟩
        simp only [applyTypeStickiness, hs, if_neg hc, if_neg hv]

theorem applyTypeStickiness_protocol (doc : Json) (h : v.2 = "protocol") :
    applyTypeStickiness doc v = v :=
  (applyTypeStickiness_cases doc v).resolve_left fun ⟨_, _, _, _, hv, _⟩ => hv h

/-- A document without a protocol's verdict yields to the report. -/
theorem applyTypeStickiness_weak (h : ∀ ty, ty ≠ "other" → ¬ CarriesVerdict doc ty) :
    applyTypeStickiness doc v = v :=
  (applyTypeStickiness_cases doc v).resolve_left fun ⟨ty, hc, _, hother, _⟩ => h ty hother hc

theorem accepts_stripped (h : ScanAttributes.shape.accepts doc = true) :
    ScanAttributes.shape.accepts (strippedDocument doc) = true := by
  rcases strippedDocument_cases doc with hs | ⟨hs, -⟩
  · rwa [hs]
  · rw [hs]
    have hold := Shape.acceptsFields_iff.mp (Shape.accepts_record h)
    refine Shape.acceptsFields_iff.mpr ?_
    intro f hf v hv
    by_cases hk : f.1 = "hostname"
    · rw [hk, Assoc.lookup_erase_same] at hv
      cases hv
    · rw [Assoc.lookup_erase _ _ _ hk] at hv
      exact hold f hf v hv

/-- A scan leaves a document that decodes decodable. -/
theorem rescan_decodes (hrep : rep.Regular)
    (h : (unmarshalScanAttributes c.scanAttributes).isSome) :
    (unmarshalScanAttributes (c.rescan (scanWrite rep net v) ip).scanAttributes).isSome := by
  have hold : ScanAttributes.shape.accepts c.scanAttributes = true := by
    by_contra hno
    simp [unmarshalScanAttributes, hno] at h
  have hnew : ScanAttributes.shape.accepts (c.rescan (scanWrite rep net v) ip).scanAttributes =
      true := by
    unfold Scanned.rescan
    split
    · exact accepts_stripped hold
    · exact accepts_stripped ((hrep.plain v).keeps _ hold)
  simp [unmarshalScanAttributes, hnew]

/-- The next scan comes to the verdict that this one stored. -/
theorem rescanVerdict_stays (hrep : rep.Regular) (hdoc : r'.scanAttributes =
      (r.scan.rescan (scanWrite rep net (rescanVerdict rep r)) r.ipAddress).scanAttributes) :
    rescanVerdict rep r' = rescanVerdict rep r := by
  have hrefresh : (refresh (scanWrite rep net (rescanVerdict rep r)) 0 r).scanAttributes =
      r'.scanAttributes := by
    rw [hdoc, ← scan_refresh (rfl : (scanWrite rep net (rescanVerdict rep r)).replacedId = 0) 0 r]
    rfl
  obtain ⟨htype, hsource⟩ := scanWrite_verdict rep net (rescanVerdict rep r)
  rcases applyTypeStickiness_cases r.scanAttributes (inferType rep) with
    ⟨ty, hc, hne, hother, hweak, hdec, hv⟩ | hv
  · have hv' : rescanVerdict rep r = (ty, "protocol") := hv
    rw [hv'] at htype hsource hrefresh
    have hcarries : CarriesVerdict (refresh (scanWrite rep net (ty, "protocol")) 0 r).scanAttributes
        ty := carries_of_sticky (scanWrite_fromReport ..) hne htype hsource hc
    rw [hrefresh] at hcarries
    have hdec' : (unmarshalScanAttributes r'.scanAttributes).isSome := by
      rw [hdoc]
      exact rescan_decodes hrep hdec
    rw [hv', rescanVerdict, applyTypeStickiness_stored hcarries hne hother hweak hdec']
  · have hv' : rescanVerdict rep r = inferType rep := hv
    rw [hv'] at htype hsource hrefresh
    rw [hv', rescanVerdict]
    by_cases hp : (inferType rep).2 = "protocol"
    · exact applyTypeStickiness_protocol _ hp
    · refine applyTypeStickiness_weak fun ty hty => ?_
      rw [← hrefresh]
      exact not_carries_of_weak (scanWrite_fromReport ..) htype hsource rfl (inferType_settled rep)
        hp hty

/-! ## Rows that stay -/

/-- A scan of the row with the report writes what the row has. -/
structure Unchanging (rep : HostReport) (net : Option Nat) (r : DeviceRow) : Prop where
  scan : r.scan.rescan (scanWrite rep net (rescanVerdict rep r)) r.ipAddress = r.scan
  mac : reportMAC rep = "" ∨ r.macAddress ≠ ""

/-- One scan at the reported address makes the row an unchanging one. -/
theorem unchanging_of_scanned (hrep : rep.Regular)
    (hscan : r'.scan = r.scan.rescan (scanWrite rep net (rescanVerdict rep r)) r.ipAddress)
    (hip : r'.ipAddress = rep.ip) (hname : r.ipAddress = rep.ip ∨ r.name ≠ rep.ip)
    (hmac : reportMAC rep = "" ∨ r'.macAddress ≠ "") : Unchanging rep net r' := by
  refine ⟨?_, hmac⟩
  rw [rescanVerdict_stays hrep (congrArg Scanned.scanAttributes hscan), hscan, hip]
  have hdoc : CleanPatch (scanWrite rep net (rescanVerdict rep r)).scanAttributes := by
    exact (hrep.plain _).clean
  exact Scanned.rescan_twice hdoc (scanWrite_name_ne _ _ hrep) hname

variable (x : String)

theorem keepWhenEmpty_created :
    keepWhenEmpty (if x = "" then "[]" else x) x = if x = "" then "[]" else x := by
  by_cases h : x = "" <;> simp [keepWhenEmpty, h]

theorem keepWhenEmpty_self : keepWhenEmpty x x = x := by
  unfold keepWhenEmpty
  split <;> rfl

theorem strippedDocument_clean (h : CleanPatch doc) : strippedDocument doc = doc := by
  rcases h.hostname with hn | ⟨n, hn, hgood⟩
  · simp only [strippedDocument, Json.getStr, hn, Option.bind_none]
  · simp only [strippedDocument, Json.getStr, hn, Option.bind_some, Json.text?, hgood, if_true]

theorem CleanPatch.self (h : CleanPatch doc) : mergePatch doc doc = doc := by
  obtain ⟨ps, rfl, hn, hs⟩ := h.fields
  exact (Json.Settles.obj hn hs).self

theorem healedName_created (hrep : rep.Regular) (net : Option Nat) (v : String × String) :
    healedName (scanWrite rep net v) (scanWrite rep net v).name = (scanWrite rep net v).name := by
  rw [healedName, if_neg]
  rintro ⟨-, hne, hbad⟩
  rcases hrep.name v (reportMAC rep) with heq | hgood
  · exact hne ((scanWrite_name rep net v).trans heq)
  · rw [scanWrite_name, hgood] at hbad
    cases hbad

theorem createdVerdict (rep : HostReport) (net : Option Nat) :
    applyTypeStickiness (scanWrite rep net (inferType rep)).scanAttributes (inferType rep) =
      inferType rep := by
  by_cases hp : (inferType rep).2 = "protocol"
  · exact applyTypeStickiness_protocol _ hp
  · refine applyTypeStickiness_weak fun ty _ hc => hp ?_
    have hsource := (scanWrite_verdict rep net (inferType rep)).2.symm.trans hc.2
    unfold textField at hsource
    split at hsource
    · cases hsource
    · exact Json.str.inj (Option.some.inj hsource)

theorem unchanging_newRow (hrep : rep.Regular) {now : Nat} {uuid : String} {i : Nat}
    (ht : DeviceType.ofText (inferType rep).1 = some t) :
    Unchanging rep net (newRow (createWrite rep net) now uuid t i) := by
  have hverdict : rescanVerdict rep (newRow (createWrite rep net) now uuid t i) = inferType rep :=
    createdVerdict rep net
  have hclean : CleanPatch (scanWrite rep net (inferType rep)).scanAttributes := by
    exact (hrep.plain _).clean
  have hname := healedName_created hrep net (inferType rep)
  have htype : (if t = .other ∧ (scanWrite rep net (inferType rep)).type ≠ "" then
      DeviceType.ofText (scanWrite rep net (inferType rep)).type else some t) = some t := by
    split
    · exact ht
    · rfl
  constructor
  · rw [hverdict]
    have hcreate : createWrite rep net =
        { scanWrite rep net (inferType rep) with isNew := true } := rfl
    rw [hcreate]
    simp only [Scanned.rescan, DeviceRow.scan, newRow, htype, ite_self, hname, fillWhenEmpty_self,
      healedBrand_self, keepWhenEmpty_created, keepWhenEmpty_self, hclean.self,
      strippedDocument_clean hclean]
  · by_cases hmac : reportMAC rep = ""
    · exact .inl hmac
    · exact .inr (by rwa [newRow_macAddress, createWrite_mac])

end Steward
