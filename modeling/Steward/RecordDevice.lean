import Steward.Devices

/-!
# Enrichment writers

`RecordDevice` and `EnrichDeviceByMAC` write scan data into rows that exist.
Each finds its row by a rule of its own, and each stores a whole new
`scan_attributes` document.
-/

namespace Steward

open JsonValue

/-- The keys of a device reference that have columns of their own. -/
def columnKeys : List String :=
  ["open_ports", "detected_services", "prometheus_url", "node_exporter_url"]

variable (d : DeviceRef)

def extraFields : Fields := d.fields.filter fun k _ => !columnKeys.contains k

/-- The service columns of a reference; an absent list is the empty one. -/
def listColumn (k : String) : String :=
  let v := Fields.get d.fields k
  if v = "" then "[]" else v

/-- Entries decoded from the text of a column, none when it does not decode. -/
def decodeEntries {ε : Type} (item : Shape) (decode : Json → ε) (text : String) : List ε :=
  if text = "" ∨ text = "[]" then []
  else
    match parse text with
    | some (.arr items) => if (Shape.list item).accepts (.arr items) then items.map decode else []
    | _ => []

/-- Keys of the fields that do not land under extras. -/
def storeKnownKeys : List String :=
  ["inferred_type", "inferred_brand", "inferred_description", "os_type", "os_version",
    "kernel_version",
    "firmware_version", "node_hostname", "sys_name", "mac", "oui_prefix", "oui_vendor",
      "memory_total_bytes",
    "cpu_count", "uptime_seconds", "inferred_location"]

/-- `firstPlausibleHostnameStore`. -/
def firstPlausibleHostname (values : List String) : String :=
  (values.find? plausibleHostname).getD ""

/-- `buildStoreScanAttributes`. -/
def buildStoreScanAttributes : ScanAttributes :=
  let extra := extraFields d
  let get := Fields.get extra
  let promURL := Fields.get d.fields "prometheus_url"
  let neURL := Fields.get d.fields "node_exporter_url"
  { scanSource := "scanner_v2"
    inferredType := d.type
    vendor := if d.brand = "" then get "inferred_brand" else d.brand
    ouiPrefix := get "oui_prefix"
    ouiVendor := get "oui_vendor"
    inferredDescription := get "inferred_description"
    os := get "os_type"
    osVersion := get "os_version"
    kernelVersion := get "kernel_version"
    firmwareVersion := get "firmware_version"
    hostname := firstPlausibleHostname [get "node_hostname", get "sys_name"]
    mac := get "mac"
    memoryTotalBytes := positiveInt (get "memory_total_bytes")
    cpuCount := positiveInt (get "cpu_count")
    uptimeSeconds := positiveInt (get "uptime_seconds")
    openPorts := decodeEntries openPortShape OpenPortEntry.decode (listColumn d "open_ports")
    detectedServices :=
      decodeEntries serviceShape ServiceEntry.decode (listColumn d "detected_services")
    prometheus :=
      if promURL ≠ "" ∨ neURL ≠ "" then some { url := promURL, nodeExporterUrl := neURL } else none
    extras := (extra.filter fun k v => !storeKnownKeys.contains k && v ≠ "").entries }

/-- The MAC that `RecordDevice` keys on. -/
def recordMAC : String := normalizeMAC (Fields.get (extraFields d) "mac")

theorem recordMAC_eq : recordMAC d = normalizeMAC (Fields.get d.fields "mac") := by
  unfold recordMAC extraFields Fields.get
  rw [KeyMap.get?_filter d.fields (fun k => !columnKeys.contains k) "mac" (by decide)]

/-- The reported MAC is the one `RecordDevice` keys on, unless that is empty. -/
theorem recordMAC_cases (rep : HostReport) : recordMAC rep.device = "" ∨
    recordMAC rep.device = reportMAC rep := by
  rw [recordMAC_eq]
  by_cases h : normalizeMAC (Fields.get rep.device.fields "mac") = ""
  · exact .inl h
  · exact .inr (reportMAC_of_field rep h).symm

/-- The row `RecordDevice` enriches: the first with the MAC, else the one at the address. -/
def recordTarget (db : Db) (ip : String) (net : Option Nat) (d : DeviceRef) : Option DeviceRow :=
  if recordMAC d ≠ "" then
    match db.rowByMAC (recordMAC d) with
    | some r => some r
    | none => db.slotHolder ip net
  else db.slotHolder ip net

variable (now : Nat) (r : DeviceRow)

/-- The enrichment of the matched row. -/
def recordRow : DeviceRow :=
  { r with
    brand := if d.brand ≠ "" then d.brand else r.brand
    model := if d.model ≠ "" then d.model else r.model
    macAddress := if recordMAC d ≠ "" ∧ r.macAddress = "" then recordMAC d else r.macAddress
    openPorts := listColumn d "open_ports"
    detectedServices := listColumn d "detected_services"
    prometheusUrl := Fields.get d.fields "prometheus_url"
    nodeExporterUrl := Fields.get d.fields "node_exporter_url"
    scanAttributes := marshalScanAttributes (buildStoreScanAttributes d)
    lastSeen := some now
    lastScannedAt := some now
    updatedAt := now }

theorem recordRow_samePlace :
    (recordRow d now r).SamePlace r :=
  ⟨rfl, rfl, rfl, rfl⟩

theorem recordRow_macAddress :
    (recordRow d now r).macAddress = if recordMAC d ≠ "" ∧ r.macAddress = "" then recordMAC d
      else r.macAddress := by
  simp only [recordRow]

/-- `RecordDevice` of a repository whose own network is `net`. -/
@[irreducible] def recordDevice (db : Db) (now : Nat) (ip : String) (net : Option Nat)
    (d : DeviceRef) : Db :=
  match recordTarget db ip net d with
  | none => db
  | some r => db.modify r.id (recordRow d now) (recordRow_samePlace d now)

variable {db : Db} {ip : String} {net : Option Nat} {d : DeviceRef} {r : DeviceRow}

/-- What `recordTarget` selects, in terms of the rows. -/
theorem recordTarget_eq_some (h : recordTarget db ip net d = some r) :
    (recordMAC d ≠ "" ∧ db.rowByMAC (recordMAC d) = some r) ∨
      ((recordMAC d = "" ∨ ∀ s ∈ db.rows, s.macAddress ≠ recordMAC d) ∧
        db.slotHolder ip net = some r) := by
  unfold recordTarget at h
  split at h
  · next hm =>
    cases hr : db.rowByMAC (recordMAC d) with
    | some s =>
      rw [hr] at h
      cases h
      exact .inl ⟨hm, rfl⟩
    | none =>
      rw [hr] at h
      exact .inr ⟨.inr (Db.rowByMAC_eq_none.mp hr), h⟩
  · next hm => exact .inr ⟨.inl (by simpa using hm), h⟩

theorem recordTarget_mem (h : recordTarget db ip net d = some r) : r ∈ db.rows := by
  rcases recordTarget_eq_some h with ⟨-, hr⟩ | ⟨-, hr⟩
  · exact (Db.rowByMAC_eq_some.mp hr).1
  · exact (Db.slotHolder_eq_some.mp hr).1

/-- Keys of an enrichment that do not land under extras. -/
def enrichKnownKeys : List String :=
  ["vendor", "model", "type", "hostname", "sys_name", "mac", "oui_prefix", "oui_vendor"]

variable (fields : Fields)

def unknownFields : Fields :=
  fields.filter fun k v => !enrichKnownKeys.contains k && v ≠ ""

/-- The document after an enrichment: unknown keys go through the record and back. -/
def enrichDocument (doc : Json) : Json :=
  if (unknownFields fields).entries = [] then doc
  else
    let attrs := (unmarshalScanAttributes doc).getD {}
    marshalScanAttributes
      { attrs with
        extras := (unknownFields fields).entries.foldl (fun ex e => Assoc.set ex e.1 e.2)
          attrs.extras }

def enrichRow (now : Nat) (r : DeviceRow) : DeviceRow :=
  let get := Fields.get fields
  let name := if get "hostname" = "" then get "sys_name" else get "hostname"
  { r with
    brand := if get "vendor" ≠ "" then get "vendor" else r.brand
    model := if get "model" ≠ "" then get "model" else r.model
    name := if name ≠ "" then name else r.name
    scanAttributes := enrichDocument fields r.scanAttributes
    updatedAt := now }

theorem enrichRow_samePlace (now : Nat) (r : DeviceRow) :
    (enrichRow fields now r).SamePlace r :=
  ⟨rfl, rfl, rfl, rfl⟩

/-- The row `EnrichDeviceByMAC` writes to. -/
def enrichTarget (db : Db) (mac : String) (fields : Fields) : Option DeviceRow :=
  if normalizeMAC mac = "" ∨ fields.entries = [] then none else db.rowByMAC (normalizeMAC mac)

/-- `EnrichDeviceByMAC`. -/
@[irreducible] def enrichDeviceByMAC (db : Db) (now : Nat) (mac : String) (fields : Fields) : Db :=
  match enrichTarget db mac fields with
  | none => db
  | some r => db.modify r.id (enrichRow fields now) (enrichRow_samePlace fields now)

end Steward
