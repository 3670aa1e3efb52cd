import Mathlib.Data.List.Dedup
import Mathlib.Data.List.Sort
import Steward.ScanAttributes

/-!
# Host reports

The report a scan hands to the device bridge and what the bridge derives from
it before it touches the store: the MAC, the display name, the service columns
and the `scan_attributes` document.
-/

namespace Steward

open JsonValue

abbrev Fields := KeyMap String

/-- Indexing a string map: an absent key reads as the empty text. -/
def Fields.get (f : Fields) (k : String) : String := (KeyMap.get? f k).getD ""

theorem Fields.get_set (f : Fields) (k l v : String) :
    Fields.get (f.set k v) l = if l = k then v else Fields.get f l := by
  unfold Fields.get
  rw [KeyMap.get?_set]
  split <;> rfl

structure Evidence where
  kind : String
  port : Int := 0
  rawData : Option Fields := none
  deriving DecidableEq

structure ServiceIdentity where
  service : String
  port : Int
  protocol : String := ""
  metadata : Option Fields := none
  deriving DecidableEq

structure DeviceRef where
  type : String := ""
  brand : String := ""
  model : String := ""
  fields : Fields
  deriving DecidableEq

structure HostReport where
  ip : String
  rttMs : Int := 0
  evidence : List Evidence := []
  services : List ServiceIdentity := []
  device : DeviceRef
  passive : Bool := false
  deriving DecidableEq

def HostReport.field (rep : HostReport) (k : String) : String := Fields.get rep.device.fields k

def HostReport.setField (rep : HostReport) (k v : String) : HostReport :=
  { rep with device := { rep.device with fields := rep.device.fields.set k v } }

variable (rep : HostReport) (attr : ScanAttributes) (k : String) (e : Evidence)

theorem HostReport.field_setField (l v : String) :
    (rep.setField k v).field l = if l = k then v else rep.field l :=
  Fields.get_set rep.device.fields k l v

@[simp] theorem HostReport.setField_ip (v : String) : (rep.setField k v).ip = rep.ip := rfl

def anchorIPPrefix : String := "#anchor:"

/-- `CarriesNoLocation`: an empty address or an anchor placeholder. -/
def carriesNoLocation (ip : String) : Bool := ip = "" || Text.hasPrefix anchorIPPrefix ip

def isControl (c : Char) : Bool := c.toNat < 32 || (127 ≤ c.toNat && c.toNat ≤ 159)

/-- `PlausibleHostname`: a non-empty text without control characters. -/
def plausibleHostname (s : String) : Bool := s ≠ "" && s.toList.all fun c => !isControl c

/-- `reportMAC`: the enriched field first, then the MAC evidence in order. -/
def reportMAC (rep : HostReport) : String :=
  let m := normalizeMAC (rep.field "mac")
  if m ≠ "" then m
  else
    let candidates := (rep.evidence.filter fun e => e.kind = "mac").map fun e =>
      normalizeMAC (Fields.get (e.rawData.getD .empty) "mac")
    (candidates.find? fun m => m ≠ "").getD ""

theorem reportMAC_of_field (h : normalizeMAC (rep.field "mac") ≠ "") :
    reportMAC rep = normalizeMAC (rep.field "mac") := by
  simp only [reportMAC, if_pos h]

def firstNonEmpty (values : List String) : String := (values.find? fun v => v ≠ "").getD ""

/-- A positive decimal, zero for anything else. -/
def positiveInt (s : String) : Int := ((Text.parseInt s).filter fun v => 0 < v).getD 0

/-- `richerVersion`: a non-empty text beats an empty one, then the longer one wins. -/
def richerVersion (candidate current : String) : Bool :=
  if candidate = "" then false
  else if current = "" then true
  else candidate.utf8ByteSize > current.utf8ByteSize

/-- Keep the richer of two entries with one port and name. -/
def keepRicher (best : List ServiceEntry) (e : ServiceEntry) : List ServiceEntry :=
  match best with
  | [] => [e]
  | b :: rest =>
    if b.port = e.port ∧ b.name = e.name then (if richerVersion e.version b.version then e
      else b) :: rest
    else b :: keepRicher rest e

def serviceEntry (s : ServiceIdentity) : ServiceEntry :=
  ⟨s.port, s.service, s.protocol, Fields.get (s.metadata.getD .empty) "version"⟩

/-- The service that the first classified identity names on a port. -/
def portService (rep : HostReport) (p : Int) : String :=
  match rep.services.find? fun s => s.port = p && s.port > 0 && s.service ≠ "" with
  | some s => s.service
  | none => ""

/-- `serviceArrays`: open ports and detected services, deduplicated and sorted. -/
def serviceArrays (rep : HostReport) : List OpenPortEntry × List ServiceEntry :=
  let ports := (rep.evidence.filter fun e => e.kind = "port_open" && e.port > 0).map Evidence.port
  let openPorts := ports.dedup.insertionSort (· ≤ ·)
  let services := rep.services.foldl (fun best s => keepRicher best (serviceEntry s)) []
  (openPorts.map fun p => ⟨p, portService rep p⟩,
    services.insertionSort fun a b => a.port < b.port ∨ (a.port = b.port ∧ a.name ≤ b.name))

def setExtra (attr : ScanAttributes) (k v : String) : ScanAttributes :=
  { attr with extras := Assoc.set attr.extras k v }

/-- Record a non-empty text under extras. -/
def noteExtra (attr : ScanAttributes) (k v : String) : ScanAttributes :=
  if v ≠ "" then setExtra attr k v else attr

/-- One piece of link-layer or name evidence. -/
def foldHostEvidence (attr : ScanAttributes) (e : Evidence) : ScanAttributes :=
  match e.rawData with
  | none => attr
  | some raw =>
    let get := Fields.get raw
    if e.kind = "mac" then
      let attr := { attr with
        mac := if get "mac" ≠ "" ∧ attr.mac = "" then get "mac" else attr.mac
        vendor := if attr.vendor = "" then get "vendor" else attr.vendor
        ouiPrefix := if get "oui_prefix" ≠ "" then get "oui_prefix" else attr.ouiPrefix
        ouiVendor := if get "oui_vendor" ≠ "" then get "oui_vendor" else attr.ouiVendor }
      noteExtra attr "arp_interface" (get "device")
    else if e.kind = "hostname" then
      { attr with
        hostname :=
          if get "hostname" ≠ "" ∧ attr.hostname = "" then get "hostname" else attr.hostname }
    else attr

def foldStpEvidence (attr : ScanAttributes) (e : Evidence) : ScanAttributes :=
  match e.rawData with
  | none => attr
  | some raw =>
    if e.kind = "stp" then
      { attr with stp := some ⟨Fields.get raw "bridge_mac", Fields.get raw "root_bridge_mac",
          Fields.get raw "is_root" = "true", Fields.get raw "ports"⟩ }
    else attr

/-- The first SNMP evidence fills its record, and uptime and host name where nothing stronger did.
-/
def applySnmp (attr : ScanAttributes) (evidence : List Evidence) : ScanAttributes :=
  match (evidence.filter fun e => e.kind = "snmp").findSome? Evidence.rawData with
  | none => attr
  | some raw =>
    let get := Fields.get raw
    { attr with
      snmp := some ⟨get "sys_descr", get "sys_object_id", get "sys_name", get "sys_location",
        get "sys_contact",
        (Text.parseInt (get "sys_services")).getD 0⟩
      uptimeSeconds := if attr.uptimeSeconds = 0 then positiveInt (get "uptime_seconds")
        else attr.uptimeSeconds
      hostname := if attr.hostname = "" then get "sys_name" else attr.hostname }

def mdnsKeys : List String := ["model", "serial", "vendor", "manufacturer", "md", "ty"]

/-- Discovery detail of one mDNS or SSDP answer. -/
def foldDiscoveryEvidence (attr : ScanAttributes) (e : Evidence) : ScanAttributes :=
  match e.rawData with
  | none => attr
  | some raw =>
    let get := Fields.get raw
    if e.kind = "mdns" then
      mdnsKeys.foldl (fun attr key =>
          if (attr.extras.lookup ("mdns_" ++ key)).getD "" = ""
            then noteExtra attr ("mdns_" ++ key) (get ("txt." ++ key))
          else attr)
        (noteExtra attr "mdns_services" (get "services"))
    else if e.kind = "ssdp" then
      noteExtra (noteExtra (noteExtra attr "ssdp_server" (get "server")) "ssdp_location"
        (get "location"))
        "ssdp_st" (get "st")
    else attr

/-- The part of the document that comes from the device fields alone. -/
def fieldAttributes (rep : HostReport) : ScanAttributes where
  vendor := rep.field "inferred_brand"
  inferredModel := rep.field "inferred_model"
  ouiPrefix := rep.field "oui_prefix"
  ouiVendor := rep.field "oui_vendor"
  inferredType := rep.field "inferred_type"
  inferredTypeSource := rep.field "inferred_type_source"
  inferredDescription := rep.field "inferred_description"
  os := rep.field "os_type"
  osVersion := rep.field "os_version"
  kernelVersion := rep.field "kernel_version"
  firmwareVersion := rep.field "firmware_version"
  hostname := firstNonEmpty [rep.field "node_hostname", rep.field "sys_name"]
  scanSource := "scanner_v2"
  lastScanRttMs := rep.rttMs
  memoryTotalBytes := positiveInt (rep.field "memory_total_bytes")
  cpuCount := positiveInt (rep.field "cpu_count")
  uptimeSeconds := positiveInt (rep.field "uptime_seconds")
  ttl := positiveInt (rep.field "ttl")
  mac := rep.field "mac"
  prometheus :=
    if rep.field "prometheus_url" ≠ "" ∨ rep.field "node_exporter_url" ≠ "" then
      some { url := rep.field "prometheus_url", nodeExporterUrl := rep.field "node_exporter_url" }
    else none

def markMac (attr : ScanAttributes) : ScanAttributes :=
  if attr.mac ≠ "" then
    { attr with
      macIsLocallyAdministered := isLocallyAdministeredMAC attr.mac
      macIsMulticast := isMulticastMAC attr.mac }
  else attr

/-- `buildScanAttributes`: the document the bridge merges into the row. -/
def buildScanAttributes (rep : HostReport) : ScanAttributes :=
  let attr := markMac (rep.evidence.foldl foldHostEvidence (fieldAttributes rep))
  let attr := applySnmp (rep.evidence.foldl foldStpEvidence attr) rep.evidence
  let attr :=
    { attr with openPorts := (serviceArrays rep).1, detectedServices := (serviceArrays rep).2 }
  let attr := noteExtra attr "netbios_workgroup" (rep.field "netbios_workgroup")
  let attr := noteExtra attr "ip_aliases" (rep.field "ip_aliases")
  rep.evidence.foldl foldDiscoveryEvidence attr

/-- `deviceScanInfoJSON`: the texts of the two service columns. -/
def deviceScanInfoJSON (rep : HostReport) : String × String :=
  let (openPorts, services) := serviceArrays rep
  (render (.arr (openPorts.map OpenPortEntry.encode)),
    render (.arr (services.map fun s => ServiceEntry.encode { s with version := "" })))

/-- `deviceDisplayName`: an announced name, else the address when it is one, else the MAC. -/
def deviceDisplayName (rep : HostReport) (mac : String) : String :=
  if rep.field "node_hostname" ≠ "" then rep.field "node_hostname"
  else if rep.field "sys_name" ≠ "" then rep.field "sys_name"
  else if (buildScanAttributes rep).hostname ≠ "" then (buildScanAttributes rep).hostname
  else if !carriesNoLocation rep.ip then rep.ip
  else mac

/-! Evidence never decides the verdict: whatever is folded in, the document
carries the type and the source that stand in the device fields. -/

def verdict (attr : ScanAttributes) : String × String :=
  (attr.inferredType, attr.inferredTypeSource)

theorem foldl_keeps {β γ : Type} {g : ScanAttributes → γ} (f : ScanAttributes → β → ScanAttributes)
    (h : ∀ attr b, g (f attr b) = g attr) (bs : List β) (attr : ScanAttributes) :
    g (bs.foldl f attr) = g attr := by
  induction bs generalizing attr with
  | nil => rfl
  | cons b rest ih => rw [List.foldl_cons, ih, h]

/-- The verdict and the host name, which most of the evidence leaves alone. -/
def headline (attr : ScanAttributes) : (String × String) × String := (verdict attr, attr.hostname)

@[simp] theorem headline_noteExtra (v : String) :
    headline (noteExtra attr k v) = headline attr := by
  unfold noteExtra
  split <;> rfl

theorem verdict_foldHostEvidence : verdict (foldHostEvidence attr e) = verdict attr := by
  unfold foldHostEvidence
  split
  · rfl
  · split
    · exact congrArg Prod.fst (headline_noteExtra ..)
    · split <;> rfl

theorem headline_foldStpEvidence : headline (foldStpEvidence attr e) = headline attr := by
  unfold foldStpEvidence
  split
  · rfl
  · split <;> rfl

theorem headline_foldDiscoveryEvidence :
    headline (foldDiscoveryEvidence attr e) = headline attr := by
  unfold foldDiscoveryEvidence
  split
  · rfl
  · split
    · rw [foldl_keeps (g := headline), headline_noteExtra]
      intro attr key
      split
      · rw [headline_noteExtra]
      · rfl
    · split
      · simp only [headline_noteExtra]
      · rfl

theorem headline_markMac : headline (markMac attr) = headline attr := by
  unfold markMac
  split <;> rfl

theorem headline_applySnmp {a b : ScanAttributes} (h : headline a = headline b)
    (evidence : List Evidence) :
    headline (applySnmp a evidence) = headline (applySnmp b evidence) := by
  have hname : a.hostname = b.hostname := congrArg Prod.snd h
  have hverdict : verdict a = verdict b := congrArg Prod.fst h
  unfold applySnmp
  split
  · exact h
  · refine Prod.ext hverdict ?_
    simp only [headline, hname]

/-- The verdict and the host name come from the fields, the host evidence and SNMP. -/
theorem headline_buildScanAttributes :
    headline (buildScanAttributes rep) =
      headline (applySnmp (rep.evidence.foldl foldHostEvidence (fieldAttributes rep))
        rep.evidence) := by
  unfold buildScanAttributes
  rw [foldl_keeps (g := headline) _ headline_foldDiscoveryEvidence, headline_noteExtra,
    headline_noteExtra]
  refine headline_applySnmp ?_ rep.evidence
  rw [foldl_keeps (g := headline) _ headline_foldStpEvidence, headline_markMac]

theorem verdict_buildScanAttributes :
    verdict (buildScanAttributes rep) =
      (rep.field "inferred_type", rep.field "inferred_type_source") := by
  have hsnmp : ∀ (a : ScanAttributes) (es : List Evidence),
      verdict (applySnmp a es) = verdict a := by
    intro a es
    unfold applySnmp
    split <;> rfl
  refine (congrArg Prod.fst (headline_buildScanAttributes rep)).trans ?_
  exact (hsnmp _ _).trans (foldl_keeps (g := verdict) _ verdict_foldHostEvidence _ _)

end Steward
