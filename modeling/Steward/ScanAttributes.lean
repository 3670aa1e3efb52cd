import Steward.JsonText
import Steward.Mac

/-!
# The scan_attributes document

The record a scan writes into the `scan_attributes` column, its encoding (empty
fields are omitted) and its decoding. Beside the record's own members the stored
document carries `mac_aliases`, the other network cards of a multi-homed host;
the record does not declare that member, so decoding loses it.
-/

namespace Steward

open JsonValue

structure SNMPDiscovery where
  sysDescr : String := ""
  sysObjectId : String := ""
  sysName : String := ""
  sysLocation : String := ""
  sysContact : String := ""
  sysServices : Int := 0
  deriving DecidableEq

structure STPDiscovery where
  bridgeMac : String := ""
  rootBridgeMac : String := ""
  isRoot : Bool := false
  ports : String := ""
  deriving DecidableEq

structure OpenPortEntry where
  port : Int
  service : String
  deriving DecidableEq

structure ServiceEntry where
  port : Int
  name : String
  protocol : String
  version : String
  deriving DecidableEq

structure PrometheusInfo where
  url : String := ""
  nodeExporterUrl : String := ""
  labels : List (String × String) := []
  deriving DecidableEq

structure ScanAttributes where
  vendor : String := ""
  mac : String := ""
  hostname : String := ""
  macIsLocallyAdministered : Bool := false
  macIsMulticast : Bool := false
  ouiPrefix : String := ""
  ouiVendor : String := ""
  os : String := ""
  osVersion : String := ""
  kernelVersion : String := ""
  firmwareVersion : String := ""
  cpuCount : Int := 0
  cpuModel : String := ""
  memoryTotalBytes : Int := 0
  uptimeSeconds : Int := 0
  ttl : Int := 0
  lastScanRttMs : Int := 0
  scanSource : String := ""
  lastScannedAt : String := ""
  inferredType : String := ""
  inferredTypeSource : String := ""
  inferredModel : String := ""
  inferredDescription : String := ""
  snmp : Option SNMPDiscovery := none
  stp : Option STPDiscovery := none
  openPorts : List OpenPortEntry := []
  detectedServices : List ServiceEntry := []
  prometheus : Option PrometheusInfo := none
  extras : List (String × String) := []
  deriving DecidableEq

def textField (s : String) : Option Json := if s = "" then none else some (.str s)
def intField (n : Int) : Option Json := if n = 0 then none else some (.num n)
def flagField (b : Bool) : Option Json := if b then some (.bool true) else none
def dictField (d : List (String × String)) : Option Json :=
  if d = [] then none else some (.obj (d.map fun e => (e.1, .str e.2)))
def listField (items : List Json) : Option Json := if items = [] then none else some (.arr items)

def SNMPDiscovery.encode (s : SNMPDiscovery) : Json :=
  .obj (present [("sys_descr", textField s.sysDescr), ("sys_object_id", textField s.sysObjectId),
    ("sys_name", textField s.sysName), ("sys_location", textField s.sysLocation),
    ("sys_contact", textField s.sysContact), ("sys_services", intField s.sysServices)])

def STPDiscovery.encode (s : STPDiscovery) : Json :=
  .obj (present [("bridge_mac", textField s.bridgeMac),
    ("root_bridge_mac", textField s.rootBridgeMac),
    ("is_root", flagField s.isRoot), ("ports", textField s.ports)])

def OpenPortEntry.encode (e : OpenPortEntry) : Json :=
  .obj (present [("port", some (.num e.port)), ("service", textField e.service)])

def ServiceEntry.encode (e : ServiceEntry) : Json :=
  .obj (present [("port", some (.num e.port)), ("name", some (.str e.name)),
    ("protocol", textField e.protocol),
    ("version", textField e.version)])

def PrometheusInfo.encode (p : PrometheusInfo) : Json :=
  .obj (present [("url", textField p.url), ("node_exporter_url", textField p.nodeExporterUrl),
    ("labels", dictField p.labels)])

/-- The members of the document, empty ones marked absent. -/
def ScanAttributes.fields (s : ScanAttributes) : List (String × Option Json) := [
  ("vendor", textField s.vendor), ("mac", textField s.mac), ("hostname", textField s.hostname),
  ("mac_is_locally_administered", flagField s.macIsLocallyAdministered),
  ("mac_is_multicast", flagField s.macIsMulticast),
  ("oui_prefix", textField s.ouiPrefix), ("oui_vendor", textField s.ouiVendor),
  ("os", textField s.os), ("os_version", textField s.osVersion),
  ("kernel_version", textField s.kernelVersion), ("firmware_version", textField s.firmwareVersion),
  ("cpu_count", intField s.cpuCount), ("cpu_model", textField s.cpuModel),
  ("memory_total_bytes", intField s.memoryTotalBytes), ("uptime_seconds", intField s.uptimeSeconds),
  ("ttl", intField s.ttl), ("last_scan_rtt_ms", intField s.lastScanRttMs),
  ("scan_source", textField s.scanSource), ("last_scanned_at", textField s.lastScannedAt),
  ("inferred_type", textField s.inferredType),
    ("inferred_type_source", textField s.inferredTypeSource),
  ("inferred_model", textField s.inferredModel),
    ("inferred_description", textField s.inferredDescription),
  ("snmp", s.snmp.map SNMPDiscovery.encode), ("stp", s.stp.map STPDiscovery.encode),
  ("open_ports", listField (s.openPorts.map OpenPortEntry.encode)),
  ("detected_services", listField (s.detectedServices.map ServiceEntry.encode)),
  ("prometheus", s.prometheus.map PrometheusInfo.encode), ("extras", dictField s.extras)]

/-- `MarshalScanAttributes`. -/
def marshalScanAttributes (s : ScanAttributes) : Json := .obj (present s.fields)

def snmpShape : Shape :=
  .record [("sys_descr", .text), ("sys_object_id", .text), ("sys_name", .text),
  ("sys_location", .text), ("sys_contact", .text), ("sys_services", .int)]
def stpShape : Shape :=
  .record [("bridge_mac", .text), ("root_bridge_mac", .text), ("is_root", .flag), ("ports", .text)]
def openPortShape : Shape := .record [("port", .int), ("service", .text)]
def serviceShape : Shape :=
  .record [("port", .int), ("name", .text), ("protocol", .text), ("version", .text)]
def prometheusShape : Shape :=
  .record [("url", .text), ("node_exporter_url", .text), ("labels", .dict .text)]

/-- What decoding requires of each member. -/
def ScanAttributes.shape : Shape := .record [
  ("vendor", .text), ("mac", .text), ("hostname", .text), ("mac_is_locally_administered", .flag),
  ("mac_is_multicast", .flag), ("oui_prefix", .text), ("oui_vendor", .text), ("os", .text),
  ("os_version", .text), ("kernel_version", .text), ("firmware_version", .text),
    ("cpu_count", .int),
  ("cpu_model", .text), ("memory_total_bytes", .int), ("uptime_seconds", .int), ("ttl", .int),
  ("last_scan_rtt_ms", .int), ("scan_source", .text), ("last_scanned_at", .text),
  ("inferred_type", .text), ("inferred_type_source", .text), ("inferred_model", .text),
  ("inferred_description", .text), ("snmp", snmpShape), ("stp", stpShape),
  ("open_ports", .list openPortShape), ("detected_services", .list serviceShape),
  ("prometheus", prometheusShape), ("extras", .dict .text)]

variable (j : Json) (k : String)

def textOf : String := (j.getStr k).getD ""
def intOf : Int := match j.get k with | some (.num n) => n | _ => 0
def flagOf : Bool := match j.get k with | some (.bool b) => b | _ => false
def listOf : List Json :=
  match j.get k with | some (.arr items) => items | _ => []
def recordOf : Option Json :=
  match j.get k with | some (.obj ms) => some (.obj ms) | _ => none
/-- A null in a map of texts reads as the empty text. -/
def dictOf : List (String × String) :=
  match j.get k with
  | some (.obj ms) => ms.map fun m => (m.1, match m.2 with | .str s => s | _ => "")
  | _ => []

def SNMPDiscovery.decode : SNMPDiscovery :=
  ⟨textOf j "sys_descr", textOf j "sys_object_id", textOf j "sys_name", textOf j "sys_location",
    textOf j "sys_contact", intOf j "sys_services"⟩
def STPDiscovery.decode : STPDiscovery :=
  ⟨textOf j "bridge_mac", textOf j "root_bridge_mac", flagOf j "is_root", textOf j "ports"⟩
def OpenPortEntry.decode : OpenPortEntry := ⟨intOf j "port", textOf j "service"⟩
def ServiceEntry.decode : ServiceEntry :=
  ⟨intOf j "port", textOf j "name", textOf j "protocol", textOf j "version"⟩
def PrometheusInfo.decode : PrometheusInfo :=
  ⟨textOf j "url", textOf j "node_exporter_url", dictOf j "labels"⟩

/-- The record filled from a document whose members have the declared shapes. -/
def ScanAttributes.decode : ScanAttributes where
  vendor := textOf j "vendor"
  mac := textOf j "mac"
  hostname := textOf j "hostname"
  macIsLocallyAdministered := flagOf j "mac_is_locally_administered"
  macIsMulticast := flagOf j "mac_is_multicast"
  ouiPrefix := textOf j "oui_prefix"
  ouiVendor := textOf j "oui_vendor"
  os := textOf j "os"
  osVersion := textOf j "os_version"
  kernelVersion := textOf j "kernel_version"
  firmwareVersion := textOf j "firmware_version"
  cpuCount := intOf j "cpu_count"
  cpuModel := textOf j "cpu_model"
  memoryTotalBytes := intOf j "memory_total_bytes"
  uptimeSeconds := intOf j "uptime_seconds"
  ttl := intOf j "ttl"
  lastScanRttMs := intOf j "last_scan_rtt_ms"
  scanSource := textOf j "scan_source"
  lastScannedAt := textOf j "last_scanned_at"
  inferredType := textOf j "inferred_type"
  inferredTypeSource := textOf j "inferred_type_source"
  inferredModel := textOf j "inferred_model"
  inferredDescription := textOf j "inferred_description"
  snmp := (recordOf j "snmp").map SNMPDiscovery.decode
  stp := (recordOf j "stp").map STPDiscovery.decode
  openPorts := (listOf j "open_ports").map OpenPortEntry.decode
  detectedServices := (listOf j "detected_services").map ServiceEntry.decode
  prometheus := (recordOf j "prometheus").map PrometheusInfo.decode
  extras := dictOf j "extras"

/-- `UnmarshalScanAttributes`: a member of the wrong type fails the whole document. -/
def unmarshalScanAttributes : Option ScanAttributes :=
  if ScanAttributes.shape.accepts j then some (ScanAttributes.decode j) else none

namespace ScanAttributes

variable (s : ScanAttributes)

theorem fields_names : s.fields.map Prod.fst = (fields {}).map Prod.fst := rfl

theorem fields_nodup : (s.fields.map Prod.fst).Nodup := by
  rw [fields_names]
  decide

theorem mac_aliases_not_mem : "mac_aliases" ∉ (marshalScanAttributes s).members.map Prod.fst := by
  intro h
  have hmem := present_names s.fields h
  rw [fields_names] at hmem
  revert hmem
  decide

theorem get_marshal : (marshalScanAttributes s).get k = (s.fields.lookup k).join :=
  lookup_present s.fields s.fields_nodup k

@[simp] theorem get_inferred_type :
    (marshalScanAttributes s).get "inferred_type" = textField s.inferredType := by
  rw [get_marshal]
  rfl

@[simp] theorem get_inferred_type_source :
    (marshalScanAttributes s).get "inferred_type_source" = textField s.inferredTypeSource := by
  rw [get_marshal]
  rfl

@[simp] theorem get_mac_aliases : (marshalScanAttributes s).get "mac_aliases" =
    none := by
  rw [get_marshal]
  rfl

theorem unmarshal_verdict {j : Json} {s : ScanAttributes} (h : unmarshalScanAttributes j = some s) :
    s.inferredType = textOf j "inferred_type" ∧
      s.inferredTypeSource = textOf j "inferred_type_source" := by
  unfold unmarshalScanAttributes at h
  split at h
  · cases h
    exact ⟨rfl, rfl⟩
  · cases h

end ScanAttributes

end Steward
