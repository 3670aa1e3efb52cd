import Steward.Apply
import Steward.RecordDevice

/-!
# The device bridge

`applyDeviceBridge` resolves a report, builds the write and commits it. The
commit is a definition of its own: between the resolution and the write other
callers may change the store.
-/

namespace Steward

open JsonValue

def ipAliasCap : Nat := 8

/-- `mergeIPAlias`: the alias list with one more address, or `""` when nothing changes. -/
def mergeIPAlias (stored : Json) (ip : String) : String :=
  if ip = "" then ""
  else if !(Shape.record [("extras", .dict .text)]).accepts stored then ""
  else
    let recorded := ((dictOf stored "extras").lookup "ip_aliases").getD ""
    let list := ((Text.split recorded ',').map Text.trimSpace).filter fun s => s ≠ ""
    if list.contains ip then ""
    else
      let list := list ++ [ip]
      Text.join "," (list.drop (list.length - ipAliasCap))

/-- `applyTypeStickiness`: a stored protocol verdict is not downgraded. -/
def applyTypeStickiness (stored : Json) (v : String × String) : String × String :=
  match unmarshalScanAttributes stored with
  | none => v
  | some s =>
    if s.inferredTypeSource ≠ "protocol" ∨ s.inferredType = "" ∨ s.inferredType = "other" then v
    else if v.2 = "protocol" then v
    else (s.inferredType, "protocol")

variable (rep : HostReport)

/-- The verdict goes back into the fields, where the document is built from. -/
def stampVerdict (v : String × String) : HostReport :=
  (rep.setField "inferred_type" v.1).setField "inferred_type_source" v.2

/-- `buildIdentityWrite`. -/
def buildIdentityWrite (mac devType : String) (net : Option Nat) :
    IdentityWrite where
  ip := rep.ip
  mac := mac
  networkId := net
  name := deviceDisplayName rep mac
  type := devType
  brand := rep.field "inferred_brand"
  model := rep.field "inferred_model"
  description := rep.field "inferred_description"
  location := rep.field "inferred_location"
  openPortsJSON := if rep.passive then "" else (deviceScanInfoJSON rep).1
  detectedServicesJSON := if rep.passive then "" else (deviceScanInfoJSON rep).2
  prometheusURL := rep.field "prometheus_url"
  nodeExporterURL := rep.field "node_exporter_url"
  scanAttributes := marshalScanAttributes (buildScanAttributes rep)
  rttMs := rep.rttMs

/-- The write for a report that resolved to no row. -/
def createWrite (net : Option Nat) : IdentityWrite :=
  let v := inferType rep
  { buildIdentityWrite (stampVerdict rep v) (reportMAC rep) v.1 net with isNew := true }

variable (res : IdentityResolution) (before : Option DeviceRow)

/-- The verdict to persist on a resolved row. -/
def stickyVerdict :
    String × String :=
  match before with
  | some b =>
    if res.replacedId = 0 then applyTypeStickiness b.scanAttributes (inferType rep)
    else inferType rep
  | none => inferType rep

/-- The batch itself reports the row's current address as alive. -/
def twinAlive (batchAliases : List String) :
    Bool :=
  res.roamed && before.any fun b => b.ipAddress ≠ "" && batchAliases.contains b.ipAddress

/-- The alias list that goes into the fields when the row stays with its twin. -/
def twinAliases (before : Option DeviceRow) (ip : String) : String :=
  match before with
  | some b => mergeIPAlias b.scanAttributes ip
  | none => ""

/-- The report as it is written to a resolved row. -/
def stickyReport
    (batchAliases : List String) : HostReport :=
  let stamped := stampVerdict rep (stickyVerdict rep res before)
  if twinAlive res before batchAliases = true ∧ twinAliases before rep.ip ≠ "" then
    stamped.setField "ip_aliases" (twinAliases before rep.ip)
  else stamped

/-- The write for a report that resolved to a row. -/
def updateWrite (net : Option Nat) (batchAliases : List String)
    (res : IdentityResolution) (before : Option DeviceRow) : IdentityWrite :=
  { buildIdentityWrite (stickyReport rep res before batchAliases) (reportMAC rep)
      (stickyVerdict rep res before).1 net with
    targetId := res.targetId
    replacedId := res.replacedId
    roamed := res.roamed && !twinAlive res before batchAliases
    takeOver := res.takeOver
    parkHolderId := res.parkHolderId }

variable (db : Db) (now deviceId : Nat) (ip : String) (net : Option Nat) (agentId : String)

/-- `recordVantage`: the presence of the device in the reporting network. -/
def recordVantage : Db :=
  match net with
  | some n =>
    if carriesNoLocation ip then db else db.upsertNetworkPresence deviceId n ip agentId now
  | none => db

@[simp] theorem recordVantage_devices :
    (recordVantage db now deviceId ip net agentId).devices = db.devices := by
  unfold recordVantage
  split
  · split
    · rfl
    · exact Db.upsertNetworkPresence_devices ..
  · rfl

/-- `DiffIdentity` is not empty. -/
def identityDiffers (a b : DeviceRow) : Bool :=
  a.name ≠ b.name || a.type ≠ b.type || a.brand ≠ b.brand || a.model ≠ b.model ||
    a.macAddress ≠ b.macAddress ||
    a.ipAddress ≠ b.ipAddress

/-- A recovery or an identity change between two snapshots. -/
def deviceChanged (before after : Option DeviceRow) : Bool :=
  match before, after with
  | some b, some a => (b.status = .offline && a.status = .online) || identityDiffers b a
  | _, _ => false

structure Bridged where
  db : Db
  isNew : Bool
  changed : Bool
  refused : List Statement

/-- Who reports, and beside which other addresses of the same MAC. -/
structure Vantage where
  net : Option Nat
  agentId : String := ""
  batchAliases : List String := []

/-- The bridge after the resolution. -/
@[irreducible] def bridgeCommit (db : Db) (now : Nat) (uuid : String) (rep : HostReport)
    (van : Vantage) (res : IdentityResolution) :
    Bridged :=
  if res.isNew then
    let done := applyDeviceIdentity db now uuid (createWrite rep van.net)
    match done.deviceId with
    | none => ⟨done.db, false, false, done.refused⟩
    | some id =>
      ⟨recordVantage done.db now id rep.ip van.net van.agentId, true, false, done.refused⟩
  else
    let before := db.devices.get? res.targetId
    let done :=
      applyDeviceIdentity db now uuid (updateWrite rep van.net van.batchAliases res before)
    ⟨recordVantage done.db now res.targetId rep.ip van.net van.agentId, false,
      deviceChanged before (done.db.devices.get? res.targetId), done.refused⟩

/-- `applyDeviceBridge`. -/
@[irreducible] def applyDeviceBridge (db : Db) (now : Nat) (uuid : String) (rep : HostReport)
    (van : Vantage) : Bridged :=
  bridgeCommit db now uuid rep van (resolveDeviceIdentity db now (reportMAC rep) rep.ip van.net)

end Steward
