import Steward.Identity

/-!
# Applying an identity write

`ApplyDeviceIdentity`, statement by statement. There is no transaction: a
statement that an index refuses is logged and the next one runs. The outcome
keeps the refused statements beside the database.
-/

namespace Steward

open JsonValue RowTable

structure IdentityWrite extends IdentityResolution where
  ip : String
  mac : String
  networkId : Option Nat
  name : String := ""
  type : String := ""
  brand : String := ""
  model : String := ""
  description : String := ""
  location : String := ""
  openPortsJSON : String := ""
  detectedServicesJSON : String := ""
  prometheusURL : String := ""
  nodeExporterURL : String := ""
  scanAttributes : Json := .obj []
  rttMs : Int := 0
  deriving DecidableEq

/-- The statements that a unique index can refuse. -/
inductive Statement where
  | parkHolder | create | roam | roamRetry
  deriving DecidableEq, Repr

structure Applied where
  db : Db
  deviceId : Option Nat
  refused : List Statement

/-- `CASE WHEN (old = '' OR old = 'unknown') AND new != '' THEN new ELSE old END`. -/
def fillWhenEmpty (old new : String) : String :=
  if (old = "" ∨ old = "unknown") ∧ new ≠ "" then new else old

/-- `CASE WHEN new != '' THEN new ELSE old END`. -/
def keepWhenEmpty (old new : String) : String := if new ≠ "" then new else old

variable (w : IdentityWrite) (now : Nat) (r : DeviceRow)

/-- The columns that both variants of the identity update write alike. -/
def scanColumns : DeviceRow :=
  { r with
    openPorts := keepWhenEmpty r.openPorts w.openPortsJSON
    detectedServices := keepWhenEmpty r.detectedServices w.detectedServicesJSON
    prometheusUrl := keepWhenEmpty r.prometheusUrl w.prometheusURL
    nodeExporterUrl := keepWhenEmpty r.nodeExporterUrl w.nodeExporterURL
    scanAttributes := mergePatch r.scanAttributes w.scanAttributes
    lastScanRttMs := w.rttMs
    lastScannedAt := some now
    updatedAt := now }

/-- `existingIdentityUpdate`; a type outside the enumeration fails the check and changes nothing. -/
def existingIdentityUpdate : DeviceRow :=
  match if r.type = .other ∧ w.type ≠ "" then DeviceType.ofText w.type else some r.type with
  | none => r
  | some t =>
    { scanColumns w now r with
      name := if r.name = "" ∨ r.name = r.ipAddress then w.name else r.name
      type := t
      brand := fillWhenEmpty r.brand w.brand
      model := fillWhenEmpty r.model w.model
      description := fillWhenEmpty r.description w.description
      location := fillWhenEmpty r.location w.location }

/-- `replacementIdentityUpdate`: the identity columns are overwritten. -/
def replacementIdentityUpdate : DeviceRow :=
  match if w.type ≠ "" then DeviceType.ofText w.type else some r.type with
  | none => r
  | some t =>
    { scanColumns w now r with
      name := w.name
      type := t
      brand := keepWhenEmpty r.brand w.brand
      model := keepWhenEmpty r.model w.model
      description := keepWhenEmpty r.description w.description
      location := keepWhenEmpty r.location w.location }

/-- `web_server_brands.txt`. -/
def webServerBrandNames : List String :=
  ["nginx", "apache", "caddy", "lighttpd", "microsoft iis", "minidlna", "readymedia", "portable",
    "sdk"]

def hasLetter (s : String) : Bool := s.toList.any Char.isAlpha

/-- The junk-brand heal. -/
def healBrand : DeviceRow :=
  if Text.asciiLower r.brand ≠ Text.asciiLower w.brand ∧
      (webServerBrandNames.contains (Text.asciiLower r.brand) ∨ hasLetter r.brand = false) then
    { r with brand := w.brand, updatedAt := now }
  else r

/-- The garbage-name heal. -/
def healName : DeviceRow :=
  if r.name ≠ "" ∧ r.name ≠ w.ip ∧ plausibleHostname r.name = false then
    { r with name := if plausibleHostname w.name then w.name else w.ip, updatedAt := now }
  else r

/-- A garbage host name leaves the document. -/
def stripHostname (now : Nat) (r : DeviceRow) : DeviceRow :=
  match r.scanAttributes.getStr "hostname" with
  | some h =>
    if plausibleHostname h then r
    else
      { r with
        scanAttributes := .obj (Assoc.erase r.scanAttributes.members "hostname")
        updatedAt := now }
  | none => r

/-- The statements on the target row before its status is stamped. -/
@[irreducible] def refresh : DeviceRow :=
  stripHostname now (healName w now (healBrand w now
    (if w.replacedId ≠ 0 then replacementIdentityUpdate w now r
     else existingIdentityUpdate w now r)))

/-- The force-written status of a replacement or take-over; the previous MAC is recorded first. -/
def forceMac : DeviceRow :=
  { r with
    scanAttributes :=
      if r.macAddress ≠ "" ∧ Text.equalFold r.macAddress w.mac = false then
        recordHolderAlias r.scanAttributes r.macAddress
      else r.scanAttributes
    status := .online
    macAddress := w.mac
    lastSeen := some now
    offlineSince := none
    lastScannedAt := some now
    updatedAt := now }

/-- The row a replacement leaves behind. -/
def supersede (now : Nat) (r : DeviceRow) : DeviceRow :=
  { r with
    status := .offline
    offlineSince := if r.status ≠ .offline then some now else r.offlineSince
    updatedAt := now }

/-- The status of a normal re-scan; the MAC is filled only while the row has none. -/
def stamp : DeviceRow :=
  { r with
    status := .online
    macAddress := if w.mac ≠ "" ∧ r.macAddress = "" then w.mac else r.macAddress
    lastSeen := some now
    offlineSince := none
    lastScannedAt := some now
    updatedAt := now }

/-- The roam update; the network moves with the row when the report has one. -/
def relocate : DeviceRow :=
  { stamp w now r with
    ipAddress := w.ip
    networkId := if w.networkId.isSome then w.networkId else r.networkId }

/-- The retry after an eviction; it leaves the network alone. -/
def relocateRetry : DeviceRow :=
  { stamp w now r with ipAddress := w.ip }

/-- The sentinel address of a parked row. -/
def parkAddress (id : Nat) : String := "#park:" ++ toString id

def parkRow (now : Nat) (r : DeviceRow) : DeviceRow :=
  { r with ipAddress := parkAddress r.id, updatedAt := now }

def newRow (w : IdentityWrite) (now : Nat) (uuid : String) (t : DeviceType) (i : Nat) :
    DeviceRow where
  id := i
  deviceUuid := uuid
  name := w.name
  type := t
  brand := w.brand
  model := w.model
  description := w.description
  location := w.location
  ipAddress := w.ip
  macAddress := w.mac
  status := .online
  openPorts := if w.openPortsJSON = "" then "[]" else w.openPortsJSON
  detectedServices := if w.detectedServicesJSON = "" then "[]" else w.detectedServicesJSON
  prometheusUrl := w.prometheusURL
  nodeExporterUrl := w.nodeExporterURL
  scanAttributes := w.scanAttributes
  networkId := w.networkId
  lastScanRttMs := w.rttMs
  firstSeen := some now
  lastSeen := some now
  lastScannedAt := some now
  offlineSince := none
  createdAt := now
  updatedAt := now

/-- What the statements before the stamp leave alone: the place, the MAC and the liveness of the
row. -/
structure DeviceRow.SameIdentity (r s : DeviceRow) : Prop extends r.SamePlace s where
  macAddress : r.macAddress = s.macAddress
  status : r.status = s.status
  lastSeen : r.lastSeen = s.lastSeen

variable {r s : DeviceRow} (w : IdentityWrite) (now : Nat)

section Same

variable (r : DeviceRow)

/-- The statements before the stamp: the scan columns are written or not, then the identity
columns and the document are set. -/
theorem refresh_cases : ∃ s, (s = r ∨ s = scanColumns w now r) ∧
    ∃ name type brand model description location doc at_, refresh w now r =
      { s with
        name := name, type := type, brand := brand, model := model, description := description
        location := location, scanAttributes := doc, updatedAt := at_ } := by
  have hwritten : ∃ s, (s = r ∨ s = scanColumns w now r) ∧
      ∃ name type brand model description location,
        (if w.replacedId ≠ 0 then replacementIdentityUpdate w now r
          else existingIdentityUpdate w now r) =
        { s with
          name := name, type := type, brand := brand, model := model, description := description
          location := location } := by
    unfold replacementIdentityUpdate existingIdentityUpdate
    repeat' split
    all_goals first
      | exact ⟨r, .inl rfl, _, _, _, _, _, _, rfl⟩
      | exact ⟨_, .inr rfl, _, _, _, _, _, _, rfl⟩
  obtain ⟨s, hs, _, _, _, _, _, _, hrow⟩ := hwritten
  refine ⟨s, hs, ?_⟩
  unfold refresh stripHostname healName healBrand
  rw [hrow]
  repeat' split
  all_goals exact ⟨_, _, _, _, _, _, _, _, rfl⟩

theorem refresh_same : (refresh w now r).SameIdentity r := by
  obtain ⟨s, rfl | rfl, _, _, _, _, _, _, _, _, h⟩ := refresh_cases w now r
  all_goals
    rw [h]
    exact ⟨⟨rfl, rfl, rfl, rfl⟩, rfl, rfl, rfl⟩

theorem refresh_samePlace : (refresh w now r).SamePlace r :=
  (refresh_same w now r).toSamePlace

theorem forceMac_samePlace : (forceMac w now r).SamePlace r :=
  ⟨rfl, rfl, rfl, rfl⟩

theorem supersede_samePlace : (supersede now r).SamePlace r :=
  ⟨rfl, rfl, rfl, rfl⟩

theorem stamp_samePlace : (stamp w now r).SamePlace r :=
  ⟨rfl, rfl, rfl, rfl⟩

end Same

section Columns

variable (w : IdentityWrite) (now : Nat) (r : DeviceRow)

@[simp] theorem stamp_macAddress :
    (stamp w now r).macAddress =
      if w.mac ≠ "" ∧ r.macAddress = "" then w.mac else r.macAddress := rfl
@[simp] theorem stamp_scanAttributes : (stamp w now r).scanAttributes = r.scanAttributes := rfl
@[simp] theorem relocate_macAddress :
    (relocate w now r).macAddress =
      if w.mac ≠ "" ∧ r.macAddress = "" then w.mac else r.macAddress := rfl
@[simp] theorem relocate_id : (relocate w now r).id = r.id := rfl
@[simp] theorem relocate_ipAddress : (relocate w now r).ipAddress = w.ip := rfl
@[simp] theorem relocate_networkId :
    (relocate w now r).networkId = if w.networkId.isSome then w.networkId else r.networkId := rfl
@[simp] theorem forceMac_macAddress : (forceMac w now r).macAddress = w.mac := rfl
theorem forceMac_scanAttributes : (forceMac w now r).scanAttributes =
    if r.macAddress ≠ "" ∧ Text.equalFold r.macAddress w.mac = false then
      recordHolderAlias r.scanAttributes r.macAddress
    else r.scanAttributes := rfl
@[simp] theorem supersede_status : (supersede now r).status = .offline := rfl
@[simp] theorem newRow_macAddress (uuid : String) (t : DeviceType) (i : Nat) :
    (newRow w now uuid t i).macAddress = w.mac := rfl
@[simp] theorem newRow_scanAttributes (uuid : String) (t : DeviceType) (i : Nat) :
    (newRow w now uuid t i).scanAttributes = w.scanAttributes := rfl

end Columns

theorem DeviceRow.SamePlace.at_iff (h : r.SamePlace s) {ip : String} {net : Option Nat} :
    r.At ip net ↔ s.At ip net := by
  simp only [DeviceRow.At, h.ipAddress, h.networkId]

variable (db : Db)

/-- The park statement; a refusal is logged. -/
def parkHolder (now i : Nat) : Db × List Statement :=
  if i = 0 then (db, [])
  else
    match db.update i (parkRow now) (fun _ => rfl) with
    | some db' => (db', [])
    | none => (db, [.parkHolder])

/-- `createDeviceIdentity`; the error of a failed insert is the missing device id. -/
@[irreducible] def createDeviceIdentity (now : Nat) (uuid : String) (w : IdentityWrite) :
    Applied :=
  match DeviceType.ofText (if w.type = "" then "other" else w.type) with
  | none => ⟨db, none, []⟩
  | some t =>
    match db.insert (newRow w now uuid t) (fun _ => rfl) with
    | some db' => ⟨db', some db.devices.nextId, []⟩
    | none => ⟨db, none, [.create]⟩

/-- The placeholder that keeps a roaming row off its address. -/
def isEvictable (w : IdentityWrite) (r : DeviceRow) : Bool :=
  decide (r.At w.ip w.networkId ∧ r.macAddress = "" ∧ r.id ≠ w.targetId)

/-- The roam update with its eviction and retry. -/
def roamDevice (now : Nat) (w : IdentityWrite) : Db × List Statement :=
  match db.update w.targetId (relocate w now) (fun _ => rfl) with
  | some db' => (db', [])
  | none =>
    let evicted := db.delete (isEvictable w)
    match evicted.update w.targetId (relocateRetry w now) (fun _ => rfl) with
    | some db' => (db', [.roam])
    | none => (evicted, [.roam, .roamRetry])

/-- `updateDeviceIdentity`. -/
@[irreducible] def updateDeviceIdentity (now : Nat) (w : IdentityWrite) : Applied :=
  let db := db.modify w.targetId (refresh w now) (refresh_samePlace w now)
  if w.replacedId ≠ 0 ∨ w.takeOver = true then
    let db := db.modify w.targetId (forceMac w now) (forceMac_samePlace w now)
    let db :=
      if w.replacedId ≠ 0 then db.modify w.replacedId (supersede now) (supersede_samePlace now)
      else db
    ⟨db, some w.targetId, []⟩
  else if w.roamed then
    let roamed := roamDevice db now w
    ⟨roamed.1, some w.targetId, roamed.2⟩
  else ⟨db.modify w.targetId (stamp w now) (stamp_samePlace w now), some w.targetId, []⟩

/-- `ApplyDeviceIdentity`. -/
@[irreducible] def applyDeviceIdentity (now : Nat) (uuid : String) (w : IdentityWrite) :
    Applied :=
  let parked := parkHolder db now w.parkHolderId
  let done :=
    if w.isNew then createDeviceIdentity parked.1 now uuid w
    else updateDeviceIdentity parked.1 now w
  { done with refused := parked.2 ++ done.refused }

/-- The write with a resolution carried over. -/
def IdentityWrite.resolved (w : IdentityWrite) (res : IdentityResolution) : IdentityWrite :=
  { w with toIdentityResolution := res }

/-- `ResolveDeviceIdentity` followed by `ApplyDeviceIdentity` with the whole resolution carried
over. -/
def identityUpsert (now : Nat) (uuid : String) (w : IdentityWrite) : Applied :=
  applyDeviceIdentity db now uuid (w.resolved (resolveDeviceIdentity db now w.mac w.ip w.networkId))

end Steward
