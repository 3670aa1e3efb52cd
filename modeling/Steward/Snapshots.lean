import Steward.Recorder
import Steward.Slots

/-!
# Scan snapshots

The `scan_snapshots` rows beside the devices table: one lease for each address
of a network. An alive report renews the lease of its address and stamps the
device that the lease is attributed to; lost detection counts the scans that an
address was missing from.
-/

namespace Steward

open RowTable

structure Snapshot where
  id : Nat
  networkId : Nat
  taskId : Option Nat := none
  ip : String
  mac : String := ""
  deviceUuid : String := ""
  missCount : Nat := 0
  lastSeenAt : Nat
  flapCount : Nat := 0
  lastFlapAt : Option Nat := none
  deriving DecidableEq

/-- `UNIQUE(network_id, ip)`. -/
def snapshotSchema : Schema Snapshot where
  id := Snapshot.id
  clash a b := decide (a.networkId = b.networkId ∧ a.ip = b.ip)
  clash_symm a b := by simp only [eq_comm]

@[simp] theorem snapshotSchema_id (s : Snapshot) : snapshotSchema.id s = s.id := rfl

/-- The columns that the index reads. -/
structure Snapshot.SameSlot (s t : Snapshot) : Prop where
  id : s.id = t.id
  networkId : s.networkId = t.networkId
  ip : s.ip = t.ip

theorem inert_of_sameSlot {f : Snapshot → Snapshot} (h : ∀ s, (f s).SameSlot s) :
    snapshotSchema.Inert f :=
  ⟨fun s => (h s).id, fun s t => by simp only [snapshotSchema, (h s).networkId, (h s).ip]⟩

abbrev Snapshots := Table snapshotSchema

theorem snapshot_eq_of_slot {t : Snapshots} {a b : Snapshot} (ha : a ∈ t.rows) (hb : b ∈ t.rows)
    (hnet : a.networkId = b.networkId) (hip : a.ip = b.ip) : a = b := by
  by_contra hne
  have hid : a.id ≠ b.id := fun e => hne (t.eq_of_id ha hb e)
  have hc := t.no_clash ha hb hid
  simp [snapshotSchema, hnet, hip] at hc

structure Network where
  id : Nat
  agentId : Option String
  deriving DecidableEq

def networkSchema : Schema Network where
  id := Network.id
  clash _ _ := false
  clash_symm _ _ := rfl

abbrev Networks := Table networkSchema

/-- The tables the center reconciles; `scan_source` is kept beside the other device columns. -/
structure Center where
  db : Db
  scanSource : Nat → String
  networks : Networks
  snapshots : Snapshots

/-- A host of a scan with the verdict whether it answered. -/
structure ScannedHost where
  alive : Bool
  report : HostReport
  deriving DecidableEq

/-- The hosts that count for the alive set. -/
def ScannedHost.Counts (h : ScannedHost) : Prop := h.alive = true ∧ h.report.ip ≠ ""

instance (h : ScannedHost) : Decidable h.Counts := inferInstanceAs (Decidable (_ ∧ _))

/-- The set of addresses that answered. -/
def aliveIPs (hosts : List ScannedHost) : List String :=
  (hosts.filter fun h => h.Counts).map fun h => h.report.ip

/-- `ORDER BY last_seen DESC`; NULL sorts below every time. -/
def lastSeenRank (r : DeviceRow) : Nat :=
  match r.lastSeen with
  | none => 0
  | some t => t + 1

/-- `UPDATE devices … WHERE p` of columns outside the indexes. -/
def Db.modifyWhere (db : Db) (p : DeviceRow → Bool) (f : DeviceRow → DeviceRow)
    (hf : ∀ r, (f r).SamePlace r) : Db :=
  { db with devices := db.devices.modifyWhere p f (inert_of_samePlace hf) }

namespace Center

def empty : Center := ⟨Db.empty, fun _ => "", Table.empty, Table.empty⟩

variable (c : Center)

def addNetwork (agentId : Option String) : Center :=
  { c with
    networks := (c.networks.insert (fun i => ⟨i, agentId⟩) fun _ => rfl).getD c.networks }

/-- `applyDeviceBridge` on the center; a row that it creates has the scanner as its source. -/
def bridge (now : Nat) (uuid : String) (rep : HostReport) (van : Vantage) : Center :=
  { c with
    db := (applyDeviceBridge c.db now uuid rep van).db
    scanSource := fun i => if i < c.db.devices.nextId then c.scanSource i else "scanner_v2" }

def device (i : Nat) : Option DeviceRow := c.db.devices.get? i

def lease (i : Nat) : Option Snapshot := c.snapshots.get? i

variable (net : Nat)

/-- `n.agent_id IS NOT NULL AND n.agent_id != ''`. -/
def agentManaged : Bool :=
  (c.networks.get? net).any fun n => n.agentId.any fun a => a ≠ ""

def newestDevice (p : DeviceRow → Bool) : Option DeviceRow :=
  c.db.devices.selectBy p lastSeenRank

/-- The device of an address: one of the network if it has one, else any. -/
def uuidAtIP (ip : String) (net : Option Nat) : String :=
  let anywhere := c.newestDevice fun r => r.ipAddress = ip
  let found :=
    match net with
    | some n => (c.newestDevice fun r => r.ipAddress = ip ∧ r.networkId = some n).or anywhere
    | none => anywhere
  (found.map DeviceRow.deviceUuid).getD ""

/-- `resolveDeviceUUIDForIP`: the MAC first, then the address. -/
def resolveDeviceUUIDForIP (mac ip : String) (net : Option Nat) : String :=
  let byMAC := if mac ≠ "" then c.newestDevice fun r => r.macAddress = mac else none
  match byMAC with
  | some r => if r.deviceUuid ≠ "" then r.deviceUuid else c.uuidAtIP ip net
  | none => c.uuidAtIP ip net

def leaseAt (ip : String) : Option Snapshot :=
  c.snapshots.select fun s => s.networkId = net ∧ s.ip = ip

variable (taskId : Option Nat)

/-- `ON CONFLICT(network_id, ip) DO UPDATE`. -/
def renewLease (mac uuid : String) (now : Nat) (s : Snapshot) : Snapshot :=
  { s with
    taskId := taskId
    mac := if mac ≠ "" then mac else s.mac
    deviceUuid := if uuid ≠ "" then uuid else s.deviceUuid
    missCount := 0
    lastSeenAt := now }

def newLease (ip mac uuid : String) (now id : Nat) : Snapshot :=
  { id := id, networkId := net, taskId := taskId, ip := ip, mac := mac, deviceUuid := uuid,
    lastSeenAt := now }

/-- `upsertScanSnapshot`. -/
def upsertScanSnapshot (ip mac uuid : String)
    (now : Nat) : Center :=
  match c.leaseAt net ip with
  | some s =>
    { c with
      snapshots := c.snapshots.modify s.id (renewLease taskId mac uuid now)
        (inert_of_sameSlot fun _ => ⟨rfl, rfl, rfl⟩) }
  | none =>
    { c with
      snapshots :=
        (c.snapshots.insert (newLease net taskId ip mac uuid now) fun _ => rfl).getD c.snapshots }

/-- `UPDATE devices SET last_seen = ? WHERE device_uuid = ?`. -/
def stampLastSeen (uuid : String) (now : Nat) : Center :=
  { c with
    db := c.db.modifyWhere (fun r => r.deviceUuid = uuid) (fun r => { r with lastSeen := some now })
      fun _ => ⟨rfl, rfl, rfl, rfl⟩ }

/-- One host of `RecordAliveSnapshots`. -/
def recordAlive (taskId now : Nat) (c : Center) (h : ScannedHost) : Center :=
  if h.Counts then
    let mac := reportMAC h.report
    let uuid := c.resolveDeviceUUIDForIP mac h.report.ip (some net)
    let task := if 0 < taskId then some taskId else none
    let c := c.upsertScanSnapshot net task h.report.ip mac uuid now
    if uuid ≠ "" then c.stampLastSeen uuid now else c
  else c

/-- `RecordAliveSnapshots`. -/
def recordAliveSnapshots (net : Option Nat) (taskId now : Nat)
    (hosts : List ScannedHost) : Center :=
  match net with
  | none => c
  | some n => Runs.run (recordAlive n taskId now) c hosts

end Center

/-- `UPDATE devices SET status='offline', …`, the statement that a replacement runs too. -/
def markOffline (now : Nat) (r : DeviceRow) : DeviceRow := supersede now r

theorem markOffline_samePlace (now : Nat) (r : DeviceRow) : (markOffline now r).SamePlace r :=
  ⟨rfl, rfl, rfl, rfl⟩

namespace Center

variable (c : Center)

def setOffline (i now : Nat) : Center :=
  { c with db := c.db.modify i (markOffline now) (markOffline_samePlace now) }

/-- The event of `recordDeviceLost`; its snapshot is read after the status was written. -/
def deviceLost (i net : Nat) (agentId : String) : ChangeEvent where
  changeType := .deviceLost
  deviceId := i
  networkId := some net
  agentId := agentId
  before := c.device i

/-- The event of `recordDeviceRecovered`. -/
def deviceRecovered (i net : Nat) (agentId : String) (before : Option DeviceRow) :
    ChangeEvent where
  changeType := .deviceRecovered
  deviceId := i
  networkId := some net
  agentId := agentId
  before := before
  after := c.device i

def status (i : Nat) : Option Status := (c.device i).map DeviceRow.status

/-- Uuid, address and network of a row: what the joins with the leases read. -/
def place (i : Nat) : Option (String × String × Option Nat) :=
  (c.device i).map fun r => (r.deviceUuid, r.ipAddress, r.networkId)

variable {c : Center}

theorem mem_rows_iff {r : DeviceRow} : r ∈ c.db.rows ↔ c.device r.id = some r := by
  constructor
  · exact fun h => Table.get?_of_mem (t := c.db.devices) h
  · exact fun h => Table.mem_of_get? h

variable {net : Nat} {ip : String} {s : Snapshot}

theorem leaseAt_eq_some (h : c.leaseAt net ip = some s) :
    s ∈ c.snapshots.rows ∧ s.networkId = net ∧ s.ip = ip := by
  obtain ⟨hmem, hslot, -⟩ := (c.snapshots.select_eq_some).mp h
  simp only [decide_eq_true_eq] at hslot
  exact ⟨hmem, hslot⟩

theorem leaseAt_eq_none (h : c.leaseAt net ip = none) :
    ∀ s ∈ c.snapshots.rows, ¬ (s.networkId = net ∧ s.ip = ip) := by
  intro s hs
  simpa using (c.snapshots.select_eq_none).mp h s hs

/-- A renewal touches the lease of its slot and no other. -/
theorem lease_upsert {l : Nat} (hs : c.lease l = some s) (net : Nat) (taskId : Option Nat)
    (ip mac uuid : String) (now : Nat) :
    (c.upsertScanSnapshot net taskId ip mac uuid now).lease l =
      some (if s.networkId = net ∧ s.ip = ip then renewLease taskId mac uuid now s else s) := by
  have hmem : s ∈ c.snapshots.rows := Table.mem_of_get? hs
  unfold upsertScanSnapshot
  split
  · next t ht =>
    obtain ⟨htmem, htn, hti⟩ := leaseAt_eq_some ht
    have hiff : s.id = t.id ↔ s.networkId = net ∧ s.ip = ip := by
      constructor
      · intro hid
        cases c.snapshots.eq_of_id hmem htmem hid
        exact ⟨htn, hti⟩
      · rintro ⟨hn, hi⟩
        rw [snapshot_eq_of_slot hmem htmem (hn.trans htn.symm) (hi.trans hti.symm)]
    simp only [lease] at hs
    simp only [lease, Table.get?_modify, hs, Option.map_some, Schema.onId, snapshotSchema_id, hiff]
  · next hnone =>
    rw [if_neg (leaseAt_eq_none hnone s hmem)]
    cases hins : c.snapshots.insert (newLease net taskId ip mac uuid now) (fun _ => rfl) with
    | none => exact hs
    | some t => exact Table.get?_insert hins hs

@[simp] theorem upsert_db (c : Center) (net : Nat) (taskId : Option Nat) (ip mac uuid : String)
    (now : Nat) : (c.upsertScanSnapshot net taskId ip mac uuid now).db = c.db := by
  unfold upsertScanSnapshot
  split <;> rfl

variable (c : Center) (uuid : String) (now i : Nat)

/-- A sighting stamps the row and moves nothing that another column shows. -/
theorem device_stampLastSeen :
    (c.stampLastSeen uuid now).device i = (c.device i).map fun r =>
      if r.deviceUuid = uuid then { r with lastSeen := some now } else r := by
  simp only [device, stampLastSeen, Db.modifyWhere, Table.get?_modifyWhere, decide_eq_true_eq]

theorem map_stampLastSeen {β : Type} (f : DeviceRow → β)
    (hf : ∀ r : DeviceRow, f { r with lastSeen := some now } = f r) :
    ((c.stampLastSeen uuid now).device i).map f = (c.device i).map f := by
  rw [device_stampLastSeen, Option.map_map]
  congr 1
  funext r
  simp only [Function.comp_apply]
  split
  · exact hf r
  · rfl

theorem status_stampLastSeen :
    (c.stampLastSeen uuid now).status i = c.status i :=
  map_stampLastSeen c uuid now i _ fun _ => rfl

theorem place_stampLastSeen :
    (c.stampLastSeen uuid now).place i = c.place i :=
  map_stampLastSeen c uuid now i _ fun _ => rfl

end Center

end Steward
