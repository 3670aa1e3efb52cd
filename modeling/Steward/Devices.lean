import Mathlib.Data.Prod.Lex
import Steward.DeviceTypes
import Steward.RowTable

/-!
# The devices table

Rows of `devices` under their two unique indexes, the presence rows beside
them, and the lookups the identity code makes. A NULL network never collides in
an index, so several rows may sit at one address without a network.
-/

namespace Steward

open JsonValue RowTable

inductive Status where
  | online | offline | unknown
  deriving DecidableEq, Repr

/-- A row of the devices table, with the defaults of its columns. -/
structure DeviceRow where
  id : Nat
  deviceUuid : String := ""
  name : String
  type : DeviceType := .other
  brand : String := ""
  model : String := ""
  description : String := ""
  location : String := ""
  ipAddress : String := ""
  macAddress : String := ""
  status : Status := .unknown
  openPorts : String := "[]"
  detectedServices : String := "[]"
  prometheusUrl : String := ""
  nodeExporterUrl : String := ""
  scanAttributes : Json := .obj []
  networkId : Option Nat := none
  lastScanRttMs : Int := 0
  firstSeen : Option Nat := none
  lastSeen : Option Nat := none
  lastScannedAt : Option Nat := none
  offlineSince : Option Nat := none
  createdAt : Nat
  updatedAt : Nat
  deriving DecidableEq

/-- The row sits at an address of a network (or of no network). -/
def DeviceRow.At (r : DeviceRow) (ip : String) (net : Option Nat) : Prop :=
  r.ipAddress = ip ∧ r.networkId = net

instance (r : DeviceRow) (ip : String) (net : Option Nat) : Decidable (r.At ip net) :=
  inferInstanceAs (Decidable (r.ipAddress = ip ∧ r.networkId = net))

/-- The columns that the indexes and the identity lookups read, apart from the MAC. -/
structure DeviceRow.SamePlace (r s : DeviceRow) : Prop where
  id : r.id = s.id
  deviceUuid : r.deviceUuid = s.deviceUuid
  ipAddress : r.ipAddress = s.ipAddress
  networkId : r.networkId = s.networkId

theorem DeviceRow.SamePlace.refl (r : DeviceRow) : r.SamePlace r := ⟨rfl, rfl, rfl, rfl⟩

variable {s r : DeviceRow}

theorem DeviceRow.SamePlace.trans {t : DeviceRow} (h : r.SamePlace s) (h' : s.SamePlace t) :
    r.SamePlace t :=
  ⟨h.id.trans h'.id, h.deviceUuid.trans h'.deviceUuid, h.ipAddress.trans h'.ipAddress,
    h.networkId.trans h'.networkId⟩

/-- `idx_devices_ip_network`. -/
def sameSlot (a b : DeviceRow) : Bool :=
  a.networkId.isSome && decide (a.networkId = b.networkId) && decide (a.ipAddress = b.ipAddress)

theorem sameSlot_comm (a b : DeviceRow) : sameSlot a b = sameSlot b a := by
  rw [Bool.eq_iff_iff]
  simp only [sameSlot, Bool.and_eq_true, decide_eq_true_eq]
  constructor
  · rintro ⟨⟨hs, hn⟩, hi⟩
    exact ⟨⟨hn ▸ hs, hn.symm⟩, hi.symm⟩
  · rintro ⟨⟨hs, hn⟩, hi⟩
    exact ⟨⟨hn ▸ hs, hn.symm⟩, hi.symm⟩

/-- The devices table: `idx_devices_ip_network` and `idx_devices_uuid`. -/
def deviceSchema : Schema DeviceRow where
  id := DeviceRow.id
  clash a b := sameSlot a b || decide (a.deviceUuid = b.deviceUuid)
  clash_symm a b := by simp only [sameSlot_comm a b, eq_comm]

@[simp] theorem deviceSchema_id (r : DeviceRow) : deviceSchema.id r = r.id := rfl

theorem clash_eq_false {a b : DeviceRow} :
    deviceSchema.clash a b = false ↔
      (∀ n, a.networkId = some n → b.networkId = some n → a.ipAddress ≠ b.ipAddress) ∧
        a.deviceUuid ≠ b.deviceUuid := by
  have hslot : sameSlot a b = false ↔
      ∀ n, a.networkId = some n → b.networkId = some n → a.ipAddress ≠ b.ipAddress := by
    cases ha : a.networkId with
    | none => simp [sameSlot, ha]
    | some n =>
      simp only [sameSlot, ha, Option.isSome_some, Bool.true_and, Bool.and_eq_false_iff,
        decide_eq_false_iff_not]
      constructor
      · intro h m hm hb hip
        cases hm
        rcases h with h | h
        · exact h hb.symm
        · exact h hip
      · intro h
        by_cases hb : some n = b.networkId
        · exact .inr (h n rfl hb.symm)
        · exact .inl hb
  rw [← hslot]
  simp [deviceSchema]

/-- Edits that keep a row in its place are invisible to the indexes. -/
theorem inert_of_samePlace {f : DeviceRow → DeviceRow} (h : ∀ r, (f r).SamePlace r) :
    deviceSchema.Inert f :=
  ⟨fun r => (h r).id, fun r s => by
    simp only [deviceSchema, sameSlot, (h r).networkId, (h r).ipAddress, (h r).deviceUuid]⟩

abbrev Devices := Table deviceSchema

structure Presence where
  deviceId : Nat
  networkId : Nat
  ipAddress : String
  vantage : String
  firstSeen : Nat
  lastSeen : Nat
  deriving DecidableEq

structure Db where
  devices : Devices
  presence : List Presence

namespace Db

def empty : Db := ⟨Table.empty, []⟩

def rows (db : Db) : List DeviceRow := db.devices.rows

/-- `SELECT … WHERE ip_address = ? AND network_id = ?` (or `IS NULL`) `LIMIT 1`. -/
def slotHolder (db : Db) (ip : String) (net : Option Nat) : Option DeviceRow :=
  db.devices.select fun r => decide (r.At ip net)

/-- The MAC-less row of a slot. -/
def placeholder (db : Db) (ip : String) (net : Option Nat) : Option DeviceRow :=
  db.devices.select fun r => decide (r.At ip net ∧ r.macAddress = "")

/-- `SELECT … WHERE mac_address = ? LIMIT 1`. -/
def rowByMAC (db : Db) (mac : String) : Option DeviceRow :=
  db.devices.select fun r => decide (r.macAddress = mac)

end Db

/-- `ORDER BY (status='online') DESC, last_seen DESC`; NULL sorts below every time. -/
def liveness (r : DeviceRow) : ℕ ×ₗ ℕ :=
  toLex (if r.status = .online then 1 else 0, match r.lastSeen with | none => 0 | some t => t + 1)

variable (db : Db)

/-- The row the resolver takes for a MAC: the live one, then the freshest. -/
def Db.liveRowByMAC (mac : String) : Option DeviceRow :=
  db.devices.selectBy (fun r => decide (r.macAddress = mac)) liveness

def presenceFreshWindow : Nat := 24 * 60 * 60

/-- `HasFreshPresenceOutside`. -/
def Db.hasFreshPresenceOutside (now deviceId reporting : Nat) : Bool :=
  deviceId ≠ 0 && db.presence.any fun p =>
    p.deviceId = deviceId && p.networkId ≠ reporting && now - presenceFreshWindow ≤ p.lastSeen

/-- `UpsertNetworkPresence`: one row for each device and network. -/
def upsertPresence (ps : List Presence) (deviceId network : Nat) (ip vantage : String) (now : Nat) :
    List Presence :=
  match ps with
  | [] => [⟨deviceId, network, ip, vantage, now, now⟩]
  | p :: rest =>
    if p.deviceId = deviceId ∧ p.networkId = network then
      { p with ipAddress := ip, vantage := vantage, lastSeen := now } :: rest
    else p :: upsertPresence rest deviceId network ip vantage now

variable (deviceId network : Nat) (ip vantage : String) (now : Nat)

def Db.upsertNetworkPresence :
    Db :=
  if deviceId = 0 ∨ network = 0 then db
  else { db with presence := upsertPresence db.presence deviceId network ip vantage now }

@[simp] theorem Db.upsertNetworkPresence_devices :
    (db.upsertNetworkPresence deviceId network ip vantage now).devices = db.devices := by
  unfold Db.upsertNetworkPresence
  split <;> rfl

/-- `UPDATE devices … WHERE id = ?` of columns outside the indexes. -/
def Db.modify (i : Nat) (f : DeviceRow → DeviceRow) (hf : ∀ r, (f r).SamePlace r) : Db :=
  { db with devices := db.devices.modify i f (inert_of_samePlace hf) }

/-- `UPDATE devices … WHERE id = ?` that an index may refuse. -/
def Db.update (i : Nat) (f : DeviceRow → DeviceRow) (hf : ∀ r, (f r).id = r.id) :
    Option Db :=
  (db.devices.update i f hf).map fun t => { db with devices := t }

/-- `INSERT INTO devices` with the next row id. -/
def Db.insert (mk : Nat → DeviceRow) (hmk : ∀ i, (mk i).id = i) : Option Db :=
  (db.devices.insert mk hmk).map fun t => { db with devices := t }

/-- `DELETE FROM devices`; presence rows go with their device. -/
def Db.delete (p : DeviceRow → Bool) : Db where
  devices := db.devices.delete p
  presence := db.presence.filter fun q => !(db.rows.any fun r => p r && r.id = q.deviceId)

namespace Db

variable {db : Db} {r : DeviceRow} {ip : String} {net : Option Nat}

theorem eq_of_id {s : DeviceRow} (hr : r ∈ db.rows) (hs : s ∈ db.rows) (h : r.id = s.id) : r = s :=
  db.devices.eq_of_id hr hs h

theorem id_ne_zero (hr : r ∈ db.rows) : r.id ≠ 0 :=
  Nat.ne_of_gt (db.devices.positive r hr)

variable {n : Nat} {h : DeviceRow} {mac : String}

theorem eq_of_slot {s : DeviceRow} (hr : r ∈ db.rows) (hs : s ∈ db.rows) (h : r.At ip (some n))
    (h' : s.At ip (some n)) : r = s := by
  by_contra hne
  have hid : r.id ≠ s.id := fun e => hne (eq_of_id hr hs e)
  have hc := db.devices.no_clash hr hs hid
  exact (clash_eq_false.mp hc).1 n h.2 h'.2 (h.1.trans h'.1.symm)

theorem slotHolder_eq_none : db.slotHolder ip net = none ↔ ∀ r ∈ db.rows, ¬ r.At ip net := by
  simp [slotHolder, Table.select_eq_none, rows]

theorem slotHolder_eq_some :
    db.slotHolder ip net = some h ↔
      h ∈ db.rows ∧ h.At ip net ∧ ∀ s ∈ db.rows, s.At ip net → h.id ≤ s.id := by
  simp [slotHolder, Table.select_eq_some, rows]

theorem slotHolder_some_iff :
    db.slotHolder ip (some n) = some h ↔ h ∈ db.rows ∧ h.At ip (some n) := by
  rw [slotHolder_eq_some]
  constructor
  · rintro ⟨hm, ha, -⟩
    exact ⟨hm, ha⟩
  · rintro ⟨hm, ha⟩
    refine ⟨hm, ha, fun s hs hsa => ?_⟩
    rw [eq_of_slot hm hs ha hsa]

theorem placeholder_eq_none :
    db.placeholder ip net = none ↔ ∀ r ∈ db.rows, r.At ip net → r.macAddress ≠ "" := by
  simp [placeholder, Table.select_eq_none, rows]

theorem placeholder_eq_some {p : DeviceRow} :
    db.placeholder ip net = some p ↔ p ∈ db.rows ∧ (p.At ip net ∧ p.macAddress = "") ∧
      ∀ s ∈ db.rows, s.At ip net → s.macAddress = "" → p.id ≤ s.id := by
  simp [placeholder, Table.select_eq_some, rows]

theorem rowByMAC_eq_none : db.rowByMAC mac = none ↔ ∀ r ∈ db.rows, r.macAddress ≠ mac := by
  simp [rowByMAC, Table.select_eq_none, rows]

theorem rowByMAC_eq_some :
    db.rowByMAC mac = some r ↔
      r ∈ db.rows ∧ r.macAddress = mac ∧ ∀ s ∈ db.rows, s.macAddress = mac → r.id ≤ s.id := by
  simp [rowByMAC, Table.select_eq_some, rows]

end Db

/-- The row `m` is the one the resolver takes for `mac`: no row with that MAC is
more alive, and none as alive has a lower id. -/
structure Preferred (db : Db) (mac : String) (m : DeviceRow) : Prop where
  mem : m ∈ db.rows
  carries : m.macAddress = mac
  best : ∀ s ∈ db.rows, s.macAddress = mac →
    liveness s < liveness m ∨ (liveness s = liveness m ∧ m.id ≤ s.id)

namespace Db

variable {db : Db} {mac : String}

theorem liveRowByMAC_eq_none : db.liveRowByMAC mac = none ↔ ∀ r ∈ db.rows, r.macAddress ≠ mac := by
  simp [liveRowByMAC, Table.selectBy_eq_none, rows]

theorem liveRowByMAC_eq_some {m : DeviceRow} :
    db.liveRowByMAC mac = some m ↔ Preferred db mac m := by
  unfold liveRowByMAC
  rw [Table.selectBy_eq_some]
  simp only [decide_eq_true_eq]
  constructor
  · rintro ⟨hm, hmac, hbest⟩
    exact ⟨hm, hmac, hbest⟩
  · intro h
    exact ⟨h.mem, h.carries, h.best⟩

end Db

theorem liveness_online (hr : r.status ≠ .online) (hs : s.status = .online) :
    liveness r < liveness s := by
  left
  simp [hr, hs]

theorem Preferred.online {db : Db} {mac : String} {m : DeviceRow} (h : Preferred db mac m)
    (hs : s ∈ db.rows) (hmac : s.macAddress = mac) (hon : s.status = .online) :
    m.status = .online := by
  by_contra hm
  have hlt := liveness_online hm hon
  rcases h.best s hs hmac with hb | ⟨hb, -⟩
  · exact absurd hlt (not_lt_of_gt hb)
  · exact absurd hb (ne_of_gt hlt)

end Steward
