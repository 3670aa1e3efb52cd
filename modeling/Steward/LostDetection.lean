import Steward.LeaseSweeper

/-!
# Lost detection of local scans

`DetectLost` renews the leases of the addresses that answered, counts a miss on
every other lease of the network, and sets the online device at an overdue
address offline. Misses are kept by address: neither the targets of the scan nor
the device that a lease is attributed to enter.
-/

namespace Steward

open RowTable Runs List

/-- `LostThreshold`. -/
def lostThreshold (configured : Int) : Nat := if 0 < configured then configured.toNat else 2

theorem lostThreshold_pos (configured : Int) : 0 < lostThreshold configured := by
  unfold lostThreshold
  split <;> omega

namespace Center

/-- `batchIncrementMiss`. -/
def batchIncrementMiss (c : Center) (net : Nat) (alive : List String) : Center :=
  { c with
    snapshots := c.snapshots.modifyWhere (fun s => s.networkId = net ∧ s.ip ∉ alive)
      (fun s => { s with missCount := s.missCount + 1 })
      (inert_of_sameSlot fun _ => ⟨rfl, rfl, rfl⟩) }

/-- `ListLostSnapshots`: the devices at overdue addresses. -/
def lostSnapshots (c : Center) (net threshold : Nat) : List Nat :=
  c.snapshots.rows.flatMap fun s =>
    (c.db.rows.filter fun d => d.ipAddress = s.ip ∧
      (d.networkId = some s.networkId ∨ d.networkId = none) ∧ s.networkId = net ∧
        threshold ≤ s.missCount ∧ d.status = .online).map DeviceRow.id

end Center

/-- One device of the lost list. -/
def Pass.declareLost (now net : Nat) (agentId : String) (p : Pass) (i : Nat) : Pass :=
  let c := p.center.setOffline i now
  { center := c, events := p.events ++ [c.deviceLost i net agentId] }

namespace Center

/-- `DetectLost`. -/
def detectLost (c : Center) (configured : Int) (net : Option Nat) (taskId now : Nat)
    (hosts : List ScannedHost) (agentId : String) : Pass :=
  match net with
  | none => ⟨c, []⟩
  | some n =>
    let c :=
      (c.recordAliveSnapshots (some n) taskId now hosts).batchIncrementMiss n (aliveIPs hosts)
    Runs.run (Pass.declareLost now n agentId) ⟨c, []⟩ (c.lostSnapshots n (lostThreshold configured))

variable {c : Center} {net now taskId : Nat} {ip mac uuid : String} {s : Snapshot}
  {hosts : List ScannedHost} {threshold i : Nat}

theorem mem_lostSnapshots :
    i ∈ c.lostSnapshots net threshold ↔ ∃ d, c.device i = some d ∧ d.status = .online ∧
      (d.networkId = some net ∨ d.networkId = none) ∧
        ∃ s ∈ c.snapshots.rows, s.networkId = net ∧ s.ip = d.ipAddress ∧
          threshold ≤ s.missCount := by
  simp only [lostSnapshots, mem_flatMap, mem_map, mem_filter, decide_eq_true_eq]
  constructor
  · rintro ⟨s, hs, d, ⟨hd, hip, hnet, rfl, hmiss, hon⟩, rfl⟩
    exact ⟨d, mem_rows_iff.mp hd, hon, hnet, s, hs, rfl, hip.symm, hmiss⟩
  · rintro ⟨d, hd, hon, hnet, s, hs, rfl, hip, hmiss⟩
    have hid : d.id = i := Table.id_of_get? (t := c.db.devices) hd
    exact ⟨s, hs, d, ⟨Table.mem_of_get? hd, hip.symm, hnet, rfl, hmiss, hon⟩, hid⟩

/-! ## The leases after the renewals -/

/-- A lease after a renewal is one of another slot from before, or it has no misses. -/
theorem mem_upsert_cases {taskId : Option Nat}
    (hs : s ∈ (c.upsertScanSnapshot net taskId ip mac uuid now).snapshots.rows) :
    (s ∈ c.snapshots.rows ∧ ¬ (s.networkId = net ∧ s.ip = ip)) ∨
      ((s.networkId = net ∧ s.ip = ip) ∧ s.missCount = 0) := by
  unfold upsertScanSnapshot at hs
  split at hs
  · next t ht =>
    obtain ⟨htmem, htn, hti⟩ := leaseAt_eq_some ht
    obtain ⟨r, hr, rfl⟩ := mem_map.mp hs
    by_cases hid : r.id = t.id
    · cases c.snapshots.eq_of_id hr htmem hid
      simp [Schema.onId, renewLease, htn, hti]
    · left
      simp only [Schema.onId, snapshotSchema_id, hid, if_false]
      -- two leases in one slot are one
      exact ⟨hr, fun hslot => hid (congrArg Snapshot.id (snapshot_eq_of_slot hr htmem
        (hslot.1.trans htn.symm) (hslot.2.trans hti.symm)))⟩
  · next hnone =>
    have hno := leaseAt_eq_none hnone
    cases hins : c.snapshots.insert (newLease net taskId ip mac uuid now) (fun _ => rfl) with
    | none =>
      simp only [hins, Option.getD_none] at hs
      exact .inl ⟨hs, hno s hs⟩
    | some t =>
      obtain ⟨-, hrows, -⟩ := Table.insert_eq_some hins
      simp only [hins, Option.getD_some, hrows, mem_append, mem_singleton] at hs
      rcases hs with hs | rfl
      · exact .inl ⟨hs, hno s hs⟩
      · exact .inr ⟨⟨rfl, rfl⟩, rfl⟩

theorem mem_upsert_other {taskId : Option Nat} (h : ¬ (s.networkId = net ∧ s.ip = ip)) :
    s ∈ (c.upsertScanSnapshot net taskId ip mac uuid now).snapshots.rows ↔
      s ∈ c.snapshots.rows := by
  constructor
  · intro hs
    rcases mem_upsert_cases hs with ⟨hold, -⟩ | ⟨hslot, -⟩
    · exact hold
    · exact absurd hslot h
  · intro hs
    have hget : c.lease s.id = some s := Table.get?_of_mem (t := c.snapshots) hs
    have hafter := lease_upsert hget net taskId ip mac uuid now
    rw [if_neg h] at hafter
    exact Table.mem_of_get? hafter

theorem mem_upsert_slot {taskId : Option Nat}
    (hs : s ∈ (c.upsertScanSnapshot net taskId ip mac uuid now).snapshots.rows)
    (h : s.networkId = net ∧ s.ip = ip) : s.missCount = 0 := by
  rcases mem_upsert_cases hs with ⟨-, hother⟩ | ⟨-, hmiss⟩
  · exact absurd h hother
  · exact hmiss

theorem aliveIPs_cons (h : ScannedHost) (hosts : List ScannedHost) :
    aliveIPs (h :: hosts) = (if h.Counts then [h.report.ip] else []) ++ aliveIPs hosts := by
  by_cases hc : h.Counts <;> simp [aliveIPs, hc]

/-- The leases after one host. -/
theorem recordAlive_snapshots (net taskId now : Nat) (c : Center) (h : ScannedHost) :
    (recordAlive net taskId now c h).snapshots =
      if h.Counts then
        (c.upsertScanSnapshot net (if 0 < taskId then some taskId else none) h.report.ip
          (reportMAC h.report)
          (c.resolveDeviceUUIDForIP (reportMAC h.report) h.report.ip (some net)) now).snapshots
      else c.snapshots := by
  unfold recordAlive
  split
  · simp only
    split <;> rfl
  · rfl

theorem mem_recordAlive_other (h : ¬ (s.networkId = net ∧ s.ip ∈ aliveIPs hosts)) :
    s ∈ (run (recordAlive net taskId now) c hosts).snapshots.rows ↔ s ∈ c.snapshots.rows := by
  induction hosts generalizing c with
  | nil => rfl
  | cons host rest ih =>
    rw [aliveIPs_cons] at h
    rw [run_cons, ih (fun hin => h ⟨hin.1, mem_append_right _ hin.2⟩), recordAlive_snapshots]
    split
    · next hc =>
      refine mem_upsert_other fun hin => h ⟨hin.1, mem_append_left _ ?_⟩
      simp [hc, hin.2]
    · rfl

theorem missCount_recordAlive
    (hs : s ∈ (run (recordAlive net taskId now) c hosts).snapshots.rows)
    (hnet : s.networkId = net) (hip : s.ip ∈ aliveIPs hosts) : s.missCount = 0 := by
  induction hosts generalizing c with
  | nil => simp [aliveIPs] at hip
  | cons host rest ih =>
    by_cases hrest : s.ip ∈ aliveIPs rest
    · exact ih hs hrest
    · rw [run_cons, mem_recordAlive_other (fun hin => hrest hin.2), recordAlive_snapshots] at hs
      have hc : host.Counts ∧ s.ip = host.report.ip := by
        rw [aliveIPs_cons] at hip
        by_cases hc : host.Counts <;> simp_all
      rw [if_pos hc.1] at hs
      exact mem_upsert_slot hs ⟨hnet, hc.2⟩

/-- What renewals leave of a device row: they only move its last sighting. -/
theorem device_recordAlive (net taskId now : Nat) (c : Center) (hosts : List ScannedHost)
    (i : Nat) :
    (run (recordAlive net taskId now) c hosts).status i = c.status i ∧
      (run (recordAlive net taskId now) c hosts).place i = c.place i := by
  refine run_preserves
    (P := fun c' : Center => c'.status i = c.status i ∧ c'.place i = c.place i) ?_ ⟨rfl, rfl⟩
  intro c' h hc
  rw [← hc.1, ← hc.2]
  unfold recordAlive
  split
  · simp only
    split
    · rw [status_stampLastSeen, place_stampLastSeen]
      simp only [status, place, device, upsert_db, and_self]
    · simp only [status, place, device, upsert_db, and_self]
  · exact ⟨rfl, rfl⟩

/-- The address of the online device answered no probe of the scan, and its lease is overdue. -/
def Stranded (c : Center) (configured : Int) (net : Option Nat) (hosts : List ScannedHost)
    (i : Nat) : Prop :=
  ∃ n ∈ net, ∃ d ∈ c.device i, d.status = .online ∧
    (d.networkId = some n ∨ d.networkId = none) ∧ d.ipAddress ∉ aliveIPs hosts ∧
      ∃ s ∈ c.snapshots.rows, s.networkId = n ∧ s.ip = d.ipAddress ∧
        lostThreshold configured ≤ s.missCount + 1

instance (c : Center) (configured : Int) (net : Option Nat) (hosts : List ScannedHost) (i : Nat) :
    Decidable (c.Stranded configured net hosts i) :=
  inferInstanceAs (Decidable (∃ n ∈ net, _))

/-- The leases of an address that did not answer get one more miss. -/
theorem exists_missed (net taskId now : Nat) (hnot : ip ∉ aliveIPs hosts) (P : Nat → Prop) :
    (∃ s ∈ ((run (recordAlive net taskId now) c hosts).batchIncrementMiss net
        (aliveIPs hosts)).snapshots.rows, s.networkId = net ∧ s.ip = ip ∧ P s.missCount) ↔
      ∃ s ∈ c.snapshots.rows, s.networkId = net ∧ s.ip = ip ∧ P (s.missCount + 1) := by
  simp only [batchIncrementMiss, Table.modifyWhere_rows, mem_map]
  constructor
  · rintro ⟨_, ⟨s, hs, rfl⟩, hn, hip, hmiss⟩
    have hslot : s.networkId = net ∧ s.ip = ip := by
      split at hn <;> split at hip <;> exact ⟨hn, hip⟩
    rw [mem_recordAlive_other fun hin => hnot (hslot.2 ▸ hin.2)] at hs
    refine ⟨s, hs, hslot.1, hslot.2, ?_⟩
    simpa [hslot.1, hslot.2, hnot] using hmiss
  · rintro ⟨s, hs, hn, hip, hmiss⟩
    refine ⟨_, ⟨s, (mem_recordAlive_other fun hin => hnot (hip ▸ hin.2)).mpr hs, rfl⟩, ?_⟩
    simpa [hn, hip, hnot] using hmiss

/-- The leases that the lost query reads. -/
theorem overdue_iff (hpos : 0 < threshold) :
    (∃ s ∈ ((run (recordAlive net taskId now) c hosts).batchIncrementMiss net
        (aliveIPs hosts)).snapshots.rows, s.networkId = net ∧ s.ip = ip ∧ threshold ≤ s.missCount) ↔
      ip ∉ aliveIPs hosts ∧
        ∃ s ∈ c.snapshots.rows, s.networkId = net ∧ s.ip = ip ∧ threshold ≤ s.missCount + 1 := by
  by_cases halive : ip ∈ aliveIPs hosts
  · refine ⟨?_, fun h => absurd halive h.1⟩
    rintro ⟨s', hs', hn, rfl, hmiss⟩
    -- A renewed lease has no misses, and the update passes it by.
    simp only [batchIncrementMiss, Table.modifyWhere_rows, mem_map] at hs'
    obtain ⟨s, hs, rfl⟩ := hs'
    by_cases hin : s.ip ∈ aliveIPs hosts
    · simp only [hin, not_true_eq_false, and_false, decide_false] at hn hmiss
      rw [if_neg (by simp)] at hn hmiss
      have := missCount_recordAlive hs hn hin
      omega
    · split at halive <;> exact absurd halive hin
  · rw [exists_missed net taskId now halive (threshold ≤ ·)]
    exact (and_iff_right halive).symm

theorem lost_iff_stranded {configured : Int} {n : Nat} :
    i ∈ ((c.recordAliveSnapshots (some n) taskId now hosts).batchIncrementMiss n
        (aliveIPs hosts)).lostSnapshots n (lostThreshold configured) ↔
      c.Stranded configured (some n) hosts i := by
  have hrow := device_recordAlive n taskId now c hosts i
  simp only [mem_lostSnapshots, recordAliveSnapshots,
    overdue_iff (lostThreshold_pos configured), Stranded, Option.mem_def,
    Option.some.injEq, exists_eq_left']
  have same : ∀ {a b : Center}, a.status i = b.status i ∧ a.place i = b.place i →
      ∀ {d}, a.device i = some d → ∃ d', b.device i = some d' ∧ d'.status = d.status ∧
        d'.networkId = d.networkId ∧ d'.ipAddress = d.ipAddress := by
    intro a b hab d hd
    simp only [status, place, hd, Option.map_some] at hab
    obtain ⟨d', hd', hst⟩ := Option.map_eq_some_iff.mp hab.1.symm
    simp only [hd', Option.map_some, Option.some.injEq, Prod.mk.injEq] at hab
    exact ⟨d', hd', hst, hab.2.2.2.symm, hab.2.2.1.symm⟩
  constructor
  · rintro ⟨d', hd', hon, hnet, hlease⟩
    obtain ⟨d, hd, hst, hn, hip⟩ := same hrow hd'
    exact ⟨d, hd, hst.trans hon, hn ▸ hnet, hip ▸ hlease⟩
  · rintro ⟨d, hd, hon, hnet, hlease⟩
    obtain ⟨d', hd', hst, hn, hip⟩ := same ⟨hrow.1.symm, hrow.2.symm⟩ hd
    exact ⟨d', hd', hst.trans hon, hn ▸ hnet, hip ▸ hlease⟩

/-- Lost detection sets the stranded devices offline and changes no other status. -/
theorem detectLost_status (c : Center) (configured : Int) (net : Option Nat) (taskId now : Nat)
    (hosts : List ScannedHost) (agentId : String) (i : Nat) :
    (c.detectLost configured net taskId now hosts agentId).center.status i =
      if c.Stranded configured net hosts i then some .offline else c.status i := by
  cases net with
  | none => simp [detectLost, Stranded]
  | some n =>
    have hrun := status_run (F := Pass.declareLost now n agentId) (D := id) (v := .offline)
      (fun p a j => status_setOffline p.center a now j)
    simp only [detectLost, hrun, map_id]
    have hst : ((c.recordAliveSnapshots (some n) taskId now hosts).batchIncrementMiss n
        (aliveIPs hosts)).status i = c.status i := (device_recordAlive n taskId now c hosts i).1
    rw [hst]
    by_cases hs : c.Stranded configured (some n) hosts i
    · rw [if_pos hs, if_pos (lost_iff_stranded.mpr hs)]
      obtain ⟨-, -, d, hd, -⟩ := hs
      simp [status, show c.device i = some d from hd]
    · rw [if_neg hs, if_neg fun hin => hs (lost_iff_stranded.mp hin)]

/-- The pass takes the device from another status to offline. -/
def SetsOffline (c : Center) (p : Pass) (i : Nat) : Prop :=
  c.status i ≠ some .offline ∧ p.center.status i = some .offline

instance (c : Center) (p : Pass) (i : Nat) : Decidable (c.SetsOffline p i) :=
  inferInstanceAs (Decidable (_ ∧ _))

theorem setsOffline_iff (c : Center) (configured : Int) (net : Option Nat) (taskId now : Nat)
    (hosts : List ScannedHost) (agentId : String) (i : Nat) :
    c.SetsOffline (c.detectLost configured net taskId now hosts agentId) i ↔
      c.Stranded configured net hosts i := by
  rw [SetsOffline, detectLost_status]
  by_cases hs : c.Stranded configured net hosts i
  · obtain ⟨-, -, d, hd, hon, -⟩ := hs
    simp [status_eq hd, hon]
  · simp [hs]

/-! ## Devices that the scan saw -/

/-- `persistHost`, with the uuid for a row that has to be created. -/
def persistHost (net : Option Nat) (now : Nat) (c : Center) (h : ScannedHost × String) : Center :=
  if h.1.alive then c.bridge now h.2 h.1.report { net := net } else c

/-- `RecordAliveSnapshots` attributes the lease of an alive report to device `i`. -/
def Assigned (c : Center) (net : Option Nat) (taskId now : Nat) (hosts : List ScannedHost)
    (i : Nat) : Prop :=
  ∃ n ∈ net, ∃ before h after, hosts = before ++ h :: after ∧ h.Counts ∧
    let here := Runs.run (recordAlive n taskId now) c before
    ∃ d ∈ here.device i, d.deviceUuid ≠ "" ∧
      d.deviceUuid = here.resolveDeviceUUIDForIP (reportMAC h.report) h.report.ip (some n)

/-- Lost detection spares the devices it saw exactly when none of them is stranded: their rows sit
at addresses that answered, or at addresses without an overdue lease. -/
theorem detectLost_spares_assigned_iff (c₀ : Center) (configured : Int) (net : Option Nat)
    (taskId now : Nat) (hosts : List (ScannedHost × String)) :
    let c := Runs.run (persistHost net now) c₀ hosts
    let reports := hosts.map Prod.fst
    (∀ i, c.Assigned net taskId now reports i →
        ¬ c.SetsOffline (c.detectLost configured net taskId now reports "") i) ↔
      ∀ i, c.Assigned net taskId now reports i → ¬ c.Stranded configured net reports i := by
  simp only [setsOffline_iff]

/-- A switch at one address, and a row without a MAC at another. -/
def switchAndPlaceholder : Center :=
  let switch := sighting "02:00:00:00:00:01" "10.0.0.1"
  let placeholder := sighting "" "10.0.0.2"
  let c := ((empty.addNetwork none).bridge 100 "u1" switch { net := some 1 }).bridge 100 "u2"
    placeholder { net := some 1 }
  (c.detectLost 2 (some 1) 7 100 [⟨true, switch⟩, ⟨true, placeholder⟩] "").center

/-- The switch answers from the address of the placeholder. -/
def moved : List (ScannedHost × String) :=
  [(⟨true, sighting "02:00:00:00:00:01" "10.0.0.2"⟩, "u3")]

/-- Its row cannot follow, and the second scan that sees it alive sets it offline. -/
theorem seen_device_set_offline :
    let c := Runs.run (persistHost (some 1) 200) switchAndPlaceholder moved
    let c := (c.detectLost 2 (some 1) 7 200 (moved.map Prod.fst) "").center
    let c := Runs.run (persistHost (some 1) 300) c moved
    c.Assigned (some 1) 7 300 (moved.map Prod.fst) 1 ∧
      c.SetsOffline (c.detectLost 2 (some 1) 7 300 (moved.map Prod.fst) "") 1 := by
  refine ⟨⟨1, rfl, [], _, [], rfl, by decide, ?_⟩, by decide +kernel⟩
  decide +kernel

/-! ## Devices that the scans did not look at -/

end Center

/-- A local scan: what it reports on lies among its targets. -/
structure LocalScan where
  taskId : Nat
  now : Nat
  targets : List String
  hosts : List ScannedHost
  within : ∀ h ∈ hosts, h.report.ip ∈ targets

theorem LocalScan.not_alive {s : LocalScan} {ip : String} (h : ip ∉ s.targets) :
    ip ∉ aliveIPs s.hosts := by
  simp only [aliveIPs, mem_map, mem_filter]
  rintro ⟨host, ⟨hmem, -⟩, rfl⟩
  exact h (s.within host hmem)

namespace Center

def afterScan (configured : Int) (net : Nat) (c : Center) (s : LocalScan) : Center :=
  (c.detectLost configured (some net) s.taskId s.now s.hosts "").center

variable (c : Center) (configured : Int) (net : Nat) (ip : String) (more : Nat)

/-- The lease of the address has been missed so often that `more` misses make it lost. -/
def OverdueIn : Prop :=
  ∃ s ∈ c.snapshots.rows, s.networkId = net ∧ s.ip = ip ∧
    lostThreshold configured ≤ s.missCount + more

instance :
    Decidable (c.OverdueIn configured net ip more) :=
  inferInstanceAs (Decidable (∃ s ∈ c.snapshots.rows, _))

/-- Declaring devices lost touches no lease and moves no row. -/
theorem run_declareLost (now net : Nat) (agentId : String) (p : Pass) (is : List Nat) :
    (run (Pass.declareLost now net agentId) p is).center.snapshots = p.center.snapshots ∧
      (run (Pass.declareLost now net agentId) p is).center.place = p.center.place := by
  induction is generalizing p with
  | nil => exact ⟨rfl, rfl⟩
  | cons i rest ih =>
    obtain ⟨hsnap, hplace⟩ := ih (p.declareLost now net agentId i)
    exact ⟨hsnap, hplace.trans (kept_setOffline 0 p.center i now).place⟩

variable {c : Center} {configured : Int} {net : Nat}

/-- A scan that does not look at the address brings its lease one miss closer. -/
theorem afterScan_overdueIn {s : LocalScan} {ip : String} (hout : ip ∉ s.targets) (more : Nat) :
    (c.afterScan configured net s).OverdueIn configured net ip more ↔
      c.OverdueIn configured net ip (more + 1) := by
  have hsnap : (c.afterScan configured net s).snapshots =
      ((run (recordAlive net s.taskId s.now) c s.hosts).batchIncrementMiss net
        (aliveIPs s.hosts)).snapshots := (run_declareLost s.now net "" _ _).1
  simp only [OverdueIn, hsnap]
  rw [exists_missed net s.taskId s.now (LocalScan.not_alive hout)
    (lostThreshold configured ≤ · + more)]
  simp only [Nat.add_right_comm _ 1, Nat.add_assoc]

theorem afterScan_place (c : Center) (configured : Int) (net : Nat) (s : LocalScan) :
    (c.afterScan configured net s).place = c.place := by
  funext i
  have hplace : (c.afterScan configured net s).place i =
      ((c.recordAliveSnapshots (some net) s.taskId s.now s.hosts).batchIncrementMiss net
        (aliveIPs s.hosts)).place i := congrFun (run_declareLost s.now net "" _ _).2 i
  exact hplace.trans (device_recordAlive net s.taskId s.now c s.hosts i).2

theorem run_afterScan_offline {i : Nat} (h : c.status i = some .offline) (scans : List LocalScan) :
    (run (afterScan configured net) c scans).status i = some .offline := by
  refine run_preserves (P := fun c : Center => c.status i = some .offline) ?_ h
  intro c s hc
  rw [afterScan, detectLost_status]
  split
  · rfl
  · exact hc

/-- Scans that never look at the address of an online device set it offline exactly when they have
brought the misses of the address to the threshold. -/
theorem unscanned_status (c : Center) (configured : Int) (net i : Nat) (d : DeviceRow)
    (scans : List LocalScan) (hd : c.device i = some d) (hnet : d.networkId = some net)
    (hon : d.status = .online) (hout : ∀ s ∈ scans, d.ipAddress ∉ s.targets) :
    (Runs.run (afterScan configured net) c scans).status i = some
      (if scans ≠ [] ∧ c.OverdueIn configured net d.ipAddress scans.length then .offline
        else .online) := by
  induction scans generalizing c d with
  | nil => simp [status_eq hd, hon]
  | cons s rest ih =>
    have hs : d.ipAddress ∉ s.targets := hout s mem_cons_self
    have hstranded : c.Stranded configured (some net) s.hosts i ↔
        c.OverdueIn configured net d.ipAddress 1 := by
      constructor
      · rintro ⟨n, hn, d', hd', -, -, -, hlease⟩
        cases hn
        cases hd.symm.trans hd'
        exact hlease
      · intro hlease
        exact ⟨net, rfl, d, hd, hon, .inl hnet, LocalScan.not_alive hs, hlease⟩
    have hst : (c.afterScan configured net s).status i = _ :=
      c.detectLost_status configured (some net) s.taskId s.now s.hosts "" i
    rw [run_cons]
    by_cases hover : c.OverdueIn configured net d.ipAddress 1
    · -- This scan already reaches the threshold.
      rw [if_pos (hstranded.mpr hover)] at hst
      rw [run_afterScan_offline hst rest, if_pos]
      obtain ⟨t, ht, hn, hip, hmiss⟩ := hover
      exact ⟨by simp, t, ht, hn, hip, by rw [length_cons]; omega⟩
    · rw [if_neg fun h => hover (hstranded.mp h), status_eq hd, hon] at hst
      obtain ⟨d', hd', hu, hip, hn⟩ := device_of_place (c.afterScan_place configured net s).symm hd
      have hon' : d'.status = .online := by
        rw [status_eq hd'] at hst
        exact Option.some.inj hst
      have hrest := ih (c.afterScan configured net s) d' hd' (hn ▸ hnet) hon' fun t ht =>
        hip ▸ hout t (mem_cons_of_mem s ht)
      rw [hrest, ← hip]
      simp only [afterScan_overdueIn hs]
      cases rest with
      | nil => simp [hover]
      | cons t rest => simp

/-- A switch that no scan looks at is online after one scan and offline after two. -/
theorem unscanned_status_switch :
    let c := (((empty.addNetwork none).bridge 100 "u1" (sighting "02:00:00:00:00:01" "10.0.0.1")
      { net := some 1 }).detectLost 2 (some 1) 7 100
        [⟨true, sighting "02:00:00:00:00:01" "10.0.0.1"⟩] "").center
    let scan : LocalScan := ⟨7, 200, ["10.0.0.2"], [], by simp⟩
    (Runs.run (afterScan 2 1) c [scan]).status 1 = some .online ∧
      (Runs.run (afterScan 2 1) c [scan, scan]).status 1 = some .offline := by
  intro c scan
  have hrow : ∃ d ∈ c.device 1, d.networkId = some 1 ∧ d.status = .online ∧
      d.ipAddress = "10.0.0.1" := by decide +kernel
  obtain ⟨d, hd, hn, hon, hip⟩ := hrow
  have h1 := unscanned_status c 2 1 1 d [scan] hd hn hon (by simp [scan, hip])
  have h2 := unscanned_status c 2 1 1 d [scan, scan] hd hn hon (by simp [scan, hip])
  have hover : ¬ c.OverdueIn 2 1 "10.0.0.1" 1 ∧ c.OverdueIn 2 1 "10.0.0.1" 2 := by decide +kernel
  rw [hip] at h1 h2
  exact ⟨by simpa [hover.1] using h1, by simpa [hover.2] using h2⟩

/-- Two scans of another address declare the switch lost. -/
theorem unscanned_device_set_offline :
    let c := (((empty.addNetwork none).bridge 100 "u1" (sighting "02:00:00:00:00:01" "10.0.0.1")
      { net := some 1 }).detectLost 2 (some 1) 7 100
        [⟨true, sighting "02:00:00:00:00:01" "10.0.0.1"⟩] "").center
    let scan : LocalScan := ⟨7, 200, ["10.0.0.2"], [], by simp⟩
    (∀ d ∈ c.db.rows, d.ipAddress ∉ scan.targets ∧ d.networkId = some 1 ∧ d.status = .online) ∧
      (c.afterScan 2 1 scan).SetsOffline
        ((c.afterScan 2 1 scan).detectLost 2 (some 1) scan.taskId scan.now scan.hosts "") 1 := by
  decide +kernel

end Center

end Steward
