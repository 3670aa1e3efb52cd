import Steward.AgentWire
import Steward.SteadyTable

/-!
# The report handler

`AgentReportHandler.Report` for the reports of one network. A scan batch whose
digest is the last one seen skips the device bridge and renews the leases only.
The handler forgets the digest for no other write to the devices: a batch
without a digest reaches the bridge and leaves the last digest in place.
-/

namespace Steward

open JsonValue RowTable List

structure AgentSelfInterface where
  cidr : String := ""
  primary : Bool := false

structure AgentReport where
  origin : String := ""
  networkCIDR : String := ""
  /-- `meta.self_interfaces`, empty without the block. -/
  selfInterfaces : List AgentSelfInterface := []
  hosts : List ReportedHost

/-- A report as it arrives: the header, the agent of the token, the clock and the uuids that new
rows would get. -/
structure ReportRequest where
  report : AgentReport
  stateHash : String := ""
  agentId : String := ""
  now : Nat := 0
  uuid : Nat → String

/-- `cidrutil`: the networks that parse and the addresses in them. -/
structure Geometry (β : Type) where
  parseNetwork : String → Option β
  containsIP : β → String → Bool

/-- The center and what the handler keeps for the network: `networks.cidr`, the parsed boundary
and the last digest. -/
structure ReportHandler (β : Type) where
  center : Center
  cidr : Option String := none
  cidrCache : Option (Option β) := none
  lastHash : String := ""

structure ReportAck where
  accepted : Nat := 0
  added : Nat := 0
  updated : Nat := 0
  skipped : Nat := 0
  outOfNetwork : Nat := 0
  stable : Bool := false
  reconciled : Nat := 0
  deriving DecidableEq

def AgentReport.passive (r : AgentReport) : Bool := r.origin = "passive"

/-- The configured network, else the first detected primary interface. -/
def AgentReport.reportedCIDR (r : AgentReport) : String :=
  if r.networkCIDR ≠ "" then r.networkCIDR
  else ((r.selfInterfaces.find? fun i => i.primary && i.cidr ≠ "").map (·.cidr)).getD ""

/-- A host that counts for the alive set. -/
def ReportedHost.counts (h : ReportedHost) : Bool := h.alive && h.ip ≠ ""

/-- The other addresses of the host's MAC in the batch. -/
def batchAliases (hosts : List ReportedHost) (h : ReportedHost) : List String :=
  let mac := normalizeMAC h.mac
  if mac = "" then []
  else
    ((hosts.filter fun g => normalizeMAC g.mac = mac && g.ip ≠ h.ip).map ReportedHost.ip).dedup

def hostReportsForLease (hosts : List ReportedHost) : List ScannedHost :=
  (hosts.filter ReportedHost.counts).map fun h => ⟨h.alive, reportedHostToReport h⟩

/-- The bridge loop: the center and the counters of the acknowledgement. -/
structure BridgeLoop where
  center : Center
  added : Nat := 0
  updated : Nat := 0

variable (n : Nat) (q : ReportRequest)

/-- `ApplyReport` of one host of the batch, with the position of the host. -/
def applyHost (hosts : List ReportedHost) (a : BridgeLoop)
    (x : ReportedHost × Nat) : BridgeLoop :=
  let rep := batchReport q.report.passive x.1
  let van : Vantage := ⟨some n, q.agentId, batchAliases hosts x.1⟩
  let bridged := applyDeviceBridge a.center.db q.now (q.uuid x.2) rep van
  { center := a.center.bridge q.now (q.uuid x.2) rep van
    added := if bridged.isNew then a.added + 1 else a.added
    updated := if !bridged.isNew && bridged.changed then a.updated + 1 else a.updated }

def applyHosts (hosts : List ReportedHost) (c : Center) :
    BridgeLoop :=
  Runs.run (applyHost n q hosts) { center := c } hosts.zipIdx

def emptyColumn (s : String) : Bool := s = "" || s = "[]"

def ReportedHost.carriesServices (h : ReportedHost) : Bool :=
  !h.services.isEmpty || !emptyColumn h.openPorts || !emptyColumn h.detectedServices

/-- The row at the address has lost its services. -/
def wiped (db : Db) (n : Nat) (ip : String) : Bool :=
  db.rows.any fun r =>
    decide (r.At ip (some n)) && emptyColumn r.openPorts && emptyColumn r.detectedServices

variable (c : Center)

def reconcileHost (x : ReportedHost × Nat) : Center :=
  c.bridge q.now (q.uuid x.2) (reportedHostToReport x.1) { net := some n, agentId := q.agentId }

/-- The hosts that `reconcileWipedServices` bridges after all; the columns are read once. -/
def wipedHosts (db : Db) (n : Nat) (hosts : List ReportedHost) : List ReportedHost :=
  (hosts.filter ReportedHost.carriesServices).filter fun h => wiped db n h.ip

def reconcileWipedServices (hosts : List ReportedHost) (c : Center) :
    Center :=
  Runs.run (reconcileHost n q) c (wipedHosts c.db n hosts).zipIdx

namespace ReportHandler

variable {β : Type} (geo : Geometry β) (n : Nat) (s : ReportHandler β)

/-- `maybeBackfillNetworkCIDR`. -/
def maybeBackfillNetworkCIDR (reported : String) : ReportHandler β :=
  if (geo.parseNetwork reported).isNone then s
  else if s.cidr.getD "" ≠ "" then s
  else { s with cidr := some reported, cidrCache := none }

def backfill (r : AgentReport) : ReportHandler β :=
  if r.reportedCIDR ≠ "" then s.maybeBackfillNetworkCIDR geo r.reportedCIDR else s

/-- The boundary of the stored network; none for an empty text or one that does not parse. -/
def storedBoundary : Option β :=
  if s.cidr.getD "" = "" then none else geo.parseNetwork (s.cidr.getD "")

/-- `resolveNetworkCIDR`: the cached boundary, else the stored one. -/
def resolveNetworkCIDR : Option β := s.cidrCache.getD (s.storedBoundary geo)

/-- Inside the boundary; without one every address is. -/
def inside (h : ReportedHost) : Bool :=
  (s.resolveNetworkCIDR geo).all fun b => geo.containsIP b h.ip

/-- `filterInNetwork`. -/
def inNetwork (hosts : List ReportedHost) : List ReportedHost :=
  hosts.filter fun h => h.counts && s.inside geo h

def outOfNetwork (hosts : List ReportedHost) : Nat :=
  (hosts.filter fun h => h.counts && !s.inside geo h).length

/-- The digest of the report is the last one that the handler saw. -/
def FastPath (q : ReportRequest) : Prop :=
  q.report.hosts ≠ [] ∧ q.stateHash ≠ "" ∧ s.lastHash = q.stateHash

instance (q : ReportRequest) : Decidable (s.FastPath q) :=
  inferInstanceAs (Decidable (_ ∧ _))

/-- The stable path: leases, and the services of wiped rows. -/
def stable (s : ReportHandler β) (q : ReportRequest) : ReportHandler β × ReportAck :=
  let hosts := s.inNetwork geo q.report.hosts
  let c := s.center.recordAliveSnapshots (some n) 0 q.now (hostReportsForLease hosts)
  ({ s with
      center := reconcileWipedServices n q hosts c
      cidrCache := some (s.resolveNetworkCIDR geo) },
    { stable := true
      outOfNetwork := s.outOfNetwork geo q.report.hosts
      reconciled := (wipedHosts c.db n hosts).length })

/-- The bridge path. -/
def bridged (q : ReportRequest) : ReportHandler β × ReportAck :=
  let hosts := s.inNetwork geo q.report.hosts
  let done := applyHosts n q hosts s.center
  ({ s with
      center := done.center.recordAliveSnapshots (some n) 0 q.now (hostReportsForLease hosts)
      cidrCache := some (s.resolveNetworkCIDR geo)
      lastHash := if q.stateHash ≠ "" then q.stateHash else s.lastHash },
    { accepted := done.added + done.updated
      added := done.added
      updated := done.updated
      skipped := (q.report.hosts.filter fun h => !h.counts).length +
        s.outOfNetwork geo q.report.hosts
      outOfNetwork := s.outOfNetwork geo q.report.hosts })

/-- `Report`. -/
def report (q : ReportRequest) : ReportHandler β × ReportAck :=
  let s := s.backfill geo q.report
  if q.report.hosts = [] then (s, {})
  else if s.FastPath q then s.stable geo n q
  else s.bridged geo n q

def step (q : ReportRequest) : ReportHandler β := (s.report geo n q).1

end ReportHandler

/-! ## Loops over the hosts of a batch -/

section Loops

variable {n : Nat} {q : ReportRequest} {hosts : List ReportedHost}

theorem stampLastSeen_sameColumns (uuid : String) (now : Nat) :
    SameColumns c.db (c.stampLastSeen uuid now).db := by
  have hrows : (c.stampLastSeen uuid now).db.rows = c.db.rows.map fun r =>
      if decide (r.deviceUuid = uuid) then { r with lastSeen := some now } else r := rfl
  unfold SameColumns
  rw [hrows, map_map]
  apply map_congr_left
  intro r _
  rw [Function.comp_apply]
  split <;> rfl

theorem recordAlive_sameColumns (net taskId now : Nat) (h : ScannedHost) :
    SameColumns c.db (c.recordAlive net taskId now h).db := by
  unfold Center.recordAlive
  split
  · simp only
    split
    · have hstamp := stampLastSeen_sameColumns (c.upsertScanSnapshot net
        (if 0 < taskId then some taskId else none) h.report.ip (reportMAC h.report)
        (c.resolveDeviceUUIDForIP (reportMAC h.report) h.report.ip (some net)) now)
        (c.resolveDeviceUUIDForIP (reportMAC h.report) h.report.ip (some net)) now
      rwa [Center.upsert_db] at hstamp
    · rw [Center.upsert_db]
      rfl
  · rfl

/-- Lease renewals touch one timestamp of the devices. -/
theorem recordAliveSnapshots_sameColumns (net : Option Nat) (taskId now : Nat)
    (hs : List ScannedHost) :
    SameColumns c.db (c.recordAliveSnapshots net taskId now hs).db := by
  cases net with
  | none => rfl
  | some m =>
    exact Runs.run_preserves (P := fun d : Center => SameColumns c.db d.db)
      (fun d h hd => hd.trans (recordAlive_sameColumns d m taskId now h)) (.refl c.db)

/-- A loop that bridges kept hosts changes no column. -/
theorem run_sameColumns {σ α : Type} {step : σ → α → σ} (db : σ → Db) (rep : α → HostReport)
    (hstep : ∀ s a, Kept (db s) n (rep a) → SameColumns (db s) (db (step s a))) {s : σ}
    {xs : List α} (h : ∀ x ∈ xs, Kept (db s) n (rep x)) :
    SameColumns (db s) (db (Runs.run step s xs)) := by
  induction xs generalizing s with
  | nil => rfl
  | cons x rest ih =>
    have hx := hstep s x (h x (by simp))
    exact hx.trans (ih fun y hy => hx.kept (h y (by simp [hy])))

variable {x : ReportedHost × Nat} {c : Center}

theorem fst_mem_of_zipIdx (h : x ∈ hosts.zipIdx) : x.1 ∈ hosts := by
  have hmap : x.1 ∈ hosts.zipIdx.map Prod.fst := mem_map_of_mem h
  rwa [zipIdx_map_fst] at hmap

theorem applyHosts_sameColumns (h : ∀ g ∈ hosts, Kept c.db n (batchReport q.report.passive g)) :
    SameColumns c.db (applyHosts n q hosts c).center.db :=
  run_sameColumns (fun a : BridgeLoop => a.center.db)
    (fun x : ReportedHost × Nat => batchReport q.report.passive x.1)
    (fun _ _ hk => hk.bridge rfl _ _) fun _ hx => h _ (fst_mem_of_zipIdx hx)

theorem reconcileWipedServices_sameColumns (h : ∀ g ∈ hosts, Kept c.db n (reportedHostToReport g)) :
    SameColumns c.db (reconcileWipedServices n q hosts c).db := by
  refine run_sameColumns Center.db (fun x : ReportedHost × Nat => reportedHostToReport x.1)
    (fun _ _ hk => hk.bridge rfl _ _) fun x hx => h x.1 ?_
  have hin := fst_mem_of_zipIdx hx
  simp only [wipedHosts, mem_filter] at hin
  exact hin.1.1

variable (n) (q)

/-- The host is a clear one at its point of the loop. -/
def ClearHost (ips : List String) (a : BridgeLoop)
    (x : ReportedHost × Nat) : Prop :=
  Clear a.center.db n ips (q.uuid x.2) (batchReport q.report.passive x.1)

instance (ips : List String) (a : BridgeLoop)
    (x : ReportedHost × Nat) : Decidable (ClearHost n q ips a x) :=
  inferInstanceAs (Decidable (Clear ..))

theorem batchAliases_subset (hosts : List ReportedHost) (h : ReportedHost) :
    batchAliases hosts h ⊆ hosts.map ReportedHost.ip := by
  intro ip hip
  unfold batchAliases at hip
  simp only at hip
  split at hip
  · cases hip
  · obtain ⟨g, hg, rfl⟩ := mem_map.mp (mem_dedup.mp hip)
    exact mem_map_of_mem (mem_of_mem_filter hg)

theorem applyHost_db (hosts : List ReportedHost) (a : BridgeLoop)
    (x : ReportedHost × Nat) :
    (applyHost n q hosts a x).center.db =
      (applyDeviceBridge a.center.db q.now (q.uuid x.2) (batchReport q.report.passive x.1)
        ⟨some n, q.agentId, batchAliases hosts x.1⟩).db := rfl

variable {n q} {ips : List String} {a : BridgeLoop} {xs : List (ReportedHost × Nat)}

theorem ClearHost.lands (h : ClearHost n q ips a x) (hips : hosts.map ReportedHost.ip ⊆ ips) :
    Lands a.center.db (applyHost n q hosts a x).center.db n ips (q.uuid x.2)
      (batchReport q.report.passive x.1) := by
  have hreg : (batchReport q.report.passive x.1).Regular := (fromWire_batchReport _ _).regular h.1
  have hbatch : batchAliases hosts x.1 ⊆ ips := fun _ hip => hips (batchAliases_subset _ _ hip)
  rw [applyHost_db]
  generalize batchAliases hosts x.1 = aliases at hbatch
  exact Clear.lands h hreg rfl hbatch q.now

/-- Two hosts of a batch with different addresses, MACs and uuids. -/
def Unrelated (q : ReportRequest) (x y : ReportedHost × Nat) : Prop :=
  x.1.ip ≠ y.1.ip ∧ q.uuid x.2 ≠ q.uuid y.2 ∧
    (reportMAC (batchReport q.report.passive x.1) ≠ "" →
      reportMAC (batchReport q.report.passive x.1) ≠ reportMAC (batchReport q.report.passive y.1))

instance (q : ReportRequest) (x y : ReportedHost × Nat) : Decidable (Unrelated q x y) :=
  inferInstanceAs (Decidable (_ ∧ _))

/-- Unrelated hosts that are all clear before the loop. -/
def ClearBatch (db : Db) (n : Nat) (q : ReportRequest) (ips : List String)
    (xs : List (ReportedHost × Nat)) : Prop :=
  xs.Pairwise (Unrelated q) ∧
    ∀ x ∈ xs, Clear db n ips (q.uuid x.2) (batchReport q.report.passive x.1)

instance (db : Db) (n : Nat) (q : ReportRequest) (ips : List String)
    (xs : List (ReportedHost × Nat)) : Decidable (ClearBatch db n q ips xs) :=
  inferInstanceAs (Decidable (_ ∧ _))

/-- They are clear when their turn comes. -/
theorem ClearBatch.along (h : ClearBatch a.center.db n q ips xs)
    (hips : hosts.map ReportedHost.ip ⊆ ips) (hin : ∀ x ∈ xs, x.1.ip ∈ ips) :
    Runs.Along (applyHost n q hosts) (ClearHost n q ips) a xs := by
  induction xs generalizing a with
  | nil => trivial
  | cons x rest ih =>
    obtain ⟨hpair, hclear⟩ := h
    rw [pairwise_cons] at hpair
    have hx : ClearHost n q ips a x := hclear x (by simp)
    refine ⟨hx, ih ⟨hpair.2, fun y hy => ?_⟩ fun y hy => hin y (by simp [hy])⟩
    obtain ⟨hip, huuid, hmac⟩ := hpair.1 y hy
    refine (hx.lands hips).clear_other hip.symm (fun hm he => ?_) (hclear y (by simp [hy]))
      (hin y (by simp [hy])) (hin x (by simp)) huuid.symm
    exact hmac (he ▸ hm) he.symm

variable (hclear : Runs.Along (applyHost n q hosts) (ClearHost n q ips) a xs)
  (hips : hosts.map ReportedHost.ip ⊆ ips)

include hclear hips

/-- A kept host stays kept while other addresses are bridged. -/
theorem run_keeps {rep : HostReport} (hin : rep.ip ∈ ips) (hne : ∀ x ∈ xs, rep.ip ≠ x.1.ip)
    (hk : Kept a.center.db n rep) :
    Kept (Runs.run (applyHost n q hosts) a xs).center.db n rep := by
  induction xs generalizing a with
  | nil => exact hk
  | cons x rest ih =>
    have hnext := (hclear.1.lands hips).kept_other hk hin (hne x (by simp))
    exact ih hclear.2 (fun y hy => hne y (by simp [hy])) hnext

/-- Every host of a clear batch is kept at the end of the loop. -/
theorem run_kept (hin : ∀ x ∈ xs, x.1.ip ∈ ips) (hnodup : (xs.map fun x => x.1.ip).Nodup) :
    ∀ x ∈ xs, Kept (Runs.run (applyHost n q hosts) a xs).center.db n
      (batchReport q.report.passive x.1) := by
  induction xs generalizing a with
  | nil => intro x hx; cases hx
  | cons x rest ih =>
    rw [map_cons, nodup_cons] at hnodup
    intro y hy
    rw [Runs.run_cons]
    rcases mem_cons.mp hy with rfl | hy
    · refine run_keeps hclear.2 hips (hin y (by simp)) (fun z hz he => hnodup.1 ?_)
        ((hclear.1.lands hips).kept hclear.1.1)
      exact mem_map.mpr ⟨z, hz, he.symm⟩
    · exact ih hclear.2 (fun z hz => hin z (by simp [hz])) hnodup.2 y hy

end Loops

/-! ## When the skipped bridge would have changed nothing -/

namespace ReportHandler

variable {β : Type} (geo : Geometry β) (n : Nat) (s : ReportHandler β)

/-- The hosts of the request that the boundary admits. -/
def admitted (q : ReportRequest) : List ReportedHost :=
  (s.backfill geo q.report).inNetwork geo q.report.hosts

/-- If the bridge is skipped, it would have changed no column but the status and the timestamps. -/
def FastPathSound (q : ReportRequest) : Prop :=
  s.FastPath q →
    SameColumns s.center.db (applyHosts n q (s.admitted geo q) s.center).center.db

/-- What agents send: a digest comes with a scan batch and is that of its hosts. -/
def Sent (sha : List Char → String) (q : ReportRequest) : Prop :=
  q.stateHash = "" ∨
    (q.report.passive = false ∧ q.stateHash = networkStateHash sha q.report.hosts)

variable (known : List ReportedHost)

/-- The addresses that a bridged batch must leave alone: its own, and without a digest also those
of the batches that have one. -/
def reserved (hosts : List ReportedHost) (q : ReportRequest) :
    List String :=
  hosts.map ReportedHost.ip ++ if q.stateHash = "" then known.map ReportedHost.ip else []

/-- The hosts inside the boundary are a clear batch. -/
def ClearRequest (q : ReportRequest) : Prop :=
  ClearBatch s.center.db n q (reserved known (s.inNetwork geo q.report.hosts) q)
    (s.inNetwork geo q.report.hosts).zipIdx

instance (q : ReportRequest) :
    Decidable (s.ClearRequest geo n known q) := inferInstanceAs (Decidable (ClearBatch ..))

variable (sha : List Char → String) (known : List ReportedHost) (s : ReportHandler β)
  (q : ReportRequest)

/-- The request as it should be, where batches with a digest report hosts among `known`. A batch
without one reports other addresses, and a batch that reaches the bridge is a clear one. -/
def Steady : Prop :=
  Sent sha q ∧
    (q.stateHash = "" → ∀ h ∈ q.report.hosts, h.ip ∉ known.map ReportedHost.ip) ∧
    (q.stateHash ≠ "" → ∀ h ∈ q.report.hosts, h ∈ known) ∧
    (¬ s.FastPath q → (s.backfill geo q.report).ClearRequest geo n known q)

instance (s : ReportHandler β) (q : ReportRequest) : Decidable (s.FastPathSound geo n q) :=
  inferInstanceAs (Decidable (_ → _))

instance (sha : List Char → String) (q : ReportRequest) : Decidable (Sent sha q) :=
  inferInstanceAs (Decidable (_ ∨ _))

instance : Decidable (s.Steady geo n sha known q) :=
  inferInstanceAs (Decidable (_ ∧ _))

section Invariant

variable {sha : List Char → String} {known : List ReportedHost} {s : ReportHandler β}
  {q : ReportRequest}

/-- The cached boundary is the stored one. -/
def Coherent (s : ReportHandler β) : Prop := ∀ b, s.cidrCache = some b → b = s.storedBoundary geo

/-- The last digest is that of a batch whose hosts are kept. -/
structure Remembers (sha : List Char → String) (known : List ReportedHost) (s : ReportHandler β) :
    Prop where
  coherent : s.Coherent geo
  kept : s.lastHash ≠ "" → ∃ hosts, hosts ≠ [] ∧ (∀ h ∈ hosts, h ∈ known) ∧
    networkStateHash sha hosts = s.lastHash ∧
    ∀ h ∈ s.inNetwork geo hosts, Kept s.center.db n (reportedHostToReport h)

variable {geo} {n}

theorem Coherent.resolve (h : s.Coherent geo) :
    s.resolveNetworkCIDR geo = s.storedBoundary geo := by
  unfold resolveNetworkCIDR
  cases hc : s.cidrCache with
  | none => rfl
  | some b => exact h b hc

/-- Either nothing happens, or a network without a boundary gets one. -/
theorem backfill_cases (s : ReportHandler β) (r : AgentReport) :
    s.backfill geo r = s ∨ (s.storedBoundary geo = none ∧
      ∃ cidr, s.backfill geo r = { s with cidr := some cidr, cidrCache := none }) := by
  unfold backfill
  split
  · unfold maybeBackfillNetworkCIDR
    split
    · exact .inl rfl
    · split
      · exact .inl rfl
      · next hempty =>
        refine .inr ⟨?_, r.reportedCIDR, rfl⟩
        rw [storedBoundary, if_pos (by simpa using hempty)]
  · exact .inl rfl

@[simp] theorem backfill_center (geo : Geometry β) (s : ReportHandler β) (r : AgentReport) :
    (s.backfill geo r).center = s.center := by
  rcases s.backfill_cases r with h | ⟨-, _, h⟩ <;> rw [h]

@[simp] theorem backfill_lastHash (s : ReportHandler β) (r : AgentReport) :
    (s.backfill geo r).lastHash = s.lastHash := by
  rcases s.backfill_cases r with h | ⟨-, _, h⟩ <;> rw [h]

theorem fastPath_backfill (s : ReportHandler β) (q : ReportRequest) (r : AgentReport) :
    (s.backfill geo r).FastPath q ↔ s.FastPath q := by
  unfold FastPath
  rw [backfill_lastHash]

variable {g : ReportedHost}

/-- A boundary that arrives later only excludes hosts. -/
theorem Coherent.inNetwork_backfill (h : s.Coherent geo) {r : AgentReport}
    {hosts : List ReportedHost} (hg : g ∈ (s.backfill geo r).inNetwork geo hosts) :
    g ∈ s.inNetwork geo hosts := by
  rcases s.backfill_cases r with hsame | ⟨hnone, -⟩
  · rwa [hsame] at hg
  · simp only [inNetwork, mem_filter, Bool.and_eq_true, inside, h.resolve, hnone] at hg ⊢
    exact ⟨hg.1, hg.2.1, rfl⟩

theorem Remembers.backfill (h : Remembers geo n sha known s) (r : AgentReport) :
    Remembers geo n sha known (s.backfill geo r) where
  coherent := by
    rcases s.backfill_cases r with hsame | ⟨-, cidr, hnew⟩
    · rw [hsame]
      exact h.coherent
    · rw [hnew]
      intro b hb
      cases hb
  kept := by
    rw [backfill_lastHash, backfill_center]
    intro hlast
    obtain ⟨hosts, hne, hknown, hhash, hkept⟩ := h.kept hlast
    exact ⟨hosts, hne, hknown, hhash, fun g hg => hkept g (h.coherent.inNetwork_backfill hg)⟩

/-- Every admitted host of a batch on the fast path is kept. -/
theorem Remembers.fastPath (h : Remembers geo n sha known s) (hsha : Function.Injective sha)
    (hdecides : DigestDecides known) (hnul : ∀ g ∈ known, NulFree g) (hfast : s.FastPath q)
    (hsent : Sent sha q) (hknown : ∀ g ∈ q.report.hosts, g ∈ known) :
    q.report.passive = false ∧
      ∀ g ∈ s.inNetwork geo q.report.hosts, Kept s.center.db n (reportedHostToReport g) := by
  obtain ⟨hnonempty, hhash, hlast⟩ := hfast
  obtain ⟨hscan, hdigest⟩ := hsent.resolve_left hhash
  refine ⟨hscan, fun g hg => ?_⟩
  obtain ⟨hosts, hne, hin, hstored, hkept⟩ := h.kept (hlast ▸ hhash)
  have htext : digestText hosts = digestText q.report.hosts := by
    rw [hlast, hdigest, networkStateHash, networkStateHash, if_neg hne, if_neg hnonempty] at hstored
    exact hsha hstored
  simp only [inNetwork, mem_filter, Bool.and_eq_true] at hg
  obtain ⟨hmem, hcounts, hinside⟩ := hg
  obtain ⟨g₀, hmem₀, hfields⟩ := mem_of_digestText_eq (fun g hg => hnul g (hin g hg))
    (fun g hg => hnul g (hknown g hg)) htext hmem
  obtain ⟨halive, hreport⟩ := hdecides g₀ (hin g₀ hmem₀) g (hknown g hmem) hfields
  have hip : g₀.ip = g.ip := (cons.inj hfields).1
  rw [← hreport]
  refine hkept g₀ (mem_filter.mpr ⟨hmem₀, ?_⟩)
  simp only [ReportedHost.counts, inside, halive, hip, Bool.and_eq_true] at hcounts hinside ⊢
  exact ⟨hcounts, hinside⟩

theorem batchReport_false (h : ReportedHost) : batchReport false h = reportedHostToReport h := rfl

theorem Remembers.stable (h : Remembers geo n sha known s) (q : ReportRequest)
    (hkept : ∀ g ∈ s.inNetwork geo q.report.hosts, Kept s.center.db n (reportedHostToReport g)) :
    Remembers geo n sha known (s.stable geo n q).1 := by
  have hlease := recordAliveSnapshots_sameColumns s.center (some n) 0 q.now
    (hostReportsForLease (s.inNetwork geo q.report.hosts))
  have hsame := hlease.trans
    (reconcileWipedServices_sameColumns (q := q) fun g hg => hlease.kept (hkept g hg))
  refine ⟨fun b hb => ?_, fun hlast => ?_⟩
  · rw [← Option.some.inj hb]
    exact h.coherent.resolve
  · obtain ⟨hosts, hne, hknown, hhash, hall⟩ := h.kept hlast
    exact ⟨hosts, hne, hknown, hhash, fun g hg => hsame.kept (hall g hg)⟩

/-- The loop of a clear batch. -/
theorem ClearRequest.along (hclear : s.ClearRequest geo n known q) :
    Runs.Along (applyHost n q (s.inNetwork geo q.report.hosts))
      (ClearHost n q (reserved known (s.inNetwork geo q.report.hosts) q)) { center := s.center }
      (s.inNetwork geo q.report.hosts).zipIdx :=
  ClearBatch.along hclear (subset_append_left _ _) fun _ hx =>
    mem_append_left _ (mem_map_of_mem (fst_mem_of_zipIdx hx))

/-- The batch whose digest is stored is kept from then on. -/
theorem kept_of_hashed (hclear : s.ClearRequest geo n known q)
    (hscan : q.report.passive = false) :
    ∀ g ∈ s.inNetwork geo q.report.hosts,
      Kept (s.bridged geo n q).1.center.db n (reportedHostToReport g) := by
  intro g hg
  refine (recordAliveSnapshots_sameColumns _ (some n) 0 q.now _).kept ?_
  rw [← batchReport_false, ← hscan]
  rw [← zipIdx_map_fst 0 (s.inNetwork geo q.report.hosts)] at hg
  obtain ⟨x, hx, rfl⟩ := mem_map.mp hg
  refine run_kept hclear.along (subset_append_left _ _) (fun y hy => ?_)
    (pairwise_map.mpr (hclear.1.imp fun hxy => hxy.1)) x hx
  exact mem_append_left _ (mem_map_of_mem (fst_mem_of_zipIdx hy))

/-- A batch without a digest leaves the hosts of the other batches alone. -/
theorem kept_of_hashless (hclear : s.ClearRequest geo n known q) (hhash : q.stateHash = "")
    (hknown : g ∈ known) (hapart : ∀ h ∈ q.report.hosts, h.ip ∉ known.map ReportedHost.ip)
    (hkept : Kept s.center.db n (reportedHostToReport g)) :
    Kept (s.bridged geo n q).1.center.db n (reportedHostToReport g) := by
  have hin : g.ip ∈ known.map ReportedHost.ip := mem_map_of_mem hknown
  refine (recordAliveSnapshots_sameColumns _ (some n) 0 q.now _).kept ?_
  refine run_keeps hclear.along (subset_append_left _ _) ?_ (fun x hx he => ?_)
    hkept
  · rw [reserved, if_pos hhash]
    exact mem_append_right _ hin
  · have hhost : x.1 ∈ q.report.hosts := mem_of_mem_filter (fst_mem_of_zipIdx hx)
    exact hapart x.1 hhost (he ▸ hin)

theorem Remembers.bridged (h : Remembers geo n sha known s) (hnonempty : q.report.hosts ≠ [])
    (hsent : Sent sha q)
    (hapart : q.stateHash = "" → ∀ g ∈ q.report.hosts, g.ip ∉ known.map ReportedHost.ip)
    (hhashed : q.stateHash ≠ "" → ∀ g ∈ q.report.hosts, g ∈ known)
    (hclear : s.ClearRequest geo n known q) :
    Remembers geo n sha known (s.bridged geo n q).1 := by
  refine ⟨fun b hb => ?_, fun hlast => ?_⟩
  · rw [← Option.some.inj hb]
    exact h.coherent.resolve
  · by_cases hhash : q.stateHash = ""
    · have hsame : (s.bridged geo n q).1.lastHash = s.lastHash := if_neg (by simp [hhash])
      rw [hsame] at hlast ⊢
      obtain ⟨hosts, hne, hknown, hdigest, hkept⟩ := h.kept hlast
      refine ⟨hosts, hne, hknown, hdigest, fun g hg => ?_⟩
      exact kept_of_hashless hclear hhash (hknown g (mem_of_mem_filter hg)) (hapart hhash)
        (hkept g hg)
    · have hnew : (s.bridged geo n q).1.lastHash = q.stateHash := if_pos hhash
      obtain ⟨hscan, hdigest⟩ := hsent.resolve_left hhash
      rw [hnew]
      exact ⟨q.report.hosts, hnonempty, hhashed hhash, hdigest.symm, kept_of_hashed hclear hscan⟩

/-- One request: the fast path is sound and the handler remembers a kept batch again. -/
theorem Remembers.step (h : Remembers geo n sha known s) (hsha : Function.Injective sha)
    (hdecides : DigestDecides known) (hnul : ∀ g ∈ known, NulFree g)
    (hsteady : s.Steady geo n sha known q) :
    s.FastPathSound geo n q ∧ Remembers geo n sha known (s.step geo n q) := by
  obtain ⟨hsent, hapart, hhashed, hclear⟩ := hsteady
  have hback := h.backfill q.report
  have hfast : s.FastPath q → q.report.passive = false ∧ ∀ g ∈ s.admitted geo q,
      Kept s.center.db n (reportedHostToReport g) := by
    intro hpath
    have hkept := hback.fastPath hsha hdecides hnul ((fastPath_backfill s q q.report).mpr hpath)
      hsent (hhashed hpath.2.1)
    rwa [backfill_center] at hkept
  constructor
  · intro hpath
    obtain ⟨hscan, hkept⟩ := hfast hpath
    exact applyHosts_sameColumns fun g hg => by
      rw [hscan]
      exact hkept g hg
  · unfold ReportHandler.step report
    simp only
    split
    · exact hback
    · next hnonempty =>
      split
      · next hpath =>
        have hkept := (hfast ((fastPath_backfill s q q.report).mp hpath)).2
        rw [← backfill_center geo s q.report] at hkept
        exact hback.stable q hkept
      · next hpath =>
        have hloop := hclear fun hp => hpath ((fastPath_backfill s q q.report).mpr hp)
        exact hback.bridged hnonempty hsent hapart hhashed hloop

end Invariant

/-- Along every run of steady requests, over hosts whose digest decides what the bridge reads, the
fast path skips nothing. -/
theorem fastPath_sound {β : Type} (geo : Geometry β) (n : Nat) {sha : List Char → String}
    (hsha : Function.Injective sha) (known : List ReportedHost) (hdecides : DigestDecides known)
    (hnul : ∀ h ∈ known, NulFree h) {s : ReportHandler β} (hcache : s.cidrCache = none)
    (hstart : s.lastHash = "") {requests : List ReportRequest}
    (hsteady : Runs.Along (step geo n) (Steady geo n sha known) s requests) :
    Runs.Along (step geo n) (FastPathSound geo n) s requests := by
  have hremembers : Remembers geo n sha known s :=
    ⟨fun b hb => absurd (hcache.symm.trans hb) (by simp), fun hlast => absurd hstart hlast⟩
  exact Runs.along_of_along (fun t q ht hq => ht.step hsha hdecides hnul hq) hremembers hsteady

/-- One network that parses, with the addresses of its prefix. -/
def officeNetwork : Geometry String where
  parseNetwork s := if s = "10.0.0.0/24" then some "10.0.0." else none
  containsIP p ip := Text.hasPrefix p ip

def officeHandler : ReportHandler String := { center := Center.empty.addNetwork (some "agent-1") }

def scanBatch (now : Nat) (uuid : String) (hosts : List ReportedHost) : ReportRequest where
  report := { networkCIDR := "10.0.0.0/24", hosts := hosts }
  stateHash := networkStateHash String.ofList hosts
  agentId := "agent-1"
  now := now
  uuid i := uuid ++ String.ofList (List.replicate i '+')

/-- A batch that is sent again from the queue, or one of the passive sources. -/
def hashlessBatch (origin : String) (now : Nat) (uuid : String) (hosts : List ReportedHost) :
    ReportRequest :=
  { scanBatch now uuid hosts with report := { origin := origin, hosts := hosts }, stateHash := "" }

def officePrinter : ReportedHost where
  ip := "10.0.0.5"
  mac := "00:11:22:33:44:55"
  inferredType := "printer"
  hostname := "lobby"
  services := [{ service := "ipp", port := ⟨631, by unfold Fits64; omega⟩ }]

def officeRouter (ip : String) : ReportedHost := { ip := ip, inferredType := "router" }

/-- A stable network with a passive sighting between two scans. -/
theorem stableOffice_sound :
    (Runs.run (step officeNetwork 1) officeHandler
      [scanBatch 10 "a" [officePrinter, officeRouter "10.0.0.6"],
        hashlessBatch "passive" 20 "b" [officeRouter "10.0.0.7"]]).FastPath
      (scanBatch 30 "c" [officeRouter "10.0.0.6", officePrinter]) ∧
      Runs.Along (step officeNetwork 1) (FastPathSound officeNetwork 1) officeHandler
        [scanBatch 10 "a" [officePrinter, officeRouter "10.0.0.6"],
          hashlessBatch "passive" 20 "b" [officeRouter "10.0.0.7"],
          scanBatch 30 "c" [officeRouter "10.0.0.6", officePrinter]] :=
  ⟨by decide +kernel,
    fastPath_sound officeNetwork 1 (fun _ _ h => String.ofList_injective h)
      [officePrinter, officeRouter "10.0.0.6"] (by decide +kernel) (by decide +kernel) rfl rfl
      (by decide +kernel)⟩

/-- The digest does not cover the model, and a batch without a digest does not clear it: the model
that a scan learns and the services that an older batch overwrote are both skipped. -/
theorem stale_columns_skipped :
    ¬ Runs.Along (step officeNetwork 1) (FastPathSound officeNetwork 1) officeHandler
        [scanBatch 10 "a" [officePrinter],
          scanBatch 20 "b" [{ officePrinter with inferredModel := "M404" }]] ∧
      ¬ Runs.Along (step officeNetwork 1) (FastPathSound officeNetwork 1) officeHandler
        [scanBatch 10 "a" [officePrinter],
          hashlessBatch "" 20 "b" [{ officePrinter with services := [{ service := "http" }] }],
          scanBatch 30 "c" [officePrinter]] := by
  decide +kernel

end ReportHandler

end Steward
