import Steward.Snapshots

/-!
# The lease sweeper

`sweepOnce` reconciles the devices of agent networks with their leases in four
passes: devices with a stale lease go offline, devices with a fresh one come
back, rows that no lease refers to go offline, and quiet flap counters decay.
The first three walk over lists that were read before the pass began.
-/

namespace Steward

open RowTable Runs List

def flapThreshold : Nat := 4

def flapStablePeriod : Nat := 30 * 60

/-- The join of the leases with the devices: by uuid, or by address when there is none. -/
def Snapshot.Joins (s : Snapshot) (d : DeviceRow) : Prop :=
  (s.deviceUuid ≠ "" ∧ d.deviceUuid = s.deviceUuid ∧ d.networkId = some s.networkId) ∨
    (s.deviceUuid = "" ∧ d.ipAddress = s.ip ∧
      (d.networkId = some s.networkId ∨ d.networkId = none))

instance (s : Snapshot) (d : DeviceRow) : Decidable (s.Joins d) :=
  inferInstanceAs (Decidable (_ ∨ _))

/-- A joined row as the queries return it. -/
structure StaleAgentSnapshot where
  snapshot : Snapshot
  deviceId : Nat
  deriving DecidableEq

/-- What a pass leaves behind: the tables, and the events it handed to the recorder. -/
structure Pass where
  center : Center
  events : List ChangeEvent := []

namespace Center

variable (c : Center)

/-- `querySnapshots`: leases of agent networks with the devices they join. -/
def querySnapshots (p : Snapshot → DeviceRow → Bool) : List StaleAgentSnapshot :=
  c.snapshots.rows.flatMap fun s =>
    (c.db.rows.filter fun d => s.Joins d ∧ c.agentManaged s.networkId = true ∧ p s d = true).map
      fun d => ⟨s, d.id⟩

/-- `staleAgentSnapshotsSQL`. -/
def staleAgentSnapshots (cutoff : Nat) : List StaleAgentSnapshot :=
  c.querySnapshots fun s d => s.lastSeenAt < cutoff ∧ d.status = .online

/-- `recoverableAgentSnapshotsSQL`. -/
def recoverableAgentSnapshots (cutoff : Nat) : List StaleAgentSnapshot :=
  c.querySnapshots fun s d => cutoff ≤ s.lastSeenAt ∧ d.status = .offline

/-- `hasFresherLease`. -/
def hasFresherLease (l : StaleAgentSnapshot) (cutoff : Nat) : Bool :=
  c.snapshots.rows.any fun s => s.deviceUuid = l.snapshot.deviceUuid ∧
    s.networkId = l.snapshot.networkId ∧ s.id ≠ l.snapshot.id ∧ cutoff ≤ s.lastSeenAt

/-- `UPDATE scan_snapshots SET device_uuid = '' WHERE id = ?`. -/
def dissociate (i : Nat) : Center :=
  { c with
    snapshots := c.snapshots.modify i (fun s => { s with deviceUuid := "" })
      (inert_of_sameSlot fun _ => ⟨rfl, rfl, rfl⟩) }

/-- `UPDATE scan_snapshots SET flap_count = ?, last_flap_at = ? WHERE id = ?`. -/
def setFlap (i now : Nat) (count : Nat → Nat) : Center :=
  { c with
    snapshots := c.snapshots.modify i
      (fun s => { s with flapCount := count s.flapCount, lastFlapAt := some now })
      (inert_of_sameSlot fun _ => ⟨rfl, rfl, rfl⟩) }

/-- The online update of a recovery. -/
def setOnline (i now : Nat) : Center :=
  { c with
    db := c.db.modify i
      (fun r => { r with
        status := .online
        lastSeen := some now
        lastScannedAt := some now
        offlineSince := none
        updatedAt := now })
      fun _ => ⟨rfl, rfl, rfl, rfl⟩ }

end Center

/-- The state of the expiry loop. -/
structure Expiry extends Pass where
  seen : List Nat := []

namespace Expiry

/-- The roam guard: the lease is a remnant of a device that holds a fresher one. -/
def guarded (e : Expiry) (cutoff : Nat) (l : StaleAgentSnapshot) : Bool :=
  l.snapshot.deviceUuid ≠ "" && e.center.hasFresherLease l cutoff

/-- The verdict on the device of a stale lease. -/
def expire (e : Expiry) (now : Nat) (l : StaleAgentSnapshot) : Expiry :=
  let c := (e.center.setFlap l.snapshot.id now (· + 1)).setOffline l.deviceId now
  let flapping := flapThreshold ≤ l.snapshot.flapCount + 1
  { center := c
    events := e.events ++
      if flapping then [] else [c.deviceLost l.deviceId l.snapshot.networkId "lease"]
    seen := l.deviceId :: e.seen }

/-- One row of the stale list. -/
def step (now cutoff : Nat) (e : Expiry) (l : StaleAgentSnapshot) : Expiry :=
  if l.deviceId ∈ e.seen then e
  else if e.guarded cutoff l = true then { e with center := e.center.dissociate l.snapshot.id }
  else e.expire now l

end Expiry

namespace Pass

/-- The flap counter after a recovery: halved when the last flap is long ago, else one more. -/
def effectiveFlapCount (now : Nat) (s : Snapshot) : Nat :=
  if s.lastFlapAt.any fun t => t + flapStablePeriod ≤ now then s.flapCount / 2
  else s.flapCount + 1

/-- One row of the recoverable list. -/
def recover (now : Nat) (p : Pass) (l : StaleAgentSnapshot) : Pass :=
  let before := p.center.device l.deviceId
  let count := effectiveFlapCount now l.snapshot
  let c := (p.center.setOnline l.deviceId now).setFlap l.snapshot.id now fun _ => count
  let emits := (before.any fun b => b.status = .offline) && count < flapThreshold
  { center := c
    events := p.events ++
      if emits then [c.deviceRecovered l.deviceId l.snapshot.networkId "lease" before] else [] }

/-- One row of the orphan list. -/
def expireOrphan (now : Nat) (p : Pass) (o : Nat × Nat) : Pass :=
  let c := p.center.setOffline o.1 now
  { center := c, events := p.events ++ [c.deviceLost o.1 o.2 "lease"] }

end Pass

namespace Center

variable (c : Center)

/-- `expireStale`. -/
def expireStale (now cutoff : Nat) : Expiry :=
  Runs.run (Expiry.step now cutoff) { center := c } (c.staleAgentSnapshots cutoff)

/-- `recoverFresh`. -/
def recoverFresh (now cutoff : Nat) : Pass :=
  Runs.run (Pass.recover now) ⟨c, []⟩ (c.recoverableAgentSnapshots cutoff)

/-- The `NOT EXISTS` of the orphan query: some lease refers to the row. -/
def referenced (d : DeviceRow) : Bool :=
  c.snapshots.rows.any fun s =>
    (s.deviceUuid ≠ "" ∧ s.deviceUuid = d.deviceUuid ∧ d.networkId = some s.networkId) ∨
      (s.deviceUuid = "" ∧ s.ip = d.ipAddress ∧ d.networkId = some s.networkId)

/-- `orphanedAgentDevicesSQL`: the ids with their networks. -/
def orphanedAgentDevices (cutoff : Nat) : List (Nat × Nat) :=
  c.db.rows.filterMap fun d =>
    match d.networkId with
    | none => none
    | some n =>
      if c.agentManaged n = true ∧ d.status = .online ∧ c.scanSource d.id = "scanner_v2" ∧
          (d.lastSeen.any fun t => t < cutoff) = true ∧ c.referenced d = false then
        some (d.id, n)
      else none

/-- `expireOrphaned`. -/
def expireOrphaned (now cutoff : Nat) : Pass :=
  Runs.run (Pass.expireOrphan now) ⟨c, []⟩ (c.orphanedAgentDevices cutoff)

/-- `decayQuietFlaps`. -/
def decayQuietFlaps (now : Nat) : Center :=
  { c with
    snapshots := c.snapshots.modifyWhere
      (fun s => 0 < s.flapCount ∧ (s.lastFlapAt.any fun t => t + flapStablePeriod < now) = true)
      (fun s => { s with flapCount := s.flapCount / 2, lastFlapAt := some now })
      (inert_of_sameSlot fun _ => ⟨rfl, rfl, rfl⟩) }

/-- `sweepOnce`. -/
def sweepOnce (now ttl : Nat) : Pass :=
  let cutoff := now - ttl
  let expired := c.expireStale now cutoff
  let recovered := expired.center.recoverFresh now cutoff
  let orphans := recovered.center.expireOrphaned now cutoff
  { center := orphans.center.decayQuietFlaps now
    events := expired.events ++ recovered.events ++ orphans.events }

theorem mem_querySnapshots {c : Center} {p : Snapshot → DeviceRow → Bool} {l : StaleAgentSnapshot} :
    l ∈ c.querySnapshots p ↔ l.snapshot ∈ c.snapshots.rows ∧
      c.agentManaged l.snapshot.networkId = true ∧
        ∃ d, c.device l.deviceId = some d ∧ l.snapshot.Joins d ∧ p l.snapshot d = true := by
  obtain ⟨s, i⟩ := l
  simp only [querySnapshots, mem_flatMap, mem_map, mem_filter, decide_eq_true_eq,
    StaleAgentSnapshot.mk.injEq]
  constructor
  · rintro ⟨s, hs, d, ⟨hd, hjoin, hagent, hp⟩, rfl, rfl⟩
    exact ⟨hs, hagent, d, mem_rows_iff.mp hd, hjoin, hp⟩
  · rintro ⟨hs, hagent, d, hd, hjoin, hp⟩
    have hid : d.id = i := Table.id_of_get? (t := c.db.devices) hd
    exact ⟨s, hs, d, ⟨Table.mem_of_get? hd, hjoin, hagent, hp⟩, rfl, hid⟩

end Center

/-! ## What the passes leave alone

The places of the rows and the fresh leases, up to their flap columns, survive
every statement of a sweep. -/

/-- The lease without its flap columns. -/
def Snapshot.bare (s : Snapshot) : Snapshot := { s with flapCount := 0, lastFlapAt := none }

namespace Center

/-- The fresh leases, with the columns that the joins read. -/
def freshLeases (c : Center) (cutoff : Nat) : List Snapshot :=
  (c.snapshots.rows.filter fun s => cutoff ≤ s.lastSeenAt).map Snapshot.bare

def leaseSeen (c : Center) (i : Nat) : Option Nat := (c.lease i).map Snapshot.lastSeenAt

/-- What a sweep keeps of the state it started from. -/
structure Kept (cutoff : Nat) (c c' : Center) : Prop where
  place : c'.place = c.place
  leaseSeen : c'.leaseSeen = c.leaseSeen
  freshLeases : c'.freshLeases cutoff = c.freshLeases cutoff
  networks : c'.networks = c.networks

theorem Kept.refl (cutoff : Nat) (c : Center) : Kept cutoff c c := ⟨rfl, rfl, rfl, rfl⟩

variable {cutoff : Nat} {c : Center}

theorem Kept.trans {c' c'' : Center} (h : Kept cutoff c c') (h' : Kept cutoff c' c'') :
    Kept cutoff c c'' :=
  ⟨h'.place.trans h.place, h'.leaseSeen.trans h.leaseSeen, h'.freshLeases.trans h.freshLeases,
    h'.networks.trans h.networks⟩

theorem kept_device (cutoff : Nat) (c : Center) (i : Nat) {f : DeviceRow → DeviceRow}
    (hf : ∀ r, (f r).SamePlace r) : Kept cutoff c { c with db := c.db.modify i f hf } where
  place := by
    funext j
    have hget := Table.get?_modify c.db.devices i f (inert_of_samePlace hf) j
    simp only [Center.place, device, Db.modify, hget, Option.map_map]
    congr 1
    funext r
    by_cases hr : r.id = i
    · simp [Schema.onId, hr, (hf r).deviceUuid, (hf r).ipAddress, (hf r).networkId]
    · simp [Schema.onId, hr]
  leaseSeen := rfl
  freshLeases := rfl
  networks := rfl

/-- A statement on one lease that moves neither its time nor a fresh attribution. -/
theorem kept_lease {i : Nat} {f : Snapshot → Snapshot} (hf : snapshotSchema.Inert f)
    (hseen : ∀ s, (f s).lastSeenAt = s.lastSeenAt)
    (hfresh : ∀ s, c.lease i = some s → cutoff ≤ s.lastSeenAt → (f s).bare = s.bare) :
    Kept cutoff c { c with snapshots := c.snapshots.modify i f hf } := by
  have hsame : ∀ s, (snapshotSchema.onId i f s).lastSeenAt = s.lastSeenAt := by
    intro s
    by_cases hs : s.id = i <;> simp [Schema.onId, hs, hseen]
  refine ⟨rfl, ?_, ?_, rfl⟩
  · funext j
    simp only [Center.leaseSeen, lease, Table.get?_modify, Option.map_map]
    congr 1
    funext s
    exact hsame s
  · have hfilter : (fun s : Snapshot => decide (cutoff ≤ s.lastSeenAt)) ∘ snapshotSchema.onId i f =
        fun s => decide (cutoff ≤ s.lastSeenAt) := by
      funext s
      simp [hsame]
    simp only [Center.freshLeases, Table.modify_rows, filter_map, map_map, hfilter]
    refine map_congr_left fun s hs => ?_
    obtain ⟨hmem, hle⟩ := mem_filter.mp hs
    by_cases hi : s.id = i
    · have hget : c.lease i = some s := hi ▸ Table.get?_of_mem (t := c.snapshots) hmem
      simpa [Schema.onId, hi] using hfresh s hget (by simpa using hle)
    · simp [Schema.onId, hi]

theorem kept_setOffline (cutoff : Nat) (c : Center) (i now : Nat) :
    Kept cutoff c (c.setOffline i now) :=
  kept_device cutoff c i (markOffline_samePlace now)

theorem kept_setFlap (cutoff : Nat) (c : Center) (i now : Nat) (count : Nat → Nat) :
    Kept cutoff c (c.setFlap i now count) :=
  kept_lease _ (fun _ => rfl) fun _ _ _ => rfl

theorem kept_dissociate {i t : Nat} (hseen : c.leaseSeen i = some t) (hstale : t < cutoff) :
    Kept cutoff c (c.dissociate i) := by
  refine kept_lease _ (fun _ => rfl) fun s hget hle => ?_
  simp only [leaseSeen, hget, Option.map_some, Option.some.injEq] at hseen
  omega

theorem status_modify (c : Center) (i j : Nat) {f : DeviceRow → DeviceRow}
    (hf : ∀ r, (f r).SamePlace r) {v : Status} (hv : ∀ r, (f r).status = v) :
    ({ c with db := c.db.modify i f hf } : Center).status j =
      if j = i then (c.status j).map fun _ => v else c.status j := by
  by_cases h : j = i
  · subst h
    simp only [status, device, Db.modify, Table.get?_modify_same, if_true, Option.map_map]
    exact congrFun (congrArg Option.map (funext hv)) _
  · simp only [status, device, Db.modify, Table.get?_modify_other _ _ _ h, if_neg h]

theorem status_setOffline (c : Center) (i now j : Nat) :
    (c.setOffline i now).status j =
      if j = i then (c.status j).map fun _ => .offline else c.status j :=
  status_modify c i j _ fun _ => rfl

theorem status_setOnline (c : Center) (i now j : Nat) :
    (c.setOnline i now).status j =
      if j = i then (c.status j).map fun _ => .online else c.status j :=
  status_modify c i j _ fun _ => rfl

@[simp] theorem status_setFlap (c : Center) (i now j : Nat) (count : Nat → Nat) :
    (c.setFlap i now count).status j = c.status j := rfl

@[simp] theorem status_decayQuietFlaps (c : Center) (now j : Nat) :
    (c.decayQuietFlaps now).status j = c.status j := rfl

end Center

/-! ## The passes -/

namespace Center

variable {c c' : Center} {d' d : DeviceRow} {cutoff : Nat}

theorem agentManaged_eq (h : c'.networks = c.networks) (net : Nat) :
    c'.agentManaged net = c.agentManaged net := by
  simp only [agentManaged, h]

theorem device_of_place (h : c'.place = c.place) {i : Nat} (hd' : c'.device i = some d') :
    ∃ d, c.device i = some d ∧ d'.deviceUuid = d.deviceUuid ∧ d'.ipAddress = d.ipAddress ∧
      d'.networkId = d.networkId := by
  have hi := congrFun h i
  simp only [place, hd', Option.map_some] at hi
  obtain ⟨d, hd, heq⟩ := Option.map_eq_some_iff.mp hi.symm
  simp only [Prod.mk.injEq] at heq
  exact ⟨d, hd, heq.1.symm, heq.2.1.symm, heq.2.2.symm⟩

variable {s t : Snapshot} {α : Type}

theorem joins_congr (hu : d'.deviceUuid = d.deviceUuid) (hip : d'.ipAddress = d.ipAddress)
    (hn : d'.networkId = d.networkId) : s.Joins d' ↔ s.Joins d := by
  simp only [Snapshot.Joins, hu, hip, hn]

/-- A fresh lease of an agent network joins the device. -/
def FreshlyLeased (c : Center) (cutoff : Nat) (d : DeviceRow) : Prop :=
  ∃ s ∈ c.snapshots.rows, c.agentManaged s.networkId = true ∧ s.Joins d ∧ cutoff ≤ s.lastSeenAt

instance (c : Center) (cutoff : Nat) (d : DeviceRow) : Decidable (c.FreshlyLeased cutoff d) :=
  inferInstanceAs (Decidable (∃ s ∈ c.snapshots.rows, _))

/-- Some lease of an agent network joins the device. -/
def Leased (c : Center) (d : DeviceRow) : Prop :=
  ∃ s ∈ c.snapshots.rows, c.agentManaged s.networkId = true ∧ s.Joins d

instance (c : Center) (d : DeviceRow) : Decidable (c.Leased d) :=
  inferInstanceAs (Decidable (∃ s ∈ c.snapshots.rows, _))

theorem freshlyLeased_iff :
    c.FreshlyLeased cutoff d ↔
      ∃ s ∈ c.freshLeases cutoff, c.agentManaged s.networkId = true ∧ s.Joins d := by
  simp only [FreshlyLeased, freshLeases, mem_map, mem_filter, decide_eq_true_eq]
  constructor
  · rintro ⟨s, hs, hagent, hjoin, hle⟩
    exact ⟨s.bare, ⟨s, ⟨hs, hle⟩, rfl⟩, hagent, hjoin⟩
  · rintro ⟨_, ⟨s, ⟨hs, hle⟩, rfl⟩, hagent, hjoin⟩
    exact ⟨s, hs, hagent, hjoin, hle⟩

/-- A fresh lease was there, under the same id and attribution, before the pass. -/
theorem Kept.fresh_origin (h : Kept cutoff c c') (ht : t ∈ c'.snapshots.rows)
    (hle : cutoff ≤ t.lastSeenAt) :
    ∃ t0 ∈ c.snapshots.rows, cutoff ≤ t0.lastSeenAt ∧ t0.bare = t.bare := by
  have hmem : t.bare ∈ c.freshLeases cutoff := by
    rw [← h.freshLeases]
    exact mem_map_of_mem (mem_filter.mpr ⟨ht, by simpa using hle⟩)
  obtain ⟨t0, ht0, hbare⟩ := mem_map.mp hmem
  obtain ⟨hmem0, hle0⟩ := mem_filter.mp ht0
  exact ⟨t0, hmem0, by simpa using hle0, hbare⟩

theorem joins_bare (h : s.bare = t.bare) (d : DeviceRow) : s.Joins d ↔ t.Joins d := by
  have hu : s.deviceUuid = t.deviceUuid := (congrArg Snapshot.deviceUuid h :)
  have hn : s.networkId = t.networkId := (congrArg Snapshot.networkId h :)
  have hip : s.ip = t.ip := (congrArg Snapshot.ip h :)
  simp only [Snapshot.Joins, hu, hn, hip]

theorem Kept.freshlyLeased (h : Kept cutoff c c') (hu : d'.deviceUuid = d.deviceUuid)
    (hip : d'.ipAddress = d.ipAddress) (hn : d'.networkId = d.networkId) :
    c'.FreshlyLeased cutoff d' ↔ c.FreshlyLeased cutoff d := by
  simp only [freshlyLeased_iff, h.freshLeases, agentManaged_eq h.networks, joins_congr hu hip hn]

/-- Overwriting a value twice is overwriting it once. -/
theorem overwrite_twice {β : Type} (o : Option β) (v : β) (p q : Prop) [Decidable p] [Decidable q] :
    (if p then (if q then o.map fun _ => v else o).map fun _ => v
      else (if q then o.map fun _ => v else o)) = if q ∨ p then o.map fun _ => v else o := by
  by_cases hp : p <;> by_cases hq : q <;> cases o <;> simp [hp, hq]

/-- The rows of a list of verdicts get the status of the verdict, the others keep theirs. -/
theorem status_run {F : Pass → α → Pass} {D : α → Nat} {v : Status}
    (hstep : ∀ p a j, (F p a).center.status j =
      if j = D a then (p.center.status j).map fun _ => v else p.center.status j) (p : Pass)
    (as : List α) (j : Nat) :
    (run F p as).center.status j =
      if j ∈ as.map D then (p.center.status j).map fun _ => v else p.center.status j := by
  induction as generalizing p with
  | nil => simp
  | cons a rest ih =>
    rw [run_cons, ih, hstep, overwrite_twice]
    simp only [map_cons, mem_cons]

theorem status_recoverFresh (c : Center) (now cutoff j : Nat) :
    (c.recoverFresh now cutoff).center.status j =
      if j ∈ (c.recoverableAgentSnapshots cutoff).map StaleAgentSnapshot.deviceId then
        (c.status j).map fun _ => .online
      else c.status j := by
  refine status_run (v := .online) ?_ ⟨c, []⟩ _ j
  intro p l j
  simp only [Pass.recover, status_setFlap, status_setOnline]

theorem status_expireOrphaned (c : Center) (now cutoff j : Nat) :
    (c.expireOrphaned now cutoff).center.status j =
      if j ∈ (c.orphanedAgentDevices cutoff).map Prod.fst then (c.status j).map fun _ => .offline
      else c.status j := by
  refine status_run (v := .offline) ?_ ⟨c, []⟩ _ j
  intro p o j
  simp only [Pass.expireOrphan, status_setOffline]

theorem kept_run {step : Pass → α → Pass} (hstep : ∀ p a, Kept cutoff p.center (step p a).center)
    (p : Pass) (as : List α) : Kept cutoff p.center (run step p as).center := by
  induction as generalizing p with
  | nil => exact Kept.refl cutoff p.center
  | cons a rest ih => exact (hstep p a).trans (ih (step p a))

theorem kept_recoverFresh (c : Center) (now cutoff : Nat) :
    Kept cutoff c (c.recoverFresh now cutoff).center := by
  refine kept_run (p := ⟨c, []⟩) ?_ _
  intro p l
  exact (kept_device cutoff p.center l.deviceId _).trans
    (kept_setFlap cutoff _ l.snapshot.id now fun _ => Pass.effectiveFlapCount now l.snapshot)

end Center

namespace Expiry

open Center

/-- Where the expiry loop stands: the devices it has seen are offline, the others as before. -/
structure Reached (c : Center) (cutoff : Nat) (e : Expiry) : Prop where
  kept : Kept cutoff c e.center
  status : ∀ i, e.center.status i =
    if i ∈ e.seen then (c.status i).map fun _ => .offline else c.status i

/-- The lease of the list row is stale. -/
def Overdue (c : Center) (cutoff : Nat) (l : StaleAgentSnapshot) : Prop :=
  ∃ t, c.leaseSeen l.snapshot.id = some t ∧ t < cutoff

variable {cutoff now i : Nat} {e : Expiry} {c : Center} {l : StaleAgentSnapshot}
  {ls : List StaleAgentSnapshot}

theorem Reached.step (now : Nat) (h : Reached c cutoff e) (hl : Overdue c cutoff l) :
    Reached c cutoff (e.step now cutoff l) := by
  unfold Expiry.step
  split
  · exact h
  · split
    · obtain ⟨t, hseen, hlt⟩ := hl
      have hk : Kept cutoff e.center (e.center.dissociate l.snapshot.id) := by
        refine kept_dissociate (t := t) ?_ hlt
        rw [h.kept.leaseSeen, hseen]
      exact ⟨h.kept.trans hk, h.status⟩
    · have hk : Kept cutoff e.center (e.expire now l).center :=
        (kept_setFlap cutoff e.center l.snapshot.id now (· + 1)).trans (kept_setOffline ..)
      refine ⟨h.kept.trans hk, ?_⟩
      intro i
      simp only [expire, status_setOffline, status_setFlap, h.status, overwrite_twice, mem_cons,
        or_comm]

theorem mem_seen_step :
    i ∈ (e.step now cutoff l).seen →
      i ∈ e.seen ∨ (i = l.deviceId ∧ i ∉ e.seen ∧ e.guarded cutoff l = false) := by
  unfold Expiry.step
  split
  · exact .inl
  · next hs =>
    split
    · exact .inl
    · next hg =>
      intro hi
      rcases mem_cons.mp hi with rfl | hi
      · exact .inr ⟨rfl, hs, by simpa using hg⟩
      · exact .inl hi

theorem seen_mono (ls : List StaleAgentSnapshot) (hi : i ∈ e.seen) :
    i ∈ (run (Expiry.step now cutoff) e ls).seen := by
  induction ls generalizing e with
  | nil => exact hi
  | cons l rest ih =>
    refine ih ?_
    unfold Expiry.step
    split
    · exact hi
    · split
      · exact hi
      · exact mem_cons_of_mem _ hi

/-- A row of the list either gets its verdict or is guarded by a fresh lease of its device. -/
theorem run_verdict (now : Nat) (h : Reached c cutoff e) (hls : ∀ l ∈ ls, Overdue c cutoff l) :
    ∀ l ∈ ls, l.deviceId ∈ (run (Expiry.step now cutoff) e ls).seen ∨
      (l.snapshot.deviceUuid ≠ "" ∧ ∃ s ∈ c.freshLeases cutoff,
        s.deviceUuid = l.snapshot.deviceUuid ∧ s.networkId = l.snapshot.networkId) := by
  induction ls generalizing e with
  | nil => simp
  | cons l rest ih =>
    have hnext := h.step now (hls l mem_cons_self)
    have hrest := ih hnext fun m hm => hls m (mem_cons_of_mem _ hm)
    intro m hm
    rcases mem_cons.mp hm with rfl | hm
    · by_cases hg : e.guarded cutoff m = true
      · right
        simp only [guarded, hasFresherLease, Bool.and_eq_true, decide_eq_true_eq, any_eq_true] at hg
        obtain ⟨hu, s, hs, hsu, hsn, -, hle⟩ := hg
        refine ⟨hu, s.bare, ?_, hsu, hsn⟩
        rw [← h.kept.freshLeases]
        exact mem_map_of_mem (mem_filter.mpr ⟨hs, by simpa using hle⟩)
      · left
        refine seen_mono rest ?_
        unfold Expiry.step
        split
        · next hs => exact hs
        · exact mem_cons_self
    · exact hrest m hm

theorem seen_of_run (hi : i ∈ (run (Expiry.step now cutoff) e ls).seen) :
    i ∈ e.seen ∨ ∃ l ∈ ls, l.deviceId = i := by
  induction ls generalizing e with
  | nil => exact .inl hi
  | cons l rest ih =>
    rcases ih hi with hs | ⟨m, hm, hmi⟩
    · rcases mem_seen_step hs with hs | ⟨rfl, -⟩
      · exact .inl hs
      · exact .inr ⟨l, mem_cons_self, rfl⟩
    · exact .inr ⟨m, mem_cons_of_mem _ hm, hmi⟩

end Expiry

namespace Center

variable {c : Center} {cutoff i : Nat} {d : DeviceRow} {l : StaleAgentSnapshot} {n now ttl : Nat}

theorem mem_staleAgentSnapshots :
    l ∈ c.staleAgentSnapshots cutoff ↔ l.snapshot ∈ c.snapshots.rows ∧
      c.agentManaged l.snapshot.networkId = true ∧ ∃ d, c.device l.deviceId = some d ∧
        l.snapshot.Joins d ∧ l.snapshot.lastSeenAt < cutoff ∧ d.status = .online := by
  simp [staleAgentSnapshots, mem_querySnapshots]

theorem mem_recoverableAgentSnapshots :
    l ∈ c.recoverableAgentSnapshots cutoff ↔ l.snapshot ∈ c.snapshots.rows ∧
      c.agentManaged l.snapshot.networkId = true ∧ ∃ d, c.device l.deviceId = some d ∧
        l.snapshot.Joins d ∧ cutoff ≤ l.snapshot.lastSeenAt ∧ d.status = .offline := by
  simp [recoverableAgentSnapshots, mem_querySnapshots]

theorem overdue_of_mem_stale : ∀ l ∈ c.staleAgentSnapshots cutoff, Expiry.Overdue c cutoff l := by
  intro l hl
  obtain ⟨hs, -, d, -, -, hlt, -⟩ := mem_staleAgentSnapshots.mp hl
  have hget : c.lease l.snapshot.id = some l.snapshot := Table.get?_of_mem (t := c.snapshots) hs
  exact ⟨l.snapshot.lastSeenAt, by simp [leaseSeen, hget], hlt⟩

theorem reached_start (c : Center) (cutoff : Nat) : Expiry.Reached c cutoff { center := c } :=
  ⟨Kept.refl cutoff c, by simp⟩

theorem expireStale_reached (c : Center) (now cutoff : Nat) :
    Expiry.Reached c cutoff (c.expireStale now cutoff) :=
  run_invariant (C := fun _ => Expiry.Overdue c cutoff) (fun _ _ he hl => he.step now hl)
    (c.reached_start cutoff) (along_of_forall _ _ _ overdue_of_mem_stale)

theorem status_eq (h : c.device i = some d) : c.status i = some d.status := by
  simp [status, h]

/-- A device without a fresh lease that a stale one joins is offline after the expiry. -/
theorem expireStale_offline (now : Nat) (hd : c.device d.id = some d)
    (hst : d.status = .online ∨ d.status = .offline) (hleased : c.Leased d)
    (hfresh : ¬ c.FreshlyLeased cutoff d) :
    (c.expireStale now cutoff).center.status d.id = some .offline := by
  rw [(c.expireStale_reached now cutoff).status, status_eq hd]
  split
  · rfl
  · next hseen =>
    rcases hst with hon | hoff
    · exfalso
      obtain ⟨s, hs, hagent, hjoin⟩ := hleased
      have hlt : s.lastSeenAt < cutoff := by
        by_contra hge
        exact hfresh ⟨s, hs, hagent, hjoin, by omega⟩
      have hmem : ⟨s, d.id⟩ ∈ c.staleAgentSnapshots cutoff :=
        mem_staleAgentSnapshots.mpr ⟨hs, hagent, d, hd, hjoin, hlt, hon⟩
      rcases Expiry.run_verdict now (c.reached_start cutoff) overdue_of_mem_stale _ hmem with
        hv | ⟨hu, f, hf, hfu, hfn⟩
      · exact hseen hv
      · -- The guard stands for a fresh lease of the same uuid, which joins the device too.
        rcases hjoin with ⟨-, hju, hjn⟩ | ⟨hempty, -⟩
        · exact hfresh (freshlyLeased_iff.mpr
            ⟨f, hf, hfn ▸ hagent, .inl ⟨hfu ▸ hu, hfu ▸ hju, hfn ▸ hjn⟩⟩)
        · exact hu hempty
    · rw [hoff]

/-- Only rows that a fresh lease joins can be in the recoverable list. -/
theorem mem_recoverable_iff (hd : c.device i = some d) :
    i ∈ (c.recoverableAgentSnapshots cutoff).map StaleAgentSnapshot.deviceId ↔
      c.FreshlyLeased cutoff d ∧ d.status = .offline := by
  simp only [mem_map, mem_recoverableAgentSnapshots]
  constructor
  · rintro ⟨l, ⟨hs, hagent, d', hd', hjoin, hle, hoff⟩, rfl⟩
    cases hd.symm.trans hd'
    exact ⟨⟨l.snapshot, hs, hagent, hjoin, hle⟩, hoff⟩
  · rintro ⟨⟨s, hs, hagent, hjoin, hle⟩, hoff⟩
    exact ⟨⟨s, i⟩, ⟨hs, hagent, d, hd, hjoin, hle, hoff⟩, rfl⟩

theorem mem_orphaned (hd : c.device i = some d)
    (h : i ∈ (c.orphanedAgentDevices cutoff).map Prod.fst) :
    ∃ n, d.networkId = some n ∧ c.agentManaged n = true ∧ d.status = .online ∧
      c.referenced d = false := by
  simp only [orphanedAgentDevices, mem_map, mem_filterMap] at h
  obtain ⟨o, ⟨d', hd', ho⟩, rfl⟩ := h
  split at ho
  · cases ho
  · next n hn =>
    split at ho
    · next hcond =>
      cases ho
      cases hd.symm.trans (mem_rows_iff.mp hd')
      exact ⟨n, hn, hcond.1, hcond.2.1, hcond.2.2.2.2⟩
    · cases ho

theorem referenced_of_joins {s : Snapshot} (hs : s ∈ c.snapshots.rows) (hjoin : s.Joins d)
    (hn : d.networkId = some n) : c.referenced d = true := by
  simp only [referenced, any_eq_true, decide_eq_true_eq]
  rcases hjoin with ⟨hu, hdu, hdn⟩ | ⟨hu, hip, hdn | hdn⟩
  · exact ⟨s, hs, .inl ⟨hu, hdu.symm, hdn⟩⟩
  · exact ⟨s, hs, .inr ⟨hu, hip.symm, hdn⟩⟩
  · exact absurd (hn.symm.trans hdn) (by simp)

theorem not_orphaned (hd : c.device i = some d) (h : c.FreshlyLeased cutoff d) :
    i ∉ (c.orphanedAgentDevices cutoff).map Prod.fst := by
  intro hmem
  obtain ⟨n, hn, -, -, href⟩ := mem_orphaned hd hmem
  obtain ⟨s, hs, -, hjoin, -⟩ := h
  rw [referenced_of_joins hs hjoin hn] at href
  cases href

theorem kept_expireStale (c : Center) (now cutoff : Nat) :
    Kept cutoff c (c.expireStale now cutoff).center :=
  (c.expireStale_reached now cutoff).kept

/-- The row at its id after the first two passes, in its old place. -/
theorem device_kept {c' : Center} (h : Kept cutoff c c') (hd : c.device i = some d) :
    ∃ d', c'.device i = some d' ∧ d'.deviceUuid = d.deviceUuid ∧ d'.ipAddress = d.ipAddress ∧
      d'.networkId = d.networkId := by
  obtain ⟨d', hd', hu, hip, hn⟩ := device_of_place h.place.symm hd
  exact ⟨d', hd', hu.symm, hip.symm, hn.symm⟩

theorem online_of_freshlyLeased (now : Nat) (hd : c.device i = some d)
    (hst : d.status = .online ∨ d.status = .offline) (hfresh : c.FreshlyLeased cutoff d) :
    (c.recoverFresh now cutoff).center.status i = some .online := by
  rw [status_recoverFresh]
  by_cases hoff : d.status = .offline
  · rw [if_pos ((mem_recoverable_iff hd).mpr ⟨hfresh, hoff⟩), status_eq hd]
    rfl
  · have hon : d.status = .online := by simpa [hoff] using hst
    rw [if_neg (fun h => hoff ((mem_recoverable_iff hd).mp h).2), status_eq hd, hon]

theorem recoverFresh_unleased {c' : Center} (now : Nat) (h : Kept cutoff c c')
    (hd : c.device d.id = some d) (hfresh : ¬ c.FreshlyLeased cutoff d) :
    (c'.recoverFresh now cutoff).center.status d.id = c'.status d.id := by
  obtain ⟨d', hd', hu, hip, hn⟩ := device_kept h hd
  rw [status_recoverFresh, if_neg]
  intro hmem
  exact hfresh ((h.freshlyLeased hu hip hn).mp ((mem_recoverable_iff hd').mp hmem).1)

/-- A device of a network without an agent is in none of the lists. -/
theorem sweepOnce_other_network (hd : c.device d.id = some d) (hn : d.networkId = some n)
    (hagent : c.agentManaged n = false) :
    (c.sweepOnce now ttl).center.status d.id = some d.status := by
  -- A join would put the lease into the network of the device.
  have hnojoin : ∀ s : Snapshot, c.agentManaged s.networkId = true → ¬ s.Joins d := by
    intro s hs hjoin
    have hsn : s.networkId = n := by
      rcases hjoin with ⟨-, -, h⟩ | ⟨-, -, h | h⟩ <;> rw [hn] at h <;> simp_all
    rw [hsn, hagent] at hs
    cases hs
  have hfresh : ¬ c.FreshlyLeased (now - ttl) d := fun ⟨s, _, hs, hjoin, _⟩ => hnojoin s hs hjoin
  -- first pass
  have h1 : (c.expireStale now (now - ttl)).center.status d.id = some d.status := by
    rw [(c.expireStale_reached now (now - ttl)).status d.id, status_eq hd, if_neg]
    intro hseen
    rcases Expiry.seen_of_run hseen with hempty | ⟨l, hl, hli⟩
    · cases hempty
    · obtain ⟨-, hs, d', hd', hjoin, -⟩ := mem_staleAgentSnapshots.mp hl
      rw [hli] at hd'
      cases hd.symm.trans hd'
      exact hnojoin l.snapshot hs hjoin
  -- second and third pass
  have hk1 := c.kept_expireStale now (now - ttl)
  have hk2 := hk1.trans (kept_recoverFresh _ now (now - ttl))
  obtain ⟨d2, hd2, hu2, hip2, hn2⟩ := device_kept hk2 hd
  simp only [sweepOnce, status_decayQuietFlaps]
  rw [status_expireOrphaned, if_neg, recoverFresh_unleased now hk1 hd hfresh, h1]
  intro hmem
  obtain ⟨m, hm, hma, -⟩ := mem_orphaned hd2 hmem
  rw [hn2, hn] at hm
  cases hm
  rw [agentManaged_eq hk2.networks, hagent] at hma
  cases hma

/-- After a sweep a leased device is online exactly when one of its leases was fresh. -/
theorem sweepOnce_leased (hd : c.device d.id = some d)
    (hst : d.status = .online ∨ d.status = .offline) (hleased : c.Leased d) :
    (c.sweepOnce now ttl).center.status d.id = some .online ↔ c.FreshlyLeased (now - ttl) d := by
  have hk1 := c.kept_expireStale now (now - ttl)
  obtain ⟨d1, hd1, hu1, hip1, hn1⟩ := device_kept hk1 hd
  have hk2 := hk1.trans (kept_recoverFresh _ now (now - ttl))
  obtain ⟨d2, hd2, hu2, hip2, hn2⟩ := device_kept hk2 hd
  simp only [sweepOnce, status_decayQuietFlaps]
  rw [status_expireOrphaned]
  by_cases hfresh : c.FreshlyLeased (now - ttl) d
  · have hst1 : d1.status = .online ∨ d1.status = .offline := by
      have h1 := (c.expireStale_reached now (now - ttl)).status d.id
      rw [status_eq hd1, status_eq hd] at h1
      split at h1
      · exact .inr (Option.some.inj h1)
      · exact Option.some.inj h1 ▸ hst
    rw [if_neg (not_orphaned hd2 ((hk2.freshlyLeased hu2 hip2 hn2).mpr hfresh)),
      online_of_freshlyLeased now hd1 hst1 ((hk1.freshlyLeased hu1 hip1 hn1).mpr hfresh)]
    simp [hfresh]
  · rw [recoverFresh_unleased now hk1 hd hfresh, expireStale_offline now hd hst hleased hfresh]
    simp [hfresh]

/-- Sweep correctness. -/
theorem sweepOnce_correct (c : Center) (now ttl : Nat)
    (hst : ∀ d ∈ c.db.rows, d.status = .online ∨ d.status = .offline) :
    (∀ d ∈ c.db.rows, c.Leased d →
      ((c.sweepOnce now ttl).center.status d.id = some .online ↔ c.FreshlyLeased (now - ttl) d)) ∧
    (∀ d ∈ c.db.rows, ∀ n, d.networkId = some n → c.agentManaged n = false →
      (c.sweepOnce now ttl).center.status d.id = some d.status) := by
  constructor
  · intro d hd hleased
    exact sweepOnce_leased (mem_rows_iff.mp hd) (hst d hd) hleased
  · intro d hd n hn hagent
    exact sweepOnce_other_network (mem_rows_iff.mp hd) hn hagent

/-- Two switches of one agent; the agent keeps reporting the second only. -/
def twoHosts : Center :=
  let one := sighting "02:00:00:00:00:01" "10.0.0.1"
  let two := sighting "02:00:00:00:00:02" "10.0.0.2"
  let van : Vantage := { net := some 1, agentId := "agent" }
  let c := ((empty.addNetwork (some "agent")).bridge 100 "u1" one van).bridge 100 "u2" two van
  let c := c.recordAliveSnapshots (some 1) 0 100 [⟨true, one⟩, ⟨true, two⟩]
  c.recordAliveSnapshots (some 1) 0 500 [⟨true, two⟩]

theorem twoHosts_swept :
    (∀ d ∈ twoHosts.db.rows, d.status = .online ∧ twoHosts.Leased d) ∧
      ∀ d ∈ twoHosts.db.rows, (twoHosts.sweepOnce 600 300).center.status d.id = some .online ↔
        twoHosts.FreshlyLeased 300 d := by
  have hrows : ∀ d ∈ twoHosts.db.rows, d.status = .online ∧ twoHosts.Leased d := by decide +kernel
  refine ⟨hrows, ?_⟩
  intro d hd
  exact (sweepOnce_correct twoHosts 600 300 fun e he => .inl (hrows e he).1).1 d hd (hrows d hd).2

end Center

end Steward
