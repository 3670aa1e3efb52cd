import Steward.LostDetection

/-!
# The heartbeat status cache

Probe verdicts go to a cache in memory, and `syncStatus` writes to the devices
table what differs from the last value it wrote there. The scan bridge, lost
detection and the lease sweeper write the same column and tell the cache
nothing, so what decides a write is the memory of the service, not the column.
-/

namespace Steward

open RowTable Runs Function

structure Heartbeat where
  offlineThreshold : Nat
  failCounts : Nat → Nat
  statusCache : Nat → Option Status
  lastSynced : Nat → Option Status

namespace Heartbeat

variable (h : Heartbeat) (d : Nat)

def cacheStatus (st : Status) : Heartbeat :=
  if h.statusCache d = some st then h
  else { h with statusCache := Function.update h.statusCache d (some st) }

/-- `applyDeviceVerdict`. -/
def applyDeviceVerdict (anySuccess : Bool) : Heartbeat :=
  if anySuccess then
    cacheStatus { h with failCounts := Function.update h.failCounts d 0 } d .online
  else
    let count := h.failCounts d + 1
    let h := { h with failCounts := Function.update h.failCounts d count }
    if count < h.offlineThreshold then h else h.cacheStatus d .offline

/-- `ResetFailures`. -/
def resetFailures : Heartbeat :=
  { h with failCounts := Function.update h.failCounts d 0 }

/-- The entries of the cache that differ from what was last written. -/
def changed : Option Status :=
  match h.statusCache d with
  | none => none
  | some st => if h.lastSynced d ≠ some st then some st else none

theorem cacheStatus_eq (st : Status) :
    h.cacheStatus d st = { h with statusCache := update h.statusCache d (some st) } := by
  unfold cacheStatus
  split
  · next hc => rw [← hc, update_eq_self]
  · rfl

theorem applyDeviceVerdict_eq (ok : Bool) : h.applyDeviceVerdict d ok =
    { h with
      failCounts := update h.failCounts d (if ok then 0 else h.failCounts d + 1)
      statusCache :=
        if ok then update h.statusCache d (some .online)
        else if h.failCounts d + 1 < h.offlineThreshold then h.statusCache
        else update h.statusCache d (some .offline) } := by
  unfold applyDeviceVerdict
  simp only [cacheStatus_eq]
  cases ok with
  | true => rfl
  | false =>
    simp only [Bool.false_eq_true, if_false]
    split <;> rfl

@[simp] theorem applyDeviceVerdict_lastSynced (ok : Bool) :
    (h.applyDeviceVerdict d ok).lastSynced = h.lastSynced := by
  rw [applyDeviceVerdict_eq]

theorem applyDeviceVerdict_other (h : Heartbeat) {d e : Nat} (ok : Bool) (hne : e ≠ d) :
    (h.applyDeviceVerdict d ok).statusCache e = h.statusCache e := by
  rw [applyDeviceVerdict_eq]
  dsimp only
  split_ifs <;> simp [hne]

end Heartbeat

/-- `syncStatus` between its locked sections. -/
inductive SyncPhase where
  | idle
  | collected (changed : Nat → Option Status)
  | committed (changed : Nat → Option Status)

/-- The center with its heartbeat service. -/
structure Monitor where
  center : Center
  heartbeat : Heartbeat
  sync : SyncPhase

inductive MonitorEvent where
  | verdict (d : Nat) (anySuccess : Bool)
  | syncCollect
  | syncCommit (now : Nat)
  | syncFinish
  | bridge (now : Nat) (uuid : String) (rep : HostReport) (van : Vantage)
  | detectLost (configured : Int) (net : Option Nat) (taskId now : Nat) (hosts : List ScannedHost)
  | sweep (now ttl : Nat)

/-- `NewHeartbeatService` and `initStatusCache`. -/
def Monitor.start (c : Center) (offlineThreshold : Int) : Monitor where
  center := c
  heartbeat :=
    { offlineThreshold := if offlineThreshold ≤ 0 then 5 else offlineThreshold.toNat
      failCounts := fun _ => 0
      statusCache := c.status
      lastSynced := c.status }
  sync := .idle

/-- The row update of `syncStatus`. -/
def syncRow (now : Nat) (st : Status) (r : DeviceRow) : DeviceRow :=
  { r with
    status := st
    offlineSince :=
      if st = .offline ∧ r.status ≠ .offline then some now
      else if st = .online then none
      else r.offlineSince
    updatedAt := now }

variable (c : Center) (now : Nat) (changed : Nat → Option Status)

/-- The transaction of `syncStatus`. -/
def Center.writeStatuses : Center :=
  { c with
    db := c.db.modifyWhere (fun r => (changed r.id).isSome)
      (fun r => syncRow now ((changed r.id).getD r.status) r) fun _ => ⟨rfl, rfl, rfl, rfl⟩ }

theorem Center.status_writeStatuses
    (d : Nat) :
    (c.writeStatuses now changed).status d =
      (c.status d).map fun st => (changed d).getD st := by
  simp only [Center.status, Center.device, writeStatuses, Db.modifyWhere, Table.get?_modifyWhere]
  cases hr : c.db.devices.get? d with
  | none => rfl
  | some r =>
    have hid : r.id = d := Table.id_of_get? (t := c.db.devices) hr
    simp only [Option.map_some, hid]
    cases changed d <;> simp [syncRow]

/-- The device that the bridge passes to `ResetFailures`. -/
def bridgedDevice (c : Center) (now : Nat) (uuid : String) (rep : HostReport) (van : Vantage) :
    Option Nat :=
  let res := resolveDeviceIdentity c.db now (reportMAC rep) rep.ip van.net
  if res.isNew then (applyDeviceIdentity c.db now uuid (createWrite rep van.net)).deviceId
  else some res.targetId

namespace Monitor

def step (m : Monitor) : MonitorEvent → Monitor
  | .verdict d ok => { m with heartbeat := m.heartbeat.applyDeviceVerdict d ok }
  | .syncCollect =>
    match m.sync with
    | .idle => { m with sync := .collected m.heartbeat.changed }
    | _ => m
  | .syncCommit now =>
    match m.sync with
    | .collected changed =>
      { m with center := m.center.writeStatuses now changed, sync := .committed changed }
    | _ => m
  | .syncFinish =>
    match m.sync with
    | .committed changed =>
      { m with
        heartbeat := { m.heartbeat with
          lastSynced := fun d => (changed d).or (m.heartbeat.lastSynced d) }
        sync := .idle }
    | _ => m
  | .bridge now uuid rep van =>
    { m with
      center := m.center.bridge now uuid rep van
      heartbeat := match bridgedDevice m.center now uuid rep van with
        | some d => m.heartbeat.resetFailures d
        | none => m.heartbeat }
  | .detectLost configured net taskId now hosts =>
    { m with center := (m.center.detectLost configured net taskId now hosts "").center }
  | .sweep now ttl => { m with center := (m.center.sweepOnce now ttl).center }

end Monitor

namespace MonitorEvent

/-- A writer of the status column outside the service. -/
def External : MonitorEvent → Prop
  | .bridge .. | .detectLost .. | .sweep .. => True
  | _ => False

/-- A section of `syncStatus`. -/
def OfSync : MonitorEvent → Prop
  | .syncCollect | .syncCommit _ | .syncFinish => True
  | _ => False

end MonitorEvent

namespace Monitor

open MonitorEvent

variable (d : Nat) (m : Monitor) (a : MonitorEvent)

/-- No external writer touches the status of device `d`. -/
def Undisturbed : Prop :=
  a.External → (m.step a).center.status d = m.center.status d

/-- After the verdict on `d` and before the sync: no other verdict on `d`, no external write. -/
def Settled : Prop :=
  (∀ ok, a ≠ .verdict d ok) ∧ Undisturbed d m a

/-- Between the sections of one sync. -/
def Between : Prop :=
  ¬ a.OfSync ∧ Undisturbed d m a

variable {d : Nat} {m : Monitor} {a : MonitorEvent} {events : List MonitorEvent}

theorem statusCache_step (h : ∀ ok, a ≠ .verdict d ok) :
    (m.step a).heartbeat.statusCache d = m.heartbeat.statusCache d := by
  cases a with
  | verdict e ok =>
    have hne : d ≠ e := by
      rintro rfl
      exact h ok rfl
    exact Heartbeat.applyDeviceVerdict_other m.heartbeat ok hne
  | syncCollect =>
    simp only [step]
    split <;> rfl
  | syncCommit now =>
    simp only [step]
    split <;> rfl
  | syncFinish =>
    simp only [step]
    split <;> rfl
  | bridge now uuid rep van =>
    simp only [step]
    split <;> rfl
  | detectLost => rfl
  | sweep => rfl

/-- Between the sections the phase stands still, and so does the column of `d`. -/
theorem between_step (h : Between d m a) :
    (m.step a).sync = m.sync ∧ (m.step a).center.status d = m.center.status d := by
  cases a with
  | verdict e ok => exact ⟨rfl, rfl⟩
  | syncCollect => exact absurd trivial h.1
  | syncCommit now => exact absurd trivial h.1
  | syncFinish => exact absurd trivial h.1
  | bridge now uuid rep van => exact ⟨rfl, h.2 trivial⟩
  | detectLost => exact ⟨rfl, h.2 trivial⟩
  | sweep => exact ⟨rfl, h.2 trivial⟩

theorem run_between (h : Along step (Between d) m events) :
    (run step m events).sync = m.sync ∧
      (run step m events).center.status d = m.center.status d := by
  refine run_invariant (P := fun m' : Monitor => m'.sync = m.sync ∧
    m'.center.status d = m.center.status d) ?_ ⟨rfl, rfl⟩ h
  intro m' a hm ha
  obtain ⟨hsync, hst⟩ := between_step ha
  exact ⟨hsync.trans hm.1, hst.trans hm.2⟩

theorem run_settled (h : Along step (Settled d) m events) :
    (run step m events).heartbeat.statusCache d = m.heartbeat.statusCache d := by
  refine run_invariant (P := fun m' : Monitor => m'.heartbeat.statusCache d =
    m.heartbeat.statusCache d) ?_ rfl h
  intro m' a hm ha
  exact (statusCache_step ha.1).trans hm

/-- A sync with whatever happens between its sections. -/
def syncRun (now : Nat) (xs ys : List MonitorEvent) : List MonitorEvent :=
  .syncCollect :: xs ++ .syncCommit now :: ys ++ [.syncFinish]

/-- The column of a device after a sync. -/
theorem status_syncRun {now : Nat} {xs ys : List MonitorEvent} (hidle : m.sync = .idle)
    (hxs : Along step (Between d) (m.step .syncCollect) xs)
    (hys : Along step (Between d) ((run step (m.step .syncCollect) xs).step (.syncCommit now)) ys) :
    (run step m (syncRun now xs ys)).center.status d =
      (m.center.status d).map fun st => (m.heartbeat.changed d).getD st := by
  have hcollect : m.step .syncCollect = { m with sync := .collected m.heartbeat.changed } := by
    simp only [step, hidle]
  obtain ⟨hsync, hst⟩ := run_between hxs
  obtain ⟨-, hst'⟩ := run_between hys
  have hcommit : ((run step (m.step .syncCollect) xs).step (.syncCommit now)).center.status d =
      (m.center.status d).map fun st => (m.heartbeat.changed d).getD st := by
    rw [hcollect] at hsync hst ⊢
    simp only [step, hsync, Center.status_writeStatuses, hst]
  have hfinish : ∀ m : Monitor, (m.step .syncFinish).center = m.center := by
    intro m
    simp only [step]
    split <;> rfl
  rw [← hcommit, ← hst']
  simp only [run, syncRun, List.cons_append, List.foldl_cons, List.foldl_append,
    List.foldl_nil, hfinish]

/-- Every value of the column is the last synced one, up to a write that `syncStatus` has
committed and not noted yet. -/
def InStep (m : Monitor) : Prop :=
  match m.sync with
  | .committed changed => ∀ d st, m.center.status d = some st →
      (changed d).or (m.heartbeat.lastSynced d) = some st
  | _ => ∀ d st, m.center.status d = some st → m.heartbeat.lastSynced d = some st

theorem inStep_step (h : m.InStep) (ha : ¬ a.External) : (m.step a).InStep := by
  cases a with
  | verdict e ok =>
    simpa only [InStep, step, Heartbeat.applyDeviceVerdict_lastSynced] using h
  | syncCollect =>
    cases hs : m.sync with
    | idle => simpa only [InStep, step, hs] using h
    | collected changed => simpa only [step, hs] using h
    | committed changed => simpa only [step, hs] using h
  | syncCommit now =>
    cases hs : m.sync with
    | idle => simpa only [step, hs] using h
    | committed changed => simpa only [step, hs] using h
    | collected changed =>
      simp only [InStep, hs] at h
      simp only [InStep, step, hs, Center.status_writeStatuses]
      intro d st hd
      obtain ⟨old, hold, hnew⟩ := Option.map_eq_some_iff.mp hd
      cases hc : changed d with
      | none =>
        rw [hc] at hnew
        rw [Option.none_or, h d old hold]
        exact congrArg some hnew
      | some new =>
        rw [hc] at hnew
        exact congrArg some hnew
  | syncFinish =>
    cases hs : m.sync with
    | idle => simpa only [step, hs] using h
    | collected changed => simpa only [step, hs] using h
    | committed changed => simpa only [InStep, step, hs] using h
  | bridge => exact absurd trivial ha
  | detectLost => exact absurd trivial ha
  | sweep => exact absurd trivial ha

/-- While the service is the only writer, its memory agrees with the column between syncs. -/
theorem lastSynced_of_sole_writer {c : Center} {threshold : Int} (h : ∀ a ∈ events, ¬ a.External)
    (hidle : (run step (start c threshold) events).sync = .idle) {st : Status}
    (hst : (run step (start c threshold) events).center.status d = some st) :
    (run step (start c threshold) events).heartbeat.lastSynced d = some st := by
  have hin : (run step (start c threshold) events).InStep :=
    run_invariant (fun _ _ => inStep_step) (fun _ _ h => h)
      (along_of_forall step _ events h)
  simp only [InStep, hidle] at hin
  exact hin d st hst

end Monitor

/-- A verdict on a device, then a sync, with no external write of its status in between. -/
structure VerdictThenSync where
  start : Monitor
  device : Nat
  anySuccess : Bool
  verdict : Status
  /-- What happens between the verdict and the sync. -/
  pause : List MonitorEvent
  now : Nat
  /-- What happens while the sync runs, before and after its commit. -/
  early : List MonitorEvent
  late : List MonitorEvent
  resolved : (start.step (.verdict device anySuccess)).heartbeat.statusCache device = some verdict
  settled : Runs.Along Monitor.step (Monitor.Settled device)
    (start.step (.verdict device anySuccess)) pause
  idle : (Runs.run Monitor.step (start.step (.verdict device anySuccess)) pause).sync = .idle
  known : (Runs.run Monitor.step (start.step (.verdict device anySuccess)) pause).center.status
    device ≠ none
  early_between : Runs.Along Monitor.step (Monitor.Between device)
    ((Runs.run Monitor.step (start.step (.verdict device anySuccess)) pause).step .syncCollect)
    early
  late_between : Runs.Along Monitor.step (Monitor.Between device)
    ((Runs.run Monitor.step ((Runs.run Monitor.step (start.step (.verdict device anySuccess))
      pause).step .syncCollect) early).step (.syncCommit now)) late

namespace VerdictThenSync

def before (r : VerdictThenSync) : Monitor :=
  Runs.run Monitor.step (r.start.step (.verdict r.device r.anySuccess)) r.pause

def after (r : VerdictThenSync) : Monitor :=
  Runs.run Monitor.step r.before (Monitor.syncRun r.now r.early r.late)

variable (r : VerdictThenSync)

/-- What the sync finds to write for the device. -/
theorem changed_before :
    r.before.heartbeat.changed r.device =
      if r.before.heartbeat.lastSynced r.device = some r.verdict then none else some r.verdict := by
  have hcache : r.before.heartbeat.statusCache r.device = some r.verdict :=
    (Monitor.run_settled r.settled).trans r.resolved
  simp only [Heartbeat.changed, hcache, ne_eq, ite_not]

theorem status_after :
    ∃ st, r.before.center.status r.device = some st ∧ r.after.center.status r.device =
      some (if r.before.heartbeat.lastSynced r.device = some r.verdict then st else r.verdict) := by
  obtain ⟨st, hst⟩ := Option.ne_none_iff_exists'.mp r.known
  have hafter : r.after.center.status r.device = (r.before.center.status r.device).map
      fun st => (r.before.heartbeat.changed r.device).getD st :=
    Monitor.status_syncRun r.idle r.early_between r.late_between
  refine ⟨st, hst, ?_⟩
  rw [hafter, show r.before.center.status r.device = some st from hst, changed_before]
  split <;> rfl

/-- The sync leaves the verdict in the column exactly when the value synced last is another one
or the column holds the verdict already. -/
theorem sync_writes_verdict_iff (r : VerdictThenSync) :
    r.after.center.status r.device = some r.verdict ↔
      r.before.heartbeat.lastSynced r.device ≠ some r.verdict ∨
        r.before.center.status r.device = some r.verdict := by
  obtain ⟨st, hbefore, hafter⟩ := r.status_after
  rw [hafter, hbefore]
  split
  · next hl => simp [hl]
  · next hl => simp [hl]

/-- As the only writer of the column the service never loses a verdict. -/
theorem sync_writes_verdict_of_sole_writer {c : Center} {threshold : Int}
    {events : List MonitorEvent} (h : ∀ a ∈ events, ¬ a.External)
    (hrun : run Monitor.step (Monitor.start c threshold) events = r.before) :
    r.after.center.status r.device = some r.verdict := by
  obtain ⟨st, hbefore, hafter⟩ := r.status_after
  have hidle : r.before.sync = .idle := r.idle
  have hsynced : r.before.heartbeat.lastSynced r.device = some st := by
    rw [← hrun] at hidle hbefore ⊢
    exact Monitor.lastSynced_of_sole_writer h hidle hbefore
  rw [hafter, hsynced]
  split
  · next hl => exact hl
  · rfl

/-- A probed switch that lost detection declares offline: two scans miss it. -/
def scannedOffline : Monitor :=
  Runs.run Monitor.step
    (Monitor.start (((Center.empty.addNetwork none).bridge 100 "u1"
      (sighting "02:00:00:00:00:01" "10.0.0.1") { net := some 1 }).detectLost 2 (some 1) 7 100
        [⟨true, sighting "02:00:00:00:00:01" "10.0.0.1"⟩] "").center 5)
    [.detectLost 2 (some 1) 7 200 [], .detectLost 2 (some 1) 7 300 []]

/-- The probe of the switch succeeds, and the status is synced. -/
def probedAlive : VerdictThenSync where
  start := scannedOffline
  device := 1
  anySuccess := true
  verdict := .online
  pause := []
  now := 400
  early := []
  late := []
  resolved := by decide +kernel
  settled := trivial
  idle := rfl
  known := by decide +kernel
  early_between := trivial
  late_between := trivial

/-- The switch stays offline: the value synced last is online, so nothing is written. -/
theorem probedAlive_stays_offline :
    probedAlive.after.center.status 1 = some .offline ∧
      probedAlive.after.heartbeat.statusCache 1 = some .online := by
  decide +kernel

/-- A switch whose first failed probe reaches a threshold of one. -/
def probedDead : VerdictThenSync where
  start := Monitor.start ((Center.empty.addNetwork none).bridge 100 "u1"
    (sighting "02:00:00:00:00:01" "10.0.0.1") { net := some 1 }) 1
  device := 1
  anySuccess := false
  verdict := .offline
  pause := []
  now := 400
  early := []
  late := []
  resolved := by decide +kernel
  settled := trivial
  idle := rfl
  known := by decide +kernel
  early_between := trivial
  late_between := trivial

theorem probedDead_synced : probedDead.after.center.status 1 = some .offline :=
  probedDead.sync_writes_verdict_iff.mpr (.inl (by decide +kernel))

theorem probedDead_synced_alone : probedDead.after.center.status 1 = some .offline :=
  probedDead.sync_writes_verdict_of_sole_writer
    (show ∀ a ∈ [MonitorEvent.verdict 1 false], ¬ a.External by simp [MonitorEvent.External]) rfl

end VerdictThenSync

/-! ## The offline threshold -/

namespace Heartbeat

inductive Call where
  | verdict (d : Nat) (anySuccess : Bool)
  | resetFailures (d : Nat)
  deriving DecidableEq

def Call.device : Call → Nat
  | .verdict d _ => d
  | .resetFailures d => d

def call (h : Heartbeat) : Call → Heartbeat
  | .verdict d ok => h.applyDeviceVerdict d ok
  | .resetFailures d => h.resetFailures d

/-- The failing verdicts of a device since its last success or reset. -/
def failing (d : Nat) (calls : List Call) : List Call :=
  (calls.filter (·.device = d)).rtakeWhile (· = .verdict d false)

theorem failing_concat (d : Nat) (calls : List Call) (c : Call) :
    (failing d (calls ++ [c])).length =
      update (fun d => (failing d calls).length) c.device
        (if c = .verdict c.device false then (failing c.device calls).length + 1 else 0) d := by
  unfold failing
  rw [List.filter_append]
  by_cases hd : c.device = d
  · subst hd
    by_cases hfail : c = .verdict c.device false
    · simp [← hfail, List.rtakeWhile_concat_pos]
    · simp [hfail, List.rtakeWhile_concat_neg]
  · simp [hd, Ne.symm hd]

theorem call_counts (h : Heartbeat) (c : Call) :
    (h.call c).offlineThreshold = h.offlineThreshold ∧
      (h.call c).failCounts = update h.failCounts c.device
        (if c = .verdict c.device false then h.failCounts c.device + 1 else 0) := by
  cases c with
  | verdict d ok => cases ok <;> simp [call, applyDeviceVerdict_eq, Call.device]
  | resetFailures d => exact ⟨rfl, rfl⟩

theorem run_counts {h : Heartbeat} (hstart : h.failCounts = fun _ => 0) (calls : List Call) :
    (run call h calls).offlineThreshold = h.offlineThreshold ∧
      (run call h calls).failCounts = fun d => (failing d calls).length := by
  induction calls using List.reverseRecOn with
  | nil => exact ⟨rfl, hstart⟩
  | append_singleton calls c ih =>
    obtain ⟨hsame, hcount⟩ := call_counts (run call h calls) c
    rw [run_append]
    refine ⟨hsame.trans ih.1, hcount.trans (funext fun d => ?_)⟩
    rw [ih.2, failing_concat]

/-- A failing verdict takes the device offline exactly when it completes the threshold or comes
after the one that did; a success brings it online, and nothing else moves it. -/
theorem offline_at_threshold (center : Center) (T : Int) (hT : 1 ≤ T) (calls : List Call)
    (d : Nat) :
    let h := Runs.run call (Monitor.start center T).heartbeat calls
    (h.call (.verdict d false)).statusCache d =
        (if T ≤ (failing d (calls ++ [.verdict d false])).length then some .offline
          else h.statusCache d) ∧
      (h.call (.verdict d true)).statusCache d = some .online ∧
      (∀ e, (h.call (.resetFailures e)).statusCache d = h.statusCache d) ∧
      ∀ e ok, e ≠ d → (h.call (.verdict e ok)).statusCache d = h.statusCache d := by
  intro h
  have hstart : (Monitor.start center T).heartbeat.offlineThreshold = T.toNat := if_neg (by omega)
  obtain ⟨hthreshold, hcount⟩ : h.offlineThreshold = _ ∧ h.failCounts = _ := run_counts rfl calls
  rw [hstart] at hthreshold
  refine ⟨?_, by simp [call, applyDeviceVerdict_eq], fun e => rfl,
    fun e ok he => h.applyDeviceVerdict_other ok he.symm⟩
  simp only [call, applyDeviceVerdict_eq, hthreshold, hcount, failing_concat, Call.device]
  by_cases hlow : (failing d calls).length + 1 < T.toNat
  · simp [hlow, show ¬ T ≤ (failing d calls).length + 1 by omega]
  · simp [hlow, show T ≤ (failing d calls).length + 1 by omega]

/-- The third failure in a row, with a reset before it and one of another device between. -/
theorem third_failure_offline :
    let calls := [.verdict 1 false, .resetFailures 1, .verdict 1 false, .resetFailures 2,
      .verdict 1 false]
    ((Runs.run call (Monitor.start .empty 3).heartbeat calls).call
        (.verdict 1 false)).statusCache 1 =
      some .offline :=
  (offline_at_threshold .empty 3 (by decide) _ 1).1

end Heartbeat

end Steward
