import Steward.LeaseSweeper

/-!
# Lease remnants

A device that moves to another address leaves a lease behind. The roam guard of
the sweeper takes the attribution off such a remnant; without one the remnant
joins by address, and the guard does not look at it again.
-/

namespace Steward

open RowTable

/-- What happens to the leases of a center. -/
inductive LeaseEvent where
  | recordAlive (net taskId now : Nat) (hosts : List ScannedHost)
  | sweep (now ttl : Nat)

namespace Center

variable (c : Center)

/-- An event with the events it hands to the recorder. -/
def leasePass : LeaseEvent → Pass
  | .recordAlive net taskId now hosts => ⟨c.recordAliveSnapshots (some net) taskId now hosts, []⟩
  | .sweep now ttl => c.sweepOnce now ttl

def leaseStep (a : LeaseEvent) : Center := (c.leasePass a).center

/-- The device holds a fresh lease under its own uuid in its own network. -/
def HoldsFresh (cutoff i : Nat) : Prop :=
  ∃ d ∈ c.device i, ∃ s ∈ c.snapshots.rows, s.deviceUuid ≠ "" ∧ s.deviceUuid = d.deviceUuid ∧
    d.networkId = some s.networkId ∧ cutoff ≤ s.lastSeenAt

instance (cutoff i : Nat) : Decidable (c.HoldsFresh cutoff i) :=
  inferInstanceAs (Decidable (∃ d ∈ c.device i, _))

end Center

namespace Expiry

open Center

variable (now cutoff : Nat) (e : Expiry) (l : StaleAgentSnapshot)

/-- The row of the list makes the loop set device `i` offline or record its loss. -/
def Condemns (i : Nat) : Prop :=
  (e.center.status i ≠ some .offline ∧ (e.step now cutoff l).center.status i = some .offline) ∨
    ∃ ev, (e.step now cutoff l).events = e.events ++ [ev] ∧ ev.changeType = .deviceLost ∧
      ev.deviceId = i

/-- No device is condemned that holds a fresh lease at that moment. -/
def SparesLive : Prop :=
  ∀ i, Condemns now cutoff e l i → ¬ e.center.HoldsFresh cutoff i

end Expiry

namespace Center

/-- A sweep expires no live device. -/
def SparesLive (c : Center) : LeaseEvent → Prop
  | .recordAlive .. => True
  | .sweep now ttl => Runs.Along (Expiry.step now (now - ttl)) (Expiry.SparesLive now (now - ttl))
      { center := c } (c.staleAgentSnapshots (now - ttl))

/-- No stale lease without a uuid sits at the address of an online device that holds a fresh one. -/
def NoStrayRemnant (c : Center) : LeaseEvent → Prop
  | .recordAlive .. => True
  | .sweep now ttl => ∀ s ∈ c.snapshots.rows, c.agentManaged s.networkId = true →
      s.deviceUuid = "" → s.lastSeenAt < now - ttl → ∀ d ∈ c.db.rows, d.status = .online →
        s.Joins d → ¬ c.HoldsFresh (now - ttl) d.id

instance (c : Center) (a : LeaseEvent) : Decidable (c.NoStrayRemnant a) :=
  match a with
  | .recordAlive .. => isTrue trivial
  | .sweep .. => inferInstanceAs (Decidable (∀ s ∈ c.snapshots.rows, _))

theorem Kept.holdsFresh {cutoff : Nat} {c c' : Center} (h : Kept cutoff c c') (i : Nat) :
    c'.HoldsFresh cutoff i ↔ c.HoldsFresh cutoff i := by
  have aux : ∀ {c c' : Center}, Kept cutoff c c' → c'.HoldsFresh cutoff i →
      c.HoldsFresh cutoff i := by
    rintro c c' h ⟨d', hd', s', hs', hne, hu', hn', hle⟩
    obtain ⟨d, hd, hu, -, hn⟩ := device_of_place h.place hd'
    obtain ⟨s, hs, hsle, hbare⟩ := h.fresh_origin hs' hle
    have hsu : s.deviceUuid = s'.deviceUuid := (congrArg Snapshot.deviceUuid hbare :)
    have hsn : s.networkId = s'.networkId := (congrArg Snapshot.networkId hbare :)
    refine ⟨d, hd, s, hs, ?_, ?_, ?_, hsle⟩
    · rw [hsu]
      exact hne
    · rw [hsu, hu', hu]
    · rw [hsn, ← hn, hn']
  have hback : Kept cutoff c' c :=
    ⟨h.place.symm, h.leaseSeen.symm, h.freshLeases.symm, h.networks.symm⟩
  exact ⟨aux h, aux hback⟩

end Center

namespace Expiry

open Center

variable {now cutoff i : Nat} {e : Expiry} {l : StaleAgentSnapshot} {c : Center}

/-- Only the expiring branch of the loop condemns, and only the device of the row. -/
theorem condemns_iff (hcond : Condemns now cutoff e l i) :
    i = l.deviceId ∧ i ∉ e.seen ∧ e.guarded cutoff l = false := by
  unfold Condemns Expiry.step at hcond
  split at hcond
  · rcases hcond with ⟨hne, heq⟩ | ⟨ev, hev, -⟩
    · exact absurd heq hne
    · simp at hev
  · next hseen =>
    split at hcond
    · rcases hcond with ⟨hne, heq⟩ | ⟨ev, hev, -⟩
      · exact absurd heq hne
      · simp at hev
    · next hg =>
      have hi : i = l.deviceId := by
        rcases hcond with ⟨hne, heq⟩ | ⟨ev, hev, -, hid⟩
        · simp only [expire, status_setOffline, status_setFlap] at heq
          by_contra hi
          rw [if_neg hi] at heq
          exact hne heq
        · simp only [expire, List.append_cancel_left_eq] at hev
          split at hev
          · cases hev
          · cases hev
            exact hid.symm
      exact ⟨hi, hi ▸ hseen, by simpa using hg⟩

/-- A verdict of the loop condemns an online device. -/
theorem condemns_of_seen (h : Reached c cutoff e) (hon : c.status i = some .online)
    (hi : i ∉ e.seen) (hnext : i ∈ (e.step now cutoff l).seen) (hl : Overdue c cutoff l) :
    Condemns now cutoff e l i := by
  left
  have hbefore := h.status i
  have hafter := (h.step now hl).status i
  rw [if_neg hi, hon] at hbefore
  rw [if_pos hnext, hon] at hafter
  exact ⟨by simp [hbefore], hafter⟩

/-- A loop that spares live devices never sees one that was online at its start. -/
theorem not_seen_of_sparesLive {ls : List StaleAgentSnapshot} (h : Reached c cutoff e)
    (hls : ∀ l ∈ ls, Overdue c cutoff l) (hon : c.status i = some .online)
    (hfresh : c.HoldsFresh cutoff i) (hi : i ∉ e.seen)
    (hspares : Runs.Along (Expiry.step now cutoff) (SparesLive now cutoff) e ls) :
    i ∉ (Runs.run (Expiry.step now cutoff) e ls).seen := by
  induction ls generalizing e with
  | nil => exact hi
  | cons l rest ih =>
    have hl := hls l List.mem_cons_self
    have hnext : i ∉ (e.step now cutoff l).seen := by
      intro hmem
      exact hspares.1 i (condemns_of_seen h hon hi hmem hl) ((h.kept.holdsFresh i).mpr hfresh)
    exact ih (h.step now hl) (fun m hm => hls m (List.mem_cons_of_mem _ hm)) hnext hspares.2

/-- The guard spares the device of a remnant that still has its uuid. -/
theorem guarded_of_holdsFresh {d : DeviceRow} (h : Reached c cutoff e) (hl : Overdue c cutoff l)
    (hu : l.snapshot.deviceUuid ≠ "") (hd : c.device l.deviceId = some d)
    (hdu : d.deviceUuid = l.snapshot.deviceUuid) (hdn : d.networkId = some l.snapshot.networkId)
    (hfresh : e.center.HoldsFresh cutoff l.deviceId) : e.guarded cutoff l = true := by
  obtain ⟨d', hd', s, hs, -, hsu, hsn, hle⟩ := hfresh
  obtain ⟨d0, hd0, hu0, -, hn0⟩ := device_of_place h.kept.place hd'
  cases hd.symm.trans hd0
  -- The fresh lease is not the stale one of the list.
  have hid : s.id ≠ l.snapshot.id := by
    intro hid
    obtain ⟨t, hseen, hlt⟩ := hl
    have hget : e.center.lease s.id = some s := Table.get?_of_mem (t := e.center.snapshots) hs
    rw [← h.kept.leaseSeen, ← hid] at hseen
    simp only [leaseSeen, hget, Option.map_some, Option.some.injEq] at hseen
    omega
  have hnet : s.networkId = l.snapshot.networkId := by
    rw [hn0, hdn] at hsn
    exact (Option.some.inj hsn).symm
  simp only [guarded, hasFresherLease, Bool.and_eq_true, decide_eq_true_eq, List.any_eq_true]
  exact ⟨hu, s, hs, by rw [hsu, hu0, hdu], hnet, hid, hle⟩

/-- Without a stray remnant every row of the list spares the live devices. -/
theorem sparesLive_of_noStray {ttl : Nat} (h : Reached c (now - ttl) e)
    (hstray : c.NoStrayRemnant (.sweep now ttl)) (hl : l ∈ c.staleAgentSnapshots (now - ttl)) :
    SparesLive now (now - ttl) e l := by
  intro i hcond hfresh
  obtain ⟨rfl, -, hg⟩ := condemns_iff hcond
  have hover := overdue_of_mem_stale l hl
  obtain ⟨hs, hagent, d, hd, hjoin, hlt, hon⟩ := mem_staleAgentSnapshots.mp hl
  rcases hjoin with ⟨hu, hdu, hdn⟩ | ⟨hu, hip, hdn⟩
  · rw [guarded_of_holdsFresh h hover hu hd hdu hdn hfresh] at hg
    cases hg
  · have hid : d.id = l.deviceId := Table.id_of_get? (t := c.db.devices) hd
    refine hstray l.snapshot hs hagent hu hlt d (Table.mem_of_get? hd) hon (.inr ⟨hu, hip, hdn⟩) ?_
    rw [hid]
    exact (h.kept.holdsFresh l.deviceId).mp hfresh

end Expiry

namespace Center

/-- A sweep spares every live device exactly when no stray remnant points at one. -/
theorem sparesLive_iff (c : Center) (a : LeaseEvent) : c.SparesLive a ↔ c.NoStrayRemnant a := by
  cases a with
  | recordAlive => exact Iff.rfl
  | sweep now ttl =>
    constructor
    · intro hspares s hs hagent hu hlt d hd hon hjoin hfresh
      have hdev := mem_rows_iff.mp hd
      have hmem : ⟨s, d.id⟩ ∈ c.staleAgentSnapshots (now - ttl) :=
        mem_staleAgentSnapshots.mpr ⟨hs, hagent, d, hdev, hjoin, hlt, hon⟩
      have hseen := Expiry.run_verdict now (c.reached_start (now - ttl))
        overdue_of_mem_stale _ hmem
      have hnot := Expiry.not_seen_of_sparesLive (c.reached_start (now - ttl)) overdue_of_mem_stale
        (by rw [status_eq hdev, hon]) hfresh (by simp) hspares
      rcases hseen with hseen | ⟨hne, -⟩
      · exact hnot hseen
      · exact hne hu
    · intro hstray
      refine Runs.along_of_invariant (P := Expiry.Reached c (now - ttl)) ?_ (c.reached_start _)
      intro e he l hl
      exact ⟨Expiry.sparesLive_of_noStray he hstray hl, he.step now (overdue_of_mem_stale l hl)⟩

/-- No live device is expired in a run exactly when no sweep of it meets a stray remnant. -/
theorem live_spared_iff (c : Center) (events : List LeaseEvent) :
    Runs.Along leaseStep SparesLive c events ↔ Runs.Along leaseStep NoStrayRemnant c events :=
  Runs.along_congr sparesLive_iff c events

/-- A switch of an agent network before any lease was written. -/
def oneSwitch : Center :=
  (empty.addNetwork (some "agent")).bridge 0 "u1" (sighting "02:00:00:00:00:01" "10.0.0.1")
    { net := some 1, agentId := "agent" }

/-- The switch is reported at its address, then at a second one. The first sweep takes the uuid
off the lease of the first address; a minute later that lease expires the live switch. -/
def roamedAway : List LeaseEvent :=
  [.recordAlive 1 0 100 [⟨true, sighting "02:00:00:00:00:01" "10.0.0.1"⟩],
    .recordAlive 1 0 400 [⟨true, sighting "02:00:00:00:00:01" "10.0.0.2"⟩],
    .sweep 500 300, .sweep 560 300]

theorem remnant_expires_live_device :
    oneSwitch.snapshots.rows = [] ∧ ¬ Runs.Along leaseStep SparesLive oneSwitch roamedAway ∧
      ((Runs.run leaseStep oneSwitch roamedAway.dropLast).leasePass (.sweep 560 300)).events.map
        (fun ev => (ev.changeType, ev.deviceId)) = [(.deviceLost, 1), (.deviceRecovered, 1)] := by
  rw [Runs.along_congr sparesLive_iff]
  decide +kernel

end Center

end Steward
