import Mathlib.Tactic.Ring
import Steward.FlapCounter
import Steward.Remnants

/-!
# Flapping devices

A device with one lease of its own, followed through whole runs of the center.
Whatever the other rows do, a sweep moves the pair as the flap counter says, so
the counter decides which endless alternations stop being reported.
-/

namespace Steward

open RowTable Runs List

namespace Pass

/-- The pass handed an event about the device to the recorder. -/
def Mentions (p : Pass) (i : Nat) : Prop := ∃ ev ∈ p.events, ev.deviceId = i

end Pass

namespace Center

/-- Device `i` and lease `l` of an agent network join each other and nothing else. -/
structure SoleLease (c : Center) (l i : Nat) (s : Snapshot) (d : DeviceRow) : Prop where
  lease : c.lease l = some s
  device : c.device i = some d
  agent : c.agentManaged s.networkId = true
  joins : s.Joins d
  onlyLease : ∀ t ∈ c.snapshots.rows, c.agentManaged t.networkId = true → t.Joins d → t.id = l
  onlyDevice : ∀ r ∈ c.db.rows, s.Joins r → r.id = i

/-- The pair as the counter sees it. -/
def flap (c : Center) (l i : Nat) : Flap where
  status := (c.status i).getD .unknown
  count := ((c.lease l).map Snapshot.flapCount).getD 0
  last := (c.lease l).bind Snapshot.lastFlapAt

/-- An event of the center as the counter sees it. -/
def flapInput (c : Center) (l : Nat) : LeaseEvent → FlapInput
  | .recordAlive _ _ now _ => .renew now
  | .sweep now ttl => .sweep now ((c.lease l).any fun s => now - ttl ≤ s.lastSeenAt)

theorem lease_setFlap_same (c : Center) (i now : Nat) (count : Nat → Nat) :
    (c.setFlap i now count).lease i =
      (c.lease i).map fun s =>
        { s with flapCount := count s.flapCount, lastFlapAt := some now } := by
  simp only [lease, setFlap, Table.get?_modify_same]

variable {i j l cutoff : Nat} {c : Center} {s : Snapshot} {d : DeviceRow}

theorem lease_setFlap_other (c : Center) (now : Nat) (count : Nat → Nat) (h : j ≠ i) :
    (c.setFlap i now count).lease j = c.lease j := by
  simp only [lease, setFlap, Table.get?_modify_other _ _ _ h]

@[simp] theorem lease_setOffline (c : Center) (i now j : Nat) :
    (c.setOffline i now).lease j = c.lease j := rfl

@[simp] theorem lease_setOnline (c : Center) (i now j : Nat) :
    (c.setOnline i now).lease j = c.lease j := rfl

/-- A list row about another pair. -/
structure Foreign (l i : Nat) (a : StaleAgentSnapshot) : Prop where
  lease : a.snapshot.id ≠ l
  device : a.deviceId ≠ i

theorem eq_of_lease (hs : c.lease l = some s) {t : Snapshot} (ht : t ∈ c.snapshots.rows)
    (hid : t.id = l) : t = s :=
  c.snapshots.eq_of_id ht (Table.mem_of_get? hs)
    (hid.trans (Table.id_of_get? (t := c.snapshots) hs).symm)

variable (h : c.SoleLease l i s d)

include h

/-- A lease of an agent network and a device that it joins are the pair, or are both others. -/
theorem SoleLease.pair {t : Snapshot} {r : DeviceRow} (ht : t ∈ c.snapshots.rows)
    (hagent : c.agentManaged t.networkId = true) (hr : c.device j = some r) (hjoin : t.Joins r) :
    (t = s ∧ j = i) ∨ (t.id ≠ l ∧ j ≠ i) := by
  by_cases hj : j = i
  · subst hj
    cases h.device.symm.trans hr
    exact .inl ⟨eq_of_lease h.lease ht (h.onlyLease t ht hagent hjoin), rfl⟩
  · refine .inr ⟨fun hid => hj ?_, hj⟩
    cases eq_of_lease h.lease ht hid
    rw [← show r.id = j from Table.id_of_get? (t := c.db.devices) hr]
    exact h.onlyDevice r (Table.mem_of_get? hr) hjoin

/-- A row of the stale list is about the pair in both columns or in none. -/
theorem SoleLease.stale {a : StaleAgentSnapshot} (ha : a ∈ c.staleAgentSnapshots cutoff) :
    (a = ⟨s, i⟩ ∧ s.lastSeenAt < cutoff ∧ d.status = .online) ∨ Foreign l i a := by
  obtain ⟨hmem, hagent, r, hr, hjoin, hlt, hon⟩ := mem_staleAgentSnapshots.mp ha
  rcases h.pair hmem hagent hr hjoin with ⟨rfl, rfl⟩ | ⟨hl, hj⟩
  · cases h.device.symm.trans hr
    exact .inl ⟨rfl, hlt, hon⟩
  · exact .inr ⟨hl, hj⟩

end Center

namespace Expiry

open Center

/-- The loop has not come to the pair. -/
structure Ahead (c : Center) (cutoff l i : Nat) (s : Snapshot) (e : Expiry) : Prop where
  reached : Reached c cutoff e
  unseen : i ∉ e.seen
  lease : e.center.lease l = some s
  silent : ¬ e.toPass.Mentions i

/-- The loop has given its verdict on the pair. -/
structure Past (c : Center) (now cutoff l i : Nat) (s : Snapshot) (e : Expiry) : Prop where
  reached : Reached c cutoff e
  seen : i ∈ e.seen
  lease : e.center.lease l = some { s with flapCount := s.flapCount + 1, lastFlapAt := some now }
  emitted : e.toPass.Mentions i ↔ s.flapCount + 1 < flapThreshold

variable {l i cutoff now : Nat} {a : StaleAgentSnapshot} {c : Center} {s : Snapshot} {e : Expiry}

/-- Rows about other pairs leave the lease, the verdicts and the events of the pair alone. -/
theorem step_foreign (now cutoff : Nat) (h : Foreign l i a) (e : Expiry) :
    (e.step now cutoff a).center.lease l = e.center.lease l ∧
      (i ∈ (e.step now cutoff a).seen ↔ i ∈ e.seen) ∧
        ((e.step now cutoff a).toPass.Mentions i ↔ e.toPass.Mentions i) := by
  unfold Expiry.step
  split
  · exact ⟨rfl, Iff.rfl, Iff.rfl⟩
  · split
    · refine ⟨?_, Iff.rfl, Iff.rfl⟩
      simp only [lease, dissociate, Table.get?_modify_other _ _ _ (Ne.symm h.lease)]
    · refine ⟨?_, ?_, ?_⟩
      · exact lease_setFlap_other e.center now (· + 1) (Ne.symm h.lease)
      · simp [expire, Ne.symm h.device]
      · simp only [expire, Pass.Mentions, mem_append]
        split
        · simp
        · simp [deviceLost, h.device]

variable {d : DeviceRow}

/-- The guard does not apply to the only lease of a device. -/
theorem not_guarded (h : c.SoleLease l i s d) (hr : Reached c cutoff e) :
    e.guarded cutoff ⟨s, i⟩ = false := by
  by_contra hg
  simp only [guarded, hasFresherLease, Bool.not_eq_false, Bool.and_eq_true, decide_eq_true_eq,
    any_eq_true] at hg
  obtain ⟨hu, t, ht, htu, htn, hid, hle⟩ := hg
  -- The fresher lease was there before the loop and would join the device too.
  obtain ⟨t0, hmem0, -, hbare⟩ := hr.kept.fresh_origin ht hle
  have h0u : t0.deviceUuid = s.deviceUuid := (congrArg Snapshot.deviceUuid hbare :).trans htu
  have h0n : t0.networkId = s.networkId := (congrArg Snapshot.networkId hbare :).trans htn
  have h0id : t0.id = t.id := (congrArg Snapshot.id hbare :)
  have hjoin : t0.Joins d := by
    rcases h.joins with ⟨-, hdu, hdn⟩ | ⟨hempty, -⟩
    · exact .inl ⟨by rw [h0u]; exact hu, by rw [h0u, hdu], by rw [h0n, hdn]⟩
    · exact absurd hempty hu
  have hl := h.onlyLease t0 hmem0 (by rw [h0n]; exact h.agent) hjoin
  have hsl : s.id = l := Table.id_of_get? (t := c.snapshots) h.lease
  exact hid (h0id.symm.trans (hl.trans hsl.symm))

theorem Ahead.foreign (h : Ahead c cutoff l i s e) (ha : Foreign l i a)
    (hover : Overdue c cutoff a) : Ahead c cutoff l i s (e.step now cutoff a) := by
  obtain ⟨hlease, hseen, hevents⟩ := step_foreign now cutoff ha e
  exact ⟨h.reached.step now hover, fun hi => h.unseen (hseen.mp hi), hlease.trans h.lease,
    fun hm => h.silent (hevents.mp hm)⟩

theorem Ahead.verdict (hsole : c.SoleLease l i s d) (h : Ahead c cutoff l i s e)
    (hover : Overdue c cutoff ⟨s, i⟩) : Past c now cutoff l i s (e.step now cutoff ⟨s, i⟩) := by
  obtain rfl : s.id = l := Table.id_of_get? (t := c.snapshots) hsole.lease
  have hstep : e.step now cutoff ⟨s, i⟩ = e.expire now ⟨s, i⟩ := by
    rw [Expiry.step, if_neg h.unseen, if_neg (by simp [not_guarded hsole h.reached])]
  refine ⟨h.reached.step now hover, ?_, ?_, ?_⟩
  · rw [hstep]
    exact mem_cons_self
  · rw [hstep]
    simp only [expire, lease_setOffline]
    rw [lease_setFlap_same, h.lease]
    rfl
  · rw [hstep]
    have hsilent := h.silent
    simp only [Pass.Mentions] at hsilent ⊢
    simp only [expire, mem_append]
    constructor
    · rintro ⟨ev, hev | hev, hi⟩
      · exact absurd ⟨ev, hev, hi⟩ hsilent
      · split at hev
        · cases hev
        · next hlow => omega
    · intro hlow
      have hnot : ¬ flapThreshold ≤ s.flapCount + 1 := by omega
      exact ⟨_, .inr (by rw [if_neg hnot]; exact mem_singleton_self _), rfl⟩

theorem Past.keep (h : Past c now cutoff l i s e) (ha : a.deviceId = i ∨ Foreign l i a)
    (hover : Overdue c cutoff a) : Past c now cutoff l i s (e.step now cutoff a) := by
  rcases ha with ha | ha
  · have hstep : e.step now cutoff a = e := by
      rw [Expiry.step, if_pos (by rw [ha]; exact h.seen)]
    rw [hstep]
    exact h
  · obtain ⟨hlease, hseen, hevents⟩ := step_foreign now cutoff ha e
    exact ⟨h.reached.step now hover, hseen.mpr h.seen, hlease.trans h.lease,
      hevents.trans h.emitted⟩

end Expiry

namespace Center

theorem expireStale_flap {c : Center} {l i : Nat} {s : Snapshot} {d : DeviceRow} (now cutoff : Nat)
    (h : c.SoleLease l i s d) :
    let e := c.expireStale now cutoff
    if s.lastSeenAt < cutoff ∧ d.status = .online then
      e.center.flap l i = ⟨.offline, s.flapCount + 1, some now⟩ ∧
        (e.toPass.Mentions i ↔ s.flapCount + 1 < flapThreshold)
    else e.center.flap l i = c.flap l i ∧ ¬ e.toPass.Mentions i := by
  have hstart : Expiry.Ahead c cutoff l i s { center := c } :=
    ⟨c.reached_start cutoff, by simp, h.lease, by simp [Pass.Mentions]⟩
  have hover := @overdue_of_mem_stale c cutoff
  split
  · next hcond =>
    have hpast : Expiry.Past c now cutoff l i s (c.expireStale now cutoff) := by
      refine run_of_hit (P := Expiry.Ahead c cutoff l i s) (H := fun a => a.deviceId = i)
        ?_ ?_ hstart ⟨⟨s, i⟩, mem_staleAgentSnapshots.mpr ⟨Table.mem_of_get? h.lease, h.agent, d,
          h.device, h.joins, hcond⟩, rfl⟩
      · intro a ha e he
        rcases h.stale ha with ⟨rfl, -⟩ | hf
        · exact ⟨fun _ => he.verdict h (hover _ ha), fun hne => absurd rfl hne⟩
        · exact ⟨fun heq => absurd heq hf.device, fun _ => he.foreign hf (hover a ha)⟩
      · intro a ha e he
        rcases h.stale ha with ⟨rfl, -⟩ | hf
        · exact he.keep (.inl rfl) (hover _ ha)
        · exact he.keep (.inr hf) (hover a ha)
    refine ⟨?_, hpast.emitted⟩
    have hst := hpast.reached.status i
    rw [if_pos hpast.seen, status_eq h.device] at hst
    simp [flap, hst, hpast.lease]
  · next hcond =>
    have hahead : Expiry.Ahead c cutoff l i s (c.expireStale now cutoff) := by
      refine run_invariant (C := fun _ a => Foreign l i a ∧ Expiry.Overdue c cutoff a)
        (fun e a he ha => he.foreign ha.1 ha.2) hstart (along_of_forall _ _ _ ?_)
      intro a ha
      rcases h.stale ha with ⟨rfl, hlt, hon⟩ | hf
      · exact absurd ⟨hlt, hon⟩ hcond
      · exact ⟨hf, hover a ha⟩
    refine ⟨?_, hahead.silent⟩
    have hst := hahead.reached.status i
    rw [if_neg hahead.unseen] at hst
    simp [flap, hst, hahead.lease, h.lease]

section Recovery

variable {c c1 : Center} {l i cutoff : Nat} {s s1 : Snapshot} {d d1 : DeviceRow}
  (h : c.SoleLease l i s d) (hk : Kept cutoff c c1) (hs1 : c1.lease l = some s1)
  (hd1 : c1.device i = some d1)

include h hk hs1 hd1

/-- A row of the recoverable list is about the pair in both columns or in none. -/
theorem SoleLease.recoverable {a : StaleAgentSnapshot}
    (ha : a ∈ c1.recoverableAgentSnapshots cutoff) :
    (a = ⟨s1, i⟩ ∧ cutoff ≤ s1.lastSeenAt ∧ d1.status = .offline) ∨ Foreign l i a := by
  obtain ⟨hmem, hagent, r, hr, hjoin, hle, hoff⟩ := mem_recoverableAgentSnapshots.mp ha
  obtain ⟨t, j⟩ := a
  obtain ⟨t0, hmem0, -, hbare⟩ := hk.fresh_origin hmem hle
  obtain ⟨r0, hr0, hu, hip, hn⟩ := device_of_place hk.place hr
  have hjoin0 : t0.Joins r0 := (joins_bare hbare r0).mpr ((joins_congr hu hip hn).mp hjoin)
  have hid : t0.id = t.id := (congrArg Snapshot.id hbare :)
  have hnet : t0.networkId = t.networkId := (congrArg Snapshot.networkId hbare :)
  have hagent0 : c.agentManaged t0.networkId = true := by
    rw [hnet, ← agentManaged_eq hk.networks]
    exact hagent
  rcases h.pair hmem0 hagent0 hr0 hjoin0 with ⟨rfl, rfl⟩ | ⟨hl, hj⟩
  · cases hd1.symm.trans hr
    cases eq_of_lease hs1 hmem (hid.symm.trans (Table.id_of_get? (t := c.snapshots) h.lease))
    exact .inl ⟨rfl, hle, hoff⟩
  · exact .inr ⟨fun htl => hl (hid.trans htl), hj⟩

theorem SoleLease.freshlyLeased (hle : cutoff ≤ s1.lastSeenAt) :
    s1.Joins d1 ∧ c1.agentManaged s1.networkId = true := by
  obtain ⟨t0, hmem0, -, hbare⟩ := hk.fresh_origin (Table.mem_of_get? hs1) hle
  obtain ⟨d0, hd0, hu, hip, hn⟩ := device_of_place hk.place hd1
  cases h.device.symm.trans hd0
  have hid : t0.id = s1.id := (congrArg Snapshot.id hbare :)
  cases eq_of_lease h.lease hmem0 (hid.trans (Table.id_of_get? (t := c1.snapshots) hs1))
  refine ⟨(joins_congr hu hip hn).mpr ((joins_bare hbare d).mp h.joins), ?_⟩
  have hnet : s.networkId = s1.networkId := (congrArg Snapshot.networkId hbare :)
  rw [← hnet, agentManaged_eq hk.networks]
  exact h.agent

end Recovery

end Center

namespace Pass

open Center

/-- The recovery loop with the pair in a given state. -/
structure Holds (l i : Nat) (s : Snapshot) (st : Status) (emitted : Prop) (p : Pass) : Prop where
  lease : p.center.lease l = some s
  status : p.center.status i = some st
  mentions : p.Mentions i ↔ emitted

/-- The lease after a recovery. -/
def recoveredLease (now : Nat) (s : Snapshot) : Snapshot :=
  { s with flapCount := effectiveFlapCount now s, lastFlapAt := some now }

variable {now i : Nat} {s : Snapshot} {st : Status} {p : Pass} {emitted : Prop}

theorem Holds.foreign {l : Nat} {a : StaleAgentSnapshot} (h : Holds l i s st emitted p)
    (ha : Foreign l i a) : Holds l i s st emitted (p.recover now a) where
  lease := by
    simp only [recover]
    rw [lease_setFlap_other _ _ _ (Ne.symm ha.lease), lease_setOnline, h.lease]
  status := by
    simp only [recover, status_setFlap, status_setOnline]
    rw [if_neg (Ne.symm ha.device), h.status]
  mentions := by
    rw [← h.mentions]
    simp only [recover, Mentions, mem_append]
    split
    · simp [deviceRecovered, ha.device]
    · simp

theorem status_offline_iff {c : Center} (h : c.status i = some st) :
    ((c.device i).any fun b => b.status = .offline) = decide (st = .offline) := by
  cases hd : c.device i with
  | none => simp [Center.status, hd] at h
  | some b =>
    simp only [Center.status, hd, Option.map_some, Option.some.injEq] at h
    simp [h]

theorem status_recover (now : Nat) (s : Snapshot) (h : p.center.status i = some st) :
    (p.recover now ⟨s, i⟩).center.status i = some .online := by
  simp only [Pass.recover, status_setFlap, status_setOnline]
  rw [if_pos trivial, h]
  rfl

theorem Holds.recover (h : Holds s.id i s .offline False p) :
    Holds s.id i (recoveredLease now s) .online (effectiveFlapCount now s < flapThreshold)
      (p.recover now ⟨s, i⟩) where
  lease := by
    simp only [Pass.recover]
    rw [lease_setFlap_same, lease_setOnline, h.lease]
    rfl
  status := status_recover now s h.status
  mentions := by
    have hsilent : ¬ p.Mentions i := h.mentions.mp
    simp only [Mentions, not_exists, not_and] at hsilent
    simp only [Pass.recover, Mentions, mem_append, status_offline_iff h.status]
    by_cases hlow : effectiveFlapCount now s < flapThreshold
    · simp only [hlow, decide_true, Bool.and_self, if_true, iff_true]
      exact ⟨_, .inr (mem_singleton_self _), rfl⟩
    · simp only [hlow, decide_true, decide_false, Bool.and_false, iff_false]
      rintro ⟨ev, hev | hev, hi⟩
      · exact hsilent ev hev hi
      · simp at hev

/-- A second row about the pair writes the same again and records nothing. -/
theorem Holds.again (h : Holds s.id i (recoveredLease now s) .online emitted p) :
    Holds s.id i (recoveredLease now s) .online emitted (p.recover now ⟨s, i⟩) where
  lease := by
    simp only [Pass.recover]
    rw [lease_setFlap_same, lease_setOnline, h.lease]
    rfl
  status := status_recover now s h.status
  mentions := by
    rw [← h.mentions]
    simp [Pass.recover, Mentions, status_offline_iff h.status]

end Pass

namespace Center

variable {c : Center} {l i : Nat} {s : Snapshot} {d : DeviceRow}

theorem recoverFresh_flap {c1 : Center} {s1 : Snapshot} {d1 : DeviceRow} (now cutoff : Nat)
    (h : c.SoleLease l i s d) (hk : Kept cutoff c c1) (hs1 : c1.lease l = some s1)
    (hd1 : c1.device i = some d1) : let p := c1.recoverFresh now cutoff
    if cutoff ≤ s1.lastSeenAt ∧ d1.status = .offline then
      p.center.flap l i = ⟨.online, (c1.flap l i).effective now, some now⟩ ∧
        (p.Mentions i ↔ (c1.flap l i).effective now < flapThreshold)
    else p.center.flap l i = c1.flap l i ∧ ¬ p.Mentions i := by
  have hlist := fun a ha => h.recoverable hk hs1 hd1 (a := a) ha
  obtain rfl : s1.id = l := Table.id_of_get? (t := c1.snapshots) hs1
  have hstart : Pass.Holds s1.id i s1 d1.status False ⟨c1, []⟩ :=
    ⟨hs1, status_eq hd1, by simp [Pass.Mentions]⟩
  have heff : (c1.flap s1.id i).effective now = Pass.effectiveFlapCount now s1 := by
    simp [flap, Flap.effective, Pass.effectiveFlapCount, hs1]
  rw [heff]
  split
  · next hcond =>
    obtain ⟨hjoin, hagent⟩ := h.freshlyLeased hk hs1 hd1 hcond.1
    have hmem : ⟨s1, i⟩ ∈ c1.recoverableAgentSnapshots cutoff :=
      mem_recoverableAgentSnapshots.mpr
        ⟨Table.mem_of_get? hs1, hagent, d1, hd1, hjoin, hcond.1, hcond.2⟩
    rw [hcond.2] at hstart
    have hdone : Pass.Holds s1.id i (Pass.recoveredLease now s1) .online
        (Pass.effectiveFlapCount now s1 < flapThreshold) (c1.recoverFresh now cutoff) := by
      refine run_of_hit (P := Pass.Holds s1.id i s1 .offline False)
        (H := fun a => a.deviceId = i) ?_ ?_ hstart ⟨⟨s1, i⟩, hmem, rfl⟩
      · intro a ha p hp
        rcases hlist a ha with ⟨rfl, -⟩ | hf
        · exact ⟨fun _ => hp.recover, fun hne => absurd rfl hne⟩
        · exact ⟨fun heq => absurd heq hf.device, fun _ => hp.foreign hf⟩
      · intro a ha p hp
        rcases hlist a ha with ⟨rfl, -⟩ | hf
        · exact hp.again
        · exact hp.foreign hf
    refine ⟨?_, hdone.mentions⟩
    simp [flap, hdone.status, hdone.lease, Pass.recoveredLease]
  · next hcond =>
    have hdone : Pass.Holds s1.id i s1 d1.status False (c1.recoverFresh now cutoff) := by
      refine run_invariant (C := fun _ a => Foreign s1.id i a)
        (fun p a hp ha => hp.foreign ha) hstart (along_of_forall _ _ _ ?_)
      intro a ha
      rcases hlist a ha with ⟨rfl, hle, hoff⟩ | hf
      · exact absurd ⟨hle, hoff⟩ hcond
      · exact hf
    refine ⟨?_, hdone.mentions.mp⟩
    simp [flap, hdone.status, hdone.lease, hs1, status_eq hd1]

theorem expireOrphaned_flap (now cutoff l : Nat)
    (hnot : i ∉ (c.orphanedAgentDevices cutoff).map Prod.fst) :
    (c.expireOrphaned now cutoff).center.flap l i = c.flap l i ∧
      ¬ (c.expireOrphaned now cutoff).Mentions i := by
  have hrun : (c.expireOrphaned now cutoff).center.lease l = c.lease l ∧
      ¬ (c.expireOrphaned now cutoff).Mentions i := by
    refine run_invariant (C := fun _ (o : Nat × Nat) => o.1 ≠ i)
      (P := fun p : Pass => p.center.lease l = c.lease l ∧ ¬ p.Mentions i) ?_
      ⟨rfl, by simp [Pass.Mentions]⟩ (along_of_forall _ _ _ ?_)
    · intro p o hp ho
      refine ⟨hp.1, ?_⟩
      simp only [Pass.Mentions, not_exists, not_and] at hp
      simp only [Pass.Mentions, Pass.expireOrphan, mem_append, mem_singleton]
      rintro ⟨ev, hev | rfl, hi⟩
      · exact hp.2 ev hev hi
      · exact ho hi
    · rintro o ho rfl
      exact hnot (mem_map_of_mem ho)
  refine ⟨?_, hrun.2⟩
  simp only [flap, hrun.1, status_expireOrphaned, if_neg hnot]

theorem decayQuietFlaps_flap (c : Center) (now l i : Nat) :
    (c.decayQuietFlaps now).flap l i = (c.flap l i).decay now := by
  have hlease : (c.decayQuietFlaps now).lease l = (c.lease l).map fun s =>
      if 0 < s.flapCount ∧ (s.lastFlapAt.any fun t => t + flapStablePeriod < now) = true then
        { s with flapCount := s.flapCount / 2, lastFlapAt := some now }
      else s := by
    simp only [lease, decayQuietFlaps, Table.get?_modifyWhere, decide_eq_true_eq]
  cases hl : c.lease l with
  | none => simp [flap, hlease, hl, Flap.decay]
  | some s =>
    simp only [flap, status_decayQuietFlaps, hlease, hl, Flap.decay, Option.map_some,
      Option.bind_some, Option.getD_some]
    split <;> rfl

/-- The pair after the first pass; the lease keeps its time. -/
theorem SoleLease.after_expireStale (h : c.SoleLease l i s d) (now cutoff : Nat) :
    ∃ s1 d1, (c.expireStale now cutoff).center.lease l = some s1 ∧ s1.lastSeenAt = s.lastSeenAt ∧
      (c.expireStale now cutoff).center.device i = some d1 := by
  have hk := c.kept_expireStale now cutoff
  obtain ⟨d1, hd1, -⟩ := device_kept hk h.device
  have hl := congrFun hk.leaseSeen l
  simp only [leaseSeen, h.lease, Option.map_some] at hl
  obtain ⟨s1, hs1, hseen⟩ := Option.map_eq_some_iff.mp hl
  exact ⟨s1, d1, hs1, hseen, hd1⟩

/-- The first two passes together give the pair its verdict. -/
theorem passes_flap (now cutoff : Nat) (h : c.SoleLease l i s d) : let e := c.expireStale now cutoff
    let p := e.center.recoverFresh now cutoff
    p.center.flap l i = (c.flap l i).turn now (decide (cutoff ≤ s.lastSeenAt)) ∧
      (e.toPass.Mentions i ∨ p.Mentions i ↔
        (c.flap l i).emits (.sweep now (decide (cutoff ≤ s.lastSeenAt))) = true) := by
  have h1 := c.expireStale_flap now cutoff h
  obtain ⟨s1, d1, hs1, hseen, hd1⟩ := h.after_expireStale now cutoff
  have h2 := recoverFresh_flap now cutoff h (c.kept_expireStale now cutoff) hs1 hd1
  have hflap : c.flap l i = ⟨d.status, s.flapCount, s.lastFlapAt⟩ := by
    simp [flap, status_eq h.device, h.lease]
  have hst1 : ((c.expireStale now cutoff).center.flap l i).status = d1.status := by
    simp [flap, status_eq hd1]
  rw [hseen] at h2
  by_cases hexp : s.lastSeenAt < cutoff ∧ d.status = .online
  · -- An expiry; the stale lease then recovers nothing.
    have hle : ¬ cutoff ≤ s.lastSeenAt := by omega
    rw [if_pos hexp] at h1
    rw [if_neg (fun hc => hle hc.1)] at h2
    refine ⟨?_, ?_⟩
    · rw [h2.1, h1.1, hflap]
      simp [Flap.turn, hle, hexp.2]
    · rw [hflap]
      simp [Flap.emits, hle, hexp.2, h1.2, h2.2]
  · rw [if_neg hexp] at h1
    have hd1st : d1.status = d.status := by
      rw [← hst1, h1.1, hflap]
    rw [hd1st, h1.1] at h2
    by_cases hrec : cutoff ≤ s.lastSeenAt ∧ d.status = .offline
    · rw [if_pos hrec] at h2
      refine ⟨?_, ?_⟩
      · rw [h2.1, hflap]
        simp [Flap.turn, hrec.1, hrec.2]
      · rw [hflap] at h2 ⊢
        simp [Flap.emits, hrec.1, hrec.2, h1.2, h2.2]
    · rw [if_neg hrec] at h2
      refine ⟨?_, ?_⟩
      · rw [h2.1, hflap, Flap.turn, if_neg, if_neg]
        · simpa using hrec
        · simpa using hexp
      · rw [hflap, Flap.emits, if_neg, if_neg]
        · simp [h1.2, h2.2]
        · simpa using hrec
        · simpa using hexp

/-- A sweep moves the pair, and records its turns, as the counter says. -/
theorem sweepOnce_flap (now ttl : Nat) (h : c.SoleLease l i s d) :
    (c.sweepOnce now ttl).center.flap l i = (c.flap l i).step (c.flapInput l (.sweep now ttl)) ∧
      ((c.sweepOnce now ttl).Mentions i ↔
        (c.flap l i).emits (c.flapInput l (.sweep now ttl)) = true) := by
  have hk := (c.kept_expireStale now (now - ttl)).trans (kept_recoverFresh _ now (now - ttl))
  have hinput : c.flapInput l (.sweep now ttl) =
      .sweep now (decide (now - ttl ≤ s.lastSeenAt)) := by
    simp [flapInput, h.lease]
  have hpasses := c.passes_flap now (now - ttl) h
  obtain ⟨d2, hd2, hu2, hip2, hn2⟩ := device_kept hk h.device
  simp only at hpasses
  rw [hinput]
  simp only [sweepOnce]
  generalize c.expireStale now (now - ttl) = e at hk hpasses hd2 ⊢
  generalize e.center.recoverFresh now (now - ttl) = p at hk hpasses hd2 ⊢
  -- The pair is never orphaned: its lease is fresh or the device is not online.
  have hnot : i ∉ (p.center.orphanedAgentDevices (now - ttl)).map Prod.fst := by
    intro hmem
    by_cases hle : now - ttl ≤ s.lastSeenAt
    · refine not_orphaned hd2 ((hk.freshlyLeased hu2 hip2 hn2).mpr ?_) hmem
      exact ⟨s, Table.mem_of_get? h.lease, h.agent, h.joins, hle⟩
    · obtain ⟨-, -, -, hon, -⟩ := mem_orphaned hd2 hmem
      have hst2 : (p.center.flap l i).status = d2.status := by simp [flap, status_eq hd2]
      rw [hpasses.1, hon, Flap.turn] at hst2
      by_cases hdon : (c.flap l i).status = .online <;> simp [hle, hdon] at hst2
  obtain ⟨hflap, hsilent⟩ := p.center.expireOrphaned_flap now (now - ttl) l hnot
  constructor
  · rw [decayQuietFlaps_flap, hflap, hpasses.1]
    rfl
  · rw [← hpasses.2]
    simp only [Pass.Mentions, mem_append] at hsilent ⊢
    constructor
    · rintro ⟨ev, (hev | hev) | hev, hi⟩
      · exact .inl ⟨ev, hev, hi⟩
      · exact .inr ⟨ev, hev, hi⟩
      · exact absurd ⟨ev, hev, hi⟩ hsilent
    · rintro (⟨ev, hev, hi⟩ | ⟨ev, hev, hi⟩)
      · exact ⟨ev, .inl (.inl hev), hi⟩
      · exact ⟨ev, .inl (.inr hev), hi⟩

/-- Renewing leases moves no flap column of a lease that exists. -/
theorem upsertScanSnapshot_flap (c : Center) (net : Nat) (taskId : Option Nat)
    (ip mac uuid : String) (now l i : Nat) (hl : (c.lease l).isSome) :
    (c.upsertScanSnapshot net taskId ip mac uuid now).flap l i = c.flap l i ∧
      ((c.upsertScanSnapshot net taskId ip mac uuid now).lease l).isSome := by
  obtain ⟨s, hs⟩ := Option.isSome_iff_exists.mp hl
  have hlease := lease_upsert hs net taskId ip mac uuid now
  have hstatus : (c.upsertScanSnapshot net taskId ip mac uuid now).status i = c.status i := by
    simp only [status, device, upsert_db]
  refine ⟨?_, by rw [hlease]; rfl⟩
  simp only [flap, hlease, hs, hstatus, Option.map_some, Option.bind_some]
  split <;> rfl

theorem recordAliveSnapshots_flap (c : Center) (net taskId now : Nat) (hosts : List ScannedHost)
    (l i : Nat) (hl : (c.lease l).isSome) :
    (c.recordAliveSnapshots (some net) taskId now hosts).flap l i = c.flap l i := by
  have hrun : (c.recordAliveSnapshots (some net) taskId now hosts).flap l i = c.flap l i ∧
      ((c.recordAliveSnapshots (some net) taskId now hosts).lease l).isSome := by
    refine run_preserves
      (P := fun c' : Center => c'.flap l i = c.flap l i ∧ (c'.lease l).isSome) ?_ ⟨rfl, hl⟩
    intro c' h hc
    unfold recordAlive
    split
    · obtain ⟨hflap, hsome⟩ := c'.upsertScanSnapshot_flap net
        (if 0 < taskId then some taskId else none) h.report.ip (reportMAC h.report)
        (c'.resolveDeviceUUIDForIP (reportMAC h.report) h.report.ip (some net)) now l i hc.2
      simp only
      split
      · refine ⟨?_, hsome⟩
        rw [← hc.1, ← hflap]
        simp only [flap, status_stampLastSeen]
        rfl
      · exact ⟨hflap.trans hc.1, hsome⟩
    · exact hc
  exact hrun.1

/-- Every event moves the pair as the counter says. -/
theorem leasePass_flap (a : LeaseEvent) (h : c.SoleLease l i s d) :
    (c.leaseStep a).flap l i = (c.flap l i).step (c.flapInput l a) ∧
      ((c.leasePass a).Mentions i ↔ (c.flap l i).emits (c.flapInput l a) = true) := by
  cases a with
  | recordAlive net taskId now hosts =>
    refine ⟨c.recordAliveSnapshots_flap net taskId now hosts l i (by simp [h.lease]), ?_⟩
    simp [leasePass, Pass.Mentions, flapInput, Flap.emits]
  | sweep now ttl => exact c.sweepOnce_flap now ttl h

end Center

def LeaseEvent.time : LeaseEvent → Nat
  | .recordAlive _ _ now _ => now
  | .sweep now _ => now

/-- Event `n` of the run changes the status of the device. -/
def TurnsAt (c : Center) (events : Nat → LeaseEvent) (i n : Nat) : Prop :=
  (Runs.stateAt Center.leaseStep c events (n + 1)).status i ≠
    (Runs.stateAt Center.leaseStep c events n).status i

/-- An endless run in which device `i`, with lease `l` of its own, expires and recovers in turn,
`gap` seconds apart. -/
structure FlappingRun (c : Center) (events : Nat → LeaseEvent) (l i gap : Nat) : Prop where
  sole : ∀ n, ∃ s d, (Runs.stateAt Center.leaseStep c events n).SoleLease l i s d
  clock : ∀ n, (events n).time ≤ (events (n + 1)).time
  forever : ∀ n, ∃ m, n ≤ m ∧ TurnsAt c events i m
  gap : ∀ m n, m < n → TurnsAt c events i m → TurnsAt c events i n →
    (∀ k, m < k → k < n → ¬ TurnsAt c events i k) → (events n).time = (events m).time + gap

/-- Event `n` of the run hands an event about the device to the recorder. -/
def EmitsAt (c : Center) (events : Nat → LeaseEvent) (i n : Nat) : Prop :=
  ((Runs.stateAt Center.leaseStep c events n).leasePass (events n)).Mentions i

theorem flapInput_time (c : Center) (l : Nat) (a : LeaseEvent) :
    (c.flapInput l a).time = a.time := by
  cases a <;> rfl

namespace FlappingRun

variable {c : Center} {events : Nat → LeaseEvent} {l i gap : Nat}

theorem turns_iff (h : FlappingRun c events l i gap) (n : Nat) :
    Flap.Turns (fun n => (stateAt Center.leaseStep c events n).flap l i) n ↔
      TurnsAt c events i n := by
  obtain ⟨s, d, hsole⟩ := h.sole n
  obtain ⟨s', d', hsole'⟩ := h.sole (n + 1)
  simp [Flap.Turns, TurnsAt, Center.flap, Center.status_eq hsole.device,
    Center.status_eq hsole'.device]

theorem alternates (h : FlappingRun c events l i gap) :
    Flap.Alternates (fun n => (stateAt Center.leaseStep c events n).flap l i)
      (fun n => (stateAt Center.leaseStep c events n).flapInput l (events n)) gap where
  step n := by
    obtain ⟨s, d, hsole⟩ := h.sole n
    exact (Center.leasePass_flap (events n) hsole).1
  clock n := by
    simp only [flapInput_time]
    exact h.clock n
  forever n := by
    obtain ⟨m, hm, hturn⟩ := h.forever n
    exact ⟨m, hm, (h.turns_iff m).mpr hturn⟩
  gap m n hlast hturn := by
    simp only [flapInput_time]
    refine h.gap m n hlast.before ((h.turns_iff m).mp hlast.turns) ((h.turns_iff n).mp hturn) ?_
    intro k hmk hkn hk
    exact hlast.none k hmk hkn ((h.turns_iff k).mpr hk)

/-- From some event on nothing is reported about the device exactly when its turns are closer than
the stable period. -/
theorem silent_iff_close (h : FlappingRun c events l i gap) :
    (∃ N, ∀ n, N ≤ n → ¬ EmitsAt c events i n) ↔ gap < flapStablePeriod := by
  rw [← h.alternates.silent_iff]
  have hemits : ∀ n, EmitsAt c events i n ↔
      ((stateAt Center.leaseStep c events n).flap l i).emits
        ((stateAt Center.leaseStep c events n).flapInput l (events n)) = true := by
    intro n
    obtain ⟨s, d, hsole⟩ := h.sole n
    exact (Center.leasePass_flap (events n) hsole).2
  simp only [hemits, Bool.not_eq_true]

end FlappingRun

/-! ## A beacon

One switch that its agent reports at every other multiple of a period. -/

namespace Beacon

open Center

def host : ScannedHost := ⟨true, sighting "02:00:00:00:00:01" "10.0.0.1"⟩

def start : Center := oneSwitch.recordAliveSnapshots (some 1) 0 0 [host]

/-- A sweep that finds the lease stale, a renewal, a sweep that finds it fresh. -/
def events (gap n : Nat) : LeaseEvent :=
  if n % 3 = 0 then .sweep ((2 * (n / 3) + 1) * gap) 300
  else if n % 3 = 1 then .recordAlive 1 0 ((2 * (n / 3) + 2) * gap) [host]
  else .sweep ((2 * (n / 3) + 2) * gap) 300

/-- The only row is the switch, the only lease is its own, last renewed at `seen`. -/
structure Lone (c : Center) (s : Snapshot) (d : DeviceRow) (seen : Nat) : Prop where
  leases : c.snapshots.rows = [s]
  devices : c.db.rows = [d]
  agent : c.agentManaged 1 = true
  lease : s.id = 1 ∧ s.networkId = 1 ∧ s.ip = "10.0.0.1" ∧ s.deviceUuid = "u1" ∧ s.lastSeenAt = seen
  device : d.id = 1 ∧ d.networkId = some 1 ∧ d.deviceUuid = "u1" ∧
    d.macAddress = "02:00:00:00:00:01"

def IsLone (c : Center) (seen : Nat) : Prop := ∃ s d, Lone c s d seen

variable {c : Center} {seen gap k : Nat}

theorem Lone.soleLease {s : Snapshot} {d : DeviceRow} (h : Lone c s d seen) :
    c.SoleLease 1 1 s d := by
  obtain ⟨hid, hn, hip, hu, -⟩ := h.lease
  obtain ⟨hdid, hdn, hdu, -⟩ := h.device
  have hs : s ∈ c.snapshots.rows := by simp [h.leases]
  have hd : d ∈ c.db.rows := by simp [h.devices]
  refine ⟨?_, ?_, by rw [hn]; exact h.agent,
    .inl ⟨by simp [hu], by rw [hdu, hu], by rw [hdn, hn]⟩, ?_, ?_⟩
  · rw [← hid]
    exact Table.get?_of_mem (t := c.snapshots) hs
  · rw [← hdid]
    exact mem_rows_iff.mp hd
  · intro t ht _ _
    rw [h.leases, mem_singleton] at ht
    rw [ht, hid]
  · intro r hr _
    rw [h.devices, mem_singleton] at hr
    rw [hr, hdid]

section Lone

variable (h : IsLone c seen)

include h

/-- A statement that keeps the keys of the device rows. -/
theorem IsLone.mapDevices {db : Db} (g : DeviceRow → DeviceRow) (hrows : db.rows = c.db.rows.map g)
    (hg : ∀ r, (g r).id = r.id ∧ (g r).networkId = r.networkId ∧ (g r).deviceUuid = r.deviceUuid ∧
      (g r).macAddress = r.macAddress) : IsLone { c with db := db } seen := by
  obtain ⟨s, d, h⟩ := h
  obtain ⟨hid, hn, hu, hm⟩ := hg d
  refine ⟨s, g d, h.leases, by rw [hrows, h.devices]; rfl, h.agent, h.lease, ?_⟩
  rw [hid, hn, hu, hm]
  exact h.device

/-- A statement that keeps the keys of the leases. -/
theorem IsLone.mapLeases {t : Snapshots} (g : Snapshot → Snapshot)
    (hrows : t.rows = c.snapshots.rows.map g) (seen' : Nat)
    (hg : ∀ r, (g r).id = r.id ∧ (g r).networkId = r.networkId ∧ (g r).ip = r.ip)
    (hlone : ∀ r, r.id = 1 → r.deviceUuid = "u1" → r.lastSeenAt = seen →
      (g r).deviceUuid = "u1" ∧ (g r).lastSeenAt = seen') :
    IsLone { c with snapshots := t } seen' := by
  obtain ⟨s, d, h⟩ := h
  obtain ⟨hid, hn, hip, hu, hseen⟩ := h.lease
  obtain ⟨gid, gn, gip⟩ := hg s
  obtain ⟨gu, gseen⟩ := hlone s hid hu hseen
  refine ⟨g s, d, by simp [hrows, h.leases], h.devices, h.agent, ?_, h.device⟩
  rw [gid, gn, gip]
  exact ⟨hid, hn, hip, gu, gseen⟩

theorem IsLone.setOffline (i now : Nat) : IsLone (c.setOffline i now) seen := by
  refine h.mapDevices (deviceSchema.onId i (markOffline now)) rfl ?_
  intro r
  by_cases hi : r.id = i <;> simp [Schema.onId, hi, markOffline, supersede]

theorem IsLone.setOnline (i now : Nat) : IsLone (c.setOnline i now) seen := by
  refine h.mapDevices (deviceSchema.onId i _) rfl ?_
  intro r
  by_cases hi : r.id = i <;> simp [Schema.onId, hi]

theorem IsLone.setFlap (i now : Nat) (count : Nat → Nat) :
    IsLone (c.setFlap i now count) seen := by
  refine h.mapLeases (snapshotSchema.onId i _) rfl seen ?_ ?_
  · intro r
    by_cases hi : r.id = i <;> simp [Schema.onId, hi]
  · intro r _ hu hseen
    by_cases hi : r.id = i <;> simp [Schema.onId, hi, hu, hseen]

theorem IsLone.decayQuietFlaps (now : Nat) :
    IsLone (c.decayQuietFlaps now) seen := by
  refine h.mapLeases _ rfl seen ?_ ?_
  · intro r
    split <;> simp
  · intro r _ hu hseen
    split <;> exact ⟨hu, hseen⟩

end Lone

/-- There is no second lease that could guard the first. -/
theorem IsLone.expiry {now cutoff : Nat} {e : Expiry} {l : StaleAgentSnapshot}
    (h : IsLone e.center seen) (hl : l.snapshot.id = 1) :
    IsLone (e.step now cutoff l).center seen := by
  have hguard : e.guarded cutoff l = false := by
    obtain ⟨s, d, h⟩ := h
    simp [Expiry.guarded, hasFresherLease, h.leases, hl, h.lease.1]
  unfold Expiry.step
  split
  · exact h
  · rw [if_neg (by simp [hguard])]
    exact (h.setFlap _ _ _).setOffline _ _

theorem IsLone.sweepOnce (h : IsLone c seen) (now ttl : Nat) :
    IsLone (c.sweepOnce now ttl).center seen := by
  have hexp : IsLone (c.expireStale now (now - ttl)).center seen := by
    refine run_invariant (P := fun e : Expiry => IsLone e.center seen)
      (C := fun _ l => l.snapshot.id = 1) (fun e l he hl => he.expiry hl) h
      (along_of_forall _ _ _ ?_)
    intro l hl
    obtain ⟨s, d, h⟩ := h
    have hmem := (mem_staleAgentSnapshots.mp hl).1
    rw [h.leases, mem_singleton] at hmem
    rw [hmem]
    exact h.lease.1
  have hrec : IsLone ((c.expireStale now (now - ttl)).center.recoverFresh now
      (now - ttl)).center seen :=
    run_preserves (P := fun p : Pass => IsLone p.center seen)
      (fun p l hp => (hp.setOnline l.deviceId now).setFlap l.snapshot.id now fun _ =>
        Pass.effectiveFlapCount now l.snapshot) hexp
  have horph : IsLone (((c.expireStale now (now - ttl)).center.recoverFresh now
      (now - ttl)).center.expireOrphaned now (now - ttl)).center seen :=
    run_preserves (P := fun p : Pass => IsLone p.center seen)
      (fun p o hp => hp.setOffline _ _) hrec
  exact horph.decayQuietFlaps now

theorem IsLone.recordAlive (h : IsLone c seen) (now : Nat) :
    IsLone (c.recordAliveSnapshots (some 1) 0 now [host]) now := by
  have hmac : reportMAC host.report = "02:00:00:00:00:01" := by decide +kernel
  have huuid : c.resolveDeviceUUIDForIP "02:00:00:00:00:01" "10.0.0.1" (some 1) = "u1" := by
    obtain ⟨s, d, h⟩ := h
    obtain ⟨-, -, hu, hm⟩ := h.device
    have hnew : (c.newestDevice fun r => r.macAddress = "02:00:00:00:00:01") = some d := by
      simp [newestDevice, Table.selectBy, show c.db.devices.rows = [d] from h.devices, hm]
    simp [resolveDeviceUUIDForIP, hnew, hu]
  have hup : IsLone (c.upsertScanSnapshot 1 none "10.0.0.1" "02:00:00:00:00:01" "u1" now) now := by
    have hat : ∃ t, c.leaseAt 1 "10.0.0.1" = some t ∧ t.id = 1 := by
      obtain ⟨s, d, h⟩ := h
      obtain ⟨hid, hn, hip, -⟩ := h.lease
      exact ⟨s, by simp [leaseAt, Table.select, h.leases, hn, hip], hid⟩
    obtain ⟨t, ht, htid⟩ := hat
    unfold upsertScanSnapshot
    rw [ht]
    refine h.mapLeases (snapshotSchema.onId t.id _) rfl now ?_ ?_
    · intro r
      by_cases hi : r.id = t.id <;> simp [Schema.onId, hi, renewLease]
    · intro r hr hu _
      simp [Schema.onId, hr, htid, renewLease]
  have hstep : c.recordAliveSnapshots (some 1) 0 now [host] =
      (c.upsertScanSnapshot 1 none "10.0.0.1" "02:00:00:00:00:01" "u1" now).stampLastSeen
        "u1" now := by
    have hcounts : host.Counts := by decide
    have hip : host.report.ip = "10.0.0.1" := rfl
    simp [recordAliveSnapshots, run, Center.recordAlive, hcounts, hmac, hip, huuid]
  rw [hstep]
  refine hup.mapDevices _ rfl ?_
  intro r
  split <;> simp

theorem isLone_start : IsLone start 0 := by
  have hrows : start.snapshots.rows.length = 1 ∧ start.db.rows.length = 1 := by decide +kernel
  obtain ⟨s, hs⟩ := length_eq_one_iff.mp hrows.1
  obtain ⟨d, hd⟩ := length_eq_one_iff.mp hrows.2
  have hlease : ∀ s ∈ start.snapshots.rows, s.id = 1 ∧ s.networkId = 1 ∧ s.ip = "10.0.0.1" ∧
      s.deviceUuid = "u1" ∧ s.lastSeenAt = 0 := by decide +kernel
  have hdevice : ∀ d ∈ start.db.rows, d.id = 1 ∧ d.networkId = some 1 ∧ d.deviceUuid = "u1" ∧
      d.macAddress = "02:00:00:00:00:01" := by decide +kernel
  exact ⟨s, d, hs, hd, by decide +kernel, hlease s (by simp [hs]), hdevice d (by simp [hd])⟩

def stateAt (gap n : Nat) : Center := Runs.stateAt leaseStep start (events gap) n

variable {n : Nat}

theorem flap_succ (h : IsLone (stateAt gap n) seen) :
    (stateAt gap (n + 1)).flap 1 1 =
      ((stateAt gap n).flap 1 1).step ((stateAt gap n).flapInput 1 (events gap n)) := by
  obtain ⟨s, d, h⟩ := h
  exact (leasePass_flap (events gap n) h.soleLease).1

theorem IsLone.flapInput (h : IsLone c seen) (now : Nat) :
    c.flapInput 1 (.sweep now 300) = .sweep now (decide (now - 300 ≤ seen)) := by
  obtain ⟨s, d, h⟩ := h
  simp [Center.flapInput, h.soleLease.lease, h.lease.2.2.2.2]

theorem step_status (f : Flap) (now : Nat) (fresh : Bool) :
    (f.step (.sweep now fresh)).status = (f.turn now fresh).status := by
  simp only [Flap.step, Flap.decay]
  split <;> rfl

/-- After `n` events the lease was last renewed at `seen` and the device has status `st`. -/
def Stands (gap n seen : Nat) (st : Status) : Prop :=
  IsLone (stateAt gap n) seen ∧ ((stateAt gap n).flap 1 1).status = st

/-- The switch is offline between the sweep that finds its lease stale and the one that finds it
fresh. -/
theorem stands (hgap : 300 < gap) (n : Nat) :
    Stands gap n (2 * ((n + 1) / 3) * gap) (if n % 3 = 0 then .online else .offline) := by
  induction n with
  | zero =>
    refine ⟨by simpa [stateAt, Runs.stateAt] using isLone_start, ?_⟩
    show (start.flap 1 1).status = .online
    decide +kernel
  | succ n ih =>
    obtain ⟨hlone, hst⟩ := ih
    rw [Stands, flap_succ hlone]
    show IsLone ((stateAt gap n).leaseStep (events gap n)) _ ∧ _
    have hmod : n % 3 = 0 ∨ n % 3 = 1 ∨ n % 3 = 2 := by omega
    rcases hmod with hm | hm | hm
    · have hstale : ¬ (2 * (n / 3) + 1) * gap - 300 ≤ 2 * (n / 3) * gap := by
        have : (2 * (n / 3) + 1) * gap = 2 * (n / 3) * gap + gap := by ring
        omega
      rw [show (n + 1) / 3 = n / 3 by omega] at hlone
      rw [show (n + 1 + 1) / 3 = n / 3 by omega, if_neg (by omega), events, if_pos hm,
        hlone.flapInput, step_status]
      exact ⟨hlone.sweepOnce _ _, by simp [Flap.turn, hstale, hst, hm]⟩
    · rw [show 2 * ((n + 1 + 1) / 3) = 2 * (n / 3) + 2 by omega, if_neg (by omega), events,
        if_neg (by omega), if_pos hm]
      exact ⟨hlone.recordAlive _, hst.trans (if_neg (by omega))⟩
    · rw [show 2 * ((n + 1) / 3) = 2 * (n / 3) + 2 by omega] at hlone
      rw [show 2 * ((n + 1 + 1) / 3) = 2 * (n / 3) + 2 by omega, if_pos (by omega), events,
        if_neg (by omega), if_neg (by omega), hlone.flapInput, step_status]
      exact ⟨hlone.sweepOnce _ _, by simp [Flap.turn, hst, hm]⟩

theorem Stands.status {st : Status} (h : Stands gap n seen st) :
    (stateAt gap n).status 1 = some st := by
  obtain ⟨⟨s, d, hlone⟩, hst⟩ := h
  rw [← hst]
  simp [flap, status_eq hlone.soleLease.device]

/-- The switch turns at the two sweeps of each cycle and nowhere else. -/
theorem turnsAt_iff (hgap : 300 < gap) (n : Nat) : TurnsAt start (events gap) 1 n ↔ n % 3 ≠ 1 := by
  show (stateAt gap (n + 1)).status 1 ≠ (stateAt gap n).status 1 ↔ _
  rw [(stands hgap n).status, (stands hgap (n + 1)).status]
  have hmod : n % 3 = 0 ∨ n % 3 = 1 ∨ n % 3 = 2 := by omega
  rcases hmod with hm | hm | hm <;> simp [Nat.add_mod, hm]

theorem events_time (gap n : Nat) : (events gap n).time = (2 * n + 4) / 3 * gap := by
  unfold events
  split
  · exact congrArg (· * gap) (by omega)
  · split <;> exact congrArg (· * gap) (by omega)

theorem flappingRun (hgap : 300 < gap) : FlappingRun start (events gap) 1 1 gap where
  sole n := by
    obtain ⟨⟨s, d, hlone⟩, -⟩ := stands hgap n
    exact ⟨s, d, hlone.soleLease⟩
  clock n := by
    rw [events_time, events_time]
    exact Nat.mul_le_mul_right gap (by omega)
  forever n := by
    by_cases hm : n % 3 = 1
    · exact ⟨n + 1, by omega, (turnsAt_iff hgap _).mpr (by omega)⟩
    · exact ⟨n, le_rfl, (turnsAt_iff hgap n).mpr hm⟩
  gap m n hmn hm hn hnone := by
    rw [turnsAt_iff hgap] at hm hn
    -- The next turn is two events later in the same cycle, or the first of the next one.
    have hnext : ∀ k, m < k → k % 3 ≠ 1 → n ≤ k := fun k hmk hk =>
      not_lt.mp fun hkn => hnone k hmk hkn ((turnsAt_iff hgap k).mpr hk)
    have h1 := hnext (m + 1)
    have h2 := hnext (m + 2)
    rw [events_time, events_time, show (2 * n + 4) / 3 = (2 * m + 4) / 3 + 1 by omega]
    ring

end Beacon

/-- A device that turns every ten minutes falls silent. -/
theorem beacon_silent : ∃ N, ∀ n, N ≤ n → ¬ EmitsAt Beacon.start (Beacon.events 600) 1 n :=
  (FlappingRun.silent_iff_close (Beacon.flappingRun (by decide : 300 < 600))).mpr (by decide)

/-- A device that turns every 35 minutes is reported forever. -/
theorem beacon_reported_forever :
    FlappingRun Beacon.start (Beacon.events 2100) 1 1 2100 ∧
      ¬ ∃ N, ∀ n, N ≤ n → ¬ EmitsAt Beacon.start (Beacon.events 2100) 1 n := by
  have hrun : FlappingRun Beacon.start (Beacon.events 2100) 1 1 2100 :=
    Beacon.flappingRun (by decide)
  refine ⟨hrun, ?_⟩
  rintro ⟨N, hN⟩
  obtain ⟨n, hn, hemit⟩ := hrun.alternates.emits_forever (by decide) N
  obtain ⟨s, d, hsole⟩ := hrun.sole n
  exact hN n hn ((Center.leasePass_flap (Beacon.events 2100 n) hsole).2.mpr hemit)

end Steward
