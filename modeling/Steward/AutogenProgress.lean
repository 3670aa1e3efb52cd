import Steward.ProbeAutogen

/-!
# The progress of an autogen sweep

What the loops of a sweep keep true of the targets that were there before and of those it
makes, and which services they reach: a device's services are read up to the first new one
that the cap holds back.
-/

namespace Steward.Probe

open RowTable Loops Runs List

/-! ## Rows -/

variable {targets : ProbeTargets} {t : ProbeTarget} {name : String}

theorem mem_autos : t ∈ autos targets ↔ t ∈ targets.rows ∧ t.source = .auto := by
  simp [autos]

theorem autoByName_eq_some :
    autoByName targets name = some t ↔ t ∈ autos targets ∧ t.name = name := by
  constructor
  · intro h
    exact ⟨mem_of_find?_eq_some h, by simpa using find?_some h⟩
  · rintro ⟨ht, rfl⟩
    cases hfind : autoByName targets t.name with
    | none =>
      rw [autoByName, find?_eq_none] at hfind
      exact absurd (by simp) (hfind t ht)
    | some u =>
      have hu := mem_of_find?_eq_some hfind
      have hname : u.name = t.name := by simpa using find?_some hfind
      rw [eq_of_name (mem_autos.mp hu).1 (mem_autos.mp ht).1 hname]

theorem autoByName_eq_none :
    autoByName targets name = none ↔ ∀ t ∈ autos targets, t.name ≠ name := by
  simp [autoByName, find?_eq_none]

/-- The row of a followed target. -/
def followRow (networks : Networks) (d : DeviceRow) (e : Entry) (prev t : ProbeTarget) :
    ProbeTarget :=
  let updated := if drifted d e prev then redirect networks d e prev t else t
  if prev.enabled then updated else toggle true updated

section FollowRow

variable (networks : Networks) (d : DeviceRow) (e : Entry) (prev t : ProbeTarget)

theorem followRow_fixed : (followRow networks d e prev t).id = t.id ∧
    (followRow networks d e prev t).name = t.name ∧
      (followRow networks d e prev t).source = t.source := by
  unfold followRow
  cases drifted d e prev <;> cases prev.enabled <;> exact ⟨rfl, rfl, rfl⟩

theorem followRow_enabled : (followRow networks d e t t).enabled = true := by
  unfold followRow
  cases drifted d e t <;> cases henabled : t.enabled <;> simp [redirect, toggle, henabled]

theorem followRow_plan :
    ((followRow networks d e t t).module, (followRow networks d e t t).target) = planOf d e := by
  unfold followRow
  cases hdrift : drifted d e t with
  | true => cases t.enabled <;> rfl
  | false =>
    have hplan : (t.module, t.target) = planOf d e := by simpa [drifted] using hdrift
    cases t.enabled <;> exact hplan

/-- The vantage is only written along with a new plan. -/
theorem followRow_vantage : (followRow networks d e t t).vantage =
    if drifted d e t then vantageFor networks d.networkId else t.vantage := by
  unfold followRow
  cases drifted d e t <;> cases t.enabled <;> rfl

end FollowRow

/-- A target as the sweep makes it. -/
structure Made (networks : Networks) (d : DeviceRow) (e : Entry) (t : ProbeTarget) : Prop where
  name : t.name = targetName d e
  source : t.source = .auto
  enabled : t.enabled = true
  plan : (t.module, t.target) = planOf d e
  vantage : t.vantage = vantageFor networks d.networkId

/-! ## One service -/

namespace Sweep

section Visit

variable {cfg : ProbeAutogenConfig} {networks : Networks} {existing : ProbeTargets}
  {d : DeviceRow} {e : Entry} {s s' : Sweep}

theorem follow_rows (prev : ProbeTarget) : (s.follow networks d e prev).targets.rows =
    s.targets.rows.map (probeTargetSchema.onId prev.id (followRow networks d e prev)) := by
  have hid : s.targets.rows.map (probeTargetSchema.onId prev.id fun t => t) = s.targets.rows :=
    (map_congr_left fun t _ => ite_self t).trans (map_id _)
  unfold follow followRow
  cases drifted d e prev <;> cases prev.enabled
  · rfl
  · exact hid.symm
  · exact Table.map_onId_comp _ _ _ _ fun _ => rfl
  · rfl

theorem create_eq_some (h : s.create cfg networks d e = some s') :
    (∃ t, s'.targets.rows = s.targets.rows ++ [t] ∧ Made networks d e t) ∧
      s'.desired = s.desired ∧ s'.autoCount = s.autoCount + 1 := by
  unfold create at h
  split at h
  case isTrue durations =>
    obtain ⟨targets, hinsert, rfl⟩ := Option.map_eq_some_iff.mp h
    obtain ⟨-, hrows, -⟩ := Table.insert_eq_some hinsert
    exact ⟨⟨_, hrows, ⟨rfl, rfl, rfl, rfl, rfl⟩⟩, rfl, rfl⟩
  case isFalse => cases h

/-- What a service does to the sweep that goes on: its target is followed or created. -/
inductive Visited (cfg : ProbeAutogenConfig) (networks : Networks) (existing : ProbeTargets)
    (d : DeviceRow) (e : Entry) (s s' : Sweep) : Prop
  | followed (prev : ProbeTarget) (h : autoByName existing (targetName d e) = some prev)
    (hrows : s'.targets.rows =
      s.targets.rows.map (probeTargetSchema.onId prev.id (followRow networks d e prev)))
    (hcount : s'.autoCount = s.autoCount)
  | created (t : ProbeTarget) (h : autoByName existing (targetName d e) = none)
    (hcap : s.autoCount < cfg.maxTargets) (hrows : s'.targets.rows = s.targets.rows ++ [t])
    (hmade : Made networks d e t) (hcount : s'.autoCount = s.autoCount + 1)

theorem visit_next (h : visit cfg networks existing d s e = .next s') :
    Visited cfg networks existing d e s s' ∧ s'.desired = targetName d e :: s.desired := by
  unfold visit at h
  cases hauto : autoByName existing (targetName d e) with
  | some prev =>
    simp only [hauto, Outcome.next.injEq] at h
    subst h
    refine ⟨.followed prev hauto (follow_rows prev) ?_, ?_⟩
    all_goals
      unfold follow
      cases prev.enabled <;> rfl
  | none =>
    by_cases hcap : cfg.maxTargets ≤ s.autoCount
    · simp [hauto, hcap] at h
    · cases hcreate : (s.mark (targetName d e)).create cfg networks d e with
      | none => simp [hauto, hcap, hcreate] at h
      | some s₁ =>
        simp only [hauto, hcap, hcreate, if_false, Outcome.next.injEq] at h
        subst h
        obtain ⟨⟨t, hrows, hmade⟩, hdesired, hcount⟩ := create_eq_some hcreate
        exact ⟨.created t hauto (by omega) hrows hmade hcount, hdesired⟩

theorem visit_stop (h : visit cfg networks existing d s e = .stop s') :
    autoByName existing (targetName d e) = none ∧ cfg.maxTargets ≤ s.autoCount ∧
      s' = s.mark (targetName d e) := by
  unfold visit at h
  cases hauto : autoByName existing (targetName d e) with
  | some prev => simp [hauto] at h
  | none =>
    by_cases hcap : cfg.maxTargets ≤ s.autoCount
    · simp only [hauto, hcap, if_true, Outcome.stop.injEq] at h
      exact ⟨rfl, hcap, h.symm⟩
    · cases hcreate : (s.mark (targetName d e)).create cfg networks d e <;>
        simp [hauto, hcap, hcreate] at h

theorem visit_desired (h : (visit cfg networks existing d s e).Yields s') :
    s'.desired = targetName d e :: s.desired := by
  rcases h with h | h
  · exact (visit_next h).2
  · obtain ⟨-, -, rfl⟩ := visit_stop h
    rfl

end Visit

/-! ## What a sweep keeps true -/

variable {cfg : ProbeAutogenConfig} {decode : ServiceReader} {devices : Devices}
  {networks : Networks} {existing : ProbeTargets}

/-- The devices the sweep reads; none when the policy is off. -/
def discovering (cfg : ProbeAutogenConfig) (devices : Devices) : List DeviceRow :=
  if cfg.enabled then listDevicesForProbeAutogen devices else []

/-- The service of the device is discovered and admitted by the policy. -/
def Found (cfg : ProbeAutogenConfig) (decode : ServiceReader) (devices : Devices)
    (d : DeviceRow) (e : Entry) : Prop :=
  d ∈ discovering cfg devices ∧ e ∈ entries cfg decode d

theorem mem_of_discovering {d : DeviceRow} (h : d ∈ discovering cfg devices) :
    d ∈ devices.rows := by
  unfold discovering at h
  split at h
  · exact mem_of_mem_filter h
  · cases h

variable (cfg) (decode) (devices) (networks)

/-- A target from before the sweep is as it was, or it was followed. -/
inductive Standing (s : Sweep) (r : ProbeTarget) : Prop
  | untouched (h : r ∈ s.targets.rows) (hmark : r.source = .auto → r.name ∉ s.desired)
  | followed (d : DeviceRow) (e : Entry) (hfound : Found cfg decode devices d e)
    (hsource : r.source = .auto) (hname : r.name = targetName d e) (hmark : r.name ∈ s.desired)
    (h : followRow networks d e r r ∈ s.targets.rows)

structure Progress (existing : ProbeTargets) (s : Sweep) : Prop where
  old : ∀ r ∈ existing.rows, Standing cfg decode devices networks s r
  new : ∀ t ∈ s.targets.rows, (∃ r ∈ existing.rows, r.id = t.id) ∨
    ∃ d e, Found cfg decode devices d e ∧ targetName d e ∈ s.desired ∧ Made networks d e t
  count : s.autoCount = (autos s.targets).length
  marked : ∀ name ∈ s.desired, ∃ d e, Found cfg decode devices d e ∧ targetName d e = name

variable {cfg decode devices networks}

variable {prev r : ProbeTarget} {ds : List DeviceRow} {name : String} {es : List Entry}
  {t : ProbeTarget}

theorem mem_follow {rows : List ProbeTarget} {d : DeviceRow} {e : Entry} (ht : t ∈ rows)
    (hid : t.id ≠ prev.id) :
    t ∈ rows.map (probeTargetSchema.onId prev.id (followRow networks d e prev)) :=
  mem_map.mpr ⟨t, ht, onId_other _ _ _ hid⟩

theorem length_autos_map {s s' : Sweep} {f : ProbeTarget → ProbeTarget}
    (hf : ∀ t, (f t).source = t.source) (hrows : s'.targets.rows = s.targets.rows.map f) :
    (autos s'.targets).length = (autos s.targets).length := by
  have hsource : (fun t => decide (t.source = .auto)) ∘ f =
      fun t : ProbeTarget => decide (t.source = .auto) := by
    funext t
    simp only [Function.comp_apply, hf]
  rw [autos, hrows, filter_map, length_map, hsource, autos]

theorem onId_source {d : DeviceRow} {e : Entry} :
    (probeTargetSchema.onId prev.id (followRow networks d e prev) t).source = t.source := by
  unfold Schema.onId
  split
  · exact (followRow_fixed networks d e prev t).2.2
  · rfl

variable {d : DeviceRow} {e : Entry} {s s' : Sweep}

/-- A mark that is no target's name leaves every target as it stands. -/
theorem Standing.of_new_mark (h : autoByName existing (targetName d e) = none)
    (hr : r ∈ existing.rows) (hdesired : s'.desired = targetName d e :: s.desired)
    (hrows : ∀ t ∈ s.targets.rows, t ∈ s'.targets.rows)
    (hold : Standing cfg decode devices networks s r) :
    Standing cfg decode devices networks s' r := by
  cases hold with
  | untouched hmem hmark =>
    refine .untouched (hrows r hmem) fun hsource => ?_
    have hname := autoByName_eq_none.mp h r (mem_autos.mpr ⟨hr, hsource⟩)
    simp [hdesired, hname, hmark hsource]
  | followed d' e' hfound hsource hname hmark hmem =>
    exact .followed d' e' hfound hsource hname (by simp [hdesired, hmark]) (hrows _ hmem)

theorem Standing.of_follow (hprev : prev ∈ autos existing) (hname : prev.name = targetName d e)
    (hfound : Found cfg decode devices d e) (hr : r ∈ existing.rows)
    (hdesired : s'.desired = targetName d e :: s.desired) (hrows : s'.targets.rows =
      s.targets.rows.map (probeTargetSchema.onId prev.id (followRow networks d e prev)))
    (hold : Standing cfg decode devices networks s r) :
    Standing cfg decode devices networks s' r := by
  obtain ⟨hprevRow, hsource⟩ := mem_autos.mp hprev
  by_cases heq : r = prev
  · subst heq
    refine .followed d e hfound hsource hname (by simp [hdesired, hname]) ?_
    rw [hrows]
    cases hold with
    | untouched hmem _ => exact mem_map.mpr ⟨r, hmem, onId_same _ _ _ rfl⟩
    | followed d' e' hfound' _ hname' _ hmem =>
      obtain ⟨rfl, rfl⟩ := targetName_inj (mem_of_discovering hfound'.1)
        (mem_of_discovering hfound.1) (hname'.symm.trans hname)
      refine mem_map.mpr ⟨_, hmem, ?_⟩
      rw [onId_same _ _ _ (followRow_fixed networks d' e' r r).1]
      unfold followRow
      cases drifted d' e' r <;> cases r.enabled <;> rfl
  · have hid : r.id ≠ prev.id := fun h => heq (existing.eq_of_id hr hprevRow h)
    have hne : r.name ≠ targetName d e := fun h => heq (eq_of_name hr hprevRow (h.trans hname.symm))
    cases hold with
    | untouched hmem hmark =>
      refine .untouched (hrows ▸ mem_follow hmem hid) fun hsource => ?_
      simp [hdesired, hne, hmark hsource]
    | followed d' e' hfound' hsource' hname' hmark hmem =>
      refine .followed d' e' hfound' hsource' hname' (by simp [hdesired, hmark]) (hrows ▸ ?_)
      exact mem_follow hmem (by rwa [(followRow_fixed networks d' e' r r).1])

theorem Progress.of_visit (hs : Progress cfg decode devices networks existing s)
    (hfound : Found cfg decode devices d e)
    (h : (visit cfg networks existing d s e).Yields s') :
    Progress cfg decode devices networks existing s' := by
  have hdesired := visit_desired h
  have hmarked : ∀ name ∈ s'.desired, ∃ d e, Found cfg decode devices d e ∧
      targetName d e = name := by
    intro name hname
    rw [hdesired] at hname
    rcases mem_cons.mp hname with rfl | hname
    · exact ⟨d, e, hfound, rfl⟩
    · exact hs.marked name hname
  have hkept : ∀ t, ((∃ r ∈ existing.rows, r.id = t.id) ∨
      ∃ d e, Found cfg decode devices d e ∧ targetName d e ∈ s.desired ∧ Made networks d e t) →
      ((∃ r ∈ existing.rows, r.id = t.id) ∨
        ∃ d e, Found cfg decode devices d e ∧ targetName d e ∈ s'.desired ∧
          Made networks d e t) := by
    rintro t (hold | ⟨d', e', hfound', hmark, hmade⟩)
    · exact .inl hold
    · exact .inr ⟨d', e', hfound', by simp [hdesired, hmark], hmade⟩
  rcases h with hnext | hstop
  · cases (visit_next hnext).1 with
    | followed prev hauto hrows hcount =>
      obtain ⟨hprev, hname⟩ := autoByName_eq_some.mp hauto
      refine ⟨fun r hr => .of_follow hprev hname hfound hr hdesired hrows (hs.old r hr), ?_, ?_,
        hmarked⟩
      · intro t ht
        rw [hrows] at ht
        obtain ⟨u, hu, rfl⟩ := mem_map.mp ht
        by_cases hid : u.id = prev.id
        · rw [onId_same _ _ _ hid]
          exact .inl ⟨prev, (mem_autos.mp hprev).1,
            hid.symm.trans (followRow_fixed networks d e prev u).1.symm⟩
        · rw [onId_other _ _ _ hid]
          exact hkept u (hs.new u hu)
      · rw [hcount, hs.count]
        exact (length_autos_map (fun _ => onId_source) hrows).symm
    | created t hauto hcap hrows hmade hcount =>
      refine ⟨fun r hr => (hs.old r hr).of_new_mark hauto hr hdesired (by simp_all), ?_, ?_,
        hmarked⟩
      · intro u hu
        rw [hrows] at hu
        rcases mem_append.mp hu with hu | hu
        · exact hkept u (hs.new u hu)
        · rw [mem_singleton.mp hu]
          exact .inr ⟨d, e, hfound, by simp [hdesired], hmade⟩
      · rw [hcount, hs.count, autos, autos, hrows, filter_append]
        simp [hmade.source]
  · obtain ⟨hauto, -, rfl⟩ := visit_stop hstop
    exact ⟨fun r hr => (hs.old r hr).of_new_mark hauto hr hdesired fun _ ht => ht,
      fun t ht => hkept t (hs.new t ht), hs.count, hmarked⟩

/-- The loop over the devices, up to the parking. -/
def sweepAll (cfg : ProbeAutogenConfig) (decode : ServiceReader)
    (devices : Devices) (networks : Networks) (existing : ProbeTargets) :
    Except SweepFailure Sweep :=
  (discovering cfg devices).foldlM (Sweep.sweepDevice cfg decode networks existing)
    (.start existing)

theorem sweep_eq : sweep cfg decode devices networks existing =
    (sweepAll cfg decode devices networks existing).map (park existing) := by
  unfold sweep sweepAll discovering
  split <;> rfl

theorem passes_progress (hds : ∀ d ∈ ds, d ∈ discovering cfg devices)
    (h : ds.foldlM (sweepDevice cfg decode networks existing) (.start existing) = .ok s) :
    Progress cfg decode devices networks existing s := by
  refine passes_invariant (fun d hd _ _ hs hpass => ?_) ?_ h
  · exact loop_invariant (fun _ he _ _ hs hvisit => hs.of_visit ⟨hds d hd, he⟩ hvisit) hs hpass
  · exact
      { old := fun _ hr => .untouched hr fun _ => not_mem_nil
        new := fun t ht => .inl ⟨t, ht, rfl⟩
        count := rfl
        marked := fun _ h => absurd h not_mem_nil }

theorem sweepAll_progress (h : sweepAll cfg decode devices networks existing = .ok s) :
    Progress cfg decode devices networks existing s :=
  passes_progress (fun _ hd => hd) h

/-! ## Which services are reached -/

/-- The marks of a device come on top of the earlier ones. -/
theorem sweepDevice_desired (h : sweepDevice cfg decode networks existing s d = .ok s') :
    ∃ es : List Entry, s'.desired = es.map (targetName d) ++ s.desired := by
  refine loop_invariant (P := fun u => ∃ es : List Entry,
    u.desired = es.map (targetName d) ++ s.desired) ?_ ⟨[], rfl⟩ h
  rintro e - u u' ⟨es, hu⟩ hyields
  exact ⟨e :: es, by rw [visit_desired hyields, hu, map_cons, cons_append]⟩

theorem passes_desired (h : ds.foldlM (sweepDevice cfg decode networks existing) s = .ok s')
    (name : String) :
    name ∈ s'.desired → name ∈ s.desired ∨ ∃ d ∈ ds, ∃ e, name = targetName d e := by
  refine passes_invariant (P := fun u => name ∈ u.desired → name ∈ s.desired ∨
    ∃ d ∈ ds, ∃ e, name = targetName d e) ?_ .inl h
  intro d hd u u' hu hpass hname
  obtain ⟨es, hes⟩ := sweepDevice_desired hpass
  rw [hes] at hname
  rcases mem_append.mp hname with hname | hname
  · obtain ⟨e, -, rfl⟩ := mem_map.mp hname
    exact .inr ⟨d, hd, e, rfl⟩
  · exact hu hname

theorem passes_desired_mono (h : ds.foldlM (sweepDevice cfg decode networks existing) s = .ok s')
    (hname : name ∈ s.desired) : name ∈ s'.desired := by
  refine passes_invariant (P := fun u => name ∈ u.desired) ?_ hname h
  intro d _ u u' hu hpass
  obtain ⟨es, hes⟩ := sweepDevice_desired hpass
  rw [hes]
  exact mem_append_right _ hu

/-- The service has no target yet. -/
def isNew (existing : ProbeTargets) (d : DeviceRow) (e : Entry) : Bool :=
  (autoByName existing (targetName d e)).isNone

/-- How many targets the cap still lets in. -/
def room (cfg : ProbeAutogenConfig) (autoCount : Nat) : Nat := (cfg.maxTargets - autoCount).toNat

/-- A service with a target is reached when the new services before it fit under the cap. -/
theorem loop_reaches (hnew : isNew existing d e = false) (hmark : targetName d e ∉ s.desired)
    (h : loop (visit cfg networks existing d) s es = .ok s') :
    targetName d e ∈ s'.desired ↔ ∃ before after, es = before ++ e :: after ∧
      before.countP (isNew existing d) ≤ room cfg s.autoCount := by
  induction es generalizing s with
  | nil => simp [loop_nil_ok.mp h, hmark]
  | cons f rest ih =>
    rw [exists_before_cons (C := fun before => before.countP (isNew existing d) ≤ _)]
    rcases loop_cons_ok.mp h with ⟨s₁, hnext, hrest⟩ | hstop
    · obtain ⟨hvisited, hdesired⟩ := visit_next hnext
      by_cases hf : f = e
      · -- it is reached here, and its mark stays
        subst hf
        have hmark₁ : targetName d f ∈ s₁.desired := by simp [hdesired]
        refine iff_of_true ?_ (.inl ⟨rfl, by simp⟩)
        refine loop_invariant (P := fun u => targetName d f ∈ u.desired) ?_ hmark₁ hrest
        intro g _ u u' hu hyields
        simp [visit_desired hyields, hu]
      · have hmark₁ : targetName d e ∉ s₁.desired := by
          rw [hdesired, mem_cons, not_or]
          exact ⟨fun he => hf (targetName_entry he).symm, hmark⟩
        rw [ih hmark₁ hrest]
        cases hvisited with
        | followed prev hauto _ hcount => simp [isNew, hauto, hcount, hf]
        | created t hauto hlt _ _ hcount =>
          have hroom : room cfg s.autoCount = room cfg s₁.autoCount + 1 := by
            rw [room, room, hcount]
            omega
          have hfnew : isNew existing d f = true := by simp [isNew, hauto]
          simp [hf, hroom, hfnew]
    · obtain ⟨hauto, hcap, rfl⟩ := visit_stop hstop
      have hfnew : isNew existing d f = true := by simp [isNew, hauto]
      have hf : f ≠ e := fun he => by simp [he, hnew] at hfnew
      have hne : targetName d e ≠ targetName d f := fun he => hf (targetName_entry he).symm
      have hroom : room cfg s.autoCount = 0 := by
        rw [room]
        omega
      simp [mark, hmark, hf, hne, hroom, hfnew]

theorem loop_room (h : loop (visit cfg networks existing d) s es = .ok s') :
    room cfg s'.autoCount = room cfg s.autoCount - es.countP (isNew existing d) := by
  induction es generalizing s with
  | nil =>
    rw [loop_nil_ok.mp h]
    rfl
  | cons f rest ih =>
    rcases loop_cons_ok.mp h with ⟨s₁, hnext, hrest⟩ | hstop
    · have hroom := ih hrest
      rw [hroom]
      cases (visit_next hnext).1 with
      | followed prev hauto _ hcount => simp [isNew, hauto, hcount]
      | created t hauto hlt _ _ hcount =>
        simp only [isNew, hauto, hcount, room, countP_cons, Option.isNone_none, if_true]
        omega
    · obtain ⟨-, hcap, rfl⟩ := visit_stop hstop
      simp only [room, mark]
      omega

/-- Every service with a target stands, in the list of its device, behind no more new services
than the cap has room for when the sweep comes to the device. -/
def Unhidden (cfg : ProbeAutogenConfig) (decode : ServiceReader)
    (existing : ProbeTargets) : Nat → List DeviceRow → Prop
  | _, [] => True
  | free, d :: ds =>
    (∀ e ∈ entries cfg decode d, isNew existing d e = false →
      ∃ before after, entries cfg decode d = before ++ e :: after ∧
        before.countP (isNew existing d) ≤ free) ∧
    Unhidden cfg decode existing (free - (entries cfg decode d).countP (isNew existing d)) ds

theorem passes_reach (hds : ds.Pairwise fun a b => a.id < b.id)
    (hmarks : ∀ d ∈ ds, ∀ e, targetName d e ∉ s.desired)
    (h : ds.foldlM (sweepDevice cfg decode networks existing) s = .ok s') :
    (∀ d ∈ ds, ∀ e ∈ entries cfg decode d, isNew existing d e = false →
        targetName d e ∈ s'.desired) ↔
      Unhidden cfg decode existing (room cfg s.autoCount) ds := by
  induction ds generalizing s with
  | nil => simp [Unhidden]
  | cons d ds ih =>
    obtain ⟨hlt, hds⟩ := pairwise_cons.mp hds
    obtain ⟨s₁, hpass, hrest⟩ := passes_cons_ok.mp h
    have hapart : ∀ d' ∈ ds, ∀ e e', targetName d' e ≠ targetName d e' :=
      fun d' hd' e e' he => absurd (autogenName_inj he).1 (Nat.ne_of_gt (hlt d' hd'))
    have hmarks₁ : ∀ d' ∈ ds, ∀ e, targetName d' e ∉ s₁.desired := by
      intro d' hd' e hmem
      obtain ⟨es, hes⟩ := sweepDevice_desired hpass
      rw [hes] at hmem
      rcases mem_append.mp hmem with hmem | hmem
      · obtain ⟨e', -, he'⟩ := mem_map.mp hmem
        exact hapart d' hd' e e' he'.symm
      · exact hmarks d' (by simp [hd']) e hmem
    -- the later devices neither add to the marks of this one nor take any away
    have hlater : ∀ e, targetName d e ∈ s'.desired ↔ targetName d e ∈ s₁.desired := by
      intro e
      refine ⟨fun hmem => ?_, passes_desired_mono hrest⟩
      rcases passes_desired hrest _ hmem with hmem | ⟨d', hd', e', he'⟩
      · exact hmem
      · exact absurd he'.symm (hapart d' hd' e' e)
    rw [Unhidden, ← loop_room hpass, ← ih hds hmarks₁ hrest, forall_mem_cons]
    refine and_congr (forall_congr' fun e => imp_congr_right fun _ =>
      imp_congr_right fun hnew => ?_) Iff.rfl
    rw [hlater, loop_reaches hnew (hmarks d (by simp) e) hpass]

/-! ## What is there at the end -/

/-- The sweep has a target of its own under this name. -/
def Holds (s : Sweep) (name : String) : Prop := ∃ t ∈ autos s.targets, t.name = name

theorem Progress.holds (hs : Progress cfg decode devices networks existing s)
    (hr : r ∈ autos existing) : s.Holds r.name := by
  obtain ⟨hrow, hsource⟩ := mem_autos.mp hr
  cases hs.old r hrow with
  | untouched h _ => exact ⟨r, mem_autos.mpr ⟨h, hsource⟩, rfl⟩
  | followed d e _ _ _ _ h =>
    obtain ⟨-, hname, hsrc⟩ := followRow_fixed networks d e r r
    exact ⟨_, mem_autos.mpr ⟨h, hsrc.trans hsource⟩, hname⟩

theorem Holds.of_visit (hs : s.Holds name) (h : (visit cfg networks existing d s e).Yields s') :
    s'.Holds name := by
  obtain ⟨t, ht, rfl⟩ := hs
  obtain ⟨hrow, hsource⟩ := mem_autos.mp ht
  rcases h with hnext | hstop
  · cases (visit_next hnext).1 with
    | followed prev _ hrows _ =>
      refine ⟨_, mem_autos.mpr ⟨hrows ▸ mem_map_of_mem hrow, onId_source.trans hsource⟩, ?_⟩
      unfold Schema.onId
      split
      · exact (followRow_fixed networks d e prev t).2.1
      · rfl
    | created u _ _ hrows _ _ =>
      exact ⟨t, mem_autos.mpr ⟨hrows ▸ mem_append_left _ hrow, hsource⟩, rfl⟩
  · obtain ⟨-, -, rfl⟩ := visit_stop hstop
    exact ⟨t, ht, rfl⟩

theorem Holds.of_loop (hs : s.Holds name) (h : loop (visit cfg networks existing d) s es = .ok s') :
    s'.Holds name :=
  loop_invariant (P := fun u => u.Holds name) (fun _ _ _ _ hu => hu.of_visit) hs h

theorem Holds.of_passes (hs : s.Holds name)
    (h : ds.foldlM (sweepDevice cfg decode networks existing) s = .ok s') : s'.Holds name :=
  passes_invariant (P := fun u => u.Holds name) (fun _ _ _ _ hu => hu.of_loop) hs h

/-- After a step that goes on, the service has its target. -/
theorem Progress.holds_next (hs : Progress cfg decode devices networks existing s)
    (hfound : Found cfg decode devices d e) (h : visit cfg networks existing d s e = .next s') :
    s'.Holds (targetName d e) := by
  cases (visit_next h).1 with
  | followed prev hauto _ _ =>
    obtain ⟨hprev, hname⟩ := autoByName_eq_some.mp hauto
    exact hname ▸ (hs.of_visit hfound (.inl h)).holds hprev
  | created t _ _ hrows hmade _ =>
    exact ⟨t, mem_autos.mpr ⟨by simp [hrows], hmade.source⟩, hmade.name⟩

theorem visit_autoCount (h : (visit cfg networks existing d s e).Yields s') :
    s.autoCount ≤ s'.autoCount := by
  rcases h with hnext | hstop
  · cases (visit_next hnext).1 with
    | followed _ _ _ hcount => exact hcount.ge
    | created _ _ _ _ _ hcount => omega
  · obtain ⟨-, -, rfl⟩ := visit_stop hstop
    exact le_rfl

theorem loop_autoCount (h : loop (visit cfg networks existing d) s es = .ok s') :
    s.autoCount ≤ s'.autoCount :=
  loop_invariant (P := fun u => s.autoCount ≤ u.autoCount)
    (fun _ _ _ _ hu hyields => hu.trans (visit_autoCount hyields)) le_rfl h

section Found

variable (hs : Progress cfg decode devices networks existing s)
  (hfound : ∀ e ∈ es, Found cfg decode devices d e)
  (h : loop (visit cfg networks existing d) s es = .ok s')

include hs hfound h

/-- A service without a target at the end was held back by the cap. -/
theorem loop_capped (he : e ∈ es) :
    s'.Holds (targetName d e) ∨ cfg.maxTargets ≤ s'.autoCount := by
  induction es generalizing s with
  | nil => cases he
  | cons f rest ih =>
    rcases loop_cons_ok.mp h with ⟨s₁, hnext, hrest⟩ | hstop
    · rcases mem_cons.mp he with rfl | he
      · exact .inl ((hs.holds_next (hfound e (by simp)) hnext).of_loop hrest)
      · exact ih (hs.of_visit (hfound f (by simp)) (.inl hnext))
          (fun g hg => hfound g (by simp [hg])) hrest he
    · obtain ⟨-, hcap, rfl⟩ := visit_stop hstop
      exact .inr hcap

/-- Before a service that was marked, every service of the device has its target. -/
theorem loop_before (hmark : targetName d e ∉ s.desired) (hmark' : targetName d e ∈ s'.desired) :
    ∃ before after, es = before ++ e :: after ∧ ∀ f ∈ before, s'.Holds (targetName d f) := by
  induction es generalizing s with
  | nil => exact absurd (loop_nil_ok.mp h ▸ hmark') hmark
  | cons f rest ih =>
    rw [exists_before_cons (C := fun before => ∀ f ∈ before, s'.Holds (targetName d f))]
    by_cases hf : f = e
    · exact .inl ⟨hf, by simp⟩
    · have hne : targetName d e ≠ targetName d f := fun he => hf (targetName_entry he).symm
      rcases loop_cons_ok.mp h with ⟨s₁, hnext, hrest⟩ | hstop
      · have hmark₁ : targetName d e ∉ s₁.desired := by
          simp [(visit_next hnext).2, hne, hmark]
        obtain ⟨before, after, hsplit, hbefore⟩ := ih
          (hs.of_visit (hfound f (by simp)) (.inl hnext)) (fun g hg => hfound g (by simp [hg]))
          hrest hmark₁
        have hhead := (hs.holds_next (hfound f (by simp)) hnext).of_loop hrest
        exact .inr ⟨before, after, hsplit, forall_mem_cons.mpr ⟨hhead, hbefore⟩⟩
      · obtain ⟨-, -, rfl⟩ := visit_stop hstop
        simp [mark, hne, hmark] at hmark'

end Found

theorem discovering_ordered (cfg : ProbeAutogenConfig) (devices : Devices) :
    (discovering cfg devices).Pairwise fun a b => a.id < b.id := by
  unfold discovering
  split
  · exact devices.ordered.filter _
  · exact .nil

variable (h : sweepAll cfg decode devices networks existing = .ok s)
  (hfound : Found cfg decode devices d e)

include h hfound

theorem sweepAll_capped :
    s.Holds (targetName d e) ∨ cfg.maxTargets ≤ s.autoCount := by
  obtain ⟨before, after, s₁, s₂, hsplit, hbefore, hpass, hafter⟩ := passes_split hfound.1 h
  have hs₁ : Progress cfg decode devices networks existing s₁ :=
    passes_progress (fun d' hd' => by simp [hsplit, hd']) hbefore
  refine (loop_capped hs₁ (fun f hf => ⟨hfound.1, hf⟩) hpass hfound.2).imp (·.of_passes hafter) ?_
  have hmono : s₂.autoCount ≤ s.autoCount := passes_invariant
    (P := fun u => s₂.autoCount ≤ u.autoCount)
    (fun _ _ _ _ hu hpass => hu.trans (loop_autoCount hpass)) le_rfl hafter
  omega

theorem sweepAll_before (hmark : targetName d e ∈ s.desired) :
    ∃ before after, entries cfg decode d = before ++ e :: after ∧
      ∀ f ∈ before, s.Holds (targetName d f) := by
  obtain ⟨ds, ds', s₁, s₂, hsplit, hbefore, hpass, hafter⟩ := passes_split hfound.1 h
  have hs₁ : Progress cfg decode devices networks existing s₁ :=
    passes_progress (fun d' hd' => by simp [hsplit, hd']) hbefore
  have hordered := hsplit ▸ discovering_ordered cfg devices
  rw [pairwise_append, pairwise_cons] at hordered
  obtain ⟨-, ⟨hlater, -⟩, hearlier⟩ := hordered
  have hmark₁ : targetName d e ∉ s₁.desired := by
    intro hmem
    rcases passes_desired hbefore _ hmem with hmem | ⟨d', hd', e', he'⟩
    · cases hmem
    · exact absurd (autogenName_inj he').1 (Nat.ne_of_gt (hearlier d' hd' d (by simp)))
  have hmark₂ : targetName d e ∈ s₂.desired := by
    rcases passes_desired hafter _ hmark with hmem | ⟨d', hd', e', he'⟩
    · exact hmem
    · exact absurd (autogenName_inj he').1 (Nat.ne_of_lt (hlater d' hd'))
  obtain ⟨before, after, hentries, hholds⟩ := loop_before hs₁ (fun f hf => ⟨hfound.1, hf⟩) hpass
    hmark₁ hmark₂
  exact ⟨before, after, hentries, fun f hf => (hholds f hf).of_passes hafter⟩

end Sweep

end Steward.Probe
