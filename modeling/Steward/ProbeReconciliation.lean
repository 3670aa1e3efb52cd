import Steward.AutogenProgress

/-!
# What a sweep reconciles

A sweep that succeeds leaves every target of its own enabled exactly when its service is
discovered, unless the cap made the loop over a device's services end before the service
was reached. The vantage of a target is only written along with another change.
-/

namespace Steward.Probe

open RowTable Loops Runs List

namespace Sweep

variable {cfg : ProbeAutogenConfig} {decode : ServiceReader} {devices : Devices}
  {networks : Networks} {existing : ProbeTargets} {d : DeviceRow} {e : Entry} {s : Sweep}

/-! ## Parking -/

theorem run_toggle_rows (targets : ProbeTargets) (ts : List ProbeTarget) :
    (run (fun targets t => targets.modify t.id (toggle false) (toggle_inert false)) targets
      ts).rows = targets.rows.map fun t =>
        if t.id ∈ ts.map ProbeTarget.id then toggle false t else t := by
  induction ts generalizing targets with
  | nil => simp
  | cons u rest ih =>
    rw [run_cons, ih, Table.modify_rows, map_map]
    refine map_congr_left fun t _ => ?_
    by_cases hu : t.id = u.id
    · by_cases hrest : u.id ∈ rest.map ProbeTarget.id <;>
        simp [Schema.onId, hu, hrest, toggle]
    · simp [Schema.onId, hu]

variable {r t : ProbeTarget}

theorem Progress.gone_untouched (hs : Progress cfg decode devices networks existing s)
    (hr : r ∈ gone existing s) : r ∈ s.targets.rows ∧ r.name ∉ s.desired := by
  simp only [gone, mem_filter, Bool.and_eq_true, Bool.not_eq_true', contains_eq_mem,
    decide_eq_false_iff_not] at hr
  obtain ⟨hauto, hmark, -⟩ := hr
  cases hs.old r (mem_autos.mp hauto).1 with
  | untouched h _ => exact ⟨h, hmark⟩
  | followed _ _ _ _ _ hmark' _ => exact absurd hmark' hmark

theorem Progress.park_rows (hs : Progress cfg decode devices networks existing s) :
    (park existing s).targets.rows = s.targets.rows.map fun t =>
      if t ∈ gone existing s then toggle false t else t := by
  refine (run_toggle_rows s.targets (gone existing s)).trans (map_congr_left fun t ht => ?_)
  have hmem : t.id ∈ (gone existing s).map ProbeTarget.id ↔ t ∈ gone existing s := by
    refine ⟨fun h => ?_, mem_map_of_mem⟩
    obtain ⟨r, hr, hid⟩ := mem_map.mp h
    rwa [← s.targets.eq_of_id (hs.gone_untouched hr).1 ht hid]
  simp only [hmem]

/-- How a target of the sweep ends. -/
inductive Ended (cfg : ProbeAutogenConfig) (decode : ServiceReader)
    (devices : Devices) (networks : Networks) (existing : ProbeTargets) (s : Sweep)
    (t : ProbeTarget) : Prop
  | parked (r : ProbeTarget) (hr : r ∈ autos existing) (hmark : r.name ∉ s.desired)
    (h : t = toggle false r)
  | followed (r : ProbeTarget) (d : DeviceRow) (e : Entry) (hr : r ∈ autos existing)
    (hfound : Found cfg decode devices d e) (hname : r.name = targetName d e)
    (hmark : r.name ∈ s.desired) (h : t = followRow networks d e r r)
  | made (d : DeviceRow) (e : Entry) (hfound : Found cfg decode devices d e)
    (hmark : targetName d e ∈ s.desired) (hmade : Made networks d e t)

theorem parkRow_auto (hr : r ∈ autos existing) (hmark : r.name ∉ s.desired) :
    (if r ∈ gone existing s then toggle false r else r) = toggle false r := by
  cases henabled : r.enabled with
  | true => rw [if_pos (by simp [gone, hr, hmark, henabled])]
  | false =>
    rw [if_neg (by simp [gone, henabled]), toggle, ← henabled]

theorem parkRow_marked (hmark : t.name ∈ s.desired) :
    (if t ∈ gone existing s then toggle false t else t) = t :=
  if_neg (by simp [gone, hmark])

section Passes

variable (hs : Progress cfg decode devices networks existing s)

include hs

theorem Progress.ended (ht : t ∈ autos (park existing s).targets) :
    Ended cfg decode devices networks existing s t := by
  obtain ⟨hrow, hsource⟩ := mem_autos.mp ht
  rw [hs.park_rows] at hrow
  obtain ⟨u, hu, rfl⟩ := mem_map.mp hrow
  have husource : u.source = .auto := by
    split at hsource <;> exact hsource
  rcases hs.new u hu with ⟨r, hr, hid⟩ | ⟨d, e, hfound, hmark, hmade⟩
  · cases hs.old r hr with
    | untouched h hmark =>
      obtain rfl := s.targets.eq_of_id h hu hid
      have hauto := mem_autos.mpr ⟨hr, husource⟩
      exact .parked r hauto (hmark husource) (parkRow_auto hauto (hmark husource))
    | followed d e hfound hsource' hname hmark h =>
      obtain ⟨hfid, hfname, -⟩ := followRow_fixed networks d e r r
      obtain rfl := s.targets.eq_of_id h hu (hfid.trans hid)
      exact .followed r d e (mem_autos.mpr ⟨hr, hsource'⟩) hfound hname hmark
        (parkRow_marked (hfname ▸ hmark))
  · rw [parkRow_marked (hmade.name ▸ hmark)]
    exact .made d e hfound hmark hmade

theorem Progress.parked (hr : r ∈ autos existing) (hmark : r.name ∉ s.desired) :
    toggle false r ∈ autos (park existing s).targets := by
  obtain ⟨hrow, hsource⟩ := mem_autos.mp hr
  have hmem : r ∈ s.targets.rows := by
    cases hs.old r hrow with
    | untouched h _ => exact h
    | followed _ _ _ _ _ hmark' _ => exact absurd hmark' hmark
  refine mem_autos.mpr ⟨?_, hsource⟩
  rw [hs.park_rows]
  exact mem_map.mpr ⟨r, hmem, parkRow_auto hr hmark⟩

theorem Progress.followed (hr : r ∈ autos existing) (hmark : r.name ∈ s.desired) :
    ∃ d e, Found cfg decode devices d e ∧ r.name = targetName d e ∧
      followRow networks d e r r ∈ autos (park existing s).targets := by
  obtain ⟨hrow, hsource⟩ := mem_autos.mp hr
  cases hs.old r hrow with
  | untouched _ hmark' => exact absurd hmark (hmark' hsource)
  | followed d e hfound _ hname _ h =>
    obtain ⟨-, hfname, hfsource⟩ := followRow_fixed networks d e r r
    refine ⟨d, e, hfound, hname, mem_autos.mpr ⟨?_, hfsource.trans hsource⟩⟩
    rw [hs.park_rows]
    exact mem_map.mpr ⟨_, h, parkRow_marked (hfname ▸ hmark)⟩

theorem Progress.park_count :
    (autos (park existing s).targets).length = s.autoCount := by
  rw [hs.count]
  exact length_autos_map (fun t => by split <;> rfl) hs.park_rows

theorem Progress.park_holds {name : String} (h : s.Holds name) :
    autoByName (park existing s).targets name ≠ none := by
  obtain ⟨t, ht, rfl⟩ := h
  obtain ⟨hrow, hsource⟩ := mem_autos.mp ht
  intro hnone
  have hmem : (if t ∈ gone existing s then toggle false t else t) ∈
      (park existing s).targets.rows := by
    rw [hs.park_rows]
    exact mem_map_of_mem hrow
  refine autoByName_eq_none.mp hnone _ (mem_autos.mpr ⟨hmem, ?_⟩) ?_ <;> split <;>
    first | exact hsource | rfl

end Passes

/-! ## A second sweep -/

/-- Every target whose service is discovered was reached. -/
def AllReached (cfg : ProbeAutogenConfig) (decode : ServiceReader)
    (devices : Devices) (existing : ProbeTargets) (s : Sweep) : Prop :=
  ∀ r ∈ autos existing, ∀ d e, Found cfg decode devices d e → targetName d e = r.name →
    r.name ∈ s.desired

/-- A target that is found again is already as the sweep wants it. -/
theorem Progress.steady (hs : Progress cfg decode devices networks existing s)
    (hreached : AllReached cfg decode devices existing s) (hfound : Found cfg decode devices d e)
    (h : autoByName (park existing s).targets (targetName d e) = some t) :
    drifted d e t = false ∧ t.enabled = true := by
  obtain ⟨ht, hname⟩ := autoByName_eq_some.mp h
  cases hs.ended ht with
  | parked r hr hmark h =>
    subst h
    exact absurd (hreached r hr d e hfound hname.symm) hmark
  | followed r d' e' hr hfound' hname' hmark h =>
    subst h
    rw [(followRow_fixed networks d' e' r r).2.1, hname'] at hname
    obtain ⟨rfl, rfl⟩ := targetName_inj (mem_of_discovering hfound'.1)
      (mem_of_discovering hfound.1) hname
    exact ⟨by simp [drifted, followRow_plan], followRow_enabled networks d' e' r⟩
  | made d' e' hfound' hmark hmade =>
    obtain ⟨rfl, rfl⟩ := targetName_inj (mem_of_discovering hfound'.1)
      (mem_of_discovering hfound.1) (hmade.name.symm.trans hname)
    exact ⟨by simp [drifted, hmade.plan], hmade.enabled⟩

variable (h : sweepAll cfg decode devices networks existing = .ok s)

include h

/-- Over the table that a sweep left, the loops change nothing. -/
theorem resweep_targets (hreached : AllReached cfg decode devices existing s) :
    ∃ u, sweepAll cfg decode devices networks (park existing s).targets = .ok u ∧
      u.targets = (park existing s).targets := by
  have hs := sweepAll_progress h
  have hvisit : ∀ d ∈ discovering cfg devices, ∀ e ∈ entries cfg decode d, ∀ u : Sweep,
      u.targets = (park existing s).targets ∧ u.autoCount = s.autoCount →
        ∃ u', (visit cfg networks (park existing s).targets d u e).Yields u' ∧
          u'.targets = (park existing s).targets ∧ u'.autoCount = s.autoCount := by
    rintro d hd e he u ⟨htargets, hcount⟩
    cases hauto : autoByName (park existing s).targets (targetName d e) with
    | some t =>
      obtain ⟨hdrift, henabled⟩ := hs.steady hreached ⟨hd, he⟩ hauto
      refine ⟨u.mark (targetName d e), .inl ?_, htargets, hcount⟩
      simp [visit, hauto, follow, hdrift, henabled]
    | none =>
      -- a service without a target was held back, so the cap is reached
      have hcap : cfg.maxTargets ≤ u.autoCount := by
        rcases sweepAll_capped h ⟨hd, he⟩ with hholds | hcap
        · exact absurd hauto (hs.park_holds hholds)
        · rwa [hcount]
      refine ⟨u.mark (targetName d e), .inr ?_, htargets, hcount⟩
      simp only [visit, hauto, if_pos hcap]
  have hdevice : ∀ d ∈ discovering cfg devices, ∀ u : Sweep,
      u.targets = (park existing s).targets ∧ u.autoCount = s.autoCount →
        ∃ u', sweepDevice cfg decode networks (park existing s).targets u d = .ok u' ∧
          u'.targets = (park existing s).targets ∧ u'.autoCount = s.autoCount :=
    fun d hd u hu => loop_total (hvisit d hd) hu
  obtain ⟨u, hu, htargets, -⟩ := passes_total hdevice
    (s := .start (park existing s).targets) ⟨rfl, hs.park_count⟩
  exact ⟨u, hu, htargets⟩

/-- What a sweep marked and left a target for, the next sweep marks again. -/
theorem resweep_marks {u : Sweep}
    (hu : sweepAll cfg decode devices networks (park existing s).targets = .ok u)
    (hfound : Found cfg decode devices d e) (hmark : targetName d e ∈ s.desired)
    (hauto : autoByName (park existing s).targets (targetName d e) ≠ none) :
    targetName d e ∈ u.desired := by
  have hs := sweepAll_progress h
  obtain ⟨before, after, hentries, hholds⟩ := sweepAll_before h hfound hmark
  obtain ⟨ds, ds', u₁, u₂, -, -, hpass, hafter⟩ := passes_split hfound.1 hu
  refine passes_desired_mono hafter ?_
  by_cases hmark₁ : targetName d e ∈ u₁.desired
  · obtain ⟨es, hes⟩ := sweepDevice_desired hpass
    rw [hes]
    exact mem_append_right _ hmark₁
  · have hnew : ∀ f, autoByName (park existing s).targets (targetName d f) ≠ none →
        isNew (park existing s).targets d f = false := by
      intro f hf
      simpa [isNew] using Option.isSome_iff_ne_none.mpr hf
    refine (loop_reaches (hnew e hauto) hmark₁ hpass).mpr ⟨before, after, hentries, ?_⟩
    have hzero : before.countP (isNew (park existing s).targets d) = 0 :=
      countP_eq_zero.mpr fun f hf => by simp [hnew f (hs.park_holds (hholds f hf))]
    omega

theorem resweep (hreached : AllReached cfg decode devices existing s) :
    ∃ u, sweep cfg decode devices networks (park existing s).targets = .ok u ∧
      u.targets = (park existing s).targets := by
  have hs := sweepAll_progress h
  obtain ⟨u, hu, htargets⟩ := resweep_targets h hreached
  refine ⟨park (park existing s).targets u, by rw [sweep_eq, hu]; rfl, ?_⟩
  have hgone : gone (park existing s).targets u = [] := by
    refine filter_eq_nil_iff.mpr fun t ht => ?_
    have hauto : autoByName (park existing s).targets t.name ≠ none := by
      rw [autoByName_eq_some.mpr ⟨ht, rfl⟩]
      exact Option.some_ne_none t
    have hmarked : t.enabled = true → t.name ∈ u.desired := by
      intro henabled
      cases hs.ended ht with
      | parked r hr hmark h =>
        rw [h] at henabled
        cases henabled
      | followed r d e hr hfound hname hmark h =>
        have htname : t.name = targetName d e :=
          h ▸ (followRow_fixed networks d e r r).2.1.trans hname
        rw [htname] at hauto ⊢
        exact resweep_marks ‹_› hu hfound (hname ▸ hmark) hauto
      | made d e hfound hmark hmade =>
        rw [hmade.name] at hauto ⊢
        exact resweep_marks ‹_› hu hfound hmark hauto
    cases henabled : t.enabled with
    | true => simp [hmarked henabled]
    | false => simp
  rw [park, hgone, run_nil, htargets]

end Sweep

/-! ## Reconciliation -/

open Sweep

variable (cfg : ProbeAutogenConfig) (decode : ServiceReader) (devices : Devices)
  (networks : Networks) (existing : ProbeTargets)

/-- What a sweep is for. -/
structure Reconciled (s : Sweep) : Prop where
  /-- A target of the sweep is enabled exactly when its service is discovered. -/
  enabled : ∀ t ∈ autos existing, ∃ t' ∈ s.targets.rows, t'.id = t.id ∧
    (t'.enabled = true ↔ ∃ d e, Found cfg decode devices d e ∧ targetName d e = t.name)
  /-- A discovered service with a target has its plan, whatever the cap. -/
  followed : ∀ t ∈ autos existing, ∀ d e, Found cfg decode devices d e → targetName d e = t.name →
    ∃ t' ∈ s.targets.rows, t'.id = t.id ∧ (t'.module, t'.target) = planOf d e
  /-- A discovered service has a target, unless the cap is reached. -/
  created : ∀ d e, Found cfg decode devices d e →
    (∃ t ∈ autos s.targets, t.name = targetName d e) ∨
      cfg.maxTargets ≤ (autos s.targets).length
  /-- A target is probed from the current network of its device. -/
  vantage : ∀ t ∈ autos s.targets, ∀ d ∈ devices.rows, OfDevice t d →
    t.vantage = vantageFor networks d.networkId
  /-- The next sweep changes nothing. -/
  steady : ∃ s', sweep cfg decode devices networks s.targets = .ok s' ∧ s'.targets = s.targets

/-- The vantage already fits, or the plan of the target changed along with it. -/
def VantageFollows : Prop :=
  ∀ t ∈ autos existing, ∀ d ∈ devices.rows, OfDevice t d →
    t.vantage = vantageFor networks d.networkId ∨
      ∃ e, Found cfg decode devices d e ∧ targetName d e = t.name ∧ drifted d e t = true

section Main

variable {cfg : ProbeAutogenConfig} {decode : ServiceReader} {devices : Devices}
  {networks : Networks} {existing : ProbeTargets} {s : Sweep}

theorem allReached_iff (h : sweepAll cfg decode devices networks existing = .ok s) :
    AllReached cfg decode devices existing s ↔
      Unhidden cfg decode existing (room cfg (autos existing).length)
        (discovering cfg devices) := by
  have hreach := passes_reach (discovering_ordered cfg devices) (fun _ _ _ => not_mem_nil) h
  rw [show (start existing).autoCount = (autos existing).length from rfl] at hreach
  rw [← hreach]
  constructor
  · intro hall d hd e he hnew
    obtain ⟨t, ht⟩ := Option.isSome_iff_exists.mp (by simpa [isNew] using hnew)
    obtain ⟨ht, hname⟩ := autoByName_eq_some.mp ht
    exact hname ▸ hall t ht d e ⟨hd, he⟩ hname.symm
  · intro hall r hr d e hfound hname
    have hauto := autoByName_eq_some.mpr ⟨hr, hname.symm⟩
    exact hname ▸ hall d hfound.1 e hfound.2 (by simp [isNew, hauto])

theorem vantage_iff (hs : Progress cfg decode devices networks existing s)
    (hreached : AllReached cfg decode devices existing s) :
    (∀ t ∈ autos (park existing s).targets, ∀ d ∈ devices.rows, OfDevice t d →
        t.vantage = vantageFor networks d.networkId) ↔
      VantageFollows cfg decode devices networks existing := by
  have hsame : ∀ {t : ProbeTarget} {d d' : DeviceRow} {e : Entry}, d ∈ devices.rows →
      d' ∈ devices.rows → t.name = targetName d' e → OfDevice t d → d = d' :=
    fun hd hd' hname h => devices.eq_of_id hd hd' ((ofDevice_targetName hname).mp h)
  constructor
  · intro hall t ht d hd hof
    by_cases hmark : t.name ∈ s.desired
    · obtain ⟨d', e, hfound, hname, hmem⟩ := hs.followed ht hmark
      obtain rfl := hsame hd (mem_of_discovering hfound.1) hname hof
      have hvantage := hall _ hmem d hd (by
        rwa [OfDevice, (followRow_fixed networks d e t t).2.1])
      rw [followRow_vantage] at hvantage
      cases hdrift : drifted d e t with
      | true => exact .inr ⟨e, hfound, hname.symm, hdrift⟩
      | false => exact .inl (by simpa [hdrift] using hvantage)
    · exact .inl (hall _ (hs.parked ht hmark) d hd hof)
  · intro hall t ht d hd hof
    cases hs.ended ht with
    | parked r hr hmark h =>
      subst h
      rcases hall r hr d hd hof with hvantage | ⟨e, hfound, hname, -⟩
      · exact hvantage
      · exact absurd (hreached r hr d e hfound hname) hmark
    | followed r d' e hr hfound hname hmark h =>
      subst h
      rw [OfDevice, (followRow_fixed networks d' e r r).2.1] at hof
      obtain rfl := hsame hd (mem_of_discovering hfound.1) hname hof
      rw [followRow_vantage]
      rcases hall r hr d hd hof with hvantage | ⟨e', -, hname', hdrift⟩
      · rw [hvantage, ite_self]
      · rw [targetName_entry (hname'.trans hname)] at hdrift
        rw [if_pos hdrift]
    | made d' e hfound hmark hmade =>
      obtain rfl := hsame hd (mem_of_discovering hfound.1) hmade.name hof
      exact hmade.vantage

/-- The row that an earlier target ends as. -/
theorem enabled_iff_marked (hs : Progress cfg decode devices networks existing s)
    {t t' : ProbeTarget} (ht : t ∈ autos existing) (ht' : t' ∈ (park existing s).targets.rows)
    (hid : t'.id = t.id) : t'.enabled = true ↔ t.name ∈ s.desired := by
  by_cases hmark : t.name ∈ s.desired
  · obtain ⟨d, e, -, -, hmem⟩ := hs.followed ht hmark
    have heq := (park existing s).targets.eq_of_id ht' (mem_autos.mp hmem).1
      (hid.trans (followRow_fixed networks d e t t).1.symm)
    simp [heq, followRow_enabled, hmark]
  · have heq := (park existing s).targets.eq_of_id ht' (mem_autos.mp (hs.parked ht hmark)).1 hid
    simp [heq, toggle, hmark]

theorem reconciled_of_allReached (h : sweepAll cfg decode devices networks existing = .ok s)
    (hreached : AllReached cfg decode devices existing s)
    (hvantage : VantageFollows cfg decode devices networks existing) :
    Reconciled cfg decode devices networks existing (park existing s) := by
  have hs := sweepAll_progress h
  refine ⟨?_, ?_, ?_, (vantage_iff hs hreached).mpr hvantage, resweep h hreached⟩
  · intro t ht
    have hiff : t.name ∈ s.desired ↔
        ∃ d e, Found cfg decode devices d e ∧ targetName d e = t.name :=
      ⟨hs.marked t.name, fun ⟨d, e, hfound, hname⟩ => hreached t ht d e hfound hname⟩
    obtain ⟨t', ht', hid⟩ : ∃ t' ∈ (park existing s).targets.rows, t'.id = t.id := by
      by_cases hmark : t.name ∈ s.desired
      · obtain ⟨d, e, -, -, hmem⟩ := hs.followed ht hmark
        exact ⟨_, (mem_autos.mp hmem).1, (followRow_fixed networks d e t t).1⟩
      · exact ⟨_, (mem_autos.mp (hs.parked ht hmark)).1, rfl⟩
    exact ⟨t', ht', hid, (enabled_iff_marked hs ht ht' hid).trans hiff⟩
  · intro t ht d e hfound hname
    obtain ⟨d', e', hfound', hname', hmem⟩ := hs.followed ht (hreached t ht d e hfound hname)
    obtain ⟨rfl, rfl⟩ := targetName_inj (mem_of_discovering hfound.1)
      (mem_of_discovering hfound'.1) (hname.trans hname')
    exact ⟨_, (mem_autos.mp hmem).1, (followRow_fixed networks d e t t).1,
      followRow_plan networks d e t⟩
  · intro d e hfound
    rw [hs.park_count]
    refine (sweepAll_capped h hfound).imp_left fun hholds => ?_
    obtain ⟨t, ht⟩ := Option.ne_none_iff_exists'.mp (hs.park_holds hholds)
    exact ⟨t, autoByName_eq_some.mp ht⟩

end Main

/-- A sweep that succeeds reconciles exactly when the cap hides no service that has a target, and
every vantage already fits or is written along with a new plan. -/
theorem sweep_reconciles_iff (cfg : ProbeAutogenConfig) (decode : ServiceReader)
    (devices : Devices) (networks : Networks) (existing : ProbeTargets) (s : Sweep)
    (h : sweep cfg decode devices networks existing = .ok s) :
    Reconciled cfg decode devices networks existing s ↔
      Unhidden cfg decode existing (room cfg (autos existing).length) (discovering cfg devices) ∧
        VantageFollows cfg decode devices networks existing := by
  rw [sweep_eq] at h
  obtain ⟨u, hu, rfl⟩ : ∃ u, sweepAll cfg decode devices networks existing = .ok u ∧
      s = park existing u := by
    cases hall : sweepAll cfg decode devices networks existing with
    | error f => rw [hall] at h; cases h
    | ok u => rw [hall] at h; exact ⟨u, rfl, (Except.ok.inj h).symm⟩
  have hs := sweepAll_progress hu
  rw [← allReached_iff hu]
  constructor
  · intro hrec
    have hreached : AllReached cfg decode devices existing u := by
      intro r hr d e hfound hname
      obtain ⟨t', ht', hid, henabled⟩ := hrec.enabled r hr
      exact (enabled_iff_marked hs hr ht' hid).mp (henabled.mpr ⟨d, e, hfound, hname⟩)
    exact ⟨hreached, (vantage_iff hs hreached).mp hrec.vantage⟩
  · rintro ⟨hreached, hvantage⟩
    exact reconciled_of_allReached hu hreached hvantage

/-! ## A device with two services -/

def servingDevice (network : Option Nat) (id : Nat) : DeviceRow where
  id := id
  name := "portal"
  ipAddress := "10.0.0.5"
  status := .online
  detectedServices := "https,http"
  networkId := network
  createdAt := 0
  updatedAt := 0

def servingDevices (network : Option Nat) : Devices :=
  (Table.empty.insert (servingDevice network) fun _ => rfl).getD .empty

def bothServices : ServiceReader where
  services _ := some [⟨"https", 443⟩, ⟨"http", 80⟩]
  toLower := Text.toLower

def capAt (maxTargets : Int) : ProbeAutogenConfig := ⟨true, [], [], 300, maxTargets⟩

theorem capAt_durations (maxTargets : Int) :
    DurationsInRange (capAt maxTargets).intervalSeconds 10 :=
  show DurationsInRange 300 10 by decide

/-- The target of the second service, as an earlier sweep made it from the center. -/
def httpTargets : ProbeTargets :=
  (Table.empty.insert (newTarget (capAt 1) .empty (servingDevice none 1) ⟨"http", 80⟩
    (capAt_durations 1)) fun _ => rfl).getD .empty

theorem exists_ok_of_any {x : Except SweepFailure Sweep} {p : Sweep → Bool}
    (h : x.toOption.any p = true) : ∃ s, x = .ok s ∧ p s = true := by
  cases x with
  | error f => cases h
  | ok s => exact ⟨s, rfl, h⟩

theorem room_for_both : ∃ s,
    sweep (capAt 2) bothServices (servingDevices none) .empty httpTargets = .ok s ∧
      Reconciled (capAt 2) bothServices (servingDevices none) .empty httpTargets s := by
  obtain ⟨s, hs, -⟩ := exists_ok_of_any (p := fun _ => true)
    (x := sweep (capAt 2) bothServices (servingDevices none) .empty httpTargets)
    (by decide +kernel)
  have hdevices : discovering (capAt 2) (servingDevices none) = [servingDevice none 1] := by
    decide +kernel
  have hentries : entries (capAt 2) bothServices (servingDevice none 1) =
      [⟨"https", 443⟩, ⟨"http", 80⟩] := by decide +kernel
  refine ⟨s, hs, (sweep_reconciles_iff _ _ _ _ _ s hs).mpr ⟨?_, ?_⟩⟩
  · rw [hdevices, Unhidden, hentries]
    refine ⟨?_, trivial⟩
    rw [forall_mem_cons, forall_mem_singleton]
    exact ⟨fun hnew => absurd hnew (by decide +kernel),
      fun _ => ⟨[⟨"https", 443⟩], [], rfl, by decide +kernel⟩⟩
  · have hcenter : ∀ t ∈ autos httpTargets, ∀ d ∈ (servingDevices none).rows,
        t.vantage = vantageFor .empty d.networkId := by decide +kernel
    exact fun t ht d hd _ => .inl (hcenter t ht d hd)

/-- The cap is reached at the first service, and the target of the second is parked; the device
moved to the network of an agent, and its target is still probed from the center. -/
theorem sweep_not_reconciled :
    (∃ s, sweep (capAt 1) bothServices (servingDevices none) .empty httpTargets = .ok s ∧
      ¬ Reconciled (capAt 1) bothServices (servingDevices none) .empty httpTargets s) ∧
    (∃ s, sweep (capAt 2) bothServices (servingDevices (some 1)) (boundTo ["a1"]) httpTargets =
        .ok s ∧
      ¬ Reconciled (capAt 2) bothServices (servingDevices (some 1)) (boundTo ["a1"]) httpTargets s)
    := by
  constructor
  · obtain ⟨s, hs, hparked⟩ := exists_ok_of_any (p := fun s => s.targets.rows.all (!·.enabled))
      (x := sweep (capAt 1) bothServices (servingDevices none) .empty httpTargets)
      (by decide +kernel)
    refine ⟨s, hs, fun hrec => ?_⟩
    obtain ⟨t, ht, -, henabled⟩ := hrec.enabled (newTarget (capAt 1) .empty (servingDevice none 1)
      ⟨"http", 80⟩ (capAt_durations 1) 1) (by decide +kernel)
    have hdisabled := all_eq_true.mp hparked t ht
    rw [henabled.mpr ⟨servingDevice none 1, ⟨"http", 80⟩, ⟨by decide +kernel, by decide +kernel⟩,
      rfl⟩] at hdisabled
    cases hdisabled
  · obtain ⟨s, hs, hcenter⟩ := exists_ok_of_any (p := fun s => (autos s.targets).any fun t =>
        OfDevice t (servingDevice (some 1) 1) && t.vantage = .center)
      (x := sweep (capAt 2) bothServices (servingDevices (some 1)) (boundTo ["a1"]) httpTargets)
      (by decide +kernel)
    refine ⟨s, hs, fun hrec => ?_⟩
    obtain ⟨t, ht, hboth⟩ := any_eq_true.mp hcenter
    simp only [Bool.and_eq_true, decide_eq_true_eq] at hboth
    have hvantage := hrec.vantage t ht (servingDevice (some 1) 1) (by decide +kernel) hboth.1
    rw [hboth.2] at hvantage
    exact absurd hvantage (by decide +kernel)

end Steward.Probe
