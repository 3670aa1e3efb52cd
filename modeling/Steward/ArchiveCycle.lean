import Steward.ArchiveLifecycle

/-!
# The learned cycle of a returning device

The expiry measures the absence of a periodic device from the last appearance
in its events. Appearances are recorded for archived devices only, so that a
device which the learner took out of the archive leaves no further trace of its
returns, and its pattern expires while it keeps coming back.
-/

namespace Steward.Archive

open RowTable Programs Prog

def isClearing (event : EventKind) (_ : Trigger) : Bool := event = .patternCleared

/-- The flag stays set, no clearing is recorded, and a device in the library stays there. -/
structure Kept (a b : Asset) : Prop where
  periodic : b.row.periodic = true
  clearings : b.recorded isClearing = a.recorded isClearing
  live : a.row.archivedAt = none → b.row.archivedAt = none

namespace Asset

variable {a : Asset} {cfg : ArchiveConfig} {now : Nat}

theorem settled_recorded {q : EventKind → Trigger → Bool}
    (hrestore : q .restored .autoRestore = false) (hblip : q .onlineBlip .autoRestore = false) :
    (a.settled cfg now).recorded q = a.recorded q := by
  have hrestored : ∀ b : Asset, (b.restore cfg now).recorded q = b.recorded q := by
    intro b
    unfold restore
    split
    · rfl
    · rw [restored, log_recorded, hrestore]
      rfl
  have hblipped : ∀ b : Asset, (b.blip now).recorded q = b.recorded q := by
    intro b
    rw [blip, log_recorded, hblip]
    rfl
  rw [settled, pass_same (recorded q) (hblipped _), pass_same (recorded q) (hrestored _)]
  simp [stampOnline, apply, recorded]

theorem settled_periodic : (a.settled cfg now).row.periodic = a.row.periodic := by
  have hrestored : ∀ b : Asset, (b.restore cfg now).row.periodic = b.row.periodic := by
    intro b
    unfold restore
    split <;> rfl
  obtain ⟨onlineSince, hrow⟩ := a.stampOnline_row now
  refine (pass_same (·.row.periodic) rfl).trans ?_
  refine (pass_same (·.row.periodic) (hrestored _)).trans ?_
  rw [hrow]

/-- A tick records the clearing of a stale pattern. -/
theorem tick_clearings :
    (a.tick cfg now).recorded isClearing = (a.expired now).recorded isClearing := by
  rw [tick_eq, settled_recorded rfl rfl, aged_swept_recorded rfl rfl rfl]

variable (hp : a.row.periodic = true) (hx : exemptionActive cfg (thresholdDays cfg a.row) = true)

include hp hx

/-- The tick of a sheltered device that stays where it is. -/
theorem tick_sheltered (hfresh : a.expired now = a)
    (hstay : a.row.archivedAt = none ∨ a.cycle? cfg now = none) :
    a.tick cfg now = a.settled cfg now := by
  have hswept : a.swept cfg now = a := by
    rcases hstay with hlive | hc
    · rw [swept_live hlive, hfresh]
    · rw [swept_filed hc, hfresh]
  rw [tick_eq, hswept, aged_exempt hp hx]

/-- A tick keeps the flag of a sheltered device exactly when the pattern is not stale. -/
theorem tick_kept_iff :
    Kept a (a.tick cfg now) ↔ ¬ a.Stale now := by
  rcases a.expired_cases now with ⟨hsame, hfresh⟩ | ⟨hstale, hexp⟩
  · refine ⟨fun _ => hfresh, fun _ => ⟨?_, ?_, ?_⟩⟩
    · cases hc : a.cycle? cfg now with
      | none => rw [tick_sheltered hp hx hsame (.inr hc), settled_periodic, hp]
      | some cycle =>
        cases harch : a.row.archivedAt with
        | none => rw [tick_sheltered hp hx hsame (.inl harch), settled_periodic, hp]
        | some t => rw [tick_found (by rw [harch]; rfl) hc]; rfl
    · rw [tick_clearings, hsame]
    · intro hlive
      rw [tick_sheltered hp hx hsame (.inl hlive), settled_live hlive, hlive]
  · refine ⟨fun hkept => ?_, fun hfresh => absurd hstale hfresh⟩
    have hcount := hkept.clearings
    rw [tick_clearings, hexp, log_recorded] at hcount
    simp [isClearing, recorded] at hcount

end Asset

/-! ## Runs -/

/-- No tick clears the flag of a device or archives it. -/
def Keeps (cfg : ArchiveConfig) (d : Nat) (s : Store) : Event → Prop
  | .call (.tick overlay) =>
    ∀ a ∈ s.asset d, ∀ b ∈ (s.step cfg (.call (.tick overlay))).asset d, Kept a b
  | _ => True

/-- The learner is enabled, the threshold of the device is below the cap, and no one acts on the
device by hand. -/
def Sheltered (cfg : ArchiveConfig) (d : Nat) (s : Store) : Event → Prop
  | .call (.tick overlay) =>
    ∀ r ∈ s.devices.get? d,
      exemptionActive (effectiveCfg cfg overlay) (thresholdDays (effectiveCfg cfg overlay) r) = true
  | .call (.archive i _) | .call (.restore i _) | .call (.setPin i _) | .call (.setThreshold i _) =>
    i ≠ d
  | .status .. | .pass _ => True

/-- A tick that finds the device offline comes at most two cycles after its last recorded
appearance. -/
def Fresh (d : Nat) (s : Store) : Event → Prop
  | .call (.tick _) =>
    ∀ r ∈ s.devices.get? d, r.status = .offline →
      ∀ last ∈ lastAppearance (s.listDeviceArchiveEvents d), s.clock ≤ last + 2 * r.periodicCycle
  | _ => True

variable {s : Store} {d : Nat} {cfg : ArchiveConfig} {a : Asset} {e : Event}

theorem fresh_iff_not_stale (h : s.asset d = some a) (hp : a.row.periodic = true)
    (overlay : Option ArchiveConfig) : Fresh d s (.call (.tick overlay)) ↔ ¬ a.Stale s.clock := by
  have hevents := Store.asset_events h
  rw [Store.asset_id h] at hevents
  simp only [Fresh, Store.get?_of_asset h, hevents, Option.mem_def, Option.some.injEq,
    forall_eq', Asset.Stale, hp, true_and]
  constructor
  · rintro hfresh ⟨hoff, last, hlast, hlt⟩
    have := hfresh hoff last hlast
    omega
  · intro hfresh hoff last hlast
    by_contra hlt
    exact hfresh ⟨hoff, last, hlast, by omega⟩

/-- The flag is set when the device is there. -/
def Flagged (d : Nat) (s : Store) : Prop := ∀ a ∈ s.asset d, a.row.periodic = true

/-- An event that is no tick and no action on the device leaves the flag as it is. -/
theorem Flagged.step (hflag : Flagged d s) (hshelter : Sheltered cfg d s e)
    (htick : ∀ overlay, e ≠ .call (.tick overlay)) : Flagged d (s.step cfg e) := by
  intro b hb
  rw [Option.mem_def, asset_step] at hb
  obtain ⟨a, ha, rfl⟩ := Option.map_eq_some_iff.mp hb
  have hp := hflag a ha
  cases e with
  | call c =>
    cases c with
    | tick overlay => exact absurd rfl (htick overlay)
    | _ i =>
      have hne : a.row.id ≠ i := by rw [Store.asset_id ha]; exact Ne.symm hshelter
      simp [Asset.step, Asset.call, Asset.on, hne, hp]
  | status i status offlineSince =>
    simp only [Asset.step, Asset.on]
    split <;> exact hp
  | pass seconds => exact hp

theorem keeps_tick_iff {overlay : Option ArchiveConfig} (h : s.asset d = some a) :
    Keeps cfg d s (.call (.tick overlay)) ↔ Kept a (a.tick (effectiveCfg cfg overlay) s.clock) := by
  simp [Keeps, asset_tick h, h]

theorem keeps_iff_fresh (hflag : Flagged d s) (hshelter : Sheltered cfg d s e) :
    (Keeps cfg d s e ↔ Fresh d s e) ∧ (Keeps cfg d s e → Flagged d (s.step cfg e)) := by
  by_cases htick : ∃ overlay, e = .call (.tick overlay)
  · obtain ⟨overlay, rfl⟩ := htick
    cases ha : s.asset d with
    | none =>
      have hget : s.devices.get? d = none := Option.map_eq_none_iff.mp ha
      have hnone : (s.step cfg (.call (.tick overlay))).asset d = none := by
        rw [asset_step, ha, Option.map_none]
      simp [Keeps, Fresh, Flagged, ha, hget, hnone]
    | some a =>
      have hp := hflag a ha
      have hx := hshelter a.row (Store.get?_of_asset ha)
      rw [keeps_tick_iff ha, fresh_iff_not_stale ha hp]
      refine ⟨Asset.tick_kept_iff hp hx, fun hkept b hb => ?_⟩
      rw [Option.mem_def, asset_tick ha, Option.some.injEq] at hb
      rw [← hb]
      exact hkept.periodic
  · have hnone : ∀ overlay, e ≠ .call (.tick overlay) := fun overlay he => htick ⟨overlay, he⟩
    refine ⟨?_, fun _ => hflag.step hshelter hnone⟩
    cases e with
    | call c =>
      cases c with
      | tick overlay => exact absurd rfl (hnone overlay)
      | _ => exact Iff.rfl
    | _ => exact Iff.rfl

variable (cfg)

/-- Ticks keep the flag of a sheltered device and keep it in the library exactly when every tick
that finds it offline comes within two cycles of its last recorded appearance. -/
theorem periodic_kept_iff_fresh (d : Nat) (s : Store) (events : List Event)
    (hflag : ∀ r ∈ s.devices.get? d, r.periodic = true)
    (hshelter : Runs.Along (Store.step cfg) (Sheltered cfg d) s events) :
    Runs.Along (Store.step cfg) (Keeps cfg d) s events ↔
      Runs.Along (Store.step cfg) (Fresh d) s events := by
  refine Runs.along_iff (P := Flagged d) (fun _ _ => keeps_iff_fresh) ?_ hshelter
  intro a ha
  exact hflag a.row (Store.get?_of_asset ha)

/-! ## A device that keeps returning -/

/-- The clock at the events that a mark selects. -/
def clocksOf (mark : Store → Event → Bool) (s : Store) (events : List Event) :
    List Nat :=
  ((Runs.trace (Store.step cfg) (fun t e => (mark t e, t.clock)) s events).filter fun e =>
    e.2.1).map fun e => e.2.2

/-- An online episode starts. -/
def comesOnline (d : Nat) (s : Store) : Event → Bool
  | .status i .online _ => i = d && (s.devices.get? d).any fun r => r.status ≠ .online
  | _ => false

/-- A tick sees the device online. -/
def seenOnline (d : Nat) (s : Store) : Event → Bool
  | .call (.tick _) => (s.devices.get? d).any fun r => r.status = .online
  | _ => false

/-- The online episodes start at most `gap` apart, from the start of the run to its end, and a tick
sees each of them. -/
def Returning (d gap : Nat) (s : Store) (events : List Event) : Prop :=
  let ends := (Runs.run (Store.step cfg) s events).clock
  let starts := clocksOf cfg (comesOnline d) s events ++ [ends]
  (s.clock :: starts).IsChain (fun a b => b ≤ a + gap) ∧
    starts.IsChain fun a b => ∃ t ∈ clocksOf cfg (seenOnline d) s events, a ≤ t ∧ t ≤ b

instance (a b : Asset) : Decidable (Kept a b) :=
  decidable_of_iff (b.row.periodic = true ∧ b.recorded isClearing = a.recorded isClearing ∧
    (a.row.archivedAt = none → b.row.archivedAt = none))
    ⟨fun h => ⟨h.1, h.2.1, h.2.2⟩, fun h => ⟨h.periodic, h.clearings, h.live⟩⟩

variable (d) (s)

instance : (e : Event) → Decidable (Keeps cfg d s e)
  | .call (.tick _) => by unfold Keeps; infer_instance
  | .call (.archive ..) | .call (.restore ..) | .call (.setPin ..) | .call (.setThreshold ..)
  | .status .. | .pass _ => isTrue trivial

instance : (e : Event) → Decidable (Sheltered cfg d s e)
  | .call (.tick _) | .call (.archive ..) | .call (.restore ..) | .call (.setPin ..)
  | .call (.setThreshold ..) => by unfold Sheltered; infer_instance
  | .status .. | .pass _ => isTrue trivial

variable {cfg}

instance : (e : Event) → Decidable (Fresh d s e)
  | .call (.tick _) => by unfold Fresh; infer_instance
  | .call (.archive ..) | .call (.restore ..) | .call (.setPin ..) | .call (.setThreshold ..)
  | .status .. | .pass _ => isTrue trivial

variable {d s}

/-- The store after the learner took a monthly visitor out of the archive. -/
def visitorStore : Store :=
  Runs.run (Store.step {}) officeStore
    [[.call (.archive 1 "")], monthlyVisit, monthlyVisit, monthlyVisit,
      [.call (.tick none)]].flatten

theorem visits_kept_two_cycles :
    Runs.Along (Store.step {}) (Keeps {} 1) visitorStore (monthlyVisit ++ monthlyVisit) :=
  (periodic_kept_iff_fresh {} 1 visitorStore (monthlyVisit ++ monthlyVisit)
    (by decide +kernel) (by decide +kernel)).mpr (by decide +kernel)

/-- A device that goes on returning every month loses its flag after two months. -/
theorem returning_visitor_forgotten :
    (visitorStore.devices.get? 1).map (fun r => (r.periodic, r.periodicCycle, r.archivedAt)) =
        some (true, 31 * day, none) ∧
      Runs.Along (Store.step {}) (Sheltered {} 1) visitorStore
        (monthlyVisit ++ monthlyVisit ++ monthlyVisit ++ monthlyVisit) ∧
      Returning {} 1 (2 * (31 * day)) visitorStore
        (monthlyVisit ++ monthlyVisit ++ monthlyVisit ++ monthlyVisit) ∧
      ¬ Runs.Along (Store.step {}) (Keeps {} 1) visitorStore
        (monthlyVisit ++ monthlyVisit ++ monthlyVisit ++ monthlyVisit) := by
  refine ⟨by decide +kernel, by decide +kernel, ?_, by decide +kernel⟩
  unfold Returning
  decide +kernel

end Steward.Archive
