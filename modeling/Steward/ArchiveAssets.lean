import Steward.Archive

/-!
# One device of the archive

What the store holds of one device, its row and its own events, runs by itself:
every statement acts on it alone, and a tick of the store is, for each device,
the passes of the tick one after another.
-/

namespace Steward.Archive

open RowTable Programs Prog

structure Asset where
  row : AssetRow
  events : List ArchiveEvent := []
  deriving DecidableEq

def Store.asset (s : Store) (d : Nat) : Option Asset :=
  (s.devices.get? d).map fun r => ⟨r, s.events.filter fun e => e.deviceId = d⟩

variable {s : Store} {d : Nat} {a : Asset}

theorem Store.get?_of_asset (h : s.asset d = some a) : s.devices.get? d = some a.row := by
  obtain ⟨r, hr, rfl⟩ := Option.map_eq_some_iff.mp h
  exact hr

theorem Store.asset_id (h : s.asset d = some a) : a.row.id = d := by
  exact Table.id_of_get? (get?_of_asset h)

theorem Store.asset_of_mem {r : AssetRow} (h : r ∈ s.devices.rows) :
    s.asset r.id = some ⟨r, s.events.filter fun e => e.deviceId = r.id⟩ := by
  have hget : s.devices.get? r.id = some r := Table.get?_of_mem h
  rw [Store.asset, hget, Option.map_some]

theorem Store.asset_events (h : s.asset d = some a) :
    s.listDeviceArchiveEvents a.row.id = chronological a.events := by
  have hid := asset_id h
  obtain ⟨r, hr, rfl⟩ := Option.map_eq_some_iff.mp h
  rw [hid]
  rfl

/-! ## Statements -/

/-- What a statement does to one device. -/
def Asset.apply (op : Statement) (a : Asset) : Asset where
  row := if op.selects a.row then op.set a.row else a.row
  events := a.events ++ op.logged.filter fun e => e.deviceId = a.row.id

theorem Store.asset_apply (op : Statement) (s : Store) (d : Nat) :
    (s.apply op).asset d = (s.asset d).map (Asset.apply op) := by
  unfold Store.asset Store.apply
  rw [Table.get?_modifyWhere]
  cases hr : s.devices.get? d with
  | none => rfl
  | some r =>
    have hid : r.id = d := Table.id_of_get? hr
    simp [Asset.apply, hid]

/-- The statement is about another device. -/
@[simp] def Statement.spares (d : Nat) : Statement → Prop
  | insertArchiveEvent e => e.deviceId ≠ d
  | stampArchivedOnlineSince _ => False
  | archiveDevice i _ | restoreArchivedDevice i | clearOnlineSince i | setDeviceArchivePin i _
  | setDevicePeriodic i _ _ | updateArchiveThresholdOverride i _ => i ≠ d

variable {op : Statement}

theorem Asset.apply_other (h : op.spares a.row.id) : a.apply op = a := by
  cases op with
  | stampArchivedOnlineSince now => exact h.elim
  | insertArchiveEvent e =>
    have hne : ¬ e.deviceId = a.row.id := h
    simp [Asset.apply, hne]
  | _ => simp [Asset.apply, Ne.symm h]

theorem Store.asset_apply_other (h : op.spares d) (s : Store) :
    (s.apply op).asset d = s.asset d := by
  rw [asset_apply]
  cases ha : s.asset d with
  | none => rfl
  | some a =>
    rw [← asset_id ha] at h
    rw [Option.map_some, Asset.apply_other h]

theorem Store.after_clock {ρ : Type} (p : Task ρ) (s : Store) :
    (p.after Store.apply s).clock = s.clock :=
  (issues_any p).frame Store.apply Store.clock (fun _ _ _ => rfl) s

/-! ## The passes on one device -/

namespace Asset

def log (a : Asset) (event : EventKind) (triggeredBy : Trigger) (detail : Detail) (now : Nat) :
    Asset :=
  { a with events := a.events ++ [⟨a.row.id, event, triggeredBy, detail, now⟩] }

/-- The flag with its event. -/
def learned (cycle now : Nat) (a : Asset) : Asset :=
  { a with row := { a.row with periodic := true, periodicCycle := cycle } }.log
    .patternLearned .pattern (.cycle cycle) now

variable (triggeredBy : Trigger) (detail : Detail) (now : Nat)

def archived (a : Asset) : Asset :=
  { a with row := { a.row with archivedAt := some now, onlineSince := none } }.log
    .archived triggeredBy detail now

def restored (a : Asset) : Asset :=
  { a with row := { a.row with archivedAt := none, onlineSince := none } }.log
    .restored triggeredBy detail now

def expire (now : Nat) (a : Asset) : Asset :=
  match lastAppearance (chronological a.events) with
  | none => a
  | some last =>
    if a.row.status = .offline ∧ last + 2 * a.row.periodicCycle < now then
      { a with row := { a.row with periodic := false, periodicCycle := 0 } }.log
        .patternCleared .pattern (.reason "absent_beyond_2x_cycle") now
    else a

variable (cfg : ArchiveConfig) (now : Nat)

/-- The cycle that the learner finds for a device, its threshold permitting. -/
def cycle? (a : Asset) : Option Nat :=
  if exemptionActive cfg (thresholdDays cfg a.row) then
    recognize cfg (appearance (chronological a.events)) now
  else none

def learn (a : Asset) : Asset :=
  match a.cycle? cfg now with
  | none => a
  | some cycle => (a.learned cycle now).restored .pattern (.cycle cycle) now

/-- Whether a candidate stays, and what is learned on the way. -/
def evaluate (a : Asset) : Bool × Asset :=
  if a.row.periodic then (exemptionActive cfg (thresholdDays cfg a.row), a)
  else
    match a.cycle? cfg now with
    | none => (false, a)
    | some cycle => (true, a.learned cycle now)

theorem evaluate_same {cfg : ArchiveConfig} {now : Nat} {a : Asset}
    (h : (a.evaluate cfg now).1 = false) : (a.evaluate cfg now).2 = a := by
  unfold evaluate at h ⊢
  split
  · rfl
  · split <;> simp_all

def autoArchive (a : Asset) : Asset :=
  if !overdue (thresholdDays cfg a.row) now a.row then a
  else if (a.evaluate cfg now).1 then (a.evaluate cfg now).2
  else
    a.archived .autoOffline (.offline (thresholdDays cfg a.row) (a.row.macAddress ≠ "")) now

def stampOnline (now : Nat) (a : Asset) : Asset := a.apply (.stampArchivedOnlineSince now)

def restore (a : Asset) : Asset :=
  if a.row.archivePin = .forceArchive ∨ onlineLongEnough cfg now a.row = false then a
  else a.restored .autoRestore (.onlineMinutes (onlineMinutes now a.row)) now

def blip (now : Nat) (a : Asset) : Asset :=
  { a with row := { a.row with onlineSince := none } }.log
    .onlineBlip .autoRestore (.onlineMinutes (onlineMinutes now a.row)) now

end Asset

section Passes

variable {s : Store} {d : Nat} {a : Asset} (cfg : ArchiveConfig) (now : Nat)
  (h : s.asset d = some a)

include h

theorem expireDevice_own :
    ((expireDevice now a.row).after Store.apply s).asset d = some (a.expire now) := by
  simp only [after, expireDevice, exec_bind, exec_query, Store.asset_events h, Asset.expire]
  cases lastAppearance (chronological a.events) with
  | none => exact h
  | some last =>
    by_cases hstale : a.row.status = .offline ∧ last + 2 * a.row.periodicCycle < now
    · simp [hstale, clearPattern, insertEvent, Store.asset_apply, h, Asset.apply, Asset.log]
    · simp only [hstale, if_false]
      exact h

theorem learnDevice_own (harch : a.row.archivedAt.isSome) :
    ((learnDevice cfg now a.row).after Store.apply s).asset d = some (a.learn cfg now) := by
  unfold after learnDevice Asset.learn Asset.cycle?
  cases exemptionActive cfg (thresholdDays cfg a.row) with
  | false => exact h
  | true =>
    simp only [exec_bind, exec_query, Store.asset_events h, Bool.not_true, Bool.false_eq_true,
      if_false, if_true]
    cases recognize cfg (appearance (chronological a.events)) now with
    | none => exact h
    | some cycle =>
      simp [setPeriodic, insertEvent, Store.asset_apply, h, harch, Asset.apply, Asset.log,
        Asset.learned, Asset.restored]

theorem evaluateDevice_own :
    ∃ t : Store, t.asset d = some (a.evaluate cfg now).2 ∧
      (evaluateDevice a.row.id (thresholdDays cfg a.row) a.row.periodic cfg now).exec
        Store.apply s = ((a.evaluate cfg now).1, t) := by
  unfold evaluateDevice Asset.evaluate Asset.cycle? exemptionActive
  cases cfg.smart.disabled with
  | true =>
    cases a.row.periodic <;> simp [h]
  | false =>
    cases a.row.periodic with
    | true => exact ⟨s, h, by simp⟩
    | false =>
      by_cases hcap : thresholdDays cfg a.row < cfg.smart.maxThresholdDays
      · simp only [hcap, decide_true, Bool.not_false, Bool.and_true, Bool.not_true,
          Bool.false_eq_true, if_false, if_true, exec_bind, exec_query, Store.asset_events h]
        cases recognize cfg (appearance (chronological a.events)) now with
        | none => exact ⟨s, h, rfl⟩
        | some cycle =>
          refine ⟨_, ?_, rfl⟩
          simp [Store.asset_apply, h, Asset.apply, Asset.log, Asset.learned]
      · exact ⟨s, by simp [hcap, h], by simp [hcap]⟩

theorem archiveCandidate_own (hlive : a.row.archivedAt = none) :
    ((archiveCandidate cfg now a.row).after Store.apply s).asset d =
      some (a.autoArchive cfg now) := by
  obtain ⟨t, ht, hexec⟩ := evaluateDevice_own cfg now h
  unfold after archiveCandidate Asset.autoArchive
  cases overdue (thresholdDays cfg a.row) now a.row with
  | false => exact h
  | true =>
    simp only [exec_bind, hexec, Bool.not_true, Bool.false_eq_true, if_false]
    cases hstay : (a.evaluate cfg now).1 with
    | true => exact ht
    | false =>
      have hsame : (a.evaluate cfg now).2 = a := Asset.evaluate_same hstay
      rw [hsame] at ht
      simp [insertEvent, Store.asset_apply, ht, hlive, Asset.apply, Asset.log, Asset.archived]

theorem restoreDevice_own (harch : a.row.archivedAt.isSome) :
    ((restoreDevice cfg now a.row).after Store.apply s).asset d = some (a.restore cfg now) := by
  unfold after restoreDevice Asset.restore
  split
  · exact h
  · simp [insertEvent, Store.asset_apply, h, harch, Asset.apply, Asset.log, Asset.restored]

theorem blipDevice_own :
    ((blipDevice now a.row).after Store.apply s).asset d = some (a.blip now) := by
  simp [after, blipDevice, insertEvent, Store.asset_apply, h, Asset.apply, Asset.log, Asset.blip]

end Passes

section Loops

variable {body : AssetRow → Task Unit} {f : Asset → Asset} {p : AssetRow → Bool} {s : Store}
  {d : Nat}

theorem asset_of_spares {ρ : Type} {prog : Task ρ} (h : prog.Issues (Statement.spares d))
    (s : Store) : (prog.after Store.apply s).asset d = s.asset d :=
  h.frame Store.apply (fun s => s.asset d) (fun _ s hop => Store.asset_apply_other hop s) s

/-- A loop over other devices. -/
theorem asset_loop_others (other : ∀ r : AssetRow, r.id ≠ d → (body r).Issues (Statement.spares d))
    (rows : List AssetRow) (h : ∀ r ∈ rows, r.id ≠ d) :
    (Runs.run (fun t r => (body r).after Store.apply t) s rows).asset d = s.asset d := by
  have hstep : ∀ (t : Store) (r : AssetRow), t.asset d = s.asset d → r.id ≠ d →
      ((body r).after Store.apply t).asset d = s.asset d := by
    intro t r ht hr
    exact (asset_of_spares (other r hr) t).trans ht
  exact Runs.run_invariant (P := fun t => t.asset d = s.asset d) hstep rfl
    (Runs.along_of_forall _ s rows h)

/-- A pass over the rows that a query selects acts on each device by itself. -/
theorem asset_pass
    (own : ∀ (s : Store) (a : Asset), s.asset d = some a → p a.row = true →
      ((body a.row).after Store.apply s).asset d = some (f a))
    (other : ∀ r : AssetRow, r.id ≠ d → (body r).Issues (Statement.spares d)) (s : Store) :
    ((forEach body (s.devices.rows.filter p)).after Store.apply s).asset d =
      (s.asset d).map fun a => if p a.row then f a else a := by
  rw [after_forEach]
  have hord : (s.devices.rows.filter p).Pairwise fun a b => a.id < b.id :=
    s.devices.ordered.filter p
  by_cases hmem : ∃ r ∈ s.devices.rows.filter p, r.id = d
  · obtain ⟨r, hr, hid⟩ := hmem
    obtain ⟨hrow, hp⟩ := List.mem_filter.mp hr
    -- The device's turn comes once; before and after it the loop is about others.
    obtain ⟨before, after, hsplit⟩ := List.append_of_mem hr
    rw [hsplit, List.pairwise_append, List.pairwise_cons] at hord
    have hbefore : ∀ b ∈ before, b.id ≠ d := by
      intro b hb
      have := hord.2.2 b hb r (by simp)
      omega
    have hafter : ∀ b ∈ after, b.id ≠ d := by
      intro b hb
      have := hord.2.1.1 b hb
      omega
    have hasset := Store.asset_of_mem hrow
    rw [hid] at hasset
    have hfirst := asset_loop_others (s := s) other before hbefore
    rw [hasset] at hfirst
    rw [hsplit, Runs.run, List.foldl_append, List.foldl_cons]
    refine (asset_loop_others other after hafter).trans ?_
    rw [hasset, Option.map_some, if_pos hp]
    exact own _ _ hfirst hp
  · have hothers : ∀ r ∈ s.devices.rows.filter p, r.id ≠ d := fun r hr hid => hmem ⟨r, hr, hid⟩
    rw [asset_loop_others other _ hothers]
    cases hasset : s.asset d with
    | none => rfl
    | some a =>
      obtain ⟨r, hr, rfl⟩ := Option.map_eq_some_iff.mp hasset
      have hp : ¬ p r = true := fun hp =>
        hothers r (List.mem_filter.mpr ⟨Table.mem_of_get? hr, hp⟩) (Table.id_of_get? hr)
      simp [hp]

end Loops

/-! ## What a pass leaves alone -/

section Spares

variable {i d : Nat} (now : Nat) (cfg : ArchiveConfig)

theorem setPeriodic_spares (h : i ≠ d) (cycle : Nat) :
    (setPeriodic i cycle now).Issues (Statement.spares d) :=
  (issues_issue h).bind fun _ => issues_issue h

variable {r : AssetRow}

theorem expireDevice_spares (h : r.id ≠ d) : (expireDevice now r).Issues (Statement.spares d) := by
  refine (issues_query _).bind fun events => ?_
  split
  · exact issues_pure ()
  · split
    · exact (issues_issue h).bind fun _ => issues_issue h
    · exact issues_pure ()

theorem learnDevice_spares (h : r.id ≠ d) :
    (learnDevice cfg now r).Issues (Statement.spares d) := by
  unfold learnDevice
  split
  · exact issues_pure ()
  · refine (issues_query _).bind fun events => ?_
    split
    · exact issues_pure ()
    · refine (setPeriodic_spares now h _).bind fun _ => ?_
      exact (issues_issue h).bind fun _ => issues_issue h

theorem evaluateDevice_spares (h : i ≠ d) (thresholdDays : Nat) (periodic : Bool) :
    (evaluateDevice i thresholdDays periodic cfg now).Issues (Statement.spares d) := by
  unfold evaluateDevice
  split
  · exact issues_pure _
  · split
    · exact issues_pure _
    · split
      · exact issues_pure _
      · refine (issues_query _).bind fun events => ?_
        split
        · exact issues_pure _
        · exact (setPeriodic_spares now h _).bind fun _ => issues_pure _

theorem archiveCandidate_spares (h : r.id ≠ d) :
    (archiveCandidate cfg now r).Issues (Statement.spares d) := by
  unfold archiveCandidate
  split
  · exact issues_pure ()
  · refine (evaluateDevice_spares now cfg h _ _).bind fun exempt => ?_
    split
    · exact issues_pure ()
    · exact (issues_issue h).bind fun _ => issues_issue h

theorem restoreDevice_spares (h : r.id ≠ d) :
    (restoreDevice cfg now r).Issues (Statement.spares d) := by
  unfold restoreDevice
  split
  · exact issues_pure ()
  · exact (issues_issue h).bind fun _ => issues_issue h

theorem blipDevice_spares (h : r.id ≠ d) : (blipDevice now r).Issues (Statement.spares d) :=
  (issues_issue h).bind fun _ => issues_issue h

end Spares

/-! ## A tick -/

/-- A pass on one device: the query selects it or not. -/
def Asset.pass (p : AssetRow → Bool) (f : Asset → Asset) (a : Asset) : Asset :=
  if p a.row then f a else a

def Asset.tick (cfg : ArchiveConfig) (now : Nat) (a : Asset) : Asset :=
  a |>.pass AssetRow.periodic (expire now)
    |>.pass AssetRow.isArchived (learn cfg now)
    |>.pass AssetRow.isAutoArchiveCandidate (autoArchive cfg now)
    |>.stampOnline now
    |>.pass AssetRow.isArchivedOnline (restore cfg now)
    |>.pass AssetRow.isArchivedOnlineBroken (blip now)

section Tick

variable (cfg : ArchiveConfig) (s : Store) (d : Nat)

theorem asset_patternSweep :
    ((patternSweep cfg).after Store.apply s).asset d =
      (s.asset d).map fun a => (a.pass AssetRow.periodic (Asset.expire s.clock)).pass
        AssetRow.isArchived (Asset.learn cfg s.clock) := by
  have hexpire : ((forEach (expireDevice s.clock) s.listPeriodicDeviceStates).after
      Store.apply s).asset d =
      (s.asset d).map (Asset.pass AssetRow.periodic (Asset.expire s.clock)) :=
    asset_pass (fun _ _ ha _ => expireDevice_own s.clock ha)
      (fun _ hr => expireDevice_spares s.clock hr) s
  have hlearn : ∀ t : Store, ((forEach (learnDevice cfg s.clock)
      t.listArchivedDeviceOverrides).after Store.apply t).asset d =
      (t.asset d).map (Asset.pass AssetRow.isArchived (Asset.learn cfg s.clock)) :=
    asset_pass (fun _ _ ha hp => learnDevice_own cfg s.clock ha hp)
      (fun _ hr => learnDevice_spares s.clock cfg hr)
  simp only [patternSweep, after_bind, exec_query, after_query]
  cases hoff : cfg.smart.disabled with
  | true =>
    have hsame : ∀ a : Asset, a.learn cfg s.clock = a := by
      simp [Asset.learn, Asset.cycle?, exemptionActive, hoff]
    simp only [if_true, after_pure, hexpire, Asset.pass, hsame, ite_self]
    rfl
  | false =>
    simp only [Bool.false_eq_true, if_false, after_bind, exec_query, after_query, hlearn, hexpire,
      Option.map_map]
    rfl

theorem asset_autoArchive :
    ((autoArchive cfg).after Store.apply s).asset d =
      (s.asset d).map
        (Asset.pass AssetRow.isAutoArchiveCandidate (Asset.autoArchive cfg s.clock)) := by
  apply asset_pass
  · intro t a ha hp
    have hlive : a.row.archivedAt = none := by
      simp_all [AssetRow.isAutoArchiveCandidate]
    exact archiveCandidate_own cfg s.clock ha hlive
  · exact fun r hr => archiveCandidate_spares s.clock cfg hr

theorem asset_stampOnline :
    (stampOnline.after Store.apply s).asset d = (s.asset d).map (Asset.stampOnline s.clock) := by
  exact Store.asset_apply _ s d

theorem asset_restoreCheck :
    ((restoreCheck cfg).after Store.apply s).asset d =
      (s.asset d).map (Asset.pass AssetRow.isArchivedOnline (Asset.restore cfg s.clock)) := by
  apply asset_pass
  · intro t a ha hp
    have harch : a.row.archivedAt.isSome := by
      simp_all [AssetRow.isArchivedOnline, AssetRow.isArchived]
    exact restoreDevice_own cfg s.clock ha harch
  · exact fun r hr => restoreDevice_spares s.clock cfg hr

theorem asset_blipCheck :
    (blipCheck.after Store.apply s).asset d =
      (s.asset d).map (Asset.pass AssetRow.isArchivedOnlineBroken (Asset.blip s.clock)) := by
  apply asset_pass
  · exact fun t a ha _ => blipDevice_own s.clock ha
  · exact fun r hr => blipDevice_spares s.clock hr

/-- A tick of the engine runs on every device by itself. -/
theorem asset_runOnce :
    ((runOnce cfg).after Store.apply s).asset d = (s.asset d).map (Asset.tick cfg s.clock) := by
  simp only [runOnce, after_bind, asset_blipCheck, asset_restoreCheck, asset_stampOnline,
    asset_autoArchive, asset_patternSweep, Store.after_clock, Option.map_map]
  rfl

end Tick

/-! ## Every event -/

/-- The row with one of its columns written by hand. -/
def Asset.pinned (pin : ArchivePin) (now : Nat) (a : Asset) : Asset :=
  { a with row := { a.row with archivePin := pin } }.log
    (if pin = ArchivePin.none then .pinCleared else .pinSet) .manual (.pin pin) now

def Asset.archiveManually (reason : String) (now : Nat) (a : Asset) : Asset :=
  if a.row.archivedAt = none then a.archived .manual (.reason reason) now else a

def Asset.restoreManually (force : Bool) (now : Nat) (a : Asset) : Asset :=
  if a.row.archivedAt = none then a
  else if a.row.archivePin = .forceArchive then
    if !force then a else (a.pinned .none now).restored .manual .empty now
  else a.restored .manual .empty now

def Asset.setPinText (text : String) (now : Nat) (a : Asset) : Asset :=
  match ArchivePin.ofText text with
  | none => a
  | some pin => a.pinned pin now

def Asset.setThreshold (days : Nat) (a : Asset) : Asset :=
  { a with row := { a.row with offlineDaysOverride := if 0 < days then some days else none } }

/-- An operation on the device with an id. -/
def Asset.on (d : Nat) (f : Asset → Asset) (a : Asset) : Asset := if a.row.id = d then f a else a

variable (cfg : ArchiveConfig)

def Asset.call (now : Nat) (a : Asset) : Call → Asset
  | .tick overlay => a.tick (effectiveCfg cfg overlay) now
  | .archive d reason => a.on d (archiveManually reason now)
  | .restore d force => a.on d (restoreManually force now)
  | .setPin d pin => a.on d (setPinText pin now)
  | .setThreshold d days => a.on d (setThreshold days)

def Asset.step (now : Nat) (a : Asset) : Event → Asset
  | .call c => a.call cfg now c
  | .status d status offlineSince =>
    a.on d fun a => { a with row := a.row.observe status offlineSince }
  | .pass _ => a

section Calls

variable {s : Store} {d : Nat} {a : Asset}

section Manual

variable (h : s.asset d = some a)

include h

theorem setPin_own (pin : ArchivePin) (now : Nat) :
    ((setPin d pin now).after Store.apply s).asset d = some (a.pinned pin now) := by
  obtain rfl := Store.asset_id h
  simp [setPin, insertEvent, Store.asset_apply, h, Asset.apply, Asset.log, Asset.pinned]

theorem restoreRead_own (now : Nat) (harch : a.row.archivedAt.isSome) :
    ((restoreRead d now).after Store.apply s).asset d = some (a.restored .manual .empty now) := by
  obtain rfl := Store.asset_id h
  simp [restoreRead, insertEvent, Store.asset_apply, h, harch, Asset.apply, Asset.log,
    Asset.restored]

theorem archiveDeviceManually_own (reason : String) :
    ((archiveDeviceManually d reason).after Store.apply s).asset d =
      some (a.archiveManually reason s.clock) := by
  have hget := Store.get?_of_asset h
  obtain rfl := Store.asset_id h
  simp only [archiveDeviceManually, after_bind, exec_query, after_query, exec_statement, hget,
    Option.any_some, Option.isNone_iff_eq_none, Asset.archiveManually]
  by_cases hlive : a.row.archivedAt = none
  · simp [hlive, after, insertEvent, Store.asset_apply, h, Asset.apply, Asset.log, Asset.archived]
  · simp [hlive, after, Store.asset_apply, h, Asset.apply]

theorem restoreDeviceManually_own (force : Bool) :
    ((restoreDeviceManually d force).after Store.apply s).asset d =
      some (a.restoreManually force s.clock) := by
  simp only [restoreDeviceManually, after_bind, exec_query, after_query, Store.get?_of_asset h,
    Asset.restoreManually, Option.isNone_iff_eq_none]
  by_cases hlive : a.row.archivedAt = none
  · simp only [hlive, if_true]
    exact h
  · have harch : a.row.archivedAt.isSome := Option.isSome_iff_ne_none.mpr hlive
    simp only [hlive, if_false, after_bind, exec_query, after_query]
    split
    · cases force with
      | false => exact h
      | true => exact restoreRead_own (setPin_own h .none s.clock) s.clock harch
    · exact restoreRead_own h s.clock harch

theorem setPinText_own (text : String) :
    ((setPinText d text).after Store.apply s).asset d = some (a.setPinText text s.clock) := by
  unfold setPinText Asset.setPinText
  cases ArchivePin.ofText text with
  | none => exact h
  | some pin => exact setPin_own h pin s.clock

theorem setThresholdOverride_own (days : Nat) :
    ((setThresholdOverride d days).after Store.apply s).asset d = some (a.setThreshold days) := by
  obtain rfl := Store.asset_id h
  simp [setThresholdOverride, Store.asset_apply, h, Asset.apply, Asset.setThreshold]

end Manual

variable {i : Nat}

theorem archiveDeviceManually_spares (h : i ≠ d) (reason : String) :
    (archiveDeviceManually i reason).Issues (Statement.spares d) := by
  refine (issues_query _).bind fun now => ?_
  refine Issues.bind (fun _ => ⟨(), h, trivial⟩) fun changed => ?_
  split
  · exact Issues.bind (issues_issue h) fun _ => issues_pure _
  · exact issues_pure _

theorem setPin_spares (h : i ≠ d) (pin : ArchivePin) (now : Nat) :
    (setPin i pin now).Issues (Statement.spares d) :=
  (issues_issue h).bind fun _ => issues_issue h

theorem restoreRead_spares (h : i ≠ d) (now : Nat) :
    (restoreRead i now).Issues (Statement.spares d) :=
  Issues.bind (issues_issue h) fun _ => Issues.bind (issues_issue h) fun _ => issues_pure _

theorem restoreDeviceManually_spares (h : i ≠ d) (force : Bool) :
    (restoreDeviceManually i force).Issues (Statement.spares d) := by
  refine (issues_query _).bind fun dev => ?_
  split
  · exact issues_pure _
  · split
    · exact issues_pure _
    · refine (issues_query _).bind fun now => ?_
      split
      · split
        · exact issues_pure _
        · exact (setPin_spares h .none now).bind fun _ => restoreRead_spares h now
      · exact restoreRead_spares h now

theorem setPinText_spares (h : i ≠ d) (text : String) :
    (setPinText i text).Issues (Statement.spares d) := by
  unfold setPinText
  split
  · exact issues_pure _
  · exact (issues_query _).bind fun now => (setPin_spares h _ now).bind fun _ => issues_pure _

/-- A call about one device. -/
theorem asset_on {ρ : Type} {prog : Task ρ} {f : Asset → Asset}
    (own : ∀ a, s.asset i = some a → (prog.after Store.apply s).asset i = some (f a))
    (other : ∀ d, i ≠ d → prog.Issues (Statement.spares d)) (d : Nat) :
    (prog.after Store.apply s).asset d = (s.asset d).map (Asset.on i f) := by
  by_cases hid : i = d
  · subst hid
    cases ha : s.asset i with
    | none =>
      have hnone := (issues_any prog).frame Store.apply (fun s => (s.asset i).isNone)
        (fun op s _ => by rw [Store.asset_apply, Option.isNone_map]) s
      simpa [ha] using hnone
    | some a => simp [own a ha, Asset.on, Store.asset_id ha]
  · rw [asset_of_spares (other d hid)]
    cases ha : s.asset d with
    | none => rfl
    | some a => simp [Asset.on, Store.asset_id ha, Ne.symm hid]

theorem asset_call (c : Call) (s : Store) (d : Nat) :
    ((c.program cfg).after Store.apply s).asset d =
      (s.asset d).map fun a => a.call cfg s.clock c := by
  cases c with
  | tick overlay => exact asset_runOnce _ s d
  | archive i reason =>
    rw [Call.program, after_bind, after_pure]
    exact asset_on (fun _ ha => archiveDeviceManually_own ha reason)
      (fun _ h => archiveDeviceManually_spares h reason) d
  | restore i force =>
    rw [Call.program, after_bind, after_pure]
    exact asset_on (fun _ ha => restoreDeviceManually_own ha force)
      (fun _ h => restoreDeviceManually_spares h force) d
  | setPin i pin =>
    rw [Call.program, after_bind, after_pure]
    exact asset_on (fun _ ha => setPinText_own ha pin) (fun _ h => setPinText_spares h pin) d
  | setThreshold i days =>
    exact asset_on (fun _ ha => setThresholdOverride_own ha days) (fun _ h => issues_issue h) d

end Calls

/-- The store is, device by device, the machine of one device. -/
theorem asset_step (s : Store) (e : Event) (d : Nat) :
    (s.step cfg e).asset d = (s.asset d).map fun a => a.step cfg s.clock e := by
  cases e with
  | call c => exact asset_call cfg c s d
  | status i status offlineSince =>
    simp only [Store.step, Store.observe, Store.asset, Table.get?_modify, Option.map_map]
    congr 1
    funext r
    by_cases hid : r.id = i
    · simp [Asset.step, Asset.on, Schema.onId, assetSchema, hid]
    · simp [Asset.step, Asset.on, Schema.onId, assetSchema, hid]
  | pass seconds =>
    cases h : s.asset d <;> simp_all [Store.step, Store.asset, Asset.step]

theorem asset_tick (h : s.asset d = some a) (cfg : ArchiveConfig) (overlay : Option ArchiveConfig) :
    (s.step cfg (.call (.tick overlay))).asset d =
      some (a.tick (effectiveCfg cfg overlay) s.clock) := by
  rw [asset_step, h]
  rfl

end Steward.Archive
