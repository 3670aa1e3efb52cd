import Steward.ArchiveAssets

/-!
# Pins and presence

What a tick does to a pinned device, and what an automatic restore says about
the ticks before it. Both come from one reading of the tick: the pattern sweep,
the archiving of candidates, and then the stamp, the restore and the blip.
-/

namespace Steward.Archive

open RowTable Programs Prog

/-! ## The stages of a tick -/

theorem appearance_congr {l l' : List ArchiveEvent}
    (h : ((l.filter isAppearance).map ArchiveEvent.occurredAt).Perm
      ((l'.filter isAppearance).map ArchiveEvent.occurredAt)) :
    appearance (chronological l) = appearance (chronological l') := by
  have sorted : ∀ l, (appearance (chronological l)).Pairwise (· ≤ ·) := by
    intro l
    rw [appearance, List.pairwise_map]
    exact (List.pairwise_insertionSort _ l).filter _
  have perm : ∀ l, (appearance (chronological l)).Perm
      ((l.filter isAppearance).map ArchiveEvent.occurredAt) := by
    intro l
    exact ((List.perm_insertionSort _ l).filter _).map _
  exact ((perm l).trans (h.trans (perm l').symm)).eq_of_pairwise' (sorted l) (sorted l')

namespace Asset

variable {a : Asset} {cfg : ArchiveConfig} {now : Nat}

@[simp] theorem log_row (event : EventKind) (triggeredBy : Trigger) (detail : Detail) :
    (a.log event triggeredBy detail now).row = a.row := rfl

/-- The device after the expiry pass. -/
def expired (now : Nat) (a : Asset) : Asset := a.pass AssetRow.periodic (expire now)

variable (cfg) (now) (a)

/-- The device after the pattern sweep. -/
def swept : Asset :=
  (a.expired now).pass AssetRow.isArchived (learn cfg now)

/-- The device after the candidates are archived. -/
def aged : Asset :=
  a.pass AssetRow.isAutoArchiveCandidate (autoArchive cfg now)

/-- The last three passes. -/
def settled : Asset :=
  ((a.stampOnline now).pass AssetRow.isArchivedOnline (restore cfg now)).pass
    AssetRow.isArchivedOnlineBroken (blip now)

variable {cfg now a}

theorem tick_eq : a.tick cfg now = ((a.swept cfg now).aged cfg now).settled cfg now := rfl

/-- The stale pattern of a periodic device. -/
def Stale (now : Nat) (a : Asset) : Prop :=
  a.row.periodic = true ∧ a.row.status = .offline ∧
    ∃ last, lastAppearance (chronological a.events) = some last ∧
      last + 2 * a.row.periodicCycle < now

theorem expired_cases (a : Asset) (now : Nat) :
    (a.expired now = a ∧ ¬ a.Stale now) ∨
      (a.Stale now ∧
        a.expired now = { a with row := { a.row with periodic := false, periodicCycle := 0 } }.log
          .patternCleared .pattern (.reason "absent_beyond_2x_cycle") now) := by
  unfold expired pass expire Stale
  cases hp : a.row.periodic with
  | false => simp
  | true =>
    cases hlast : lastAppearance (chronological a.events) with
    | none => simp
    | some last =>
      by_cases hstale : a.row.status = .offline ∧ last + 2 * a.row.periodicCycle < now
      · simp [hstale]
      · simp only [hstale, if_true, if_false]
        refine .inl ⟨trivial, ?_⟩
        rintro ⟨-, hoff, last', heq, hlt⟩
        cases heq
        exact hstale ⟨hoff, hlt⟩

theorem expired_row (a : Asset) (now : Nat) : ∃ periodic cycle,
    (a.expired now).row = { a.row with periodic := periodic, periodicCycle := cycle } := by
  rcases a.expired_cases now with ⟨h, -⟩ | ⟨-, h⟩
  · exact ⟨a.row.periodic, a.row.periodicCycle, by rw [h]⟩
  · exact ⟨false, 0, by rw [h]; rfl⟩

theorem expired_appearance :
    appearance (chronological (a.expired now).events) = appearance (chronological a.events) := by
  rcases a.expired_cases now with ⟨h, -⟩ | ⟨-, h⟩
  · rw [h]
  · rw [h]
    apply appearance_congr
    simp [log, isAppearance]

theorem expired_cycle? : (a.expired now).cycle? cfg now = a.cycle? cfg now := by
  obtain ⟨periodic, cycle, hrow⟩ := a.expired_row now
  rw [cycle?, cycle?, expired_appearance, hrow]
  rfl

theorem swept_live (h : a.row.archivedAt = none) : a.swept cfg now = a.expired now := by
  obtain ⟨periodic, cycle, hrow⟩ := a.expired_row now
  simp [swept, pass, AssetRow.isArchived, hrow, h]

theorem swept_filed (hc : a.cycle? cfg now = none) : a.swept cfg now = a.expired now := by
  simp [swept, pass, learn, expired_cycle?, hc]

variable {cycle : Nat}

theorem swept_found (h : a.row.archivedAt.isSome) (hc : a.cycle? cfg now = some cycle) :
    a.swept cfg now =
      ((a.expired now).learned cycle now).restored .pattern (.cycle cycle) now := by
  obtain ⟨periodic, cycle', hrow⟩ := a.expired_row now
  simp [swept, pass, learn, expired_cycle?, hc, AssetRow.isArchived, hrow, h]

theorem aged_other (h : a.row.isAutoArchiveCandidate = false) : a.aged cfg now = a := by
  simp [aged, pass, h]

theorem aged_exempt (hp : a.row.periodic = true)
    (hx : exemptionActive cfg (thresholdDays cfg a.row) = true) : a.aged cfg now = a := by
  simp [aged, pass, autoArchive, evaluate, hp, hx]

theorem stampOnline_cases (a : Asset) (now : Nat) :
    (a.row.archivedAt.isSome ∧ a.row.status = .online ∧ a.row.onlineSince = none ∧
      a.stampOnline now = { a with row := { a.row with onlineSince := some now } }) ∨
    (¬ (a.row.archivedAt.isSome ∧ a.row.status = .online ∧ a.row.onlineSince = none) ∧
      a.stampOnline now = a) := by
  by_cases h : a.row.archivedAt.isSome ∧ a.row.status = .online ∧ a.row.onlineSince = none
  · exact .inl ⟨h.1, h.2.1, h.2.2, by simp [stampOnline, apply, h]⟩
  · exact .inr ⟨h, by simp [stampOnline, apply, and_assoc, h]⟩

theorem stampOnline_row (a : Asset) (now : Nat) : ∃ onlineSince,
    (a.stampOnline now).row = { a.row with onlineSince := onlineSince } := by
  rcases a.stampOnline_cases now with ⟨-, -, -, h⟩ | ⟨-, h⟩
  · exact ⟨some now, by rw [h]⟩
  · exact ⟨a.row.onlineSince, by rw [h]⟩

theorem settled_live (h : a.row.archivedAt = none) : a.settled cfg now = a := by
  have hstamp : a.stampOnline now = a := by simp [stampOnline, apply, h]
  simp [settled, hstamp, pass, AssetRow.isArchivedOnline, AssetRow.isArchivedOnlineBroken,
    AssetRow.isArchived, h]

/-- The cycle that is found for an archived device takes it out, whatever its pin. -/
theorem tick_found (h : a.row.archivedAt.isSome) (hc : a.cycle? cfg now = some cycle) :
    a.tick cfg now = ((a.expired now).learned cycle now).restored .pattern (.cycle cycle) now := by
  have hx : exemptionActive cfg (thresholdDays cfg a.row) = true := by
    unfold cycle? at hc
    split at hc
    · assumption
    · cases hc
  obtain ⟨periodic, cycle', hrow⟩ := a.expired_row now
  rw [tick_eq, swept_found h hc, aged_exempt, settled_live]
  · rfl
  · rfl
  · simpa [restored, learned, hrow, thresholdDays] using hx

theorem settled_forceArchive (hpin : a.row.archivePin = .forceArchive) :
    (a.settled cfg now).row.archivedAt = a.row.archivedAt := by
  obtain ⟨onlineSince, hrow⟩ := a.stampOnline_row now
  have hrestore : (a.stampOnline now).pass AssetRow.isArchivedOnline (restore cfg now) =
      a.stampOnline now := by
    simp [pass, restore, hrow, hpin]
  rw [settled, hrestore, pass]
  split
  · simp [blip, hrow]
  · rw [hrow]

theorem tick_forceActive (hpin : a.row.archivePin = .forceActive)
    (hlive : a.row.archivedAt = none) : (a.tick cfg now).row.archivedAt = none := by
  obtain ⟨periodic, cycle, hrow⟩ := a.expired_row now
  have hother : (a.expired now).row.isAutoArchiveCandidate = false := by
    simp [AssetRow.isAutoArchiveCandidate, hrow, hpin]
  have hexp : (a.expired now).row.archivedAt = none := by rw [hrow, hlive]
  rw [tick_eq, swept_live hlive, aged_other hother, settled_live hexp, hexp]

/-- A device that is pinned into the archive stays there unless a cycle is found for it. -/
theorem tick_forceArchive (hpin : a.row.archivePin = .forceArchive)
    (harch : a.row.archivedAt.isSome) :
    (a.tick cfg now).row.archivedAt.isSome ↔ a.cycle? cfg now = none := by
  cases hc : a.cycle? cfg now with
  | some cycle => simp [tick_found harch hc, restored]
  | none =>
    obtain ⟨periodic, cycle, hrow⟩ := a.expired_row now
    have hother : (a.expired now).row.isAutoArchiveCandidate = false := by
      simp [AssetRow.isAutoArchiveCandidate, hrow, Option.isSome_iff_ne_none.mp harch]
    have hpin' : (a.expired now).row.archivePin = .forceArchive := by rw [hrow, hpin]
    rw [tick_eq, swept_filed hc, aged_other hother, settled_forceArchive hpin', hrow]
    simpa using harch

end Asset

/-! ## Pins -/

section RowStep

variable {s : Store} {r : AssetRow} (cfg : ArchiveConfig) (e : Event)

/-- What the store holds of a row's device. -/
def Store.dossier (s : Store) (r : AssetRow) : Asset :=
  ⟨r, s.events.filter fun e => e.deviceId = r.id⟩

variable (h : r ∈ s.devices.rows)

include h

theorem Store.asset_step_of_mem :
    (s.step cfg e).asset r.id = some ((s.dossier r).step cfg s.clock e) := by
  rw [asset_step, Store.asset_of_mem h]
  rfl

theorem Store.row_step_id :
    ((s.dossier r).step cfg s.clock e).row.id = r.id :=
  Store.asset_id (Store.asset_step_of_mem cfg e h)

theorem Store.row_step_mem :
    ((s.dossier r).step cfg s.clock e).row ∈ (s.step cfg e).devices.rows :=
  Table.mem_of_get? (Store.get?_of_asset (Store.asset_step_of_mem cfg e h))

end RowStep

variable (cfg : ArchiveConfig) (s : Store)

/-- A tick leaves the pinned devices where they are. -/
def PinsRespected : Event → Prop
  | .call (.tick overlay) =>
    ∀ r ∈ s.devices.rows, ∀ r' ∈ (s.step cfg (.call (.tick overlay))).devices.rows, r'.id = r.id →
      (r.archivePin = .forceActive → r.archivedAt.isNone → r'.archivedAt.isNone) ∧
      (r.archivePin = .forceArchive → r.archivedAt.isSome → r'.archivedAt.isSome)
  | _ => True

/-- The learner finds no cycle for a device that is pinned into the archive. -/
def NoPinnedCycle : Event → Prop
  | .call (.tick overlay) =>
    ∀ r ∈ s.devices.rows, r.archivePin = .forceArchive → r.archivedAt.isSome →
      exemptionActive (effectiveCfg cfg overlay) (thresholdDays (effectiveCfg cfg overlay) r) →
        recognize (effectiveCfg cfg overlay) (appearance (s.listDeviceArchiveEvents r.id)) s.clock =
          none
  | _ => True

instance : (e : Event) → Decidable (PinsRespected cfg s e)
  | .call (.tick _) => by unfold PinsRespected; infer_instance
  | .call (.archive ..) | .call (.restore ..) | .call (.setPin ..) | .call (.setThreshold ..)
  | .status .. | .pass _ => isTrue trivial

theorem pinsRespected_iff_noPinnedCycle (e : Event) :
    PinsRespected cfg s e ↔ NoPinnedCycle cfg s e := by
  cases e with
  | call c =>
    cases c with
    | tick overlay =>
      constructor
      · intro h r hr hpin harch hx
        have hrow := Store.row_step_mem cfg (.call (.tick overlay)) hr
        have hstays := (h r hr _ hrow (Store.row_step_id cfg _ hr)).2 hpin harch
        have hcycle := (Asset.tick_forceArchive hpin harch).mp hstays
        exact (if_pos hx).symm.trans hcycle
      · intro h r hr r' hr' hid
        obtain rfl := Table.eq_of_id _ hr' (Store.row_step_mem cfg _ hr)
          (hid.trans (Store.row_step_id cfg _ hr).symm)
        constructor
        · intro hpin hlive
          rw [Option.isNone_iff_eq_none] at hlive ⊢
          exact Asset.tick_forceActive hpin hlive
        · intro hpin harch
          refine (Asset.tick_forceArchive hpin harch).mpr ?_
          unfold Asset.cycle?
          split
          · next hx => exact h r hr hpin harch hx
          · rfl
    | _ => exact Iff.rfl
  | _ => exact Iff.rfl

/-- Ticks respect the pins in a run exactly when the learner never finds a cycle for a device that
is pinned into the archive. -/
theorem pins_respected_iff_no_pinned_cycle (events : List Event) :
    Runs.Along (Store.step cfg) (PinsRespected cfg) s events ↔
      Runs.Along (Store.step cfg) (NoPinnedCycle cfg) s events :=
  Runs.along_congr (pinsRespected_iff_noPinnedCycle cfg) s events

/-- A device that returns once a month for an hour. -/
def monthlyVisit : List Event :=
  [.status 1 .online none, .call (.tick none), .status 1 .offline none, .call (.tick none),
    .pass (31 * day)]

def officeStore : Store := .loneDevice 0 { id := 1, status := .offline }

def pinnedVisitor : List Event :=
  [[.call (.archive 1 ""), .call (.setPin 1 "force_archive")], monthlyVisit, monthlyVisit,
    monthlyVisit, [.call (.tick none)]].flatten

theorem pinned_visitor_leaves :
    ¬ Runs.Along (Store.step {}) (PinsRespected {}) officeStore pinnedVisitor := by
  decide +kernel

/-! ## Presence -/

def isAutoRestore (event : EventKind) (triggeredBy : Trigger) : Bool :=
  event = .restored && triggeredBy = .autoRestore

namespace Asset

variable {a : Asset} {cfg : ArchiveConfig} {now : Nat}

/-- Where a device is filed, and since when it is online there. -/
def filing (a : Asset) : Option Nat × Option Nat := (a.row.archivedAt, a.row.onlineSince)

/-- Only archived devices have an online clock. -/
def Clocked (a : Asset) : Prop := a.row.onlineSince.isSome → a.row.archivedAt.isSome

variable (a) (cfg) (now)

theorem swept_filing :
    (a.swept cfg now).row.status = a.row.status ∧
      ((a.swept cfg now).filing = a.filing ∨ (a.swept cfg now).filing = (none, none)) := by
  obtain ⟨periodic, cycle, hrow⟩ := a.expired_row now
  unfold swept pass
  split
  · unfold learn
    cases (a.expired now).cycle? cfg now with
    | none => simp [filing, hrow]
    | some found => simp [filing, restored, learned, hrow]
  · simp [filing, hrow]

theorem aged_filing :
    (a.aged cfg now).row.status = a.row.status ∧
      ((a.aged cfg now).filing = a.filing ∨ (a.aged cfg now).filing = (some now, none)) := by
  unfold aged pass
  split
  · unfold autoArchive
    split
    · exact ⟨rfl, .inl rfl⟩
    · split
      · unfold evaluate
        split
        · exact ⟨rfl, .inl rfl⟩
        · cases a.cycle? cfg now <;> exact ⟨rfl, .inl rfl⟩
      · exact ⟨rfl, .inr rfl⟩
  · exact ⟨rfl, .inl rfl⟩

variable {a cfg now}

theorem clocked_of_filing {b : Asset} (h : a.Clocked)
    (hb : b.filing = a.filing ∨ b.row.onlineSince = none) : b.Clocked := by
  unfold Clocked
  rcases hb with hb | hb
  · obtain ⟨harch, hon⟩ := Prod.mk.inj hb
    rw [harch, hon]
    exact h
  · rw [hb]
    intro hsome
    cases hsome

theorem restored_filing :
    (a.pass AssetRow.isArchivedOnline (restore cfg now)).filing = a.filing ∨
      (a.pass AssetRow.isArchivedOnline (restore cfg now)).filing = (none, none) := by
  unfold pass restore
  split
  · split
    · exact .inl rfl
    · exact .inr rfl
  · exact .inl rfl

theorem settled_clocked (h : a.Clocked) : (a.settled cfg now).Clocked := by
  have hstamp : (a.stampOnline now).Clocked := by
    rcases a.stampOnline_cases now with ⟨harch, -, -, heq⟩ | ⟨-, heq⟩
    · rw [heq]
      exact fun _ => harch
    · rw [heq]
      exact h
  have hrestore : ((a.stampOnline now).pass AssetRow.isArchivedOnline (restore cfg now)).Clocked :=
    clocked_of_filing hstamp (restored_filing.imp_right (congrArg Prod.snd))
  unfold settled
  generalize (a.stampOnline now).pass AssetRow.isArchivedOnline (restore cfg now) = b at hrestore ⊢
  unfold pass
  split
  · simp [Clocked, blip]
  · exact hrestore

/-- The clock of an offline device does not survive the last passes. -/
theorem settled_offline (hoff : a.row.status = .offline) (h : a.Clocked) :
    (a.settled cfg now).row.onlineSince = none := by
  have hstamp : a.stampOnline now = a := by simp [stampOnline, apply, hoff]
  have hrestore : a.pass AssetRow.isArchivedOnline (restore cfg now) = a := by
    simp [pass, AssetRow.isArchivedOnline, hoff]
  rw [settled, hstamp, hrestore, pass]
  cases hon : a.row.onlineSince with
  | none => simp [AssetRow.isArchivedOnlineBroken, hon]
  | some since =>
    have harch : a.row.archivedAt.isSome := h (by rw [hon]; rfl)
    simp [AssetRow.isArchivedOnlineBroken, AssetRow.isArchived, harch, hoff, hon, blip]

theorem settled_away (haway : a.row.status ≠ .online) (h : a.row.onlineSince = none) :
    a.settled cfg now = a := by
  have hstamp : a.stampOnline now = a := by simp [stampOnline, apply, haway]
  simp [settled, hstamp, pass, AssetRow.isArchivedOnline, AssetRow.isArchivedOnlineBroken, h]

theorem aged_swept_status : ((a.swept cfg now).aged cfg now).row.status = a.row.status :=
  ((a.swept cfg now).aged_filing cfg now).1.trans (a.swept_filing cfg now).1

theorem aged_swept_clocked (h : a.Clocked) : ((a.swept cfg now).aged cfg now).Clocked := by
  have hswept : (a.swept cfg now).Clocked :=
    clocked_of_filing h ((a.swept_filing cfg now).2.imp_right (congrArg Prod.snd))
  exact clocked_of_filing hswept
    (((a.swept cfg now).aged_filing cfg now).2.imp_right (congrArg Prod.snd))

theorem tick_clocked (h : a.Clocked) : (a.tick cfg now).Clocked :=
  settled_clocked (aged_swept_clocked h)

theorem tick_offline (hoff : a.row.status = .offline) (h : a.Clocked) :
    (a.tick cfg now).row.onlineSince = none :=
  settled_offline (aged_swept_status.trans hoff) (aged_swept_clocked h)

theorem tick_away (haway : a.row.status ≠ .online) (h : a.row.onlineSince = none) :
    (a.tick cfg now).row.onlineSince = none := by
  have hswept : (a.swept cfg now).row.onlineSince = none := by
    rcases a.swept_filing cfg now with ⟨-, hf | hf⟩
    · exact (congrArg Prod.snd hf).trans h
    · exact congrArg Prod.snd hf
  have hon : ((a.swept cfg now).aged cfg now).row.onlineSince = none := by
    rcases (a.swept cfg now).aged_filing cfg now with ⟨-, hf | hf⟩
    · exact (congrArg Prod.snd hf).trans hswept
    · exact congrArg Prod.snd hf
  rw [tick_eq, settled_away (by rwa [aged_swept_status]) hon, hon]

/-- How many events of a kind the device has. -/
def recorded (q : EventKind → Trigger → Bool) (a : Asset) : Nat :=
  a.events.countP fun e => q e.event e.triggeredBy

variable {q : EventKind → Trigger → Bool}

theorem log_recorded (event : EventKind) (triggeredBy : Trigger) (detail : Detail) :
    (a.log event triggeredBy detail now).recorded q =
      a.recorded q + if q event triggeredBy then 1 else 0 := by
  simp [recorded, log, List.countP_append, List.countP_singleton]

theorem pass_same {β : Type} (g : Asset → β) {p : AssetRow → Bool} {f : Asset → Asset}
    (h : g (f a) = g a) : g (a.pass p f) = g a := by
  unfold pass
  split
  · exact h
  · rfl

theorem aged_swept_recorded (hlearn : q .patternLearned .pattern = false)
    (hrestore : q .restored .pattern = false) (harchive : q .archived .autoOffline = false) :
    ((a.swept cfg now).aged cfg now).recorded q = (a.expired now).recorded q := by
  have hlearned : ∀ (b : Asset) (cycle : Nat), (b.learned cycle now).recorded q = b.recorded q := by
    intro b cycle
    rw [learned, log_recorded, hlearn]
    rfl
  have hswept : (a.swept cfg now).recorded q = (a.expired now).recorded q := by
    refine pass_same (recorded q) ?_
    unfold learn
    split
    · rfl
    · rw [restored, log_recorded, hrestore]
      exact hlearned _ _
  rw [← hswept]
  refine pass_same (recorded q) ?_
  unfold autoArchive
  split
  · rfl
  · split
    · unfold evaluate
      split
      · rfl
      · split
        · rfl
        · exact hlearned _ _
    · rw [archived, log_recorded, harchive]
      rfl

theorem expired_recorded (hclear : q .patternCleared .pattern = false) :
    (a.expired now).recorded q = a.recorded q := by
  rcases a.expired_cases now with ⟨h, -⟩ | ⟨-, h⟩
  · rw [h]
  · rw [h, log_recorded, hclear]
    rfl

theorem tick_autoRestores (haway : a.row.status ≠ .online) :
    (a.tick cfg now).recorded isAutoRestore = a.recorded isAutoRestore := by
  have hsame : ((a.swept cfg now).aged cfg now).recorded isAutoRestore = a.recorded isAutoRestore :=
    (aged_swept_recorded rfl rfl rfl).trans (expired_recorded rfl)
  rw [tick_eq, ← hsame]
  have hstatus : ((a.swept cfg now).aged cfg now).row.status ≠ .online := by
    rwa [aged_swept_status]
  generalize (a.swept cfg now).aged cfg now = b at hstatus ⊢
  have hstamp : b.stampOnline now = b := by simp [stampOnline, apply, hstatus]
  have hrestore : b.pass AssetRow.isArchivedOnline (restore cfg now) = b := by
    simp [pass, AssetRow.isArchivedOnline, hstatus]
  rw [settled, hstamp, hrestore]
  refine pass_same (recorded _) ?_
  rw [blip, log_recorded]
  rfl

theorem on_clocked (h : a.Clocked) {f : Asset → Asset} (hf : (f a).Clocked) (d : Nat) :
    (a.on d f).Clocked := by
  unfold on
  split
  · exact hf
  · exact h

theorem restoreManually_clocked (h : a.Clocked) (force : Bool) :
    (a.restoreManually force now).Clocked := by
  unfold restoreManually
  split
  · exact h
  · split
    · split
      · exact h
      · exact fun h => h
    · exact fun h => h

theorem step_clocked (h : a.Clocked) (e : Event) : (a.step cfg now e).Clocked := by
  cases e with
  | call c =>
    cases c with
    | tick overlay => exact tick_clocked h
    | archive d reason =>
      apply on_clocked h
      unfold archiveManually
      split
      · exact fun _ => rfl
      · exact h
    | restore d force => exact on_clocked h (restoreManually_clocked h force) d
    | setPin d text =>
      apply on_clocked h
      unfold setPinText
      split <;> exact h
    | setThreshold d days => exact on_clocked h h d
  | status d status offlineSince => exact on_clocked h h d
  | pass seconds => exact h

end Asset

def Store.onlineSince (s : Store) (d : Nat) : Option Nat :=
  (s.devices.get? d).bind AssetRow.onlineSince

/-- The tick starts the online clock of a device. -/
def Stamps (cfg : ArchiveConfig) (d : Nat) (s : Store) (overlay : Option ArchiveConfig) : Prop :=
  s.onlineSince d = none ∧ (s.step cfg (.call (.tick overlay))).onlineSince d = some s.clock

/-- How many events of a kind a device has. -/
def Store.recorded (q : EventKind → Trigger → Bool) (d : Nat) (s : Store) : Nat :=
  (s.events.filter fun e => e.deviceId = d).countP fun e => q e.event e.triggeredBy

/-- The tick restores a device for its presence. -/
def AutoRestores (cfg : ArchiveConfig) (d : Nat) (s : Store) (overlay : Option ArchiveConfig) :
    Prop :=
  s.recorded isAutoRestore d < (s.step cfg (.call (.tick overlay))).recorded isAutoRestore d

/-- The status that a tick finds a device in. -/
def TickFinds (ok : Status → Prop) (d : Nat) (s : Store) : Event → Prop
  | .call (.tick _) => ∀ r ∈ s.devices.get? d, ok r.status
  | _ => True

variable {s : Store} {d since : Nat} {a : Asset} {overlay : Option ArchiveConfig}
  {cfg : ArchiveConfig} {e : Event}

theorem Store.onlineSince_of_asset (h : s.asset d = some a) :
    s.onlineSince d = a.row.onlineSince := by
  rw [onlineSince, get?_of_asset h, Option.bind_some]

theorem Store.recorded_of_asset {q : EventKind → Trigger → Bool} (h : s.asset d = some a) :
    s.recorded q d = a.recorded q := by
  obtain ⟨r, -, rfl⟩ := Option.map_eq_some_iff.mp h
  rfl

theorem tickFinds_of_asset {ok : Status → Prop} (h : s.asset d = some a) :
    TickFinds ok d s (.call (.tick overlay)) ↔ ok a.row.status := by
  simp [TickFinds, Store.get?_of_asset h]

/-- The online clock of a device runs since `since`. -/
def Running (d since : Nat) (s : Store) : Prop :=
  ∃ a, s.asset d = some a ∧ a.row.onlineSince = some since ∧ a.Clocked

theorem Running.step (h : Running d since s) (hkept : (s.step cfg e).onlineSince d = some since) :
    Running d since (s.step cfg e) := by
  obtain ⟨a, ha, -, hclocked⟩ := h
  have hstep : (s.step cfg e).asset d = some (a.step cfg s.clock e) := by
    rw [asset_step, ha, Option.map_some]
  rw [Store.onlineSince_of_asset hstep] at hkept
  exact ⟨_, hstep, hkept, Asset.step_clocked hclocked e⟩

/-- While the clock runs, no tick finds the device offline. -/
theorem Running.finds (h : Running d since s) (hkept : (s.step cfg e).onlineSince d = some since) :
    TickFinds (· ≠ .offline) d s e := by
  obtain ⟨a, ha, -, hclocked⟩ := h
  cases e with
  | call c =>
    cases c with
    | tick overlay =>
      rw [tickFinds_of_asset ha]
      intro hoff
      rw [Store.onlineSince_of_asset (asset_tick ha cfg overlay),
        Asset.tick_offline hoff hclocked] at hkept
      cases hkept
    | _ => trivial
  | _ => trivial

theorem tickFinds_online_iff (h : TickFinds (· ≠ .offline) d s e) :
    TickFinds (· = .online) d s e ↔ TickFinds (· ≠ .unknown) d s e := by
  cases e with
  | call c =>
    cases c with
    | tick overlay =>
      apply forall_congr'
      intro r
      apply imp_congr_right
      intro hr
      have hne := h r hr
      cases hstatus : r.status with
      | online => simp
      | offline => exact absurd hstatus hne
      | unknown => simp
    | _ => exact Iff.rfl
  | _ => exact Iff.rfl

theorem Stamps.running (h : Stamps cfg d s overlay) :
    TickFinds (· = .online) d s (.call (.tick overlay)) ∧
      Running d s.clock (s.step cfg (.call (.tick overlay))) := by
  obtain ⟨hbefore, hafter⟩ := h
  cases ha : s.asset d with
  | none =>
    have hnone : (s.step cfg (.call (.tick overlay))).asset d = none := by rw [asset_step, ha]; rfl
    rw [Store.onlineSince, Option.map_eq_none_iff.mp hnone] at hafter
    cases hafter
  | some a =>
    have hstep := asset_tick ha cfg overlay
    rw [Store.onlineSince_of_asset ha] at hbefore
    rw [Store.onlineSince_of_asset hstep] at hafter
    have hclocked : a.Clocked := by simp [Asset.Clocked, hbefore]
    refine ⟨?_, _, hstep, hafter, Asset.tick_clocked hclocked⟩
    rw [tickFinds_of_asset ha]
    by_contra haway
    rw [Asset.tick_away haway hbefore] at hafter
    cases hafter

/-- A restore for presence takes a device that is online. -/
theorem AutoRestores.finds (h : AutoRestores cfg d s overlay) (hrun : Running d since s) :
    TickFinds (· = .online) d s (.call (.tick overlay)) := by
  obtain ⟨a, ha, -, -⟩ := hrun
  rw [tickFinds_of_asset ha]
  by_contra haway
  rw [AutoRestores, Store.recorded_of_asset ha, Store.recorded_of_asset (asset_tick ha cfg overlay),
    Asset.tick_autoRestores haway] at h
  exact Nat.lt_irrefl _ h

/-- Between the tick that stamps the clock of a device and the tick that restores the device for
its presence, every tick finds the device online exactly when none finds it in an unknown state. -/
theorem auto_restore_online_iff (cfg : ArchiveConfig) (d : Nat) (s : Store)
    (first last : Option ArchiveConfig) (events : List Event) (hstamp : Stamps cfg d s first)
    (hkept : Runs.Along (Store.step cfg) (fun t e => (t.step cfg e).onlineSince d = some s.clock)
      (s.step cfg (.call (.tick first))) events)
    (hrestored : AutoRestores cfg d
      (Runs.run (Store.step cfg) (s.step cfg (.call (.tick first))) events) last) :
    Runs.Along (Store.step cfg) (TickFinds (· = .online) d) s
        (.call (.tick first) :: events ++ [.call (.tick last)]) ↔
      Runs.Along (Store.step cfg) (TickFinds (· ≠ .unknown) d) (s.step cfg (.call (.tick first)))
        events := by
  obtain ⟨hfirst, hrunning⟩ := hstamp.running
  have hlast := hrestored.finds
    (Runs.run_invariant (fun _ _ hrun hstep => Running.step hrun hstep) hrunning hkept)
  have hmiddle := Runs.along_iff (P := Running d s.clock)
    (fun t e hrun hstep => ⟨tickFinds_online_iff (hrun.finds hstep), fun _ => hrun.step hstep⟩)
    hrunning hkept
  rw [← hmiddle, List.cons_append]
  constructor
  · rintro ⟨-, hrest⟩
    exact (Runs.along_append.mp hrest).1
  · intro hrest
    exact ⟨hfirst, Runs.along_append.mpr ⟨hrest, hlast, trivial⟩⟩

/-- A device that is back for an hour, and the status that a tick in between finds. -/
def hourBack (between : Status) : List Event :=
  [.pass 1800, .status 1 between none, .call (.tick none), .status 1 .online none, .pass 1800]

def archivedStore : Store := .loneDevice 0 { id := 1, status := .online, archivedAt := some 0 }

instance (ok : Status → Prop) [DecidablePred ok] (d : Nat) (s : Store) :
    (e : Event) → Decidable (TickFinds ok d s e)
  | .call (.tick _) => by unfold TickFinds; infer_instance
  | .call (.archive ..) | .call (.restore ..) | .call (.setPin ..) | .call (.setThreshold ..)
  | .status .. | .pass _ => isTrue trivial

theorem hour_back_online :
    Runs.Along (Store.step {}) (TickFinds (· = .online) 1) archivedStore
      (.call (.tick none) :: hourBack .online ++ [.call (.tick none)]) :=
  (auto_restore_online_iff {} 1 archivedStore none none (hourBack .online)
    ⟨by decide +kernel, by decide +kernel⟩ (by decide +kernel)
    (by unfold AutoRestores; decide +kernel)).mpr (by decide +kernel)

/-- A tick that finds the device in an unknown state does not stop the clock. -/
theorem unknown_keeps_clock :
    Stamps {} 1 archivedStore none ∧
      Runs.Along (Store.step {}) (fun t e => (t.step {} e).onlineSince 1 = some archivedStore.clock)
        (archivedStore.step {} (.call (.tick none))) (hourBack .unknown) ∧
      AutoRestores {} 1 (Runs.run (Store.step {}) (archivedStore.step {} (.call (.tick none)))
        (hourBack .unknown)) none ∧
      ¬ Runs.Along (Store.step {}) (TickFinds (· = .online) 1) archivedStore
        (.call (.tick none) :: hourBack .unknown ++ [.call (.tick none)]) := by
  refine ⟨⟨by decide +kernel, by decide +kernel⟩, by decide +kernel, ?_, by decide +kernel⟩
  unfold AutoRestores
  decide +kernel

end Steward.Archive
