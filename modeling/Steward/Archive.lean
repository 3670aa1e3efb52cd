import Steward.Devices
import Steward.Programs

/-!
# The asset archive engine

The engine moves devices into the archive and back. A tick is five passes over
the devices, each a query followed by writes by id; the manual operations are
programs of the same statements. Every query and every write is one atomic step.
A learned cycle is kept in seconds, and its arithmetic is exact.
-/

namespace Steward.Archive

open RowTable Programs Prog

/-- `archive_pin`. -/
inductive ArchivePin where
  | none | forceArchive | forceActive
  deriving DecidableEq

inductive EventKind where
  | archived | restored | onlineBlip | patternLearned | patternCleared | pinSet | pinCleared
  deriving DecidableEq

inductive Trigger where
  | autoOffline | autoRestore | pattern | manual
  deriving DecidableEq

/-- The `detail` document of an event. -/
inductive Detail where
  | offline (days : Nat) (hasMac : Bool)
  | onlineMinutes (minutes : Nat)
  | cycle (seconds : Nat)
  | reason (text : String)
  | pin (pin : ArchivePin)
  | empty
  deriving DecidableEq

structure ArchiveEvent where
  deviceId : Nat
  event : EventKind
  triggeredBy : Trigger
  detail : Detail
  occurredAt : Nat
  deriving DecidableEq

/-- The columns of `devices` that the engine reads and writes. -/
structure AssetRow where
  id : Nat
  macAddress : String := ""
  scanSource : String := "scanner_v2"
  status : Status
  offlineSince : Option Nat := none
  archivedAt : Option Nat := none
  archivePin : ArchivePin := .none
  offlineDaysOverride : Option Nat := none
  onlineSince : Option Nat := none
  periodic : Bool := false
  /-- `periodic_cycle_days`, in seconds. -/
  periodicCycle : Nat := 0
  deriving DecidableEq

def assetSchema : Schema AssetRow where
  id := AssetRow.id
  clash _ _ := false
  clash_symm _ _ := rfl

structure Store where
  clock : Nat
  devices : Table assetSchema
  events : List ArchiveEvent := []

theorem AssetRow.id_of_lone {r x : AssetRow} (h : x ∈ [{ r with id := 1 }]) : x.id = 1 := by
  rw [List.mem_singleton.mp h]

/-- A library with one device. -/
def Store.loneDevice (clock : Nat) (r : AssetRow) : Store where
  clock := clock
  devices :=
    { rows := [{ r with id := 1 }]
      nextId := 2
      nextPos := Nat.two_pos
      ordered := List.pairwise_singleton _ _
      positive _ h := Nat.lt_of_lt_of_eq Nat.one_pos (AssetRow.id_of_lone h).symm
      below _ h := Nat.lt_of_le_of_lt (Nat.le_of_eq (AssetRow.id_of_lone h)) Nat.one_lt_two
      apart := List.pairwise_singleton _ _ }

/-- The learner's settings, with the values that `New` fills in. -/
structure ArchiveSmartConfig where
  disabled : Bool := false
  minHistoryDays : Nat := 60
  maxThresholdDays : Nat := 30

structure ArchiveConfig where
  offlineDays : Nat := 7
  restoreOnlineMinutes : Nat := 60
  smart : ArchiveSmartConfig := {}

variable (cfg : ArchiveConfig)

/-- `effectiveCfg`: what the overlay sets wins. -/
def effectiveCfg : Option ArchiveConfig → ArchiveConfig
  | none => cfg
  | some overlay =>
    { cfg with
      offlineDays := if 0 < overlay.offlineDays then overlay.offlineDays else cfg.offlineDays
      restoreOnlineMinutes :=
        if 0 < overlay.restoreOnlineMinutes then overlay.restoreOnlineMinutes
        else cfg.restoreOnlineMinutes }

/-! ## Statements and queries -/

/-- The writes of `asset_archive.sql`. -/
inductive Statement where
  | insertArchiveEvent (event : ArchiveEvent)
  | archiveDevice (id now : Nat)
  | stampArchivedOnlineSince (now : Nat)
  | restoreArchivedDevice (id : Nat)
  | clearOnlineSince (id : Nat)
  | setDeviceArchivePin (id : Nat) (pin : ArchivePin)
  | setDevicePeriodic (id : Nat) (periodic : Bool) (cycle : Nat)
  | updateArchiveThresholdOverride (id : Nat) (days : Option Nat)

namespace Statement

/-- The rows that an update changes. -/
@[simp] def selects : Statement → AssetRow → Bool
  | insertArchiveEvent _, _ => false
  | archiveDevice i _, r => r.id = i && r.archivedAt.isNone
  | stampArchivedOnlineSince _, r =>
    r.archivedAt.isSome && r.status = .online && r.onlineSince.isNone
  | restoreArchivedDevice i, r => r.id = i && r.archivedAt.isSome
  | clearOnlineSince i, r => r.id = i
  | setDeviceArchivePin i _, r => r.id = i
  | setDevicePeriodic i _ _, r => r.id = i
  | updateArchiveThresholdOverride i _, r => r.id = i

/-- What an update sets in them. -/
@[simp] def set : Statement → AssetRow → AssetRow
  | insertArchiveEvent _, r => r
  | archiveDevice _ now, r => { r with archivedAt := some now, onlineSince := none }
  | stampArchivedOnlineSince now, r => { r with onlineSince := some now }
  | restoreArchivedDevice _, r => { r with archivedAt := none, onlineSince := none }
  | clearOnlineSince _, r => { r with onlineSince := none }
  | setDeviceArchivePin _ pin, r => { r with archivePin := pin }
  | setDevicePeriodic _ periodic cycle, r =>
    { r with periodic := periodic, periodicCycle := cycle }
  | updateArchiveThresholdOverride _ days, r => { r with offlineDaysOverride := days }

/-- The event that an insert appends. -/
@[simp] def logged : Statement → List ArchiveEvent
  | insertArchiveEvent e => [e]
  | _ => []

@[simp] theorem set_id (op : Statement) (r : AssetRow) : (op.set r).id = r.id := by
  cases op <;> rfl

end Statement

abbrev Task := Prog Store Statement

namespace AssetRow

variable (r : AssetRow)

def isArchived : Bool := r.archivedAt.isSome

def isAutoArchiveCandidate : Bool :=
  r.archivedAt.isNone && r.archivePin ≠ .forceActive && r.scanSource = "scanner_v2" &&
    r.status = .offline && r.offlineSince.isSome

def isArchivedOnline : Bool :=
  r.isArchived && r.status = .online && r.onlineSince.isSome

def isArchivedOnlineBroken : Bool :=
  r.isArchived && r.status = .offline && r.onlineSince.isSome

end AssetRow

namespace Store

def apply (op : Statement) (s : Store) : Store :=
  { s with
    devices := s.devices.modifyWhere op.selects op.set ⟨op.set_id, fun _ _ => rfl⟩
    events := s.events ++ op.logged }

variable (s : Store)

def listAutoArchiveCandidates : List AssetRow :=
  s.devices.rows.filter AssetRow.isAutoArchiveCandidate

def listArchivedOnline : List AssetRow :=
  s.devices.rows.filter AssetRow.isArchivedOnline

def listArchivedOnlineBroken : List AssetRow :=
  s.devices.rows.filter AssetRow.isArchivedOnlineBroken

def listArchivedDeviceOverrides : List AssetRow :=
  s.devices.rows.filter AssetRow.isArchived

def listPeriodicDeviceStates : List AssetRow := s.devices.rows.filter AssetRow.periodic

end Store

variable (events : List ArchiveEvent)

/-- `ORDER BY occurred_at ASC, id ASC`. -/
def chronological : List ArchiveEvent :=
  events.insertionSort fun a b => a.occurredAt ≤ b.occurredAt

def Store.listDeviceArchiveEvents (s : Store) (d : Nat) : List ArchiveEvent :=
  chronological (s.events.filter fun e => e.deviceId = d)

/-! ## The learner -/

def day : Nat := 24 * 60 * 60

def patternMinAppearances : Nat := 3

/-- Return evidence: a restore or a blip that no one triggered by hand. -/
def isAppearance (e : ArchiveEvent) : Bool :=
  e.triggeredBy ≠ .manual && (e.event = .restored || e.event = .onlineBlip)

def appearance : List Nat :=
  (events.filter isAppearance).map ArchiveEvent.occurredAt

def lastAppearance : Option Nat := (appearance events).getLast?

/-- The times between consecutive appearances. -/
def gaps (apps : List Nat) : List Nat := List.zipWith (fun a b => b - a) apps apps.tail

def median (gaps : List Nat) : Nat := (gaps.insertionSort (· ≤ ·)).getD (gaps.length / 2) 0

/-- Within a quarter of the median. -/
def stable (median gap : Nat) : Bool := 3 * median ≤ 4 * gap && 4 * gap ≤ 5 * median

/-- `recognize`: the cycle of a stable and living series, in exact seconds; the source computes
with hours in float64. -/
def recognize (apps : List Nat) (now : Nat) : Option Nat :=
  let last := apps.getLastD 0
  if apps.length < patternMinAppearances then none
  else if last - apps.headD 0 < cfg.smart.minHistoryDays * day then none
  else if !(gaps apps).all (stable (median (gaps apps))) then none
  else if last + 2 * median (gaps apps) < now then none
  else some (median (gaps apps))

def thresholdDays (r : AssetRow) : Nat :=
  if 0 < r.offlineDaysOverride.getD 0 then r.offlineDaysOverride.getD 0 else cfg.offlineDays

def exemptionActive (thresholdDays : Nat) : Bool :=
  !cfg.smart.disabled && thresholdDays < cfg.smart.maxThresholdDays

/-! ## The passes of a tick -/

variable (d : Nat)

def insertEvent (event : EventKind) (triggeredBy : Trigger) (detail : Detail)
    (now : Nat) : Task Unit :=
  issue (.insertArchiveEvent ⟨d, event, triggeredBy, detail, now⟩)

def setPeriodic (d cycle now : Nat) : Task Unit := do
  issue (.setDevicePeriodic d true cycle)
  insertEvent d .patternLearned .pattern (.cycle cycle) now

def clearPattern (d now : Nat) (reason : String) : Task Unit := do
  issue (.setDevicePeriodic d false 0)
  insertEvent d .patternCleared .pattern (.reason reason) now

/-- The expiry of one periodic device. -/
def expireDevice (now : Nat) (st : AssetRow) : Task Unit := do
  let events ← query fun s : Store => s.listDeviceArchiveEvents st.id
  match lastAppearance events with
  | none => pure ()
  | some last =>
    if st.status = .offline ∧ last + 2 * st.periodicCycle < now then
      clearPattern st.id now "absent_beyond_2x_cycle"
    else pure ()

/-- Learning from one archived device. -/
def learnDevice (now : Nat) (ad : AssetRow) : Task Unit :=
  if !exemptionActive cfg (thresholdDays cfg ad) then pure ()
  else do
    let events ← query fun s : Store => s.listDeviceArchiveEvents ad.id
    match recognize cfg (appearance events) now with
    | none => pure ()
    | some cycle => do
      setPeriodic ad.id cycle now
      issue (.restoreArchivedDevice ad.id)
      insertEvent ad.id .restored .pattern (.cycle cycle) now

def patternSweep : Task Unit := do
  let now ← query Store.clock
  let states ← query Store.listPeriodicDeviceStates
  forEach (expireDevice now) states
  if cfg.smart.disabled then pure ()
  else do
    let archived ← query Store.listArchivedDeviceOverrides
    forEach (learnDevice cfg now) archived

/-- `evaluateDevice`: whether a candidate stays. -/
def evaluateDevice (d thresholdDays : Nat) (periodic : Bool) (cfg : ArchiveConfig) (now : Nat) :
    Task Bool :=
  if cfg.smart.disabled then pure false
  else if periodic then pure (decide (thresholdDays < cfg.smart.maxThresholdDays))
  else if !exemptionActive cfg thresholdDays then pure false
  else do
    let events ← query fun s : Store => s.listDeviceArchiveEvents d
    match recognize cfg (appearance events) now with
    | none => pure false
    | some cycle => do
      setPeriodic d cycle now
      pure true

/-- Offline for at least the threshold. -/
def overdue (thresholdDays now : Nat) (c : AssetRow) : Bool :=
  c.offlineSince.any fun since => since + thresholdDays * day ≤ now

def archiveCandidate (now : Nat) (c : AssetRow) : Task Unit :=
  if !overdue (thresholdDays cfg c) now c then pure ()
  else do
    let exempt ← evaluateDevice c.id (thresholdDays cfg c) c.periodic cfg now
    if exempt then pure ()
    else do
      -- The number of rows that the update changed is not looked at.
      issue (.archiveDevice c.id now)
      insertEvent c.id .archived .autoOffline
        (.offline (thresholdDays cfg c) (c.macAddress ≠ "")) now

def autoArchive : Task Unit := do
  let candidates ← query Store.listAutoArchiveCandidates
  let now ← query Store.clock
  forEach (archiveCandidate cfg now) candidates

def stampOnline : Task Unit := do
  let now ← query Store.clock
  issue (.stampArchivedOnlineSince now)

variable (now : Nat) (r : AssetRow)

/-- Online for at least the restore threshold. -/
def onlineLongEnough : Bool :=
  r.onlineSince.any fun since => since + cfg.restoreOnlineMinutes * 60 ≤ now

def onlineMinutes : Nat :=
  match r.onlineSince with
  | none => 0
  | some since => (now - since) / 60

def restoreDevice : Task Unit :=
  if r.archivePin = .forceArchive ∨ onlineLongEnough cfg now r = false then pure ()
  else do
    issue (.restoreArchivedDevice r.id)
    insertEvent r.id .restored .autoRestore (.onlineMinutes (onlineMinutes now r)) now

def restoreCheck : Task Unit := do
  let rows ← query Store.listArchivedOnline
  let now ← query Store.clock
  forEach (restoreDevice cfg now) rows

def blipDevice : Task Unit := do
  issue (.clearOnlineSince r.id)
  insertEvent r.id .onlineBlip .autoRestore (.onlineMinutes (onlineMinutes now r)) now

def blipCheck : Task Unit := do
  let rows ← query Store.listArchivedOnlineBroken
  let now ← query Store.clock
  forEach (blipDevice now) rows

/-- `runOnce`. -/
def runOnce : Task Unit := do
  patternSweep cfg
  autoArchive cfg
  stampOnline
  restoreCheck cfg
  blipCheck

/-! ## Manual operations -/

/-- What a manual operation is refused with. -/
inductive Refusal where
  | noDevice | notArchived | alreadyArchived | pinned | invalidPin
  deriving DecidableEq

def archiveDeviceManually (reason : String) : Task (Option Refusal) := do
  let now ← query Store.clock
  let changed ← statement (.archiveDevice d now) fun s : Store =>
    (s.devices.get? d).any fun r => r.archivedAt.isNone
  if changed then do
    insertEvent d .archived .manual (.reason reason) now
    pure none
  else pure (some .alreadyArchived)

def setPin (pin : ArchivePin) (now : Nat) : Task Unit := do
  issue (.setDeviceArchivePin d pin)
  insertEvent d (if pin = .none then .pinCleared else .pinSet) .manual (.pin pin) now

/-- The restore of a device that was archived when it was read. -/
def restoreRead (d now : Nat) : Task (Option Refusal) := do
  issue (.restoreArchivedDevice d)
  insertEvent d .restored .manual .empty now
  pure none

def restoreDeviceManually (force : Bool) : Task (Option Refusal) := do
  let dev ← query fun s : Store => s.devices.get? d
  match dev with
  | none => pure (some .noDevice)
  | some r =>
    if r.archivedAt.isNone then pure (some .notArchived)
    else do
      let now ← query Store.clock
      if r.archivePin = .forceArchive then
        if !force then pure (some .pinned)
        else do
          setPin d .none now
          restoreRead d now
      else restoreRead d now

def ArchivePin.ofText (text : String) : Option ArchivePin :=
  if text = "" then some .none
  else if text = "force_archive" then some .forceArchive
  else if text = "force_active" then some .forceActive
  else Option.none

/-- `SetPin`. -/
def setPinText (text : String) : Task (Option Refusal) := do
  match ArchivePin.ofText text with
  | none => pure (some .invalidPin)
  | some pin => do
    let now ← query Store.clock
    setPin d pin now
    pure none

/-- `SetThresholdOverride`. -/
def setThresholdOverride (d days : Nat) : Task Unit :=
  issue (.updateArchiveThresholdOverride d (if 0 < days then some days else none))

/-! ## The engine among the other writers -/

inductive Call where
  | tick (overlay : Option ArchiveConfig)
  | archive (d : Nat) (reason : String)
  | restore (d : Nat) (force : Bool)
  | setPin (d : Nat) (pin : String)
  | setThreshold (d days : Nat)

def Call.program : Call → Task Unit
  | .tick overlay => runOnce (effectiveCfg cfg overlay)
  | .archive d reason => do let _ ← archiveDeviceManually d reason
  | .restore d force => do let _ ← restoreDeviceManually d force
  | .setPin d pin => do let _ ← setPinText d pin
  | .setThreshold d days => setThresholdOverride d days

/-- What the other parts of the center write: a status, and since when the device is offline. -/
def AssetRow.observe (status : Status) (offlineSince : Option Nat) (r : AssetRow) : AssetRow :=
  { r with status := status, offlineSince := offlineSince }

def Store.observe (s : Store) (d : Nat) (status : Status) (offlineSince : Option Nat) : Store :=
  { s with
    devices :=
      s.devices.modify d (AssetRow.observe status offlineSince) ⟨fun _ => rfl, fun _ _ => rfl⟩ }

/-- A call runs to its end before the next event. -/
inductive Event where
  | call (c : Call)
  | status (d : Nat) (status : Status) (offlineSince : Option Nat)
  | pass (seconds : Nat)

def Store.step (s : Store) : Event → Store
  | .call c => (c.program cfg).after Store.apply s
  | .status d status offlineSince => s.observe d status offlineSince
  | .pass seconds => { s with clock := s.clock + seconds }

end Steward.Archive
