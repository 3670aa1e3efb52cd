import Steward.Loops
import Steward.ProbeTargets

/-!
# The autogen sweep

Discover, then probe: the sweep turns the services detected on the devices into probe
targets of its own. A target is known by a name spelled from the device, the service and
the port. Targets that exist are followed and revived, new ones are created up to a cap,
and the targets of services that are gone are parked.
-/

namespace Steward.Probe

open RowTable Loops Runs Text

structure ProbeAutogenConfig where
  enabled : Bool
  services : List String
  deviceTypes : List String
  intervalSeconds : Int
  maxTargets : Int

/-- One element of the `detected_services` array. -/
structure Service where
  name : String
  port : Int
  deriving DecidableEq

/-- How the JSON column is decoded, and `strings.ToLower`. -/
structure ServiceReader where
  services : String → Option (List Service)
  toLower : String → String

/-- A service that passed the filters, under its lowered name. -/
structure Entry where
  service : String
  port : Nat
  deriving DecidableEq, Repr

def autogenName (device : Nat) (service : String) (port : Nat) : String :=
  "auto-d" ++ Text.decimal device ++ "-" ++ service ++ "-" ++ Text.decimal port

def autogenPlan (service ip : String) (port : Nat) : ProbeModule × String :=
  if service = "http" then (.http, "http://" ++ ip ++ ":" ++ Text.decimal port ++ "/")
  else if service = "https" then (.http, "https://" ++ ip ++ ":" ++ Text.decimal port ++ "/")
  else (.tcp, ip ++ ":" ++ Text.decimal port)

variable (d : DeviceRow) (e : Entry)

def targetName : String := autogenName d.id e.service e.port

def planOf : ProbeModule × String :=
  autogenPlan e.service d.ipAddress e.port

/-! ## What is discovered -/

def listDevicesForProbeAutogen (devices : Devices) : List DeviceRow :=
  devices.rows.filter fun d => d.detectedServices ≠ "[]" && d.detectedServices ≠ ""

variable (cfg : ProbeAutogenConfig) (decode : ServiceReader)

def candidate (svc : Service) : Option Entry :=
  let name := decode.toLower svc.name
  let serviceFilter := cfg.services.map fun s => decode.toLower (Text.trimSpace s)
  if serviceFilter ≠ [] ∧ name ∉ serviceFilter then none
  -- identities without a port have nothing to dial
  else if svc.port ≤ 0 then none
  else some ⟨name, svc.port.toNat⟩

/-- The services of a device that the policy admits. -/
def entries (d : DeviceRow) : List Entry :=
  if cfg.deviceTypes ≠ [] ∧ d.type.text ∉ cfg.deviceTypes then []
  else if d.ipAddress = "" then []
  else match decode.services d.detectedServices with
    | none => []
    | some services => services.filterMap (candidate cfg decode)

/-- The network's agent when it has one, else the center. -/
def vantageFor (networks : Networks) (networkId : Option Nat) : PlanVantage :=
  match networkId.bind fun id => (networks.get? id).bind boundAgent with
  | some agent => .agent agent
  | none => .center

/-! ## The rows of the sweep -/

variable (targets : ProbeTargets)

def autos : List ProbeTarget :=
  targets.rows.filter (·.source = .auto)

def autoByName (name : String) : Option ProbeTarget :=
  (autos targets).find? (·.name = name)

variable (t : ProbeTarget)

def drifted : Bool :=
  (t.module, t.target) ≠ planOf d e

variable (networks : Networks) (d : DeviceRow) (e : Entry)

/-- `UpdateProbeTarget`; the columns not named here are written back as they were read. -/
def redirect (prev t : ProbeTarget) : ProbeTarget :=
  { t with
    module := (planOf d e).1
    target := (planOf d e).2
    enabled := prev.enabled
    vantage := vantageFor networks d.networkId
    deviceId := some d.id }

/-- `ToggleProbeTargetEnabled`. -/
def toggle (enabled : Bool) (t : ProbeTarget) : ProbeTarget := { t with enabled := enabled }

def newTarget
    (durations : DurationsInRange cfg.intervalSeconds 10) (id : Nat) : ProbeTarget where
  id := id
  name := targetName d e
  module := (planOf d e).1
  target := (planOf d e).2
  intervalSeconds := cfg.intervalSeconds
  timeoutSeconds := 10
  durations := durations
  enabled := true
  notes := "auto-generated from a discovered service (#606)"
  vantage := vantageFor networks d.networkId
  options := ""
  deviceId := some d.id
  source := .auto

theorem inert_of_name {f : ProbeTarget → ProbeTarget} (hid : ∀ t, (f t).id = t.id)
    (hname : ∀ t, (f t).name = t.name) : probeTargetSchema.Inert f :=
  ⟨hid, fun s t => by simp only [probeTargetSchema, hname]⟩

theorem redirect_inert (prev : ProbeTarget) :
    probeTargetSchema.Inert (redirect networks d e prev) :=
  inert_of_name (fun _ => rfl) fun _ => rfl

theorem toggle_inert (enabled : Bool) : probeTargetSchema.Inert (toggle enabled) :=
  inert_of_name (fun _ => rfl) fun _ => rfl

/-! ## The sweep -/

structure Sweep where
  targets : ProbeTargets
  autoCount : Nat
  desired : List String
  created : Nat
  enabled : Nat
  disabled : Nat

/-- `autogen: create`: the table refused the row of this name. -/
structure SweepFailure where
  name : String
  reached : Sweep

namespace Sweep

def start : Sweep := ⟨targets, (autos targets).length, [], 0, 0, 0⟩

def mark (s : Sweep) (name : String) : Sweep := { s with desired := name :: s.desired }

/-- Follow the plan of a service whose target exists, and revive a parked target. -/
def follow (prev : ProbeTarget) (s : Sweep) :
    Sweep :=
  let updated :=
    if drifted d e prev then
      s.targets.modify prev.id (redirect networks d e prev) (redirect_inert networks d e prev)
    else s.targets
  if prev.enabled then { s with targets := updated }
  else
    { s with
      targets := updated.modify prev.id (toggle true) (toggle_inert true)
      enabled := s.enabled + 1 }

/-- The check constraint on the interval, then the unique name. -/
def create
    (s : Sweep) : Option Sweep :=
  if h : DurationsInRange cfg.intervalSeconds 10 then
    (s.targets.insert (newTarget cfg networks d e h) fun _ => rfl).map fun targets =>
      { s with targets := targets, autoCount := s.autoCount + 1, created := s.created + 1 }
  else none

/-- One service of a device. The cap leaves the loop over the services of the device. -/
def visit (networks : Networks) (existing : ProbeTargets)
    (d : DeviceRow) (s : Sweep) (e : Entry) : Outcome Sweep SweepFailure :=
  let marked := s.mark (targetName d e)
  match autoByName existing (targetName d e) with
  | some prev => .next (marked.follow networks d e prev)
  | none =>
    if cfg.maxTargets ≤ s.autoCount then .stop marked
    else match marked.create cfg networks d e with
      | none => .fail ⟨targetName d e, marked⟩
      | some s' => .next s'

def sweepDevice
    (networks : Networks) (existing : ProbeTargets) (s : Sweep) (d : DeviceRow) :
    Except SweepFailure Sweep :=
  loop (visit cfg networks existing d) s (entries cfg decode d)

/-- The enabled targets that no service stands for any more. -/
def gone (existing : ProbeTargets) (s : Sweep) : List ProbeTarget :=
  (autos existing).filter fun t => !(s.desired.contains t.name) && t.enabled

def park (existing : ProbeTargets) (s : Sweep) : Sweep :=
  { s with
    targets := run (fun targets t => targets.modify t.id (toggle false) (toggle_inert false))
      s.targets (gone existing s)
    disabled := s.disabled + (gone existing s).length }

end Sweep

/-- One sweep; a policy that is off parks everything. -/
def sweep (devices : Devices)
    (networks : Networks) (targets : ProbeTargets) : Except SweepFailure Sweep :=
  if cfg.enabled then
    ((listDevicesForProbeAutogen devices).foldlM
      (Sweep.sweepDevice cfg decode networks targets) (.start targets)).map (Sweep.park targets)
  else .ok (Sweep.park targets (.start targets))

/-! ## Names -/

theorem decimal_no_dash (n : Nat) : '-' ∉ (decimal n).toList :=
  fun h => absurd (isDigit_of_mem_decimal h) (by decide)

theorem autogenName_toList (device : Nat) (service : String) (port : Nat) :
    (autogenName device service port).toList = "auto-d".toList ++ ((decimal device).toList ++
      '-' :: (service.toList ++ '-' :: (decimal port).toList)) := by
  simp [autogenName]

/-- The device is read up to the first dash, the port behind the last. -/
theorem autogenName_inj {i j : Nat} {s t : String} {p q : Nat}
    (h : autogenName i s p = autogenName j t q) : i = j ∧ s = t ∧ p = q := by
  have hlist := congrArg String.toList h
  rw [autogenName_toList, autogenName_toList] at hlist
  obtain ⟨hdevice, hrest⟩ := append_cons_inj (decimal_no_dash i) (decimal_no_dash j)
    (List.append_cancel_left hlist)
  have hreverse := congrArg List.reverse hrest
  simp only [List.reverse_append, List.reverse_cons, List.append_assoc,
    List.singleton_append] at hreverse
  obtain ⟨hport, hservice⟩ := append_cons_inj (by simpa using decimal_no_dash p)
    (by simpa using decimal_no_dash q) hreverse
  refine ⟨decimal_inj (String.toList_inj.mp hdevice), ?_, ?_⟩
  · exact String.toList_inj.mp (List.reverse_injective hservice)
  · exact decimal_inj (String.toList_inj.mp (List.reverse_injective hport))

variable {d : DeviceRow} {e e' : Entry} {d' : DeviceRow}

theorem targetName_entry (h : targetName d e = targetName d e') : e = e' := by
  obtain ⟨-, hservice, hport⟩ := autogenName_inj h
  cases e; cases e'
  simp_all

theorem targetName_inj {devices : Devices} (hd : d ∈ devices.rows) (hd' : d' ∈ devices.rows)
    (h : targetName d e = targetName d' e') : d = d' ∧ e = e' := by
  obtain rfl := devices.eq_of_id hd hd' (autogenName_inj h).1
  exact ⟨rfl, targetName_entry h⟩

/-- The name of the target spells the device. -/
def OfDevice (d : DeviceRow) : Prop :=
  Text.hasPrefix ("auto-d" ++ Text.decimal d.id ++ "-") t.name = true

instance (d : DeviceRow) : Decidable (OfDevice t d) :=
  inferInstanceAs (Decidable (_ = true))

theorem ofDevice_targetName {t : ProbeTarget} (h : t.name = targetName d' e) :
    OfDevice t d ↔ d.id = d'.id := by
  unfold OfDevice hasPrefix
  rw [h, targetName, List.isPrefixOf_iff_prefix, autogenName_toList]
  constructor
  · rintro ⟨rest, hrest⟩
    simp only [String.toList_append, List.append_assoc] at hrest
    have hcons := List.append_cancel_left hrest
    exact decimal_inj (String.toList_inj.mp
      (append_cons_inj (decimal_no_dash _) (decimal_no_dash _) hcons).1)
  · intro hid
    rw [hid]
    exact ⟨e.service.toList ++ '-' :: (decimal e.port).toList, by simp⟩

end Steward.Probe
