import Steward.Recorder

/-!
# Alert envelopes

The rule engine builds a payload for a change event of a device, an agent or a
probe target, and a webhook channel turns it into an alert envelope. Receivers pair
a failure with its recovery by the envelope's `dedup_key`, made of the source, the
firing event and a reference to the entity.
-/

namespace Steward.Alert

open JsonValue

/-! ## Payloads of the rule engine -/

/-- The `change_type` column. -/
def changeText : ChangeType → String
  | .deviceAdded => "device_added"
  | .deviceChanged => "device_changed"
  | .deviceLost => "device_lost"
  | .deviceRecovered => "device_recovered"
  | .speaksWithNew => "speaks_with_new"
  | .listenPortAdded => "listen_port_added"
  | .deviceConfigChanged => "device_config_changed"
  | .probeFailed => "probe_failed"
  | .probeRecovered => "probe_recovered"
  | .agentOffline => "agent_offline"
  | .agentRecovered => "agent_recovered"

/-- The entity type that the recorder stamps beside the change type. -/
def entityType : ChangeType → EntityType
  | .probeFailed | .probeRecovered => .probeTarget
  | .agentOffline | .agentRecovered => .agent
  | _ => .device

structure ChangeLog where
  changeType : ChangeType
  entityId : Option Int
  networkId : Option Int
  detectedAt : String
  deriving DecidableEq, Repr

structure Rule where
  id : Int
  name : String
  deriving DecidableEq, Repr

structure AgentSnap where
  agentId : String
  hostname : String
  version : String
  deriving DecidableEq, Repr

structure ProbeSnap where
  targetName : String
  module : String
  target : String
  vantage : String
  error : String
  deriving DecidableEq, Repr

/-- A payload with its metadata decoded. -/
structure Payload where
  subject : String
  body : String
  metadata : Members
  deriving DecidableEq

def eventTitle : ChangeType → String
  | .deviceLost => "Device lost"
  | .deviceRecovered => "Device recovered"
  | .deviceAdded => "Device added"
  | .deviceChanged => "Device changed"
  | .speaksWithNew => "New device conversation"
  | .listenPortAdded => "New listening port"
  | _ => "Device event"

/-- The name a device goes by; a device that is not resolved has a stand-in. -/
def deviceName : Option DeviceRow → String
  | some d => if d.name = "" then d.ipAddress else d.name
  | none => "unknown device"

def deviceIp (dev : Option DeviceRow) : String := (dev.map DeviceRow.ipAddress).getD ""

def deviceMac (dev : Option DeviceRow) : String := (dev.map DeviceRow.macAddress).getD ""

def deviceType (dev : Option DeviceRow) : String := (dev.map fun d => d.type.text).getD ""

variable (rule : Rule) (row : ChangeLog)

def buildPayload (dev : Option DeviceRow) : Payload where
  subject := eventTitle row.changeType ++ ": " ++ deviceName dev
  body := "Device: " ++ deviceName dev ++ "\nIP: " ++ deviceIp dev ++ "\nMAC: " ++ deviceMac dev ++
    "\nType: " ++ deviceType dev ++ "\nEvent: " ++ changeText row.changeType ++
    "\nDetected at: " ++ row.detectedAt
  metadata :=
    [("event_type", .str (changeText row.changeType)), ("device_name", .str (deviceName dev)),
      ("ip_address", .str (deviceIp dev)), ("mac_address", .str (deviceMac dev)),
      ("device_type", .str (deviceType dev)), ("rule_id", .num rule.id),
      ("rule_name", .str rule.name), ("detected_at", .str row.detectedAt)] ++
    (row.networkId.map fun n => ("network_id", Json.num n)).toList

def buildAgentPayload (snap : AgentSnap) : Payload where
  subject := (if row.changeType = .agentRecovered then "Agent recovered" else "Agent offline") ++
    ": " ++ (if snap.hostname = "" then snap.agentId else snap.hostname)
  body := "Agent: " ++ snap.agentId ++ "\nHostname: " ++ snap.hostname ++ "\nVersion: " ++
    snap.version ++ "\nEvent: " ++ changeText row.changeType ++ "\nDetected at: " ++ row.detectedAt
  metadata :=
    [("event_type", .str (changeText row.changeType)), ("agent_id", .str snap.agentId),
      ("agent_name", .str snap.hostname), ("rule_id", .num rule.id), ("rule_name", .str rule.name),
      ("detected_at", .str row.detectedAt), ("source_ref", .str ("agent/" ++ snap.agentId))]

/-- The target of a probe event; ids are positive. -/
def targetId (row : ChangeLog) : Option Nat := (row.entityId.filter fun i => 0 < i).map Int.toNat

def buildProbePayload (snap : ProbeSnap) : Payload where
  subject := (if row.changeType = .probeRecovered then "Probe recovered" else "Probe failed") ++
    ": " ++ snap.targetName
  body := "Target: " ++ snap.targetName ++ "\nModule: " ++ snap.module ++ "\nAddress: " ++
    snap.target ++ "\nVantage: " ++ snap.vantage ++ "\nEvent: " ++ changeText row.changeType ++
    "\n" ++ (if snap.error = "" then "" else "Error: " ++ snap.error ++ "\n") ++
    "Detected at: " ++ row.detectedAt
  metadata :=
    [("event_type", .str (changeText row.changeType)), ("target_name", .str snap.targetName),
      ("module", .str snap.module), ("target_address", .str snap.target), ("rule_id", .num rule.id),
      ("rule_name", .str rule.name), ("detected_at", .str row.detectedAt)] ++
    (if snap.vantage = "" then [] else [("vantage", .str snap.vantage)]) ++
    (if snap.error = "" then [] else [("error", .str snap.error)]) ++
    match targetId row with
    | some i => [("target_id", .num i), ("source_ref", .str ("probe/" ++ Text.decimal i))]
    | none => []

/-- A change event with what the engine resolved for it. -/
structure RuleEvent where
  row : ChangeLog
  dev : Option DeviceRow
  agent : AgentSnap
  probe : ProbeSnap
  deriving DecidableEq

/-- The three paths of `handleEvent`. -/
def RuleEvent.payload (rule : Rule) (ev : RuleEvent) : Payload :=
  match entityType ev.row.changeType with
  | .device => buildPayload rule ev.row ev.dev
  | .agent => buildAgentPayload rule ev.row ev.agent
  | .probeTarget => buildProbePayload rule ev.row ev.probe

/-! ## The envelope -/

/-- The event a recovery resolves, any other event itself. -/
def firing : ChangeType → ChangeType
  | .deviceRecovered => .deviceLost
  | .probeRecovered => .probeFailed
  | .agentRecovered => .agentOffline
  | c => c

/-- What a device is known by: its MAC, without one its IP, without either its name. A device
whose row is not found is known by the id in the event only. -/
inductive Identity
  | mac (text : String)
  | ip (text : String)
  | name (text : String)
  | unresolved (id : Option Int)
  deriving DecidableEq, Repr

def Identity.text : Identity → String
  | .mac t | .ip t | .name t => t
  | .unresolved _ => deviceName none

variable (rule : Rule) (row : ChangeLog)

variable (source : String)

variable {c c' : ChangeType}

end Steward.Alert
