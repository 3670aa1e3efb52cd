import Steward.Bridge

/-!
# The known-host check of discovery

A sighting of a passive source is dropped when `isKnownHost` finds its host. The check looks in
the network of the instance and for the MAC as the source spells it; the sink hands the report to
the bridge with the network whose CIDR holds the address, and the bridge normalizes the MAC.
-/

namespace Steward.Discovery

structure NewHostEvent where
  ip : String
  mac : String := ""
  source : String := ""
  hints : Fields := .empty

/-- `synthesizeReport`: the MAC goes into the fields and the evidence, the hints on top. -/
def synthesizeReport (ev : NewHostEvent) : HostReport where
  ip := ev.ip
  evidence :=
    if ev.mac ≠ "" then [⟨"mac", 0, some (KeyMap.empty.set "mac" ev.mac)⟩] else []
  device :=
    let fields := KeyMap.empty.set "inferred_type" "unknown"
    let fields := if ev.mac ≠ "" then fields.set "mac" ev.mac else fields
    { fields := ev.hints.entries.foldl (fun f e => f.set e.1 e.2) fields }

/-- A row of `networks` whose CIDR parses. -/
structure ResolvedNet where
  id : Nat
  bits : Nat
  contains : String → Bool

/-- `NetworkResolver.Resolve`: the longest CIDR that holds the address, the first of these. -/
def resolveNetwork (nets : List ResolvedNet) (ip : String) : Option Nat :=
  (nets.foldl (fun best n =>
    if n.contains ip && best.all fun b => decide (b.bits < n.bits) then some n else best)
      none).map ResolvedNet.id

/-- The network that the sink attributes a report to; `own` is the one of the instance. -/
def sinkNetwork (nets : List ResolvedNet) (own : Option Nat) (ip : String) : Option Nat :=
  (resolveNetwork nets ip).or own

def isKnownHost (db : Db) (own : Option Nat) (ip mac : String) : Bool :=
  mac ≠ "" && (db.rowByMAC mac).isSome || (db.slotHolder ip own).isSome

variable (db : Db) (now : Nat) (nets : List ResolvedNet) (own : Option Nat) (ev : NewHostEvent)

/-- The check answers that the host is unknown exactly when the bridge would create a row. -/
def Agrees : Prop :=
  isKnownHost db own ev.ip ev.mac = false ↔
    (resolveDeviceIdentity db now (reportMAC (synthesizeReport ev)) ev.ip
      (sinkNetwork nets own ev.ip)).isNew = true

instance :
    Decidable (Agrees db now nets own ev) := inferInstanceAs (Decidable (_ ↔ _))

variable {db : Db} {now : Nat} {mac ip : String} {net own : Option Nat}

end Steward.Discovery
