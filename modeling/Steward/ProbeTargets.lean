import Steward.Snapshots

/-!
# Probe targets

The rows of `probe_targets` as the plan dispatcher and the autogen sweep read them,
and the agents that the networks are bound to. The columns that record the last
result of a target are left out, neither of the two reads them.
-/

namespace Steward.Probe

open RowTable

inductive ProbeModule
  | http | tls | tcp | icmp | dns
  deriving DecidableEq, Repr

def ProbeModule.text : ProbeModule → String
  | .http => "http"
  | .tls => "tls"
  | .tcp => "tcp"
  | .icmp => "icmp"
  | .dns => "dns"

/-- The stored vantage: `center`, `agent:` with an id, or `all`. -/
inductive PlanVantage
  | center
  | agent (id : String)
  | all
  deriving DecidableEq, Repr

inductive ProbeSource
  | manual | auto | system
  deriving DecidableEq, Repr

/-- The check constraints on the two durations. -/
def DurationsInRange (interval timeout : Int) : Prop :=
  10 ≤ interval ∧ interval ≤ 86400 ∧ 1 ≤ timeout ∧ timeout ≤ 60

instance (interval timeout : Int) : Decidable (DurationsInRange interval timeout) :=
  inferInstanceAs (Decidable (_ ∧ _ ∧ _ ∧ _))

structure ProbeTarget where
  id : Nat
  name : String
  module : ProbeModule
  target : String
  intervalSeconds : Int
  timeoutSeconds : Int
  durations : DurationsInRange intervalSeconds timeoutSeconds
  enabled : Bool
  notes : String
  vantage : PlanVantage
  options : String
  deviceId : Option Nat
  source : ProbeSource
  deriving DecidableEq

/-- The names of probe targets are unique. -/
def probeTargetSchema : Schema ProbeTarget where
  id := ProbeTarget.id
  clash a b := decide (a.name = b.name)
  clash_symm a b := by simp only [eq_comm]

@[simp] theorem probeTargetSchema_id (t : ProbeTarget) : probeTargetSchema.id t = t.id := rfl

abbrev ProbeTargets := Table probeTargetSchema

/-- The agent a network is bound to; a blank id is no binding. -/
def boundAgent (n : Network) : Option String :=
  (n.agentId.map Text.trimSpace).filter (· ≠ "")

/-- Networks with these agents, in this order. -/
def boundTo (agents : List String) : Networks :=
  agents.foldl (fun t a => (t.insert (fun id => ⟨id, some a⟩) fun _ => rfl).getD t) .empty

theorem eq_of_name {targets : ProbeTargets} {s t : ProbeTarget} (hs : s ∈ targets.rows)
    (ht : t ∈ targets.rows) (h : s.name = t.name) : s = t := by
  by_contra hne
  have hid : s.id ≠ t.id := fun e => hne (targets.eq_of_id hs ht e)
  have hclash := targets.no_clash hs ht hid
  simp [probeTargetSchema, h] at hclash

theorem nodup_ids (targets : ProbeTargets) : (targets.rows.map ProbeTarget.id).Nodup :=
  List.pairwise_map.mpr (targets.ordered.imp fun h => Nat.ne_of_lt h)

end Steward.Probe
