import Steward.ProbeEngine
import Steward.ProbePlans

/-!
# The tracks an agent may write

An agent is to probe the enabled targets that are assigned to it or to all. The results
it reports are taken for any target that has a row, whether the target is enabled or not
and wherever it is assigned. So a batch stays on the agent's own tracks when each target of
it that has a row selects the agent, and an old or made up plan reaches other targets.
-/

namespace Steward.Probe

open List

/-- The target is enabled and its vantage selects the agent. -/
def ProbeTarget.Selects (t : ProbeTarget) (agent : String) : Prop :=
  t.enabled = true ∧ (t.vantage = .all ∨ t.vantage = .agent agent)

instance (t : ProbeTarget) (agent : String) : Decidable (t.Selects agent) :=
  inferInstanceAs (Decidable (_ ∧ (_ ∨ _)))

variable (targets : ProbeTargets) (agent : String)

def Selected (id : Nat) : Prop :=
  ∃ t ∈ targets.rows, t.id = id ∧ t.Selects agent

instance (id : Nat) :
    Decidable (Selected targets agent id) :=
  inferInstanceAs (Decidable (∃ t ∈ targets.rows, t.id = id ∧ t.Selects agent))

namespace Engine

/-- The engine on this table. -/
def onTable (e : Engine) (targets : ProbeTargets) : Engine :=
  { e with
    known := fun id => targets.rows.any fun t => t.id = id
    enabled := fun id => targets.rows.any fun t => t.id = id && t.enabled }

/-- Every row and every event that a call adds is of a target that selects the agent. -/
def Isolated (before after : Engine) : Prop :=
  (∀ row ∈ after.results.drop before.results.length, Selected targets agent row.targetId) ∧
    ∀ event ∈ after.emitted.drop before.emitted.length, Selected targets agent event.1.target

instance (before after : Engine) :
    Decidable (Isolated targets agent before after) :=
  inferInstanceAs (Decidable ((∀ _ ∈ _, _) ∧ ∀ _ ∈ _, _))

end Engine

section Batch

variable (agent : String)

theorem accept_emitted (e : Engine) (r : AgentResultReport) :
    ∃ change : Option Change, (e.accept agent r).emitted =
      e.emitted ++ (change.map fun c => (⟨r.targetId, .agent agent⟩, c)).toList :=
  ⟨_, rfl⟩

/-- What holds of every known target of a batch holds of all that a call adds. -/
theorem ingestFrom_added {P : Nat → Prop} (fails : Nat → Bool) (i : Nat) (e : Engine)
    {batch : List AgentResultReport} (h : ∀ r ∈ batch, e.known r.targetId → P r.targetId) :
    ∃ rows events, (Engine.ingestFrom agent fails i e batch).1.results = e.results ++ rows ∧
      (Engine.ingestFrom agent fails i e batch).1.emitted = e.emitted ++ events ∧
        (∀ row ∈ rows, P row.targetId) ∧ ∀ event ∈ events, P event.1.target := by
  induction batch generalizing i e with
  | nil => exact ⟨[], [], by simp [Engine.ingestFrom]⟩
  | cons r rest ih =>
    obtain ⟨hr, hrest⟩ := forall_mem_cons.mp h
    by_cases hknown : e.known r.targetId
    · by_cases hfail : fails i
      · exact ⟨[], [], by simp [Engine.ingestFrom, hknown, hfail]⟩
      obtain ⟨change, hfirst⟩ := accept_emitted agent e r
      obtain ⟨rows, events, hrows, hevents, hall, htracks⟩ := ih (i + 1) (e.accept agent r) hrest
      refine ⟨r.row agent :: rows,
        (change.map fun c => (⟨r.targetId, .agent agent⟩, c)).toList ++ events, ?_, ?_, ?_, ?_⟩
      · simp [Engine.ingestFrom, hknown, hfail, hrows]
      · simp [Engine.ingestFrom, hknown, hfail, hevents, hfirst]
      · exact forall_mem_cons.mpr ⟨hr hknown, hall⟩
      · intro event hevent
        rcases mem_append.mp hevent with hevent | hevent
        · cases change with
          | none => cases hevent
          | some c => rw [mem_singleton.mp hevent]; exact hr hknown
        · exact htracks event hevent
    · obtain ⟨rows, events, hadded⟩ := ih (i + 1) e hrest
      exact ⟨rows, events, by simpa [Engine.ingestFrom, hknown] using hadded⟩

theorem insertFails_never (known : Nat → Bool) (i : Nat) (batch : List AgentResultReport) :
    insertFails known (fun _ => false) i batch = false := by
  induction batch generalizing i with
  | nil => rfl
  | cons r rest ih => simp [insertFails, ih]

/-- A batch stays on the targets that select the agent, whichever inserts fail, exactly when
every target of it that has a row is enabled and selects the agent: nothing in the call looks
at the plan. -/
theorem ingest_isolated_iff (targets : ProbeTargets) (e : Engine)
    (batch : List AgentResultReport) :
    (∀ fails, Engine.Isolated targets agent (e.onTable targets)
        ((e.onTable targets).ingestAgentResults agent fails batch).1) ↔
      ∀ r ∈ batch, (∃ t ∈ targets.rows, t.id = r.targetId) →
        Selected targets agent r.targetId := by
  have hknown : ∀ id, (e.onTable targets).known id = true ↔ ∃ t ∈ targets.rows, t.id = id := by
    simp [Engine.onTable]
  simp only [← hknown]
  constructor
  · intro h r hr hrow
    have hrows := (h fun _ => false).1
    rw [Engine.ingestAgentResults, ingestFrom_stored _ _ _ _ _ (insertFails_never _ 0 batch),
      drop_left, forall_mem_map] at hrows
    exact hrows r (mem_filter.mpr ⟨hr, hrow⟩)
  · intro h fails
    obtain ⟨rows, events, hrows, hevents, hall, htracks⟩ :=
      ingestFrom_added (P := Selected targets agent) agent fails 0 (e.onTable targets) h
    unfold Engine.Isolated Engine.ingestAgentResults
    rw [hrows, hevents, drop_left, drop_left]
    exact ⟨hall, htracks⟩

end Batch

def threeFails : List AgentResultReport := List.replicate 3 (sampleReport 1 .fail)

/-- An engine with one target, and the same after three failures reported by an agent. -/
def foreignReport (vantage : PlanVantage) : Engine × Engine :=
  let e := sampleEngine.onTable (sampleTargets vantage)
  (e, (e.ingestAgentResults "lan" (fun _ => false) threeFails).1)

/-- The failures raise an alert on a target of the center, and on one of another agent. -/
theorem foreign_alerts :
    ((foreignReport .center).2.emitted = [(⟨1, .agent "lan"⟩, .probeFailed)] ∧
      ¬ Engine.Isolated (sampleTargets .center) "lan" (foreignReport .center).1
        (foreignReport .center).2) ∧
    (foreignReport (.agent "dmz")).2.emitted = [(⟨1, .agent "lan"⟩, .probeFailed)] ∧
      ¬ Engine.Isolated (sampleTargets (.agent "dmz")) "lan" (foreignReport (.agent "dmz")).1
        (foreignReport (.agent "dmz")).2 := by
  decide +kernel

end Steward.Probe
