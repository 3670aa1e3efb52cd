import Mathlib.Logic.Function.Basic
import Steward.ProbeTargets

/-!
# Probe plans of the agents

The dispatcher that ships probe plans to the agents over the command channel. Every
tick groups the enabled targets by agent and enqueues the plan of an agent when its
fingerprint changed, or when it was last sent a while ago. The fingerprints are kept
in memory only; the agents themselves keep the last plan they were sent.
-/

namespace Steward.Probe

open RowTable Runs List

/-- One target as it is shipped to an agent. -/
structure Spec where
  id : Nat
  name : String
  module : ProbeModule
  target : String
  intervalSeconds : Int
  timeoutSeconds : Int
  vantage : PlanVantage
  options : Option String
  deriving DecidableEq

/-- The modules every agent is taken to support until it reports its own. -/
def legacySupportedModules : List ProbeModule := [.icmp, .http, .tls]

def planRefreshInterval : Int := 5 * 60

structure AgentStatus where
  agentId : String
  supportedModules : String
  deriving DecidableEq

/-- The digest of a plan. Equal digests mean equal targets, and no digest is empty. -/
structure PlanFingerprint where
  hash : List Spec → String
  ne_empty : ∀ specs, hash specs ≠ ""
  ids_eq : ∀ specs specs', hash specs = hash specs' → specs.map Spec.id = specs'.map Spec.id

/-! ## Agents and what they support -/

def knownAgents (networks : Networks) : List String := networks.rows.filterMap boundAgent

def declaredModules (r : AgentStatus) : List String :=
  if Text.trimSpace r.supportedModules = "" then []
  else ((Text.split r.supportedModules ',').map Text.trimSpace).filter (· ≠ "")

abbrev Capabilities := String → Option (List String)

def agentCapabilities (rows : List AgentStatus) : Capabilities :=
  rows.foldl (fun caps r =>
    if declaredModules r = [] then caps
    else Function.update caps r.agentId (some (declaredModules r))) fun _ => none

def agentSupports (caps : Capabilities) (agent : String) (m : ProbeModule) : Bool :=
  match caps agent with
  | some declared => m.text ∈ declared
  | none => m ∈ legacySupportedModules

/-! ## One tick -/

/-- The agents a target is shipped to, once for every mention. -/
def recipients (agents : List String) : PlanVantage → List String
  | .center => []
  | .agent id => if id = "" then [] else [id]
  | .all => agents

/-- The targets in the order in which they are handed to the agents. -/
def shipments (agents : List String) (caps : Capabilities) (targets : List ProbeTarget) :
    List (String × ProbeTarget) :=
  targets.flatMap fun t =>
    ((recipients agents t.vantage).filter fun a => agentSupports caps a t.module).map (·, t)

def perAgent (shipped : List (String × ProbeTarget)) (agent : String) : List ProbeTarget :=
  (shipped.filter (·.1 = agent)).map Prod.snd

variable (vantage : PlanVantage)

/-- The vantage the agent stamps on its results. -/
def agentVantageFor (agent : String) : PlanVantage :=
  if vantage = .all then .agent agent else vantage

def ProbeTarget.spec (agent : String) (t : ProbeTarget) : Spec :=
  ⟨t.id, t.name, t.module, t.target, t.intervalSeconds, t.timeoutSeconds,
    agentVantageFor t.vantage agent,
    if Text.trimSpace t.options = "" then none else some t.options⟩

def planFor (agent : String) (targets : List ProbeTarget) : List Spec :=
  (targets.map (ProbeTarget.spec agent)).insertionSort (·.id ≤ ·.id)

/-- The tables the dispatcher reads, its memory, and the commands it enqueued. -/
structure Fleet where
  targets : ProbeTargets
  networks : Networks
  status : List AgentStatus
  lastFingerprint : String → String
  lastSentAt : String → Option Int
  /-- Newest first. -/
  commands : List (String × List Spec)

/-- Which reads of a tick succeed. -/
structure Reads where
  targets : Bool
  networks : Bool
  status : Bool
  deriving DecidableEq

def Reads.complete : Reads := ⟨true, true, true⟩

namespace Fleet

def start (targets : ProbeTargets) (networks : Networks) (status : List AgentStatus) : Fleet :=
  ⟨targets, networks, status, fun _ => "", fun _ => none, []⟩

variable (f : Fleet)

/-- A sent time that was never set lies further back than any refresh. -/
def sentLately (now : Int) (agent : String) : Bool :=
  (f.lastSentAt agent).any fun sent => now - sent < planRefreshInterval

variable (F : PlanFingerprint) (now : Int)

/-- A command that goes through, with what is remembered of it. -/
def enqueue (agent : String) (specs : List Spec) :
    Fleet :=
  { f with
    lastFingerprint := Function.update f.lastFingerprint agent (F.hash specs)
    lastSentAt := Function.update f.lastSentAt agent (some now)
    commands := (agent, specs) :: f.commands }

def sendPlan (agent : String)
    (targets : List ProbeTarget) : Fleet :=
  let specs := planFor agent targets
  if F.hash specs = f.lastFingerprint agent ∧ (specs = [] ∨ f.sentLately now agent) then f
  else f.enqueue F now agent specs

/-- The empty plan for an agent that nothing was shipped to. -/
def clearPlan (shipped : List (String × ProbeTarget)) (f : Fleet)
    (agent : String) : Fleet :=
  if agent ∈ shipped.map Prod.fst then f
  else if f.lastFingerprint agent = "" then f
  else f.sendPlan F now agent []

def enabledTargets : List ProbeTarget := f.targets.rows.filter ProbeTarget.enabled

variable (reads : Reads)

def agentsRead : List String :=
  if reads.networks then knownAgents f.networks else []

def capabilitiesRead : Capabilities :=
  if reads.status then agentCapabilities f.status else fun _ => none

def shipped : List (String × ProbeTarget) :=
  shipments (f.agentsRead reads) (f.capabilitiesRead reads) f.enabledTargets

def dispatchTick (f : Fleet) : Fleet :=
  if reads.targets then
    let shipped := f.shipped reads
    let sent := run (fun f a => f.sendPlan F now a (perAgent shipped a)) f
      (shipped.map Prod.fst).dedup
    run (clearPlan F now shipped) sent (f.agentsRead reads)
  else f

end Fleet

/-! ## Histories -/

inductive FleetEvent
  /-- Any change of the tables by others. -/
  | edit (targets : ProbeTargets) (networks : Networks) (status : List AgentStatus)
  | restart
  | tick (now : Int) (reads : Reads)

namespace Fleet

def step (F : PlanFingerprint) (f : Fleet) : FleetEvent → Fleet
  | .edit targets networks status =>
    { f with targets := targets, networks := networks, status := status }
  | .restart => { f with lastFingerprint := fun _ => "", lastSentAt := fun _ => none }
  | .tick now reads => f.dispatchTick F now reads

/-- The last plan ever enqueued for an agent. -/
def lastPlan (f : Fleet) (agent : String) : Option (List Spec) :=
  (f.commands.find? (·.1 = agent)).map Prod.snd

/-- The enabled targets whose vantage selects the agent and whose module it supports. -/
def wanted (f : Fleet) (agent : String) : List ProbeTarget :=
  f.enabledTargets.filter fun t =>
    agent ∈ recipients (knownAgents f.networks) t.vantage &&
      agentSupports (agentCapabilities f.status) agent t.module

/-- Every agent that was ever sent a plan was last sent exactly the targets wanted of it. -/
def Converged (f : Fleet) : Prop :=
  ∀ agent plan, f.lastPlan agent = some plan →
    (plan.map Spec.id).Perm ((f.wanted agent).map ProbeTarget.id)

/-! ### One plan -/

section Sending

variable (F : PlanFingerprint) {now : Int} {f : Fleet} {agent b : String}
  {targets : List ProbeTarget}

/-- A remembered fingerprint is the one of the last plan. -/
def Recorded (f : Fleet) : Prop :=
  ∀ agent, f.lastFingerprint agent ≠ "" →
    ∃ plan, f.lastPlan agent = some plan ∧ F.hash plan = f.lastFingerprint agent

/-- What the agent holds and what the dispatcher remembers of it. -/
def planState (f : Fleet) (agent : String) : Option (List Spec) × String :=
  (f.lastPlan agent, f.lastFingerprint agent)

/-- The last plan of the agent lists these targets. -/
def Lists (f : Fleet) (agent : String) (ids : List Nat) : Prop :=
  ∃ plan, f.lastPlan agent = some plan ∧ plan.map Spec.id = ids

theorem sendPlan_cases (now : Int) (f : Fleet) (b : String) (targets : List ProbeTarget) :
    f.sendPlan F now b targets = f ∧ F.hash (planFor b targets) = f.lastFingerprint b ∨
      f.sendPlan F now b targets = f.enqueue F now b (planFor b targets) := by
  simp only [sendPlan]
  split
  case isTrue h => exact .inl ⟨rfl, h.1⟩
  case isFalse => exact .inr rfl

theorem sendPlan_planState (now : Int) (f : Fleet) (targets : List ProbeTarget) (h : agent ≠ b) :
    (f.sendPlan F now b targets).planState agent = f.planState agent := by
  obtain ⟨he, -⟩ | he := sendPlan_cases F now f b targets
  · rw [he]
  · simp [he, planState, enqueue, lastPlan, h, Ne.symm h]

theorem sendPlan_recorded (hf : f.Recorded F) : (f.sendPlan F now b targets).Recorded F := by
  obtain ⟨he, -⟩ | he := sendPlan_cases F now f b targets
  · rwa [he]
  · intro agent hne
    by_cases h : agent = b
    · subst h
      exact ⟨planFor agent targets, by simp [he, enqueue, lastPlan], by simp [he, enqueue]⟩
    · obtain ⟨hplan, hfp⟩ := Prod.mk.inj (sendPlan_planState F now f targets h)
      rw [hfp] at hne
      rw [hplan, hfp]
      exact hf agent hne

theorem sendPlan_fingerprint : (f.sendPlan F now b targets).lastFingerprint b ≠ "" := by
  obtain ⟨he, hhash⟩ | he := sendPlan_cases F now f b targets
  · rw [he, ← hhash]
    exact F.ne_empty _
  · simpa [he, enqueue] using F.ne_empty _

/-- Sent or not, the last plan lists the targets: an equal fingerprint means equal targets. -/
theorem sendPlan_lists (hf : f.Recorded F) :
    (f.sendPlan F now b targets).Lists b ((planFor b targets).map Spec.id) := by
  obtain ⟨he, hhash⟩ | he := sendPlan_cases F now f b targets
  · obtain ⟨plan, hplan, heq⟩ := hf b (hhash ▸ F.ne_empty _)
    rw [he]
    exact ⟨plan, hplan, F.ids_eq _ _ (heq.trans hhash.symm)⟩
  · exact ⟨planFor b targets, by simp [he, enqueue, lastPlan], rfl⟩

theorem clearPlan_cases (now : Int) (shipped : List (String × ProbeTarget)) (f : Fleet)
    (b : String) :
    clearPlan F now shipped f b = f ∨ b ∉ shipped.map Prod.fst ∧ f.lastFingerprint b ≠ "" ∧
      clearPlan F now shipped f b = f.sendPlan F now b [] := by
  unfold clearPlan
  split
  · exact .inl rfl
  case isFalse hshipped =>
    split
    · exact .inl rfl
    case isFalse hfp => exact .inr ⟨hshipped, hfp, rfl⟩

/-! ### The two loops of a tick -/

variable (now) (lists : String → List ProbeTarget) (shipped : List (String × ProbeTarget))
  {keys agents : List String}

theorem sends_planState (h : agent ∉ keys) :
    (run (fun f a => f.sendPlan F now a (lists a)) f keys).planState agent = f.planState agent := by
  refine run_invariant (C := fun _ b => b ∈ keys)
    (P := fun g => g.planState agent = f.planState agent) ?_ rfl
    (along_of_forall _ f keys fun _ hb => hb)
  intro g b hg hb
  have hne : agent ≠ b := fun e => h (e ▸ hb)
  rw [sendPlan_planState F now g _ hne, hg]

theorem sends_recorded (hf : f.Recorded F) (keys : List String) :
    (run (fun f a => f.sendPlan F now a (lists a)) f keys).Recorded F :=
  run_preserves (fun _ _ h => sendPlan_recorded F h) hf

theorem sends_lists (hf : f.Recorded F) (h : agent ∈ keys) :
    (run (fun f a => f.sendPlan F now a (lists a)) f keys).Lists agent
      ((planFor agent (lists agent)).map Spec.id) := by
  suffices hrun : Recorded F (run (fun f a => f.sendPlan F now a (lists a)) f keys) ∧ _ from hrun.2
  refine run_of_hit (P := Recorded F) (Q := fun g => g.Recorded F ∧
    g.Lists agent ((planFor agent (lists agent)).map Spec.id)) (H := (· = agent)) ?_ ?_ hf
    ⟨agent, h, rfl⟩
  · intro b _ g hg
    refine ⟨?_, fun _ => sendPlan_recorded F hg⟩
    rintro rfl
    exact ⟨sendPlan_recorded F hg, sendPlan_lists F hg⟩
  · rintro b _ g ⟨hg, hlists⟩
    refine ⟨sendPlan_recorded F hg, ?_⟩
    by_cases hb : agent = b
    · subst hb
      exact sendPlan_lists F hg
    · obtain ⟨plan, hplan, hids⟩ := hlists
      exact ⟨plan, (congrArg Prod.fst (sendPlan_planState F now g _ hb)).trans hplan, hids⟩

theorem clearPlan_recorded (hf : f.Recorded F) : (clearPlan F now shipped f b).Recorded F := by
  obtain he | ⟨-, -, he⟩ := clearPlan_cases F now shipped f b
  · rwa [he]
  · rw [he]
    exact sendPlan_recorded F hf

theorem clearPlan_planState (h : agent ≠ b) :
    (clearPlan F now shipped f b).planState agent = f.planState agent := by
  obtain he | ⟨-, -, he⟩ := clearPlan_cases F now shipped f b
  · rw [he]
  · rw [he, sendPlan_planState F now f _ h]

theorem clears_planState
    (h : agent ∈ shipped.map Prod.fst ∨ agent ∉ agents ∨ f.lastFingerprint agent = "") :
    (run (clearPlan F now shipped) f agents).planState agent = f.planState agent := by
  refine run_invariant (C := fun _ b => b ∈ agents)
    (P := fun g => g.planState agent = f.planState agent) ?_ rfl
    (along_of_forall _ f agents fun _ hb => hb)
  intro g b hg hb
  by_cases hagent : agent = b
  · subst hagent
    obtain he | ⟨hshipped, hfp, -⟩ := clearPlan_cases F now shipped g agent
    · rw [he, hg]
    · rw [show g.lastFingerprint agent = f.lastFingerprint agent from congrArg Prod.snd hg] at hfp
      rcases h with h | h | h
      · exact absurd h hshipped
      · exact absurd hb h
      · exact absurd h hfp
  · rw [clearPlan_planState F now shipped hagent, hg]

theorem clears_lists (hf : f.Recorded F) (hagent : agent ∈ agents)
    (hshipped : agent ∉ shipped.map Prod.fst) (hfp : f.lastFingerprint agent ≠ "") :
    (run (clearPlan F now shipped) f agents).Lists agent [] := by
  have hclear : ∀ g : Fleet, g.Recorded F → g.lastFingerprint agent ≠ "" →
      (clearPlan F now shipped g agent).Lists agent [] := by
    intro g hg hfp
    rw [clearPlan, if_neg hshipped, if_neg hfp]
    exact sendPlan_lists F hg
  have hkeep : ∀ g : Fleet, g.lastFingerprint agent ≠ "" → ∀ b,
      (clearPlan F now shipped g b).lastFingerprint agent ≠ "" := by
    intro g hfp b
    by_cases hb : agent = b
    · subst hb
      rw [clearPlan, if_neg hshipped, if_neg hfp]
      exact sendPlan_fingerprint F
    · rwa [show (clearPlan F now shipped g b).lastFingerprint agent = g.lastFingerprint agent from
        congrArg Prod.snd (clearPlan_planState F now shipped hb)]
  suffices hrun : (Recorded F (run (clearPlan F now shipped) f agents) ∧
    (run (clearPlan F now shipped) f agents).lastFingerprint agent ≠ "") ∧ _ from hrun.2
  refine run_of_hit (P := fun g : Fleet => g.Recorded F ∧ g.lastFingerprint agent ≠ "")
    (Q := fun g => (g.Recorded F ∧ g.lastFingerprint agent ≠ "") ∧ g.Lists agent [])
    (H := (· = agent)) ?_ ?_ ⟨hf, hfp⟩ ⟨agent, hagent, rfl⟩
  · rintro b _ g ⟨hg, hfp⟩
    have hnext := And.intro (clearPlan_recorded F now shipped (b := b) hg) (hkeep g hfp b)
    refine ⟨?_, fun _ => hnext⟩
    rintro rfl
    exact ⟨hnext, hclear g hg hfp⟩
  · rintro b _ g ⟨⟨hg, hfp⟩, plan, hplan, hids⟩
    refine ⟨⟨clearPlan_recorded F now shipped hg, hkeep g hfp b⟩, ?_⟩
    by_cases hb : agent = b
    · subst hb
      exact hclear g hg hfp
    · exact ⟨plan, (congrArg Prod.fst (clearPlan_planState F now shipped hb)).trans hplan, hids⟩

/-! ### A whole tick -/

variable {reads : Reads}

theorem dispatchTick_of_read (h : reads.targets = true) :
    f.dispatchTick F now reads = run (clearPlan F now (f.shipped reads))
      (run (fun g a => g.sendPlan F now a (perAgent (f.shipped reads) a)) f
        ((f.shipped reads).map Prod.fst).dedup) (f.agentsRead reads) := by
  rw [dispatchTick, if_pos h]

theorem dispatchTick_shipped (hf : f.Recorded F) (hreads : reads.targets = true)
    (h : agent ∈ (f.shipped reads).map Prod.fst) :
    (f.dispatchTick F now reads).Lists agent
      ((planFor agent (perAgent (f.shipped reads) agent)).map Spec.id) := by
  obtain ⟨plan, hplan, hids⟩ := sends_lists F now (perAgent (f.shipped reads)) hf
    (mem_dedup.mpr h)
  rw [dispatchTick_of_read F now hreads]
  exact ⟨plan, (congrArg Prod.fst (clears_planState F now _ (.inl h))).trans hplan, hids⟩

theorem dispatchTick_cleared (hf : f.Recorded F) (hreads : reads.targets = true)
    (hshipped : agent ∉ (f.shipped reads).map Prod.fst) (hagent : agent ∈ f.agentsRead reads)
    (hfp : f.lastFingerprint agent ≠ "") : (f.dispatchTick F now reads).Lists agent [] := by
  rw [dispatchTick_of_read F now hreads]
  have hsent := sends_planState F now (f := f) (perAgent (f.shipped reads))
    (mt mem_dedup.mp hshipped)
  refine clears_lists F now _ (sends_recorded F now _ hf _) hagent hshipped ?_
  exact fun e => hfp ((congrArg Prod.snd hsent).symm.trans e)

theorem dispatchTick_kept (hreads : reads.targets = true)
    (hshipped : agent ∉ (f.shipped reads).map Prod.fst)
    (h : agent ∉ f.agentsRead reads ∨ f.lastFingerprint agent = "") :
    (f.dispatchTick F now reads).lastPlan agent = f.lastPlan agent := by
  rw [dispatchTick_of_read F now hreads]
  have hsent := sends_planState F now (f := f) (perAgent (f.shipped reads))
    (mt mem_dedup.mp hshipped)
  refine congrArg Prod.fst ((clears_planState F now (f.shipped reads) (.inr ?_)).trans hsent)
  exact h.imp_right fun h => (congrArg Prod.snd hsent).trans h

theorem dispatchTick_recorded (hf : f.Recorded F) : (f.dispatchTick F now reads).Recorded F := by
  unfold dispatchTick
  split
  · exact run_preserves (fun _ _ h => clearPlan_recorded F now _ h) (sends_recorded F now _ hf _)
  · exact hf

end Sending

/-- Everything the tables say. -/
def tables (f : Fleet) : ProbeTargets × Networks × List AgentStatus :=
  (f.targets, f.networks, f.status)

variable (F : PlanFingerprint) (now : Int)

theorem sendPlan_tables (f : Fleet) (b : String) (targets : List ProbeTarget) :
    (f.sendPlan F now b targets).tables = f.tables := by
  obtain ⟨he, -⟩ | he := sendPlan_cases F now f b targets
  · rw [he]
  · rw [he, enqueue, tables, tables]

theorem dispatchTick_tables (reads : Reads) (f : Fleet) :
    (f.dispatchTick F now reads).tables = f.tables := by
  unfold dispatchTick
  split
  · refine run_preserves (P := fun g : Fleet => g.tables = f.tables) ?_
      (run_preserves (P := fun g : Fleet => g.tables = f.tables) ?_ rfl)
    · intro g b hg
      obtain he | ⟨-, -, he⟩ := clearPlan_cases F now (f.shipped reads) g b
      · rw [he, hg]
      · rw [he, sendPlan_tables, hg]
    · intro g b hg
      rw [sendPlan_tables, hg]
  · rfl

theorem dispatchTick_wanted (reads : Reads) (f : Fleet) (agent : String) :
    (f.dispatchTick F now reads).wanted agent = f.wanted agent := by
  have h := dispatchTick_tables F now reads f
  simp only [tables, Prod.mk.injEq] at h
  simp only [wanted, enabledTargets, h]

/-! ### What is shipped and what is wanted -/

theorem shipped_complete (f : Fleet) : f.shipped .complete =
    shipments (knownAgents f.networks) (agentCapabilities f.status) f.enabledTargets := rfl

variable {agent : String} {f : Fleet}

theorem perAgent_eq_nil {shipped : List (String × ProbeTarget)} :
    perAgent shipped agent = [] ↔ agent ∉ shipped.map Prod.fst := by
  rw [perAgent, map_eq_nil_iff, filter_eq_nil_iff]
  constructor
  · intro h hmem
    obtain ⟨s, hs, rfl⟩ := mem_map.mp hmem
    exact h s hs (by simp)
  · intro h s hs heq
    exact h (mem_map.mpr ⟨s, hs, by simpa using heq⟩)

/-- A supported target is handed to an agent once for every mention of the agent. -/
theorem handed_to (supports : String → Bool) (agents : List String) (t : ProbeTarget)
    (agent : String) :
    (((agents.filter supports).map (·, t)).filter (·.1 = agent)).map Prod.snd =
      if supports agent then replicate (agents.count agent) t else [] := by
  have hmentions : (agents.filter supports).filter (· = agent) =
      replicate ((agents.filter supports).count agent) agent := filter_eq _
  rw [filter_map, map_map]
  simp only [Function.comp_def, hmentions, map_replicate]
  by_cases h : supports agent = true
  · rw [if_pos h, count_filter h]
  · rw [if_neg h, count_eq_zero.mpr (by simp [h]), replicate_zero]

theorem perAgent_shipments (agents : List String) (caps : Capabilities)
    (targets : List ProbeTarget) (agent : String) :
    perAgent (shipments agents caps targets) agent = targets.flatMap fun t =>
      if agentSupports caps agent t.module then
        replicate ((recipients agents t.vantage).count agent) t
      else [] := by
  simp only [perAgent, shipments, filter_flatMap, map_flatMap]
  congr 1
  funext t
  exact handed_to (fun a => agentSupports caps a t.module) _ t agent

theorem flatMap_replicate_eq_filter {ts : List ProbeTarget} {n : ProbeTarget → Nat}
    {p : ProbeTarget → Bool} (h : ∀ t ∈ ts, p t = true → n t ≤ 1) :
    (ts.flatMap fun t => if p t then replicate (n t) t else []) =
      ts.filter fun t => decide (0 < n t) && p t := by
  induction ts with
  | nil => rfl
  | cons t rest ih =>
    have hrest := ih fun s hs => h s (by simp [hs])
    rw [flatMap_cons, hrest]
    have ht := h t (by simp)
    by_cases hp : p t = true
    · obtain hn | hn : n t = 0 ∨ n t = 1 := by have := ht hp; omega
      all_goals simp [hp, hn]
    · simp [hp]

theorem planFor_ids (agent : String) (targets : List ProbeTarget) :
    ((planFor agent targets).map Spec.id).Perm (targets.map ProbeTarget.id) := by
  have hsort := (perm_insertionSort (fun a b : Spec => a.id ≤ b.id)
    (targets.map (ProbeTarget.spec agent))).map Spec.id
  rwa [map_map, show Spec.id ∘ ProbeTarget.spec agent = ProbeTarget.id from rfl] at hsort

theorem wanted_nodup (f : Fleet) (agent : String) : ((f.wanted agent).map ProbeTarget.id).Nodup :=
  ((filter_sublist.trans filter_sublist).map ProbeTarget.id).nodup (nodup_ids f.targets)

/-- No agent is bound to two networks while a target for all agents is shipped to it. -/
def BoundOnce (f : Fleet) : Prop :=
  ∀ t ∈ f.enabledTargets, t.vantage = .all → ∀ agent,
    agentSupports (agentCapabilities f.status) agent t.module = true →
      (knownAgents f.networks).count agent ≤ 1

/-- Every agent with a plan that no target is left for is still bound and remembered. -/
def Clearable (f : Fleet) : Prop :=
  ∀ agent plan, f.lastPlan agent = some plan → plan ≠ [] → f.wanted agent = [] →
    agent ∈ knownAgents f.networks ∧ f.lastFingerprint agent ≠ ""

theorem count_recipients_le {agents : List String} {v : PlanVantage}
    (h : v = .all → agents.count agent ≤ 1) : (recipients agents v).count agent ≤ 1 := by
  cases v with
  | center => simp [recipients]
  | agent id =>
    simp only [recipients]
    split
    · simp
    · exact count_le_length (l := [id])
  | all => exact h rfl

theorem perAgent_eq_wanted (h : f.BoundOnce) (agent : String) :
    perAgent (f.shipped .complete) agent = f.wanted agent := by
  have hone : ∀ t ∈ f.enabledTargets,
      agentSupports (agentCapabilities f.status) agent t.module = true →
        (recipients (knownAgents f.networks) t.vantage).count agent ≤ 1 :=
    fun t ht hsupports => count_recipients_le fun hall => h t ht hall agent hsupports
  have hfilter := flatMap_replicate_eq_filter hone
  simp only [count_pos_iff] at hfilter
  exact (perAgent_shipments _ _ _ agent).trans hfilter

theorem boundOnce_of_nodup
    (h : ∀ agent, ((perAgent (f.shipped .complete) agent).map ProbeTarget.id).Nodup) :
    f.BoundOnce := by
  intro t ht hall agent hsupports
  have hnodup := (h agent).of_map
  rw [shipped_complete, perAgent_shipments, nodup_flatMap] at hnodup
  have hone := hnodup.1 t ht
  rw [if_pos hsupports, nodup_replicate, hall] at hone
  exact hone

theorem not_mem_shipped_iff (f : Fleet) (agent : String) :
    agent ∉ (f.shipped .complete).map Prod.fst ↔ f.wanted agent = [] := by
  rw [← perAgent_eq_nil, shipped_complete, perAgent_shipments, flatMap_eq_nil_iff, wanted,
    filter_eq_nil_iff]
  refine forall₂_congr fun t _ => ?_
  by_cases hsupports : agentSupports (agentCapabilities f.status) agent t.module = true
  · simp [hsupports, List.count_eq_zero]
  · simp [hsupports]

/-! ### Convergence -/

section Convergence

variable {F : PlanFingerprint} {now : Int} {f : Fleet}

theorem boundOnce_of_converged (hf : f.Recorded F)
    (hconv : (f.dispatchTick F now .complete).Converged) : f.BoundOnce := by
  refine boundOnce_of_nodup fun agent => ?_
  by_cases h : agent ∈ (f.shipped .complete).map Prod.fst
  · obtain ⟨plan, hplan, hids⟩ := dispatchTick_shipped F now hf rfl h
    have hperm := hconv agent plan hplan
    rw [dispatchTick_wanted, hids] at hperm
    exact ((planFor_ids agent _).symm.trans hperm).nodup_iff.mpr (f.wanted_nodup agent)
  · rw [perAgent_eq_nil.mpr h]
    exact nodup_nil

theorem clearable_of_converged (hconv : (f.dispatchTick F now .complete).Converged) :
    f.Clearable := by
  intro agent plan hplan hne hwanted
  by_contra hcon
  have hkept := dispatchTick_kept F now rfl ((f.not_mem_shipped_iff agent).mpr hwanted)
    ((not_and_or.mp hcon).imp_right not_not.mp)
  have hperm := hconv agent plan (hkept.trans hplan)
  rw [dispatchTick_wanted, hwanted] at hperm
  exact hne (map_eq_nil_iff.mp hperm.eq_nil)

/-- An agent that nothing is wanted of ends with the empty plan. -/
theorem lists_of_not_wanted (hf : f.Recorded F) (hclear : f.Clearable) {agent : String}
    (hwanted : f.wanted agent = []) {plan : List Spec}
    (hplan : (f.dispatchTick F now .complete).lastPlan agent = some plan) : plan = [] := by
  have hshipped := (f.not_mem_shipped_iff agent).mpr hwanted
  by_cases hknown : agent ∈ knownAgents f.networks ∧ f.lastFingerprint agent ≠ ""
  · obtain ⟨plan', hplan', hids⟩ := dispatchTick_cleared F now hf rfl hshipped hknown.1 hknown.2
    rw [hplan] at hplan'
    cases hplan'
    exact map_eq_nil_iff.mp hids
  · have hkept := dispatchTick_kept F now rfl hshipped
      ((not_and_or.mp hknown).imp_right not_not.mp)
    by_contra hne
    exact hknown (hclear agent plan (hkept.symm.trans hplan) hne hwanted)

theorem converged_of_clearable (hf : f.Recorded F) (honce : f.BoundOnce) (hclear : f.Clearable) :
    (f.dispatchTick F now .complete).Converged := by
  intro agent plan hplan
  rw [dispatchTick_wanted]
  by_cases hwanted : f.wanted agent = []
  · simp [lists_of_not_wanted hf hclear hwanted hplan, hwanted]
  · have hshipped := not_not.mp (mt (f.not_mem_shipped_iff agent).mp hwanted)
    obtain ⟨plan', hplan', hids⟩ := dispatchTick_shipped F now hf rfl hshipped
    rw [hplan] at hplan'
    cases hplan'
    rw [hids, perAgent_eq_wanted honce]
    exact planFor_ids agent _

end Convergence

theorem step_recorded (f : Fleet) (event : FleetEvent) (hf : f.Recorded F) :
    (f.step F event).Recorded F := by
  cases event with
  | edit targets networks status => exact hf
  | restart => exact fun _ h => absurd rfl h
  | tick now reads => exact dispatchTick_recorded F now hf

/-- After any history, a tick brings every agent's last plan up to date exactly when no agent is
shipped a target for two networks, and every agent to be cleared is still bound and remembered. -/
theorem plans_converge_iff (F : PlanFingerprint) (targets : ProbeTargets) (networks : Networks)
    (status : List AgentStatus) (events : List FleetEvent) (now : Int) :
    ((run (step F) (start targets networks status) events).dispatchTick F now .complete).Converged ↔
      (run (step F) (start targets networks status) events).BoundOnce ∧
        (run (step F) (start targets networks status) events).Clearable := by
  have hf : (run (step F) (start targets networks status) events).Recorded F :=
    run_preserves (step_recorded F) fun _ h => absurd rfl h
  constructor
  · intro hconv
    exact ⟨boundOnce_of_converged hf hconv, clearable_of_converged hconv⟩
  · rintro ⟨honce, hclear⟩
    exact converged_of_clearable hf honce hclear

end Fleet

/-! ## Three agents that are left behind -/

/-- The ids of the plan, each ended by a comma. -/
def idText (specs : List Spec) : String :=
  String.ofList ('#' :: Text.terminated ',' (specs.map fun s => Text.decimal s.id))

theorem idText_ids {specs specs' : List Spec} (h : idText specs = idText specs') :
    specs.map Spec.id = specs'.map Spec.id := by
  have hcomma : ∀ l : List Spec, ∀ t ∈ l.map fun s => Text.decimal s.id, ',' ∉ t.toList := by
    intro l t ht hc
    obtain ⟨s, -, rfl⟩ := mem_map.mp ht
    exact absurd (Text.isDigit_of_mem_decimal hc) (by decide)
  have htexts := Text.terminated_inj (hcomma specs) (hcomma specs')
    (cons.inj (String.ofList_injective h)).2
  have hinj : Function.Injective (map Text.decimal) :=
    map_injective_iff.mpr fun _ _ => Text.decimal_inj
  exact hinj (by simpa [Function.comp_def] using htexts)

theorem idText_ne_empty (specs : List Spec) : idText specs ≠ "" := by
  intro h
  have hlist := congrArg String.toList h
  simp [idText] at hlist

def sampleFingerprint : PlanFingerprint := ⟨idText, idText_ne_empty, fun _ _ => idText_ids⟩

theorem sampleDurations : DurationsInRange 60 10 := by decide

def sampleTarget (id : Nat) : ProbeTarget :=
  ⟨id, "portal", .http, "http://10.0.0.5/", 60, 10, sampleDurations, true, "", vantage, "", none,
    .manual⟩

def sampleTargets : ProbeTargets :=
  (Table.empty.insert (sampleTarget vantage) fun _ => rfl).getD .empty

theorem Fleet.not_converged {f : Fleet} (agent : String) (ids : List Nat)
    (h : (f.lastPlan agent).map (map Spec.id) = some ids)
    (hne : ¬ ids.Perm ((f.wanted agent).map ProbeTarget.id)) : ¬ f.Converged := by
  obtain ⟨plan, hplan, rfl⟩ := Option.map_eq_some_iff.mp h
  exact fun hconv => hne (hconv agent plan hplan)

/-- The target is deleted while the dispatcher restarts; the agent is unbound while a target for
all agents stands; the agent is bound to two networks. -/
theorem plans_left_behind :
    (¬ (run (Fleet.step sampleFingerprint)
      (.start (sampleTargets (.agent "a1")) (boundTo ["a1"]) [])
      [.tick 0 .complete, .restart, .edit .empty (boundTo ["a1"]) [],
        .tick 10 .complete]).Converged) ∧
    (¬ (run (Fleet.step sampleFingerprint) (.start (sampleTargets .all) (boundTo ["a1"]) [])
      [.tick 0 .complete, .edit (sampleTargets .all) (boundTo []) [],
        .tick 10 .complete]).Converged) ∧
    (¬ (run (Fleet.step sampleFingerprint) (.start (sampleTargets .all) (boundTo ["a1", "a1"]) [])
      [.tick 0 .complete]).Converged) :=
  ⟨Fleet.not_converged "a1" [1] (by decide +kernel) (by decide +kernel),
    Fleet.not_converged "a1" [1] (by decide +kernel) (by decide +kernel),
    Fleet.not_converged "a1" [1, 1] (by decide +kernel) (by decide +kernel)⟩

end Steward.Probe
