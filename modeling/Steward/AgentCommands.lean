import Steward.RowTable
import Steward.Runs

/-!
# Agent commands

The commands the center queues for its agents, one row each: queued by `enqueue`,
which coalesces with what is still pending, picked up by `ack` and closed by
`complete`.
-/

namespace Steward.Command

open RowTable Runs List

inductive Status
  | pending | acknowledged | done | failed
  deriving DecidableEq, Repr

structure Row where
  id : Nat
  agentId : String
  command : String
  payload : String
  status : Status
  acknowledgedAt : Option Nat
  result : Option String
  deriving DecidableEq, Repr

/-- The table has no unique index beside its key. -/
def schema : Schema Row := ⟨Row.id, fun _ _ => false, fun _ _ => rfl⟩

abbrev Commands := Table schema

/-- What `Enqueue` reads beside the tables. -/
structure Service where
  remoteOpsEnabled : Bool

inductive EnqueueError
  | agentIdRequired
  | unknownCommand (command : String)
  | remoteOpsDisabled
  | boundary (reason : String)
  deriving DecidableEq, Repr

def opsCommands : List String := ["restart", "config-reload", "logs-tail"]

def validCommands : List String := ["scan", "probe", "restart", "config-reload", "logs-tail"]

def isOpsCommand (command : String) : Bool := opsCommands.contains command

variable (t : Commands) (agentId command payload : String)

def createAgentCommand : Option Commands :=
  t.insert (fun i => ⟨i, agentId, command, payload, .pending, none, none⟩) fun _ => rfl

def deletePending (t : Commands) (agentId command : String) : Commands :=
  t.delete fun r => r.agentId = agentId && r.command = command && r.status = .pending

def pendingByPayload : Option Row :=
  (t.rows.filter fun r => r.agentId = agentId && r.command = command && r.payload = payload &&
    r.status = .pending).getLast?

/-- The table before the insertion, `none` when an identical scan is pending already. A
coalescing query that fails is passed over. -/
def coalesce (fails : Bool) : Option Commands :=
  if fails then some t
  else if command = "probe" then some (deletePending t agentId command)
  else if command = "scan" then
    match pendingByPayload t agentId command payload with
    | some _ => none
    | none => some t
  else some t

variable (s : Service)

/-- The checks of `Enqueue`, in its order. `boundary` is the reason of `validateScanTargets`,
empty for none: it reads the networks, so every call has its own answer. -/
def refused (agentId command boundary : String) : Option EnqueueError :=
  if agentId = "" then some .agentIdRequired
  else if !validCommands.contains command then some (.unknownCommand command)
  else if isOpsCommand command && !s.remoteOpsEnabled then some .remoteOpsDisabled
  else if command = "scan" && boundary ≠ "" then some (.boundary boundary)
  else none

def enqueue (t : Commands) (agentId command payload boundary : String)
    (fails : Bool) : Except EnqueueError Commands :=
  let command := if command = "" then "scan" else command
  match refused s agentId command boundary with
  | some e => .error e
  | none =>
    match coalesce t agentId command payload fails with
    | none => .ok t
    | some swept => .ok ((createAgentCommand swept agentId command payload).getD swept)

def acknowledge (now : Nat) (r : Row) : Row :=
  { r with status := .acknowledged, acknowledgedAt := some now }

def close (status : Status) (result : String) (r : Row) : Row :=
  { r with status := status, result := some result }

theorem acknowledge_inert (now : Nat) : schema.Inert (acknowledge now) :=
  ⟨fun _ => rfl, fun _ _ => rfl⟩

theorem close_inert (status : Status) (result : String) : schema.Inert (close status result) :=
  ⟨fun _ => rfl, fun _ _ => rfl⟩

def ack (t : Commands) (id now : Nat) : Commands :=
  t.modifyWhere (fun r => r.id = id && r.status = .pending) (acknowledge now)
    (acknowledge_inert now)

def normalize (status : String) : Status :=
  if status ≠ "done" ∧ status ≠ "failed" then .done
  else if status = "done" then .done else .failed

def complete (t : Commands) (id : Nat) (status result : String) : Commands :=
  t.modifyWhere (fun r => r.id = id) (close (normalize status) result)
    (close_inert (normalize status) result)

inductive Call
  | enqueue (agentId command payload boundary : String) (fails : Bool)
  | ack (id now : Nat)
  | complete (id : Nat) (status result : String)
  deriving DecidableEq, Repr

def step (t : Commands) : Call → Commands
  | .enqueue agentId command payload boundary fails =>
    match enqueue s t agentId command payload boundary fails with
    | .ok t => t
    | .error _ => t
  | .ack id now => ack t id now
  | .complete id status result => complete t id status result

/-! ## The life of a command -/

def Status.Terminal (s : Status) : Prop := s = .done ∨ s = .failed

instance (s : Status) : Decidable s.Terminal := inferInstanceAs (Decidable (_ ∨ _))

/-- Pending, then perhaps acknowledged, then closed for good. -/
def Status.Moves (a b : Status) : Prop :=
  a = b ∨ (a = .pending ∧ b = .acknowledged) ∨ (¬ a.Terminal ∧ b.Terminal)

instance (a b : Status) : Decidable (a.Moves b) := inferInstanceAs (Decidable (_ ∨ _))

/-- From one table to the next every command moves along, and new ones are pending. -/
structure Advances (t t' : Commands) : Prop where
  moves : ∀ r ∈ t.rows, ∀ r' ∈ t'.rows, r'.id = r.id → r.status.Moves r'.status
  fresh : ∀ r' ∈ t'.rows, (∀ r ∈ t.rows, r.id ≠ r'.id) → r'.status = .pending

theorem advances_refl (t : Commands) : Advances t t := by
  refine ⟨?_, fun r' hr' h => absurd rfl (h r' hr')⟩
  intro r hr r' hr' hid
  rw [t.eq_of_id hr' hr hid]
  exact .inl rfl

variable {t t' : Commands} {agentId command payload boundary : String}

/-- Rows may go, and a pending row with an unused id may come. -/
theorem advances_insert (new : Row) (hpending : new.status = .pending) (hnew : t.nextId ≤ new.id)
    (hrows : ∀ r ∈ t'.rows, r ∈ t.rows ∨ r = new) : Advances t t' := by
  constructor
  · intro r hr r' hr' hid
    rcases hrows r' hr' with hold | rfl
    · exact (advances_refl t).moves r hr r' hold hid
    · have : r.id < t.nextId := t.below r hr
      omega
  · intro r' hr' hne
    rcases hrows r' hr' with hold | rfl
    · exact absurd rfl (hne r' hold)
    · exact hpending

theorem advances_edit (t : Commands) (p : Row → Bool) {f : Row → Row} (hf : schema.Inert f) :
    Advances t (t.modifyWhere p f hf) ↔ ∀ r ∈ t.rows, p r → r.status.Moves (f r).status := by
  constructor
  · intro h r hr hp
    refine h.moves r hr (f r) ?_ (hf.id r)
    exact mem_map.mpr ⟨r, hr, by simp [hp]⟩
  · intro h
    constructor
    · intro r hr r' hr' hid
      obtain ⟨q, hq, rfl⟩ := mem_map.mp hr'
      have hqr : q = r := t.eq_of_id hq hr ((hf.id_ite p q).symm.trans hid)
      subst hqr
      by_cases hp : p q
      · rw [if_pos hp]
        exact h q hq hp
      · rw [if_neg hp]
        exact .inl rfl
    · intro r' hr' hne
      obtain ⟨q, hq, rfl⟩ := mem_map.mp hr'
      exact absurd (hf.id_ite p q).symm (hne q hq)

theorem advances_ack (t : Commands) (id now : Nat) : Advances t (ack t id now) := by
  refine (advances_edit t _ _).mpr ?_
  intro r _ hp
  simp only [Bool.and_eq_true, decide_eq_true_eq] at hp
  exact .inr (.inl ⟨hp.2, rfl⟩)

theorem createAgentCommand_rows (h : createAgentCommand t agentId command payload = some t') :
    t'.rows = t.rows ++ [⟨t.nextId, agentId, command, payload, .pending, none, none⟩] :=
  (Table.insert_eq_some h).2.1

variable {fails : Bool}

theorem coalesce_kept (h : coalesce t agentId command payload fails = some t') :
    t'.nextId = t.nextId ∧ ∀ r ∈ t'.rows, r ∈ t.rows := by
  unfold coalesce at h
  split at h
  · cases h
    exact ⟨rfl, fun _ hr => hr⟩
  split at h
  · cases h
    exact ⟨rfl, fun _ hr => (mem_filter.mp hr).1⟩
  split at h
  · split at h
    · cases h
    · cases h
      exact ⟨rfl, fun _ hr => hr⟩
  · cases h
    exact ⟨rfl, fun _ hr => hr⟩

theorem advances_enqueue {s : Service}
    (h : enqueue s t agentId command payload boundary fails = .ok t') : Advances t t' := by
  unfold enqueue at h
  simp only at h
  generalize (if command = "" then "scan" else command) = command at h
  split at h
  · cases h
  split at h
  · cases h
    exact advances_refl t
  · rename_i swept hsweep
    cases h
    obtain ⟨hnext, hkept⟩ := coalesce_kept hsweep
    refine advances_insert ⟨swept.nextId, agentId, command, payload, .pending, none, none⟩ rfl
      (Nat.le_of_eq hnext.symm) ?_
    intro r hr
    cases hcreate : createAgentCommand swept agentId command payload with
    | none =>
      rw [hcreate] at hr
      exact .inl (hkept r hr)
    | some created =>
      rw [hcreate, Option.getD_some, createAgentCommand_rows hcreate] at hr
      rcases mem_append.mp hr with hr | hr
      · exact .inl (hkept r hr)
      · exact .inr (mem_singleton.mp hr)

theorem normalize_terminal (status : String) : (normalize status).Terminal := by
  unfold normalize
  split
  · exact .inl rfl
  split
  · exact .inl rfl
  · exact .inr rfl

theorem moves_terminal {a b : Status} (hb : b.Terminal) : a.Moves b ↔ (a.Terminal → a = b) := by
  cases a <;> rcases hb with rfl | rfl <;> decide

variable (t)

/-- A completion of a command that is closed already repeats its outcome. -/
def KeepsClosed : Call → Prop
  | .complete id status _ =>
    ∀ r ∈ t.rows, r.id = id → r.status.Terminal → r.status = normalize status
  | _ => True

instance : (c : Call) → Decidable (KeepsClosed t c)
  | .complete _ _ _ => inferInstanceAs (Decidable (∀ r ∈ t.rows, _ → _ → _))
  | .enqueue .. => isTrue trivial
  | .ack .. => isTrue trivial

theorem advances_step_iff (c : Call) :
    Advances t (step s t c) ↔ KeepsClosed t c := by
  cases c with
  | enqueue agentId command payload boundary fails =>
    refine iff_of_true ?_ trivial
    simp only [step]
    split
    · rename_i h
      exact advances_enqueue h
    · exact advances_refl t
  | ack id now => exact iff_of_true (advances_ack t id now) trivial
  | complete id status result =>
    refine (advances_edit t _ (close_inert (normalize status) result)).trans ?_
    simp only [close, moves_terminal (normalize_terminal status), KeepsClosed, decide_eq_true_eq]

/-- Every command of every run of calls goes from pending over acknowledged to an outcome that
stays exactly when no completion overwrites the other outcome. -/
theorem outcomes_final_iff (calls : List Call) :
    Along (step s) (fun t c => Advances t (step s t c)) t calls ↔
      Along (step s) KeepsClosed t calls :=
  along_congr (advances_step_iff s) t calls

variable {t}

instance (t t' : Commands) : Decidable (Advances t t') :=
  decidable_of_iff ((∀ r ∈ t.rows, ∀ r' ∈ t'.rows, r'.id = r.id → r.status.Moves r'.status) ∧
    ∀ r' ∈ t'.rows, (∀ r ∈ t.rows, r.id ≠ r'.id) → r'.status = .pending)
    ⟨fun h => ⟨h.1, h.2⟩, fun h => ⟨h.moves, h.fresh⟩⟩

/-- A second completion turns a finished command into a failed one. -/
theorem done_turns_failed :
    ¬ Along (step ⟨false⟩) (fun t c => Advances t (step ⟨false⟩ t c))
      Table.empty [.enqueue "agent-1" "probe" "[]" "" false, .ack 1 0, .complete 1 "done" "",
        .complete 1 "failed" "timeout"] := by
  decide

/-! ## Coalescing -/

/-- The place of a pending command in the queue: a probe has one for its agent, a scan one for
its agent and payload. -/
def Row.slot (r : Row) : Option (String × Option String) :=
  if r.command = "probe" then some (r.agentId, none)
  else if r.command = "scan" then some (r.agentId, some r.payload)
  else none

/-- No two pending commands have the same place. -/
def Coalesced (t : Commands) : Prop :=
  ∀ r ∈ t.rows, ∀ r' ∈ t.rows, r.status = .pending → r'.status = .pending → r.slot ≠ none →
    r.slot = r'.slot → r = r'

def Row.isProbeFor (agentId : String) (r : Row) : Bool := r.agentId = agentId && r.command = "probe"

/-- The payload of the probe that was created last for an agent. -/
def newestProbe (t : Commands) (agentId : String) : Option String :=
  (t.rows.filter (Row.isProbeFor agentId)).getLast?.map Row.payload

/-- The payload of a probe that the call queues for the agent. -/
def Call.probeFor (agentId : String) : Call → Option String
  | .enqueue a command payload boundary _ =>
    if a = agentId ∧ command = "probe" ∧ refused s a command boundary = none then some payload
    else none
  | _ => none

/-- An accepted scan is pending after the call, with its payload. -/
def LeavesScan (t : Commands) : Call → Prop
  | .enqueue agentId command payload boundary fails =>
    command = "" ∨ command = "scan" →
      ∀ t', enqueue s t agentId command payload boundary fails = .ok t' →
        ∃ r ∈ t'.rows, r.status = .pending ∧ r.slot = some (agentId, some payload)
  | _ => True

/-- The call meets no database error. -/
def Call.Clean : Call → Prop
  | .enqueue _ _ _ _ fails => fails = false
  | _ => True

def queued (id : Nat) (agentId command payload : String) : Row :=
  ⟨id, agentId, command, payload, .pending, none, none⟩

/-- An accepted command finds its place taken by an identical scan, or it is put behind the rows
that it does not supersede. -/
theorem enqueue_cases {s : Service}
    (h : enqueue s t agentId command payload boundary false = .ok t') :
    ∃ kind, kind = (if command = "" then "scan" else command) ∧
      refused s agentId kind boundary = none ∧
      ((kind = "scan" ∧ t' = t ∧
          ∃ r ∈ t.rows, r.status = .pending ∧ r.slot = some (agentId, some payload)) ∨
        ∃ keep : Row → Bool,
          t'.rows = t.rows.filter keep ++ [queued t.nextId agentId kind payload] ∧
          (∀ r ∈ t.rows, keep r → r.status = .pending → r.slot ≠ none →
            r.slot ≠ (queued t.nextId agentId kind payload).slot) ∧
          ∀ r, keep r = false → kind = "probe" ∧ r.agentId = agentId) := by
  have hcreate : ∀ (swept : Commands) (kind : String),
      ((createAgentCommand swept agentId kind payload).getD swept).rows =
        swept.rows ++ [queued swept.nextId agentId kind payload] := by
    intro swept kind
    cases hc : createAgentCommand swept agentId kind payload with
    | none => exact absurd (fun _ _ => rfl) (Table.insert_eq_none.mp hc)
    | some created => exact createAgentCommand_rows hc
  unfold enqueue at h
  simp only at h
  generalize (if command = "" then "scan" else command) = kind at h ⊢
  refine ⟨kind, rfl, ?_⟩
  split at h
  · cases h
  rename_i hok
  refine ⟨hok, ?_⟩
  simp only [coalesce, Bool.false_eq_true, if_false] at h
  by_cases hprobe : kind = "probe"
  · subst hprobe
    cases h
    refine .inr ⟨fun r => !(r.agentId = agentId && r.command = "probe" && r.status = .pending),
      hcreate _ _, fun r _ hkeep hst _ hslot => ?_, fun r hr => ?_⟩
    · simp only [Row.slot, queued, if_true] at hslot
      split at hslot <;> simp_all
    · simp_all
  rw [if_neg hprobe] at h
  have hall : t.rows.filter (fun _ => true) = t.rows := filter_true _
  by_cases hscan : kind = "scan"
  · subst hscan
    cases hp : pendingByPayload t agentId "scan" payload with
    | some r =>
      rw [hp] at h
      cases h
      have hr := mem_filter.mp (mem_of_getLast? hp)
      simp only [Bool.and_eq_true, decide_eq_true_eq] at hr
      exact .inl ⟨rfl, rfl, r, hr.1, hr.2.2, by simp [Row.slot, hr.2.1]⟩
    | none =>
      rw [hp] at h
      cases h
      refine .inr ⟨fun _ => true, by rw [hall, hcreate], fun r hr _ hst _ hslot => ?_, by simp⟩
      have hnil := filter_eq_nil_iff.mp (getLast?_eq_none_iff.mp hp) r hr
      simp only [Row.slot, queued] at hslot
      split at hslot <;> simp_all
  · rw [if_neg hscan] at h
    cases h
    refine .inr ⟨fun _ => true, by rw [hall, hcreate], fun r _ _ _ hsome hslot => ?_, by simp⟩
    exact hsome (hslot.trans (by simp [Row.slot, queued, hprobe, hscan]))

theorem coalesced_enqueue {s : Service} (h : Coalesced t)
    (henq : enqueue s t agentId command payload boundary false = .ok t') : Coalesced t' := by
  obtain ⟨kind, -, -, ⟨-, rfl, -⟩ | ⟨keep, hrows, hfree, -⟩⟩ := enqueue_cases henq
  · exact h
  intro r hr r' hr' hs hs' hsome heq
  rw [hrows, mem_append, mem_singleton, mem_filter] at hr hr'
  rcases hr with ⟨hr, hk⟩ | rfl <;> rcases hr' with ⟨hr', hk'⟩ | rfl
  · exact h r hr r' hr' hs hs' hsome heq
  · exact absurd heq (hfree r hr hk hs hsome)
  · exact absurd heq.symm (hfree r' hr' hk' hs' (heq ▸ hsome))
  · rfl

theorem newestProbe_enqueue {s : Service}
    (henq : enqueue s t agentId command payload boundary false = .ok t') (agent : String) :
    newestProbe t' agent =
      ((Call.enqueue agentId command payload boundary false).probeFor s agent).or
        (newestProbe t agent) := by
  obtain ⟨kind, hkind, hok, ⟨rfl, rfl, -⟩ | ⟨keep, hrows, -, hkeep⟩⟩ := enqueue_cases henq
  · have hno : command ≠ "probe" := by
      rintro rfl
      exact absurd hkind (by decide)
    simp [Call.probeFor, hno]
  have hcommand : kind = "probe" ↔ command = "probe" := by
    rw [hkind]
    split <;> simp_all
  unfold newestProbe
  rw [hrows, filter_append, getLast?_append, filter_filter]
  by_cases hhit : agentId = agent ∧ kind = "probe"
  · obtain ⟨rfl, rfl⟩ := hhit
    simp [Call.probeFor, hcommand.mp rfl, hok, queued, Row.isProbeFor]
  · have hsame : t.rows.filter (fun r => r.isProbeFor agent && keep r) =
        t.rows.filter (Row.isProbeFor agent) := by
      refine filter_congr fun r _ => ?_
      cases hk : keep r with
      | true => simp
      | false =>
        have hr := hkeep r hk
        simp only [Row.isProbeFor, hr.2, show agentId ≠ agent from fun he => hhit ⟨he, hr.1⟩,
          decide_false, Bool.false_and]
    have hmiss : (Call.enqueue agentId command payload boundary false).probeFor s agent = none :=
      if_neg fun hc => hhit ⟨hc.1, hcommand.mpr hc.2.1⟩
    have hnew : [queued t.nextId agentId kind payload].filter (Row.isProbeFor agent) = [] := by
      simpa [queued, Row.isProbeFor] using hhit
    rw [hsame, hmiss, hnew]
    rfl

/-- A status that is set to another one than pending. -/
theorem coalesced_edit {f : Row → Row} {p : Row → Bool} (hf : schema.Inert f)
    (hprobe : ∀ a r, (f r).isProbeFor a = r.isProbeFor a ∧ (f r).payload = r.payload)
    (hstatus : ∀ r, (f r).status ≠ .pending) (h : Coalesced t) :
    Coalesced (t.modifyWhere p f hf) ∧
      ∀ agentId, newestProbe (t.modifyWhere p f hf) agentId = newestProbe t agentId := by
  constructor
  · have hmem : ∀ r ∈ (t.modifyWhere p f hf).rows, r.status = .pending → r ∈ t.rows := by
      intro r hr hpending
      obtain ⟨q, hq, rfl⟩ := mem_map.mp hr
      cases hp : p q with
      | true => exact absurd (by simpa [hp] using hpending) (hstatus q)
      | false => simpa [hp] using hq
    exact fun r hr r' hr' hs hs' => h r (hmem r hr hs) r' (hmem r' hr' hs') hs hs'
  · intro agentId
    unfold newestProbe
    rw [Table.modifyWhere_rows, filter_map, getLast?_map, Option.map_map]
    have hsame : ∀ r, (if p r then f r else r).isProbeFor agentId = r.isProbeFor agentId ∧
        (if p r then f r else r).payload = r.payload := by
      intro r
      split
      · exact hprobe agentId r
      · exact ⟨rfl, rfl⟩
    simp only [Function.comp_def, hsame]

theorem coalesced_step {s : Service} {c : Call} (hc : c.Clean) (h : Coalesced t) :
    Coalesced (step s t c) ∧ ∀ agentId, newestProbe (step s t c) agentId =
      (c.probeFor s agentId).or (newestProbe t agentId) := by
  cases c with
  | enqueue agentId command payload boundary fails =>
    obtain rfl : fails = false := hc
    simp only [step]
    cases henq : enqueue s t agentId command payload boundary false with
    | ok t' => exact ⟨coalesced_enqueue h henq, newestProbe_enqueue henq⟩
    | error e =>
      refine ⟨h, fun agent => ?_⟩
      have hno : (Call.enqueue agentId command payload boundary false).probeFor s agent = none := by
        refine if_neg ?_
        rintro ⟨-, rfl, hok⟩
        simp only [enqueue, show ("probe" = "") = False by decide, if_false, hok] at henq
        split at henq <;> cases henq
      rw [hno, Option.none_or]
  | ack id now =>
    exact coalesced_edit (acknowledge_inert now) (fun _ _ => ⟨rfl, rfl⟩) (fun _ => nofun) h
  | complete id status result =>
    refine coalesced_edit (close_inert (normalize status) result) (fun _ _ => ⟨rfl, rfl⟩)
      (fun r hr => ?_) h
    rcases normalize_terminal status with hs | hs <;> rw [close, hs] at hr <;> cases hr

theorem leavesScan (t : Commands) {c : Call} (hc : c.Clean) : LeavesScan s t c := by
  cases c with
  | enqueue agentId command payload boundary fails =>
    obtain rfl : fails = false := hc
    intro hscan t' henq
    obtain ⟨kind, hkind, -, ⟨-, rfl, hr⟩ | ⟨keep, hrows, -⟩⟩ := enqueue_cases henq
    · exact hr
    · obtain rfl : kind = "scan" := by rcases hscan with rfl | rfl <;> exact hkind
      exact ⟨queued t.nextId agentId "scan" payload, by simp [hrows], rfl, rfl⟩
  | _ => trivial

/-- Without database errors the queue is coalesced after every run of calls, the newest probe of
each agent carries the payload that was asked for last, and no accepted scan is lost. -/
theorem queue_coalesced (calls : List Call) (hclean : ∀ c ∈ calls, c.Clean) :
    Coalesced (run (step s) Table.empty calls) ∧
      (∀ agentId, newestProbe (run (step s) Table.empty calls) agentId =
        (calls.filterMap (Call.probeFor s agentId)).getLast?) ∧
      Along (step s) (LeavesScan s) Table.empty calls := by
  refine (and_assoc.mp ⟨?_, along_of_invariant (P := fun _ => True)
    (fun t _ c hc => ⟨leavesScan s t (hclean c hc), trivial⟩) trivial⟩)
  -- the last call decides, so the induction takes the calls from behind
  induction calls using reverseRecOn with
  | nil => exact ⟨fun r hr => absurd hr (by simp [Table.empty]), fun _ => rfl⟩
  | append_singleton calls c ih =>
    obtain ⟨hco, hlast⟩ := ih fun d hd => hclean d (by simp [hd])
    obtain ⟨hco', hlast'⟩ := coalesced_step (s := s) (hclean c (by simp)) hco
    rw [run_append]
    refine ⟨hco', fun agentId => (hlast' agentId).trans ?_⟩
    rw [hlast, filterMap_append, getLast?_append]
    cases hp : c.probeFor s agentId <;> simp [hp]

/-- Two plans, a scan asked for twice, and a pick-up in between. -/
theorem queue_coalesced_outage :
    Coalesced (run (step ⟨false⟩) Table.empty
      [.enqueue "agent-1" "probe" "[1]" "" false, .enqueue "agent-1" "" "net" "" false,
        .enqueue "agent-1" "probe" "[2]" "" false, .ack 2 0,
        .enqueue "agent-1" "scan" "net" "" false]) :=
  (queue_coalesced ⟨false⟩ _ (by simp [Call.Clean])).1

end Steward.Command
