import Mathlib.Data.List.Perm.Basic
import Steward.ProbeTransitions

/-!
# The probe engine

Probe results reach the liveness machine in two ways. A run of the center reads the
target row, stores its result and the row's last status, and only then feeds the
machine; a batch of an agent is stored and fed result by result. A restart loses the
machine and the runs that are under way, a tick drops the tracks of targets that are
not enabled, and the center track is seeded again from the last status of the row.
-/

namespace Steward.Probe

open Runs Function List

/-! ## The engine -/

/-- One result of an agent's batch. -/
structure AgentResultReport where
  targetId : Nat
  vantage : String
  status : ProbeStatus
  latencyMs : Rat
  statusCode : Int
  errorMessage : String
  tlsVersion : String
  certNotAfter : String
  certTrusted : Option Bool
  checkedAt : String
  deriving DecidableEq

structure ProbeResultRow where
  targetId : Nat
  status : ProbeStatus
  latencyMs : Rat
  statusCode : Int
  errorMessage : String
  tlsVersion : String
  certNotAfter : String
  certTrusted : Int
  checkedAt : String
  vantage : Vantage
  deriving DecidableEq

def certTrustedDB : Option Bool → Int
  | none => -1
  | some true => 1
  | some false => 0

variable (agent : String) (r : AgentResultReport)

/-- The stored row; the reporting agent overrides the vantage of the report. -/
def AgentResultReport.row : ProbeResultRow :=
  ⟨r.targetId, r.status, r.latencyMs, r.statusCode, r.errorMessage, r.tlsVersion, r.certNotAfter,
    certTrustedDB r.certTrusted, r.checkedAt, .agent agent⟩

/-- A center run under way: the last status it read, and its result once that is stored. -/
structure CenterRun where
  prior : Option ProbeStatus
  stored : Option ProbeStatus
  deriving DecidableEq, Repr

structure Engine where
  /-- The targets that have a row. -/
  known : Nat → Bool
  enabled : Nat → Bool
  lastStatus : Nat → Option ProbeStatus
  results : List ProbeResultRow
  detector : Detector
  inFlight : Nat → Option CenterRun
  emitted : Emitted

namespace Engine

def start (threshold : Int) (known : Nat → Bool) : Engine :=
  ⟨known, known, fun _ => none, [], newTransitionDetector threshold, fun _ => none, []⟩

variable (e : Engine)

/-- Feed the machine and record the event it returns. -/
def observe (k : Track) (last : Option ProbeStatus) (status : ProbeStatus) : Engine :=
  let (d, change) := e.detector.observe k last status
  { e with detector := d, emitted := record e.emitted k change }

/-- The in-flight guard admits one run of a target at a time. The row is read in the same step;
the source reads it before the guard, and a run on a row older than a prune is left out. -/
def begin (t : Nat) : Engine :=
  if e.known t && e.enabled t && (e.inFlight t).isNone then
    { e with inFlight := Function.update e.inFlight t (some ⟨e.lastStatus t, none⟩) }
  else e

/-- The run's result goes to the series and to the target row. -/
def store (t : Nat) (row : ProbeResultRow) : Engine :=
  match e.inFlight t with
  | some ⟨prior, none⟩ =>
    { e with
      results := e.results ++ [{ row with targetId := t, vantage := .center }],
      lastStatus := Function.update e.lastStatus t (some row.status),
      inFlight := Function.update e.inFlight t (some ⟨prior, some row.status⟩) }
  | _ => e

def finish (t : Nat) : Engine :=
  match e.inFlight t with
  | some ⟨prior, some status⟩ =>
    { e.observe ⟨t, .center⟩ prior status with inFlight := Function.update e.inFlight t none }
  | _ => e

def accept : Engine :=
  { e with results := e.results ++ [r.row agent] }.observe ⟨r.targetId, .agent agent⟩ none r.status

/-- The loop of `IngestAgentResults`: results of unknown targets are skipped, the first insert
that fails ends it. Returned are the number accepted and whether the call succeeded. -/
def ingestFrom (agent : String) (fails : Nat → Bool) :
    Nat → Engine → List AgentResultReport → Engine × Nat × Bool
  | _, e, [] => (e, 0, true)
  | i, e, r :: rest =>
    if !e.known r.targetId then ingestFrom agent fails (i + 1) e rest
    else if fails i then (e, 0, false)
    else
      let (e, accepted, ok) := ingestFrom agent fails (i + 1) (e.accept agent r) rest
      (e, accepted + 1, ok)

def ingestAgentResults (fails : Nat → Bool)
    (results : List AgentResultReport) : Engine × Nat × Bool :=
  ingestFrom agent fails 0 e results

end Engine

inductive EngineEvent
  | setEnabled (target : Nat) (enabled : Bool)
  | begin (target : Nat)
  | store (target : Nat) (row : ProbeResultRow)
  | finish (target : Nat)
  | report (agent : String) (fails : Nat → Bool) (results : List AgentResultReport)
  | tick
  | restart

variable (threshold : Int)

def Engine.step (e : Engine) : EngineEvent → Engine
  | .setEnabled t b => { e with enabled := Function.update e.enabled t b }
  | .begin t => e.begin t
  | .store t row => e.store t row
  | .finish t => e.finish t
  | .report agent fails results => (e.ingestAgentResults agent fails results).1
  | .tick => { e with detector := e.detector.prune fun t => e.known t && e.enabled t }
  | .restart => { e with detector := newTransitionDetector threshold, inFlight := fun _ => none }

/-! ## Batches of an agent -/

section Batches

variable (agent : String) (fails : Nat → Bool) (i : Nat) (e : Engine)
  (batch : List AgentResultReport)

@[simp] theorem accept_known : (e.accept agent r).known = e.known := rfl

@[simp] theorem accept_results :
    (e.accept agent r).results = e.results ++ [r.row agent] := rfl

theorem ingestFrom_known : (Engine.ingestFrom agent fails i e batch).1.known = e.known := by
  induction batch generalizing i e with
  | nil => rfl
  | cons r rest ih =>
    simp only [Engine.ingestFrom]
    split
    · exact ih (i + 1) e
    split
    · rfl
    · exact ih (i + 1) (e.accept agent r)

/-- An insert of a known target's result fails, counting positions from `i`. -/
def insertFails (known : Nat → Bool) (fails : Nat → Bool) : Nat → List AgentResultReport → Bool
  | _, [] => false
  | i, r :: rest => (known r.targetId && fails i) || insertFails known fails (i + 1) rest

theorem ingestFrom_ok :
    (Engine.ingestFrom agent fails i e batch).2.2 = !insertFails e.known fails i batch := by
  induction batch generalizing i e with
  | nil => rfl
  | cons r rest ih =>
    simp only [Engine.ingestFrom, insertFails]
    by_cases hknown : e.known r.targetId
    · by_cases hfail : fails i
      · simp [hknown, hfail]
      · simp [hknown, hfail, ih (i + 1) (e.accept agent r)]
    · simp [hknown, ih (i + 1) e]

theorem ingestFrom_stored (h : insertFails e.known fails i batch = false) :
    (Engine.ingestFrom agent fails i e batch).1.results =
      e.results ++ (batch.filter fun r => e.known r.targetId).map (·.row agent) := by
  induction batch generalizing i e with
  | nil => simp [Engine.ingestFrom]
  | cons r rest ih =>
    simp only [insertFails, Bool.or_eq_false_iff] at h
    simp only [Engine.ingestFrom]
    by_cases hknown : e.known r.targetId
    · have hfail : fails i = false := by simpa [hknown] using h.1
      have hrest := ih (i + 1) (e.accept agent r) h.2
      simp [hknown, hfail, hrest]
    · have hrest := ih (i + 1) e h.2
      simp [hknown, hrest]

/-- Every call adds rows of known targets, none when the insert of a known first result fails
and only then. -/
theorem ingestFrom_adds :
    ∃ added : List AgentResultReport,
      (Engine.ingestFrom agent fails i e batch).1.results = e.results ++ added.map (·.row agent) ∧
        (∀ r ∈ added, e.known r.targetId) ∧
          ∀ r ∈ batch.head?, e.known r.targetId → (added = [] ↔ fails i) := by
  induction batch generalizing i e with
  | nil => exact ⟨[], by simp [Engine.ingestFrom]⟩
  | cons r rest ih =>
    simp only [Engine.ingestFrom]
    by_cases hknown : e.known r.targetId
    · by_cases hfail : fails i
      · exact ⟨[], by simp [hknown, hfail]⟩
      · obtain ⟨added, hadded, hall, -⟩ := ih (i + 1) (e.accept agent r)
        refine ⟨r :: added, by simp [hknown, hfail, hadded], ?_, by simp [hfail]⟩
        simpa [hknown] using hall
    · obtain ⟨added, hadded, hall, -⟩ := ih (i + 1) e
      exact ⟨added, by simpa [hknown] using hadded, hall, by simp [hknown]⟩

/-- The agent posts the same batch again until a call succeeds; every attempt has its own
pattern of failing inserts. -/
def repost (batch : List AgentResultReport) : Engine → List (Nat → Bool) → Engine × Bool
  | e, [] => (e, false)
  | e, fails :: rest =>
    match e.ingestAgentResults agent fails batch with
    | (e', _, true) => (e', true)
    | (e', _, false) => repost batch e' rest

/-- The attempts before the first that goes through. -/
def rejected (known : Nat → Bool) (batch : List AgentResultReport) (patterns : List (Nat → Bool)) :
    List (Nat → Bool) :=
  patterns.takeWhile fun fails => insertFails known fails 0 batch

/-- What an accepted batch leaves: the rows of rejected attempts, then each known result. -/
theorem repost_stored (patterns : List (Nat → Bool)) (e : Engine)
    (h : (repost agent batch e patterns).2 = true) :
    ∃ added : List AgentResultReport, (repost agent batch e patterns).1.results = e.results ++
        (added ++ batch.filter fun r => e.known r.targetId).map (·.row agent) ∧
      (∀ r ∈ added, e.known r.targetId) ∧ ((∀ r ∈ batch, e.known r.targetId) →
        (added = [] ↔ ∀ fails ∈ rejected e.known batch patterns, fails 0)) := by
  induction patterns generalizing e with
  | nil => simp [repost] at h
  | cons fails rest ih =>
    have hok := ingestFrom_ok agent fails 0 e batch
    obtain ⟨first, hfirst, hknown, hhead⟩ := ingestFrom_adds agent fails 0 e batch
    have hsame := ingestFrom_known agent fails 0 e batch
    simp only [repost, Engine.ingestAgentResults, rejected] at h ⊢
    cases hfails : insertFails e.known fails 0 batch with
    | false =>
      have hstored := ingestFrom_stored agent fails 0 e batch hfails
      rw [hfails] at hok
      generalize Engine.ingestFrom agent fails 0 e batch = call at *
      obtain ⟨e', n, ok⟩ := call
      subst hok
      exact ⟨[], by simpa using hstored, by simp, by simp [hfails]⟩
    | true =>
      obtain _ | ⟨r, tail⟩ := batch
      · simp [insertFails] at hfails
      rw [hfails] at hok
      generalize Engine.ingestFrom agent fails 0 e (r :: tail) = call at *
      obtain ⟨e', n, ok⟩ := call
      simp only [Bool.not_true] at hok hsame hfirst
      subst hok
      obtain ⟨later, hlater, hall, hiff⟩ := ih e' h
      rw [hsame] at hlater hall hiff
      refine ⟨first ++ later, by simp [hlater, hfirst], ?_, ?_⟩
      · intro q hq
        exact (mem_append.mp hq).elim (hknown q) (hall q)
      · intro hbatch
        have hzero := hhead r (by simp) (hbatch r (by simp))
        simp only [append_eq_nil_iff, hzero, hiff hbatch, rejected, takeWhile_cons,
          hfails, ite_true, forall_mem_cons]

/-- A batch that is posted until it is accepted is stored once exactly when its targets are
known and every rejected attempt failed on its first insert. -/
theorem stored_once_iff (e : Engine) (batch : List AgentResultReport)
    (patterns : List (Nat → Bool)) (h : (repost agent batch e patterns).2 = true) :
    ((repost agent batch e patterns).1.results.Perm (e.results ++ batch.map (·.row agent))) ↔
      (∀ r ∈ batch, e.known r.targetId) ∧
        ∀ fails ∈ rejected e.known batch patterns, fails 0 := by
  obtain ⟨added, hrows, hknown, hiff⟩ := repost_stored agent batch patterns e h
  rw [hrows, perm_append_left_iff]
  constructor
  · intro hperm
    have hall : ∀ r ∈ batch, e.known r.targetId := by
      intro r hr
      obtain ⟨q, hq, hrow⟩ := mem_map.mp (hperm.mem_iff.mpr (mem_map_of_mem hr))
      have htarget : q.targetId = r.targetId := congrArg ProbeResultRow.targetId hrow
      rw [← htarget]
      rcases mem_append.mp hq with hq | hq
      · exact hknown q hq
      · exact (mem_filter.mp hq).2
    refine ⟨hall, (hiff hall).mp ?_⟩
    have hlength := hperm.length_eq
    rw [filter_eq_self.mpr hall] at hlength
    simpa using hlength
  · rintro ⟨hall, hrejected⟩
    rw [(hiff hall).mpr hrejected, filter_eq_self.mpr hall, nil_append]

end Batches

def sampleReport (target : Nat) (status : ProbeStatus) : AgentResultReport :=
  ⟨target, "agent:lan", status, 12, 200, "", "", "", none, "2026-10-05T08:00:00Z"⟩

def sampleEngine : Engine := .start 3 fun t => t = 1 || t = 2

def sampleBatch : List AgentResultReport := [sampleReport 1 .success, sampleReport 2 .fail]

theorem sampleBatch_once :
    (repost "lan" sampleBatch sampleEngine [fun i => i = 0, fun _ => false]).1.results.Perm
      (sampleEngine.results ++ sampleBatch.map (·.row "lan")) :=
  (stored_once_iff "lan" sampleEngine sampleBatch [fun i => i = 0, fun _ => false]
    (by decide)).mpr (by decide)

/-- The second insert fails once, and the first result is there twice. -/
theorem sampleBatch_twice :
    (repost "lan" sampleBatch sampleEngine [fun i => i = 1, fun _ => false]).2 = true ∧
      ¬ (repost "lan" sampleBatch sampleEngine [fun i => i = 1, fun _ => false]).1.results.Perm
        (sampleEngine.results ++ sampleBatch.map (·.row "lan")) := by
  refine ⟨by decide, ?_⟩
  intro hperm
  exact absurd hperm.length_eq (by decide)

/-! ## Recoveries answer failures -/

/-- Every recovery in the log has a failure of its track before it and nothing in between. -/
def Answered (log : Emitted) : Prop :=
  ∀ before k after, log = before ++ (k, Change.probeRecovered) :: after →
    lastChange before k = some .probeFailed

theorem answered_record {log : Emitted} (h : Answered log) {k : Track} {change : Option Change}
    (hchange : change = some .probeRecovered → lastChange log k = some .probeFailed) :
    Answered (record log k change) := by
  cases change with
  | none => simpa [record] using h
  | some c =>
    intro before j after heq
    rcases eq_nil_or_concat after with rfl | ⟨init, last, rfl⟩
    · obtain ⟨rfl, hlast⟩ := append_inj' heq rfl
      obtain ⟨rfl, rfl⟩ := hlast
      exact hchange rfl
    · rw [concat_eq_append, ← cons_append, ← append_assoc] at heq
      exact h before j init (append_inj' heq rfl).1

/-- Log and machine agree: recoveries are answered and every failing track was declared. -/
structure Declared (d : Detector) (log : Emitted) : Prop where
  answered : Answered log
  failing : ∀ k, d.Failing k → lastChange log k = some .probeFailed

theorem declared_observe {e : Engine} (h : Declared e.detector e.emitted) {k : Track}
    {last : Option ProbeStatus} (hseed : e.detector.states k = none → (adopted last).failing →
      lastChange e.emitted k = some .probeFailed) (status : ProbeStatus) :
    Declared (e.observe k last status).detector (e.observe k last status).emitted := by
  have hseen : (e.detector.seen k last).failing → lastChange e.emitted k = some .probeFailed := by
    intro hfailing
    rw [Detector.seen] at hfailing
    cases hst : e.detector.states k with
    | none =>
      rw [hst, Option.getD_none] at hfailing
      exact hseed hst hfailing
    | some st =>
      rw [hst, Option.getD_some] at hfailing
      exact h.failing k ⟨st, hst, hfailing⟩
  have hnext := ProbeState.next_failing e.detector.threshold (e.detector.seen k last) status
  have hrecovered := ProbeState.next_recovered e.detector.threshold (e.detector.seen k last) status
  constructor
  · exact answered_record h.answered fun hr => hseen (hrecovered.mp hr).2
  · intro j hj
    by_cases hjk : j = k
    · subst hjk
      obtain ⟨st, hst, hfailing⟩ := hj
      simp only [Engine.observe, Detector.observe, update_self, Option.some.injEq] at hst
      subst hst
      simp only [Engine.observe, Detector.observe, lastChange_record_same]
      rw [hfailing] at hnext
      cases hchange : ((e.detector.seen j last).next e.detector.threshold status).2 with
      | none =>
        rw [hchange] at hnext
        exact hseen hnext.symm
      | some c =>
        rw [hchange] at hnext
        cases c with
        | probeFailed => rfl
        | probeRecovered => cases hnext
    · have hstates : (e.observe k last status).detector.states j = e.detector.states j := by
        simp [Engine.observe, Detector.observe, hjk]
      obtain ⟨st, hst, hfailing⟩ := hj
      have hlast := h.failing j ⟨st, hstates ▸ hst, hfailing⟩
      exact (lastChange_record_other hjk _).trans hlast

namespace Engine

variable (e : Engine)

/-- The status that would seed the center track of a target. -/
def basis (t : Nat) : Option ProbeStatus :=
  match e.inFlight t with
  | some run => run.prior
  | none => e.lastStatus t

/-- The center track of the target may be forgotten: no result is stored and not yet fed, and a
failing status is one that was declared. -/
def Settled (t : Nat) : Prop :=
  (∀ run ∈ e.inFlight t, run.stored = none) ∧
    ((adopted (e.lastStatus t)).failing → ∀ st ∈ e.detector.states ⟨t, .center⟩, st.failing)

/-- No event forgets a center track in the middle of a failing streak. -/
def Remembers : EngineEvent → Prop
  | .tick => ∀ t, (e.known t && e.enabled t) = false → e.Settled t
  | .restart => ∀ t, e.Settled t
  | _ => True

/-- The invariant of the runs: what a forgotten center track would adopt was declared. -/
structure Faithful : Prop where
  declared : Declared e.detector e.emitted
  seed : ∀ t, e.detector.states ⟨t, .center⟩ = none → (adopted (e.basis t)).failing →
    lastChange e.emitted ⟨t, .center⟩ = some .probeFailed
  prior : ∀ t, ∀ run ∈ e.inFlight t, run.stored = none → run.prior = e.lastStatus t

theorem faithful_start (known : Nat → Bool) :
    (start threshold known).Faithful := by
  refine ⟨⟨?_, ?_⟩, ?_, ?_⟩
  · intro before k after heq
    simp [start] at heq
  · rintro k ⟨st, hst, -⟩
    cases hst
  · intro t _ hadopted
    simp [basis, start, adopted] at hadopted
  · intro t run hrun
    cases hrun

variable {e : Engine}

theorem basis_settled (h : e.Faithful) {t : Nat} (hs : e.Settled t) :
    e.basis t = e.lastStatus t := by
  unfold basis
  split
  · rename_i run hrun
    exact h.prior t run hrun (hs.1 run hrun)
  · rfl

/-- A settled target that is down was declared down. -/
theorem lastChange_settled (h : e.Faithful) {t : Nat} (hs : e.Settled t)
    (hdown : (adopted (e.lastStatus t)).failing) :
    lastChange e.emitted ⟨t, .center⟩ = some .probeFailed := by
  cases hst : e.detector.states ⟨t, .center⟩ with
  | none => exact h.seed t hst (by rwa [basis_settled h hs])
  | some st => exact h.declared.failing _ ⟨st, hst, hs.2 hdown st hst⟩

/-- Feeding one track leaves the center tracks of other targets and all agent tracks alone. -/
theorem observe_other (k : Track) (last : Option ProbeStatus) (status : ProbeStatus) {j : Track}
    (h : j ≠ k) : (e.observe k last status).detector.states j = e.detector.states j ∧
      lastChange (e.observe k last status).emitted j = lastChange e.emitted j :=
  ⟨by simp [observe, Detector.observe, h], lastChange_record_other h _⟩

theorem faithful_begin (h : e.Faithful) (t : Nat) : (e.begin t).Faithful := by
  unfold begin
  split
  · rename_i hguard
    have hidle : e.inFlight t = none := by simpa using (Bool.and_eq_true_iff.mp hguard).2
    refine ⟨h.declared, ?_, ?_⟩
    · intro u hnone hadopted
      refine h.seed u hnone ?_
      by_cases hu : u = t
      · subst hu
        simpa [basis, hidle] using hadopted
      · simpa [basis, hu] using hadopted
    · intro u run hrun hstored
      by_cases hu : u = t
      · subst hu
        simp only [update_self, Option.mem_def, Option.some.injEq] at hrun
        rw [← hrun]
      · simp only [update_of_ne hu] at hrun
        exact h.prior u run hrun hstored
  · exact h

theorem faithful_store (h : e.Faithful) (t : Nat) (row : ProbeResultRow) :
    (e.store t row).Faithful := by
  unfold store
  split
  · rename_i prior hrun
    refine ⟨h.declared, ?_, ?_⟩
    · intro u hnone hadopted
      refine h.seed u hnone ?_
      by_cases hu : u = t
      · subst hu
        simpa [basis, hrun] using hadopted
      · simpa [basis, hu] using hadopted
    · intro u run hu hstored
      by_cases hut : u = t
      · subst hut
        simp only [update_self, Option.mem_def, Option.some.injEq] at hu
        rw [← hu] at hstored
        cases hstored
      · simp only [update_of_ne hut] at hu ⊢
        exact h.prior u run hu hstored
  · exact h

theorem faithful_finish (h : e.Faithful) (t : Nat) : (e.finish t).Faithful := by
  unfold finish
  split
  · rename_i prior status hrun
    have hbasis : e.basis t = prior := by simp [basis, hrun]
    refine ⟨declared_observe h.declared (fun hnone => hbasis ▸ h.seed t hnone) status, ?_, ?_⟩
    · intro u hnone hadopted
      by_cases hu : u = t
      · subst hu
        simp [observe, Detector.observe] at hnone
      · have hother := observe_other (e := e) ⟨t, .center⟩ prior status (j := ⟨u, .center⟩)
          (by simpa using hu)
        rw [hother.2]
        refine h.seed u (hother.1 ▸ hnone) ?_
        simpa [basis, hu, observe] using hadopted
    · intro u run hu hstored
      by_cases hut : u = t
      · subst hut
        simp at hu
      · simp only [update_of_ne hut] at hu
        exact h.prior u run hu hstored
  · exact h

theorem faithful_accept (h : e.Faithful) (agent : String) (r : AgentResultReport) :
    (e.accept agent r).Faithful := by
  have hcenter : ∀ t, (⟨t, .center⟩ : Track) ≠ ⟨r.targetId, .agent agent⟩ := by simp
  refine ⟨declared_observe h.declared (by simp [adopted]) r.status, ?_, h.prior⟩
  intro t hnone hadopted
  have hother := observe_other (e := e) ⟨r.targetId, .agent agent⟩ none r.status (hcenter t)
  exact hother.2.trans (h.seed t (hother.1 ▸ hnone) hadopted)

theorem faithful_ingestFrom (h : e.Faithful) (agent : String) (fails : Nat → Bool) (i : Nat)
    (batch : List AgentResultReport) : (ingestFrom agent fails i e batch).1.Faithful := by
  induction batch generalizing i e with
  | nil => exact h
  | cons r rest ih =>
    simp only [ingestFrom]
    split
    · exact ih h (i + 1)
    split
    · exact h
    · exact ih (faithful_accept h agent r) (i + 1)

theorem failing_prune (d : Detector) (present : Nat → Bool) (k : Track) :
    (d.prune present).Failing k → d.Failing k := by
  rintro ⟨st, hst, hfailing⟩
  simp only [Detector.prune] at hst
  split at hst
  · exact ⟨st, hst, hfailing⟩
  · cases hst

theorem faithful_tick (h : e.Faithful)
    (hs : ∀ t, (e.known t && e.enabled t) = false → e.Settled t) :
    Faithful { e with detector := e.detector.prune fun t => e.known t && e.enabled t } := by
  refine ⟨⟨h.declared.answered, ?_⟩, ?_, h.prior⟩
  · intro k hk
    exact h.declared.failing k (failing_prune e.detector (fun t => e.known t && e.enabled t) k hk)
  · intro t hnone hadopted
    cases hpresent : e.known t && e.enabled t with
    | true =>
      have hsame : e.detector.states ⟨t, .center⟩ = none := by
        simpa only [Detector.prune, hpresent, ite_true] using hnone
      exact h.seed t hsame hadopted
    | false =>
      have hbasis := basis_settled h (hs t hpresent)
      exact lastChange_settled h (hs t hpresent) (hbasis ▸ hadopted)

theorem faithful_restart (h : e.Faithful) (threshold : Int) (hs : ∀ t, e.Settled t) :
    Faithful { e with detector := newTransitionDetector threshold, inFlight := fun _ => none } := by
  refine ⟨⟨h.declared.answered, ?_⟩, ?_, ?_⟩
  · rintro k ⟨st, hst, -⟩
    cases hst
  · intro t _ hadopted
    exact lastChange_settled h (hs t) hadopted
  · intro t run hrun
    cases hrun

theorem faithful_step (e : Engine) (ev : EngineEvent) (h : e.Faithful)
    (hok : e.Remembers ev) : (e.step threshold ev).Faithful := by
  cases ev with
  | setEnabled t b => exact ⟨h.declared, h.seed, h.prior⟩
  | begin t => exact faithful_begin h t
  | store t row => exact faithful_store h t row
  | finish t => exact faithful_finish h t
  | report agent fails results => exact faithful_ingestFrom h agent fails 0 results
  | tick => exact faithful_tick h hok
  | restart => exact faithful_restart h threshold hok

end Engine

/-- In every run that never forgets a center track in the middle of a failing streak, each
`probe_recovered` has a `probe_failed` of its track before it with no recovery in between. -/
theorem recoveries_answered (known : Nat → Bool) (events : List EngineEvent)
    (h : Along (Engine.step threshold) Engine.Remembers (.start threshold known) events) :
    Answered (run (Engine.step threshold) (.start threshold known) events).emitted :=
  (run_invariant (Engine.faithful_step threshold) (Engine.faithful_start threshold known)
    h).declared.answered

/-- The events of one center run of a target. -/
def centerRun (t : Nat) (status : ProbeStatus) : List EngineEvent :=
  [.begin t, .store t ((sampleReport t status).row ""), .finish t]

theorem centerRun_other {t u : Nat} (h : u ≠ t) (threshold : Int) (e : Engine)
    (status : ProbeStatus) : (run (Engine.step threshold) e (centerRun t status)).inFlight u =
      e.inFlight u ∧ (run (Engine.step threshold) e (centerRun t status)).lastStatus u =
        e.lastStatus u := by
  have hbegin : ∀ e : Engine, (e.begin t).inFlight u = e.inFlight u ∧
      (e.begin t).lastStatus u = e.lastStatus u := by
    intro e
    unfold Engine.begin
    split <;> simp [h]
  have hstore : ∀ (e : Engine) (row), (e.store t row).inFlight u = e.inFlight u ∧
      (e.store t row).lastStatus u = e.lastStatus u := by
    intro e row
    unfold Engine.store
    split <;> simp [h]
  have hfinish : ∀ e : Engine, (e.finish t).inFlight u = e.inFlight u ∧
      (e.finish t).lastStatus u = e.lastStatus u := by
    intro e
    unfold Engine.finish
    split <;> simp [h, Engine.observe]
  simp [centerRun, Engine.step, hbegin, hstore, hfinish]

def threeFailures : List EngineEvent := (List.replicate 3 (centerRun 1 .fail)).flatten

theorem threeFailures_settled (t : Nat) :
    (run (Engine.step 3) sampleEngine threeFailures).Settled t := by
  by_cases ht : t = 1
  · subst ht
    refine ⟨?_, ?_⟩
    · intro run hrun
      cases hrun
    · intro _ st hst
      cases hst
      rfl
  · have hother := centerRun_other ht 3
    have hidle : (run (Engine.step 3) sampleEngine threeFailures).inFlight t = none := by
      simp [threeFailures, replicate, run_append, hother, sampleEngine, Engine.start]
    have hnever : (run (Engine.step 3) sampleEngine threeFailures).lastStatus t = none := by
      simp [threeFailures, replicate, run_append, hother, sampleEngine, Engine.start]
    simp [Engine.Settled, hidle, hnever, adopted]

theorem threeFailures_answered :
    Answered (run (Engine.step 3) sampleEngine
      [threeFailures, [.restart], centerRun 1 .success].flatten).emitted :=
  recoveries_answered 3 _ _ ⟨trivial, trivial, trivial, trivial, trivial, trivial, trivial, trivial,
    trivial, threeFailures_settled, trivial, trivial, trivial, trivial⟩

/-- One failure, a restart and a success make a recovery that nothing preceded. -/
theorem recovered_undeclared : ¬ Answered (run (Engine.step 3) sampleEngine
    [centerRun 1 .fail, [.restart], centerRun 1 .success].flatten).emitted := by
  intro h
  exact absurd (h [] ⟨1, .center⟩ [] rfl) (by decide)

end Steward.Probe
