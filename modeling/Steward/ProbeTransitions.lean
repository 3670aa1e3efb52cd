import Mathlib.Data.List.Induction
import Mathlib.Logic.Function.Basic
import Steward.Runs

/-!
# Liveness of probe targets

The state machine that turns probe results into `probe_failed` and
`probe_recovered`. Every vantage of a target is a track of its own: a track fails
after a number of consecutive failures and recovers with the next success. A track
that is seen for the first time adopts the failing state from a persisted status.
-/

namespace Steward.Probe

open Runs List

inductive ProbeStatus
  | success | fail | timeout
  deriving DecidableEq, Repr

inductive Change
  | probeFailed | probeRecovered
  deriving DecidableEq, Repr

/-- Who runs the probe. -/
inductive Vantage
  | center
  | agent (id : String)
  deriving DecidableEq, Repr

structure Track where
  target : Nat
  vantage : Vantage
  deriving DecidableEq, Repr

structure ProbeState where
  failing : Bool
  /-- Consecutive failures while not yet failing. -/
  streak : Nat
  deriving DecidableEq, Repr

def ProbeStatus.failed (s : ProbeStatus) : Bool := s ≠ .success

/-- The state adopted on first sight; `none` is a target that was never run. -/
def adopted (last : Option ProbeStatus) : ProbeState :=
  ⟨match last with
    | some s => s.failed
    | none => false, 0⟩

def defaultProbeFailThreshold : Nat := 3

structure Detector where
  states : Track → Option ProbeState
  threshold : Nat

variable (threshold : Int)

def newTransitionDetector : Detector :=
  ⟨fun _ => none, if threshold ≤ 0 then defaultProbeFailThreshold else threshold.toNat⟩

/-- One result on a track in a known state. -/
def ProbeState.next (threshold : Nat) (st : ProbeState) (status : ProbeStatus) :
    ProbeState × Option Change :=
  if !status.failed then
    if st.failing then (⟨false, 0⟩, some .probeRecovered) else (⟨st.failing, 0⟩, none)
  else if st.failing then (st, none)
  else if threshold ≤ st.streak + 1 then (⟨true, 0⟩, some .probeFailed)
  else (⟨st.failing, st.streak + 1⟩, none)

namespace Detector

variable (d : Detector) (k : Track)

def seen (last : Option ProbeStatus) : ProbeState :=
  (d.states k).getD (adopted last)

def observe (last : Option ProbeStatus) (status : ProbeStatus) :
    Detector × Option Change :=
  let (st, change) := (d.seen k last).next d.threshold status
  ({ d with states := Function.update d.states k (some st) }, change)

def prune (d : Detector) (present : Nat → Bool) : Detector :=
  { d with states := fun k => if present k.target then d.states k else none }

/-- The track is in the failing state. -/
def Failing : Prop := ∃ st, d.states k = some st ∧ st.failing

instance : Decidable (d.Failing k) :=
  decidable_of_iff ((d.states k).any ProbeState.failing) (by simp [Failing, Option.any_eq_true])

end Detector

namespace ProbeState

variable (n : Nat) (st : ProbeState) (s : ProbeStatus)

theorem next_recovered :
    (st.next n s).2 = some .probeRecovered ↔ s = .success ∧ st.failing := by
  cases s <;> cases h : st.failing <;> simp [next, ProbeStatus.failed, h] <;> split <;> simp

/-- The event decides the state; without one it stays. -/
theorem next_failing : (st.next n s).1.failing = match (st.next n s).2 with
    | some .probeFailed => true
    | some .probeRecovered => false
    | none => st.failing := by
  cases s <;> cases h : st.failing <;> simp [next, ProbeStatus.failed, h] <;> split <;> simp

end ProbeState

/-! ## The events of a track -/

abbrev Emitted := List (Track × Change)

variable (log : Emitted) (k : Track)

/-- The last event of a track. -/
def lastChange : Option Change :=
  ((log.filter fun e => e.1 = k).getLast?).map Prod.snd

def record (change : Option Change) : Emitted :=
  log ++ (change.map fun c => (k, c)).toList

theorem lastChange_record_same (change : Option Change) :
    lastChange (record log k change) k = change.or (lastChange log k) := by
  cases change <;> simp [record, lastChange, filter_append]

theorem lastChange_record_other {log : Emitted} {j k : Track} (h : j ≠ k)
    (change : Option Change) : lastChange (record log k change) j = lastChange log j := by
  cases change <;> simp [record, lastChange, filter_append, h.symm]

/-! ## Runs of results -/

structure Observation where
  track : Track
  last : Option ProbeStatus
  status : ProbeStatus
  deriving DecidableEq, Repr

/-- A detector and what it has returned so far. -/
structure Monitor where
  detector : Detector
  emitted : Emitted

def Monitor.step (m : Monitor) (o : Observation) : Monitor :=
  let (d, change) := m.detector.observe o.track o.last o.status
  ⟨d, record m.emitted o.track change⟩

def monitor (os : List Observation) : Monitor :=
  run Monitor.step ⟨newTransitionDetector threshold, []⟩ os

/-- A failure stands on a track: its last event is `probe_failed`, or it has no event and its
first result came with a failing persisted status. -/
def Stands (os : List Observation) (k : Track) : Prop :=
  match lastChange (monitor threshold os).emitted k with
  | some c => c = .probeFailed
  | none => ((os.find? fun o => o.track = k).any fun o => (adopted o.last).failing) = true

section Runs

variable (threshold : Int) (os : List Observation) (o : Observation) (k : Track)

theorem monitor_snoc :
    monitor threshold (os ++ [o]) = (monitor threshold os).step o := by
  simp only [monitor, run_append, run_cons, run_nil]

variable (m : Monitor)

theorem Monitor.states_same : (m.step o).detector.states o.track =
    some ((m.detector.seen o.track o.last).next m.detector.threshold o.status).1 := by
  simp [Monitor.step, Detector.observe]

theorem Monitor.states_other {k : Track} (h : k ≠ o.track) :
    (m.step o).detector.states k = m.detector.states k := by
  simp [Monitor.step, Detector.observe, h]

theorem Monitor.emitted_step : (m.step o).emitted = record m.emitted o.track
    ((m.detector.seen o.track o.last).next m.detector.threshold o.status).2 := rfl

/-- What the state of a track says about the results fed so far. -/
structure Followed (threshold : Int) (os : List Observation) (k : Track) : Prop where
  unseen : (monitor threshold os).detector.states k = none →
    lastChange (monitor threshold os).emitted k = none ∧ ∀ o ∈ os, o.track ≠ k
  seen : ∀ st, (monitor threshold os).detector.states k = some st →
    (∃ o ∈ os, o.track = k) ∧ (st.failing ↔ Stands threshold os k)

variable {threshold os k}

theorem find?_unseen (h : ∀ o ∈ os, o.track ≠ k) : os.find? (fun o => o.track = k) = none := by
  simpa using h

theorem find?_seen (h : ∃ o ∈ os, o.track = k) (o : Observation) :
    (os ++ [o]).find? (fun o => o.track = k) = os.find? fun o => o.track = k := by
  have hsome : (os.find? fun o => o.track = k).isSome := by simpa [find?_isSome] using h
  obtain ⟨q, hq⟩ := Option.isSome_iff_exists.mp hsome
  rw [find?_append, hq, Option.some_or]

theorem followed_other (h : Followed threshold os k) (hk : k ≠ o.track) :
    Followed threshold (os ++ [o]) k := by
  have hstates := (monitor threshold os).states_other o hk
  have hlast : lastChange (monitor threshold (os ++ [o])).emitted k =
      lastChange (monitor threshold os).emitted k := by
    rw [monitor_snoc, Monitor.emitted_step, lastChange_record_other hk]
  have hfind : (os ++ [o]).find? (fun o => o.track = k) = os.find? fun o => o.track = k := by
    rw [find?_append, find?_singleton, if_neg (by simpa using hk.symm), Option.or_none]
  constructor
  · intro hnone
    rw [monitor_snoc, hstates] at hnone
    obtain ⟨hsilent, hall⟩ := h.unseen hnone
    refine ⟨hlast.trans hsilent, ?_⟩
    intro q hq
    rcases mem_append.mp hq with hq | hq
    · exact hall q hq
    · rw [mem_singleton.mp hq]
      exact hk.symm
  · intro st hst
    rw [monitor_snoc, hstates] at hst
    obtain ⟨⟨q, hq, htrack⟩, hiff⟩ := h.seen st hst
    refine ⟨⟨q, mem_append_left _ hq, htrack⟩, hiff.trans ?_⟩
    unfold Stands
    rw [hlast, hfind]

theorem followed_same (h : Followed threshold os o.track) :
    Followed threshold (os ++ [o]) o.track := by
  have hstates := (monitor threshold os).states_same o
  have hfailing := ProbeState.next_failing (monitor threshold os).detector.threshold
    ((monitor threshold os).detector.seen o.track o.last) o.status
  have hlast := lastChange_record_same (monitor threshold os).emitted o.track
    (((monitor threshold os).detector.seen o.track o.last).next
      (monitor threshold os).detector.threshold o.status).2
  rw [← Monitor.emitted_step, ← monitor_snoc] at hlast
  constructor
  · intro hnone
    rw [monitor_snoc, hstates] at hnone
    cases hnone
  · intro st hst
    rw [monitor_snoc, hstates, Option.some.injEq] at hst
    subst hst
    refine ⟨⟨o, by simp, rfl⟩, ?_⟩
    unfold Stands
    rw [hlast, hfailing]
    cases hchange : (((monitor threshold os).detector.seen o.track o.last).next
      (monitor threshold os).detector.threshold o.status).2 with
    | some c => cases c <;> simp
    | none =>
      -- no event: a known track keeps its verdict, an unknown one has just adopted it
      cases hknown : (monitor threshold os).detector.states o.track with
      | some st =>
        obtain ⟨hex, hiff⟩ := h.seen st hknown
        rw [Detector.seen, hknown, Option.getD_some, find?_seen hex]
        exact hiff
      | none =>
        obtain ⟨hsilent, hall⟩ := h.unseen hknown
        rw [Detector.seen, hknown, Option.getD_none, hsilent, find?_append,
          find?_unseen hall, Option.none_or, find?_singleton, if_pos (by simp)]
        rfl

variable (threshold) (os)

theorem followed (k : Track) :
    Followed threshold os k := by
  induction os using reverseRecOn with
  | nil => exact ⟨fun _ => ⟨rfl, by simp⟩, fun st h => by cases h⟩
  | append_singleton os o ih =>
    by_cases hk : k = o.track
    · subst hk
      exact followed_same o ih
    · exact followed_other o ih hk

/-- The failing tracks are those on which a failure stands. -/
theorem failing_iff (k : Track) :
    (monitor threshold os).detector.Failing k ↔ Stands threshold os k := by
  have h := followed threshold os k
  cases hst : (monitor threshold os).detector.states k with
  | none =>
    obtain ⟨hsilent, hall⟩ := h.unseen hst
    simp [Detector.Failing, Stands, hst, hsilent, find?_unseen hall]
  | some st =>
    have hiff := (h.seen st hst).2
    simp [Detector.Failing, hst, hiff]

/-- What the next result returns after a run of results. -/
def returned (o : Observation) : Option Change :=
  ((monitor threshold os).detector.observe o.track o.last o.status).2

variable {threshold os}

theorem states_recovered {threshold : Int} {os : List Observation} {o : Observation}
    (h : returned threshold os o = some .probeRecovered) (k : Track) :
    (monitor threshold (os ++ [o])).detector.Failing k ↔
      k ≠ o.track ∧ (monitor threshold os).detector.Failing k := by
  rw [monitor_snoc]
  by_cases hk : k = o.track
  · subst hk
    have hstates := (monitor threshold os).states_same o
    have hfailing := ProbeState.next_failing (monitor threshold os).detector.threshold
      ((monitor threshold os).detector.seen o.track o.last) o.status
    rw [show (ProbeState.next _ _ o.status).2 = some .probeRecovered from h] at hfailing
    simp [Detector.Failing, hstates, hfailing]
  · simp [Detector.Failing, (monitor threshold os).states_other o hk, hk]

/-- A recovery is about its own track: it is returned by a success on a track that is failing
or adopts a failing status with this very result, it ends that failure, and the target has no
failing track left exactly when a failure stands on none of its other tracks. -/
theorem recovered_closes_own_track (threshold : Int) (os : List Observation) (o : Observation)
    (h : returned threshold os o = some .probeRecovered) :
    o.status = .success ∧ (Stands threshold os o.track ∨
        (∀ q ∈ os, q.track ≠ o.track) ∧ (adopted o.last).failing) ∧
      ¬ (monitor threshold (os ++ [o])).detector.Failing o.track ∧
      ((∀ k, k.target = o.track.target →
          ¬ (monitor threshold (os ++ [o])).detector.Failing k) ↔
        ∀ k, k.target = o.track.target → k ≠ o.track → ¬ Stands threshold os k) := by
  obtain ⟨hsuccess, hfailing⟩ := (ProbeState.next_recovered ..).mp h
  refine ⟨hsuccess, ?_, fun hstill => ((states_recovered h _).mp hstill).1 rfl, ?_⟩
  · rw [Detector.seen] at hfailing
    cases hst : (monitor threshold os).detector.states o.track with
    | none =>
      rw [hst, Option.getD_none] at hfailing
      exact .inr ⟨((followed threshold os o.track).unseen hst).2, hfailing⟩
    | some st =>
      rw [hst, Option.getD_some] at hfailing
      exact .inl ((failing_iff threshold os o.track).mp ⟨st, hst, hfailing⟩)
  · simp only [states_recovered h, failing_iff, not_and]

end Runs

/-- A target that two vantages watch and both see failing. -/
def twoVantages : List Observation :=
  [List.replicate 3 ⟨⟨1, .center⟩, none, .fail⟩,
    List.replicate 3 ⟨⟨1, .agent "lan"⟩, none, .timeout⟩].flatten

def centerSuccess : Observation := ⟨⟨1, .center⟩, some .fail, .success⟩

theorem twoVantages_recovered :
    returned 3 twoVantages centerSuccess = some .probeRecovered ∧
      ¬ (monitor 3 (twoVantages ++ [centerSuccess])).detector.Failing ⟨1, .center⟩ ∧
      ((∀ k, k.target = 1 →
          ¬ (monitor 3 (twoVantages ++ [centerSuccess])).detector.Failing k) ↔
        ∀ k, k.target = 1 → k ≠ ⟨1, .center⟩ → ¬ Stands 3 twoVantages k) :=
  ⟨by decide, (recovered_closes_own_track 3 twoVantages centerSuccess (by decide)).2.2⟩

/-- The center recovers while the agent still sees the target failing. -/
theorem recovered_while_failing :
    returned 3 twoVantages centerSuccess = some .probeRecovered ∧
      (monitor 3 (twoVantages ++ [centerSuccess])).detector.Failing ⟨1, .agent "lan"⟩ := by
  decide

end Steward.Probe
