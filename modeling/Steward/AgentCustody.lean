import Mathlib.Data.List.Perm.Subperm
import Steward.AgentReporter
import Steward.Custody

/-!
# Reports in the custody of the agent

The agent's reporter holds a report from the moment it is formed, in flight or in
the pending queue, until the center has taken or refused it or the queue drops it.
The books of the reporter balance at every step. Heartbeats that use up their
attempts share the queue with the reports that carry hosts.
-/

namespace Steward.Agent

open Custody (Flow Balances)
open List

variable {α : Type}

/-- The report carries data; one that does not is a heartbeat. -/
def AgentReport.carriesHosts (r : AgentReport α) : Bool := r.hosts.isSome

/-- What becomes of a report when an attempt to post it is answered. -/
inductive Fate where
  | accepted
  | rejected
  | discarded
  | parked
  | retried

def fate (r : AgentReport α) (attempts : Nat) : PostOutcome → Fate
  | .accepted => .accepted
  | .rejected status =>
    if status = 401 then (if r.carriesHosts then .parked else .discarded) else .rejected
  | .transportError => if attempts ≤ 1 then .parked else .retried

def Fate.flow (pending : List (AgentReport α)) (r : AgentReport α) : Fate → Flow (AgentReport α)
  | .accepted => { delivered := [r] }
  | .rejected | .discarded => { lost := [r] }
  | .parked => { lost := (pending ++ [r]).take (pending.length + 1 - 100) }
  | .retried => {}

/-- The report that a task has in flight. -/
def Task.inFlight : Task α → List (AgentReport α)
  | .posting report _ _ _ => [report]
  | _ => []

/-- The last attempt to post a heartbeat. -/
def Task.lastHeartbeat : Task α → Bool
  | .posting report _ attempts _ => decide (attempts ≤ 1) && !report.carriesHosts
  | _ => false

namespace Reporter

/-- The reports that are parked or in flight. -/
def custody (w : Reporter α) : List (AgentReport α) :=
  w.state.pending ++ w.tasks.flatMap Task.inFlight

variable (cfg : Config α) (w : Reporter α)

/-- The report that takes the buffer, if there is anything in it. -/
def buffered (now : Int) : List (AgentReport α) :=
  if !w.state.buffer.isEmpty then
    [flushReport cfg now w.scansTotal w.state.buffer w.state.passive]
  else []

/-- The report of a tick: the buffer, or a heartbeat when idle. -/
def tickForms (now : Int) : List (AgentReport α) :=
  if w.state.buffer.isEmpty ∧ 30000 ≤ now - w.state.lastPostMs then
    [flushReport cfg now w.scansTotal [] false]
  else w.buffered cfg now

/-- The report of one round of `stop_flush`: the buffer, once the queue is left. -/
def drainForms (now : Int) (delivered : Bool) :
    List (AgentReport α) :=
  match delivered, w.state.pending with
  | true, _ :: _ => []
  | _, _ => w.buffered cfg now

/-- The reports that a step forms. -/
def formed : Event α → List (AgentReport α)
  | .report now hosts =>
    if cfg.maxBuf ≤ (w.state.buffer ++ hosts).length then
      [flushReport cfg now ((w.scansTotal + 1) % 2 ^ 32) (w.state.buffer ++ hosts) w.state.passive]
    else []
  | .resume i now =>
    match w.tasks[i]? with
    | some .tickBuffer => w.tickForms cfg now
    | some (.stopDrain delivered) => w.drainForms cfg now delivered
    | _ => []
  | _ => []

/-- The books of one step. -/
def flow : Event α → Flow (AgentReport α)
  | .answered i _ outcome =>
    match w.tasks[i]? with
    | some (.posting r _ attempts _) => (fate r attempts outcome).flow w.state.pending r
    | _ => {}
  | e => { formed := w.formed cfg e }

variable {cfg}

@[simp] theorem launch_custody (t : Task α) :
    (w.launch t).custody = w.custody ++ t.inFlight := by
  simp [custody, launch]

@[simp] theorem post_custody (r : AgentReport α) (hash : Option String)
    (next : Next) : (w.post r hash next).custody = w.custody ++ [r] :=
  launch_custody w _

@[simp] theorem deliver_custody (delivered : Bool) (next : Next) :
    (w.deliver delivered next).custody = w.custody := by
  cases next <;> simp [deliver, Task.inFlight]

@[simp] theorem deliver_pending (delivered : Bool) (next : Next) :
    (w.deliver delivered next).state.pending = w.state.pending := by
  cases next <;> rfl

variable {w} {i attempts : Nat} {st : ReporterState α} {outcome : PostOutcome} {v : Reporter α}

theorem custody_eraseIdx {t : Task α} (h : w.tasks[i]? = some t) :
    w.custody.Perm (custody { w with tasks := w.tasks.eraseIdx i } ++ t.inFlight) := by
  obtain ⟨hlt, rfl⟩ := List.getElem?_eq_some_iff.mp h
  have htasks := (getElem_cons_eraseIdx_perm hlt).symm.flatMap_right Task.inFlight
  simp only [custody, append_assoc]
  exact (htasks.trans perm_append_comm).append_left _

/-- The oldest parked report goes out again. -/
theorem custody_repost {batch : AgentReport α} {rest : List (AgentReport α)}
    (hp : w.state.pending = batch :: rest) (next : Next) :
    w.custody.Perm
      (post { w with state := { w.state with pending := rest } } batch none next).custody := by
  rw [post_custody]
  simp only [custody, hp, cons_append]
  exact (perm_append_singleton _ _).symm

theorem takeBuffer_custody (cfg : Config α) (w : Reporter α) (now : Int) :
    (if !w.state.buffer.isEmpty then w.takeBuffer cfg now else w).custody =
      w.custody ++ w.buffered cfg now := by
  cases h : w.state.buffer.isEmpty with
  | false => simp [takeBuffer, flush, buffered, h, custody, post, launch, Task.inFlight]
  | true => simp [buffered, h]

theorem withState_custody (h : st.pending = w.state.pending) :
    custody { w with state := st } = w.custody := by
  simp only [custody, h]

theorem park_custody (r : AgentReport α) (hst : st.pending = w.state.pending) :
    (w.custody ++ [r]).Perm (custody { w with state := st.park r } ++
      (w.state.pending ++ [r]).take (w.state.pending.length + 1 - 100)) := by
  have hqueue : (w.state.pending ++ [r]).Perm
      ((st.park r).pending ++
        (w.state.pending ++ [r]).take (w.state.pending.length + 1 - 100)) := by
    simp only [ReporterState.park, hst, length_append, length_singleton]
    refine Perm.trans ?_ perm_append_comm
    rw [take_append_drop]
  simp only [custody, append_assoc]
  refine (perm_append_comm.append_left _).trans ?_
  rw [← append_assoc]
  refine (hqueue.append_right _).trans ?_
  rw [append_assoc]
  exact perm_append_comm.append_left _

variable (now : Int)

theorem answer_custody (r : AgentReport α) (hash : Option String) (attempts : Nat) (next : Next)
    (outcome : PostOutcome) :
    (w.custody ++ [r]).Perm ((w.answer cfg now r hash attempts next outcome).custody ++
      (((fate r attempts outcome).flow w.state.pending r).delivered ++
        ((fate r attempts outcome).flow w.state.pending r).lost)) := by
  cases outcome with
  | accepted => simp [answer, fate, Fate.flow, withState_custody]
  | rejected status =>
    by_cases hauth : status = 401
    · cases hhosts : r.hosts.isSome with
      | true =>
        simp only [answer, fate, AgentReport.carriesHosts, hauth, hhosts, if_true, Fate.flow,
          deliver_custody, nil_append]
        exact park_custody r rfl
      | false =>
        simp [answer, fate, AgentReport.carriesHosts, hauth, hhosts, Fate.flow, withState_custody]
    · simp [answer, fate, hauth, Fate.flow, withState_custody]
  | transportError =>
    by_cases hlast : attempts ≤ 1
    · simp only [answer, fate, if_pos hlast, Fate.flow, deliver_custody, nil_append]
      exact park_custody r rfl
    · simp [answer, fate, hlast, Fate.flow, Task.inFlight]

theorem tickBuffer_custody : (w.tickBuffer cfg now).custody = w.custody ++ w.tickForms cfg now := by
  have htake := takeBuffer_custody cfg w now
  cases hb : w.state.buffer.isEmpty with
  | false => simpa [tickBuffer, tickForms, hb] using htake
  | true =>
    by_cases hidle : now - w.state.lastPostMs < 30000
    · simp [tickBuffer, tickForms, hb, hidle, buffered, Int.not_le.mpr hidle]
    · simp [tickBuffer, tickForms, hb, hidle, flush, Int.not_lt.mp hidle]

theorem stopDrain_custody (delivered : Bool) :
    (w.custody ++ w.drainForms cfg now delivered).Perm (w.stopDrain cfg now delivered).custody := by
  cases delivered with
  | false =>
    simp only [drainForms, stopDrain, takeBuffer_custody]
    rfl
  | true =>
    cases hp : w.state.pending with
    | nil =>
      simp only [drainForms, stopDrain, hp, takeBuffer_custody]
      rfl
    | cons batch rest =>
      simp only [drainForms, stopDrain, hp, append_nil]
      exact custody_repost hp .stopDrain

/-- Every report is held, delivered or lost after every step. -/
theorem balances (cfg : Config α) : Balances (step cfg) custody (flow cfg) := by
  intro w e
  cases e with
  | report now hosts =>
    simp only [step, report, flow, formed]
    split
    · simp [takeBuffer, flush, custody, post, launch, Task.inFlight]
    · simp [custody]
  | reportPassive host => simp [step, flow, formed, reportPassive, custody]
  | tick now =>
    simp only [step, flow, formed, tick, append_nil]
    split
    · rfl
    · split
      · simp [Task.inFlight]
      · next batch rest hp => exact custody_repost hp .tickBuffer
  | stopFlush => simp [step, flow, formed, Task.inFlight]
  | resume i now =>
    cases htask : w.tasks[i]? with
    | none => simp [step, flow, formed, htask]
    | some t =>
      have herase := custody_eraseIdx htask
      cases t with
      | tickBuffer =>
        simp only [step, flow, formed, htask, tickBuffer_custody, append_nil]
        simp only [Task.inFlight, append_nil] at herase
        exact herase.append_right _
      | stopDrain delivered =>
        simp only [step, flow, formed, htask, append_nil]
        simp only [Task.inFlight, append_nil] at herase
        exact (herase.append_right _).trans (stopDrain_custody now delivered)
      | posting r hash attempts next => simp [step, flow, formed, htask]
  | answered i now outcome =>
    cases htask : w.tasks[i]? with
    | none => simp [step, flow, htask]
    | some t =>
      cases t with
      | tickBuffer => simp [step, flow, htask]
      | stopDrain delivered => simp [step, flow, htask]
      | posting r hash attempts next =>
        have hformed : ((fate r attempts outcome).flow w.state.pending r).formed = [] := by
          cases fate r attempts outcome <;> rfl
        simp only [step, flow, htask, hformed, append_nil]
        exact (custody_eraseIdx htask).trans (answer_custody now r hash attempts next outcome)

/-! ## Parked reports -/

/-- The report whose post is accepted or refused for good at this step. -/
def settled (w : Reporter α) : Event α → List (AgentReport α)
  | .answered i _ outcome =>
    match w.tasks[i]? with
    | some (.posting r _ attempts _) =>
      match fate r attempts outcome with
      | .accepted | .rejected => [r]
      | _ => []
    | _ => []
  | _ => []

/-- A report is parked, and with it the queue has more than a hundred reports with hosts. -/
def Overflows (w : Reporter α) : Event α → Prop
  | .answered i _ outcome =>
    match w.tasks[i]? with
    | some (.posting r _ attempts _) =>
      fate r attempts outcome = .parked ∧
        100 < (w.state.pending ++ [r]).countP AgentReport.carriesHosts
    | _ => False
  | _ => False

/-- A report with hosts is held until it is settled, unless too many of them are parked. -/
def KeepsData (cfg : Config α) (w : Reporter α) (e : Event α) : Prop :=
  (w.custody.filter AgentReport.carriesHosts).Subperm ((w.step cfg e).custody ++ w.settled e) ∨
    w.Overflows e

variable (w)

/-- No heartbeat runs out of attempts. -/
def HeartbeatsAnswered : Event α → Prop
  | .answered i _ .transportError => w.tasks[i]?.any Task.lastHeartbeat = false
  | _ => True

instance : (e : Event α) → Decidable (w.HeartbeatsAnswered e)
  | .answered i _ .transportError =>
    inferInstanceAs (Decidable (w.tasks[i]?.any Task.lastHeartbeat = false))
  | .answered _ _ .accepted | .answered _ _ (.rejected _) | .report .. | .reportPassive _ | .tick _
  | .stopFlush | .resume .. => isTrue trivial

/-- The queue is within its bound and all of it carries hosts. -/
structure DataQueue : Prop where
  bounded : w.state.pending.length ≤ 100
  data : ∀ r ∈ w.state.pending, r.carriesHosts

variable {w} {r : AgentReport α} {e : Event α}

theorem fate_discarded (h : fate r attempts outcome = .discarded) : r.carriesHosts = false := by
  cases outcome with
  | accepted => cases h
  | rejected status =>
    by_contra hdata
    by_cases hauth : status = 401 <;> simp [fate, hauth, hdata] at h
  | transportError => by_cases hlast : attempts ≤ 1 <;> simp [fate, hlast] at h

theorem DataQueue.of_sublist (h : w.DataQueue) (hsub : v.state.pending.Sublist w.state.pending) :
    v.DataQueue where
  bounded := Nat.le_trans hsub.length_le h.bounded
  data r hr := h.data r (hsub.subset hr)

theorem DataQueue.park (h : w.DataQueue) (hr : r.carriesHosts)
    (hv : v.state.pending = (w.state.pending ++ [r]).drop (w.state.pending.length + 1 - 100)) :
    v.DataQueue where
  bounded := by
    rw [hv, length_drop, length_append, length_singleton]
    omega
  data s hs := by
    rw [hv] at hs
    rcases mem_append.mp (mem_of_mem_drop hs) with hs | hs
    · exact h.data s hs
    · rwa [mem_singleton.mp hs]

theorem answer_pending (cfg : Config α) (w : Reporter α) (now : Int) (r : AgentReport α)
    (hash : Option String) (attempts : Nat) (next : Next) (outcome : PostOutcome) :
    (w.answer cfg now r hash attempts next outcome).state.pending =
      match fate r attempts outcome with
      | .parked => (w.state.pending ++ [r]).drop (w.state.pending.length + 1 - 100)
      | _ => w.state.pending := by
  cases outcome with
  | accepted => simp [answer, fate]
  | rejected status =>
    by_cases hauth : status = 401
    · cases hhosts : r.hosts.isSome <;>
        simp [answer, fate, AgentReport.carriesHosts, hauth, hhosts, ReporterState.park]
    · simp [answer, fate, hauth]
  | transportError =>
    by_cases hlast : attempts ≤ 1
    · simp [answer, fate, hlast, ReporterState.park]
    · simp [answer, fate, hlast, launch]

/-- What is parked carries hosts, when heartbeats are answered. -/
theorem carriesHosts_of_parked {now : Int} {hash : Option String} {next : Next}
    (htask : w.tasks[i]? = some (.posting r hash attempts next))
    (h : w.HeartbeatsAnswered (.answered i now outcome)) (hf : fate r attempts outcome = .parked) :
    r.carriesHosts := by
  cases outcome with
  | accepted => cases hf
  | rejected status =>
    by_contra hnone
    by_cases hauth : status = 401 <;> simp [fate, hauth, hnone] at hf
  | transportError =>
    by_cases hlast : attempts ≤ 1
    · simpa [HeartbeatsAnswered, htask, Task.lastHeartbeat, hlast] using h
    · simp [fate, hlast] at hf

theorem tick_pending : (w.tick now).state.pending.Sublist w.state.pending := by
  unfold tick
  split
  · exact .refl _
  · split
    · exact .refl _
    · next batch rest hp =>
      rw [hp]
      exact sublist_cons_self batch rest

theorem tickBuffer_pending : (w.tickBuffer cfg now).state.pending = w.state.pending := by
  unfold tickBuffer
  split
  · rfl
  · split <;> rfl

theorem stopDrain_pending (delivered : Bool) :
    (w.stopDrain cfg now delivered).state.pending.Sublist w.state.pending := by
  unfold stopDrain
  split
  · next batch rest hp =>
    rw [hp]
    exact sublist_cons_self batch rest
  · split <;> exact .refl _

theorem DataQueue.step (h : w.DataQueue) (he : w.HeartbeatsAnswered e) :
    (w.step cfg e).DataQueue := by
  cases e with
  | report now hosts =>
    apply h.of_sublist
    simp only [Reporter.step, report]
    split <;> exact .refl _
  | reportPassive host => exact h.of_sublist (.refl _)
  | tick now => exact h.of_sublist (tick_pending now)
  | stopFlush => exact h.of_sublist (.refl _)
  | resume i now =>
    apply h.of_sublist
    simp only [Reporter.step]
    split
    · rw [tickBuffer_pending]
    · next delivered _ => exact stopDrain_pending now delivered
    · exact .refl _
  | answered i now outcome =>
    simp only [Reporter.step]
    split
    · next r hash attempts next htask =>
      have hpending := answer_pending cfg { w with tasks := w.tasks.eraseIdx i } now r hash attempts
        next outcome
      split at hpending
      · next hf => exact h.park (carriesHosts_of_parked htask he hf) hpending
      · exact h.of_sublist (hpending ▸ .refl _)
    · exact h

theorem keepsData_of_settled (h : (((w.flow cfg e).delivered ++ (w.flow cfg e).lost).filter
      AgentReport.carriesHosts).Subperm (w.settled e)) : w.KeepsData cfg e := by
  have hbooks := (balances cfg w e).filter AgentReport.carriesHosts
  rw [filter_append, filter_append] at hbooks
  have hheld := (sublist_append_left _ _).subperm.trans hbooks.subperm
  exact .inl (hheld.trans (filter_sublist.subperm.append h))

theorem keepsData_of_dataQueue (h : w.DataQueue) (he : w.HeartbeatsAnswered e) :
    w.KeepsData cfg e := by
  cases e with
  | answered i now outcome =>
    match htask : w.tasks[i]? with
    | some (.posting r hash attempts next) =>
      cases hf : fate r attempts outcome with
      | accepted | rejected =>
        apply keepsData_of_settled
        simp [flow, settled, htask, hf, Fate.flow]
      | discarded =>
        have hr := fate_discarded hf
        apply keepsData_of_settled
        simp [flow, settled, htask, hf, Fate.flow, hr]
      | retried =>
        apply keepsData_of_settled
        simp [flow, settled, htask, hf, Fate.flow]
      | parked =>
        have hr := carriesHosts_of_parked htask he hf
        by_cases hroom : w.state.pending.length < 100
        · apply keepsData_of_settled
          have hnone : w.state.pending.length + 1 - 100 = 0 := by omega
          simp [flow, settled, htask, hf, Fate.flow, hnone]
        · -- All hundred parked reports carry hosts, and so does the new one.
          have hall : (w.state.pending ++ [r]).countP AgentReport.carriesHosts =
              (w.state.pending ++ [r]).length := by
            rw [countP_eq_length]
            intro s hs
            rcases mem_append.mp hs with hs | hs
            · exact h.data s hs
            · rwa [mem_singleton.mp hs]
          right
          simp only [Overflows, htask, hf, hall, length_append, length_singleton]
          exact ⟨trivial, by omega⟩
    | none | some .tickBuffer | some (.stopDrain _) =>
      apply keepsData_of_settled
      simp [flow, settled, htask]
  | report | reportPassive | tick | stopFlush | resume =>
    apply keepsData_of_settled
    simp [flow]

end Reporter

/-- In every run in which no heartbeat runs out of attempts, a report with hosts is in custody
until it is accepted or refused for good, unless more than a hundred of them are parked. -/
theorem data_kept (cfg : Config α) (events : List (Event α))
    (h : Runs.Along (Reporter.step cfg) Reporter.HeartbeatsAnswered {} events) :
    Runs.Along (Reporter.step cfg) (Reporter.KeepsData cfg) {} events :=
  Runs.along_of_along (P := Reporter.DataQueue)
    (fun _ _ hqueue he => ⟨Reporter.keepsData_of_dataQueue hqueue he, hqueue.step he⟩)
    ⟨by simp, by simp⟩ h

/-- An agent that flushes on ticks only. -/
def quietAgent : Config Nat where
  agentId := "agent"
  networkCidr := ""
  maxBuf := 256
  authRetryBackoffMs := 300000
  processStartSec := 0
  agentMeta := {}
  networkStateHash _ := ""

/-- The four attempts of the only task fail. -/
def failedPost : List (Event Nat) := List.replicate 4 (.answered 0 30000 .transportError)

/-- A tick that posts the oldest parked report and then the buffer or a heartbeat, in vain. -/
def failedTick : List (Event Nat) :=
  .tick 30000 :: (failedPost ++ .resume 0 30000 :: failedPost)

/-- A scan that cannot be delivered, then one that can, and the retry of the first. -/
theorem scans_kept : Runs.Along (Reporter.step quietAgent) (Reporter.KeepsData quietAgent) {}
    [[.report 0 [1], .tick 0, .resume 0 0], failedPost, [.report 0 [2]], failedTick,
      [.tick 60000, .answered 0 60000 .accepted, .resume 0 60000]].flatten :=
  data_kept quietAgent _ (by decide +kernel)

/-- The first tick, with nothing parked yet. -/
def firstTick : List (Event Nat) := [.tick 30000, .resume 0 30000] ++ failedPost

def failedTicks (n : Nat) : List (Event Nat) := (List.replicate n failedTick).flatten

def failedScan : List (Event Nat) := .report 30000 [1] :: failedTick

/-- Fifty heartbeats are parked before the only scan, and fifty ticks fail after it. -/
def heartbeatOutage : List (Event Nat) :=
  firstTick ++ failedTicks 49 ++ (failedScan ++ failedTicks 49 ++ failedTick)

open Reporter

theorem Reporter.Overflows.held {w : Reporter α} {e : Event α} (h : w.Overflows e) :
    100 < w.custody.countP AgentReport.carriesHosts := by
  cases e with
  | answered i now outcome =>
    match htask : w.tasks[i]? with
    | some (.posting r hash attempts next) =>
      simp only [Overflows, htask] at h
      have hr : [r].Sublist (w.tasks.flatMap Task.inFlight) :=
        singleton_sublist.mpr (mem_flatMap.mpr ⟨_, mem_of_getElem? htask, mem_singleton_self r⟩)
      exact Nat.lt_of_lt_of_le h.2 (Sublist.append_left hr _).countP_le
    | none | some .tickBuffer | some (.stopDrain _) => simp [Overflows, htask] at h
  | _ => exact h.elim

/-- The only report with hosts is lost. -/
theorem Reporter.not_keepsData {cfg : Config α} {w : Reporter α} {e : Event α}
    (hbefore : w.custody.countP AgentReport.carriesHosts = 1)
    (hafter : ((w.step cfg e).custody ++ w.settled e).countP AgentReport.carriesHosts = 0) :
    ¬ w.KeepsData cfg e := by
  rintro (hkept | hover)
  · have hle := hkept.countP_le AgentReport.carriesHosts
    simp only [hafter, countP_filter, Bool.and_self, hbefore] at hle
    cases hle
  · have hmany := Overflows.held hover
    omega

/-- The run up to the last attempt of its last heartbeat. -/
def outageSoFar : List (Event Nat) :=
  firstTick ++ failedTicks 49 ++ (failedScan ++ failedTicks 49 ++ failedTick.dropLast)

set_option maxRecDepth 20000 in
/-- The queue holds the batch and heartbeats only, and the last heartbeat pushes the batch out. -/
theorem outage_counts :
    let w := Runs.run (step quietAgent) {} outageSoFar
    w.custody.countP AgentReport.carriesHosts = 1 ∧
      ((w.step quietAgent (.answered 0 30000 .transportError)).custody ++
        w.settled (.answered 0 30000 .transportError)).countP AgentReport.carriesHosts = 0 := by
  decide +kernel

theorem batch_lost_to_heartbeats :
    ¬ Runs.Along (step quietAgent) (KeepsData quietAgent) {} heartbeatOutage := by
  have htick : failedTick = failedTick.dropLast ++ [.answered 0 30000 .transportError] := rfl
  have hsplit : heartbeatOutage = outageSoFar ++ [.answered 0 30000 .transportError] := by
    simp only [heartbeatOutage, outageSoFar, append_assoc]
    rw [← htick]
  rw [hsplit, Runs.along_append]
  exact fun halong => not_keepsData outage_counts.1 outage_counts.2 halong.2.1

end Steward.Agent
