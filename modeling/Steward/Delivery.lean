import Mathlib.Algebra.Order.Group.Multiset
import Mathlib.Tactic.Abel
import Steward.AgentCustody
import Steward.PeerReporter

/-!
# The order of delivery

Both reporters retry a failed batch after newer ones may have been delivered. The
books of the peer reporter are kept on the hosts of its batches: a batch exists
from the moment the buffer is taken, before its report is built. Both reporters
deliver what they hold and what they form later, so they deliver in order as long as
a batch is formed only while no other one is held.
-/

namespace Steward

open Agent (AgentReport)
open List
open Custody (Flow Balances DeliversHeld InOrder OneAtATime)

variable {ρ α : Type}

/-- The batches among some reports; a heartbeat carries none. -/
def batches (reports : List (AgentReport α)) : List (List α) := reports.filterMap AgentReport.hosts

@[simp] theorem batches_nil : batches ([] : List (AgentReport α)) = [] := rfl

@[simp] theorem batches_append (a b : List (AgentReport α)) :
    batches (a ++ b) = batches a ++ batches b :=
  filterMap_append

theorem batches_cons (r : AgentReport α) (rest : List (AgentReport α)) :
    batches (r :: rest) = r.hosts.toList ++ batches rest := by
  cases h : r.hosts <;> simp [batches, h]

@[simp] theorem batches_singleton (r : AgentReport α) : batches [r] = r.hosts.toList := by
  simp [batches_cons]

namespace Peer

/-- The batches of the queue that a call has taken out and not posted yet, or posted in vain. -/
def Caller.batches : Caller α → List (List α)
  | .flushPending rest remaining => Steward.batches (rest ++ remaining)
  | _ => []

def Task.batches : Task α → List (List α)
  | .forming hosts _ => [hosts]
  | .posting body _ _ caller => body.hosts.toList ++ caller.batches
  | _ => []

def PostOutcome.accepted : PostOutcome → Bool
  | .response status => decide (200 ≤ status ∧ status < 300)
  | _ => false

namespace Reporter

/-- The batches that are parked, in flight or on their way to their first post. -/
def batches (w : Reporter α) : List (List α) :=
  Steward.batches w.pending ++ w.tasks.flatMap Task.batches

variable (cfg : Config ρ α) (w : Reporter α)

/-- What a call loses whose post has failed. -/
def dropped (body : AgentReport α) : Caller α → List (List α)
  | .heartbeat => body.hosts.toList
  | .flushOnce =>
    if cfg.maxPending ≤ w.pending.length then Steward.batches (w.pending.take 1) else []
  | .flushPending .. => []

def answerFlow (body : AgentReport α) (attempts : Nat)
    (caller : Caller α) (outcome : PostOutcome) : Flow (List α) :=
  match verdict attempts outcome with
  | some true =>
    if outcome.accepted then { delivered := body.hosts.toList } else { lost := body.hosts.toList }
  | some false => { lost := w.dropped cfg body caller }
  | none => {}

/-- The books of one step. -/
def flow : Event ρ → Flow (List α)
  | .resume i _ =>
    match w.tasks[i]? with
    | some .flushOnce => if w.buf.isEmpty then {} else { formed := [w.buf] }
    | _ => {}
  | .answered i _ outcome =>
    match w.tasks[i]? with
    | some (.posting body _ attempts caller) => w.answerFlow cfg body attempts caller outcome
    | _ => {}
  | _ => {}

variable {cfg : Config ρ α} {w : Reporter α}

@[simp] theorem launch_batches (w : Reporter α) (t : Task α) :
    (w.launch t).batches = w.batches ++ t.batches := by
  simp [batches, launch]

theorem batches_eraseIdx {i : Nat} {t : Task α} (h : w.tasks[i]? = some t) :
    w.batches.Perm (batches { w with tasks := w.tasks.eraseIdx i } ++ t.batches) := by
  have htasks := (tasks_perm h).flatMap_right Task.batches
  simp only [batches, append_assoc]
  exact (htasks.trans perm_append_comm).append_left _

theorem flushWhenFull_batches : (w.flushWhenFull cfg).batches = w.batches := by
  unfold flushWhenFull
  split <;> simp [Task.batches]

theorem flushPending_batches : w.batches.Perm w.flushPending.batches := by
  unfold flushPending
  split
  · simp [Task.batches]
  · next first rest hp =>
    simp only [post, launch_batches, Task.batches, Caller.batches, append_nil]
    simp only [batches, hp, batches_cons, batches_nil, nil_append]
    exact perm_append_comm

theorem flushOnce_batches (now : Nat) :
    (w.flushOnce now).batches = w.batches ++ if w.buf.isEmpty then [] else [w.buf] := by
  unfold flushOnce
  split
  · split <;> simp [Task.batches]
  · simp [Task.batches]
    rfl

theorem enqueuePending_batches (body : AgentReport α) :
    (w.batches ++ body.hosts.toList).Perm
      ((w.enqueuePending cfg body).batches ++ w.dropped cfg body .flushOnce) := by
  have hsplit : Steward.batches w.pending =
      Steward.batches (w.pending.take 1) ++ Steward.batches w.pending.tail := by
    rw [← batches_append, ← drop_one, take_append_drop]
  simp only [enqueuePending, dropped, batches, batches_append, batches_singleton]
  rw [← Multiset.coe_eq_coe]
  split
  · rw [hsplit]
    simp only [← Multiset.coe_add]
    abel
  · simp only [← Multiset.coe_add]
    abel

/-- The answer to a post that is not tried again. -/
theorem settle_batches (cfg : Config ρ α) (w : Reporter α) (now : Nat) (body : AgentReport α)
    (ok : Bool) (caller : Caller α) :
    (w.batches ++ (body.hosts.toList ++ caller.batches)).Perm
      ((w.settle cfg now body ok caller).batches ++
        if ok then body.hosts.toList else w.dropped cfg body caller) := by
  cases caller with
  | heartbeat =>
    cases ok <;> simp [settle, Caller.batches, dropped, markPosted, batches]
  | flushOnce =>
    cases ok with
    | true => simp [settle, Caller.batches, markPosted, batches]
    | false => simpa [settle, Caller.batches] using enqueuePending_batches body
  | flushPending rest remaining =>
    have hbody : (body.hosts.toList : Multiset (List α)) + Steward.batches remaining =
        Steward.batches (if ok then remaining else remaining ++ [body]) +
          (if ok then body.hosts.toList else [] : List (List α)) := by
      cases ok with
      | false => simpa using perm_append_comm
      | true => exact add_comm _ _
    rw [← Multiset.coe_eq_coe]
    cases rest with
    | nil =>
      simp only [settle, Caller.batches, launch_batches, Task.batches, dropped, nil_append,
        append_nil]
      simp only [batches, batches_append, ← Multiset.coe_add]
      rw [hbody]
      abel
    | cons next rest =>
      simp only [settle, Caller.batches, post, launch_batches, Task.batches, dropped,
        batches_append, batches_cons, ← Multiset.coe_add]
      rw [add_left_comm (body.hosts.toList : Multiset (List α)), hbody]
      abel

theorem answer_batches (now : Nat) (body : AgentReport α) (hash : String) (attempts : Nat)
    (caller : Caller α) (outcome : PostOutcome) :
    (w.batches ++ (body.hosts.toList ++ caller.batches)).Perm
      ((w.answer cfg now body hash attempts caller outcome).batches ++
        ((w.answerFlow cfg body attempts caller outcome).delivered ++
          (w.answerFlow cfg body attempts caller outcome).lost)) := by
  unfold answer answerFlow
  cases hv : verdict attempts outcome with
  | none => simp [Task.batches]
  | some ok =>
    have hsettle := settle_batches cfg w now body ok caller
    cases ok with
    | false => simpa using hsettle
    | true => cases outcome.accepted <;> simpa using hsettle

/-- Every batch is held, delivered or lost after every step. -/
theorem balances (cfg : Config ρ α) : Balances (step cfg) batches (flow cfg) := by
  intro w e
  cases e with
  | report reports =>
    simp only [step, report, flow, flushWhenFull_batches]
    simp [batches]
  | reportPassive rep =>
    simp only [step, reportPassive, flow]
    split
    · rw [flushWhenFull_batches]
      simp [batches]
    · simp
  | tick => simp [step, flow, Task.batches]
  | stop => simp [step, flow, Task.batches]
  | resume i now =>
    cases htask : w.tasks[i]? with
    | none => simp [step, flow, htask]
    | some t =>
      have herase := batches_eraseIdx htask
      cases t with
      | flushPending =>
        simp only [step, flow, htask, append_nil]
        simp only [Task.batches, append_nil] at herase
        exact herase.trans flushPending_batches
      | flushOnce =>
        simp only [step, flow, htask, flushOnce_batches]
        simp only [Task.batches, append_nil] at herase
        cases w.buf.isEmpty with
        | true => simpa using herase
        | false =>
          simp only [Bool.false_eq_true, if_false, append_nil]
          exact herase.append_right _
      | heartbeat =>
        simpa [step, flow, htask, post, Task.batches, Caller.batches, body] using herase
      | forming hosts fromScan =>
        simpa [step, flow, htask, post, Task.batches, Caller.batches, batch, body] using herase
      | posting body hash attempts caller => simp [step, flow, htask]
  | answered i now outcome =>
    cases htask : w.tasks[i]? with
    | none => simp [step, flow, htask]
    | some t =>
      cases t with
      | posting body hash attempts caller =>
        have hformed : (w.answerFlow cfg body attempts caller outcome).formed = [] := by
          unfold answerFlow
          split
          · split <;> rfl
          all_goals rfl
        simp only [step, flow, htask, hformed, append_nil]
        exact (batches_eraseIdx htask).trans (answer_batches now body hash attempts caller outcome)
      | flushPending | flushOnce | heartbeat | forming => simp [step, flow, htask]

end Reporter

end Peer

/-! ## Batches one at a time -/

namespace Agent.Reporter

def batches (w : Reporter α) : List (List α) := Steward.batches w.custody

def batchFlow (cfg : Config α) (w : Reporter α) (e : Event α) : Flow (List α) :=
  (w.flow cfg e).filterMap AgentReport.hosts

end Agent.Reporter

/-- In every run of the agent's reporter and of the peer reporter, what is delivered after some
moment was parked or in flight then or is formed later: a batch is overtaken only by batches that
are formed while it is held. So batches that are formed one at a time are delivered in order. -/
theorem delivered_in_order :
    (∀ (cfg : Agent.Config α) (events : List (Agent.Event α)),
      DeliversHeld (Agent.Reporter.step cfg) Agent.Reporter.batches
          (Agent.Reporter.batchFlow cfg) {} events ∧
        (Runs.Along (Agent.Reporter.step cfg)
          (OneAtATime Agent.Reporter.batches (Agent.Reporter.batchFlow cfg)) {} events →
        InOrder (Agent.Reporter.step cfg) (Agent.Reporter.batchFlow cfg) {} events)) ∧
    (∀ (cfg : Peer.Config ρ α) (events : List (Peer.Event ρ)),
      DeliversHeld (Peer.Reporter.step cfg) Peer.Reporter.batches (Peer.Reporter.flow cfg) {}
          events ∧
        (Runs.Along (Peer.Reporter.step cfg)
          (OneAtATime Peer.Reporter.batches (Peer.Reporter.flow cfg)) {} events →
        InOrder (Peer.Reporter.step cfg) (Peer.Reporter.flow cfg) {} events)) := by
  constructor
  · intro cfg events
    have hbalances := (Agent.Reporter.balances cfg).filterMap AgentReport.hosts
    exact ⟨hbalances.deliversHeld {} events, Custody.inOrder_of_oneAtATime hbalances rfl⟩
  · intro cfg events
    have hbalances := Peer.Reporter.balances cfg
    exact ⟨hbalances.deliversHeld {} events, Custody.inOrder_of_oneAtATime hbalances rfl⟩

/-- A peer reporter that flushes on ticks only. -/
def quietPeer : Peer.Config Nat Nat where
  agentId := "peer"
  networkCidr := ""
  reportable _ := true
  hostToReported host := host
  networkStateHash _ := ""

open Agent (quietAgent failedPost)

/-- The four attempts of the only task of a peer reporter fail. -/
def failedPeerPost : List (Peer.Event Nat) := List.replicate 4 (.answered 0 0 .failed)

/-- The second scan is flushed once the first one has been delivered. -/
theorem scans_one_at_a_time :
    InOrder (Agent.Reporter.step quietAgent) (Agent.Reporter.batchFlow quietAgent) {}
      [[.report 0 [1], .tick 0, .resume 0 0], failedPost,
        [.tick 0, .answered 0 0 .accepted, .report 0 [2], .resume 0 0,
          .answered 0 0 .accepted]].flatten ∧
    InOrder (Peer.Reporter.step quietPeer) (Peer.Reporter.flow quietPeer) {}
      [[.report [1], .tick, .resume 0 0, .resume 0 0, .resume 0 0], failedPeerPost,
        [.tick, .resume 0 0, .answered 0 0 (.response 200), .report [2], .resume 0 0, .resume 0 0,
          .answered 0 0 (.response 200)]].flatten :=
  ⟨((delivered_in_order (ρ := Nat)).1 quietAgent _).2 (by decide +kernel),
    (delivered_in_order.2 quietPeer _).2 (by decide +kernel)⟩

/-- The first scan is retried in vain, the second one is delivered, then the first. -/
theorem retry_overtaken :
    ¬ InOrder (Agent.Reporter.step quietAgent) (Agent.Reporter.batchFlow quietAgent) {}
      [[.report 0 [1], .tick 0, .resume 0 0], failedPost, [.report 0 [2], .tick 0], failedPost,
        [.resume 0 0, .answered 0 0 .accepted, .tick 0, .answered 0 0 .accepted]].flatten ∧
    ¬ InOrder (Peer.Reporter.step quietPeer) (Peer.Reporter.flow quietPeer) {}
      [[.report [1], .tick, .resume 0 0, .resume 0 0, .resume 0 0], failedPeerPost,
        [.report [2], .tick, .resume 0 0], failedPeerPost,
        [.resume 0 0, .resume 0 0, .answered 0 0 (.response 200), .tick, .resume 0 0,
          .answered 0 0 (.response 200)]].flatten := by
  decide +kernel

end Steward
