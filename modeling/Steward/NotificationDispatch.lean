import Mathlib.Algebra.Order.Group.Multiset
import Mathlib.Data.List.Range
import Mathlib.Data.Multiset.AddSub
import Mathlib.Tactic.Abel
import Steward.Runs
import Steward.Text

/-!
# Notification dispatch

The worker pool that delivers notifications: a bounded channel, three workers,
each walking one job up the retry ladder, a set of jobs parked for a later
attempt, and the sweeper that brings them back. A job is copied at every hand-over,
so where the copies are is state; the `Dispatch` calls made so far are counted beside it.
-/

namespace Steward.Notify

open Runs Multiset

inductive ChannelType
  | webhook | email | feishu | wecom | telegram | discord
  deriving DecidableEq, Repr

/-! ## Send results -/

structure SendResult where
  success : Bool
  error : String
  permanent : Bool
  deriving DecidableEq, Repr

def containsAny (s : String) (subs : List String) : Bool :=
  subs.any fun sub => sub ≠ "" && Text.contains s sub

def permanentMarks : List String :=
  ["authentication", "auth", "535", "550", "553", "recipient", "invalid", "malformed"]

def SendResult.isRetryable (r : SendResult) : Bool :=
  if r.success || r.permanent then false
  else if r.error = "" then false
  else !containsAny r.error permanentMarks

/-! ## The dispatcher -/

def defaultWorkers : Nat := 3

def channelBuffer : Nat := 100

def maxRetries : Nat := 3

/-- The pacing of delayed retries. -/
structure Pacing where
  retryWindow : Int
  sweepInterval : Int := 15000
  firstDelay : Int := 30000
  maxDelay : Int := 300000
  deriving DecidableEq, Repr

variable {π : Type}

/-- What identifies a notification: the `Dispatch` call, and the fields its log row repeats. -/
structure Ticket (π : Type) where
  serial : Nat
  payload : π
  ruleId : Option Int
  channelId : Int
  deriving DecidableEq, Repr

structure Job (π : Type) where
  ticket : Ticket π
  channel : ChannelType
  config : String
  firstAttempt : Int
  backoff : Int
  deriving DecidableEq, Repr

inductive Status
  | sent | failed
  deriving DecidableEq, Repr

structure LogRow (π : Type) where
  ticket : Ticket π
  status : Status
  errorMessage : String
  deriving DecidableEq, Repr

/-- Where a worker stands in `processJob`. -/
inductive Stage
  | opening
  | sending (attempt : Nat)
  deriving DecidableEq, Repr

/-- An entry of the delayed set: the address of the job's copy, the copy, the next attempt. -/
structure Delayed (π : Type) where
  address : Nat
  job : Job π
  due : Int
  deriving DecidableEq, Repr

structure Dispatcher (π : Type) where
  channel : List (Job π)
  workers : List (Option (Job π × Stage))
  delayed : List (Delayed π)
  /-- The next unused address. -/
  fresh : Nat
  /-- The jobs the sweeper took out of the delayed set and has not passed on yet. -/
  hand : List (Job π)
  sweptAt : Int
  log : List (LogRow π)
  /-- The number of the next `Dispatch` call. -/
  serial : Nat
  deriving DecidableEq, Repr

namespace Dispatcher

def start : Dispatcher π :=
  ⟨[], List.replicate defaultWorkers none, [], 0, [], 0, [], 0⟩

variable (d : Dispatcher π)

def logResult (t : Ticket π) (status : Status) (error : String) :
    Dispatcher π :=
  { d with log := d.log ++ [⟨t, status, error⟩] }

/-- A copy of the job goes into the map under its own address. -/
def park (job : Job π) (due : Int) : Dispatcher π :=
  { d with
    delayed := d.delayed.filter (fun e => e.address ≠ d.fresh) ++ [⟨d.fresh, job, due⟩],
    fresh := d.fresh + 1 }

def setWorker (k : Nat) (w : Option (Job π × Stage)) : Dispatcher π :=
  { d with workers := d.workers.set k w }

/-- A send that does not block. -/
def offer (job : Job π) : Option (Dispatcher π) :=
  if d.channel.length < channelBuffer then some { d with channel := d.channel ++ [job] } else none

def dispatch (d : Dispatcher π) (now : Int) (channel : ChannelType) (config : String) (payload : π)
    (ruleId : Option Int) (channelId : Int) : Dispatcher π :=
  let t : Ticket π := ⟨d.serial, payload, ruleId, channelId⟩
  let d := { d with serial := d.serial + 1 }
  match d.offer ⟨t, channel, config, now, 0⟩ with
  | some d => d
  | none => d.logResult t .failed "dispatch queue full"

def nextBackoff (p : Pacing) (backoff : Int) : Int :=
  if backoff = 0 then p.firstDelay
  else if backoff < p.maxDelay then
    if 2 * backoff > p.maxDelay then p.maxDelay else 2 * backoff
  else backoff

variable (p : Pacing) (d : Dispatcher π)

/-- The end of the fast ladder: parked inside the window, otherwise the final row. -/
def exhausted (job : Job π) (last : SendResult)
    (now later : Int) : Dispatcher π :=
  if 0 < p.retryWindow ∧ last.isRetryable ∧ now - job.firstAttempt < p.retryWindow then
    let job := { job with backoff := nextBackoff p job.backoff }
    d.park job (later + job.backoff)
  else d.logResult job.ticket .failed last.error

/-- One answer of the sender to the worker's current attempt. -/
def answered (k : Nat) (job : Job π) (attempt : Nat)
    (result : SendResult) (now later : Int) : Dispatcher π :=
  if result.success then (d.setWorker k none).logResult job.ticket .sent ""
  else if !result.isRetryable then
    (d.setWorker k none).logResult job.ticket .failed result.error
  else if attempt + 1 < maxRetries then d.setWorker k (some (job, .sending (attempt + 1)))
  else exhausted p (d.setWorker k none) job result now later

/-- The locked part of a sweep. -/
def sweep (now : Int) : Dispatcher π :=
  let due := d.delayed.filter fun e => !decide (now < e.due)
  let expired := due.filter fun e => p.retryWindow ≤ now - e.job.firstAttempt
  let ready := due.filter fun e => !decide (p.retryWindow ≤ now - e.job.firstAttempt)
  { d with
    delayed := d.delayed.filter fun e => now < e.due,
    log := d.log ++ expired.map fun e =>
      ⟨e.job.ticket, .failed, "receiver unreachable: retry window expired"⟩,
    hand := ready.map Delayed.job,
    sweptAt := now }

/-- The sweeper passes its next job on, or parks it again behind a full channel. -/
def passOn (job : Job π) (rest : List (Job π)) : Dispatcher π :=
  let d := { d with hand := rest }
  match d.offer job with
  | some d => d
  | none => d.park job (d.sweptAt + p.sweepInterval)

end Dispatcher

inductive Event (π : Type)
  | dispatch (now : Int) (channel : ChannelType) (config : String) (payload : π)
      (ruleId : Option Int) (channelId : Int)
  /-- An idle worker receives from the channel. -/
  | take (worker : Nat)
  /-- The sender factory returns, perhaps with an error. -/
  | opened (worker : Nat) (error : Option String)
  /-- The sender returns; the clock is read for the window and again for the next attempt. -/
  | answered (worker : Nat) (result : SendResult) (now later : Int)
  | sweep (now : Int)
  | passOn
  deriving DecidableEq, Repr

def step (p : Pacing) (d : Dispatcher π) : Event π → Dispatcher π
  | .dispatch now channel config payload ruleId channelId =>
    d.dispatch now channel config payload ruleId channelId
  | .take k =>
    match d.workers[k]?, d.channel with
    | some none, job :: rest => { d with channel := rest }.setWorker k (some (job, .opening))
    | _, _ => d
  | .opened k error =>
    match d.workers[k]? with
    | some (some (job, .opening)) =>
      match error with
      | some e => (d.setWorker k none).logResult job.ticket .failed e
      | none => d.setWorker k (some (job, .sending 0))
    | _ => d
  | .answered k result now later =>
    match d.workers[k]? with
    | some (some (job, .sending attempt)) => d.answered p k job attempt result now later
    | _ => d
  | .sweep now =>
    -- the sweeper runs only with a window, and a tick waits until the last pass is over
    if 0 < p.retryWindow ∧ d.hand = [] then d.sweep p now else d
  | .passOn =>
    match d.hand with
    | job :: rest => d.passOn p job rest
    | [] => d

/-! ## Conservation -/

/-- The tickets of the `Dispatch` calls among the events, numbered in their order. -/
def tickets (serial : Nat) : List (Event π) → List (Ticket π)
  | [] => []
  | .dispatch _ _ _ payload ruleId channelId :: rest =>
    ⟨serial, payload, ruleId, channelId⟩ :: tickets (serial + 1) rest
  | _ :: rest => tickets serial rest

namespace Dispatcher

variable (d : Dispatcher π)

/-- The jobs in the channel, with a worker, in the delayed set and in the sweeper's hand. -/
def places : List (Ticket π) :=
  d.channel.map Job.ticket ++ d.workers.filterMap (fun w => w.map fun b => b.1.ticket) ++
    d.delayed.map (fun e => e.job.ticket) ++ d.hand.map Job.ticket

def settled : List (Ticket π) := d.log.map LogRow.ticket

/-- Every place and every log row together, up to order. -/
def balance : Multiset (Ticket π) :=
  (d.channel.map Job.ticket : Multiset (Ticket π)) +
    d.workers.filterMap (fun w => w.map fun b => b.1.ticket) +
    d.delayed.map (fun e => e.job.ticket) + d.hand.map Job.ticket + d.settled

theorem coe_places :
    ((d.places ++ d.settled : List (Ticket π)) : Multiset (Ticket π)) = d.balance := by
  simp only [places, balance, ← coe_add]

/-- Addresses in the delayed set have been used. -/
def Used : Prop := ∀ e ∈ d.delayed, e.address < d.fresh

variable {d : Dispatcher π} {job : Job π} {k : Nat} {s : Stage} {rest : List (Job π)}

theorem park_delayed (h : d.Used) (job : Job π) (due : Int) :
    (d.park job due).delayed = d.delayed ++ [⟨d.fresh, job, due⟩] := by
  have hfilter : d.delayed.filter (fun e => e.address ≠ d.fresh) = d.delayed := by
    rw [List.filter_eq_self]
    intro e he
    have := h e he
    simp only [ne_eq, decide_not, Bool.not_eq_true', decide_eq_false_iff_not]
    omega
  simp only [park, hfilter]

theorem used_park (h : d.Used) (job : Job π) (due : Int) : (d.park job due).Used := by
  intro e he
  rw [park_delayed h, List.mem_append, List.mem_singleton] at he
  show e.address < d.fresh + 1
  rcases he with he | rfl
  · have := h e he
    omega
  · exact Nat.lt_succ_self _

theorem balance_park (h : d.Used) (job : Job π) (due : Int) :
    (d.park job due).balance = job.ticket ::ₘ d.balance := by
  simp only [balance, park_delayed h, List.map_append, List.map_cons, List.map_nil,
    ← coe_add, ← singleton_add]
  simp only [park, settled, coe_singleton]
  abel

theorem balance_logResult (d : Dispatcher π) (t : Ticket π) (s : Status) (e : String) :
    (d.logResult t s e).balance = t ::ₘ d.balance := by
  simp only [balance, logResult, settled, List.map_append, List.map_cons, List.map_nil,
    ← coe_add, ← singleton_add, coe_singleton]
  abel

variable {d' : Dispatcher π} {w : Option (Job π × Stage)}

theorem balance_offer (h : d.offer job = some d') : d'.balance = job.ticket ::ₘ d.balance := by
  obtain ⟨_, rfl⟩ := Option.ite_some_none_eq_some.mp h
  simp only [balance, settled, List.map_append, List.map_cons, List.map_nil, ← coe_add,
    ← singleton_add, coe_singleton]
  abel

/-- A worker's slot before and after it changes, against the other workers. -/
theorem tickets_set {ws : List (Option (Job π × Stage))} (h : ws[k]? = some w)
    (v : Option (Job π × Stage)) :
    let f : Option (Job π × Stage) → Option (Ticket π) := fun w => w.map fun b => b.1.ticket
    ((ws.set k v).filterMap f : Multiset (Ticket π)) + (f w).toList =
      (ws.filterMap f : Multiset (Ticket π)) + (f v).toList := by
  intro f
  obtain ⟨hk, rfl⟩ := List.getElem?_eq_some_iff.mp h
  have hset := (List.set_perm_cons_eraseIdx hk v).filterMap f
  have hget := (List.getElem_cons_eraseIdx_perm hk).symm.filterMap f
  have split : ∀ w, (((w :: ws.eraseIdx k).filterMap f : List (Ticket π)) : Multiset (Ticket π)) =
      (f w).toList + (ws.eraseIdx k).filterMap f := by
    intro w
    cases hw : f w with
    | none => simp [hw]
    | some t => simp [hw]
  rw [coe_eq_coe.mpr hset, coe_eq_coe.mpr hget, split, split]
  abel

theorem balance_setWorker (h : d.workers[k]? = some w) (v : Option (Job π × Stage)) :
    (d.setWorker k v).balance + (w.map fun b => b.1.ticket).toList =
      d.balance + (v.map fun b => b.1.ticket).toList := by
  have hset := tickets_set h v
  have regroup : ∀ a b c e f g : Multiset (Ticket π), a + b + c + e + f + g =
      a + c + e + f + (b + g) := by
    intro a b c e f g
    abel
  simp only [balance, setWorker]
  rw [regroup, regroup, hset]
  rfl

theorem balance_release (h : d.workers[k]? = some (some (job, s))) :
    job.ticket ::ₘ (d.setWorker k none).balance = d.balance := by
  have hset := balance_setWorker h none
  simpa [← singleton_add, add_comm] using hset

theorem balance_restage (h : d.workers[k]? = some (some (job, s))) (s' : Stage) :
    (d.setWorker k (some (job, s'))).balance = d.balance := by
  have hset := balance_setWorker h (some (job, s'))
  simpa using hset

theorem balance_occupy (h : d.workers[k]? = some none) (job : Job π) (s : Stage) :
    (d.setWorker k (some (job, s))).balance = job.ticket ::ₘ d.balance := by
  have hset := balance_setWorker h (some (job, s))
  simpa [← singleton_add, add_comm] using hset

/-- The jobs of these tickets are all accounted for, and their calls are numbered in order. -/
structure Balanced (ts : List (Ticket π)) (d : Dispatcher π) : Prop where
  used : d.Used
  balance : d.balance = ts
  numbered : ts.map Ticket.serial = List.range d.serial

variable {ts : List (Ticket π)}

theorem balanced_start : (start : Dispatcher π).Balanced [] := by
  refine ⟨by simp [Used, start], ?_, rfl⟩
  simp [Dispatcher.balance, start, settled, defaultWorkers]

/-- Steps that neither dispatch nor hand out an address. -/
theorem Balanced.frame (h : d.Balanced ts) (hd : d'.delayed ⊆ d.delayed) (hf : d'.fresh = d.fresh)
    (hs : d'.serial = d.serial) (hb : d'.balance = d.balance) : d'.Balanced ts :=
  ⟨fun e he => hf ▸ h.used e (hd he), hb.trans h.balance, by rw [hs, h.numbered]⟩

theorem balanced_dispatch (h : d.Balanced ts) (now : Int) (channel : ChannelType) (config : String)
    (payload : π) (ruleId : Option Int) (channelId : Int) :
    (d.dispatch now channel config payload ruleId channelId).Balanced
      (ts ++ [⟨d.serial, payload, ruleId, channelId⟩]) := by
  set t : Ticket π := ⟨d.serial, payload, ruleId, channelId⟩ with ht
  have numbered : (ts ++ [t]).map Ticket.serial = List.range (d.serial + 1) := by
    simp [h.numbered, ht, List.range_succ]
  have hsum : t ::ₘ d.balance = ((ts ++ [t] : List (Ticket π)) : Multiset (Ticket π)) := by
    rw [h.balance, ← coe_add, ← singleton_add, add_comm]
    rfl
  unfold dispatch
  simp only [← ht]
  cases hoffer : ({ d with serial := d.serial + 1 } : Dispatcher π).offer
      ⟨t, channel, config, now, 0⟩ with
  | some d' =>
    have hbalance := balance_offer hoffer
    obtain ⟨_, rfl⟩ := Option.ite_some_none_eq_some.mp hoffer
    exact ⟨h.used, hbalance.trans hsum, numbered⟩
  | none => exact ⟨h.used, (balance_logResult _ t _ _).trans hsum, numbered⟩

variable (p : Pacing)

theorem balanced_exhausted (used : d.Used) (hb : job.ticket ::ₘ d.balance = ts)
    (numbered : ts.map Ticket.serial = List.range d.serial) (last : SendResult)
    (now later : Int) : (d.exhausted p job last now later).Balanced ts := by
  unfold exhausted
  split
  · exact ⟨used_park used _ _, (balance_park used _ _).trans hb, numbered⟩
  · exact ⟨used, (balance_logResult ..).trans hb, numbered⟩

theorem balanced_answered (h : d.Balanced ts) (hk : d.workers[k]? = some (some (job, s)))
    (attempt : Nat) (result : SendResult) (now later : Int) :
    (d.answered p k job attempt result now later).Balanced ts := by
  have hrelease := balance_release hk
  unfold answered
  split
  · exact h.frame (List.Subset.refl _) rfl rfl ((balance_logResult ..).trans hrelease)
  split
  · exact h.frame (List.Subset.refl _) rfl rfl ((balance_logResult ..).trans hrelease)
  split
  · exact h.frame (List.Subset.refl _) rfl rfl (balance_restage hk _)
  · have used : (d.setWorker k none).Used := h.used
    exact balanced_exhausted p used (hrelease.trans h.balance) h.numbered result now later

/-- The two halves of a list under a test, up to order. -/
theorem coe_filter_map {α β : Type} (f : α → β) (q : α → Bool) (l : List α) :
    (((l.filter q).map f : List β) : Multiset β) + (l.filter fun a => !q a).map f = l.map f := by
  rw [coe_add, ← List.map_append]
  exact coe_eq_coe.mpr ((List.filter_append_perm q l).map f)

theorem balance_sweep (hand : d.hand = []) (now : Int) : (d.sweep p now).balance = d.balance := by
  have hdue := coe_filter_map (fun e : Delayed π => e.job.ticket) (fun e => decide (now < e.due))
    d.delayed
  have hexpired := coe_filter_map (fun e : Delayed π => e.job.ticket)
    (fun e => decide (p.retryWindow ≤ now - e.job.firstAttempt))
    (d.delayed.filter fun e => !decide (now < e.due))
  simp only [balance, sweep, settled, hand, List.map_append, List.map_map, ← coe_add,
    ← hdue, ← hexpired, List.map_nil, coe_nil, add_zero]
  simp only [Function.comp_def]
  abel

theorem balance_hand (hand : d.hand = job :: rest) :
    job.ticket ::ₘ ({ d with hand := rest } : Dispatcher π).balance = d.balance := by
  simp only [balance, settled, hand, List.map_cons, ← cons_coe, ← singleton_add]
  abel

theorem balanced_passOn (h : d.Balanced ts) (hand : d.hand = job :: rest) :
    (d.passOn p job rest).Balanced ts := by
  have hhand := (balance_hand hand).trans h.balance
  unfold passOn
  simp only
  cases hoffer : ({ d with hand := rest } : Dispatcher π).offer job with
  | some d' =>
    have hbalance := balance_offer hoffer
    obtain ⟨_, rfl⟩ := Option.ite_some_none_eq_some.mp hoffer
    exact ⟨h.used, hbalance.trans hhand, h.numbered⟩
  | none =>
    have used : ({ d with hand := rest } : Dispatcher π).Used := h.used
    exact ⟨used_park used _ _, (balance_park used _ _).trans hhand, h.numbered⟩

theorem balance_channel (channel : d.channel = job :: rest) :
    job.ticket ::ₘ ({ d with channel := rest } : Dispatcher π).balance = d.balance := by
  simp only [balance, settled, channel, List.map_cons, ← cons_coe, ← singleton_add]
  abel

end Dispatcher

open Dispatcher

variable (p : Pacing)

/-- A step accounts for the ticket of its `Dispatch` call as well. -/
theorem balanced_step {ts : List (Ticket π)} {d : Dispatcher π} (e : Event π)
    (h : d.Balanced ts) : (step p d e).Balanced (ts ++ tickets d.serial [e]) := by
  cases e with
  | dispatch => exact balanced_dispatch h ..
  | take k =>
    simp only [step, tickets, List.append_nil]
    split
    · rename_i job rest hk hchannel
      refine h.frame (List.Subset.refl _) rfl rfl ?_
      have hoccupy := balance_occupy (d := { d with channel := rest }) hk job .opening
      exact hoccupy.trans (balance_channel hchannel)
    · exact h
  | opened k error =>
    simp only [step, tickets, List.append_nil]
    split
    · rename_i job hk
      cases error with
      | some e =>
        exact h.frame (List.Subset.refl _) rfl rfl
          ((balance_logResult ..).trans (balance_release hk))
      | none => exact h.frame (List.Subset.refl _) rfl rfl (balance_restage hk _)
    · exact h
  | answered k result now later =>
    simp only [step, tickets, List.append_nil]
    split
    · rename_i job attempt hk
      exact balanced_answered p h hk attempt result now later
    · exact h
  | sweep now =>
    simp only [step, tickets, List.append_nil]
    split
    · rename_i hready
      exact h.frame List.filter_sublist.subset rfl rfl (balance_sweep p hready.2 now)
    · exact h
  | passOn =>
    simp only [step, tickets, List.append_nil]
    split
    · rename_i job rest hand
      exact balanced_passOn p h hand
    · exact h

theorem serial_step {ts : List (Ticket π)} {d : Dispatcher π} (e : Event π)
    (h : d.Balanced ts) : (step p d e).serial = d.serial + (tickets d.serial [e]).length := by
  have hlength := congrArg List.length (balanced_step p e h).numbered
  have hbefore := congrArg List.length h.numbered
  simp only [List.length_map, List.length_append, List.length_range] at hlength hbefore
  omega

theorem balanced_run (events : List (Event π)) {ts : List (Ticket π)}
    {d : Dispatcher π} (h : d.Balanced ts) :
    (run (step p) d events).Balanced (ts ++ tickets d.serial events) := by
  induction events generalizing ts d with
  | nil => simpa [tickets] using h
  | cons e rest ih =>
    have hrest := ih (balanced_step p e h)
    have hcons : tickets d.serial (e :: rest) =
        tickets d.serial [e] ++ tickets (d.serial + (tickets d.serial [e]).length) rest := by
      cases e <;> rfl
    rwa [serial_step p e h, List.append_assoc, ← hcons] at hrest

/-- After every run each job that a `Dispatch` call of it handed over, with its rule, channel and
payload, is in exactly one place or has exactly one log row, and nothing else is or has. -/
theorem dispatched_once (events : List (Event π)) :
    (((run (step p) start events).places ++ (run (step p) start events).settled).map
      Ticket.serial).Nodup ∧
    ∀ t, t ∈ tickets 0 events ↔
      t ∈ (run (step p) start events).places ∨ t ∈ (run (step p) start events).settled := by
  have h := balanced_run p events balanced_start
  rw [List.nil_append] at h
  have hperm : ((run (step p) start events).places ++ (run (step p) start events).settled).Perm
      (tickets 0 events) := coe_eq_coe.mp ((coe_places _).trans h.balance)
  constructor
  · rw [(hperm.map Ticket.serial).nodup_iff]
    exact h.numbered ▸ List.nodup_range
  · intro t
    rw [← List.mem_append, hperm.mem_iff]

/-- Two jobs: one is refused for good, the other waits in the channel. -/
def twoJobs : List (Event String) :=
  [.dispatch 0 .webhook "url" "down" none 1, .take 0, .dispatch 5 .email "smtp" "up" (some 7) 2,
    .opened 0 none, .answered 0 ⟨false, "gone", true⟩ 9 9]

theorem dispatched_once_twoJobs :
    tickets 0 twoJobs = [⟨0, "down", none, 1⟩, ⟨1, "up", some 7, 2⟩] ∧
      (run (step ⟨0, 15000, 30000, 300000⟩) start twoJobs).places = [⟨1, "up", some 7, 2⟩] ∧
      ((⟨0, "down", none, 1⟩ : Ticket String) ∈
          (run (step ⟨0, 15000, 30000, 300000⟩) start twoJobs).places ∨
        ⟨0, "down", none, 1⟩ ∈
          (run (step ⟨0, 15000, 30000, 300000⟩) start twoJobs).settled) := by
  refine ⟨rfl, rfl, ?_⟩
  exact ((dispatched_once ⟨0, 15000, 30000, 300000⟩ twoJobs).2 _).mp (by decide)

end Steward.Notify
