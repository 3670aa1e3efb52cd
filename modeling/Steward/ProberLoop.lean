import Mathlib.Algebra.GroupWithZero.Nat
import Mathlib.Data.List.Induction
import Mathlib.Data.List.Infix
import Mathlib.Logic.Function.Basic
import Steward.Custody

/-!
# The prober of the agent

The agent probes the targets of its plan and posts the results in batches. A batch
whose post fails is parked, and a parked batch is posted again at the next tick. While
one is parked, no other batch is posted and the results of every tick join the batch
that waits behind it: what the loop holds is bounded by the length of the outage. A
rejection ends a post like an acceptance, also the one that asks for a new token.
-/

namespace Steward.ProberLoop

open Runs Custody List

/-! ## The plan -/

structure ProbeTargetSpec where
  id : Int
  intervalSeconds : Int

def ProbeTargetSpec.interval (t : ProbeTargetSpec) : Int :=
  if t.intervalSeconds > 0 then t.intervalSeconds else 300

structure Prober where
  planFingerprint : String := ""
  targets : List ProbeTargetSpec := []
  /-- The next run of a target, in milliseconds. -/
  due : Int → Option Int := fun _ => none

/-- `stagger_ms`. -/
def staggerMs (id intervalSecs : Int) : Int :=
  (id * 2654435761).bmod (2 ^ 64) % max 1 (min intervalSecs 60) * 1000

structure Plan where
  now : Int
  fingerprint : String
  targets : List ProbeTargetSpec

namespace Prober

/-- `apply_plan`. -/
def applyPlan (p : Prober) (plan : Plan) : Prober :=
  if plan.fingerprint = p.planFingerprint then p
  else
    { planFingerprint := plan.fingerprint
      targets := plan.targets
      due := plan.targets.foldl
        (fun due t => Function.update due t.id (some (plan.now + staggerMs t.id t.interval)))
        fun _ => none }

def dueSpecs (p : Prober) (now : Int) : List ProbeTargetSpec :=
  p.targets.filter fun t => ((p.due t.id).map fun d => decide (d ≤ now)).getD true

/-- The schedule after `tick`. -/
def tick (p : Prober) (now : Int) : Prober :=
  { p with
    due := (p.dueSpecs now).foldl
      (fun due t => Function.update due t.id (some (now + t.interval * 1000))) p.due }

end Prober

/-! ## Posts -/

/-- The answer to one attempt. -/
inductive Answer where
  | transportError
  | status (code : Nat) (decodes : Bool)

inductive PostOutcome where
  | accepted
  | rejected (status : Nat)
  deriving DecidableEq

/-- `post_probe_results`, where no outcome is a transport error. -/
def postProbeResults : Answer → Option PostOutcome
  | .transportError => none
  | .status code decodes =>
    if 200 ≤ code ∧ code < 300 then
      if decodes then some .accepted else none
    else if code = 400 ∨ code = 401 ∨ code = 403 ∨ code = 409 then some (.rejected code)
    else none

/-- `post_with_retry`: the first outcome of four attempts. -/
def postWithRetry (answers : Nat → Answer) : Option PostOutcome :=
  (List.range 4).findSome? fun attempt => postProbeResults (answers attempt)

theorem rejected_of_postWithRetry {answers : Nat → Answer} {code : Nat}
    (h : postWithRetry answers = some (.rejected code)) :
    code = 400 ∨ code = 401 ∨ code = 403 ∨ code = 409 := by
  obtain ⟨attempt, -, hpost⟩ := exists_of_findSome?_eq_some h
  unfold postProbeResults at hpost
  split at hpost
  · cases hpost
  · split at hpost
    · split at hpost <;> cases hpost
    · split at hpost
      · next hcode =>
        cases hpost
        exact hcode
      · cases hpost

/-! ## The loop -/

/-- BATCH_MAX. -/
def batchMax : Nat := 32

/-- PENDING_MAX. -/
def pendingMax : Nat := 100

structure Loop (α : Type) where
  prober : Prober := {}
  batch : List α := []
  pending : List (List α) := []
  lastFlush : Int := 0

/-- What one round of the loop meets: the plans applied since the last one, the time of
the tick and its results, the clock at the flush, and the answers of the center. -/
structure Round (α : Type) where
  plans : List Plan := []
  now : Int
  runProbe : Nat → ProbeTargetSpec → α
  clock : Int
  answers : Nat → Answer
  flushed : Int

variable {α : Type} {tick : Int} {s : Loop α} {r : Round α}

def Round.failing (r : Round α) : Bool := (postWithRetry r.answers).isNone

namespace Loop

def held (s : Loop α) : List α := s.batch ++ s.pending.flatten

variable (s) (r)

def planned : Prober := r.plans.foldl Prober.applyPlan s.prober

def reports : List α :=
  ((s.planned r).dueSpecs r.now).mapIdx r.runProbe

/-- The tick of a round. -/
def gather : Loop α :=
  { s with
    prober := (s.planned r).tick r.now
    batch := s.batch ++ s.reports r }

variable {s r}

def Flushes (tick : Int) (s : Loop α) (r : Round α) : Prop :=
  batchMax ≤ s.batch.length ∨ tick ≤ r.clock - s.lastFlush ∧ s.batch ≠ []

instance : Decidable (s.Flushes tick r) :=
  have : Decidable (s.batch ≠ []) := decidable_of_iff (s.batch.isEmpty = false) (by simp)
  inferInstanceAs (Decidable (_ ∨ _ ∧ _))

/-- The queue with one batch more, and what is more than it may hold. -/
def park (pending : List (List α)) (batch : List α) : List (List α) × List (List α) :=
  let queue := pending ++ [batch]
  (queue.drop (queue.length - pendingMax), queue.take (queue.length - pendingMax))

/-- The posts of a round. -/
def post (tick : Int) (s : Loop α) (r : Round α) : Loop α :=
  match s.pending, postWithRetry r.answers with
  | _ :: _, none => s
  | _ :: rest, some _ => { s with pending := rest }
  | [], outcome =>
    if s.Flushes tick r then
      match outcome with
      | none =>
        { s with batch := [], pending := (park s.pending s.batch).1, lastFlush := r.flushed }
      | some _ => { s with batch := [], lastFlush := r.flushed }
    else s

def step (tick : Int) (s : Loop α) (r : Round α) : Loop α := (s.gather r).post tick r

end Loop

/-- How a result leaves the loop. -/
inductive Exit where
  | posted (outcome : PostOutcome)
  | dropped
  deriving DecidableEq

/-- Accepted, rejected for good, or dropped as the oldest. -/
def Exit.allowed : Exit → Bool
  | .posted .accepted => true
  | .posted (.rejected code) => code = 400 || code = 403 || code = 409
  | .dropped => true

namespace Loop

variable (tick) (s) (r)

def leavesPost : List (α × Exit) :=
  match s.pending, postWithRetry r.answers with
  | _ :: _, none => []
  | head :: _, some outcome => head.map (·, .posted outcome)
  | [], outcome =>
    if s.Flushes tick r then
      match outcome with
      | none => (park s.pending s.batch).2.flatten.map (·, .dropped)
      | some outcome => s.batch.map (·, .posted outcome)
    else []

/-- The results that leave the loop in a round. -/
def leaves : List (α × Exit) :=
  (s.gather r).leavesPost tick r

def flow : Flow α where
  formed := s.reports r
  delivered := ((s.leaves tick r).filter fun e => e.2.allowed).map Prod.fst
  lost := ((s.leaves tick r).filter fun e => !e.2.allowed).map Prod.fst

variable {tick s r}

/-! ### One round -/

theorem park_nil (batch : List α) : park [] batch = ([batch], []) := rfl

/-- What a round makes of the batch and the queue, and what leaves. -/
inductive Turn (tick : Int) (s : Loop α) (r : Round α) : Loop α → List (α × Exit) → Prop where
  | retryFails {head rest} (pending : s.pending = head :: rest) (failing : r.failing) :
    Turn tick s r s []
  | retryEnds {head rest outcome} (pending : s.pending = head :: rest)
    (ends : postWithRetry r.answers = some outcome) :
    Turn tick s r { s with pending := rest } (head.map (·, .posted outcome))
  | parks (pending : s.pending = []) (flushes : s.Flushes tick r) (failing : r.failing) :
    Turn tick s r { s with batch := [], pending := [s.batch], lastFlush := r.flushed } []
  | flushEnds {outcome} (pending : s.pending = []) (flushes : s.Flushes tick r)
    (ends : postWithRetry r.answers = some outcome) :
    Turn tick s r { s with batch := [], pending := [], lastFlush := r.flushed }
      (s.batch.map (·, .posted outcome))
  | waits (pending : s.pending = []) (waiting : ¬ s.Flushes tick r) : Turn tick s r s []

theorem post_turn (tick : Int) (s : Loop α) (r : Round α) :
    Turn tick s r (s.post tick r) (s.leavesPost tick r) := by
  unfold post leavesPost
  cases hp : s.pending with
  | cons head rest =>
    cases ho : postWithRetry r.answers with
    | none => exact .retryFails hp (by simp [Round.failing, ho])
    | some outcome => exact .retryEnds hp ho
  | nil =>
    by_cases hf : s.Flushes tick r
    · simp only [if_pos hf, park_nil]
      cases ho : postWithRetry r.answers with
      | none => exact .parks hp hf (by simp [Round.failing, ho])
      | some outcome => exact .flushEnds hp hf ho
    · simp only [if_neg hf]
      exact .waits hp hf

/-! ### Where the results go -/

variable {t : Loop α} {out : List (α × Exit)} {outcome : PostOutcome}

theorem Turn.books (h : Turn tick s r t out) : s.held.Perm (t.held ++ out.map Prod.fst) := by
  cases h with
  | retryFails | waits => simp
  | retryEnds pending =>
    simp only [held, pending, flatten_cons, map_map, Function.comp_def, map_id', append_assoc]
    exact perm_append_comm.append_left _
  | parks pending => simp [held, pending]
  | flushEnds pending => simp [held, pending, Function.comp_def]

theorem gather_books (s : Loop α) (r : Round α) :
    (s.held ++ s.reports r).Perm (s.gather r).held := by
  simp only [held, gather, append_assoc]
  exact perm_append_comm.append_left _

theorem balances (α : Type) (tick : Int) : Balances (@step α tick) held (flow tick) := by
  intro s r
  have hturn := (post_turn tick (s.gather r) r).books
  have hsplit := (filter_append_perm (fun e => e.2.allowed) (s.leaves tick r)).map Prod.fst
  rw [map_append] at hsplit
  exact (gather_books s r).trans (hturn.trans (hsplit.symm.append_left _))

/-- The center answers a post of this round with a request for a new token. -/
def Unauthorized (tick : Int) (s : Loop α) (r : Round α) : Prop :=
  ((s.gather r).pending ≠ [] ∨ (s.gather r).Flushes tick r) ∧
    postWithRetry r.answers = some (.rejected 401)

theorem Flushes.ne_nil (h : s.Flushes tick r) : s.batch ≠ [] := by
  rcases h with h | h
  · rintro hnil
    simp [hnil, batchMax] at h
  · exact h.2

theorem allowed_iff {answers : Nat → Answer} (h : postWithRetry answers = some outcome) :
    (Exit.posted outcome).allowed = true ↔ outcome ≠ .rejected 401 := by
  cases outcome with
  | accepted => simp [Exit.allowed]
  | rejected code =>
    rcases rejected_of_postWithRetry h with rfl | rfl | rfl | rfl <;> simp [Exit.allowed]

/-- A batch that is posted is not empty, so it is lost to nothing but a 401. -/
theorem lost_posted {xs : List α} (hxs : xs ≠ []) (ho : postWithRetry r.answers = some outcome) :
    ((xs.map fun x => (x, Exit.posted outcome)).filter fun e => !e.2.allowed) = [] ↔
      postWithRetry r.answers ≠ some (.rejected 401) := by
  rw [ho, filter_map, map_eq_nil_iff]
  by_cases hallowed : (Exit.posted outcome).allowed
  · have hne := (allowed_iff ho).mp hallowed
    simpa [Function.comp_def, hallowed] using hne
  · have heq : outcome = .rejected 401 := not_not.mp (mt (allowed_iff ho).mpr hallowed)
    obtain ⟨x, hx⟩ := exists_mem_of_ne_nil xs hxs
    have hmem : (fun e : α × Exit => !e.2.allowed) (x, .posted outcome) = true := by simp [hallowed]
    simp only [heq, ne_eq, not_true_eq_false, iff_false]
    exact ne_nil_of_mem (mem_filter.mpr ⟨hx, heq ▸ hmem⟩)

def Parked (s : Loop α) : Prop := ∀ batch ∈ s.pending, batch ≠ []

theorem Turn.parked (h : Turn tick s r t out) (hs : s.Parked) : t.Parked := by
  cases h with
  | retryFails | waits => exact hs
  | retryEnds pending =>
    intro batch hb
    exact hs batch (pending ▸ mem_cons_of_mem _ hb)
  | parks pending flushes =>
    intro batch hb
    rw [mem_singleton.mp hb]
    exact flushes.ne_nil
  | flushEnds =>
    intro batch hb
    cases hb

theorem Parked.step (h : s.Parked) : (s.step tick r).Parked :=
  (post_turn tick (s.gather r) r).parked h

theorem lost_eq_nil_iff (h : s.Parked) :
    (s.flow tick r).lost = [] ↔ ¬ s.Unauthorized tick r := by
  have hg : (s.gather r).Parked := h
  simp only [flow, leaves, map_eq_nil_iff, Unauthorized, not_and]
  have hturn := post_turn tick (s.gather r) r
  generalize (s.gather r).post tick r = t at hturn
  generalize (s.gather r).leavesPost tick r = out at hturn ⊢
  have hfails : r.failing → postWithRetry r.answers ≠ some (.rejected 401) := by
    intro hf he
    simp [Round.failing, he] at hf
  cases hturn with
  | retryFails pending failing => simp [hfails failing]
  | retryEnds pending ends =>
    have hne := hg _ (pending ▸ mem_cons_self)
    rw [lost_posted hne ends]
    simp [pending]
  | parks pending flushes failing => simp [hfails failing]
  | flushEnds pending flushes ends =>
    rw [lost_posted flushes.ne_nil ends]
    simp [flushes]
  | waits pending waiting => simp [pending, waiting]

end Loop

/-- The loop at its start. -/
def start (prober : Prober) (now : Int) : Loop α where
  prober := prober
  lastFlush := now

/-- All the results of a run are held, or left accepted, rejected for good or as the oldest,
when no post was answered with a 401. -/
theorem parked_not_dropped_iff (tick : Int) (prober : Prober) (now : Int)
    (rounds : List (Round α)) :
    (collect (Loop.step tick) Loop.reports (start prober now) rounds).Perm
        ((run (Loop.step tick) (start prober now) rounds).held ++
          collect (Loop.step tick) (fun s r =>
            ((s.leaves tick r).filter fun e => e.2.allowed).map Prod.fst)
            (start prober now) rounds) ↔
      Along (Loop.step tick) (fun s r => ¬ s.Unauthorized tick r) (start prober now) rounds := by
  have hkept := (Loop.balances α tick).kept_iff (start prober now) rounds
  refine hkept.trans (along_iff (P := Loop.Parked) (C := fun _ _ => True) ?_ ?_ ?_)
  · intro s r hs _
    exact ⟨Loop.lost_eq_nil_iff hs, fun _ => hs.step⟩
  · intro batch hb
    cases hb
  · exact along_of_forall _ _ _ fun _ _ => trivial

/-- One target, probed every ten seconds, and the same answer to every attempt. -/
def roundAt (i : Nat) (answer : Answer) : Round Int where
  plans := [{ now := 0, fingerprint := "a", targets := [{ id := 1, intervalSeconds := 10 }] }]
  now := 10000 * (i + 1)
  runProbe := fun _ t => t.id
  clock := 10 * (i + 1)
  answers := fun _ => answer
  flushed := 10 * (i + 1)

/-- The token of the agent is restored after its first post: the result is gone. -/
theorem restored_token_loses :
    let rounds := [roundAt 0 (.status 401 true), roundAt 1 (.status 200 true)]
    collect (Loop.step 10) Loop.reports (start {} 0) rounds = [1, 1] ∧
      (run (Loop.step 10) (start {} 0) rounds).held = [] ∧
      collect (Loop.step 10) (Loop.leaves 10) (start {} 0) rounds =
        [(1, .posted (.rejected 401)), (1, .posted .accepted)] := by
  decide +kernel

/-! ## How much is held -/

/-- The failing rounds in a row at the end of a run. -/
def outage (rounds : List (Round α)) : Nat :=
  run (fun n r => if r.failing then n + 1 else 0) 0 rounds

/-- At no time had more rounds in a row failed. -/
def OutagesWithin (k : Nat) (rounds : List (Round α)) : Prop :=
  ∀ past, past <+: rounds → outage past ≤ k

instance (k : Nat) (rounds : List (Round α)) : Decidable (OutagesWithin k rounds) :=
  decidable_of_iff (∀ past ∈ rounds.inits, outage past ≤ k) (by simp [OutagesWithin])

/-- What may wait while nothing is parked: a batch below the limit, or what an outage left. -/
def backlog (n k : Nat) : Nat := max (n * k) (batchMax - 1)

namespace Loop

variable {n : Nat}

theorem planned_targets (hs : s.prober.targets.length ≤ n)
    (hr : ∀ plan ∈ r.plans, plan.targets.length ≤ n) : (s.planned r).targets.length ≤ n := by
  have happly : ∀ p (plan : Plan), p.targets.length ≤ n → plan.targets.length ≤ n →
      (Prober.applyPlan p plan).targets.length ≤ n := by
    intro p plan hp hplan
    unfold Prober.applyPlan
    split
    · exact hp
    · exact hplan
  exact run_invariant happly hs (along_of_forall _ _ _ hr)

theorem reports_length (h : (s.planned r).targets.length ≤ n) : (s.reports r).length ≤ n := by
  unfold reports
  rw [length_mapIdx]
  exact Nat.le_trans (length_filter_le ..) h

/-- The loop after a number of failures in a row: one batch is parked at most, and the
batch behind it has grown since the round that parked it. -/
structure Within (n k failures : Nat) (s : Loop α) : Prop where
  targets : s.prober.targets.length ≤ n
  waiting : s.pending = [] → s.batch.length ≤ backlog n k
  parked : s.pending ≠ [] → ∃ batch, s.pending = [batch] ∧ batch.length ≤ backlog n k + n ∧
    1 ≤ failures ∧ s.batch.length ≤ n * (failures - 1)

variable {k failures : Nat}

theorem Within.step (tick : Int) (h : s.Within n k failures)
    (hr : ∀ plan ∈ r.plans, plan.targets.length ≤ n) (hk : failures ≤ k) :
    (s.step tick r).Within n k (if r.failing then failures + 1 else 0) := by
  have hplanned := planned_targets h.targets hr
  have hreports := reports_length hplanned
  have hbatch : (s.gather r).batch.length ≤ s.batch.length + n := by
    simpa [gather] using hreports
  -- the batch after one more tick of the outage
  have hgrown : 1 ≤ failures → s.batch.length ≤ n * (failures - 1) →
      (s.gather r).batch.length ≤ n * failures := by
    intro hpos hle
    have hmul : n * failures = n * (failures - 1) + n := by
      rw [← Nat.mul_succ, Nat.succ_eq_add_one, Nat.sub_add_cancel hpos]
    omega
  have hturn := post_turn tick (s.gather r) r
  unfold Loop.step
  generalize (s.gather r).post tick r = t at hturn ⊢
  generalize (s.gather r).leavesPost tick r = out at hturn
  cases hturn with
  | retryFails pending failing =>
    obtain ⟨batch, hone, hlen, hpos, hle⟩ := h.parked (pending ▸ cons_ne_nil _ _)
    refine ⟨hplanned, fun hnil => ?_, fun _ => ⟨batch, hone, hlen, ?_⟩⟩
    · cases pending.symm.trans hnil
    · rw [if_pos failing]
      exact ⟨Nat.le_add_left .., hgrown hpos hle⟩
  | retryEnds pending ends =>
    obtain ⟨batch, hone, -, hpos, hle⟩ := h.parked (pending ▸ cons_ne_nil _ _)
    obtain ⟨rfl, rfl⟩ := cons.inj (pending.symm.trans hone)
    refine ⟨hplanned, fun _ => ?_, fun hne => absurd rfl hne⟩
    have hmul : n * failures ≤ n * k := Nat.mul_le_mul_left n hk
    exact Nat.le_trans (Nat.le_trans (hgrown hpos hle) hmul) (Nat.le_max_left ..)
  | parks pending flushes failing =>
    have hwaiting := h.waiting pending
    refine ⟨hplanned, fun hnil => absurd hnil (cons_ne_nil _ _), fun _ => ⟨_, rfl, ?_⟩⟩
    rw [if_pos failing]
    exact ⟨by omega, Nat.le_add_left .., Nat.zero_le _⟩
  | flushEnds => exact ⟨hplanned, fun _ => Nat.zero_le _, fun hne => absurd rfl hne⟩
  | waits pending waiting =>
    refine ⟨hplanned, fun _ => ?_, fun hne => absurd pending hne⟩
    have hsmall : (s.gather r).batch.length < batchMax := Nat.not_le.mp (mt Or.inl waiting)
    exact Nat.le_trans (Nat.le_sub_one_of_lt hsmall) (Nat.le_max_right ..)

theorem Within.held (h : s.Within n k failures) (hk : failures ≤ k) :
    s.held.length ≤ backlog n k + n + n * k := by
  unfold Loop.held
  rw [length_append]
  by_cases hnil : s.pending = []
  · have hwaiting := h.waiting hnil
    simp only [hnil, flatten_nil, length_nil]
    omega
  · obtain ⟨batch, hone, hlen, -, hle⟩ := h.parked hnil
    have hmul : n * (failures - 1) ≤ n * k := Nat.mul_le_mul_left n (by omega)
    simp only [hone, flatten_cons, flatten_nil, append_nil]
    omega

end Loop

theorem run_within {n k : Nat} {prober : Prober} {now : Int} {rounds : List (Round α)}
    (hplan : prober.targets.length ≤ n)
    (hplans : ∀ r ∈ rounds, ∀ plan ∈ r.plans, plan.targets.length ≤ n)
    (houtages : OutagesWithin k rounds) :
    (run (Loop.step tick) (start prober now) rounds).Within n k (outage rounds) := by
  induction rounds using reverseRecOn with
  | nil => exact ⟨hplan, fun _ => Nat.zero_le _, fun hne => absurd rfl hne⟩
  | append_singleton past r ih =>
    have hpast := ih (fun r hr => hplans r (mem_append_left _ hr))
      fun earlier he => houtages earlier (he.trans (prefix_append ..))
    have hle := houtages past (prefix_append ..)
    have hnext := hpast.step tick (hplans r (by simp)) hle
    simpa [run_append, outage] using hnext

/-- While no outage lasts longer than some number of rounds, what is held is bounded. -/
theorem held_le (tick : Int) (n k : Nat) (prober : Prober) (now : Int) (rounds : List (Round α))
    (hplan : prober.targets.length ≤ n)
    (hplans : ∀ r ∈ rounds, ∀ plan ∈ r.plans, plan.targets.length ≤ n)
    (houtages : OutagesWithin k rounds) :
    (run (Loop.step tick) (start prober now) rounds).held.length ≤ backlog n k + n + n * k :=
  (run_within hplan hplans houtages).held (houtages rounds (List.prefix_refl _))

/-- The center does not answer for two rounds. -/
theorem short_outage_held_le :
    let rounds := [roundAt 0 .transportError, roundAt 1 .transportError,
      roundAt 2 (.status 200 true)]
    (run (Loop.step 10) (start {} 0) rounds).held.length ≤ 34 :=
  held_le 10 1 2 {} 0 _ (by decide) (by decide) (by decide)

/-- An outage since the start: every round has added its result. -/
structure Stalled (i : Nat) (s : Loop Int) : Prop where
  fingerprint : s.prober.planFingerprint = "a"
  targets : s.prober.targets = [{ id := 1, intervalSeconds := 10 }]
  due : s.prober.due 1 = some (10000 * (i + 2))
  pending : s.pending = [[1]]
  batch : s.batch.length = i

theorem Stalled.step {i : Nat} {s : Loop Int} (h : Stalled i s) :
    Stalled (i + 1) (s.step 10 (roundAt (i + 1) .transportError)) := by
  have hplanned : s.planned (roundAt (i + 1) .transportError) = s.prober := by
    simp [Loop.planned, roundAt, Prober.applyPlan, h.fingerprint]
  have hdue : s.prober.dueSpecs (roundAt (i + 1) .transportError).now =
      [{ id := 1, intervalSeconds := 10 }] := by
    have hnow : (i + 2 : Int) ≤ i + 1 + 1 := by omega
    simp [Prober.dueSpecs, h.targets, h.due, roundAt, hnow]
  have hstep : s.step 10 (roundAt (i + 1) .transportError) =
      s.gather (roundAt (i + 1) .transportError) := by
    have hpending : (s.gather (roundAt (i + 1) .transportError)).pending = [[1]] := h.pending
    have hfails : postWithRetry (roundAt (i + 1) .transportError).answers = none := by
      simp [postWithRetry, roundAt, postProbeResults]
    simp only [Loop.step, Loop.post, hpending, hfails]
  rw [hstep]
  refine ⟨?_, ?_, ?_, h.pending, ?_⟩
  · simp [Loop.gather, hplanned, Prober.tick, h.fingerprint]
  · simp [Loop.gather, hplanned, Prober.tick, h.targets]
  · simp only [Loop.gather, hplanned, Prober.tick, hdue]
    simp [ProbeTargetSpec.interval, roundAt]
    omega
  · simp only [Loop.gather, Loop.reports, hplanned, hdue]
    simp [h.batch]

theorem stalled_after (i : Nat) :
    Stalled i (run (Loop.step 10) (start {} 0)
      ((range (i + 1)).map fun j => roundAt j .transportError)) := by
  induction i with
  | zero => exact ⟨by decide +kernel, rfl, by decide +kernel, by decide +kernel, by decide +kernel⟩
  | succ i ih =>
    rw [range_succ, map_append, run_append]
    exact ih.step

/-- With one planned target, a long enough outage passes every bound. -/
theorem held_unbounded :
    ¬ ∃ bound, ∀ rounds : List (Round Int),
      (∀ r ∈ rounds, ∀ plan ∈ r.plans, plan.targets.length ≤ 1) →
        (run (Loop.step 10) (start {} 0) rounds).held.length ≤ bound := by
  rintro ⟨bound, hbound⟩
  have hstalled := stalled_after bound
  have hle := hbound ((range (bound + 1)).map fun j => roundAt j .transportError) (by
    intro r hr
    obtain ⟨j, -, rfl⟩ := mem_map.mp hr
    simp [roundAt])
  simp only [Loop.held, length_append, hstalled.batch, hstalled.pending] at hle
  exact absurd hle (by simp)

end Steward.ProberLoop
