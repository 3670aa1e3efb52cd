import Mathlib.Algebra.GroupWithZero.Nat
import Mathlib.Data.List.Perm.Basic
import Steward.AgentReporter

/-!
# The peer reporter

A center mirrors its own network to a peer through the channel of the agents. Its
reporter has one buffer for scanned and passive hosts and a queue of failed
batches. The queue is taken as a whole, posted outside the lock and put back in
front of what failed meanwhile. As in the agent's reporter a call that waits for
the lock or for an answer is a task, and the steps are the sections.
-/

namespace Steward.Peer

open Agent (AgentMeta AgentReport)
open List

variable {ρ α : Type}

theorem capacity_pos : 0 < 100 := by decide

/-- What the reporter is built with; `ρ` are the scanner's reports, `α` the hosts of the wire. -/
structure Config (ρ α : Type) where
  agentId : String
  networkCidr : String
  maxBuf : Nat := 256
  maxPending : Nat := 100
  maxPendingPos : 0 < maxPending := by exact Steward.Peer.capacity_pos
  startTime : Nat := 0
  agentMeta : AgentMeta := {}
  /-- Alive and with an address. -/
  reportable : ρ → Bool
  hostToReported : ρ → α
  networkStateHash : List α → String

/-- What the caller of `postWithRetry` does with its answer. -/
inductive Caller (α : Type) where
  | heartbeat
  | flushOnce
  | flushPending (rest remaining : List (AgentReport α))

/-- A call between two sections. -/
inductive Task (α : Type) where
  | flushPending
  | flushOnce
  | heartbeat
  | forming (hosts : List α) (fromScan : Bool)
  | posting (body : AgentReport α) (hash : String) (attempts : Nat) (caller : Caller α)

structure Reporter (α : Type) where
  buf : List α := []
  bufScan : Nat := 0
  pending : List (AgentReport α) := []
  scansTotal : Nat := 0
  lastPostAt : Option Nat := none
  tasks : List (Task α) := []
  /-- Every post so far. -/
  sent : List (AgentReport α × String) := []

inductive PostOutcome where
  | response (status : Nat)
  | failed
  /-- The context of the call ends. -/
  | aborted

inductive Event (ρ : Type) where
  | report (reports : List ρ)
  | reportPassive (rep : ρ)
  | tick
  | stop
  /-- The task takes the lock. -/
  | resume (task now : Nat)
  | answered (task now : Nat) (outcome : PostOutcome)

variable (cfg : Config ρ α) (now scansTotal : Nat)

/-- `Meta`. -/
def buildMeta : AgentMeta :=
  { cfg.agentMeta with uptimeSec := now - cfg.startTime, scansTotal := scansTotal }

/-- The report of a batch, or of a heartbeat when there are no hosts. -/
def body (hosts : Option (List α)) (origin : String) :
    AgentReport α where
  agentId := cfg.agentId
  networkName := ""
  networkCidr := cfg.networkCidr
  scannedAt := now
  agentMeta := buildMeta cfg now scansTotal
  hosts := hosts
  origin := origin

def batch (hosts : List α) (fromScan : Bool) :
    AgentReport α :=
  body cfg now scansTotal (some hosts) (if fromScan then "" else "passive")

def batchHash (hosts : List α) (fromScan : Bool) : String :=
  if fromScan then cfg.networkStateHash hosts else ""

namespace Reporter

variable (w : Reporter α)

/-- A call goes on as a task; a post is sent at once. -/
def launch (t : Task α) : Reporter α :=
  { w with
    tasks := w.tasks ++ [t]
    sent := match t with
      | .posting body hash _ _ => w.sent ++ [(body, hash)]
      | _ => w.sent }

def post (body : AgentReport α) (hash : String) (caller : Caller α) :
    Reporter α :=
  w.launch (.posting body hash 4 caller)

/-- A full buffer is flushed by a goroutine of its own. -/
def flushWhenFull : Reporter α :=
  if cfg.maxBuf ≤ w.buf.length then w.launch .flushOnce else w

/-- The hosts that `Report` takes from a scan. -/
def accepted (reports : List ρ) : List α :=
  (reports.filter cfg.reportable).map cfg.hostToReported

def report (reports : List ρ) : Reporter α :=
  flushWhenFull cfg { w with
    scansTotal := w.scansTotal + 1
    buf := w.buf ++ accepted cfg reports
    bufScan := w.bufScan + (accepted cfg reports).length }

def reportPassive (rep : ρ) : Reporter α :=
  if cfg.reportable rep then
    flushWhenFull cfg { w with buf := w.buf ++ [cfg.hostToReported rep] }
  else w

/-- `flushPending` up to its first post; the flush of the buffer follows it. -/
def flushPending : Reporter α :=
  match w.pending with
  | [] => w.launch .flushOnce
  | first :: rest => post { w with pending := [] } first "" (.flushPending rest [])

/-- `flushOnce` up to the release of the lock. -/
def flushOnce (now : Nat) : Reporter α :=
  if w.buf.isEmpty then
    -- Heartbeats are throttled; the zero time never throttles.
    if w.lastPostAt.any fun t => now < t + 30 then w else w.launch .heartbeat
  else { w with buf := [], bufScan := 0 }.launch (.forming w.buf (decide (0 < w.bufScan)))

def markPosted (now : Nat) : Reporter α := { w with lastPostAt := some now }

def enqueuePending (body : AgentReport α) : Reporter α :=
  let kept := if cfg.maxPending ≤ w.pending.length then w.pending.tail else w.pending
  { w with pending := kept ++ [body] }

/-- The answer of `postWithRetry` reaches its caller. -/
def settle (now : Nat) (body : AgentReport α) (ok : Bool) :
    Caller α → Reporter α
  | .heartbeat => if ok then w.markPosted now else w
  | .flushOnce => if ok then w.markPosted now else w.enqueuePending cfg body
  | .flushPending rest remaining =>
    let remaining := if ok then remaining else remaining ++ [body]
    match rest with
    | next :: rest => w.post next "" (.flushPending rest remaining)
    | [] => { w with pending := remaining ++ w.pending }.launch .flushOnce

/-- What `postWithRetry` returns, or nothing when it tries again. -/
def verdict (attempts : Nat) : PostOutcome → Option Bool
  | .response status =>
    if 200 ≤ status ∧ status < 300 then some true
    else if 400 ≤ status ∧ status < 500 ∧ status ≠ 429 then some true
    else if attempts ≤ 1 then some false
    else none
  | .failed => if attempts ≤ 1 then some false else none
  | .aborted => some false

def answer (now : Nat) (body : AgentReport α) (hash : String)
    (attempts : Nat) (caller : Caller α) (outcome : PostOutcome) : Reporter α :=
  match verdict attempts outcome with
  | some ok => w.settle cfg now body ok caller
  | none => w.launch (.posting body hash (attempts - 1) caller)

def step : Event ρ → Reporter α
  | .report reports => w.report cfg reports
  | .reportPassive rep => w.reportPassive cfg rep
  | .tick | .stop => w.launch .flushPending
  | .resume i now =>
    let running := { w with tasks := w.tasks.eraseIdx i }
    match w.tasks[i]? with
    | some .flushPending => running.flushPending
    | some .flushOnce => running.flushOnce now
    | some .heartbeat => running.post (body cfg now w.scansTotal none "") "" .heartbeat
    | some (.forming hosts fromScan) =>
      running.post (batch cfg now w.scansTotal hosts fromScan) (batchHash cfg hosts fromScan)
        .flushOnce
    | _ => w
  | .answered i now outcome =>
    match w.tasks[i]? with
    | some (.posting body hash attempts caller) =>
      answer cfg { w with tasks := w.tasks.eraseIdx i } now body hash attempts caller outcome
    | _ => w

end Reporter

/-! ## What holds of every batch -/

/-- A property of the buffer with its count of scanned hosts, and one of batches that follows. -/
structure BatchRule (Buffer : List α → Nat → Prop)
    (Batch : AgentReport α → String → Prop) : Prop where
  empty : Buffer [] 0
  flush : ∀ now scans hosts count, Buffer hosts count →
    Batch (batch cfg now scans hosts (decide (0 < count)))
      (batchHash cfg hosts (decide (0 < count)))
  heartbeat : ∀ now scans, Batch (body cfg now scans none "") ""
  /-- A retry goes without the hash. -/
  retry : ∀ report hash, Batch report hash → Batch report ""

/-- The batches that a call has taken out of the queue beside the one it posts. -/
def Caller.taken : Caller α → List (AgentReport α)
  | .flushPending rest remaining => rest ++ remaining
  | _ => []

/-- Every batch of the task has the property, or will have it once it is built. -/
def Task.Carries (Batch : AgentReport α → String → Prop) : Task α → Prop
  | .forming hosts fromScan =>
    ∀ now scans, Batch (batch cfg now scans hosts fromScan) (batchHash cfg hosts fromScan)
  | .posting body hash _ caller => Batch body hash ∧ ∀ r ∈ caller.taken, Batch r ""
  | _ => True

namespace Reporter

variable {cfg : Config ρ α} {Buffer : List α → Nat → Prop} {Batch : AgentReport α → String → Prop}

variable (cfg) (Buffer)

/-- The buffer and every batch, wherever it is, have their properties. -/
structure Carries
    (Batch : AgentReport α → String → Prop) (w : Reporter α) : Prop where
  buffer : Buffer w.buf w.bufScan
  pending : ∀ r ∈ w.pending, Batch r ""
  tasks : ∀ t ∈ w.tasks, t.Carries cfg Batch
  sent : ∀ b ∈ w.sent, Batch b.1 b.2

/-- What an event adds to the buffer keeps the property of the buffer. -/
def Admits (w : Reporter α) : Event ρ → Prop
  | .report reports =>
    Buffer (w.buf ++ accepted cfg reports) (w.bufScan + (accepted cfg reports).length)
  | .reportPassive rep => cfg.reportable rep → Buffer (w.buf ++ [cfg.hostToReported rep]) w.bufScan
  | _ => True

variable {cfg Buffer}

namespace Carries

variable {w : Reporter α} {caller : Caller α} {body : AgentReport α}

section Carried

variable (h : w.Carries cfg Buffer Batch)

include h

theorem launch {t : Task α} (ht : t.Carries cfg Batch) :
    (w.launch t).Carries cfg Buffer Batch where
  buffer := h.buffer
  pending := h.pending
  tasks := by
    intro s hs
    rcases mem_append.mp hs with hs | hs
    · exact h.tasks s hs
    · rwa [mem_singleton.mp hs]
  sent := by
    cases t with
    | posting body hash n caller =>
      intro b hb
      rcases mem_append.mp hb with hb | hb
      · exact h.sent b hb
      · rw [mem_singleton.mp hb]
        exact ht.1
    | flushPending | flushOnce | heartbeat | forming => exact h.sent

theorem post {r : AgentReport α} {hash : String} (hb : Batch r hash)
    (htaken : ∀ r ∈ caller.taken, Batch r "") :
    (w.post r hash caller).Carries cfg Buffer Batch :=
  h.launch ⟨hb, htaken⟩

theorem eraseTask (i : Nat) :
    Carries cfg Buffer Batch { w with tasks := w.tasks.eraseIdx i } :=
  { h with tasks := fun t ht => h.tasks t (mem_of_mem_eraseIdx ht) }

theorem flushWhenFull : (w.flushWhenFull cfg).Carries cfg Buffer Batch := by
  unfold Reporter.flushWhenFull
  split
  · exact h.launch trivial
  · exact h

theorem flushPending : w.flushPending.Carries cfg Buffer Batch := by
  unfold Reporter.flushPending
  split
  · exact h.launch trivial
  · next first rest hp =>
    have hall := h.pending
    rw [hp] at hall
    have hempty : Carries cfg Buffer Batch { w with pending := [] } := { h with pending := by simp }
    apply hempty.post (hall first mem_cons_self)
    simpa [Caller.taken] using fun r hr => hall r (mem_cons_of_mem _ hr)

end Carried

variable (h : w.Carries cfg Buffer Batch)

include h

theorem flushOnce (hr : BatchRule cfg Buffer Batch) (now : Nat) :
    (w.flushOnce now).Carries cfg Buffer Batch := by
  unfold Reporter.flushOnce
  split
  · split
    · exact h
    · exact h.launch trivial
  · have hempty : Carries cfg Buffer Batch { w with buf := [], bufScan := 0 } :=
      { h with buffer := hr.empty }
    exact hempty.launch fun now scans => hr.flush now scans _ _ h.buffer

theorem enqueuePending (hb : Batch body "") :
    (w.enqueuePending cfg body).Carries cfg Buffer Batch := by
  refine { h with pending := fun r hr => ?_ }
  rcases mem_append.mp hr with hr | hr
  · split at hr
    · exact h.pending r (mem_of_mem_tail hr)
    · exact h.pending r hr
  · rwa [mem_singleton.mp hr]

theorem settle (now : Nat) (ok : Bool) (hb : Batch body "")
    (htaken : ∀ r ∈ caller.taken, Batch r "") :
    (w.settle cfg now body ok caller).Carries cfg Buffer Batch := by
  have hposted : (w.markPosted now).Carries cfg Buffer Batch := { h with }
  cases caller with
  | heartbeat => cases ok with
    | true => exact hposted
    | false => exact h
  | flushOnce => cases ok with
    | true => exact hposted
    | false => exact h.enqueuePending hb
  | flushPending rest remaining =>
    simp only [Caller.taken, mem_append] at htaken
    have hremaining : ∀ r ∈ (if ok then remaining else remaining ++ [body]), Batch r "" := by
      intro r hr
      split at hr
      · exact htaken r (.inr hr)
      · rcases mem_append.mp hr with hr | hr
        · exact htaken r (.inr hr)
        · rwa [mem_singleton.mp hr]
    cases rest with
    | nil =>
      have hqueue : Carries cfg Buffer Batch
          { w with pending := (if ok then remaining else remaining ++ [body]) ++ w.pending } := by
        refine { h with pending := fun r hr => ?_ }
        rcases mem_append.mp hr with hr | hr
        · exact hremaining r hr
        · exact h.pending r hr
      exact hqueue.launch trivial
    | cons next rest =>
      apply h.post (htaken next (.inl mem_cons_self))
      intro r hr
      rcases mem_append.mp hr with hr | hr
      · exact htaken r (.inl (mem_cons_of_mem _ hr))
      · exact hremaining r hr

theorem step (hr : BatchRule cfg Buffer Batch) {e : Event ρ} (he : w.Admits cfg Buffer e) :
    (w.step cfg e).Carries cfg Buffer Batch := by
  cases e with
  | report reports =>
    apply flushWhenFull
    exact { h with buffer := he }
  | reportPassive rep =>
    simp only [Reporter.step, Reporter.reportPassive]
    split
    · next hrep =>
      apply flushWhenFull
      exact { h with buffer := he hrep }
    · exact h
  | tick => exact h.launch trivial
  | stop => exact h.launch trivial
  | resume i now =>
    simp only [Reporter.step]
    split
    · exact (h.eraseTask i).flushPending
    · exact (h.eraseTask i).flushOnce hr now
    · exact (h.eraseTask i).post (hr.heartbeat now _) (by simp [Caller.taken])
    · next htask =>
      have hforming := h.tasks _ (mem_of_getElem? htask)
      exact (h.eraseTask i).post (hforming now _) (by simp [Caller.taken])
    · exact h
  | answered i now outcome =>
    simp only [Reporter.step]
    split
    · next body hash attempts caller htask =>
      obtain ⟨hbody, htaken⟩ := h.tasks _ (mem_of_getElem? htask)
      unfold answer
      split
      · exact (h.eraseTask i).settle now _ (hr.retry body hash hbody) htaken
      · exact (h.eraseTask i).launch ⟨hbody, htaken⟩
    · exact h

end Carries

end Reporter

/-! ## The bound of the queue -/

/-- How many batches of the queue a post belongs to. -/
def Caller.detached : Caller α → Nat
  | .flushPending rest remaining => rest.length + remaining.length + 1
  | _ => 0

/-- How many batches a task has taken out of the queue. -/
@[simp] def Task.detached : Task α → Nat
  | .posting _ _ _ caller => caller.detached
  | _ => 0

namespace Reporter

variable {cfg : Config ρ α} {w : Reporter α} {i : Nat} {t : Task α}

theorem tasks_perm (h : w.tasks[i]? = some t) : w.tasks.Perm (t :: w.tasks.eraseIdx i) := by
  obtain ⟨hlt, rfl⟩ := List.getElem?_eq_some_iff.mp h
  exact (getElem_cons_eraseIdx_perm hlt).symm

variable (w)

/-- How many batches are out of the queue to be posted again. -/
def detached : Nat := (w.tasks.map Task.detached).sum

/-- The batches of the queue and those taken out of it. -/
def load : Nat := w.pending.length + w.detached

@[simp] theorem launch_load (t : Task α) :
    (w.launch t).load = w.load + t.detached := by
  simp [load, detached, launch, Nat.add_assoc]

variable {w}

theorem load_eraseIdx (h : w.tasks[i]? = some t) :
    w.load = load { w with tasks := w.tasks.eraseIdx i } + t.detached := by
  have hsum := ((tasks_perm h).map Task.detached).sum_nat
  simp only [load, detached, hsum, map_cons, sum_cons]
  omega

theorem flushWhenFull_load : (w.flushWhenFull cfg).load = w.load := by
  unfold flushWhenFull
  split <;> simp

theorem flushPending_load : w.flushPending.load = w.load := by
  unfold flushPending
  split
  · simp
  · next first rest hp => simp [post, load, detached, launch, Caller.detached, hp]; omega

theorem flushOnce_load (now : Nat) : (w.flushOnce now).load = w.load := by
  unfold flushOnce
  split
  · split <;> simp
  · simp
    rfl

theorem enqueuePending_load (body : AgentReport α) (hb : w.load ≤ cfg.maxPending)
    (hroom : w.detached = 0 ∨ w.load < cfg.maxPending) :
    (w.enqueuePending cfg body).load ≤ cfg.maxPending := by
  have hpos := cfg.maxPendingPos
  have hlen : (w.enqueuePending cfg body).pending.length ≤ w.pending.length + 1 ∧
      (w.pending.length ≤ cfg.maxPending →
        (w.enqueuePending cfg body).pending.length ≤ cfg.maxPending) := by
    simp only [enqueuePending]
    split <;> simp <;> omega
  have hdet : (w.enqueuePending cfg body).detached = w.detached := rfl
  unfold load at hb hroom ⊢
  omega

variable (cfg) (w)

/-- A batch fails while nothing is taken out of the queue, or while there is room for it. -/
def RoomFor (outcome : PostOutcome) : Option (Task α) → Prop
  | some (.posting _ _ attempts .flushOnce) =>
    verdict attempts outcome = some false →
      w.detached = 0 ∨ w.pending.length + w.detached < cfg.maxPending
  | _ => True

def RoomToEnqueue : Event ρ → Prop
  | .answered i _ outcome => RoomFor cfg w outcome w.tasks[i]?
  | _ => True

variable {cfg w}

theorem settle_load {now : Nat} {body : AgentReport α} {ok : Bool} {caller : Caller α}
    (hb : w.load + caller.detached ≤ cfg.maxPending)
    (hroom : caller = .flushOnce → ok = false → w.detached = 0 ∨ w.load < cfg.maxPending) :
    (w.settle cfg now body ok caller).load ≤ cfg.maxPending := by
  cases caller with
  | heartbeat => cases ok <;> exact hb
  | flushOnce =>
    cases ok with
    | true => exact hb
    | false => exact enqueuePending_load body hb (hroom rfl rfl)
  | flushPending rest remaining =>
    have hlen : (if ok then remaining else remaining ++ [body]).length ≤ remaining.length + 1 := by
      cases ok <;> simp
    simp only [Caller.detached] at hb
    cases rest with
    | nil =>
      simp only [settle, launch_load, Task.detached]
      simp only [load, detached, length_append] at hb ⊢
      omega
    | cons next rest =>
      simp only [settle, post, launch_load, Task.detached, Caller.detached]
      simp only [length_cons] at hb
      omega

theorem step_load {e : Event ρ} (hb : w.load ≤ cfg.maxPending) (hroom : RoomToEnqueue cfg w e) :
    (w.step cfg e).load ≤ cfg.maxPending := by
  cases e with
  | report reports => rwa [step, report, flushWhenFull_load]
  | reportPassive rep =>
    simp only [step, reportPassive]
    split
    · rwa [flushWhenFull_load]
    · exact hb
  | tick => simpa [step] using hb
  | stop => simpa [step] using hb
  | resume i now =>
    simp only [step]
    split
    all_goals try exact hb
    all_goals
      next htask =>
      have herase := load_eraseIdx htask
      simp only [Task.detached, Nat.add_zero] at herase
      simp only [flushPending_load, flushOnce_load, post, launch_load, Task.detached,
        Caller.detached, Nat.add_zero, ← herase]
      exact hb
  | answered i now outcome =>
    simp only [step]
    split
    · next body hash attempts caller htask =>
      have herase := load_eraseIdx htask
      simp only [Task.detached] at herase
      unfold answer
      split
      · next ok hverdict =>
        apply settle_load (by omega)
        rintro rfl rfl
        simp only [RoomToEnqueue, RoomFor, htask] at hroom
        have h := hroom hverdict
        simp only [load, Caller.detached] at herase ⊢
        omega
      · simp only [launch_load, Task.detached]
        omega
    · exact hb

end Reporter

/-- In every interleaving in which a batch fails only while no part of the queue is taken out, or
while there is room for it, the queue holds at most `maxPending` batches. -/
theorem pending_bounded (cfg : Config ρ α) (events : List (Event ρ))
    (hroom : Runs.Along (Reporter.step cfg) (Reporter.RoomToEnqueue cfg) {} events) :
    (Runs.run (Reporter.step cfg) {} events).pending.length ≤ cfg.maxPending := by
  have hload : (Runs.run (Reporter.step cfg) {} events).load ≤ cfg.maxPending :=
    Runs.run_invariant (P := fun w => w.load ≤ cfg.maxPending)
      (fun _ _ hb hstep => Reporter.step_load hb hstep) (Nat.zero_le _) hroom
  exact Nat.le_trans (Nat.le_add_right _ _) hload

/-- A reporter whose buffer is full with one host. -/
def eager : Config Unit Unit where
  agentId := "peer"
  networkCidr := "10.0.0.0/24"
  maxBuf := 1
  reportable _ := true
  hostToReported _ := ()
  networkStateHash _ := ""

instance (cfg : Config ρ α) (w : Reporter α) (outcome : PostOutcome) :
    (task : Option (Task α)) → Decidable (w.RoomFor cfg outcome task)
  | some (.posting _ _ attempts .flushOnce) =>
    inferInstanceAs (Decidable (Reporter.verdict attempts outcome = some false →
      w.detached = 0 ∨ w.pending.length + w.detached < cfg.maxPending))
  | none | some .flushPending | some .flushOnce | some .heartbeat | some (.forming ..)
  | some (.posting _ _ _ .heartbeat) | some (.posting _ _ _ (.flushPending ..)) => isTrue trivial

instance (cfg : Config ρ α) (w : Reporter α) : (e : Event ρ) → Decidable (w.RoomToEnqueue cfg e)
  | .answered i _ outcome => inferInstanceAs (Decidable (w.RoomFor cfg outcome w.tasks[i]?))
  | .report _ | .reportPassive _ | .tick | .stop | .resume .. => isTrue trivial

/-- A scan whose batch is posted by the task `i` and fails four times. -/
def failedScan (i : Nat) : List (Event Unit) :=
  [.report [()], .resume i 0, .resume i 0] ++ List.replicate 4 (.answered i 0 .failed)

theorem two_failed_scans_bounded :
    (Runs.run (Reporter.step eager) {}
      (failedScan 0 ++ [.tick, .resume 0 0] ++ failedScan 1)).pending.length ≤ 100 :=
  pending_bounded eager _ (by decide +kernel)

/-- A hundred batches fail; a tick takes them out of the queue, one more fails, and then all of the
hundred fail again. -/
def outage : List (Event Unit) :=
  (List.replicate 100 (failedScan 0)).flatten ++ ([.tick, .resume 0 0] ++ (failedScan 1 ++
    (List.replicate 100 (List.replicate 4 (.answered 0 0 .failed))).flatten))

set_option maxRecDepth 20000 in
theorem outage_overfills_queue :
    eager.maxPending = 100 ∧
      (Runs.run (Reporter.step eager) {} outage).pending.length = 101 := by
  decide +kernel

end Steward.Peer
