import Mathlib.Algebra.Group.Nat.Defs
import Mathlib.Data.List.InsertIdx
import Steward.Runs

/-!
# The agent's reporter

The agent buffers hosts from scans and from passive sightings in one buffer with
one flag and posts them in batches. Every method of the reporter is a sequence of
sections under the lock with posts between them, so a call that waits for the
lock or for an answer is a task of the state, and the steps are the sections.
The reporter looks into its hosts for the state hash only; they are a parameter.
-/

namespace Steward.Agent

open Runs List

variable {α β : Type}

structure AgentMeta where
  version : String := ""
  goVersion : String := ""
  hostname : String := ""
  uptimeSec : Int := 0
  scansTotal : Nat := 0
  fingerprintRev : String := ""
  supportedModules : List String := []
  deriving DecidableEq

variable (α)

structure AgentReport where
  agentId : String
  networkName : String
  networkCidr : String
  scannedAt : Int
  agentMeta : AgentMeta
  hosts : Option (List α)
  origin : String
  deriving DecidableEq

structure Config where
  agentId : String
  networkCidr : String
  maxBuf : Nat
  authRetryBackoffMs : Int
  processStartSec : Nat
  agentMeta : AgentMeta
  networkStateHash : List α → String

structure ReporterState where
  buffer : List α := []
  passive : Bool := false
  pending : List (AgentReport α) := []
  lastPostMs : Int := 0
  authRetryAfterMs : Int := 0

/-- What the caller of `post_with_retry` does with its answer. -/
inductive Next where
  | done
  | tickBuffer
  | stopDrain

/-- A call between two sections. -/
inductive Task where
  | tickBuffer
  | stopDrain (delivered : Bool)
  | posting (report : AgentReport α) (hash : Option String) (attempts : Nat) (next : Next)

/-- The reporter, its calls in progress and what it has posted so far. -/
structure Reporter where
  scansTotal : Nat := 0
  state : ReporterState α := {}
  tasks : List (Task α) := []
  sent : List (AgentReport α × Option String) := []

/-- The answer to one attempt of a post. -/
inductive PostOutcome where
  | accepted
  | rejected (status : Nat)
  | transportError

inductive Event where
  | report (now : Int) (hosts : List α)
  | reportPassive (host : α)
  | tick (now : Int)
  | stopFlush
  /-- The task takes the lock. -/
  | resume (task : Nat) (now : Int)
  | answered (task : Nat) (now : Int) (outcome : PostOutcome)

variable {α}

/-- The pending queue holds a hundred batches and drops the oldest. -/
def ReporterState.park (st : ReporterState α) (report : AgentReport α) : ReporterState α :=
  let pending := st.pending ++ [report]
  { st with pending := pending.drop (pending.length - 100) }

variable (cfg : Config α)

/-- `build_meta`. -/
def buildMeta (now : Int) (scansTotal : Nat) : AgentMeta :=
  { cfg.agentMeta with
    uptimeSec := max ((now - cfg.processStartSec * 1000).tdiv 1000) 0
    scansTotal := scansTotal }

/-- The report of `flush`. -/
def flushReport (now : Int) (scansTotal : Nat) (hosts : List α) (passive : Bool) :
    AgentReport α where
  agentId := cfg.agentId
  networkName := ""
  networkCidr := cfg.networkCidr
  scannedAt := now
  agentMeta := buildMeta cfg now scansTotal
  hosts := if hosts.isEmpty then none else some hosts
  origin := if passive then "passive" else ""

/-- The state hash of `flush`. -/
def flushHash (hosts : List α) (passive : Bool) : Option String :=
  if !passive && !hosts.isEmpty then some (cfg.networkStateHash hosts) else none

namespace Reporter

/-- A call goes on as a task; a post is sent at once. -/
def launch (w : Reporter α) (t : Task α) : Reporter α :=
  { w with
    tasks := w.tasks ++ [t]
    sent := match t with
      | .posting report hash _ _ => w.sent ++ [(report, hash)]
      | _ => w.sent }

def post (w : Reporter α) (report : AgentReport α) (hash : Option String) (next : Next) :
    Reporter α :=
  w.launch (.posting report hash 4 next)

variable (cfg : Config α) (w : Reporter α) (now : Int)

def flush (hosts : List α) (passive : Bool) :
    Reporter α :=
  w.post (flushReport cfg now w.scansTotal hosts passive) (flushHash cfg hosts passive) .done

/-- Buffer and flag are taken together. -/
def takeBuffer : Reporter α :=
  flush cfg { w with state := { w.state with buffer := [], passive := false } } now
    w.state.buffer w.state.passive

def report (hosts : List α) : Reporter α :=
  let w := { w with
    scansTotal := (w.scansTotal + 1) % 2 ^ 32
    state := { w.state with buffer := w.state.buffer ++ hosts } }
  if cfg.maxBuf ≤ w.state.buffer.length then takeBuffer cfg w now else w

def reportPassive (w : Reporter α) (host : α) : Reporter α :=
  { w with state := { w.state with buffer := w.state.buffer ++ [host], passive := true } }

/-- `tick` up to the post of one pending batch. -/
def tick (w : Reporter α) (now : Int) : Reporter α :=
  if now < w.state.authRetryAfterMs then w
  else
    match w.state.pending with
    | [] => w.launch .tickBuffer
    | batch :: rest =>
      post { w with state := { w.state with pending := rest } } batch none .tickBuffer

/-- `tick` from its second lock on: the buffer, or a heartbeat when idle. -/
def tickBuffer : Reporter α :=
  if !w.state.buffer.isEmpty then takeBuffer cfg w now
  else if now - w.state.lastPostMs < 30000 then w
  else flush cfg w now [] false

/-- One round of the loop of `stop_flush`, or its end. -/
def stopDrain (delivered : Bool) : Reporter α :=
  match delivered, w.state.pending with
  | true, batch :: rest =>
    post { w with state := { w.state with pending := rest } } batch none .stopDrain
  | _, _ => if !w.state.buffer.isEmpty then takeBuffer cfg w now else w

/-- The caller of `post_with_retry` has its answer. -/
def deliver (w : Reporter α) (delivered : Bool) : Next → Reporter α
  | .done => w
  | .tickBuffer => w.launch .tickBuffer
  | .stopDrain => w.launch (.stopDrain delivered)

/-- `post_with_retry` at the answer to one attempt. -/
def answer (report : AgentReport α)
    (hash : Option String) (attempts : Nat) (next : Next) : PostOutcome → Reporter α
  | .accepted =>
    deliver { w with state := { w.state with lastPostMs := now, authRetryAfterMs := 0 } } true next
  | .rejected status =>
    if status = 401 then
      let st := { w.state with authRetryAfterMs := now + cfg.authRetryBackoffMs }
      -- A heartbeat carries no data and is not parked here.
      deliver { w with state := if report.hosts.isSome then st.park report else st } false next
    else deliver { w with state := { w.state with lastPostMs := now } } true next
  | .transportError =>
    if attempts ≤ 1 then deliver { w with state := w.state.park report } false next
    else w.launch (.posting report hash (attempts - 1) next)

def step (cfg : Config α) (w : Reporter α) : Event α → Reporter α
  | .report now hosts => report cfg w now hosts
  | .reportPassive host => w.reportPassive host
  | .tick now => w.tick now
  | .stopFlush => w.launch (.stopDrain true)
  | .resume i now =>
    match w.tasks[i]? with
    | some .tickBuffer => tickBuffer cfg { w with tasks := w.tasks.eraseIdx i } now
    | some (.stopDrain delivered) =>
      stopDrain cfg { w with tasks := w.tasks.eraseIdx i } now delivered
    | _ => w
  | .answered i now outcome =>
    match w.tasks[i]? with
    | some (.posting report hash attempts next) =>
      answer cfg { w with tasks := w.tasks.eraseIdx i } now report hash attempts next outcome
    | _ => w

end Reporter

/-! ## What holds of every batch -/

/-- A property of the buffer with its flag, and one of batches that follows from it. -/
structure BatchRule (cfg : Config α) (Buffer : List α → Bool → Prop)
    (Batch : AgentReport α → Option String → Prop) : Prop where
  empty : Buffer [] false
  flush : ∀ now scans hosts passive, Buffer hosts passive →
    Batch (flushReport cfg now scans hosts passive) (flushHash cfg hosts passive)
  /-- A retry goes without the hash. -/
  retry : ∀ report hash, Batch report hash → Batch report none

/-- The batch that a task posts. -/
def Task.Posts (t : Task α) (report : AgentReport α) (hash : Option String) : Prop :=
  ∃ attempts next, t = .posting report hash attempts next

namespace Reporter

variable {cfg : Config α} {Buffer : List α → Bool → Prop}
  {Batch : AgentReport α → Option String → Prop}

/-- The buffer and every batch, wherever it is, have their properties. -/
structure Carries (Buffer : List α → Bool → Prop) (Batch : AgentReport α → Option String → Prop)
    (w : Reporter α) : Prop where
  buffer : Buffer w.state.buffer w.state.passive
  pending : ∀ r ∈ w.state.pending, Batch r none
  posting : ∀ t ∈ w.tasks, ∀ r h, t.Posts r h → Batch r h
  sent : ∀ b ∈ w.sent, Batch b.1 b.2

/-- What an event adds to the buffer keeps the property of the buffer. -/
def Admits (Buffer : List α → Bool → Prop) (w : Reporter α) : Event α → Prop
  | .report _ hosts => Buffer (w.state.buffer ++ hosts) w.state.passive
  | .reportPassive host => Buffer (w.state.buffer ++ [host]) true
  | _ => True

namespace Carries

variable {w : Reporter α} {r : AgentReport α} {t : Task α} {hash : Option String}
  {st : ReporterState α}

section Carried

variable (h : w.Carries Buffer Batch)

include h

theorem launch (ht : ∀ r hash, t.Posts r hash → Batch r hash) :
    (w.launch t).Carries Buffer Batch where
  buffer := h.buffer
  pending := h.pending
  posting := by
    intro s hs
    rcases mem_append.mp hs with hs | hs
    · exact h.posting s hs
    · exact mem_singleton.mp hs ▸ ht
  sent := by
    cases t with
    | posting r hash n next =>
      intro b hb
      rcases mem_append.mp hb with hb | hb
      · exact h.sent b hb
      · cases mem_singleton.mp hb
        exact ht r hash ⟨n, next, rfl⟩
    | tickBuffer => exact h.sent
    | stopDrain => exact h.sent

theorem launch_silent (ht : ∀ r hash, ¬ t.Posts r hash) : (w.launch t).Carries Buffer Batch :=
  h.launch fun r hash hp => absurd hp (ht r hash)

theorem post (hb : Batch r hash) (n : Nat) (next : Next) :
    (w.launch (.posting r hash n next)).Carries Buffer Batch := by
  apply h.launch
  rintro _ _ ⟨_, _, heq⟩
  cases heq
  exact hb

theorem takeBuffer (hr : BatchRule cfg Buffer Batch) (now : Int) :
    (Reporter.takeBuffer cfg w now).Carries Buffer Batch := by
  have hempty : Carries Buffer Batch
      { w with state := { w.state with buffer := [], passive := false } } :=
    { h with buffer := hr.empty }
  exact hempty.post (hr.flush now w.scansTotal _ _ h.buffer) 4 .done

/-- A state whose buffer, flag and pending queue are carried on. -/
theorem withState (hb : st.buffer = w.state.buffer) (hp : st.passive = w.state.passive)
    (hpending : ∀ r ∈ st.pending, Batch r none) : Carries Buffer Batch { w with state := st } :=
  { h with
    buffer := by simpa only [hb, hp] using h.buffer
    pending := hpending }

theorem park (hst : st.pending = w.state.pending) (hr : Batch r none) :
    ∀ s ∈ (st.park r).pending, Batch s none := by
  intro s hs
  have hmem := mem_of_mem_drop hs
  rw [hst] at hmem
  rcases mem_append.mp hmem with hmem | hmem
  · exact h.pending s hmem
  · exact mem_singleton.mp hmem ▸ hr

theorem deliver (delivered : Bool) (next : Next) :
    (w.deliver delivered next).Carries Buffer Batch := by
  cases next with
  | done => exact h
  | tickBuffer => exact h.launch_silent (by rintro r hash ⟨_, _, heq⟩; cases heq)
  | stopDrain => exact h.launch_silent (by rintro r hash ⟨_, _, heq⟩; cases heq)

theorem answer (hr : BatchRule cfg Buffer Batch) (now : Int) (hb : Batch r hash) (attempts : Nat)
    (next : Next) (outcome : PostOutcome) :
    (Reporter.answer cfg w now r hash attempts next outcome).Carries Buffer Batch := by
  have hretry := hr.retry r hash hb
  cases outcome with
  | accepted =>
    apply deliver
    exact h.withState rfl rfl h.pending
  | rejected status =>
    simp only [Reporter.answer]
    split
    · apply deliver
      split
      · exact h.withState rfl rfl (h.park rfl hretry)
      · exact h.withState rfl rfl h.pending
    · apply deliver
      exact h.withState rfl rfl h.pending
  | transportError =>
    simp only [Reporter.answer]
    split
    · apply deliver
      exact h.withState rfl rfl (h.park rfl hretry)
    · exact h.post hb _ next

theorem eraseTask (i : Nat) : Carries Buffer Batch { w with tasks := w.tasks.eraseIdx i } :=
  { h with posting := fun t ht => h.posting t (mem_of_mem_eraseIdx ht) }

/-- Pending batches are posted without the hash. -/
theorem postPending {batch : AgentReport α} {rest : List (AgentReport α)}
    (hp : w.state.pending = batch :: rest) (next : Next) :
    (Reporter.post { w with state := { w.state with pending := rest } } batch none
      next).Carries Buffer Batch := by
  have hrest : ∀ r ∈ rest, Batch r none := fun r hr => h.pending r (by simp [hp, hr])
  have hw : Carries Buffer Batch { w with state := { w.state with pending := rest } } :=
    h.withState rfl rfl hrest
  exact hw.post (h.pending batch (by simp [hp])) 4 next

end Carried

variable (hr : BatchRule cfg Buffer Batch)

include hr

theorem tickBuffer (h : w.Carries Buffer Batch) (now : Int) :
    (Reporter.tickBuffer cfg w now).Carries Buffer Batch := by
  simp only [Reporter.tickBuffer]
  split
  · exact h.takeBuffer hr now
  · split
    · exact h
    · exact h.post (hr.flush now w.scansTotal [] false hr.empty) 4 .done

theorem stopDrain (h : w.Carries Buffer Batch) (now : Int) (delivered : Bool) :
    (Reporter.stopDrain cfg w now delivered).Carries Buffer Batch := by
  simp only [Reporter.stopDrain]
  split
  · next batch rest hp => exact h.postPending hp .stopDrain
  · split
    · exact h.takeBuffer hr now
    · exact h

theorem step {e : Event α} (h : w.Carries Buffer Batch) (he : w.Admits Buffer e) :
    (Reporter.step cfg w e).Carries Buffer Batch := by
  cases e with
  | report now hosts =>
    have hext : Carries Buffer Batch { w with
        scansTotal := (w.scansTotal + 1) % 2 ^ 32
        state := { w.state with buffer := w.state.buffer ++ hosts } } := { h with buffer := he }
    simp only [Reporter.step, Reporter.report]
    split
    · exact hext.takeBuffer hr now
    · exact hext
  | reportPassive host => exact { h with buffer := he }
  | tick now =>
    simp only [Reporter.step, Reporter.tick]
    split
    · exact h
    · split
      · exact h.launch_silent (by rintro r hash ⟨_, _, heq⟩; cases heq)
      · next batch rest hp => exact h.postPending hp .tickBuffer
  | stopFlush => exact h.launch_silent (by rintro r hash ⟨_, _, heq⟩; cases heq)
  | resume i now =>
    simp only [Reporter.step]
    split
    · exact (h.eraseTask i).tickBuffer hr now
    · next delivered _ => exact (h.eraseTask i).stopDrain hr now delivered
    · exact h
  | answered i now outcome =>
    simp only [Reporter.step]
    split
    · next r hash n next ht =>
      have hb : Batch r hash := h.posting _ (mem_of_getElem? ht) r hash ⟨n, next, rfl⟩
      exact (h.eraseTask i).answer hr now hb n next outcome
    · exact h

/-- Runs whose events stand for events of the reporter. -/
theorem run {γ : Type} {g : γ → Event α} {ok : Reporter α → γ → Prop}
    (hadm : ∀ w e, w.Carries Buffer Batch → ok w e → w.Admits Buffer (g e)) {events : List γ}
    (h : Along (fun w e => Reporter.step cfg w (g e)) ok {} events) :
    (run (fun w e => Reporter.step cfg w (g e)) {} events).Carries Buffer Batch :=
  run_invariant (fun w e hw he => hw.step hr (hadm w e hw he))
    ⟨hr.empty, by simp, by simp, by simp⟩ h

end Carries

/-- A state hash goes with scan batches only, and it is the hash of their hosts. -/
theorem sent_hash (cfg : Config α) (events : List (Event α)) :
    ∀ b ∈ (run (step cfg) {} events).sent, ∀ hash, b.2 = some hash →
      b.1.origin = "" ∧ ∃ hosts, b.1.hosts = some hosts ∧ cfg.networkStateHash hosts = hash := by
  let Batch : AgentReport α → Option String → Prop := fun r h => ∀ hash, h = some hash →
    r.origin = "" ∧ ∃ hosts, r.hosts = some hosts ∧ cfg.networkStateHash hosts = hash
  have hr : BatchRule cfg (fun _ _ => True) Batch := by
    refine ⟨trivial, ?_, ?_⟩
    · intro now scans hosts passive _ hash hh
      cases passive <;> cases hosts <;> simp_all [flushHash, flushReport]
    · intro r h _ hash hh
      cases hh
  have hadm : ∀ (w : Reporter α) (e : Event α), w.Carries (fun _ _ => True) Batch → True →
      w.Admits (fun _ _ => True) e := by
    intro w e _ _
    cases e <;> trivial
  exact (Carries.run hr hadm (along_of_forall _ _ events fun _ _ => trivial)).sent

end Reporter

/-! ## Where the hosts of a batch come from -/

/-- The method that buffered a host. -/
inductive Source where
  | scan
  | passive
  deriving DecidableEq

/-- The event with the source on its hosts. -/
def Event.tag : Event α → Event (Source × α)
  | .report now hosts => .report now (hosts.map (Prod.mk .scan))
  | .reportPassive host => .reportPassive (.passive, host)
  | .tick now => .tick now
  | .stopFlush => .stopFlush
  | .resume i now => .resume i now
  | .answered i now outcome => .answered i now outcome

variable (f : α → β)

def Config.comap (cfg : Config β) : Config α :=
  { cfg with networkStateHash := fun hosts => cfg.networkStateHash (hosts.map f) }

/-- The reporter with the source on every host. -/
def taggedStep (cfg : Config α) (w : Reporter (Source × α)) (e : Event α) : Reporter (Source × α) :=
  Reporter.step (cfg.comap Prod.snd) w e.tag

def AgentReport.map (r : AgentReport α) : AgentReport β :=
  { r with hosts := r.hosts.map (List.map f) }

def ReporterState.map (st : ReporterState α) : ReporterState β :=
  { st with
    buffer := st.buffer.map f
    pending := st.pending.map (AgentReport.map f) }

def Task.map : Task α → Task β
  | .tickBuffer => .tickBuffer
  | .stopDrain delivered => .stopDrain delivered
  | .posting report hash attempts next => .posting (report.map f) hash attempts next

def Event.map : Event α → Event β
  | .report now hosts => .report now (hosts.map f)
  | .reportPassive host => .reportPassive (f host)
  | .tick now => .tick now
  | .stopFlush => .stopFlush
  | .resume i now => .resume i now
  | .answered i now outcome => .answered i now outcome

namespace Reporter

def map (w : Reporter α) : Reporter β where
  scansTotal := w.scansTotal
  state := w.state.map f
  tasks := w.tasks.map (Task.map f)
  sent := w.sent.map fun b => (b.1.map f, b.2)

variable (f : α → β) (cfg : Config β) (w : Reporter α) (now : Int)

theorem launch_map (t : Task α) : (w.launch t).map f = (w.map f).launch (t.map f) := by
  cases t <;> simp [launch, map, Task.map]

theorem flush_map (hosts : List α) (passive : Bool) :
    (flush (cfg.comap f) w now hosts passive).map f =
      flush cfg (w.map f) now (hosts.map f) passive := by
  simp only [flush, post, launch_map, Task.map]
  cases hosts <;> rfl

theorem takeBuffer_map : (takeBuffer (cfg.comap f) w now).map f = takeBuffer cfg (w.map f) now :=
  flush_map f cfg _ now _ _

theorem report_map (hosts : List α) :
    (report (cfg.comap f) w now hosts).map f = report cfg (w.map f) now (hosts.map f) := by
  have happ : (w.map f).state.buffer ++ hosts.map f = (w.state.buffer ++ hosts).map f := by
    simp [map, ReporterState.map]
  have hmax : (cfg.comap f).maxBuf = cfg.maxBuf := rfl
  simp only [report, happ, hmax, length_map]
  by_cases hfull : cfg.maxBuf ≤ (w.state.buffer ++ hosts).length
  · rw [if_pos hfull, if_pos hfull]
    exact takeBuffer_map f cfg _ now
  · rw [if_neg hfull, if_neg hfull]
    rfl

theorem deliver_map (delivered : Bool) (next : Next) :
    (w.deliver delivered next).map f = (w.map f).deliver delivered next := by
  cases next with
  | done => rfl
  | tickBuffer => exact launch_map f w .tickBuffer
  | stopDrain => exact launch_map f w (.stopDrain delivered)

theorem park_map (st : ReporterState α) (r : AgentReport α) :
    (st.park r).map f = (st.map f).park (r.map f) := by
  simp [ReporterState.park, ReporterState.map, map_drop]

theorem answer_map (r : AgentReport α) (hash : Option String) (attempts : Nat) (next : Next)
    (outcome : PostOutcome) :
    (answer (cfg.comap f) w now r hash attempts next outcome).map f =
      answer cfg (w.map f) now (r.map f) hash attempts next outcome := by
  cases outcome with
  | accepted => exact deliver_map f _ true next
  | rejected status =>
    have hsome : (r.map f).hosts.isSome = r.hosts.isSome := by simp [AgentReport.map]
    simp only [answer, hsome]
    split
    · rw [deliver_map]
      split
      · simp only [map, park_map]
        rfl
      · rfl
    · exact deliver_map f _ true next
  | transportError =>
    simp only [answer]
    split
    · rw [deliver_map]
      simp only [map, park_map]
    · exact launch_map f w _

theorem tick_map : (w.tick now).map f = (w.map f).tick now := by
  have hauth : (w.map f).state.authRetryAfterMs = w.state.authRetryAfterMs := rfl
  have hpending : (w.map f).state.pending = w.state.pending.map (AgentReport.map f) := rfl
  simp only [tick, hauth, hpending]
  split
  · rfl
  · cases w.state.pending with
    | nil => exact launch_map f w .tickBuffer
    | cons batch rest => exact launch_map f _ _

theorem tickBuffer_map : (tickBuffer (cfg.comap f) w now).map f = tickBuffer cfg (w.map f) now := by
  have hempty : (w.map f).state.buffer.isEmpty = w.state.buffer.isEmpty := isEmpty_map
  have hlast : (w.map f).state.lastPostMs = w.state.lastPostMs := rfl
  simp only [tickBuffer, hempty, hlast]
  split
  · exact takeBuffer_map f cfg w now
  · split
    · rfl
    · exact flush_map f cfg w now [] false

theorem stopDrain_map (delivered : Bool) :
    (stopDrain (cfg.comap f) w now delivered).map f = stopDrain cfg (w.map f) now delivered := by
  have hbuffer : (if !w.state.buffer.isEmpty then takeBuffer (cfg.comap f) w now else w).map f =
      if !(w.map f).state.buffer.isEmpty then takeBuffer cfg (w.map f) now else w.map f := by
    have hempty : (w.map f).state.buffer.isEmpty = w.state.buffer.isEmpty := isEmpty_map
    rw [hempty]
    split
    · exact takeBuffer_map f cfg w now
    · rfl
  have hpending : (w.map f).state.pending = w.state.pending.map (AgentReport.map f) := rfl
  cases delivered with
  | false => simpa only [stopDrain] using hbuffer
  | true =>
    cases hp : w.state.pending with
    | nil => simpa only [stopDrain, hpending, hp, map_nil] using hbuffer
    | cons batch rest =>
      simp only [stopDrain, hpending, hp, map_cons]
      exact launch_map f _ _

theorem eraseTask_map (i : Nat) : ({ w with tasks := w.tasks.eraseIdx i } : Reporter α).map f =
      { w.map f with tasks := (w.map f).tasks.eraseIdx i } := by
  simp [map, eraseIdx_map]

theorem step_map (e : Event α) : (step (cfg.comap f) w e).map f = step cfg (w.map f) (e.map f) := by
  have htask : ∀ i : Nat, (w.map f).tasks[i]? = w.tasks[i]?.map (Task.map f) := by simp [map]
  cases e with
  | report now hosts => exact report_map f cfg w now hosts
  | reportPassive host => simp [step, reportPassive, Event.map, map, ReporterState.map]
  | tick now => exact tick_map f w now
  | stopFlush => exact launch_map f w _
  | resume i now =>
    simp only [step, Event.map, htask]
    cases w.tasks[i]? with
    | none => rfl
    | some t =>
      cases t with
      | tickBuffer =>
        simp only [Option.map_some, Task.map, ← eraseTask_map]
        exact tickBuffer_map f cfg _ now
      | stopDrain delivered =>
        simp only [Option.map_some, Task.map, ← eraseTask_map]
        exact stopDrain_map f cfg _ now delivered
      | posting => rfl
  | answered i now outcome =>
    simp only [step, Event.map, htask]
    cases w.tasks[i]? with
    | none => rfl
    | some t =>
      cases t with
      | tickBuffer => rfl
      | stopDrain => rfl
      | posting r hash n next =>
        simp only [Option.map_some, Task.map, ← eraseTask_map]
        exact answer_map f cfg _ now r hash n next outcome

end Reporter

variable (cfg : Config α)

/-- Without the tags the tagged reporter is the reporter. -/
theorem taggedStep_map (w : Reporter (Source × α)) (e : Event α) :
    (taggedStep cfg w e).map Prod.snd = Reporter.step cfg (w.map Prod.snd) e := by
  rw [taggedStep, Reporter.step_map]
  cases e <;> simp [Event.tag, Event.map, Function.comp_def]

/-- An event that keeps one kind of host in the buffer. -/
def Apart (w : Reporter α) : Event α → Prop
  | .report _ hosts => hosts = [] ∨ w.state.passive = false
  | .reportPassive _ => w.state.buffer = [] ∨ w.state.passive = true
  | _ => True

instance [DecidableEq α] (w : Reporter α) (e : Event α) : Decidable (Apart w e) := by
  cases e <;> unfold Apart <;> infer_instance

/-- The condition reads the flag and whether the buffer is empty, so tags do not matter to it. -/
theorem apart_map (w : Reporter (Source × α)) (e : Event α) :
    Apart w e.tag ↔ Apart (w.map Prod.snd) e := by
  cases e <;> simp [Apart, Event.tag, Reporter.map, ReporterState.map]

/-- The source that the origin of a batch stands for. -/
def AgentReport.source (r : AgentReport α) : Source :=
  if r.origin = "passive" then .passive else .scan

/-- Every host of the batch was buffered by the method its origin names. -/
def AgentReport.OriginKept (r : AgentReport (Source × α)) : Prop :=
  ∀ h ∈ r.hosts.getD [], h.1 = r.source

instance (r : AgentReport (Source × α)) : Decidable r.OriginKept :=
  inferInstanceAs (Decidable (∀ h ∈ r.hosts.getD [], h.1 = r.source))

theorem flushReport_hosts (now : Int) (scans : Nat) (hosts : List α) (passive : Bool) :
    (flushReport cfg now scans hosts passive).hosts.getD [] = hosts := by
  cases hosts <;> rfl

/-- Whatever the calls, a scan batch holds no host from a passive sighting. -/
theorem passive_never_in_scan_batch (events : List (Event α)) :
    ∀ b ∈ (run (taggedStep cfg) {} events).sent, b.1.source = .scan →
      ∀ h ∈ b.1.hosts.getD [], h.1 = .scan := by
  let Buffer : List (Source × α) → Bool → Prop := fun hosts passive =>
    passive = false → ∀ h ∈ hosts, h.1 = .scan
  let Batch : AgentReport (Source × α) → Option String → Prop := fun r _ =>
    r.source = .scan → ∀ h ∈ r.hosts.getD [], h.1 = .scan
  have hr : BatchRule (cfg.comap Prod.snd) Buffer Batch := by
    refine ⟨by simp [Buffer], ?_, fun _ _ h => h⟩
    intro now scans hosts passive hb hs
    rw [flushReport_hosts]
    cases passive with
    | false => exact hb rfl
    | true => cases hs
  have hadm : ∀ (w : Reporter (Source × α)) (e : Event α), w.Carries Buffer Batch → True →
      w.Admits Buffer e.tag := by
    intro w e hw _
    cases e with
    | report now hosts =>
      intro hp h hh
      rcases mem_append.mp hh with hh | hh
      · exact hw.buffer hp h hh
      · obtain ⟨x, -, rfl⟩ := mem_map.mp hh
        rfl
    | reportPassive host =>
      intro hp
      cases hp
    | tick | stopFlush | resume | answered => trivial
  exact (Reporter.Carries.run hr hadm (along_of_forall _ _ events fun _ _ => trivial)).sent

/-- While scans and sightings are not mixed in the buffer, every batch keeps its origin. -/
theorem sent_originKept (cfg : Config α) (events : List (Event α))
    (h : Runs.Along (Reporter.step cfg) Apart {} events) :
    ∀ b ∈ (Runs.run (taggedStep cfg) {} events).sent, b.1.OriginKept := by
  let Buffer : List (Source × α) → Bool → Prop := fun hosts passive =>
    ∀ h ∈ hosts, h.1 = if passive then .passive else .scan
  let Batch : AgentReport (Source × α) → Option String → Prop := fun r _ => r.OriginKept
  have hr : BatchRule (cfg.comap Prod.snd) Buffer Batch := by
    refine ⟨by simp [Buffer], ?_, fun _ _ h => h⟩
    intro now scans hosts passive hb
    simp only [Batch, AgentReport.OriginKept, flushReport_hosts]
    cases passive <;> exact hb
  have hadm : ∀ (w : Reporter (Source × α)) (e : Event α), w.Carries Buffer Batch →
      Apart w e.tag → w.Admits Buffer e.tag := by
    intro w e hw hapart
    have hbuffer : Buffer w.state.buffer w.state.passive := hw.buffer
    cases e with
    | report now hosts =>
      intro x hx
      rcases mem_append.mp hx with hx | hx
      · exact hbuffer x hx
      · obtain ⟨y, hy, rfl⟩ := mem_map.mp hx
        rcases hapart with hnil | hflag
        · rw [map_eq_nil_iff.mp hnil] at hy
          cases hy
        · rw [hflag]
          rfl
    | reportPassive host =>
      intro x hx
      rcases mem_append.mp hx with hx | hx
      · rcases hapart with hnil | hflag
        · rw [hnil] at hx
          cases hx
        · rw [hbuffer x hx, hflag]
      · rw [mem_singleton.mp hx]
        rfl
    | tick | stopFlush | resume | answered => trivial
  have halong : Along (taggedStep cfg) (fun w e => Apart w e.tag) {} events :=
    (along_map (taggedStep_map cfg) apart_map {} events).mpr h
  exact (Reporter.Carries.run hr hadm halong).sent

/-- A configuration for hosts that are their addresses. -/
def addresses : Config String where
  agentId := "lan-63"
  networkCidr := "10.0.0.0/24"
  maxBuf := 256
  authRetryBackoffMs := 300000
  processStartSec := 0
  agentMeta := {}
  networkStateHash := fun hosts => "".intercalate hosts

def oneScan : List (Event String) := [.report 1000 ["10.0.0.1"], .tick 2000, .resume 0 2000]

theorem oneScan_hash :
    ∃ b ∈ (run (Reporter.step addresses) {} oneScan).sent, b.1.origin = "" := by
  obtain ⟨b, hb, hh⟩ : ∃ b ∈ (run (Reporter.step addresses) {} oneScan).sent,
      b.2 = some "10.0.0.1" := by
    decide
  exact ⟨b, hb, (Reporter.sent_hash addresses _ b hb _ hh).1⟩

theorem oneScan_source : ∃ b ∈ (run (taggedStep addresses) {} oneScan).sent,
    ∃ h ∈ b.1.hosts.getD [], h.1 = .scan := by
  obtain ⟨b, hb, hs, h, hh, -⟩ : ∃ b ∈ (run (taggedStep addresses) {} oneScan).sent,
      b.1.source = .scan ∧ ∃ h ∈ b.1.hosts.getD [], h.2 = "10.0.0.1" := by
    decide
  exact ⟨b, hb, h, hh, passive_never_in_scan_batch addresses _ b hb hs h hh⟩

/-- A scan is posted, a sighting comes while the post is on its way and is posted after it. -/
theorem sent_originKept_addresses :
    let events : List (Event String) :=
      [.report 1000 ["10.0.0.1"], .tick 2000, .resume 0 2000, .reportPassive "10.0.0.2",
        .answered 0 3000 .accepted, .tick 32000, .resume 0 32000]
    ((Runs.run (taggedStep addresses) {} events).sent.map fun b => (b.1.hosts, b.1.origin)) =
        [(some [(.scan, "10.0.0.1")], ""), (some [(.passive, "10.0.0.2")], "passive")] ∧
      ∀ b ∈ (Runs.run (taggedStep addresses) {} events).sent, b.1.OriginKept :=
  ⟨by decide +kernel, sent_originKept addresses _ (by decide +kernel)⟩

/-- A sighting that finds a scanned host in the buffer takes it along as passive. -/
theorem scanned_host_sent_as_passive :
    let sent := (Runs.run (taggedStep addresses) {}
      [.report 1000 ["10.0.0.1"], .reportPassive "10.0.0.2", .tick 2000, .resume 0 2000]).sent
    (sent.map fun b => (b.1.hosts, b.1.origin)) =
        [(some [(.scan, "10.0.0.1"), (.passive, "10.0.0.2")], "passive")] ∧
      ¬ ∀ b ∈ sent, b.1.OriginKept := by
  decide +kernel

end Steward.Agent
