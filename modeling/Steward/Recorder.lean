import Mathlib.Data.List.Chain
import Steward.Devices
import Steward.Runs

/-!
# The change recorder

`DBRecorder` writes change events to `change_log` and suppresses an event of a
throttled kind while the last one of its device and bucket is younger than the
cooldown. A loss and a recovery share one bucket. `Record` checks, writes and
stamps in three steps; only the first and the last hold the lock.
-/

namespace Steward

open Runs List

inductive ChangeType where
  | deviceAdded | deviceChanged | deviceLost | deviceRecovered | speaksWithNew | listenPortAdded
  | deviceConfigChanged | probeFailed | probeRecovered | agentOffline | agentRecovered
  deriving DecidableEq, Repr

inductive EntityType where
  | device | probeTarget | agent
  deriving DecidableEq, Repr

structure ChangeEvent where
  changeType : ChangeType
  entityType : EntityType := .device
  deviceId : Nat
  networkId : Option Nat := none
  agentId : String := ""
  before : Option DeviceRow := none
  after : Option DeviceRow := none
  deriving DecidableEq

inductive DedupKind where
  | liveness | deviceChanged
  deriving DecidableEq, Repr

/-- `dedupKind`; an event without a bucket is never throttled. -/
def dedupKind : ChangeType → Option DedupKind
  | .deviceLost | .deviceRecovered => some .liveness
  | .deviceChanged => some .deviceChanged
  | _ => none

structure DedupKey where
  deviceId : Nat
  kind : DedupKind
  deriving DecidableEq, Repr

def ChangeEvent.key (ev : ChangeEvent) : Option DedupKey :=
  (dedupKind ev.changeType).map fun kind => ⟨ev.deviceId, kind⟩

structure DBRecorder where
  cooldown : Int
  lastEmitted : DedupKey → Option Int

variable (cooldown : Int)

/-- `NewDBRecorder`. -/
def DBRecorder.new : DBRecorder := ⟨cooldown, fun _ => none⟩

variable (r : DBRecorder) (now : Int) (ev : ChangeEvent)

/-- `shouldEmit`. -/
def DBRecorder.shouldEmit : Bool :=
  if r.cooldown ≤ 0 then true
  else
    match ev.key with
    | none => true
    | some key =>
      match r.lastEmitted key with
      | none => true
      | some last => !(now - last < r.cooldown)

/-- `markEmitted`. -/
def DBRecorder.markEmitted : DBRecorder :=
  if r.cooldown ≤ 0 then r
  else
    match ev.key with
    | none => r
    | some key => { r with lastEmitted := Function.update r.lastEmitted key (some now) }

structure ChangeLogRow where
  event : ChangeEvent
  detectedAt : Int
  deriving DecidableEq

/-- The recorder and the table it writes to. -/
structure Recording where
  recorder : DBRecorder
  changeLog : List ChangeLogRow := []

/-- `Record` of a caller that nobody interferes with. -/
def Recording.record (s : Recording) (now : Int) (ev : ChangeEvent) : Recording :=
  if s.recorder.shouldEmit now ev then
    ⟨s.recorder.markEmitted now ev, s.changeLog ++ [⟨ev, now⟩]⟩
  else s

@[simp] theorem markEmitted_cooldown :
    (r.markEmitted now ev).cooldown = r.cooldown := by
  unfold DBRecorder.markEmitted
  split
  · rfl
  · split <;> rfl

@[simp] theorem record_cooldown (s : Recording) (now : Int) (ev : ChangeEvent) :
    (s.record now ev).recorder.cooldown = s.recorder.cooldown := by
  unfold Recording.record
  split
  · exact markEmitted_cooldown ..
  · rfl

variable {r : DBRecorder} {device : Nat} {s : Recording}

/-- Right after an event of a bucket was stamped, the next one has to wait for the cooldown. -/
theorem shouldEmit_after_mark {now later : Int} {ev ev' : ChangeEvent} {key : DedupKey}
    (hkey : ev.key = some key) (hkey' : ev'.key = some key) :
    (r.markEmitted now ev).shouldEmit later ev' = true ↔
      r.cooldown ≤ 0 ∨ r.cooldown ≤ later - now := by
  by_cases hc : r.cooldown ≤ 0 <;>
    simp [DBRecorder.shouldEmit, DBRecorder.markEmitted, hc, hkey, hkey']

/-! ## Losses and recoveries of one device -/

/-- A loss or a recovery that is handed to the recorder at a time. -/
structure Submission where
  lost : Bool
  time : Int
  deriving DecidableEq, Repr

def Submission.event (device : Nat) (x : Submission) : ChangeEvent where
  changeType := if x.lost then .deviceLost else .deviceRecovered
  deviceId := device

theorem Submission.event_key (device : Nat) (x : Submission) :
    (x.event device).key = some ⟨device, .liveness⟩ := by
  obtain ⟨lost, time⟩ := x
  cases lost <;> rfl

variable (device) (s)

def Recording.submit (x : Submission) : Recording :=
  s.record x.time (x.event device)

def Recording.records (x : Submission) : Bool :=
  s.recorder.shouldEmit x.time (x.event device)

variable (xs : List Submission)

/-- Every submission with whether it was recorded. -/
def Recording.history :
    List (Submission × Bool) :=
  Runs.trace (Recording.submit device) (Recording.records device) s xs

/-- Losses and recoveries take turns. -/
def Alternating : Prop := xs.IsChain fun x y => x.lost ≠ y.lost

instance : Decidable (Alternating xs) :=
  inferInstanceAs (Decidable (xs.IsChain fun x y => x.lost ≠ y.lost))

/-- Between two recorded losses there is a recorded recovery. -/
def Paired (history : List (Submission × Bool)) : Prop :=
  ∀ pre x mid z post, history = pre ++ (x, true) :: (mid ++ (z, true) :: post) →
    x.lost = true → z.lost = true → ∃ y, (y, true) ∈ mid ∧ y.lost = false

/-- Recovery `y` is not submitted within the cooldown of loss `x`. -/
def Cooled (x y : Submission) : Prop :=
  cooldown ≤ 0 ∨ cooldown ≤ y.time - x.time

instance (x y : Submission) : Decidable (Cooled cooldown x y) :=
  inferInstanceAs (Decidable (_ ∨ _))

theorem submit_cooldown :
    (run (Recording.submit device) s xs).recorder.cooldown = s.recorder.cooldown := by
  induction xs generalizing s with
  | nil => rfl
  | cons x rest ih => rw [run_cons, ih, Recording.submit, record_cooldown]

variable {device s} {xs : List Submission} {pre post : List (Submission × Bool)}

/-- The submission after a recorded one is recorded when the cooldown is over. -/
theorem recorded_next_iff {x y : Submission} {b : Bool}
    (h : s.history device xs = pre ++ (x, true) :: (y, b) :: post) :
    b = true ↔ Cooled s.recorder.cooldown x y := by
  obtain ⟨es, fs, -, -, hx, hrest⟩ := trace_split h
  cases fs with
  | nil => cases hrest
  | cons z rest =>
    simp only [trace, cons.injEq, Prod.mk.injEq] at hrest
    obtain ⟨⟨rfl, hb⟩, -⟩ := hrest
    have hemit : (run (Recording.submit device) s es).recorder.shouldEmit x.time
        (x.event device) = true := hx.symm
    rw [hb, Recording.records, Recording.submit, Recording.record, if_pos hemit,
      shouldEmit_after_mark (x.event_key device) (y.event_key device), submit_cooldown]
    rfl

theorem history_alternating {x y : Submission × Bool} (halt : Alternating xs)
    (h : s.history device xs = pre ++ x :: y :: post) : x.1.lost ≠ y.1.lost := by
  have hxs : xs = pre.map Prod.fst ++ x.1 :: y.1 :: post.map Prod.fst := by
    rw [← trace_fst (Recording.submit device) (Recording.records device) s xs]
    unfold Recording.history at h
    simp [h]
  rw [Alternating, hxs] at halt
  exact (isChain_append_cons_cons.mp halt).2.1

/-- A recovery after a recorded loss is recorded exactly when it comes no sooner than the cooldown;
if every one does, recorded losses and recoveries pair up. -/
theorem recoveries_recorded_after_cooldown {device : Nat} {s : Recording} {xs : List Submission}
    (halt : Alternating xs) :
    (∀ pre x y b post, s.history device xs = pre ++ (x, true) :: (y, b) :: post → x.lost = true →
      (y.lost = false ∧ (b = true ↔ Cooled s.recorder.cooldown x y))) ∧
    ((∀ pre x y b post, s.history device xs = pre ++ (x, true) :: (y, b) :: post → x.lost = true →
      Cooled s.recorder.cooldown x y) → Paired (s.history device xs)) := by
  have hnext : ∀ pre x y b post, s.history device xs = pre ++ (x, true) :: (y, b) :: post →
      x.lost = true → (y.lost = false ∧ (b = true ↔ Cooled s.recorder.cooldown x y)) := by
    intro pre x y b post h hx
    have hne : x.lost ≠ y.lost := history_alternating halt h
    exact ⟨by simpa [hx] using hne, recorded_next_iff h⟩
  refine ⟨hnext, ?_⟩
  intro hcooled pre x mid z post h hx hz
  cases mid with
  | nil => exact absurd (hx.trans hz.symm) (history_alternating halt h)
  | cons m mid =>
    obtain ⟨y, b⟩ := m
    obtain ⟨hy, hb⟩ := hnext _ _ _ _ _ h hx
    have hbt : b = true := hb.mpr (hcooled _ _ _ _ _ h hx)
    exact ⟨y, by simp [hbt], hy⟩

/-- A device lost and found again after a quarter of an hour, under a cooldown of ten minutes. -/
theorem slow_recovery_recorded :
    Paired ((Recording.mk (.new 600) []).history 1 [⟨true, 0⟩, ⟨false, 900⟩, ⟨true, 1800⟩]) := by
  refine (recoveries_recorded_after_cooldown (by decide)).2 ?_
  intro pre x y b post h hx
  have hhist : (Recording.mk (.new 600) []).history 1 [⟨true, 0⟩, ⟨false, 900⟩, ⟨true, 1800⟩] =
      [(⟨true, 0⟩, true), (⟨false, 900⟩, true), (⟨true, 1800⟩, true)] := by decide
  rw [hhist] at h
  rcases pre with _ | ⟨p, _ | ⟨q, _ | ⟨r, pre⟩⟩⟩
  · obtain ⟨⟨rfl, -⟩, ⟨rfl, -⟩, -⟩ := h
    decide
  · obtain ⟨-, ⟨rfl, -⟩, -⟩ := h
    cases hx
  · simp at h
  · simp at h

/-- A recovery one minute after the loss is dropped, and so the next recorded event is a second
loss. -/
theorem quick_recovery_dropped :
    Alternating [⟨true, 0⟩, ⟨false, 60⟩, ⟨true, 900⟩] ∧
    (Recording.mk (.new 600) []).history 1 [⟨true, 0⟩, ⟨false, 60⟩, ⟨true, 900⟩] =
      [(⟨true, 0⟩, true), (⟨false, 60⟩, false), (⟨true, 900⟩, true)] ∧
    ¬ Paired ((Recording.mk (.new 600) []).history 1 [⟨true, 0⟩, ⟨false, 60⟩, ⟨true, 900⟩]) := by
  have hhist : (Recording.mk (.new 600) []).history 1 [⟨true, 0⟩, ⟨false, 60⟩, ⟨true, 900⟩] =
      [(⟨true, 0⟩, true), (⟨false, 60⟩, false), (⟨true, 900⟩, true)] := by decide
  refine ⟨by decide, hhist, ?_⟩
  intro hp
  obtain ⟨y, hy, -⟩ := hp [] ⟨true, 0⟩ [(⟨false, 60⟩, false)] ⟨true, 900⟩ [] rfl rfl rfl
  simp at hy

/-! ## Concurrent calls -/

/-- Where a call of `Record` stands between its steps. -/
inductive Phase where
  | checked
  | timed (now : Int)
  | written (now : Int)
  deriving DecidableEq, Repr

structure Call where
  event : ChangeEvent
  phase : Phase
  deriving DecidableEq

/-- A recorder that several callers share; a call is in flight until it returns. -/
structure Recorders where
  recording : Recording
  clock : Int
  calls : Nat → Option Call

def Recorders.start (cooldown clock : Int) : Recorders :=
  ⟨⟨.new cooldown, []⟩, clock, fun _ => none⟩

inductive RecordStep where
  | tick (d : Nat)
  | check (i : Nat) (ev : ChangeEvent)
  | readClock (i : Nat)
  | write (i : Nat)
  | fail (i : Nat)
  | stamp (i : Nat)

namespace Recorders

def shouldEmit (s : Recorders) (ev : ChangeEvent) : Bool :=
  s.recording.recorder.shouldEmit s.clock ev

def setCall (s : Recorders) (i : Nat) (c : Option Call) : Recorders :=
  { s with calls := Function.update s.calls i c }

/-- The steps of `Record`, with the failed insert that returns without a stamp. -/
def step (s : Recorders) : RecordStep → Recorders
  | .tick d => { s with clock := s.clock + d }
  | .check i ev =>
    if s.calls i = none ∧ s.shouldEmit ev = true then s.setCall i (some ⟨ev, .checked⟩) else s
  | .readClock i =>
    match s.calls i with
    | some ⟨ev, .checked⟩ => s.setCall i (some ⟨ev, .timed s.clock⟩)
    | _ => s
  | .write i =>
    match s.calls i with
    | some ⟨ev, .timed now⟩ =>
      { s.setCall i (some ⟨ev, .written now⟩) with
        recording := { s.recording with changeLog := s.recording.changeLog ++ [⟨ev, now⟩] } }
    | _ => s
  | .fail i =>
    match s.calls i with
    | some ⟨_, .timed _⟩ => s.setCall i none
    | _ => s
  | .stamp i =>
    match s.calls i with
    | some ⟨ev, .written now⟩ =>
      { s.setCall i none with
        recording := { s.recording with recorder := s.recording.recorder.markEmitted now ev } }
    | _ => s

abbrev run : Recorders → List RecordStep → Recorders := Runs.run step

/-- The steps of one call on its own are the sequential `Record`. -/
theorem run_alone (s : Recorders) (i : Nat) (ev : ChangeEvent) (hi : s.calls i = none) :
    s.run [.check i ev, .readClock i, .write i, .stamp i] =
      { s with recording := s.recording.record s.clock ev } := by
  by_cases h : s.shouldEmit ev = true
  · have hemit : s.recording.recorder.shouldEmit s.clock ev = true := h
    have hcalls : Function.update s.calls i none = s.calls := by rw [← hi, Function.update_eq_self]
    simp [run, step, setCall, hi, h, hemit, hcalls, Recording.record]
  · have hemit : ¬ s.recording.recorder.shouldEmit s.clock ev = true := h
    simp [run, step, hi, h, hemit, Recording.record]

/-- A call that passes the check finds no other call of its bucket in flight. -/
def Serial (s : Recorders) : RecordStep → Prop
  | .check _ ev => s.shouldEmit ev = true → ∀ j c key, s.calls j = some c →
      c.event.key = some key → ev.key ≠ some key
  | _ => True

/-- No window as long as the cooldown holds two rows of one bucket. -/
def OncePerWindow (log : List ChangeLogRow) : Prop :=
  ∀ key start, (log.filter fun row => row.event.key = some key ∧
    start ≤ row.detectedAt ∧ row.detectedAt < start + cooldown).length ≤ 1

/-- The rows of a bucket are all older than the cooldown at time `now`. -/
def Quiet (s : Recorders) (key : DedupKey) (now : Int) : Prop :=
  ∀ row ∈ s.recording.changeLog, row.event.key = some key →
    row.detectedAt + s.recording.recorder.cooldown ≤ now

/-- What the bucket of a call in flight looks like, by the phase of the call. -/
def Settled (s : Recorders) (key : DedupKey) : Phase → Prop
  | .checked => s.Quiet key s.clock
  | .timed now => s.Quiet key now
  | .written now => ∀ row ∈ s.recording.changeLog, row.event.key = some key → row.detectedAt ≤ now

def PendingStamp (s : Recorders) (key : DedupKey) : Prop :=
  ∃ i ev now, s.calls i = some ⟨ev, .written now⟩ ∧ ev.key = some key

/-- Call `i` is the only one of its bucket. -/
def Alone (s : Recorders) (i : Nat) (ev : ChangeEvent) : Prop :=
  ∀ j c key, j ≠ i → s.calls j = some c → c.event.key = some key → ev.key ≠ some key

/-- What serial callers keep: a bucket has one call in flight, that call found the bucket quiet,
and the stamp of a bucket is no older than its rows unless it is about to be renewed. -/
structure Disciplined (s : Recorders) : Prop where
  enabled : 0 < s.recording.recorder.cooldown
  alone : ∀ i c, s.calls i = some c → s.Alone i c.event
  settled : ∀ i c key, s.calls i = some c → c.event.key = some key → s.Settled key c.phase
  stamped : ∀ key, ¬ s.PendingStamp key → ∀ row ∈ s.recording.changeLog,
    row.event.key = some key →
      ∃ last, s.recording.recorder.lastEmitted key = some last ∧ row.detectedAt ≤ last
  apart : s.recording.changeLog.Pairwise fun a b => ∀ key, a.event.key = some key →
    b.event.key = some key → a.detectedAt + s.recording.recorder.cooldown ≤ b.detectedAt

variable {cooldown : Int} {ev : ChangeEvent} {s : Recorders} {i : Nat} {c : Option Call}

theorem setCall_eq_some {j : Nat} {d : Call} :
    (s.setCall i c).calls j = some d ↔ (j = i ∧ c = some d) ∨ (j ≠ i ∧ s.calls j = some d) := by
  by_cases hj : j = i
  · subst hj
    simp [setCall]
  · simp [setCall, hj]

section Discipline

variable (h : s.Disciplined)

include h

/-- A call that enters, moves on or returns alone in its bucket leaves every call alone. -/
theorem Disciplined.alone_setCall (hc : ∀ d, c = some d → s.Alone i d.event) :
    ∀ j d, (s.setCall i c).calls j = some d → (s.setCall i c).Alone j d.event := by
  intro j d hj k e key hkj hk hekey hdkey
  rcases setCall_eq_some.mp hj with ⟨rfl, hd⟩ | ⟨hji, hd⟩ <;>
    rcases setCall_eq_some.mp hk with ⟨rfl, he⟩ | ⟨-, he⟩
  · exact hkj rfl
  · exact hc d hd k e key hkj he hekey hdkey
  · exact hc e he j d key hji hd hdkey hekey
  · exact h.alone j d hd k e key hkj he hekey hdkey

theorem Disciplined.tick (d : Nat) : (s.step (.tick d)).Disciplined where
  enabled := h.enabled
  alone := h.alone
  settled := by
    intro i c key hi hkey
    have hs := h.settled i c key hi hkey
    obtain ⟨ev, phase⟩ := c
    cases phase with
    | checked =>
      intro row hrow hrk
      have hq := hs row hrow hrk
      simp only [step]
      omega
    | timed now => exact hs
    | written now => exact hs
  stamped := h.stamped
  apart := h.apart

/-- A call that moves between phases without a row of its own. -/
theorem Disciplined.setCall (hold : ∀ ev now, s.calls i ≠ some ⟨ev, .written now⟩)
    (hc : ∀ d, c = some d → s.Alone i d.event)
    (hs : ∀ d key, c = some d → d.event.key = some key → s.Settled key d.phase) :
    (s.setCall i c).Disciplined where
  enabled := h.enabled
  alone := h.alone_setCall hc
  settled := by
    intro j d key hj hkey
    rcases setCall_eq_some.mp hj with ⟨-, hj⟩ | ⟨-, hj⟩
    · exact hs d key hj hkey
    · exact h.settled j d key hj hkey
  stamped := by
    intro key hnone
    refine h.stamped key ?_
    rintro ⟨j, ev, now, hj, hkey⟩
    have hji : j ≠ i := by
      rintro rfl
      exact hold ev now hj
    exact hnone ⟨j, ev, now, setCall_eq_some.mpr (.inr ⟨hji, hj⟩), hkey⟩
  apart := h.apart

/-- An event that passes the check finds its bucket quiet, unless a stamp is pending. -/
theorem Disciplined.quiet_of_shouldEmit {key : DedupKey} (hkey : ev.key = some key)
    (hemit : s.shouldEmit ev = true) (hnone : ¬ s.PendingStamp key) :
    s.Quiet key s.clock := by
  intro row hrow hrk
  obtain ⟨last, hlast, hle⟩ := h.stamped key hnone row hrow hrk
  have hc : ¬ s.recording.recorder.cooldown ≤ 0 := by have := h.enabled; omega
  simp only [shouldEmit, DBRecorder.shouldEmit, hc, hkey, hlast, if_false, Bool.not_eq_true',
    decide_eq_false_iff_not] at hemit
  omega

theorem Disciplined.check (hok : s.Serial (.check i ev)) :
    (s.step (.check i ev)).Disciplined := by
  simp only [step]
  split
  · next henter =>
    obtain ⟨hi, hemit⟩ := henter
    have hfree := hok hemit
    refine h.setCall (by simp [hi]) ?_ ?_
    · rintro d ⟨⟩ j c key - hj hkey
      exact hfree j c key hj hkey
    · rintro d key ⟨⟩ hkey
      refine h.quiet_of_shouldEmit hkey hemit ?_
      rintro ⟨j, ev', now, hj, hkey'⟩
      exact hfree j _ key hj hkey' hkey
  · exact h

theorem Disciplined.readClock (i : Nat) :
    (s.step (.readClock i)).Disciplined := by
  simp only [step]
  split
  · next ev hi =>
    have halone := h.alone i _ hi
    have hquiet : ∀ key, ev.key = some key → s.Quiet key s.clock :=
      fun key hkey => h.settled i _ key hi hkey
    refine h.setCall (by simp [hi]) ?_ ?_
    · rintro d ⟨⟩
      exact halone
    · rintro d key ⟨⟩ hkey
      exact hquiet key hkey
  · exact h

theorem Disciplined.fail (i : Nat) : (s.step (.fail i)).Disciplined := by
  simp only [step]
  split
  · next hi => exact h.setCall (by simp [hi]) (by simp) (by simp)
  · exact h

theorem Disciplined.write (i : Nat) : (s.step (.write i)).Disciplined := by
  simp only [step]
  split
  · next ev now hi =>
    have hpos := h.enabled
    have halone := h.alone i _ hi
    have hquiet : ∀ key, ev.key = some key → s.Quiet key now :=
      fun key hkey => h.settled i _ key hi hkey
    refine ⟨h.enabled, h.alone_setCall ?_, ?_, ?_, ?_⟩
    · rintro d ⟨⟩
      exact halone
    · intro j c key hj hkey
      rcases setCall_eq_some.mp hj with ⟨-, hj⟩ | ⟨hji, hj⟩
      · cases hj
        intro row hrow hrk
        rcases mem_append.mp hrow with hrow | hrow
        · have hq := hquiet key hkey row hrow hrk
          omega
        · rw [mem_singleton.mp hrow]
      · -- The new row belongs to another bucket than every other call.
        have hother : ev.key ≠ some key := halone j c key hji hj hkey
        have hs := h.settled j c key hj hkey
        obtain ⟨ev', phase⟩ := c
        cases phase <;>
        · intro row hrow hrk
          rcases mem_append.mp hrow with hrow | hrow
          · exact hs row hrow hrk
          · rw [mem_singleton.mp hrow] at hrk
            exact absurd hrk hother
    · intro key hnone row hrow hrk
      have hother : ev.key ≠ some key := fun hkey =>
        hnone ⟨i, ev, now, setCall_eq_some.mpr (.inl ⟨rfl, rfl⟩), hkey⟩
      rcases mem_append.mp hrow with hrow | hrow
      · refine h.stamped key ?_ row hrow hrk
        rintro ⟨j, ev', now', hj, hkey⟩
        have hji : j ≠ i := by
          rintro rfl
          cases hi.symm.trans hj
        exact hnone ⟨j, ev', now', setCall_eq_some.mpr (.inr ⟨hji, hj⟩), hkey⟩
      · rw [mem_singleton.mp hrow] at hrk
        exact absurd hrk hother
    · refine pairwise_append.mpr ⟨h.apart, pairwise_singleton _ _, ?_⟩
      intro a ha b hb key hakey hbkey
      rw [mem_singleton.mp hb] at hbkey ⊢
      exact hquiet key hbkey a ha hakey
  · exact h

end Discipline

theorem markEmitted_lastEmitted {r : DBRecorder} (h : 0 < r.cooldown) (now : Int) (ev : ChangeEvent)
    (key : DedupKey) :
    (r.markEmitted now ev).lastEmitted key =
      if ev.key = some key then some now else r.lastEmitted key := by
  have hc : ¬ r.cooldown ≤ 0 := by omega
  cases hkey : ev.key with
  | none => simp [DBRecorder.markEmitted, hc, hkey]
  | some k =>
    by_cases hk : k = key
    · simp [DBRecorder.markEmitted, hc, hkey, hk]
    · simp [DBRecorder.markEmitted, hc, hkey, hk, Ne.symm hk]

theorem Disciplined.stamp (h : s.Disciplined) (i : Nat) : (s.step (.stamp i)).Disciplined := by
  simp only [step]
  split
  · next ev now hi =>
    refine ⟨?_, h.alone_setCall (by simp), ?_, ?_, ?_⟩
    · simpa using h.enabled
    · intro j c key hj hkey
      rcases setCall_eq_some.mp hj with ⟨-, hj⟩ | ⟨-, hj⟩
      · cases hj
      · have hs := h.settled j c key hj hkey
        obtain ⟨ev', phase⟩ := c
        cases phase <;> simpa [Settled, Quiet, Recorders.setCall] using hs
    · intro key hnone row hrow hrk
      rw [markEmitted_lastEmitted h.enabled]
      split
      · next hkey => exact ⟨now, rfl, h.settled i _ key hi hkey row hrow hrk⟩
      · next hkey =>
        refine h.stamped key ?_ row hrow hrk
        rintro ⟨j, ev', now', hj, hkey'⟩
        have hji : j ≠ i := by
          rintro rfl
          cases hi.symm.trans hj
          exact hkey hkey'
        exact hnone ⟨j, ev', now', setCall_eq_some.mpr (.inr ⟨hji, hj⟩), hkey'⟩
    · simpa using h.apart
  · exact h

theorem Disciplined.step {a : RecordStep} (h : s.Disciplined) (hok : s.Serial a) :
    (s.step a).Disciplined := by
  cases a with
  | tick d => exact h.tick d
  | check i ev => exact h.check hok
  | readClock i => exact h.readClock i
  | write i => exact h.write i
  | fail i => exact h.fail i
  | stamp i => exact h.stamp i

theorem oncePerWindow_of_apart {log : List ChangeLogRow}
    (h : log.Pairwise fun a b => ∀ key, a.event.key = some key → b.event.key = some key →
      a.detectedAt + cooldown ≤ b.detectedAt) : OncePerWindow cooldown log := by
  intro key start
  have hp := h.filter fun row => row.event.key = some key ∧
    start ≤ row.detectedAt ∧ row.detectedAt < start + cooldown
  generalize hl : (log.filter fun row => row.event.key = some key ∧
    start ≤ row.detectedAt ∧ row.detectedAt < start + cooldown) = l at hp
  match l, hp with
  | [], _ => simp
  | [_], _ => simp
  | a :: b :: rest, hp =>
    have ha : a ∈ log.filter _ := hl ▸ mem_cons_self
    have hb : b ∈ log.filter _ := hl ▸ mem_cons_of_mem _ mem_cons_self
    simp only [mem_filter, decide_eq_true_eq] at ha hb
    have hab := rel_of_pairwise_cons hp mem_cons_self key ha.2.1 hb.2.1
    omega

theorem step_cooldown (s : Recorders) (a : RecordStep) :
    (s.step a).recording.recorder.cooldown = s.recording.recorder.cooldown := by
  cases a <;> simp only [step] <;> split <;> simp [setCall]

/-- Callers that are serial in each bucket never write two rows of one bucket within a cooldown. -/
theorem changeLog_oncePerWindow (cooldown clock : Int) (steps : List RecordStep)
    (hserial : Runs.Along step Serial (start cooldown clock) steps) :
    OncePerWindow cooldown ((start cooldown clock).run steps).recording.changeLog := by
  by_cases hc : 0 < cooldown
  · have hd : ((start cooldown clock).run steps).Disciplined ∧
        ((start cooldown clock).run steps).recording.recorder.cooldown = cooldown := by
      refine run_invariant (P := fun s => s.Disciplined ∧ s.recording.recorder.cooldown = cooldown)
        ?_ ⟨⟨hc, by simp [start], by simp [start], by simp [start], .nil⟩, rfl⟩ hserial
      intro s a h hok
      exact ⟨h.1.step hok, (step_cooldown s a).trans h.2⟩
    have hapart := hd.1.apart
    rw [hd.2] at hapart
    exact oncePerWindow_of_apart hapart
  · -- A window of no length holds no row.
    intro key t
    have hempty : ∀ row : ChangeLogRow, ¬ (row.event.key = some key ∧ t ≤ row.detectedAt ∧
        row.detectedAt < t + cooldown) := by
      omega
    simp [hempty]

/-- A loss and, after the cooldown, a recovery, each by a call of its own. -/
theorem serial_calls_oncePerWindow :
    OncePerWindow 600 ((start 600 0).run
      [.check 0 ⟨.deviceLost, .device, 1, none, "", none, none⟩, .readClock 0, .write 0, .stamp 0,
        .tick 600, .check 1 ⟨.deviceRecovered, .device, 1, none, "", none, none⟩, .readClock 1,
        .write 1]).recording.changeLog := by
  refine changeLog_oncePerWindow 600 0 _ ?_
  simp [Along, Serial, step, start, setCall, shouldEmit, DBRecorder.shouldEmit,
    DBRecorder.new, ChangeEvent.key, dedupKind]

/-- Two calls that both pass the check before either has stamped: both rows are written. -/
theorem concurrent_calls_both_write :
    ((start 600 0).run
      [.check 0 ⟨.deviceLost, .device, 1, none, "", none, none⟩,
        .check 1 ⟨.deviceLost, .device, 1, none, "", none, none⟩, .readClock 0, .readClock 1,
        .write 0, .write 1]).recording.changeLog =
      [⟨⟨.deviceLost, .device, 1, none, "", none, none⟩, 0⟩,
        ⟨⟨.deviceLost, .device, 1, none, "", none, none⟩, 0⟩] ∧
    ¬ OncePerWindow 600 ((start 600 0).run
      [.check 0 ⟨.deviceLost, .device, 1, none, "", none, none⟩,
        .check 1 ⟨.deviceLost, .device, 1, none, "", none, none⟩, .readClock 0, .readClock 1,
        .write 0, .write 1]).recording.changeLog := by
  refine ⟨by decide, ?_⟩
  intro h
  have := h ⟨1, .liveness⟩ 0
  revert this
  decide

end Recorders

end Steward
