import Steward.Runs

/-!
# The heartbeat store

Probe results and liveness samples wait in two channels for one loop, which gathers them in
batches and commits a batch when it is full, at every tick, and in a final drain once its context
is cancelled. A commit under a cancelled context fails, and the loop forgets the batch. Between
the cancellation and the drain the loop may still choose a tick or a row.
-/

namespace Steward.HeartbeatStore

open Runs

variable {α β : Type}

/-- The rows of one kind: accepted by the channel, waiting in it, in the batch, committed. -/
structure Lane (α : Type) where
  accepted : List α := []
  ch : List α := []
  batch : List α := []
  written : List α := []
  deriving DecidableEq

def flushBatchSize : Nat := 200

def channelBuffer : Nat := 1024

namespace Lane

/-- `Enqueue` and `EnqueueLiveness`: a full channel drops the row. -/
def enqueue (l : Lane α) (r : α) : Lane α :=
  if l.ch.length < channelBuffer then
    { l with accepted := l.accepted ++ [r], ch := l.ch ++ [r] }
  else l

/-- The commit of the batch, which is emptied whether it succeeds or not. -/
def flush (cancelled : Bool) (l : Lane α) : Lane α :=
  { l with batch := [], written := if cancelled then l.written else l.written ++ l.batch }

/-- One row from the channel into the batch. -/
def receive (cancelled : Bool) (l : Lane α) : Lane α :=
  match l.ch with
  | [] => l
  | r :: rest =>
    let l := { l with ch := rest, batch := l.batch ++ [r] }
    if flushBatchSize ≤ l.batch.length then l.flush cancelled else l

def drainLoop (l : Lane α) : Nat → Lane α
  | 0 => l
  | n + 1 => (l.receive false).drainLoop n

/-- The final drain, under a context of its own. -/
def drain (l : Lane α) : Lane α := (l.drainLoop l.ch.length).flush false

/-- Every accepted row is committed, in the batch or in the channel, in this order. -/
def Kept (l : Lane α) : Prop := l.accepted = l.written ++ (l.batch ++ l.ch)

variable {l : Lane α}

theorem Kept.enqueue (h : l.Kept) (r : α) : (l.enqueue r).Kept := by
  unfold Lane.enqueue
  split
  · unfold Kept at h ⊢
    simp only [h, List.append_assoc]
  · exact h

theorem Kept.flush (h : l.Kept) {cancelled : Bool} (hc : cancelled = true → l.batch = []) :
    (l.flush cancelled).Kept := by
  cases cancelled with
  | false => simpa [Kept, Lane.flush] using h
  | true => simpa [Kept, Lane.flush, hc rfl] using h

theorem Kept.receive (h : l.Kept) {cancelled : Bool}
    (hc : cancelled = true → l.batch.length + 1 < flushBatchSize) : (l.receive cancelled).Kept := by
  unfold Lane.receive
  split
  · exact h
  · next r rest hch =>
    have hmoved : Kept { l with ch := rest, batch := l.batch ++ [r] } := by
      simpa [Kept, hch] using h
    simp only
    split
    · next hfull =>
      refine hmoved.flush fun hcancelled => ?_
      have hroom := hc hcancelled
      simp only [List.length_append, List.length_singleton] at hfull
      omega
    · exact hmoved

theorem receive_ch (cancelled : Bool) (l : Lane α) :
    (l.receive cancelled).ch = l.ch.tail ∧ (l.receive cancelled).accepted = l.accepted := by
  unfold Lane.receive
  split
  · next hch => simp [hch]
  · next r rest hch =>
    simp only [hch, List.tail_cons]
    split <;> exact ⟨rfl, rfl⟩

theorem Kept.drainLoop (h : l.Kept) {n : Nat} (hn : l.ch.length = n) :
    (l.drainLoop n).Kept ∧ (l.drainLoop n).ch = [] ∧ (l.drainLoop n).accepted = l.accepted := by
  induction n generalizing l with
  | zero => exact ⟨h, List.length_eq_zero_iff.mp hn, rfl⟩
  | succ n ih =>
    obtain ⟨hch, hsame⟩ := receive_ch false l
    rw [← hsame]
    exact ih (h.receive nofun) (by rw [hch, List.length_tail, hn]; rfl)

theorem Kept.drain (h : l.Kept) : l.drain.written = l.drain.accepted := by
  obtain ⟨hkept, hch, -⟩ := h.drainLoop rfl
  simpa [Kept, hch, Lane.drain, Lane.flush] using hkept.symm

end Lane

structure Store (α β : Type) where
  results : Lane α := {}
  liveness : Lane β := {}
  cancelled : Bool := false
  finished : Bool := false
  deriving DecidableEq

/-- Calls of others, and the choices of the loop: a row from either channel, a tick, and the
cancelled context. -/
inductive Event (α β : Type) where
  | enqueue (r : α) | enqueueLiveness (r : β) | close
  | result | sample | tick | done

variable (s : Store α β)

def step : Event α β → Store α β
  | .enqueue r => { s with results := s.results.enqueue r }
  | .enqueueLiveness r => { s with liveness := s.liveness.enqueue r }
  | .close => { s with cancelled := true }
  | .result =>
    if s.finished then s else { s with results := s.results.receive s.cancelled }
  | .sample =>
    if s.finished then s else { s with liveness := s.liveness.receive s.cancelled }
  | .tick =>
    if s.finished then s
    else { s with
      results := s.results.flush s.cancelled
      liveness := s.liveness.flush s.cancelled }
  | .done =>
    if s.finished || !s.cancelled then s
    else { s with results := s.results.drain, liveness := s.liveness.drain, finished := true }

/-- No call is made once the store is being closed. -/
def CallsBefore : Event α β → Prop
  | .enqueue _ | .enqueueLiveness _ => s.cancelled = false
  | _ => True

/-- The loop commits nothing under its cancelled context. -/
def NoLateCommit : Event α β → Prop
  | .result => s.cancelled = true → s.results.batch.length + 1 < flushBatchSize
  | .sample => s.cancelled = true → s.liveness.batch.length + 1 < flushBatchSize
  | .tick => s.cancelled = true → s.results.batch = [] ∧ s.liveness.batch = []
  | _ => True

/-- While the loop runs nothing is lost, and once it has ended everything is committed. -/
structure Safe : Prop where
  running : s.finished = false → s.results.Kept ∧ s.liveness.Kept
  ended : s.finished = true → s.cancelled = true ∧ s.results.written = s.results.accepted ∧
    s.liveness.written = s.liveness.accepted

theorem Safe.step {s : Store α β} {e : Event α β} (h : Safe s)
    (hok : CallsBefore s e ∧ NoLateCommit s e) : Safe (step s e) := by
  cases hf : s.finished with
  | true =>
    have hc := (h.ended hf).1
    cases e with
    | enqueue r | enqueueLiveness r =>
      exact absurd hc (by simp [show s.cancelled = false from hok.1])
    | close => exact ⟨fun hrun => absurd (hf.symm.trans hrun) nofun, fun _ => ⟨rfl, (h.ended hf).2⟩⟩
    | _ => simpa [HeartbeatStore.step, hf] using h
  | false =>
    obtain ⟨hr, hl⟩ := h.running hf
    have still : ∀ {t : Store α β}, t.finished = false → t.results.Kept → t.liveness.Kept →
        Safe t :=
      fun ht hr hl => ⟨fun _ => ⟨hr, hl⟩, fun hend => absurd ht (by simp [hend])⟩
    cases e with
    | enqueue r => exact still hf (hr.enqueue r) hl
    | enqueueLiveness r => exact still hf hr (hl.enqueue r)
    | close => exact still hf hr hl
    | result =>
      simp only [HeartbeatStore.step, hf, Bool.false_eq_true, if_false]
      exact still rfl (hr.receive hok.2) hl
    | sample =>
      simp only [HeartbeatStore.step, hf, Bool.false_eq_true, if_false]
      exact still rfl hr (hl.receive hok.2)
    | tick =>
      simp only [HeartbeatStore.step, hf, Bool.false_eq_true, if_false]
      exact still rfl (hr.flush fun hc => (hok.2 hc).1) (hl.flush fun hc => (hok.2 hc).2)
    | done =>
      simp only [HeartbeatStore.step, hf, Bool.false_or]
      split
      · exact h
      · next hc => exact ⟨nofun, fun _ => ⟨by simpa using hc, hr.drain, hl.drain⟩⟩

/-- When `Close` has returned, every accepted row has been committed once, in the order of the
calls, if the loop commits nothing between the cancellation and its final drain. -/
theorem accepted_written (events : List (Event α β))
    (hcalls : Along step CallsBefore {} events) (hlate : Along step NoLateCommit {} events)
    (hclosed : (run step {} events).finished = true) :
    (run step {} events).results.written = (run step {} events).results.accepted ∧
      (run step {} events).liveness.written = (run step {} events).liveness.accepted := by
  have hstart : Safe ({} : Store α β) := ⟨fun _ => ⟨rfl, rfl⟩, nofun⟩
  have hsafe := run_invariant (P := Safe) (fun s e h hok => h.step hok) hstart
    (along_and hcalls hlate)
  exact (hsafe.ended hclosed).2

theorem prompt_close_written :
    (run step ({} : Store Nat Nat) [.enqueue 7, .result, .close, .done]).results.written = [7] :=
  (accepted_written (α := Nat) (β := Nat) [.enqueue 7, .result, .close, .done]
    (by simp [Along, CallsBefore]) (by simp [Along, NoLateCommit, step]) (by decide)).1.trans
    (by decide)

/-- A tick that the loop chooses after the cancellation loses the batch. -/
theorem late_tick_loses :
    let s := run step ({} : Store Nat Nat) [.enqueue 7, .result, .close, .tick, .done]
    s.finished = true ∧ s.results.accepted = [7] ∧ s.results.written = [] := by
  decide

end Steward.HeartbeatStore
