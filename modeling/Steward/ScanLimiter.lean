import Mathlib.Algebra.Order.Group.Int
import Mathlib.Logic.Function.Basic
import Steward.Runs

/-!
# The scan rate limiter

`ScanRateLimiter` keeps the times of the calls it allowed, address by address, and forgets
those of a minute ago at the next call, or the whole address in a cleanup. What it has
forgotten decides nothing any more: it is an exact sliding window.
-/

namespace Steward.ScanLimiter

open Runs List

/-- `window`, in nanoseconds. -/
def minute : Int := 60000000000

/-- An address without an entry reads as one with an empty one. -/
structure ScanRateLimiter where
  limit : Nat
  windows : String → List Int

namespace ScanRateLimiter

def new (limit : Int) : ScanRateLimiter where
  limit := if limit ≤ 0 then 10 else limit.toNat
  windows := fun _ => []

/-- `Allow` at the given time: the entries of the last minute are counted and kept. -/
def allow (s : ScanRateLimiter) (ip : String) (now : Int) : Bool × ScanRateLimiter :=
  let valid := (s.windows ip).filter (now - minute < ·)
  if s.limit ≤ valid.length then
    (false, { s with windows := Function.update s.windows ip valid })
  else (true, { s with windows := Function.update s.windows ip (valid ++ [now]) })

/-- One pass of `cleanup`. -/
def cleanup (s : ScanRateLimiter) (now : Int) : ScanRateLimiter :=
  { s with
    windows := fun ip =>
      match (s.windows ip).getLast? with
      | some last => if last < now - 2 * minute then [] else s.windows ip
      | none => s.windows ip }

end ScanRateLimiter

/-- What one address has in the limiter and the times of all calls allowed to it. The limiter
has forgotten none of the last minute, and no minute has more of them than the limit. -/
structure Exact (limit : Nat) (clock : Int) (stored granted : List Int) : Prop where
  sorted : stored.Pairwise (· ≤ ·)
  past : ∀ t ∈ granted, t ≤ clock
  recent : ∀ cutoff, clock - minute ≤ cutoff →
    stored.filter (cutoff < ·) = granted.filter (cutoff < ·)
  bounded : ∀ span : Int → Bool, (∀ x y, span x = true → span y = true → y - minute < x) →
    granted.countP span ≤ limit

namespace Exact

variable {limit : Nat} {clock now : Int} {stored granted : List Int}

theorem later (h : Exact limit clock stored granted) (hnow : clock ≤ now) :
    Exact limit now stored granted where
  sorted := h.sorted
  past t ht := (h.past t ht).trans hnow
  recent cutoff hcutoff := h.recent cutoff (by omega)
  bounded := h.bounded

/-- The entries that a call prunes are not read again. -/
theorem pruned (h : Exact limit now stored granted) :
    Exact limit now (stored.filter (now - minute < ·)) granted where
  sorted := h.sorted.filter _
  past := h.past
  recent cutoff hcutoff := by
    rw [← h.recent cutoff hcutoff, filter_filter]
    refine filter_congr fun t _ => ?_
    simp only [Bool.and_eq_left_iff_imp, decide_eq_true_eq]
    omega
  bounded := h.bounded

theorem allowed (h : Exact limit now stored granted)
    (hroom : (stored.filter (now - minute < ·)).length < limit) :
    Exact limit now (stored.filter (now - minute < ·) ++ [now]) (granted ++ [now]) where
  sorted := by
    refine pairwise_append.mpr ⟨h.pruned.sorted, pairwise_singleton _ _, ?_⟩
    intro t ht u hu
    rw [h.recent _ le_rfl] at ht
    rw [mem_singleton.mp hu]
    exact h.past t (mem_filter.mp ht).1
  past t ht := by
    rcases mem_append.mp ht with hold | hnew
    · exact h.past t hold
    · exact (mem_singleton.mp hnew).le
  recent cutoff hcutoff := by
    rw [filter_append, filter_append, h.pruned.recent cutoff hcutoff]
  bounded span hspan := by
    rw [countP_append, countP_singleton]
    split
    case isTrue hin =>
      -- the other calls of the span are less than a minute older than this one
      have hcount : granted.countP span ≤ granted.countP (now - minute < ·) :=
        countP_mono_left fun t _ ht => decide_eq_true (hspan t now ht hin)
      rw [h.recent _ le_rfl, ← countP_eq_length_filter] at hroom
      omega
    case isFalse => exact h.bounded span hspan

theorem forgotten (h : Exact limit now stored granted) {last : Int}
    (hlast : stored.getLast? = some last) (hidle : last < now - 2 * minute) :
    Exact limit now [] granted where
  sorted := .nil
  past := h.past
  recent cutoff hcutoff := by
    rw [← h.recent cutoff hcutoff, filter_nil, eq_comm, filter_eq_nil_iff]
    intro t ht
    obtain ⟨init, rfl⟩ := getLast?_eq_some_iff.mp hlast
    have hle : t ≤ last := by
      rcases mem_append.mp ht with hinit | heq
      · exact (pairwise_append.mp h.sorted).2.2 t hinit last (mem_singleton_self _)
      · exact (mem_singleton.mp heq).le
    simp only [minute, decide_eq_true_eq] at hidle hcutoff ⊢
    omega
  bounded := h.bounded

end Exact

inductive Event where
  | allow (ip : String) (now : Int)
  | cleanup (now : Int)

def Event.time : Event → Int
  | .allow _ now => now
  | .cleanup now => now

/-- The limiter, the times of the calls it has allowed and the time of the last event. -/
structure Log where
  limiter : ScanRateLimiter
  granted : String → List Int
  clock : Int

namespace Log

def start (limit clock : Int) : Log := ⟨.new limit, fun _ => [], clock⟩

def step (s : Log) : Event → Log
  | .allow ip now =>
    match s.limiter.allow ip now with
    | (true, limiter) => ⟨limiter, Function.update s.granted ip (s.granted ip ++ [now]), now⟩
    | (false, limiter) => ⟨limiter, s.granted, now⟩
  | .cleanup now => ⟨s.limiter.cleanup now, s.granted, now⟩

def InTime (s : Log) (e : Event) : Prop := s.clock ≤ e.time

instance (s : Log) (e : Event) : Decidable (s.InTime e) := inferInstanceAs (Decidable (_ ≤ _))

/-- Every address is exact for the limit that `NewScanRateLimiter` settled on. -/
def Sliding (limit : Nat) (s : Log) : Prop :=
  s.limiter.limit = limit ∧ ∀ ip, Exact limit s.clock (s.limiter.windows ip) (s.granted ip)

theorem Sliding.step {limit : Nat} {s : Log} {e : Event} (h : s.Sliding limit)
    (hnow : s.InTime e) : (s.step e).Sliding limit := by
  obtain ⟨hlimit, h⟩ := h
  have hlater := fun ip => (h ip).later hnow
  cases e with
  | allow ip now =>
    simp only [Event.time] at hlater
    by_cases hfull : s.limiter.limit ≤ ((s.limiter.windows ip).filter (now - minute < ·)).length
    · simp only [Log.step, ScanRateLimiter.allow, if_pos hfull]
      refine ⟨hlimit, fun other => ?_⟩
      by_cases hip : other = ip
      · subst hip
        simpa using (hlater other).pruned
      · simpa [hip] using hlater other
    · simp only [Log.step, ScanRateLimiter.allow, if_neg hfull]
      refine ⟨hlimit, fun other => ?_⟩
      by_cases hip : other = ip
      · subst hip
        simpa using (hlater other).allowed (by omega)
      · simpa [hip] using hlater other
  | cleanup now =>
    refine ⟨hlimit, fun ip => ?_⟩
    simp only [Log.step, ScanRateLimiter.cleanup]
    split
    case h_1 last hlast =>
      split
      case isTrue hidle => exact (hlater ip).forgotten hlast hidle
      case isFalse => exact hlater ip
    case h_2 => exact hlater ip

theorem sliding_start (limit clock : Int) :
    (start limit clock).Sliding (ScanRateLimiter.new limit).limit :=
  ⟨rfl, fun _ => ⟨.nil, by simp [start], fun _ _ => rfl, by simp [start]⟩⟩

end Log

/-- The limiter is an exact sliding window, whatever cleanups come between the calls: no minute
has more allowed calls of an address than the limit, and a call is denied only when the minute
up to it has that many. -/
theorem exact_sliding_window (limit clock : Int) (events : List Event)
    (hclock : Along Log.step Log.InTime (Log.start limit clock) events) :
    let s := run Log.step (Log.start limit clock) events
    let max := if limit ≤ 0 then 10 else limit.toNat
    (∀ ip a, (s.granted ip).countP (fun t => a ≤ t ∧ t < a + minute) ≤ max ∧
      (s.granted ip).countP (fun t => a < t ∧ t ≤ a + minute) ≤ max) ∧
    ∀ ip now, s.clock ≤ now → (s.limiter.allow ip now).1 = false →
      max ≤ (s.granted ip).countP (fun t => now - minute < t ∧ t ≤ now) := by
  intro s max
  have hs : s.Sliding max :=
    run_invariant (fun _ _ h hnow => h.step hnow) (Log.sliding_start limit clock) hclock
  refine ⟨fun ip a => ⟨?_, ?_⟩, fun ip now hnow hdenied => ?_⟩
  · exact (hs.2 ip).bounded _ fun x y hx hy => by simp at hx hy; omega
  · exact (hs.2 ip).bounded _ fun x y hx hy => by simp at hx hy; omega
  · have h := (hs.2 ip).later hnow
    have hfull : max ≤ ((s.limiter.windows ip).filter (now - minute < ·)).length := by
      by_contra hroom
      simp [ScanRateLimiter.allow, hs.1, hroom] at hdenied
    rw [h.recent _ le_rfl, ← countP_eq_length_filter] at hfull
    refine hfull.trans (countP_mono_left fun t ht hrecent => ?_)
    exact decide_eq_true ⟨of_decide_eq_true hrecent, h.past t ht⟩

/-- One call a minute: the second is denied, and the third comes when the cleanup has run. -/
theorem one_scan_a_minute :
    let events : List Event := [.allow "10.0.0.9" 0, .allow "10.0.0.9" 1,
      .cleanup 130000000000, .allow "10.0.0.9" 130000000000]
    let s := run Log.step (Log.start 1 0) events
    Along Log.step Log.InTime (Log.start 1 0) events ∧
      s.granted "10.0.0.9" = [0, 130000000000] ∧
      ∀ a, (s.granted "10.0.0.9").countP (fun t => a ≤ t ∧ t < a + minute) ≤ 1 :=
  ⟨by decide, by decide, fun a => ((exact_sliding_window 1 0 _ (by decide)).1 "10.0.0.9" a).1⟩

end Steward.ScanLimiter
