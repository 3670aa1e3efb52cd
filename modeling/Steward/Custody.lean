import Mathlib.Data.List.Perm.Basic
import Steward.Runs

/-!
# Items in custody

A machine takes items into custody and lets them go again, delivered or lost.
Its books balance when every step accounts for what it held before and after.
A machine that takes an item only while it holds none delivers in order.
-/

namespace Custody

open Runs List

variable {σ α β : Type}

/-- The items that one step takes, delivers and loses. -/
structure Flow (β : Type) where
  formed : List β := []
  delivered : List β := []
  lost : List β := []

variable {step : σ → α → σ} {held : σ → List β} {flow : σ → α → Flow β}

/-- Every item held or taken is held, delivered or lost after the step. -/
def Balances (step : σ → α → σ) (held : σ → List β) (flow : σ → α → Flow β) : Prop :=
  ∀ s a, (held s ++ (flow s a).formed).Perm
    (held (step s a) ++ ((flow s a).delivered ++ (flow s a).lost))

/-- The books of some of the items, seen through a partial function. -/
def Flow.filterMap {γ : Type} (f : β → Option γ) (l : Flow β) : Flow γ where
  formed := l.formed.filterMap f
  delivered := l.delivered.filterMap f
  lost := l.lost.filterMap f

theorem Balances.filterMap {γ : Type} (hb : Balances step held flow) (f : β → Option γ) :
    Balances step (fun s => (held s).filterMap f) (fun s a => (flow s a).filterMap f) := by
  intro s a
  have hbook := (hb s a).filterMap f
  rwa [filterMap_append, filterMap_append, filterMap_append] at hbook

/-- What the steps of a run yield, in order. -/
def collect (step : σ → α → σ) (yield : σ → α → List β) : σ → List α → List β
  | _, [] => []
  | s, a :: rest => yield s a ++ collect step yield (step s a) rest

/-- The books of a whole run. -/
theorem Balances.run (hb : Balances step held flow) (s : σ) (events : List α) :
    (held s ++ collect step (fun s a => (flow s a).formed) s events).Perm
      (held (Runs.run step s events) ++ (collect step (fun s a => (flow s a).delivered) s events ++
        collect step (fun s a => (flow s a).lost) s events)) := by
  classical
  rw [perm_iff_count]
  intro b
  induction events generalizing s with
  | nil => simp [collect]
  | cons a rest ih =>
    have hbook := (hb s a).count_eq b
    have hrest := ih (step s a)
    simp only [collect, run_cons, count_append] at hbook hrest ⊢
    omega

variable {s : σ} {events : List α}

theorem collect_eq_nil_iff {yield : σ → α → List β} :
    collect step yield s events = [] ↔ Along step (fun s a => yield s a = []) s events := by
  induction events generalizing s with
  | nil => simp [collect, Along]
  | cons a rest ih => simp only [collect, Along, append_eq_nil_iff, ih]

/-- What is held and what was delivered is all there was when no step lost an item. -/
theorem Balances.kept_iff (hb : Balances step held flow) (s : σ) (events : List α) :
    (held s ++ collect step (fun s a => (flow s a).formed) s events).Perm
        (held (Runs.run step s events) ++ collect step (fun s a => (flow s a).delivered) s events) ↔
      Along step (fun s a => (flow s a).lost = []) s events := by
  have hbooks := hb.run s events
  rw [← collect_eq_nil_iff]
  constructor
  · intro hkept
    have hlen := (hkept.symm.trans hbooks).length_eq
    simp only [length_append] at hlen
    exact eq_nil_of_length_eq_zero (by omega)
  · intro hnone
    rwa [hnone, append_nil] at hbooks

/-- At every moment of a run, what is delivered later is held then or taken later. -/
def DeliversHeld (step : σ → α → σ) (held : σ → List β) (flow : σ → α → Flow β) (s : σ)
    (events : List α) : Prop :=
  ∀ before after, events = before ++ after →
    (collect step (fun s a => (flow s a).delivered) (Runs.run step s before) after).Subperm
      (held (Runs.run step s before) ++
        collect step (fun s a => (flow s a).formed) (Runs.run step s before) after)

theorem Balances.deliversHeld (hb : Balances step held flow) (s : σ) (events : List α) :
    DeliversHeld step held flow s events := by
  intro before after _
  have hbooks := hb.run (Runs.run step s before) after
  refine Subperm.trans (Sublist.subperm ?_) hbooks.symm.subperm
  exact (sublist_append_left _ _).trans (sublist_append_right _ _)

/-- The items of a run are delivered in the order in which they were taken. -/
def InOrder (step : σ → α → σ) (flow : σ → α → Flow β) (s : σ) (events : List α) : Prop :=
  (collect step (fun s a => (flow s a).delivered) s events).Sublist
    (collect step (fun s a => (flow s a).formed) s events)

/-- At most one item is in custody once a step has taken its own. -/
def OneAtATime (held : σ → List β) (flow : σ → α → Flow β) (s : σ) (a : α) : Prop :=
  (flow s a).formed ≠ [] → held s = [] ∧ (flow s a).formed.length = 1

instance [DecidableEq β] (held : σ → List β) (flow : σ → α → Flow β) (s : σ) (a : α) :
    Decidable (OneAtATime held flow s a) :=
  inferInstanceAs (Decidable (_ → _))

instance [DecidableEq β] (step : σ → α → σ) (flow : σ → α → Flow β) (s : σ) (events : List α) :
    Decidable (InOrder step flow s events) :=
  inferInstanceAs (Decidable (List.Sublist _ _))

theorem delivered_sublist (hb : Balances step held flow) (hs : (held s).length ≤ 1)
    (hone : Along step (OneAtATime held flow) s events) :
    (collect step (fun s a => (flow s a).delivered) s events).Sublist
      (held s ++ collect step (fun s a => (flow s a).formed) s events) := by
  induction events generalizing s with
  | nil => simp [collect]
  | cons a rest ih =>
    obtain ⟨hform, hrest⟩ := hone
    have hbook := hb s a
    have htotal : (held s ++ (flow s a).formed).length ≤ 1 := by
      by_cases hnil : (flow s a).formed = []
      · simpa [hnil] using hs
      · obtain ⟨hempty, hlen⟩ := hform hnil
        simp [hempty, hlen]
    -- Lists of at most one item that are permutations of each other are equal.
    have heq : held s ++ (flow s a).formed =
        held (step s a) ++ ((flow s a).delivered ++ (flow s a).lost) := by
      match hlist : held s ++ (flow s a).formed with
      | [] => rw [hlist] at hbook; exact hbook.nil_eq
      | [b] => rw [hlist] at hbook; exact singleton_perm.mp hbook
      | b :: c :: more => simp [hlist] at htotal
    have hheld : (held (step s a)).length ≤ 1 := by
      have hlen := congrArg length heq
      simp only [length_append] at hlen htotal
      omega
    have htail := ih hheld hrest
    simp only [collect]
    rw [← append_assoc, heq]
    cases hdel : (flow s a).delivered with
    | nil =>
      simp only [nil_append, append_assoc]
      refine htail.trans ((Sublist.refl _).append ?_)
      exact sublist_append_right _ _
    | cons b more =>
      have hnone : held (step s a) = [] := by
        have hlen := congrArg length heq
        simp only [length_append, hdel, length_cons] at hlen htotal
        exact eq_nil_of_length_eq_zero (by omega)
      rw [hnone, nil_append] at htail ⊢
      rw [append_assoc]
      refine (Sublist.refl _).append (htail.trans ?_)
      exact sublist_append_right _ _

/-- A machine that takes an item only while it holds none delivers in order. -/
theorem inOrder_of_oneAtATime (hb : Balances step held flow) (hs : held s = [])
    (hone : Along step (OneAtATime held flow) s events) : InOrder step flow s events := by
  have h := delivered_sublist hb (by simp [hs]) hone
  rwa [hs, nil_append] at h

end Custody
