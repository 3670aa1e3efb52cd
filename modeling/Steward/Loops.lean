import Mathlib.Tactic.Common

/-!
# Loops that may be left early

The body of a loop goes on, leaves the loop, or fails. What survives every step of the
body holds after the loop, however it was left. A sequence of passes that may fail is a
fold in `Except`; the rules for it are the same.
-/

namespace Loops

variable {σ ε α : Type}

inductive Outcome (σ ε : Type) where
  | next (s : σ)
  | stop (s : σ)
  | fail (e : ε)

/-- The body reached a state, to go on from or to leave the loop in. -/
def Outcome.Yields (o : Outcome σ ε) (s : σ) : Prop := o = .next s ∨ o = .stop s

def loop (body : σ → α → Outcome σ ε) : σ → List α → Except ε σ
  | s, [] => .ok s
  | s, a :: rest =>
    match body s a with
    | .next s' => loop body s' rest
    | .stop s' => .ok s'
    | .fail e => .error e

section Loop

variable {body : σ → α → Outcome σ ε} {s s' : σ}

@[simp] theorem loop_nil_ok : loop body s [] = .ok s' ↔ s' = s := by
  simp [loop, eq_comm]

theorem loop_cons_ok {a : α} {rest : List α} : loop body s (a :: rest) = .ok s' ↔
    (∃ s₁, body s a = .next s₁ ∧ loop body s₁ rest = .ok s') ∨ body s a = .stop s' := by
  rw [loop]
  cases body s a <;> simp

variable {P : σ → Prop} {xs : List α}

theorem loop_invariant (hstep : ∀ a ∈ xs, ∀ s s', P s → (body s a).Yields s' → P s') (hs : P s)
    (h : loop body s xs = .ok s') : P s' := by
  induction xs generalizing s with
  | nil => rwa [loop_nil_ok.mp h]
  | cons a rest ih =>
    rcases loop_cons_ok.mp h with ⟨s₁, hbody, hrest⟩ | hbody
    · have hnext := hstep a (by simp) s s₁ hs (.inl hbody)
      exact ih (fun b hb => hstep b (by simp [hb])) hnext hrest
    · exact hstep a (by simp) s s' hs (.inr hbody)

/-- A body that never fails from the states of an invariant. -/
theorem loop_total (hstep : ∀ a ∈ xs, ∀ s, P s → ∃ s', (body s a).Yields s' ∧ P s') (hs : P s) :
    ∃ s', loop body s xs = .ok s' ∧ P s' := by
  induction xs generalizing s with
  | nil => exact ⟨s, rfl, hs⟩
  | cons a rest ih =>
    obtain ⟨s₁, hbody | hbody, hnext⟩ := hstep a (by simp) s hs
    · obtain ⟨s', hrest, hend⟩ := ih (fun b hb => hstep b (by simp [hb])) hnext
      exact ⟨s', loop_cons_ok.mpr (.inl ⟨s₁, hbody, hrest⟩), hend⟩
    · exact ⟨s₁, loop_cons_ok.mpr (.inr hbody), hnext⟩

end Loop

/-- What stands before an occurrence of an element. -/
theorem exists_before_cons {a b : α} {rest : List α} {C : List α → Prop} :
    (∃ before after, b :: rest = before ++ a :: after ∧ C before) ↔
      (b = a ∧ C []) ∨ ∃ before after, rest = before ++ a :: after ∧ C (b :: before) := by
  constructor
  · rintro ⟨before, after, h, hC⟩
    cases before with
    | nil => exact .inl ⟨(List.cons.inj h).1, hC⟩
    | cons c before =>
      obtain ⟨rfl, hrest⟩ := List.cons.inj h
      exact .inr ⟨before, after, hrest, hC⟩
  · rintro (⟨rfl, hC⟩ | ⟨before, after, rfl, hC⟩)
    · exact ⟨[], rest, rfl, hC⟩
    · exact ⟨b :: before, after, rfl, hC⟩

/-! ## Passes one after the other -/

section Passes

variable {pass : σ → α → Except ε σ} {s s' : σ} {xs : List α} {a : α} {P : σ → Prop}

theorem passes_cons_ok {rest : List α} : (a :: rest).foldlM pass s = .ok s' ↔
    ∃ s₁, pass s a = .ok s₁ ∧ rest.foldlM pass s₁ = .ok s' := by
  rw [List.foldlM_cons]
  cases pass s a with
  | error e => simp [bind, Except.bind]
  | ok s₁ => simp [bind, Except.bind]

theorem passes_invariant (hstep : ∀ a ∈ xs, ∀ s s', P s → pass s a = .ok s' → P s') (hs : P s)
    (h : xs.foldlM pass s = .ok s') : P s' := by
  induction xs generalizing s with
  | nil => cases h; exact hs
  | cons a rest ih =>
    obtain ⟨s₁, hpass, hrest⟩ := passes_cons_ok.mp h
    have hnext := hstep a (by simp) s s₁ hs hpass
    exact ih (fun b hb => hstep b (by simp [hb])) hnext hrest

theorem passes_total (hstep : ∀ a ∈ xs, ∀ s, P s → ∃ s', pass s a = .ok s' ∧ P s') (hs : P s) :
    ∃ s', xs.foldlM pass s = .ok s' ∧ P s' := by
  induction xs generalizing s with
  | nil => exact ⟨s, rfl, hs⟩
  | cons a rest ih =>
    obtain ⟨s₁, hpass, hnext⟩ := hstep a (by simp) s hs
    obtain ⟨s', hrest, hend⟩ := ih (fun b hb => hstep b (by simp [hb])) hnext
    exact ⟨s', passes_cons_ok.mpr ⟨s₁, hpass, hrest⟩, hend⟩

/-- The pass over one element, between the passes before and after it. -/
theorem passes_split (ha : a ∈ xs) (h : xs.foldlM pass s = .ok s') :
    ∃ before after s₁ s₂, xs = before ++ a :: after ∧ before.foldlM pass s = .ok s₁ ∧
      pass s₁ a = .ok s₂ ∧ after.foldlM pass s₂ = .ok s' := by
  induction xs generalizing s with
  | nil => simp at ha
  | cons b rest ih =>
    obtain ⟨t, hpass, hrest⟩ := passes_cons_ok.mp h
    rcases List.mem_cons.mp ha with rfl | ha
    · exact ⟨[], rest, s, t, rfl, rfl, hpass, hrest⟩
    · obtain ⟨before, after, s₁, s₂, rfl, hbefore, hmid, hafter⟩ := ih ha hrest
      exact ⟨b :: before, after, s₁, s₂, rfl, passes_cons_ok.mpr ⟨t, hpass, hbefore⟩, hmid, hafter⟩

end Passes

end Loops
