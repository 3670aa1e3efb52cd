import Mathlib.Tactic.Common

/-!
# Runs and interleavings

Runs of a step function over a list of events, conditions on the steps of a run,
the invariant rule, and the interleavings of two sequences of events.
-/

namespace Runs

variable {σ α : Type} (step : σ → α → σ) (s : σ)

def run (events : List α) : σ := events.foldl step s

@[simp] theorem run_nil : run step s [] = s := rfl

@[simp] theorem run_cons (a : α) (rest : List α) :
    run step s (a :: rest) = run step (step s a) rest := rfl

theorem run_append (es fs : List α) :
    run step s (es ++ fs) = run step (run step s es) fs :=
  List.foldl_append

/-- Every event of the run meets a condition in the state it arrives in. -/
def Along (step : σ → α → σ) (ok : σ → α → Prop) : σ → List α → Prop
  | _, [] => True
  | s, a :: rest => ok s a ∧ Along step ok (step s a) rest

instance decidableAlong (step : σ → α → σ) (ok : σ → α → Prop) [∀ s a, Decidable (ok s a)] :
    (s : σ) → (events : List α) → Decidable (Along step ok s events)
  | _, [] => isTrue trivial
  | s, a :: rest => @instDecidableAnd _ _ _ (decidableAlong step ok (step s a) rest)

/-- A condition on the events alone. -/
theorem along_of_forall (step : σ → α → σ) {ok : α → Prop} (s : σ) (events : List α)
    (h : ∀ a ∈ events, ok a) :
    Along step (fun _ => ok) s events := by
  induction events generalizing s with
  | nil => trivial
  | cons a rest ih =>
    have ha := h a (by simp)
    have hrest := ih (step s a) (fun b hb => h b (by simp [hb]))
    exact ⟨ha, hrest⟩

variable {step : σ → α → σ} {P : σ → Prop} {s : σ} {events : List α} {ok ok' C : σ → α → Prop}
  {Q : σ → Prop} {τ β : Type} {mark : σ → α → Bool} {a : α}

/-- What holds at the start and survives every step that meets the condition holds at the end. -/
theorem run_invariant (hstep : ∀ s a, P s → C s a → P (step s a)) (hs : P s)
    (hok : Along step C s events) : P (run step s events) := by
  induction events generalizing s with
  | nil => exact hs
  | cons a rest ih =>
    have hnext := hstep s a hs hok.1
    exact ih hnext hok.2

/-- What holds at the start and survives every step holds at the end. -/
theorem run_preserves (hstep : ∀ s a, P s → P (step s a)) (hs : P s) : P (run step s events) :=
  run_invariant (fun s a h _ => hstep s a h) hs
    (along_of_forall step s events fun _ _ => trivial)

/-- What the first event of a kind establishes and every later event keeps holds at the end. -/
theorem run_of_hit {H : α → Prop}
    (hP : ∀ a ∈ events, ∀ s, P s → (H a → Q (step s a)) ∧ (¬ H a → P (step s a)))
    (hQ : ∀ a ∈ events, ∀ s, Q s → Q (step s a)) (hs : P s) (hhit : ∃ a ∈ events, H a) :
    Q (run step s events) := by
  have keep : ∀ es : List α, (∀ a ∈ es, ∀ s, Q s → Q (step s a)) →
      ∀ s, Q s → Q (run step s es) := by
    intro es
    induction es with
    | nil => exact fun _ s h => h
    | cons a rest ih =>
      intro hall s h
      exact ih (fun b hb => hall b (by simp [hb])) _ (hall a (by simp) s h)
  induction events generalizing s with
  | nil => simp at hhit
  | cons a rest ih =>
    have hrest : ∀ b ∈ rest, ∀ s, Q s → Q (step s b) := fun b hb => hQ b (by simp [hb])
    by_cases ha : H a
    · exact keep rest hrest _ ((hP a (by simp) s hs).1 ha)
    · obtain ⟨b, hb, hbhit⟩ := hhit
      have hb' : b ∈ rest := by
        rcases List.mem_cons.mp hb with rfl | hb
        · exact absurd hbhit ha
        · exact hb
      exact ih (fun c hc => hP c (by simp [hc])) hrest ((hP a (by simp) s hs).2 ha) ⟨b, hb', hbhit⟩

/-- A condition that an invariant yields at every event holds along the run. -/
theorem along_of_invariant (hstep : ∀ s, P s → ∀ a ∈ events, ok s a ∧ P (step s a)) (hs : P s) :
    Along step ok s events := by
  induction events generalizing s with
  | nil => trivial
  | cons a rest ih =>
    obtain ⟨hok, hnext⟩ := hstep s hs a (by simp)
    exact ⟨hok, ih (fun t ht b hb => hstep t ht b (by simp [hb])) hnext⟩

/-- A condition along the run that yields another one through an invariant. -/
theorem along_of_along (hstep : ∀ s a, P s → ok s a → ok' s a ∧ P (step s a)) (hs : P s)
    (h : Along step ok s events) : Along step ok' s events := by
  induction events generalizing s with
  | nil => trivial
  | cons a rest ih =>
    obtain ⟨hok, hnext⟩ := hstep s a hs h.1
    exact ⟨hok, ih hnext h.2⟩

theorem along_congr (h : ∀ s a, ok s a ↔ ok' s a) (s : σ) (events : List α) :
    Along step ok s events ↔ Along step ok' s events := by
  induction events generalizing s with
  | nil => rfl
  | cons a rest ih => exact and_congr (h s a) (ih (step s a))

theorem along_and (h : Along step ok s events) (h' : Along step ok' s events) :
    Along step (fun s a => ok s a ∧ ok' s a) s events := by
  induction events generalizing s with
  | nil => trivial
  | cons a rest ih => exact ⟨⟨h.1, h'.1⟩, ih h.2 h'.2⟩

theorem along_append {es fs : List α} :
    Along step ok s (es ++ fs) ↔ Along step ok s es ∧ Along step ok (run step s es) fs := by
  induction es generalizing s with
  | nil => simp [Along]
  | cons a rest ih =>
    rw [List.cons_append, run_cons]
    simp only [Along, ih, and_assoc]

/-- Two conditions that agree under an invariant which the first one keeps. -/
theorem along_iff (h : ∀ s a, P s → C s a → (ok s a ↔ ok' s a) ∧ (ok s a → P (step s a)))
    (hs : P s) (hC : Along step C s events) :
    Along step ok s events ↔ Along step ok' s events := by
  induction events generalizing s with
  | nil => rfl
  | cons a rest ih =>
    obtain ⟨hiff, hnext⟩ := h s a hs hC.1
    constructor
    · rintro ⟨ha, hrest⟩
      exact ⟨hiff.mp ha, (ih (hnext ha) hC.2).mp hrest⟩
    · rintro ⟨ha, hrest⟩
      exact ⟨hiff.mpr ha, (ih (hnext (hiff.mpr ha)) hC.2).mpr hrest⟩

/-- A map of states that commutes with the step commutes with runs. -/
theorem run_map {step' : τ → α → τ} {f : σ → τ} (h : ∀ s a, f (step s a) = step' (f s) a) (s : σ)
    (events : List α) : f (run step s events) = run step' (f s) events := by
  induction events generalizing s with
  | nil => rfl
  | cons a rest ih => rw [run_cons, run_cons, ih, h]

theorem along_map {step' : τ → α → τ} {f : σ → τ} {ok' : τ → α → Prop}
    (h : ∀ s a, f (step s a) = step' (f s) a) (hok : ∀ s a, ok s a ↔ ok' (f s) a) (s : σ)
    (events : List α) : Along step ok s events ↔ Along step' ok' (f s) events := by
  induction events generalizing s with
  | nil => rfl
  | cons a rest ih =>
    have hrest := ih (step s a)
    rw [h] at hrest
    exact and_congr (hok s a) hrest

/-- How many events of the run are marked in the state they arrive in. -/
def count (step : σ → α → σ) (mark : σ → α → Bool) : σ → List α → Nat
  | _, [] => 0
  | s, a :: rest => (if mark s a then 1 else 0) + count step mark (step s a) rest

theorem count_eq_zero (hstep : ∀ s a, P s → ok s a → mark s a = false ∧ P (step s a)) (hs : P s)
    (hok : Along step ok s events) : count step mark s events = 0 := by
  induction events generalizing s with
  | nil => rfl
  | cons a rest ih =>
    obtain ⟨hmark, hnext⟩ := hstep s a hs hok.1
    have hrest := ih hnext hok.2
    simp [count, hmark, hrest]

/-- A marked event that leads from `P` to `Q`, under which none is marked, happens at most once. -/
theorem count_le_one (hP : ∀ s a, P s → ok s a → (mark s a = false ∧ P (step s a)) ∨ Q (step s a))
    (hQ : ∀ s a, Q s → ok s a → mark s a = false ∧ Q (step s a)) (hs : P s)
    (hok : Along step ok s events) : count step mark s events ≤ 1 := by
  induction events generalizing s with
  | nil => simp [count]
  | cons a rest ih =>
    rcases hP s a hs hok.1 with ⟨hmark, hnext⟩ | hnext
    · have hrest := ih hnext hok.2
      simpa [count, hmark] using hrest
    · have hrest := count_eq_zero hQ hnext hok.2
      simp only [count, hrest]
      split <;> omega

/-- The states of an endless run. -/
def stateAt (step : σ → α → σ) (s : σ) (events : Nat → α) : Nat → σ
  | 0 => s
  | n + 1 => step (stateAt step s events n) (events n)

/-- The events of a run, each with what is observed when it arrives. -/
def trace {β : Type} (step : σ → α → σ) (see : σ → α → β) : σ → List α → List (α × β)
  | _, [] => []
  | s, a :: rest => (a, see s a) :: trace step see (step s a) rest

/-- An entry of a trace is observed in the state that the events before it lead to. -/
theorem trace_split {see : σ → α → β} {before after : List (α × β)} {b : β}
    (h : trace step see s events = before ++ (a, b) :: after) :
    ∃ es fs, events = es ++ a :: fs ∧ before = trace step see s es ∧
      b = see (run step s es) a ∧ after = trace step see (step (run step s es) a) fs := by
  induction before generalizing s events with
  | nil =>
    cases events with
    | nil => cases h
    | cons e rest =>
      obtain ⟨⟨rfl, rfl⟩, rfl⟩ := h
      exact ⟨[], rest, rfl, rfl, rfl, rfl⟩
  | cons p before ih =>
    cases events with
    | nil => cases h
    | cons e rest =>
      simp only [trace, List.cons_append, List.cons.injEq] at h
      obtain ⟨rfl, hrest⟩ := h
      obtain ⟨es, fs, rfl, hbefore, hb, hafter⟩ := ih hrest
      exact ⟨e :: es, fs, rfl, by rw [hbefore]; rfl, hb, hafter⟩

theorem trace_fst (step : σ → α → σ) (see : σ → α → β) (s : σ) (events : List α) :
    (trace step see s events).map Prod.fst = events := by
  induction events generalizing s with
  | nil => rfl
  | cons a rest ih => simp only [trace, List.map_cons, ih]

/-- The third list is an interleaving of the first two. -/
inductive Interleaving : List α → List α → List α → Prop where
  | done : Interleaving [] [] []
  | left {a : α} {as bs events : List α} (rest : Interleaving as bs events) :
      Interleaving (a :: as) bs (a :: events)
  | right {b : α} {as bs events : List α} (rest : Interleaving as bs events) :
      Interleaving as (b :: bs) (b :: events)

theorem Interleaving.nil_left {bs : List α} (h : Interleaving [] bs events) : events = bs := by
  generalize has : ([] : List α) = as at h
  induction h with
  | done => rfl
  | left => cases has
  | right _ ih => rw [ih has]

theorem Interleaving.nil_right {as : List α} (h : Interleaving as [] events) : events = as := by
  generalize hbs : ([] : List α) = bs at h
  induction h with
  | done => rfl
  | left _ ih => rw [ih hbs]
  | right => cases hbs

/-- Two sequences of two events: one after the other, or both firsts before both lasts. -/
theorem Interleaving.pairs {b c d : α} (h : Interleaving [a, b] [c, d] events) :
    events = [a, b, c, d] ∨ events = [c, d, a, b] ∨
      events = [a, c, b, d] ∨ events = [a, c, d, b] ∨ events = [c, a, b, d] ∨
        events = [c, a, d, b] := by
  cases h with
  | left h =>
    cases h with
    | left h => simp [h.nil_left]
    | right h =>
      cases h with
      | left h => simp [h.nil_left]
      | right h => simp [h.nil_right]
  | right h =>
    cases h with
    | left h =>
      cases h with
      | left h => simp [h.nil_left]
      | right h => simp [h.nil_right]
    | right h => simp [h.nil_right]

end Runs
