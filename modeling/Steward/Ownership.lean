import Steward.Programs

/-!
# Programs that own a part of the state

A program may rely on a part of the state that no other program of its pool
writes: what it has read there stays true until it writes itself. The programs of
a pool each have an owner, and an owner has one running program at a time.
-/

namespace Programs

open List

variable {σ ι ρ τ υ α κ : Type}

namespace Prog

def finished : Prog σ ι ρ → Bool
  | ret _ => true
  | _ => false

variable (apply : ι → σ → σ) (view : σ → υ) (ok : ι → σ → Prop)

/-- While only the program itself changes the view, its statements meet a condition, and its result
and the view at the end an assertion. -/
def Ensures (post : ρ → υ → Prop) : υ → Prog σ ι ρ → Prop
  | v, ret r => post r v
  | v, ask next => ∀ s, view s = v → Ensures post v (next s)
  | v, act op next => ∀ s, view s = v → ok op s ∧ Ensures post (view (apply op s)) (next s)

variable {apply view ok} {post : ρ → υ → Prop} {v : υ} {p : Prog σ ι ρ}

theorem Ensures.bind {mid : ρ → υ → Prop} {post : τ → υ → Prop} {f : ρ → Prog σ ι τ}
    (h : p.Ensures apply view ok mid v)
    (hf : ∀ r v', mid r v' → (f r).Ensures apply view ok post v') :
    (p >>= f).Ensures apply view ok post v := by
  induction p generalizing v with
  | ret r => exact hf r v h
  | ask next ih => exact fun s hs => ih s (h s hs)
  | act op next ih => exact fun s hs => ⟨(h s hs).1, ih s (h s hs).2⟩

theorem Ensures.mono {weaker : ρ → υ → Prop} (h : p.Ensures apply view ok post v)
    (hpost : ∀ r v', post r v' → weaker r v') : p.Ensures apply view ok weaker v := by
  induction p generalizing v with
  | ret r => exact hpost r v h
  | ask next ih => exact fun s hs => ih s (h s hs)
  | act op next ih => exact fun s hs => ⟨(h s hs).1, ih s (h s hs).2⟩

theorem ensures_query (post : ρ → υ → Prop) {f : σ → ρ} (h : ∀ s, view s = v → post (f s) v) :
    (query f : Prog σ ι ρ).Ensures apply view ok post v := h

theorem ensures_issue (post : Unit → υ → Prop) {op : ι}
    (h : ∀ s, view s = v → ok op s ∧ post () (view (apply op s))) :
    (issue op).Ensures apply view ok post v := h

theorem Ensures.forEach {body : α → Prog σ ι Unit} {xs : List α}
    (h : ∀ x ∈ xs, (body x).Ensures apply view ok (fun _ v' => v' = v) v) :
    (forEach body xs).Ensures apply view ok (fun _ v' => v' = v) v := by
  induction xs with
  | nil => rfl
  | cons x xs ih =>
    refine (h x mem_cons_self).bind ?_
    rintro _ _ rfl
    exact ih fun y hy => h y (mem_cons_of_mem _ hy)

theorem Ensures.of_finished (h : p.Ensures apply view ok post v) (hp : p.finished = true) :
    ∃ r, post r v := by
  cases p with
  | ret r => exact ⟨r, h⟩
  | ask | act => cases hp

end Prog

namespace Pool

/-- The program at a place is running and belongs to an owner. -/
def Running (w : Pool σ ι) (owners : List κ) (i : Nat) (k : κ) (p : Prog σ ι Unit) : Prop :=
  w.tasks[i]? = some p ∧ owners[i]? = some k ∧ p.finished = false

/-- No program of the owner is running. -/
def Free (w : Pool σ ι) (owners : List κ) (k : κ) : Prop :=
  ∀ x ∈ w.tasks.zip owners, x.2 = k → x.1.finished = true

instance [DecidableEq κ] (w : Pool σ ι) (owners : List κ) (k : κ) : Decidable (w.Free owners k) :=
  inferInstanceAs (Decidable (∀ x ∈ w.tasks.zip owners, x.2 = k → x.1.finished = true))

theorem free_iff {w : Pool σ ι} {owners : List κ} {k : κ} :
    w.Free owners k ↔ ∀ i p, ¬ w.Running owners i k p := by
  simp only [Free, Running, mem_iff_getElem?, getElem?_zip_eq_some]
  constructor
  · rintro h i p ⟨hi, hk, hrun⟩
    simp [h (p, k) ⟨i, hi, hk⟩ rfl] at hrun
  · rintro h ⟨p, k'⟩ ⟨i, hi, hk⟩ rfl
    simpa [hi, hk] using h i p

variable (apply : ι → σ → σ) (view : κ → σ → υ) (ok : κ → ι → σ → Prop) (post : κ → υ → Prop)

/-- Every owner has one running program, which ensures the assertion on the view of the owner, or
none, and the assertion holds. -/
structure Owned (w : Pool σ ι) (owners : List κ) : Prop where
  length : owners.length = w.tasks.length
  running : ∀ {i k p}, w.Running owners i k p →
    p.Ensures apply (view k) (ok k) (fun _ => post k) (view k w.state)
  alone : ∀ {i j k p q}, w.Running owners i k p → w.Running owners j k q → i = j
  quiet : ∀ {k}, w.Free owners k → post k (view k w.state)

variable {apply view ok post} {w : Pool σ ι} {owners : List κ} {i j : Nat} {k k' : κ}
  {p q : Prog σ ι Unit} {s : σ}

theorem owned_empty (h : ∀ k, post k (view k s)) : Owned apply view ok post ⟨s, []⟩ [] where
  length := rfl
  running h := by simp [Running] at h
  alone h := by simp [Running] at h
  quiet _ := h _

theorem running_start (hlen : owners.length = w.tasks.length)
    (h : (w.start p).Running (owners ++ [k]) j k' q) :
    w.Running owners j k' q ∨ (j = w.tasks.length ∧ k' = k ∧ q = p) := by
  obtain ⟨hj, hk, hrun⟩ := h
  simp only [Pool.start, getElem?_append, hlen] at hj hk
  split at hj
  · next hlt =>
    rw [if_pos hlt] at hk
    exact .inl ⟨hj, hk, hrun⟩
  · next hge =>
    rw [if_neg hge, getElem?_singleton] at hk
    rw [getElem?_singleton] at hj
    split at hj
    · next hzero =>
      rw [if_pos hzero] at hk
      exact .inr ⟨by omega, (Option.some.inj hk).symm, (Option.some.inj hj).symm⟩
    · cases hj

theorem running_set (hk : owners[i]? = some k)
    (h : Running ⟨s, w.tasks.set i p⟩ owners j k' q) :
    (j = i ∧ k' = k ∧ q = p) ∨ (j ≠ i ∧ w.Running owners j k' q) := by
  obtain ⟨hj, hk', hrun⟩ := h
  by_cases hji : j = i
  · subst hji
    rw [getElem?_set_self'] at hj
    obtain ⟨_, -, rfl⟩ := Option.map_eq_some_iff.mp hj
    exact .inl ⟨rfl, Option.some.inj (hk'.symm.trans hk), rfl⟩
  · rw [getElem?_set_ne (Ne.symm hji)] at hj
    exact .inr ⟨hji, hj, hk', hrun⟩

variable (h : w.Owned apply view ok post owners)

include h

theorem Owned.start (hfree : w.Free owners k)
    (hp : ∀ v, post k v → p.Ensures apply (view k) (ok k) (fun _ => post k) v) :
    (w.start p).Owned apply view ok post (owners ++ [k]) := by
  have hnone := free_iff.mp hfree
  have hens := hp _ (h.quiet hfree)
  refine ⟨by simp [Pool.start, h.length], ?_, ?_, ?_⟩
  · intro j k' q hq
    rcases running_start h.length hq with hold | ⟨-, rfl, rfl⟩
    · exact h.running hold
    · exact hens
  · intro i j k' q r hq hr
    rcases running_start h.length hq with hq' | ⟨hi, rfl, -⟩
    · rcases running_start h.length hr with hr' | ⟨-, rfl, -⟩
      · exact h.alone hq' hr'
      · exact absurd hq' (hnone _ _)
    · rcases running_start h.length hr with hr' | ⟨hj, -, -⟩
      · exact absurd hr' (hnone _ _)
      · rw [hi, hj]
  · intro k' hfree'
    apply h.quiet
    rw [free_iff] at hfree' ⊢
    rintro i q ⟨hi, hk, hrun⟩
    have hlt := (List.getElem?_eq_some_iff.mp hi).1
    have hlt' := (List.getElem?_eq_some_iff.mp hk).1
    refine hfree' i q ⟨?_, ?_, hrun⟩
    · rwa [Pool.start, getElem?_append_left hlt]
    · rwa [getElem?_append_left hlt']

/-- One program goes on, and the views of the other owners stay as they are. -/
theorem Owned.set (hp : w.Running owners i k p)
    (hq : q.Ensures apply (view k) (ok k) (fun _ => post k) (view k s))
    (hothers : ∀ k', k' ≠ k → view k' s = view k' w.state) :
    Owned apply view ok post ⟨s, w.tasks.set i q⟩ owners := by
  have hk := hp.2.1
  refine ⟨by simp [h.length], ?_, ?_, ?_⟩
  · intro j k' r hr
    rcases running_set hk hr with ⟨-, rfl, rfl⟩ | ⟨hji, hr⟩
    · exact hq
    · have hne : k' ≠ k := fun he => hji (h.alone (he ▸ hr) hp)
      rw [hothers k' hne]
      exact h.running hr
  · intro j l k' r t hr ht
    rcases running_set hk hr with ⟨hj, rfl, -⟩ | ⟨-, hr⟩
    · rcases running_set hk ht with ⟨hl, -, -⟩ | ⟨-, ht⟩
      · rw [hj, hl]
      · rw [hj, h.alone hp ht]
    · rcases running_set hk ht with ⟨hl, rfl, -⟩ | ⟨-, ht⟩
      · rw [hl, h.alone hr hp]
      · exact h.alone hr ht
  · intro k' hfree
    by_cases hkk : k' = k
    · subst hkk
      have hdone : q.finished = true := by
        by_contra hrun
        have hlt := (List.getElem?_eq_some_iff.mp hp.1).1
        exact free_iff.mp hfree i q ⟨by simp [hlt], hk, by simpa using hrun⟩
      obtain ⟨-, hpost⟩ := hq.of_finished hdone
      exact hpost
    · rw [hothers k' hkk]
      apply h.quiet
      rw [free_iff] at hfree ⊢
      rintro j r ⟨hj, hk', hrun⟩
      have hji : j ≠ i := fun he => hkk (Option.some.inj ((he ▸ hk').symm.trans hk))
      exact hfree j r ⟨by rwa [getElem?_set_ne (Ne.symm hji)], hk', hrun⟩

/-- The state changes from outside, for owners without a running program. -/
theorem Owned.restate
    (hs : ∀ k, view k s = view k w.state ∨ (w.Free owners k ∧ post k (view k s))) :
    Owned apply view ok post ⟨s, w.tasks⟩ owners := by
  refine ⟨h.length, ?_, h.alone, ?_⟩
  · intro i k p hp
    rcases hs k with hsame | ⟨hfree, -⟩
    · rw [hsame]
      exact h.running hp
    · exact absurd hp (free_iff.mp hfree i p)
  · intro k hfree
    rcases hs k with hsame | ⟨-, hpost⟩
    · rw [hsame]
      exact h.quiet hfree
    · exact hpost

/-- One step of an owned pool: no statement runs, or one that meets the condition of its owner. -/
theorem Owned.advance (hframe : ∀ k k' op s, ok k op s → k' ≠ k → view k' (apply op s) = view k' s)
    (i : Nat) :
    (w.advance apply i).Owned apply view ok post owners ∧
      ∀ op next, w.tasks[i]? = some (.act op next) → ∃ k, ok k op w.state := by
  unfold Pool.advance
  have howner : ∀ {p}, w.tasks[i]? = some p → ∃ k, owners[i]? = some k := by
    intro p hp
    have hlt : i < owners.length := by
      rw [h.length]
      exact (List.getElem?_eq_some_iff.mp hp).1
    exact ⟨_, getElem?_eq_getElem hlt⟩
  split
  · next next htask =>
    obtain ⟨k, hk⟩ := howner htask
    have hrun : w.Running owners i k (.ask next) := ⟨htask, hk, rfl⟩
    refine ⟨h.set hrun (h.running hrun w.state rfl) fun _ _ => rfl, ?_⟩
    intro op next' hact
    cases htask.symm.trans hact
  · next op next htask =>
    obtain ⟨k, hk⟩ := howner htask
    have hrun : w.Running owners i k (.act op next) := ⟨htask, hk, rfl⟩
    obtain ⟨hok, hens⟩ := h.running hrun w.state rfl
    refine ⟨h.set hrun hens fun k' hne => hframe k k' op w.state hok hne, ?_⟩
    intro op' next' hact
    cases htask.symm.trans hact
    exact ⟨k, hok⟩
  · next hnone _ =>
    refine ⟨h, ?_⟩
    intro op next hact
    exact absurd hact (by simp_all)

end Pool

end Programs
