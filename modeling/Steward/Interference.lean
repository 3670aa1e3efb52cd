import Steward.Programs

/-!
# Programs under interference

A program of a pool is interrupted between any two of its steps. What the others may do
to the state meanwhile is a relation; the program is safe from a state on when, whatever
they do within it, every statement it issues is one that it may issue then, and its
result fits the state. Programs that are safe, and whose statements stay within the
relation for each other, stay safe in the pool.
-/

namespace Programs

variable {σ ι ρ τ : Type} {apply : ι → σ → σ} {R : σ → σ → Prop} {G : ι → σ → Prop}

namespace Prog

def Safe (apply : ι → σ → σ) (R : σ → σ → Prop) (G : ι → σ → Prop) (Q : ρ → σ → Prop) :
    σ → Prog σ ι ρ → Prop
  | s, ret r => ∀ t, R s t → Q r t
  | s, ask next => ∀ t, R s t → Safe apply R G Q t (next t)
  | s, act op next => ∀ t, R s t → G op t ∧ Safe apply R G Q (apply op t) (next t)

variable {Q : ρ → σ → Prop} {s : σ} {p : Prog σ ι ρ} {f : σ → ρ}

theorem Safe.later (htrans : ∀ s t u, R s t → R t u → R s u) {t : σ} (h : p.Safe apply R G Q s)
    (hst : R s t) : p.Safe apply R G Q t := by
  cases p with
  | ret r => exact fun u htu => h u (htrans s t u hst htu)
  | ask next => exact fun u htu => h u (htrans s t u hst htu)
  | act op next => exact fun u htu => h u (htrans s t u hst htu)

theorem Safe.bind (hrefl : ∀ s, R s s) {Q' : τ → σ → Prop} {f : ρ → Prog σ ι τ}
    (h : p.Safe apply R G Q s) (hf : ∀ r t, Q r t → (f r).Safe apply R G Q' t) :
    (p >>= f).Safe apply R G Q' s := by
  induction p generalizing s with
  | ret r => exact hf r s (h s (hrefl s))
  | ask next ih => exact fun t hst => ih t (h t hst)
  | act op next ih => exact fun t hst => ⟨(h t hst).1, ih t (h t hst).2⟩

theorem safe_pure {r : ρ} (h : ∀ t, R s t → Q r t) : (pure r : Prog σ ι ρ).Safe apply R G Q s := h

theorem safe_statement {op : ι} (h : ∀ t, R s t → G op t ∧ ∀ u, R (apply op t) u → Q (f t) u) :
    (statement op f).Safe apply R G Q s := h

end Prog

namespace Pool

/-- Every program of the pool is safe from the present state on. -/
def Safe (apply : ι → σ → σ) (R : σ → σ → Prop) (G : ι → σ → Prop) (w : Pool σ ι) : Prop :=
  ∀ p ∈ w.tasks, p.Safe apply R G (fun _ _ => True) w.state

variable {w : Pool σ ι}

theorem Safe.start {p : Prog σ ι Unit} (h : w.Safe apply R G)
    (hp : p.Safe apply R G (fun _ _ => True) w.state) : (w.start p).Safe apply R G := by
  intro q hq
  rcases List.mem_append.mp hq with hq | hq
  · exact h q hq
  · rwa [List.mem_singleton.mp hq]

/-- A step of a safe pool: the state stays, or it changes by a statement that may be issued. -/
theorem Safe.advance (hrefl : ∀ s, R s s) (htrans : ∀ s t u, R s t → R t u → R s u)
    (hG : ∀ op s, G op s → R s (apply op s)) (h : w.Safe apply R G) (i : Nat) :
    (w.advance apply i).Safe apply R G ∧ ((w.advance apply i).state = w.state ∨
      ∃ op, G op w.state ∧ (w.advance apply i).state = apply op w.state) := by
  unfold Pool.advance
  split
  · next next htask =>
    have hnext := h _ (List.mem_of_getElem? htask) w.state (hrefl _)
    refine ⟨?_, .inl rfl⟩
    intro q hq
    rcases List.mem_or_eq_of_mem_set hq with hq | rfl
    · exact h q hq
    · exact hnext
  · next op next htask =>
    obtain ⟨hop, hnext⟩ := h _ (List.mem_of_getElem? htask) w.state (hrefl _)
    refine ⟨?_, .inr ⟨op, hop, rfl⟩⟩
    intro q hq
    rcases List.mem_or_eq_of_mem_set hq with hq | rfl
    · exact (h q hq).later htrans (hG op w.state hop)
    · exact hnext
  · exact ⟨h, .inl rfl⟩

end Pool

end Programs
