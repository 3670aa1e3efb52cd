import Mathlib.Logic.Function.Basic
import Steward.Runs

/-!
# Programs of atomic steps

A program reads the state and issues statements, one at a time. It runs alone or
in a pool, where the steps of several programs interleave in any order. A
protocol says which statement may follow which in one program, and a pool whose
programs keep to it has one state of the protocol for each of them.
-/

namespace Programs

open List

variable {σ ι ρ τ α Q : Type}

/-- What comes after a statement may depend on the state that the statement ran in. -/
inductive Prog (σ ι ρ : Type) where
  | ret (result : ρ)
  | ask (next : σ → Prog σ ι ρ)
  | act (op : ι) (next : σ → Prog σ ι ρ)

namespace Prog

def bind : Prog σ ι ρ → (ρ → Prog σ ι τ) → Prog σ ι τ
  | ret r, f => f r
  | ask next, f => ask fun s => (next s).bind f
  | act op next, f => act op fun s => (next s).bind f

instance : Monad (Prog σ ι) where
  pure := ret
  bind := bind

variable (r : ρ) (f : ρ → Prog σ ι τ)

theorem ret_bind : (pure r >>= f) = f r := rfl

theorem bind_bind {υ : Type} (p : Prog σ ι ρ) (f : ρ → Prog σ ι τ) (g : τ → Prog σ ι υ) :
    ((p >>= f) >>= g) = p >>= fun r => f r >>= g := by
  induction p with
  | ret r => rfl
  | ask next ih => exact congrArg ask (funext ih)
  | act op next ih => exact congrArg (act op) (funext ih)

def query (f : σ → ρ) : Prog σ ι ρ := ask fun s => ret (f s)

variable (op : ι)

/-- A statement, answered from the state that it ran in. -/
def statement (f : σ → ρ) : Prog σ ι ρ := act op fun s => ret (f s)

def issue : Prog σ ι Unit := statement op fun _ => ()

def forEach (body : α → Prog σ ι Unit) : List α → Prog σ ι Unit
  | [] => pure ()
  | x :: xs => body x >>= fun _ => forEach body xs

/-! ## Running alone -/

variable (apply : ι → σ → σ)

def exec : Prog σ ι ρ → σ → ρ × σ
  | ret r, s => (r, s)
  | ask next, s => (next s).exec s
  | act op next, s => (next s).exec (apply op s)

variable (p : Prog σ ι ρ) (s : σ)

/-- The state at the end. -/
def after : σ := (p.exec apply s).2

@[simp] theorem after_pure : (pure r : Prog σ ι ρ).after apply s = s := rfl

@[simp] theorem exec_pure : (pure r : Prog σ ι ρ).exec apply s = (r, s) := rfl

@[simp] theorem exec_bind :
    (p >>= f).exec apply s = (f (p.exec apply s).1).exec apply (p.exec apply s).2 := by
  induction p generalizing s with
  | ret r => rfl
  | ask next ih => exact ih s s
  | act op next ih => exact ih s (apply op s)

@[simp] theorem exec_query (f : σ → ρ) (s : σ) :
    (query f : Prog σ ι ρ).exec apply s = (f s, s) := rfl

@[simp] theorem exec_statement (f : σ → ρ) (s : σ) :
    (statement op f).exec apply s = (f s, apply op s) := rfl

@[simp] theorem exec_issue (s : σ) : (issue op).exec apply s = ((), apply op s) := rfl

@[simp] theorem after_bind :
    (p >>= f).after apply s = (f (p.exec apply s).1).after apply (p.after apply s) := by
  rw [after, exec_bind]
  rfl

@[simp] theorem after_query (f : σ → ρ) (s : σ) : (query f : Prog σ ι ρ).after apply s = s := rfl

@[simp] theorem after_issue (s : σ) : (issue op).after apply s = apply op s := rfl

/-- Run alone from a state, the program ends with such a result in such a state. -/
def Ends (Q : ρ → σ → Prop) : Prop :=
  Q (p.exec apply s).1 (p.exec apply s).2

variable {s : σ} {p : Prog σ ι ρ} {f : ρ → Prog σ ι τ}

theorem ends_pure {Q : ρ → σ → Prop} {r : ρ} (h : Q r s) : (pure r : Prog σ ι ρ).Ends apply s Q := h

theorem Ends.bind {apply : ι → σ → σ} {Q : ρ → σ → Prop} {Q' : τ → σ → Prop}
    (h : p.Ends apply s Q) (hf : ∀ r t, Q r t → (f r).Ends apply t Q') :
    (p >>= f).Ends apply s Q' := by
  unfold Ends
  rw [exec_bind]
  exact hf _ _ h

theorem after_forEach (body : α → Prog σ ι Unit) (xs : List α) (s : σ) :
    (forEach body xs).after apply s = Runs.run (fun t x => (body x).after apply t) s xs := by
  induction xs generalizing s with
  | nil => rfl
  | cons x xs ih =>
    rw [forEach, after_bind, Runs.run_cons]
    exact ih _

/-! ## Protocols -/

/-- Every statement takes the protocol from one state to another, and the program reads and ends
only where the protocol is idle. -/
def Follows (allowed : Q → ι → σ → Q → Prop) (idle : Q → Prop) : Q → Prog σ ι ρ → Prop
  | q, ret _ => idle q
  | q, ask next => idle q ∧ ∀ s, Follows allowed idle q (next s)
  | q, act op next => ∀ s, ∃ q', allowed q op s q' ∧ Follows allowed idle q' (next s)

variable {allowed : Q → ι → σ → Q → Prop} {idle : Q → Prop} {q : Q}

theorem Follows.bind (h : p.Follows allowed idle q)
    (hf : ∀ q' r, idle q' → (f r).Follows allowed idle q') : (p >>= f).Follows allowed idle q := by
  induction p generalizing q with
  | ret r => exact hf q r h
  | ask next ih => exact ⟨h.1, fun s => ih s (h.2 s)⟩
  | act op next ih =>
    intro s
    obtain ⟨q', hop, hnext⟩ := h s
    exact ⟨q', hop, ih s hnext⟩

theorem Follows.forEach {body : α → Prog σ ι Unit} {xs : List α} (hq : idle q)
    (h : ∀ q' x, idle q' → (body x).Follows allowed idle q') :
    (forEach body xs).Follows allowed idle q := by
  induction xs generalizing q with
  | nil => exact hq
  | cons x xs ih => exact (h q x hq).bind fun q' _ hq' => ih hq'

theorem Follows.query {f : σ → ρ} (hq : idle q) :
    (query f : Prog σ ι ρ).Follows allowed idle q := ⟨hq, fun _ => hq⟩

variable {op : ι}

/-- What no statement of the program changes is the same at the end. -/
theorem Follows.frame (view : σ → τ) (h : p.Follows allowed idle q)
    (hop : ∀ q op s q', allowed q op s q' → view (apply op s) = view s) (s : σ) :
    view (p.after apply s) = view s := by
  induction p generalizing q s with
  | ret r => rfl
  | ask next ih => exact ih s (h.2 s) s
  | act op next ih =>
    obtain ⟨q', hallowed, hnext⟩ := h s
    exact (ih s hnext (apply op s)).trans (hop q op s q' hallowed)

/-- Every statement of the program is of one kind. -/
def Issues (P : ι → Prop) (p : Prog σ ι ρ) : Prop :=
  p.Follows (fun (_ : Unit) op _ _ => P op) (fun _ => True) ()

variable {P : ι → Prop}

theorem issues_pure : (pure r : Prog σ ι ρ).Issues P := trivial

theorem issues_query (f : σ → ρ) : (query f : Prog σ ι ρ).Issues P := Follows.query trivial

theorem issues_issue (h : P op) : (issue op : Prog σ ι Unit).Issues P :=
  fun _ => ⟨(), h, trivial⟩

theorem Issues.bind (h : p.Issues P) (hf : ∀ r, (f r).Issues P) :
    (p >>= f).Issues P := Follows.bind h fun _ r _ => hf r

theorem issues_any (p : Prog σ ι ρ) : p.Issues fun _ => True := by
  induction p with
  | ret r => trivial
  | ask next ih => exact ⟨trivial, ih⟩
  | act op next ih => exact fun s => ⟨(), trivial, ih s⟩

theorem Issues.frame (view : σ → τ) (h : p.Issues P)
    (hop : ∀ op s, P op → view (apply op s) = view s) (s : σ) : view (p.after apply s) = view s :=
  Follows.frame apply view h (fun _ op s _ hP => hop op s hP) s

/-! ## What a step leads to -/

/-- What is left of the program after any of its steps fits the state after that step. -/
def Leads (P : σ → Prog σ ι ρ → Prop) : Prog σ ι ρ → Prop
  | ret _ => True
  | ask next => ∀ s, P s (next s) ∧ Leads P (next s)
  | act op next => ∀ s, P (apply op s) (next s) ∧ Leads P (next s)

section Leads

variable {apply} {L : σ → Prog σ ι ρ → Prop} {k : τ → Prog σ ι ρ}

theorem leads_query {f : σ → τ} (h : ∀ s, L s (k (f s)) ∧ (k (f s)).Leads apply L) :
    (query f >>= k).Leads apply L := h

theorem leads_statement {op : ι} {f : σ → τ}
    (h : ∀ s, L (apply op s) (k (f s)) ∧ (k (f s)).Leads apply L) :
    (statement op f >>= k).Leads apply L := h

end Leads

end Prog

/-! ## Pools -/

/-- Programs in progress on one state. -/
structure Pool (σ ι : Type) where
  state : σ
  tasks : List (Prog σ ι Unit) := []

namespace Pool

variable (apply : ι → σ → σ) (w : Pool σ ι)

def start (p : Prog σ ι Unit) : Pool σ ι := { w with tasks := w.tasks ++ [p] }

/-- One step of one program. -/
def advance (i : Nat) : Pool σ ι :=
  match w.tasks[i]? with
  | some (.ask next) => { w with tasks := w.tasks.set i (next w.state) }
  | some (.act op next) => ⟨apply op w.state, w.tasks.set i (next w.state)⟩
  | _ => w

variable {p : Prog σ ι Unit} {i : Nat} {q : Prog σ ι Unit} {next : σ → Prog σ ι Unit}

theorem start_cases {w : Pool σ ι} (h : (w.start p).tasks[i]? = some q) :
    w.tasks[i]? = some q ∨ i = w.tasks.length ∧ q = p := by
  simp only [Pool.start, getElem?_append] at h
  split at h
  · exact .inl h
  · rw [getElem?_singleton] at h
    split at h
    · exact .inr ⟨by omega, by simpa using h.symm⟩
    · cases h

theorem advance_ask {w : Pool σ ι} (h : w.tasks[i]? = some (.ask next)) :
    w.advance apply i = { w with tasks := w.tasks.set i (next w.state) } := by
  unfold Pool.advance
  rw [h]

theorem advance_act {w : Pool σ ι} {op : ι} (h : w.tasks[i]? = some (.act op next)) :
    w.advance apply i = ⟨apply op w.state, w.tasks.set i (next w.state)⟩ := by
  unfold Pool.advance
  rw [h]

@[simp] theorem start_last (p : Prog σ ι Unit) :
    (w.start p).tasks[w.tasks.length]? = some p := by
  simp [Pool.start]

/-- A step of a program that has ended changes nothing; another one reads the state, or its
statement runs in it. -/
theorem advance_cases (i : Nat) :
    w.advance apply i = w ∨
      (∃ next, w.tasks[i]? = some (.ask next) ∧
        w.advance apply i = { w with tasks := w.tasks.set i (next w.state) }) ∨
      ∃ op next, w.tasks[i]? = some (.act op next) ∧
        w.advance apply i = ⟨apply op w.state, w.tasks.set i (next w.state)⟩ := by
  unfold Pool.advance
  split
  · next next htask => exact .inr (.inl ⟨next, htask, rfl⟩)
  · next op next htask => exact .inr (.inr ⟨op, next, htask, rfl⟩)
  · exact .inl rfl

theorem advance_other {w : Pool σ ι} {j : Nat} (h : j ≠ i) :
    (w.advance apply i).tasks[j]? = w.tasks[j]? := by
  unfold Pool.advance
  split <;> simp [getElem?_set_ne h.symm]

/-! ### What the steps lead to -/

/-- Whatever is left of a program after one of its steps fits the state then; what fits may
differ from program to program. -/
def Leads (P : Nat → σ → Prog σ ι Unit → Prop) (w : Pool σ ι) : Prop :=
  ∀ (i : Nat) (p : Prog σ ι Unit), w.tasks[i]? = some p → p.Leads apply (P i)

section Leads

variable {apply} {P : Nat → σ → Prog σ ι Unit → Prop} {w : Pool σ ι}

theorem Leads.start {p : Prog σ ι Unit} (h : w.Leads apply P)
    (hp : p.Leads apply (P w.tasks.length)) : (w.start p).Leads apply P := by
  intro i q hq
  rcases start_cases hq with hold | ⟨rfl, rfl⟩
  · exact h i q hold
  · exact hp

/-- A step leaves every program where it was, except for the one that it takes further. -/
theorem Leads.advance_task (h : w.Leads apply P) {i j : Nat} {p : Prog σ ι Unit}
    (hp : (w.advance apply i).tasks[j]? = some p) :
    w.tasks[j]? = some p ∨ j = i ∧ P j (w.advance apply i).state p ∧ p.Leads apply (P j) := by
  by_cases hij : j = i
  · subst hij
    rcases w.advance_cases apply j with hsame | ⟨next, htask, hafter⟩ | ⟨op, next, htask, hafter⟩
    · rw [hsame] at hp
      exact .inl hp
    · obtain ⟨hlt, -⟩ := List.getElem?_eq_some_iff.mp htask
      rw [hafter, getElem?_set_self hlt] at hp
      cases hp
      rw [hafter]
      exact .inr ⟨rfl, h j _ htask w.state⟩
    · obtain ⟨hlt, -⟩ := List.getElem?_eq_some_iff.mp htask
      rw [hafter, getElem?_set_self hlt] at hp
      cases hp
      rw [hafter]
      exact .inr ⟨rfl, h j _ htask w.state⟩
  · rw [advance_other apply hij] at hp
    exact .inl hp

theorem Leads.advance (h : w.Leads apply P) (i : Nat) : (w.advance apply i).Leads apply P := by
  intro j p hp
  rcases h.advance_task hp with hold | ⟨-, -, hleads⟩
  · exact h j p hold
  · exact hleads

end Leads

/-- The state of the protocol for each program. -/
def Keeps (allowed : Q → ι → σ → Q → Prop) (idle : Q → Prop) (w : Pool σ ι) (qs : Nat → Q) : Prop :=
  ∀ (i : Nat) (p : Prog σ ι Unit), w.tasks[i]? = some p → p.Follows allowed idle (qs i)

variable {allowed : Q → ι → σ → Q → Prop} {idle : Q → Prop} {w : Pool σ ι} {qs : Nat → Q}

theorem Keeps.start (h : w.Keeps allowed idle qs) {q : Q} (hp : p.Follows allowed idle q) :
    (w.start p).Keeps allowed idle (Function.update qs w.tasks.length q) := by
  intro i p' hi
  rcases start_cases hi with hold | ⟨rfl, rfl⟩
  · obtain ⟨hlt, -⟩ := List.getElem?_eq_some_iff.mp hold
    rw [Function.update_of_ne (by omega)]
    exact h i p' hold
  · rw [Function.update_self]
    exact hp

theorem keeps_set (h : w.Keeps allowed idle qs) {q : Q} (hp : p.Follows allowed idle q) (s : σ) :
    Keeps allowed idle ⟨s, w.tasks.set i p⟩ (Function.update qs i q) := by
  intro j p' hj
  by_cases hij : j = i
  · subst hij
    rw [Function.update_self]
    rw [getElem?_set_self'] at hj
    obtain ⟨_, -, rfl⟩ := Option.map_eq_some_iff.mp hj
    exact hp
  · rw [Function.update_of_ne hij]
    rw [getElem?_set_ne (Ne.symm hij)] at hj
    exact h j p' hj

theorem start_earlier (h : w.tasks[i]? = some q) : (w.start p).tasks[i]? = some q := by
  obtain ⟨hlt, -⟩ := List.getElem?_eq_some_iff.mp h
  rw [Pool.start, getElem?_append_left hlt, h]

@[simp] theorem advance_length (i : Nat) :
    (w.advance apply i).tasks.length = w.tasks.length := by
  unfold Pool.advance
  split <;> simp

/-- One step of a pool: nothing happens to the state, or a statement of one program runs in it. -/
theorem Keeps.advance (h : w.Keeps allowed idle qs) (i : Nat) :
    ((w.advance apply i).state = w.state ∧ (w.advance apply i).Keeps allowed idle qs) ∨
      ∃ op next q, w.tasks[i]? = some (.act op next) ∧ allowed (qs i) op w.state q ∧
        w.advance apply i = ⟨apply op w.state, w.tasks.set i (next w.state)⟩ ∧
        (w.advance apply i).Keeps allowed idle (Function.update qs i q) := by
  unfold Pool.advance
  split
  · next next htask =>
    have hnext := (h i _ htask).2 w.state
    refine .inl ⟨rfl, ?_⟩
    have hset := keeps_set h (i := i) hnext w.state
    rwa [Function.update_eq_self] at hset
  · next op next htask =>
    obtain ⟨q, hop, hnext⟩ := h i _ htask w.state
    exact .inr ⟨op, next, q, htask, hop, rfl, keeps_set h hnext _⟩
  · exact .inl ⟨rfl, h⟩

end Pool

end Programs
