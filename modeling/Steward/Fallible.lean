import Mathlib.Algebra.GroupWithZero.Nat
import Mathlib.Tactic.Common

/-!
# Computations that may panic

The outcome of a computation with checked arithmetic and checked indexing: a value, an
error, a panic, or nothing at all because a loop goes on for ever. A scanner is such a
computation that moves a position. The rules say when a computation returns.
-/

namespace Fallible

variable {ε α β : Type}

inductive Panic
  | overflow | outOfRange | divideByZero | noValue
  deriving DecidableEq, Repr

inductive Res (ε α : Type) where
  | ok (a : α)
  | err (e : ε)
  | panic (p : Panic)
  /-- The computation does not end. -/
  | spin
  deriving DecidableEq, Repr

namespace Res

def bind : Res ε α → (α → Res ε β) → Res ε β
  | ok a, f => f a
  | err e, _ => err e
  | panic p, _ => panic p
  | spin, _ => spin

instance : Monad (Res ε) where
  pure := ok
  bind := bind

@[simp] theorem pure_eq (a : α) : (pure a : Res ε α) = ok a := rfl
@[simp] theorem ok_bind (a : α) (f : α → Res ε β) : (ok a >>= f) = f a := rfl
variable (e : ε)

@[simp] theorem err_bind (f : α → Res ε β) : (err e >>= f) = err e := rfl
@[simp] theorem panic_bind (p : Panic) (f : α → Res ε β) : (panic p >>= f) = panic p := rfl
@[simp] theorem spin_bind (f : α → Res ε β) : (spin >>= f) = spin := rfl

/-- A value or an error comes back. -/
def Returns : Res ε α → Prop
  | ok _ => True
  | err _ => True
  | panic _ => False
  | spin => False

instance : (x : Res ε α) → Decidable x.Returns
  | ok _ => .isTrue trivial
  | err _ => .isTrue trivial
  | panic _ => .isFalse id
  | spin => .isFalse id

@[simp] theorem returns_ok (a : α) : (ok a : Res ε α).Returns := trivial
@[simp] theorem returns_err : (err e : Res ε α).Returns := trivial
@[simp] theorem not_returns_panic (p : Panic) : ¬ (panic p : Res ε α).Returns := id
@[simp] theorem not_returns_spin : ¬ (spin : Res ε α).Returns := id

variable {x : Res ε α} {ε' : Type} {f : α → Res ε β}

theorem bind_eq_ok {b : β} : x >>= f = ok b ↔ ∃ a, x = ok a ∧ f a = ok b := by
  cases x <;> simp

theorem returns_bind : (x >>= f).Returns ↔ x.Returns ∧ ∀ a, x = ok a → (f a).Returns := by
  cases x <;> simp

theorem Returns.bind (hx : x.Returns) (hf : ∀ a, (f a).Returns) : (x >>= f).Returns :=
  returns_bind.mpr ⟨hx, fun a _ => hf a⟩

theorem returns_bind_total (hf : ∀ a, (f a).Returns) : (x >>= f).Returns ↔ x.Returns :=
  returns_bind.trans (and_iff_left fun a _ => hf a)

theorem returns_bind_pure {g : α → β} : (x >>= fun a => pure (g a)).Returns ↔ x.Returns :=
  returns_bind_total fun _ => trivial

theorem returns_iff_ok {x : Res Empty α} : x.Returns ↔ ∃ a, x = ok a := by
  cases x with
  | ok a => simp
  | err e => cases e
  | panic p => simp
  | spin => simp

/-- Without errors, a step that returns in any case is reached. -/
theorem returns_bind_and {x : Res Empty α} {f : α → Res Empty β} {P Q : Prop}
    (hx : x.Returns ↔ P) (hf : ∀ a, (f a).Returns ↔ Q) : (x >>= f).Returns ↔ P ∧ Q := by
  rw [returns_bind, hx]
  refine and_congr_right fun hp => ?_
  obtain ⟨a, rfl⟩ := returns_iff_ok.mp (hx.mpr hp)
  simp [hf]

def ofOption (e : ε) : Option α → Res ε α
  | some a => ok a
  | none => err e

/-- An error is no value; a panic stays one. -/
def attempt : Res ε α → Res ε (Option α)
  | ok a => ok (some a)
  | err _ => ok none
  | panic p => panic p
  | spin => spin

/-- An error under another name. -/
def orFail {ε' : Type} (e : ε') : Res ε α → Res ε' α
  | ok a => ok a
  | err _ => err e
  | panic p => panic p
  | spin => spin

def mapErr {ε' : Type} (f : ε → ε') : Res ε α → Res ε' α
  | ok a => ok a
  | err e => err (f e)
  | panic p => panic p
  | spin => spin

@[simp] theorem returns_mapErr {f : ε → ε'} : (x.mapErr f).Returns ↔ x.Returns := by
  cases x <;> rfl

theorem mapErr_eq_ok {f : ε → ε'} {a : α} : x.mapErr f = ok a ↔ x = ok a := by
  cases x <;> simp [mapErr]

@[simp] theorem orFail_ok (e : ε') (a : α) : (ok a : Res ε α).orFail e = ok a := rfl

/-- The value that must be there. -/
def expect : Option α → Res ε α
  | some a => ok a
  | none => panic .noValue

@[simp] theorem ofOption_some (a : α) : ofOption e (some a) = ok a := rfl

@[simp] theorem returns_ofOption (x : Option α) : (ofOption e x).Returns := by
  cases x <;> trivial

@[simp] theorem returns_attempt : x.attempt.Returns ↔ x.Returns := by
  cases x <;> rfl

end Res

/-! ## Checked operations -/

/-- The sum in `w` bits. -/
def checkedAdd (w a b : Nat) : Res ε Nat := if a + b < 2 ^ w then .ok (a + b) else .panic .overflow

/-- The product in `w` bits. -/
def checkedMul (w a b : Nat) : Res ε Nat := if a * b < 2 ^ w then .ok (a * b) else .panic .overflow

variable {w a b i : Nat} {xs : List α}

theorem checkedAdd_fits (h : a + b < 2 ^ w) :
    (checkedAdd w a b : Res ε Nat) = .ok (a + b) := if_pos h

theorem checkedMul_fits (h : a * b < 2 ^ w) :
    (checkedMul w a b : Res ε Nat) = .ok (a * b) := if_pos h

def index (xs : List α) (i : Nat) : Res ε α :=
  match xs[i]? with
  | some x => .ok x
  | none => .panic .outOfRange

theorem returns_index : (index xs i : Res ε α).Returns ↔ i < xs.length := by
  unfold index
  by_cases h : i < xs.length
  · simp [h]
  · rw [List.getElem?_eq_none (by omega)]
    exact iff_of_false id h

/-- The items from one position up to another. -/
def slice (xs : List α) (i j : Nat) : Res ε (List α) :=
  if i ≤ j ∧ j ≤ xs.length then .ok ((xs.drop i).take (j - i)) else .panic .outOfRange

theorem slice_within {j : Nat} (hij : i ≤ j) (hj : j ≤ xs.length) :
    (slice xs i j : Res ε (List α)) = .ok ((xs.drop i).take (j - i)) := if_pos ⟨hij, hj⟩

/-! ## Scanners -/

/-- A computation that moves a position. -/
abbrev Scan (ε : Type) (α : Type) := StateT Nat (Res ε) α

namespace Scan

def fail (e : ε) : Scan ε α := fun _ => .err e

def lift (x : Res ε α) : Scan ε α := fun pos => x >>= fun a => .ok (a, pos)

@[simp] theorem run_fail (e : ε) (pos : Nat) : (fail e : Scan ε α).run pos = .err e := rfl

@[simp] theorem run_pure (a : α) (pos : Nat) : (pure a : Scan ε α).run pos = .ok (a, pos) := rfl

theorem run_get_bind (f : Nat → Scan ε β) (pos : Nat) :
    (get >>= f).run pos = (f pos).run pos := rfl

theorem run_set_bind (p : Nat) (f : PUnit → Scan ε β) (pos : Nat) :
    (set p >>= f).run pos = (f ⟨⟩).run p := rfl

theorem run_lift_ok_bind (a : α) (f : α → Scan ε β) (pos : Nat) :
    (lift (.ok a) >>= f).run pos = (f a).run pos := rfl

/-- From this position the scanner returns. -/
def Safe (m : Scan ε α) (pos : Nat) : Prop := (m.run pos).Returns

variable {m : Scan ε α} {f : α → Scan ε β} {pos p : Nat}

theorem safe_bind :
    Safe (m >>= f) pos ↔ Safe m pos ∧ ∀ a p, m.run pos = .ok (a, p) → Safe (f a) p := by
  unfold Safe
  rw [StateT.run_bind, Res.returns_bind]
  simp only [Prod.forall]

@[simp] theorem safe_pure (a : α) (pos : Nat) : Safe (pure a : Scan ε α) pos := trivial
@[simp] theorem safe_fail (e : ε) (pos : Nat) : Safe (fail e : Scan ε α) pos := trivial
@[simp] theorem safe_lift {x : Res ε α} : Safe (lift x) pos ↔ x.Returns := by
  cases x <;> rfl

theorem safe_get_bind {f : Nat → Scan ε β} : Safe (get >>= f) pos ↔ Safe (f pos) pos := Iff.rfl

theorem safe_set_bind {f : PUnit → Scan ε β} : Safe (set p >>= f) pos ↔ Safe (f ⟨⟩) p := Iff.rfl

variable {a : α}

theorem safe_lift_ok_bind : Safe (lift (.ok a) >>= f) pos ↔ Safe (f a) pos := Iff.rfl

theorem not_safe_lift_panic_bind {p : Panic} : ¬ Safe (lift (.panic p) >>= f) pos := id

theorem safe_bind_of_safe (h : Safe m pos) :
    Safe (m >>= f) pos ↔ ∀ a p, m.run pos = .ok (a, p) → Safe (f a) p := by
  rw [safe_bind, and_iff_right h]

theorem Safe.bind (h : Safe m pos) (hf : ∀ a p, Safe (f a) p) : Safe (m >>= f) pos :=
  safe_bind.mpr ⟨h, fun a p _ => hf a p⟩

theorem run_bind_of_ok (h : m.run pos = .ok (a, p)) : (m >>= f).run pos = (f a).run p := by
  rw [StateT.run_bind, h, Res.ok_bind]

theorem run_bind_ok {b : β} :
    (m >>= f).run pos = .ok (b, p) ↔
      ∃ a q, m.run pos = .ok (a, q) ∧ (f a).run q = .ok (b, p) := by
  rw [StateT.run_bind, Res.bind_eq_ok]
  simp only [Prod.exists]

end Scan

end Fallible
