import Mathlib.Algebra.GroupWithZero.Nat
import Mathlib.Data.Nat.Basic
import Mathlib.Logic.Function.Iterate
import Mathlib.Tactic.Common

/-!
# Prefix blocks and counting loops

A prefix block is an interval of a power of two many numbers that starts at a
multiple of its size. Two blocks that meet are nested. A counting loop collects
what it sees while a test holds; it does not end when the test never fails.
-/

namespace Blocks

/-- The numbers that agree with `base` above the lowest `bits` bits. -/
structure Block where
  base : Nat
  bits : Nat
  aligned : 2 ^ bits ∣ base

namespace Block

variable {B C : Block} {a : Nat}

def size (B : Block) : Nat := 2 ^ B.bits

def last (B : Block) : Nat := B.base + B.size - 1

instance : Membership Nat Block := ⟨fun B a => B.base ≤ a ∧ a < B.base + B.size⟩

theorem size_pos (B : Block) : 0 < B.size := Nat.two_pow_pos _

theorem mem_def : a ∈ B ↔ B.base ≤ a ∧ a < B.base + B.size := Iff.rfl

theorem base_mem (B : Block) : B.base ∈ B :=
  ⟨Nat.le_refl _, Nat.lt_add_of_pos_right B.size_pos⟩

theorem le_last (h : a ∈ B) : a ≤ B.last := by
  have := h.2
  rw [last]
  omega

theorem mem_iff_div : a ∈ B ↔ a / B.size = B.base / B.size := by
  obtain ⟨q, hq⟩ := B.aligned
  have hbase : B.base = B.size * q := hq
  have hpos := B.size_pos
  rw [mem_def, hbase, Nat.mul_div_cancel_left q hpos, Nat.div_eq_iff hpos, Nat.mul_comm]
  constructor <;> intro h <;> omega

/-- The numbers with the prefix `q` in front of `k` bits. -/
def ofPrefix (q k : Nat) : Block := ⟨q * 2 ^ k, k, Nat.dvd_mul_left _ _⟩

theorem mem_ofPrefix {q k : Nat} : a ∈ ofPrefix q k ↔ a / 2 ^ k = q := by
  rw [mem_iff_div]
  show a / 2 ^ k = q * 2 ^ k / 2 ^ k ↔ a / 2 ^ k = q
  rw [Nat.mul_div_cancel q (Nat.two_pow_pos k)]

/-- Of two blocks that meet, the one with fewer low bits lies inside the other. -/
theorem nested (hB : a ∈ B) (hC : a ∈ C) (h : B.bits ≤ C.bits) {x : Nat} (hx : x ∈ B) :
    x ∈ C := by
  have hdiv : ∀ y, y / C.size = y / B.size / 2 ^ (C.bits - B.bits) := by
    intro y
    rw [Nat.div_div_eq_div_mul, size, size, ← Nat.pow_add, Nat.add_sub_cancel' h]
  rw [mem_iff_div] at hB hC hx ⊢
  rw [hdiv x, hx, ← hB, ← hdiv, hC]

/-- A block below a multiple of its size ends below it. -/
theorem end_le {m : Nat} (h : B.base < m) (hdvd : B.size ∣ m) : B.base + B.size ≤ m := by
  obtain ⟨q, hq⟩ := B.aligned
  obtain ⟨t, rfl⟩ := hdvd
  have hbase : B.base = B.size * q := hq
  rw [hbase] at h ⊢
  have hqt := Nat.lt_of_mul_lt_mul_left h
  exact Nat.mul_le_mul_left _ hqt

/-- A member in front of a multiple of the size is the last one. -/
theorem last_eq (h : a ∈ B) (hdvd : B.size ∣ a + 1) : B.last = a := by
  obtain ⟨q, hq⟩ := B.aligned
  obtain ⟨m, hm⟩ := hdvd
  have hbase : B.base = B.size * q := hq
  have hpos := B.size_pos
  obtain ⟨hlow, hhigh⟩ := h
  have hlt : B.size * q < B.size * m := by omega
  have hle : B.size * m ≤ B.size * (q + 1) := by rw [Nat.mul_succ]; omega
  have hmq : m = q + 1 := by
    have h1 := Nat.lt_of_mul_lt_mul_left hlt
    have h2 := Nat.le_of_mul_le_mul_left hle hpos
    omega
  rw [last, hbase]
  rw [hmq, Nat.mul_succ] at hm
  omega

end Block

/-! ## Loops -/

section Loops

variable {α : Type}

/-- `for a; p(a); a = next(a)` with everything it sees; `none` when the fuel runs out. -/
def collectWhile (p : α → Bool) (next : α → α) : Nat → α → Option (List α)
  | 0, _ => none
  | fuel + 1, a => if p a then (collectWhile p next fuel (next a)).map (a :: ·) else some []

variable {p : α → Bool} {next : α → α}

/-- The test holds for a number of steps and then fails. -/
structure Stops (p : α → Bool) (next : α → α) (a : α) (n : Nat) : Prop where
  holds : ∀ i < n, p (next^[i] a) = true
  fails : p (next^[n] a) = false

variable {a : α} {n m : Nat}

theorem collectWhile_of_stops (h : Stops p next a n) {fuel : Nat} (hfuel : n < fuel) :
    collectWhile p next fuel a = some ((List.range n).map fun i => next^[i] a) := by
  induction n generalizing a fuel with
  | zero =>
    obtain ⟨f, rfl⟩ : ∃ f, fuel = f + 1 := ⟨fuel - 1, by omega⟩
    have hfails : p a = false := h.fails
    simp [collectWhile, hfails]
  | succ n ih =>
    obtain ⟨f, rfl⟩ : ∃ f, fuel = f + 1 := ⟨fuel - 1, by omega⟩
    have hholds : p a = true := h.holds 0 (Nat.succ_pos n)
    have hnext : Stops p next (next a) n := ⟨fun i hi => h.holds (i + 1) (by omega), h.fails⟩
    have hfuel : n < f := by omega
    have hrest := ih hnext hfuel
    rw [collectWhile, if_pos hholds, hrest, List.range_succ_eq_map]
    simp [Function.comp_def]

theorem exists_stops (h : p (next^[m] a) = false) : ∃ n ≤ m, Stops p next a n := by
  induction m generalizing a with
  | zero => exact ⟨0, Nat.le_refl 0, fun i hi => absurd hi (Nat.not_lt_zero i), h⟩
  | succ m ih =>
    cases hp : p a with
    | false => exact ⟨0, Nat.zero_le _, fun i hi => absurd hi (Nat.not_lt_zero i), hp⟩
    | true =>
      obtain ⟨n, hn, hstops⟩ := ih (a := next a) h
      refine ⟨n + 1, Nat.succ_le_succ hn, ?_, hstops.fails⟩
      intro i hi
      cases i with
      | zero => exact hp
      | succ i => exact hstops.holds i (Nat.lt_of_succ_lt_succ hi)

theorem Stops.lt (h : Stops p next a n) (hm : ∀ i ≤ m, p (next^[i] a) = true) : m < n := by
  by_contra hle
  have := hm n (Nat.not_lt.mp hle)
  rw [h.fails] at this
  cases this

theorem collectWhile_of_always (h : ∀ i, p (next^[i] a) = true) (fuel : Nat) :
    collectWhile p next fuel a = none := by
  induction fuel generalizing a with
  | zero => rfl
  | succ fuel ih =>
    have hholds : p a = true := h 0
    have hrest := ih (a := next a) fun i => h (i + 1)
    simp [collectWhile, hholds, hrest]

end Loops

end Blocks
