import Mathlib.Data.List.Infix
import Mathlib.Tactic.Common

/-!
# The first occurrence of a pattern

A search reports the first position at which a pattern starts. Where a list is cut into
segments, the pattern is found behind them when it starts in none of them. The patterns
here are a mark of two items and a run of one filler.
-/

namespace Patterns

open List

variable {α : Type}

def find [DecidableEq α] (pat : List α) : List α → Option Nat
  | [] => if pat = [] then some 0 else none
  | x :: xs => if pat.isPrefixOf (x :: xs) then some 0 else (find pat xs).map (· + 1)

/-- The items from a position on replaced by others. -/
def writeAt (xs : List α) (pos : Nat) (ys : List α) : List α :=
  xs.take pos ++ ys ++ xs.drop (pos + ys.length)

theorem writeAt_append (pre : List α) {old new : List α} (post : List α)
    (h : new.length = old.length) :
    writeAt (pre ++ (old ++ post)) pre.length new = pre ++ (new ++ post) := by
  unfold writeAt
  rw [h, ← drop_drop, drop_left, drop_left, take_left, append_assoc]

/-- Before these items the pattern starts nowhere in the segment. -/
def Clear (pat seg rest : List α) : Prop :=
  ∀ k, k < seg.length → ¬ pat <+: seg.drop k ++ rest

variable {pat rest : List α}

theorem clear_append {xs ys : List α} (hx : Clear pat xs (ys ++ rest)) (hy : Clear pat ys rest) :
    Clear pat (xs ++ ys) rest := by
  intro k hk
  by_cases h : k < xs.length
  · rw [drop_append_of_le_length (by omega), append_assoc]
    exact hx k h
  · rw [drop_append, drop_eq_nil_of_le (by omega), nil_append]
    exact hy (k - xs.length) (by simp at hk; omega)

theorem find_self [DecidableEq α] (pat rest : List α) : find pat (pat ++ rest) = some 0 := by
  cases hall : pat ++ rest with
  | nil =>
    obtain ⟨rfl, rfl⟩ := append_eq_nil_iff.mp hall
    rfl
  | cons y ys =>
    have hpre : pat.isPrefixOf (y :: ys) = true := by
      rw [List.isPrefixOf_iff_prefix, ← hall]
      exact prefix_append ..
    rw [find, if_pos hpre]

theorem find_of_clear [DecidableEq α] {seg : List α} (h : Clear pat seg (pat ++ rest)) :
    find pat (seg ++ (pat ++ rest)) = some seg.length := by
  induction seg with
  | nil => exact find_self pat rest
  | cons x xs ih =>
    have hhere : ¬ pat.isPrefixOf (x :: (xs ++ (pat ++ rest))) = true := by
      rw [List.isPrefixOf_iff_prefix]
      exact h 0 (by simp)
    have hrest : Clear pat xs (pat ++ rest) := fun k hk => h (k + 1) (by simp; omega)
    rw [cons_append, find, if_neg hhere, ih hrest]
    rfl

theorem find_le [DecidableEq α] {xs : List α} {i : Nat} (h : find pat xs = some i) :
    i + pat.length ≤ xs.length := by
  induction xs generalizing i with
  | nil =>
    unfold find at h
    split at h <;> cases h
    next hnil => simp [hnil]
  | cons x xs ih =>
    unfold find at h
    split at h
    · next hpre =>
      cases h
      simpa using (List.isPrefixOf_iff_prefix.mp hpre).length_le
    · obtain ⟨j, hj, rfl⟩ := Option.map_eq_some_iff.mp h
      have := ih hj
      simp only [length_cons]
      omega

/-- Where a segment is not clear, it is clear up to the first place at which the pattern starts. -/
theorem first_of_not_clear {seg : List α} (h : ¬ Clear pat seg rest) :
    ∃ p q, seg = p ++ q ∧ Clear pat p (q ++ rest) ∧ q ≠ [] ∧ pat <+: q ++ rest := by
  induction seg with
  | nil => exact absurd (fun k hk => absurd hk (Nat.not_lt_zero k)) h
  | cons x xs ih =>
    by_cases hhere : pat <+: x :: xs ++ rest
    · exact ⟨[], x :: xs, rfl, fun k hk => absurd hk (Nat.not_lt_zero k), by simp, hhere⟩
    · obtain ⟨p, q, rfl, hclear, hne, hpre⟩ := ih fun hclear => h fun
        | 0, _ => hhere
        | k + 1, hk => hclear k (by simpa using hk)
      refine ⟨x :: p, q, rfl, fun
        | 0, _ => by simpa using hhere
        | k + 1, hk => hclear k (by simpa using hk), hne, hpre⟩

/-! ## A mark and a filler -/

section Marked

variable {a b z : α} {n : Nat}

/-- Two items and a run of fillers. -/
def marked (a b z : α) (n : Nat) : List α := a :: b :: List.replicate n z

@[simp] theorem marked_length : (marked a b z n).length = n + 2 := by simp [marked]

variable {c : α}

theorem eq_filler {xs : List α} {i : Nat} (h : marked a b z n <+: xs) (hc : xs[i]? = some c)
    (hlow : 2 ≤ i) (hhigh : i < n + 2) : c = z := by
  have hpat : (marked a b z n)[i]? = some c := by
    obtain ⟨t, rfl⟩ := h
    rwa [getElem?_append_left (by simpa using hhigh)] at hc
  obtain ⟨i, rfl⟩ : ∃ j, i = j + 2 := ⟨i - 2, by omega⟩
  have hfill : (replicate n z)[i]? = some c := hpat
  exact eq_of_mem_replicate (mem_of_getElem? hfill)

theorem drop_getElem? (seg rest : List α) (k i : Nat) :
    (seg.drop k ++ rest)[seg.length - k + i]? = rest[i]? := by
  rw [getElem?_append_right (by simp)]
  simp

variable {seg rest : List α}

/-- The pattern does not reach into two items that are no filler. -/
theorem prefix_within {d : α} (hn : 0 < n) (hc : c ≠ z) (hd : d ≠ z) (hseg : seg ≠ [])
    (hpre : marked a b z n <+: seg ++ c :: d :: rest) : marked a b z n <+: seg := by
  have hpos := length_pos_of_ne_nil hseg
  have hfirst : (seg ++ c :: d :: rest)[seg.length]? = some c := drop_getElem? seg _ 0 0
  have hsecond : (seg ++ c :: d :: rest)[seg.length + 1]? = some d := drop_getElem? seg _ 0 1
  by_cases hin : n + 2 ≤ seg.length
  · exact prefix_of_prefix_length_le hpre (prefix_append ..) (by simpa using hin)
  by_cases hlast : seg.length + 1 < n + 2
  · exact absurd (eq_filler hpre hsecond (by omega) hlast) hd
  · exact absurd (eq_filler hpre hfirst (by omega) (by omega)) hc

/-- Before two items that are no filler a segment is clear when the pattern is not in it. -/
theorem clear_iff_absent {d : α} (hn : 0 < n) (hc : c ≠ z) (hd : d ≠ z) :
    Clear (marked a b z n) seg (c :: d :: rest) ↔ ¬ marked a b z n <:+: seg := by
  constructor
  · rintro hclear ⟨p, q, rfl⟩
    exact hclear p.length (by rw [length_append, length_append, marked_length]; omega)
      (by simp [append_assoc])
  · intro hseg k hk hpre
    have hwithin := prefix_within hn hc hd (by simpa using hk) hpre
    exact hseg (hwithin.isInfix.trans (drop_suffix k seg).isInfix)

/-- A segment shorter than the pattern, before an item that is neither filler nor mark. -/
theorem clear_of_short (hc : c ≠ z) (hb : c ≠ b) (hseg : seg.length < n + 2) :
    Clear (marked a b z n) seg (c :: rest) := by
  intro k hk hpre
  have hnext : (seg.drop k ++ c :: rest)[seg.length - k]? = some c :=
    drop_getElem? _ _ k 0
  by_cases hone : 2 ≤ seg.length - k
  · exact hc (eq_filler hpre hnext hone (by omega))
  · obtain ⟨t, ht⟩ := hpre
    have hsecond : (marked a b z n ++ t)[1]? = some b := rfl
    rw [ht, show 1 = seg.length - k by omega, hnext] at hsecond
    exact hb (Option.some.inj hsecond)

end Marked

end Patterns
