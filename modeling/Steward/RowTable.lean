import Mathlib.Data.List.MinMax
import Mathlib.Data.List.Pairwise
import Mathlib.Tactic.Common

/-!
# Tables with row ids and unique indexes

A table is a list of rows in row-id order together with the proofs that make it
a table: ids are positive, strictly increasing and below the next id to be
handed out, and no two rows clash. What clashes is up to the schema; a unique
index whose NULL keys never collide is one instance. A statement that would
make two rows clash is refused and leaves no trace, so a table that breaks its
index cannot be built.
-/

namespace RowTable

open List

variable {α : Type}

/-- A row id and a symmetric test for two rows that may not coexist. -/
structure Schema (α : Type) where
  id : α → Nat
  clash : α → α → Bool
  clash_symm : ∀ a b, clash a b = clash b a

/-- The row transformation of `UPDATE … WHERE id = i`. -/
def Schema.onId (S : Schema α) (i : Nat) (f : α → α) (r : α) : α := if S.id r = i then f r else r

/-- An edit of columns that no index reads. -/
structure Schema.Inert (S : Schema α) (f : α → α) : Prop where
  id : ∀ r, S.id (f r) = S.id r
  clash : ∀ r s, S.clash (f r) s = S.clash r s

structure Table (S : Schema α) where
  rows : List α
  nextId : Nat
  nextPos : 0 < nextId
  ordered : rows.Pairwise fun a b => S.id a < S.id b
  positive : ∀ r ∈ rows, 0 < S.id r
  below : ∀ r ∈ rows, S.id r < nextId
  apart : rows.Pairwise fun a b => S.clash a b = false

variable {S : Schema α} (i : Nat)

@[simp] theorem onId_same (f : α → α) (r : α) (h : S.id r = i) : S.onId i f r = f r := by
  simp [Schema.onId, h]

@[simp] theorem onId_other (f : α → α) (r : α) (h : S.id r ≠ i) : S.onId i f r = r := by
  simp [Schema.onId, h]

theorem onId_id (f : α → α) (hf : ∀ r, S.id (f r) = S.id r) (r : α) :
    S.id (S.onId i f r) = S.id r := by
  by_cases h : S.id r = i
  · rw [onId_same i f r h, hf]
  · rw [onId_other i f r h]

variable {f : α → α}

theorem onId_clash (hf : S.Inert f) (i : Nat) (r s : α) :
    S.clash (S.onId i f r) (S.onId i f s) = S.clash r s := by
  have hleft : ∀ r s, S.clash (S.onId i f r) s = S.clash r s := by
    intro r s
    by_cases h : S.id r = i
    · rw [onId_same i f r h, hf.clash]
    · rw [onId_other i f r h]
  rw [hleft, S.clash_symm, hleft, S.clash_symm]

theorem Schema.Inert.id_ite (hf : S.Inert f) (p : α → Bool) (r : α) :
    S.id (if p r then f r else r) = S.id r := by
  split
  · exact hf.id r
  · rfl

theorem Schema.Inert.clash_ite (hf : S.Inert f) (p : α → Bool) (r s : α) :
    S.clash (if p r then f r else r) (if p s then f s else s) = S.clash r s := by
  have hleft : ∀ r s, S.clash (if p r then f r else r) s = S.clash r s := by
    intro r s
    split
    · exact hf.clash r s
    · rfl
  rw [hleft, S.clash_symm, hleft, S.clash_symm]

namespace Table

def empty : Table S := ⟨[], 1, by decide, .nil, by simp, by simp, .nil⟩

variable {r s : α} {i : Nat} {p : α → Bool} {f : α → α} {mk : Nat → α}

variable (t : Table S)

theorem eq_of_id (hr : r ∈ t.rows) (hs : s ∈ t.rows) (h : S.id r = S.id s) :
    r = s := by
  by_contra hne
  have : Std.Symm fun a b : α => S.id a ≠ S.id b := ⟨fun _ _ => Ne.symm⟩
  have hp : t.rows.Pairwise fun a b => S.id a ≠ S.id b := t.ordered.imp fun hab => Nat.ne_of_lt hab
  exact hp.forall hr hs hne h

theorem no_clash (hr : r ∈ t.rows) (hs : s ∈ t.rows) (h : S.id r ≠ S.id s) :
    S.clash r s = false := by
  have : Std.Symm fun a b : α => S.clash a b = false := ⟨fun a b hab => by rw [S.clash_symm, hab]⟩
  exact t.apart.forall hr hs fun he => h (by rw [he])

/-- The row with a given id. -/
def get? (i : Nat) : Option α := t.rows.find? fun r => S.id r = i

theorem get?_eq_some : t.get? i = some r ↔
    r ∈ t.rows ∧ S.id r = i := by
  constructor
  · intro h
    exact ⟨mem_of_find?_eq_some h, by simpa using find?_some h⟩
  · rintro ⟨hr, rfl⟩
    cases hf : t.get? (S.id r) with
    | none =>
      have := find?_eq_none.mp hf r hr
      simp at this
    | some s =>
      have hs : s ∈ t.rows := mem_of_find?_eq_some hf
      have hid : S.id s = S.id r := by simpa using find?_some hf
      rw [t.eq_of_id hs hr hid]

/-- `SELECT … WHERE p LIMIT 1`: the first match in row-id order. -/
def select (p : α → Bool) : Option α := t.rows.find? p

theorem select_eq_none : t.select p = none ↔
    ∀ r ∈ t.rows, p r = false := by
  simp [select]

theorem select_eq_some :
    t.select p = some r ↔ r ∈ t.rows ∧ p r = true ∧ ∀ s ∈ t.rows, p s = true → S.id r ≤ S.id s := by
  have first : ∀ {r : α}, t.select p = some r → ∀ s ∈ t.rows, p s = true → S.id r ≤ S.id s := by
    intro r hr s hs hps
    obtain ⟨_, before, after, hrows, hbefore⟩ := find?_eq_some_iff_append.mp hr
    have hord := t.ordered
    rw [hrows] at hs hord
    rcases mem_append.mp hs with hs | hs
    · exact absurd hps (by simpa using hbefore s hs)
    · rcases mem_cons.mp hs with rfl | hs
      · exact Nat.le_refl _
      · exact Nat.le_of_lt (rel_of_pairwise_cons (pairwise_append.mp hord).2.1 hs)
  constructor
  · intro h
    exact ⟨mem_of_find?_eq_some h, find?_some h, first h⟩
  · rintro ⟨hr, hpr, hmin⟩
    cases hs : t.select p with
    | none => exact absurd hpr (by simp [(t.select_eq_none).mp hs r hr])
    | some s =>
      have hsm : s ∈ t.rows := mem_of_find?_eq_some hs
      have hid : S.id s = S.id r :=
        Nat.le_antisymm (first hs r hr hpr) (hmin s hsm (find?_some hs))
      rw [t.eq_of_id hsm hr hid]

section Ranked

variable {β : Type} [LinearOrder β]

/-- `SELECT … WHERE p ORDER BY rank DESC LIMIT 1`, ties in row-id order. -/
def selectBy (p : α → Bool) (rank : α → β) : Option α := (t.rows.filter p).argmax rank

/-- `r` comes no later than `s` under a descending rank, ties in row-id order. -/
def Precedes (S : Schema α) (rank : α → β) (r s : α) : Prop :=
  rank s < rank r ∨ (rank s = rank r ∧ S.id r ≤ S.id s)

variable {rank : α → β}

theorem selectBy_eq_none {p : α → Bool} :
    t.selectBy p rank = none ↔ ∀ r ∈ t.rows, p r = false := by
  simp [selectBy, argmax_eq_none, filter_eq_nil_iff]

variable [DecidableEq α]

theorem id_le_of_idxOf_le {rows : List α} (h : rows.Pairwise fun a b => S.id a < S.id b) {r s : α}
    (hr : r ∈ rows) (hs : s ∈ rows) (hle : rows.idxOf r ≤ rows.idxOf s) : S.id r ≤ S.id s := by
  have hri := idxOf_lt_length_of_mem hr
  have hsi := idxOf_lt_length_of_mem hs
  rcases Nat.lt_or_eq_of_le hle with hlt | heq
  · have := pairwise_iff_getElem.mp h _ _ hri hsi hlt
    simp only [getElem_idxOf] at this
    exact Nat.le_of_lt this
  · have : r = s := by
      rw [← getElem_idxOf hri, ← getElem_idxOf hsi]
      simp only [heq]
    rw [this]

theorem selectBy_eq_some {p : α → Bool} {r : α} :
    t.selectBy p rank = some r ↔
      r ∈ t.rows ∧ p r = true ∧ ∀ s ∈ t.rows, p s = true → Precedes S rank r s := by
  have best : ∀ {r : α}, t.selectBy p rank = some r →
      (r ∈ t.rows ∧ p r = true) ∧ ∀ s ∈ t.rows, p s = true → Precedes S rank r s := by
    intro r hr
    have hmem := mem_filter.mp (argmax_mem hr)
    refine ⟨hmem, fun s hs hps => ?_⟩
    have hsf : s ∈ t.rows.filter p := mem_filter.mpr ⟨hs, hps⟩
    rcases lt_or_eq_of_le (le_of_mem_argmax hsf hr) with hlt | heq
    · exact .inl hlt
    · have hidx := index_of_argmax hr hsf heq.ge
      exact .inr ⟨heq, id_le_of_idxOf_le (t.ordered.filter p) (argmax_mem hr) hsf hidx⟩
  constructor
  · intro h
    exact ⟨(best h).1.1, (best h).1.2, (best h).2⟩
  · rintro ⟨hr, hpr, hmax⟩
    cases hs : t.selectBy p rank with
    | none => exact absurd hpr (by simp [(t.selectBy_eq_none).mp hs r hr])
    | some s =>
      obtain ⟨⟨hsm, hps⟩, hbest⟩ := best hs
      have hid : S.id s = S.id r := by
        rcases hbest r hr hpr with hlt | ⟨_, hle⟩ <;> rcases hmax s hsm hps with hlt' | ⟨heq', hle'⟩
        · exact absurd hlt' (not_lt_of_gt hlt)
        · exact absurd heq' (ne_of_gt hlt)
        · exact absurd hlt' (by simp_all)
        · exact Nat.le_antisymm hle hle'
      rw [t.eq_of_id hsm hr hid]

end Ranked

/-- `UPDATE` of columns that no index reads: it cannot be refused. -/
def modify (i : Nat) (f : α → α) (hf : S.Inert f) : Table S where
  rows := t.rows.map (S.onId i f)
  nextId := t.nextId
  nextPos := t.nextPos
  ordered := by
    rw [List.pairwise_map]
    exact t.ordered.imp fun h => by rwa [onId_id i f hf.id, onId_id i f hf.id]
  positive := by
    intro r hr
    obtain ⟨s, hs, rfl⟩ := List.mem_map.mp hr
    rw [onId_id i f hf.id]
    exact t.positive s hs
  below := by
    intro r hr
    obtain ⟨s, hs, rfl⟩ := List.mem_map.mp hr
    rw [onId_id i f hf.id]
    exact t.below s hs
  apart := by
    rw [List.pairwise_map]
    exact t.apart.imp fun h => by rw [onId_clash hf, h]

variable (p)

/-- `UPDATE … WHERE p` of columns that no index reads. -/
def modifyWhere (f : α → α) (hf : S.Inert f) : Table S where
  rows := t.rows.map fun r => if p r then f r else r
  nextId := t.nextId
  nextPos := t.nextPos
  ordered := by
    rw [List.pairwise_map]
    exact t.ordered.imp fun h => by rwa [hf.id_ite, hf.id_ite]
  positive := by
    intro r hr
    obtain ⟨s, hs, rfl⟩ := List.mem_map.mp hr
    rw [hf.id_ite]
    exact t.positive s hs
  below := by
    intro r hr
    obtain ⟨s, hs, rfl⟩ := List.mem_map.mp hr
    rw [hf.id_ite]
    exact t.below s hs
  apart := by
    rw [List.pairwise_map]
    exact t.apart.imp fun h => by rwa [hf.clash_ite]

/-- The rewritten row would clash with no other row. -/
def Fits (i : Nat) (f : α → α) : Prop :=
  ∀ r ∈ t.rows, S.id r = i → ∀ s ∈ t.rows, S.id s ≠ i → S.clash (f r) s = false

instance (i : Nat) (f : α → α) : Decidable (t.Fits i f) :=
  inferInstanceAs (Decidable (∀ r ∈ t.rows, S.id r = i → ∀ s ∈ t.rows, S.id s ≠ i →
    S.clash (f r) s = false))

theorem Fits.clash {t : Table S} (h : t.Fits i f) (hr : r ∈ t.rows) (hs : s ∈ t.rows)
    (hne : S.id r ≠ S.id s) : S.clash (S.onId i f r) (S.onId i f s) = false := by
  by_cases hri : S.id r = i
  · have hsi : S.id s ≠ i := fun e => hne (by rw [hri, e])
    rw [onId_same i f r hri, onId_other i f s hsi]
    exact h r hr hri s hs hsi
  · rw [onId_other i f r hri]
    by_cases hsi : S.id s = i
    · rw [onId_same i f s hsi, S.clash_symm]
      exact h s hs hsi r hr hri
    · rw [onId_other i f s hsi]
      exact t.no_clash hr hs hne

/-- `UPDATE … WHERE id = i` of any columns: `none` when an index refuses it. -/
def update (i : Nat) (f : α → α) (hf : ∀ r, S.id (f r) = S.id r) : Option (Table S) :=
  if h : t.Fits i f then
    some {
      rows := t.rows.map (S.onId i f)
      nextId := t.nextId
      nextPos := t.nextPos
      ordered := by
        rw [List.pairwise_map]
        exact t.ordered.imp fun h => by rwa [onId_id i f hf, onId_id i f hf]
      positive := by
        intro r hr
        obtain ⟨s, hs, rfl⟩ := List.mem_map.mp hr
        rw [onId_id i f hf]
        exact t.positive s hs
      below := by
        intro r hr
        obtain ⟨s, hs, rfl⟩ := List.mem_map.mp hr
        rw [onId_id i f hf]
        exact t.below s hs
      apart := by
        rw [List.pairwise_map]
        exact t.ordered.imp_of_mem fun hr hs hlt => h.clash hr hs (Nat.ne_of_lt hlt) }
  else none

/-- The new row clashes with no row of the table. -/
def Admits (r : α) : Prop := ∀ s ∈ t.rows, S.clash r s = false

instance (r : α) : Decidable (t.Admits r) :=
  inferInstanceAs (Decidable (∀ s ∈ t.rows, S.clash r s = false))

/-- `INSERT` of a row that carries the next id: `none` when an index refuses it. -/
def insert (mk : Nat → α) (hmk : ∀ i, S.id (mk i) = i) : Option (Table S) :=
  if h : t.Admits (mk t.nextId) then
    some {
      rows := t.rows ++ [mk t.nextId]
      nextId := t.nextId + 1
      nextPos := Nat.succ_pos _
      ordered := by
        rw [List.pairwise_append]
        refine ⟨t.ordered, List.pairwise_singleton _ _, ?_⟩
        intro r hr s hs
        rw [List.mem_singleton.mp hs, hmk]
        exact t.below r hr
      positive := by
        intro r hr
        rcases List.mem_append.mp hr with hr | hr
        · exact t.positive r hr
        · rw [List.mem_singleton.mp hr, hmk]; exact t.nextPos
      below := by
        intro r hr
        rcases List.mem_append.mp hr with hr | hr
        · exact Nat.lt_succ_of_lt (t.below r hr)
        · rw [List.mem_singleton.mp hr, hmk]; exact Nat.lt_succ_self _
      apart := by
        rw [List.pairwise_append]
        refine ⟨t.apart, List.pairwise_singleton _ _, ?_⟩
        intro r hr s hs
        rw [List.mem_singleton.mp hs, S.clash_symm]
        exact h r hr }
  else none

/-- `DELETE` of the rows that satisfy a condition. -/
def delete : Table S where
  rows := t.rows.filter fun r => !p r
  nextId := t.nextId
  nextPos := t.nextPos
  ordered := t.ordered.filter _
  positive := fun r hr => t.positive r ((List.mem_filter.mp hr).1)
  below := fun r hr => t.below r ((List.mem_filter.mp hr).1)
  apart := t.apart.filter _

@[simp] theorem modify_rows (i : Nat) (f : α → α) (hf : S.Inert f) :
    (t.modify i f hf).rows = t.rows.map (S.onId i f) := rfl

@[simp] theorem modifyWhere_rows (f : α → α) (hf : S.Inert f) :
    (t.modifyWhere p f hf).rows = t.rows.map fun r => if p r then f r else r := rfl

theorem mem_of_get? {t : Table S} (h : t.get? i = some r) : r ∈ t.rows :=
  ((t.get?_eq_some).mp h).1

theorem id_of_get? {t : Table S} (h : t.get? i = some r) : S.id r = i :=
  ((t.get?_eq_some).mp h).2

theorem get?_of_mem {t : Table S} (h : r ∈ t.rows) : t.get? (S.id r) = some r :=
  (t.get?_eq_some).mpr ⟨h, rfl⟩

theorem find?_map_id (rows : List α) (g : α → α) (hg : ∀ r, S.id (g r) = S.id r) (i : Nat) :
    (rows.map g).find? (fun r => S.id r = i) = (rows.find? fun r => S.id r = i).map g := by
  rw [find?_map]
  have hcomp : (fun r => decide (S.id r = i)) ∘ g = fun r => decide (S.id r = i) := by
    funext r
    simp [hg]
  rw [hcomp]

theorem get?_modify (i : Nat) (f : α → α) (hf : S.Inert f) (j : Nat) :
    (t.modify i f hf).get? j = (t.get? j).map (S.onId i f) :=
  find?_map_id t.rows (S.onId i f) (onId_id i f hf.id) j

theorem get?_modifyWhere (f : α → α) (hf : S.Inert f) (j : Nat) :
    (t.modifyWhere p f hf).get? j = (t.get? j).map fun r => if p r then f r else r :=
  find?_map_id t.rows _ (hf.id_ite p) j

theorem get?_modify_same (i : Nat) (f : α → α) (hf : S.Inert f) :
    (t.modify i f hf).get? i = (t.get? i).map f := by
  rw [get?_modify]
  cases h : t.get? i with
  | none => rfl
  | some r => simp [id_of_get? h]

variable {j : Nat} {hf : ∀ r, S.id (f r) = S.id r} {hmk : ∀ i, S.id (mk i) = i}

theorem get?_modify_other (f : α → α) (hf : S.Inert f) (h : j ≠ i) :
    (t.modify i f hf).get? j = t.get? j := by
  rw [get?_modify]
  cases hj : t.get? j with
  | none => rfl
  | some r =>
    have hid := id_of_get? hj
    simp [hid, h]

@[simp] theorem delete_rows :
    (t.delete p).rows = t.rows.filter fun r => !p r := rfl

variable {p}

theorem map_onId_comp (rows : List α) (i : Nat) (f g : α → α) (hg : ∀ r, S.id (g r) = S.id r) :
    (rows.map (S.onId i g)).map (S.onId i f) = rows.map (S.onId i (f ∘ g)) := by
  rw [map_map]
  apply map_congr_left
  intro r _
  by_cases h : S.id r = i
  · have hgr : S.id (g r) = i := by rw [hg, h]
    simp [h, hgr]
  · simp [h]

theorem update_eq_some {t t' : Table S} (h : t.update i f hf = some t') :
    t.Fits i f ∧ t'.rows = t.rows.map (S.onId i f) := by
  unfold update at h
  split at h
  · next hfit => cases h; exact ⟨hfit, rfl⟩
  · cases h

theorem update_nextId {t t' : Table S} (h : t.update i f hf = some t') : t'.nextId = t.nextId := by
  unfold update at h
  split at h
  · cases h
    rfl
  · cases h

theorem update_eq_none {t : Table S} : t.update i f hf = none ↔ ¬ t.Fits i f := by
  unfold update
  split <;> simp_all

theorem insert_eq_some {t t' : Table S} (h : t.insert mk hmk = some t') :
    t.Admits (mk t.nextId) ∧ t'.rows = t.rows ++ [mk t.nextId] ∧ t'.nextId = t.nextId + 1 := by
  unfold insert at h
  split at h
  · next hadm => cases h; exact ⟨hadm, rfl, rfl⟩
  · cases h

theorem get?_insert {t t' : Table S} (h : t.insert mk hmk = some t') (hr : t.get? j = some r) :
    t'.get? j = some r := by
  obtain ⟨-, hrows, -⟩ := insert_eq_some h
  refine (t'.get?_eq_some).mpr ⟨?_, id_of_get? hr⟩
  rw [hrows]
  exact mem_append_left _ (mem_of_get? hr)

theorem get?_insert_row {t t' : Table S} (h : t.insert mk hmk = some t') (j : Nat) :
    t'.get? j = if j = t.nextId then some (mk t.nextId) else t.get? j := by
  obtain ⟨-, hrows, -⟩ := insert_eq_some h
  unfold get?
  rw [hrows, find?_append]
  split
  · next hj =>
    have hnone : t.rows.find? (fun r => S.id r = j) = none := by
      rw [find?_eq_none]
      intro r hr
      have hlt := t.below r hr
      simp only [decide_eq_true_eq]
      omega
    rw [hnone]
    simp [hmk, hj]
  · next hj => simp [hmk, Ne.symm hj]

theorem get?_delete_id (i j : Nat) :
    (t.delete fun r => S.id r = i).get? j = if j = i then none else t.get? j := by
  unfold get?
  rw [delete_rows, find?_filter]
  split
  · next hj =>
    simp [hj]
  · next hj =>
    congr 1
    funext r
    by_cases hr : S.id r = j <;> simp [hr, hj]

theorem insert_eq_none {t : Table S} : t.insert mk hmk = none ↔ ¬ t.Admits (mk t.nextId) := by
  unfold insert
  split <;> simp_all

end Table

end RowTable
