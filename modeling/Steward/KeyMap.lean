import Mathlib.Data.List.Nodup
import Mathlib.Tactic.Common

/-!
# Maps with text keys

Association lists, read by the first entry of a key, and the maps built from
them: a map carries the proof that no key is entered twice, so filtering it or
writing one key cannot uncover a shadowed entry.
-/

namespace Assoc

variable {β : Type}

/-- Replace the entry of a key in place, or append it. -/
def set (es : List (String × β)) (k : String) (v : β) : List (String × β) :=
  match es with
  | [] => [(k, v)]
  | (k', v') :: rest => if k' = k then (k, v) :: rest else (k', v') :: set rest k v

def erase (es : List (String × β)) (k : String) : List (String × β) := es.filter fun e => e.1 ≠ k

section Entries

variable (es : List (String × β))

theorem lookup_cons (k l : String) (v : β) :
    ((k, v) :: es).lookup l = if l = k then some v else es.lookup l := by
  by_cases h : l = k
  · simp [h]
  · have hb : (l == k) = false := by simpa using h
    simp only [List.lookup_cons, hb, if_neg h]

theorem lookup_set (k l : String) (v : β) :
    (set es k v).lookup l = if l = k then some v else es.lookup l := by
  induction es with
  | nil => simp only [set, lookup_cons]
  | cons e rest ih =>
    obtain ⟨k', v'⟩ := e
    by_cases hk : k' = k
    · subst hk
      by_cases hl : l = k' <;> simp [set, lookup_cons, hl]
    · by_cases hl : l = k'
      · subst hl
        simp [set, hk]
      · simp [set, hk, lookup_cons, hl, ih]

theorem lookup_filter (p : String → Bool) (l : String) (h : p l = true) :
    (es.filter fun e => p e.1).lookup l = es.lookup l := by
  induction es with
  | nil => rfl
  | cons e rest ih =>
    obtain ⟨k, v⟩ := e
    by_cases hk : p k = true
    · rw [List.filter_cons, if_pos hk, lookup_cons, lookup_cons, ih]
    · have hl : l ≠ k := fun he => hk (he ▸ h)
      rw [List.filter_cons, if_neg hk, lookup_cons, if_neg hl, ih]

theorem lookup_erase (k l : String) (h : l ≠ k) :
    (erase es k).lookup l = es.lookup l := lookup_filter es (fun k' => k' ≠ k) l (by simpa using h)

theorem lookup_erase_same (k : String) : (erase es k).lookup k = none := by
  rw [List.lookup_eq_none_iff]
  intro e he
  have hne : e.1 ≠ k := by simpa using (List.mem_filter.mp he).2
  simpa using hne.symm

end Entries

variable {es : List (String × β)} {k : String} {v : β}

theorem set_lookup (h : es.lookup k = some v) : set es k v = es := by
  induction es with
  | nil => cases h
  | cons e rest ih =>
    obtain ⟨k', v'⟩ := e
    by_cases hk : k' = k
    · subst hk
      rw [lookup_cons, if_pos rfl] at h
      cases h
      simp [set]
    · rw [lookup_cons, if_neg (Ne.symm hk)] at h
      rw [set, if_neg hk, ih h]

theorem set_of_lookup_none (h : es.lookup k = none) : set es k v = es ++ [(k, v)] := by
  induction es with
  | nil => rfl
  | cons e rest ih =>
    obtain ⟨k', v'⟩ := e
    rw [lookup_cons] at h
    split at h
    · cases h
    · next hne => rw [set, if_neg (Ne.symm hne), ih h, List.cons_append]

theorem lookup_of_mem (hn : (es.map Prod.fst).Nodup) (h : (k, v) ∈ es) : es.lookup k = some v := by
  induction es with
  | nil => cases h
  | cons e rest ih =>
    obtain ⟨k', v'⟩ := e
    simp only [List.map_cons, List.nodup_cons] at hn
    rcases List.mem_cons.mp h with he | hmem
    · cases he
      rw [lookup_cons, if_pos rfl]
    · have hne : k ≠ k' := by
        rintro rfl
        exact hn.1 (List.mem_map.mpr ⟨_, hmem, rfl⟩)
      rw [lookup_cons, if_neg hne, ih hn.2 hmem]

theorem mem_keys_set (es : List (String × β)) (k l : String) (v : β)
    (h : l ∈ (set es k v).map Prod.fst) : l = k ∨ l ∈ es.map Prod.fst := by
  induction es with
  | nil => simpa [set] using h
  | cons e rest ih =>
    obtain ⟨k', v'⟩ := e
    by_cases hk : k' = k
    · subst hk
      simpa [set] using h
    · simp only [set, if_neg hk, List.map_cons, List.mem_cons] at h ⊢
      rcases h with h | h
      · exact .inr (.inl h)
      · exact (ih h).imp_right .inr

theorem nodup_set (es : List (String × β)) (k : String) (v : β) (h : (es.map Prod.fst).Nodup) :
    ((set es k v).map Prod.fst).Nodup := by
  induction es with
  | nil => simp [set]
  | cons e rest ih =>
    obtain ⟨k', v'⟩ := e
    simp only [List.map_cons, List.nodup_cons] at h
    by_cases hk : k' = k
    · subst hk
      simpa [set] using h
    · simp only [set, if_neg hk, List.map_cons, List.nodup_cons]
      refine ⟨fun hmem => ?_, ih h.2⟩
      rcases mem_keys_set rest k k' v hmem with he | he
      · exact hk he
      · exact h.1 he

end Assoc

structure KeyMap (β : Type) where
  entries : List (String × β)
  nodup : (entries.map Prod.fst).Nodup
  deriving DecidableEq

namespace KeyMap

variable {β : Type}

def empty : KeyMap β := ⟨[], .nil⟩

variable (m : KeyMap β)

def get? (k : String) : Option β := m.entries.lookup k

def set (k : String) (v : β) : KeyMap β :=
  ⟨Assoc.set m.entries k v, Assoc.nodup_set m.entries k v m.nodup⟩

/-- The entries that satisfy a condition. -/
def filter (p : String → β → Bool) : KeyMap β :=
  ⟨m.entries.filter fun e => p e.1 e.2, m.nodup.sublist (List.filter_sublist.map Prod.fst)⟩

theorem get?_set (k l : String) (v : β) :
    (m.set k v).get? l = if l = k then some v else m.get? l := Assoc.lookup_set m.entries k l v

theorem mem_of_get? {m : KeyMap β} {k : String} {v : β} (h : m.get? k = some v) :
    (k, v) ∈ m.entries := by
  obtain ⟨l₁, l₂, he, -⟩ := List.lookup_eq_some_iff.mp h
  simp [he]

theorem get?_filter (p : String → Bool) (k : String) (h : p k = true) :
    (m.filter fun k _ => p k).get? k = m.get? k := Assoc.lookup_filter m.entries p k h

end KeyMap

/-! ## Memoised lookups -/

namespace Memo

variable {β : Type} {find find' : String → Option β} {cache : KeyMap β}

variable (find) (cache)

/-- A lookup through a cache that keeps every answer it has ever found. -/
def fetch (k : String) : Option β × KeyMap β :=
  match cache.get? k with
  | some v => (some v, cache)
  | none =>
    match find k with
    | some v => (some v, cache.set k v)
    | none => (none, cache)

/-- What the cache answers is what the lookup answers. -/
def Coherent : Prop :=
  ∀ k v, cache.get? k = some v → find k = some v

variable {find cache}

theorem coherent_empty : Coherent find KeyMap.empty := by
  intro k v h
  cases h

variable (h : Coherent find cache)

include h

theorem fetch_answer (k : String) : (fetch find cache k).1 = find k := by
  unfold fetch
  cases hc : cache.get? k with
  | some v => exact (h k v hc).symm
  | none => cases hf : find k <;> rfl

theorem Coherent.fetch (k : String) :
    Coherent find (Memo.fetch find cache k).2 := by
  unfold Memo.fetch
  cases hc : cache.get? k with
  | some v => exact h
  | none =>
    cases hf : find k with
    | none => exact h
    | some v =>
      intro l u hl
      rw [KeyMap.get?_set] at hl
      split at hl
      · next he => rw [he, hf, hl]
      · exact h l u hl

/-- The cache survives a change of the data that no cached key notices. -/
theorem Coherent.change (hsame : ∀ k v, (k, v) ∈ cache.entries → find' k = find k) :
    Coherent find' cache := by
  intro k v hk
  rw [hsame k v (KeyMap.mem_of_get? hk)]
  exact h k v hk

end Memo
