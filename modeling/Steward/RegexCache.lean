import Steward.FingerprintSafety
import Steward.Runs

/-!
# The cache of compiled expressions

`RegexCache` keeps the programs of the patterns used last, in a map and a queue of its keys.
The two always hold the same patterns, no more than the capacity, and an answer from the
cache is the one that a fresh compilation gives.
-/

namespace Steward.Fingerprints

open Fallible

structure RegexCache where
  max : Nat
  map : KeyMap Program
  /-- The least recently used pattern first. -/
  order : List String

namespace RegexCache

def new (max : Nat) : RegexCache := ⟨if max = 0 then 512 else max, .empty, []⟩

/-- The loop that removes the oldest patterns. -/
def evict (max : Nat) (map : KeyMap Program) : List String → RegexCache
  | [] => ⟨max, map, []⟩
  | oldest :: rest =>
    if rest.length + 1 > max then evict max (map.filter fun k _ => k ≠ oldest) rest
    else ⟨max, map, oldest :: rest⟩

variable (L : Libs) (c : RegexCache)

def get (pattern : String) : Checked (Option Program × RegexCache) :=
  match c.map.get? pattern with
  | some re =>
    pure (some re, if pattern ∈ c.order then
      { c with order := c.order.erase pattern ++ [pattern] } else c)
  | none => do
    match ← getRegex L pattern with
    | none => pure (none, c)
    | some re => pure (some re, evict c.max (c.map.set pattern re) (c.order ++ [pattern]))

/-- The cache after a call. -/
def after (pattern : String) : RegexCache :=
  match c.get L pattern with
  | .ok (_, c') => c'
  | _ => c

/-- The map and the queue hold the same patterns, each once, with what compiling them gives. -/
structure InStep : Prop where
  perm : (c.map.entries.map Prod.fst).Perm c.order
  compiled : ∀ e ∈ c.map.entries, getRegex L e.1 = .ok (some e.2)

variable {L} {c : RegexCache} {max : Nat} {map : KeyMap Program} {pattern : String}

theorem InStep.nodup (h : c.InStep L) : c.order.Nodup := h.perm.nodup_iff.mp c.map.nodup

theorem evict_spec {order : List String} (h : InStep L ⟨max, map, order⟩) :
    (evict max map order).InStep L ∧ (evict max map order).max = max ∧
      (evict max map order).order.length ≤ max := by
  induction order generalizing map with
  | nil => exact ⟨h, rfl, Nat.zero_le _⟩
  | cons oldest rest ih =>
    unfold evict
    split
    · refine ih ⟨?_, fun e he => h.compiled e (List.mem_of_mem_filter he)⟩
      obtain ⟨hnew, -⟩ := List.nodup_cons.mp h.nodup
      have hkeys := h.perm.filter (· ≠ oldest)
      rw [List.filter_map] at hkeys
      refine hkeys.trans (.of_eq ?_)
      simp only [List.filter_cons, ne_eq, not_true_eq_false, decide_false]
      refine List.filter_eq_self.mpr fun k hk => ?_
      simpa using fun heq : k = oldest => hnew (heq ▸ hk)
    · exact ⟨h, rfl, by simp; omega⟩

theorem InStep.get (h : c.InStep L) (hbound : c.order.length ≤ c.max) (pattern : String) :
    ∃ fresh c', getRegex L pattern = .ok fresh ∧ c.get L pattern = .ok (fresh, c') ∧ c'.InStep L ∧
      c'.max = c.max ∧ c'.order.length ≤ c.max := by
  unfold RegexCache.get
  cases hhit : c.map.get? pattern with
  | some re =>
    have hmem := KeyMap.mem_of_get? hhit
    have horder : pattern ∈ c.order := h.perm.mem_iff.mp (List.mem_map_of_mem hmem)
    have hmoved : (c.order.erase pattern ++ [pattern]).Perm c.order :=
      (List.perm_append_singleton ..).trans (List.perm_cons_erase horder).symm
    refine ⟨_, _, h.compiled _ hmem, rfl, ?_⟩
    rw [if_pos horder]
    exact ⟨⟨h.perm.trans hmoved.symm, h.compiled⟩, rfl, hmoved.length_eq.trans_le hbound⟩
  | none =>
    obtain ⟨fresh, hfresh⟩ := getRegex_ok L pattern
    simp only [hfresh, Res.ok_bind]
    cases fresh with
    | none => exact ⟨none, c, rfl, rfl, h, rfl, hbound⟩
    | some re =>
      have hset : (c.map.set pattern re).entries = c.map.entries ++ [(pattern, re)] :=
        Assoc.set_of_lookup_none hhit
      have hgrown : InStep L ⟨c.max, c.map.set pattern re, c.order ++ [pattern]⟩ := by
        refine ⟨?_, ?_⟩
        · simpa [hset] using h.perm.append_right [pattern]
        · simp only [hset, List.forall_mem_append, List.forall_mem_singleton]
          exact ⟨h.compiled, hfresh⟩
      exact ⟨some re, _, rfl, rfl, evict_spec hgrown⟩

/-- After any calls the map and the queue hold the same patterns, at most as many as the capacity
allows, and a call answers as if the cache were empty. -/
theorem cache_transparent (L : Libs) (capacity : Nat) (patterns : List String) :
    let c := Runs.run (after L) (new capacity) patterns
    ((c.map.entries.map Prod.fst).Perm c.order ∧ c.order.Nodup) ∧
      c.order.length ≤ (if capacity = 0 then 512 else capacity) ∧
      ∀ pattern, ∃ fresh c', getRegex L pattern = .ok fresh ∧
        c.get L pattern = .ok (fresh, c') := by
  intro c
  obtain ⟨hstep, hmax, hbound⟩ : c.InStep L ∧ c.max = (new capacity).max ∧
      c.order.length ≤ c.max := by
    refine Runs.run_preserves (P := fun c : RegexCache => c.InStep L ∧ c.max = (new capacity).max ∧
      c.order.length ≤ c.max) ?_ ⟨⟨.nil, by simp [new, KeyMap.empty]⟩, rfl, Nat.zero_le _⟩
    rintro c pattern ⟨h, hmax, hbound⟩
    obtain ⟨fresh, c', -, hget, h', hmax', hbound'⟩ := h.get hbound pattern
    rw [after, hget]
    exact ⟨h', hmax'.trans hmax, hbound'.trans_eq hmax'.symm⟩
  refine ⟨⟨hstep.perm, hstep.nodup⟩, hbound.trans_eq hmax, fun pattern => ?_⟩
  obtain ⟨fresh, c', hfresh, hget, -⟩ := hstep.get hbound pattern
  exact ⟨fresh, c', hfresh, hget⟩

end RegexCache

end Steward.Fingerprints
