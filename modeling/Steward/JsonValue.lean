import Steward.KeyMap

/-!
# JSON documents, merge patch and text

An object is the list of its members; of two members with one name the first
counts. Merge patch follows RFC 7396: members of the patch replace, merge into
or (null) remove members of the target, and members the patch omits stay.
Number literals that are not integers are kept as they are written.
-/

namespace JsonValue

open List

inductive Json where
  | null
  | bool (b : Bool)
  | num (n : Int)
  | frac (literal : String)
  | str (s : String)
  | arr (items : List Json)
  | obj (members : List (String × Json))

abbrev Members := List (String × Json)

mutual
def beq : Json → Json → Bool
  | .null, .null => true
  | .bool a, .bool b => a = b
  | .num a, .num b => a = b
  | .frac a, .frac b => a = b
  | .str a, .str b => a = b
  | .arr a, .arr b => beqItems a b
  | .obj a, .obj b => beqMembers a b
  | _, _ => false

def beqItems : List Json → List Json → Bool
  | [], [] => true
  | a :: as, b :: bs => beq a b && beqItems as bs
  | _, _ => false

def beqMembers : Members → Members → Bool
  | [], [] => true
  | (k, a) :: as, (l, b) :: bs => k = l && beq a b && beqMembers as bs
  | _, _ => false
end

mutual
theorem beq_iff : (a b : Json) → (beq a b = true ↔ a = b)
  | .arr a, b => by cases b <;> simp [beq, beqItems_iff a]
  | .obj a, b => by cases b <;> simp [beq, beqMembers_iff a]
  | .null, b | .bool _, b | .num _, b | .frac _, b | .str _, b => by cases b <;> simp [beq]

theorem beqItems_iff : (a b : List Json) → (beqItems a b = true ↔ a = b)
  | [], b => by cases b <;> simp [beqItems]
  | a :: as, b => by cases b <;> simp [beqItems, beq_iff a, beqItems_iff as]

theorem beqMembers_iff : (a b : Members) → (beqMembers a b = true ↔ a = b)
  | [], b => by cases b <;> simp [beqMembers]
  | (k, a) :: as, b => by
    cases b <;> simp [beqMembers, Prod.ext_iff, beq_iff a, beqMembers_iff as]
end

instance : DecidableEq Json := fun a b => decidable_of_iff _ (beq_iff a b)

/-- The members of an object; no other value has any. -/
def Json.members : Json → Members
  | .obj ms => ms
  | _ => []

def Json.get (j : Json) (k : String) : Option Json := j.members.lookup k

def Json.text? : Json → Option String
  | .str s => some s
  | _ => none

def Json.getStr (j : Json) (k : String) : Option String := (j.get k).bind Json.text?

mutual
/-- RFC 7396 merge patch. -/
def mergePatch (target : Json) : Json → Json
  | .obj ps => .obj (mergeMembers target.members ps)
  | p => p

def mergeMembers (ms : Members) : Members → Members
  | [] => ms
  | (k, .null) :: ps => mergeMembers (Assoc.erase ms k) ps
  | (k, v) :: ps => mergeMembers (Assoc.set ms k (mergePatch ((ms.lookup k).getD .null) v)) ps
end

@[simp] theorem members_obj (ms : Members) : (Json.obj ms).members = ms := rfl

theorem lookup_mergeMembers_cons (ms ps : Members) (k l : String) (v : Json) (h : l ≠ k) :
    ∃ ms', mergeMembers ms ((k, v) :: ps) = mergeMembers ms' ps ∧ ms'.lookup l = ms.lookup l := by
  cases v with
  | null => exact ⟨Assoc.erase ms k, rfl, Assoc.lookup_erase ms k l h⟩
  | _ => exact ⟨_, rfl, by rw [Assoc.lookup_set, if_neg h]⟩

theorem lookup_mergeMembers_absent (ps : Members) (ms : Members) (l : String)
    (h : l ∉ ps.map Prod.fst) : (mergeMembers ms ps).lookup l = ms.lookup l := by
  induction ps generalizing ms with
  | nil => rfl
  | cons p rest ih =>
    obtain ⟨k, v⟩ := p
    simp only [map_cons, mem_cons, not_or] at h
    obtain ⟨ms', hm, hl⟩ := lookup_mergeMembers_cons ms rest k l v h.1
    rw [hm, ih ms' h.2, hl]

variable {ps : Members} {k : String} {v : Json} {ms : Members}
  {fields : List (String × Option Json)}

theorem mergeMembers_cons (hv : v ≠ .null) (ms rest : Members) (k : String) :
    mergeMembers ms ((k, v) :: rest) =
      mergeMembers (Assoc.set ms k (mergePatch ((ms.lookup k).getD .null) v)) rest := by
  cases v with
  | null => exact absurd rfl hv
  | _ => rfl

theorem lookup_mergeMembers_mem (hn : (ps.map Prod.fst).Nodup) (hmem : (k, v) ∈ ps)
    (hv : v ≠ .null) (ms : Members) :
    (mergeMembers ms ps).lookup k = some (mergePatch ((ms.lookup k).getD .null) v) := by
  induction ps generalizing ms with
  | nil => cases hmem
  | cons p rest ih =>
    obtain ⟨k', v'⟩ := p
    simp only [map_cons, nodup_cons] at hn
    rcases mem_cons.mp hmem with he | hrest
    · cases he
      rw [mergeMembers_cons hv, lookup_mergeMembers_absent rest _ k hn.1, Assoc.lookup_set,
        if_pos rfl]
    · have hne : k ≠ k' := by
        rintro rfl
        exact hn.1 (mem_map.mpr ⟨_, hrest, rfl⟩)
      obtain ⟨ms', hm, hl⟩ := lookup_mergeMembers_cons ms rest k' k v' hne
      rw [hm, ih hn.2 hrest, hl]

theorem lookup_mergeMembers_str (ps : Members) (ms : Members) (l s : String)
    (hn : (ps.map Prod.fst).Nodup) (h : ps.lookup l = some (.str s)) :
    (mergeMembers ms ps).lookup l = some (.str s) := by
  rw [lookup_mergeMembers_mem hn (KeyMap.mem_of_get? (m := ⟨ps, hn⟩) h) (by simp)]
  rfl

/-! ## Merging twice -/

/-- The members already carry what the patch says. -/
def Absorbs (ms ps : Members) : Prop :=
  ∀ m ∈ ps, m.2 ≠ .null ∧ ∃ u, ms.lookup m.1 = some u ∧ mergePatch u m.2 = u

theorem mergeMembers_of_absorbs (h : Absorbs ms ps) : mergeMembers ms ps = ms := by
  induction ps with
  | nil => rfl
  | cons p rest ih =>
    obtain ⟨k, v⟩ := p
    obtain ⟨hv, u, hu, hsame⟩ := h (k, v) (by simp)
    rw [mergeMembers_cons hv, hu, Option.getD_some, hsame, Assoc.set_lookup hu]
    exact ih fun m hm => h m (by simp [hm])

theorem Absorbs.erase (h : Absorbs ms ps) (hk : k ∉ ps.map Prod.fst) :
    Absorbs (Assoc.erase ms k) ps := by
  intro m hm
  obtain ⟨hv, u, hu, hsame⟩ := h m hm
  have hne : m.1 ≠ k := by
    rintro rfl
    exact hk (mem_map.mpr ⟨m, hm, rfl⟩)
  exact ⟨hv, u, by rw [Assoc.lookup_erase ms k m.1 hne, hu], hsame⟩

/-- A patch that a second application does not notice. -/
structure Json.Settles (v : Json) : Prop where
  ne_null : v ≠ .null
  twice : ∀ x, mergePatch (mergePatch x v) v = mergePatch x v
  self : mergePatch v v = v

theorem Json.Settles.of_not_obj (hnull : v ≠ .null) (h : ∀ ms, v ≠ .obj ms) : v.Settles := by
  have hv : ∀ x, mergePatch x v = v := by
    intro x
    cases v with
    | obj ms => exact absurd rfl (h ms)
    | _ => rfl
  exact ⟨hnull, fun x => by rw [hv, hv], hv v⟩

theorem absorbs_merged (hn : (ps.map Prod.fst).Nodup) (h : ∀ m ∈ ps, m.2.Settles) (ms : Members) :
    Absorbs (mergeMembers ms ps) ps := by
  intro m hm
  have hs := h m hm
  exact ⟨hs.ne_null, _, lookup_mergeMembers_mem hn hm hs.ne_null ms, hs.twice _⟩

theorem Json.Settles.obj (hn : (ps.map Prod.fst).Nodup) (h : ∀ m ∈ ps, m.2.Settles) :
    (Json.obj ps).Settles where
  ne_null := by simp
  twice x := by
    simp only [mergePatch, members_obj]
    rw [mergeMembers_of_absorbs (absorbs_merged hn h x.members)]
  self := by
    simp only [mergePatch, members_obj]
    rw [mergeMembers_of_absorbs]
    intro m hm
    exact ⟨(h m hm).ne_null, m.2, Assoc.lookup_of_mem hn hm, (h m hm).self⟩

variable (fields)

/-- The members of a record whose empty fields are omitted. -/
def present : Members :=
  fields.filterMap fun f => f.2.map fun v => (f.1, v)

theorem present_names :
    (present fields).map Prod.fst ⊆ fields.map Prod.fst := by
  intro k hk
  simp only [present, mem_map, mem_filterMap] at hk ⊢
  obtain ⟨m, ⟨f, hf, hm⟩, rfl⟩ := hk
  obtain ⟨v, _, rfl⟩ := Option.map_eq_some_iff.mp hm
  exact ⟨f, hf, rfl⟩

theorem present_nodup (h : (fields.map Prod.fst).Nodup) :
    ((present fields).map Prod.fst).Nodup := by
  induction fields with
  | nil => simp [present]
  | cons f rest ih =>
    obtain ⟨k, o⟩ := f
    simp only [map_cons, nodup_cons] at h
    cases o with
    | none => simpa [present] using ih h.2
    | some v =>
      have hk : k ∉ (present rest).map Prod.fst := fun hmem => h.1 (present_names rest hmem)
      have : present ((k, some v) :: rest) = (k, v) :: present rest := rfl
      rw [this, map_cons, nodup_cons]
      exact ⟨hk, ih h.2⟩

variable {fields}

theorem mem_present {m : String × Json} : m ∈ present fields ↔ (m.1, some m.2) ∈ fields := by
  simp only [present, mem_filterMap]
  constructor
  · rintro ⟨f, hf, hm⟩
    obtain ⟨v, hv, rfl⟩ := Option.map_eq_some_iff.mp hm
    rwa [show ((f.1, v).1, some (f.1, v).2) = f from Prod.ext rfl hv.symm]
  · intro h
    exact ⟨(m.1, some m.2), h, rfl⟩

theorem Json.Settles.present (hn : (fields.map Prod.fst).Nodup)
    (h : ∀ f ∈ fields, ∀ v, f.2 = some v → v.Settles) : (Json.obj (present fields)).Settles :=
  .obj (present_nodup fields hn) fun m hm => h _ (mem_present.mp hm) m.2 rfl

theorem lookup_present (fields : List (String × Option Json)) (h : (fields.map Prod.fst).Nodup)
    (k : String) : (present fields).lookup k = (fields.lookup k).join := by
  induction fields with
  | nil => rfl
  | cons f rest ih =>
    obtain ⟨k', o⟩ := f
    simp only [map_cons, nodup_cons] at h
    have ih := ih h.2
    cases o with
    | none =>
      have hp : present ((k', none) :: rest) = present rest := rfl
      by_cases hk : k = k'
      · subst hk
        have hno : (present rest).lookup k = none := by
          rw [lookup_eq_none_iff]
          intro p hmem
          simp only [bne_iff_ne, ne_eq]
          rintro rfl
          exact h.1 (present_names rest (mem_map.mpr ⟨p, hmem, rfl⟩))
        simp [hp, hno]
      · simp [hp, Assoc.lookup_cons, hk, ih]
    | some v =>
      have hp : present ((k', some v) :: rest) = (k', v) :: present rest := rfl
      by_cases hk : k = k' <;> simp [hp, Assoc.lookup_cons, hk, ih]

end JsonValue
