import Mathlib.Data.List.Forall2
import Steward.FingerprintRules

/-!
# Literals that a pattern asks for

Every text that a pattern finds has the literal that the walk over its tree yields: letter by
letter as far as case tables tell ASCII letters apart, and exactly where the literal is found
without case folding and no group of the pattern folds on its own.
-/

namespace Steward.Fingerprints

open Fallible Utf8 RegexTree List

def Ascii (c : Char) : Prop := c.toNat < 128

/-- What the case tables say of ASCII letters; letters are the same when the expressions match
them without regard to case. -/
structure CaseMaps.Lawful (m : CaseMaps) (same : Char → Char → Prop) : Prop where
  lower_ascii : ∀ c, Ascii c → m.lower c = c.toLower
  lower_lower : ∀ c, m.lower (m.lower c) = m.lower c
  same_lower : ∀ d c, same d c → Ascii (m.lower d) → Ascii (m.lower c) → m.lower d = m.lower c
  upper_lower : ∀ d c, m.upper d = m.upper c → Ascii c → Ascii (m.lower d) → m.lower d = m.lower c
  fold_lower : ∀ d c, m.foldRep d = m.foldRep c → Ascii c → Ascii (m.lower d) →
    m.lower d = m.lower c

variable {L : Libs} {same : Char → Char → Prop}

/-- The letters agree in lower case, if that is ASCII. -/
def Like (L : Libs) (d c : Char) : Prop :=
  Ascii (L.cases.lower d) → Ascii (L.cases.lower c) → L.cases.lower d = L.cases.lower c

theorem Like.refl (c : Char) : Like L c c := fun _ _ => rfl

variable {d c : Char} {v q : List Char} {p : Option (List Char)}

theorem Like.lower (hL : L.cases.Lawful same) (h : Like L d c) : Like L d (L.cases.lower c) := by
  intro hd hc
  rw [hL.lower_lower] at hc ⊢
  exact h hd hc

/-- A part of the text is like the literal; where the condition holds and the literal is not
folded, the literal itself is in the text. -/
def Carries (L : Libs) (strict : Prop) (lit : Literal) (w : List Char) : Prop :=
  (∃ v, v <:+: w ∧ List.Forall₂ (Like L) v lit.1) ∧ (strict → lit.2 = false → lit.1 <:+: w)

variable {S T : Prop} {lit : Literal} {w x : List Char}

theorem Carries.mono (h : Carries L S lit w) (hw : w <:+: x) : Carries L S lit x := by
  obtain ⟨⟨v, hv, hlike⟩, hexact⟩ := h
  exact ⟨⟨v, hv.trans hw, hlike⟩, fun hS hfold => (hexact hS hfold).trans hw⟩

theorem Carries.imp (h : Carries L S lit w) (hST : T → S) : Carries L T lit w :=
  ⟨h.1, fun hT => h.2 (hST hT)⟩

/-! ## Flags -/

variable {f g : Bool} {walk : Walk}

/-- The walk folds wherever the expression does. -/
theorem toggle_of_setFlagsFrom {negated negated' : Bool} {items : List FlagItem}
    (hneg : negated' = true → negated = true) (hfold : f = true → g = true)
    (h : setFlagsFrom negated items f = true) : toggle negated' items g = true := by
  induction items generalizing negated negated' f g with
  | nil => exact hfold h
  | cons item rest ih =>
    cases item with
    | negation => exact ih (fun _ => rfl) hfold h
    | caseInsensitive =>
      refine ih (fun h => by cases h) (fun hf => ?_) h
      cases negated' with
      | false => rfl
      | true => rw [hneg rfl] at hf; cases hf
    | other => exact ih (fun h => by cases h) hfold h

theorem enter_eq_true {kind : GroupKind} (h : kind.enter false = false) (hf : kind.enter f = true) :
    f = true := by
  cases f with
  | false => rw [h] at hf; cases hf
  | true => rfl

/-! ## Concatenations -/

/-- What the walk has gathered from the text so far: its best literal is in there, and the run is
at the end. -/
structure Gathered (L : Libs) (S : Prop) (walk : Walk) (x : List Char) : Prop where
  best : ∀ b ∈ walk.best, Carries L S b x
  run : ∃ u v, x = u ++ v ∧ List.Forall₂ (Like L) v walk.run ∧
    (S → walk.runFold = false → v = walk.run)

theorem keepBest_cases {best : Option Literal} {cand b : Literal}
    (h : keepBest best cand = some b) :
    b = cand ∨ best = some b := by
  unfold keepBest at h
  split at h
  · exact .inl (Option.some.inj h).symm
  · exact .inr h

theorem Gathered.flush (h : Gathered L S walk x) : ∀ b ∈ walk.flush, Carries L S b x := by
  intro b hb
  rcases keepBest_cases hb with rfl | hb
  · obtain ⟨u, v, rfl, hlike, hexact⟩ := h.run
    have hpart : v <:+: u ++ v := (suffix_append u v).isInfix
    refine ⟨⟨v, hpart, hlike⟩, fun hS hfold => ?_⟩
    rw [← hexact hS hfold]
    exact hpart
  · exact h.best b hb

/-- The next literal; where folding is off, it is the letter of the text. -/
theorem Gathered.push (h : Gathered L S walk x) (hlike : Like L d c)
    (hexact : S → walk.curFold = false → d = c) : Gathered L S (walk.push c) (x ++ [d]) := by
  have happend : x <:+: x ++ [d] := (prefix_append x [d]).isInfix
  have hnew : ∃ u v, x ++ [d] = u ++ v ∧ Forall₂ (Like L) v [c] ∧
      (S → walk.curFold = false → v = [c]) :=
    ⟨x, [d], rfl, .cons hlike .nil, fun hS hfold => by rw [hexact hS hfold]⟩
  unfold Walk.push
  split
  · exact ⟨fun b hb => (h.best b hb).mono happend, hnew⟩
  split
  · next hsame =>
    refine ⟨fun b hb => (h.best b hb).mono happend, ?_⟩
    obtain ⟨u, v, rfl, hrun, hrunExact⟩ := h.run
    refine ⟨u, v ++ [d], by simp, rel_append hrun (.cons hlike .nil), fun hS hfold => ?_⟩
    rw [hrunExact hS hfold, hexact hS (by rw [← hsame, hfold])]
  · exact ⟨fun b hb => (h.flush b hb).mono happend, hnew⟩

/-- An item that is neither a flag nor a literal ends the run. -/
theorem Gathered.other {inner : Option Literal} {u : List Char} (h : Gathered L S walk x)
    (hinner : ∀ b ∈ inner, Carries L S b u) :
    Gathered L S { walk with best := inner.elim walk.flush (keepBest walk.flush), run := [] }
      (x ++ u) := by
  refine ⟨fun b hb => ?_, ⟨x ++ u, [], by simp, .nil, fun _ _ => rfl⟩⟩
  have hflush : ∀ b ∈ walk.flush, Carries L S b (x ++ u) := fun b hb =>
    (h.flush b hb).mono (prefix_append x u).isInfix
  cases inner with
  | none => exact hflush b hb
  | some found =>
    rcases keepBest_cases hb with rfl | hb
    · exact (hinner b rfl).mono (suffix_append x u).isInfix
    · exact hflush b hb

/-- What is demanded of a tree for its literals to stand in the text as they are: folding happens
where the walk folds. -/
def Strict (ast : Ast) (f g : Bool) : Prop :=
  Shaped ast ∧ Unfolded ast ∧ (f = true → g = true)

theorem Strict.of_subtrees {a b : Ast} {f' : Bool} (h : Strict a f g)
    (hsub : ∀ t ∈ subtrees b, t ∈ subtrees a) (hf : f' = true → f = true) : Strict b f' g :=
  ⟨fun items hitems => h.1 items (hsub _ hitems),
    fun kind inner hgroup => h.2.1 kind inner (hsub _ hgroup), fun hf' => h.2.2 (hf hf')⟩

def Found (L : Libs) (same : Char → Char → Prop) (ast : Ast) : Prop :=
  ∀ f g lit w, astMandatory L ast g = .ok (some lit) → Fits same ast f w →
    Carries L (Strict ast f g) lit w

theorem found_concat {items : List Ast} (ih : ∀ a ∈ items, Found L same a)
    (hL : L.cases.Lawful same) {x y : List Char}
    (hstrict : S → ∀ a ∈ items, Shaped a ∧ Unfolded a ∧
      ((∃ flags, a = .flags flags) ∨ ∀ fold, after a fold = fold))
    (hfold : S → f = true → walk.curFold = true) (hx : Gathered L S walk x)
    (hy : FitsAll same items f y) (hlit : concatMandatory L items walk = .ok (some lit)) :
    Carries L S lit (x ++ y) := by
  induction items generalizing f walk x y with
  | nil =>
    cases hy
    rw [concatMandatory, Res.ok.injEq] at hlit
    rw [append_nil]
    exact hx.flush lit hlit
  | cons item rest ihrest =>
    obtain ⟨hitem, hrest⟩ := forall_mem_cons.mp ih
    obtain ⟨u, v, rfl, hu, hv⟩ := hy
    have hstrict' := fun hS => (forall_mem_cons.mp (hstrict hS)).2
    rw [← append_assoc]
    have hother : ∀ inner, astMandatory L item walk.curFold = .ok inner →
        concatMandatory L rest
          { walk with best := inner.elim walk.flush (keepBest walk.flush), run := [] } =
            .ok (some lit) → (S → ∀ fold, after item fold = fold) →
              Carries L S lit (x ++ u ++ v) := by
      intro inner hinner hlit' hafter
      refine ihrest hrest hstrict' (fun hS hf => ?_) (hx.other fun b hb => ?_) hv hlit'
      · rw [hafter hS] at hf
        exact hfold hS hf
      · rw [hb] at hinner
        refine (hitem f walk.curFold b u hinner hu).imp fun hS => ?_
        obtain ⟨hshaped, hunfolded, -⟩ := (forall_mem_cons.mp (hstrict hS)).1
        exact ⟨hshaped, hunfolded, hfold hS⟩
    have hnoflags : (∀ flags, item ≠ .flags flags) → S → ∀ fold, after item fold = fold := by
      intro hne hS
      obtain ⟨-, -, ⟨flags, hflags⟩ | hafter⟩ := (forall_mem_cons.mp (hstrict hS)).1
      · exact absurd hflags (hne flags)
      · exact hafter
    cases item with
    | flags items =>
      cases hu
      rw [append_nil]
      have hwalk : Gathered L S { walk with curFold := toggle false items walk.curFold } x :=
        ⟨hx.best, hx.run⟩
      refine ihrest hrest hstrict' (fun hS hf => ?_) hwalk hv hlit
      exact toggle_of_setFlagsFrom (fun h => h) (hfold hS) hf
    | literal c =>
      obtain ⟨d, rfl, hd⟩ := hu
      refine ihrest hrest hstrict' (fun hS hf => ?_) (hx.push ?_ fun hS hcur => ?_) hv hlit
      · rw [Walk.curFold_push]
        exact hfold hS hf
      · rcases hd with rfl | ⟨-, hsame⟩
        · exact Like.refl d
        · exact hL.same_lower d c hsame
      · refine hd.resolve_right fun h => ?_
        rw [hfold hS h.1] at hcur
        cases hcur
    | _ =>
      obtain ⟨inner, hinner, hlit'⟩ := Res.bind_eq_ok.mp hlit
      exact hother inner hinner hlit' (hnoflags (by simp))

theorem like_of_prefix {p : List Char} (h : Forall₂ (Like L) v q) (hp : p <+: q) :
    ∃ u, u <+: v ∧ Forall₂ (Like L) u p := by
  have htake := forall₂_take p.length h
  rw [← prefix_iff_eq_take.mp hp] at htake
  exact ⟨v.take p.length, take_prefix _ _, htake⟩

theorem narrow_prefix {next : List Char} (h : narrow p q = .ok next) :
    next <+: q ∧ ∀ r ∈ p, next <+: r := by
  cases p with
  | none =>
    cases h
    exact ⟨prefix_rfl, fun r hr => by cases hr⟩
  | some p =>
    unfold narrow at h
    dsimp only at h
    split at h
    · next parts hcut =>
      cases h
      obtain ⟨hp, hq⟩ := prefix_of_cut_common (p := parts.1) (q := parts.2) hcut
      refine ⟨hq, fun r hr => ?_⟩
      cases hr
      exact hp
    · cases h

theorem like_cased (hL : L.cases.Lawful same) {lit : Literal} (h : Forall₂ (Like L) v lit.1) :
    Forall₂ (Like L) v (cased L lit) := by
  unfold cased
  split
  · rw [forall₂_map_right_iff]
    exact h.imp fun d c hdc => hdc.lower hL
  · exact h

/-- The prefix of an alternation begins the literals of all its branches. -/
theorem found_alternation {branches : List Ast} (ih : ∀ b ∈ branches, Found L same b)
    (hL : L.cases.Lawful same) (hlit : alternationMandatory L branches g p = .ok (some lit)) :
    (∀ q ∈ p, lit.1 <+: q) ∧ lit.2 = true ∧
      (FitsOne same branches f w → ∃ v, v <:+: w ∧ Forall₂ (Like L) v lit.1) := by
  induction branches generalizing f p with
  | nil =>
    rw [alternationMandatory, Res.ok.injEq, Option.map_eq_some_iff] at hlit
    obtain ⟨q, rfl, rfl⟩ := hlit
    refine ⟨fun r hr => ?_, rfl, fun h => h.elim⟩
    cases hr
    exact prefix_rfl
  | cons branch rest ihrest =>
    obtain ⟨hbranch, hrest⟩ := forall_mem_cons.mp ih
    obtain ⟨found, hfound, hlit⟩ := Res.bind_eq_ok.mp hlit
    cases found with
    | none => cases hlit
    | some own =>
      dsimp only at hlit
      split at hlit
      · cases hlit
      obtain ⟨next, hnext, hlit⟩ := Res.bind_eq_ok.mp hlit
      split at hlit
      · cases hlit
      obtain ⟨hstart, hfold, hfits⟩ := ihrest hrest (f := after branch f) hlit
      obtain ⟨hown, hp⟩ := narrow_prefix hnext
      have hlitNext : lit.1 <+: next := hstart next rfl
      refine ⟨fun q hq => hlitNext.trans (hp q hq), hfold, fun hw => ?_⟩
      rcases hw with hw | hw
      · obtain ⟨⟨v, hv, hlike⟩, -⟩ := hbranch f g own w hfound hw
        obtain ⟨u, hu, hlike⟩ := like_of_prefix (like_cased hL hlike) (hlitNext.trans hown)
        exact ⟨u, hu.isInfix.trans hv, hlike⟩
      · exact hfits hw

/-- The literal of a pattern is in every text that the pattern finds. -/
theorem mandatory_found (hL : L.cases.Lawful same) (ast : Ast) : Found L same ast := by
  induction ast using Ast.induct with
  | empty =>
    intro f g lit w hlit
    cases hlit
  | flags items =>
    intro f g lit w hlit
    cases hlit
  | literal c =>
    intro f g lit w hlit hw
    cases hlit
    obtain ⟨d, rfl, hd⟩ := hw
    refine ⟨⟨[d], infix_rfl, .cons ?_ .nil⟩, fun hstrict hg => ?_⟩
    · rcases hd with rfl | ⟨-, hsame⟩
      · exact Like.refl d
      · exact hL.same_lower d c hsame
    · have hdc : d = c := hd.resolve_right fun h => by
        have hg' := hstrict.2.2 h.1
        rw [show g = false from hg] at hg'
        cases hg'
      exact hdc ▸ infix_rfl
  | leaf kind =>
    intro f g lit w hlit
    cases hlit
  | repetition op inner ih =>
    intro f g lit w hlit hw
    rw [astMandatory] at hlit
    split at hlit
    · next hmin =>
      obtain ⟨u, v, rfl, hu⟩ := hw hmin
      refine ((ih f g lit u hlit hu).mono (prefix_append u v).isInfix).imp fun h => ?_
      exact h.of_subtrees (fun t ht => mem_cons_of_mem _ ht) id
    · cases hlit
  | group kind inner ih =>
    intro f g lit w hlit hw
    refine (ih (kind.enter f) g lit w hlit hw).imp fun h => ?_
    exact h.of_subtrees (fun t ht => mem_cons_of_mem _ ht)
      (enter_eq_true (h.2.1 kind inner (self_mem_subtrees _)))
  | alternation branches ih =>
    intro f g lit w hlit hw
    obtain ⟨-, hfold, hfits⟩ := found_alternation ih hL (f := f) (w := w) hlit
    refine ⟨hfits hw, fun _ hfalse => ?_⟩
    rw [hfold] at hfalse
    cases hfalse
  | concat items ih =>
    intro f g lit w hlit hw
    have hstart : Gathered L (Strict (.concat items) f g) { runFold := g, curFold := g } [] :=
      ⟨fun b hb => (by cases hb), ⟨[], [], rfl, .nil, fun _ _ => rfl⟩⟩
    refine found_concat ih hL (fun h a ha => ?_) (fun h => h.2.2) hstart hw hlit
    have hsub : ∀ t ∈ subtrees a, t ∈ subtrees (.concat items) := fun t ht =>
      mem_cons_of_mem _ (mem_subtreesAll ha ht)
    have hitem := h.of_subtrees hsub id
    exact ⟨hitem.1, hitem.2.1, h.1 items (self_mem_subtrees _) a ha⟩

end Steward.Fingerprints
