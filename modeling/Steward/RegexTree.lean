import Mathlib.Tactic.Common

/-!
# Trees of regular expressions

A pattern as the parser delivers it, and the texts that it may find. Of a class, a dot or an
assertion nothing is said, so that any text may stand there, and neither of what follows the
first round of a repetition; literals stand in their place, in the case that the flags before
them ask for.
-/

namespace RegexTree

inductive FlagItem where
  | negation | caseInsensitive | other
  deriving DecidableEq, Repr

inductive Repeat where
  | zeroOrOne | zeroOrMore | oneOrMore
  | exactly (m : Nat)
  | atLeast (m : Nat)
  | bounded (m n : Nat)
  deriving DecidableEq, Repr

def Repeat.min : Repeat → Nat
  | zeroOrOne | zeroOrMore => 0
  | oneOrMore => 1
  | exactly m | atLeast m | bounded m _ => m

inductive GroupKind where
  | capturing
  | nonCapturing (items : List FlagItem)
  deriving DecidableEq, Repr

inductive Leaf where
  | dot | assertion | unicodeClass | perlClass | bracketedClass
  deriving DecidableEq, Repr

inductive Ast where
  | empty
  | flags (items : List FlagItem)
  | literal (c : Char)
  | leaf (kind : Leaf)
  | repetition (op : Repeat) (inner : Ast)
  | group (kind : GroupKind) (inner : Ast)
  | alternation (branches : List Ast)
  | concat (items : List Ast)

/-- What holds of a tree when it holds of its parts holds of every tree. -/
theorem Ast.induct {P : Ast → Prop} (empty : P .empty) (flags : ∀ items, P (.flags items))
    (literal : ∀ c, P (.literal c)) (leaf : ∀ kind, P (.leaf kind))
    (repetition : ∀ op inner, P inner → P (.repetition op inner))
    (group : ∀ kind inner, P inner → P (.group kind inner))
    (alternation : ∀ branches, (∀ b ∈ branches, P b) → P (.alternation branches))
    (concat : ∀ items, (∀ a ∈ items, P a) → P (.concat items)) (a : Ast) : P a :=
  @Ast.rec P (fun as => ∀ a ∈ as, P a) empty flags literal leaf repetition group alternation
    concat (fun _ h => by cases h) (fun _ _ ha has => List.forall_mem_cons.mpr ⟨ha, has⟩) a

/-- Case folding after these flags; a negation holds to their end. -/
def setFlagsFrom (negated : Bool) : List FlagItem → Bool → Bool
  | [], fold => fold
  | .negation :: rest, fold => setFlagsFrom true rest fold
  | .caseInsensitive :: rest, _ => setFlagsFrom negated rest (!negated)
  | .other :: rest, fold => setFlagsFrom negated rest fold

def setFlags (items : List FlagItem) (fold : Bool) : Bool := setFlagsFrom false items fold

def GroupKind.enter : GroupKind → Bool → Bool
  | capturing, fold => fold
  | nonCapturing items, fold => setFlags items fold

mutual

/-- Case folding behind a tree: flags hold to the end of their group. -/
def after : Ast → Bool → Bool
  | .flags items, fold => setFlags items fold
  | .repetition _ inner, fold => after inner fold
  | .alternation branches, fold => afterAll branches fold
  | .concat items, fold => afterAll items fold
  | .empty, fold | .literal _, fold | .leaf _, fold | .group _ _, fold => fold

def afterAll : List Ast → Bool → Bool
  | [], fold => fold
  | a :: rest, fold => afterAll rest (after a fold)

end

/-! ## Parts of a tree -/

mutual

/-- The tree and all that is in it. -/
def subtrees : Ast → List Ast
  | .repetition op inner => .repetition op inner :: subtrees inner
  | .group kind inner => .group kind inner :: subtrees inner
  | .alternation branches => .alternation branches :: subtreesAll branches
  | .concat items => .concat items :: subtreesAll items
  | .empty => [.empty]
  | .flags items => [.flags items]
  | .literal c => [.literal c]
  | .leaf kind => [.leaf kind]

def subtreesAll : List Ast → List Ast
  | [] => []
  | a :: rest => subtrees a ++ subtreesAll rest

end

theorem self_mem_subtrees (a : Ast) : a ∈ subtrees a := by
  cases a <;> exact List.mem_cons_self

theorem mem_subtreesAll {a t : Ast} {as : List Ast} (ha : a ∈ as) (ht : t ∈ subtrees a) :
    t ∈ subtreesAll as := by
  induction as with
  | nil => cases ha
  | cons b rest ih =>
    rw [subtreesAll, List.mem_append]
    rcases List.mem_cons.mp ha with rfl | ha
    · exact .inl ht
    · exact .inr (ih ha)

/-- Flags stand in a concatenation, and hold there to its end. -/
def Shaped (a : Ast) : Prop :=
  ∀ items, Ast.concat items ∈ subtrees a →
    ∀ item ∈ items, (∃ flags, item = .flags flags) ∨ ∀ fold, after item fold = fold

/-- No group asks for case folding. -/
def Unfolded (a : Ast) : Prop :=
  ∀ kind inner, Ast.group kind inner ∈ subtrees a → kind.enter false = false

section Fits

variable (same : Char → Char → Prop)

mutual

/-- A text that the tree may match, with or without case folding. -/
def Fits : Ast → Bool → List Char → Prop
  | .empty, _, w => w = []
  | .flags _, _, w => w = []
  | .literal c, fold, w => ∃ d, w = [d] ∧ (d = c ∨ fold = true ∧ same d c)
  | .leaf _, _, _ => True
  | .repetition op inner, fold, w => 1 ≤ op.min → ∃ u v, w = u ++ v ∧ Fits inner fold u
  | .group kind inner, fold, w => Fits inner (kind.enter fold) w
  | .alternation branches, fold, w => FitsOne branches fold w
  | .concat items, fold, w => FitsAll items fold w

def FitsOne : List Ast → Bool → List Char → Prop
  | [], _, _ => False
  | b :: rest, fold, w => Fits b fold w ∨ FitsOne rest (after b fold) w

def FitsAll : List Ast → Bool → List Char → Prop
  | [], _, w => w = []
  | a :: rest, fold, w => ∃ u v, w = u ++ v ∧ Fits a fold u ∧ FitsAll rest (after a fold) v

end

end Fits

end RegexTree
