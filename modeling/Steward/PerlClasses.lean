import Steward.Utf8

/-!
# Perl classes

The pattern of a rule with its Perl classes written out in ASCII. A bracket that holds only
a negated class is replaced as a whole; its closing bracket is looked for byte by byte, and
always stands at the beginning of a character.
-/

namespace Steward.Fingerprints

open Fallible Utf8

/-- The offset of the closing bracket; the byte behind a backslash is passed over. -/
def closing : List UInt8 → Option Nat
  | [] => none
  | b :: rest =>
    if b = 0x5D then some 0
    else if b = 0x5C then
      match rest with
      | [] => none
      | _ :: rest => (closing rest).map (· + 2)
    else (closing rest).map (· + 1)

def negatedClass (body : String) : Option String :=
  if body = "\\S" then some "[^\\t\\n\\f\\r ]"
  else if body = "\\D" then some "[^0-9]"
  else if body = "\\W" then some "[^0-9A-Za-z_]"
  else if body ∈ ["\\s\\S", "\\S\\s", "\\d\\D", "\\D\\d", "\\w\\W", "\\W\\w"] then some "(?s:.)"
  else none

/-- `sole_negated_class`, on the text behind the bracket: what replaces the bracket, and how
many bytes of the text belong to it. -/
def soleNegatedClass (rest : List Char) : Res Char (Option (String × Nat)) :=
  match closing (bytes rest) with
  | none => .ok none
  | some i => do
    let body ← sliceTo (String.ofList rest) i
    pure ((negatedClass body).map fun replacement => (replacement, i + 1))

/-- An escaped letter; a negated class among other members has no form in ASCII. -/
def escape (inClass : Bool) (next : Char) : Res Char String :=
  match inClass, next with
  | false, 'd' => .ok "[0-9]"
  | false, 'D' => .ok "[^0-9]"
  | false, 'w' => .ok "[0-9A-Za-z_]"
  | false, 'W' => .ok "[^0-9A-Za-z_]"
  | false, 's' => .ok "[\\t\\n\\f\\r ]"
  | false, 'S' => .ok "[^\\t\\n\\f\\r ]"
  | true, 'd' => .ok "0-9"
  | true, 'w' => .ok "0-9A-Za-z_"
  | true, 's' => .ok "\\t\\n\\f\\r "
  | true, 'D' | true, 'W' | true, 'S' => .err next
  | _, _ => .ok (String.ofList ['\\', next])

/-- The rest of the pattern, of which some bytes were replaced with the bracket before them. -/
def rewriteFrom (inClass : Bool) (skip : Nat) : List Char → Res Char String
  | [] => .ok ""
  | c :: rest =>
    if 0 < skip then rewriteFrom inClass (skip - c.utf8Size) rest
    else if c ≠ '\\' then
      if c = '[' ∧ inClass = false then do
        match ← soleNegatedClass rest with
        | some (replacement, span) =>
          let out ← rewriteFrom inClass span rest
          pure (replacement ++ out)
        | none =>
          let out ← rewriteFrom true 0 rest
          pure ("[" ++ out)
      else do
        let out ← rewriteFrom (if c = ']' then false else inClass) 0 rest
        pure (String.ofList [c] ++ out)
    else
      match rest with
      | [] => .ok "\\"
      | next :: rest => do
        let text ← escape inClass next
        let out ← rewriteFrom inClass 0 rest
        pure (text ++ out)

def rewritePerlClasses (pattern : String) : Res Char String := rewriteFrom false 0 pattern.toList

/-! ## No panic -/

theorem closing_eq_some {x : List UInt8} {i : Nat} (h : closing x = some i) :
    x[i]? = some 0x5D := by
  fun_induction closing x generalizing i with
  | case1 => cases h
  | case2 rest =>
    cases h
    rfl
  | case3 => cases h
  | case4 d rest _ ih =>
    obtain ⟨j, hj, rfl⟩ := Option.map_eq_some_iff.mp h
    exact ih hj
  | case5 b rest _ _ ih =>
    obtain ⟨j, hj, rfl⟩ := Option.map_eq_some_iff.mp h
    exact ih hj

theorem soleNegatedClass_returns (rest : List Char) : (soleNegatedClass rest).Returns := by
  unfold soleNegatedClass
  split
  · trivial
  · next i hi =>
    refine (returns_sliceTo_first (b := 0x5D) ?_ (by decide)).bind fun _ => trivial
    rw [String.toList_ofList]
    exact closing_eq_some hi

theorem escape_returns (inClass : Bool) (next : Char) : (escape inClass next).Returns := by
  unfold escape
  split <;> trivial

theorem rewriteFrom_returns (inClass : Bool) (skip : Nat) (pattern : List Char) :
    (rewriteFrom inClass skip pattern).Returns := by
  have hpure : ∀ (x : Res Char String) (text : String), x.Returns →
      (x >>= fun out => pure (text ++ out)).Returns :=
    fun x text hx => hx.bind fun _ => trivial
  fun_induction rewriteFrom inClass skip pattern with
  | case1 => trivial
  | case2 inClass skip c rest hskip ih => exact ih
  | case3 inClass skip c rest hskip hc hopen ih₁ ih₂ =>
    refine (soleNegatedClass_returns rest).bind fun class? => ?_
    cases class? with
    | none => exact hpure _ _ ih₂
    | some found => exact hpure _ _ (ih₁ found.2)
  | case4 inClass skip c rest hskip hc hopen ih => exact hpure _ _ ih
  | case5 => trivial
  | case6 inClass skip c hskip hc next rest ih =>
    exact (escape_returns _ _).bind fun _ => hpure _ _ ih

end Steward.Fingerprints
