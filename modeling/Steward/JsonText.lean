import Mathlib.Algebra.Group.Int.Defs
import Steward.JsonValue
import Steward.Text

/-!
# JSON texts and record shapes

Writing a document as text, reading one back, and the check a decoder makes
before it fills a record: every member the record declares has the declared
shape or is null, and members it does not declare are ignored.
-/

namespace JsonValue

open List

def hexDigit (n : Nat) : Char := "0123456789abcdef".toList.getD n '0'

def unicodeEscape (n : Nat) : List Char :=
  ['\\', 'u', hexDigit (n / 4096 % 16), hexDigit (n / 256 % 16), hexDigit (n / 16 % 16),
    hexDigit (n % 16)]

def escapeChar (c : Char) : List Char :=
  let n := c.toNat
  if c = '"' || c = '\\' then ['\\', c]
  else if n = 8 then ['\\', 'b']
  else if n = 9 then ['\\', 't']
  else if n = 10 then ['\\', 'n']
  else if n = 12 then ['\\', 'f']
  else if n = 13 then ['\\', 'r']
  else if n < 32 || c = '<' || c = '>' || c = '&' || n = 0x2028 || n = 0x2029 then unicodeEscape n
  else [c]

def renderString (s : String) : List Char := '"' :: s.toList.flatMap escapeChar ++ ['"']

mutual
def renderChars : Json → List Char
  | .null => "null".toList
  | .bool b => (if b then "true" else "false").toList
  | .num n => (toString n).toList
  | .frac literal => literal.toList
  | .str s => renderString s
  | .arr items => '[' :: renderItems items ++ [']']
  | .obj ms => '\x7b' :: renderMembers ms ++ ['\x7d']

def renderItems : List Json → List Char
  | [] => []
  | [v] => renderChars v
  | v :: vs => renderChars v ++ ',' :: renderItems vs

def renderMembers : Members → List Char
  | [] => []
  | [(k, v)] => renderString k ++ ':' :: renderChars v
  | (k, v) :: ms => renderString k ++ ':' :: renderChars v ++ ',' :: renderMembers ms
end

/-- The text of a document. -/
def render (j : Json) : String := String.ofList (renderChars j)

def isBlank (c : Char) : Bool := c = ' ' || c = '\t' || c = '\n' || c = '\r'

variable (cs : List Char)

def skipBlank : List Char := cs.dropWhile isBlank

def hexValue (c : Char) : Option Nat :=
  let n := c.toNat
  if 48 ≤ n ∧ n ≤ 57 then some (n - 48)
  else if 97 ≤ n ∧ n ≤ 102 then some (n - 87)
  else if 65 ≤ n ∧ n ≤ 70 then some (n - 55)
  else none

def hex4 (a b c d : Char) : Option Nat := do
  let a ← hexValue a
  let b ← hexValue b
  let c ← hexValue c
  let d ← hexValue d
  return 4096 * a + 256 * b + 16 * c + d

def simpleEscape (c : Char) : Option Nat :=
  if c = '"' || c = '\\' || c = '/' then some c.toNat
  else if c = 'b' then some 8
  else if c = 't' then some 9
  else if c = 'n' then some 10
  else if c = 'f' then some 12
  else if c = 'r' then some 13
  else none

/-- The code units of a string literal up to its closing quote, and what follows. -/
def parseUnits : List Char → Option (List Nat × List Char)
  | [] => none
  | c :: cs =>
    if c = '"' then some ([], cs)
    else if c = '\\' then
      match cs with
      | e :: rest =>
        if e = 'u' then
          match rest with
          | a :: b :: c' :: d :: rest' =>
            (hex4 a b c' d).bind fun u => (parseUnits rest').map fun p => (u :: p.1, p.2)
          | _ => none
        else (simpleEscape e).bind fun u => (parseUnits rest).map fun p => (u :: p.1, p.2)
      | [] => none
    else if c.toNat < 32 then none
    else (parseUnits cs).map fun p => (c.toNat :: p.1, p.2)

def isHigh (n : Nat) : Bool := 0xD800 ≤ n && n ≤ 0xDBFF
def isLow (n : Nat) : Bool := 0xDC00 ≤ n && n ≤ 0xDFFF

/-- Surrogate pairs become one character, a lone surrogate the replacement character. -/
def joinUnits : List Nat → List Char
  | [] => []
  | [n] => [if isHigh n || isLow n then Char.ofNat 0xFFFD else Char.ofNat n]
  | h :: l :: rest =>
    if isHigh h && isLow l then Char.ofNat (0x10000 + 1024 * (h - 0xD800) + (l - 0xDC00)) ::
      joinUnits rest
    else (if isHigh h || isLow h then Char.ofNat 0xFFFD else Char.ofNat h) :: joinUnits (l :: rest)

def parseString : Option (String × List Char) :=
  (parseUnits cs).map fun p => (String.ofList (joinUnits p.1), p.2)

def isDigit (c : Char) : Bool := '0' ≤ c && c ≤ '9'

/-- The integer part of a number: no leading zero. -/
def intPart : Option (List Char × List Char) :=
  match cs with
  | '0' :: rest => some (['0'], rest)
  | _ => let ds := cs.takeWhile isDigit; if ds = [] then none else some (ds, cs.dropWhile isDigit)

/-- A fraction, empty when there is none. -/
def fracPart : Option (List Char × List Char) :=
  match cs with
  | '.' :: rest =>
    let ds := rest.takeWhile isDigit
    if ds = [] then none else some ('.' :: ds, rest.dropWhile isDigit)
  | _ => some ([], cs)

/-- An exponent, empty when there is none. -/
def expPart : Option (List Char × List Char) :=
  match cs with
  | e :: rest =>
    if e = 'e' || e = 'E' then
      let sign :=
        rest.take (match rest with | s :: _ => if s = '+' || s = '-' then 1 else 0 | [] => 0)
      let tail := rest.drop sign.length
      let ds := tail.takeWhile isDigit
      if ds = [] then none else some (e :: sign ++ ds, tail.dropWhile isDigit)
    else some ([], cs)
  | [] => some ([], [])

def parseNumber : Option (Json × List Char) := do
  let (sign, cs) := match cs with | '-' :: rest => (['-'], rest) | _ => ([], cs)
  let (whole, cs) ← intPart cs
  let (frac, cs) ← fracPart cs
  let (exp, cs) ← expPart cs
  if frac = [] ∧ exp = [] then
    let n ← Text.digits whole
    return (.num (if sign = [] then n else -n), cs)
  else return (.frac (String.ofList (sign ++ whole ++ frac ++ exp)), cs)

/-- Read the exact characters of a keyword. -/
def keyword (word : String) (v : Json) (cs : List Char) : Option (Json × List Char) :=
  if word.toList.isPrefixOf cs then some (v, cs.drop word.toList.length) else none

mutual
/-- One value; `fuel` bounds the characters that may start a value. -/
def parseValue : Nat → List Char → Option (Json × List Char)
  | 0, _ => none
  | fuel + 1, cs =>
    match skipBlank cs with
    | [] => none
    | c :: rest =>
      if c = '"' then (parseString rest).map fun p => (.str p.1, p.2)
      else if c = '[' then
        match skipBlank rest with
        | ']' :: rest' => some (.arr [], rest')
        | _ => (parseItems fuel rest).map fun p => (.arr p.1, p.2)
      else if c = '\x7b' then
        match skipBlank rest with
        | '\x7d' :: rest' => some (.obj [], rest')
        | _ => (parseMembers fuel rest).map fun p => (.obj p.1, p.2)
      else if c = 'n' then keyword "null" .null (c :: rest)
      else if c = 't' then keyword "true" (.bool true) (c :: rest)
      else if c = 'f' then keyword "false" (.bool false) (c :: rest)
      else parseNumber (c :: rest)

def parseItems : Nat → List Char → Option (List Json × List Char)
  | 0, _ => none
  | fuel + 1, cs =>
    (parseValue fuel cs).bind fun p =>
      match skipBlank p.2 with
      | ']' :: rest => some ([p.1], rest)
      | ',' :: rest => (parseItems fuel rest).map fun q => (p.1 :: q.1, q.2)
      | _ => none

def parseMembers : Nat → List Char → Option (Members × List Char)
  | 0, _ => none
  | fuel + 1, cs =>
    match skipBlank cs with
    | '"' :: rest =>
      (parseString rest).bind fun k =>
        match skipBlank k.2 with
        | ':' :: rest =>
          (parseValue fuel rest).bind fun p =>
            match skipBlank p.2 with
            | '\x7d' :: rest => some ([(k.1, p.1)], rest)
            | ',' :: rest => (parseMembers fuel rest).map fun q => ((k.1, p.1) :: q.1, q.2)
            | _ => none
        | _ => none
    | _ => none
end

/-- Read a whole text as one document. -/
def parse (s : String) : Option Json :=
  match parseValue (2 * s.length + 2) s.toList with
  | some (j, rest) => if skipBlank rest = [] then some j else none
  | none => none

/-- The declared type of a record's member. -/
inductive Shape where
  | text
  | int
  | flag
  | list (item : Shape)
  | dict (value : Shape)
  | record (fields : List (String × Shape))

mutual
def Shape.accepts : Shape → Json → Bool
  | _, .null => true
  | .text, .str _ => true
  | .int, .num n => -2 ^ 63 ≤ n && n < 2 ^ 63
  | .flag, .bool _ => true
  | .list item, .arr items => items.all item.accepts
  | .dict value, .obj ms => ms.all fun m => value.accepts m.2
  | .record fields, .obj ms => acceptsFields fields ms
  | _, _ => false

def acceptsFields : List (String × Shape) → Members → Bool
  | [], _ => true
  | (k, s) :: rest, ms =>
    (match ms.lookup k with | some v => s.accepts v | none => true) && acceptsFields rest ms
end

namespace Shape

/-- A document of the shape stays one under the patch. -/
def Keeps (s : Shape) (v : Json) : Prop :=
  ∀ x, s.accepts x = true → s.accepts (mergePatch x v) = true

theorem accepts_null (s : Shape) : s.accepts .null = true := by
  cases s <;> rfl

variable {fields : List (String × Shape)} {ms : Members} {s : Shape}

theorem acceptsFields_iff :
    acceptsFields fields ms = true ↔
      ∀ f ∈ fields, ∀ v, ms.lookup f.1 = some v → f.2.accepts v = true := by
  induction fields with
  | nil => simp [acceptsFields]
  | cons f rest ih =>
    obtain ⟨k, s⟩ := f
    simp only [acceptsFields, Bool.and_eq_true, ih, forall_mem_cons]
    cases ms.lookup k <;> simp

theorem accepts_record {x : Json} (h : (record fields).accepts x = true) :
    acceptsFields fields x.members = true := by
  cases x with
  | obj ms => exact h
  | null => exact acceptsFields_iff.mpr (by simp [Json.members])
  | _ => cases h

theorem accepts_lookup {k : String} (h : ∀ v, ms.lookup k = some v → s.accepts v = true) :
    s.accepts ((ms.lookup k).getD .null) = true := by
  cases hl : ms.lookup k with
  | none => exact s.accepts_null
  | some v => exact h v hl

theorem Keeps.of_not_obj {v : Json} (h : s.accepts v = true) (hobj : ∀ ms, v ≠ .obj ms) :
    s.Keeps v := by
  intro x _
  cases v with
  | obj ms => exact absurd rfl (hobj ms)
  | _ => exact h

theorem Keeps.record {ps : Members} (hn : (ps.map Prod.fst).Nodup)
    (h : ∀ m ∈ ps, m.2 ≠ .null ∧ ∀ f ∈ fields, f.1 = m.1 → f.2.Keeps m.2) :
    (record fields).Keeps (.obj ps) := by
  intro x hx
  have hold := acceptsFields_iff.mp (accepts_record hx)
  refine acceptsFields_iff.mpr ?_
  intro f hf v hv
  by_cases hk : f.1 ∈ ps.map Prod.fst
  · obtain ⟨m, hm, hmk⟩ := mem_map.mp hk
    obtain ⟨hnull, hkeeps⟩ := h m hm
    rw [← hmk, lookup_mergeMembers_mem hn hm hnull] at hv
    cases hv
    rw [hmk]
    exact hkeeps f hf hmk.symm _ (accepts_lookup (hold f hf))
  · rw [lookup_mergeMembers_absent ps _ f.1 hk] at hv
    exact hold f hf v hv

/-- A record keeps the shape when each of its fields keeps its own. -/
theorem Keeps.present {fields : List (String × Option Json)} {shapes : List (String × Shape)}
    (hn : (fields.map Prod.fst).Nodup)
    (h : Forall₂ (fun f s => f.1 = s.1 ∧ ∀ v, f.2 = some v → v ≠ .null ∧ s.2.Keeps v)
      fields shapes) :
    (Shape.record shapes).Keeps (.obj (present fields)) := by
  have names : ∀ {fs : List (String × Option Json)} {ss : List (String × Shape)},
      Forall₂ (fun f s => f.1 = s.1 ∧ ∀ v, f.2 = some v → v ≠ .null ∧ s.2.Keeps v) fs ss →
        fs.map Prod.fst = ss.map Prod.fst := by
    intro fs ss hfs
    induction hfs with
    | nil => rfl
    | cons hhead _ ih => rw [map_cons, map_cons, hhead.1, ih]
  have pick : ∀ f ∈ fields, ∀ v, f.2 = some v →
      v ≠ .null ∧ ∀ s ∈ shapes, s.1 = f.1 → s.2.Keeps v := by
    induction h with
    | nil => simp
    | @cons f s fs ss hhead htail ih =>
      simp only [map_cons, nodup_cons] at hn
      rw [names htail] at hn
      intro g hg v hv
      rcases mem_cons.mp hg with rfl | hg
      · refine ⟨(hhead.2 v hv).1, fun t ht htk => ?_⟩
        rcases mem_cons.mp ht with rfl | ht
        · exact (hhead.2 v hv).2
        · exact absurd (mem_map.mpr ⟨t, ht, htk⟩) hn.1
      · obtain ⟨hnull, hkeeps⟩ := ih (names htail ▸ hn.2) g hg v hv
        refine ⟨hnull, fun t ht htk => ?_⟩
        rcases mem_cons.mp ht with rfl | ht
        · have hmem : t.1 ∈ ss.map Prod.fst := by
            rw [htk, ← names htail]
            exact mem_map.mpr ⟨g, hg, rfl⟩
          exact absurd (hhead.1 ▸ hmem) hn.1
        · exact hkeeps t ht htk
  refine Keeps.record (present_nodup fields hn) fun m hm => ?_
  exact pick _ (mem_present.mp hm) m.2 rfl

end Shape

example : parse (render (.obj [("a", .arr [.num (-3), .str "x\n"]), ("b", .bool true)])) =
    some (.obj [("a", .arr [.num (-3), .str "x\n"]), ("b", .bool true)]) := by decide +kernel

end JsonValue
