import Mathlib.Algebra.Order.Ring.Unbundled.Rat
import Steward.PerlClasses
import Steward.RegexTree
import Steward.Report

/-!
# Fingerprint rules

The agent's rule classifier: rules are read from a text, each with a matcher, the gate that
its matcher implies, and what it extracts; evidence is classified by the rules in order. The
parser of the texts, the regular expressions and the case tables are parameters.
-/

namespace Steward.Fingerprints

open Fallible Utf8 RegexTree

structure Evidence where
  source : String := ""
  kind : String := ""
  ip : String := ""
  port : Int := 0
  protocol : String := ""
  rawData : Option Fields := none
  confidence : Rat := 0
  observedAt : String := ""
  deriving DecidableEq

def Evidence.raw (e : Evidence) (key : String) : String := (e.rawData.getD .empty).get key

structure ServiceIdentity where
  service : String
  port : Int
  protocol : String
  confidence : Rat
  evidence : List Evidence
  metadata : Option Fields
  deriving DecidableEq

/-! ## Rule texts -/

inductive Yaml where
  | string (s : String)
  /-- A number, as the integer that it is read as. -/
  | number (i : Int)
  | sequence (items : List Yaml)
  | tagged (value : Yaml)
  | other

namespace Yaml

/-- `as_str` looks behind tags. -/
def asStr : Yaml → Option String
  | string s => some s
  | tagged value => value.asStr
  | _ => none

def toStringExact : Yaml → String
  | string s => s
  | _ => ""

/-- `to_strings` drops what is no text. -/
def toStrings : Yaml → List String
  | string s => [s]
  | sequence items => items.filterMap fun
    | string s => some s
    | _ => none
  | _ => []

def toInt : Yaml → Option Int
  | number i => some i
  | string s => Text.parseInt s
  | _ => none

end Yaml

inductive Op where
  | kindPresence | port | portEq | hasPrefix | hasPrefixCi | contains | containsAny | equals | regex
  | compound | or
  | unknown (text : String)
  deriving DecidableEq

structure MatchSpec where
  kind : String := ""
  field : String := ""
  op : Op
  value : Yaml := .other
  ci : Bool := false
  trim : Bool := false
  transform : String := ""
  and : List MatchSpec := []
  any : List MatchSpec := []

/-- What holds of a specification when it holds of its parts holds of every one. -/
theorem MatchSpec.induct {P : MatchSpec → Prop}
    (mk : ∀ spec : MatchSpec, (∀ s ∈ spec.and, P s) → (∀ s ∈ spec.any, P s) → P spec)
    (spec : MatchSpec) : P spec :=
  @MatchSpec.rec P (fun specs => ∀ s ∈ specs, P s)
    (fun kind field op value ci trim transform and any hand hany =>
      mk ⟨kind, field, op, value, ci, trim, transform, and, any⟩ hand hany)
    (fun _ h => by cases h) (fun _ _ hs hrest => List.forall_mem_cons.mpr ⟨hs, hrest⟩) spec

structure KwEntry where
  containsAny : List String := []
  contains : String := ""
  set : String
  deriving DecidableEq

/-- `RawExtractor`, which is what the rule keeps apart from the range of a capture. -/
inductive Extractor where
  | const (text : String)
  | passthrough (field : String)
  | split (delim : String) (index : Nat)
  | substringAfter (field delim : String) (until_ : List String)
  | keywordMap (field : String) (ci : Bool) (entries : List KwEntry)
  | whenEquals (field value set : String)
  | regexCapture (group : Int)
  deriving DecidableEq

structure RawExtract where
  metadataAll : Bool := false
  metadata : List (Yaml × Yaml) := []

structure RawRule where
  id : String := ""
  match_ : Option MatchSpec
  service : String := ""
  protocol : String := ""
  confidence : Rat := 0
  literalConfidence : Bool := false
  priority : Int := 0
  group : String := ""
  extract : RawExtract := {}

structure RuleFile where
  version : Int
  rules : List RawRule := []

inductive RuleError where
  | missingMatch
  | badInt
  | unknownTransform (text : String)
  | invalidRegex (pattern : String)
  | negatedClass (pattern : String) (letter : Char)
  | unknownOp (text : String)
  | metadataKey
  | extractor (key : String)
  | captureOutOfRange (group : Int)
  deriving DecidableEq

inductive LoadError where
  | unreadable (file : String)
  | decode (file : String)
  | unsupportedVersion (file : String) (version : Int)
  | rule (file id : String) (error : RuleError)
  deriving DecidableEq

/-- Computations that may panic and have no errors. -/
abbrev Checked := Res Empty

/-! ## What is given -/

/-- The case tables. -/
structure CaseMaps where
  lower : Char → Char
  upper : Char → Char
  foldRep : Char → Nat

namespace CaseMaps

variable (m : CaseMaps)

def goToLower (s : String) : String := String.ofList (s.toList.map m.lower)

def goToUpper (s : String) : String := String.ofList (s.toList.map m.upper)

def equalFoldChars : List Char → List Char → Bool
  | [], [] => true
  | x :: xs, y :: ys => (x = y || m.foldRep x = m.foldRep y) && equalFoldChars xs ys
  | _, _ => false

def goEqualFold (a b : String) : Bool := m.equalFoldChars a.toList b.toList

end CaseMaps

/-- A compiled regular expression. -/
structure Program where
  isMatch : String → Bool
  captures : String → Option (List (Option String))

structure Libs where
  cases : CaseMaps
  /-- The tree of a pattern. -/
  parse : String → Option Ast
  validates : String → Bool
  compile : String → Option Program
  decode : String → Option RuleFile
  decodeExtractor : Yaml → Option Extractor

/-! ## Matchers -/

inductive Transform where
  | stripSshPrefix | stripRespCode
  deriving DecidableEq

def isAsciiDigit (b : UInt8) : Bool := 0x30 ≤ b && b ≤ 0x39

namespace Transform

def parse (s : String) : Res RuleError (Option Transform) :=
  if s = "" then .ok none
  else if s = "strip_ssh_prefix" then .ok (some stripSshPrefix)
  else if s = "strip_resp_code" then .ok (some stripRespCode)
  else .err (.unknownTransform s)

/-- What follows the first dash. -/
def afterDash (cs : List Char) : Option (List Char) := (cs.dropWhile (· ≠ '-')).tail?

def apply : Transform → String → Checked String
  | stripSshPrefix, v =>
    .ok (((afterDash v.toList).bind afterDash).elim v String.ofList)
  | stripRespCode, v =>
    let bs := bytes v.toList
    if 4 < bs.length ∧ bs[3]? = some 0x20 ∧ (bs.take 3).all isAsciiDigit = true then sliceFrom v 4
    else .ok v

end Transform

def fieldOf (e : Evidence) (field : String) (trim : Bool) : String :=
  if trim then Text.trimSpace (e.raw field) else e.raw field

def transformed (t : Option Transform) (v : String) : Checked String :=
  match t with
  | some t => t.apply v
  | none => .ok v

def fieldOfTransformed (e : Evidence) (field : String) (t : Option Transform) :
    Checked String :=
  transformed t (fieldOf e field false)

inductive Matcher where
  | rootKind (kind : String) (inner : Matcher)
  | kindPresence (kind : String)
  | portEq (port : Int)
  | hasPrefix (field : String) (trim : Bool) (needlesUpper : List String)
  | contains (field : String) (trim ci : Bool) (needles : List String)
  | equals (field : String) (trim ci : Bool) (value : String)
  | regex (field : String) (transform : Option Transform) (pattern : String)
  | and (list : List Matcher)
  | or (list : List Matcher)
  | true

/-- What holds of a matcher when it holds of its parts holds of every one. -/
theorem Matcher.induct {P : Matcher → Prop}
    (rootKind : ∀ kind inner, P inner → P (.rootKind kind inner))
    (kindPresence : ∀ kind, P (.kindPresence kind)) (portEq : ∀ port, P (.portEq port))
    (hasPrefix : ∀ field trim needles, P (.hasPrefix field trim needles))
    (contains : ∀ field trim ci needles, P (.contains field trim ci needles))
    (equals : ∀ field trim ci value, P (.equals field trim ci value))
    (regex : ∀ field transform pattern, P (.regex field transform pattern))
    (and : ∀ list, (∀ m ∈ list, P m) → P (.and list))
    (or : ∀ list, (∀ m ∈ list, P m) → P (.or list)) (true : P .true) (m : Matcher) : P m :=
  @Matcher.rec P (fun list => ∀ m ∈ list, P m) rootKind kindPresence portEq hasPrefix contains
    equals regex and or true (fun _ h => by cases h)
    (fun _ _ hm hrest => List.forall_mem_cons.mpr ⟨hm, hrest⟩) m

section Match

variable (L : Libs)

/-- `RegexCache.get`: the program of a pattern, kept or compiled anew. -/
def getRegex (pattern : String) : Checked (Option Program) :=
  match rewritePerlClasses pattern with
  | .ok rewritten => .ok (L.compile rewritten)
  | .err _ => .ok none
  | .panic p => .panic p
  | .spin => .spin

mutual

def Matcher.matches (e : Evidence) : Matcher → Checked Bool
  | .rootKind kind inner => if e.kind = kind then inner.matches e else .ok false
  | .kindPresence kind => .ok (e.kind = kind)
  | .portEq port => .ok (e.port = port)
  | .hasPrefix field trim needlesUpper =>
    let v := L.cases.goToUpper (fieldOf e field trim)
    .ok (needlesUpper.any (Text.hasPrefix · v))
  | .contains field trim ci needles =>
    let raw := fieldOf e field trim
    let v := if ci then L.cases.goToLower raw else raw
    .ok (needles.any (Text.contains v))
  | .equals field trim ci value =>
    let v := fieldOf e field trim
    .ok (if ci then L.cases.goEqualFold v value else v = value)
  | .regex field transform pattern => do
    let text ← fieldOfTransformed e field transform
    match ← getRegex L pattern with
    | some program => pure (program.isMatch text)
    | none => pure false
  | .and list => allMatch e list
  | .or list => anyMatch e list
  | .true => .ok true

def allMatch (e : Evidence) : List Matcher → Checked Bool
  | [] => .ok true
  | m :: rest => do if ← m.matches e then allMatch e rest else pure false

def anyMatch (e : Evidence) : List Matcher → Checked Bool
  | [] => .ok false
  | m :: rest => do if ← m.matches e then pure true else anyMatch e rest

end

/-! ## Extraction -/

/-- The parts of a text around the empty delimiter. -/
def splitEach : Nat → List Char → List (List Char)
  | 0, _ => []
  | 1, cs => [cs]
  | _ + 2, [] => [[]]
  | n + 2, c :: cs => [c] :: splitEach (n + 1) cs

/-- The text before the first occurrence of a delimiter, and what follows it. -/
def cutAt (delim : List Char) : List Char → Option (List Char × List Char)
  | [] => none
  | c :: cs =>
    if delim.isPrefixOf (c :: cs) then some ([], (c :: cs).drop delim.length)
    else (cutAt delim cs).map fun p => (c :: p.1, p.2)

def splitAt (delim : List Char) : Nat → List Char → List (List Char)
  | 0, _ => []
  | 1, cs => [cs]
  | n + 2, cs =>
    match cutAt delim cs with
    | some (before, behind) => before :: splitAt delim (n + 1) behind
    | none => [cs]

/-- `splitn`: at most so many parts. -/
def splitn (n : Nat) (delim cs : List Char) : List (List Char) :=
  match n with
  | 0 => []
  | 1 => [cs]
  | n + 2 => if delim = [] then [] :: splitEach (n + 1) cs else splitAt delim (n + 2) cs

structure RootRegexRef where
  original : String
  rewritten : String
  matchField : String
  deriving DecidableEq

def firstByte (s : String) : Option UInt8 := (bytes s.toList).head?

def substringAfter (s delim : String) (until_ : List String) : Checked String :=
  match firstByte delim with
  | none => .ok ""
  | some d0 =>
    match (bytes s.toList).findIdx? (· == d0) with
    | none => .ok ""
    | some i => do
      let rest ← sliceFrom s (i + 1)
      let stops := until_.filterMap firstByte
      match (bytes rest.toList).findIdx? stops.contains with
      | some j => sliceTo rest j
      | none => pure rest

def KwEntry.hit (ent : KwEntry) (ci : Bool) (s : String) : Bool :=
  let has := fun kw => Text.contains s (if ci then L.cases.goToLower kw else kw)
  if ent.containsAny ≠ [] then ent.containsAny.any has else has ent.contains

def evalExtractor (root : Option RootRegexRef) (matchTransform : Option Transform) (e : Evidence) :
    Extractor → Checked String
  | .const text => .ok text
  | .passthrough field => .ok (e.raw field)
  | .split delim index => do
    let n ← checkedAdd 64 index 1
    let parts := splitn n delim.toList (e.raw "banner").toList
    pure ((parts[index]?).elim "" String.ofList)
  | .substringAfter field delim until_ => substringAfter (e.raw field) delim until_
  | .keywordMap field ci entries =>
    let raw := e.raw field
    let s := if ci then L.cases.goToLower raw else raw
    .ok ((entries.find? (·.hit L ci s)).elim "" KwEntry.set)
  | .whenEquals .. => .ok ""
  | .regexCapture group =>
    match root with
    | none => .ok ""
    | some root => do
      let text ← fieldOfTransformed e root.matchField matchTransform
      match ← getRegex L root.original with
      | none => pure ""
      | some program =>
        pure ((((program.captures text).getD [])[group.toNat]?).join.getD "")

structure ExtractSpec where
  metadataAll : Bool := false
  metadata : List (String × Extractor) := []

namespace ExtractSpec

/-- The first pass: every entry but `when_equals`; an empty value is left out. -/
def firstPass (root : Option RootRegexRef) (matchTransform : Option Transform) (e : Evidence) :
    List (String × Extractor) → Fields → Checked Fields
  | [], md => .ok md
  | (_, .whenEquals ..) :: rest, md => firstPass root matchTransform e rest md
  | (key, ex) :: rest, md => do
    let val ← evalExtractor L root matchTransform e ex
    firstPass root matchTransform e rest (if val = "" then md else md.set key val)

def secondPass (e : Evidence) : List (String × Extractor) → Fields → Fields
  | (key, .whenEquals field value set) :: rest, md =>
    secondPass e rest (if e.raw field = value then md.set key set else md)
  | _ :: rest, md => secondPass e rest md
  | [], md => md

def apply (x : ExtractSpec) (root : Option RootRegexRef) (matchTransform : Option Transform)
    (e : Evidence) : Checked Fields := do
  let md := if x.metadataAll then e.rawData.getD .empty else .empty
  let md ← firstPass L root matchTransform e x.metadata md
  pure (secondPass e x.metadata md)

end ExtractSpec

/-! ## Gates -/

structure RuleGate where
  field : String
  transform : Option Transform
  trim : Bool
  ci : Bool
  literals : List String
  deriving DecidableEq

def isAscii (cs : List Char) : Bool := cs.all (·.toNat < 128)

def gateLiteralOk (s : String) : Bool :=
  s ≠ "" && Text.trimSpace s ≠ "" && isAscii s.toList

abbrev Literal := List Char × Bool

/-- A longer candidate takes the place of the best one. -/
def keepBest (best : Option Literal) (cand : Literal) : Option Literal :=
  if cand.1 ≠ [] ∧ best.all (fun b => (bytes b.1).length < (bytes cand.1).length) = true then
    some cand
  else best

/-- The toggles of a walk: a negation applies to the flag that follows it. -/
def toggle (negated : Bool) : List FlagItem → Bool → Bool
  | [], fold => fold
  | .negation :: rest, fold => toggle true rest fold
  | .caseInsensitive :: rest, _ => toggle false rest (!negated)
  | .other :: rest, fold => toggle false rest fold

/-- The walk along a concatenation: the run of literals that ends here, and the best so far. -/
structure Walk where
  best : Option Literal := none
  run : List Char := []
  runFold : Bool
  curFold : Bool

def Walk.flush (w : Walk) : Option Literal := keepBest w.best (w.run, w.runFold)

def Walk.push (w : Walk) (c : Char) : Walk :=
  if w.run = [] then { w with run := [c], runFold := w.curFold }
  else if w.runFold = w.curFold then { w with run := w.run ++ [c] }
  else { w with best := w.flush, run := [c], runFold := w.curFold }

theorem Walk.curFold_push (w : Walk) (c : Char) : (w.push c).curFold = w.curFold := by
  unfold Walk.push
  split
  · rfl
  · split <;> rfl

/-- A literal in lower case where it stands for any case. -/
def cased (lit : Literal) : List Char := if lit.2 then lit.1.map L.cases.lower else lit.1

/-- The part that the prefix so far has in common with the next literal. -/
def narrow (p : Option (List Char)) (lit : List Char) : Checked (List Char) :=
  match p with
  | none => .ok lit
  | some p =>
    match cut p (common (bytes p) (bytes lit)) with
    | some parts => .ok parts.1
    | none => .panic .outOfRange

mutual

def astMandatory : Ast → Bool → Checked (Option Literal)
  | .literal c, fold => .ok (some ([c], fold))
  | .repetition op inner, fold => if 1 ≤ op.min then astMandatory inner fold else .ok none
  | .group _ inner, fold => astMandatory inner fold
  | .concat items, fold => concatMandatory items { runFold := fold, curFold := fold }
  | .alternation branches, fold => alternationMandatory branches fold none
  | .empty, _ | .flags _, _ | .leaf _, _ => .ok none

def concatMandatory : List Ast → Walk → Checked (Option Literal)
  | [], w => .ok w.flush
  | .flags items :: rest, w =>
    concatMandatory rest { w with curFold := toggle false items w.curFold }
  | .literal c :: rest, w => concatMandatory rest (w.push c)
  | item :: rest, w => do
    let inner ← astMandatory item w.curFold
    concatMandatory rest { w with best := inner.elim w.flush (keepBest w.flush), run := [] }

def alternationMandatory : List Ast → Bool → Option (List Char) → Checked (Option Literal)
  | [], _, p => .ok (p.map fun p => (p, true))
  | branch :: rest, fold, p => do
    match ← astMandatory branch fold with
    | none => pure none
    | some lit =>
      if cased L lit = [] then pure none
      else
        let next ← narrow p (cased L lit)
        if next = [] then pure none else alternationMandatory rest fold (some next)

end

/-- The longest literal that a pattern asks for, and whether in any case. -/
def mandatoryLiterals (pattern : String) : Checked (Option (String × Bool)) :=
  match L.parse pattern with
  | none => .ok none
  | some ast => do
    let lit ← astMandatory L ast false
    pure (lit.map fun lit => (String.ofList (cased L lit), lit.2))

/-- `spec_values`, of the value of a specification. -/
def specValues : Yaml → List String
  | .string s => [s]
  | .sequence items => items.filterMap Yaml.asStr
  | _ => []

def longest (literals : List String) : Nat :=
  literals.foldl (fun n l => max n (bytes l.toList).length) 0

mutual

def extractGateFrom : MatchSpec → Checked (Option RuleGate)
  | ⟨_, field, op, value, ci, trim, transform, and, _⟩ =>
    match op with
    | .contains | .containsAny | .equals =>
      .ok (some ⟨field, none, trim, ci, (specValues value).filter gateLiteralOk⟩)
    | .hasPrefix | .hasPrefixCi =>
      .ok (some ⟨field, none, trim, true, (specValues value).filter gateLiteralOk⟩)
    | .regex =>
      match value.asStr with
      | none => .ok none
      | some pattern => do
        match ← mandatoryLiterals L pattern with
        | none => pure none
        | some (lit, fold) =>
          if gateLiteralOk lit then
            let t := match Transform.parse transform with
              | .ok t => t
              | _ => none
            pure (some ⟨field, t, false, fold, [lit]⟩)
          else pure none
    | .compound => bestGate and none
    | .kindPresence | .port | .portEq | .or | .unknown _ => .ok none

/-- The strongest gate among the children. -/
def bestGate : List MatchSpec → Option RuleGate → Checked (Option RuleGate)
  | [], best => .ok best
  | child :: rest, best => do
    match ← extractGateFrom child with
    | none => bestGate rest best
    | some g =>
      let stronger := g.literals ≠ [] ∧ (best.elim 0 (longest ·.literals)) < longest g.literals
      bestGate rest (if stronger then some g else best)

end

/-- The field that is read; without one, the banner. -/
def readField (field : String) : String := if field = "" then "banner" else field

/-- The gate with the literals that are fit for one; without any there is no gate. -/
def finishGate (g : RuleGate) : Option RuleGate :=
  let literals := if g.ci then g.literals.map L.cases.goToLower else g.literals
  let literals := literals.filter gateLiteralOk
  if literals = [] then none
  else some ⟨readField g.field, g.transform, g.trim, g.ci, literals⟩

variable (spec : MatchSpec)

def extractGate : Checked (Option RuleGate) := do
  let found ← extractGateFrom L spec
  pure (found.bind (finishGate L))

/-! ## Loading -/

mutual

def compileInner : MatchSpec → Res RuleError Matcher
  | ⟨kind, field, op, value, ci, trim, transform, and, any⟩ =>
    match op with
    | .kindPresence => .ok (.kindPresence kind)
    | .portEq => (Res.ofOption .badInt value.toInt) >>= fun p => pure (.portEq p)
    | .hasPrefix | .hasPrefixCi =>
      .ok (.hasPrefix (readField field) trim (value.toStrings.map L.cases.goToUpper))
    | .contains | .containsAny =>
      let needles := value.toStrings
      let needles := if ci then needles.map L.cases.goToLower else needles
      .ok (.contains (readField field) trim ci needles)
    | .equals => .ok (.equals (readField field) trim ci value.toStringExact)
    | .regex => do
      let pattern := value.toStringExact
      let t ← Transform.parse transform
      if L.validates pattern = false then .err (.invalidRegex pattern)
      else
        let _ ← (rewritePerlClasses pattern).mapErr (.negatedClass pattern)
        pure (.regex (readField field) t pattern)
    | .compound => do
      let children ← compileList and
      pure (.and children)
    | .or => do
      let children ← compileList any
      pure (.or children)
    | .port => .err (.unknownOp "port")
    | .unknown text => .err (.unknownOp text)

def compileList : List MatchSpec → Res RuleError (List Matcher)
  | [] => .ok []
  | spec :: rest => do
    let m ← compileInner spec
    let ms ← compileList rest
    pure (m :: ms)

end

/-- The kind of the evidence is checked at the root only. -/
def compileRoot : Res RuleError Matcher := do
  let inner ← compileInner L spec
  if spec.kind ≠ "" ∧ spec.op ≠ .kindPresence ∧ spec.op ≠ .port then
    pure (.rootKind spec.kind inner)
  else pure inner

def parseEntry (entry : Yaml × Yaml) : Res RuleError (String × Extractor) :=
  match entry.1.asStr with
  | none => .err .metadataKey
  | some key =>
    match L.decodeExtractor entry.2 with
    | none => .err (.extractor key)
    | some (.regexCapture group) =>
      if 1 ≤ group ∧ group ≤ 100 then .ok (key, .regexCapture group)
      else .err (.captureOutOfRange group)
    | some ex => .ok (key, ex)

def parseEntries : List (Yaml × Yaml) → Res RuleError (List (String × Extractor))
  | [] => .ok []
  | entry :: rest => do
    let x ← parseEntry L entry
    let xs ← parseEntries rest
    pure (x :: xs)

def parseExtract (raw : RawExtract) : Res RuleError ExtractSpec := do
  let metadata ← parseEntries L raw.metadata
  pure ⟨raw.metadataAll, metadata⟩

structure CompiledRule where
  id : String
  service : String
  protocol : String
  conf : Rat
  literalConf : Bool
  group : String
  /-- The port of a rule for the host as a whole. -/
  hostPort : Option Int
  matcher : Matcher
  gate : Option RuleGate
  extract : ExtractSpec
  matchTransform : Option Transform
  rootRegex : Option RootRegexRef
  sortPriority : Int

/-- A rule for the host as a whole has a port, and neither a matcher nor a gate. -/
def hostPortOf : Res RuleError (Option Int) :=
  if spec.op = .port then do
    let port ← Res.ofOption .badInt spec.value.toInt
    pure (some port)
  else .ok none

def matcherOf (hostPort : Option Int) (spec : MatchSpec) : Res RuleError Matcher :=
  if hostPort.isSome then .ok .true else compileRoot L spec

def gateOf (hostPort : Option Int) (spec : MatchSpec) : Checked (Option RuleGate) :=
  if hostPort.isSome then .ok none else extractGate L spec

def matchTransformOf : Res RuleError (Option Transform) :=
  if spec.op = .regex then Transform.parse spec.transform else .ok none

def rootRegexOf : Res RuleError (Option RootRegexRef) :=
  if spec.op = .regex then do
    let original := spec.value.toStringExact
    let rewritten ← (rewritePerlClasses original).mapErr (.negatedClass original)
    pure (some ⟨original, rewritten, readField spec.field⟩)
  else .ok none

/-- The rule with what stands beside its matcher. -/
def completeRule (raw : RawRule) (spec : MatchSpec) (hostPort : Option Int) (matcher : Matcher)
    (gate : Option RuleGate) : Res RuleError CompiledRule := do
  let extract ← parseExtract L raw.extract
  let matchTransform ← matchTransformOf spec
  let root ← rootRegexOf spec
  pure { id := raw.id, service := raw.service, protocol := raw.protocol, conf := raw.confidence
         literalConf := raw.literalConfidence, group := raw.group, hostPort := hostPort
         matcher := matcher, gate := gate, extract := extract, matchTransform := matchTransform
         rootRegex := root, sortPriority := raw.priority }

def compileSpec (file : String) (raw : RawRule) (spec : MatchSpec) :
    Res LoadError CompiledRule := do
  let hostPort ← (hostPortOf spec).mapErr (.rule file raw.id)
  let matcher ← (matcherOf L hostPort spec).mapErr (.rule file raw.id)
  let gate ← (gateOf L hostPort spec).mapErr Empty.elim
  (completeRule L raw spec hostPort matcher gate).mapErr (.rule file raw.id)

def compileRule (file : String) (raw : RawRule) : Res LoadError CompiledRule :=
  match raw.match_ with
  | none => .err (.rule file raw.id .missingMatch)
  | some spec => compileSpec L file raw spec

def compileAll (file : String) : List RawRule → Res LoadError (List CompiledRule)
  | [] => .ok []
  | raw :: rest => do
    let rule ← compileRule L file raw
    let rules ← compileAll file rest
    pure (rule :: rules)

/-- Higher priority first, then by the id. -/
def CompiledRule.precedes (a b : CompiledRule) : Prop :=
  b.sortPriority < a.sortPriority ∨ a.sortPriority = b.sortPriority ∧ a.id ≤ b.id

instance (a b : CompiledRule) : Decidable (a.precedes b) := inferInstanceAs (Decidable (_ ∨ _))

/-- `compile_rules_from_str`. -/
def compileRules (file text : String) : Res LoadError (List CompiledRule) :=
  match L.decode text with
  | none => .err (.decode file)
  | some rf =>
    if rf.version ≠ 1 then .err (.unsupportedVersion file rf.version)
    else do
      let rules ← compileAll L file rf.rules
      pure (rules.insertionSort CompiledRule.precedes)

def compileFiles : List (String × Option String) → Res LoadError (List CompiledRule)
  | [] => .ok []
  | (file, none) :: _ => .err (.unreadable file)
  | (file, some text) :: rest => do
    let rules ← compileRules L file text
    let more ← compileFiles rest
    pure (rules ++ more)

/-- `load_from_dir`, on the files in the order of their names. -/
def loadFromDir (files : List (String × Option String)) : Res LoadError (List CompiledRule) := do
  let all ← compileFiles L files
  pure (all.insertionSort CompiledRule.precedes)

/-! ## Classification -/

def clamp (a : Rat) : Rat := max 0 (min 1 a)

def fuseConfidence (a b : Rat) : Rat := min 1 (1 - (1 - clamp a) * (1 - clamp b))

/-- The texts that gates have read from one evidence, by field, transform or not, trimming and
case. -/
abbrev Texts := List ((String × Bool × Bool × Bool) × String)

def RuleGate.key (g : RuleGate) : String × Bool × Bool × Bool :=
  (g.field, g.transform.isSome, g.trim, g.ci)

def RuleGate.text (g : RuleGate) (e : Evidence) : Checked String := do
  let t ← transformed g.transform (fieldOf e g.field g.trim)
  pure (if g.ci then L.cases.goToLower t else t)

def gatePasses (g : RuleGate) (e : Evidence) (texts : Texts) : Checked (Bool × Texts) :=
  if g.literals = [] then .ok (true, texts)
  else do
    let (text, texts) ← match texts.lookup g.key with
      | some text => pure (text, texts)
      | none => do
        let text ← g.text L e
        pure (text, (g.key, text) :: texts)
    pure (g.ci && !isAscii text.toList || g.literals.any (Text.contains text), texts)

/-- A rule without a gate passes, and so does every rule where the check is removed. -/
def checkGate (gated : Bool) (gate : Option RuleGate) (e : Evidence) (texts : Texts) :
    Checked (Bool × Texts) :=
  match gate, gated with
  | some g, true => gatePasses L g e texts
  | _, _ => .ok (true, texts)

def portHasOpen (ev : List Evidence) (port : Int) : Bool :=
  port ≠ 0 && ev.any fun e => e.port = port && e.kind = "port_open"

/-- The rules for the host as a whole. -/
def hostIdentities (rules : List CompiledRule) (ev : List Evidence) : List ServiceIdentity :=
  rules.filterMap fun rl =>
    match rl.hostPort with
    | some port =>
      if portHasOpen ev port then
        some ⟨rl.service, port, rl.protocol, rl.conf, ev.filter (·.port = port), none⟩
      else none
    | none => none

def CompiledRule.identity (rl : CompiledRule) (e : Evidence) : Checked ServiceIdentity := do
  let conf := if rl.literalConf then rl.conf else fuseConfidence e.confidence rl.conf
  let md ← rl.extract.apply L rl.rootRegex rl.matchTransform e
  pure ⟨rl.service, e.port, rl.protocol, conf, [e], if md.entries = [] then none else some md⟩

/-- The rules on one evidence, with or without their gates; the groups that have fired and the
texts that were read are kept from rule to rule. -/
def fireRules (gated : Bool) (e : Evidence) :
    List CompiledRule → List String → Texts → Checked (List ServiceIdentity)
  | [], _, _ => .ok []
  | rl :: rest, fired, texts =>
    if rl.hostPort.isSome ∨ rl.group ≠ "" ∧ rl.group ∈ fired then fireRules gated e rest fired texts
    else do
      let (passes, texts) ← checkGate L gated rl.gate e texts
      if passes = false then fireRules gated e rest fired texts
      else if (← rl.matcher.matches L e) = false then fireRules gated e rest fired texts
      else
        let identity ← rl.identity L e
        let more ← fireRules gated e rest
          (if rl.group = "" then fired else fired ++ [rl.group]) texts
        pure (identity :: more)

def fireAll (gated : Bool) (rules : List CompiledRule) :
    List Evidence → Checked (List ServiceIdentity)
  | [] => .ok []
  | e :: rest => do
    let out ← fireRules L gated e rules [] []
    let more ← fireAll gated rules rest
    pure (out ++ more)

def classifyWith (gated : Bool) (rules : List CompiledRule) (ev : List Evidence) :
    Checked (List ServiceIdentity) := do
  let out ← fireAll L gated rules ev
  pure (hostIdentities rules ev ++ out)

def classify (rules : List CompiledRule) (ev : List Evidence) :
    Checked (List ServiceIdentity) := classifyWith L true rules ev

end Match

end Steward.Fingerprints
