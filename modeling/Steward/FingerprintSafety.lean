import Steward.FingerprintRules

/-!
# Panics of the rule classifier

Which rule texts and which evidence make the classifier panic. Loading slices a literal of
an alternation at the end of the bytes that it has in common with another; extraction slices
behind the first byte of a delimiter and counts the parts of a split. Everything else comes
back with a value or an error.
-/

namespace Steward.Fingerprints

open Fallible Utf8 RegexTree Res

variable (L : Libs)

/-! ## Matching -/

theorem Transform.apply_ok (t : Transform) (v : String) : ∃ text, t.apply v = .ok text := by
  cases t with
  | stripSshPrefix => exact ⟨_, rfl⟩
  | stripRespCode =>
    unfold Transform.apply
    dsimp only
    split
    · next hcode =>
      -- the fourth byte is a blank, and so a character
      obtain ⟨p, c, q, hv, hp, hc⟩ := split_at_first hcode.2.1 (by decide)
      have hsize : c.utf8Size = 1 := by
        rw [utf8Size_eq_one_iff, hc]
        decide
      have hv' : v.toList = (p ++ [c]) ++ q := by simp [hv]
      exact ⟨_, sliceFrom_append hv' (by simp [hp, hsize])⟩
    · exact ⟨_, rfl⟩

theorem transformed_ok (t : Option Transform) (v : String) :
    ∃ text, transformed t v = .ok text := by
  cases t with
  | none => exact ⟨_, rfl⟩
  | some t => exact t.apply_ok v

theorem getRegex_ok (pattern : String) : ∃ program, getRegex L pattern = .ok program := by
  have hreturns : (rewritePerlClasses pattern).Returns := rewriteFrom_returns _ _ _
  unfold getRegex
  split
  · exact ⟨_, rfl⟩
  · exact ⟨_, rfl⟩
  · next hpanic => rw [hpanic] at hreturns; exact hreturns.elim
  · next hspin => rw [hspin] at hreturns; exact hreturns.elim

theorem matches_ok (e : Evidence) (m : Matcher) : ∃ b, m.matches L e = .ok b := by
  induction m using Matcher.induct with
  | rootKind kind inner ih =>
    rw [Matcher.matches]
    split
    · exact ih
    · exact ⟨_, rfl⟩
  | kindPresence kind => exact ⟨_, rfl⟩
  | portEq port => exact ⟨_, rfl⟩
  | hasPrefix field trim needles => exact ⟨_, rfl⟩
  | contains field trim ci needles => exact ⟨_, rfl⟩
  | equals field trim ci value => exact ⟨_, rfl⟩
  | regex field transform pattern =>
    obtain ⟨text, htext⟩ := transformed_ok transform (fieldOf e field false)
    obtain ⟨program, hprogram⟩ := getRegex_ok L pattern
    rw [Matcher.matches, fieldOfTransformed, htext, ok_bind, hprogram, ok_bind]
    cases program <;> exact ⟨_, rfl⟩
  | and list ih =>
    rw [Matcher.matches]
    induction list with
    | nil => exact ⟨_, rfl⟩
    | cons m rest ihrest =>
      obtain ⟨hm, hrest⟩ := List.forall_mem_cons.mp ih
      obtain ⟨b, hb⟩ := hm
      rw [allMatch, hb, ok_bind]
      cases b with
      | false => exact ⟨_, rfl⟩
      | true => exact ihrest hrest
  | or list ih =>
    rw [Matcher.matches]
    induction list with
    | nil => exact ⟨_, rfl⟩
    | cons m rest ihrest =>
      obtain ⟨hm, hrest⟩ := List.forall_mem_cons.mp ih
      obtain ⟨b, hb⟩ := hm
      rw [anyMatch, hb, ok_bind]
      cases b with
      | false => exact ihrest hrest
      | true => exact ⟨_, rfl⟩
  | true => exact ⟨_, rfl⟩

theorem gatePasses_ok (g : RuleGate) (e : Evidence) (texts : Texts) :
    ∃ p, gatePasses L g e texts = .ok p := by
  obtain ⟨text, htext⟩ := transformed_ok g.transform (fieldOf e g.field g.trim)
  unfold gatePasses RuleGate.text
  split
  · exact ⟨_, rfl⟩
  · rw [htext]
    cases texts.lookup g.key <;> exact ⟨_, rfl⟩

/-! ## Extraction -/

/-- A split counts one part more than its index; a delimiter of several bytes must not share its
first byte with a character of the text. -/
def Extractor.Safe (e : Evidence) : Extractor → Prop
  | .split _ index => index + 1 < 2 ^ 64
  | .substringAfter field delim _ =>
    ∀ d0 ∈ firstByte delim, d0.toNat < 128 ∨ d0 ∉ bytes (e.raw field).toList
  | _ => True

variable {s : String} {root : Option RootRegexRef} {t : Option Transform}

theorem firstByte_isFirst {b : UInt8} (h : firstByte s = some b) : b.IsUTF8FirstByte := by
  unfold firstByte at h
  cases hs : s.toList with
  | nil => simp [hs] at h
  | cons c cs =>
    obtain ⟨tail, htail, -⟩ := encode_eq_cons c
    rw [hs, bytes_cons, htail] at h
    cases h
    exact first_isFirst c

/-- The part up to the first stop. -/
theorem stop_returns (rest : String) (until_ : List String) :
    (match (bytes rest.toList).findIdx? (until_.filterMap firstByte).contains with
      | some j => sliceTo rest j
      | none => (pure rest : Checked String)).Returns := by
  split
  · next j hj =>
    obtain ⟨hlt, hstop, -⟩ := List.findIdx?_eq_some_iff_getElem.mp hj
    obtain ⟨u, -, hu⟩ := List.mem_filterMap.mp (List.contains_iff_mem.mp hstop)
    exact returns_sliceTo_first (List.getElem?_eq_getElem hlt) (firstByte_isFirst hu)
  · trivial

theorem substringAfter_returns {delim : String} {until_ : List String} :
    (substringAfter s delim until_).Returns ↔
      ∀ d0 ∈ firstByte delim, d0.toNat < 128 ∨ d0 ∉ bytes s.toList := by
  unfold substringAfter
  cases hdelim : firstByte delim with
  | none => simp
  | some d0 =>
    simp only [Option.mem_def, Option.some.injEq, forall_eq']
    split
    · next hnone =>
      refine iff_of_true trivial (.inr fun hmem => ?_)
      simpa using List.findIdx?_eq_none_iff.mp hnone d0 hmem
    · next i hi =>
      obtain ⟨hlt, hd0, -⟩ := List.findIdx?_eq_some_iff_getElem.mp hi
      have hbyte : (bytes s.toList)[i]? = some d0 := by
        rw [List.getElem?_eq_getElem hlt, beq_iff_eq.mp hd0]
      have hmem : d0 ∈ bytes s.toList := List.mem_of_getElem? hbyte
      rw [returns_bind, returns_sliceFrom_first hbyte (firstByte_isFirst hdelim)]
      constructor
      · exact fun h => .inl h.1
      · intro h
        exact ⟨h.resolve_right (not_not_intro hmem), fun rest _ => stop_returns rest until_⟩

variable {e : Evidence}

theorem evalExtractor_returns (ex : Extractor) :
    (evalExtractor L root t e ex).Returns ↔ ex.Safe e := by
  cases ex with
  | const text => exact iff_of_true trivial trivial
  | passthrough field => exact iff_of_true trivial trivial
  | split delim index =>
    rw [evalExtractor, returns_bind, checkedAdd, Extractor.Safe]
    split
    · next h => exact iff_of_true ⟨trivial, fun _ _ => trivial⟩ h
    · next h => exact iff_of_false (fun hreturns => hreturns.1) h
  | substringAfter field delim until_ => exact substringAfter_returns
  | keywordMap field ci entries => exact iff_of_true trivial trivial
  | whenEquals field value set => exact iff_of_true trivial trivial
  | regexCapture group =>
    unfold evalExtractor
    cases root with
    | none => trivial
    | some root =>
      obtain ⟨text, htext⟩ := transformed_ok t (fieldOf e root.matchField false)
      obtain ⟨program, hprogram⟩ := getRegex_ok L root.original
      dsimp only
      rw [fieldOfTransformed, htext, ok_bind, hprogram, ok_bind]
      cases program <;> trivial

theorem firstPass_returns (metadata : List (String × Extractor)) (md : Fields) :
    (ExtractSpec.firstPass L root t e metadata md).Returns ↔ ∀ x ∈ metadata, x.2.Safe e := by
  induction metadata generalizing md with
  | nil => exact iff_of_true trivial fun x hx => by cases hx
  | cons entry rest ih =>
    obtain ⟨key, ex⟩ := entry
    rw [List.forall_mem_cons]
    cases ex with
    | whenEquals field value set =>
      rw [ExtractSpec.firstPass, ih]
      exact (and_iff_right trivial).symm
    | _ => exact returns_bind_and (evalExtractor_returns L _) fun _ => ih _

def CompiledRule.Extracts (rl : CompiledRule) (e : Evidence) : Prop :=
  ∀ x ∈ rl.extract.metadata, x.2.Safe e

theorem identity_returns {rl : CompiledRule} : (rl.identity L e).Returns ↔ rl.Extracts e := by
  have happly : (rl.extract.apply L rl.rootRegex rl.matchTransform e).Returns ↔ rl.Extracts e :=
    returns_bind_pure.trans (firstPass_returns L _ _)
  exact returns_bind_pure.trans happly

/-! ## Classification -/

/-- The rules that fire on an evidence, without what they extract. -/
def firing (gated : Bool) (e : Evidence) :
    List CompiledRule → List String → Texts → Checked (List CompiledRule)
  | [], _, _ => .ok []
  | rl :: rest, fired, texts =>
    if rl.hostPort.isSome ∨ rl.group ≠ "" ∧ rl.group ∈ fired then firing gated e rest fired texts
    else do
      let (passes, texts) ← checkGate L gated rl.gate e texts
      if passes = false then firing gated e rest fired texts
      else if (← rl.matcher.matches L e) = false then firing gated e rest fired texts
      else
        let more ← firing gated e rest (if rl.group = "" then fired else fired ++ [rl.group]) texts
        pure (rl :: more)

variable (gated : Bool) (file : String) (spec : MatchSpec) (raw : RawRule)

theorem checkGate_ok (gate : Option RuleGate) (e : Evidence) (texts : Texts) :
    ∃ p, checkGate L gated gate e texts = .ok p := by
  unfold checkGate
  split
  · exact gatePasses_ok L _ e texts
  · exact ⟨_, rfl⟩

/-- The rules that fire are found without a panic, and then only their extractions matter. -/
theorem fireRules_returns (e : Evidence) (rules : List CompiledRule) (fired : List String)
    (texts : Texts) :
    ∃ rs, firing L gated e rules fired texts = .ok rs ∧
      ((fireRules L gated e rules fired texts).Returns ↔ ∀ rl ∈ rs, rl.Extracts e) := by
  induction rules generalizing fired texts with
  | nil => exact ⟨[], rfl, iff_of_true trivial fun rl hrl => by cases hrl⟩
  | cons rl rest ih =>
    rw [firing, fireRules]
    by_cases hskip : rl.hostPort.isSome ∨ rl.group ≠ "" ∧ rl.group ∈ fired
    · rw [if_pos hskip, if_pos hskip]
      exact ih fired texts
    obtain ⟨⟨passes, texts'⟩, hgate⟩ := checkGate_ok L gated rl.gate e texts
    obtain ⟨b, hb⟩ := matches_ok L e rl.matcher
    rw [if_neg hskip, if_neg hskip, hgate, ok_bind, ok_bind]
    cases passes with
    | false => exact ih fired texts'
    | true =>
      simp only [Bool.true_eq_false, if_false, hb, ok_bind]
      cases b with
      | false => exact ih fired texts'
      | true =>
        obtain ⟨rs, hrs, hiff⟩ := ih (if rl.group = "" then fired else fired ++ [rl.group]) texts'
        simp only [Bool.true_eq_false, if_false, hrs, ok_bind]
        refine ⟨rl :: rs, rfl, ?_⟩
        rw [List.forall_mem_cons, ← hiff]
        exact returns_bind_and (identity_returns L) fun _ =>
          returns_bind_pure

theorem fireAll_returns (rules : List CompiledRule) (ev : List Evidence) :
    (fireAll L gated rules ev).Returns ↔
      ∀ e ∈ ev, ∀ rs, firing L gated e rules [] [] = .ok rs → ∀ rl ∈ rs, rl.Extracts e := by
  induction ev with
  | nil => exact iff_of_true trivial fun e he => by cases he
  | cons e rest ih =>
    obtain ⟨rs, hrs, hiff⟩ := fireRules_returns L gated e rules [] []
    rw [List.forall_mem_cons, hrs, ← ih]
    simp only [ok.injEq, forall_eq']
    exact returns_bind_and hiff fun _ => returns_bind_total fun _ => trivial

/-! ## Gates -/

mutual

/-- No alternation in the tree narrows its prefix to a part of a character. -/
def Smooth : Ast → Bool → Prop
  | .repetition op inner, fold => 1 ≤ op.min → Smooth inner fold
  | .group _ inner, fold => Smooth inner fold
  | .concat items, fold => SmoothItems items fold
  | .alternation branches, fold => SmoothBranches branches fold none
  | .empty, _ | .flags _, _ | .literal _, _ | .leaf _, _ => True

def SmoothItems : List Ast → Bool → Prop
  | [], _ => True
  | .flags items :: rest, fold => SmoothItems rest (toggle false items fold)
  | item :: rest, fold => Smooth item fold ∧ SmoothItems rest fold

/-- Where a branch is looked at, its literal does not part from the prefix inside a character. -/
def SmoothBranches : List Ast → Bool → Option (List Char) → Prop
  | [], _, _ => True
  | branch :: rest, fold, p => Smooth branch fold ∧
    ∀ lit, astMandatory L branch fold = .ok (some lit) → cased L lit ≠ [] →
      (∀ q ∈ p, ¬ PartInside q (cased L lit)) ∧
      ∀ next, narrow p (cased L lit) = .ok next → next ≠ [] → SmoothBranches rest fold (some next)

end

theorem narrow_returns {p : Option (List Char)} {lit : List Char} :
    (narrow p lit).Returns ↔ ∀ q ∈ p, ¬ PartInside q lit := by
  cases p with
  | none => exact iff_of_true trivial fun q hq => by cases hq
  | some q =>
    simp only [Option.mem_def, Option.some.injEq, forall_eq', narrow, ← cut_common_isSome]
    cases cut q (common (bytes q) (bytes lit)) <;> simp

theorem astMandatory_returns (ast : Ast) (fold : Bool) :
    (astMandatory L ast fold).Returns ↔ Smooth L ast fold := by
  induction ast using Ast.induct generalizing fold with
  | empty => exact iff_of_true trivial trivial
  | flags items => exact iff_of_true trivial trivial
  | literal c => exact iff_of_true trivial trivial
  | leaf kind => exact iff_of_true trivial trivial
  | repetition op inner ih =>
    rw [astMandatory, Smooth]
    split
    · next h => simp [h, ih]
    · next h => simp [h]
  | group kind inner ih => exact ih fold
  | alternation branches ih =>
    rw [astMandatory, Smooth]
    generalize none = p
    induction branches generalizing p with
    | nil => exact iff_of_true trivial trivial
    | cons branch rest ihrest =>
      obtain ⟨hbranch, hrest⟩ := List.forall_mem_cons.mp ih
      rw [alternationMandatory, SmoothBranches, returns_bind, hbranch fold]
      refine and_congr_right fun hsmooth => ?_
      obtain ⟨found, hfound⟩ := returns_iff_ok.mp ((hbranch fold).mpr hsmooth)
      simp only [hfound, ok.injEq, forall_eq']
      cases found with
      | none => exact iff_of_true trivial fun lit hlit => by cases hlit
      | some lit =>
        simp only [Option.some.injEq, forall_eq']
        split
        · next hempty => exact iff_of_true trivial fun hne => absurd hempty hne
        · next hne =>
          rw [returns_bind, narrow_returns, imp_iff_right hne]
          refine and_congr_right fun _ => forall₂_congr fun next _ => ?_
          split
          · next hnil => exact iff_of_true trivial fun hnext => absurd hnil hnext
          · next hnext => rw [imp_iff_right hnext, ihrest hrest]
  | concat items ih =>
    have hwalk : ∀ w : Walk,
        (concatMandatory L items w).Returns ↔ SmoothItems L items w.curFold := by
      induction items with
      | nil => exact fun w => iff_of_true trivial trivial
      | cons item rest ihrest =>
        obtain ⟨hitem, hrest⟩ := List.forall_mem_cons.mp ih
        intro w
        cases item with
        | flags items => exact ihrest hrest _
        | literal c =>
          simp only [concatMandatory, SmoothItems, Smooth, true_and, ihrest hrest]
          rw [Walk.curFold_push]
        | _ => exact returns_bind_and (hitem _) fun _ => ihrest hrest _
    exact hwalk _

mutual

/-- The patterns that the gate of a specification is taken from are smooth. -/
def GateSafe : MatchSpec → Prop
  | ⟨_, _, op, value, _, _, _, and, _⟩ =>
    match op with
    | .regex => ∀ p ∈ value.asStr, ∀ ast ∈ L.parse p, Smooth L ast false
    | .compound => GatesSafe and
    | _ => True

def GatesSafe : List MatchSpec → Prop
  | [] => True
  | spec :: rest => GateSafe spec ∧ GatesSafe rest

end

theorem mandatoryLiterals_returns {pattern : String} :
    (mandatoryLiterals L pattern).Returns ↔ ∀ ast ∈ L.parse pattern, Smooth L ast false := by
  unfold mandatoryLiterals
  cases L.parse pattern with
  | none => exact iff_of_true trivial fun ast hast => by cases hast
  | some ast =>
    simp only [Option.mem_def, Option.some.injEq, forall_eq', ← astMandatory_returns]
    exact returns_bind_pure

theorem extractGateFrom_returns : (extractGateFrom L spec).Returns ↔ GateSafe L spec := by
  induction spec using MatchSpec.induct with
  | mk spec hand hany =>
    obtain ⟨kind, field, op, value, ci, trim, transform, and, any⟩ := spec
    clear hany
    cases op with
    | regex =>
      rw [extractGateFrom, GateSafe]
      cases value.asStr with
      | none => exact iff_of_true trivial fun p hp => by cases hp
      | some pattern =>
        simp only [Option.mem_def, Option.some.injEq, forall_eq']
        refine (returns_bind_total fun found => ?_).trans (mandatoryLiterals_returns L)
        split
        · trivial
        · split <;> trivial
    | compound =>
      have hbest : ∀ best, (bestGate L and best).Returns ↔ GatesSafe L and := by
        induction and with
        | nil => exact fun best => iff_of_true trivial trivial
        | cons child rest ihrest =>
          obtain ⟨hchild, hrest⟩ := List.forall_mem_cons.mp hand
          exact fun best => returns_bind_and hchild fun found => by
            cases found <;> exact ihrest hrest _
      exact hbest none
    | _ => exact iff_of_true trivial trivial

theorem extractGate_returns : (extractGate L spec).Returns ↔ GateSafe L spec :=
  returns_bind_pure.trans (extractGateFrom_returns L spec)

/-! ## Loading -/

theorem transformParse_returns (s : String) : (Transform.parse s).Returns := by
  unfold Transform.parse
  repeat' split
  all_goals trivial

theorem compileInner_returns : (compileInner L spec).Returns := by
  induction spec using MatchSpec.induct with
  | mk spec hand hany =>
    obtain ⟨kind, field, op, value, ci, trim, transform, and, any⟩ := spec
    have hlist : ∀ specs : List MatchSpec, (∀ s ∈ specs, (compileInner L s).Returns) →
        (compileList L specs).Returns := by
      intro specs h
      induction specs with
      | nil => trivial
      | cons s rest ih =>
        obtain ⟨hs, hrest⟩ := List.forall_mem_cons.mp h
        exact hs.bind fun _ => (ih hrest).bind fun _ => trivial
    cases op with
    | portEq => exact (returns_ofOption _ _).bind fun _ => trivial
    | regex =>
      refine (transformParse_returns transform).bind fun t => ?_
      split
      · trivial
      · exact .bind (returns_mapErr.mpr (rewriteFrom_returns _ _ _)) fun _ => trivial
    | compound => exact (hlist and hand).bind fun _ => trivial
    | or => exact (hlist any hany).bind fun _ => trivial
    | _ => trivial

theorem compileRoot_returns : (compileRoot L spec).Returns := by
  refine (compileInner_returns L spec).bind fun _ => ?_
  split <;> trivial

theorem parseEntries_returns (entries : List (Yaml × Yaml)) : (parseEntries L entries).Returns := by
  induction entries with
  | nil => trivial
  | cons entry rest ih =>
    refine .bind ?_ fun _ => ih.bind fun _ => trivial
    unfold parseEntry
    repeat' split
    all_goals trivial

/-- The gate of a rule is safe where the rule gets that far. -/
def RuleSafe (raw : RawRule) : Prop :=
  ∀ spec ∈ raw.match_, spec.op ≠ .port → (∃ m, compileRoot L spec = .ok m) → GateSafe L spec

theorem completeRule_returns (spec : MatchSpec) (hostPort : Option Int) (matcher : Matcher)
    (gate : Option RuleGate) : (completeRule L raw spec hostPort matcher gate).Returns := by
  refine .bind ?_ fun _ => .bind ?_ fun _ => .bind ?_ fun _ => trivial
  · exact (parseEntries_returns L _).bind fun _ => trivial
  · unfold matchTransformOf
    split
    · exact transformParse_returns _
    · trivial
  · unfold rootRegexOf
    split
    · exact .bind (returns_mapErr.mpr (rewriteFrom_returns _ _ _)) fun _ => trivial
    · trivial

theorem compileSpec_returns (spec : MatchSpec) :
    (compileSpec L file raw spec).Returns ↔
      (spec.op ≠ .port → (∃ m, compileRoot L spec = .ok m) → GateSafe L spec) := by
  unfold compileSpec
  by_cases hop : spec.op = .port
  · -- a rule for the host has no gate
    refine iff_of_true ?_ fun hne => absurd hop hne
    rw [hostPortOf, if_pos hop]
    cases spec.value.toInt with
    | none => trivial
    | some port => exact returns_mapErr.mpr (completeRule_returns L raw spec _ _ _)
  · rw [hostPortOf, if_neg hop, imp_iff_right hop]
    change ((compileRoot L spec).mapErr _ >>= fun matcher => _).Returns ↔ _
    have hroot := compileRoot_returns L spec
    rw [returns_bind, returns_mapErr, and_iff_right hroot]
    simp only [mapErr_eq_ok, gateOf, Option.isSome_none, Bool.false_eq_true, if_false,
      returns_bind, returns_mapErr, extractGate_returns, completeRule_returns,
      implies_true, and_true]
    exact exists_imp.symm

theorem compileRule_returns : (compileRule L file raw).Returns ↔ RuleSafe L raw := by
  unfold compileRule RuleSafe
  cases raw.match_ with
  | none => exact iff_of_true trivial fun spec hspec => by cases hspec
  | some spec => simpa using compileSpec_returns L file raw spec

/-- The rules are safe up to the first one that is refused. -/
def RulesSafe (file : String) : List RawRule → Prop
  | [] => True
  | raw :: rest => RuleSafe L raw ∧ ∀ rule, compileRule L file raw = .ok rule → RulesSafe file rest

def FilesSafe : List (String × Option String) → Prop
  | [] => True
  | (_, none) :: _ => True
  | (file, some text) :: rest =>
    (∀ rf ∈ L.decode text, rf.version = 1 → RulesSafe L file rf.rules) ∧
      ∀ rules, compileRules L file text = .ok rules → FilesSafe rest

theorem compileAll_returns (raws : List RawRule) :
    (compileAll L file raws).Returns ↔ RulesSafe L file raws := by
  induction raws with
  | nil => exact iff_of_true trivial trivial
  | cons raw rest ih =>
    rw [compileAll, RulesSafe, returns_bind, compileRule_returns]
    exact and_congr_right fun _ => forall₂_congr fun rule _ =>
      returns_bind_pure.trans ih

theorem compileRules_returns (text : String) :
    (compileRules L file text).Returns ↔
      ∀ rf ∈ L.decode text, rf.version = 1 → RulesSafe L file rf.rules := by
  unfold compileRules
  cases L.decode text with
  | none => exact iff_of_true trivial fun rf hrf => by cases hrf
  | some rf =>
    simp only [Option.mem_def, Option.some.injEq, forall_eq']
    split
    · next h => exact iff_of_true trivial fun hversion => absurd hversion h
    · next h =>
      rw [imp_iff_right (not_not.mp h), ← compileAll_returns]
      exact returns_bind_pure

theorem loadFromDir_returns (files : List (String × Option String)) :
    (loadFromDir L files).Returns ↔ FilesSafe L files := by
  have hfiles : (compileFiles L files).Returns ↔ FilesSafe L files := by
    induction files with
    | nil => exact iff_of_true trivial trivial
    | cons entry rest ih =>
      obtain ⟨file, _ | text⟩ := entry
      · exact iff_of_true trivial trivial
      · rw [compileFiles, FilesSafe, returns_bind, compileRules_returns]
        exact and_congr_right fun _ => forall₂_congr fun rules _ =>
          returns_bind_pure.trans ih
  exact returns_bind_pure.trans hfiles

/-- Loading returns exactly when the gates of the rules it reaches are safe, and classifying
exactly when the rules that fire extract safely. -/
theorem never_panics_iff (L : Libs) :
    (∀ files, (loadFromDir L files).Returns ↔ FilesSafe L files) ∧
      ∀ rules ev, (classify L rules ev).Returns ↔
        ∀ e ∈ ev, ∀ rs, firing L true e rules [] [] = .ok rs → ∀ rl ∈ rs, rl.Extracts e :=
  ⟨loadFromDir_returns L, fun rules ev =>
    Res.returns_bind_pure.trans (fireAll_returns L true rules ev)⟩

/-! ### Rules that panic -/

def plainCases : CaseMaps where
  lower := Text.lowerChar
  upper := Char.toUpper
  foldRep c := (Text.foldChar c).toNat

def bannerRule (extract : RawExtract) : RawRule where
  id := "banner"
  match_ := some { kind := "banner", op := .kindPresence }
  service := "http"
  extract := extract

/-- Three rule texts: an alternation of accented letters, a delimiter with an accent, and a split
at the last index there is. -/
def accents : Libs where
  cases := plainCases
  parse p := if p = "é|è" then some (.alternation [.literal 'é', .literal 'è']) else none
  validates _ := true
  compile _ := none
  decode text :=
    if text = "alternation" then
      some ⟨1, [{ match_ := some { op := .regex, value := .string "é|è" } }]⟩
    else some ⟨1, [bannerRule { metadata := [(.string "version", .string text)] }]⟩
  decodeExtractor y :=
    if y.asStr = some "after" then some (.substringAfter "banner" "é" [])
    else some (.split "," (2 ^ 64 - 1))

def banner (text : String) : Evidence :=
  { kind := "banner", rawData := some (KeyMap.empty.set "banner" text) }

theorem rules_panic :
    let classified := fun text => loadFromDir accents [("rules.yaml", some text)] >>= fun rules =>
      (classify accents rules [banner "café, bar"]).mapErr Empty.elim
    ¬ (loadFromDir accents [("rules.yaml", some "alternation")]).Returns ∧
      (loadFromDir accents [("rules.yaml", some "after")]).Returns ∧
      classified "after" = .panic .outOfRange ∧
      (loadFromDir accents [("rules.yaml", some "split")]).Returns ∧
      classified "split" = .panic .overflow := by
  decide +kernel

end Steward.Fingerprints
