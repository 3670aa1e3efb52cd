import Steward.FingerprintSafety
import Steward.MandatoryLiterals

/-!
# Gates of fingerprint rules

A rule with a gate looks at an evidence only when the text has one of the gate's literals. On
plain rules this skips no match: whenever the matcher of a rule matches an evidence, its gate
passes. The texts that gates have read are shared between the rules; they are the right ones
where gates with one key have one transform.
-/

namespace Steward.Fingerprints

open Fallible Utf8 RegexTree Text Res

/-- What is assumed of the libraries: the laws of the case tables, that the parser puts flags
into concatenations, and that what an expression finds fits the tree of its pattern. -/
structure Libs.Sound (L : Libs) (same : Char → Char → Prop) : Prop where
  cases : L.cases.Lawful same
  shaped : ∀ p ast, L.parse p = some ast → Shaped ast
  finds : ∀ p q program t, rewritePerlClasses p = .ok q → L.compile q = some program →
    program.isMatch t = true →
      ∃ ast, L.parse p = some ast ∧ ∃ w, w <:+: t.toList ∧ Fits same ast false w

variable {L : Libs} {same : Char → Char → Prop}

/-! ## Literals -/

variable {cs : List Char} {ms : List Matcher} {m : Matcher} {rl : CompiledRule} {texts : Texts}
  {c : Char} {p : String}

theorem isAscii_iff : isAscii cs = true ↔ ∀ c ∈ cs, Ascii c := by
  simp [isAscii, Ascii]

variable {s : String} {specs : List MatchSpec} {g : RuleGate} {e : Evidence}
  {rules : List CompiledRule}

theorem gateLiteralOk_iff :
    gateLiteralOk s = true ↔ (∃ c ∈ s.toList, isSpace c = false) ∧ ∀ c ∈ s.toList, Ascii c := by
  have hblank : trimSpace s ≠ "" ↔ ∃ c ∈ s.toList, isSpace c = false := by
    rw [ne_eq, trimSpace_eq_empty_iff]
    simp
  simp only [gateLiteralOk, Bool.and_eq_true, decide_eq_true_eq, isAscii_iff, hblank]
  constructor
  · exact fun h => ⟨h.1.2, h.2⟩
  · rintro ⟨⟨c, hc, hspace⟩, hascii⟩
    refine ⟨⟨fun hempty => ?_, c, hc, hspace⟩, hascii⟩
    simp [hempty] at hc

theorem lower_ok (hL : L.Sound same) (h : gateLiteralOk s = true) :
    gateLiteralOk (L.cases.goToLower s) = true := by
  obtain ⟨⟨c, hc, hspace⟩, hascii⟩ := gateLiteralOk_iff.mp h
  have hlower : ∀ c ∈ s.toList, L.cases.lower c = c.toLower := fun c hc =>
    hL.cases.lower_ascii c (hascii c hc)
  simp only [gateLiteralOk_iff, CaseMaps.goToLower, String.toList_ofList, List.mem_map]
  constructor
  · exact ⟨_, ⟨c, hc, rfl⟩, by rw [hlower c hc, isSpace_toLower, hspace]⟩
  · rintro _ ⟨d, hd, rfl⟩
    have hd' := hascii d hd
    have hnat := toNat_toLower d
    rw [hlower d hd, Ascii]
    unfold Ascii at hd'
    split at hnat <;> omega

/-! ## What a gate asks for -/

/-- The text of the evidence has one of the literals, or letters of which case tables say
nothing. -/
def Holds (L : Libs) (g : RuleGate) (e : Evidence) : Prop :=
  ∀ text, transformed g.transform (fieldOf e (readField g.field) g.trim) = .ok text →
    if g.ci = true then
      isAscii (text.toList.map L.cases.lower) = true →
        ∃ l ∈ g.literals, l.toList.map L.cases.lower <:+: text.toList.map L.cases.lower
    else ∃ l ∈ g.literals, l.toList <:+: text.toList

theorem contains_iff {sub : String} : contains s sub = true ↔ sub.toList <:+: s.toList :=
  containsChars_iff

theorem toStrings_subset {value : Yaml} {v : String} (h : v ∈ value.toStrings) :
    v ∈ specValues value := by
  cases value with
  | string s => exact h
  | sequence items =>
    obtain ⟨item, hitem, hv⟩ := List.mem_filterMap.mp h
    refine List.mem_filterMap.mpr ⟨item, hitem, ?_⟩
    cases item <;> simp_all [Yaml.asStr]
  | _ => cases h

theorem isAscii_of_part {p : List Char} (h : p <:+: cs) (hcs : isAscii cs = true) :
    isAscii p = true :=
  isAscii_iff.mpr fun c hc => isAscii_iff.mp hcs c (h.mem hc)

section Ops

variable {e : Evidence} {field : String} {trim ci : Bool} {value : Yaml}

theorem contains_holds
    (hplain : ∀ v ∈ value.toStrings, gateLiteralOk v = true ∨
      ci = true ∧ isAscii (v.toList.map L.cases.lower) = false)
    (hmatch : (Matcher.contains (readField field) trim ci
      (if ci then value.toStrings.map L.cases.goToLower else value.toStrings)).matches L e =
        .ok true) :
    Holds L ⟨field, none, trim, ci, (specValues value).filter gateLiteralOk⟩ e := by
  intro text htext
  cases htext
  have hliteral : ∀ v ∈ value.toStrings, gateLiteralOk v = true →
      v ∈ (specValues value).filter gateLiteralOk := fun v hv hok =>
    List.mem_filter.mpr ⟨toStrings_subset hv, hok⟩
  rw [Matcher.matches, ok.injEq, List.any_eq_true] at hmatch
  obtain ⟨n, hn, hcontains⟩ := hmatch
  rw [contains_iff] at hcontains
  cases ci with
  | false =>
    refine ⟨n, hliteral n hn ((hplain n hn).resolve_right fun h => by cases h.1), ?_⟩
    exact hcontains
  | true =>
    intro hascii
    obtain ⟨v, hv, rfl⟩ := List.mem_map.mp hn
    simp only [if_true, CaseMaps.goToLower, String.toList_ofList] at hcontains
    rcases hplain v hv with hok | ⟨-, hnon⟩
    · exact ⟨v, hliteral v hv hok, hcontains⟩
    · rw [isAscii_of_part hcontains hascii] at hnon
      cases hnon

theorem hasPrefix_holds (hL : L.Sound same)
    (hplain : ∀ v ∈ value.toStrings, gateLiteralOk v = true)
    (hmatch : (Matcher.hasPrefix (readField field) trim
      (value.toStrings.map L.cases.goToUpper)).matches L e = .ok true) :
    Holds L ⟨field, none, trim, true, (specValues value).filter gateLiteralOk⟩ e := by
  intro text htext
  cases htext
  rw [Matcher.matches, ok.injEq, List.any_eq_true] at hmatch
  obtain ⟨n, hn, hstart⟩ := hmatch
  obtain ⟨v, hv, rfl⟩ := List.mem_map.mp hn
  intro hascii
  refine ⟨v, List.mem_filter.mpr ⟨toStrings_subset hv, hplain v hv⟩, ?_⟩
  obtain ⟨-, hv'⟩ := gateLiteralOk_iff.mp (hplain v hv)
  simp only [hasPrefix, CaseMaps.goToUpper, String.toList_ofList,
    List.isPrefixOf_iff_prefix] at hstart
  rw [isAscii_iff] at hascii
  refine List.IsPrefix.isInfix ?_
  -- letter by letter, along the needle
  generalize v.toList = needle at hv' hstart
  generalize (fieldOf e (readField field) trim).toList = cs at hascii hstart
  induction needle generalizing cs with
  | nil => exact List.nil_prefix
  | cons c needle ih =>
    cases cs with
    | nil => simp at hstart
    | cons d cs =>
      simp only [List.map_cons, List.cons_prefix_cons, List.forall_mem_cons] at hstart hv' hascii ⊢
      refine ⟨?_, ih hv'.2 cs hascii.2 hstart.2⟩
      exact (hL.cases.upper_lower d c hstart.1.symm hv'.1 hascii.1).symm

theorem equals_holds (hL : L.Sound same) {s : String} (hok : gateLiteralOk s = true)
    (hmatch : (Matcher.equals (readField field) trim ci s).matches L e = .ok true) :
    Holds L ⟨field, none, trim, ci, [s]⟩ e := by
  intro text htext
  cases htext
  rw [Matcher.matches, ok.injEq] at hmatch
  cases ci with
  | false =>
    refine ⟨s, List.mem_singleton_self s, ?_⟩
    exact of_decide_eq_true hmatch ▸ List.infix_rfl
  | true =>
    intro hascii
    refine ⟨s, List.mem_singleton_self s, ?_⟩
    obtain ⟨-, hs⟩ := gateLiteralOk_iff.mp hok
    rw [isAscii_iff] at hascii
    simp only [if_true, CaseMaps.goEqualFold] at hmatch
    suffices heq : s.toList.map L.cases.lower =
        (fieldOf e (readField field) trim).toList.map L.cases.lower from
      heq ▸ List.infix_rfl
    generalize s.toList = needle at hs hmatch
    generalize (fieldOf e (readField field) trim).toList = cs at hascii hmatch
    induction needle generalizing cs with
    | nil =>
      cases cs with
      | nil => rfl
      | cons d cs => cases hmatch
    | cons c needle ih =>
      cases cs with
      | nil => cases hmatch
      | cons d cs =>
        simp only [CaseMaps.equalFoldChars, Bool.and_eq_true, Bool.or_eq_true,
          decide_eq_true_eq] at hmatch
        simp only [List.map_cons, List.forall_mem_cons] at hs hascii ⊢
        rw [ih hs.2 cs hascii.2 hmatch.2]
        congr 1
        rcases hmatch.1 with rfl | hfold
        · rfl
        · exact (hL.cases.fold_lower d c hfold hs.1 hascii.1).symm

/-- Letters that are alike have the same lower case, where both are ASCII. -/
theorem map_lower_eq {v lit : List Char} (h : List.Forall₂ (Like L) v lit)
    (hv : ∀ c ∈ v.map L.cases.lower, Ascii c) (hlit : ∀ c ∈ lit.map L.cases.lower, Ascii c) :
    v.map L.cases.lower = lit.map L.cases.lower := by
  induction h with
  | nil => rfl
  | cons hlike _ ih =>
    simp only [List.map_cons, List.forall_mem_cons] at hv hlit ⊢
    rw [hlike hv.1 hlit.1, ih hv.2 hlit.2]

variable {pattern : String}

theorem getRegex_eq_some {program : Program} (h : getRegex L pattern = .ok (some program)) :
    ∃ q, rewritePerlClasses pattern = .ok q ∧ L.compile q = some program := by
  unfold getRegex at h
  split at h
  · next q hq => exact ⟨q, hq, ok.inj h⟩
  · cases h
  · cases h
  · cases h

theorem regex_holds (hL : L.Sound same) {literal : String} {fold : Bool} {t : Option Transform}
    (hunfolded : fold = false → ∀ ast ∈ L.parse pattern, Unfolded ast)
    (hliteral : mandatoryLiterals L pattern = .ok (some (literal, fold)))
    (hok : gateLiteralOk literal = true)
    (hmatch : (Matcher.regex (readField field) t pattern).matches L e = .ok true) :
    Holds L ⟨field, t, false, fold, [literal]⟩ e := by
  intro text htext
  rw [Matcher.matches, fieldOfTransformed, htext, ok_bind] at hmatch
  obtain ⟨program, hprogram, hfound⟩ := bind_eq_ok.mp hmatch
  cases program with
  | none => cases hfound
  | some program =>
    obtain ⟨q, hrewrite, hcompile⟩ := getRegex_eq_some hprogram
    obtain ⟨ast, hparse, w, hw, hfits⟩ := hL.finds _ q program text hrewrite hcompile
      (ok.inj hfound)
    simp only [mandatoryLiterals, hparse] at hliteral
    obtain ⟨found, hmandatory, hpure⟩ := bind_eq_ok.mp hliteral
    obtain ⟨lit, rfl, hlit⟩ := Option.map_eq_some_iff.mp (ok.inj hpure)
    obtain ⟨rfl, rfl⟩ := Prod.mk.inj hlit
    obtain ⟨⟨v, hv, hlike⟩, hexact⟩ :=
      mandatory_found hL.cases ast false false lit w hmandatory hfits
    cases hfold : lit.2 with
    | false =>
      refine ⟨_, List.mem_singleton_self _, ?_⟩
      rw [String.toList_ofList, cased, hfold]
      exact (hexact ⟨hL.shaped _ _ hparse, hunfolded hfold ast hparse, id⟩ hfold).trans hw
    | true =>
      intro hascii
      refine ⟨_, List.mem_singleton_self _, ?_⟩
      have hcased : cased L lit = lit.1.map L.cases.lower := by rw [cased, hfold, if_pos rfl]
      have hlower : (cased L lit).map L.cases.lower = lit.1.map L.cases.lower := by
        rw [hcased, List.map_map]
        exact List.map_congr_left fun c _ => hL.cases.lower_lower c
      have hpart : v.map L.cases.lower <:+: text.toList.map L.cases.lower := (hv.trans hw).map _
      obtain ⟨-, hlitAscii⟩ := gateLiteralOk_iff.mp hok
      rw [String.toList_ofList, hcased] at hlitAscii
      rw [isAscii_iff] at hascii
      rw [String.toList_ofList, hlower,
        ← map_lower_eq hlike (fun c hc => hascii c (hpart.mem hc)) hlitAscii]
      exact hpart

end Ops

/-! ## Specifications -/

mutual

/-- The specification means what its gate, if it has one, takes it for: where some values make
literals all of them do, or cannot match an ASCII text; `equals` and `regex` have a plain text for
their value, and where the literal of a pattern keeps its case no group folds it. -/
def PlainSpec (L : Libs) : MatchSpec → Prop
  | ⟨_, _, op, value, ci, _, _, and, _⟩ =>
    match op with
    | .contains | .containsAny => (specValues value).filter gateLiteralOk ≠ [] →
      ∀ v ∈ value.toStrings, gateLiteralOk v = true ∨
        ci = true ∧ isAscii (v.toList.map L.cases.lower) = false
    | .hasPrefix | .hasPrefixCi => (specValues value).filter gateLiteralOk ≠ [] →
      ∀ v ∈ value.toStrings, gateLiteralOk v = true
    | .equals => (specValues value).filter gateLiteralOk ≠ [] → ∃ s, value = .string s
    | .regex => ∀ p ∈ value.asStr, ∀ lit, mandatoryLiterals L p = .ok (some lit) →
      gateLiteralOk lit.1 = true →
        value = .string p ∧ (lit.2 = false → ∀ ast ∈ L.parse p, Unfolded ast)
    | .compound => PlainSpecs L and
    | .kindPresence | .port | .portEq | .or | .unknown _ => True

def PlainSpecs (L : Libs) : List MatchSpec → Prop
  | [] => True
  | spec :: rest => PlainSpec L spec ∧ PlainSpecs L rest

end

theorem PlainSpecs.mem (h : PlainSpecs L specs) {s : MatchSpec} (hs : s ∈ specs) :
    PlainSpec L s := by
  induction specs with
  | nil => cases hs
  | cons spec rest ih =>
    rcases List.mem_cons.mp hs with rfl | hs
    · exact h.1
    · exact ih h.2 hs

theorem bestGate_cases {best : Option RuleGate} (h : bestGate L specs best = .ok (some g)) :
    best = some g ∨ ∃ s ∈ specs, extractGateFrom L s = .ok (some g) ∧ g.literals ≠ [] := by
  induction specs generalizing best with
  | nil => exact .inl (ok.inj h)
  | cons spec rest ih =>
    obtain ⟨found, hfound, h⟩ := bind_eq_ok.mp h
    have hrest : ∀ best, bestGate L rest best = .ok (some g) → best = some g ∨
        ∃ s ∈ spec :: rest, extractGateFrom L s = .ok (some g) ∧ g.literals ≠ [] := by
      intro best hbest
      rcases ih hbest with hsame | ⟨s, hs, hgate⟩
      · exact .inl hsame
      · exact .inr ⟨s, List.mem_cons_of_mem _ hs, hgate⟩
    cases found with
    | none => exact hrest best h
    | some own =>
      rcases hrest _ h with hsame | hchild
      · split at hsame
        · next hstronger =>
          cases hsame
          exact .inr ⟨spec, List.mem_cons_self, hfound, hstronger.1⟩
        · exact .inl hsame
      · exact .inr hchild

theorem compileList_mem (h : compileList L specs = .ok ms) {s : MatchSpec} (hs : s ∈ specs) :
    ∃ m ∈ ms, compileInner L s = .ok m := by
  induction specs generalizing ms with
  | nil => cases hs
  | cons spec rest ih =>
    obtain ⟨m, hm, h⟩ := bind_eq_ok.mp h
    obtain ⟨more, hmore, h⟩ := bind_eq_ok.mp h
    cases h
    rcases List.mem_cons.mp hs with rfl | hs
    · exact ⟨m, List.mem_cons_self, hm⟩
    · obtain ⟨m', hm', hcompile⟩ := ih hmore hs
      exact ⟨m', List.mem_cons_of_mem _ hm', hcompile⟩

theorem allMatch_mem (h : allMatch L e ms = .ok true) (hm : m ∈ ms) :
    m.matches L e = .ok true := by
  induction ms with
  | nil => cases hm
  | cons own rest ih =>
    obtain ⟨b, hb, h⟩ := bind_eq_ok.mp h
    cases b with
    | false => cases h
    | true =>
      rcases List.mem_cons.mp hm with rfl | hm
      · exact hb
      · exact ih h hm

/-- Where the matcher of a plain specification matches, its gate holds; its literals are fit for
one. -/
theorem gate_holds (hL : L.Sound same) (spec : MatchSpec) (hplain : PlainSpec L spec)
    (hm : compileInner L spec = .ok m) (hg : extractGateFrom L spec = .ok (some g))
    (hliterals : g.literals ≠ []) (hmatch : m.matches L e = .ok true) :
    Holds L g e ∧ ∀ l ∈ g.literals, gateLiteralOk l = true := by
  induction spec using MatchSpec.induct generalizing g m with
  | mk spec hand hany =>
    obtain ⟨kind, field, op, value, ci, trim, transform, and, any⟩ := spec
    have hfilter : ∀ l ∈ (specValues value).filter gateLiteralOk, gateLiteralOk l = true :=
      fun l hl => (List.mem_filter.mp hl).2
    cases op with
    | contains | containsAny =>
      cases hm
      cases hg
      exact ⟨contains_holds (hplain hliterals) hmatch, hfilter⟩
    | hasPrefix | hasPrefixCi =>
      cases hm
      cases hg
      exact ⟨hasPrefix_holds hL (hplain hliterals) hmatch, hfilter⟩
    | equals =>
      cases hm
      cases hg
      obtain ⟨s, rfl⟩ := hplain hliterals
      have hok : gateLiteralOk s = true := by
        by_contra hbad
        exact hliterals (by simp [specValues, hbad])
      have hone : (specValues (.string s)).filter gateLiteralOk = [s] := by simp [specValues, hok]
      refine ⟨?_, hfilter⟩
      rw [hone]
      exact equals_holds hL hok hmatch
    | regex =>
      rw [extractGateFrom] at hg
      cases hvalue : value.asStr with
      | none => rw [hvalue] at hg; cases hg
      | some pattern =>
        rw [hvalue] at hg
        obtain ⟨found, hfound, hg⟩ := bind_eq_ok.mp hg
        cases found with
        | none => cases hg
        | some found =>
          dsimp only at hg
          split at hg
          · next hok =>
            obtain ⟨rfl, hunfolded⟩ := hplain pattern hvalue found hfound hok
            obtain ⟨t, ht, hm⟩ := bind_eq_ok.mp hm
            split at hm
            · cases hm
            · obtain ⟨-, -, hm⟩ := bind_eq_ok.mp hm
              cases hm
              cases hg
              rw [ht]
              exact ⟨regex_holds hL hunfolded hfound hok hmatch, List.forall_mem_singleton.mpr hok⟩
          · cases hg
    | compound =>
      obtain ⟨ms, hms, hm⟩ := bind_eq_ok.mp hm
      cases hm
      rcases bestGate_cases hg with hnone | ⟨s, hs, hgate, hne⟩
      · cases hnone
      · obtain ⟨child, hchild, hcompile⟩ := compileList_mem hms hs
        exact hand s hs (PlainSpecs.mem hplain hs) hcompile hgate hne (allMatch_mem hmatch hchild)
    | _ => cases hg

/-- The gate passes on its own text. -/
def Passes (L : Libs) (g : RuleGate) (e : Evidence) : Prop :=
  ∀ text, g.text L e = .ok text →
    (g.ci && !isAscii text.toList || g.literals.any (Text.contains text)) = true

theorem finishGate_passes (hL : L.Sound same) {g' : RuleGate}
    (hg : finishGate L g = some g')
    (h : g.literals ≠ [] → Holds L g e ∧ ∀ l ∈ g.literals, gateLiteralOk l = true) :
    Passes L g' e := by
  simp only [finishGate, Option.ite_none_left_eq_some, Option.some.injEq] at hg
  obtain ⟨hne, rfl⟩ := hg
  have hraw : g.literals ≠ [] := by
    intro hnil
    simp [hnil] at hne
  intro text htext
  obtain ⟨t, ht, hpure⟩ := bind_eq_ok.mp htext
  cases hpure
  obtain ⟨hholds, hok⟩ := h hraw
  replace hholds := hholds t ht
  cases hci : g.ci with
  | false =>
    rw [hci] at hholds
    obtain ⟨l, hl, hpart⟩ := hholds
    simp only [Bool.false_and, Bool.false_or, List.any_eq_true, Bool.false_eq_true, if_false]
    exact ⟨l, List.mem_filter.mpr ⟨hl, hok l hl⟩, contains_iff.mpr hpart⟩
  | true =>
    rw [hci, if_pos rfl] at hholds
    simp only [if_true, Bool.true_and, Bool.or_eq_true, Bool.not_eq_true', List.any_eq_true,
      CaseMaps.goToLower, String.toList_ofList]
    by_cases hascii : isAscii (t.toList.map L.cases.lower) = true
    · obtain ⟨l, hl, hpart⟩ := hholds hascii
      refine .inr ⟨L.cases.goToLower l, List.mem_filter.mpr
        ⟨List.mem_map_of_mem hl, lower_ok hL (hok l hl)⟩, contains_iff.mpr ?_⟩
      simpa only [CaseMaps.goToLower, String.toList_ofList] using hpart
    · exact .inl (by simpa using hascii)

/-! ## Rules -/

/-- A rule as it is loaded from a plain specification. -/
def Sourced (L : Libs) (rl : CompiledRule) : Prop :=
  ∃ file raw spec, PlainSpec L spec ∧ compileSpec L file raw spec = .ok rl

theorem Sourced.passes (hL : L.Sound same) (h : Sourced L rl) (hg : rl.gate = some g)
    (hmatch : rl.matcher.matches L e = .ok true) : Passes L g e := by
  obtain ⟨file, raw, spec, hplain, hrule⟩ := h
  obtain ⟨hostPort, -, hrule⟩ := bind_eq_ok.mp hrule
  obtain ⟨matcher, hmatcher, hrule⟩ := bind_eq_ok.mp hrule
  obtain ⟨gate, hgate, hrule⟩ := bind_eq_ok.mp hrule
  rw [mapErr_eq_ok] at hmatcher hgate hrule
  obtain ⟨extract, -, hrule⟩ := bind_eq_ok.mp hrule
  obtain ⟨transform, -, hrule⟩ := bind_eq_ok.mp hrule
  obtain ⟨root, -, hrule⟩ := bind_eq_ok.mp hrule
  cases hrule
  subst hg
  unfold gateOf at hgate
  unfold matcherOf at hmatcher
  split at hgate
  · cases hgate
  next hhost =>
  rw [if_neg hhost] at hmatcher
  obtain ⟨found, hfound, hpure⟩ := bind_eq_ok.mp hgate
  obtain ⟨raw', hraw', hfinish⟩ := Option.bind_eq_some_iff.mp (ok.inj hpure)
  subst hraw'
  obtain ⟨inner, hinner, hroot⟩ := bind_eq_ok.mp hmatcher
  have hinnerMatch : inner.matches L e = .ok true := by
    split at hroot
    · cases hroot
      rw [Matcher.matches] at hmatch
      split at hmatch
      · exact hmatch
      · cases hmatch
    · cases hroot
      exact hmatch
  exact finishGate_passes hL hfinish fun hne =>
    gate_holds hL spec hplain hinner hfound hne hinnerMatch

/-! ## The cache of texts -/

def literalAst (p : String) : Ast := .concat (p.toList.map .literal)

/-- The patterns of the samples: texts without operators, and a group that folds case. -/
def samplePattern (p : String) : Option (Ast × (String → Bool)) :=
  if p = "(?i:ssh)" then
    some (.group (.nonCapturing [.caseInsensitive]) (literalAst "ssh"),
      fun t => Text.contains t "ssh" || Text.contains t "SSH")
  else if p ∈ ["", "zz", "OpenSSH", "ready"] then some (literalAst p, fun t => Text.contains t p)
  else none

def regexRule (pattern : Yaml) (transform : String) : RawRule :=
  { match_ := some { op := .regex, value := pattern, transform := transform }, service := "match" }

def sampleRules (text : String) : List RawRule :=
  if text = "ssh" then [regexRule (.string "OpenSSH") "strip_ssh_prefix"]
  else if text = "values" then
    [{ match_ := some { op := .containsAny, value := .sequence [.string "é", .string "zz"] }
       service := "match" }]
  else if text = "list" then
    [{ match_ := some { op := .equals, value := .sequence [.string "zz"] }, service := "match" }]
  else if text = "tag" then [regexRule (.tagged (.string "zz")) ""]
  else if text = "group" then [regexRule (.string "(?i:ssh)") ""]
  else
    [regexRule (.string "OpenSSH") "strip_ssh_prefix",
      regexRule (.string "ready") "strip_resp_code"]

def sample : Libs where
  cases := plainCases
  parse p := some ((samplePattern p).elim (.leaf .dot) (·.1))
  validates _ := true
  compile q := (samplePattern q).map fun found =>
    { isMatch := found.2
      captures := fun _ => none }
  decode text := some ⟨1, sampleRules text⟩
  decodeExtractor _ := none

end Steward.Fingerprints
