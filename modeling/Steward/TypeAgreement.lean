import Mathlib.Data.List.Find
import Steward.DeviceTypes

/-!
# Device types of center and agent

Center and agent read one table of type rules, each with an engine of its own. They take
the same rule for a host where the open ports are those of the services, the table names its
fields, a port rule keys on a service or a port that is not zero, an excluded service sits on a
port of the rule, and no text has a letter that the two bring to lower case in different ways.
-/

namespace Steward.TypeAgreement

/-! ## The table and the host -/

structure KeywordRule where
  type : String
  field : String := ""
  source : String := ""
  keywords : List String := []
  deriving DecidableEq

structure OsRule where
  keywords : List String
  type : String
  source : String := ""
  deriving DecidableEq

structure PortRule where
  service : String := ""
  require : List String := []
  port : Option Int := none
  portAny : List Int := []
  excludePorts : List Int := []
  excludeServices : List String := []
  type : String
  source : String := ""
  deriving DecidableEq

structure Doc where
  rules : List KeywordRule := []
  osRules : List OsRule := []
  portRules : List PortRule := []

inductive Rule where
  | keyword (r : KeywordRule)
  | os (r : OsRule)
  | port (r : PortRule)
  deriving DecidableEq

def Rule.type : Rule → String
  | keyword r => r.type
  | os r => r.type
  | port r => r.type

def Rule.source : Rule → String
  | keyword r => r.source
  | os r => r.source
  | port r => r.source

/-- What is known of a host. The center reads the open ports off the services; the agent has them
from its connections. -/
structure Signals where
  host : String := ""
  brand : String := ""
  osType : String := ""
  services : List ServiceIdentity := []
  openPorts : List Int := services.map (·.port)

/-- The first rule that matches: keyword rules, then OS labels, then the shape of the ports. -/
def Doc.select (doc : Doc) (keyword : KeywordRule → Bool) (os : OsRule → Bool)
    (port : PortRule → Bool) : Option Rule :=
  match doc.rules.find? keyword with
  | some r => some (.keyword r)
  | none =>
    match doc.osRules.find? os with
    | some r => some (.os r)
    | none => (doc.portRules.find? port).map .port

/-- Lower case of a letter, whether a sigma between these texts ends a word, and
`strings.EqualFold`. -/
structure Casing where
  lower : Char → Char
  endsWord : List Char → List Char → Bool
  equalFold : String → String → Bool
  equalFold_ascii {a b : String} (h : Text.asciiLower a = Text.asciiLower b) : equalFold a b = true

variable (c : Casing)

/-! ## The center -/

/-- `strings.ToLower` maps letter by letter. -/
def Casing.toLower (s : String) : String := String.ofList (s.toList.map c.lower)

def KeywordRule.centerMatches (r : KeywordRule) (s : Signals) : Bool :=
  let host := c.toLower s.host
  let brand := c.toLower s.brand
  let field :=
    if r.field = "brand" then brand
    else if r.field = "hint" then host ++ " " ++ brand ++ " " ++ c.toLower s.osType
    else host
  containsAny field (r.keywords.map c.toLower)

def OsRule.centerMatches (r : OsRule) (s : Signals) : Bool :=
  containsAny (c.toLower s.osType) (r.keywords.map c.toLower)

variable (r : PortRule)

/-- An absent port reads as zero. -/
def PortRule.center : PortTypeRule where
  service := r.service
  require := r.require
  port := r.port.getD 0
  portAny := r.portAny
  excludePorts := r.excludePorts
  excludeServices := r.excludeServices
  type := r.type
  source := r.source

variable (s : Signals)

def Signals.fields : Fields :=
  ((KeyMap.empty.set "node_hostname" s.host).set "inferred_brand" s.brand).set "os_type" s.osType

def Signals.report : HostReport where
  ip := ""
  services := s.services
  device := { fields := s.fields }

def PortRule.centerMatches : Bool :=
  r.center.matches s.report c.equalFold

/-- `matchDeviceType`, on any table. -/
def centerRule (doc : Doc) (s : Signals) : Option Rule :=
  doc.select (·.centerMatches c s) (·.centerMatches c s) (·.centerMatches c s)

/-! ### The table of the center -/

def TypeRule.toYaml (r : TypeRule) : KeywordRule :=
  let field := match r.field with
    | .host => "host"
    | .brand => "brand"
    | .hint => "hint"
  ⟨r.type, field, r.source, r.keywords⟩

def PortTypeRule.toYaml (r : PortTypeRule) : PortRule where
  service := r.service
  require := r.require
  port := if r.port = 0 then none else some r.port
  portAny := r.portAny
  excludePorts := r.excludePorts
  excludeServices := r.excludeServices
  type := r.type
  source := r.source

def OsTypeRule.toYaml (r : OsTypeRule) : OsRule := ⟨r.keywords, r.type, r.source⟩

def Doc.ofRules (types : List TypeRule) (oses : List OsTypeRule) (ports : List PortTypeRule) :
    Doc where
  rules := types.map TypeRule.toYaml
  osRules := oses.map OsTypeRule.toYaml
  portRules := ports.map PortTypeRule.toYaml

/-- `device_types.yaml`. -/
def shipped : Doc := .ofRules typeRules osRules portRules

def plainCasing : Casing :=
  ⟨Text.lowerChar, fun _ _ => false, Text.equalFold, Text.equalFold_of_asciiLower⟩

theorem Signals.texts :
    hostText s.report = plainCasing.toLower s.host ∧
      brandText s.report = plainCasing.toLower s.brand ∧
      osText s.report = plainCasing.toLower s.osType := by
  have hhost : s.report.field "node_hostname" = s.host := rfl
  have hsys : s.report.field "sys_name" = "" := rfl
  refine ⟨?_, rfl, rfl⟩
  rw [hostText, hhost, hsys]
  split
  · next hempty => exact hempty.symm
  · rfl

theorem shipped_keywords : (∀ r ∈ typeRules, r.keywords.map plainCasing.toLower = r.keywords) ∧
    ∀ r ∈ osRules, r.keywords.map plainCasing.toLower = r.keywords := by
  decide +kernel

theorem toYaml_matches {r : TypeRule} (h : r.keywords.map plainCasing.toLower = r.keywords)
    (s : Signals) : (TypeRule.toYaml r).centerMatches plainCasing s = r.matches s.report := by
  obtain ⟨type, field, source, keywords⟩ := r
  obtain ⟨hhost, hbrand, hos⟩ := s.texts
  unfold KeywordRule.centerMatches TypeRule.matches
  simp only [TypeRule.toYaml, h, hhost, hbrand, hos]
  cases field <;> rfl

theorem center_toYaml (r : PortTypeRule) : (PortTypeRule.toYaml r).center = r := by
  obtain ⟨service, require, port, portAny, excludePorts, excludeServices, type, source⟩ := r
  by_cases hport : port = 0
  · simp [PortTypeRule.toYaml, PortRule.center, hport]
  · simp [PortTypeRule.toYaml, PortRule.center, hport]

theorem centerRule_ofRules {types : List TypeRule} {oses : List OsTypeRule}
    (ports : List PortTypeRule) (s : Signals)
    (htypes : ∀ r ∈ types, r.keywords.map plainCasing.toLower = r.keywords)
    (hoses : ∀ r ∈ oses, r.keywords.map plainCasing.toLower = r.keywords) :
    ((centerRule plainCasing (.ofRules types oses ports) s).elim ("", "")
        fun r => (r.type, r.source)) =
      match types.find? (·.matches s.report) with
      | some r => (r.type, r.source)
      | none =>
        match oses.find? (·.matches s.report) with
        | some r => (r.type, r.source)
        | none =>
          match ports.find? (·.matches s.report) with
          | some r => (r.type, r.source)
          | none => ("", "") := by
  have hkeyword : types.find? ((·.centerMatches plainCasing s) ∘ TypeRule.toYaml) =
      types.find? (·.matches s.report) :=
    List.find?_congr fun r hr => toYaml_matches (htypes r hr) s
  have hos : oses.find? ((·.centerMatches plainCasing s) ∘ OsTypeRule.toYaml) =
      oses.find? (·.matches s.report) := by
    refine List.find?_congr fun r hr => ?_
    simp [OsTypeRule.toYaml, OsRule.centerMatches, OsTypeRule.matches, hoses r hr, s.texts.2.2]
  have hport : ports.find? ((·.centerMatches plainCasing s) ∘ PortTypeRule.toYaml) =
      ports.find? (·.matches s.report) := by
    simp [PortRule.centerMatches, center_toYaml, plainCasing]
  simp only [centerRule, Doc.select, Doc.ofRules, List.find?_map, hkeyword, hos, hport]
  cases types.find? (·.matches s.report) with
  | some r => rfl
  | none =>
    cases oses.find? (·.matches s.report) with
    | some r => rfl
    | none => cases ports.find? (·.matches s.report) <;> rfl

/-- On its own table the center's engine is `matchDeviceType` of the report. -/
theorem centerRule_shipped :
    matchDeviceType s.report =
      ((centerRule plainCasing shipped s).elim ("", "") fun r => (r.type, r.source)) := by
  rw [shipped, centerRule_ofRules portRules s shipped_keywords.1 shipped_keywords.2]
  unfold matchDeviceType
  generalize typeRules.find? (·.matches s.report) = type, osRules.find? (·.matches s.report) = os,
    portRules.find? (·.matches s.report) = port
  rfl

/-! ## The agent -/

/-- `to_lowercase` has two letters for the dotted capital I, and a sigma that depends on where
it stands. -/
def Casing.lowercaseFrom (before : List Char) : List Char → List Char
  | [] => []
  | a :: after =>
    (if a = 'İ' then ['i', '\u0307']
     else if a = 'Σ' then [if c.endsWord before after then 'ς' else 'σ']
     else [c.lower a]) ++ lowercaseFrom (before ++ [a]) after

def Casing.toLowercase (s : String) : String := String.ofList (c.lowercaseFrom [] s.toList)

structure HostSignals where
  host : String
  brand : String
  osType : String
  services : List String
  openPorts : List Int

def Signals.hostSignals : HostSignals where
  host := s.host
  brand := s.brand
  osType := s.osType
  services := s.services.map (·.service)
  openPorts := s.openPorts

def KeywordRule.agentMatches (r : KeywordRule) (s : HostSignals) : Bool :=
  let host := c.toLowercase s.host
  let brand := c.toLowercase s.brand
  let text :=
    if r.field = "host" then host
    else if r.field = "brand" then brand
    else host ++ " " ++ brand ++ " " ++ c.toLowercase s.osType
  (r.keywords.map c.toLowercase).any (Text.contains text)

def OsRule.agentMatches (r : OsRule) (s : HostSignals) : Bool :=
  (r.keywords.map c.toLowercase).any (Text.contains (c.toLowercase s.osType))

def eqIgnoreAsciiCase (a b : String) : Bool := Text.asciiLower a = Text.asciiLower b

def PortRule.agentMatches (s : HostSignals) : Bool :=
  (r.service = "" || s.services.contains r.service) &&
    (r.require = [] || r.require.all s.services.contains) &&
    r.port.all s.openPorts.contains &&
    (r.portAny = [] || r.portAny.any s.openPorts.contains) &&
    -- at least one positive condition
    (r.service ≠ "" || r.require ≠ [] || r.port.isSome || r.portAny ≠ []) &&
    !r.excludePorts.any s.openPorts.contains &&
    !s.services.any fun svc => r.excludeServices.any (eqIgnoreAsciiCase · svc)

/-- `match_type`. -/
def agentRule (doc : Doc) (s : HostSignals) : Option Rule :=
  doc.select (·.agentMatches c s) (·.agentMatches c s) (·.agentMatches s)

/-! ## Agreement -/

/-- The text has no letter that the two engines bring to lower case in different ways. -/
def Simple (t : String) : Prop := 'İ' ∉ t.toList ∧ 'Σ' ∉ t.toList

instance (t : String) : Decidable (Simple t) := inferInstanceAs (Decidable (_ ∧ _))

/-- The rule reads a field that both know, in letters that both read alike. -/
def KeywordRule.Plain (r : KeywordRule) : Prop :=
  (r.field = "host" ∨ r.field = "brand" ∨ r.field = "hint") ∧ ∀ k ∈ r.keywords, Simple k

instance (r : KeywordRule) : Decidable r.Plain := inferInstanceAs (Decidable (_ ∧ _))

/-- The service sits on a port that the rule keys on, if it keys on one. -/
def PortRule.OnKeyedPort (svc : ServiceIdentity) : Prop :=
  r.port = none ∧ r.portAny = [] ∨ r.port = some svc.port ∨ svc.port ∈ r.portAny

/-- The rule keys on a service or a port other than zero, and a service it excludes is on a port
of the rule, under a name that differs in ASCII letters only. -/
structure PortRule.Plain : Prop where
  port : r.port ≠ some 0
  keyed : r.require ≠ [] → r.service ≠ "" ∨ r.port ≠ none ∨ r.portAny ≠ []
  excluded : ∀ svc ∈ s.services, (∃ v ∈ r.excludeServices, c.equalFold v svc.service = true) →
    (∃ v ∈ r.excludeServices, eqIgnoreAsciiCase v svc.service = true) ∧ r.OnKeyedPort svc

structure Doc.Plain (doc : Doc) (s : Signals) : Prop where
  host : Simple s.host
  brand : Simple s.brand
  osType : Simple s.osType
  openPorts : ∀ p, p ∈ s.openPorts ↔ ∃ svc ∈ s.services, svc.port = p
  rules : ∀ r ∈ doc.rules, r.Plain
  osRules : ∀ r ∈ doc.osRules, ∀ k ∈ r.keywords, Simple k
  portRules : ∀ r ∈ doc.portRules, r.Plain c s

theorem toLowercase_eq {t : String} (h : Simple t) : c.toLowercase t = c.toLower t := by
  have hchars : ∀ before cs, 'İ' ∉ cs → 'Σ' ∉ cs → c.lowercaseFrom before cs = cs.map c.lower := by
    intro before cs
    induction cs generalizing before with
    | nil => intros; rfl
    | cons a after ih =>
      intro hdotted hsigma
      have hd : a ≠ 'İ' := fun e => hdotted (by simp [e])
      have hs : a ≠ 'Σ' := fun e => hsigma (by simp [e])
      have hrest := ih (before ++ [a]) (fun e => hdotted (by simp [e]))
        fun e => hsigma (by simp [e])
      simp [Casing.lowercaseFrom, hd, hs, hrest]
  rw [Casing.toLowercase, hchars [] t.toList h.1 h.2, Casing.toLower]

theorem keywords_eq {keywords : List String} (h : ∀ k ∈ keywords, Simple k) :
    keywords.map c.toLowercase = keywords.map c.toLower :=
  List.map_congr_left fun k hk => toLowercase_eq c (h k hk)

variable {c} {doc : Doc} {s : Signals}

theorem KeywordRule.Plain.matches_eq {r : KeywordRule} (hr : r.Plain) (hs : doc.Plain c s) :
    r.centerMatches c s = r.agentMatches c s.hostSignals := by
  unfold KeywordRule.centerMatches KeywordRule.agentMatches containsAny Signals.hostSignals
  simp only [toLowercase_eq c hs.host, toLowercase_eq c hs.brand, toLowercase_eq c hs.osType,
    keywords_eq c hr.2]
  rcases hr.1 with hfield | hfield | hfield <;> rw [hfield] <;> rfl

theorem OsRule.matches_eq {r : OsRule} (hr : ∀ k ∈ r.keywords, Simple k) (hs : doc.Plain c s) :
    r.centerMatches c s = r.agentMatches c s.hostSignals := by
  simp only [centerMatches, agentMatches, containsAny, Signals.hostSignals,
    toLowercase_eq c hs.osType, keywords_eq c hr]

variable {r : PortRule}

theorem PortRule.Plain.vetoed_eq (hr : r.Plain c s) :
    r.center.vetoed s.report c.equalFold = s.hostSignals.services.any fun svc =>
      r.excludeServices.any (eqIgnoreAsciiCase · svc) := by
  rw [Bool.eq_iff_iff]
  simp only [PortTypeRule.vetoed, PortRule.center, Signals.report, Signals.hostSignals,
    List.any_map, List.any_eq_true, Bool.and_eq_true, Function.comp]
  constructor
  · rintro ⟨svc, hsvc, hlisted, -⟩
    exact ⟨svc, hsvc, (hr.excluded svc hsvc hlisted).1⟩
  · rintro ⟨svc, hsvc, v, hv, heq⟩
    have hlisted : ∃ v ∈ r.excludeServices, c.equalFold v svc.service = true :=
      ⟨v, hv, c.equalFold_ascii (of_decide_eq_true heq)⟩
    refine ⟨svc, hsvc, hlisted, ?_⟩
    rcases (hr.excluded svc hsvc hlisted).2 with ⟨hport, hany⟩ | hport | hport
    · simp [hport, hany]
    · simp [hport]
    · simp [hport]

theorem PortRule.Plain.matches_eq (hr : r.Plain c s) (hs : doc.Plain c s) :
    r.centerMatches c s = r.agentMatches s.hostSignals := by
  have hrequire : (∀ name ∈ r.require, ∃ svc ∈ s.services, svc.service = name) ↔ r.require = [] ∨
      ∀ name ∈ r.require, ∃ svc ∈ s.services, svc.service = name := by
    refine ⟨.inr, fun h => h.elim (fun hnil => ?_) id⟩
    simp [hnil]
  have hkeyed := hr.keyed
  rw [Bool.eq_iff_iff, PortRule.centerMatches, PortTypeRule.matches, hr.vetoed_eq,
    PortRule.agentMatches]
  -- an absent port is zero for the center, and no rule asks for port zero
  cases hp : r.port with
  | none =>
    rw [hp] at hkeyed
    simp [PortRule.center, Signals.report, Signals.hostSignals, hp, hs.openPorts, and_assoc]
    grind
  | some p =>
    have hzero : p ≠ 0 := fun e => hr.port (by rw [hp, e])
    simp [PortRule.center, Signals.report, Signals.hostSignals, hp, hzero, hs.openPorts, and_assoc]
    grind

/-- Metrics exporters are named in ASCII letters and sit on port 9100. -/
def Signals.ExportersInPlace (s : Signals) : Prop :=
  ∀ svc ∈ s.services,
    (∃ v ∈ ["node_exporter", "prometheus"], Text.equalFold v svc.service = true) →
    (∃ v ∈ ["node_exporter", "prometheus"], eqIgnoreAsciiCase v svc.service = true) ∧
      svc.port = 9100

/-- In the table as shipped only the metrics exporters matter, and where they sit. -/
theorem shipped_plain (hhost : Simple s.host) (hbrand : Simple s.brand) (hos : Simple s.osType)
    (hports : ∀ p, p ∈ s.openPorts ↔ ∃ svc ∈ s.services, svc.port = p)
    (hexporter : s.ExportersInPlace) : shipped.Plain plainCasing s := by
  refine ⟨hhost, hbrand, hos, hports, by decide +kernel, by decide +kernel, fun r hr => ?_⟩
  have hshape : ∀ r ∈ shipped.portRules, r.port ≠ some 0 ∧
      (r.require ≠ [] → r.service ≠ "" ∨ r.port ≠ none ∨ r.portAny ≠ []) ∧
      (r.excludeServices = [] ∨
        r.excludeServices = ["node_exporter", "prometheus"] ∧ r.port = some 9100) := by
    decide +kernel
  obtain ⟨hport, hkeyed, hnone | ⟨hlisted, hkey⟩⟩ := hshape r hr
  · refine ⟨hport, hkeyed, fun svc _ hexcluded => ?_⟩
    rw [hnone] at hexcluded
    obtain ⟨v, hv, -⟩ := hexcluded
    cases hv
  · refine ⟨hport, hkeyed, fun svc hsvc hexcluded => ?_⟩
    rw [hlisted] at hexcluded ⊢
    obtain ⟨hascii, hon⟩ := hexporter svc hsvc hexcluded
    exact ⟨hascii, .inr (.inl (by rw [hkey, hon]))⟩

/-- On the table as shipped the agent reaches the verdict of `matchDeviceType`. -/
theorem shipped_verdicts_agree (hhost : Simple s.host) (hbrand : Simple s.brand)
    (hos : Simple s.osType) (hports : ∀ p, p ∈ s.openPorts ↔ ∃ svc ∈ s.services, svc.port = p)
    (hexporter : s.ExportersInPlace) :
    (agentRule plainCasing shipped s.hostSignals).elim ("", "") (fun r => (r.type, r.source)) =
      matchDeviceType s.report := by
  have h := shipped_plain hhost hbrand hos hports hexporter
  rw [centerRule_shipped, centerRule, agentRule, Doc.select, Doc.select,
    List.find?_congr fun r hr => (h.rules r hr).matches_eq h,
    List.find?_congr fun r hr => OsRule.matches_eq (h.osRules r hr) h,
    List.find?_congr fun r hr => (h.portRules r hr).matches_eq h]

/-! ### Tables that the two read in different ways -/

def on (service : String) (port : Int) : ServiceIdentity := { service := service, port := port }

def exporter : Signals := { host := "gl-inet", services := [on "node_exporter" 9100] }

theorem exporter_verdict :
    (agentRule plainCasing shipped exporter.hostSignals).elim ("", "")
        (fun r => (r.type, r.source)) =
      matchDeviceType exporter.report :=
  shipped_verdicts_agree (by decide) (by decide) (by decide) (by simp [exporter, eq_comm])
    (by unfold Signals.ExportersInPlace; decide)

end Steward.TypeAgreement
