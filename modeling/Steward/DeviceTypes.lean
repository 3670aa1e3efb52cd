import Steward.Report

/-!
# Device types

The enumeration behind `devices.type`, the keyword and port tables that guess a
type from a report, and the verdict the bridge reaches: the type together with
how it was determined (`"protocol"`, `"heuristic"`, or nothing at all).
-/

namespace Steward

inductive DeviceType where
  | pc | embedded | iot | other | server | switch | router | firewall | nas | camera | phone
  | printer
  deriving DecidableEq, Repr

namespace DeviceType

def all : List DeviceType :=
  [pc, embedded, iot, other, server, switch, router, firewall, nas, camera, phone, printer]

def text : DeviceType → String
  | pc => "pc"
  | embedded => "embedded"
  | iot => "iot"
  | other => "other"
  | server => "server"
  | switch => "switch"
  | router => "router"
  | firewall => "firewall"
  | nas => "nas"
  | camera => "camera"
  | phone => "phone"
  | printer => "printer"

/-- The check constraint of the column. -/
def ofText (s : String) : Option DeviceType := all.find? fun t => t.text = s

end DeviceType

def isValidDeviceType (t : String) : Bool := (DeviceType.ofText t).isSome

/-- Which text of the report a keyword rule reads. -/
inductive RuleField where
  | host | brand | hint
  deriving DecidableEq, Repr

structure TypeRule where
  type : String
  field : RuleField
  source : String
  keywords : List String

structure OsTypeRule where
  keywords : List String
  type : String
  source : String

structure PortTypeRule where
  service : String := ""
  require : List String := []
  port : Int := 0
  portAny : List Int := []
  excludePorts : List Int := []
  excludeServices : List String := []
  type : String
  source : String

/-- `device_types.yaml`, the keyword rules in priority order. -/
def typeRules : List TypeRule := [
  ⟨"embedded", .host, "heuristic",
    ["rasp", "rpi", "nanopi", "bananapi", "orangepi", "rockpi", "radxa", "pine64", "jetson"]⟩,
  ⟨"iot", .hint, "heuristic",
    ["espressif", "tuya", "lumi-gateway", "shelly", "sonoff", "tasmota", "gledopto", "ikea",
     "esp32", "esp8266"]⟩,
  ⟨"iot", .host, "heuristic",
    ["viomi-", "zhimi-", "smartmi-", "chunmi-", "mijia-", "mijia_", "midjd7", "yeelink-", "lumi",
     "aqara", "roborock", "rockrobo", "dreame", "xiaoaitongxue", "xiaoai", "xiaomi-aircondition",
     "xiaomi-gateway", "mi-appliance", "mibt", "miap", "mitv", "repeater"]⟩,
  ⟨"pc", .host, "heuristic",
    ["notebook", "laptop", "thinkpad", "macbook", "ideapad", "-pc", "pc.", "precision", "elitebook",
     "latitude", "xps", "surface", "popos"]⟩,
  ⟨"nas", .host, "heuristic",
    ["nas", "synology", "diskstation", "qnap", "ts-", "terramaster", "readynas", "asustor",
     "zspace", "z4s", "z2c", "z6", "ugreen", "dxp"]⟩,
  ⟨"nas", .brand, "heuristic", ["synology", "qnap", "asustor", "minidlna", "readymedia", "zspace",
    "ugreen"]⟩,
  ⟨"camera", .host, "heuristic",
    ["ipc", "-cam", "cam-", "camera", "hik", "hikvision", "dahua", "dvr", "nvr", "ds-2", "ipcam",
     "chuangmi"]⟩,
  ⟨"camera", .brand, "heuristic", ["hikvision", "dahua", "axis", "reolink", "foscam", "vivotek"]⟩,
  ⟨"printer", .host, "heuristic", ["printer", "hp-", "canon-", "epson-", "brother-", "ricoh-",
    "xerox-"]⟩,
  ⟨"printer", .brand, "heuristic", ["epson", "canon", "brother", "ricoh"]⟩,
  ⟨"router", .host, "heuristic",
    ["router", "gateway", "openwrt", "padavan", "asuswrt", "routeros", "mikrotik", "r2s", "r4s",
     "r6s", "r68s", "nanopi-r", "miwifi", "xiaomi-router", "tplink", "tp-link", "gl-inet",
     "gl.inet", "ap-", "-ap", "ac68", "ac88", "ax1800", "ax3000", "ax6000", "k2p", "unifi",
     "edgeos"]⟩,
  ⟨"router", .brand, "heuristic", ["mikrotik", "ubiquiti", "tp-link", "tplink", "xdr"]⟩,
  ⟨"phone", .host, "heuristic",
    ["phone", "mi-10", "redmi-15", "-al00", "-al10", "-an00", "2109119bc", "honor-", "oneplus",
     "galaxy", "pixel-", "iphone", "-pad", "ipad"]⟩]

def osRules : List OsTypeRule := [
  ⟨["windows"], "pc", "heuristic"⟩,
  ⟨["ubuntu", "debian", "macos", "darwin"], "pc", "heuristic"⟩,
  ⟨["android"], "phone", "heuristic"⟩,
  ⟨["linux", "freebsd"], "server", "heuristic"⟩]

def portRules : List PortTypeRule := [
  { service := "smb", type := "nas", source := "heuristic" },
  { service := "rtsp", type := "camera", source := "heuristic" },
  { service := "onvif", type := "camera", source := "heuristic" },
  { service := "camera", type := "camera", source := "heuristic" },
  { service := "ssh", require := ["node_exporter", "prometheus"], type := "server",
    source := "heuristic" },
  { port := 445, type := "nas", source := "heuristic" },
  { portAny := [554, 8554, 3702], type := "camera", source := "heuristic" },
  { port := 9100, excludeServices := ["node_exporter", "prometheus"], type := "printer",
    source := "heuristic" },
  { port := 22, excludePorts := [80, 443], type := "server", source := "heuristic" }]

def containsAny (s : String) (subs : List String) : Bool := subs.any (Text.contains s)

variable (rep : HostReport)

def hostText : String :=
  let host := Text.toLower (rep.field "node_hostname")
  if host = "" then Text.toLower (rep.field "sys_name") else host

def brandText : String := Text.toLower (rep.field "inferred_brand")

def osText : String := Text.toLower (rep.field "os_type")

def TypeRule.matches (r : TypeRule) (rep : HostReport) : Bool :=
  let field := match r.field with
    | .brand => brandText rep
    | .hint => hostText rep ++ " " ++ brandText rep ++ " " ++ osText rep
    | .host => hostText rep
  containsAny field r.keywords

def OsTypeRule.matches (r : OsTypeRule) (rep : HostReport) : Bool :=
  containsAny (osText rep) r.keywords

/-- An excluded service that sits on a port the rule keys on. -/
def PortTypeRule.vetoed (r : PortTypeRule) (rep : HostReport)
    (equalFold : String → String → Bool := Text.equalFold) : Bool :=
  rep.services.any fun s => (r.excludeServices.any fun v => equalFold v s.service) &&
    ((r.port = 0 && r.portAny = []) || r.port = s.port || r.portAny.contains s.port)

def PortTypeRule.matches (r : PortTypeRule) (rep : HostReport)
    (equalFold : String → String → Bool := Text.equalFold) : Bool :=
  let hasService := fun name => rep.services.any fun s => s.service = name
  let isOpen := fun p => rep.services.any fun s => s.port = p
  (r.service = "" || hasService r.service) && r.require.all hasService &&
    (r.port = 0 || isOpen r.port) &&
    (r.portAny = [] || r.portAny.any isOpen) && !r.excludePorts.any isOpen &&
    !r.vetoed rep equalFold && !(r.service = "" && r.port = 0 && r.portAny = [])

/-- `matchDeviceType`: keyword rules, then OS labels, then the shape of the open ports. -/
def matchDeviceType : String × String :=
  match typeRules.find? fun r => r.matches rep with
  | some r => (r.type, r.source)
  | none =>
    match osRules.find? fun r => r.matches rep with
    | some r => (r.type, r.source)
    | none =>
      match portRules.find? fun r => r.matches rep with
      | some r => (r.type, r.source)
      | none => ("", "")

def keywordsForType (wantType : String) : List String :=
  (typeRules.filter fun r => r.type = wantType).flatMap TypeRule.keywords

/-- `sourceForType`: the label of the first rule for a type. -/
def sourceForType (wantType : String) : String :=
  match typeRules.find? fun r => r.type = wantType && r.source ≠ "" with
  | some r => r.source
  | none =>
    match osRules.find? fun r => r.type = wantType && r.source ≠ "" with
    | some r => r.source
    | none => "heuristic"

/-- `strongTypeSignal`: a keyword in host or brand, an OS label, or (for a NAS) file sharing. -/
def strongTypeSignal (wantType : String) : Bool :=
  containsAny (hostText rep ++ " " ++ brandText rep) (keywordsForType wantType) ||
    (osRules.any fun r => r.type = wantType && r.matches rep) ||
    (wantType = "nas" && rep.services.any fun s => s.service = "smb" || s.port = 445)

def isStrongPcSignal : Bool := strongTypeSignal rep "pc"
def isStrongNasSignal : Bool := strongTypeSignal rep "nas"

/-- The type a handler reported, if the column admits it, and its source. -/
def handlerVerdict : String × String :=
  let t := rep.field "inferred_type"
  if t = "" ∨ !isValidDeviceType t then ("", "")
  else
    let source := rep.field "inferred_type_source"
    (t, if source = "" ∧ t ≠ "other" then "protocol" else source)

/-- A generic or missing verdict `v` against the heuristic verdict `h`. -/
def preferHeuristic (v h : String × String) : String × String :=
  if h.1 ≠ "" ∧ h.1 ≠ "server" ∧ h.1 ≠ "pc" then h
  else if v.1 = "" then (h.1, if h.1 ≠ "" then h.2 else v.2)
  else v

/-- The overrides of a handler verdict by stronger signals of the report. -/
def overrideVerdict (v : String × String) : String × String :=
  if v.1 = "camera" then
    if isStrongPcSignal rep then ("pc", sourceForType "pc")
    else if isStrongNasSignal rep then ("nas", sourceForType "nas")
    else v
  else if v.1 = "iot" then
    if v.2 = "protocol" ∧ isStrongPcSignal rep then ("pc", sourceForType "pc") else v
  else if v.1 = "" ∨ v.1 = "server" ∨ v.1 = "pc" then preferHeuristic v (matchDeviceType rep)
  else v

/-- The verdict of one scan: the type to persist and how it was determined. -/
def inferType : String × String :=
  let v := overrideVerdict rep (handlerVerdict rep)
  if v.1 = "" then ("other", "") else v

/-! A verdict is always a type the column admits, and a verdict without a source
is the absence of one. -/

def Settled (v : String × String) : Prop :=
  (DeviceType.ofText v.1).isSome ∧ (v.2 = "" → v.1 = "other")

variable (rep : HostReport)

theorem matchDeviceType_settled : (matchDeviceType rep).1 ≠ "" → Settled (matchDeviceType rep) := by
  have hrules : ∀ r ∈ typeRules, (DeviceType.ofText r.type).isSome ∧ r.source ≠ "" := by decide
  have hos : ∀ r ∈ osRules, (DeviceType.ofText r.type).isSome ∧ r.source ≠ "" := by decide
  have hports : ∀ r ∈ portRules, (DeviceType.ofText r.type).isSome ∧ r.source ≠ "" := by decide
  have key : ∀ t s : String, (DeviceType.ofText t).isSome ∧ s ≠ "" → Settled (t, s) :=
    fun t s hts => ⟨hts.1, fun he => absurd he hts.2⟩
  unfold matchDeviceType
  split
  · next r hr => exact fun _ => key _ _ (hrules r (List.mem_of_find?_eq_some hr))
  · split
    · next r hr => exact fun _ => key _ _ (hos r (List.mem_of_find?_eq_some hr))
    · split
      · next r hr => exact fun _ => key _ _ (hports r (List.mem_of_find?_eq_some hr))
      · exact fun h => absurd rfl h

theorem handlerVerdict_settled : (handlerVerdict rep).1 ≠ "" → Settled (handlerVerdict rep) := by
  unfold handlerVerdict
  simp only
  split
  · exact fun h => absurd rfl h
  · next hc =>
    simp only [not_or, Bool.not_eq_true, Bool.not_eq_false'] at hc
    refine fun _ => ⟨hc.2, fun hs => ?_⟩
    by_contra hne
    simp only at hs hne
    split at hs
    · exact absurd hs (by decide)
    · next hcase => exact hcase ⟨hs, hne⟩

theorem preferHeuristic_settled (v h : String × String) (hv : v.1 ≠ "" → Settled v)
    (hh : h.1 ≠ "" → Settled h) :
    (preferHeuristic v h).1 ≠ "" → Settled (preferHeuristic v h) := by
  unfold preferHeuristic
  split
  · next hs => exact fun _ => hh hs.1
  · split
    · intro hne
      simpa only [if_pos hne] using hh hne
    · exact hv

theorem overrideVerdict_settled (v : String × String) (hv : v.1 ≠ "" → Settled v) :
    (overrideVerdict rep v).1 ≠ "" → Settled (overrideVerdict rep v) := by
  have hpc : Settled ("pc", sourceForType "pc") := by unfold Settled; decide
  have hnas : Settled ("nas", sourceForType "nas") := by unfold Settled; decide
  unfold overrideVerdict
  split
  · split
    · exact fun _ => hpc
    · split
      · exact fun _ => hnas
      · exact hv
  · split
    · split
      · exact fun _ => hpc
      · exact hv
    · split
      · exact preferHeuristic_settled v _ hv (matchDeviceType_settled rep)
      · exact hv

/-- Whatever the report says, the verdict fits the column, and only `"other"` lacks a source. -/
theorem inferType_settled : Settled (inferType rep) := by
  unfold inferType
  simp only
  split
  · unfold Settled
    decide
  · next h => exact overrideVerdict_settled rep _ (handlerVerdict_settled rep) h

end Steward
