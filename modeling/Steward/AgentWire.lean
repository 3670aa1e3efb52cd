import Steward.Rescan

/-!
# The wire format of agent reports

A reported host, the report that the center rebuilds from it, and the digest that
an agent sends along with a scan batch. The rebuilt report carries no evidence
that local probes produce, so its document is a plain one.
-/

namespace Steward

open JsonValue Fields List

/-- The range of `int` and `int64`. -/
abbrev GoInt := { n : Int // Fits64 n }

instance : Inhabited GoInt := ⟨⟨0, by unfold Fits64; omega⟩⟩

structure ReportedService where
  service : String
  port : GoInt := default
  protocol : String := ""
  metadata : Option Fields := none
  deriving DecidableEq

structure ReportedSNMP where
  sysName : String := ""
  deriving DecidableEq

structure ReportedInterface where
  ifIndex : GoInt
  ifName : String := ""
  ifDescr : String := ""
  mac : String := ""
  ip : String := ""
  speedMbps : GoInt := default
  deriving DecidableEq

structure ReportedRoute where
  destCIDR : String
  nextHop : String
  ifIndex : GoInt := default
  proto : String := ""
  deriving DecidableEq

structure ReportedNeighbor where
  neighborMAC : String
  protocol : String
  localPort : String := ""
  remotePort : String := ""
  vlanTag : String := ""
  sysName : String := ""
  sysDesc : String := ""
  deriving DecidableEq

structure ReportedHost where
  ip : String
  alive : Bool := true
  rttMs : GoInt := default
  mac : String := ""
  inferredType : String := ""
  inferredTypeSource : String := ""
  inferredBrand : String := ""
  inferredModel : String := ""
  inferredDescription : String := ""
  inferredLocation : String := ""
  hostname : String := ""
  openPorts : String := ""
  detectedServices : String := ""
  prometheusURL : String := ""
  nodeExporterURL : String := ""
  services : List ReportedService := []
  snmp : Option ReportedSNMP := none
  interfaces : List ReportedInterface := []
  routes : List ReportedRoute := []
  neighbors : List ReportedNeighbor := []
  deriving DecidableEq

/-! ## The rebuilt report -/

def Fields.ofPairs (es : List (String × String)) : Fields :=
  es.foldl (fun f e => f.set e.1 e.2) .empty

/-- `IsJunkBrand`. -/
def isJunkBrand (brand : String) : Bool :=
  webServerBrandNames.contains (Text.asciiLower brand) || !hasLetter brand

/-- A name that is not plausible does not pass the border. -/
def plausibleOrEmpty (name : String) : String := if plausibleHostname name then name else ""

variable (h : ReportedHost)

def wireHostname : String := plausibleOrEmpty h.hostname

def wireSysName : String :=
  match h.snmp with
  | some s => plausibleOrEmpty s.sysName
  | none => ""

/-- The operating system survives only in the metadata of a service; the first one wins. -/
def wireOS : String :=
  firstNonEmpty (h.services.map fun s => Fields.get (s.metadata.getD .empty) "os_type")

/-- The keys that the device bridge reads. -/
def wireFields : Fields :=
  let fields := Fields.ofPairs
    [("inferred_type", h.inferredType), ("inferred_type_source", h.inferredTypeSource),
      ("inferred_model", h.inferredModel), ("inferred_description", h.inferredDescription),
      ("inferred_location", h.inferredLocation), ("node_hostname", wireHostname h),
      ("mac", normalizeMAC h.mac), ("open_ports", h.openPorts),
      ("detected_services", h.detectedServices), ("prometheus_url", h.prometheusURL),
      ("node_exporter_url", h.nodeExporterURL)]
  let fields := if wireSysName h ≠ "" then fields.set "sys_name" (wireSysName h) else fields
  let fields := fields.set "inferred_brand"
    (if isJunkBrand h.inferredBrand then "" else h.inferredBrand)
  if wireOS h ≠ "" then fields.set "os_type" (wireOS h) else fields

def macEvidence (mac : String) : List Evidence :=
  if mac ≠ "" then [{ kind := "mac", rawData := some (Fields.ofPairs [("mac", mac)]) }] else []

def interfaceEvidence (i : ReportedInterface) : Option Evidence :=
  if i.ifIndex.1 ≤ 0 then none
  else some
    { kind := "interface"
      rawData := some (Fields.ofPairs
        [("if_index", toString i.ifIndex.1), ("if_name", i.ifName), ("if_descr", i.ifDescr),
          ("mac", i.mac), ("ip", i.ip), ("speed_mbps", toString i.speedMbps.1)]) }

def routeEvidence (r : ReportedRoute) : Option Evidence :=
  if r.destCIDR = "" ∨ r.nextHop = "" then none
  else some
    { kind := "route"
      rawData := some (Fields.ofPairs
        [("dest", r.destCIDR), ("next_hop", r.nextHop), ("if_index", toString r.ifIndex.1),
          ("proto", r.proto)]) }

/-- A neighbor without a MAC or a protocol cannot be attributed. -/
def neighborEvidence (n : ReportedNeighbor) : Option Evidence :=
  let mac := normalizeMAC n.neighborMAC
  if mac = "" ∨ n.protocol = "" then none
  else
    let optional := [("local_port", n.localPort), ("remote_port", n.remotePort),
      ("vlan_tag", n.vlanTag), ("sys_name", n.sysName), ("sys_desc", n.sysDesc)]
    some
      { kind := "neighbor"
        rawData := some (Fields.ofPairs
          ([("neighbor_mac", mac), ("protocol", n.protocol)] ++
            optional.filter fun e => e.2 ≠ "")) }

/-- `ReportedHostToReport`. -/
def reportedHostToReport : HostReport where
  ip := h.ip
  rttMs := h.rttMs.1
  evidence := macEvidence (normalizeMAC h.mac) ++ h.interfaces.filterMap interfaceEvidence ++
    h.routes.filterMap routeEvidence ++ h.neighbors.filterMap neighborEvidence
  services := h.services.map fun s => ⟨s.service, s.port.1, s.protocol, s.metadata⟩
  device := { type := h.inferredType, brand := h.inferredBrand, fields := wireFields h }

/-- The report of a host in a batch; a passive batch asserts liveness and identity only. -/
def batchReport (passive : Bool) (h : ReportedHost) : HostReport :=
  { reportedHostToReport h with passive := passive }

/-! ## Its document is plain -/

/-- Evidence that can be rebuilt from the wire. -/
def WireEvidence (e : Evidence) : Prop :=
  (∃ mac, e.kind = "mac" ∧ e.rawData = some (Fields.ofPairs [("mac", mac)])) ∨
    e.kind = "interface" ∨ e.kind = "route" ∨ e.kind = "neighbor"

/-- The keys that only local probes fill. -/
def probeKeys : List String :=
  ["memory_total_bytes", "cpu_count", "uptime_seconds", "ttl", "netbios_workgroup", "ip_aliases"]

/-- What the center knows of a report that came over the wire. -/
structure FromWire (rep : HostReport) : Prop where
  evidence : ∀ e ∈ rep.evidence, WireEvidence e
  silent : ∀ k ∈ probeKeys, rep.field k = ""
  hostname : rep.field "node_hostname" = "" ∨ plausibleHostname (rep.field "node_hostname") = true
  sysName : rep.field "sys_name" = "" ∨ plausibleHostname (rep.field "sys_name") = true
  rttMs : Fits64 rep.rttMs
  services : ∀ s ∈ rep.services, Fits64 s.port

theorem plausibleOrEmpty_cases (name : String) :
    plausibleOrEmpty name = "" ∨ plausibleHostname (plausibleOrEmpty name) = true := by
  unfold plausibleOrEmpty
  split
  · next h => exact .inr h
  · exact .inl rfl

theorem wireSysName_cases :
    wireSysName h = "" ∨ plausibleHostname (wireSysName h) = true := by
  unfold wireSysName
  split
  · exact plausibleOrEmpty_cases _
  · exact .inl rfl

variable {e : Evidence}

theorem wireEvidence_interface {i : ReportedInterface} (h : interfaceEvidence i = some e) :
    WireEvidence e := by
  unfold interfaceEvidence at h
  split at h
  · cases h
  · cases h
    exact .inr (.inl rfl)

theorem wireEvidence_route {r : ReportedRoute} (h : routeEvidence r = some e) : WireEvidence e := by
  unfold routeEvidence at h
  split at h
  · cases h
  · cases h
    exact .inr (.inr (.inl rfl))

theorem wireEvidence_neighbor {n : ReportedNeighbor} (h : neighborEvidence n = some e) :
    WireEvidence e := by
  unfold neighborEvidence at h
  simp only at h
  split at h
  · cases h
  · cases h
    exact .inr (.inr (.inr rfl))

theorem wireEvidence_mac {mac : String} (h : e ∈ macEvidence mac) : WireEvidence e := by
  unfold macEvidence at h
  split at h
  · obtain rfl := mem_singleton.mp h
    exact .inl ⟨mac, rfl, rfl⟩
  · cases h

theorem wireFields_get_sysName :
    get (wireFields h) "sys_name" = wireSysName h := by
  unfold wireFields
  by_cases hs : wireSysName h = "" <;> by_cases ho : wireOS h = "" <;>
    simp [hs, ho, get_set, ofPairs]
  all_goals rfl

theorem wireFields_get_hostname :
    get (wireFields h) "node_hostname" = wireHostname h := by
  unfold wireFields
  by_cases hs : wireSysName h = "" <;> by_cases ho : wireOS h = "" <;>
    simp [hs, ho, get_set, ofPairs]

theorem wireFields_silent {k : String} (hk : k ∈ probeKeys) :
    get (wireFields h) k = "" := by
  unfold wireFields
  simp only [probeKeys, mem_cons, not_mem_nil, or_false] at hk
  rcases hk with rfl | rfl | rfl | rfl | rfl | rfl <;> by_cases hs : wireSysName h = "" <;>
    by_cases ho : wireOS h = "" <;> simp [hs, ho, get_set, ofPairs] <;> rfl

theorem fromWire_batchReport (passive : Bool) (h : ReportedHost) :
    FromWire (batchReport passive h) where
  evidence := by
    intro e he
    simp only [batchReport, reportedHostToReport, mem_append, mem_filterMap] at he
    rcases he with ((he | ⟨i, -, he⟩) | ⟨r, -, he⟩) | ⟨n, -, he⟩
    · exact wireEvidence_mac he
    · exact wireEvidence_interface he
    · exact wireEvidence_route he
    · exact wireEvidence_neighbor he
  silent := fun _ hk => wireFields_silent h hk
  hostname := by
    have hget : (batchReport passive h).field "node_hostname" = wireHostname h :=
      wireFields_get_hostname h
    rw [hget]
    exact plausibleOrEmpty_cases h.hostname
  sysName := by
    have hget : (batchReport passive h).field "sys_name" = wireSysName h :=
      wireFields_get_sysName h
    rw [hget]
    exact wireSysName_cases h
  rttMs := h.rttMs.2
  services := by
    intro s hs
    obtain ⟨t, -, rfl⟩ := mem_map.mp hs
    exact t.port.2

variable {rep : HostReport}

theorem FromWire.stampVerdict (h : FromWire rep) (v : String × String) :
    FromWire (stampVerdict rep v) := by
  have hfield : ∀ k, k ≠ "inferred_type" → k ≠ "inferred_type_source" →
      (Steward.stampVerdict rep v).field k = rep.field k := by
    intro k htype hsource
    simp only [Steward.stampVerdict, HostReport.field_setField, htype, hsource, if_false]
  refine ⟨h.evidence, fun k hk => ?_, ?_, ?_, h.rttMs, h.services⟩
  · rw [hfield k (by rintro rfl; revert hk; decide) (by rintro rfl; revert hk; decide)]
    exact h.silent k hk
  · rw [hfield _ (by decide) (by decide)]
    exact h.hostname
  · rw [hfield _ (by decide) (by decide)]
    exact h.sysName

section Plain

variable {rep : HostReport} {attr : ScanAttributes} {e : Evidence}

theorem noteExtra_empty (attr : ScanAttributes) (k : String) : noteExtra attr k "" = attr := rfl

theorem positiveInt_fits_empty : Fits64 (positiveInt "") := by
  exact (default : GoInt).2

theorem FromWire.plain_fields (h : FromWire rep) : (fieldAttributes rep).Plain where
  snmp := rfl
  stp := rfl
  extras := rfl
  labels := by
    intro p hp
    simp only [fieldAttributes] at hp
    split at hp
    · cases hp
      rfl
    · cases hp
  cpuCount := by
    simp only [fieldAttributes, h.silent "cpu_count" (by decide)]
    exact positiveInt_fits_empty
  memoryTotalBytes := by
    simp only [fieldAttributes, h.silent "memory_total_bytes" (by decide)]
    exact positiveInt_fits_empty
  uptimeSeconds := by
    simp only [fieldAttributes, h.silent "uptime_seconds" (by decide)]
    exact positiveInt_fits_empty
  ttl := by
    simp only [fieldAttributes, h.silent "ttl" (by decide)]
    exact positiveInt_fits_empty
  lastScanRttMs := h.rttMs
  openPorts := rfl
  services := by simp [fieldAttributes]
  hostname := by
    simp only [fieldAttributes, firstNonEmpty]
    rcases h.hostname with hn | hn <;> rcases h.sysName with hs | hs <;>
      by_cases he : rep.field "node_hostname" = "" <;> by_cases hf : rep.field "sys_name" = "" <;>
        simp_all

theorem WireEvidence.foldHost (he : WireEvidence e) (h : attr.Plain) :
    (foldHostEvidence attr e).Plain := by
  unfold foldHostEvidence
  split
  · exact h
  · next raw hraw =>
    rcases he with ⟨mac, hkind, hdata⟩ | hkind | hkind | hkind
    · obtain rfl : raw = ofPairs [("mac", mac)] := Option.some.inj (hraw.symm.trans hdata)
      have hdevice : get (ofPairs [("mac", mac)]) "device" = "" := by
        rfl
      simp only [hkind, if_true, hdevice, noteExtra_empty]
      exact ⟨h.snmp, h.stp, h.extras, h.labels, h.cpuCount, h.memoryTotalBytes, h.uptimeSeconds,
        h.ttl, h.lastScanRttMs, h.openPorts, h.services, h.hostname⟩
    all_goals
      simp [hkind]
      exact h

theorem WireEvidence.foldStp (he : WireEvidence e) (attr : ScanAttributes) :
    foldStpEvidence attr e = attr := by
  unfold foldStpEvidence
  split
  · rfl
  · rcases he with ⟨mac, hkind, -⟩ | hkind | hkind | hkind <;> simp [hkind]

theorem WireEvidence.foldDiscovery (he : WireEvidence e) (attr : ScanAttributes) :
    foldDiscoveryEvidence attr e = attr := by
  unfold foldDiscoveryEvidence
  split
  · rfl
  · rcases he with ⟨mac, hkind, -⟩ | hkind | hkind | hkind <;> simp [hkind]

theorem foldl_eq_self {β : Type} {f : ScanAttributes → β → ScanAttributes} {bs : List β}
    (h : ∀ b ∈ bs, ∀ attr, f attr b = attr) (attr : ScanAttributes) : bs.foldl f attr = attr := by
  induction bs with
  | nil => rfl
  | cons b rest ih =>
    rw [foldl_cons, h b (by simp)]
    exact ih fun c hc => h c (by simp [hc])

theorem plain_foldHost {es : List Evidence} (he : ∀ e ∈ es, WireEvidence e) (h : attr.Plain) :
    (es.foldl foldHostEvidence attr).Plain := by
  induction es generalizing attr with
  | nil => exact h
  | cons e rest ih =>
    exact ih (fun d hd => he d (by simp [hd])) ((he e (by simp)).foldHost h)

theorem plain_markMac (h : attr.Plain) : (markMac attr).Plain := by
  unfold markMac
  split
  · exact ⟨h.snmp, h.stp, h.extras, h.labels, h.cpuCount, h.memoryTotalBytes, h.uptimeSeconds,
      h.ttl, h.lastScanRttMs, h.openPorts, h.services, h.hostname⟩
  · exact h

theorem WireEvidence.kind_ne (he : WireEvidence e) {k : String}
    (hk : k ∉ ["mac", "interface", "route", "neighbor"]) : e.kind ≠ k := by
  rintro rfl
  rcases he with ⟨mac, hkind, -⟩ | hkind | hkind | hkind <;> simp [hkind] at hk

theorem FromWire.applySnmp (h : FromWire rep) (attr : ScanAttributes) :
    applySnmp attr rep.evidence = attr := by
  have hnone : rep.evidence.filter (fun e => decide (e.kind = "snmp")) = [] := by
    refine filter_eq_nil_iff.mpr fun e he => ?_
    simpa using (h.evidence e he).kind_ne (by decide)
  simp only [Steward.applySnmp, hnone, findSome?_nil]

variable {best : List ServiceEntry} {y : ServiceEntry}

theorem mem_keepRicher {x : ServiceEntry} (h : y ∈ keepRicher best x) : y ∈ best ∨ y = x := by
  induction best with
  | nil => exact .inr (mem_singleton.mp h)
  | cons b rest ih =>
    unfold keepRicher at h
    split at h
    · rcases mem_cons.mp h with hy | hy
      · split at hy
        · exact .inr hy
        · exact .inl (by simp [hy])
      · exact .inl (by simp [hy])
    · rcases mem_cons.mp h with hy | hy
      · exact .inl (by simp [hy])
      · rcases ih hy with hr | hx
        · exact .inl (by simp [hr])
        · exact .inr hx

/-- Every listed service comes from an identity of the report. -/
theorem mem_listedServices {ss : List ServiceIdentity}
    (h : y ∈ ss.foldl (fun best s => keepRicher best (serviceEntry s)) best) :
    y ∈ best ∨ ∃ s ∈ ss, y = serviceEntry s := by
  induction ss generalizing best with
  | nil => exact .inl h
  | cons s rest ih =>
    rcases ih h with hb | ⟨t, ht, hy⟩
    · rcases mem_keepRicher hb with hb | hs
      · exact .inl hb
      · exact .inr ⟨s, by simp, hs⟩
    · exact .inr ⟨t, by simp [ht], hy⟩

theorem FromWire.serviceArrays (h : FromWire rep) :
    (serviceArrays rep).1 = [] ∧ ∀ e ∈ (serviceArrays rep).2, Fits64 e.port := by
  constructor
  · have hnone : rep.evidence.filter (fun e => e.kind = "port_open" && e.port > 0) = [] := by
      refine filter_eq_nil_iff.mpr fun e he => ?_
      have hkind : e.kind ≠ "port_open" := (h.evidence e he).kind_ne (by decide)
      simp [hkind]
    simp only [Steward.serviceArrays, hnone]
    rfl
  · intro e he
    simp only [Steward.serviceArrays, mem_insertionSort] at he
    rcases mem_listedServices he with hnil | ⟨s, hs, rfl⟩
    · cases hnil
    · exact h.services s hs

theorem FromWire.plain (h : FromWire rep) : (buildScanAttributes rep).Plain := by
  have hfold := plain_markMac (plain_foldHost h.evidence h.plain_fields)
  unfold buildScanAttributes
  simp only [h.silent "netbios_workgroup" (by decide), h.silent "ip_aliases" (by decide),
    noteExtra_empty, foldl_eq_self fun e he => (h.evidence e he).foldDiscovery,
    foldl_eq_self fun e he => (h.evidence e he).foldStp, h.applySnmp]
  exact ⟨hfold.snmp, hfold.stp, hfold.extras, hfold.labels, hfold.cpuCount, hfold.memoryTotalBytes,
    hfold.uptimeSeconds, hfold.ttl, hfold.lastScanRttMs, h.serviceArrays.1, h.serviceArrays.2,
    hfold.hostname⟩

theorem FromWire.name (h : FromWire rep) (hloc : carriesNoLocation rep.ip = false) (mac : String) :
    deviceDisplayName rep mac = rep.ip ∨
      plausibleHostname (deviceDisplayName rep mac) = true := by
  unfold deviceDisplayName
  split
  · next hne => exact .inr (h.hostname.resolve_left hne)
  · split
    · next hne => exact .inr (h.sysName.resolve_left hne)
    · split
      · next hne => exact .inr (h.plain.hostname.resolve_left hne)
      · simp [hloc]

end Plain

theorem FromWire.regular (h : FromWire rep) (hloc : carriesNoLocation rep.ip = false) :
    rep.Regular :=
  ⟨hloc, fun v => (h.stampVerdict v).plain, fun v mac => (h.stampVerdict v).name hloc mac⟩

/-! ## The digest of a batch -/

/-- The fields of a host that the digest covers. -/
def digestFields : List String :=
  [h.ip, h.mac, h.inferredType, h.inferredBrand, h.inferredDescription, h.inferredLocation,
    h.hostname, h.openPorts, h.detectedServices]

def digestText (hosts : List ReportedHost) : List Char :=
  Text.terminated '\x00' ((hosts.insertionSort fun a b => a.ip ≤ b.ip).flatMap digestFields)

/-- `NetworkStateHash` with the hash function `sha`. -/
def networkStateHash (sha : List Char → String) (hosts : List ReportedHost) : String :=
  if hosts = [] then "" else sha (digestText hosts)

theorem map_eq_of_flatMap_eq {α β : Type} {f : α → List β} {k : Nat} (hk : 0 < k)
    (hf : ∀ a, (f a).length = k) {as bs : List α} (h : as.flatMap f = bs.flatMap f) :
    as.map f = bs.map f := by
  have hempty : ∀ c cs, (c :: cs).flatMap f ≠ [] := by
    intro c cs hc
    have hlen := congrArg length hc
    simp only [flatMap_cons, length_append, hf, length_nil] at hlen
    omega
  induction as generalizing bs with
  | nil =>
    cases bs with
    | nil => rfl
    | cons b bs => exact absurd h.symm (hempty b bs)
  | cons a as ih =>
    cases bs with
    | nil => exact absurd h (hempty a as)
    | cons b bs =>
      obtain ⟨hhead, htail⟩ := append_inj h ((hf a).trans (hf b).symm)
      rw [map_cons, map_cons, hhead, ih htail]

/-- Digest texts without the separator. -/
def NulFree : Prop := ∀ t ∈ digestFields h, '\x00' ∉ t.toList

instance : Decidable (NulFree h) := inferInstanceAs (Decidable (∀ _ ∈ _, _))

/-- Batches with equal digest texts have the same hosts as far as the digest goes. -/
theorem mem_of_digestText_eq {as bs : List ReportedHost} (ha : ∀ h ∈ as, NulFree h)
    (hb : ∀ h ∈ bs, NulFree h) (heq : digestText as = digestText bs) {b : ReportedHost}
    (hmem : b ∈ bs) : ∃ a ∈ as, digestFields a = digestFields b := by
  have hfree : ∀ {hosts : List ReportedHost}, (∀ h ∈ hosts, NulFree h) →
      ∀ t ∈ (hosts.insertionSort fun a b => a.ip ≤ b.ip).flatMap digestFields,
        '\x00' ∉ t.toList := by
    intro hosts hall t ht
    obtain ⟨h, hh, hin⟩ := mem_flatMap.mp ht
    exact hall h ((mem_insertionSort _).mp hh) t hin
  have hfields := Text.terminated_inj (hfree ha) (hfree hb) heq
  have hmaps := map_eq_of_flatMap_eq (by decide : 0 < 9) (fun _ => rfl) hfields
  have hin : digestFields b ∈ (as.insertionSort fun a b => a.ip ≤ b.ip).map digestFields := by
    rw [hmaps]
    exact mem_map_of_mem ((mem_insertionSort _).mpr hmem)
  obtain ⟨a, ha', heq'⟩ := mem_map.mp hin
  exact ⟨a, (mem_insertionSort _).mp ha', heq'⟩

/-- Over these hosts the digest decides what the bridge reads. -/
def DigestDecides (hosts : List ReportedHost) : Prop :=
  ∀ g ∈ hosts, ∀ h ∈ hosts, digestFields g = digestFields h →
    g.alive = h.alive ∧ reportedHostToReport g = reportedHostToReport h

instance (hosts : List ReportedHost) : Decidable (DigestDecides hosts) :=
  inferInstanceAs (Decidable (∀ _ ∈ _, _))

end Steward
