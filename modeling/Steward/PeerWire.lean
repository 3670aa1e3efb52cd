import Steward.AgentWire
import Steward.Snapshots

/-!
# The wire format of a peer

A center that mirrors its network flattens its own reports with `HostToReported`,
and the peer rebuilds them with the converter of the agent reports. The evidence
of a report does not cross the wire: MACs, interfaces, routes and neighbors have
arrays of their own, open ports have none.
-/

namespace Steward

open JsonValue List

instance (n : Int) : Decidable (Fits64 n) := inferInstanceAs (Decidable (_ ∧ _))

/-- An integer of the source, which is in the range of its type. -/
def goInt (n : Int) : GoInt := if h : Fits64 n then ⟨n, h⟩ else default

/-- `strconv.Atoi` and `strconv.ParseInt`, with zero for a text that is no number. -/
def atoi (s : String) : GoInt := goInt ((Text.parseInt s).getD 0)

theorem goInt_val {n : Int} (h : Fits64 n) : (goInt n).1 = n := by
  rw [goInt, dif_pos h]

variable (rep : HostReport)

/-- The MAC of the device fields, else of the first MAC evidence. -/
def reportedMAC : String :=
  if rep.field "mac" ≠ "" then rep.field "mac"
  else
    firstNonEmpty ((rep.evidence.filter fun e => e.kind = "mac").map fun e =>
      Fields.get (e.rawData.getD .empty) "mac")

def reportedInterface (e : Evidence) : Option ReportedInterface :=
  match e.kind, e.rawData with
  | "interface", some rd =>
    if (atoi (Fields.get rd "if_index")).1 ≤ 0 then none
    else some
      { ifIndex := atoi (Fields.get rd "if_index")
        ifName := Fields.get rd "if_name"
        ifDescr := Fields.get rd "if_descr"
        mac := Fields.get rd "mac"
        ip := Fields.get rd "ip"
        speedMbps := atoi (Fields.get rd "speed_mbps") }
  | _, _ => none

def reportedRoute (e : Evidence) : Option ReportedRoute :=
  match e.kind, e.rawData with
  | "route", some rd =>
    if Fields.get rd "dest" = "" ∨ Fields.get rd "next_hop" = "" then none
    else some
      { destCIDR := Fields.get rd "dest"
        nextHop := Fields.get rd "next_hop"
        ifIndex := atoi (Fields.get rd "if_index")
        proto := Fields.get rd "proto" }
  | _, _ => none

def reportedNeighbor (e : Evidence) : Option ReportedNeighbor :=
  match e.kind, e.rawData with
  | "neighbor", some rd =>
    if normalizeMAC (Fields.get rd "neighbor_mac") = "" ∨ Fields.get rd "protocol" = "" then none
    else some
      { neighborMAC := normalizeMAC (Fields.get rd "neighbor_mac")
        protocol := Fields.get rd "protocol"
        localPort := Fields.get rd "local_port"
        remotePort := Fields.get rd "remote_port"
        vlanTag := Fields.get rd "vlan_tag"
        sysName := Fields.get rd "sys_name"
        sysDesc := Fields.get rd "sys_desc" }
  | _, _ => none

def ReportedNeighbor.key (n : ReportedNeighbor) : String := n.neighborMAC ++ "|" ++ n.protocol

/-- The first neighbor of each key. -/
def firstNeighbors (ns : List ReportedNeighbor) : List ReportedNeighbor :=
  ns.foldl (fun out n => if out.any fun m => m.key = n.key then out else out ++ [n]) []

/-- `HostToReported`. -/
def hostToReported (h : ScannedHost) : ReportedHost where
  ip := h.report.ip
  alive := h.alive
  rttMs := goInt h.report.rttMs
  mac := reportedMAC h.report
  inferredType := h.report.field "inferred_type"
  inferredTypeSource := h.report.field "inferred_type_source"
  inferredBrand := h.report.field "inferred_brand"
  inferredModel := h.report.field "inferred_model"
  inferredDescription := h.report.field "inferred_description"
  inferredLocation := h.report.field "inferred_location"
  hostname := firstNonEmpty [h.report.field "node_hostname", h.report.field "sys_name"]
  openPorts := h.report.field "open_ports"
  detectedServices := h.report.field "detected_services"
  prometheusURL := h.report.field "prometheus_url"
  nodeExporterURL := h.report.field "node_exporter_url"
  services := h.report.services.map fun s => ⟨s.service, goInt s.port, s.protocol, s.metadata⟩
  interfaces := h.report.evidence.filterMap reportedInterface
  routes := h.report.evidence.filterMap reportedRoute
  neighbors := firstNeighbors (h.report.evidence.filterMap reportedNeighbor)

/-! ## The round trip -/

/-- The report that a peer rebuilds. -/
def mirrored (h : ScannedHost) : HostReport := reportedHostToReport (hostToReported h)

/-- The ports of the services are integers of the source. -/
def HostReport.Typed : Prop := ∀ s ∈ rep.services, Fits64 s.port

instance : Decidable rep.Typed :=
  inferInstanceAs (Decidable (∀ s ∈ rep.services, Fits64 s.port))

variable {h : ScannedHost}

theorem mirrored_services (ht : h.report.Typed) : (mirrored h).services = h.report.services := by
  simp only [mirrored, reportedHostToReport, hostToReported, map_map]
  conv_rhs => rw [← map_id h.report.services]
  apply map_congr_left
  intro s hs
  simp [goInt_val (ht s hs)]

theorem mirrored_openPorts : (serviceArrays (mirrored h)).1 = [] :=
  (fromWire_batchReport false (hostToReported h)).serviceArrays.1

theorem mirrored_detectedServices (ht : h.report.Typed) :
    (serviceArrays (mirrored h)).2 = (serviceArrays h.report).2 := by
  simp only [serviceArrays, mirrored_services ht]

theorem openPorts_eq_nil {rep : HostReport} :
    (serviceArrays rep).1 = [] ↔ ∀ e ∈ rep.evidence, e.kind = "port_open" → e.port ≤ 0 := by
  simp only [serviceArrays, map_eq_nil_iff]
  rw [eq_nil_iff_forall_not_mem]
  simp only [mem_insertionSort, mem_dedup, mem_map, mem_filter, Bool.and_eq_true, decide_eq_true_eq]
  constructor
  · intro hnone e he hkind
    by_contra hport
    exact hnone e.port ⟨e, ⟨he, hkind, Int.not_le.mp hport⟩, rfl⟩
  · rintro hnone p ⟨e, ⟨he, hkind, hport⟩, -⟩
    exact Int.not_le.mpr hport (hnone e he hkind)

theorem renderItems_ne_nil (ms : Members) (rest : List Json) :
    renderItems (.obj ms :: rest) ≠ [] := by
  cases rest <;> simp [renderItems, renderChars]

theorem render_openPorts {ports : List OpenPortEntry} :
    render (.arr (ports.map OpenPortEntry.encode)) = render (.arr []) ↔ ports = [] := by
  constructor
  · intro heq
    cases ports with
    | nil => rfl
    | cons p rest =>
      have hchars := String.ofList_injective heq
      simp only [renderChars, cons_append, cons.injEq, true_and] at hchars
      exact absurd (append_cancel_right hchars) (renderItems_ne_nil _ _)
  · rintro rfl
    rfl

/-- The peer computes the service columns of the local scan exactly when the report has no
evidence of an open port. -/
theorem scanInfo_round_trip_iff (h : ScannedHost) (ht : h.report.Typed) :
    deviceScanInfoJSON (reportedHostToReport (hostToReported h)) = deviceScanInfoJSON h.report ↔
      ∀ e ∈ h.report.evidence, e.kind = "port_open" → e.port ≤ 0 := by
  have hports : (serviceArrays (reportedHostToReport (hostToReported h))).1 = [] :=
    mirrored_openPorts
  have hservices := mirrored_detectedServices ht
  rw [mirrored] at hservices
  simp only [deviceScanInfoJSON, Prod.mk.injEq, hports, hservices, and_true, map_nil]
  rw [eq_comm, render_openPorts, openPorts_eq_nil]

/-- A host with a web server; the port scan leaves its evidence or does not run. -/
def webHost (evidence : List Evidence) : ScannedHost where
  alive := true
  report :=
    { ip := "10.0.0.80"
      evidence := evidence
      services := [{ service := "http", port := 80, protocol := "tcp" }]
      device := { fields := .empty } }

theorem webHost_round_trip :
    deviceScanInfoJSON (reportedHostToReport (hostToReported (webHost [{ kind := "banner" }]))) =
      deviceScanInfoJSON (webHost [{ kind := "banner" }]).report :=
  (scanInfo_round_trip_iff (webHost [{ kind := "banner" }]) (by decide)).mpr (by decide)

theorem open_port_lost :
    (webHost [{ kind := "port_open", port := 80 }]).report.Typed ∧
      deviceScanInfoJSON (reportedHostToReport
        (hostToReported (webHost [{ kind := "port_open", port := 80 }]))) ≠
      deviceScanInfoJSON (webHost [{ kind := "port_open", port := 80 }]).report := by
  decide +kernel

end Steward
