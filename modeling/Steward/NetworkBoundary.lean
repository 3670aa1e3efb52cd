import Steward.AgentReport
import Steward.Ownership

/-!
# The boundary of a network

`Report` once more, for all networks of a center and statement by statement. The
boundary of a network is read through a cache that a backfill clears and an edit
of the network does not. Reports run beside each other; edits come in between.
-/

namespace Steward

open Programs Function Prog

variable {β : Type}

/-- The center, the stored boundaries, and what the handler keeps for each network. -/
structure ReportDesk (β : Type) where
  center : Center
  cidr : Nat → Option String
  cidrCache : Nat → Option (Option β) := fun _ => none
  lastHash : Nat → String := fun _ => ""

namespace ReportDesk

/-- The part of one network. -/
def desk (w : ReportDesk β) (n : Nat) : ReportHandler β where
  center := w.center
  cidr := w.cidr n
  cidrCache := w.cidrCache n
  lastHash := w.lastHash n

inductive Statement (β : Type) where
  /-- `UPDATE networks SET cidr = ? WHERE id = ? AND (cidr IS NULL OR cidr = '')`. -/
  | backfill (n : Nat) (cidr : String)
  | invalidate (n : Nat)
  | cache (n : Nat) (boundary : Option β)
  | remember (n : Nat) (hash : String)
  /-- `ApplyReport` for a host. -/
  | bridge (n : Nat) (host : ReportedHost) (now : Nat) (uuid : String) (rep : HostReport)
      (agentId : String) (aliases : List String)
  /-- One host of `RecordAliveSnapshots`. -/
  | renewLease (n : Nat) (host : ReportedHost) (now : Nat)

namespace Statement

/-- The network of a statement. -/
def network : Statement β → Nat
  | backfill n _ | invalidate n | cache n _ | remember n _ | bridge n .. | renewLease n .. => n

/-- The host that a statement attributes to its network. -/
def host? : Statement β → Option ReportedHost
  | bridge _ host .. | renewLease _ host _ => some host
  | _ => none

def apply : Statement β → ReportDesk β → ReportDesk β
  | backfill n cidr, w =>
    if (w.cidr n).getD "" = "" then { w with cidr := Function.update w.cidr n (some cidr) } else w
  | invalidate n, w => { w with cidrCache := Function.update w.cidrCache n none }
  | cache n boundary, w => { w with cidrCache := Function.update w.cidrCache n (some boundary) }
  | remember n hash, w => { w with lastHash := Function.update w.lastHash n hash }
  | bridge n _ now uuid rep agentId aliases, w =>
    { w with center := w.center.bridge now uuid rep ⟨some n, agentId, aliases⟩ }
  | renewLease n host now, w =>
    { w with center := w.center.recordAlive n 0 now ⟨host.alive, reportedHostToReport host⟩ }

end Statement

variable (geo : Geometry β) (n : Nat) (reported : String)

/-- `maybeBackfillNetworkCIDR`. -/
def maybeBackfill : Prog (ReportDesk β) (Statement β) Unit :=
  if (geo.parseNetwork reported).isNone then pure ()
  else do
    let row ← Prog.query fun w : ReportDesk β => w.cidr n
    if row.getD "" ≠ "" then pure ()
    else do
      Prog.issue (.backfill n reported)
      Prog.issue (.invalidate n)

/-- The boundary that a stored text stands for. -/
def boundaryOf (cidr : Option String) : Option β :=
  if cidr.getD "" = "" then none else geo.parseNetwork (cidr.getD "")

/-- `resolveNetworkCIDR`, with a row that can be read; after an error the source goes without a
boundary for this report and caches nothing. -/
def resolve : Prog (ReportDesk β) (Statement β) (Option β) := do
  let cached ← Prog.query fun w : ReportDesk β => w.cidrCache n
  match cached with
  | some boundary => pure boundary
  | none => do
    let row ← Prog.query fun w : ReportDesk β => w.cidr n
    Prog.issue (.cache n (boundaryOf geo row))
    pure (boundaryOf geo row)

/-- `filterInNetwork`. -/
def filterInNetwork (hosts : List ReportedHost) :
    Prog (ReportDesk β) (Statement β) (List ReportedHost) := do
  let boundary ← resolve geo n
  pure (hosts.filter fun h => h.counts && boundary.all fun b => geo.containsIP b h.ip)

variable (q : ReportRequest)

/-- `RecordAliveSnapshots`. -/
def renewLeases (hosts : List ReportedHost) :
    Prog (ReportDesk β) (Statement β) Unit :=
  Prog.forEach (fun h => Prog.issue (.renewLease n h q.now)) hosts

/-- The bridge loop. -/
def bridgeHosts (hosts : List ReportedHost) :
    Prog (ReportDesk β) (Statement β) Unit :=
  Prog.forEach (fun x : ReportedHost × Nat => Prog.issue (.bridge n x.1 q.now (q.uuid x.2)
    (batchReport q.report.passive x.1) q.agentId (batchAliases hosts x.1))) hosts.zipIdx

/-- `reconcileWipedServices`. -/
def reconcile (hosts : List ReportedHost) :
    Prog (ReportDesk β) (Statement β) Unit := do
  let wiped ← Prog.query fun w : ReportDesk β => wipedHosts w.center.db n hosts
  Prog.forEach (fun x : ReportedHost × Nat => Prog.issue (.bridge n x.1 q.now (q.uuid x.2)
    (reportedHostToReport x.1) q.agentId [])) wiped.zipIdx

/-- `Report` after the backfill. -/
def process : Prog (ReportDesk β) (Statement β) Unit :=
  if q.report.hosts = [] then pure ()
  else do
    let last ← Prog.query fun w : ReportDesk β => w.lastHash n
    let hosts ← filterInNetwork geo n q.report.hosts
    if q.stateHash ≠ "" ∧ last = q.stateHash then do
      renewLeases n q hosts
      reconcile n q hosts
    else do
      bridgeHosts n q hosts
      renewLeases n q hosts
      if q.stateHash ≠ "" then Prog.issue (.remember n q.stateHash) else pure ()

/-- `Report`. -/
def report : Prog (ReportDesk β) (Statement β) Unit := do
  if q.report.reportedCIDR ≠ "" then maybeBackfill geo n q.report.reportedCIDR else pure ()
  process geo n q

/-! ## A report that runs alone is a step of the handler -/

section Refines

variable {geo n} (w : ReportDesk β)

theorem maybeBackfill_refines :
    ((maybeBackfill geo n reported).after Statement.apply w).desk n =
      (w.desk n).maybeBackfillNetworkCIDR geo reported := by
  unfold maybeBackfill ReportHandler.maybeBackfillNetworkCIDR
  split
  · rfl
  · by_cases hrow : (w.cidr n).getD "" = ""
    · simp [Statement.apply, desk, hrow]
    · simp [desk, hrow]

theorem resolve_refines :
    (resolve geo n).exec Statement.apply w =
      ((w.desk n).resolveNetworkCIDR geo,
        { w with cidrCache :=
            update w.cidrCache n (some ((w.desk n).resolveNetworkCIDR geo)) }) := by
  unfold resolve ReportHandler.resolveNetworkCIDR
  cases hcache : w.cidrCache n with
  | some b =>
    have hsame : update w.cidrCache n (some b) = w.cidrCache := by
      rw [← hcache, update_eq_self]
    simp [desk, hcache, hsame]
  | none =>
    have hnone : (w.desk n).cidrCache = none := hcache
    simp only [exec_bind, exec_query, hcache, hnone, exec_issue, exec_pure]
    rfl

/-- A loop whose statements touch the center only. -/
theorem after_loop {α : Type} {op : α → Statement β} (f : Center → α → Center)
    (h : ∀ x w, (op x).apply w = { w with center := f w.center x }) (xs : List α) :
    (forEach (fun x => issue (op x)) xs).after Statement.apply w =
      { w with center := Runs.run f w.center xs } := by
  rw [after_forEach]
  induction xs generalizing w with
  | nil => rfl
  | cons x xs ih =>
    rw [Runs.run_cons, Runs.run_cons, ih, after_issue, h]

variable {q : ReportRequest} {hosts : List ReportedHost}

theorem renewLeases_after (h : ∀ x ∈ hosts, x.counts) :
    (renewLeases n q hosts).after Statement.apply w =
      { w with center :=
          w.center.recordAliveSnapshots (some n) 0 q.now (hostReportsForLease hosts) } := by
  have hall : hosts.filter ReportedHost.counts = hosts := List.filter_eq_self.mpr h
  rw [renewLeases, after_loop w
    (fun c h => c.recordAlive n 0 q.now ⟨h.alive, reportedHostToReport h⟩) fun _ _ => rfl]
  simp only [Center.recordAliveSnapshots, hostReportsForLease, hall, Runs.run, List.foldl_map]

theorem bridgeHosts_after :
    (bridgeHosts n q hosts).after Statement.apply w =
      { w with center := (applyHosts n q hosts w.center).center } := by
  let loop (c : Center) (x : ReportedHost × Nat) : Center :=
    c.bridge q.now (q.uuid x.2) (batchReport q.report.passive x.1)
      ⟨some n, q.agentId, batchAliases hosts x.1⟩
  have hcenter : ∀ a x, (applyHost n q hosts a x).center = loop a.center x := fun _ _ => rfl
  rw [bridgeHosts, after_loop w loop fun _ _ => rfl, applyHosts,
    Runs.run_map (f := BridgeLoop.center) hcenter]

theorem reconcile_after :
    (reconcile n q hosts).after Statement.apply w =
      { w with center := reconcileWipedServices n q hosts w.center } := by
  rw [reconcile, after_bind, exec_query, after_query,
    after_loop w (reconcileHost n q) fun _ _ => rfl]
  rfl

theorem filterInNetwork_refines :
    (filterInNetwork geo n hosts).exec Statement.apply w =
      ((w.desk n).inNetwork geo hosts,
        { w with cidrCache :=
            update w.cidrCache n (some ((w.desk n).resolveNetworkCIDR geo)) }) := by
  rw [filterInNetwork, exec_bind, resolve_refines]
  rfl

theorem process_refines (hne : q.report.hosts ≠ []) :
    ((process geo n q).after Statement.apply w).desk n =
      (if (w.desk n).FastPath q then (w.desk n).stable geo n q
        else (w.desk n).bridged geo n q).1 := by
  have hcounts : ∀ x ∈ (w.desk n).inNetwork geo q.report.hosts, x.counts := by
    intro x hx
    simp only [ReportHandler.inNetwork, List.mem_filter, Bool.and_eq_true] at hx
    exact hx.2.1
  have hafter : (filterInNetwork geo n q.report.hosts).after Statement.apply w = _ :=
    congrArg Prod.snd (filterInNetwork_refines w)
  rw [process, if_neg hne, after_bind, exec_query, after_query, after_bind,
    filterInNetwork_refines, hafter]
  by_cases hpath : q.stateHash ≠ "" ∧ w.lastHash n = q.stateHash
  · have hfast : (w.desk n).FastPath q := ⟨hne, hpath⟩
    rw [if_pos hpath, if_pos hfast, after_bind, renewLeases_after _ hcounts, reconcile_after]
    simp [desk, ReportHandler.stable]
  · have hslow : ¬ (w.desk n).FastPath q := fun h => hpath h.2
    rw [if_neg hpath, if_neg hslow, after_bind, bridgeHosts_after, after_bind,
      renewLeases_after _ hcounts]
    by_cases hhash : q.stateHash ≠ ""
    · simp [desk, ReportHandler.bridged, hhash, Statement.apply]
    · simp [desk, ReportHandler.bridged, hhash]

/-- A report that runs alone does to its network what the handler of the network does. -/
theorem report_refines (q : ReportRequest) :
    ((report geo n q).after Statement.apply w).desk n = (w.desk n).step geo n q := by
  have hprocess : ∀ w : ReportDesk β, ((process geo n q).after Statement.apply w).desk n =
      (if q.report.hosts = [] then (w.desk n, {})
        else if (w.desk n).FastPath q then (w.desk n).stable geo n q
        else (w.desk n).bridged geo n q).1 := by
    intro w
    by_cases hne : q.report.hosts = []
    · rw [process, if_pos hne, if_pos hne]
      rfl
    · rw [process_refines w hne, if_neg hne]
  unfold report ReportHandler.step ReportHandler.report ReportHandler.backfill
  split
  · rw [after_bind, hprocess, maybeBackfill_refines]
  · exact hprocess w

end Refines

/-! ## A report that is alone on its network -/

/-- The stored boundary of a network and the cached one. -/
def boundaryView (n : Nat) (w : ReportDesk β) : Option String × Option (Option β) :=
  (w.cidr n, w.cidrCache n)

/-- The cache has nothing or what is stored. -/
def Coherent (v : Option String × Option (Option β)) : Prop :=
  ∀ b, v.2 = some b → b = boundaryOf geo v.1

/-- The host of a statement lies inside the boundary of its network at that moment. -/
def Statement.Within (op : Statement β) (w : ReportDesk β) : Prop :=
  ∀ h ∈ op.host?, ∀ b ∈ boundaryOf geo (w.cidr op.network), geo.containsIP b h.ip

/-- The hosts of a list lie inside a stored boundary. -/
def AllInside (cidr : Option String) (hosts : List ReportedHost) : Prop :=
  ∀ h ∈ hosts, ∀ b ∈ boundaryOf geo cidr, geo.containsIP b h.ip

/-- What a statement of a report for the network may do. -/
def Proper (op : Statement β) (w : ReportDesk β) : Prop := op.network = n ∧ op.Within geo w

variable {geo n}

theorem boundaryView_other {m : Nat} (op : Statement β) (w : ReportDesk β) (h : m ≠ op.network) :
    boundaryView m (op.apply w) = boundaryView m w := by
  cases op with
  | backfill n cidr =>
    have hne : m ≠ n := h
    simp only [Statement.apply]
    split
    · simp [boundaryView, hne]
    · rfl
  | invalidate n | cache n _ =>
    have hne : m ≠ n := h
    simp [boundaryView, Statement.apply, hne]
  | remember | bridge | renewLease => rfl

variable {v : Option String × Option (Option β)}

theorem backfill_ensures (hv : Coherent geo v) :
    (maybeBackfill geo n reported).Ensures Statement.apply (boundaryView n) (Proper geo n)
      (fun _ v' => Coherent geo v') v := by
  unfold maybeBackfill
  split
  · exact hv
  · refine (ensures_query (fun row v' => row = v.1 ∧ v' = v) ?_).bind ?_
    · rintro w rfl
      exact ⟨rfl, rfl⟩
    · rintro _ _ ⟨rfl, rfl⟩
      split
      · exact hv
      · -- Between the update and the invalidation the cache is behind, and no host is attributed.
        refine (ensures_issue (fun _ _ => True) ?_).bind ?_
        · exact fun w _ => ⟨⟨rfl, by simp [Statement.Within, Statement.host?]⟩, trivial⟩
        · refine fun _ _ _ => ensures_issue _ fun w _ => ⟨⟨rfl, ?_⟩, ?_⟩
          · simp [Statement.Within, Statement.host?]
          · simp [Coherent, boundaryView, Statement.apply]

theorem resolve_ensures (hv : Coherent geo v) :
    (resolve geo n).Ensures Statement.apply (boundaryView n) (Proper geo n)
      (fun r v' => r = boundaryOf geo v'.1 ∧ Coherent geo v') v := by
  refine (ensures_query (fun cached v' => cached = v.2 ∧ v' = v) ?_).bind ?_
  · rintro w rfl
    exact ⟨rfl, rfl⟩
  · rintro cached _ ⟨hcached, rfl⟩
    cases cached with
    | some boundary => exact ⟨hv boundary hcached.symm, hv⟩
    | none =>
      refine (ensures_query (fun row v' => row = v'.1) ?_).bind ?_
      · rintro w rfl
        rfl
      · rintro _ v' rfl
        refine (ensures_issue (fun _ v'' => v'' = (v'.1, some (boundaryOf geo v'.1)))
          ?_).bind ?_
        · rintro w rfl
          refine ⟨⟨rfl, by simp [Statement.Within, Statement.host?]⟩, ?_⟩
          simp [boundaryView, Statement.apply]
        · rintro _ _ rfl
          refine ⟨rfl, ?_⟩
          rintro b hb
          exact (Option.some.inj hb).symm

/-- The hosts that pass lie inside the boundary. -/
theorem filter_ensures (hosts : List ReportedHost) (hv : Coherent geo v) :
    (filterInNetwork geo n hosts).Ensures Statement.apply (boundaryView n) (Proper geo n)
      (fun r v' => Coherent geo v' ∧ AllInside geo v'.1 r) v := by
  refine (resolve_ensures hv).bind ?_
  rintro _ v' ⟨rfl, hv'⟩
  refine ⟨hv', fun h hh b hb => ?_⟩
  simp only [List.mem_filter, Bool.and_eq_true] at hh
  rw [Option.mem_def.mp hb] at hh
  simpa using hh.2.2

/-- A loop that attributes hosts inside the boundary to the network. -/
theorem loop_ensures {α : Type} {xs : List α} {op : α → Statement β} {host : α → ReportedHost}
    (hnet : ∀ x, (op x).network = n) (hhost : ∀ x, (op x).host? = some (host x))
    (hview : ∀ x w, boundaryView n ((op x).apply w) = boundaryView n w)
    (hin : ∀ x ∈ xs, ∀ b ∈ boundaryOf geo v.1, geo.containsIP b (host x).ip) :
    (forEach (fun x => issue (op x)) xs).Ensures Statement.apply (boundaryView n)
      (Proper geo n) (fun _ v' => v' = v) v := by
  apply Ensures.forEach
  intro x hx
  rintro w rfl
  refine ⟨⟨hnet x, ?_⟩, hview x w⟩
  intro h hh b hb
  rw [hhost x] at hh
  cases hh
  rw [hnet x] at hb
  exact hin x hx b hb

section Loops

variable {v : Option String × Option (Option β)} {q : ReportRequest} {hosts : List ReportedHost}
  (hin : AllInside geo v.1 hosts)

include hin

theorem renewLeases_ensures :
    (renewLeases n q hosts).Ensures Statement.apply (boundaryView n) (Proper geo n)
      (fun _ v' => v' = v) v :=
  loop_ensures (fun _ => rfl) (fun _ => rfl) (fun _ _ => rfl) hin

theorem bridgeHosts_ensures :
    (bridgeHosts n q hosts).Ensures Statement.apply (boundaryView n) (Proper geo n)
      (fun _ v' => v' = v) v :=
  loop_ensures (fun _ => rfl) (fun _ => rfl) (fun _ _ => rfl) fun _ hx =>
    hin _ (fst_mem_of_zipIdx hx)

theorem reconcile_ensures :
    (reconcile n q hosts).Ensures Statement.apply (boundaryView n) (Proper geo n)
      (fun _ v' => v' = v) v := by
  refine (ensures_query (fun wiped v' => v' = v ∧ ∀ h ∈ wiped, h ∈ hosts) ?_).bind ?_
  · refine fun w _ => ⟨rfl, fun h hh => ?_⟩
    simp only [wipedHosts, List.mem_filter] at hh
    exact hh.1.1
  · rintro wiped _ ⟨rfl, hsub⟩
    exact loop_ensures (fun _ => rfl) (fun _ => rfl) (fun _ _ => rfl) fun _ hx =>
      hin _ (hsub _ (fst_mem_of_zipIdx hx))

end Loops

theorem process_ensures (q : ReportRequest) (hv : Coherent geo v) :
    (process geo n q).Ensures Statement.apply (boundaryView n) (Proper geo n)
      (fun _ v' => Coherent geo v') v := by
  unfold process
  split
  · exact hv
  · refine (ensures_query (fun _ v' => v' = v) fun _ _ => rfl).bind ?_
    rintro last _ rfl
    refine (filter_ensures q.report.hosts hv).bind ?_
    rintro hosts v' ⟨hv', hin⟩
    split
    · refine (renewLeases_ensures hin).bind ?_
      rintro _ _ rfl
      exact (reconcile_ensures hin).mono fun _ _ he => he ▸ hv'
    · refine (bridgeHosts_ensures hin).bind ?_
      rintro _ _ rfl
      refine (renewLeases_ensures hin).bind ?_
      rintro _ _ rfl
      split
      · rintro w rfl
        exact ⟨⟨rfl, by simp [Statement.Within, Statement.host?]⟩, hv'⟩
      · exact hv'

theorem report_ensures (q : ReportRequest) (hv : Coherent geo v) :
    (report geo n q).Ensures Statement.apply (boundaryView n) (Proper geo n)
      (fun _ v' => Coherent geo v') v := by
  unfold report
  split
  · exact (backfill_ensures _ hv).bind fun _ _ hv' => process_ensures q hv'
  · exact process_ensures q hv

end ReportDesk

/-! ## Reports beside each other -/

/-- `trimPtrToNil`. -/
def trimPtrToNil (s : Option String) : Option String :=
  (s.map Text.trimSpace).filter fun t => t ≠ ""

/-- Reports in progress, each with its network, on the state of the desk. -/
structure ReportPool (β : Type) where
  pool : Pool (ReportDesk β) (ReportDesk.Statement β)
  networks : List Nat := []

namespace ReportPool

inductive Event where
  | report (n : Nat) (q : ReportRequest)
  | advance (i : Nat)
  /-- `NetworkService.Update`. -/
  | update (n : Nat) (cidr : Option String)

/-- The center at start: boundaries are stored, none is cached. -/
def initial (center : Center) (cidr : Nat → Option String) : ReportPool β where
  pool := { state := { center := center, cidr := cidr } }

variable (geo : Geometry β) (w : ReportPool β)

def step : Event → ReportPool β
  | .report n q => ⟨w.pool.start (ReportDesk.report geo n q), w.networks ++ [n]⟩
  | .advance i => { w with pool := w.pool.advance ReportDesk.Statement.apply i }
  | .update n cidr =>
    let state := w.pool.state
    let edited := { state with cidr := Function.update state.cidr n (trimPtrToNil cidr) }
    { w with pool := { w.pool with state := edited } }

/-- The next statement of a report has its host inside the stored boundary. -/
def NextWithin (state : ReportDesk β) :
    Option (Prog (ReportDesk β) (ReportDesk.Statement β) Unit) → Prop
  | some (.act op _) => op.Within geo state
  | _ => True

/-- Every host that is bridged or whose lease is renewed lies inside the boundary that is stored
for the network at that moment. -/
def KeepsBoundary : Event → Prop
  | .advance i => NextWithin geo w.pool.state w.pool.tasks[i]?
  | _ => True

/-- The reports of a network come one after the other, and a network is updated between them, while
its boundary is not cached or to the cached one. -/
def Orderly : Event → Prop
  | .report n _ => w.pool.Free w.networks n
  | .advance _ => True
  | .update n cidr =>
    w.pool.Free w.networks n ∧
      ∀ b ∈ w.pool.state.cidrCache n, b = ReportDesk.boundaryOf geo (trimPtrToNil cidr)

/-- A report has its network for itself, and a network without one has a coherent cache. -/
def Guarded : Prop :=
  w.pool.Owned ReportDesk.Statement.apply ReportDesk.boundaryView (ReportDesk.Proper geo)
    (fun _ => ReportDesk.Coherent geo) w.networks

variable {geo} {w : ReportPool β}

theorem Guarded.advance (h : w.Guarded geo) (i : Nat) :
    (w.step geo (.advance i)).Guarded geo ∧ w.KeepsBoundary geo (.advance i) := by
  obtain ⟨hnext, hok⟩ := Pool.Owned.advance h
    (fun _ m op s hop hne => ReportDesk.boundaryView_other op s (hop.1 ▸ hne)) i
  refine ⟨hnext, ?_⟩
  simp only [KeepsBoundary]
  unfold NextWithin
  split
  · next op next htask =>
    obtain ⟨_, -, hin⟩ := hok op next htask
    exact hin
  · trivial

theorem Guarded.update (h : w.Guarded geo) {n : Nat} {cidr : Option String}
    (hok : w.Orderly geo (.update n cidr)) : (w.step geo (.update n cidr)).Guarded geo := by
  apply Pool.Owned.restate h
  intro m
  by_cases hm : m = n
  · subst hm
    -- No report of the network relies on what it has read there.
    refine .inr ⟨hok.1, ?_⟩
    intro b hb
    simpa [ReportDesk.boundaryView] using hok.2 b hb
  · exact .inl (by simp [ReportDesk.boundaryView, hm])

theorem Guarded.step {e : Event} (h : w.Guarded geo) (he : w.Orderly geo e) :
    w.KeepsBoundary geo e ∧ (w.step geo e).Guarded geo := by
  cases e with
  | report n q => exact ⟨trivial, Pool.Owned.start h he fun v hv => ReportDesk.report_ensures q hv⟩
  | advance i => exact (h.advance i).symm
  | update n cidr => exact ⟨trivial, h.update he⟩

/-! ## Histories -/

instance (op : ReportDesk.Statement β) (w : ReportDesk β) : Decidable (op.Within geo w) :=
  inferInstanceAs (Decidable (∀ h ∈ op.host?, ∀ b ∈ ReportDesk.boundaryOf geo (w.cidr op.network),
    geo.containsIP b h.ip))

instance (state : ReportDesk β) :
    (p : Option (Prog (ReportDesk β) (ReportDesk.Statement β) Unit)) →
      Decidable (NextWithin geo state p)
  | some (.act op _) => inferInstanceAs (Decidable (op.Within geo state))
  | none | some (.ret _) | some (.ask _) => .isTrue trivial

instance (w : ReportPool β) : (e : Event) → Decidable (w.KeepsBoundary geo e)
  | .advance i => inferInstanceAs (Decidable (NextWithin geo w.pool.state w.pool.tasks[i]?))
  | .report .. | .update .. => .isTrue trivial

instance [DecidableEq β] (w : ReportPool β) : (e : Event) → Decidable (w.Orderly geo e)
  | .report n _ => inferInstanceAs (Decidable (w.pool.Free w.networks n))
  | .advance _ => .isTrue trivial
  | .update n cidr => inferInstanceAs (Decidable (w.pool.Free w.networks n ∧
      ∀ b ∈ w.pool.state.cidrCache n, b = ReportDesk.boundaryOf geo (trimPtrToNil cidr)))

/-- In every history in which the reports of a network do not overlap and its boundary is not
changed once it is cached, nothing outside the stored boundary is attributed to a network. -/
theorem boundary_kept (geo : Geometry β) (center : Center) (cidr : Nat → Option String)
    (events : List Event)
    (h : Runs.Along (step geo) (Orderly geo) (initial center cidr) events) :
    Runs.Along (step geo) (KeepsBoundary geo) (initial center cidr) events :=
  Runs.along_of_along (fun _ _ hw he => Guarded.step hw he)
    (Pool.owned_empty fun _ _ hb => by cases hb) h

open ReportHandler (scanBatch hashlessBatch)

/-- Two networks that parse. -/
def twoOffices : Geometry String where
  parseNetwork s :=
    if s = "10.0.0.0/24" then some "10.0.0." else if s = "10.1.0.0/24" then some "10.1.0." else none
  containsIP p ip := Text.hasPrefix p ip

def twoNetworks : ReportPool String :=
  initial ((Center.empty.addNetwork (some "agent-1")).addNetwork (some "agent-2")) fun _ => none

def visitor (ip : String) : ReportedHost := { ip := ip }

/-- Two reports beside each other, for a network that was updated before and one that adopts the
boundary of its agent. -/
def twoAgents : List Event :=
  [[.update 2 (some " 10.1.0.0/24 "), .report 1 (scanBatch 10 "a" [visitor "10.0.0.5"]),
      .report 2 (hashlessBatch "" 10 "b" [visitor "10.1.0.5", visitor "10.0.0.6"])],
    (List.replicate 10 [.advance 1, .advance 0]).flatten,
    [.update 1 (some "10.0.0.0/24"), .report 1 (scanBatch 20 "c" [visitor "10.1.0.7"])],
    List.replicate 5 (.advance 2)].flatten

theorem twoAgents_kept :
    (Runs.run (step twoOffices) twoNetworks twoAgents).pool.tasks.all Prog.finished = true ∧
      Runs.Along (step twoOffices) (KeepsBoundary twoOffices) twoNetworks twoAgents :=
  ⟨by decide +kernel, boundary_kept twoOffices _ _ _ (by decide +kernel)⟩

/-- A network that is moved after its first report. -/
def movedNetwork : List Event :=
  [[.report 1 (scanBatch 10 "a" [visitor "10.0.0.5"])], List.replicate 10 (.advance 0),
    [.update 1 (some "10.1.0.0/24"), .report 1 (scanBatch 20 "b" [visitor "10.0.0.6"])],
    List.replicate 6 (.advance 1)].flatten

/-- A report that reads the empty boundary before another fills it, and caches it after. -/
def overtakenBackfill : List Event :=
  [[.report 1 (hashlessBatch "" 10 "a" [visitor "10.1.0.5"])], List.replicate 3 (.advance 0),
    [.report 1 (scanBatch 20 "b" [visitor "10.1.0.6"])], List.replicate 3 (.advance 1),
    [.advance 0], List.replicate 3 (.advance 1)].flatten

/-- The cached boundary outlives an update of the network, and a backfill by another report: a host
outside the stored boundary is bridged in both histories. -/
theorem stale_boundary_admits :
    ¬ Runs.Along (step twoOffices) (KeepsBoundary twoOffices) twoNetworks movedNetwork ∧
      ¬ Runs.Along (step twoOffices) (KeepsBoundary twoOffices) twoNetworks overtakenBackfill := by
  decide +kernel

end ReportPool

end Steward
