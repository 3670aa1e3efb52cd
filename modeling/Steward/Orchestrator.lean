import Steward.FingerprintRules
import Steward.Runs
import Steward.SnmpReplies

/-!
# The scan engine of an agent

A scan of a host asks the probes, those for the layer below only when the host speaks SNMP,
and the routers when no evidence has a hardware address; a host without evidence is not
reported. What passive sources have observed of the address comes before the answers. Since
these observations are never dropped, and a router's table is kept for half a minute, a host
is reported although nothing has answered.
-/

namespace Steward.Orchestrator

open List

abbrev Evidence := Fingerprints.Evidence

/-! ## Tables of routers -/

structure Row where
  oid : String
  tag : Nat
  value : List UInt8

def oidIpNetToMedia : String := "1.3.6.1.2.1.4.22.1.2"

def oidIpNetToPhysical : String := "1.3.6.1.2.1.4.35.1.4"

/-- The last four numbers of the index. -/
def indexToIp (fullOid root : String) : Option String :=
  (Snmp.indexSuffix fullOid root).bind fun tail =>
    let parts := Text.split tail '.'
    let octets := parts.drop (parts.length - 4)
    if parts.length < 5 then none
    else if octets.all fun p => (Text.parseUnsigned 16 p).any (· ≤ 255) then
      some (Text.join "." octets)
    else none

def octetsToMac (b : List UInt8) : Option String :=
  if b.length ≠ 6 then none else some (Text.join ":" (b.map fun x => Ber.hexOf [x]))

def fillTable (root : String) (rows : List Row) (table : Fields) : Fields :=
  rows.foldl (fun table row =>
    if row.tag ≠ 4 ∨ row.value.length ≠ 6 then table
    else if !Snmp.oidStartsWith row.oid root then table
    else match indexToIp row.oid root, octetsToMac row.value with
      | some ip, some mac => table.set ip mac
      | _, _ => table) table

/-- The newer column is walked when the older one is empty; a walk that fails is an error. -/
def walkRouterArpTable (walkColumn : String → Option (List Row)) : Option Fields :=
  (walkColumn oidIpNetToMedia).bind fun rows =>
    let table := fillTable oidIpNetToMedia rows .empty
    if table.entries = [] then
      (walkColumn oidIpNetToPhysical).map fun rows => fillTable oidIpNetToPhysical rows table
    else some table

structure CacheEntry where
  router : String
  credKey : String
  walkedAt : Nat
  table : Fields
  deriving DecidableEq

/-- Milliseconds for which a table is kept. -/
def routerArpCacheTtl : Nat := 30000

structure Credential where
  /-- The user of a version 3 credential. -/
  v3 : Option String := none
  community : Option String := none
  deriving DecidableEq

def credKey (community : String) (v3 : Option String) : String :=
  match v3 with
  | some username => "v3:" ++ username
  | none => if community = "" then "public" else community

/-- A router during a scan: when its entry is looked at, what a walk of a column yields, and when
the walk is over. -/
structure Visit where
  checked : Nat
  walkColumn : String → Option (List Row)
  walked : Nat

def CacheEntry.fresh (e : CacheEntry) (router key : String) (v : Visit) : Bool :=
  e.router = router && e.credKey = key && v.checked - e.walkedAt < routerArpCacheTtl

/-- The entry for a router: the one that is kept while it is fresh, else that of a walk. -/
def entryFor (router key : String) (v : Visit) (cache : Option CacheEntry) : Option CacheEntry :=
  match cache.filter (·.fresh router key v) with
  | some e => some e
  | none => (walkRouterArpTable v.walkColumn).map fun table => ⟨router, key, v.walked, table⟩

/-- The first router that knows the address wins; one that does not answer is passed over. -/
def lookupMacViaRouters (parses : String → Bool) (key ip : String) :
    List (String × Visit) → Option CacheEntry → Option String × Option CacheEntry
  | [], cache => (none, cache)
  | (router, v) :: rest, cache =>
    if !parses router then lookupMacViaRouters parses key ip rest cache
    else match entryFor router key v cache with
      | none => lookupMacViaRouters parses key ip rest cache
      | some e =>
        match e.table.get? ip with
        | some mac => (some mac, some e)
        | none => lookupMacViaRouters parses key ip rest (some e)

/-! ## The engine -/

def l2ProbeNames : List String :=
  ["active:bridge_mib", "active:cdp_mib", "active:if_mib", "active:lldp_mib",
    "active:q_bridge_mib", "active:route_mib", "active:stp_mib"]

def isL2Probe (name : String) : Bool := l2ProbeNames.contains name

/-- The configuration, with the parser of router addresses, the table of vendors and what becomes
of the evidence: it is classified, folded and brought into the form of a report. -/
structure ScanEngine (H : Type) where
  probes : List String
  routers : List String := []
  community : String := ""
  parses : String → Bool
  oui : String → Option (String × String)
  describe : String → List Evidence → H

/-- What a scan meets: the evidence that each probe returns, whether the two rounds of probes end
in time, and the routers. -/
structure Net where
  answers : Nat → List Evidence
  inTime : Bool := true
  l2InTime : Bool := true
  visits : Nat → Visit

structure State where
  seeds : KeyMap (List Evidence) := .empty
  cache : Option CacheEntry := none
  deriving DecidableEq

def State.seedsOf (s : State) (ip : String) : List Evidence := (s.seeds.get? ip).getD []

def speaksSnmp (evidence : List Evidence) : Bool :=
  evidence.any fun e => e.source = "active:snmp" || e.kind = "snmp"

section Scan

variable {H : Type} (E : ScanEngine H) (ip : String) (cred : Credential) (net : Net) (s : State)

/-- The evidence of one round of probes, in their order; none of it when the round is too late. -/
def gather (l2 inTime : Bool) : List Evidence :=
  if inTime then
    (E.probes.zipIdx.filter fun p => isL2Probe p.1 = l2).flatMap fun p => net.answers p.2
  else []

/-- Seeds and the answers of the first round. -/
def opening : List Evidence := s.seedsOf ip ++ gather E net false net.inTime

/-- With the second round, which only a host that speaks SNMP is asked. -/
def probed : List Evidence :=
  opening E ip net s ++
    if speaksSnmp (opening E ip net s) then gather E net true net.l2InTime else []

def key : String := credKey (cred.community.getD E.community) cred.v3

def visited : List (String × Visit) := E.routers.zipIdx.map fun r => (r.1, net.visits r.2)

def asksRouters : Bool := E.routers ≠ [] && !(probed E ip net s).any fun e => e.kind = "mac"

def lookup : Option String × Option CacheEntry :=
  if asksRouters E ip net s then
    lookupMacViaRouters E.parses (key E cred) ip (visited E net) s.cache
  else (none, s.cache)

def macEvidence (mac : String) : Evidence :=
  let rd : Fields := KeyMap.empty.set "mac" mac
  { source := "active:arp", kind := "mac", ip := ip, protocol := "arp", confidence := 1
    rawData := some (match E.oui mac with
      | some (vendor, start) =>
        ((rd.set "vendor" vendor).set "oui_prefix" start).set "oui_vendor" vendor
      | none => rd) }

def evidence : List Evidence :=
  probed E ip net s ++ ((lookup E ip cred net s).1.map (macEvidence E ip)).toList

/-- A host without evidence is not alive. -/
def scanHostWith : Option H × State :=
  (if evidence E ip cred net s = [] then none
    else some (E.describe ip (evidence E ip cred net s)),
    { s with cache := (lookup E ip cred net s).2 })

end Scan

/-- The last sixteen observations are kept. -/
def observe (ip : String) (evs : List Evidence) (s : State) : State :=
  if ip = "" ∨ evs = [] then s
  else
    let entry := s.seedsOf ip ++ evs
    { s with seeds := s.seeds.set ip (entry.drop (entry.length - 16)) }

inductive Call where
  | observe (ip : String) (evs : List Evidence)
  | scan (ip : String) (cred : Credential) (net : Net)

variable {H : Type} (E : ScanEngine H)

def step (s : State) : Call → State
  | .observe ip evs => observe ip evs s
  | .scan ip cred net => (scanHostWith E ip cred net s).2

/-! ## What a report rests on -/

/-- The entry is of a walk during these visits. -/
def CacheEntry.WalkedBy (e : CacheEntry) (visits : List (String × Visit)) : Prop :=
  ∃ r ∈ visits, e.router = r.1 ∧ e.walkedAt = r.2.walked ∧
    walkRouterArpTable r.2.walkColumn = some e.table

instance (e : CacheEntry) (visits : List (String × Visit)) : Decidable (e.WalkedBy visits) :=
  inferInstanceAs (Decidable (∃ _ ∈ _, _))

section Answers

variable (ip : String) (cred : Credential) (net : Net) (s : State)

/-- A probe that the scan asks returns evidence. -/
def ProbeAnswers : Prop :=
  ∃ p ∈ E.probes.zipIdx, net.answers p.2 ≠ [] ∧
    (isL2Probe p.1 = true → speaksSnmp (opening E ip net s) = true)

/-- The hardware address is taken from the table of a router that the scan walks. -/
def RouterKnows : Prop :=
  ∃ e ∈ (lookup E ip cred net s).2, e.WalkedBy (visited E net) ∧
    (e.table.get? ip).isSome = true ∧ (lookup E ip cred net s).1 = e.table.get? ip

def Answered : Prop := ProbeAnswers E ip net s ∨ RouterKnows E ip cred net s

/-- The hardware address is taken from the table that is kept. -/
def KeptAnswer : Prop :=
  ∃ e ∈ s.cache, ∃ r ∈ visited E net, e.fresh r.1 (key E cred) r.2 = true ∧
    (e.table.get? ip).isSome = true ∧ (lookup E ip cred net s).1 = e.table.get? ip

instance : Decidable (Answered E ip cred net s) :=
  inferInstanceAs (Decidable ((∃ _ ∈ _, _) ∨ ∃ _ ∈ _, _))

end Answers

variable {E} {ip : String} {cred : Credential} {net : Net} {s : State}

theorem gather_ne_nil {l2 inTime : Bool} (h : gather E net l2 inTime ≠ []) :
    ∃ p ∈ E.probes.zipIdx, net.answers p.2 ≠ [] ∧ isL2Probe p.1 = l2 := by
  unfold gather at h
  split at h
  · obtain ⟨e, he⟩ := exists_mem_of_ne_nil _ h
    obtain ⟨p, hp, hanswer⟩ := mem_flatMap.mp he
    obtain ⟨hprobe, hl2⟩ := mem_filter.mp hp
    exact ⟨p, hprobe, ne_nil_of_mem hanswer, of_decide_eq_true hl2⟩
  · exact absurd rfl h

theorem probed_cases (h : probed E ip net s ≠ []) :
    s.seedsOf ip ≠ [] ∨ ProbeAnswers E ip net s := by
  by_cases hseeds : s.seedsOf ip = []
  · right
    by_cases hbase : gather E net false net.inTime = []
    · have hround : (if speaksSnmp (opening E ip net s) then gather E net true net.l2InTime
          else []) ≠ [] := by
        simpa [probed, opening, hseeds, hbase] using h
      split at hround
      · next hspeaks =>
        obtain ⟨p, hp, hanswer, -⟩ := gather_ne_nil hround
        exact ⟨p, hp, hanswer, fun _ => hspeaks⟩
      · exact absurd rfl hround
    · obtain ⟨p, hp, hanswer, hl2⟩ := gather_ne_nil hbase
      refine ⟨p, hp, hanswer, fun h => ?_⟩
      rw [hl2] at h
      cases h
  · exact .inl hseeds

variable {key : String} {cache : Option CacheEntry} {e : CacheEntry}
  {visits : List (String × Visit)}

/-- An entry is the one that was kept, or of a walk. -/
theorem entryFor_cases {router : String} {v : Visit} (h : entryFor router key v cache = some e) :
    (cache = some e ∧ e.fresh router key v = true) ∨
      ∃ table, walkRouterArpTable v.walkColumn = some table ∧
        e = ⟨router, key, v.walked, table⟩ := by
  unfold entryFor at h
  split at h
  · next kept hkept =>
    cases h
    exact .inl (Option.filter_eq_some_iff.mp hkept)
  · obtain ⟨table, htable, he⟩ := Option.map_eq_some_iff.mp h
    exact .inr ⟨table, htable, he.symm⟩

variable {parses : String → Bool} {mac : String}

theorem CacheEntry.WalkedBy.cons (h : e.WalkedBy visits) (visit : String × Visit) :
    e.WalkedBy (visit :: visits) := by
  obtain ⟨r, hr, hwalk⟩ := h
  exact ⟨r, mem_cons_of_mem _ hr, hwalk⟩

/-- The entry is the one that is kept, and fresh for one of the routers, or of a walk. -/
def CacheEntry.From (e : CacheEntry) (key : String) (visits : List (String × Visit))
    (cache : Option CacheEntry) : Prop :=
  e ∈ cache ∧ (∃ r ∈ visits, e.fresh r.1 key r.2 = true) ∨ e.WalkedBy visits

theorem CacheEntry.From.cons (h : e.From key visits cache) (visit : String × Visit) :
    e.From key (visit :: visits) cache := by
  rcases h with ⟨hkept, r, hr, hfresh⟩ | hwalked
  · exact .inl ⟨hkept, r, mem_cons_of_mem _ hr, hfresh⟩
  · exact .inr (hwalked.cons _)

/-- A hardware address comes from the entry that the lookup leaves. -/
theorem entry_of_lookupMac (h : (lookupMacViaRouters parses key ip visits cache).1 = some mac) :
    ∃ e ∈ (lookupMacViaRouters parses key ip visits cache).2, e.table.get? ip = some mac ∧
      e.From key visits cache := by
  induction visits generalizing cache with
  | nil => cases h
  | cons visit rest ih =>
    obtain ⟨router, v⟩ := visit
    rw [lookupMacViaRouters] at h ⊢
    split at h
    · next hparses =>
      obtain ⟨e, he, hmac, hfrom⟩ := ih h
      exact ⟨e, by rwa [if_pos hparses], hmac, hfrom.cons _⟩
    next hparses =>
    rw [if_neg hparses]
    split at h
    · obtain ⟨e, he, hmac, hfrom⟩ := ih h
      exact ⟨e, he, hmac, hfrom.cons _⟩
    next entry hentry =>
    split at h
    · next found hfound =>
      cases h
      refine ⟨entry, rfl, hfound, ?_⟩
      rcases entryFor_cases hentry with ⟨hkept, hfresh⟩ | ⟨table, htable, rfl⟩
      · exact .inl ⟨hkept, (router, v), mem_cons_self, hfresh⟩
      · exact .inr ⟨(router, v), mem_cons_self, rfl, rfl, htable⟩
    · next hnone =>
      -- the entry that is left here does not have the address
      obtain ⟨e, he, hmac, ⟨hkept, -⟩ | hwalked⟩ := ih h
      · cases hkept
        exact absurd (hnone.symm.trans hmac) nofun
      · exact ⟨e, he, hmac, .inr (hwalked.cons _)⟩

theorem lookup_cases (h : (lookup E ip cred net s).1 = some mac) :
    KeptAnswer E ip cred net s ∨ RouterKnows E ip cred net s := by
  have hlookup := h
  unfold lookup at h
  split at h
  · next hasks =>
    obtain ⟨e, he, hmac, ⟨hkept, r, hr, hfresh⟩ | hwalked⟩ := entry_of_lookupMac h
    · exact .inl ⟨e, hkept, r, hr, hfresh, by rw [hmac]; rfl, by rw [hlookup, hmac]⟩
    · exact .inr ⟨e, by rwa [lookup, if_pos hasks], hwalked, by rw [hmac]; rfl,
        by rw [hlookup, hmac]⟩
  · cases h

theorem reported_iff : (scanHostWith E ip cred net s).1.isSome = true ↔
    probed E ip net s ≠ [] ∨ (lookup E ip cred net s).1.isSome = true := by
  have hevidence : evidence E ip cred net s = [] ↔
      probed E ip net s = [] ∧ (lookup E ip cred net s).1 = none := by
    rw [evidence, append_eq_nil_iff]
    simp
  unfold scanHostWith
  split
  · next h =>
    obtain ⟨hprobed, hlookup⟩ := hevidence.mp h
    simp [hprobed, hlookup]
  · next h =>
    refine iff_of_true rfl ?_
    by_contra hneither
    rw [not_or, not_not, Bool.not_eq_true, Option.isSome_eq_false_iff, Option.isNone_iff_eq_none]
      at hneither
    exact h (hevidence.mpr hneither)

/-- A report that rests neither on seeds nor on a kept table was answered. -/
theorem reported_cases (h : (scanHostWith E ip cred net s).1.isSome = true) :
    s.seedsOf ip ≠ [] ∨ KeptAnswer E ip cred net s ∨ Answered E ip cred net s := by
  rcases reported_iff.mp h with hprobed | hlookup
  · rcases probed_cases hprobed with hseeds | hprobe
    · exact .inl hseeds
    · exact .inr (.inr (.inl hprobe))
  · obtain ⟨mac, hmac⟩ := Option.isSome_iff_exists.mp hlookup
    rcases lookup_cases hmac with hkept | hknows
    · exact .inr (.inl hkept)
    · exact .inr (.inr (.inr hknows))

theorem reported_of_seeds (h : s.seedsOf ip ≠ []) :
    (scanHostWith E ip cred net s).1.isSome = true := by
  refine reported_iff.mpr (.inl fun hprobed => h ?_)
  rw [probed, opening, append_eq_nil_iff, append_eq_nil_iff] at hprobed
  exact hprobed.1.1

theorem reported_of_kept (h : KeptAnswer E ip cred net s) :
    (scanHostWith E ip cred net s).1.isSome = true := by
  obtain ⟨e, -, r, -, -, hsome, hlookup⟩ := h
  exact reported_iff.mpr (.inr (hlookup ▸ hsome))

/-! ## Observations -/

/-- The calls have observed something of the address. -/
def Observed (ip : String) (calls : List Call) : Prop :=
  ip ≠ "" ∧ ∃ evs, evs ≠ [] ∧ Call.observe ip evs ∈ calls

theorem seedsOf_observe (s : State) (ip ip' : String) (evs : List Evidence) :
    (observe ip' evs s).seedsOf ip ≠ [] ↔ s.seedsOf ip ≠ [] ∨ ip ≠ "" ∧ evs ≠ [] ∧ ip = ip' := by
  unfold observe
  split
  · next hignored =>
    refine ⟨.inl, fun h => h.resolve_right ?_⟩
    rintro ⟨hip, hevs, rfl⟩
    exact hignored.elim hip hevs
  · next hkept =>
    rw [not_or] at hkept
    simp only [State.seedsOf, KeyMap.get?_set]
    split
    · next hip =>
      subst hip
      refine iff_of_true ?_ (.inr ⟨hkept.1, hkept.2, rfl⟩)
      have hpos : 0 < evs.length := length_pos_iff.mpr hkept.2
      simp only [Option.getD_some, ne_eq, drop_eq_nil_iff, length_append, not_le]
      omega
    · next hip => simp [hip]

/-- Seeds of an address are there from the first observation on, and forever. -/
theorem seedsOf_run (calls : List Call) (s : State) (ip : String) :
    (Runs.run (step E) s calls).seedsOf ip ≠ [] ↔ s.seedsOf ip ≠ [] ∨ Observed ip calls := by
  induction calls generalizing s with
  | nil => simp [Observed]
  | cons call rest ih =>
    rw [Runs.run_cons, ih]
    cases call with
    | observe ip' evs =>
      rw [step, seedsOf_observe, or_assoc]
      refine or_congr_right ⟨?_, ?_⟩
      · rintro (⟨hip, hevs, rfl⟩ | ⟨hip, evs', hevs, hmem⟩)
        · exact ⟨hip, evs, hevs, mem_cons_self⟩
        · exact ⟨hip, evs', hevs, mem_cons_of_mem _ hmem⟩
      · rintro ⟨hip, evs', hevs, hmem⟩
        rcases mem_cons.mp hmem with h | hmem
        · cases h
          exact .inl ⟨hip, hevs, rfl⟩
        · exact .inr ⟨hip, evs', hevs, hmem⟩
    | scan ip' cred net =>
      change (s.seedsOf ip ≠ [] ∨ _) ↔ _
      simp [Observed]

/-! ## Kept tables -/

theorem lookupMac_cache (h : (lookupMacViaRouters parses key ip visits cache).2 = some e) :
    cache = some e ∨ e.WalkedBy visits := by
  induction visits generalizing cache with
  | nil => exact .inl h
  | cons visit rest ih =>
    obtain ⟨router, v⟩ := visit
    rw [lookupMacViaRouters] at h
    split at h
    · exact (ih h).imp_right (·.cons _)
    split at h
    · exact (ih h).imp_right (·.cons _)
    next entry hentry =>
    have hkept : some entry = some e → cache = some e ∨ e.WalkedBy ((router, v) :: rest) := by
      rintro ⟨⟩
      rcases entryFor_cases hentry with ⟨hcache, -⟩ | ⟨table, htable, rfl⟩
      · exact .inl hcache
      · exact .inr ⟨(router, v), mem_cons_self, rfl, rfl, htable⟩
    split at h
    · exact hkept h
    · exact (ih h).elim hkept fun hwalk => .inr (hwalk.cons _)

/-- A kept entry is of a walk during one of the scans. -/
theorem cache_run (calls : List Call) (s : State) (h : (Runs.run (step E) s calls).cache = some e) :
    s.cache = some e ∨
      ∃ ip cred net, Call.scan ip cred net ∈ calls ∧ e.WalkedBy (visited E net) := by
  induction calls generalizing s with
  | nil => exact .inl h
  | cons call rest ih =>
    rcases ih (step E s call) h with hstep | ⟨ip, cred, net, hmem, hwalk⟩
    · cases call with
      | observe ip evs =>
        rw [step, observe] at hstep
        split at hstep <;> exact .inl hstep
      | scan ip cred net =>
        change (lookup E ip cred net s).2 = some e at hstep
        unfold lookup at hstep
        split at hstep
        · exact (lookupMac_cache hstep).imp_right fun hwalk =>
            ⟨ip, cred, net, mem_cons_self, hwalk⟩
        · exact .inl hstep
    · exact .inr ⟨ip, cred, net, mem_cons_of_mem _ hmem, hwalk⟩

/-- What is taken from the kept table was in a router's table less than half a minute ago. -/
theorem kept_recent {calls : List Call}
    (h : KeptAnswer E ip cred net (Runs.run (step E) {} calls)) :
    ∃ r ∈ visited E net, ∃ ip' cred' net', Call.scan ip' cred' net' ∈ calls ∧
      ∃ r' ∈ visited E net', r'.1 = r.1 ∧ r.2.checked < r'.2.walked + routerArpCacheTtl ∧
        ∃ table, walkRouterArpTable r'.2.walkColumn = some table ∧
          (table.get? ip).isSome = true := by
  obtain ⟨e, he, r, hr, hfresh, hsome, -⟩ := h
  obtain hnone | ⟨ip', cred', net', hscan, r', hr', hrouter, hat, hwalk⟩ := cache_run calls {} he
  · cases hnone
  · simp only [CacheEntry.fresh, Bool.and_eq_true, decide_eq_true_eq] at hfresh
    refine ⟨r, hr, ip', cred', net', hscan, r', hr', ?_, by omega, e.table, hwalk, hsome⟩
    rw [← hrouter, hfresh.1.1]

/-! ## Runs -/

/-- Every report is of a host that answered in that very scan, exactly when this holds of the scans
of an address that was observed before, and of those that take the hardware address from the kept
table. -/
theorem reported_answered_iff (E : ScanEngine H) (calls : List Call) :
    (∀ pre ip cred net post, calls = pre ++ .scan ip cred net :: post →
        (scanHostWith E ip cred net (Runs.run (step E) {} pre)).1.isSome = true →
          Answered E ip cred net (Runs.run (step E) {} pre)) ↔
      ∀ pre ip cred net post, calls = pre ++ .scan ip cred net :: post →
        Observed ip pre ∨ KeptAnswer E ip cred net (Runs.run (step E) {} pre) →
          Answered E ip cred net (Runs.run (step E) {} pre) := by
  have hseeds : ∀ pre ip, (Runs.run (step E) {} pre).seedsOf ip ≠ [] ↔ Observed ip pre := by
    intro pre ip
    rw [seedsOf_run]
    exact or_iff_right fun h => h rfl
  constructor
  · rintro h pre ip cred net post hcalls (hobserved | hkept)
    · exact h pre ip cred net post hcalls (reported_of_seeds ((hseeds pre ip).mpr hobserved))
    · exact h pre ip cred net post hcalls (reported_of_kept hkept)
  · intro h pre ip cred net post hcalls hreported
    rcases reported_cases hreported with hseed | hkept | hanswered
    · exact h pre ip cred net post hcalls (.inl ((hseeds pre ip).mp hseed))
    · exact h pre ip cred net post hcalls (.inr hkept)
    · exact hanswered

def station : ScanEngine (List Evidence) where
  probes := ["active:icmp"]
  routers := ["192.0.2.1"]
  parses _ := true
  oui _ := none
  describe _ evidence := evidence

/-- No probe answers; the router has these rows at this time. -/
def quiet (rows : List Row) (time : Nat) : Net where
  answers _ := []
  visits _ := ⟨time, fun oid => if oid = oidIpNetToMedia then some rows else some [], time⟩

/-- A host that was observed once, and one that the router has dropped since the last scan. -/
theorem absent_host_reported :
    let observed := Runs.run (step station) {}
      [.observe "192.0.2.7" [{ source := "discovery:multicast", kind := "mdns" }]]
    let scanned := Runs.run (step station) {}
      [.scan "192.0.2.7" {} (quiet [⟨oidIpNetToMedia ++ ".2.192.0.2.7", 4, [2, 0, 0, 0, 0, 7]⟩] 0)]
    (scanHostWith station "192.0.2.7" {} (quiet [] 86400000) observed).1.isSome = true ∧
      ¬ Answered station "192.0.2.7" {} (quiet [] 86400000) observed ∧
      (scanHostWith station "192.0.2.7" {} (quiet [] 20000) scanned).1.isSome = true ∧
      ¬ Answered station "192.0.2.7" {} (quiet [] 20000) scanned := by
  decide +kernel

/-- The router has dropped the host since the scan. -/
theorem kept_recent_dropped :
    ∃ r ∈ visited station (quiet [] 20000), r.2.checked < 0 + routerArpCacheTtl := by
  obtain ⟨r, hr, _, _, _, hscan, r', hr', -, hrecent, -⟩ := kept_recent (E := station)
    (show KeptAnswer station "192.0.2.7" {} (quiet [] 20000) (Runs.run (step station) {}
      [.scan "192.0.2.7" {} (quiet [⟨oidIpNetToMedia ++ ".2.192.0.2.7", 4, [2, 0, 0, 0, 0, 7]⟩] 0)])
      by unfold KeptAnswer; decide)
  cases mem_singleton.mp hscan
  cases mem_singleton.mp hr'
  exact ⟨r, hr, hrecent⟩

end Steward.Orchestrator
