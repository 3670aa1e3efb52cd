import Steward.AgentReport
import Steward.PeerReporter
import Steward.PeerWire

/-!
# Passive sightings

A passive sighting asserts that a host is there, not which services it runs: the
report of a passive batch leaves the service columns of every row alone. The peer
reporter marks a batch as passive only when no scanned host is in it, so that a
sighting which shares the buffer with a scan is sent as a scan.
-/

namespace Steward

open RowTable

/-! ## Bridging a passive report -/

/-- The same row, with the same services. -/
structure DeviceRow.SameServices (r s : DeviceRow) : Prop where
  id : r.id = s.id
  openPorts : r.openPorts = s.openPorts
  detectedServices : r.detectedServices = s.detectedServices

theorem DeviceRow.SameServices.refl (r : DeviceRow) : r.SameServices r := ⟨rfl, rfl, rfl⟩

variable {t : DeviceRow} {van : Vantage} {res : IdentityResolution} {db' db'' : Db}
  {q : ReportRequest}

theorem DeviceRow.SameServices.trans {r s : DeviceRow} (h : r.SameServices s)
    (h' : s.SameServices t) : r.SameServices t :=
  ⟨h.id.trans h'.id, h.openPorts.trans h'.openPorts, h.detectedServices.trans h'.detectedServices⟩

/-- The write carries no services. -/
def IdentityWrite.Mute (w : IdentityWrite) : Prop :=
  w.openPortsJSON = "" ∧ w.detectedServicesJSON = ""

section Rows

variable {w : IdentityWrite} (now : Nat) (r : DeviceRow)

theorem scanColumns_sameServices (h : w.Mute) : (scanColumns w now r).SameServices r where
  id := rfl
  openPorts := by simp [scanColumns, keepWhenEmpty, h.1]
  detectedServices := by simp [scanColumns, keepWhenEmpty, h.2]

theorem refresh_sameServices (h : w.Mute) : (refresh w now r).SameServices r := by
  have hscan := scanColumns_sameServices now r h
  obtain ⟨s, rfl | rfl, _, _, _, _, _, _, _, _, hrow⟩ := refresh_cases w now r
  · rw [hrow]
    exact ⟨rfl, rfl, rfl⟩
  · rw [hrow]
    exact ⟨hscan.id, hscan.openPorts, hscan.detectedServices⟩

end Rows

/-- Every row is a row of the older table with its services, or has been added since. -/
structure Spares (db db' : Db) : Prop where
  rows : ∀ r' ∈ db'.rows, db.devices.nextId ≤ r'.id ∨ ∃ r ∈ db.rows, r'.SameServices r
  nextId : db.devices.nextId ≤ db'.devices.nextId

namespace Spares

variable {db db' db'' : Db}

theorem refl (db : Db) : Spares db db := ⟨fun r hr => .inr ⟨r, hr, .refl r⟩, Nat.le_refl _⟩

theorem trans (h : Spares db db') (h' : Spares db' db'') : Spares db db'' where
  rows := by
    intro r'' hr''
    rcases h'.rows r'' hr'' with hnew | ⟨r', hr', hsame'⟩
    · exact .inl (Nat.le_trans h.nextId hnew)
    · rcases h.rows r' hr' with hnew | ⟨r, hr, hsame⟩
      · exact .inl (hsame'.id ▸ hnew)
      · exact .inr ⟨r, hr, hsame'.trans hsame⟩
  nextId := Nat.le_trans h.nextId h'.nextId

theorem keeps (h : Spares db db') {r r' : DeviceRow} (hr : r ∈ db.rows) (hr' : r' ∈ db'.rows)
    (hid : r'.id = r.id) : r'.SameServices r := by
  rcases h.rows r' hr' with hnew | ⟨s, hs, hsame⟩
  · have hbelow : r.id < db.devices.nextId := db.devices.below r hr
    omega
  · rwa [Db.eq_of_id hr hs (hid.symm.trans hsame.id)]

variable {i : Nat} {f : DeviceRow → DeviceRow}

theorem map (hf : ∀ r, (f r).SameServices r)
    (hrows : db'.rows = db.rows.map (deviceSchema.onId i f))
    (hnext : db'.devices.nextId = db.devices.nextId) : Spares db db' where
  rows := by
    intro r' hr'
    rw [hrows] at hr'
    rcases mem_map_onId hr' with ⟨hr, -⟩ | ⟨r, hr, -, rfl⟩
    · exact .inr ⟨r', hr, .refl r'⟩
    · exact .inr ⟨r, hr, hf r⟩
  nextId := Nat.le_of_eq hnext.symm

theorem modify (h : ∀ r, (f r).SamePlace r) (hf : ∀ r, (f r).SameServices r) :
    Spares db (db.modify i f h) :=
  .map hf (Db.modify_rows h) rfl

theorem update {h : ∀ r, (f r).id = r.id} (hu : db.update i f h = some db')
    (hf : ∀ r, (f r).SameServices r) : Spares db db' := by
  refine .map hf (Db.update_some hu).2 ?_
  obtain ⟨t, ht, rfl⟩ := Option.map_eq_some_iff.mp hu
  exact Table.update_nextId ht

theorem delete (p : DeviceRow → Bool) : Spares db (db.delete p) where
  rows r' hr' := .inr ⟨r', (Db.mem_delete.mp hr').1, .refl r'⟩
  nextId := Nat.le_refl _

theorem insert {mk : Nat → DeviceRow} {h : ∀ i, (mk i).id = i}
    (hi : db.insert mk h = some db') : Spares db db' := by
  obtain ⟨-, hrows, hnext⟩ := Db.insert_some hi
  refine ⟨fun r' hr' => ?_, by omega⟩
  rw [hrows] at hr'
  rcases List.mem_append.mp hr' with hr | hr
  · exact .inr ⟨r', hr, .refl r'⟩
  · rw [List.mem_singleton.mp hr]
    exact .inl (Nat.le_of_eq (h _).symm)

end Spares

section Writes

variable {db : Db} {w : IdentityWrite} (now : Nat)

theorem parkHolder_spares (i : Nat) : Spares db (parkHolder db now i).1 := by
  unfold parkHolder
  split
  · exact .refl db
  · split
    · next db' hu => exact .update hu fun r => ⟨rfl, rfl, rfl⟩
    · exact .refl db

theorem create_spares (uuid : String) : Spares db (createDeviceIdentity db now uuid w).db := by
  unfold createDeviceIdentity
  split
  · exact .refl db
  · split
    · next db' hi => exact .insert hi
    · exact .refl db

theorem roamDevice_spares : Spares db (roamDevice db now w).1 := by
  unfold roamDevice
  split
  · next db' hu => exact .update hu fun r => ⟨rfl, rfl, rfl⟩
  · simp only
    split
    · next db' hu => exact (Spares.delete _).trans (.update hu fun r => ⟨rfl, rfl, rfl⟩)
    · exact .delete _

theorem update_spares (h : w.Mute) : Spares db (updateDeviceIdentity db now w).db := by
  have hfresh : Spares db (db.modify w.targetId (refresh w now) (refresh_samePlace w now)) :=
    .modify _ fun r => refresh_sameServices now r h
  unfold updateDeviceIdentity
  split
  · have hforce := hfresh.trans (.modify (i := w.targetId) (forceMac_samePlace w now)
      fun r => ⟨rfl, rfl, rfl⟩)
    split
    · exact hforce.trans (.modify (supersede_samePlace now) fun r => ⟨rfl, rfl, rfl⟩)
    · exact hforce
  · split
    · exact hfresh.trans (roamDevice_spares now)
    · exact hfresh.trans (.modify (stamp_samePlace w now) fun r => ⟨rfl, rfl, rfl⟩)

theorem apply_spares (h : w.Mute) (uuid : String) :
    Spares db (applyDeviceIdentity db now uuid w).db := by
  unfold applyDeviceIdentity
  split
  · exact (parkHolder_spares now _).trans (create_spares now uuid)
  · exact (parkHolder_spares now _).trans (update_spares now h)

end Writes

variable {db : Db} {rep : HostReport}

theorem bridgeWrite_mute (h : rep.passive = true) : (bridgeWrite db rep van res).Mute := by
  have hsticky : ∀ before batch, (stickyReport rep res before batch).passive = true := by
    intro before batch
    simp only [stickyReport]
    split <;> exact h
  unfold bridgeWrite
  split
  · have hstamped : (stampVerdict rep (inferType rep)).passive = true := h
    simp [IdentityWrite.Mute, createWrite, buildIdentityWrite, hstamped]
  · simp [IdentityWrite.Mute, updateWrite, buildIdentityWrite, hsticky]

theorem Spares.of_devices (h : Spares db db') (he : db''.devices = db'.devices) :
    Spares db db'' := by
  obtain ⟨hrows, hnext⟩ := h
  exact ⟨fun r' hr' => hrows r' (by rwa [Db.rows, ← he]), by rwa [he]⟩

theorem bridge_spares (db : Db) (h : rep.passive = true) (now : Nat) (uuid : String)
    (van : Vantage) : Spares db (applyDeviceBridge db now uuid rep van).db := by
  unfold applyDeviceBridge
  exact (apply_spares now (bridgeWrite_mute h) uuid).of_devices bridgeCommit_devices

/-- The row that a passive report resolves to stays, with its services. -/
theorem bridge_spares_target (h : rep.passive = true) (now : Nat) (uuid : String) (van : Vantage)
    (ht : t ∈ db.rows)
    (hid : t.id = (resolveDeviceIdentity db now (reportMAC rep) rep.ip van.net).targetId) :
    ∃ t' ∈ (applyDeviceBridge db now uuid rep van).db.rows, t'.SameServices t := by
  obtain ⟨t', ht', hid', -⟩ := bridge_target uuid rfl ht hid
  exact ⟨t', ht', (bridge_spares db h now uuid van).keeps ht ht' hid'⟩

/-! ## A passive batch -/

/-- A batch that carries no hash is bridged. -/
theorem applyHosts_spares {n : Nat} (h : q.report.passive = true) (hosts : List ReportedHost)
    (c : Center) : Spares c.db (applyHosts n q hosts c).center.db := by
  exact Runs.run_preserves (P := fun a : BridgeLoop => Spares c.db a.center.db)
    (fun a x ha => ha.trans (bridge_spares _ h q.now _ _)) (.refl c.db)

theorem SameColumns.spares (h : Spares db db') (hc : SameColumns db' db'') :
    ∀ r ∈ db.rows, ∀ r'' ∈ db''.rows, r''.id = r.id → r''.SameServices r := by
  intro r hr r'' hr'' hid
  obtain ⟨r', hr', hcols⟩ := hc.symm.row hr''
  have hsame : r''.SameServices r' :=
    ⟨(congrArg DeviceRow.id hcols).symm, (congrArg DeviceRow.openPorts hcols).symm,
      (congrArg DeviceRow.detectedServices hcols).symm⟩
  exact hsame.trans (h.keeps hr hr' (hsame.id.symm.trans hid))

/-- The report of a passive batch without a digest leaves the services of every row alone. -/
theorem ReportHandler.step_spares {β : Type} (geo : Geometry β) (n : Nat) (s : ReportHandler β)
    (hpassive : q.report.passive = true) (hhash : q.stateHash = "") :
    ∀ r ∈ s.center.db.rows, ∀ r' ∈ (s.step geo n q).center.db.rows, r'.id = r.id →
      r'.SameServices r := by
  have hfast : ∀ t : ReportHandler β, ¬ t.FastPath q := fun t ht => ht.2.1 hhash
  simp only [ReportHandler.step, ReportHandler.report, if_neg (hfast _)]
  split
  · rw [ReportHandler.backfill_center]
    exact SameColumns.spares (.refl _) (.refl _)
  · simp only [ReportHandler.bridged, ReportHandler.backfill_center]
    exact SameColumns.spares (applyHosts_spares hpassive _ _)
      (recordAliveSnapshots_sameColumns _ _ _ _ _)

/-! ## From the peer reporter to the center -/

namespace Peer

variable {ρ : Type} {cfg : Config ρ ReportedHost}

/-- The request that brings a posted batch to the center. -/
structure Arrives (b : Agent.AgentReport ReportedHost × String) (q : ReportRequest) : Prop where
  origin : q.report.origin = b.1.origin
  networkCIDR : q.report.networkCIDR = b.1.networkCidr
  hosts : q.report.hosts = b.1.hosts.getD []
  stateHash : q.stateHash = b.2

/-- Bridging the host leaves the row it resolves to in place, with its services. -/
def SparesRow (n : Nat) (q : ReportRequest) (hosts : List ReportedHost) (h : ReportedHost) : Prop :=
  ∀ (a : BridgeLoop) (i : Nat),
    let rep := batchReport q.report.passive h
    let res := resolveDeviceIdentity a.center.db q.now (reportMAC rep) rep.ip (some n)
    res.isNew = false → ∀ t ∈ a.center.db.rows, t.id = res.targetId →
      ∃ t' ∈ (applyHost n q hosts a (h, i)).center.db.rows, t'.SameServices t

/-- Scanned hosts join the buffer only beside scanned ones, and sightings only beside sightings. -/
def Unmixed (cfg : Config ρ ReportedHost) (w : Reporter ReportedHost) : Event ρ → Prop
  | .report reports => Reporter.accepted cfg reports ≠ [] → w.bufScan = w.buf.length
  | .reportPassive rep => cfg.reportable rep → w.bufScan = 0
  | _ => True

/-- A buffer that counts as scanned holds scanned hosts only. -/
def ScanBuffer (scanned : ReportedHost → Prop) (hosts : List ReportedHost) (count : Nat) : Prop :=
  0 < count → ∀ h ∈ hosts, scanned h

/-- A batch is passive and goes without a digest, or has scanned hosts only. -/
def ScanBatch (scanned : ReportedHost → Prop) (report : Agent.AgentReport ReportedHost)
    (hash : String) : Prop :=
  (report.origin = "passive" ∧ hash = "") ∨ ∀ h ∈ report.hosts.getD [], scanned h

theorem scanRule (cfg : Config ρ ReportedHost) (scanned : ReportedHost → Prop) :
    BatchRule cfg (ScanBuffer scanned) (ScanBatch scanned) where
  empty := by simp [ScanBuffer]
  flush := by
    intro now scans hosts count hbuf
    by_cases hcount : 0 < count
    · exact .inr (hbuf hcount)
    · left
      simp [batch, body, batchHash, hcount]
  heartbeat := by
    intro now scans
    right
    simp [body]
  retry := by
    rintro report hash (⟨horigin, -⟩ | hscanned)
    · exact .inl ⟨horigin, rfl⟩
    · exact .inr hscanned

theorem scanBuffer_admits {scanned : ReportedHost → Prop} {w : Reporter ReportedHost} {e : Event ρ}
    (hw : ScanBuffer scanned w.buf w.bufScan) (hun : Unmixed cfg w e)
    (hscan : ∀ reports, e = .report reports → ∀ h ∈ Reporter.accepted cfg reports, scanned h) :
    w.Admits cfg (ScanBuffer scanned) e := by
  cases e with
  | report reports =>
    intro hpos h hh
    rcases List.mem_append.mp hh with hh | hh
    · by_cases hnone : Reporter.accepted cfg reports = []
      · simp only [hnone, List.length_nil, Nat.add_zero] at hpos
        exact hw hpos h hh
      · have hcount := hun hnone
        have hbuf := List.length_pos_of_mem hh
        exact hw (by omega) h hh
    · exact hscan reports rfl h hh
  | reportPassive rep =>
    intro hrep hpos
    have hzero := hun hrep
    omega
  | tick | stop | resume | answered => trivial

/-- In every run whose buffer is never mixed, the batch of a host that was only sighted leaves the
services of every row alone, and the row of the host in place. -/
theorem sighting_spares_services {β : Type} (cfg : Config ρ ReportedHost) (events : List (Event ρ))
    (hunmixed : Runs.Along (Reporter.step cfg) (Unmixed cfg) {} events)
    {b : Agent.AgentReport ReportedHost × String}
    (hsent : b ∈ (Runs.run (Reporter.step cfg) {} events).sent) {h : ReportedHost}
    (hh : h ∈ b.1.hosts.getD [])
    (hsighted : ∀ reports, .report reports ∈ events → h ∉ Reporter.accepted cfg reports)
    (geo : Geometry β) (n : Nat) (s : ReportHandler β) {q : ReportRequest} (hq : Arrives b q) :
    (∀ r ∈ s.center.db.rows, ∀ r' ∈ (s.step geo n q).center.db.rows, r'.id = r.id →
      r'.SameServices r) ∧ ∀ hosts, SparesRow n q hosts h := by
  have hcarries := Runs.run_invariant
    (P := Reporter.Carries cfg (ScanBuffer (· ≠ h)) (ScanBatch (· ≠ h))) (fun w e hw he =>
      hw.step (scanRule cfg _) (scanBuffer_admits hw.buffer he.1 he.2))
    ⟨(scanRule cfg _).empty, by simp, by simp, by simp⟩
    (Runs.along_and hunmixed (Runs.along_of_forall _ _ events ?_))
  · have hpassive : b.1.origin = "passive" ∧ b.2 = "" := by
      rcases hcarries.sent b hsent with hpassive | hscanned
      · exact hpassive
      · exact absurd rfl (hscanned h hh)
    have hmark : q.report.passive = true := by simp [AgentReport.passive, hq.origin, hpassive.1]
    refine ⟨s.step_spares geo n hmark (hq.stateHash.trans hpassive.2), ?_⟩
    intro hosts a i rep res _ t ht hid
    exact bridge_spares_target hmark _ _ _ ht hid
  · rintro e he reports rfl g hg rfl
    exact hsighted reports he hg

instance (cfg : Config ρ ReportedHost) (w : Reporter ReportedHost) :
    (e : Event ρ) → Decidable (Unmixed cfg w e)
  | .report reports =>
    inferInstanceAs (Decidable (Reporter.accepted cfg reports ≠ [] → w.bufScan = w.buf.length))
  | .reportPassive rep => inferInstanceAs (Decidable (cfg.reportable rep → w.bufScan = 0))
  | .tick | .stop | .resume .. | .answered .. => isTrue trivial

/-- A center that mirrors its network. -/
def mirror : Config ScannedHost ReportedHost where
  agentId := "mirror"
  networkCidr := "10.0.0.0/24"
  reportable h := h.alive && h.report.ip ≠ ""
  hostToReported := Steward.hostToReported
  networkStateHash := Steward.networkStateHash String.ofList

def seenAt (ip : String) : ScannedHost where
  alive := true
  report := { ip := ip, device := { fields := .empty } }

/-- The request of a batch. -/
def arriving (b : Agent.AgentReport ReportedHost × String) : ReportRequest where
  report := { origin := b.1.origin, networkCIDR := b.1.networkCidr, hosts := b.1.hosts.getD [] }
  stateHash := b.2
  now := 30
  uuid i := "b" ++ String.ofList (List.replicate i '+')

/-- A center whose own scan has found the services of a web server. -/
def scannedWeb : ReportHandler String where
  center := (Center.empty.addNetwork (some "mirror")).bridge 10 "a"
    (webHost [{ kind := "port_open", port := 80 }]).report { net := some 1 }

/-- The posts of the buffer: `tick`, then the two flushes. -/
def flushed : List (Event ScannedHost) := [.tick, .resume 0 20, .resume 0 20, .resume 0 20]

theorem sighted_web_spared :
    let b := (batch mirror 20 0 [hostToReported (seenAt "10.0.0.80")] false, "")
    (∀ r ∈ scannedWeb.center.db.rows,
      ∀ r' ∈ (scannedWeb.step ReportHandler.officeNetwork 1 (arriving b)).center.db.rows,
        r'.id = r.id → r'.SameServices r) ∧
      ∀ hosts, SparesRow 1 (arriving b) hosts (hostToReported (seenAt "10.0.0.80")) :=
  sighting_spares_services mirror
    ([.reportPassive (seenAt "10.0.0.80")] ++ flushed ++ [.report [seenAt "10.0.0.6"]])
    (by decide +kernel) (by decide +kernel) (by decide +kernel)
    (by
      intro reports hr
      simp [flushed] at hr
      subst hr
      decide +kernel)
    ReportHandler.officeNetwork 1 scannedWeb ⟨rfl, rfl, rfl, rfl⟩

/-- The web server is sighted while a scanned router is in the buffer. -/
theorem mixed_batch_erases_services :
    let events : List (Event ScannedHost) :=
      [.report [seenAt "10.0.0.6"], .reportPassive (seenAt "10.0.0.80")] ++ flushed
    (∀ reports, .report reports ∈ events →
      hostToReported (seenAt "10.0.0.80") ∉ Reporter.accepted mirror reports) ∧
    ∃ b ∈ (Runs.run (Reporter.step mirror) {} events).sent,
      hostToReported (seenAt "10.0.0.80") ∈ b.1.hosts.getD [] ∧
      ∃ r ∈ scannedWeb.center.db.rows,
        ∃ r' ∈ (scannedWeb.step ReportHandler.officeNetwork 1 (arriving b)).center.db.rows,
          r'.id = r.id ∧ r.At "10.0.0.80" (some 1) ∧ r.openPorts ≠ "[]" ∧
            r.detectedServices ≠ "[]" ∧ r'.openPorts = "[]" ∧ r'.detectedServices = "[]" := by
  constructor
  · intro reports hr
    simp [flushed] at hr
    subst hr
    decide +kernel
  · decide +kernel

end Peer

end Steward
