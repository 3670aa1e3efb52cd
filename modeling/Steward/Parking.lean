import Steward.Runs
import Steward.Slots

/-!
# Parking

A locally administered MAC must not overwrite a vendor's device that holds the
reported address: the holder is moved to a sentinel address instead. Two
questions: which rows of vendors' devices a report of such a MAC can change at
all, and whether a parked device gets its row back when it returns.
-/

namespace Steward

open JsonValue RowTable

/-- The local pipeline for one report: the enrichment, then the bridge. -/
def localScan (db : Db) (recorded applied : Nat) (uuid : String) (rep : HostReport)
    (van : Vantage) : Bridged :=
  applyDeviceBridge (recordDevice db recorded rep.ip van.net rep.device) applied uuid rep van

theorem ne_of_guard {a b : String} (ha : isLocallyAdministeredMAC a = true)
    (hb : isLocallyAdministeredMAC b = false) :
    b ≠ a := by
  rintro rfl
  exact absurd (ha.symm.trans hb) (by decide)

variable {mac c : String} {i : Nat}

section Sparing

variable {db : Db} {now : Nat} {uuid : String} {w : IdentityWrite} {r : DeviceRow}

theorem parkHolder_keep_or_park (i : Nat) (hr : r ∈ db.rows) :
    r ∈ (parkHolder db now i).1.rows ∨ parkRow now r ∈ (parkHolder db now i).1.rows := by
  by_cases hid : r.id = i
  · subst hid
    rcases parkHolder_cases db now r.id (Db.id_ne_zero hr) with ⟨-, -, hrows⟩ | ⟨-, hsame⟩
    · rw [hrows]
      exact .inr (mem_map_same hr rfl)
    · rw [hsame]
      exact .inl hr
  · exact .inl (parkHolder_keep hr hid)

theorem not_evictable (hmac : r.macAddress ≠ "") : isEvictable w r = false := by
  simp [isEvictable, hmac]

/-- A row with a MAC that is neither the target nor superseded can only be parked. -/
theorem apply_keep_or_park (hr : r ∈ db.rows) (hmac : r.macAddress ≠ "")
    (hold : w.isNew = false → r.id ≠ w.targetId ∧ r.id ≠ w.replacedId) :
    r ∈ (applyDeviceIdentity db now uuid w).db.rows ∨
      parkRow now r ∈ (applyDeviceIdentity db now uuid w).db.rows := by
  have later : ∀ s, s.id = r.id → s.macAddress ≠ "" →
      s ∈ (parkHolder db now w.parkHolderId).1.rows →
      s ∈ (applyDeviceIdentity db now uuid w).db.rows := by
    intro s hid hmac hs
    unfold applyDeviceIdentity
    split
    · exact create_keep hs
    · next hnew =>
      obtain ⟨htarget, hreplaced⟩ := hold (by simpa using hnew)
      exact update_keep hs (by rwa [hid]) (by rwa [hid]) (not_evictable hmac)
  rcases parkHolder_keep_or_park w.parkHolderId hr with h | h
  · exact .inl (later r rfl hmac h)
  · exact .inr (later (parkRow now r) rfl hmac h)

/-- A locally administered MAC resolves to no vendor's row, unless that row holds
the reported slot and lists the MAC as its own. -/
theorem Verdict.spares {mac ip : String} {net : Option Nat} {res : IdentityResolution}
    (hv : Verdict db now mac ip net res) (hla : isLocallyAdministeredMAC mac = true)
    (hr : r ∈ db.rows) (hg : GloballyAdministered r.macAddress)
    (halias : r.At ip net → macIsHolderAlias r mac = false) :
    r.id ≠ res.targetId ∧ r.id ≠ res.replacedId := by
  have hzero : r.id ≠ 0 := Db.id_ne_zero hr
  have hother : r.macAddress ≠ mac := ne_of_guard hla hg.2
  have apart : ∀ t, t ∈ db.rows → r ≠ t → r.id ≠ t.id :=
    fun t ht hne he => hne (Db.eq_of_id hr ht he)
  have own : ∀ m, Preferred db mac m → r.id ≠ m.id :=
    fun m hm => apart m hm.mem fun he => hother (he ▸ hm.carries)
  have local' : ∀ h, Rival db mac ip net h → guarded mac h.macAddress = false → r.id ≠ h.id := by
    intro h hrival hguard
    refine apart h hrival.mem fun he => ?_
    simp [guarded, hla, ← he, hg.2] at hguard
  cases hv with
  | create => exact ⟨hzero, hzero⟩
  | slot h macless => exact absurd macless (ne_empty_of_locallyAdministered hla)
  | fill p _ _ empty =>
    obtain ⟨hp, hat, -⟩ := Db.placeholder_eq_some.mp empty
    exact ⟨apart p hp fun he => hg.1 (he ▸ hat.2), hzero⟩
  | park => exact ⟨hzero, hzero⟩
  | takeOver h _ _ rival _ noGuard => exact ⟨local' h rival noGuard, hzero⟩
  | sameHost h _ _ rival listed =>
    refine ⟨apart h rival.mem fun he => ?_, hzero⟩
    have hno := halias (he ▸ rival.at)
    rw [he, listed] at hno
    exact absurd hno (by decide)
  | own m _ preferred => exact ⟨own m preferred, hzero⟩
  | roam m moved => exact ⟨own m moved.preferred, hzero⟩
  | parkRoam m h moved => exact ⟨own m moved.preferred, hzero⟩
  | replace m h moved rival _ noGuard => exact ⟨local' h rival noGuard, own m moved.preferred⟩

/-- The bridge spares the rows that the verdict spares. -/
theorem applyDeviceBridge_spares {rep : HostReport} {van : Vantage}
    (hla : isLocallyAdministeredMAC (reportMAC rep) = true) (hr : r ∈ db.rows)
    (hg : GloballyAdministered r.macAddress)
    (halias : r.At rep.ip van.net → macIsHolderAlias r (reportMAC rep) = false) :
    ∃ r' ∈ (applyDeviceBridge db now uuid rep van).db.rows, r' = r ∨ r' = parkRow now r := by
  have hspared := (resolve_verdict db now (reportMAC rep) rep.ip van.net).spares hla hr hg halias
  unfold applyDeviceBridge
  rw [bridgeCommit_rows]
  generalize resolveDeviceIdentity db now (reportMAC rep) rep.ip van.net = res at hspared
  have hkept : r ∈ (applyDeviceIdentity db now uuid (bridgeWrite db rep van res)).db.rows ∨
      parkRow now r ∈ (applyDeviceIdentity db now uuid (bridgeWrite db rep van res)).db.rows := by
    refine apply_keep_or_park hr hg.1 fun hold => ?_
    cases hnew : res.isNew with
    | true => exact absurd hold (by rw [bridgeWrite_new hnew]; simp)
    | false =>
      rw [bridgeWrite_old hnew]
      exact hspared
  rcases hkept with h | h
  · exact ⟨r, h, .inl rfl⟩
  · exact ⟨parkRow now r, h, .inr rfl⟩

end Sparing

/-- A report of a locally administered MAC leaves every vendor's row alone or parks
it, apart from a holder of the reported slot that lists the MAC and the row that
the enrichment picked. -/
theorem localScan_spares {db : Db} {recorded applied : Nat} {uuid : String} {rep : HostReport}
    {van : Vantage} {r : DeviceRow} (hla : isLocallyAdministeredMAC (reportMAC rep) = true)
    (hr : r ∈ db.rows) (hg : GloballyAdministered r.macAddress)
    (hrec : recordTarget db rep.ip van.net rep.device ≠ some r)
    (halias : r.At rep.ip van.net → macIsHolderAlias r (reportMAC rep) = false) :
    ∃ r' ∈ (localScan db recorded applied uuid rep van).db.rows, r' = r ∨
      r' = parkRow applied r := by
  have hkept : r ∈ (recordDevice db recorded rep.ip van.net rep.device).rows := by
    refine recordDevice_keep hr fun t ht he => hrec ?_
    rw [ht, Db.eq_of_id hr (recordTarget_mem ht) he]
  exact applyDeviceBridge_spares hla hkept hg halias

/-- A vendor's device at one address and a randomized client at another. -/
def clientBeside : Db :=
  (localScan (localScan Db.empty 100 100 "u1" (sighting "00:11:22:33:44:55" "10.0.0.1")
    { net := some 1 }).db
    200 200 "u2" (sighting "02:11:22:33:44:77" "10.0.0.2") { net := some 1 }).db

theorem client_at_vendor_address_spares :
    ∃ r ∈ clientBeside.rows, r.At "10.0.0.1" (some 1) ∧ ∃ r' ∈ (localScan clientBeside 300 300 "u3"
      (sighting "02:11:22:33:44:77" "10.0.0.1") { net := some 1 }).db.rows, r' = r ∨
        r' = parkRow 300 r := by
  obtain ⟨r, hr, hat, hg, hrec, halias⟩ : ∃ r ∈ clientBeside.rows, r.At "10.0.0.1" (some 1) ∧
      GloballyAdministered r.macAddress ∧
      recordTarget clientBeside "10.0.0.1" (some 1)
        (sighting "02:11:22:33:44:77" "10.0.0.1").device ≠ some r ∧
      macIsHolderAlias r (reportMAC (sighting "02:11:22:33:44:77" "10.0.0.1")) = false := by
    decide +kernel
  exact ⟨r, hr, hat, localScan_spares (by decide +kernel) hr hg hrec fun _ => halias⟩

/-- The other network card of a vendor's device: the holder lists it and takes its report. -/
theorem alias_report_changes_vendor_row :
    let van : Vantage := { net := some 1 }
    let taken :=
      (localScan (localScan Db.empty 100 100 "u1" (sighting "02:11:22:33:44:77" "10.0.0.1") van).db
      200 200 "u2" (sighting "00:11:22:33:44:55" "10.0.0.1") van).db
    let db := (localScan taken 300 300 "u3" (sighting "02:11:22:33:44:77" "10.0.0.2") van).db
    ∃ r ∈ db.rows, GloballyAdministered r.macAddress ∧
      recordTarget db "10.0.0.1" (some 1) (sighting "02:11:22:33:44:77" "10.0.0.1").device ≠
        some r ∧
      ∀ r' ∈ (localScan db 400 400 "u4" (sighting "02:11:22:33:44:77" "10.0.0.1") van).db.rows,
        r'.id = r.id → r'.scanAttributes ≠ r.scanAttributes := by
  decide +kernel

/-! ## The return of a parked device -/

/-- A report of a client, through one of the writers. -/
inductive ClientReport where
  | upsert (now : Nat) (uuid : String) (w : IdentityWrite)
  | bridge (now : Nat) (uuid : String) (rep : HostReport) (van : Vantage)
  | record (now : Nat) (ip : String) (net : Option Nat) (d : DeviceRef)

namespace ClientReport

def now : ClientReport → Nat
  | upsert now _ _ => now
  | bridge now _ _ _ => now
  | record now _ _ _ => now

def run (db : Db) : ClientReport → Db
  | upsert now uuid w => (identityUpsert db now uuid w).db
  | bridge now uuid rep van => (applyDeviceBridge db now uuid rep van).db
  | record now ip net d => recordDevice db now ip net d

def runs (db : Db) (steps : List ClientReport) : Db := Runs.run run db steps

/-- The report names the client's MAC (the enrichment may miss it) and a real address. -/
def From (c : String) : ClientReport → Prop
  | upsert _ _ w => w.mac = c ∧ RealIp w.ip
  | bridge _ _ rep _ => reportMAC rep = c ∧ RealIp rep.ip
  | record _ ip _ d => (recordMAC d = "" ∨ recordMAC d = c) ∧ RealIp ip

/-- The id of the row that the report moves aside, zero for none. -/
def parks (db : Db) : ClientReport → Nat
  | upsert now _ w => (resolveDeviceIdentity db now w.mac w.ip w.networkId).parkHolderId
  | bridge now _ rep van =>
    let res := resolveDeviceIdentity db now (reportMAC rep) rep.ip van.net
    if res.isNew then 0 else res.parkHolderId
  | record _ _ _ _ => 0

end ClientReport

variable {db : Db} {r : DeviceRow}

/-- The client's reports reach no row with another MAC at a sentinel address. -/
theorem ClientReport.run_keeps (s : ClientReport) (hs : s.From c) (hr : r ∈ db.rows)
    (hmac : r.macAddress ≠ c) (hip : r.ipAddress = parkAddress i) (hne : r.macAddress ≠ "") :
    r ∈ (s.run db).rows := by
  have away : ∀ ip net, RealIp ip → ¬ r.At ip net := fun ip net hreal hat =>
    hreal.ne_parkAddress i (hip.symm.trans hat.1)
  cases s with
  | upsert now uuid w =>
    obtain ⟨rfl, hreal⟩ := hs
    exact identityUpsert_keep hr hmac (away w.ip w.networkId hreal)
  | bridge now uuid rep van =>
    obtain ⟨rfl, hreal⟩ := hs
    exact applyDeviceBridge_keep hr hmac (away rep.ip van.net hreal)
  | record now ip net d =>
    refine recordDevice_keep hr fun t ht he => ?_
    obtain rfl : r = t := Db.eq_of_id hr (recordTarget_mem ht) he
    rcases recordTarget_reach ht with hcarries | hat
    · rcases hs.1 with h | h
      · exact hne (hcarries.trans h)
      · exact hmac (hcarries.trans h)
    · exact away ip net hs.2 hat

theorem ClientReport.runs_keep (steps : List ClientReport) (hsteps : ∀ s ∈ steps, s.From c)
    (hr : r ∈ db.rows) (hmac : r.macAddress ≠ c) (hip : r.ipAddress = parkAddress i)
    (hne : r.macAddress ≠ "") : r ∈ (ClientReport.runs db steps).rows := by
  have hstep : ∀ (d : Db) (s : ClientReport), r ∈ d.rows → s.From c → r ∈ (s.run d).rows :=
    fun d s hd hs => s.run_keeps hs hd hmac hip hne
  exact Runs.run_invariant (P := fun d => r ∈ d.rows) hstep hr
    (Runs.along_of_forall _ db steps hsteps)

/-- A verdict that parks a row neither writes to it nor supersedes it. -/
theorem Verdict.parked_apart {now : Nat} {ip : String} {net : Option Nat}
    {res : IdentityResolution} (hv : Verdict db now mac ip net res) (hr : r ∈ db.rows)
    (hp : res.parkHolderId = r.id) :
    (res.isNew = false → r.id ≠ res.targetId) ∧ res.replacedId = 0 := by
  have hzero : r.id ≠ 0 := Db.id_ne_zero hr
  cases hv with
  | park h => exact ⟨fun hold => absurd hold (by simp), rfl⟩
  | parkRoam m h moved rival =>
    refine ⟨fun _ he => moved.ne_rival rival ?_, rfl⟩
    exact he.symm.trans hp.symm
  | _ => exact absurd hp.symm hzero

section Park

variable {db : Db} {now : Nat} {uuid : String} {w : IdentityWrite} {H : DeviceRow}

theorem apply_parks (hH : H ∈ db.rows) (hmac : H.macAddress ≠ "") (hp : w.parkHolderId = H.id)
    (hfit : db.devices.Fits H.id (parkRow now)) (htarget : w.isNew = false → H.id ≠ w.targetId)
    (hrep : w.replacedId = 0) : parkRow now H ∈ (applyDeviceIdentity db now uuid w).db.rows := by
  have hparked : parkRow now H ∈ (parkHolder db now w.parkHolderId).1.rows := by
    rw [hp, (parkHolder_fits (Db.id_ne_zero hH) hfit).2]
    exact mem_map_same hH rfl
  unfold applyDeviceIdentity
  split
  · exact create_keep hparked
  · next hnew =>
    have hreplaced : H.id ≠ w.replacedId := by
      rw [hrep]
      exact Db.id_ne_zero hH
    exact update_keep hparked (htarget (by simpa using hnew)) hreplaced (not_evictable hmac)

/-- A report that parks a row leaves exactly the parked row behind. -/
theorem ClientReport.run_parks (s : ClientReport) (hH : H ∈ db.rows) (hmac : H.macAddress ≠ "")
    (hp : s.parks db = H.id) (hfit : db.devices.Fits H.id (parkRow s.now)) :
    parkRow s.now H ∈ (s.run db).rows := by
  cases s with
  | upsert now uuid w =>
    obtain ⟨htarget, hrep⟩ := (resolve_verdict db now w.mac w.ip w.networkId).parked_apart hH hp
    exact apply_parks hH hmac hp hfit htarget hrep
  | bridge now uuid rep van =>
    have hv := resolve_verdict db now (reportMAC rep) rep.ip van.net
    simp only [ClientReport.parks] at hp
    simp only [ClientReport.run, applyDeviceBridge, bridgeCommit_rows]
    generalize resolveDeviceIdentity db now (reportMAC rep) rep.ip van.net = res at hv hp
    cases hnew : res.isNew with
    | true => exact absurd (by simpa [hnew] using hp) (Db.id_ne_zero hH).symm
    | false =>
      have hp : res.parkHolderId = H.id := by simpa [hnew] using hp
      obtain ⟨htarget, hrep⟩ := hv.parked_apart hH hp
      rw [bridgeWrite_old hnew]
      exact apply_parks hH hmac hp hfit (fun _ => htarget hnew) hrep
  | record now ip net d => exact absurd hp.symm (Db.id_ne_zero hH)

end Park

/-- The device is back on its own row, and no other row took on another name, type or brand. -/
def Restored (before after : Db) (H : DeviceRow) (ip : String) (n : Nat) : Prop :=
  (∃ r ∈ after.rows, r.id = H.id ∧ r.deviceUuid = H.deviceUuid ∧ r.status = .online ∧
    r.At ip (some n)) ∧
    ∀ s ∈ before.rows, s.id ≠ H.id →
      ∃ s' ∈ after.rows, s'.id = s.id ∧ s'.name = s.name ∧ s'.type = s.type ∧ s'.brand = s.brand

section Return

variable {db : Db} {now n i : Nat} {uuid : String} {w : IdentityWrite} {p : DeviceRow}

/-- The write that a resolved roam of row `i` comes to. -/
theorem upsert_roam_rows (hnet : w.networkId = some n)
    (free : ∀ s ∈ db.rows, ¬ s.At w.ip (some n)) :
    (applyDeviceIdentity db now uuid (w.resolved { targetId := i, roamed := true })).db.rows =
      db.rows.map (settle i now (w.resolved { targetId := i, roamed := true })
        (relocate (w.resolved { targetId := i, roamed := true }) now)) := by
  rw [(apply_old rfl).1]
  have hres : (w.resolved { targetId := i, roamed := true }).roamed = true := rfl
  refine (update_roam_free rfl rfl hres fun t _ _ k hk r hr _ => ?_).2
  obtain rfl := relocate_network hnet hk
  exact free r hr

/-- A report at the slot of a parked row relocates that row only by a roam of it. -/
theorem parked_row_returns (hp : p ∈ db.rows) (hip : p.ipAddress = parkAddress i)
    (hg : GloballyAdministered p.macAddress) (hreal : RealIp w.ip) (hmac : w.mac = p.macAddress)
    (hnet : w.networkId = some n) {r : DeviceRow} (hr : r ∈ (identityUpsert db now uuid w).db.rows)
    (hid : r.id = p.id) (hat : r.At w.ip (some n)) :
    (∀ s ∈ db.rows, ¬ s.At w.ip (some n)) ∧ Preferred db p.macAddress p := by
  have stays : ∀ res : IdentityResolution, res.isNew = false → res.parkHolderId = 0 →
      res.roamed = false →
      r ∉ (applyDeviceIdentity db now uuid (w.resolved res)).db.rows := by
    intro res hold hpark hroam hr
    rw [(apply_old hold).1, show (w.resolved res).parkHolderId = 0 from hpark] at hr
    have hstill : (w.resolved res).roamed = false := hroam
    obtain ⟨s, hs, hplace⟩ := update_place (by simp [hstill]) hr
    obtain rfl : s = p := Db.eq_of_id hs hp (hplace.id.symm.trans hid)
    exact hreal.ne_parkAddress i (hip.symm.trans (hplace.ipAddress.symm.trans hat.1))
  have seen : ¬ Unseen db w.mac := fun hu => hu.absent p hp hmac.symm
  have hv := resolve_verdict db now w.mac w.ip w.networkId
  unfold identityUpsert at hr
  generalize resolveDeviceIdentity db now w.mac w.ip w.networkId = res at hv hr
  cases hv with
  | create why =>
    rcases why with ⟨hempty, -⟩ | ⟨hu, -⟩
    · exact absurd (hmac.symm.trans hempty) hg.1
    · exact absurd hu seen
  | slot h macless => exact absurd (hmac.symm.trans macless) hg.1
  | fill h unseen => exact absurd unseen seen
  | park h unseen => exact absurd unseen seen
  | takeOver h unseen => exact absurd unseen seen
  | sameHost h => exact absurd hr (stays _ rfl rfl rfl)
  | own m => exact absurd hr (stays _ rfl rfl rfl)
  | roam m moved free =>
    rw [hnet] at free
    rw [upsert_roam_rows hnet free] at hr
    rcases mem_map_onId hr with ⟨hr, -⟩ | ⟨s, hs, hsid, rfl⟩
    · exact absurd hat (free r hr)
    · have hsp : s.id = p.id := relocate_refresh_id.symm.trans hid
      obtain rfl : m = p := Db.eq_of_id moved.preferred.mem hp (hsid.symm.trans hsp)
      exact ⟨free, hmac ▸ moved.preferred⟩
  | parkRoam m h moved rival stranger guard =>
    have hla := (guarded_iff.mp guard).1
    rw [hmac, hg.2] at hla
    exact absurd hla (by decide)
  | replace m h => exact absurd hr (stays _ rfl rfl rfl)

/-- The parked row roams back to a free slot. -/
theorem restored_of_free (hp : p ∈ db.rows) (hip : p.ipAddress = parkAddress i)
    (hpnet : p.networkId = some n) (hne : p.macAddress ≠ "") (hreal : RealIp w.ip)
    (hmac : w.mac = p.macAddress) (hnet : w.networkId = some n)
    (hfree : ∀ s ∈ db.rows, ¬ s.At w.ip (some n)) (hpref : Preferred db p.macAddress p) :
    Restored db (identityUpsert db now uuid w).db p w.ip n := by
  have helse : p.ipAddress ≠ w.ip := fun h => hreal.ne_parkAddress i (hip.symm.trans h)
  have hres : resolveDeviceIdentity db now w.mac w.ip w.networkId =
      { targetId := p.id, roamed := true } := by
    simp [resolveDeviceIdentity, hmac, hne, Db.liveRowByMAC_eq_some.mpr hpref, resolveSeen, helse,
      hreal.located,
      multiHomed, hnet, hpnet, Db.slotHolder_eq_none.mpr hfree]
  unfold Restored identityUpsert
  rw [hres, upsert_roam_rows hnet hfree]
  constructor
  · refine ⟨_, mem_map_same hp rfl, relocate_refresh_id, ?_, rfl, relocate_at hnet⟩
    exact (refresh_same _ now p).deviceUuid
  · intro s hs hne
    exact ⟨s, mem_map_other hs hne, rfl, rfl, rfl, rfl⟩

end Return

/-- After a client's MAC had a vendor's device parked, and after whatever the client
reported since, the return of the device restores its row exactly when its slot is
free and no fresher row carries its MAC. -/
theorem parked_device_restored_iff {db : Db} {H : DeviceRow} {c ip : String} {n now : Nat}
    {uuid : String} {w : IdentityWrite} (first : ClientReport) (rest : List ClientReport)
    (hc : isLocallyAdministeredMAC c = true) (hH : H ∈ db.rows)
    (hg : GloballyAdministered H.macAddress) (hat : H.At ip (some n))
    (hparks : first.parks db = H.id)
    (hsentinel : ∀ s ∈ db.rows, s.id ≠ H.id → ¬ s.At (parkAddress H.id) (some n))
    (hrest : ∀ s ∈ rest, s.From c) (hreal : RealIp ip) (hmac : w.mac = H.macAddress)
    (hip : w.ip = ip) (hnet : w.networkId = some n) :
    Restored (ClientReport.runs db (first :: rest))
        (identityUpsert (ClientReport.runs db (first :: rest)) now uuid w).db H ip n ↔
      (∀ s ∈ (ClientReport.runs db (first :: rest)).rows, ¬ s.At ip (some n)) ∧
        Preferred (ClientReport.runs db (first :: rest)) H.macAddress (parkRow first.now H) := by
  subst hip
  have hparked : parkRow first.now H ∈ (first.run db).rows :=
    first.run_parks hH hg.1 hparks ((park_fits hH hat.2).mpr hsentinel)
  have hkept : parkRow first.now H ∈ (ClientReport.runs db (first :: rest)).rows :=
    ClientReport.runs_keep rest hrest hparked (ne_of_guard hc hg.2) rfl hg.1
  constructor
  · rintro ⟨⟨r, hr, hid, -, -, hrat⟩, -⟩
    exact parked_row_returns hkept rfl hg hreal hmac hnet hr hid hrat
  · rintro ⟨hfree, hpref⟩
    show Restored _ _ (parkRow first.now H) w.ip n
    exact restored_of_free hkept rfl hat.2 hg.1 hreal hmac hnet hfree hpref

/-- A printer at an address that a phone is about to be given. -/
def printer : IdentityWrite :=
  { ip := "10.0.0.1", mac := "00:11:22:33:44:55", networkId := some 1, name := "printer" }

def phoneAt (now : Nat) (uuid ip : String) : ClientReport :=
  .upsert now uuid { ip := ip, mac := "02:11:22:33:44:77", networkId := some 1, name := "phone" }

/-- The phone gets the address, moves on, and the printer is restored. -/
theorem printer_restored_after_phone_left :
    let db := (identityUpsert Db.empty 100 "u1" printer).db
    let before := ClientReport.runs db [phoneAt 200 "u2" "10.0.0.1", phoneAt 300 "u3" "10.0.0.2"]
    ∃ H ∈ db.rows, Restored before (identityUpsert before 400 "u4" printer).db H "10.0.0.1" 1 := by
  intro db before
  obtain ⟨H, hH, hg, hat, hparks, hsentinel, hmac, hlive⟩ :
    ∃ H ∈ db.rows, GloballyAdministered H.macAddress ∧
      H.At "10.0.0.1" (some 1) ∧ (phoneAt 200 "u2" "10.0.0.1").parks db = H.id ∧
      (∀ s ∈ db.rows, s.id ≠ H.id → ¬ s.At (parkAddress H.id) (some 1)) ∧
        printer.mac = H.macAddress ∧
      before.liveRowByMAC H.macAddress = some (parkRow 200 H) := by
    decide +kernel
  have hrest : ∀ s ∈ [phoneAt 300 "u3" "10.0.0.2"], s.From "02:11:22:33:44:77" :=
    List.forall_mem_singleton.mpr ⟨rfl, by decide⟩
  refine ⟨H, hH, (parked_device_restored_iff (phoneAt 200 "u2" "10.0.0.1") _ (by decide) hH hg hat
      hparks hsentinel
    hrest (by decide) hmac rfl rfl).mpr ⟨by decide +kernel, Db.liveRowByMAC_eq_some.mp hlive⟩⟩

/-- While the phone holds the address, the printer's return overwrites the phone's row. -/
theorem printer_return_overwrites_phone :
    let db := (identityUpsert Db.empty 100 "u1" printer).db
    let before := ClientReport.runs db [phoneAt 200 "u2" "10.0.0.1"]
    let after := (identityUpsert before 300 "u3" printer).db
    ∃ H ∈ db.rows, (phoneAt 200 "u2" "10.0.0.1").parks db = H.id ∧ H.At "10.0.0.1" (some 1) ∧
      (∀ r ∈ after.rows, r.id = H.id → ¬ (r.status = .online ∧ r.At "10.0.0.1" (some 1))) ∧
      ∃ s ∈ before.rows, s.id ≠ H.id ∧ s.name = "phone" ∧ ∀ s' ∈ after.rows, s'.id = s.id →
        s'.name = "printer" := by
  decide +kernel

end Steward
