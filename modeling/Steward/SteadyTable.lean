import Steward.Rescan
import Steward.Snapshots

/-!
# Tables that stay

A report is clear when at most one row can be meant by it. The scan of a clear
report leaves that row as the next scan of the report would leave it, and the
scans of the other hosts of the batch do not undo this.
-/

namespace Steward

open JsonValue RowTable List

/-! ## Columns -/

/-- The row without its status and its timestamps. -/
def DeviceRow.columns (r : DeviceRow) : DeviceRow :=
  { r with
    status := .unknown
    firstSeen := none
    lastSeen := none
    lastScannedAt := none
    offlineSince := none
    createdAt := 0
    updatedAt := 0 }

/-- The tables agree in every column but the status and the timestamps. -/
def SameColumns (db db' : Db) : Prop :=
  db'.rows.map DeviceRow.columns = db.rows.map DeviceRow.columns

instance (db db' : Db) : Decidable (SameColumns db db') := inferInstanceAs (Decidable (_ = _))

theorem SameColumns.refl (db : Db) : SameColumns db db := rfl

theorem SameColumns.trans {a b c : Db} (h : SameColumns a b) (h' : SameColumns b c) :
    SameColumns a c :=
  Eq.trans h' h

variable {r : DeviceRow} {db : Db} {n : Nat} {rep : HostReport} {s : DeviceRow}

theorem columns_ext (hscan : r.scan = s.scan) (hplace : r.SamePlace s)
    (hmac : r.macAddress = s.macAddress) : r.columns = s.columns := by
  obtain ⟨hid, huuid, hip, hnet⟩ := hplace
  simp only [DeviceRow.scan, Scanned.mk.injEq] at hscan
  simp only [DeviceRow.columns, hid, huuid, hip, hnet, hmac, hscan]

theorem columns_eq (h : r.columns = s.columns) :
    r.scan = s.scan ∧ r.SamePlace s ∧ r.macAddress = s.macAddress := by
  have hid : r.columns.id = s.columns.id := by rw [h]
  have huuid : r.columns.deviceUuid = s.columns.deviceUuid := by rw [h]
  have hip : r.columns.ipAddress = s.columns.ipAddress := by rw [h]
  have hnet : r.columns.networkId = s.columns.networkId := by rw [h]
  have hmac : r.columns.macAddress = s.columns.macAddress := by rw [h]
  have hscan : r.columns.scan = s.columns.scan := by rw [h]
  exact ⟨hscan, ⟨hid, huuid, hip, hnet⟩, hmac⟩

/-! ## Clear reports -/

variable (db) (n)

/-- The only row that the report can belong to sits at the reported address. -/
def AtHome (rep : HostReport) (r : DeviceRow) : Prop :=
  r ∈ db.rows ∧ r.At rep.ip (some n) ∧ (reportMAC rep ≠ "" →
    (r.macAddress = "" ∨ r.macAddress = reportMAC rep) ∧
      ∀ s ∈ db.rows, s.macAddress = reportMAC rep → s.id = r.id)

/-- The report is about a row at home that it would leave as it is. -/
def Kept (rep : HostReport) : Prop :=
  carriesNoLocation rep.ip = false ∧ ∃ r, AtHome db n rep r ∧ Unchanging rep (some n) r

variable (ips : List String)

/-- The only row with the MAC sits elsewhere in the network, at an address that the batch does not
report, and the reported address is free. -/
def Relocates (rep : HostReport) (r : DeviceRow) : Prop :=
  r ∈ db.rows ∧ reportMAC rep ≠ "" ∧ r.macAddress = reportMAC rep ∧
    (∀ s ∈ db.rows, s.macAddress = reportMAC rep → s.id = r.id) ∧ r.networkId = some n ∧
    r.ipAddress ∉ ips ∧ r.name ≠ rep.ip ∧ ∀ s ∈ db.rows, ¬ s.At rep.ip (some n)

variable (uuid : String)

/-- No row can be meant: the address is free, the MAC unknown and the uuid new. -/
def Fresh (rep : HostReport) : Prop :=
  (∀ r ∈ db.rows, ¬ r.At rep.ip (some n)) ∧
    (reportMAC rep ≠ "" → ∀ r ∈ db.rows, r.macAddress ≠ reportMAC rep) ∧
    ∀ r ∈ db.rows, r.deviceUuid ≠ uuid

/-- At most one row can be meant by the report. -/
def Clear (rep : HostReport) : Prop :=
  carriesNoLocation rep.ip = false ∧
    (Fresh db n uuid rep ∨ (∃ r ∈ db.rows, AtHome db n rep r) ∨
      ∃ r ∈ db.rows, Relocates db n ips rep r)

variable (rep)

instance (r : DeviceRow) : Decidable (AtHome db n rep r) :=
  inferInstanceAs (Decidable (_ ∧ _))

instance (r : DeviceRow) :
    Decidable (Relocates db n ips rep r) := inferInstanceAs (Decidable (_ ∧ _))

instance : Decidable (Fresh db n uuid rep) :=
  inferInstanceAs (Decidable (_ ∧ _))

instance :
    Decidable (Clear db n ips uuid rep) := inferInstanceAs (Decidable (_ ∧ _))

variable {rep} {db n}

/-! ## Their resolutions -/

theorem liveRowByMAC_only {mac : String} (hmem : r ∈ db.rows) (hcarries : r.macAddress = mac)
    (honly : ∀ s ∈ db.rows, s.macAddress = mac → s.id = r.id) :
    db.liveRowByMAC mac = some r := by
  refine Db.liveRowByMAC_eq_some.mpr ⟨hmem, hcarries, fun s hs hsm => .inr ?_⟩
  rw [Db.eq_of_id hs hmem (honly s hs hsm)]
  exact ⟨rfl, Nat.le_refl _⟩

theorem AtHome.resolve (h : AtHome db n rep r) (hloc : carriesNoLocation rep.ip = false)
    (now : Nat) :
    resolveDeviceIdentity db now (reportMAC rep) rep.ip (some n) = { targetId := r.id } := by
  obtain ⟨hmem, hat, hmac⟩ := h
  have hholder : db.slotHolder rep.ip (some n) = some r := Db.slotHolder_some_iff.mpr ⟨hmem, hat⟩
  unfold resolveDeviceIdentity
  by_cases he : reportMAC rep = ""
  · simp only [he, if_true, hholder]
  · obtain ⟨hown, honly⟩ := hmac he
    rw [if_neg he]
    rcases hown with hempty | hcarries
    · have hunseen : db.liveRowByMAC (reportMAC rep) = none := by
        refine Db.liveRowByMAC_eq_none.mpr fun s hs hsm => he ?_
        rw [← hsm, Db.eq_of_id hs hmem (honly s hs hsm), hempty]
      have hplace : db.placeholder rep.ip (some n) = some r := by
        refine Db.placeholder_eq_some.mpr ⟨hmem, ⟨hat, hempty⟩, fun s hs hsat _ => ?_⟩
        rw [Db.eq_of_slot hmem hs hat hsat]
      simp [hunseen, resolveUnseen, hloc, hplace]
    · simp [liveRowByMAC_only hmem hcarries honly, resolveSeen, hat.1]

theorem Relocates.resolve {ips : List String} (h : Relocates db n ips rep r)
    (hloc : carriesNoLocation rep.ip = false) (now : Nat) :
    resolveDeviceIdentity db now (reportMAC rep) rep.ip (some n) =
      { targetId := r.id, roamed := true } := by
  obtain ⟨hmem, hmac, hcarries, honly, hnet, -, -, hfree⟩ := h
  have haway : r.ipAddress ≠ rep.ip := fun he => hfree r hmem ⟨he, hnet⟩
  unfold resolveDeviceIdentity
  rw [if_neg hmac]
  simp [liveRowByMAC_only hmem hcarries honly, resolveSeen, haway, hloc, multiHomed, hnet,
    Db.slotHolder_eq_none.mpr hfree]

theorem Fresh.resolve {uuid : String} (h : Fresh db n uuid rep) (now : Nat) :
    (resolveDeviceIdentity db now (reportMAC rep) rep.ip (some n)).isNew = true := by
  obtain ⟨hfree, hunseen, -⟩ := h
  have hholder := Db.slotHolder_eq_none.mpr hfree
  unfold resolveDeviceIdentity
  by_cases hmac : reportMAC rep = ""
  · simp [hmac, hholder]
  · have hplace : db.placeholder rep.ip (some n) = none :=
      Db.placeholder_eq_none.mpr fun r hr hat => absurd hat (hfree r hr)
    simp only [Db.liveRowByMAC_eq_none.mpr (hunseen hmac), resolveUnseen, hplace, hholder, ite_self]

/-! ## Their writes -/

/-- The write of a scan that finds its row and no living twin of it. -/
theorem updateWrite_resolved (rep : HostReport) (net : Option Nat) {batch : List String}
    {res : IdentityResolution} (hrep : res.replacedId = 0)
    (htwin : twinAlive res (some r) batch = false) :
    updateWrite rep net batch res (some r) =
      { scanWrite rep net (rescanVerdict rep r) with
        targetId := res.targetId
        replacedId := res.replacedId
        roamed := res.roamed
        takeOver := res.takeOver
        parkHolderId := res.parkHolderId } := by
  have hverdict : stickyVerdict rep res (some r) = rescanVerdict rep r := if_pos hrep
  have hreport : stickyReport rep res (some r) batch = stampVerdict rep (rescanVerdict rep r) := by
    unfold stickyReport
    rw [hverdict, if_neg (by simp [htwin])]
  unfold updateWrite
  rw [hverdict, hreport, htwin, Bool.not_false, Bool.and_true]
  rfl

theorem map_onId_of_mem (hr : r ∈ db.rows) (f : DeviceRow → DeviceRow) :
    db.rows.map (deviceSchema.onId r.id f) = db.rows.map (deviceSchema.onId r.id fun _ => f r) := by
  apply map_congr_left
  intro s hs
  by_cases hid : s.id = r.id
  · rw [onId_same r.id f s hid, onId_same r.id _ s hid, Db.eq_of_id hs hr hid]
  · rw [onId_other r.id f s hid, onId_other r.id _ s hid]

section Writes

variable {db : Db} {n now : Nat} {ips : List String} {uuid : String} {rep : HostReport}
  {van : Vantage} {r : DeviceRow}

/-- The write to a resolved row that has no living twin, as far as its row is concerned. -/
theorem bridgeWrite_found {res : IdentityResolution} (rep : HostReport) (hr : r ∈ db.rows)
    (hnet : van.net = some n) (hnew : res.isNew = false) (htarget : res.targetId = r.id)
    (hrep : res.replacedId = 0) (htwin : twinAlive res (some r) van.batchAliases = false) :
    ∃ w, bridgeWrite db rep van res = w ∧ w.replacedId = 0 ∧ w.mac = reportMAC rep ∧
      w.ip = rep.ip ∧ w.networkId = some n ∧ ∀ (c : Scanned) (ip : String),
        c.rescan w ip = c.rescan (scanWrite rep (some n) (rescanVerdict rep r)) ip := by
  have hget : db.devices.get? r.id = some r := Table.get?_of_mem (t := db.devices) hr
  refine ⟨_, rfl, ?_, bridgeWrite_mac, bridgeWrite_ip, bridgeWrite_networkId.trans hnet, ?_⟩
  · exact (bridgeWrite_resolved db rep van hnew).2.1.trans hrep
  · intro c ip
    rw [bridgeWrite_old hnew, htarget, hget, hnet, updateWrite_resolved rep _ hrep htwin]
    rfl

/-- The scan of a row at home. -/
theorem AtHome.rows (h : AtHome db n rep r) (hloc : carriesNoLocation rep.ip = false)
    (hnet : van.net = some n) (now : Nat) (uuid : String) :
    ∃ r', (applyDeviceBridge db now uuid rep van).db.rows =
        db.rows.map (deviceSchema.onId r.id fun _ => r') ∧
      r'.SamePlace r ∧
      r'.scan = r.scan.rescan (scanWrite rep (some n) (rescanVerdict rep r)) r.ipAddress ∧
      r'.macAddress =
        if reportMAC rep ≠ "" ∧ r.macAddress = "" then reportMAC rep else r.macAddress := by
  obtain ⟨w, hw, hrep, hmac, -, -, hrescan⟩ := bridgeWrite_found rep h.1 hnet rfl rfl rfl
    (show twinAlive { targetId := r.id } (some r) van.batchAliases = false by simp [twinAlive])
  have hrows := (commit_plain db now uuid rep van r.id).2
  rw [land, hw, settle, map_onId_of_mem h.1] at hrows
  refine ⟨stamp w now (refresh w now r), ?_, ?_, ?_, ?_⟩
  · unfold applyDeviceBridge
    rw [hnet, h.resolve hloc now]
    exact hrows
  · exact (stamp_samePlace w now _).trans (refresh_samePlace w now r)
  · exact (scan_refresh hrep now r).trans (hrescan _ _)
  · rw [stamp_refresh_mac, hmac]

/-- The scan of a row that moves. -/
theorem Relocates.rows (h : Relocates db n ips rep r) (hloc : carriesNoLocation rep.ip = false)
    (hnet : van.net = some n) (hbatch : van.batchAliases ⊆ ips) (now : Nat) (uuid : String) :
    ∃ r', (applyDeviceBridge db now uuid rep van).db.rows =
        db.rows.map (deviceSchema.onId r.id fun _ => r') ∧
      (r'.id = r.id ∧ r'.deviceUuid = r.deviceUuid ∧ r'.At rep.ip (some n)) ∧
      r'.scan = r.scan.rescan (scanWrite rep (some n) (rescanVerdict rep r)) r.ipAddress ∧
      r'.macAddress =
        if reportMAC rep ≠ "" ∧ r.macAddress = "" then reportMAC rep else r.macAddress := by
  obtain ⟨hmem, -, -, -, -, haway, -, hfree⟩ := id h
  have hget : db.devices.get? r.id = some r := Table.get?_of_mem (t := db.devices) hmem
  have htwin : twinAlive { targetId := r.id, roamed := true } (some r) van.batchAliases =
      false := by
    have hout : r.ipAddress ∉ van.batchAliases := fun hin => haway (hbatch hin)
    simp [twinAlive, hout]
  obtain ⟨w, hw, hrep, hmac, hip, hwnet, hrescan⟩ :=
    bridgeWrite_found rep hmem hnet rfl rfl rfl htwin
  have hrows : _ = db.rows.map _ := (commit_roam (j := 0) db now uuid rep van
    (by rw [hget]; exact htwin) rfl (slot_free_of_net van hnet fun s hs _ => hfree s hs)).2
  rw [land, hw, settle, map_onId_of_mem hmem] at hrows
  refine ⟨relocate w now (refresh w now r), ?_,
    ⟨relocate_refresh_id, (refresh_samePlace w now r).deviceUuid, ?_⟩, ?_, ?_⟩
  · unfold applyDeviceBridge
    rw [hnet, h.resolve hloc now]
    exact hrows
  · exact hip ▸ relocate_at hwnet
  · exact (scan_refresh hrep now r).trans (hrescan _ _)
  · rw [relocate_refresh_mac, hmac]

/-- The row of a new device. -/
theorem Fresh.rows (h : Fresh db n uuid rep) (hnet : van.net = some n) (now : Nat) :
    ∃ t, DeviceType.ofText (inferType rep).1 = some t ∧
      (applyDeviceBridge db now uuid rep van).db.rows =
        db.rows ++ [newRow (createWrite rep (some n)) now uuid t db.devices.nextId] := by
  have hslot : ∀ k, (createWrite rep (some n)).networkId = some k →
      ∀ r ∈ db.rows, ¬ r.At (createWrite rep (some n)).ip (some k) := by
    intro k hk
    obtain rfl : n = k := Option.some.inj hk
    exact h.1
  obtain ⟨-, t, ht, hcreated⟩ :=
    create_free (createWrite_typed rep (some n)) hslot h.2.2
  have hrows := (commit_create db now uuid rep van (hnet ▸ h.resolve now)).2
  rw [hnet, hcreated] at hrows
  refine ⟨t, ht, ?_⟩
  unfold applyDeviceBridge
  rw [hnet]
  exact hrows

end Writes

/-! ## After the scan -/

/-- The row `r'` of a report that no row was meant by. -/
structure Created (db : Db) (n : Nat) (uuid : String) (rep : HostReport) (r' : DeviceRow) :
    Prop where
  here : r'.At rep.ip (some n)
  macAddress : r'.macAddress = reportMAC rep
  deviceUuid : r'.deviceUuid = uuid
  stays : Unchanging rep (some n) r'
  unseen : reportMAC rep ≠ "" → ∀ s ∈ db.rows, s.macAddress ≠ reportMAC rep

/-- The row `r'` that the report made of the row `r` it meant. -/
structure Found (db : Db) (n : Nat) (ips : List String) (rep : HostReport) (r r' : DeviceRow) :
    Prop where
  mem : r ∈ db.rows
  id : r'.id = r.id
  deviceUuid : r'.deviceUuid = r.deviceUuid
  here : r'.At rep.ip (some n)
  stays : Unchanging rep (some n) r'
  own : reportMAC rep ≠ "" → r'.macAddress = reportMAC rep
  other : reportMAC rep = "" → r'.macAddress = r.macAddress
  was : reportMAC rep ≠ "" → r.macAddress = "" ∨ r.macAddress = reportMAC rep
  only : reportMAC rep ≠ "" → ∀ s ∈ db.rows, s.macAddress = reportMAC rep → s.id = r.id
  left : r.ipAddress = rep.ip ∨ (r.ipAddress ∉ ips ∧ reportMAC rep ≠ "")

/-- What the scan of a clear report does: its row is an unchanging one at home, and the other rows
are as they were. -/
inductive Lands (db db' : Db) (n : Nat) (ips : List String) (uuid : String) (rep : HostReport) :
    Prop
  | created (r' : DeviceRow) (rows : db'.rows = db.rows ++ [r']) (row : Created db n uuid rep r')
  | found (r r' : DeviceRow) (rows : db'.rows = db.rows.map (deviceSchema.onId r.id fun _ => r'))
      (row : Found db n ips rep r r')

section Lands

variable {db db' : Db} {n now : Nat} {ips : List String} {uuid : String} {rep : HostReport}
  {van : Vantage} {mac uuid₁ : String}

theorem filledMac {own filled : String} (hown : mac ≠ "" → own = "" ∨ own = mac)
    (hfill : filled = if mac ≠ "" ∧ own = "" then mac else own) :
    (mac ≠ "" → filled = mac) ∧ (mac = "" → filled = own) := by
  constructor
  · intro hmac
    rcases hown hmac with he | he
    · rw [hfill, if_pos ⟨hmac, he⟩]
    · rw [hfill, if_neg (fun h => hmac (he.symm.trans h.2)), he]
  · intro hmac
    rw [hfill, if_neg fun h => h.1 hmac]

variable {r : DeviceRow} {rep₁ : HostReport}

theorem AtHome.lands (h : AtHome db n rep r) (hrep : rep.Regular) (hnet : van.net = some n)
    (now : Nat) (uuid : String) :
    Lands db (applyDeviceBridge db now uuid rep van).db n ips uuid rep := by
  obtain ⟨r', hrows, hplace, hscan, hfill⟩ := h.rows hrep.located hnet now uuid
  obtain ⟨hmem, hat, hmac⟩ := h
  obtain ⟨hown, hother⟩ := filledMac (fun hm => (hmac hm).1) hfill
  have hstays : Unchanging rep (some n) r' := by
    refine unchanging_of_scanned hrep hscan (hplace.ipAddress.trans hat.1) (.inl hat.1) ?_
    by_cases hm : reportMAC rep = ""
    · exact .inl hm
    · exact .inr (hown hm ▸ hm)
  exact .found r r' hrows
    { mem := hmem
      id := hplace.id
      deviceUuid := hplace.deviceUuid
      here := hplace.at_iff.mpr hat
      stays := hstays
      own := hown
      other := hother
      was := fun hm => (hmac hm).1
      only := fun hm => (hmac hm).2
      left := .inl hat.1 }

theorem Relocates.lands (h : Relocates db n ips rep r) (hrep : rep.Regular)
    (hnet : van.net = some n) (hbatch : van.batchAliases ⊆ ips) (now : Nat) (uuid : String) :
    Lands db (applyDeviceBridge db now uuid rep van).db n ips uuid rep := by
  obtain ⟨r', hrows, ⟨hid, huuid, hat⟩, hscan, hfill⟩ := h.rows hrep.located hnet hbatch now uuid
  obtain ⟨hmem, hm, hcarries, honly, -, haway, hname, -⟩ := h
  obtain ⟨hown, hother⟩ := filledMac (fun _ => .inr hcarries) hfill
  exact .found r r' hrows
    { mem := hmem
      id := hid
      deviceUuid := huuid
      here := hat
      stays := unchanging_of_scanned hrep hscan hat.1 (.inr hname) (.inr (hown hm ▸ hm))
      own := hown
      other := hother
      was := fun _ => .inr hcarries
      only := fun _ => honly
      left := .inr ⟨haway, hm⟩ }

theorem Fresh.lands (h : Fresh db n uuid rep) (hrep : rep.Regular) (hnet : van.net = some n)
    (now : Nat) : Lands db (applyDeviceBridge db now uuid rep van).db n ips uuid rep := by
  obtain ⟨t, ht, hrows⟩ := h.rows hnet now
  refine .created _ hrows ⟨⟨createWrite_ip rep (some n), createWrite_networkId rep (some n)⟩, ?_,
    rfl, unchanging_newRow hrep ht, h.2.1⟩
  rw [newRow_macAddress, createWrite_mac]

theorem Clear.lands (h : Clear db n ips uuid rep) (hrep : rep.Regular) (hnet : van.net = some n)
    (hbatch : van.batchAliases ⊆ ips) (now : Nat) :
    Lands db (applyDeviceBridge db now uuid rep van).db n ips uuid rep := by
  rcases h.2 with hfresh | ⟨r, -, hhome⟩ | ⟨r, -, hrelocates⟩
  · exact hfresh.lands hrep hnet now
  · exact hhome.lands hrep hnet now uuid
  · exact hrelocates.lands hrep hnet hbatch now uuid

section Landings

variable (h : Lands db db' n ips uuid rep)

include h

/-- A row after the scan is an old one, or it is the reported one: a new row, or an old row whose
MAC is its own or the reported one. -/
theorem Lands.mem_cases {s : DeviceRow} (hs : s ∈ db'.rows) :
    s ∈ db.rows ∨ (s.At rep.ip (some n) ∧ ((s.deviceUuid = uuid ∧ s.macAddress = reportMAC rep) ∨
        ∃ r ∈ db.rows, s.id = r.id ∧ s.deviceUuid = r.deviceUuid ∧
          (s.macAddress = reportMAC rep ∨ s.macAddress = r.macAddress))) := by
  cases h with
  | created r' rows row =>
    rcases mem_append.mp (rows ▸ hs) with hold | hnew
    · exact .inl hold
    · obtain rfl := mem_singleton.mp hnew
      exact .inr ⟨row.here, .inl ⟨row.deviceUuid, row.macAddress⟩⟩
  | found r r' rows row =>
    rcases mem_map_onId (rows ▸ hs) with ⟨hold, -⟩ | ⟨_, -, -, rfl⟩
    · exact .inl hold
    · refine .inr ⟨row.here, .inr ⟨r, row.mem, row.id, row.deviceUuid, ?_⟩⟩
      by_cases hm : reportMAC rep = ""
      · exact .inr (row.other hm)
      · exact .inl (row.own hm)

/-- A row elsewhere is not the one that was meant when the batch holds its address, or when it has
another MAC. -/
theorem Lands.survives (hr : r ∈ db.rows) (hne : r.ipAddress ≠ rep.ip)
    (hstay : r.ipAddress ∈ ips ∨ (r.macAddress ≠ "" ∧ r.macAddress ≠ reportMAC rep)) :
    r ∈ db'.rows := by
  cases h with
  | created r' rows row =>
    rw [rows]
    exact mem_append_left _ hr
  | found r₀ r' rows row =>
    have hids : r.id ≠ r₀.id := by
      intro he
      obtain rfl := Db.eq_of_id hr row.mem he
      obtain ⟨haway, hm⟩ := row.left.resolve_left hne
      rcases hstay with hin | ⟨hmac, hother⟩
      · exact haway hin
      · exact (row.was hm).elim hmac hother
    rw [rows]
    exact mem_map.mpr ⟨r, hr, onId_other r₀.id _ r hids⟩

theorem Lands.mac_ne (hr : r ∈ db.rows) (hne : r.ipAddress ≠ rep.ip) (hin : r.ipAddress ∈ ips)
    (hm : reportMAC rep ≠ "") :
    r.macAddress ≠ reportMAC rep := by
  intro hmac
  cases h with
  | created r' rows row => exact row.unseen hm r hr hmac
  | found r₀ r' rows row =>
    obtain rfl := Db.eq_of_id hr row.mem (row.only hm r hr hmac)
    exact (row.left.resolve_left hne).1 hin

theorem Lands.kept (hloc : carriesNoLocation rep.ip = false) :
    Kept db' n rep := by
  refine ⟨hloc, ?_⟩
  cases h with
  | created r' rows row =>
    refine ⟨r', ⟨?_, row.here, fun hm => ⟨.inr row.macAddress, fun s hs hsm => ?_⟩⟩, row.stays⟩
    · simp [rows]
    · rcases mem_append.mp (rows ▸ hs) with hold | hnew
      · exact absurd hsm (row.unseen hm s hold)
      · rw [mem_singleton.mp hnew]
  | found r r' rows row =>
    refine ⟨r', ⟨?_, row.here, fun hm => ⟨.inr (row.own hm), fun s hs hsm => ?_⟩⟩, row.stays⟩
    · rw [rows]
      exact mem_map.mpr ⟨r, row.mem, onId_same r.id _ r rfl⟩
    · rcases mem_map_onId (rows ▸ hs) with ⟨hold, hne⟩ | ⟨_, -, -, rfl⟩
      · exact absurd (row.only hm s hold hsm) hne
      · rfl

end Landings

theorem AtHome.macAddress (h : AtHome db n rep r) (hstays : Unchanging rep (some n) r)
    (hm : reportMAC rep ≠ "") : r.macAddress = reportMAC rep := by
  rcases (h.2.2 hm).1 with he | he
  · rcases hstays.mac with hnone | hsome
    · exact absurd hnone hm
    · exact absurd he hsome
  · exact he

section Landed

variable (h : Lands db db' n ips uuid rep)

include h

theorem Lands.only {i : Nat} (hne : mac ≠ reportMAC rep)
    (honly : ∀ s ∈ db.rows, s.macAddress = mac → s.id = i) :
    ∀ s ∈ db'.rows, s.macAddress = mac → s.id = i := by
  intro s hs hsm
  rcases h.mem_cases hs with hold | ⟨-, ⟨-, hmac⟩ | ⟨r, hr, hid, -, hmac | hmac⟩⟩
  · exact honly s hold hsm
  · exact absurd (hsm.symm.trans hmac) hne
  · exact absurd (hsm.symm.trans hmac) hne
  · exact hid.trans (honly r hr (hmac.symm.trans hsm))

theorem Lands.free {ip : String} (hne : ip ≠ rep.ip) (hfree : ∀ r ∈ db.rows, ¬ r.At ip (some n)) :
    ∀ s ∈ db'.rows, ¬ s.At ip (some n) := by
  intro s hs hat
  rcases h.mem_cases hs with hold | ⟨hhere, -⟩
  · exact hfree s hold hat
  · exact hne (hat.1.symm.trans hhere.1)

theorem Lands.kept_other (hk : Kept db n rep₁) (hin : rep₁.ip ∈ ips) (hne : rep₁.ip ≠ rep.ip) :
    Kept db' n rep₁ := by
  obtain ⟨hloc, r₁, hhome, hstays⟩ := hk
  have hcarries := hhome.macAddress hstays
  obtain ⟨hmem, hat, hmac⟩ := hhome
  have haway : r₁.ipAddress ≠ rep.ip := hat.1 ▸ hne
  have hheld : r₁.ipAddress ∈ ips := hat.1 ▸ hin
  refine ⟨hloc, r₁, ⟨h.survives hmem haway (.inl hheld), hat, fun hm => ⟨(hmac hm).1, ?_⟩⟩, hstays⟩
  refine h.only (fun he => ?_) (hmac hm).2
  -- a report with the MAC of a row at another address of the batch is not clear
  exact h.mac_ne hmem haway hheld (he ▸ hm) ((hcarries hm).trans he)

variable (hne : rep₁.ip ≠ rep.ip) (hmac : reportMAC rep₁ ≠ "" → reportMAC rep₁ ≠ reportMAC rep)

include hne hmac

theorem Lands.atHome (hhome : AtHome db n rep₁ r) (hin : rep₁.ip ∈ ips) : AtHome db' n rep₁ r := by
  obtain ⟨hmem, hat, hown⟩ := hhome
  refine ⟨h.survives hmem (hat.1 ▸ hne) (.inl (hat.1 ▸ hin)), hat, fun hm => ⟨(hown hm).1, ?_⟩⟩
  exact h.only (hmac hm) (hown hm).2

theorem Lands.relocates (hrel : Relocates db n ips rep₁ r) (hhere : rep.ip ∈ ips) :
    Relocates db' n ips rep₁ r := by
  obtain ⟨hmem, hm, hcarries, honly, hnet, haway, hname, hfree⟩ := hrel
  have hother : r.macAddress ≠ "" ∧ r.macAddress ≠ reportMAC rep := by
    rw [hcarries]
    exact ⟨hm, hmac hm⟩
  exact ⟨h.survives hmem (fun he => haway (he ▸ hhere)) (.inr hother), hm, hcarries,
    h.only (hmac hm) honly, hnet, haway, hname, h.free hne hfree⟩

theorem Lands.fresh (hfresh : Fresh db n uuid₁ rep₁) (huuid : uuid₁ ≠ uuid) :
    Fresh db' n uuid₁ rep₁ := by
  obtain ⟨hfree, hunseen, hnew⟩ := hfresh
  refine ⟨h.free hne hfree, fun hm s hs hsm => ?_, fun s hs hsu => ?_⟩
  · rcases h.mem_cases hs with hold | ⟨-, ⟨-, heq⟩ | ⟨r, hr, -, -, heq | heq⟩⟩
    · exact hunseen hm s hold hsm
    · exact hmac hm (hsm.symm.trans heq)
    · exact hmac hm (hsm.symm.trans heq)
    · exact hunseen hm r hr (heq.symm.trans hsm)
  · rcases h.mem_cases hs with hold | ⟨-, ⟨heq, -⟩ | ⟨r, hr, -, heq, -⟩⟩
    · exact hnew s hold hsu
    · exact huuid (hsu.symm.trans heq)
    · exact hnew r hr (heq.symm.trans hsu)

/-- A host with another address, MAC and uuid stays a clear one. -/
theorem Lands.clear_other (hc : Clear db n ips uuid₁ rep₁) (hin : rep₁.ip ∈ ips)
    (hhere : rep.ip ∈ ips) (huuid : uuid₁ ≠ uuid) : Clear db' n ips uuid₁ rep₁ := by
  refine ⟨hc.1, ?_⟩
  rcases hc.2 with hfresh | ⟨r, -, hhome⟩ | ⟨r, -, hrel⟩
  · exact .inl (h.fresh hne hmac hfresh huuid)
  · have hhome' := h.atHome hne hmac hhome hin
    exact .inr (.inl ⟨r, hhome'.1, hhome'⟩)
  · have hrel' := h.relocates hne hmac hrel hhere
    exact .inr (.inr ⟨r, hrel'.1, hrel'⟩)

end Landed

theorem SameColumns.row (h : SameColumns db db') (hr : r ∈ db.rows) :
    ∃ r' ∈ db'.rows, r'.columns = r.columns := by
  have hin : r.columns ∈ db'.rows.map DeviceRow.columns := h ▸ mem_map_of_mem hr
  exact mem_map.mp hin

theorem SameColumns.symm (h : SameColumns db db') : SameColumns db' db := Eq.symm h

/-- What is kept stays so while only status and timestamps change. -/
theorem SameColumns.kept (h : SameColumns db db') (hk : Kept db n rep) : Kept db' n rep := by
  obtain ⟨hloc, r, ⟨hmem, hat, hmac⟩, hstays⟩ := hk
  obtain ⟨r', hmem', hcols⟩ := h.row hmem
  obtain ⟨hscan, hplace, hm⟩ := columns_eq hcols
  have hverdict : rescanVerdict rep r' = rescanVerdict rep r :=
    congrArg (fun c : Scanned => applyTypeStickiness c.scanAttributes (inferType rep)) hscan
  refine ⟨hloc, r', ⟨hmem', hplace.at_iff.mpr hat, fun hne => ?_⟩, ?_, ?_⟩
  · rw [hm, hplace.id]
    refine ⟨(hmac hne).1, fun s' hs' hsm => ?_⟩
    obtain ⟨s, hs, hcol⟩ := h.symm.row hs'
    obtain ⟨-, hsplace, hsmac⟩ := columns_eq hcol
    exact hsplace.id.symm.trans ((hmac hne).2 s hs (hsmac.trans hsm))
  · rw [hscan, hverdict, hplace.ipAddress]
    exact hstays.scan
  · rw [hm]
    exact hstays.mac

theorem Kept.bridge (h : Kept db n rep) (hnet : van.net = some n) (now : Nat) (uuid : String) :
    SameColumns db (applyDeviceBridge db now uuid rep van).db := by
  obtain ⟨hloc, r, hhome, hstays⟩ := h
  obtain ⟨r', hrows, hplace, hscan, hfill⟩ := hhome.rows hloc hnet now uuid
  have hmac : r'.macAddress = r.macAddress := by
    rw [hfill]
    split
    · next hc =>
      rcases hstays.mac with hnone | hsome
      · exact absurd hnone hc.1
      · exact absurd hc.2 hsome
    · rfl
  unfold SameColumns
  rw [hrows, map_map]
  apply map_congr_left
  intro s hs
  by_cases hid : s.id = r.id
  · rw [Function.comp_apply, onId_same r.id _ s hid, Db.eq_of_id hs hhome.1 hid]
    exact columns_ext (hscan.trans hstays.scan) hplace hmac
  · rw [Function.comp_apply, onId_other r.id _ s hid]

end Lands

end Steward
