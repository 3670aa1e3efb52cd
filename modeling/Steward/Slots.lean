import Steward.Commit

/-!
# Slots

A slot is an address of a network, and the unique index gives it to one row. A
report is served when no statement was refused and an online row stands for it
afterwards. Relocation is the other question about slots: whether the row of a
MAC follows a report to a new one.
-/

namespace Steward

open JsonValue RowTable

/-- An address that a probe can answer from: no placeholder and no sentinel. -/
def RealIp (ip : String) : Prop := ip ≠ "" ∧ Text.hasPrefix "#" ip = false

/-- A small report: a switch seen under a MAC at an address. -/
def sighting (mac ip : String) : HostReport :=
  { ip := ip, device := { fields := (KeyMap.empty.set "inferred_type" "switch").set "mac" mac } }

instance (ip : String) : Decidable (RealIp ip) :=
  inferInstanceAs (Decidable (ip ≠ "" ∧ Text.hasPrefix "#" ip = false))

variable {ip mac : String}

theorem hasPrefix_hash {p : String} (hp : p.toList.head? = some '#')
    (h : Text.hasPrefix p ip = true) : Text.hasPrefix "#" ip = true := by
  simp only [Text.hasPrefix, List.isPrefixOf_iff_prefix] at h ⊢
  obtain ⟨tail, htail⟩ := h
  obtain ⟨cs, hcs⟩ := List.head?_eq_some_iff.mp hp
  exact ⟨cs ++ tail, by rw [← htail, hcs]; rfl⟩

theorem RealIp.located (h : RealIp ip) : carriesNoLocation ip = false := by
  have hanchor : Text.hasPrefix anchorIPPrefix ip = false := by
    by_contra hc
    have hp := hasPrefix_hash (p := anchorIPPrefix) (by decide) (by simpa using hc)
    exact absurd (hp.symm.trans h.2) (by decide)
  simp [carriesNoLocation, h.1, hanchor]

theorem RealIp.ne_parkAddress (h : RealIp ip) (i : Nat) : parkAddress i ≠ ip := by
  rintro rfl
  have hp : Text.hasPrefix "#park:" (parkAddress i) = true := by
    simp [Text.hasPrefix, parkAddress]
  exact absurd ((hasPrefix_hash (by decide) hp).symm.trans h.2) (by decide)

/-- An online row stands for the report: it carries the MAC, or it holds the slot
of a report without a MAC or of a MAC that it lists as its own. -/
def Represents (r : DeviceRow) (mac ip : String) (net : Option Nat) : Prop :=
  r.status = .online ∧
    ((mac ≠ "" ∧ r.macAddress = mac) ∨ (r.At ip net ∧ (mac = "" ∨ macIsHolderAlias r mac = true)))

instance (r : DeviceRow) (mac ip : String) (net : Option Nat) :
    Decidable (Represents r mac ip net) :=
  inferInstanceAs (Decidable (_ ∧ _))

/-- The report was not dropped. -/
def Bridged.Serves (b : Bridged) (mac ip : String) (net : Option Nat) : Prop :=
  b.refused = [] ∧ ∃ r ∈ b.db.rows, Represents r mac ip net

/-- A locally administered MAC meets a vendor's row on the reported slot, and the
row cannot be moved aside: the MAC is new, or the sentinel address is taken. -/
def Blocked (db : Db) (now : Nat) (mac ip : String) (n : Nat) : Prop :=
  isLocallyAdministeredMAC mac = true ∧
    ∃ h ∈ db.rows, h.At ip (some n) ∧ GloballyAdministered h.macAddress ∧
      macIsHolderAlias h mac = false ∧
      ((∀ r ∈ db.rows, r.macAddress ≠ mac) ∨
        ((∃ m, Preferred db mac m ∧ m.ipAddress ≠ ip ∧ multiHomed db now m (some n) = false) ∧
          ∃ s ∈ db.rows, s.id ≠ h.id ∧ s.At (parkAddress h.id) (some n)))

theorem ne_empty_of_locallyAdministered (h : isLocallyAdministeredMAC mac = true) : mac ≠ "" := by
  rintro rfl
  simp at h

theorem guarded_iff {holderMac : String} : guarded mac holderMac = true ↔
    isLocallyAdministeredMAC mac = true ∧ isLocallyAdministeredMAC holderMac = false := by
  simp [guarded]

/-- The guard never protects a holder from a vendor's MAC. -/
theorem GloballyAdministered.not_guarded (h : GloballyAdministered mac) (holderMac : String) :
    guarded mac holderMac ≠ true := by
  intro hg
  exact absurd ((guarded_iff.mp hg).1.symm.trans h.2) (by decide)

theorem park_fits {db : Db} {now n : Nat} {h : DeviceRow} (hh : h ∈ db.rows)
    (hnet : h.networkId = some n) :
    db.devices.Fits h.id (parkRow now) ↔
      ∀ s ∈ db.rows, s.id ≠ h.id → ¬ s.At (parkAddress h.id) (some n) := by
  constructor
  · intro hfit s hs hne hat
    have hc := clash_eq_false.mp (hfit h hh rfl s hs hne)
    exact hc.1 n hnet hat.2 hat.1.symm
  · intro hfree r hr hid s hs hne
    obtain rfl : r = h := Db.eq_of_id hr hh hid
    have hold := clash_eq_false.mp (db.devices.no_clash hr hs (Ne.symm hne))
    refine clash_eq_false.mpr ⟨fun k hk hsk hip => ?_, hold.2⟩
    have hkn : k = n := Option.some.inj (hk.symm.trans hnet)
    subst hkn
    exact hfree s hs hne ⟨hip.symm, hsk⟩

section Serving

variable {b : Bridged} {rows : List DeviceRow} {i now : Nat} {w : IdentityWrite}
    {f : DeviceRow → DeviceRow}
  {t : DeviceRow} {mac ip : String} {net : Option Nat}

theorem serves_of_settle (hw : b.Writes (rows.map (settle i now w f))) (ht : t ∈ rows)
    (hid : t.id = i) (hrep : Represents (f (refresh w now t)) mac ip net) :
    b.Serves mac ip net := by
  refine ⟨hw.1, f (refresh w now t), ?_, hrep⟩
  rw [hw.2]
  exact mem_map_same ht hid

theorem represents_stamp_mac (hmac : mac ≠ "") (hw : w.mac = mac)
    (ht : t.macAddress = "" ∨ t.macAddress = mac) :
    Represents (stamp w now (refresh w now t)) mac ip net := by
  refine ⟨rfl, .inl ⟨hmac, ?_⟩⟩
  rw [stamp_refresh_mac]
  rcases ht with ht | ht <;> simp [ht, hw, hmac]

theorem represents_stamp_slot (hw : FromReport w) (hat : t.At ip net)
    (hmac : mac = "" ∨ macIsHolderAlias t mac = true) :
    Represents (stamp w now (refresh w now t)) mac ip net := by
  refine ⟨rfl, .inr ⟨stamp_refresh_at.mpr hat, ?_⟩⟩
  rwa [stamp_refresh_alias hw]

theorem represents_relocate (hmac : mac ≠ "") (hw : w.mac = mac) (ht : t.macAddress = mac) :
    Represents (relocate w now (refresh w now t)) mac ip net := by
  refine ⟨rfl, .inl ⟨hmac, ?_⟩⟩
  rw [relocate_refresh_mac]
  simp [ht, hw]

end Serving

section Bridge

variable {db : Db} {now n : Nat} {uuid : String} {rep : HostReport} {van : Vantage}

/-- A creation into a free slot serves the report. -/
theorem serves_create {res : IdentityResolution} (hnew : res.isNew = true) (hnet : van.net = some n)
    (hfree : ∀ r ∈ db.rows, ¬ r.At rep.ip (some n)) (huuid : ∀ r ∈ db.rows, r.deviceUuid ≠ uuid) :
    (bridgeCommit db now uuid rep van res).Serves (reportMAC rep) rep.ip (some n) := by
  obtain ⟨hrefused, hrows⟩ := commit_create db now uuid rep van hnew
  have hslot : ∀ k, (createWrite rep van.net).networkId = some k →
      ∀ r ∈ db.rows, ¬ r.At (createWrite rep van.net).ip (some k) := by
    intro k hk
    obtain rfl : n = k := Option.some.inj (hnet.symm.trans hk)
    exact hfree
  obtain ⟨hok, t, -, hcreated⟩ := create_free (createWrite_typed rep van.net) hslot huuid
  refine ⟨hrefused.trans hok, newRow (createWrite rep van.net) now uuid t db.devices.nextId, ?_,
    rfl, ?_⟩
  · rw [hrows, hcreated]
    exact List.mem_append_right _ (List.mem_singleton.mpr rfl)
  · by_cases hmac : reportMAC rep = ""
    · exact .inr ⟨⟨rfl, hnet⟩, .inl hmac⟩
    · exact .inl ⟨hmac, by rw [newRow_macAddress, createWrite_mac]⟩

variable {m : DeviceRow}

/-- A roam of the preferred row serves the report whether or not the batch vetoes it. -/
theorem serves_roam {j : Nat} (hnet : van.net = some n) (hm : Preferred db (reportMAC rep) m)
    (hmac : reportMAC rep ≠ "") (hok : (parkHolder db now j).2 = [])
    (hkept : m ∈ (parkHolder db now j).1.rows)
    (hfree : ∀ r ∈ (parkHolder db now j).1.rows, r.id ≠ m.id → ¬ r.At rep.ip (some n)) :
    (bridgeCommit db now uuid rep van
      { targetId := m.id, roamed := true, parkHolderId := j }).Serves (reportMAC rep) rep.ip
        (some n) := by
  cases htwin : twinAlive { targetId := m.id, roamed := true, parkHolderId := j }
    (db.devices.get? m.id) van.batchAliases with
  | true =>
    exact serves_of_settle (commit_twin db now uuid rep van htwin hok) hkept rfl
      (represents_stamp_mac hmac (by simp) (.inr hm.carries))
  | false =>
    exact serves_of_settle
      (commit_roam db now uuid rep van htwin hok (slot_free_of_net van hnet hfree)) hkept rfl
      (represents_relocate hmac (by simp) hm.carries)

/-- A roam behind a park serves the report when the holder can be moved aside. -/
theorem serves_parkRoam {h : DeviceRow} (hnet : van.net = some n) (hreal : RealIp rep.ip)
    (hm : Preferred db (reportMAC rep) m) (hmac : reportMAC rep ≠ "") (hh : h ∈ db.rows)
    (hat : h.At rep.ip (some n)) (hne : m.id ≠ h.id) (hfit : db.devices.Fits h.id (parkRow now)) :
    (bridgeCommit db now uuid rep van
      { targetId := m.id, roamed := true, parkHolderId := h.id }).Serves
      (reportMAC rep) rep.ip (some n) := by
  obtain ⟨hok, hrows⟩ := parkHolder_fits (Db.id_ne_zero hh) hfit
  refine serves_roam hnet hm hmac hok (parkHolder_keep hm.mem hne) ?_
  rw [hrows]
  intro r hr _ hrat
  rcases mem_map_onId hr with ⟨hr, hne⟩ | ⟨s, -, -, rfl⟩
  · exact hne (by rw [Db.eq_of_slot hr hh hrat hat])
  · exact hreal.ne_parkAddress s.id hrat.1

/-- The resolver's answer to a blocked report: the holder is to be parked. -/
theorem Blocked.resolve {mac ip : String} (hreal : RealIp ip) (hb : Blocked db now mac ip n) :
    ∃ h ∈ db.rows, h.At ip (some n) ∧
      (resolveDeviceIdentity db now mac ip (some n) = { isNew := true, parkHolderId := h.id } ∨
        ∃ m : DeviceRow, resolveDeviceIdentity db now mac ip (some n) =
            { targetId := m.id, roamed := true, parkHolderId := h.id } ∧
              ¬ db.devices.Fits h.id (parkRow now)) := by
  obtain ⟨hla, h, hh, hat, hglobal, hstranger, hcase⟩ := hb
  have hmac : mac ≠ "" := ne_empty_of_locallyAdministered hla
  have hother : h.macAddress ≠ mac := by
    rintro rfl
    exact absurd (hla.symm.trans hglobal.2) (by decide)
  have hholder : db.slotHolder ip (some n) = some h := Db.slotHolder_some_iff.mpr ⟨hh, hat⟩
  have hguard : guarded mac h.macAddress = true := guarded_iff.mpr ⟨hla, hglobal.2⟩
  refine ⟨h, hh, hat, ?_⟩
  rcases hcase with hunseen | ⟨⟨m, hm, helse, hsingle⟩, s, hs, hne, hsat⟩
  · have hplace : db.placeholder ip (some n) = none := by
      rw [Db.placeholder_eq_none]
      intro r hr hrat
      rw [Db.eq_of_slot hr hh hrat hat]
      exact hglobal.1
    simp [resolveDeviceIdentity, hmac, Db.liveRowByMAC_eq_none.mpr hunseen, resolveUnseen,
      hreal.located, hplace,
      hholder, hglobal.1, hstranger, hguard]
  · right
    refine ⟨m, ?_, fun hfit => (park_fits hh hat.2).mp hfit s hs hne hsat⟩
    simp [resolveDeviceIdentity, hmac, Db.liveRowByMAC_eq_some.mpr hm, resolveSeen, helse,
      hreal.located, hsingle,
      hholder, hglobal.1, hother, hstranger, hguard]

theorem not_serves_of_blocked (hnet : van.net = some n) (hreal : RealIp rep.ip)
    (hb : Blocked db now (reportMAC rep) rep.ip n) :
    (applyDeviceBridge db now uuid rep van).refused ≠ [] := by
  obtain ⟨h, hh, hat, hres⟩ := hb.resolve hreal
  unfold applyDeviceBridge
  rw [hnet]
  rcases hres with hres | ⟨m, hres, hfit⟩
  · rw [hres, (commit_create db now uuid rep van rfl).1,
      (create_occupied (createWrite_typed rep van.net) hnet hh hat).1]
    simp
  · rw [hres]
    exact commit_park_refused db now uuid rep van (Db.id_ne_zero hh) hfit

/-- Outside the blocked case every verdict of the resolver ends in a row for the report. -/
theorem serves_of_not_blocked (hnet : van.net = some n) (hreal : RealIp rep.ip)
    (huuid : ∀ r ∈ db.rows, r.deviceUuid ≠ uuid) (hb : ¬ Blocked db now (reportMAC rep) rep.ip n) :
    (applyDeviceBridge db now uuid rep van).Serves (reportMAC rep) rep.ip (some n) := by
  have hv := resolve_verdict db now (reportMAC rep) rep.ip (some n)
  unfold applyDeviceBridge
  rw [hnet]
  generalize resolveDeviceIdentity db now (reportMAC rep) rep.ip (some n) = res at hv
  cases hv with
  | create why =>
    refine serves_create rfl hnet ?_ huuid
    rcases why with ⟨-, hfree⟩ | ⟨-, hloc | hfree⟩
    · exact hfree
    · exact absurd (hloc.symm.trans hreal.located) (by decide)
    · exact hfree
  | slot h macless holder =>
    obtain ⟨hh, hat, -⟩ := Db.slotHolder_eq_some.mp holder
    exact serves_of_settle (commit_plain db now uuid rep van h.id) hh rfl
      (represents_stamp_slot (bridgeWrite_fromReport ..) hat (.inl macless))
  | fill p unseen located empty =>
    obtain ⟨hp, hat, -⟩ := Db.placeholder_eq_some.mp empty
    exact serves_of_settle (commit_plain db now uuid rep van p.id) hp rfl
      (represents_stamp_mac unseen.reported (by simp) (.inl hat.2))
  | park h unseen located rival stranger guard =>
    obtain ⟨hla, hglobal⟩ := guarded_iff.mp guard
    exact absurd ⟨hla, h, rival.mem, rival.at, ⟨rival.carries, hglobal⟩, stranger,
      .inl unseen.absent⟩ hb
  | takeOver h unseen located rival =>
    exact serves_of_settle (commit_takeOver db now uuid rep van h.id) rival.mem rfl
      ⟨rfl, .inl ⟨unseen.reported, by simp⟩⟩
  | sameHost h reported located rival listed =>
    exact serves_of_settle (commit_plain db now uuid rep van h.id) rival.mem rfl
      (represents_stamp_slot (bridgeWrite_fromReport ..) rival.at (.inr listed))
  | own m reported preferred =>
    exact serves_of_settle (commit_plain db now uuid rep van m.id) preferred.mem rfl
      (represents_stamp_mac reported (by simp) (.inr preferred.carries))
  | roam m moved free =>
    exact serves_roam hnet moved.preferred moved.reported rfl moved.preferred.mem
      fun r hr _ => free r hr
  | parkRoam m h moved rival stranger guard =>
    obtain ⟨hla, hglobal⟩ := guarded_iff.mp guard
    have hne : m.id ≠ h.id := moved.ne_rival rival
    refine serves_parkRoam hnet hreal moved.preferred moved.reported rival.mem rival.at hne ?_
    refine (park_fits rival.mem rival.at.2).mpr fun s hs hsne hsat => hb ?_
    exact ⟨hla, h, rival.mem, rival.at, ⟨rival.carries, hglobal⟩, stranger,
      .inr ⟨⟨m, moved.preferred, moved.elsewhere, moved.single⟩, s, hs, hsne, hsat⟩⟩
  | replace m h moved rival =>
    have hne : h.id ≠ m.id := (moved.ne_rival rival).symm
    have hzero : m.id ≠ 0 := Db.id_ne_zero moved.preferred.mem
    exact ⟨(commit_replace db now uuid rep van h.id m.id hzero).1, _,
      commit_replace_mem db now uuid rep van rival.mem hne hzero, rfl,
      .inl ⟨moved.reported, by simp⟩⟩

/-- A report is served exactly when it is not blocked. -/
theorem applyDeviceBridge_serves_iff (hnet : van.net = some n) (hreal : RealIp rep.ip)
    (huuid : ∀ r ∈ db.rows, r.deviceUuid ≠ uuid) :
    (applyDeviceBridge db now uuid rep van).Serves (reportMAC rep) rep.ip (some n) ↔
      ¬ Blocked db now (reportMAC rep) rep.ip n := by
  constructor
  · intro hserved hb
    exact not_serves_of_blocked hnet hreal hb hserved.1
  · exact serves_of_not_blocked hnet hreal huuid

/-- A vendor's device at the first address of a network. -/
def vendorSeen : Db :=
  (applyDeviceBridge Db.empty 100 "u1" (sighting "00:11:22:33:44:55" "10.0.0.1")
    { net := some 1 }).db

theorem other_vendor_served :
    (∃ h ∈ vendorSeen.rows, h.At "10.0.0.1" (some 1)) ∧
      (applyDeviceBridge vendorSeen 160 "u2" (sighting "00:11:22:33:44:66" "10.0.0.1")
        { net := some 1 }).Serves (reportMAC (sighting "00:11:22:33:44:66" "10.0.0.1")) "10.0.0.1"
          (some 1) := by
  refine ⟨by decide +kernel, (applyDeviceBridge_serves_iff rfl (by decide) (by decide +kernel)).mpr
    fun hblocked => ?_⟩
  exact absurd hblocked.1 (by decide +kernel)

/-- A new locally administered MAC at the address of a vendor's device: the insert is refused. -/
theorem parked_holder_blocks_create :
    let done := applyDeviceBridge vendorSeen 160 "u2" (sighting "02:11:22:33:44:77" "10.0.0.1")
      { net := some 1 }
    (∀ r ∈ vendorSeen.rows, r.deviceUuid ≠ "u2") ∧ done.refused = [.create] ∧
      ∀ r ∈ done.db.rows, ¬ Represents r "02:11:22:33:44:77" "10.0.0.1" (some 1) := by
  decide +kernel

end Bridge

/-! ## Relocation -/

variable (db : Db) (now : Nat) (rep : HostReport) (van : Vantage) (n : Nat)

/-- The only row of a MAC is reported elsewhere by a valid network: no other
network saw it lately, the batch does not vouch for its old address, and at most
a MAC-less row holds the new slot. -/
structure Mover (r : DeviceRow) :
    Prop where
  reported : reportMAC rep ≠ ""
  mem : r ∈ db.rows
  carries : r.macAddress = reportMAC rep
  only : ∀ s ∈ db.rows, s.macAddress = reportMAC rep → s = r
  net : van.net = some n
  stale : db.hasFreshPresenceOutside now r.id n = false
  unvouched : r.ipAddress ≠ "" → r.ipAddress ∉ van.batchAliases
  slot : ∀ s ∈ db.rows, s.At rep.ip (some n) → s.macAddress = ""

instance (r : DeviceRow) :
    Decidable (Mover db now rep van n r) :=
  decidable_of_iff
    (reportMAC rep ≠ "" ∧ r ∈ db.rows ∧ r.macAddress = reportMAC rep ∧
      (∀ s ∈ db.rows, s.macAddress = reportMAC rep → s = r) ∧ van.net = some n ∧
      db.hasFreshPresenceOutside now r.id n = false ∧
        (r.ipAddress ≠ "" → r.ipAddress ∉ van.batchAliases) ∧
      ∀ s ∈ db.rows, s.At rep.ip (some n) → s.macAddress = "")
    ⟨fun ⟨h₁, h₂, h₃, h₄, h₅, h₆, h₇, h₈⟩ => ⟨h₁, h₂, h₃, h₄, h₅, h₆, h₇, h₈⟩,
      fun ⟨h₁, h₂, h₃, h₄, h₅, h₆, h₇, h₈⟩ => ⟨h₁, h₂, h₃, h₄, h₅, h₆, h₇, h₈⟩⟩

namespace Mover

variable {db : Db} {now n : Nat} {uuid : String} {rep : HostReport} {van : Vantage} {r : DeviceRow}
  (hm : Mover db now rep van n r)

include hm

theorem preferred : Preferred db (reportMAC rep) r := by
  refine ⟨hm.mem, hm.carries, fun s hs hmac => ?_⟩
  rw [hm.only s hs hmac]
  exact .inr ⟨rfl, le_refl _⟩

theorem away : ¬ r.At rep.ip (some n) := fun hat =>
  hm.reported (hm.carries.symm.trans (hm.slot r hm.mem hat))

theorem single : multiHomed db now r (some n) = false := by
  unfold multiHomed
  split
  · next k _ hn _ =>
    obtain rfl : n = k := Option.some.inj hn
    simp [hm.stale]
  · rfl

theorem twin_absent :
    twinAlive { targetId := r.id, roamed := true } (db.devices.get? r.id) van.batchAliases =
      false := by
  have hget : db.devices.get? r.id = some r := (Table.get?_eq_some _).mpr ⟨hm.mem, rfl⟩
  by_cases hip : r.ipAddress = ""
  · simp [twinAlive, hget, hip]
  · simp [twinAlive, hget, hm.unvouched hip]

theorem resolve :
    resolveDeviceIdentity db now (reportMAC rep) rep.ip (some n) =
      if carriesNoLocation rep.ip = false ∧ r.ipAddress ≠ rep.ip ∧
        db.slotHolder rep.ip (some n) = none then { targetId := r.id, roamed := true }
      else { targetId := r.id } := by
  simp only [resolveDeviceIdentity, if_neg hm.reported, Db.liveRowByMAC_eq_some.mpr hm.preferred,
    resolveSeen, hm.single]
  cases hh : db.slotHolder rep.ip (some n) with
  | none =>
    by_cases hip : r.ipAddress = rep.ip <;> by_cases hloc :
      carriesNoLocation rep.ip = true <;> simp [hip, hloc]
  | some h =>
    obtain ⟨hmem, hat⟩ := Db.slotHolder_some_iff.mp hh
    simp [hm.slot h hmem hat]

end Mover

/-- The row of a mover follows the report exactly when the report names another
address whose slot is empty. -/
theorem mover_relocates_iff {db : Db} {now n : Nat} {uuid : String} {rep : HostReport}
    {van : Vantage} {r : DeviceRow} (hm : Mover db now rep van n r) :
    (∃ r' ∈ (applyDeviceBridge db now uuid rep van).db.rows, r'.id = r.id ∧ r'.At rep.ip (some n)) ↔
      carriesNoLocation rep.ip = false ∧ r.ipAddress ≠ rep.ip ∧
        ∀ s ∈ db.rows, ¬ s.At rep.ip (some n) := by
  unfold applyDeviceBridge
  rw [hm.net, hm.resolve, ← Db.slotHolder_eq_none]
  split
  · next hc =>
    refine ⟨fun _ => hc, fun _ => ?_⟩
    obtain ⟨-, hrows⟩ := commit_roam db now uuid rep van hm.twin_absent rfl
      (slot_free_of_net van hm.net fun s hs _ => Db.slotHolder_eq_none.mp hc.2.2 s hs)
    rw [hrows]
    refine ⟨_, mem_map_same hm.mem rfl, relocate_refresh_id, ?_⟩
    rw [← bridgeWrite_ip]
    exact relocate_at (bridgeWrite_networkId.trans hm.net)
  · next hc =>
    refine ⟨?_, fun h => absurd h hc⟩
    rintro ⟨r', hr', hid, hat⟩
    rw [(commit_plain db now uuid rep van r.id).2] at hr'
    rcases mem_map_onId hr' with ⟨-, hne⟩ | ⟨s, hs, hsid, rfl⟩
    · exact absurd hid hne
    · rw [Db.eq_of_id hs hm.mem hsid] at hat
      exact absurd (stamp_refresh_at.mp hat) hm.away

/-- A device seen with its MAC at one address, and a host seen without one at another. -/
def neighbours : Db :=
  (applyDeviceBridge vendorSeen 110 "u2" (sighting "" "10.0.0.2") { net := some 1 }).db

/-- The device, reported at another address. -/
def movedTo (ip : String) : HostReport := sighting "00:11:22:33:44:55" ip

theorem mover_follows_to_free_slot :
    ∃ r, Mover neighbours 200 (movedTo "10.0.0.3") { net := some 1 } 1 r ∧
      ∃ r' ∈ (applyDeviceBridge neighbours 200 "u3" (movedTo "10.0.0.3") { net := some 1 }).db.rows,
        r'.id = r.id ∧ r'.At "10.0.0.3" (some 1) := by
  obtain ⟨r, -, hm, hip⟩ : ∃ r ∈ neighbours.rows,
      Mover neighbours 200 (movedTo "10.0.0.3") { net := some 1 } 1 r ∧
        r.ipAddress ≠ "10.0.0.3" := by
    decide +kernel
  exact ⟨r, hm, (mover_relocates_iff hm).mpr ⟨by decide, hip, by decide +kernel⟩⟩

/-- A MAC-less row at the new address keeps the mover where it was. -/
theorem mover_stays_beside_placeholder :
    ∃ r ∈ neighbours.rows, Mover neighbours 200 (movedTo "10.0.0.2") { net := some 1 } 1 r ∧
      ∀ r' ∈ (applyDeviceBridge neighbours 200 "u3" (movedTo "10.0.0.2") { net := some 1 }).db.rows,
        r'.id = r.id → ¬ r'.At "10.0.0.2" (some 1) := by
  decide +kernel

end Steward
