import Steward.Effects

/-!
# Frames of the pipeline

A report reaches rows through its MAC and through its address only: a row that
carries another MAC and sits elsewhere survives every writer unchanged.
-/

namespace Steward

open JsonValue RowTable

section Verdicts

variable {db : Db} {now : Nat} {mac ip : String} {net : Option Nat} {res : IdentityResolution}
    {r : DeviceRow}

theorem Verdict.keeps (hv : Verdict db now mac ip net res) (hr : r ∈ db.rows)
    (hmac : r.macAddress ≠ mac) (hat : ¬ r.At ip net) :
    r.id ≠ res.targetId ∧ r.id ≠ res.replacedId ∧ r.id ≠ res.parkHolderId := by
  have hzero : r.id ≠ 0 := Db.id_ne_zero hr
  have slot : ∀ h, h ∈ db.rows → h.At ip net → r.id ≠ h.id :=
    fun h hh ha he => hat (Db.eq_of_id hr hh he ▸ ha)
  have own : ∀ m, Preferred db mac m → r.id ≠ m.id :=
    fun m hm he => hmac (Db.eq_of_id hr hm.mem he ▸ hm.carries)
  cases hv with
  | create => exact ⟨hzero, hzero, hzero⟩
  | slot h _ holder =>
    obtain ⟨hm, ha, -⟩ := Db.slotHolder_eq_some.mp holder
    exact ⟨slot h hm ha, hzero, hzero⟩
  | fill p _ _ empty =>
    obtain ⟨hm, ha, -⟩ := Db.placeholder_eq_some.mp empty
    exact ⟨slot p hm ha.1, hzero, hzero⟩
  | park h _ _ rival => exact ⟨hzero, hzero, slot h rival.mem rival.at⟩
  | takeOver h _ _ rival => exact ⟨slot h rival.mem rival.at, hzero, hzero⟩
  | sameHost h _ _ rival => exact ⟨slot h rival.mem rival.at, hzero, hzero⟩
  | own m _ preferred => exact ⟨own m preferred, hzero, hzero⟩
  | roam m moved => exact ⟨own m moved.preferred, hzero, hzero⟩
  | parkRoam m h moved rival => exact ⟨own m moved.preferred, hzero, slot h rival.mem rival.at⟩
  | replace m h moved rival => exact ⟨slot h rival.mem rival.at, own m moved.preferred, hzero⟩

theorem Verdict.target_mem (hv : Verdict db now mac ip net res) (hold : res.isNew = false) :
    ∃ t ∈ db.rows, t.id = res.targetId := by
  cases hv with
  | create => cases hold
  | slot h _ holder => exact ⟨h, (Db.slotHolder_eq_some.mp holder).1, rfl⟩
  | fill p _ _ empty => exact ⟨p, (Db.placeholder_eq_some.mp empty).1, rfl⟩
  | park => cases hold
  | takeOver h _ _ rival => exact ⟨h, rival.mem, rfl⟩
  | sameHost h _ _ rival => exact ⟨h, rival.mem, rfl⟩
  | own m _ preferred => exact ⟨m, preferred.mem, rfl⟩
  | roam m moved => exact ⟨m, moved.preferred.mem, rfl⟩
  | parkRoam m h moved => exact ⟨m, moved.preferred.mem, rfl⟩
  | replace m h _ rival => exact ⟨h, rival.mem, rfl⟩

end Verdicts

variable {r : DeviceRow} {db : Db} {now : Nat} {ip : String} {net : Option Nat} {d : DeviceRef}
  {w : IdentityWrite} {uuid : String}

theorem evictable_at (h : ¬ r.At w.ip w.networkId) : isEvictable w r = false := by
  simp [isEvictable, h]

theorem identityUpsert_keep (hr : r ∈ db.rows) (hmac : r.macAddress ≠ w.mac)
    (hat : ¬ r.At w.ip w.networkId) : r ∈ (identityUpsert db now uuid w).db.rows := by
  obtain ⟨h₁, h₂, h₃⟩ := (resolve_verdict db now w.mac w.ip w.networkId).keeps hr hmac hat
  exact apply_keep hr h₃ fun _ => ⟨h₁, h₂, evictable_at hat⟩

/-! ## The writes of the bridge -/

@[simp] theorem stampVerdict_ip (rep : HostReport) (v : String × String) :
    (stampVerdict rep v).ip = rep.ip := rfl

@[simp] theorem stickyReport_ip (rep : HostReport) (res : IdentityResolution)
    (before : Option DeviceRow) (batch : List String) :
    (stickyReport rep res before batch).ip = rep.ip := by
  simp only [stickyReport, apply_ite HostReport.ip, HostReport.setField_ip, stampVerdict_ip,
    ite_self]

section Writes

variable (rep : HostReport) (net : Option Nat) (batch : List String) (res : IdentityResolution)
  (before : Option DeviceRow)

@[simp] theorem createWrite_ip : (createWrite rep net).ip = rep.ip := rfl
@[simp] theorem createWrite_mac : (createWrite rep net).mac = reportMAC rep := by
  simp only [createWrite, buildIdentityWrite]

@[simp] theorem createWrite_networkId : (createWrite rep net).networkId = net := rfl
@[simp] theorem createWrite_isNew : (createWrite rep net).isNew = true := rfl
@[simp] theorem updateWrite_ip : (updateWrite rep net batch res before).ip = rep.ip := by
  simp [updateWrite, buildIdentityWrite]

@[simp] theorem updateWrite_mac : (updateWrite rep net batch res before).mac = reportMAC rep := by
  simp only [updateWrite, buildIdentityWrite]

@[simp] theorem updateWrite_networkId : (updateWrite rep net batch res before).networkId = net :=
  rfl
@[simp] theorem updateWrite_parkHolderId : (updateWrite rep net batch res before).parkHolderId =
    res.parkHolderId := rfl
@[simp] theorem updateWrite_roamed :
    (updateWrite rep net batch res before).roamed = (res.roamed && !twinAlive res before batch) :=
  rfl

theorem createWrite_typed : (DeviceType.ofText (createWrite rep net).type).isSome :=
  (inferType_settled rep).1

end Writes

section Commit

variable {db : Db} {now : Nat} {uuid : String} {rep : HostReport} {van : Vantage}
    {res : IdentityResolution}

/-- The write the bridge commits for a resolution. -/
def bridgeWrite (db : Db) (rep : HostReport) (van : Vantage) (res : IdentityResolution) :
    IdentityWrite :=
  if res.isNew then createWrite rep van.net
  else updateWrite rep van.net van.batchAliases res (db.devices.get? res.targetId)

theorem bridgeWrite_new (h : res.isNew = true) :
    bridgeWrite db rep van res = createWrite rep van.net := if_pos h

theorem bridgeWrite_old (h : res.isNew = false) : bridgeWrite db rep van res =
    updateWrite rep van.net van.batchAliases res (db.devices.get? res.targetId) :=
  if_neg (by simp [h])

/-- The write to a resolved row carries the resolution over. -/
theorem bridgeWrite_resolved (db : Db) (rep : HostReport) (van : Vantage) {res : IdentityResolution}
    (h : res.isNew = false) :
    (bridgeWrite db rep van res).targetId = res.targetId ∧
      (bridgeWrite db rep van res).replacedId = res.replacedId ∧
      (bridgeWrite db rep van res).takeOver = res.takeOver ∧
      (bridgeWrite db rep van res).isNew = false := by
  rw [bridgeWrite_old h]
  exact ⟨rfl, rfl, rfl, rfl⟩

theorem bridgeCommit_devices : (bridgeCommit db now uuid rep van res).db.devices =
    (applyDeviceIdentity db now uuid (bridgeWrite db rep van res)).db.devices := by
  unfold bridgeCommit bridgeWrite
  split
  · simp only
    split
    · rfl
    · rw [recordVantage_devices]
  · rw [recordVantage_devices]

theorem bridgeCommit_rows : (bridgeCommit db now uuid rep van res).db.rows =
    (applyDeviceIdentity db now uuid (bridgeWrite db rep van res)).db.rows :=
  congrArg Table.rows bridgeCommit_devices

theorem bridgeCommit_refused : (bridgeCommit db now uuid rep van res).refused =
    (applyDeviceIdentity db now uuid (bridgeWrite db rep van res)).refused := by
  unfold bridgeCommit bridgeWrite
  split
  · simp only
    split <;> rfl
  · rfl

@[simp] theorem bridgeWrite_ip : (bridgeWrite db rep van res).ip = rep.ip := by
  simp only [bridgeWrite, apply_ite IdentityWrite.ip, createWrite_ip, updateWrite_ip, ite_self]

@[simp] theorem bridgeWrite_mac : (bridgeWrite db rep van res).mac = reportMAC rep := by
  simp only [bridgeWrite, apply_ite IdentityWrite.mac, createWrite_mac, updateWrite_mac, ite_self]

@[simp] theorem bridgeWrite_networkId : (bridgeWrite db rep van res).networkId = van.net := by
  simp only [bridgeWrite, apply_ite IdentityWrite.networkId, createWrite_networkId,
    updateWrite_networkId, ite_self]

end Commit

theorem applyDeviceBridge_keep {rep : HostReport} {van : Vantage} (hr : r ∈ db.rows)
    (hmac : r.macAddress ≠ reportMAC rep) (hat : ¬ r.At rep.ip van.net) :
    r ∈ (applyDeviceBridge db now uuid rep van).db.rows := by
  obtain ⟨h₁, h₂, h₃⟩ := (resolve_verdict db now (reportMAC rep) rep.ip van.net).keeps hr hmac hat
  unfold applyDeviceBridge
  rw [bridgeCommit_rows]
  generalize resolveDeviceIdentity db now (reportMAC rep) rep.ip van.net = res at h₁ h₂ h₃
  cases hnew : res.isNew with
  | true =>
    rw [bridgeWrite_new hnew]
    exact apply_keep hr (Db.id_ne_zero hr) fun h => absurd h (by simp)
  | false =>
    rw [bridgeWrite_old hnew]
    exact apply_keep hr h₃ fun _ => ⟨h₁, h₂, evictable_at (by simpa using hat)⟩

theorem recordDevice_keep (hr : r ∈ db.rows)
    (hno : ∀ t, recordTarget db ip net d = some t → r.id ≠ t.id) :
    r ∈ (recordDevice db now ip net d).rows := by
  unfold recordDevice
  split
  · exact hr
  · next t ht => exact mem_map_other hr (hno t ht)

theorem recordDevice_hit (h : recordTarget db ip net d = some r) :
    recordRow d now r ∈ (recordDevice db now ip net d).rows := by
  unfold recordDevice
  rw [h]
  exact mem_map_same (recordTarget_mem h) rfl

theorem recordTarget_reach {t : DeviceRow} (h : recordTarget db ip net d = some t) :
    t.macAddress = recordMAC d ∨ t.At ip net := by
  rcases recordTarget_eq_some h with ⟨-, hr⟩ | ⟨-, hr⟩
  · exact .inl (Db.rowByMAC_eq_some.mp hr).2.1
  · exact .inr (Db.slotHolder_eq_some.mp hr).2.1

end Steward
