import Steward.Parking

/-!
# The row behind a report

What a call of the bridge makes of a row that was there before: it is left alone, parked,
superseded, or refreshed as the target of the report. A holder is parked for a successor
unless the row that is to succeed it stays where it is.
-/

namespace Steward

open JsonValue RowTable

section Target

variable {db : Db} {now : Nat} {w : IdentityWrite} {t r' : DeviceRow}

theorem roamDevice_target (ht : t ∈ db.rows) (hid : t.id = w.targetId) :
    ∃ r' ∈ (roamDevice db now w).1.rows, r'.id = w.targetId := by
  have hkept : t ∈ (db.delete (isEvictable w)).rows :=
    Db.mem_delete.mpr ⟨ht, by simp [isEvictable, hid]⟩
  rcases roamDevice_cases db now w with ⟨-, -, hrows⟩ | ⟨-, hrows | hrows⟩
  · exact ⟨relocate w now t, hrows ▸ mem_map_same ht hid, hid⟩
  · exact ⟨relocateRetry w now t, hrows ▸ mem_map_same hkept hid, hid⟩
  · exact ⟨t, hrows ▸ hkept, hid⟩

theorem update_target (ht : t ∈ db.rows) (hid : t.id = w.targetId) :
    ∃ r' ∈ (updateDeviceIdentity db now w).db.rows, r'.id = w.targetId := by
  have hfresh := mem_map_same (f := refresh w now) ht hid
  have hfid : (refresh w now t).id = w.targetId := (refresh_same w now t).id.trans hid
  unfold updateDeviceIdentity
  split
  · have hforced := mem_map_same (f := forceMac w now) hfresh hfid
    split
    · by_cases hsame : w.targetId = w.replacedId
      · exact ⟨_, mem_map_same hforced (hfid.trans hsame), hfid⟩
      · refine ⟨_, mem_map_other hforced ?_, hfid⟩
        exact fun he => hsame (hfid.symm.trans he)
    · exact ⟨_, hforced, hfid⟩
  · split
    · exact roamDevice_target hfresh hfid
    · exact ⟨_, mem_map_same hfresh hfid, hfid⟩

/-- The target row after an update: what the refresh wrote, at its address or at the new one. -/
structure Finished (w : IdentityWrite) (now : Nat) (t r' : DeviceRow) : Prop where
  name : r'.name = (refresh w now t).name
  type : r'.type = (refresh w now t).type
  document : ∀ k, k ≠ "mac_aliases" →
    r'.scanAttributes.get k = (refresh w now t).scanAttributes.get k
  slot : (r'.ipAddress = t.ipAddress ∧ r'.networkId = t.networkId) ∨
    (w.roamed = true ∧ r'.ipAddress = w.ip)

theorem Finish.finished (h : Finish w now (refresh w now t) r') : Finished w now t r' := by
  have hslot : (refresh w now t).ipAddress = t.ipAddress ∧
      (refresh w now t).networkId = t.networkId :=
    ⟨(refresh_same w now t).ipAddress, (refresh_same w now t).networkId⟩
  cases h with
  | forced =>
    refine ⟨rfl, rfl, fun k hk => ?_, .inl hslot⟩
    rw [forceMac_scanAttributes]
    split
    · exact get_recordHolderAlias _ _ k hk
    · rfl
  | moved _ _ h | retried _ _ h => exact ⟨rfl, rfl, fun _ _ => rfl, .inr ⟨h, rfl⟩⟩
  | refused | stamped => exact ⟨rfl, rfl, fun _ _ => rfl, .inl hslot⟩

theorem Finished.supersede (h : Finished w now t r') : Finished w now t (supersede now r') :=
  ⟨h.name, h.type, h.document, h.slot⟩

end Target

theorem Verdict.new_target {db : Db} {now : Nat} {mac ip : String} {net : Option Nat}
    {res : IdentityResolution} (hv : Verdict db now mac ip net res) (hnew : res.isNew = true) :
    res.targetId = 0 := by
  cases hv with
  | create => rfl
  | park => rfl
  | _ => cases hnew

section Bridge

variable {db : Db} {now : Nat} {uuid : String} {rep : HostReport} {van : Vantage}
  {res : IdentityResolution} {t r r' : DeviceRow}

/-- What a resolved report makes of row `r`. -/
inductive Fate (db : Db) (now : Nat) (rep : HostReport) (van : Vantage) (res : IdentityResolution)
    (r : DeviceRow) : DeviceRow → Prop
  | kept (hid : r.id ≠ res.targetId) : Fate db now rep van res r r
  | superseded (hid : r.id ≠ res.targetId) : Fate db now rep van res r (supersede now r)
  | parked (hold : res.isNew = false) (hid : r.id = res.parkHolderId)
    (hfit : db.devices.Fits r.id (parkRow now)) :
    Fate db now rep van res r (parkRow now r)
  | target {r' : DeviceRow} (hid : r.id = res.targetId)
    (h : Finished (updateWrite rep van.net van.batchAliases res (some r)) now r r') :
    Fate db now rep van res r r'

theorem bridge_fate
    (hres : resolveDeviceIdentity db now (reportMAC rep) rep.ip van.net = res) (hr : r ∈ db.rows)
    (hr' : r' ∈ (applyDeviceBridge db now uuid rep van).db.rows) (hid : r'.id = r.id) :
    Fate db now rep van res r r' := by
  have hv := resolve_verdict db now (reportMAC rep) rep.ip van.net
  rw [hres] at hv
  unfold applyDeviceBridge at hr'
  rw [hres] at hr'
  cases hnew : res.isNew with
  | true =>
    have htarget : r.id ≠ res.targetId := hv.new_target hnew ▸ Db.id_ne_zero hr
    rcases created_origin hnew hr' with hmem | ⟨-, hnext, -⟩
    · rw [Db.eq_of_id hmem hr hid]
      exact .kept htarget
    · have hbelow : r.id < db.devices.nextId := db.devices.below r hr
      omega
  | false =>
    rw [bridgeCommit_rows, bridgeWrite_old hnew, (apply_old rfl).1] at hr'
    -- the row before the update is `r` itself or `r` on its sentinel address
    have before : ∀ s ∈ (parkHolder db now res.parkHolderId).1.rows, s.id = r.id →
        s = r ∨ (s = parkRow now r ∧ r.id = res.parkHolderId ∧
          db.devices.Fits r.id (parkRow now)) := by
      intro s hs hsid
      rcases parkHolder_mem hs with hs | ⟨q, hq, hqid, hfit, rfl⟩
      · exact .inl (Db.eq_of_id hs hr hsid)
      · obtain rfl : q = r := Db.eq_of_id hq hr hsid
        exact .inr ⟨rfl, hqid, hqid ▸ hfit⟩
    have apart (hpark : r.id = res.parkHolderId) : r.id ≠ res.targetId ∧ r.id ≠ res.replacedId := by
      obtain ⟨htarget, hrep⟩ := hv.parked_apart hr hpark.symm
      exact ⟨htarget hnew, hrep ▸ Db.id_ne_zero hr⟩
    have target (htarget : r.id = res.targetId) : db.devices.get? res.targetId = some r :=
      (Table.get?_eq_some _).mpr ⟨hr, htarget⟩
    cases update_mem hr' with
    | other hs hne =>
      rcases before r' hs hid with rfl | ⟨rfl, hpark, hfit⟩
      · exact .kept hne
      · exact .parked hnew hpark hfit
    | @target s _ hs hsid _ hfinish =>
      have hrid : s.id = r.id := (refresh_same _ now s).id.symm.trans (hfinish.id_eq.symm.trans hid)
      rcases before s hs hrid with rfl | ⟨rfl, hpark, -⟩
      · rw [target hsid] at hfinish
        exact .target hsid hfinish.finished
      · exact absurd hsid (apart hpark).1
    | @superseded s x hs hsid h =>
      rcases h with ⟨rfl, hne⟩ | ⟨htarget, hfinish⟩
      · rcases before x hs hid with rfl | ⟨rfl, hpark, -⟩
        · exact .superseded hne
        · exact absurd hsid (apart hpark).2
      · have hrid : s.id = r.id :=
          (refresh_same _ now s).id.symm.trans (hfinish.id_eq.symm.trans hid)
        rcases before s hs hrid with rfl | ⟨rfl, hpark, -⟩
        · rw [target htarget] at hfinish
          exact .target htarget hfinish.finished.supersede
        · exact absurd htarget (apart hpark).1

/-- The one row that a report is written to. -/
theorem bridge_target (uuid : String)
    (hres : resolveDeviceIdentity db now (reportMAC rep) rep.ip van.net = res) (ht : t ∈ db.rows)
    (hid : t.id = res.targetId) :
    ∃ r' ∈ (applyDeviceBridge db now uuid rep van).db.rows, r'.id = t.id ∧
      Finished (updateWrite rep van.net van.batchAliases res (some t)) now t r' := by
  have hv := resolve_verdict db now (reportMAC rep) rep.ip van.net
  rw [hres] at hv
  have hnew : res.isNew = false := by
    by_contra hnew
    have hzero := hv.new_target (by simpa using hnew)
    exact Db.id_ne_zero ht (hid.trans hzero)
  have hkept : t ∈ (parkHolder db now res.parkHolderId).1.rows :=
    parkHolder_keep ht fun he => (hv.parked_apart ht he.symm).1 hnew hid
  obtain ⟨r', hr', hr'id⟩ : ∃ r' ∈ (applyDeviceBridge db now uuid rep van).db.rows,
      r'.id = t.id := by
    unfold applyDeviceBridge
    rw [bridgeCommit_rows, hres, bridgeWrite_old hnew, (apply_old rfl).1, hid]
    exact update_target hkept hid
  refine ⟨r', hr', hr'id, ?_⟩
  cases bridge_fate hres ht hr' hr'id with
  | kept hne => exact absurd hid hne
  | superseded hne => exact absurd hid hne
  | parked _ hpark => exact absurd hid ((hv.parked_apart ht hpark.symm).1 hnew)
  | target _ h => exact h

/-! ## Parked for a successor -/

variable (db) (van) (res)

/-- The row that the resolver moves comes to the reported slot: the batch does not vouch for
its old address, and a report without a network finds it in none. -/
def Arrives : Prop :=
  twinAlive res (db.devices.get? res.targetId) van.batchAliases = false ∧
    (van.net = none → ∀ m ∈ db.devices.get? res.targetId, m.networkId = none)

instance : Decidable (Arrives db van res) :=
  inferInstanceAs (Decidable (_ ∧ _))

variable {db van res}

/-- Behind a park, the row that arrives holds the slot of the parked one. -/
theorem parkRoam_successor {m h : DeviceRow} (hm : m ∈ db.rows) (hh : h ∈ db.rows)
    (hne : m.id ≠ h.id) (hat : h.At rep.ip van.net) (hip : rep.ip ≠ parkAddress h.id)
    (hfit : db.devices.Fits h.id (parkRow now))
    (harrive : Arrives db van { targetId := m.id, roamed := true, parkHolderId := h.id }) :
    ∃ s ∈ (bridgeCommit db now uuid rep van
        { targetId := m.id, roamed := true, parkHolderId := h.id }).db.rows,
      s.id ≠ h.id ∧ s.At rep.ip van.net := by
  obtain ⟨htwin, hnull⟩ := harrive
  have hget : db.devices.get? m.id = some m := (Table.get?_eq_some _).mpr ⟨hm, rfl⟩
  obtain ⟨hok, hparked⟩ := parkHolder_fits (Db.id_ne_zero hh) hfit
  have hhome : van.net = none → m.networkId = none := fun hnone => hnull hnone m hget
  have hrows := (commit_roam db now uuid rep van htwin hok ?_).2
  · refine ⟨_, hrows ▸ mem_map_same (parkHolder_keep hm hne) rfl, ?_, ?_⟩
    · exact relocate_refresh_id.trans_ne hne
    · refine ⟨bridgeWrite_ip, ?_⟩
      rw [Function.comp_apply, relocate_networkId, bridgeWrite_networkId,
        (refresh_same _ now m).networkId]
      cases hnet : van.net with
      | none => exact hhome hnet
      | some n => rfl
  · rw [hparked]
    intro t ht htid k hk r hr _ hrat
    -- nobody but the parked row was at the slot
    rcases mem_map_onId hr with ⟨hr, hrne⟩ | ⟨s, hs, hsid, rfl⟩
    · cases hnet : van.net with
      | none =>
        rcases mem_map_onId ht with ⟨ht, -⟩ | ⟨s, -, hsid, rfl⟩
        · obtain rfl : t = m := Db.eq_of_id ht hm htid
          simp [hnet, hhome hnet] at hk
        · exact hne (htid.symm.trans hsid)
      | some n =>
        obtain rfl : n = k := by simpa [hnet] using hk
        exact hrne (by rw [Db.eq_of_slot hr hh hrat (hnet ▸ hat)])
    · exact hip (hrat.1.symm.trans (congrArg parkAddress hsid))

/-- Another row comes to the slot of a parked one only by a roam that the batch lets pass. -/
theorem Fate.unvouched {q s : DeviceRow} {n : Nat} (h : Fate db now rep van res q s)
    (hq : q ∈ db.rows) (hid : q.id = s.id) (hr : r ∈ db.rows) (hne : s.id ≠ r.id)
    (hat : s.At r.ipAddress (some n)) (hnet : r.networkId = some n)
    (hpark : r.id = res.parkHolderId) :
    twinAlive res (db.devices.get? res.targetId) van.batchAliases = false := by
  have hfree : ¬ q.At r.ipAddress (some n) := fun hslot =>
    hne (hid.symm.trans (congrArg DeviceRow.id (Db.eq_of_slot hq hr hslot ⟨rfl, hnet⟩)))
  cases h with
  | kept => exact absurd hat hfree
  | superseded => exact absurd hat hfree
  | parked _ hheld => exact absurd (hid.symm.trans (hheld.trans hpark.symm)) hne
  | target htarget hdone =>
    rw [(Table.get?_eq_some _).mpr ⟨hq, htarget⟩]
    rcases hdone.slot with ⟨hip, hsame⟩ | ⟨hroamed, -⟩
    · exact absurd ⟨hip.symm.trans hat.1, hsame.symm.trans hat.2⟩ hfree
    · rw [updateWrite_roamed, Bool.and_eq_true, Bool.not_eq_true'] at hroamed
      exact hroamed.2

/-- A row that a report puts on its sentinel address has a successor in its slot when the row
that the resolver moves arrives there and, if the slot is one of a network, only then. -/
theorem parked_for_successor (hr : r ∈ db.rows)
    (hr' : r' ∈ (applyDeviceBridge db now uuid rep van).db.rows) (hid : r'.id = r.id)
    (hparked : r'.ipAddress = parkAddress r.id) (hold : r.ipAddress ≠ parkAddress r.id)
    (hip : rep.ip ≠ parkAddress r.id) :
    (Arrives db van (resolveDeviceIdentity db now (reportMAC rep) rep.ip van.net) →
      ∃ s ∈ (applyDeviceBridge db now uuid rep van).db.rows,
        s.id ≠ r.id ∧ s.At r.ipAddress r.networkId) ∧
    (r.networkId ≠ none → (∃ s ∈ (applyDeviceBridge db now uuid rep van).db.rows,
        s.id ≠ r.id ∧ s.At r.ipAddress r.networkId) →
      Arrives db van (resolveDeviceIdentity db now (reportMAC rep) rep.ip van.net)) := by
  have hv := resolve_verdict db now (reportMAC rep) rep.ip van.net
  have hfate : ∀ {q s : DeviceRow}, q ∈ db.rows →
      s ∈ (applyDeviceBridge db now uuid rep van).db.rows → s.id = q.id →
        Fate db now rep van _ q s := fun hq hs => bridge_fate rfl hq hs
  have hrow := hfate hr hr' hid
  unfold applyDeviceBridge at *
  generalize resolveDeviceIdentity db now (reportMAC rep) rep.ip van.net = res at *
  cases hrow with
  | kept => exact absurd hparked hold
  | superseded => exact absurd hparked hold
  | target _ h =>
    rcases h.slot with ⟨h, -⟩ | ⟨-, h⟩
    · exact absurd (h.symm.trans hparked) hold
    · exact absurd ((updateWrite_ip ..).symm.trans (h.symm.trans hparked)) hip
  | parked hnew hpark hfit =>
    cases hv with
    | parkRoam m h moved rival =>
      obtain rfl : r = h := Db.eq_of_id hr rival.mem hpark
      obtain ⟨hslot, hnet⟩ := rival.at
      refine ⟨fun harrive => ?_, fun hsome => ?_⟩
      · rw [hslot, hnet]
        exact parkRoam_successor moved.preferred.mem hr (moved.ne_rival rival) rival.at hip hfit
          harrive
      · rintro ⟨s, hs, hne, hat⟩
        obtain ⟨n, hn⟩ := Option.ne_none_iff_exists'.mp hsome
        obtain ⟨q, hq, hqid⟩ := updated_origin hnew hs
        refine ⟨(hfate hq hs hqid.symm).unvouched hq hqid hr hne (hn ▸ hat) hn rfl, fun hnone => ?_⟩
        exact absurd (hnet.trans hnone) hsome
    | park => cases hnew
    | _ => exact absurd hpark (Db.id_ne_zero hr)

end Bridge

theorem client_succeeds_vendor :
    ∃ r ∈ clientBeside.rows, r.At "10.0.0.1" (some 1) ∧
      ∃ s ∈ (applyDeviceBridge clientBeside 300 "u3" (sighting "02:11:22:33:44:77" "10.0.0.1")
        { net := some 1 }).db.rows, s.id ≠ r.id ∧ s.At r.ipAddress r.networkId := by
  obtain ⟨r, hr, hat, r', hr', hid, hparked, hold, hip⟩ :
      ∃ r ∈ clientBeside.rows, r.At "10.0.0.1" (some 1) ∧
        ∃ r' ∈ (applyDeviceBridge clientBeside 300 "u3" (sighting "02:11:22:33:44:77" "10.0.0.1")
          { net := some 1 }).db.rows, r'.id = r.id ∧ r'.ipAddress = parkAddress r.id ∧
            r.ipAddress ≠ parkAddress r.id ∧ "10.0.0.1" ≠ parkAddress r.id := by
    decide +kernel
  exact ⟨r, hr, hat, (parked_for_successor hr hr' hid hparked hold hip).1 (by decide +kernel)⟩

/-- The client is alive at both addresses: the holder is parked, and nobody takes its place. -/
theorem vendor_parked_for_nobody :
    let done := applyDeviceBridge clientBeside 300 "u3" (sighting "02:11:22:33:44:77" "10.0.0.1")
      { net := some 1, batchAliases := ["10.0.0.2"] }
    ∃ r ∈ clientBeside.rows, r.At "10.0.0.1" (some 1) ∧
      (∃ r' ∈ done.db.rows, r'.id = r.id ∧ r'.ipAddress = parkAddress r.id) ∧
      ∀ s ∈ done.db.rows, ¬ s.At "10.0.0.1" (some 1) := by
  decide +kernel

end Steward
