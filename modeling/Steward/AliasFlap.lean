import Steward.Parking

/-!
# Alias memory

A host with two network cards answers at one address under two MACs. The first
change of MAC at a slot records the previous one as an alias of the row, and from
then on either MAC resolves to the row. The memory is a member of the stored
document, so it lasts as long as no writer stores a document without it.
-/

namespace Steward

open JsonValue RowTable

/-- The alias list as `recordHolderAlias` writes it: absent, or an array of texts. -/
def AliasForm (doc : Json) : Prop :=
  doc.get "mac_aliases" = none ∨
    ∃ l : List String, doc.get "mac_aliases" = some (.arr (l.map Json.str))

theorem textItems_map_str (l : List String) : textItems (l.map Json.str) = some l := by
  induction l with
  | nil => rfl
  | cons s rest ih => simp [textItems, ih]

theorem listed_map_str (l : List String) : (l.map Json.str).filterMap Json.text? = l := by
  induction l with
  | nil => rfl
  | cons s rest ih => simp [Json.text?, ih]

variable {doc : Json} {mac x : String}

theorem AliasForm.listed (h : AliasForm doc) : listedAliases doc = holderAliases doc := by
  unfold listedAliases holderAliases
  rcases h with h | ⟨l, h⟩
  · rw [h]
  · rw [h]
    simp only [textItems_map_str, listed_map_str, Option.getD_some]

theorem aliasForm_congr {a b : Json} (h : a.get "mac_aliases" = b.get "mac_aliases") :
    AliasForm a ↔ AliasForm b := by
  unfold AliasForm
  rw [h]

theorem recordHolderAlias_cases (doc : Json) (hmac : mac ≠ "") :
    ((listedAliases doc).any (fun a => Text.equalFold a mac) = true ∧
        recordHolderAlias doc mac = doc) ∨
      (recordHolderAlias doc mac).get "mac_aliases" =
        some (.arr ((listedAliases doc ++ [mac]).map Json.str)) := by
  unfold recordHolderAlias
  rw [if_neg hmac]
  split
  · next hin => exact .inl ⟨hin, rfl⟩
  · right
    simp only [Json.get, members_obj]
    rw [Assoc.lookup_set, if_pos rfl]

theorem AliasForm.record (h : AliasForm doc) (hmac : mac ≠ "") :
    AliasForm (recordHolderAlias doc mac) := by
  rcases recordHolderAlias_cases doc hmac with ⟨-, he⟩ | he
  · rwa [he]
  · exact .inr ⟨_, he⟩

theorem holderAliases_map_str {l : List String}
    (h : doc.get "mac_aliases" = some (.arr (l.map Json.str))) : holderAliases doc = l := by
  unfold holderAliases
  rw [h]
  simp only [textItems_map_str, Option.getD_some]

theorem alias_kept (h : AliasForm doc) (hmac : mac ≠ "")
    (hx : (holderAliases doc).any (fun a => Text.equalFold a x) = true) :
    (holderAliases (recordHolderAlias doc mac)).any (fun a => Text.equalFold a x) = true := by
  rcases recordHolderAlias_cases doc hmac with ⟨-, he⟩ | he
  · rwa [he]
  · rw [holderAliases_map_str he, h.listed, List.any_append, hx, Bool.true_or]

theorem alias_added (h : AliasForm doc) (hmac : mac ≠ "") :
    (holderAliases (recordHolderAlias doc mac)).any (fun a => Text.equalFold a mac) = true := by
  rcases recordHolderAlias_cases doc hmac with ⟨hin, he⟩ | he
  · rwa [he, ← h.listed]
  · rw [holderAliases_map_str he]
    simp

/-! ## Rows that know a MAC -/

/-- The row answers for the MAC: it carries it or lists it. -/
def Covers (h : DeviceRow) (x : String) : Prop := h.macAddress = x ∨ macIsHolderAlias h x = true

section Edits

variable {w : IdentityWrite} {now : Nat} {h : DeviceRow} {x : String}

theorem Covers.stamp (hw : FromReport w) (hx : x ≠ "") (hc : Covers h x) :
    Covers (stamp w now (refresh w now h)) x := by
  rcases hc with hmac | halias
  · left
    rw [stamp_refresh_mac, hmac, if_neg (by simp [hx])]
  · right
    rwa [stamp_refresh_alias hw]

/-- A change of MAC keeps what the row answers for, apart from the case of the letters. -/
theorem Covers.force (hw : FromReport w) (hform : AliasForm h.scanAttributes)
    (hcarries : h.macAddress ≠ "") (hdiff : Text.equalFold x w.mac = false) (hc : Covers h x) :
    Covers (forceMac w now (refresh w now h)) x := by
  have hfresh : AliasForm (refresh w now h).scanAttributes :=
    (aliasForm_congr (refresh_mac_aliases hw now h)).mpr hform
  have hsame : (refresh w now h).macAddress = h.macAddress := (refresh_same w now h).macAddress
  right
  unfold macIsHolderAlias
  rw [forceMac_scanAttributes, hsame]
  rcases hc with rfl | halias
  · rw [if_pos ⟨hcarries, hdiff⟩]
    exact alias_added hfresh hcarries
  · have hlisted :
      (holderAliases (refresh w now h).scanAttributes).any (fun a => Text.equalFold a x) =
        true := by
      rw [← macIsHolderAlias_refresh hw now h x] at halias
      exact halias
    split
    · exact alias_kept hfresh hcarries hlisted
    · exact hlisted

end Edits

/-- The holder of the slot, if there is one, answers for one of the two MACs or for none at all. -/
def Familiar (x y ip : String) (n : Nat) (db : Db) : Prop :=
  ∀ h ∈ db.rows, h.At ip (some n) → h.macAddress = "" ∨ Covers h x ∨ Covers h y

/-- The holder of the slot answers for both MACs. -/
def Remembered (x y ip : String) (n : Nat) (db : Db) : Prop :=
  ∃ h ∈ db.rows, h.At ip (some n) ∧ Covers h x ∧ Covers h y

variable {y ip : String} {n : Nat} {db : Db}

theorem Familiar.symm (hf : Familiar x y ip n db) : Familiar y x ip n db :=
  fun h hh hat => (hf h hh hat).imp_right Or.symm

theorem Remembered.symm (hm : Remembered x y ip n db) : Remembered y x ip n db := by
  obtain ⟨h, hh, hat, hx, hy⟩ := hm
  exact ⟨h, hh, hat, hy, hx⟩

/-- The resolver answered with a take-over or a replacement. -/
def IdentityResolution.flips (res : IdentityResolution) : Bool := res.takeOver || res.replacedId ≠ 0

section Bridge

variable {db : Db} {now n : Nat} {uuid y : String} {rep : HostReport} {van : Vantage} {db' : Db}
  {x ip : String} {w : IdentityWrite} {i : Nat}

theorem remembered_edit {f : DeviceRow → DeviceRow} (hf : ∀ r, (f r).SamePlace r)
    (hrows : db'.rows = db.rows.map (deviceSchema.onId i f))
    (hedit : ∀ h ∈ db.rows, h.id = i → h.At ip (some n) → Covers h x → Covers h y →
      Covers (f h) x ∧ Covers (f h) y) (hm : Remembered x y ip n db) : Remembered x y ip n db' := by
  obtain ⟨h, hh, hat, hcx, hcy⟩ := hm
  unfold Remembered
  rw [hrows]
  by_cases hid : h.id = i
  · exact ⟨_, mem_map_same hh hid, (hf h).at_iff.mpr hat, hedit h hh hid hat hcx hcy⟩
  · exact ⟨h, mem_map_other hh hid, hat, hcx, hcy⟩

theorem familiar_edit {f : DeviceRow → DeviceRow} (hf : ∀ r, (f r).SamePlace r)
    (hrows : db'.rows = db.rows.map (deviceSchema.onId i f))
    (hedit : ∀ h ∈ db.rows, h.id = i → h.At ip (some n) →
      h.macAddress = "" ∨ Covers h x ∨ Covers h y →
        (f h).macAddress = "" ∨ Covers (f h) x ∨ Covers (f h) y) (hfam : Familiar x y ip n db) :
    Familiar x y ip n db' := by
  intro h' hh' hat
  rw [hrows] at hh'
  rcases mem_map_onId hh' with ⟨hh, -⟩ | ⟨h, hh, hid, rfl⟩
  · exact hfam h' hh hat
  · have hhat := (hf h).at_iff.mp hat
    exact hedit h hh hid hhat (hfam h hh hhat)

theorem stamp_refresh_samePlace (r : DeviceRow) :
    ((stamp w now ∘ refresh w now) r).SamePlace r :=
  (stamp_samePlace w now _).trans (refresh_samePlace w now r)

/-- A plain update of any row keeps the memory of the slot. -/
theorem remembered_plain (hw : FromReport w) (hx : x ≠ "") (hy : y ≠ "")
    (hrows : db'.rows = db.rows.map (settle i now w (stamp w now))) (hm : Remembered x y ip n db) :
    Remembered x y ip n db' :=
  remembered_edit stamp_refresh_samePlace hrows
    (fun _ _ _ _ hcx hcy => ⟨hcx.stamp hw hx, hcy.stamp hw hy⟩) hm

/-- A plain update of any row keeps the slot familiar; an empty MAC becomes the reported one. -/
theorem familiar_plain (hw : FromReport w) (hmac : w.mac = x) (hx : x ≠ "") (hy : y ≠ "")
    (hrows : db'.rows = db.rows.map (settle i now w (stamp w now))) (hf : Familiar x y ip n db) :
    Familiar x y ip n db' := by
  refine familiar_edit stamp_refresh_samePlace hrows (fun h _ _ _ hcase => .inr ?_) hf
  rcases hcase with hempty | hcx | hcy
  · left
    left
    rw [Function.comp, stamp_refresh_mac, hmac, if_pos ⟨hx, hempty⟩]
  · exact .inl (hcx.stamp hw hx)
  · exact .inr (hcy.stamp hw hy)

/-- A change of MAC at a familiar slot leaves a row that answers for the new MAC and for the other
one. -/
theorem remembered_force {h : DeviceRow} (hw : FromReport w) (hmac : w.mac = x)
    (hdiff : Text.equalFold y x = false) (hform : AliasForm h.scanAttributes)
    (hrival : Rival db x ip (some n) h) (hstranger : macIsHolderAlias h x = false)
    (hf : Familiar x y ip n db) (hmem : forceMac w now (refresh w now h) ∈ db'.rows) :
    Remembered x y ip n db' := by
  have hcy : Covers h y := by
    rcases hf h hrival.mem hrival.at with hempty | hcx | hcy
    · exact absurd hempty hrival.carries
    · rcases hcx with hsame | halias
      · exact absurd hsame hrival.other
      · exact absurd (halias.symm.trans hstranger) (by decide)
    · exact hcy
  refine ⟨_, hmem, ?_, .inl (by rw [forceMac_macAddress, hmac]), hcy.force hw hform hrival.carries
    (by rwa [hmac])⟩
  rw [(forceMac_samePlace w now _).at_iff, (refresh_samePlace w now h).at_iff]
  exact hrival.at

/-- Once the slot answers for both MACs, a report of either flips nothing. -/
theorem bridge_remembered (hloc : carriesNoLocation rep.ip = false) (hnet : van.net = some n)
    (hx : GloballyAdministered (reportMAC rep)) (hy : y ≠ "")
    (hm : Remembered (reportMAC rep) y rep.ip n db) :
    (resolveDeviceIdentity db now (reportMAC rep) rep.ip (some n)).flips = false ∧
      Remembered (reportMAC rep) y rep.ip n (applyDeviceBridge db now uuid rep van).db := by
  obtain ⟨h, hh, hat, hcx, -⟩ := id hm
  have known : ∀ h', Rival db (reportMAC rep) rep.ip (some n) h' →
      macIsHolderAlias h' (reportMAC rep) ≠ false := by
    intro h' hrival hno
    obtain rfl : h = h' := Db.eq_of_slot hh hrival.mem hat hrival.at
    rcases hcx with hmac | halias
    · exact hrival.other hmac
    · exact absurd (halias.symm.trans hno) (by decide)
  have plain := fun i => remembered_plain (bridgeWrite_fromReport ..) hx.1 hy
    (commit_plain db now uuid rep van i).2 hm
  have hv := resolve_verdict db now (reportMAC rep) rep.ip (some n)
  unfold applyDeviceBridge
  rw [hnet]
  generalize resolveDeviceIdentity db now (reportMAC rep) rep.ip (some n) = res at hv
  cases hv with
  | create why =>
    rcases why with ⟨hempty, -⟩ | ⟨-, hno | hfree⟩
    · exact absurd hempty hx.1
    · exact absurd (hno.symm.trans hloc) (by decide)
    · exact absurd hat (hfree h hh)
  | slot h' macless => exact absurd macless hx.1
  | fill p => exact ⟨rfl, plain p.id⟩
  | park h' _ _ _ _ guard => exact absurd guard (hx.not_guarded _)
  | takeOver h' _ _ rival stranger => exact absurd stranger (known h' rival)
  | sameHost h' => exact ⟨rfl, plain h'.id⟩
  | own m => exact ⟨rfl, plain m.id⟩
  | roam m _ free => exact absurd hat (free h hh)
  | parkRoam m h' _ _ _ guard => exact absurd guard (hx.not_guarded _)
  | replace m h' _ rival stranger => exact absurd stranger (known h' rival)

/-- At a familiar slot a report of either MAC keeps it familiar, or changes the MAC of
its holder, which then answers for both. -/
theorem bridge_familiar (hnet : van.net = some n) (hx : GloballyAdministered (reportMAC rep))
    (hy : y ≠ "") (hdiff : Text.equalFold y (reportMAC rep) = false)
    (hform : ∀ r ∈ db.rows, AliasForm r.scanAttributes)
    (hf : Familiar (reportMAC rep) y rep.ip n db) :
    ((resolveDeviceIdentity db now (reportMAC rep) rep.ip (some n)).flips = false ∧
        Familiar (reportMAC rep) y rep.ip n (applyDeviceBridge db now uuid rep van).db) ∨
      Remembered (reportMAC rep) y rep.ip n (applyDeviceBridge db now uuid rep van).db := by
  have plain : ∀ {res : IdentityResolution} {i : Nat},
      (bridgeCommit db now uuid rep van res).db.rows =
      db.rows.map
        (settle i now (bridgeWrite db rep van res) (stamp (bridgeWrite db rep van res) now)) →
      Familiar (reportMAC rep) y rep.ip n (bridgeCommit db now uuid rep van res).db := fun hrows =>
    familiar_plain (bridgeWrite_fromReport ..) bridgeWrite_mac hx.1 hy hrows hf
  have hv := resolve_verdict db now (reportMAC rep) rep.ip (some n)
  unfold applyDeviceBridge
  rw [hnet]
  generalize resolveDeviceIdentity db now (reportMAC rep) rep.ip (some n) = res at hv
  cases hv with
  | create why =>
    refine .inl ⟨rfl, fun h hh hat => ?_⟩
    rcases created_origin rfl hh with hh | ⟨-, -, hmac, -⟩
    · exact hf h hh hat
    · exact .inr (.inl (.inl hmac))
  | slot h macless => exact absurd macless hx.1
  | fill p => exact .inl ⟨rfl, plain (commit_plain db now uuid rep van p.id).2⟩
  | park h _ _ _ _ guard => exact absurd guard (hx.not_guarded _)
  | takeOver h _ _ rival stranger =>
    right
    exact remembered_force (bridgeWrite_fromReport ..) bridgeWrite_mac hdiff (hform h rival.mem)
      rival stranger hf
      (by rw [(commit_takeOver db now uuid rep van h.id).2]; exact mem_map_same rival.mem rfl)
  | sameHost h => exact .inl ⟨rfl, plain (commit_plain db now uuid rep van h.id).2⟩
  | own m => exact .inl ⟨rfl, plain (commit_plain db now uuid rep van m.id).2⟩
  | roam m moved free =>
    refine .inl ⟨rfl, ?_⟩
    cases htwin : twinAlive { targetId := m.id, roamed := true } (db.devices.get? m.id)
      van.batchAliases with
    | true => exact plain (commit_twin db now uuid rep van htwin rfl).2
    | false =>
      intro h hh hat
      rw [(commit_roam db now uuid rep van htwin rfl
        (slot_free_of_net van hnet fun r hr _ => free r hr)).2] at hh
      rcases mem_map_onId hh with ⟨hh, -⟩ | ⟨s, hs, hid, rfl⟩
      · exact hf h hh hat
      · right
        left
        left
        obtain rfl : s = m := Db.eq_of_id hs moved.preferred.mem hid
        rw [Function.comp, relocate_refresh_mac, moved.preferred.carries, if_neg (by simp [hx.1])]
  | parkRoam m h _ _ _ guard => exact absurd guard (hx.not_guarded _)
  | replace m h moved rival stranger =>
    right
    exact remembered_force (bridgeWrite_fromReport ..) bridgeWrite_mac hdiff (hform h rival.mem)
      rival stranger hf
      (commit_replace_mem db now uuid rep van rival.mem (moved.ne_rival rival).symm
        (Db.id_ne_zero moved.preferred.mem))

end Bridge

/-! ## The form of the list under the writers -/

section Form

variable {db : Db} {now : Nat}

theorem aliasForm_marshal (attr : ScanAttributes) : AliasForm (marshalScanAttributes attr) :=
  .inl (ScanAttributes.get_mac_aliases attr)

variable {w : IdentityWrite}

theorem finish_form {r r' : DeviceRow} (hr : Finish w now r r') (h : AliasForm r.scanAttributes) :
    AliasForm r'.scanAttributes := by
  cases hr with
  | forced =>
    rw [forceMac_scanAttributes]
    split
    · next hc => exact h.record hc.1
    · exact h
  | _ => exact h

variable {uuid : String}

theorem apply_form (hw : FromReport w) (hform : ∀ r ∈ db.rows, AliasForm r.scanAttributes) :
    ∀ r ∈ (applyDeviceIdentity db now uuid w).db.rows, AliasForm r.scanAttributes := by
  have hparked : ∀ r ∈ (parkHolder db now w.parkHolderId).1.rows, AliasForm r.scanAttributes := by
    intro r hr
    rcases parkHolder_mem hr with hr | ⟨s, hs, -, -, rfl⟩
    · exact hform r hr
    · exact hform s hs
  cases hnew : w.isNew with
  | true =>
    intro r hr
    simp only [applyDeviceIdentity, hnew, if_true] at hr
    rcases create_cases (parkHolder db now w.parkHolderId).1 now uuid w with
      ⟨t, -, -, hrows, -⟩ | ⟨hsame, -⟩
    · rw [hrows] at hr
      rcases List.mem_append.mp hr with hr | hr
      · exact hparked r hr
      · obtain rfl := List.mem_singleton.mp hr
        obtain ⟨rep, hdoc⟩ := hw
        rw [newRow_scanAttributes, hdoc]
        exact aliasForm_marshal _
    · rw [hsame] at hr
      exact hparked r hr
  | false =>
    rw [(apply_old hnew).1]
    exact update_forall (P := fun r => AliasForm r.scanAttributes) hparked
      (fun r => (aliasForm_congr (refresh_mac_aliases hw now r)).mpr) (fun _ h => h)
      fun _ _ => finish_form

variable (hform : ∀ r ∈ db.rows, AliasForm r.scanAttributes)

include hform

theorem record_form {ip : String} {net : Option Nat} {d : DeviceRef} :
    ∀ r ∈ (recordDevice db now ip net d).rows, AliasForm r.scanAttributes := by
  unfold recordDevice
  split
  · exact hform
  · exact Db.modify_forall (recordRow_samePlace d now) hform fun r _ => aliasForm_marshal _

theorem enrich_form {mac : String} {fields : Fields} :
    ∀ r ∈ (enrichDeviceByMAC db now mac fields).rows, AliasForm r.scanAttributes := by
  unfold enrichDeviceByMAC
  split
  · exact hform
  · refine Db.modify_forall (enrichRow_samePlace fields now) hform fun r hr => ?_
    simp only [enrichRow, enrichDocument]
    split
    · exact hr
    · exact aliasForm_marshal _

end Form

/-! ## The other writers -/

section Writers

variable {db : Db} {now n : Nat} {x y ip : String} {d : DeviceRef} {mac : String} {fields : Fields}

/-- `RecordDevice` stores a document without aliases over the holder's aliases. -/
def RecordErases (db : Db) (ip : String) (n : Nat) (d : DeviceRef) : Prop :=
  ∃ t ∈ db.rows, recordTarget db ip (some n) d = some t ∧ t.At ip (some n) ∧
    t.scanAttributes.get "mac_aliases" ≠ none

/-- `EnrichDeviceByMAC` does the same when it has a key to store that it does not know. -/
def EnrichErases (db : Db) (mac : String) (fields : Fields) (ip : String) (n : Nat) : Prop :=
  (unknownFields fields).entries ≠ [] ∧
    ∃ t ∈ db.rows, enrichTarget db mac fields = some t ∧ t.At ip (some n) ∧
      t.scanAttributes.get "mac_aliases" ≠ none

instance : Decidable (RecordErases db ip n d) :=
  inferInstanceAs (Decidable (∃ t ∈ db.rows, _ ∧ _ ∧ _))

instance : Decidable (EnrichErases db mac fields ip n) :=
  inferInstanceAs (Decidable (_ ∧ ∃ t ∈ db.rows, _ ∧ _ ∧ _))

variable {h t : DeviceRow}

theorem Covers.mac_of_absent (hc : Covers h x) (ha : h.scanAttributes.get "mac_aliases" = none) :
    h.macAddress = x := by
  rcases hc with hmac | halias
  · exact hmac
  · exact absurd (halias.symm.trans (not_alias_of_absent ha x)) (by decide)

/-- The row that `RecordDevice` writes to, if it holds the slot, lists no aliases. -/
theorem absent_of_not_recordErases (hno : ¬ RecordErases db ip n d)
    (ht : recordTarget db ip (some n) d = some t) (hh : h ∈ db.rows) (hid : h.id = t.id)
    (hat : h.At ip (some n)) : h.scanAttributes.get "mac_aliases" = none := by
  by_contra hsome
  obtain rfl : h = t := Db.eq_of_id hh (recordTarget_mem ht) hid
  exact hno ⟨h, hh, ht, hat, hsome⟩

theorem record_remembered (hxy : x ≠ y) (hno : ¬ RecordErases db ip n d)
    (hm : Remembered x y ip n db) :
    Remembered x y ip n (recordDevice db now ip (some n) d) := by
  unfold recordDevice
  split
  · exact hm
  · next t ht =>
    refine remembered_edit (recordRow_samePlace d now) rfl (fun h hh hid hat hcx hcy => ?_) hm
    have habsent := absent_of_not_recordErases hno ht hh hid hat
    exact absurd ((hcx.mac_of_absent habsent).symm.trans (hcy.mac_of_absent habsent)) hxy

theorem record_familiar (hx : x ≠ "") (hy : y ≠ "") (hd : recordMAC d = "" ∨ recordMAC d = x)
    (hno : ¬ RecordErases db ip n d) (hf : Familiar x y ip n db) :
    Familiar x y ip n (recordDevice db now ip (some n) d) := by
  unfold recordDevice
  split
  · exact hf
  · next t ht =>
    refine familiar_edit (recordRow_samePlace d now) rfl (fun h hh hid hat hcase => ?_) hf
    have habsent := absent_of_not_recordErases hno ht hh hid hat
    have hkeep : ∀ z, z ≠ "" → Covers h z → Covers (recordRow d now h) z := by
      intro z hz hc
      left
      rw [recordRow_macAddress, hc.mac_of_absent habsent, if_neg (by simp [hz])]
    rcases hcase with hempty | hcx | hcy
    · rw [recordRow_macAddress]
      rcases hd with hd | hd
      · simp [hd, hempty]
      · right
        left
        left
        rw [recordRow_macAddress, hd, if_pos ⟨hx, hempty⟩]
    · exact .inr (.inl (hkeep x hx hcx))
    · exact .inr (.inr (hkeep y hy hcy))

theorem Covers.enrich
    (hsafe : (unknownFields fields).entries ≠ [] → h.scanAttributes.get "mac_aliases" = none)
    (hc : Covers h x) : Covers (enrichRow fields now h) x := by
  rcases hc with hmac | halias
  · exact .inl hmac
  · by_cases hempty : (unknownFields fields).entries = []
    · right
      have hdoc : (enrichRow fields now h).scanAttributes = h.scanAttributes := by
        simp only [enrichRow, enrichDocument, if_pos hempty]
      unfold macIsHolderAlias at halias ⊢
      rwa [hdoc]
    · exact absurd (halias.symm.trans (not_alias_of_absent (hsafe hempty) x)) (by decide)

theorem absent_of_not_enrichErases (hno : ¬ EnrichErases db mac fields ip n)
    (ht : enrichTarget db mac fields = some t) (hmem : t ∈ db.rows) (hh : h ∈ db.rows)
    (hid : h.id = t.id) (hat : h.At ip (some n)) (hunknown : (unknownFields fields).entries ≠ []) :
    h.scanAttributes.get "mac_aliases" = none := by
  by_contra hsome
  obtain rfl : h = t := Db.eq_of_id hh hmem hid
  exact hno ⟨hunknown, h, hh, ht, hat, hsome⟩

theorem enrichTarget_mem (h : enrichTarget db mac fields = some t) : t ∈ db.rows := by
  unfold enrichTarget at h
  split at h
  · cases h
  · exact (Db.rowByMAC_eq_some.mp h).1

theorem enrich_remembered (hno : ¬ EnrichErases db mac fields ip n) (hm : Remembered x y ip n db) :
    Remembered x y ip n (enrichDeviceByMAC db now mac fields) := by
  unfold enrichDeviceByMAC
  split
  · exact hm
  · next t ht =>
    refine remembered_edit (enrichRow_samePlace fields now) rfl (fun h hh hid hat hcx hcy => ?_) hm
    have hsafe := absent_of_not_enrichErases hno ht (enrichTarget_mem ht) hh hid hat
    exact ⟨hcx.enrich hsafe, hcy.enrich hsafe⟩

theorem enrich_familiar (hno : ¬ EnrichErases db mac fields ip n) (hf : Familiar x y ip n db) :
    Familiar x y ip n (enrichDeviceByMAC db now mac fields) := by
  unfold enrichDeviceByMAC
  split
  · exact hf
  · next t ht =>
    refine familiar_edit (enrichRow_samePlace fields now) rfl (fun h hh hid hat hcase => ?_) hf
    have hsafe := absent_of_not_enrichErases hno ht (enrichTarget_mem ht) hh hid hat
    exact hcase.imp_right (Or.imp (Covers.enrich hsafe) (Covers.enrich hsafe))

end Writers

/-! ## Runs of the pipeline -/

/-- A step of the pipeline while one host answers under two MACs. -/
inductive DualStep where
  | scan (recorded applied : Nat) (uuid : String) (rep : HostReport) (van : Vantage)
  | enrich (now : Nat) (mac : String) (fields : Fields)

namespace DualStep

def run (db : Db) : DualStep → Db
  | scan recorded applied uuid rep van => (localScan db recorded applied uuid rep van).db
  | enrich now mac fields => enrichDeviceByMAC db now mac fields

/-- The step concerns one of the MACs, and scans report it at the slot. -/
def Of (a b ip : String) (n : Nat) : DualStep → Prop
  | scan _ _ _ rep van => (reportMAC rep = a ∨ reportMAC rep = b) ∧ rep.ip = ip ∧ van.net = some n
  | enrich _ mac _ => normalizeMAC mac = a ∨ normalizeMAC mac = b

/-- The resolver answers the step with a take-over or a replacement. -/
def flips (db : Db) : DualStep → Bool
  | scan recorded applied _ rep van =>
    (resolveDeviceIdentity (recordDevice db recorded rep.ip van.net rep.device) applied
      (reportMAC rep) rep.ip van.net).flips
  | enrich _ _ _ => false

/-- A writer of the step erases the alias list of the slot's holder. -/
def Erases (ip : String) (n : Nat) (db : Db) : DualStep → Prop
  | scan _ _ _ rep _ => RecordErases db ip n rep.device
  | enrich _ mac fields => EnrichErases db mac fields ip n

instance decidableOf (a b ip : String) (n : Nat) : (s : DualStep) → Decidable (s.Of a b ip n)
  | scan _ _ _ _ _ => inferInstanceAs (Decidable (_ ∧ _ ∧ _))
  | enrich _ _ _ => inferInstanceAs (Decidable (_ ∨ _))

instance decidableErases (ip : String) (n : Nat) (db : Db) :
    (s : DualStep) → Decidable (s.Erases ip n db)
  | scan _ _ _ rep _ => inferInstanceAs (Decidable (RecordErases db ip n rep.device))
  | enrich _ mac fields => inferInstanceAs (Decidable (EnrichErases db mac fields ip n))

section Steps

variable {db : Db} {recorded applied n : Nat} {uuid y : String} {rep : HostReport} {van : Vantage}

/-- A scan at a slot that answers for both MACs. -/
theorem scan_remembered (hloc : carriesNoLocation rep.ip = false) (hnet : van.net = some n)
    (hx : GloballyAdministered (reportMAC rep)) (hy : y ≠ "") (hxy : reportMAC rep ≠ y)
    (hno : ¬ RecordErases db rep.ip n rep.device) (hm : Remembered (reportMAC rep) y rep.ip n db) :
    flips db (scan recorded applied uuid rep van) = false ∧
      Remembered (reportMAC rep) y rep.ip n (run db (scan recorded applied uuid rep van)) := by
  have hrecorded :
      Remembered (reportMAC rep) y rep.ip n (recordDevice db recorded rep.ip (some n) rep.device) :=
    record_remembered hxy hno hm
  simp only [flips, run, localScan, hnet]
  exact bridge_remembered hloc hnet hx hy hrecorded

/-- A scan at a familiar slot. -/
theorem scan_familiar (hnet : van.net = some n) (hx : GloballyAdministered (reportMAC rep))
    (hy : y ≠ "") (hdiff : Text.equalFold y (reportMAC rep) = false)
    (hno : ¬ RecordErases db rep.ip n rep.device)
    (hform : ∀ r ∈ db.rows, AliasForm r.scanAttributes)
    (hf : Familiar (reportMAC rep) y rep.ip n db) :
    (flips db (scan recorded applied uuid rep van) = false ∧
        Familiar (reportMAC rep) y rep.ip n (run db (scan recorded applied uuid rep van))) ∨
      Remembered (reportMAC rep) y rep.ip n (run db (scan recorded applied uuid rep van)) := by
  have hrecorded :
      Familiar (reportMAC rep) y rep.ip n (recordDevice db recorded rep.ip (some n) rep.device) :=
    record_familiar hx.1 hy (recordMAC_cases rep) hno hf
  simp only [flips, run, localScan, hnet]
  exact bridge_familiar hnet hx hy hdiff (record_form hform) hrecorded

theorem unlocated_never_flips {s : DualStep} {a b ip : String} (hloc : carriesNoLocation ip = true)
    (hof : s.Of a b ip n) : flips db s = false := by
  cases s with
  | enrich now mac fields => rfl
  | scan recorded applied uuid rep van =>
    obtain ⟨-, rfl, -⟩ := hof
    have hv := resolve_verdict (recordDevice db recorded rep.ip van.net rep.device) applied
        (reportMAC rep) rep.ip van.net
    simp only [flips]
    generalize resolveDeviceIdentity (recordDevice db recorded rep.ip van.net rep.device) applied
      (reportMAC rep) rep.ip
      van.net = res at hv
    cases hv with
    | takeOver h _ located => exact absurd (hloc.symm.trans located) (by decide)
    | replace m h moved => exact absurd (hloc.symm.trans moved.located) (by decide)
    | _ => rfl

theorem run_form (s : DualStep) (hform : ∀ r ∈ db.rows, AliasForm r.scanAttributes) :
    ∀ r ∈ (s.run db).rows, AliasForm r.scanAttributes := by
  cases s with
  | scan recorded applied uuid rep van =>
    simp only [run, localScan, applyDeviceBridge, bridgeCommit_rows]
    exact apply_form (bridgeWrite_fromReport ..) (record_form hform)
  | enrich now mac fields => exact enrich_form hform

end Steps

end DualStep

/-- Two MACs of vendors' cards at one address: whatever the order of the reports and of
the enrichments, the slot changes its MAC at most once, as long as no writer erases the
alias list of the slot's holder. -/
theorem dual_host_flips_at_most_once {a b ip : String} {n : Nat} {db : Db} (steps : List DualStep)
    (ha : Canonical a) (hb : Canonical b) (hga : GloballyAdministered a)
    (hgb : GloballyAdministered b) (hab : a ≠ b) (hform : ∀ r ∈ db.rows, AliasForm r.scanAttributes)
    (hfam : Familiar a b ip n db)
    (hok : Runs.Along DualStep.run (fun db s => s.Of a b ip n ∧ ¬ s.Erases ip n db) db steps) :
    Runs.count DualStep.run DualStep.flips db steps ≤ 1 := by
  by_cases hunlocated : carriesNoLocation ip = true
  · have hnone : Runs.count DualStep.run DualStep.flips db steps = 0 :=
      Runs.count_eq_zero (P := fun _ => True)
        (fun db s _ hs => ⟨DualStep.unlocated_never_flips hunlocated hs.1, trivial⟩) trivial hok
    omega
  have hloc : carriesNoLocation ip = false := by simpa using hunlocated
  have hdiff : ∀ c d, Canonical c → Canonical d → c ≠ d → Text.equalFold c d = false := by
    intro c d hc hd hne
    by_contra hfold
    exact hne (hc.eq_of_equalFold hd (by simpa using hfold))
  refine Runs.count_le_one (P := fun db => (∀ r ∈ db.rows, AliasForm r.scanAttributes) ∧
    Familiar a b ip n db)
    (Q := fun db => (∀ r ∈ db.rows, AliasForm r.scanAttributes) ∧ Remembered a b ip n db) ?_ ?_
      ⟨hform, hfam⟩ hok
  · rintro db s ⟨hform, hf⟩ ⟨hof, hno⟩
    have hform' := s.run_form hform
    cases s with
    | scan recorded applied uuid rep van =>
      obtain ⟨rfl | rfl, rfl, hnet⟩ := hof
      · exact (DualStep.scan_familiar hnet hga hgb.1 (hdiff b _ hb ha (Ne.symm hab)) hno hform
          hf).imp
          (And.imp_right (And.intro hform')) (And.intro hform')
      · exact (DualStep.scan_familiar hnet hgb hga.1 (hdiff a _ ha hb hab) hno hform hf.symm).imp
          (And.imp_right fun h => ⟨hform', h.symm⟩) (fun h => ⟨hform', h.symm⟩)
    | enrich now mac fields => exact .inl ⟨rfl, hform', enrich_familiar hno hf⟩
  · rintro db s ⟨hform, hm⟩ ⟨hof, hno⟩
    have hform' := s.run_form hform
    cases s with
    | scan recorded applied uuid rep van =>
      obtain ⟨rfl | rfl, rfl, hnet⟩ := hof
      · obtain ⟨hflip, hm'⟩ := DualStep.scan_remembered hloc hnet hga hgb.1 hab hno hm
        exact ⟨hflip, hform', hm'⟩
      · obtain ⟨hflip, hm'⟩ :=
          DualStep.scan_remembered hloc hnet hgb hga.1 (Ne.symm hab) hno hm.symm
        exact ⟨hflip, hform', hm'.symm⟩
    | enrich now mac fields => exact ⟨rfl, hform', enrich_remembered hno hm⟩

def cardSeen (now : Nat) (uuid mac : String) : DualStep :=
  .scan now now uuid (sighting mac "10.0.0.1") { net := some 1 }

theorem second_card_and_its_name :
    Runs.count DualStep.run DualStep.flips Db.empty
      [cardSeen 100 "u1" "00:11:22:33:44:55", cardSeen 200 "u2" "00:11:22:33:44:66",
        .enrich 300 "00:11:22:33:44:66" (KeyMap.empty.set "hostname" "attic")] ≤ 1 :=
  have hfam : Familiar "00:11:22:33:44:55" "00:11:22:33:44:66" "10.0.0.1" 1 Db.empty :=
    fun h hh => absurd hh List.not_mem_nil
  dual_host_flips_at_most_once _ (by decide +kernel) (by decide +kernel) (by decide +kernel)
    (by decide +kernel)
    (by decide) (fun r hr => absurd hr List.not_mem_nil) hfam (by decide +kernel)

/-- The enrichment at the start of the third scan erases the alias that the second one recorded. -/
theorem alternating_cards_flip_twice :
    let steps := [cardSeen 100 "u1" "00:11:22:33:44:55", cardSeen 200 "u2" "00:11:22:33:44:66",
      cardSeen 300 "u3" "00:11:22:33:44:55"]
    (∀ s ∈ steps, s.Of "00:11:22:33:44:55" "00:11:22:33:44:66" "10.0.0.1" 1) ∧
      Runs.count DualStep.run DualStep.flips Db.empty steps = 2 := by
  decide +kernel

end Steward
