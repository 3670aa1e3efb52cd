import Steward.Bridge

/-!
# What the writers do to the rows

One lemma for each statement of an identity write, and the frame they share: a
write touches its target, the row it supersedes, the holder it parks, and
MAC-less rows that it evicts from the reported slot.
-/

namespace Steward

open JsonValue RowTable

section Rows

variable {rows : List DeviceRow} {i : Nat} {f : DeviceRow → DeviceRow} {r' r : DeviceRow}

theorem mem_map_onId (h : r' ∈ rows.map (deviceSchema.onId i f)) :
    (r' ∈ rows ∧ r'.id ≠ i) ∨ ∃ r ∈ rows, r.id = i ∧ r' = f r := by
  obtain ⟨r, hr, rfl⟩ := List.mem_map.mp h
  by_cases hi : r.id = i
  · exact .inr ⟨r, hr, hi, onId_same i f r hi⟩
  · rw [onId_other i f r hi]
    exact .inl ⟨hr, hi⟩

theorem mem_map_other (hr : r ∈ rows) (h : r.id ≠ i) : r ∈ rows.map (deviceSchema.onId i f) :=
  List.mem_map.mpr ⟨r, hr, onId_other i f r h⟩

theorem mem_map_same (hr : r ∈ rows) (h : r.id = i) : f r ∈ rows.map (deviceSchema.onId i f) :=
  List.mem_map.mpr ⟨r, hr, onId_same i f r h⟩

end Rows

namespace Db

variable {db : Db} {i : Nat} {f : DeviceRow → DeviceRow}

@[simp] theorem modify_rows (hf : ∀ r, (f r).SamePlace r) :
    (db.modify i f hf).rows = db.rows.map (deviceSchema.onId i f) := rfl

theorem modify_forall {P : DeviceRow → Prop} (hf : ∀ r, (f r).SamePlace r)
    (hrows : ∀ r ∈ db.rows, P r) (hstep : ∀ r, P r → P (f r)) :
    ∀ r' ∈ (db.modify i f hf).rows, P r' := by
  intro r' hr'
  rcases mem_map_onId hr' with ⟨hr, -⟩ | ⟨r, hr, -, rfl⟩
  · exact hrows r' hr
  · exact hstep r (hrows r hr)

theorem modify_place (hf : ∀ r, (f r).SamePlace r) {r' : DeviceRow}
    (h : r' ∈ (db.modify i f hf).rows) :
    ∃ r ∈ db.rows, r'.SamePlace r := by
  rcases mem_map_onId h with ⟨hr, -⟩ | ⟨r, hr, -, rfl⟩
  · exact ⟨r', hr, .refl r'⟩
  · exact ⟨r, hr, hf r⟩

theorem modify_slotHolder (hf : ∀ r, (f r).SamePlace r) (ip : String) (net : Option Nat) :
    (db.modify i f hf).slotHolder ip net = (db.slotHolder ip net).map (deviceSchema.onId i f) := by
  have hat : ∀ r, (deviceSchema.onId i f r).At ip net ↔ r.At ip net := by
    intro r
    unfold Schema.onId
    split
    · simp only [DeviceRow.At, (hf r).ipAddress, (hf r).networkId]
    · rfl
  simp only [slotHolder, Table.select, Db.modify, Table.modify_rows, List.find?_map,
    Function.comp_def, hat]

variable {db' : Db} {hf : ∀ r, (f r).id = r.id} {mk : Nat → DeviceRow}

theorem update_some (h : db.update i f hf = some db') :
    db.devices.Fits i f ∧ db'.rows = db.rows.map (deviceSchema.onId i f) := by
  obtain ⟨t, ht, rfl⟩ := Option.map_eq_some_iff.mp h
  exact Table.update_eq_some ht

theorem update_none (h : db.update i f hf = none) : ¬ db.devices.Fits i f :=
  Table.update_eq_none.mp (Option.map_eq_none_iff.mp h)

theorem insert_some {hmk : ∀ i, (mk i).id = i} (h : db.insert mk hmk = some db') :
    db.devices.Admits (mk db.devices.nextId) ∧ db'.rows = db.rows ++ [mk db.devices.nextId] ∧
      db'.devices.nextId = db.devices.nextId + 1 := by
  obtain ⟨t, ht, rfl⟩ := Option.map_eq_some_iff.mp h
  exact Table.insert_eq_some ht

theorem mem_delete {p : DeviceRow → Bool} {r : DeviceRow} : r ∈ (db.delete p).rows ↔
    r ∈ db.rows ∧ p r = false := by
  simp [Db.delete, rows]

end Db

variable {i now n : Nat} {r' r : DeviceRow} {db : Db} {w : IdentityWrite} {uuid : String}

/-! ## Parking -/

theorem parkHolder_cases (db : Db) (now i : Nat) (hi : i ≠ 0) :
    (db.devices.Fits i (parkRow now) ∧ (parkHolder db now i).2 = [] ∧
        (parkHolder db now i).1.rows = db.rows.map (deviceSchema.onId i (parkRow now))) ∨
      (¬ db.devices.Fits i (parkRow now) ∧ parkHolder db now i = (db, [.parkHolder])) := by
  unfold parkHolder
  rw [if_neg hi]
  cases hu : db.update i (parkRow now) (fun _ => rfl) with
  | some db' => exact .inl ⟨(Db.update_some hu).1, rfl, (Db.update_some hu).2⟩
  | none => exact .inr ⟨Db.update_none hu, rfl⟩

theorem parkHolder_fits (hi : i ≠ 0) (hfit : db.devices.Fits i (parkRow now)) :
    (parkHolder db now i).2 = [] ∧ (parkHolder db now i).1.rows =
      db.rows.map (deviceSchema.onId i (parkRow now)) := by
  rcases parkHolder_cases db now i hi with ⟨-, hok, hrows⟩ | ⟨hno, -⟩
  · exact ⟨hok, hrows⟩
  · exact absurd hfit hno

theorem parkHolder_mem (h : r' ∈ (parkHolder db now i).1.rows) :
    r' ∈ db.rows ∨
      ∃ r ∈ db.rows, r.id = i ∧ db.devices.Fits i (parkRow now) ∧ r' = parkRow now r := by
  by_cases hi : i = 0
  · subst hi
    exact .inl h
  · rcases parkHolder_cases db now i hi with ⟨hfit, -, hrows⟩ | ⟨-, heq⟩
    · rw [hrows] at h
      rcases mem_map_onId h with ⟨hr, -⟩ | ⟨r, hr, hid, rfl⟩
      · exact .inl hr
      · exact .inr ⟨r, hr, hid, hfit, rfl⟩
    · rw [heq] at h
      exact .inl h

theorem parkHolder_keep (hr : r ∈ db.rows) (h : r.id ≠ i) : r ∈ (parkHolder db now i).1.rows := by
  by_cases hi : i = 0
  · subst hi
    exact hr
  · rcases parkHolder_cases db now i hi with ⟨-, -, hrows⟩ | ⟨-, heq⟩
    · rw [hrows]
      exact mem_map_other hr h
    · rw [heq]
      exact hr

/-! ## Creation -/

variable {t : DeviceType}

/-- What a creation does, in terms of the rows. -/
theorem create_cases (db : Db) (now : Nat) (uuid : String) (w : IdentityWrite) :
    (∃ t, (createDeviceIdentity db now uuid w).refused = [] ∧
        (createDeviceIdentity db now uuid w).deviceId = some db.devices.nextId ∧
        (createDeviceIdentity db now uuid w).db.rows =
          db.rows ++ [newRow w now uuid t db.devices.nextId] ∧
        db.devices.Admits (newRow w now uuid t db.devices.nextId)) ∨
      ((createDeviceIdentity db now uuid w).db = db ∧
        (createDeviceIdentity db now uuid w).deviceId = none) := by
  unfold createDeviceIdentity
  split
  · exact .inr ⟨rfl, rfl⟩
  · next t _ =>
    cases hi : db.insert (newRow w now uuid t) (fun _ => rfl) with
    | some db' => exact .inl ⟨t, rfl, rfl, (Db.insert_some hi).2.1, (Db.insert_some hi).1⟩
    | none => exact .inr ⟨rfl, rfl⟩

theorem type_ne_empty {t : String} (h : (DeviceType.ofText t).isSome) : t ≠ "" := by
  rintro rfl
  exact absurd h (by decide)

/-- A typed creation stores its row when the indexes admit it and is refused otherwise. -/
theorem create_typed_cases (now : Nat) (uuid : String) (ht : DeviceType.ofText w.type = some t) :
    (db.devices.Admits (newRow w now uuid t db.devices.nextId) ∧
        (createDeviceIdentity db now uuid w).refused = [] ∧
        (createDeviceIdentity db now uuid w).db.rows =
          db.rows ++ [newRow w now uuid t db.devices.nextId]) ∨
      (¬ db.devices.Admits (newRow w now uuid t db.devices.nextId) ∧
        (createDeviceIdentity db now uuid w).refused = [.create] ∧
        (createDeviceIdentity db now uuid w).db = db) := by
  have hne : w.type ≠ "" := type_ne_empty (Option.isSome_iff_exists.mpr ⟨t, ht⟩)
  unfold createDeviceIdentity
  rw [if_neg hne, ht]
  simp only
  cases hi : db.insert (newRow w now uuid t) (fun _ => rfl) with
  | some db' => exact .inl ⟨(Db.insert_some hi).1, rfl, (Db.insert_some hi).2.1⟩
  | none => exact .inr ⟨Table.insert_eq_none.mp (Option.map_eq_none_iff.mp hi), rfl, rfl⟩

/-- A typed creation into a free slot succeeds, one into an occupied slot is refused. -/
theorem create_free (htype : (DeviceType.ofText w.type).isSome)
    (hslot : ∀ n, w.networkId = some n → ∀ r ∈ db.rows, ¬ r.At w.ip (some n))
    (huuid : ∀ r ∈ db.rows, r.deviceUuid ≠ uuid) :
    (createDeviceIdentity db now uuid w).refused = [] ∧
      ∃ t, DeviceType.ofText w.type = some t ∧ (createDeviceIdentity db now uuid w).db.rows =
        db.rows ++ [newRow w now uuid t db.devices.nextId] := by
  obtain ⟨t, ht⟩ := Option.isSome_iff_exists.mp htype
  rcases create_typed_cases now uuid ht with ⟨-, hok, hrows⟩ | ⟨hno, -⟩
  · exact ⟨hok, t, ht, hrows⟩
  · refine absurd (fun r hr => ?_) hno
    rw [clash_eq_false]
    exact ⟨fun n hn hrn hip => hslot n hn r hr ⟨hip.symm, hrn⟩, (huuid r hr).symm⟩

theorem create_occupied (htype : (DeviceType.ofText w.type).isSome) (hnet : w.networkId = some n)
    (hr : r ∈ db.rows) (hat : r.At w.ip (some n)) :
    (createDeviceIdentity db now uuid w).refused = [.create] ∧
      (createDeviceIdentity db now uuid w).db = db := by
  obtain ⟨t, ht⟩ := Option.isSome_iff_exists.mp htype
  rcases create_typed_cases now uuid ht with ⟨hadmits, -⟩ | ⟨-, hrefused⟩
  · have hc := clash_eq_false.mp (hadmits r hr)
    exact absurd hat.1.symm (hc.1 n hnet hat.2)
  · exact hrefused

/-! ## Updates of a resolved row -/

/-- The outcome of a write: nothing refused, and these rows. -/
def Applied.Writes (a : Applied) (rows : List DeviceRow) : Prop := a.refused = [] ∧ a.db.rows = rows

theorem map_onId_refresh (rows : List DeviceRow) (i now : Nat) (w : IdentityWrite)
    (f : DeviceRow → DeviceRow) :
    (rows.map (deviceSchema.onId i (refresh w now))).map (deviceSchema.onId i f) =
      rows.map (deviceSchema.onId i (f ∘ refresh w now)) :=
  Table.map_onId_comp rows i f (refresh w now) fun r => (refresh_same w now r).id

/-- A normal re-scan. -/
theorem update_stamp (db : Db) (now : Nat) (w : IdentityWrite) (hrep : w.replacedId = 0)
    (hto : w.takeOver = false) (hroam : w.roamed = false) :
    (updateDeviceIdentity db now w).Writes
      (db.rows.map (deviceSchema.onId w.targetId (stamp w now ∘ refresh w now))) := by
  unfold updateDeviceIdentity
  rw [if_neg (by simp [hrep, hto]), if_neg (by simp [hroam])]
  exact ⟨rfl, map_onId_refresh db.rows w.targetId now w (stamp w now)⟩

/-- A take-over. -/
theorem update_takeOver (db : Db) (now : Nat) (w : IdentityWrite) (hrep : w.replacedId = 0)
    (hto : w.takeOver = true) :
    (updateDeviceIdentity db now w).Writes
      (db.rows.map (deviceSchema.onId w.targetId (forceMac w now ∘ refresh w now))) := by
  unfold updateDeviceIdentity
  rw [if_pos (by simp [hto])]
  refine ⟨rfl, ?_⟩
  simp only [if_neg (show ¬ w.replacedId ≠ 0 by simpa using hrep), Db.modify_rows, map_onId_refresh]

/-- A replacement. -/
theorem update_replace (db : Db) (now : Nat) (w : IdentityWrite) (hrep : w.replacedId ≠ 0) :
    (updateDeviceIdentity db now w).Writes
      ((db.rows.map (deviceSchema.onId w.targetId (forceMac w now ∘ refresh w now))).map
        (deviceSchema.onId w.replacedId (supersede now))) := by
  unfold updateDeviceIdentity
  rw [if_pos (.inl hrep)]
  refine ⟨rfl, ?_⟩
  simp only [if_pos hrep, Db.modify_rows, map_onId_refresh]

/-- A roam moves the row, or evicts and retries, or is left with the eviction. -/
theorem roamDevice_cases (db : Db) (now : Nat) (w : IdentityWrite) :
    (db.devices.Fits w.targetId (relocate w now) ∧ (roamDevice db now w).2 = [] ∧
        (roamDevice db now w).1.rows =
          db.rows.map (deviceSchema.onId w.targetId (relocate w now))) ∨
      (¬ db.devices.Fits w.targetId (relocate w now) ∧
        ((roamDevice db now w).1.rows = (db.delete (isEvictable w)).rows.map
            (deviceSchema.onId w.targetId (relocateRetry w now)) ∨
          (roamDevice db now w).1 = db.delete (isEvictable w))) := by
  unfold roamDevice
  cases hu : db.update w.targetId (relocate w now) (fun _ => rfl) with
  | some db' => exact .inl ⟨(Db.update_some hu).1, rfl, (Db.update_some hu).2⟩
  | none =>
    refine .inr ⟨Db.update_none hu, ?_⟩
    simp only
    split
    · next hu' => exact .inl (Db.update_some hu').2
    · exact .inr rfl

/-- A roam that the indexes admit. -/
theorem update_roam_fits (hrep : w.replacedId = 0) (hto : w.takeOver = false)
    (hroam : w.roamed = true)
    (hfits : db.devices.Fits w.targetId (relocate w now ∘ refresh w now)) :
    (updateDeviceIdentity db now w).Writes
      (db.rows.map (deviceSchema.onId w.targetId (relocate w now ∘ refresh w now))) := by
  unfold updateDeviceIdentity
  rw [if_neg (by simp [hrep, hto]), if_pos hroam]
  rcases roamDevice_cases (db.modify w.targetId (refresh w now) (refresh_samePlace w now)) now w
    with ⟨-, hok, hrows⟩ | ⟨hno, -⟩
  · refine ⟨hok, hrows.trans ?_⟩
    rw [Db.modify_rows, map_onId_refresh]
  · refine absurd (fun r hr hid s hs hsid => ?_) hno
    rcases mem_map_onId hr with ⟨-, hne⟩ | ⟨t, ht, htid, rfl⟩
    · exact absurd hid hne
    · rcases mem_map_onId hs with ⟨hs, -⟩ | ⟨u, -, huid, rfl⟩
      · exact hfits t ht htid s hs hsid
      · exact absurd ((refresh_same w now u).id.trans huid) hsid

/-- A roam into a slot that no other row holds. -/
theorem update_roam_free (hrep : w.replacedId = 0) (hto : w.takeOver = false)
    (hroam : w.roamed = true)
    (hfree : ∀ t ∈ db.rows, t.id = w.targetId → ∀ n, (relocate w now t).networkId = some n →
      ∀ r ∈ db.rows, r.id ≠ w.targetId → ¬ r.At w.ip (some n)) :
    (updateDeviceIdentity db now w).Writes
      (db.rows.map (deviceSchema.onId w.targetId (relocate w now ∘ refresh w now))) := by
  refine update_roam_fits hrep hto hroam fun t ht hid s hs hsid => ?_
  have hne : t.id ≠ s.id := fun e => hsid (e.symm.trans hid)
  have hold := clash_eq_false.mp (db.devices.no_clash ht hs hne)
  have hsame := refresh_same w now t
  refine clash_eq_false.mpr
    ⟨fun n hn hsn hip => ?_, by rw [← hsame.deviceUuid] at hold; exact hold.2⟩
  refine hfree t ht hid n ?_ s hs hsid ⟨hip.symm, hsn⟩
  rw [← hn, Function.comp_apply, relocate_networkId, relocate_networkId, hsame.networkId]

theorem relocate_network {k : Nat} (hnet : w.networkId = some n)
    (h : (relocate w now r).networkId = some k) : n = k := by
  simpa [hnet] using h

theorem roamDevice_mem (h : r' ∈ (roamDevice db now w).1.rows) :
    (r' ∈ db.rows) ∨ ∃ r ∈ db.rows, r.id = w.targetId ∧
      (r' = relocate w now r ∨ r' = relocateRetry w now r) := by
  rcases roamDevice_cases db now w with ⟨-, -, hrows⟩ | ⟨-, hrows | hrows⟩
  · rw [hrows] at h
    rcases mem_map_onId h with ⟨hr, -⟩ | ⟨r, hr, hid, rfl⟩
    · exact .inl hr
    · exact .inr ⟨r, hr, hid, .inl rfl⟩
  · rw [hrows] at h
    rcases mem_map_onId h with ⟨hr, -⟩ | ⟨r, hr, hid, rfl⟩
    · exact .inl (Db.mem_delete.mp hr).1
    · exact .inr ⟨r, (Db.mem_delete.mp hr).1, hid, .inr rfl⟩
  · rw [hrows] at h
    exact .inl (Db.mem_delete.mp h).1

/-- The last statement on the target row, after the refresh. -/
inductive Finish (w : IdentityWrite) (now : Nat) (s : DeviceRow) : DeviceRow → Prop
  | forced (h : w.replacedId ≠ 0 ∨ w.takeOver = true) : Finish w now s (forceMac w now s)
  | moved (hrep : w.replacedId = 0) (hto : w.takeOver = false) (h : w.roamed = true) :
    Finish w now s (relocate w now s)
  | retried (hrep : w.replacedId = 0) (hto : w.takeOver = false) (h : w.roamed = true) :
    Finish w now s (relocateRetry w now s)
  | refused (h : w.roamed = true) : Finish w now s s
  | stamped (hrep : w.replacedId = 0) (hto : w.takeOver = false) : Finish w now s (stamp w now s)

/-- Where a row of the updated table comes from. -/
inductive Updated (db : Db) (now : Nat) (w : IdentityWrite) : DeviceRow → Prop
  | other {s : DeviceRow} (hs : s ∈ db.rows) (hid : s.id ≠ w.targetId)
    (hrep : w.replacedId ≠ 0 → s.id ≠ w.replacedId) : Updated db now w s
  | target {s r' : DeviceRow} (hs : s ∈ db.rows) (hid : s.id = w.targetId)
    (hrep : w.replacedId ≠ 0 → s.id ≠ w.replacedId) (h : Finish w now (refresh w now s) r') :
    Updated db now w r'
  | superseded {s x : DeviceRow} (hs : s ∈ db.rows) (hid : s.id = w.replacedId)
    (h : (x = s ∧ s.id ≠ w.targetId) ∨
      (s.id = w.targetId ∧ Finish w now (refresh w now s) x)) : Updated db now w (supersede now x)

theorem update_mem (h : r' ∈ (updateDeviceIdentity db now w).db.rows) : Updated db now w r' := by
  by_cases hrep : w.replacedId = 0
  · have hnone : ∀ s : DeviceRow, w.replacedId ≠ 0 → s.id ≠ w.replacedId :=
      fun _ hne => absurd hrep hne
    -- a statement about the target leaves the other rows alone
    have edited : ∀ {f : DeviceRow → DeviceRow}, (∀ s, Finish w now (refresh w now s) (f s)) →
        r' ∈ db.rows.map (deviceSchema.onId w.targetId f) → Updated db now w r' := by
      intro f hf h
      rcases mem_map_onId h with ⟨hr, hid⟩ | ⟨s, hs, hid, rfl⟩
      · exact .other hr hid (hnone r')
      · exact .target hs hid (hnone s) (hf s)
    cases hto : w.takeOver with
    | true => exact edited (fun _ => .forced (.inr hto)) ((update_takeOver db now w hrep hto).2 ▸ h)
    | false =>
      cases hroam : w.roamed with
      | true =>
        unfold updateDeviceIdentity at h
        rw [if_neg (by simp [hrep, hto]), if_pos hroam] at h
        rcases roamDevice_mem h with hr | ⟨x, hx, hid, hcase⟩
        · exact edited (fun _ => .refused hroam) hr
        · rcases mem_map_onId hx with ⟨-, hne⟩ | ⟨s, hs, hsid, rfl⟩
          · exact absurd hid hne
          · rcases hcase with rfl | rfl
            · exact .target hs hsid (hnone s) (.moved hrep hto hroam)
            · exact .target hs hsid (hnone s) (.retried hrep hto hroam)
      | false =>
        exact edited (fun _ => .stamped hrep hto) ((update_stamp db now w hrep hto hroam).2 ▸ h)
  · have hid' : ∀ s : DeviceRow, (forceMac w now (refresh w now s)).id = s.id :=
      fun s => (refresh_same w now s).id
    rw [(update_replace db now w hrep).2] at h
    rcases mem_map_onId h with ⟨hx, hne⟩ | ⟨x, hx, hsup, rfl⟩
    · rcases mem_map_onId hx with ⟨hr, hid⟩ | ⟨s, hs, hid, rfl⟩
      · exact .other hr hid fun _ => hne
      · exact .target hs hid (fun _ he => hne ((hid' s).trans he)) (.forced (.inl hrep))
    · rcases mem_map_onId hx with ⟨hr, hid⟩ | ⟨s, hs, hid, rfl⟩
      · exact .superseded hr hsup (.inl ⟨rfl, hid⟩)
      · exact .superseded hs ((hid' s).symm.trans hsup) (.inr ⟨hid, .forced (.inl hrep)⟩)

theorem Finish.id_eq {s : DeviceRow} (h : Finish w now s r') : r'.id = s.id := by
  cases h <;> rfl

/-- What every row edit of an update preserves, the update preserves. -/
theorem update_forall {P : DeviceRow → Prop} (hrows : ∀ r ∈ db.rows, P r)
    (hrefresh : ∀ r, P r → P (refresh w now r)) (hsupersede : ∀ r, P r → P (supersede now r))
    (hfinish : ∀ r r', Finish w now r r' → P r → P r') :
    ∀ r' ∈ (updateDeviceIdentity db now w).db.rows, P r' := by
  intro r' hr'
  have htarget : ∀ s ∈ db.rows, ∀ x, Finish w now (refresh w now s) x → P x :=
    fun s hs x hx => hfinish _ x hx (hrefresh s (hrows s hs))
  cases update_mem hr' with
  | other hs => exact hrows _ hs
  | target hs _ _ h => exact htarget _ hs _ h
  | superseded hs _ h =>
    rcases h with ⟨rfl, -⟩ | ⟨-, h⟩
    · exact hsupersede _ (hrows _ hs)
    · exact hsupersede _ (htarget _ hs _ h)

theorem update_place (hroam : w.roamed = true → w.replacedId ≠ 0 ∨ w.takeOver = true)
    (h : r' ∈ (updateDeviceIdentity db now w).db.rows) : ∃ r ∈ db.rows, r'.SamePlace r := by
  have still : ¬ (w.replacedId = 0 ∧ w.takeOver = false ∧ w.roamed = true) := by
    rintro ⟨hrep, hto, hr⟩
    simpa [hrep, hto] using hroam hr
  refine update_forall (P := fun x => ∃ r ∈ db.rows, x.SamePlace r) (fun r hr => ⟨r, hr, .refl r⟩)
    ?_ ?_ ?_ r' h
  · rintro r ⟨s, hs, hplace⟩
    exact ⟨s, hs, (refresh_samePlace w now r).trans hplace⟩
  · rintro r ⟨s, hs, hplace⟩
    exact ⟨s, hs, (supersede_samePlace now r).trans hplace⟩
  · rintro r x hx ⟨s, hs, hplace⟩
    refine ⟨s, hs, ?_⟩
    cases hx with
    | forced => exact (forceMac_samePlace w now r).trans hplace
    | moved hrep hto hr => exact absurd ⟨hrep, hto, hr⟩ still
    | retried hrep hto hr => exact absurd ⟨hrep, hto, hr⟩ still
    | refused => exact hplace
    | stamped => exact (stamp_samePlace w now r).trans hplace

theorem update_ids (h : r' ∈ (updateDeviceIdentity db now w).db.rows) :
    ∃ r ∈ db.rows, r.id = r'.id := by
  refine update_forall (P := fun r' => ∃ r ∈ db.rows, r.id = r'.id) (fun r hr => ⟨r, hr, rfl⟩) ?_
    (fun _ h => h) (fun r x hx h => by rwa [hx.id_eq]) r' h
  rintro r ⟨s, hs, hid⟩
  exact ⟨s, hs, hid.trans (refresh_same w now r).id.symm⟩

variable (hr : r ∈ db.rows)

include hr

theorem roamDevice_keep (hid : r.id ≠ w.targetId) (hev : isEvictable w r = false) :
    r ∈ (roamDevice db now w).1.rows := by
  have hdel : r ∈ (db.delete (isEvictable w)).rows := Db.mem_delete.mpr ⟨hr, hev⟩
  rcases roamDevice_cases db now w with ⟨-, -, hrows⟩ | ⟨-, hrows | hrows⟩
  · exact hrows ▸ mem_map_other hr hid
  · exact hrows ▸ mem_map_other hdel hid
  · exact hrows ▸ hdel

/-- Rows other than the target, the superseded row and evicted placeholders are left alone. -/
theorem update_keep (hid : r.id ≠ w.targetId) (hrep : r.id ≠ w.replacedId)
    (hev : isEvictable w r = false) : r ∈ (updateDeviceIdentity db now w).db.rows := by
  have hfresh := mem_map_other (f := refresh w now) hr hid
  unfold updateDeviceIdentity
  split
  · have hforce := mem_map_other (f := forceMac w now) hfresh hid
    split
    · exact mem_map_other hforce hrep
    · exact hforce
  · split
    · exact roamDevice_keep hfresh hid hev
    · exact mem_map_other hfresh hid

theorem create_keep : r ∈ (createDeviceIdentity db now uuid w).db.rows := by
  rcases create_cases db now uuid w with ⟨t, -, -, hrows, -⟩ | ⟨hdb, -⟩
  · rw [hrows]
    exact List.mem_append_left _ hr
  · rw [hdb]
    exact hr

theorem apply_keep (hpark : r.id ≠ w.parkHolderId)
    (hold : w.isNew = false → r.id ≠ w.targetId ∧ r.id ≠ w.replacedId ∧ isEvictable w r = false) :
    r ∈ (applyDeviceIdentity db now uuid w).db.rows := by
  have hkept : r ∈ (parkHolder db now w.parkHolderId).1.rows := parkHolder_keep hr hpark
  unfold applyDeviceIdentity
  split
  · exact create_keep hkept
  · next hnew =>
    obtain ⟨h₁, h₂, h₃⟩ := hold (by simpa using hnew)
    exact update_keep hkept h₁ h₂ h₃

end Steward
