import Steward.Documents

/-!
# What the bridge commits

The rows after a report, one equation for each kind of resolution. The equations
rest on the statements' effects; later modules use only these.
-/

namespace Steward

open JsonValue RowTable

variable {db : Db} {now : Nat} {uuid : String} {w : IdentityWrite}

theorem apply_old (hold : w.isNew = false) :
    (applyDeviceIdentity db now uuid w).db =
      (updateDeviceIdentity (parkHolder db now w.parkHolderId).1 now w).db ∧
      (applyDeviceIdentity db now uuid w).refused = (parkHolder db now w.parkHolderId).2 ++
        (updateDeviceIdentity (parkHolder db now w.parkHolderId).1 now w).refused := by
  simp only [applyDeviceIdentity, hold, Bool.false_eq_true, if_false, and_self]

/-- The outcome of a commit: nothing refused, and these rows. -/
def Bridged.Writes (b : Bridged) (rows : List DeviceRow) : Prop := b.refused = [] ∧ b.db.rows = rows

/-- Edit one row by a status statement after the refresh. -/
def settle (i now : Nat) (w : IdentityWrite) (f : DeviceRow → DeviceRow) : DeviceRow → DeviceRow :=
  deviceSchema.onId i (f ∘ refresh w now)

section Shapes

variable (db : Db) (now : Nat) (uuid : String) (rep : HostReport) (van : Vantage)

/-- Edit the target by a status statement after the refresh from the bridge's write. -/
def land (res : IdentityResolution) (f : IdentityWrite → Nat → DeviceRow → DeviceRow) :
    DeviceRow → DeviceRow :=
  settle res.targetId now (bridgeWrite db rep van res) (f (bridgeWrite db rep van res) now)

variable {res : IdentityResolution} {h : DeviceRow} {n : Nat}

theorem commit_create (hnew : res.isNew = true) :
    (bridgeCommit db now uuid rep van res).refused =
      (createDeviceIdentity db now uuid (createWrite rep van.net)).refused ∧
      (bridgeCommit db now uuid rep van res).db.rows =
        (createDeviceIdentity db now uuid (createWrite rep van.net)).db.rows := by
  rw [bridgeCommit_refused, bridgeCommit_rows, bridgeWrite_new hnew]
  unfold applyDeviceIdentity
  exact ⟨rfl, rfl⟩

/-- A commit to a resolved row is its update behind the park. -/
theorem commit_old {rows : List DeviceRow} (hold : res.isNew = false)
    (hpark : (parkHolder db now res.parkHolderId).2 = [])
    (h : (updateDeviceIdentity (parkHolder db now res.parkHolderId).1 now
      (updateWrite rep van.net van.batchAliases res (db.devices.get? res.targetId))).Writes rows) :
    (bridgeCommit db now uuid rep van res).Writes rows := by
  unfold Bridged.Writes
  rw [bridgeCommit_refused, bridgeCommit_rows, bridgeWrite_old hold, (apply_old rfl).1,
    (apply_old rfl).2, updateWrite_parkHolderId, hpark]
  exact h

theorem commit_plain (i : Nat) : (bridgeCommit db now uuid rep van { targetId := i }).Writes
    (db.rows.map (land db now rep van { targetId := i } stamp)) := by
  rw [land, bridgeWrite_old rfl]
  exact commit_old db now uuid rep van rfl rfl (update_stamp db now _ rfl rfl (by simp))

theorem commit_takeOver (i : Nat) :
    (bridgeCommit db now uuid rep van { targetId := i, takeOver := true }).Writes
      (db.rows.map (land db now rep van { targetId := i, takeOver := true } forceMac)) := by
  rw [land, bridgeWrite_old rfl]
  exact commit_old db now uuid rep van rfl rfl (update_takeOver db now _ rfl rfl)

theorem commit_replace (i j : Nat) (hj : j ≠ 0) :
    (bridgeCommit db now uuid rep van { targetId := i, replacedId := j }).Writes
      ((db.rows.map (land db now rep van { targetId := i, replacedId := j } forceMac)).map
        (deviceSchema.onId j (supersede now))) := by
  rw [land, bridgeWrite_old rfl]
  exact commit_old db now uuid rep van rfl rfl (update_replace db now _ hj)

variable {j i : Nat}

/-- The row that a replacement writes to is another one than it supersedes. -/
theorem commit_replace_mem (hh : h ∈ db.rows) (hne : h.id ≠ j) (hj : j ≠ 0) :
    forceMac (bridgeWrite db rep van { targetId := h.id, replacedId := j }) now
        (refresh (bridgeWrite db rep van { targetId := h.id, replacedId := j }) now h) ∈
      (bridgeCommit db now uuid rep van { targetId := h.id, replacedId := j }).db.rows := by
  rw [(commit_replace db now uuid rep van h.id j hj).2]
  refine mem_map_other (mem_map_same hh rfl) ?_
  rwa [(forceMac_samePlace _ now _).id, (refresh_same _ now h).id]

/-- In a known network no other row holds the slot. -/
theorem slot_free_of_net {rows : List DeviceRow} {ip : String} (hnet : van.net = some n)
    (hfree : ∀ r ∈ rows, r.id ≠ i → ¬ r.At ip (some n)) : ∀ t ∈ rows, t.id = i →
      ∀ k, (van.net <|> t.networkId) = some k → ∀ r ∈ rows, r.id ≠ i → ¬ r.At ip (some k) := by
  intro t _ _ k hk
  obtain rfl : n = k := by simpa [hnet] using hk
  exact hfree

/-- A roam of row `i` that the batch does not veto, into a slot that no other row holds, once a
holder is parked. -/
theorem commit_roam
    (htwin : twinAlive { targetId := i, roamed := true, parkHolderId := j } (db.devices.get? i)
      van.batchAliases = false) (hok : (parkHolder db now j).2 = [])
    (hfree : ∀ t ∈ (parkHolder db now j).1.rows, t.id = i →
      ∀ n, (van.net <|> t.networkId) = some n →
        ∀ r ∈ (parkHolder db now j).1.rows, r.id ≠ i → ¬ r.At rep.ip (some n)) :
    (bridgeCommit db now uuid rep van { targetId := i, roamed := true, parkHolderId := j }).Writes
      ((parkHolder db now j).1.rows.map
        (land db now rep van { targetId := i, roamed := true, parkHolderId := j } relocate)) := by
  rw [land, bridgeWrite_old rfl]
  refine commit_old db now uuid rep van rfl hok ?_
  refine update_roam_free rfl rfl (by simp [htwin]) fun t ht hid k hk r hr hne => ?_
  rw [updateWrite_ip]
  refine hfree t ht hid k ?_ r hr hne
  rw [← hk, relocate_networkId, updateWrite_networkId]
  cases van.net <;> rfl

/-- A roam that the batch vetoes is a normal re-scan; a holder is parked all the same. -/
theorem commit_twin
    (htwin : twinAlive { targetId := i, roamed := true, parkHolderId := j } (db.devices.get? i)
      van.batchAliases = true) (hok : (parkHolder db now j).2 = []) :
    (bridgeCommit db now uuid rep van { targetId := i, roamed := true, parkHolderId := j }).Writes
      ((parkHolder db now j).1.rows.map
        (land db now rep van { targetId := i, roamed := true, parkHolderId := j } stamp)) := by
  rw [land, bridgeWrite_old rfl]
  exact commit_old db now uuid rep van rfl hok (update_stamp _ now _ rfl rfl (by simp [htwin]))

theorem commit_park_refused (hj : j ≠ 0) (hfit : ¬ db.devices.Fits j (parkRow now)) :
    (bridgeCommit db now uuid rep van
      { targetId := i, roamed := true, parkHolderId := j }).refused ≠ [] := by
  rw [bridgeCommit_refused, bridgeWrite_old rfl, (apply_old rfl).2, updateWrite_parkHolderId]
  rcases parkHolder_cases db now j hj with ⟨hyes, -⟩ | ⟨-, hno⟩
  · exact absurd hyes hfit
  · rw [hno]
    simp

end Shapes

theorem updated_origin {rep : HostReport} {van : Vantage} {res : IdentityResolution}
    {r' : DeviceRow} (hold : res.isNew = false)
    (h : r' ∈ (bridgeCommit db now uuid rep van res).db.rows) : ∃ r ∈ db.rows, r.id = r'.id := by
  rw [bridgeCommit_rows, bridgeWrite_old hold, (apply_old rfl).1] at h
  obtain ⟨p, hp, hid⟩ := update_ids h
  rcases parkHolder_mem hp with hp | ⟨q, hq, -, -, rfl⟩
  · exact ⟨p, hp, hid⟩
  · exact ⟨q, hq, hid⟩

/-- Where the rows of a bridge call that creates come from. -/
theorem created_origin {rep : HostReport} {van : Vantage} {res : IdentityResolution}
    {r' : DeviceRow} (hnew : res.isNew = true)
    (h : r' ∈ (bridgeCommit db now uuid rep van res).db.rows) :
    r' ∈ db.rows ∨
      (db.devices.Admits r' ∧ r'.id = db.devices.nextId ∧ r'.macAddress = reportMAC rep ∧
      r'.At rep.ip van.net) := by
  rw [(commit_create db now uuid rep van hnew).2] at h
  rcases create_cases db now uuid (createWrite rep van.net) with
    ⟨t, -, -, hrows, hadmits⟩ | ⟨hsame, -⟩
  · rw [hrows] at h
    rcases List.mem_append.mp h with h | h
    · exact .inl h
    · obtain rfl := List.mem_singleton.mp h
      exact .inr ⟨hadmits, rfl, by rw [newRow_macAddress, createWrite_mac], rfl, rfl⟩
  · rw [hsame] at h
    exact .inl h

/-! ## The settled row -/

section Settled

variable {now : Nat} {w : IdentityWrite} {r : DeviceRow}

theorem stamp_refresh_mac :
    (stamp w now (refresh w now r)).macAddress =
      if w.mac ≠ "" ∧ r.macAddress = "" then w.mac else r.macAddress := by
  rw [stamp_macAddress, (refresh_same w now r).macAddress]

theorem stamp_refresh_at {ip : String} {net : Option Nat} :
    (stamp w now (refresh w now r)).At ip net ↔ r.At ip net := by
  rw [(stamp_samePlace w now _).at_iff, (refresh_samePlace w now r).at_iff]

theorem stamp_refresh_alias (hw : FromReport w) (mac : String) :
    macIsHolderAlias (stamp w now (refresh w now r)) mac = macIsHolderAlias r mac := by
  rw [← macIsHolderAlias_refresh hw now r mac]
  exact macIsHolderAlias_congr (by rw [stamp_scanAttributes]) mac

theorem relocate_at {n : Nat} (hnet : w.networkId = some n) :
    (relocate w now r).At w.ip (some n) := by
  simp [DeviceRow.At, hnet]

theorem relocate_refresh_id : (relocate w now (refresh w now r)).id = r.id := by
  rw [relocate_id, (refresh_same w now r).id]

theorem relocate_refresh_mac :
    (relocate w now (refresh w now r)).macAddress =
      if w.mac ≠ "" ∧ r.macAddress = "" then w.mac else r.macAddress := by
  rw [relocate_macAddress, (refresh_same w now r).macAddress]

end Settled

end Steward
