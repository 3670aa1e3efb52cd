import Steward.Parking

/-!
# The memoised owner of an address

`resolveDeviceUUID` stamps services, evidence and certificates with the uuid of
the device at an address, and remembers every answer for the lifetime of the
repository. Identity writes move addresses between rows and leave that memory
alone.
-/

namespace Steward

open RowTable List

structure SQLiteRepository where
  db : Db
  networkID : Option Nat
  uuidCache : KeyMap String

variable (db : Db) (networkID : Option Nat)

/-- A repository that has just been opened on a store. -/
def SQLiteRepository.opened : SQLiteRepository :=
  ⟨db, networkID, KeyMap.empty⟩

def Db.rowsAt (db : Db) (ip : String) : List DeviceRow := db.rows.filter fun r => r.ipAddress = ip

variable (ip : String)

/-- The row whose uuid `resolveDeviceUUID` reads: the one in the repository's network, else any at
the address; without a network, one that has none or the lowest at the address. -/
def uuidRow : Option DeviceRow :=
  let rows := db.rowsAt ip
  match networkID with
  | some n => (rows.find? fun r => r.networkId = some n).or rows.head?
  | none =>
    rows.find? fun r => r.networkId = none ∨ r.networkId = (rows.filterMap DeviceRow.networkId).min?

def deviceUuidAt : Option String :=
  (uuidRow db networkID ip).map DeviceRow.deviceUuid

variable (repo : SQLiteRepository)

/-- `resolveDeviceUUID`; no answer is the error of a lookup that finds no row. -/
def SQLiteRepository.resolveDeviceUUID :
    Option String × SQLiteRepository :=
  let found := Memo.fetch (deviceUuidAt repo.db repo.networkID) repo.uuidCache ip
  (found.1, { repo with uuidCache := found.2 })

/-! ## What an address looks like to the lookup -/

/-- Network and uuid of the rows at an address. -/
def Db.placesAt (db : Db) (ip : String) : List (Option Nat × String) :=
  (db.rowsAt ip).map fun r => (r.networkId, r.deviceUuid)

theorem deviceUuidAt_places :
    deviceUuidAt db networkID ip =
      match networkID with
      | some n =>
        (((db.placesAt ip).find? fun p => p.1 = some n).or (db.placesAt ip).head?).map Prod.snd
      | none => ((db.placesAt ip).find? fun p =>
          p.1 = none ∨ p.1 = ((db.placesAt ip).filterMap Prod.fst).min?).map Prod.snd := by
  unfold deviceUuidAt uuidRow Db.placesAt
  cases networkID with
  | some n =>
    simp only [find?_map, head?_map, Function.comp_def, Option.map_or, Option.map_map]
  | none =>
    simp only [find?_map, filterMap_map, Function.comp_def, Option.map_map]

variable {db' : Db}

section Places

variable {db db' : Db} {ip : String} {i : Nat} {f : DeviceRow → DeviceRow}

/-- Edits that leave the place of a row alone, or happen elsewhere, are not seen at the address. -/
theorem placesAt_onId (hrows : db'.rows = db.rows.map (deviceSchema.onId i f))
    (h : ∀ r ∈ db.rows, r.id = i → (f r).SamePlace r ∨ (r.ipAddress ≠ ip ∧ (f r).ipAddress ≠ ip)) :
    db'.placesAt ip = db.placesAt ip := by
  unfold Db.placesAt Db.rowsAt
  rw [hrows]
  generalize db.rows = rows at h
  induction rows with
  | nil => rfl
  | cons r rest ih =>
    have hrest := ih fun s hs => h s (mem_cons_of_mem r hs)
    rw [map_cons, filter_cons, filter_cons]
    by_cases hid : r.id = i
    · rw [onId_same i f r hid]
      rcases h r (by simp) hid with hsame | ⟨hold, hnew⟩
      · rw [hsame.ipAddress]
        split
        · simp only [map_cons, hsame.networkId, hsame.deviceUuid, hrest]
        · exact hrest
      · simp only [hold, hnew, decide_false, Bool.false_eq_true, if_false, hrest]
    · rw [onId_other i f r hid]
      split
      · simp only [map_cons, hrest]
      · exact hrest

theorem placesAt_modify (hf : ∀ r, (f r).SamePlace r) :
    (db.modify i f hf).placesAt ip = db.placesAt ip :=
  placesAt_onId (Db.modify_rows hf) fun r _ _ => .inl (hf r)

theorem placesAt_delete {p : DeviceRow → Bool}
    (hp : ∀ r ∈ db.rows, r.ipAddress = ip → p r = false) :
    (db.delete p).placesAt ip = db.placesAt ip := by
  have hrows : (db.delete p).rows = db.rows.filter fun r => !p r := rfl
  have hsame : (db.delete p).rowsAt ip = db.rowsAt ip := by
    unfold Db.rowsAt
    rw [hrows, filter_filter]
    refine filter_congr fun r hr => ?_
    by_cases hip : r.ipAddress = ip
    · simp [hip, hp r hr hip]
    · simp [hip]
  unfold Db.placesAt
  rw [hsame]

end Places

/-! ## Writes that stay away from an address -/

/-- The write may bring a row to the address or take one away from it: a creation there, a roam
from it or to it, or the parking of its holder. -/
def IdentityWrite.Moves (w : IdentityWrite) (db : Db) (ip : String) : Prop :=
  (w.isNew = true ∧ w.ip = ip) ∨
    ((w.isNew = false ∧ w.roamed = true ∧ w.replacedId = 0 ∧ w.takeOver = false) ∧
      (w.ip = ip ∨ ∃ r ∈ db.rows, r.id = w.targetId ∧ r.ipAddress = ip)) ∨
    (w.parkHolderId ≠ 0 ∧ ∃ r ∈ db.rows, r.id = w.parkHolderId ∧
      (r.ipAddress = ip ∨ parkAddress r.id = ip))

instance (w : IdentityWrite) (db : Db) (ip : String) : Decidable (w.Moves db ip) :=
  inferInstanceAs (Decidable (_ ∨ (_ ∧ (_ ∨ ∃ r ∈ db.rows, _ ∧ _)) ∨ (_ ∧ ∃ r ∈ db.rows, _ ∧ _)))

section Away

variable {db : Db} {now : Nat} {uuid ip : String} {w : IdentityWrite}

theorem placesAt_parkHolder {i : Nat}
    (h : i ≠ 0 → ∀ r ∈ db.rows, r.id = i → r.ipAddress ≠ ip ∧ parkAddress r.id ≠ ip) :
    (parkHolder db now i).1.placesAt ip = db.placesAt ip := by
  by_cases hi : i = 0
  · rw [hi]
    rfl
  · rcases parkHolder_cases db now i hi with ⟨-, -, hrows⟩ | ⟨-, heq⟩
    · exact placesAt_onId hrows fun r hr hid => .inr (h hi r hr hid)
    · rw [heq]

theorem placesAt_create (h : w.ip ≠ ip) : (createDeviceIdentity db now uuid w).db.placesAt ip =
    db.placesAt ip := by
  unfold createDeviceIdentity
  split
  · rfl
  · next t _ =>
    cases hi : db.insert (newRow w now uuid t) (fun _ => rfl) with
    | none => rfl
    | some db' => simp [Db.placesAt, Db.rowsAt, (Db.insert_some hi).2.1, newRow, h]

theorem placesAt_roam (h : w.ip ≠ ip)
    (htarget : ∀ r ∈ db.rows, r.id = w.targetId → r.ipAddress ≠ ip) :
    (roamDevice db now w).1.placesAt ip = db.placesAt ip := by
  have hevict : (db.delete (isEvictable w)).placesAt ip = db.placesAt ip :=
    placesAt_delete fun r _ hip => evictable_at fun hat => h (hat.1.symm.trans hip)
  rcases roamDevice_cases db now w with ⟨-, -, hrows⟩ | ⟨-, hrows | hrows⟩
  · exact placesAt_onId hrows fun r hr hid => .inr ⟨htarget r hr hid, h⟩
  · rw [← hevict]
    exact placesAt_onId hrows fun r hr hid => .inr ⟨htarget r (Db.mem_delete.mp hr).1 hid, h⟩
  · rw [hrows, hevict]

theorem placesAt_update (h : w.roamed = true → w.replacedId = 0 → w.takeOver = false →
      w.ip ≠ ip ∧ ∀ r ∈ db.rows, r.id = w.targetId → r.ipAddress ≠ ip) :
    (updateDeviceIdentity db now w).db.placesAt ip = db.placesAt ip := by
  have hfresh : (db.modify w.targetId (refresh w now) (refresh_samePlace w now)).placesAt ip =
      db.placesAt ip :=
    placesAt_modify _
  unfold updateDeviceIdentity
  split
  · split
    · rw [placesAt_modify, placesAt_modify, hfresh]
    · rw [placesAt_modify, hfresh]
  · next hforce =>
    simp only [not_or, ne_eq, not_not, Bool.not_eq_true] at hforce
    split
    · next hroam =>
      obtain ⟨hto, hfrom⟩ := h hroam hforce.1 hforce.2
      have hfrom' : ∀ r ∈ (db.modify w.targetId (refresh w now) (refresh_samePlace w now)).rows,
          r.id = w.targetId →
          r.ipAddress ≠ ip := by
        intro r hr hid
        obtain ⟨s, hs, hsame⟩ := Db.modify_place (refresh_samePlace w now) hr
        rw [hsame.ipAddress]
        exact hfrom s hs (hsame.id.symm.trans hid)
      exact (placesAt_roam hto hfrom').trans hfresh
    · rw [placesAt_modify, hfresh]

/-- The rows at an address are the same to the lookup after a write that does not move them. -/
theorem placesAt_apply (h : ¬ w.Moves db ip) :
    (applyDeviceIdentity db now uuid w).db.placesAt ip = db.placesAt ip := by
  simp only [IdentityWrite.Moves, not_or, not_and, not_exists] at h
  obtain ⟨hcreate, hroam, hpark⟩ := h
  have hparked : (parkHolder db now w.parkHolderId).1.placesAt ip = db.placesAt ip :=
    placesAt_parkHolder fun hi r hr hid => hpark hi r hr hid
  unfold applyDeviceIdentity
  split
  · next hnew => rw [placesAt_create (hcreate hnew), hparked]
  · next hnew =>
    have hnew : w.isNew = false := by simpa using hnew
    rw [placesAt_update, hparked]
    intro hroamed hrep hto
    obtain ⟨hip, htarget⟩ := hroam ⟨hnew, hroamed, hrep, hto⟩
    refine ⟨hip, fun r hr hid => ?_⟩
    rcases parkHolder_mem hr with hold | ⟨s, hs, hsid, -, rfl⟩
    · exact htarget r hold hid
    · have hne : w.parkHolderId ≠ 0 := hsid ▸ Db.id_ne_zero hs
      exact (hpark hne s hs hsid).2

theorem placesAt_record (db : Db) (now : Nat) (host : String) (net : Option Nat) (d : DeviceRef)
    (ip : String) :
    (recordDevice db now host net d).placesAt ip = db.placesAt ip := by
  unfold recordDevice
  split
  · rfl
  · exact placesAt_modify _

theorem placesAt_enrich (db : Db) (now : Nat) (mac : String) (fields : Fields) (ip : String) :
    (enrichDeviceByMAC db now mac fields).placesAt ip = db.placesAt ip := by
  unfold enrichDeviceByMAC
  split
  · rfl
  · exact placesAt_modify _

end Away

/-! ## Runs of a repository -/

/-- The calls that write device rows or fill the cache; a lookup is part of every recording of
services, evidence or certificates of an address. -/
inductive RepositoryCall where
  | record (now : Nat) (ip : String) (d : DeviceRef)
  | enrich (now : Nat) (mac : String) (fields : Fields)
  | lookup (ip : String)
  | apply (now : Nat) (uuid : String) (w : IdentityWrite)

def SQLiteRepository.call : RepositoryCall → SQLiteRepository
  | .record now ip d => { repo with db := recordDevice repo.db now ip repo.networkID d }
  | .enrich now mac fields => { repo with db := enrichDeviceByMAC repo.db now mac fields }
  | .lookup ip => (repo.resolveDeviceUUID ip).2
  | .apply now uuid w => { repo with db := (applyDeviceIdentity repo.db now uuid w).db }

/-- An identity write that moves no row to or from a remembered address. -/
def RepositoryCall.Quiet : RepositoryCall → Prop
  | .apply _ _ w => ∀ e ∈ repo.uuidCache.entries, ¬ w.Moves repo.db e.1
  | _ => True

instance : (c : RepositoryCall) → Decidable (c.Quiet repo)
  | .apply _ _ w =>
    inferInstanceAs (Decidable (∀ e ∈ repo.uuidCache.entries, ¬ w.Moves repo.db e.1))
  | .record .. | .enrich .. | .lookup _ => isTrue trivial

/-- Every remembered answer is the current one. -/
def SQLiteRepository.Coherent : Prop :=
  Memo.Coherent (deviceUuidAt repo.db repo.networkID) repo.uuidCache

theorem SQLiteRepository.Coherent.replace {repo : SQLiteRepository} (h : repo.Coherent)
    (hsame : ∀ e ∈ repo.uuidCache.entries, db'.placesAt e.1 = repo.db.placesAt e.1) :
    SQLiteRepository.Coherent { repo with db := db' } :=
  Memo.Coherent.change h fun k v hk => by
    rw [deviceUuidAt_places, deviceUuidAt_places, hsame (k, v) hk]

theorem SQLiteRepository.call_coherent (c : RepositoryCall)
    (h : repo.Coherent) (hquiet : c.Quiet repo) : (repo.call c).Coherent := by
  cases c with
  | record now ip d => exact h.replace fun e _ => placesAt_record ..
  | enrich now mac fields => exact h.replace fun e _ => placesAt_enrich ..
  | lookup ip => exact Memo.Coherent.fetch h ip
  | apply now uuid w => exact h.replace fun e he => placesAt_apply (hquiet e he)

/-- In a run whose identity writes leave the remembered addresses alone, every answer is the uuid
of the row that holds the address. -/
theorem resolved_uuid_is_held {db : Db} {networkID : Option Nat} {calls : List RepositoryCall}
    (hquiet : Runs.Along SQLiteRepository.call (fun repo c => c.Quiet repo) (.opened db networkID)
      calls)
    {repo : SQLiteRepository}
    (hrun : Runs.run SQLiteRepository.call (.opened db networkID) calls = repo) {ip uuid : String}
    (hanswer : (repo.resolveDeviceUUID ip).1 = some uuid) :
    ∃ r, uuidRow repo.db repo.networkID ip = some r ∧ r.deviceUuid = uuid := by
  have hcoherent : repo.Coherent := by
    rw [← hrun]
    exact Runs.run_invariant SQLiteRepository.call_coherent
      Memo.coherent_empty hquiet
  have hfound : deviceUuidAt repo.db repo.networkID ip = some uuid :=
    (Memo.fetch_answer hcoherent ip).symm.trans hanswer
  exact Option.map_eq_some_iff.mp hfound

/-- The creation of a device that was sighted at an address. -/
def arrival (mac ip : String) : IdentityWrite where
  isNew := true
  ip := ip
  mac := mac
  networkId := some 1

/-- The roam of a known device to an address. -/
def departure (id : Nat) (mac ip : String) : IdentityWrite where
  targetId := id
  roamed := true
  ip := ip
  mac := mac
  networkId := some 1

theorem neighbour_roams_unnoticed :
    ∃ r, uuidRow (Runs.run SQLiteRepository.call (.opened Db.empty (some 1))
        [.apply 100 "u1" (arrival "00:11:22:33:44:55" "10.0.0.1"),
          .apply 100 "u2" (arrival "00:11:22:33:44:66" "10.0.0.2"), .lookup "10.0.0.1",
            .apply 200 "u3" (departure 2 "00:11:22:33:44:66" "10.0.0.3")]).db (some 1) "10.0.0.1" =
        some r ∧ r.deviceUuid = "u1" := by
  exact resolved_uuid_is_held (by decide +kernel) rfl (by decide +kernel)

/-- The device of a remembered address moves on and another one is created there: services of
the address are still stamped with the first one. -/
theorem successor_gets_stale_uuid :
    ∃ repo, Runs.run SQLiteRepository.call (.opened Db.empty (some 1))
        [.apply 100 "u1" (arrival "00:11:22:33:44:55" "10.0.0.1"), .lookup "10.0.0.1",
          .apply 200 "u2" (departure 1 "00:11:22:33:44:55" "10.0.0.2"),
          .apply 300 "u3" (arrival "00:11:22:33:44:66" "10.0.0.1")] = repo ∧
      (repo.resolveDeviceUUID "10.0.0.1").1 = some "u1" ∧
      (uuidRow repo.db repo.networkID "10.0.0.1").map DeviceRow.deviceUuid = some "u3" :=
  ⟨_, rfl, by decide +kernel⟩

end Steward
