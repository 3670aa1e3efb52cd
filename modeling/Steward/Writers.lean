import Steward.Parking

/-!
# Agreement of the two writers

The enrichment and the identity upsert of a scan each look up the row of the
device. The enrichment knows MAC and address only; the resolver also weighs
liveness, the holder of the address and locally administered MACs, on the store
that the enrichment leaves behind.
-/

namespace Steward

open RowTable

variable (db : Db) (recorded : Nat) (mac : String) (r : DeviceRow)

/-- The row `r` is no less alive than the other rows of its MAC, once the enrichment has touched
it. -/
def Foremost : Prop :=
  ∀ s ∈ db.rows, s.macAddress = mac → s.id ≠ r.id →
    liveness s ≤ liveness { r with lastSeen := some recorded }

instance :
    Decidable (Foremost db recorded mac r) :=
  inferInstanceAs (Decidable (∀ s ∈ db.rows, _))

/-- A new MAC at the address takes over the row that it finds there. -/
structure Claimable (db : Db) (mac ip : String) (net : Option Nat) (r : DeviceRow) : Prop where
  located : carriesNoLocation ip = false
  full : ∀ s ∈ db.rows, s.At ip net → s.macAddress ≠ ""
  noGuard : guarded mac r.macAddress = false

/-- The MAC of row `r` turns up at the address of row `h`, and the report is about `h`:
a replaced device, or a further card of the same host. -/
structure Displaces (db : Db) (now : Nat) (mac ip : String) (net : Option Nat) (r h : DeviceRow) :
    Prop where
  reported : mac ≠ ""
  carries : r.macAddress = mac
  elsewhere : r.ipAddress ≠ ip
  located : carriesNoLocation ip = false
  single : multiHomed db now r net = false
  rival : Rival db mac ip net h
  wins : macIsHolderAlias h mac = true ∨ guarded mac h.macAddress = false

/-! ## The store after the enrichment -/

/-- The enrichment takes the store `db` to `db'`, and `r` is the row that it writes to. -/
structure Enriches (db db' : Db) (recorded : Nat) (ip : String) (net : Option Nat) (d : DeviceRef)
    (r : DeviceRow) : Prop where
  target : recordTarget db ip net d = some r
  store : recordDevice db recorded ip net d = db'

namespace Enriches

variable {db db' : Db} {recorded : Nat} {ip : String} {net : Option Nat} {d : DeviceRef}
  {r : DeviceRow} (hit : Enriches db db' recorded ip net d r)

include hit

theorem rows : db' = db.modify r.id (recordRow d recorded) (recordRow_samePlace d recorded) := by
  rw [← hit.store, recordDevice, hit.target]

theorem mem_new : recordRow d recorded r ∈ db'.rows := hit.store ▸ recordDevice_hit hit.target

theorem mem_cases {s : DeviceRow} (hs : s ∈ db'.rows) :
    (s ∈ db.rows ∧ s.id ≠ r.id) ∨ s = recordRow d recorded r := by
  rw [hit.rows] at hs
  rcases mem_map_onId hs with h | ⟨t, ht, hid, rfl⟩
  · exact .inl h
  · exact .inr (by rw [Db.eq_of_id ht (recordTarget_mem hit.target) hid])

theorem slotHolder :
    db'.slotHolder ip net =
      (db.slotHolder ip net).map (deviceSchema.onId r.id (recordRow d recorded)) := by
  rw [hit.rows, Db.modify_slotHolder]

theorem slotHolder_new (hh : db.slotHolder ip net = some r) :
    db'.slotHolder ip net = some (recordRow d recorded r) := by
  rw [hit.slotHolder, hh]
  simp [Schema.onId]

theorem slotHolder_beside {h : DeviceRow} (hne : r.ipAddress ≠ ip) :
    db'.slotHolder ip net = some h ↔ db.slotHolder ip net = some h := by
  have hid : ∀ t, db.slotHolder ip net = some t → t.id ≠ r.id := by
    intro t ht he
    obtain ⟨hmem, hat, -⟩ := Db.slotHolder_eq_some.mp ht
    exact hne (Db.eq_of_id hmem (recordTarget_mem hit.target) he ▸ hat.1)
  rw [hit.slotHolder]
  cases ht : db.slotHolder ip net with
  | none => rfl
  | some t => simp [Schema.onId, hid t ht]

theorem multiHomed_new (now : Nat) :
    multiHomed db' now (recordRow d recorded r) net = multiHomed db now r net := by
  rw [hit.rows]
  rfl

/-- The enrichment found the row at the address when the row does not carry the MAC. -/
theorem target_at (hmac : recordMAC d ≠ "") (hother : r.macAddress ≠ recordMAC d) :
    db.slotHolder ip net = some r ∧ ∀ s ∈ db.rows, s.macAddress ≠ recordMAC d := by
  rcases recordTarget_eq_some hit.target with ⟨-, hr⟩ | ⟨hnew, hr⟩
  · exact absurd (Db.rowByMAC_eq_some.mp hr).2.1 hother
  · exact ⟨hr, hnew.resolve_left hmac⟩

/-! ## What the resolver answers -/

variable {now : Nat}

theorem resolver_macless (hmac : recordMAC d = "") :
    (resolveDeviceIdentity db' now (recordMAC d) ip net).targetId = r.id := by
  have hslot : db.slotHolder ip net = some r := by
    rcases recordTarget_eq_some hit.target with ⟨hne, -⟩ | ⟨-, hr⟩
    · exact absurd hmac hne
    · exact hr
  unfold resolveDeviceIdentity
  rw [if_pos hmac, hit.slotHolder_new hslot]
  rfl

/-- The enrichment gives the MAC to a MAC-less row, and that row is the one the resolver finds by
the MAC. -/
theorem resolver_filled (hmac : recordMAC d ≠ "") (hempty : r.macAddress = "") :
    (resolveDeviceIdentity db' now (recordMAC d) ip net).targetId = r.id := by
  obtain ⟨hslot, hnew⟩ := hit.target_at hmac (hempty ▸ hmac.symm)
  have hcarry : (recordRow d recorded r).macAddress = recordMAC d := by
    rw [recordRow_macAddress, if_pos ⟨hmac, hempty⟩]
  have hip : (recordRow d recorded r).ipAddress = ip := (Db.slotHolder_eq_some.mp hslot).2.1.1
  have only : ∀ m, Preferred db' (recordMAC d) m → m = recordRow d recorded r := by
    intro m hm
    rcases hit.mem_cases hm.mem with ⟨hold, -⟩ | h
    · exact absurd hm.carries (hnew m hold)
    · exact h
  have still : ∀ m, ¬ Moved db' now (recordMAC d) ip net m := by
    intro m hm
    exact hm.elsewhere (only m hm.preferred ▸ hip)
  have seen : ¬ Unseen db' (recordMAC d) := fun h => h.absent _ hit.mem_new hcarry
  have hv := resolve_verdict db' now (recordMAC d) ip net
  generalize resolveDeviceIdentity db' now (recordMAC d) ip net = res at hv
  cases hv with
  | create why => exact absurd why (by simp [hmac, seen])
  | slot h macless => exact absurd macless hmac
  | fill p unseen => exact absurd unseen seen
  | park h unseen => exact absurd unseen seen
  | takeOver h unseen => exact absurd unseen seen
  | sameHost h _ _ _ _ why => exact absurd why (by simp [seen, still])
  | own m _ preferred => rw [only m preferred]; rfl
  | roam m moved => exact absurd moved (still m)
  | parkRoam m h moved => exact absurd moved (still m)
  | replace m h moved => exact absurd moved (still m)

/-- A new MAC on a row that carries another one: the resolver has that row taken over. -/
theorem resolver_claimed (hmac : recordMAC d ≠ "") (hother : r.macAddress ≠ recordMAC d)
    (hne : r.macAddress ≠ "") (hc : Claimable db (recordMAC d) ip net r) :
    (resolveDeviceIdentity db' now (recordMAC d) ip net).targetId = r.id := by
  obtain ⟨hslot, hnew⟩ := hit.target_at hmac hother
  have hkeep : (recordRow d recorded r).macAddress = r.macAddress := by
    rw [recordRow_macAddress, if_neg (by simp [hne])]
  have hholder : db'.slotHolder ip net = some (recordRow d recorded r) :=
    hit.slotHolder_new hslot
  have habsent : ∀ s ∈ db'.rows, s.macAddress ≠ recordMAC d := by
    intro s hs
    rcases hit.mem_cases hs with ⟨hold, -⟩ | rfl
    · exact hnew s hold
    · rw [hkeep]
      exact hother
  have hfull : db'.placeholder ip net = none := by
    rw [Db.placeholder_eq_none]
    intro s hs hat
    rcases hit.mem_cases hs with ⟨hold, -⟩ | rfl
    · exact hc.full s hold hat
    · rw [hkeep]
      exact hne
  have hstranger : macIsHolderAlias (recordRow d recorded r) (recordMAC d) = false :=
    not_alias_of_marshal rfl _
  unfold resolveDeviceIdentity
  rw [if_neg hmac, Db.liveRowByMAC_eq_none.mpr habsent]
  simp [resolveUnseen, hc.located, hfull, hholder, hkeep, hne, hstranger, hc.noGuard,
    (recordRow_samePlace d recorded r).id]

section Seen

variable (hcarry : r.macAddress = recordMAC d) (hmac : recordMAC d ≠ "")
  (hbest : Foremost db recorded (recordMAC d) r)

include hcarry hmac hbest

/-- The row the enrichment found by its MAC is the one the resolver prefers. -/
theorem preferred : Preferred db' (recordMAC d) (recordRow d recorded r) := by
  have hfirst : ∀ s ∈ db.rows, s.macAddress = recordMAC d → r.id ≤ s.id := by
    rcases recordTarget_eq_some hit.target with ⟨-, hr⟩ | ⟨hnew, -⟩
    · exact (Db.rowByMAC_eq_some.mp hr).2.2
    · exact absurd hcarry (hnew.resolve_left hmac r (recordTarget_mem hit.target))
  refine ⟨hit.mem_new, ?_, fun s hs hsmac => ?_⟩
  · rw [recordRow_macAddress, if_neg (by simp [hcarry, hmac]), hcarry]
  · rcases hit.mem_cases hs with ⟨hold, hne⟩ | rfl
    · rcases lt_or_eq_of_le (hbest s hold hsmac hne) with hlt | heq
      · exact .inl hlt
      · exact .inr ⟨heq, hfirst s hold hsmac⟩
    · exact .inr ⟨rfl, le_rfl⟩

theorem resolver_seen : resolveDeviceIdentity db' now (recordMAC d) ip net =
    resolveSeen db' now (recordMAC d) ip net (recordRow d recorded r) := by
  unfold resolveDeviceIdentity
  rw [if_neg hmac, Db.liveRowByMAC_eq_some.mpr (hit.preferred hcarry hmac hbest)]

end Seen

/-- A displaced row is enriched, and the resolver answers with the holder of the address. -/
theorem resolver_displaced (hbest : Foremost db recorded (recordMAC d) r) {h : DeviceRow}
    (hd : Displaces db now (recordMAC d) ip net r h) :
    (resolveDeviceIdentity db' now (recordMAC d) ip net).targetId = h.id := by
  have hholder : db'.slotHolder ip net = some h :=
    (hit.slotHolder_beside hd.elsewhere).mpr hd.rival.holder
  have hip : (recordRow d recorded r).ipAddress ≠ ip := hd.elsewhere
  rw [hit.resolver_seen hd.carries hd.reported hbest]
  unfold resolveSeen
  rw [if_neg (by simp [hip, hd.located]), hit.multiHomed_new, hd.single, hholder]
  simp only [hd.rival.carries, hd.rival.other, or_self, Bool.false_eq_true, if_false]
  rcases hd.wins with ha | hg
  · rw [if_pos ha]
  · rw [hg]
    split <;> rfl

/-- Any other row of a known MAC is the resolver's answer too. -/
theorem resolver_kept (hcarry : r.macAddress = recordMAC d) (hmac : recordMAC d ≠ "")
    (hbest : Foremost db recorded (recordMAC d) r)
    (hno : ∀ h, ¬ Displaces db now (recordMAC d) ip net r h) :
    (resolveDeviceIdentity db' now (recordMAC d) ip net).targetId = r.id := by
  rw [hit.resolver_seen hcarry hmac hbest]
  unfold resolveSeen
  rw [hit.multiHomed_new]
  split
  · rfl
  · next hsame =>
    simp only [not_or, Bool.not_eq_true] at hsame
    have hip : r.ipAddress ≠ ip := hsame.1
    split
    · rfl
    · next hsingle =>
      cases hh : db'.slotHolder ip net with
      | none => rfl
      | some h =>
        simp only
        split
        · rfl
        · next hrival =>
          simp only [not_or] at hrival
          have rival : Rival db (recordMAC d) ip net h :=
            ⟨(hit.slotHolder_beside hip).mp hh, hrival.1, hrival.2⟩
          have stays :
              ¬ (macIsHolderAlias h (recordMAC d) = true ∨ guarded (recordMAC d) h.macAddress =
                false) :=
            fun hwins => hno h ⟨hmac, hcarry, hip, hsame.2, by simpa using hsingle, rival, hwins⟩
          simp only [not_or, Bool.not_eq_true, Bool.not_eq_false] at stays
          simp only [stays.1, stays.2, Bool.false_eq_true, if_true, if_false]
          rfl

end Enriches

/-- The resolver answers with the row the enrichment has just written, or with the holder of the
address that displaces it. A row found by its MAC has to be foremost among the rows of that MAC,
and a row of another MAC has to be claimable. -/
theorem resolver_follows_record {db : Db} {recorded now : Nat} {ip : String} {net : Option Nat}
    {d : DeviceRef} {r : DeviceRow} (hit : recordTarget db ip net d = some r)
    (hbest : recordMAC d ≠ "" → r.macAddress = recordMAC d → Foremost db recorded (recordMAC d) r)
    (hclaim : recordMAC d ≠ "" → r.macAddress ≠ recordMAC d → r.macAddress ≠ "" →
      Claimable db (recordMAC d) ip net r) :
    (∀ h, Displaces db now (recordMAC d) ip net r h →
      (resolveDeviceIdentity (recordDevice db recorded ip net d) now (recordMAC d) ip
        net).targetId = h.id) ∧
    ((∀ h, ¬ Displaces db now (recordMAC d) ip net r h) →
      (resolveDeviceIdentity (recordDevice db recorded ip net d) now (recordMAC d) ip
        net).targetId = r.id) := by
  have hit : Enriches db _ recorded ip net d r := ⟨hit, rfl⟩
  constructor
  · intro h hd
    exact hit.resolver_displaced (hbest hd.reported hd.carries) hd
  · intro hno
    by_cases hreported : recordMAC d = ""
    · exact hit.resolver_macless hreported
    · by_cases hcarry : r.macAddress = recordMAC d
      · exact hit.resolver_kept hcarry hreported (hbest hreported hcarry) hno
      · by_cases hempty : r.macAddress = ""
        · exact hit.resolver_filled hreported hempty
        · exact hit.resolver_claimed hreported hcarry hempty (hclaim hreported hcarry hempty)

/-- A router at its address and its successor at a transient one. -/
def swapPending : Db :=
  (localScan (localScan Db.empty 100 100 "u1" (sighting "00:11:22:33:44:55" "10.0.0.1")
    { net := some 1 }).db 200 200 "u2"
    (sighting "00:11:22:33:44:66" "10.0.0.100") { net := some 1 }).db

theorem successor_at_free_address :
    ∃ r ∈ swapPending.rows,
      recordTarget swapPending "10.0.0.7" (some 1)
        (sighting "00:11:22:33:44:66" "10.0.0.7").device = some r ∧
      (resolveDeviceIdentity (recordDevice swapPending 300 "10.0.0.7" (some 1)
        (sighting "00:11:22:33:44:66" "10.0.0.7").device) 300
          (recordMAC (sighting "00:11:22:33:44:66" "10.0.0.7").device)
        "10.0.0.7" (some 1)).targetId = r.id := by
  obtain ⟨r, hr, hit, hcarry, hbest⟩ : ∃ r ∈ swapPending.rows,
      recordTarget swapPending "10.0.0.7" (some 1)
        (sighting "00:11:22:33:44:66" "10.0.0.7").device = some r ∧
      r.macAddress = recordMAC (sighting "00:11:22:33:44:66" "10.0.0.7").device ∧
      Foremost swapPending 300 (recordMAC (sighting "00:11:22:33:44:66" "10.0.0.7").device) r := by
    decide +kernel
  have hfree : swapPending.slotHolder "10.0.0.7" (some 1) = none := by decide +kernel
  refine ⟨r, hr, hit, ?_⟩
  refine (resolver_follows_record hit (fun _ _ => hbest) fun _ hne => absurd hcarry hne).2
    fun h hd => ?_
  have hholder : swapPending.slotHolder "10.0.0.7" (some 1) = some h := hd.rival.holder
  rw [hfree] at hholder
  cases hholder

/-- The successor takes the address of the router: the enrichment goes to its old row, the
resolver answers with the row of the router. -/
theorem successor_at_router_address :
    ∃ r ∈ swapPending.rows,
      recordTarget swapPending "10.0.0.1" (some 1)
        (sighting "00:11:22:33:44:66" "10.0.0.1").device = some r ∧
      (resolveDeviceIdentity (recordDevice swapPending 300 "10.0.0.1" (some 1)
        (sighting "00:11:22:33:44:66" "10.0.0.1").device) 300
          (recordMAC (sighting "00:11:22:33:44:66" "10.0.0.1").device)
        "10.0.0.1" (some 1)).targetId ≠ r.id := by
  decide +kernel

end Steward
