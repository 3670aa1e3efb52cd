import Steward.Runs
import Steward.Slots

/-!
# One live row for each MAC

The resolver keys on the MAC, so two online rows with one MAC would split a
device. A call of the bridge settles one row under one MAC; the invariant rests
on where else that MAC is live. The last section lets two calls for a new MAC
overlap.
-/

namespace Steward

open JsonValue RowTable Runs

/-- One call of the bridge. -/
structure BridgeCall where
  now : Nat
  uuid : String
  rep : HostReport
  van : Vantage

namespace BridgeCall

def resolution (c : BridgeCall) (db : Db) : IdentityResolution :=
  resolveDeviceIdentity db c.now (reportMAC c.rep) c.rep.ip c.van.net

def run (db : Db) (c : BridgeCall) : Db := (applyDeviceBridge db c.now c.uuid c.rep c.van).db

end BridgeCall

/-- The MAC that a resolved row carries after the write. -/
def settledMac (w : IdentityWrite) (t : DeviceRow) : String :=
  if w.replacedId ≠ 0 ∨ w.takeOver = true then w.mac
  else if w.mac ≠ "" ∧ t.macAddress = "" then w.mac else t.macAddress

variable {w : IdentityWrite} {a b : BridgeCall}

theorem settledMac_force (t : DeviceRow) (h : w.replacedId ≠ 0 ∨ w.takeOver = true) :
    settledMac w t = w.mac := if_pos h

theorem settledMac_plain (t : DeviceRow) (hrep : w.replacedId = 0) (hto : w.takeOver = false) :
    settledMac w t = if w.mac ≠ "" ∧ t.macAddress = "" then w.mac else t.macAddress :=
  if_neg (by simp [hrep, hto])

/-- Row `i` is online under a MAC. -/
def Db.Live (db : Db) (i : Nat) (mac : String) : Prop :=
  ∃ r ∈ db.rows, r.id = i ∧ r.macAddress = mac ∧ r.status = .online

/-- The row is the target of the write, under the settled MAC. -/
def SettledBy (db : Db) (w : IdentityWrite) (r' : DeviceRow) : Prop :=
  ∃ t ∈ db.rows, t.id = w.targetId ∧ r'.id = w.targetId ∧ r'.macAddress = settledMac w t

section Origin

variable {db : Db} {now : Nat} {uuid : String} {w : IdentityWrite} {r' : DeviceRow}

/-- Where an online row of the updated table comes from. A superseded row is not online. -/
theorem update_origin (h : r' ∈ (updateDeviceIdentity db now w).db.rows)
    (hon : r'.status = .online) :
    (w.replacedId ≠ 0 → r'.id ≠ w.replacedId) ∧
      (db.Live r'.id r'.macAddress ∨ SettledBy db w r') := by
  cases update_mem h with
  | other hs _ hrep => exact ⟨hrep, .inl ⟨r', hs, rfl, rfl, hon⟩⟩
  | superseded => exact absurd hon (by simp)
  | @target s _ hs hid hrep hfinish =>
    have hsame := refresh_same w now s
    have hsid : r'.id = s.id := hfinish.id_eq.trans hsame.id
    have settled (hrep : w.replacedId = 0) (hto : w.takeOver = false)
        (hmac : r'.macAddress = if w.mac ≠ "" ∧ (refresh w now s).macAddress = "" then w.mac
          else (refresh w now s).macAddress) : SettledBy db w r' := by
      refine ⟨s, hs, hid, hsid.trans hid, ?_⟩
      rw [settledMac_plain s hrep hto, hmac, hsame.macAddress]
    refine ⟨fun hne => by rw [hsid]; exact hrep hne, ?_⟩
    cases hfinish with
    | forced hforce => exact .inr ⟨s, hs, hid, hsid.trans hid, (settledMac_force s hforce).symm⟩
    | moved hrep hto => exact .inr (settled hrep hto rfl)
    | retried hrep hto => exact .inr (settled hrep hto rfl)
    | refused => exact .inl ⟨s, hs, hsid.symm, hsame.macAddress.symm, hsame.status.symm.trans hon⟩
    | stamped hrep hto => exact .inr (settled hrep hto rfl)

theorem parkHolder_origin {i : Nat} (h : r' ∈ (parkHolder db now i).1.rows) :
    ∃ r ∈ db.rows, r.id = r'.id ∧ r.macAddress = r'.macAddress ∧ r.status = r'.status := by
  rcases parkHolder_mem h with hr | ⟨r, hr, -, -, rfl⟩
  · exact ⟨r', hr, rfl, rfl, rfl⟩
  · exact ⟨r, hr, rfl, rfl, rfl⟩

/-- The same for a whole write to a resolved row: parking changes no MAC and no status. -/
theorem apply_origin (hold : w.isNew = false) (h : r' ∈ (applyDeviceIdentity db now uuid w).db.rows)
    (hon : r'.status = .online) :
    (w.replacedId ≠ 0 → r'.id ≠ w.replacedId) ∧
      (db.Live r'.id r'.macAddress ∨ SettledBy db w r') := by
  rw [(apply_old hold).1] at h
  obtain ⟨hsup, hcase⟩ := update_origin h hon
  refine ⟨hsup, ?_⟩
  rcases hcase with ⟨s, hs, hid, hmac, hson⟩ | ⟨s, hs, hid, hrid, hmac⟩
  · obtain ⟨r, hr, hrid, hrmac, hron⟩ := parkHolder_origin hs
    exact .inl ⟨r, hr, hrid.trans hid, hrmac.trans hmac, hron.trans hson⟩
  · obtain ⟨t, ht, htid, htmac, -⟩ := parkHolder_origin hs
    refine .inr ⟨t, ht, htid.trans hid, hrid, ?_⟩
    rw [hmac, settledMac, settledMac, htmac]

end Origin

/-! ## The invariant -/

/-- No two online rows carry one MAC. -/
def OneLiveRow (db : Db) : Prop := ∀ i j mac, mac ≠ "" → db.Live i mac → db.Live j mac → i = j

variable (db : Db) (mac : String) (res : IdentityResolution)

/-- The report lands, by its address alone, on a row that is not online while another
row is online under the MAC of that row. -/
def Revives : Prop :=
  res.takeOver = false ∧ res.replacedId = 0 ∧
    ∃ t ∈ db.rows, t.id = res.targetId ∧ t.macAddress ≠ "" ∧ t.macAddress ≠ mac ∧
      t.status ≠ .online ∧
      ∃ s ∈ db.rows, s.macAddress = t.macAddress ∧ s.status = .online

instance : Decidable (Revives db mac res) :=
  inferInstanceAs (Decidable (_ ∧ _ ∧ _))

section Settling

variable {db : Db} {now : Nat} {mac ip : String} {net : Option Nat} {res : IdentityResolution}
  {i : Nat} {t : DeviceRow}

theorem Db.Live.id_eq (hinv : OneLiveRow db) (ht : t ∈ db.rows) (hne : t.macAddress ≠ "")
    (hon : t.status = .online) (hi : db.Live i t.macAddress) : i = t.id :=
  hinv i t.id t.macAddress hne hi ⟨t, ht, rfl, rfl, hon⟩

theorem Preferred.live_eq (hinv : OneLiveRow db) {m : DeviceRow} (hm : Preferred db mac m)
    (hne : mac ≠ "") (hi : db.Live i mac) : i = m.id := by
  obtain ⟨s, hs, -, hsmac, hson⟩ := id hi
  have hon : m.status = .online := hm.online hs hsmac hson
  have hcarries := hm.carries
  subst hcarries
  exact hi.id_eq hinv hm.mem hne hon

/-- A row that a report reaches by its address is the live row of its own MAC. -/
theorem live_eq_of_not_revives (hinv : OneLiveRow db) (hno : ¬ Revives db mac res)
    (ht : t ∈ db.rows) (hid : t.id = res.targetId) (hto : res.takeOver = false)
    (hrep : res.replacedId = 0) (hne : t.macAddress ≠ "") (hother : t.macAddress ≠ mac)
    (hi : db.Live i t.macAddress) : i = t.id := by
  by_cases hon : t.status = .online
  · exact hi.id_eq hinv ht hne hon
  · obtain ⟨s, hs, -, hsmac, hson⟩ := hi
    exact absurd ⟨hto, hrep, t, ht, hid, hne, hother, hon, s, hs, hsmac, hson⟩ hno

/-- Whoever is live under the MAC of the settled row is that row or is superseded. -/
theorem Verdict.settled_alone (hv : Verdict db now mac ip net res) (hold : res.isNew = false)
    (hinv : OneLiveRow db) (hno : ¬ Revives db mac res) {w : IdentityWrite} (hmac : w.mac = mac)
    (hto : w.takeOver = res.takeOver) (hrep : w.replacedId = res.replacedId) (ht : t ∈ db.rows)
    (hid : t.id = res.targetId) (hne : settledMac w t ≠ "") (hi : db.Live i (settledMac w t)) :
    i = t.id ∨ (res.replacedId ≠ 0 ∧ i = res.replacedId) := by
  have target : ∀ s ∈ db.rows, s.id = res.targetId → t = s := fun s hs hsid =>
    Db.eq_of_id ht hs (hid.trans hsid.symm)
  have absent : Unseen db mac → settledMac w t ≠ mac := by
    intro hu he
    obtain ⟨s, hs, -, hsmac, -⟩ := hi
    exact hu.absent s hs (hsmac.trans he)
  have own : ∀ m, Preferred db mac m → mac ≠ "" → t = m → w.replacedId = 0 → w.takeOver = false →
      i = t.id := by
    rintro m hm hreported rfl hrep hto
    rw [settledMac_plain t hrep hto, hm.carries, if_neg (by simp [hreported])] at hi
    exact hm.live_eq hinv hreported hi
  cases hv with
  | create => cases hold
  | slot h macless =>
    rw [settledMac_plain t hrep hto, hmac, if_neg (by simp [macless])] at hne hi
    exact .inl (live_eq_of_not_revives hinv hno ht hid rfl rfl hne (by rwa [macless]) hi)
  | fill p unseen _ empty =>
    obtain ⟨hp, ⟨-, hempty⟩, -⟩ := Db.placeholder_eq_some.mp empty
    obtain rfl := target p hp rfl
    refine absurd ?_ (absent unseen)
    rw [settledMac_plain t hrep hto, hmac, if_pos ⟨unseen.reported, hempty⟩]
  | park => cases hold
  | takeOver h unseen => exact absurd ((settledMac_force t (.inr hto)).trans hmac) (absent unseen)
  | sameHost h _ _ rival =>
    obtain rfl := target h rival.mem rfl
    rw [settledMac_plain t hrep hto, if_neg (by simp [rival.carries])] at hi
    exact .inl (live_eq_of_not_revives hinv hno ht hid rfl rfl rival.carries rival.other hi)
  | own m reported preferred =>
    exact .inl (own m preferred reported (target m preferred.mem rfl) hrep hto)
  | roam m moved =>
    exact .inl (own m moved.preferred moved.reported (target m moved.preferred.mem rfl) hrep hto)
  | parkRoam m h moved =>
    exact .inl (own m moved.preferred moved.reported (target m moved.preferred.mem rfl) hrep hto)
  | replace m h moved rival =>
    have hzero : m.id ≠ 0 := Db.id_ne_zero moved.preferred.mem
    have hforce : w.replacedId ≠ 0 := hrep.trans_ne hzero
    rw [settledMac_force t (.inl hforce), hmac] at hi
    exact .inr ⟨hzero, moved.preferred.live_eq hinv moved.reported hi⟩

end Settling

variable {db : Db}

/-- A MAC that moves to row `k`, away from row `j`, is still live once. -/
theorem OneLiveRow.reassign {db' : Db} (hinv : OneLiveRow db) {k j : Nat} {m : String}
    (horigin : ∀ i mac, db'.Live i mac → (db.Live i mac ∧ i ≠ j) ∨ (i = k ∧ mac = m))
    (halone : m ≠ "" → ∀ i, db.Live i m → i = k ∨ i = j) : OneLiveRow db' := by
  intro i₁ i₂ mac hne h₁ h₂
  rcases horigin i₁ mac h₁ with ⟨h₁, hj₁⟩ | ⟨rfl, rfl⟩ <;> rcases horigin i₂ mac h₂ with
    ⟨h₂, hj₂⟩ | ⟨rfl, hm⟩
  · exact hinv i₁ i₂ mac hne h₁ h₂
  · subst hm
    exact (halone hne i₁ h₁).resolve_right hj₁
  · exact ((halone hne i₂ h₂).resolve_right hj₂).symm
  · rfl

theorem Verdict.unseen_of_new {now : Nat} {mac ip : String} {net : Option Nat}
    {res : IdentityResolution} (hv : Verdict db now mac ip net res) (hnew : res.isNew = true)
    (hmac : mac ≠ "") : Unseen db mac := by
  cases hv with
  | create why =>
    rcases why with ⟨hempty, -⟩ | ⟨hu, -⟩
    · exact absurd hempty hmac
    · exact hu
  | park h unseen => exact unseen
  | _ => cases hnew

/-- A call of the bridge keeps the invariant unless it revives a row. -/
theorem BridgeCall.run_oneLiveRow (c : BridgeCall) (hinv : OneLiveRow db)
    (hno : ¬ Revives db (reportMAC c.rep) (c.resolution db)) : OneLiveRow (c.run db) := by
  have hv := resolve_verdict db c.now (reportMAC c.rep) c.rep.ip c.van.net
  unfold BridgeCall.resolution at hno
  unfold BridgeCall.run applyDeviceBridge
  generalize resolveDeviceIdentity db c.now (reportMAC c.rep) c.rep.ip c.van.net = res at hv hno
  cases hnew : res.isNew with
  | true =>
    refine hinv.reassign (k := db.devices.nextId) (j := 0) (m := reportMAC c.rep) ?_ ?_
    · rintro i mac ⟨r, hr, rfl, rfl, hon⟩
      rcases created_origin hnew hr with hr | ⟨-, hid, hmac, -⟩
      · exact .inl ⟨⟨r, hr, rfl, rfl, hon⟩, Db.id_ne_zero hr⟩
      · exact .inr ⟨hid, hmac⟩
    · rintro hmac i ⟨r, hr, -, hrmac, -⟩
      exact absurd hrmac ((hv.unseen_of_new hnew hmac).absent r hr)
  | false =>
    obtain ⟨t, ht, hid⟩ := hv.target_mem hnew
    obtain ⟨htarget, hrep, hto, hold⟩ := bridgeWrite_resolved db c.rep c.van hnew
    refine hinv.reassign (k := t.id) (j := res.replacedId)
      (m := settledMac (bridgeWrite db c.rep c.van res) t) ?_ ?_
    · rintro i mac ⟨r, hr, rfl, rfl, hon⟩
      rw [bridgeCommit_rows] at hr
      obtain ⟨hsup, hlive | ⟨s, hs, hsid, hrid, hmac⟩⟩ := apply_origin hold hr hon
      · refine .inl ⟨hlive, ?_⟩
        by_cases hzero : res.replacedId = 0
        · obtain ⟨s, hs, hsid, -⟩ := hlive
          rw [hzero, ← hsid]
          exact Db.id_ne_zero hs
        · rw [← hrep]
          exact hsup (by rwa [hrep])
      · obtain rfl : t = s := Db.eq_of_id ht hs (by rw [hid, hsid, htarget])
        exact .inr ⟨by rw [hrid, htarget, hid], hmac⟩
    · intro hne i hi
      exact (hv.settled_alone hnew hinv hno bridgeWrite_mac hto hrep ht hid hne hi).imp_right
        And.right

/-- From an empty table no two online rows share a MAC, as long as no report lands by
its address on an offline row whose MAC is online elsewhere. -/
theorem online_rows_differ_in_mac (calls : List BridgeCall)
    (hok : Runs.Along BridgeCall.run (fun db c => ¬ Revives db (reportMAC c.rep) (c.resolution db))
      Db.empty calls)
    {r s : DeviceRow} (hr : r ∈ (Runs.run BridgeCall.run Db.empty calls).rows)
    (hs : s ∈ (Runs.run BridgeCall.run Db.empty calls).rows) (hron : r.status = .online)
    (hson : s.status = .online) (hmac : r.macAddress = s.macAddress) (hne : r.macAddress ≠ "") :
    r = s := by
  have hone : OneLiveRow (run BridgeCall.run Db.empty calls) := by
    refine run_invariant (fun db c hinv hno => c.run_oneLiveRow hinv hno) ?_ hok
    rintro i j mac - ⟨r, hr, -⟩
    cases hr
  exact Db.eq_of_id hr hs
    (hone r.id s.id r.macAddress hne ⟨r, hr, rfl, rfl, hron⟩ ⟨s, hs, rfl, hmac.symm, hson⟩)

def reportAt (now : Nat) (uuid mac ip : String) : BridgeCall :=
  ⟨now, uuid, sighting mac ip, { net := some 1 }⟩

/-- Two devices, one of which then shows up at the address of the other. -/
def swap : List BridgeCall :=
  [reportAt 100 "u1" "00:11:22:33:44:55" "10.0.0.1", reportAt 200 "u2" "00:11:22:33:44:66"
    "10.0.0.2",
    reportAt 300 "u3" "00:11:22:33:44:55" "10.0.0.2"]

theorem swap_keeps_macs_apart :
    ∃ r ∈ (Runs.run BridgeCall.run Db.empty swap).rows, r.status = .online ∧
      r.macAddress = "00:11:22:33:44:55" ∧ ∀ s ∈ (Runs.run BridgeCall.run Db.empty swap).rows,
        s.status = .online → s.macAddress = r.macAddress → r = s := by
  obtain ⟨r, hr, hon, hmac⟩ : ∃ r ∈ (run BridgeCall.run Db.empty swap).rows,
      r.status = .online ∧ r.macAddress = "00:11:22:33:44:55" := by
    decide +kernel
  refine ⟨r, hr, hon, hmac, fun s hs hson hsmac => ?_⟩
  exact online_rows_differ_in_mac swap (by decide +kernel) hr hs hon hson hsmac.symm
    (by rw [hmac]; decide)

/-- A report without a MAC at the address that the swapped device left brings its old row back. -/
theorem swap_revived_by_macless_report :
    ∃ r ∈ (Runs.run BridgeCall.run Db.empty (swap ++ [reportAt 400 "u4" "" "10.0.0.1"])).rows,
      ∃ s ∈ (Runs.run BridgeCall.run Db.empty (swap ++ [reportAt 400 "u4" "" "10.0.0.1"])).rows,
        r.id ≠ s.id ∧ r.status = .online ∧ s.status = .online ∧ r.macAddress = s.macAddress ∧
          r.macAddress ≠ "" := by
  decide +kernel

/-! ## Two calls for a new MAC -/

/-- The bridge after the resolution. -/
def BridgeCall.commit (c : BridgeCall) (db : Db) (res : IdentityResolution) : Db :=
  (bridgeCommit db c.now c.uuid c.rep c.van res).db

theorem BridgeCall.run_eq (c : BridgeCall) (db : Db) :
    c.run db = c.commit db (c.resolution db) := by
  simp only [BridgeCall.run, applyDeviceBridge, BridgeCall.commit, BridgeCall.resolution]

/-- The two statements of a call that others can come between. -/
inductive RaceStep where
  | resolve (second : Bool)
  | apply (second : Bool)
  deriving DecidableEq

/-- The store and the answers that the two callers hold. -/
structure Race where
  db : Db
  first : Option IdentityResolution := none
  second : Option IdentityResolution := none

def Race.step (a b : BridgeCall) (s : Race) : RaceStep → Race
  | .resolve false => { s with first := some (a.resolution s.db) }
  | .resolve true => { s with second := some (b.resolution s.db) }
  | .apply false =>
    match s.first with
    | none => s
    | some res => { s with db := a.commit s.db res }
  | .apply true =>
    match s.second with
    | none => s
    | some res => { s with db := b.commit s.db res }

/-- The store after the two calls ran under a schedule. -/
def raced (a b : BridgeCall) (db : Db) (schedule : List RaceStep) : Db :=
  (Runs.run (Race.step a b) { db := db } schedule).db

/-- Both callers resolve before either writes. -/
def Overlapping (schedule : List RaceStep) : Prop :=
  ∃ k rest, schedule = .resolve k :: .resolve (!k) :: rest

/-- Both calls report one address of one network. -/
def SameSlot (a b : BridgeCall) : Prop :=
  a.rep.ip = b.rep.ip ∧ a.van.net = b.van.net ∧ a.van.net ≠ none

section Race

variable {db : Db} {c d : BridgeCall} {res : IdentityResolution} {r s : DeviceRow}

/-- A row of the store after a commit was there before or is the one it created. -/
theorem BridgeCall.commit_origin (h : r ∈ (c.commit db res).rows) :
    (∃ p ∈ db.rows, p.id = r.id) ∨
      (res.isNew = true ∧ db.devices.Admits r ∧ r.id = db.devices.nextId ∧
      r.macAddress = reportMAC c.rep ∧ r.At c.rep.ip c.van.net) := by
  unfold BridgeCall.commit at h
  cases hnew : res.isNew with
  | true =>
    rcases created_origin hnew h with h | h
    · exact .inl ⟨r, h, rfl⟩
    · exact .inr ⟨rfl, h⟩
  | false => exact .inl (updated_origin hnew h)

variable (hrnew : ∀ p ∈ db.rows, p.id ≠ r.id) (hsnew : ∀ p ∈ db.rows, p.id ≠ s.id)

include hrnew hsnew

/-- Two new rows after two commits: each commit created one. -/
theorem two_commits {res' : IdentityResolution} (hr : r ∈ (d.commit (c.commit db res) res').rows)
    (hs : s ∈ (d.commit (c.commit db res) res').rows) (hne : r ≠ s) :
    res.isNew = true ∧ res'.isNew = true ∧ ∃ p ∈ (c.commit db res).rows, p.macAddress =
      reportMAC c.rep ∧ p.At c.rep.ip c.van.net ∧ ∃ q, (c.commit db res).devices.Admits q ∧
        q.At d.rep.ip d.van.net := by
  have earlier : ∀ t : DeviceRow, (∀ p ∈ db.rows, p.id ≠ t.id) →
      ∀ p ∈ (c.commit db res).rows, p.id = t.id →
      res.isNew = true ∧ p.id = db.devices.nextId ∧ p.macAddress = reportMAC c.rep ∧
        p.At c.rep.ip c.van.net := by
    intro t htnew p hp hid
    rcases BridgeCall.commit_origin hp with ⟨q, hq, hqid⟩ | ⟨hnew, -, hnext, hmac, hat⟩
    · exact absurd (hqid.trans hid) (htnew q hq)
    · exact ⟨hnew, hnext, hmac, hat⟩
  rcases BridgeCall.commit_origin hr with ⟨p, hp, hpid⟩ | ⟨hnew', hadm, hrid, -, hrat⟩ <;>
    rcases BridgeCall.commit_origin hs with ⟨q, hq, hqid⟩ | ⟨hnew'', hadm', hsid, -, hsat⟩
  · have h₁ := (earlier r hrnew p hp hpid).2.1
    have h₂ := (earlier s hsnew q hq hqid).2.1
    exact absurd (Db.eq_of_id hr hs (by omega)) hne
  · obtain ⟨hnew, -, hmac, hat⟩ := earlier r hrnew p hp hpid
    exact ⟨hnew, hnew'', p, hp, hmac, hat, s, hadm', hsat⟩
  · obtain ⟨hnew, -, hmac, hat⟩ := earlier s hsnew q hq hqid
    exact ⟨hnew, hnew', q, hq, hmac, hat, r, hadm, hrat⟩
  · exact absurd (Db.eq_of_id hr hs (hrid.trans hsid.symm)) hne

/-- A call that resolves after the other has written creates no second row. -/
theorem serial_calls_agree (hmac : reportMAC d.rep = reportMAC c.rep)
    (hreported : reportMAC c.rep ≠ "") (hr : r ∈ (d.run (c.run db)).rows)
    (hs : s ∈ (d.run (c.run db)).rows) : r = s := by
  by_contra hne
  rw [BridgeCall.run_eq d, BridgeCall.run_eq c] at hr hs
  obtain ⟨-, hnew, p, hp, hpmac, -⟩ := two_commits hrnew hsnew hr hs hne
  have hv := resolve_verdict (c.commit db (c.resolution db)) d.now (reportMAC d.rep) d.rep.ip
      d.van.net
  have hunseen := hv.unseen_of_new hnew (hmac.trans_ne hreported)
  exact hunseen.absent p hp (hpmac.trans hmac.symm)

/-- Calls that both resolved first create two rows only when both were told to, and not for one
slot. -/
theorem overlapping_calls_create (hr : r ∈ (d.commit (c.run db) (d.resolution db)).rows)
    (hs : s ∈ (d.commit (c.run db) (d.resolution db)).rows) (hne : r ≠ s) :
    (c.resolution db).isNew = true ∧ (d.resolution db).isNew = true ∧ ¬ SameSlot c d := by
  rw [BridgeCall.run_eq c] at hr hs
  obtain ⟨hc, hd, p, hp, -, hpat, q, hadmits, hqat⟩ := two_commits hrnew hsnew hr hs hne
  refine ⟨hc, hd, ?_⟩
  rintro ⟨hip, hnet, hvalid⟩
  obtain ⟨n, hn⟩ := Option.ne_none_iff_exists'.mp hvalid
  have hapart :=
    (clash_eq_false.mp (hadmits p hp)).1 n (hqat.2.trans (hnet.symm.trans hn)) (hpat.2.trans hn)
  exact hapart (hqat.1.trans (hip.symm.trans hpat.1.symm))

end Race

theorem SameSlot.symm (h : SameSlot a b) : SameSlot b a :=
  ⟨h.1.symm, h.2.1.symm, h.2.1 ▸ h.2.2⟩

/-- What a schedule comes to: one call after the other, or both answers taken from the first store.
-/
theorem raced_cases (db : Db) {schedule : List RaceStep}
    (hsched : Interleaving [.resolve false, .apply false] [.resolve true, .apply true] schedule) :
    raced a b db schedule = b.run (a.run db) ∨ raced a b db schedule = a.run (b.run db) ∨
      (Overlapping schedule ∧ (raced a b db schedule = b.commit (a.run db) (b.resolution db) ∨
        raced a b db schedule = a.commit (b.run db) (a.resolution db))) := by
  simp only [raced, BridgeCall.run_eq]
  rcases hsched.pairs with
    rfl | rfl | rfl | rfl | rfl | rfl <;> simp only [run_cons, run_nil, Race.step]
  · exact .inl trivial
  · exact .inr (.inl trivial)
  · exact .inr (.inr ⟨⟨false, _, rfl⟩, .inl trivial⟩)
  · exact .inr (.inr ⟨⟨false, _, rfl⟩, .inr trivial⟩)
  · exact .inr (.inr ⟨⟨true, _, rfl⟩, .inl trivial⟩)
  · exact .inr (.inr ⟨⟨true, _, rfl⟩, .inr trivial⟩)

/-- Two calls of the bridge for one MAC leave at most one new row, unless both resolved
before either wrote, both were told to create, and for different slots. -/
theorem raced_calls_create_one {a b : BridgeCall} {db : Db} {schedule : List RaceStep}
    (hmac : reportMAC b.rep = reportMAC a.rep) (hreported : reportMAC a.rep ≠ "")
    (hsched : Runs.Interleaving [.resolve false, .apply false] [.resolve true, .apply true]
      schedule)
    (hrace : ¬ (Overlapping schedule ∧ (a.resolution db).isNew = true ∧
      (b.resolution db).isNew = true ∧ ¬ SameSlot a b))
    {r s : DeviceRow} (hr : r ∈ (raced a b db schedule).rows)
    (hs : s ∈ (raced a b db schedule).rows) (hrnew : ∀ p ∈ db.rows, p.id ≠ r.id)
    (hsnew : ∀ p ∈ db.rows, p.id ≠ s.id) : r = s := by
  rcases raced_cases db hsched with he | he | ⟨hover, he | he⟩ <;> rw [he] at hr hs
  · exact serial_calls_agree hrnew hsnew hmac hreported hr hs
  · exact serial_calls_agree hrnew hsnew hmac.symm (hmac.trans_ne hreported) hr hs
  · by_contra hne
    obtain ⟨ha, hb, hslot⟩ := overlapping_calls_create hrnew hsnew hr hs hne
    exact hrace ⟨hover, ha, hb, hslot⟩
  · by_contra hne
    obtain ⟨hb, ha, hslot⟩ := overlapping_calls_create hrnew hsnew hr hs hne
    exact hrace ⟨hover, ha, hb, fun h => hslot h.symm⟩

/-- Both callers resolve, then both write. -/
def overlap : List RaceStep := [.resolve false, .resolve true, .apply false, .apply true]

theorem overlap_interleaves :
    Interleaving [.resolve false, .apply false] [.resolve true, .apply true] overlap :=
  .left (.right (.left (.right .done)))

/-- Two sightings of one new MAC, the first at this address. -/
def firstSeen : BridgeCall := reportAt 100 "u1" "00:11:22:33:44:55" "10.0.0.1"

/-- The second one, at the same address or at another. -/
def twinAt (ip : String) : BridgeCall := reportAt 101 "u2" "00:11:22:33:44:55" ip

theorem race_for_one_slot_creates_one :
    ∃ r ∈ (raced firstSeen (twinAt "10.0.0.1") Db.empty overlap).rows,
      ∀ s ∈ (raced firstSeen (twinAt "10.0.0.1") Db.empty overlap).rows, r = s := by
  have hmac : reportMAC (twinAt "10.0.0.1").rep = reportMAC firstSeen.rep := by decide +kernel
  have hslot : SameSlot firstSeen (twinAt "10.0.0.1") := ⟨rfl, rfl, Option.some_ne_none 1⟩
  have hnew : ∀ r, ∀ p ∈ Db.empty.rows, p.id ≠ DeviceRow.id r :=
    fun r p hp => absurd hp List.not_mem_nil
  obtain ⟨r, hr⟩ := List.exists_mem_of_ne_nil
    (raced firstSeen (twinAt "10.0.0.1") Db.empty overlap).rows (by decide +kernel)
  exact ⟨r, hr, fun s hs => raced_calls_create_one hmac (by decide +kernel) overlap_interleaves
    (fun h => h.2.2.2 hslot) hr hs (hnew r) (hnew s)⟩

/-- A new MAC seen at two addresses at once: both calls create a row for it. -/
theorem race_for_two_slots_creates_two :
    Runs.Interleaving [.resolve false, .apply false] [.resolve true, .apply true] overlap ∧
      ∃ r ∈ (raced firstSeen (twinAt "10.0.0.2") Db.empty overlap).rows,
      ∃ s ∈ (raced firstSeen (twinAt "10.0.0.2") Db.empty overlap).rows,
        r.id ≠ s.id ∧ r.macAddress = "00:11:22:33:44:55" ∧ s.macAddress = "00:11:22:33:44:55" :=
  ⟨overlap_interleaves, by decide +kernel⟩

end Steward
