import Mathlib.Data.List.Nodup
import Mathlib.Data.List.TakeWhile
import Steward.RowTable

/-!
# The sweep of roamed orphans

`pruneRoamedOrphans` selects a batch of offline duplicates by their stored times, which are texts,
then logs and deletes them one by one, and starts over until a batch is not full. Any statement may
fail, and other writers may come between the selection and a deletion.
-/

namespace Steward.Cleanup

open RowTable List

/-! ## Stored times -/

/-- Instants are counted in nanoseconds. -/
def perSecond : Nat := 1000000000

def perDay : Nat := 86400 * perSecond

/-- The text of an instant. Date and time of day have a fixed width, so that texts compare as
these parts do, one after the other. -/
structure Stamp where
  day : Nat
  separator : Char
  second : Nat
  rest : List Char

def Stamp.before (a b : Stamp) : Bool :=
  a.day < b.day || a.day = b.day && (a.separator < b.separator || a.separator = b.separator &&
    (a.second < b.second || a.second = b.second && a.rest < b.rest))

def stamp (separator : Char) (t : Nat) (rest : List Char) : Stamp :=
  ⟨t / perDay, separator, t % perDay / perSecond, rest⟩

/-- `CURRENT_TIMESTAMP`. -/
def currentTimestamp (t : Nat) : Stamp := stamp ' ' t []

/-- `DBTime`. -/
def dbTime (t : Nat) : Stamp := stamp 'T' t ['Z']

/-- The digits behind the seconds, without the zeros at their end. -/
def fraction (t : Nat) : List Char :=
  if t % perSecond = 0 then []
  else '.' :: (((Nat.toDigits 10 (perSecond + t % perSecond)).drop 1).reverse.dropWhile
    (· = '0')).reverse

/-- `RFC3339Nano`. -/
def rfc3339Nano (t : Nat) : Stamp := stamp 'T' t (fraction t ++ ['Z'])

inductive Writer where
  | syncStatus | batchService | leaseSweeper
  deriving DecidableEq

def Writer.text : Writer → Nat → Stamp
  | .leaseSweeper => dbTime
  | _ => currentTimestamp

theorem time_lt_of_second {a b : Nat} (hday : a / perDay = b / perDay)
    (h : a % perDay / perSecond < b % perDay / perSecond) : a < b := by
  have ha := Nat.div_add_mod a perDay
  have hb := Nat.div_add_mod b perDay
  have hlt : a % perDay < b % perDay := lt_of_not_ge fun hge =>
    absurd (Nat.div_le_div_right hge) (not_le.mpr h)
  rw [hday] at ha
  omega

/-- A time of the lease sweeper, or of another day, is earlier when its text is smaller. -/
theorem lt_of_before {w : Writer} {a b : Nat}
    (hform : w = .leaseSweeper ∨ a / perDay ≠ b / perDay)
    (h : (w.text a).before (rfc3339Nano b) = true) : a < b := by
  have hday : (w.text a).day = a / perDay := by cases w <;> rfl
  simp only [Stamp.before, Bool.or_eq_true, Bool.and_eq_true, decide_eq_true_eq, hday] at h
  rcases h with hlt | ⟨heq, h⟩
  · exact lt_of_not_ge fun hge => absurd (Nat.div_le_div_right hge) (not_le.mpr hlt)
  rcases hform with rfl | hne
  · rcases h with h | ⟨-, h | ⟨-, h⟩⟩
    · exact absurd h (by decide : ¬ 'T' < 'T')
    · exact time_lt_of_second heq h
    · -- within one second the text of the sweeper is never the smaller one
      have hZ : ¬ 'Z' < '.' ∧ 'Z' ≠ '.' := by decide
      simp only [rfc3339Nano, fraction, stamp, Writer.text, dbTime] at h
      split at h
      · exact absurd h (by decide)
      · simp [cons_lt_cons_iff, hZ] at h
  · exact absurd heq hne

/-! ## The sweep -/

inductive Status where
  | online | offline | unknown
  deriving DecidableEq

structure Device where
  id : Nat
  uuid : String := ""
  name : String := ""
  type : String := ""
  brand : String := ""
  model : String := ""
  mac : String
  ip : String := ""
  networkID : Option Nat := none
  scanSource : String := "scanner_v2"
  status : Status
  /-- When the device went offline, and who stored the time. -/
  offlineSince : Option (Writer × Nat) := none
  deriving DecidableEq

def schema : Schema Device := ⟨Device.id, fun _ _ => false, fun _ _ => rfl⟩

abbrev Devices := Table schema

def roamedOrphanWindow : Nat := 600 * perSecond

/-- The condition of the selection. -/
def isOrphan (cut : Stamp) (t : Devices) (d : Device) : Bool :=
  d.scanSource = "scanner_v2" && d.status = .offline && d.mac ≠ "" &&
    (d.offlineSince.any fun o => (o.1.text o.2).before cut) &&
    t.rows.any fun r => r.mac = d.mac && r.id ≠ d.id && r.status = .online

/-- A `device_removed` row. -/
structure Removal where
  reason : String
  networkID : Option Nat
  entityID : Nat
  /-- Name, type, brand, model, MAC, address and uuid; the status is `offline`. -/
  before : List String
  deriving DecidableEq

def logDeviceRemoved (d : Device) : Removal :=
  ⟨"roamed_orphan", d.networkID, d.id, [d.name, d.type, d.brand, d.model, d.mac, d.ip, d.uuid]⟩

/-- What meets a sweep, by the number of the pass and the id of the row: failures, and what other
writers do right before a deletion. -/
structure Circumstances where
  now : Nat
  batch : Nat
  cancelled : Nat → Bool := fun _ => false
  selectFails : Nat → Bool := fun _ => false
  scanFails : Nat → Nat → Bool := fun _ _ => false
  logFails : Nat → Nat → Bool := fun _ _ => false
  deleteFails : Nat → Nat → Bool := fun _ _ => false
  meanwhile : Nat → Nat → Devices → Devices := fun _ _ t => t

structure State where
  table : Devices
  log : List Removal := []
  /-- The ids that were deleted, each with the table that its deletion found. -/
  deletions : List (Nat × Devices) := []
  /-- The ids whose deletion failed. -/
  failed : List Nat := []

variable (now : Nat)

def cutoff : Nat := now - roamedOrphanWindow

variable (e : Circumstances)

def remove (k : Nat) (s : State) (d : Device) : State :=
  let log := if e.logFails k d.id then s.log else s.log ++ [logDeviceRemoved d]
  let table := e.meanwhile k d.id s.table
  if e.deleteFails k d.id then ⟨table, log, s.deletions, s.failed ++ [d.id]⟩
  else ⟨table.delete (·.id = d.id), log, s.deletions ++ [(d.id, table)], s.failed⟩

/-- The rows that a pass reads; a row that cannot be read ends the reading. -/
def candidates (k : Nat) (t : Devices) : List Device :=
  ((t.rows.filter (isOrphan (rfc3339Nano (cutoff e.now)) t)).take e.batch).takeWhile
    fun d => !e.scanFails k d.id

/-- The state after at most `n` passes from pass `k` on, and whether the loop has ended. -/
def pruneRoamedOrphans : (n k : Nat) → State → State × Bool
  | 0, _, s => (s, false)
  | n + 1, k, s =>
    if e.cancelled k || e.selectFails k then (s, true)
    else
      let batch := candidates e k s.table
      let s := batch.foldl (remove e k) s
      if batch.length < e.batch then (s, true) else pruneRoamedOrphans n (k + 1) s

variable {e} {k : Nat} {t : Devices} {d : Device} {s : State}

theorem candidates_sublist : (candidates e k t).Sublist t.rows :=
  (takeWhile_sublist _).trans ((take_sublist _ _).trans filter_sublist)

theorem isOrphan_of_candidate (h : d ∈ candidates e k t) :
    isOrphan (rfc3339Nano (cutoff e.now)) t d = true :=
  (mem_filter.mp ((take_sublist _ _).subset ((takeWhile_sublist _).subset h))).2

theorem prune_invariant {P : State → Prop}
    (hpass : ∀ k s, P s → P ((candidates e k s.table).foldl (remove e k) s)) (n : Nat) (h : P s) :
    P (pruneRoamedOrphans e n k s).1 := by
  induction n generalizing k s with
  | zero => exact h
  | succ n ih =>
    unfold pruneRoamedOrphans
    split
    · exact h
    simp only
    split
    · exact hpass k s h
    · exact ih (hpass k s h)

/-! ## What is deleted -/

/-- The row that a deletion finds has been offline for the window, and its MAC is online
elsewhere. -/
def Settled (del : Nat × Devices) : Prop :=
  ∀ d ∈ del.2.rows, d.id = del.1 →
    (d.status = .offline ∧ d.offlineSince.any fun o => o.2 + roamedOrphanWindow ≤ now) ∧
      ∃ r ∈ del.2.rows, r.id ≠ d.id ∧ r.mac = d.mac ∧ r.status = .online

instance (del : Nat × Devices) : Decidable (Settled now del) :=
  inferInstanceAs (Decidable (∀ d ∈ del.2.rows, _ → _))

/-- The stored time is in the form of SQLite and of the cutoff's day, and the window since then is
not over. -/
def Early (d : Device) : Prop :=
  ∃ w since, d.offlineSince = some (w, since) ∧ w ≠ .leaseSweeper ∧
    since / perDay = cutoff now / perDay ∧ now < since + roamedOrphanWindow

/-- No other writer comes in between. -/
def Undisturbed (e : Circumstances) : Prop := ∀ k i t, e.meanwhile k i t = t

theorem isOrphan_mono {cut : Stamp} {t₀ : Devices} (hsub : ∀ r ∈ t.rows, r ∈ t₀.rows)
    (h : isOrphan cut t d = true) : isOrphan cut t₀ d = true := by
  simp only [isOrphan, Bool.and_eq_true, any_eq_true] at h ⊢
  obtain ⟨hd, r, hr, htwin⟩ := h
  exact ⟨hd, r, hsub r hr, htwin⟩

theorem add_window_le {now since : Nat} {w : Writer} (ho : d.offlineSince = some (w, since))
    (hearly : ¬ Early now d) (h : (w.text since).before (rfc3339Nano (cutoff now)) = true) :
    since + roamedOrphanWindow ≤ now := by
  by_cases hform : w = .leaseSweeper ∨ since / perDay ≠ cutoff now / perDay
  · have := lt_of_before hform h
    unfold cutoff at this
    omega
  · obtain ⟨hw, hday⟩ := not_or.mp hform
    exact not_lt.mp fun hlt => hearly ⟨w, since, ho, hw, not_not.mp hday, hlt⟩

theorem settled_of_orphan {t₀ : Devices} {now : Nat}
    (hd : isOrphan (rfc3339Nano (cutoff now)) t₀ d = true) (hearly : ¬ Early now d)
    (hmem : d ∈ t₀.rows) (hsub : ∀ r ∈ t.rows, r ∈ t₀.rows)
    (hlive : ∀ r ∈ t₀.rows, r.status = .online → r ∈ t.rows) : Settled now (d.id, t) := by
  simp only [isOrphan, Bool.and_eq_true, decide_eq_true_eq, any_eq_true] at hd
  obtain ⟨⟨⟨⟨-, hstatus⟩, -⟩, hsince⟩, r, hr, ⟨hmac, hid⟩, honline⟩ := hd
  intro d' hd' heq
  obtain rfl : d' = d := t₀.eq_of_id (hsub d' hd') hmem heq
  refine ⟨⟨hstatus, ?_⟩, r, hlive r hr honline, hid, hmac, honline⟩
  cases ho : d'.offlineSince with
  | none => simp [ho] at hsince
  | some o =>
    rw [ho, Option.any_some] at hsince
    rw [Option.any_some, decide_eq_true_eq]
    exact add_window_le ho hearly hsince

theorem remove_sublist (hquiet : Undisturbed e) :
    (remove e k s d).table.rows.Sublist s.table.rows := by
  simp only [remove, hquiet k d.id s.table]
  split
  · exact .refl _
  · exact filter_sublist

theorem mem_remove (hquiet : Undisturbed e) {r : Device} (hr : r ∈ s.table.rows)
    (hne : r.id ≠ d.id) : r ∈ (remove e k s d).table.rows := by
  simp only [remove, hquiet k d.id s.table]
  split
  · exact hr
  · exact mem_filter.mpr ⟨hr, by simp [hne]⟩

/-- One pass: the online rows stay, so every deletion still finds the twin. -/
theorem pass_settled (t₀ : Devices) (batch : List Device) (hquiet : Undisturbed e)
    (hb : ∀ d ∈ batch, d ∈ t₀.rows ∧ isOrphan (rfc3339Nano (cutoff e.now)) t₀ d = true ∧
      ¬ Early e.now d)
    {s : State} (hsub : ∀ r ∈ s.table.rows, r ∈ t₀.rows)
    (hlive : ∀ r ∈ t₀.rows, r.status = .online → r ∈ s.table.rows)
    (hs : ∀ del ∈ s.deletions, Settled e.now del) :
    (∀ r ∈ (batch.foldl (remove e k) s).table.rows, r ∈ t₀.rows) ∧
      ∀ del ∈ (batch.foldl (remove e k) s).deletions, Settled e.now del := by
  induction batch generalizing s with
  | nil => exact ⟨hsub, hs⟩
  | cons d rest ih =>
    obtain ⟨hmem, horphan, hearly⟩ := hb d (by simp)
    have hoff : d.status = .offline := by
      simp only [isOrphan, Bool.and_eq_true, decide_eq_true_eq] at horphan
      exact horphan.1.1.1.2
    refine ih (fun d hd => hb d (by simp [hd]))
      (fun r hr => hsub r ((remove_sublist hquiet).subset hr)) ?_ ?_
    · intro r hr honline
      refine mem_remove hquiet (hlive r hr honline) fun heq => ?_
      rw [t₀.eq_of_id hr hmem heq, hoff] at honline
      cases honline
    · simp only [remove, hquiet k d.id s.table]
      intro del hdel
      split at hdel
      · exact hs del hdel
      · rcases mem_append.mp hdel with hdel | hdel
        · exact hs del hdel
        · rw [mem_singleton.mp hdel]
          exact settled_of_orphan horphan hearly hmem hsub hlive

theorem passes_settled (hquiet : Undisturbed e)
    (hrows : ∀ d ∈ t.rows, isOrphan (rfc3339Nano (cutoff e.now)) t d = true → ¬ Early e.now d)
    (n : Nat) :
    ∀ del ∈ (pruneRoamedOrphans e n k { table := t }).1.deletions, Settled e.now del := by
  refine (prune_invariant (P := fun s => (∀ r ∈ s.table.rows, r ∈ t.rows) ∧
    ∀ del ∈ s.deletions, Settled e.now del) ?_ n ⟨fun _ hr => hr, by simp⟩).2
  rintro k s ⟨hsub, hs⟩
  have hb : ∀ d ∈ candidates e k s.table, d ∈ s.table.rows ∧
      isOrphan (rfc3339Nano (cutoff e.now)) s.table d = true ∧ ¬ Early e.now d := fun d hd =>
    have hd' := candidates_sublist.subset hd
    have horphan := isOrphan_of_candidate hd
    ⟨hd', horphan, hrows d (hsub d hd') (isOrphan_mono hsub horphan)⟩
  obtain ⟨hsub', hs'⟩ := pass_settled s.table _ hquiet hb (fun _ hr => hr) (fun _ hr _ => hr) hs
  exact ⟨fun r hr => hsub r (hsub' r hr), hs'⟩

/-- The sweep in which every deletion but that of `d` fails. -/
def onlyDeletes (t : Devices) (d : Device) : Circumstances where
  now := now
  batch := t.rows.length
  deleteFails _ i := i ≠ d.id

theorem pass_deletes {now : Nat} {batch : List Device} {s : State}
    (h : d ∈ batch ∧ s.table = t ∨ (d.id, t) ∈ s.deletions) :
    (d.id, t) ∈ (batch.foldl (remove (onlyDeletes now t d) k) s).deletions := by
  induction batch generalizing s with
  | nil => exact h.resolve_left fun h => not_mem_nil h.1
  | cons b rest ih =>
    refine ih ?_
    by_cases hid : b.id = d.id
    · rcases h with ⟨-, ht⟩ | h
      · simp [remove, onlyDeletes, hid, ht]
      · simp [remove, onlyDeletes, hid, h]
    · rcases h with ⟨hmem, ht⟩ | h
      · have hrest := (mem_cons.mp hmem).resolve_left fun h => hid (h ▸ rfl)
        exact .inl ⟨hrest, by simp [remove, onlyDeletes, hid, ht]⟩
      · simp [remove, onlyDeletes, hid, h]

/-- Without other writers in between, a sweep deletes a row only after the window and beside its
online twin exactly when no orphan has an early time. -/
theorem deletes_settled_iff (t : Devices) :
    (∀ e, e.now = now → Undisturbed e → ∀ n,
      ∀ del ∈ (pruneRoamedOrphans e n 0 { table := t }).1.deletions, Settled now del) ↔
    ∀ d ∈ t.rows, isOrphan (rfc3339Nano (cutoff now)) t d = true → ¬ Early now d := by
  constructor
  · rintro h d hd horphan ⟨w, since, ho, -, -, hlt⟩
    have hmem : d ∈ candidates (onlyDeletes now t d) 0 t := by
      change d ∈ ((t.rows.filter (isOrphan (rfc3339Nano (cutoff now)) t)).take
        t.rows.length).takeWhile fun _ => true
      rw [take_of_length_le (length_filter_le ..), takeWhile_eq_self_iff.mpr fun _ _ => rfl]
      exact mem_filter.mpr ⟨hd, horphan⟩
    have hdel : (d.id, t) ∈
        (pruneRoamedOrphans (onlyDeletes now t d) 1 0 { table := t }).1.deletions := by
      rw [pruneRoamedOrphans, if_neg (by simp [onlyDeletes])]
      simp only [pruneRoamedOrphans]
      split <;> exact pass_deletes (.inl ⟨hmem, rfl⟩)
    obtain ⟨⟨-, hsince⟩, -⟩ := h _ rfl (fun _ _ _ => rfl) 1 _ hdel d hd rfl
    rw [ho, Option.any_some, decide_eq_true_eq] at hsince
    exact absurd hsince (not_le.mpr hlt)
  · rintro h e rfl hquiet n
    exact passes_settled hquiet h n

/-- A device that went offline at eleven, and its twin, seen by a sweep at one minute past. -/
def roamed (w : Writer) (since : Nat) : Devices where
  rows := [{ id := 1, mac := "aa", status := .offline, offlineSince := some (w, since) },
    { id := 2, mac := "aa", status := .online }]
  nextId := 3
  nextPos := by decide
  ordered := by simp [schema]
  positive := by simp [schema]
  below := by simp [schema]
  apart := by simp [schema]

def eleven : Nat := 39600 * perSecond

/-- A time in the form of SQLite is smaller than every cutoff of its day; and a twin that another
writer takes offline is not looked at again. -/
theorem deletes_unsettled :
    (∃ del ∈ (pruneRoamedOrphans { now := eleven + 60 * perSecond, batch := 10 } 1 0
      { table := roamed .syncStatus eleven }).1.deletions,
        ¬ Settled (eleven + 60 * perSecond) del) ∧
    ∃ del ∈ (pruneRoamedOrphans
      { now := 2 * eleven, batch := 10,
        meanwhile := fun _ _ t => t.modifyWhere (fun _ => true)
          (fun d => { d with status := .offline }) ⟨fun _ => rfl, fun _ _ => rfl⟩ } 1 0
      { table := roamed .leaseSweeper eleven }).1.deletions, ¬ Settled (2 * eleven) del := by
  decide +kernel

/-! ## The trail -/

/-- The ids that a state accounts for: those in the log and those in the table. -/
def State.ids (s : State) : List Nat := s.log.map Removal.entityID ++ s.table.rows.map Device.id

theorem rows_nodup (t : Devices) : (t.rows.map Device.id).Nodup :=
  pairwise_map.mpr (t.ordered.imp Nat.ne_of_lt)

theorem perm_delete (hd : d ∈ t.rows) :
    t.rows.Perm (d :: t.rows.filter fun r => r.id ≠ d.id) := by
  refine (perm_cons_erase hd).trans ?_
  have hnodup : t.rows.Nodup := .of_map _ (rows_nodup t)
  rw [hnodup.erase_eq_filter]
  refine .of_eq (congrArg (d :: ·) (filter_congr fun r hr => ?_))
  have hiff : r = d ↔ r.id = d.id := ⟨congrArg Device.id, t.eq_of_id hr hd⟩
  rw [Bool.eq_iff_iff, bne_iff_ne, decide_eq_true_eq]
  exact not_congr hiff

/-- A part of the sweep takes up `m` rows: the deletions of the ids `xs` fail, and the others move
from the table to the log. -/
structure Accounts (e : Circumstances) (s s' : State) (m : Nat) (xs : List Nat) : Prop where
  failed : s'.failed = s.failed ++ xs
  rows : s'.table.rows.Sublist s.table.rows
  size : s'.table.rows.length + m = s.table.rows.length + xs.length
  known : ∀ i ∈ xs, i ∈ s.table.rows.map Device.id
  ids : (∀ k i, e.logFails k i = false) → s'.ids.Perm (s.ids ++ xs)

theorem Accounts.refl (s : State) : Accounts e s s 0 [] :=
  ⟨by simp, .refl _, rfl, nofun, fun _ => by rw [append_nil]⟩

theorem Accounts.trans {s s₁ s₂ : State} {m m' : Nat} {xs ys : List Nat}
    (h : Accounts e s s₁ m xs) (h' : Accounts e s₁ s₂ m' ys) :
    Accounts e s s₂ (m' + m) (xs ++ ys) where
  failed := by rw [h'.failed, h.failed, append_assoc]
  rows := h'.rows.trans h.rows
  size := by
    have := h.size
    have := h'.size
    rw [length_append]
    omega
  known i hi := (mem_append.mp hi).elim (h.known i) fun hi =>
    (h.rows.map Device.id).subset (h'.known i hi)
  ids hlog := (h'.ids hlog).trans <| by
    rw [← append_assoc]
    exact (h.ids hlog).append_right ys

/-- The log has one row for each device of the table that is gone and none for the others. -/
def ExactTrail (t : Devices) (s : State) : Prop :=
  ∀ d ∈ t.rows, (s.log.map Removal.entityID).count d.id =
    if d.id ∈ s.table.rows.map Device.id then 0 else 1

instance (t : Devices) (s : State) : Decidable (ExactTrail t s) :=
  inferInstanceAs (Decidable (∀ d ∈ t.rows, _ = _))

theorem exactTrail_iff (hlog : ∀ k i, e.logFails k i = false) {m : Nat} {xs : List Nat}
    (h : Accounts e { table := t } s m xs) : ExactTrail t s ↔ s.failed = [] := by
  have hcount : ∀ d ∈ t.rows, (s.log.map Removal.entityID).count d.id =
      (if d.id ∈ s.table.rows.map Device.id then 0 else 1) ↔ xs.count d.id = 0 := by
    intro d hd
    have hperm := (h.ids hlog).count_eq d.id
    have hone : (State.ids { table := t }).count d.id = 1 :=
      count_eq_one_of_mem (rows_nodup t) (mem_map_of_mem hd)
    rw [State.ids, count_append, count_append, hone] at hperm
    split
    · next hin =>
      have := count_eq_one_of_mem (rows_nodup s.table) hin
      omega
    · next hout =>
      have := count_eq_zero.mpr hout
      omega
  rw [show s.failed = xs from h.failed, eq_nil_iff_forall_not_mem]
  constructor
  · intro htrail i hi
    obtain ⟨d, hd, rfl⟩ := mem_map.mp (h.known i hi)
    exact count_eq_zero.mp ((hcount d hd).mp (htrail d hd)) hi
  · exact fun hnone d hd => (hcount d hd).mpr (count_eq_zero.mpr (hnone d.id))

variable (hquiet : Undisturbed e)

include hquiet

theorem remove_accounts (hd : d ∈ s.table.rows) :
    ∃ xs, Accounts e s (remove e k s d) 1 xs := by
  have hrows := remove_sublist (k := k) (s := s) (d := d) hquiet
  have hlogged : (∀ k i, e.logFails k i = false) →
      (remove e k s d).log = s.log ++ [logDeviceRemoved d] := fun hlog => by
    simp only [remove, hlog]
    split <;> rfl
  by_cases hfails : e.deleteFails k d.id = true
  · have htable : (remove e k s d).table = s.table := by
      simp [remove, hfails, hquiet k d.id s.table]
    refine ⟨[d.id], by simp [remove, hfails], hrows, by rw [htable]; rfl, ?_, fun hlog => ?_⟩
    · exact fun i hi => mem_singleton.mp hi ▸ mem_map_of_mem hd
    · rw [State.ids, htable, hlogged hlog, map_append, append_assoc, State.ids, append_assoc]
      exact perm_append_comm.append_left _
  · have htable : (remove e k s d).table.rows = s.table.rows.filter fun r => r.id ≠ d.id := by
      simp [remove, hfails, hquiet k d.id s.table]
    have hperm := perm_delete hd
    rw [← htable] at hperm
    refine ⟨[], by simp [remove, hfails], hrows, hperm.length_eq.symm, nofun, fun hlog => ?_⟩
    rw [State.ids, hlogged hlog, map_append, append_assoc, append_nil]
    exact (hperm.map Device.id).symm.append_left _

theorem pass_accounts {batch : List Device} {s : State} (hb : (batch.map Device.id).Nodup)
    (hsub : ∀ d ∈ batch, d ∈ s.table.rows) :
    ∃ xs, Accounts e s (batch.foldl (remove e k) s) batch.length xs := by
  induction batch generalizing s with
  | nil => exact ⟨[], .refl s⟩
  | cons d rest ih =>
    obtain ⟨hne, hb⟩ := nodup_cons.mp hb
    obtain ⟨xs, h⟩ := remove_accounts (k := k) hquiet (hsub d (by simp))
    obtain ⟨ys, h'⟩ := ih (s := remove e k s d) hb fun r hr =>
      mem_remove hquiet (hsub r (by simp [hr])) fun heq => hne (heq ▸ mem_map_of_mem hr)
    exact ⟨_, h.trans h'⟩

theorem candidates_account (k : Nat) (s : State) :
    ∃ xs, Accounts e s ((candidates e k s.table).foldl (remove e k) s)
      (candidates e k s.table).length xs :=
  pass_accounts hquiet ((candidates_sublist.map _).nodup (rows_nodup s.table)) fun _ hd =>
    candidates_sublist.subset hd

theorem passes_end (hbatch : 1 ≤ e.batch) (k : Nat) (s : State)
    (hnone : ∀ n, (pruneRoamedOrphans e n k s).1.failed = s.failed) :
    ∃ n, (pruneRoamedOrphans e n k s).2 = true := by
  -- a full batch takes rows away
  induction hm : s.table.rows.length using Nat.strong_induction_on generalizing k s with
  | _ m ih =>
    by_cases hstop : (e.cancelled k || e.selectFails k) = true
    · exact ⟨1, by simp only [pruneRoamedOrphans, if_pos hstop]⟩
    by_cases hshort : (candidates e k s.table).length < e.batch
    · exact ⟨1, by simp only [pruneRoamedOrphans, if_neg hstop, if_pos hshort]⟩
    have hnext : ∀ n, pruneRoamedOrphans e (n + 1) k s = pruneRoamedOrphans e n (k + 1)
        ((candidates e k s.table).foldl (remove e k) s) := fun n => by
      simp only [pruneRoamedOrphans, if_neg hstop, if_neg hshort]
    obtain ⟨xs, h⟩ := candidates_account hquiet k s
    obtain rfl : xs = [] := by
      have hone := hnone 1
      rw [hnext, pruneRoamedOrphans, h.failed] at hone
      exact append_right_eq_self.mp hone
    have hsize := h.size
    rw [length_nil] at hsize
    obtain ⟨n, hend⟩ := ih _ (by omega) (k + 1) ((candidates e k s.table).foldl (remove e k) s)
      (fun n => by rw [← hnext, hnone, h.failed, append_nil]) rfl
    exact ⟨n + 1, by rwa [hnext]⟩

/-- While no deletion fails the sweep ends; and where the log can be written, the trail of its
passes is exact exactly when no deletion has failed. -/
theorem sweep_ends_with_trail (hbatch : 1 ≤ e.batch) (t : Devices) :
    ((∀ n, (pruneRoamedOrphans e n 0 { table := t }).1.failed = []) →
      ∃ n, (pruneRoamedOrphans e n 0 { table := t }).2 = true) ∧
    ((∀ k i, e.logFails k i = false) → ∀ n,
      (ExactTrail t (pruneRoamedOrphans e n 0 { table := t }).1 ↔
        (pruneRoamedOrphans e n 0 { table := t }).1.failed = [])) := by
  refine ⟨passes_end hquiet hbatch 0 { table := t }, fun hlog n => ?_⟩
  obtain ⟨m, xs, h⟩ := prune_invariant (P := fun s => ∃ m xs, Accounts e { table := t } s m xs)
    (fun k s ⟨_, _, h⟩ => let ⟨_, h'⟩ := candidates_account hquiet k s; ⟨_, _, h.trans h'⟩) n
    ⟨0, [], .refl _⟩
  exact exactTrail_iff hlog h

omit hquiet

theorem orphan_swept :
    ExactTrail (roamed .leaseSweeper eleven) (pruneRoamedOrphans { now := 2 * eleven, batch := 1 }
      2 0 { table := roamed .leaseSweeper eleven }).1 :=
  ((sweep_ends_with_trail (e := { now := 2 * eleven, batch := 1 }) (fun _ _ _ => rfl) (by decide)
    (roamed .leaseSweeper eleven)).2 (fun _ _ => rfl) 2).mpr (by decide +kernel)

/-- A deletion that keeps failing is tried for ever, and every pass writes to the log that the
device was removed. -/
theorem failing_delete_never_ends :
    let e : Circumstances := { now := 2 * eleven, batch := 1, deleteFails := fun _ _ => true }
    (¬ ∃ n, (pruneRoamedOrphans e n 0 { table := roamed .leaseSweeper eleven }).2 = true) ∧
    (pruneRoamedOrphans e 3 0 { table := roamed .leaseSweeper eleven }).1.log.map Removal.entityID =
      [1, 1, 1] := by
  intro e
  refine ⟨?_, by decide +kernel⟩
  rintro ⟨n, hn⟩
  have hone : ∀ k, candidates e k (roamed .leaseSweeper eleven) =
      (roamed .leaseSweeper eleven).rows.take 1 := fun k =>
    show candidates e 0 (roamed .leaseSweeper eleven) = _ by decide +kernel
  have hstuck : ∀ n k (s : State), s.table = roamed .leaseSweeper eleven →
      (pruneRoamedOrphans e n k s).2 = false := by
    intro n
    induction n with
    | zero => exact fun _ _ _ => rfl
    | succ n ih =>
      intro k s hs
      rw [pruneRoamedOrphans, if_neg (show ¬ (false || false) = true by decide), hs, hone k]
      exact ih (k + 1) _ hs
  rw [hstuck n 0 _ rfl] at hn
  cases hn

end Steward.Cleanup
