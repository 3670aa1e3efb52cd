import Mathlib.Data.List.Chain
import Steward.ArchiveAssets

/-!
# The archive history under interleaving

Ticks and manual operations run side by side, one query or write at a time.
Between the update that moves a device and the event that records the move,
other programs may run. What a program still has to record is its debt; where
every recorded move is a move that happened, and no one else moves the device
in between, the recorded moves of a device alternate and agree with its row.
-/

namespace Steward.Archive

open RowTable Programs Prog Function

/-! ## What a program does between two reads -/

/-- The two moves of a device. -/
inductive Move where
  | archived | restored
  deriving DecidableEq

def Move.kind : Move → EventKind
  | archived => .archived
  | restored => .restored

def EventKind.move? : EventKind → Option Move
  | archived => some .archived
  | restored => some .restored
  | _ => none

@[simp] theorem Move.kind_move? (m : Move) : m.kind.move? = some m := by cases m <;> rfl

/-- The move that a statement is for. -/
def Statement.move? : Statement → Option (Nat × Move)
  | archiveDevice d _ => some (d, .archived)
  | restoreArchivedDevice d => some (d, .restored)
  | _ => none

/-- The statement changes the row of a device. -/
def Statement.changes (op : Statement) (d : Nat) (s : Store) : Bool :=
  (s.devices.get? d).any op.selects

/-- The move that a program has made and not recorded yet. -/
abbrev Debt := Option (Nat × Move)

/-- A move is recorded by the next statement; a refused archiving is not recorded. -/
def Books : Debt → Statement → Store → Debt → Prop
  | none, .archiveDevice d now, s, after =>
    after = some (d, .archived) ∨
      after = none ∧ (Statement.archiveDevice d now).changes d s = false
  | none, .restoreArchivedDevice d, _, after => after = some (d, .restored)
  | none, .insertArchiveEvent e, _, after => e.event.move? = none ∧ after = none
  | none, _, _, after => after = none
  | some (d, move), .insertArchiveEvent e, _, after =>
    e.deviceId = d ∧ e.event = move.kind ∧ after = none
  | some _, _, _, _ => False

theorem changes_archiveDevice (d now : Nat) (s : Store) :
    (Statement.archiveDevice d now).changes d s =
      (s.devices.get? d).any fun r => r.archivedAt.isNone := by
  unfold Statement.changes
  cases hr : s.devices.get? d with
  | none => rfl
  | some r =>
    have hid : r.id = d := Table.id_of_get? hr
    simp [hid]

/-- The program keeps its books and starts without a debt. -/
def Keeping {ρ : Type} (p : Task ρ) : Prop := p.Follows Books (fun q => q = none) none

section Keeping

variable {ρ τ : Type} {p : Task ρ} (cfg : ArchiveConfig) (now d : Nat)

theorem keeping_pure (r : ρ) : Keeping (pure r) := rfl

theorem keeping_query (f : Store → ρ) : Keeping (query f) := Follows.query rfl

theorem Keeping.bind {f : ρ → Task τ} (h : Keeping p) (hf : ∀ r, Keeping (f r)) :
    Keeping (p >>= f) :=
  Follows.bind h fun q r hq => by
    rw [hq]
    exact hf r

theorem Keeping.forEach {α : Type} {body : α → Task Unit} (h : ∀ x, Keeping (body x))
    (xs : List α) : Keeping (forEach body xs) :=
  Follows.forEach rfl fun q x hq => by
    rw [hq]
    exact h x

theorem keeping_insertEvent {event : EventKind} (h : event.move? = none) (triggeredBy : Trigger)
    (detail : Detail) : Keeping (insertEvent d event triggeredBy detail now) :=
  fun _ => ⟨none, ⟨h, rfl⟩, rfl⟩

theorem keeping_setPeriodic (cycle : Nat) : Keeping (setPeriodic d cycle now) :=
  Keeping.bind (fun _ => ⟨none, rfl, rfl⟩) fun _ => keeping_insertEvent now d rfl _ _

theorem keeping_archive (triggeredBy : Trigger) (detail : Detail) :
    Keeping (do issue (.archiveDevice d now); insertEvent d .archived triggeredBy detail now) :=
  fun _ => ⟨some (d, .archived), .inl rfl, fun _ => ⟨none, ⟨rfl, rfl, rfl⟩, rfl⟩⟩

theorem keeping_restore (triggeredBy : Trigger) (detail : Detail) :
    Keeping (do issue (.restoreArchivedDevice d); insertEvent d .restored triggeredBy detail now) :=
  fun _ => ⟨some (d, .restored), rfl, fun _ => ⟨none, ⟨rfl, rfl, rfl⟩, rfl⟩⟩

theorem keeping_patternSweep : Keeping (patternSweep cfg) := by
  have hexpire : ∀ now st, Keeping (expireDevice now st) := by
    intro now st
    refine (keeping_query _).bind fun events => ?_
    split
    · exact keeping_pure ()
    · split
      · exact Keeping.bind (fun _ => ⟨none, rfl, rfl⟩) fun _ => keeping_insertEvent _ _ rfl _ _
      · exact keeping_pure ()
  have hlearn : ∀ now ad, Keeping (learnDevice cfg now ad) := by
    intro now ad
    unfold learnDevice
    split
    · exact keeping_pure ()
    · refine (keeping_query _).bind fun events => ?_
      split
      · exact keeping_pure ()
      · exact (keeping_setPeriodic now ad.id _).bind fun _ => keeping_restore now ad.id _ _
  refine (keeping_query _).bind fun now => (keeping_query _).bind fun states => ?_
  refine (Keeping.forEach (hexpire now) states).bind fun _ => ?_
  split
  · exact keeping_pure ()
  · exact (keeping_query _).bind fun archived => Keeping.forEach (hlearn now) archived

theorem keeping_evaluateDevice (thresholdDays : Nat) (periodic : Bool) :
    Keeping (evaluateDevice d thresholdDays periodic cfg now) := by
  unfold evaluateDevice
  split
  · exact keeping_pure _
  · split
    · exact keeping_pure _
    · split
      · exact keeping_pure _
      · refine (keeping_query _).bind fun events => ?_
        split
        · exact keeping_pure _
        · exact (keeping_setPeriodic now d _).bind fun _ => keeping_pure _

theorem keeping_autoArchive : Keeping (autoArchive cfg) := by
  have hcandidate : ∀ now c, Keeping (archiveCandidate cfg now c) := by
    intro now c
    unfold archiveCandidate
    split
    · exact keeping_pure ()
    · refine (keeping_evaluateDevice cfg now c.id _ _).bind fun exempt => ?_
      split
      · exact keeping_pure ()
      · exact keeping_archive now c.id _ _
  refine (keeping_query _).bind fun candidates => (keeping_query _).bind fun now => ?_
  exact Keeping.forEach (hcandidate now) candidates

theorem keeping_stampOnline : Keeping stampOnline :=
  (keeping_query _).bind fun _ _ => ⟨none, rfl, rfl⟩

theorem keeping_restoreCheck : Keeping (restoreCheck cfg) := by
  have hrestore : ∀ now r, Keeping (restoreDevice cfg now r) := by
    intro now r
    unfold restoreDevice
    split
    · exact keeping_pure ()
    · exact keeping_restore now r.id _ _
  refine (keeping_query _).bind fun rows => (keeping_query _).bind fun now => ?_
  exact Keeping.forEach (hrestore now) rows

theorem keeping_blipCheck : Keeping blipCheck := by
  refine (keeping_query _).bind fun rows => (keeping_query _).bind fun now => ?_
  refine Keeping.forEach (fun r => ?_) rows
  exact Keeping.bind (fun _ => ⟨none, rfl, rfl⟩) fun _ => keeping_insertEvent _ _ rfl _ _

theorem keeping_runOnce : Keeping (runOnce cfg) :=
  (keeping_patternSweep cfg).bind fun _ => (keeping_autoArchive cfg).bind fun _ =>
    keeping_stampOnline.bind fun _ => (keeping_restoreCheck cfg).bind fun _ => keeping_blipCheck

theorem keeping_archiveDeviceManually (reason : String) :
    Keeping (archiveDeviceManually d reason) := by
  refine (keeping_query _).bind fun now s => ?_
  -- What the update answers is what it did in the state that it ran in.
  cases hchanged : (s.devices.get? d).any fun r => r.archivedAt.isNone with
  | true =>
    refine ⟨some (d, .archived), .inl rfl, ?_⟩
    simp only [Prog.bind, hchanged]
    exact fun _ => ⟨none, ⟨rfl, rfl, rfl⟩, rfl⟩
  | false =>
    refine ⟨none, .inr ⟨rfl, (changes_archiveDevice d now s).trans hchanged⟩, ?_⟩
    simp only [Prog.bind, hchanged]
    rfl

theorem keeping_setPin (pin : ArchivePin) : Keeping (setPin d pin now) := by
  refine Keeping.bind (fun _ => ⟨none, rfl, rfl⟩) fun _ => keeping_insertEvent now d ?_ _ _
  split <;> rfl

theorem keeping_restoreRead : Keeping (restoreRead d now) :=
  fun _ => ⟨some (d, .restored), rfl, fun _ => ⟨none, ⟨rfl, rfl, rfl⟩, rfl⟩⟩

theorem keeping_restoreDeviceManually (force : Bool) :
    Keeping (restoreDeviceManually d force) := by
  refine (keeping_query _).bind fun dev => ?_
  split
  · exact keeping_pure _
  · split
    · exact keeping_pure _
    · refine (keeping_query _).bind fun now => ?_
      split
      · split
        · exact keeping_pure _
        · exact (keeping_setPin now d .none).bind fun _ => keeping_restoreRead now d
      · exact keeping_restoreRead now d

theorem keeping_program (c : Call) : Keeping (c.program cfg) := by
  cases c with
  | tick overlay => exact keeping_runOnce _
  | archive d reason =>
    exact (keeping_archiveDeviceManually d reason).bind fun _ => keeping_pure ()
  | restore d force =>
    exact (keeping_restoreDeviceManually d force).bind fun _ => keeping_pure ()
  | setPin d pin =>
    refine Keeping.bind ?_ fun _ => keeping_pure ()
    unfold setPinText
    split
    · exact keeping_pure _
    · exact (keeping_query _).bind fun now => (keeping_setPin now d _).bind fun _ => keeping_pure _
  | setThreshold d days => exact fun _ => ⟨none, rfl, rfl⟩

end Keeping

/-! ## The recorded moves of a device -/

/-- The moves of a device among some events. -/
def moves (d : Nat) (events : List ArchiveEvent) : List Move :=
  (events.filter fun e => e.deviceId = d).filterMap fun e => e.event.move?

def Store.history (s : Store) (d : Nat) : List Move := moves d s.events

def Store.isFiled (s : Store) (d : Nat) : Bool := (s.devices.get? d).any AssetRow.isArchived

/-- Recorded moves that alternate, the last of them where the device is. -/
structure Agrees (history : List Move) (filed : Bool) : Prop where
  alternates : history.IsChain (· ≠ ·)
  last : history.getLast? = some .archived ↔ filed = true

theorem Agrees.snoc {history : List Move} {filed : Bool} (h : Agrees history filed) {m : Move}
    (hm : filed = true ↔ m = .restored) : Agrees (history ++ [m]) (decide (m = .archived)) := by
  constructor
  · refine h.alternates.append (List.isChain_singleton m) ?_
    intro x hx y hy
    obtain rfl : m = y := by simpa using hy
    rintro rfl
    cases x with
    | archived => exact absurd (hm.mp (h.last.mp hx)) (by decide)
    | restored =>
      have harchived := h.last.mpr (hm.mpr rfl)
      rw [hx] at harchived
      cases harchived
  · simp

theorem history_apply (op : Statement) (s : Store) (d : Nat) :
    (s.apply op).history d = s.history d ++ moves d op.logged := by
  simp [Store.history, moves, Store.apply]

section Filed

variable {op : Statement} {s : Store} {d : Nat}

theorem isFiled_apply :
    (s.apply op).isFiled d =
      (s.devices.get? d).any fun r => (if op.selects r then op.set r else r).isArchived := by
  unfold Store.isFiled Store.apply
  rw [Table.get?_modifyWhere]
  cases s.devices.get? d <;> rfl

theorem isFiled_of_not_changes (h : op.changes d s = false) :
    (s.apply op).isFiled d = s.isFiled d := by
  rw [isFiled_apply]
  unfold Store.isFiled
  unfold Statement.changes at h
  cases hr : s.devices.get? d with
  | none => rfl
  | some r =>
    rw [hr, Option.any_some] at h
    rw [Option.any_some, Option.any_some, h]
    rfl

variable {m : Move}

theorem changes_of_move_other {i : Nat} (h : op.move? = some (i, m)) (hne : i ≠ d) :
    op.changes d s = false := by
  unfold Statement.changes
  cases hr : s.devices.get? d with
  | none => rfl
  | some r =>
    have hid : r.id = d := Table.id_of_get? hr
    cases op with
    | archiveDevice j now | restoreArchivedDevice j =>
      obtain ⟨rfl, -⟩ : j = i ∧ _ = m := by simpa [Statement.move?] using h
      simp [hid, Ne.symm hne]
    | _ => cases h

theorem isArchived_set (h : op.move? = none) (r : AssetRow) :
    (if op.selects r then op.set r else r).isArchived = r.isArchived := by
  cases op with
  | archiveDevice | restoreArchivedDevice => cases h
  | _ => split <;> rfl

theorem isFiled_of_not_move (h : ∀ m, op.move? ≠ some (d, m)) :
    (s.apply op).isFiled d = s.isFiled d := by
  cases hm : op.move? with
  | none =>
    rw [isFiled_apply]
    simp only [isArchived_set hm]
    rfl
  | some move =>
    obtain ⟨i, m⟩ := move
    apply isFiled_of_not_changes
    apply changes_of_move_other hm
    rintro rfl
    exact h m hm

theorem isFiled_of_move (h : op.move? = some (d, m)) (hchanges : op.changes d s = true) :
    (s.isFiled d = true ↔ m = .restored) ∧ (s.apply op).isFiled d = decide (m = .archived) := by
  unfold Statement.changes at hchanges
  rw [isFiled_apply]
  unfold Store.isFiled
  cases hr : s.devices.get? d with
  | none => simp [hr] at hchanges
  | some r =>
    rw [hr, Option.any_some] at hchanges
    cases op with
    | archiveDevice i now =>
      obtain ⟨-, rfl⟩ : i = d ∧ Move.archived = m := by simpa [Statement.move?] using h
      simp_all [AssetRow.isArchived]
    | restoreArchivedDevice i =>
      obtain ⟨-, rfl⟩ : i = d ∧ Move.restored = m := by simpa [Statement.move?] using h
      simp_all [AssetRow.isArchived]
    | _ => cases h

end Filed

/-! ## Programs side by side -/

/-- The program is about to record a move of a device. -/
def records (d : Nat) : Task Unit → Bool
  | .act (.insertArchiveEvent e) _ => e.deviceId = d && e.event.move?.isSome
  | _ => false

abbrev Engine := Pool Store Statement

inductive EngineEvent where
  | start (c : Call)
  | advance (i : Nat)
  | status (d : Nat) (status : Status) (offlineSince : Option Nat)
  | pass (seconds : Nat)

variable (cfg : ArchiveConfig)

def Engine.step (w : Engine) : EngineEvent → Engine
  | .start c => w.start (c.program cfg)
  | .advance i => w.advance Store.apply i
  | .status d status offlineSince => { w with state := w.state.observe d status offlineSince }
  | .pass seconds => { w with state := { w.state with clock := w.state.clock + seconds } }

/-- No program is about to record a move of the device. -/
def Settled (d : Nat) (w : Engine) : Prop := ∀ p ∈ w.tasks, records d p = false

/-- An update that moves the device, or that will be recorded as a move of it, does move it, and no
other program has a move of it to record. -/
def Calm (d i : Nat) (w : Engine) : Option (Task Unit) → Prop
  | some (.act op next) =>
    op.move?.any (fun m => m.1 = d) →
      (op.changes d w.state || records d (next w.state)) →
        op.changes d w.state ∧
          ∀ j < w.tasks.length, j ≠ i → (w.tasks[j]?).all fun p => !records d p
  | _ => True

def Undisturbed (d : Nat) (w : Engine) : EngineEvent → Prop
  | .advance i => Calm d i w w.tasks[i]?
  | _ => True

/-! ## The books of one device -/

section Books

variable {d i : Nat} {s : Store} {op : Statement} {q q' : Debt} {debts : Nat → Debt}

/-- A statement moves the device, or records a move of it, or does neither. -/
theorem books_cases (h : Books q op s q') (d : Nat) :
    (∃ m, op.move? = some (d, m) ∧ q = none ∧ moves d op.logged = [] ∧
      (q' = some (d, m) ∨ q' = none ∧ op.changes d s = false)) ∨
    (∃ m, (∀ m', op.move? ≠ some (d, m')) ∧ moves d op.logged = [m] ∧ q = some (d, m) ∧ q' = none) ∨
    ((∀ m, op.move? ≠ some (d, m)) ∧ moves d op.logged = [] ∧ (∀ m, q ≠ some (d, m)) ∧
      ∀ m, q' ≠ some (d, m)) := by
  cases q with
  | none =>
    cases op with
    | archiveDevice j now =>
      by_cases hj : j = d
      · subst hj
        exact .inl ⟨.archived, rfl, rfl, rfl, h⟩
      · refine .inr (.inr ⟨by simp [Statement.move?, hj], rfl, by simp, ?_⟩)
        rcases h with rfl | ⟨rfl, -⟩ <;> simp [hj]
    | restoreArchivedDevice j =>
      by_cases hj : j = d
      · subst hj
        exact .inl ⟨.restored, rfl, rfl, rfl, .inl h⟩
      · refine .inr (.inr ⟨by simp [Statement.move?, hj], rfl, by simp, ?_⟩)
        obtain rfl : q' = some (j, .restored) := h
        simp [hj]
    | insertArchiveEvent e =>
      obtain ⟨hmove, rfl⟩ := h
      refine .inr (.inr ⟨by simp [Statement.move?], ?_, by simp, by simp⟩)
      by_cases he : e.deviceId = d <;> simp [moves, he, hmove]
    | _ =>
      obtain rfl : q' = none := h
      exact .inr (.inr ⟨by simp [Statement.move?], rfl, by simp, by simp⟩)
  | some debt =>
    obtain ⟨j, m⟩ := debt
    cases op with
    | insertArchiveEvent e =>
      obtain ⟨rfl, hkind, rfl⟩ := h
      by_cases hj : e.deviceId = d
      · refine .inr (.inl ⟨m, by simp [Statement.move?], ?_, by rw [hj], rfl⟩)
        simp [moves, hj, hkind]
      · exact .inr (.inr ⟨by simp [Statement.move?], by simp [moves, hj], by simp [hj], by simp⟩)
    | _ => exact h.elim

/-- Nobody owes a move of the device and its history agrees with its row, or one program owes one
and the history agrees with the row once it is recorded. -/
def Balanced (d : Nat) (s : Store) (debts : Nat → Debt) : Prop :=
  (∀ j m, debts j ≠ some (d, m)) ∧ Agrees (s.history d) (s.isFiled d) ∨
    ∃ i m, debts i = some (d, m) ∧ (∀ j m', debts j = some (d, m') → j = i) ∧
      Agrees (s.history d ++ [m]) (s.isFiled d)

theorem Balanced.congr {s' : Store} {debts' : Nat → Debt} (h : Balanced d s debts)
    (hhistory : s'.history d = s.history d) (hfiled : s'.isFiled d = s.isFiled d)
    (hdebts : ∀ j m, debts' j = some (d, m) ↔ debts j = some (d, m)) : Balanced d s' debts' := by
  unfold Balanced at h ⊢
  simpa only [hhistory, hfiled, hdebts, ne_eq] using h

theorem Balanced.step (hb : Balanced d s debts) (h : Books (debts i) op s q)
    (hcalm : ∀ m, op.move? = some (d, m) → (op.changes d s = true ∨ q = some (d, m)) →
      op.changes d s = true ∧ ∀ j ≠ i, ∀ m, debts j ≠ some (d, m)) :
    Balanced d (s.apply op) (update debts i q) := by
  rcases books_cases h d with ⟨m, hmove, hnone, hlog, hq⟩ | ⟨m, hmove, hlog, hdebt, rfl⟩ |
    ⟨hmove, hlog, hdebt, hq⟩
  · rcases hq with rfl | ⟨rfl, hsame⟩
    · -- A move: nothing is owed before it, and it is owed after it.
      obtain ⟨hchanges, hothers⟩ := hcalm m hmove (.inr rfl)
      have hfree : ∀ j m', debts j ≠ some (d, m') := by
        intro j m'
        by_cases hij : j = i
        · rw [hij, hnone]
          exact fun he => nomatch he
        · exact hothers j hij m'
      rcases hb with ⟨-, hagrees⟩ | ⟨k, m', hk, -, -⟩
      · obtain ⟨hbefore, hafter⟩ := isFiled_of_move hmove hchanges
        refine .inr ⟨i, m, by simp, ?_, ?_⟩
        · intro j m' hj
          by_contra hij
          rw [update_of_ne hij] at hj
          exact hfree j m' hj
        · rw [history_apply, hlog, List.append_nil, hafter]
          exact hagrees.snoc hbefore
      · exact absurd hk (hfree k m')
    · -- An archiving that was refused: nothing changes and nothing is owed.
      have hupdate : update debts i none = debts := by
        rw [← hnone, update_eq_self]
      apply hb.congr
      · rw [history_apply, hlog, List.append_nil]
      · exact isFiled_of_not_changes hsame
      · intro j m
        rw [hupdate]
  · -- The record of a move: what was owed is now in the history.
    rcases hb with ⟨hnone, -⟩ | ⟨k, m', hk, hunique, hagrees⟩
    · exact absurd hdebt (hnone i m)
    · obtain rfl := hunique i m hdebt
      obtain rfl : m' = m := by simpa [hk] using hdebt
      refine .inl ⟨?_, ?_⟩
      · intro j m'' hj
        by_cases hij : j = i
        · subst hij
          simp at hj
        · rw [update_of_ne hij] at hj
          exact hij (hunique j m'' hj)
      · rw [history_apply, hlog, isFiled_of_not_move hmove]
        exact hagrees
  · -- Neither: history, row and debts of the device are as they were.
    apply hb.congr
    · rw [history_apply, hlog, List.append_nil]
    · exact isFiled_of_not_move hmove
    · intro j m
      by_cases hij : j = i
      · subst hij
        simp [hdebt m, hq m]
      · rw [update_of_ne hij]

end Books

/-! ## The books of a pool -/

section Pool

variable {d i : Nat} {w : Engine} {debts : Nat → Debt} {p : Task Unit}

/-- A program that owes a move is about to record it. -/
theorem records_of_debt {m : Move} (h : p.Follows Books (fun q => q = none) (some (d, m)))
    (s : Store) : records d p = true := by
  cases p with
  | ret r => cases h
  | ask next => cases h.1
  | act op next =>
    obtain ⟨q', hbooks, -⟩ := h s
    cases op with
    | insertArchiveEvent e =>
      obtain ⟨hid, hkind, -⟩ := hbooks
      simp [records, hid, hkind]
    | _ => exact hbooks.elim

/-- Every program keeps its books, and the books of the device are balanced. -/
structure Orderly (d : Nat) (w : Engine) (debts : Nat → Debt) : Prop where
  keeps : w.Keeps Books (fun q => q = none) debts
  absent : ∀ i, w.tasks[i]? = none → debts i = none
  balanced : Balanced d w.state debts

variable (h : Orderly d w debts)

include h

theorem Orderly.start (c : Call) :
    Orderly d (w.start (c.program cfg)) (update debts w.tasks.length none) := by
  have hlast : debts w.tasks.length = none := h.absent _ (by simp)
  have hdebts : update debts w.tasks.length none = debts := by
    rw [← hlast, update_eq_self]
  refine ⟨h.keeps.start (keeping_program cfg c), ?_, ?_⟩
  · intro j hj
    rw [hdebts]
    apply h.absent
    simp only [Pool.start, List.getElem?_eq_none_iff, List.length_append] at hj ⊢
    omega
  · rw [hdebts]
    exact h.balanced

/-- Who else has a move of the device to record is what the debts say. -/
theorem Orderly.no_debt {j : Nat} (hj : (w.tasks[j]?).all fun p => !records d p) (m : Move) :
    debts j ≠ some (d, m) := by
  intro hdebt
  cases htask : w.tasks[j]? with
  | none => simp [h.absent j htask] at hdebt
  | some p =>
    have hfollows := h.keeps j p htask
    rw [hdebt] at hfollows
    simp [htask, records_of_debt hfollows w.state] at hj

theorem Orderly.advance (hcalm : Undisturbed d w (.advance i)) :
    ∃ debts', Orderly d (w.advance Store.apply i) debts' := by
  have habsent : ∀ j : Nat, (w.advance Store.apply i).tasks[j]? = none → w.tasks[j]? = none := by
    intro j hj
    simpa only [List.getElem?_eq_none_iff, Pool.advance_length] using hj
  rcases h.keeps.advance Store.apply i with ⟨hstate, hkeeps⟩ |
    ⟨op, next, q, htask, hbooks, hadvance, hkeeps⟩
  · exact ⟨debts, hkeeps, fun j hj => h.absent j (habsent j hj), by rw [hstate]; exact h.balanced⟩
  · refine ⟨update debts i q, hkeeps, ?_, ?_⟩
    · intro j hj
      have hij : j ≠ i := by
        rintro rfl
        simp [habsent j hj] at htask
      rw [update_of_ne hij]
      exact h.absent j (habsent j hj)
    · rw [hadvance]
      apply h.balanced.step hbooks
      intro m hmove hor
      simp only [Undisturbed, htask, Calm] at hcalm
      have hnext : (next w.state).Follows Books (fun q => q = none) q := by
        have htask' : (w.advance Store.apply i).tasks[i]? = some (next w.state) := by
          rw [hadvance]
          exact List.getElem?_set_self (List.getElem?_eq_some_iff.mp htask).1
        have hfollows := hkeeps i _ htask'
        rwa [update_self] at hfollows
      have hrecords : (op.changes d w.state || records d (next w.state)) = true := by
        rcases hor with hchanges | rfl
        · simp [hchanges]
        · simp [records_of_debt hnext w.state]
      obtain ⟨hchanges, hothers⟩ := hcalm (by simp [hmove]) hrecords
      refine ⟨hchanges, fun j hij => h.no_debt ?_⟩
      by_cases hj : j < w.tasks.length
      · exact hothers j hj hij
      · simp [List.getElem?_eq_none (Nat.le_of_not_lt hj)]

theorem Orderly.step {e : EngineEvent} (hcalm : Undisturbed d w e) :
    ∃ debts', Orderly d (w.step cfg e) debts' := by
  cases e with
  | start c => exact ⟨_, h.start cfg c⟩
  | advance i => exact h.advance hcalm
  | status i status offlineSince =>
    refine ⟨debts, h.keeps, h.absent, h.balanced.congr rfl ?_ fun _ _ => Iff.rfl⟩
    simp only [Engine.step, Store.observe, Store.isFiled, Table.get?_modify, Option.any_map]
    congr 1
    funext r
    simp only [Schema.onId]
    split <;> rfl
  | pass seconds => exact ⟨debts, h.keeps, h.absent, h.balanced⟩

end Pool

/-- In every interleaving in which each recorded move of a device is a move that happened, and no
other program moves the device before it is recorded, the recorded moves of the device alternate,
and the last of them agrees with its row whenever none is about to be recorded. -/
theorem history_alternates (d : Nat) (s : Store) (events : List EngineEvent)
    (hstart : Agrees (s.history d) (s.isFiled d))
    (hcalm : Runs.Along (Engine.step cfg) (Undisturbed d) ⟨s, []⟩ events) :
    ((Runs.run (Engine.step cfg) ⟨s, []⟩ events).state.history d).IsChain (· ≠ ·) ∧
      (Settled d (Runs.run (Engine.step cfg) ⟨s, []⟩ events) →
        (((Runs.run (Engine.step cfg) ⟨s, []⟩ events).state.history d).getLast? = some .archived ↔
          (Runs.run (Engine.step cfg) ⟨s, []⟩ events).state.isFiled d = true)) := by
  have hinit : Orderly d ⟨s, []⟩ fun _ => none :=
    ⟨fun _ _ h => (nomatch h), fun _ _ => rfl, .inl ⟨fun _ _ h => (nomatch h), hstart⟩⟩
  obtain ⟨debts, horderly⟩ :=
    Runs.run_invariant (P := fun w => ∃ debts, Orderly d w debts)
      (fun w e ⟨debts, h⟩ hok => h.step cfg hok) ⟨_, hinit⟩ hcalm
  generalize Runs.run (Engine.step cfg) ⟨s, []⟩ events = w at horderly ⊢
  rcases horderly.balanced with ⟨-, hagrees⟩ | ⟨i, m, hdebt, -, hagrees⟩
  · exact ⟨hagrees.alternates, fun _ => hagrees.last⟩
  · refine ⟨hagrees.alternates.left_of_append, fun hsettled => ?_⟩
    have hquiet : (w.tasks[i]?).all fun p => !records d p := by
      cases htask : w.tasks[i]? with
      | none => rfl
      | some p => simp [hsettled p (List.mem_of_getElem? htask)]
    exact absurd hdebt (horderly.no_debt hquiet m)

instance (d i : Nat) (w : Engine) : (task : Option (Task Unit)) → Decidable (Calm d i w task)
  | some (.act op next) =>
    inferInstanceAs (Decidable (op.move?.any (fun m => m.1 = d) →
      (op.changes d w.state || records d (next w.state)) → op.changes d w.state ∧
        ∀ j < w.tasks.length, j ≠ i → (w.tasks[j]?).all fun p => !records d p))
  | none | some (.ret _) | some (.ask _) => isTrue trivial

instance (d : Nat) (w : Engine) : (e : EngineEvent) → Decidable (Undisturbed d w e)
  | .advance i => inferInstanceAs (Decidable (Calm d i w w.tasks[i]?))
  | .start _ | .status .. | .pass _ => isTrue trivial

/-- A device that has been offline for eight days. -/
def overdueStore : Store :=
  .loneDevice (8 * day) { id := 1, status := .offline, offlineSince := some 0 }

/-- A tick, and a manual restore that waits for its end. -/
def tickThenRestore : List EngineEvent :=
  .start (.tick none) :: List.replicate 14 (.advance 0) ++
    .start (.restore 1 false) :: List.replicate 4 (.advance 1)

theorem tick_then_restore_alternates :
    ((Runs.run (Engine.step {}) ⟨overdueStore, []⟩ tickThenRestore).state.history 1).IsChain
        (· ≠ ·) ∧
      (Settled 1 (Runs.run (Engine.step {}) ⟨overdueStore, []⟩ tickThenRestore) →
        (((Runs.run (Engine.step {}) ⟨overdueStore, []⟩ tickThenRestore).state.history 1).getLast? =
            some .archived ↔
          (Runs.run (Engine.step {}) ⟨overdueStore, []⟩ tickThenRestore).state.isFiled 1 = true)) :=
  history_alternates {} 1 overdueStore tickThenRestore ⟨by decide +kernel, by decide +kernel⟩
    (by decide +kernel)

/-- A manual archiving between the tick's list of candidates and its update. -/
def archivedInBetween : List EngineEvent :=
  [[.start (.tick none), .start (.archive 1 "")], List.replicate 6 (.advance 0),
    List.replicate 3 (.advance 1), List.replicate 8 (.advance 0)].flatten

/-- The tick records an archiving that did not happen. -/
theorem archived_twice :
    Agrees (overdueStore.history 1) (overdueStore.isFiled 1) ∧
      Settled 1 (Runs.run (Engine.step {}) ⟨overdueStore, []⟩ archivedInBetween) ∧
      ¬ ((Runs.run (Engine.step {}) ⟨overdueStore, []⟩ archivedInBetween).state.history 1).IsChain
        (· ≠ ·) := by
  refine ⟨⟨by decide +kernel, by decide +kernel⟩, ?_, by decide +kernel⟩
  unfold Settled
  decide +kernel

end Steward.Archive
