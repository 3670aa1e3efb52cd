import Mathlib.Algebra.Order.Group.Multiset
import Steward.TwoFactor

/-!
# Backup codes

A backup code is accepted once: the call that accepts it writes the list of codes back
without it. The list that is written was read before, so that two calls at a time may
accept the same code, and may bring back each other's. Every code is accounted for as
long as each call writes the list over the one it has read.
-/

namespace Steward.Accounts.BackupCodes

open Programs Runs Text

/-- The calls, and the backup codes that they have accepted. -/
structure Desk where
  server : Server
  accepted : Multiset String := 0

/-- The next call arrives, or one of those in progress takes its next step. -/
inductive Event where
  | call
  | advance (task : Nat)

def stored (a : Account) : Multiset String :=
  (a.totp.elim [] fun r => r.backupCodes.map Text.trimSpace : List String)

/-- The call is about to write the list without its code. -/
def consuming : Handler Unit → Option (List String)
  | .act (.consumeBackupCode codes) _ => some codes
  | _ => none

section Calls

variable (S : Service) (calls : Nat → Env × String) (i : Nat)

def handler : Handler Unit := verifyCode S (calls i).1 (calls i).2 >>= fun _ => pure ()

def code : String := Text.trimSpace (calls i).2

def step (d : Desk) : Event → Desk
  | .call => { d with server := d.server.start (handler S calls d.server.tasks.length) }
  | .advance i =>
    { server := d.server.advance Stmt.apply i
      accepted :=
        if (d.server.tasks[i]? >>= consuming).isSome then code calls i ::ₘ d.accepted
        else d.accepted }

def start (user : User) (record : TOTPRecord) : Desk := { server := Accounts.start user record }

/-- No more codes are accepted or still stored than there were at first. -/
def SingleUse (initial : Multiset String) (d : Desk) : Prop :=
  d.accepted + stored d.server.state ≤ initial

/-- A call that writes the list writes it over the one it has read. -/
def Current (d : Desk) : Event → Prop
  | .advance i => ∀ codes ∈ d.server.tasks[i]? >>= consuming,
    code calls i ::ₘ (codes.map Text.trimSpace : Multiset String) = stored d.server.state
  | .call => True

/-! ## One step -/

/-- The list without a code it has, and the code. -/
theorem consume_cons {codes : List String} {c : String}
    (h : (codes.any fun bc => trimSpace bc = trimSpace c) = true) :
    (trimSpace c ::ₘ ((consume codes c).map trimSpace : List String) : Multiset String) =
      (codes.map trimSpace : List String) := by
  induction codes with
  | nil => cases h
  | cons bc rest ih =>
    by_cases hbc : trimSpace bc = trimSpace c
    · simp [consume, hbc]
    · have hrest := ih (by simpa [hbc] using h)
      have hconsume : consume (bc :: rest) c = bc :: consume rest c := by simp [consume, hbc]
      rw [hconsume, List.map_cons, List.map_cons, ← Multiset.cons_coe, ← Multiset.cons_coe,
        Multiset.cons_swap, hrest]

/-- A call writes nothing but the list, and what it is about to write has, with its code, all
that is stored. -/
def Covers (a : Account) : Handler Unit → Prop
  | .act op _ => ∃ codes, op = .consumeBackupCode codes ∧
    stored a ≤ code calls i ::ₘ (codes.map Text.trimSpace : List String)
  | _ => True

variable {a : Account}

theorem Covers.mono {i : Nat} {b : Account} {p : Handler Unit} (h : Covers calls i a p)
    (hle : stored b ≤ stored a) : Covers calls i b p := by
  cases p with
  | act op next =>
    obtain ⟨codes, hop, hcovers⟩ := h
    exact ⟨codes, hop, le_trans hle hcovers⟩
  | ret r => trivial
  | ask next => trivial

theorem handler_leads : (handler S calls i).Leads Stmt.apply (Covers calls i) := by
  unfold handler verifyCode read
  split
  · trivial
  rw [Prog.bind_bind]
  refine Prog.leads_query fun a => ?_
  cases htotp : a.totp with
  | none => exact ⟨trivial, trivial⟩
  | some record =>
    dsimp only
    split
    · exact ⟨trivial, trivial⟩
    split
    · exact ⟨trivial, trivial⟩
    split
    · next hbackup =>
      unfold exec write
      split
      · exact ⟨trivial, trivial⟩
      · have hstored : stored a = (record.backupCodes.map trimSpace : List String) := by
          simp [stored, htotp]
        refine ⟨⟨consume record.backupCodes (calls i).2, rfl, ?_⟩, fun _ => ⟨trivial, trivial⟩⟩
        rw [hstored, code, consume_cons hbackup]
    · exact ⟨trivial, trivial⟩

theorem covers_handler (a : Account) : Covers calls i a (handler S calls i) := by
  unfold handler verifyCode read
  split <;> trivial

/-! ## Every interleaving -/

/-- Every code is accepted or stored, and the calls cover what is stored. -/
structure Balanced (initial : Multiset String) (d : Desk) : Prop where
  books : d.accepted + stored d.server.state = initial
  record : d.server.state.totp.isSome
  leads : d.server.Leads Stmt.apply (Covers calls)
  covers : ∀ i p, d.server.tasks[i]? = some p → Covers calls i d.server.state p

variable {S calls} {initial : Multiset String} {d : Desk}

theorem stored_consume (h : a.totp.isSome) (codes : List String) :
    stored ((Stmt.consumeBackupCode codes).apply a) = (codes.map trimSpace : List String) := by
  obtain ⟨record, hrecord⟩ := Option.isSome_iff_exists.mp h
  simp [stored, Stmt.apply, Stmt.effect, hrecord]

/-- What one step of a call does to the books: nothing, or it accepts its code and writes the
list. -/
theorem Balanced.advance_cases (h : Balanced calls initial d) (i : Nat) :
    (d.server.tasks[i]? >>= consuming = none ∧ (step S calls d (.advance i)).accepted = d.accepted ∧
      (step S calls d (.advance i)).server.state = d.server.state) ∨
    ∃ codes : List String, d.server.tasks[i]? >>= consuming = some codes ∧
      stored d.server.state ≤ code calls i ::ₘ (codes.map trimSpace : List String) ∧
      (step S calls d (.advance i)).accepted = code calls i ::ₘ d.accepted ∧
      (step S calls d (.advance i)).server.state =
        (Stmt.consumeBackupCode codes).apply d.server.state := by
  cases htask : d.server.tasks[i]? with
  | none => simp [step, Pool.advance, htask]
  | some p =>
    cases p with
    | ret r =>
      refine .inl ⟨rfl, by simp [step, htask, consuming], ?_⟩
      simp [step, Pool.advance, htask]
    | ask next =>
      refine .inl ⟨rfl, by simp [step, htask, consuming], ?_⟩
      simp [step, Pool.advance, htask]
    | act op next =>
      obtain ⟨codes, rfl, hcovers⟩ := h.covers i _ htask
      refine .inr ⟨codes, rfl, hcovers, by simp [step, htask, consuming], ?_⟩
      simp [step, Pool.advance, htask]

theorem Balanced.singleUse_iff (h : Balanced calls initial d) (e : Event) :
    SingleUse initial (step S calls d e) ↔ Current calls d e := by
  cases e with
  | call =>
    refine iff_of_true ?_ trivial
    exact le_of_eq h.books
  | advance i =>
    rcases h.advance_cases (S := S) i with ⟨hnone, haccepted, hstate⟩ |
      ⟨codes, hcodes, hcovers, haccepted, hstate⟩
    · refine iff_of_true ?_ ?_
      · rw [SingleUse, haccepted, hstate]
        exact le_of_eq h.books
      · intro codes hcodes
        rw [hnone] at hcodes
        cases hcodes
    · have hbooks : SingleUse initial (step S calls d (.advance i)) ↔
          code calls i ::ₘ ((codes.map trimSpace : List String) : Multiset String) ≤
            stored d.server.state := by
        rw [SingleUse, haccepted, hstate, stored_consume h.record, ← h.books,
          Multiset.cons_add, ← Multiset.add_cons]
        exact Multiset.add_le_add_iff_left
      rw [hbooks]
      constructor
      · intro hle codes' hcodes'
        rw [hcodes] at hcodes'
        cases hcodes'
        exact le_antisymm hle hcovers
      · intro hcurrent
        exact le_of_eq (hcurrent codes hcodes)

theorem Balanced.step (h : Balanced calls initial d) {e : Event} (he : Current calls d e) :
    Balanced calls initial (step S calls d e) := by
  cases e with
  | call =>
    refine ⟨h.books, h.record, h.leads.start (handler_leads S calls _), fun i p hp => ?_⟩
    rcases Pool.start_cases hp with hold | ⟨rfl, rfl⟩
    · exact h.covers i p hold
    · exact covers_handler S calls _ _
  | advance i =>
    have hleads := h.leads.advance i
    rcases h.advance_cases (S := S) i with ⟨hnone, haccepted, hstate⟩ |
      ⟨codes, hcodes, hcovers, haccepted, hstate⟩
    · refine ⟨by rw [haccepted, hstate, h.books], by rw [hstate]; exact h.record, hleads, ?_⟩
      intro j p hp
      rcases h.leads.advance_task hp with hold | ⟨-, hnew, -⟩
      · rw [hstate]
        exact h.covers j p hold
      · exact hnew
    · have hcurrent := he codes hcodes
      have hstored :
          code calls i ::ₘ stored (BackupCodes.step S calls d (.advance i)).server.state =
          stored d.server.state := by
        rw [hstate, stored_consume h.record, hcurrent]
      refine ⟨?_, ?_, hleads, ?_⟩
      · rw [haccepted, Multiset.cons_add, ← Multiset.add_cons, hstored, h.books]
      · rw [hstate]
        simpa [Stmt.apply, Stmt.effect] using h.record
      · intro j p hp
        rcases h.leads.advance_task hp with hold | ⟨-, hnew, -⟩
        · refine (h.covers j p hold).mono calls ?_
          rw [← hstored]
          exact Multiset.le_cons_self _ _
        · exact hnew

/-- All the way, no code is accepted twice or brought back, exactly when every call writes the
list over the one it has read. -/
theorem single_use_iff (S : Service) (calls : Nat → Env × String) (user : User)
    (record : TOTPRecord) (events : List Event) :
    Along (step S calls)
        (fun d e => SingleUse (record.backupCodes.map Text.trimSpace : List String)
          (step S calls d e))
        (start user record) events ↔
      Along (step S calls) (Current calls) (start user record) events := by
  have hstart : Balanced calls (record.backupCodes.map trimSpace : List String)
      (start user record) := by
    refine ⟨by simp [start, Accounts.start, stored], rfl, ?_, ?_⟩
    · intro i p hp
      cases hp
    · intro i p hp
      cases hp
  refine along_iff (C := fun _ _ => True) (fun d e hd _ => ?_) hstart
    (along_of_forall _ _ _ fun _ _ => trivial)
  exact ⟨hd.singleUse_iff e, fun hsingle => hd.step ((hd.singleUse_iff e).mp hsingle)⟩

/-- Codes that differ from each other are accepted at most once, and are not stored afterwards. -/
theorem SingleUse.accepted_once (h : SingleUse initial d) (hdistinct : initial.Nodup) :
    d.accepted.Nodup ∧ ∀ c ∈ d.accepted, c ∉ stored d.server.state := by
  obtain ⟨haccepted, -, hdisjoint⟩ := Multiset.nodup_add.mp (Multiset.nodup_of_le h hdistinct)
  exact ⟨haccepted, fun c hc hstored => Multiset.disjoint_left.mp hdisjoint hc hstored⟩

end Calls

/-! ### Two calls at a time -/

def spareCodes : TOTPRecord := ⟨"123456", true, ["aaaa", "bbbb"], true⟩

/-- Both calls read the list before one of them writes it. -/
def together : List Event := [.call, .call, .advance 0, .advance 1, .advance 0, .advance 1]

/-- Two calls with one code are both accepted; of two calls with different codes, the second
brings back the code of the first. -/
theorem codes_used_twice :
    (run (step plainService fun _ => ({}, "aaaa")) (start operator spareCodes) together).accepted =
        {"aaaa", "aaaa"} ∧
      let d := run (step plainService fun i => ({}, if i = 0 then "aaaa" else "bbbb"))
        (start operator spareCodes) together
      d.accepted = {"bbbb", "aaaa"} ∧ stored d.server.state = {"aaaa"} := by
  decide +kernel

end Steward.Accounts.BackupCodes
