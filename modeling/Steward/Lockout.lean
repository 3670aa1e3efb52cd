import Steward.Sessions

/-!
# Locks after wrong passwords

A login with a wrong password writes the number of attempts that it has read, plus one, and
locks the account when that is enough. The password is compared between the read and the
write, so that many logins at a time may compare theirs before one of them is counted.
Where a login reads the account only after the others are counted, there are no more
comparisons than attempts.
-/

namespace Steward.Accounts.Lockout

open Programs Runs List

/-- The logins, and the wrong passwords that were compared since the counter was last reset. -/
structure Watch where
  server : Server
  compared : Nat := 0

/-- A login arrives, or one of those in progress takes its next step. -/
inductive Event where
  | login (env : Env) (name password : String)
  | advance (task : Nat)

/-- The attempt that a login is about to count, after its password was found wrong: the number
of attempts that it writes, and the lock. -/
def attempt : Handler Unit → Option (Int × Option Int)
  | .act (.updateLoginAttempts n lock) _ => some (n, lock)
  | _ => none

def refusing (p : Handler Unit) : Bool := (attempt p).isSome

/-- The counter is about to be reset, by a success or because a lock has expired. -/
def resetting : Handler Unit → Bool
  | .act .resetLoginAttempts _ => true
  | _ => false

/-- A step compares a wrong password when it takes the login to the update of the counter: the
comparison belongs to the read before it. -/
def step (S : Service) (w : Watch) : Event → Watch
  | .login env name password =>
    { w with server := w.server.start ((Request.login env name password).handler S) }
  | .advance i =>
    let server := w.server.advance Stmt.apply i
    { server := server
      compared := (if w.server.tasks[i]?.any resetting then 0 else w.compared) +
        if server.tasks[i]?.any refusing then 1 else 0 }

def start (user : User) (totp : Option TOTPRecord) : Watch :=
  { server := Accounts.start user totp }

/-- The statements on the counter go through, and a login reads the account and compares its
password only when every other one that was found wrong is counted. -/
def TakesTurns (w : Watch) : Event → Prop
  | .login env _ _ => env.fails 2 = false ∧ env.fails 3 = false
  | .advance i => (w.server.advance Stmt.apply i).tasks[i]?.any refusing →
    ∀ p ∈ w.server.tasks, refusing p = false

instance (w : Watch) : (e : Event) → Decidable (TakesTurns w e)
  | .login .. => inferInstanceAs (Decidable (_ ∧ _))
  | .advance _ => inferInstanceAs (Decidable (_ → _))

section Steps

variable (S : Service)

theorem maxAttempts_pos : 0 < S.lockoutParams.1 := by
  unfold Service.lockoutParams
  split <;> omega

/-! ## One login -/

/-- The statements of a login. -/
def Plain : Handler Unit → Prop
  | .act (.updateLoginAttempts ..) _ | .act .resetLoginAttempts _ | .act (.respond _) _ => True
  | .act _ _ => False
  | .ask _ | .ret _ => True

/-- What a step leads to: the attempt that is about to be counted is the next one of an account
that is not locked, and it locks the account when it is the last. -/
def Fits (a : Account) (p : Handler Unit) : Prop :=
  Plain p ∧ ∀ x ∈ attempt p, x.1 = a.user.failedLoginAttempts + 1 ∧
    a.user.lockedUntil = none ∧ (x.2 = none ↔ x.1 < S.lockoutParams.1)

/-- The program fits any state, and so does what it leads to. -/
def Quiet (p : Handler Unit) : Prop := (∀ a, Fits S a p) ∧ p.Leads Stmt.apply (Fits S)

variable {S} {env : Env} {password : String} {user : User}

theorem fits_of_none {a : Account} {p : Handler Unit} (hplain : Plain p)
    (h : attempt p = none) : Fits S a p := by
  refine ⟨hplain, fun x hx => ?_⟩
  rw [h] at hx
  cases hx

theorem quiet_respond (answer : Answer) : Quiet S (respond answer) :=
  ⟨fun _ => fits_of_none trivial rfl, fun _ => ⟨fits_of_none trivial rfl, trivial⟩⟩

variable {site : Nat} {ρ : Type} {c : Nat}

/-- A query, and what follows when it has read this state. -/
theorem quiet_query {f : Account → ρ} {k : Option ρ → Handler Unit} (hfail : Quiet S (k none))
    (h : ∀ a, Fits S a (k (some (f a))) ∧ (k (some (f a))).Leads Stmt.apply (Fits S)) :
    Quiet S (read env site f >>= k) := by
  unfold read
  split
  · exact hfail
  · exact ⟨fun _ => fits_of_none trivial rfl, h⟩

theorem quiet_read {f : Account → ρ} {k : Option ρ → Handler Unit} (h : ∀ r, Quiet S (k r)) :
    Quiet S (read env site f >>= k) :=
  quiet_query (h none) fun a => ⟨(h _).1 a, (h _).2⟩

theorem quiet_reset {k : Option Unit → Handler Unit} (h : ∀ r, Quiet S (k r)) :
    Quiet S (exec env site .resetLoginAttempts >>= k) := by
  unfold exec write
  split
  · exact h none
  · exact ⟨fun _ => fits_of_none trivial rfl, fun a => ⟨(h _).1 _, (h _).2⟩⟩

theorem quiet_loginVerified :
    Quiet S (loginVerified env user >>= (respond <| .login password ·)) := by
  unfold loginVerified
  rw [Prog.bind_bind]
  refine quiet_read fun enabled => ?_
  split
  · exact quiet_respond _
  · unfold loginToken
    rw [Prog.bind_bind]
    refine quiet_read fun token => ?_
    split <;> exact quiet_respond _

theorem leads_loginUnlocked :
    (loginUnlocked S env password user >>= (respond <| .login password ·)).Leads Stmt.apply
      (Fits S) := by
  unfold loginUnlocked
  split
  · exact (quiet_respond _).2
  split
  · rw [Prog.bind_bind]
    exact (quiet_reset fun _ => quiet_loginVerified).2
  · unfold loginRefused exec write
    split
    · exact (quiet_respond _).2
    · exact fun a => ⟨(quiet_respond _).1 _, (quiet_respond _).2⟩

/-- The row that a login has just read, of an account that is not locked. -/
theorem fits_loginUnlocked {a : Account}
    (hattempts : user.failedLoginAttempts = a.user.failedLoginAttempts)
    (hlock : a.user.lockedUntil = none) :
    Fits S a (loginUnlocked S env password user >>= (respond <| .login password ·)) := by
  unfold loginUnlocked
  split
  · exact (quiet_respond _).1 a
  split
  · rw [Prog.bind_bind]
    exact (quiet_reset fun _ => quiet_loginVerified).1 a
  · unfold loginRefused exec write
    split
    · exact (quiet_respond _).1 a
    · refine ⟨trivial, fun x hx => ?_⟩
      cases hx
      refine ⟨by rw [hattempts], hlock, ?_⟩
      split
      · refine iff_of_false (fun h => ?_) (by omega)
        cases h
      · exact iff_of_true rfl (by omega)

theorem loginFound_fits (a : Account) (hreset : env.fails 2 = false) :
    Fits S a (loginFound S env password a.user >>= (respond <| .login password ·)) ∧
      (loginFound S env password a.user >>= (respond <| .login password ·)).Leads Stmt.apply
        (Fits S) := by
  unfold loginFound
  split
  · next hlock => exact ⟨fits_loginUnlocked rfl hlock, leads_loginUnlocked⟩
  split
  · exact ⟨(quiet_respond _).1 a, (quiet_respond _).2⟩
  · unfold exec write
    rw [hreset]
    refine ⟨fits_of_none trivial rfl, fun b => ⟨?_, leads_loginUnlocked⟩⟩
    exact fits_loginUnlocked rfl rfl

/-- The row is looked for by the name and then by the e-mail. -/
theorem quiet_getUser (name : String) {k : Option User → Handler Unit} (hnone : Quiet S (k none))
    (hfound : ∀ a, Fits S a (k (some a.user)) ∧ (k (some a.user)).Leads Stmt.apply (Fits S)) :
    Quiet S (getUserByUsernameOrEmail env name >>= k) := by
  have hemail : Quiet S ((do
      let byEmail ← read env 1 fun a => if a.user.email = name then some a.user else none
      pure byEmail.join) >>= k) := by
    rw [Prog.bind_bind]
    refine quiet_query hnone fun a => ?_
    by_cases hname : a.user.email = name
    · rw [if_pos hname]
      exact hfound a
    · rw [if_neg hname]
      exact ⟨hnone.1 a, hnone.2⟩
  unfold getUserByUsernameOrEmail
  rw [Prog.bind_bind]
  refine quiet_query hemail fun a => ?_
  by_cases hname : a.user.username = name
  · rw [if_pos hname]
    exact hfound a
  · rw [if_neg hname]
    exact ⟨hemail.1 a, hemail.2⟩

theorem quiet_login (name : String) (hreset : env.fails 2 = false) :
    Quiet S ((Request.login env name password).handler S) := by
  unfold Request.handler login
  dsimp only
  rw [Prog.bind_bind]
  exact quiet_getUser name (quiet_respond _) fun a => loginFound_fits a hreset

/-! ## Every interleaving -/

/-- A login that is about to count an attempt counts all that were compared. -/
def Pending (S : Service) (compared : Nat) (p : Handler Unit) : Prop :=
  ∀ x ∈ attempt p, (compared : Int) ≤ x.1 ∧ (x.2 = none ↔ x.1 < S.lockoutParams.1)

structure Counted (S : Service) (w : Watch) : Prop where
  leads : w.server.Leads Stmt.apply fun _ => Fits S
  plain : ∀ p ∈ w.server.tasks, Plain p
  pending : ∀ p ∈ w.server.tasks, Pending S w.compared p
  single : ∀ (i j : Nat) (p q : Handler Unit), w.server.tasks[i]? = some p →
    w.server.tasks[j]? = some q → refusing p = true → refusing q = true → i = j
  bound : w.compared ≤ S.lockoutParams.1
  row : (∀ p ∈ w.server.tasks, refusing p = false) → w.server.state.user.lockedUntil = none →
    w.compared ≤ w.server.state.user.failedLoginAttempts ∧ w.compared < S.lockoutParams.1

theorem pending_of_quiet {p : Handler Unit} (h : refusing p = false) : Pending S c p := by
  intro x hx
  rw [Option.isSome_eq_false_iff.mp h |> Option.isNone_iff_eq_none.mp] at hx
  cases hx

theorem Pending.of_le {c' : Nat} {p : Handler Unit} (h : Pending S c p) (hle : c' ≤ c) :
    Pending S c' p := by
  intro x hx
  obtain ⟨hcount, hlock⟩ := h x hx
  exact ⟨by omega, hlock⟩

variable {w : Watch} {i : Nat} {p q : Handler Unit} {a : Account} {base : Nat}

theorem mem_moved {j : Nat} (h : (w.server.tasks.set i q)[j]? = some p) :
    j ≠ i ∧ w.server.tasks[j]? = some p ∨ j = i ∧ p = q := by
  by_cases hij : j = i
  · subst hij
    rw [getElem?_set_self'] at h
    obtain ⟨_, -, rfl⟩ := Option.map_eq_some_iff.mp h
    exact .inr ⟨rfl, rfl⟩
  · rw [getElem?_set_ne (Ne.symm hij)] at h
    exact .inl ⟨hij, h⟩

/-- A login that had no attempt to count takes a step, after which the row shows what was
compared before; it may have compared its password. -/
theorem Counted.proceed (h : Counted S w) (htask : w.server.tasks[i]? = some p)
    (hp : refusing p = false) (hfits : Fits S a q) (hle : base ≤ w.compared)
    (hrow : (∀ r ∈ w.server.tasks, refusing r = false) → a.user.lockedUntil = none →
      base ≤ a.user.failedLoginAttempts ∧ base < S.lockoutParams.1)
    (hturn : refusing q = true → ∀ r ∈ w.server.tasks, refusing r = false)
    (hleads : Pool.Leads Stmt.apply (fun _ => Fits S) ⟨a, w.server.tasks.set i q⟩) :
    Counted S ⟨⟨a, w.server.tasks.set i q⟩, base + if refusing q then 1 else 0⟩ := by
  have hplain : ∀ r ∈ w.server.tasks.set i q, Plain r := by
    intro r hr
    rcases mem_or_eq_of_mem_set hr with hr | rfl
    · exact h.plain r hr
    · exact hfits.1
  by_cases hq : refusing q = true
  · -- no other login has an attempt to count
    have hquiet := hturn hq
    obtain ⟨x, hx⟩ := Option.isSome_iff_exists.mp hq
    obtain ⟨hnext, hunlocked, hlast⟩ := hfits.2 x hx
    obtain ⟨hshown, hless⟩ := hrow hquiet hunlocked
    refine ⟨hleads, hplain, fun r hr => ?_, fun j k r r' hj hk hr hr' => ?_, ?_, fun hnone => ?_⟩
    · rcases mem_or_eq_of_mem_set hr with hr | rfl
      · exact pending_of_quiet (hquiet r hr)
      · intro y hy
        rw [hx] at hy
        cases hy
        exact ⟨by push_cast; omega, hlast⟩
    · have honly : ∀ (l : Nat) (t : Handler Unit), (w.server.tasks.set i q)[l]? = some t →
          refusing t = true → l = i := by
        intro l t hl ht
        rcases mem_moved hl with ⟨-, hold⟩ | ⟨hli, -⟩
        · rw [hquiet t (mem_of_getElem? hold)] at ht
          cases ht
        · exact hli
      rw [honly j r hj hr, honly k r' hk hr']
    · push_cast
      omega
    · have hmem : q ∈ w.server.tasks.set i q := by
        obtain ⟨hlt, -⟩ := List.getElem?_eq_some_iff.mp htask
        exact mem_of_getElem? (getElem?_set_self hlt)
      rw [hnone q hmem] at hq
      cases hq
  · rw [if_neg hq, Nat.add_zero]
    have hmoved : ∀ (l : Nat) (t : Handler Unit), (w.server.tasks.set i q)[l]? = some t →
        refusing t = true → w.server.tasks[l]? = some t := by
      intro l t hl ht
      rcases mem_moved hl with ⟨-, hold⟩ | ⟨-, rfl⟩
      · exact hold
      · exact absurd ht hq
    refine ⟨hleads, hplain, fun r hr => ?_, fun j k r r' hj hk hr hr' => ?_, ?_, fun hnone => ?_⟩
    · rcases mem_or_eq_of_mem_set hr with hr | rfl
      · exact (h.pending r hr).of_le hle
      · exact pending_of_quiet (by simpa using hq)
    · exact h.single j k r r' (hmoved j r hj hr) (hmoved k r' hk hr') hr hr'
    · exact Int.le_trans (Int.ofNat_le.mpr hle) h.bound
    · refine hrow fun r hr => ?_
      obtain ⟨j, hj⟩ := mem_iff_getElem?.mp hr
      by_cases hij : j = i
      · rw [hij, htask] at hj
        cases hj
        exact hp
      · refine hnone r (mem_of_getElem? (i := j) ?_)
        rw [getElem?_set_ne (Ne.symm hij)]
        exact hj

/-- The login that has an attempt to count counts it. -/
theorem Counted.count (h : Counted S w) {n : Int} {lock : Option Int}
    {next : Account → Handler Unit}
    (htask : w.server.tasks[i]? = some (.act (.updateLoginAttempts n lock) next))
    (hq : refusing q = false) (hplain : Plain q)
    (hleads : Pool.Leads Stmt.apply (fun _ => Fits S)
      ⟨(Stmt.updateLoginAttempts n lock).apply w.server.state, w.server.tasks.set i q⟩) :
    Counted S ⟨⟨(Stmt.updateLoginAttempts n lock).apply w.server.state,
      w.server.tasks.set i q⟩, w.compared⟩ := by
  obtain ⟨hcompared, hlast⟩ := h.pending _ (mem_of_getElem? htask) (n, lock) rfl
  -- it was the only one
  have hquiet : ∀ r ∈ w.server.tasks.set i q, refusing r = false := by
    intro r hr
    by_contra hrefusing
    rw [Bool.not_eq_false] at hrefusing
    obtain ⟨j, hj⟩ := mem_iff_getElem?.mp hr
    rcases mem_moved hj with ⟨hij, hold⟩ | ⟨-, rfl⟩
    · exact hij (h.single j i r _ hold htask hrefusing rfl)
    · rw [hq] at hrefusing
      cases hrefusing
  refine ⟨hleads, fun r hr => ?_, fun r hr => pending_of_quiet (hquiet r hr),
    fun j k r r' hj hk hr hr' => ?_, h.bound, fun _ hunlocked => ?_⟩
  · rcases mem_or_eq_of_mem_set hr with hr | rfl
    · exact h.plain r hr
    · exact hplain
  · rw [hquiet r (mem_of_getElem? hj)] at hr
    cases hr
  · have hmore : n < S.lockoutParams.1 := hlast.mp hunlocked
    exact ⟨hcompared, by change (w.compared : Int) < _; omega⟩

theorem Counted.advance (h : Counted S w) (hturn : TakesTurns w (.advance i)) :
    Counted S (step S w (.advance i)) := by
  have hleads := h.leads.advance i
  simp only [TakesTurns] at hturn
  simp only [step]
  cases htask : w.server.tasks[i]? with
  | none =>
    have hsame : w.server.advance Stmt.apply i = w.server := by simp [Pool.advance, htask]
    rw [hsame, htask]
    exact h
  | some p =>
    obtain ⟨hlt, -⟩ := List.getElem?_eq_some_iff.mp htask
    have hself : ∀ q, (w.server.tasks.set i q)[i]? = some q := fun q =>
      getElem?_set_self hlt
    cases p with
    | ret r =>
      have hsame : w.server.advance Stmt.apply i = w.server := by simp [Pool.advance, htask]
      rw [hsame, htask]
      exact h
    | ask next =>
      rw [Pool.advance_ask Stmt.apply htask] at hleads hturn ⊢
      rw [hself] at hturn ⊢
      exact h.proceed htask rfl (h.leads i _ htask w.server.state).1 (Nat.le_refl _) h.row hturn
        hleads
    | act op next =>
      have hplain := h.plain _ (mem_of_getElem? htask)
      have hnext := (h.leads i _ htask w.server.state).1
      rw [Pool.advance_act Stmt.apply htask] at hleads hturn ⊢
      rw [hself] at hturn ⊢
      cases op with
      | resetLoginAttempts =>
        refine h.proceed htask rfl hnext (Nat.zero_le _) (fun _ _ => ?_) hturn hleads
        exact ⟨Int.le_refl _, maxAttempts_pos S⟩
      | respond answer =>
        exact h.proceed htask rfl hnext (Nat.le_refl _) h.row hturn hleads
      | updateLoginAttempts n lock =>
        have hq : refusing (next w.server.state) = false := by
          by_contra hrefusing
          have hquiet := hturn (by simpa using hrefusing) _ (mem_of_getElem? htask)
          cases hquiet
        have hcounted := h.count htask hq hnext.1 hleads
        simpa [hq, resetting] using hcounted
      | _ => exact hplain.elim

/-- A program that fits any state has no attempt to count. -/
theorem Quiet.not_refusing (h : Quiet S p) (a : Account) : refusing p = false := by
  by_contra hrefusing
  rw [Bool.not_eq_false] at hrefusing
  obtain ⟨x, hx⟩ := Option.isSome_iff_exists.mp hrefusing
  have hnext := ((h.1 { a with user := { a.user with failedLoginAttempts := x.1 } }).2 x hx).1
  dsimp only at hnext
  omega

theorem Counted.login (h : Counted S w) {env : Env} {name password : String}
    (hreset : env.fails 2 = false) : Counted S (step S w (.login env name password)) := by
  have hlogin : Quiet S ((Request.login env name password).handler S) := quiet_login name hreset
  have hquiet := hlogin.not_refusing w.server.state
  have hold : ∀ (j : Nat) (r : Handler Unit),
      (step S w (.login env name password)).server.tasks[j]? = some r → refusing r = true →
        w.server.tasks[j]? = some r := by
    intro j r hj hr
    rcases Pool.start_cases hj with hj | ⟨-, rfl⟩
    · exact hj
    · rw [hquiet] at hr
      cases hr
  refine ⟨h.leads.start hlogin.2, fun r hr => ?_, fun r hr => ?_, fun j k r r' hj hk hr hr' => ?_,
    h.bound, fun hnone => h.row fun r hr => hnone r (mem_append_left _ hr)⟩
  · rcases mem_append.mp hr with hr | hr
    · exact h.plain r hr
    · rw [mem_singleton.mp hr]
      exact (hlogin.1 w.server.state).1
  · rcases mem_append.mp hr with hr | hr
    · exact h.pending r hr
    · rw [mem_singleton.mp hr]
      exact pending_of_quiet hquiet
  · exact h.single j k r r' (hold j r hj hr) (hold k r' hk hr') hr hr'

end Steps

/-- While the logins take turns, no more wrong passwords are compared than attempts are allowed,
from one reset of the counter to the next. -/
theorem compared_le (S : Service) (user : User) (totp : Option TOTPRecord) (events : List Event)
    (hattempts : 0 ≤ user.failedLoginAttempts)
    (hturns : Along (step S) TakesTurns (start user totp) events) :
    (run (step S) (start user totp) events).compared ≤ S.lockoutParams.1 := by
  have hpos := maxAttempts_pos S
  have hstart : Counted S (start user totp) := by
    refine ⟨?_, ?_, ?_, ?_, Int.le_of_lt hpos, fun _ _ => ⟨hattempts, hpos⟩⟩
    · intro i p hp
      cases hp
    · intro p hp
      cases hp
    · intro p hp
      cases hp
    · intro i j p q hp
      cases hp
  refine (run_invariant (P := Counted S) (fun w e hw he => ?_) hstart hturns).bound
  cases e with
  | login env name password => exact hw.login he.1
  | advance i => exact hw.advance he

/-! ### Six logins at a time -/

/-- All of them read the row before one of them writes it. -/
def crowd (n : Nat) : List Event :=
  List.replicate n (.login {} "ops" "wrong-guess") ++ (List.range n).map .advance

/-- One after the other; the fifth wrong password locks the account. -/
def queue (n : Nat) : List Event :=
  (List.range n).flatMap fun i =>
    .login {} "ops" "wrong-guess" :: List.replicate 3 (.advance i)

theorem queue_compared_le :
    (run (step plainService) (start operator none) (queue 6)).compared ≤ (5 : Int) ∧
      (run (step plainService) (start operator none) (queue 6)).server.state.user.lockedUntil ≠
        none :=
  ⟨compared_le plainService operator none (queue 6) (by decide) (by decide +kernel),
    by decide +kernel⟩

theorem crowd_exceeds :
    let w := run (step plainService) (start operator none) (crowd 6)
    plainService.lockoutParams.1 < w.compared ∧ w.server.state.user.lockedUntil = none := by
  decide +kernel

end Steward.Accounts.Lockout
