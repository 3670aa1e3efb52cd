import Mathlib.Data.List.Induction
import Steward.Accounts

/-!
# Sessions after a change of the password

A token carries the token version of its user, and a change of the password advances the
version, so that every token from before stops to pass. A login that checked the old
password may read the version when the change is already through, and its token passes.
-/

namespace Steward.Accounts

open Programs Runs Prog List

namespace Account

variable (a : Account)

/-- The version check of the Authenticator. -/
def Passes (t : Token) : Prop := t.tokenVersion = a.user.tokenVersion

instance (t : Token) : Decidable (a.Passes t) :=
  inferInstanceAs (Decidable (_ = _))

/-- The changes of the password that returned success. -/
def changes : List Changed :=
  a.answers.filterMap fun
    | .changed (.ok change) => some change
    | _ => none

/-- What the requests do to an account between two steps of one of them: the statements that
advance the version are counted by it. -/
def Later (a b : Account) : Prop :=
  a.history.clock ≤ b.history.clock ∧ ∃ new : List Nat, b.history.bumps = a.history.bumps ++ new ∧
    b.user.tokenVersion = a.user.tokenVersion + new.length ∧
    ∀ k ∈ new, a.history.clock ≤ k ∧ k < b.history.clock

theorem Later.refl : a.Later a := ⟨Nat.le_refl _, [], by simp⟩

theorem Later.trans (a b c : Account) (hab : a.Later b) (hbc : b.Later c) : a.Later c := by
  obtain ⟨hab, new, hbumps, hversion, hnew⟩ := hab
  obtain ⟨hbc, more, hbumps', hversion', hmore⟩ := hbc
  refine ⟨Nat.le_trans hab hbc, new ++ more, ?_, ?_, ?_⟩
  · rw [hbumps', hbumps, append_assoc]
  · rw [hversion', hversion, length_append]
    omega
  · intro k hk
    rcases mem_append.mp hk with hk | hk
    · have := hnew k hk
      omega
    · have := hmore k hk
      omega

theorem later_apply (op : Stmt) (a : Account) : a.Later (op.apply a) := by
  refine ⟨Nat.le_succ _, if op.isBump then [a.history.clock] else [], ?_, ?_, ?_⟩
  · cases hb : op.isBump <;> simp [Stmt.apply, History.next, hb]
  · cases op <;> rfl
  · intro k hk
    split at hk
    · rw [mem_singleton.mp hk]
      exact ⟨Nat.le_refl _, Nat.lt_succ_self _⟩
    · cases hk

/-- The version has advanced once for every bump since the token was minted. -/
structure Dated (t : Token) : Prop where
  minted : t.mintedAt ≤ a.history.clock
  version : a.user.tokenVersion = t.tokenVersion + (a.history.bumps.filter (t.mintedAt ≤ ·)).length

variable {a : Account} {t : Token}

theorem Dated.later {b : Account} (h : a.Dated t) (hab : a.Later b) : b.Dated t := by
  obtain ⟨hclock, new, hbumps, hversion, hnew⟩ := hab
  refine ⟨Nat.le_trans h.minted hclock, ?_⟩
  have hall : new.filter (t.mintedAt ≤ ·) = new := by
    rw [filter_eq_self]
    intro k hk
    exact decide_eq_true (Nat.le_trans h.minted (hnew k hk).1)
  rw [hversion, h.version, hbumps, filter_append, hall, length_append]
  omega

theorem dated_now (hversion : t.tokenVersion = a.user.tokenVersion)
    (hminted : t.mintedAt = a.history.clock) : a.Dated t := by
  have hnil : a.history.bumps.filter (t.mintedAt ≤ ·) = [] := by
    rw [filter_eq_nil_iff]
    intro b hb
    simpa [hminted] using a.history.past b hb
  exact ⟨Nat.le_of_eq hminted, by rw [hnil, hversion]; rfl⟩

end Account

/-! ## What a request answers -/

/-- An answer that fits the account: a token is dated, and a change has advanced the version. -/
def Answer.Fits (a : Account) : Answer → Prop
  | .login _ (.ok response) => ∀ t ∈ response.token, a.Dated t
  | .changed (.ok change) => change.bumpedAt ∈ a.history.bumps
  | _ => True

variable {a : Account} {answer : Answer} {x : User × Token} {c : Changed}

theorem Answer.Fits.later {b : Account} (h : answer.Fits a) (hab : a.Later b) : answer.Fits b := by
  match answer, h with
  | .login _ (.ok _), h => exact fun t ht => (h t ht).later hab
  | .changed (.ok change), h =>
    obtain ⟨-, new, hbumps, -⟩ := hab
    simp only [Answer.Fits, hbumps]
    exact mem_append_left _ h
  | .login _ (.error _), _ | .changed (.error _), _ | .profile _, _ => trivial

/-- A statement may be issued at any time, an answer only when it fits. -/
def Stmt.Allowed : Stmt → Account → Prop
  | .respond answer, a => answer.Fits a
  | _, _ => True

section Requests

variable {S : Service} {env : Env} {a : Account} {ρ : Type} {Q : ρ → Account → Prop}

/-- Safe under the other requests. -/
def SafeHandler (Q : ρ → Account → Prop) (a : Account) (p : Handler ρ) : Prop :=
  p.Safe Stmt.apply Account.Later Stmt.Allowed Q a

variable {p : Handler ρ} {op : Stmt} {name : String}

theorem SafeHandler.bind {τ : Type} {Q' : τ → Account → Prop} {f : ρ → Handler τ}
    (h : SafeHandler Q a p) (hf : ∀ r b, Q r b → SafeHandler Q' b (f r)) :
    SafeHandler Q' a (p >>= f) :=
  Safe.bind Account.Later.refl h hf

variable {site : Nat} {f : Account → ρ} {user : User} {password : String}

theorem safe_read {Q : Option ρ → Account → Prop} (hfail : ∀ b, Q none b)
    (h : ∀ b c, Account.Later b c → Q (some (f b)) c) : SafeHandler Q a (read env site f) := by
  unfold read
  split
  · exact safe_pure fun b _ => hfail b
  · exact fun b _ c hbc => h b c hbc

theorem safe_write {Q : Option ρ → Account → Prop} (hop : ∀ b, op.Allowed b)
    (hfail : ∀ b, Q none b) (h : ∀ b c, Account.Later (op.apply b) c → Q (some (f b)) c) :
    SafeHandler Q a (write env site op f) := by
  unfold write
  split
  · exact safe_pure fun b _ => hfail b
  · exact safe_statement fun b _ => ⟨hop b, fun c hbc => h b c hbc⟩

theorem safe_read_any : SafeHandler (fun _ _ => True) a (read env site f) :=
  safe_read (fun _ => trivial) fun _ _ _ => trivial

theorem safe_write_any (hop : ∀ b, op.Allowed b := by exact fun _ => trivial) :
    SafeHandler (fun _ _ => True) a (write env site op f) :=
  safe_write hop (fun _ => trivial) fun _ _ _ => trivial

theorem safe_getUserByUsernameOrEmail :
    SafeHandler (fun _ _ => True) a (getUserByUsernameOrEmail env name) := by
  refine safe_read_any.bind fun byUsername b _ => ?_
  split
  · exact safe_pure fun _ _ => trivial
  · refine safe_read_any.bind fun byEmail b _ => ?_
    exact safe_pure fun _ _ => trivial

/-! ### Logins -/

theorem safe_generateToken {role : String} {mustChange : Bool} :
    SafeHandler (fun token b => ∀ t ∈ token, b.Dated t) a
      (generateToken env site role mustChange) := by
  refine safe_read (fun _ _ ht => by cases ht) fun b c hbc t ht => ?_
  cases ht
  exact (Account.dated_now rfl rfl).later hbc

/-- Every token in the result is dated. -/
def TokenDated (result : Except LoginError LoginResponse) (a : Account) : Prop :=
  ∀ password, (Answer.login password result).Fits a

theorem safe_loginError {e : LoginError} :
    SafeHandler TokenDated a (pure (.error e)) := safe_pure fun _ _ _ => trivial

theorem safe_loginToken : SafeHandler TokenDated a (loginToken env user) := by
  refine safe_generateToken.bind fun token b htoken => ?_
  split
  · exact safe_loginError
  · refine safe_pure fun c hbc _ t ht => ?_
    cases ht
    exact (htoken _ rfl).later hbc

theorem safe_loginVerified : SafeHandler TokenDated a (loginVerified env user) := by
  refine safe_read_any.bind fun enabled b _ => ?_
  split
  · exact safe_pure fun _ _ _ t ht => by cases ht
  · exact safe_loginToken

theorem safe_loginUnlocked : SafeHandler TokenDated a (loginUnlocked S env password user) := by
  unfold loginUnlocked
  split
  · exact safe_loginError
  split
  · exact SafeHandler.bind safe_write_any fun _ _ _ => safe_loginVerified
  · exact SafeHandler.bind safe_write_any fun _ _ _ => safe_loginError

theorem safe_loginFound : SafeHandler TokenDated a (loginFound S env password user) := by
  unfold loginFound
  split
  · exact safe_loginUnlocked
  split
  · exact safe_loginError
  · refine SafeHandler.bind safe_write_any fun reset b _ => ?_
    split <;> exact safe_loginUnlocked

theorem safe_login : SafeHandler TokenDated a (login S env name password) := by
  refine safe_getUserByUsernameOrEmail.bind fun found b _ => ?_
  split
  · exact safe_loginError
  · exact safe_loginFound

/-! ### Changes of the password -/

/-- The version has been advanced by a change that succeeded. -/
def ChangeBumped (result : Except PasswordError Changed) (a : Account) : Prop :=
  (Answer.changed result).Fits a

theorem safe_changeError {e : PasswordError} :
    SafeHandler ChangeBumped a (pure (.error e)) := safe_pure fun _ _ => trivial

theorem bump_mem {b c : Account} (h : Account.Later (Stmt.bumpUserTokenVersion.apply b) c) :
    b.history.clock ∈ c.history.bumps := by
  obtain ⟨-, new, hbumps, -⟩ := h
  rw [hbumps]
  exact mem_append_left _ (by simp [Stmt.apply, History.next, Stmt.isBump])

theorem safe_replacePassword {params : UpdateUserParams} :
    SafeHandler ChangeBumped a (replacePassword env params) := by
  refine SafeHandler.bind safe_write_any fun replaced b _ => ?_
  split
  · exact safe_changeError
  · next replaced =>
    refine SafeHandler.bind (Q := fun bumpedAt b => ∀ k ∈ bumpedAt, k ∈ b.history.bumps) ?_ ?_
    · refine safe_write (fun _ => trivial) (fun _ _ hk => by cases hk) fun b c hbc k hk => ?_
      cases hk
      exact bump_mem hbc
    · intro bumpedAt b hbumped
      split
      · exact safe_changeError
      · next bumpedAt =>
        have hfits : (Answer.changed (.ok ⟨replaced, bumpedAt⟩)).Fits b := hbumped bumpedAt rfl
        exact safe_pure fun c hbc => hfits.later hbc

theorem safe_changeWith {newPassword : String} {check : User → Except PasswordError Unit}
    {params : User → UpdateUserParams} :
    SafeHandler ChangeBumped a (changeWith S env newPassword check params) := by
  refine safe_read_any.bind fun found b _ => ?_
  split
  · exact safe_changeError
  split
  · exact safe_changeError
  split
  · exact safe_changeError
  · exact safe_replacePassword

theorem safe_updateProfile {email : String} :
    SafeHandler (fun _ _ => True) a (updateProfile env email) := by
  refine safe_read_any.bind fun found b _ => ?_
  split
  · exact safe_pure fun _ _ => trivial
  · refine SafeHandler.bind safe_write_any fun updated b _ => ?_
    split <;> exact safe_pure fun _ _ => trivial

/-- A request that answers with its result. -/
theorem safe_respond {answer : ρ → Answer} (h : SafeHandler Q a p)
    (hfits : ∀ r b, Q r b → (answer r).Fits b) :
    SafeHandler (fun _ _ => True) a (p >>= (respond <| answer ·)) :=
  h.bind fun r _ hr =>
    safe_statement fun _ hbc => ⟨(hfits r _ hr).later hbc, fun _ _ => trivial⟩

theorem safe_handler (r : Request) : SafeHandler (fun _ _ => True) a (r.handler S) := by
  cases r with
  | login env name password => exact safe_respond safe_login fun _ _ h => h password
  | changePassword env old new => exact safe_respond safe_changeWith fun _ _ h => h
  | forceChangePassword env new => exact safe_respond safe_changeWith fun _ _ h => h
  | adminResetPassword env new => exact safe_respond safe_changeWith fun _ _ h => h
  | updateProfile env email => exact safe_respond safe_updateProfile fun _ _ _ => trivial

end Requests

/-! ## Every interleaving -/

/-- The requests are safe, and every answer given fits. -/
structure Fitting (w : Server) : Prop where
  safe : w.Safe Stmt.apply Account.Later Stmt.Allowed
  answers : ∀ answer ∈ w.state.answers, answer.Fits w.state

theorem mem_answers {op : Stmt} (h : answer ∈ (op.apply a).answers) :
    answer ∈ a.answers ∨ op = .respond answer := by
  cases op with
  | respond r =>
    rcases mem_append.mp h with h | h
    · exact .inl h
    · exact .inr (by rw [mem_singleton.mp h])
  | _ => exact .inl h

variable {w : Server} (S : Service)

theorem Fitting.step (h : Fitting w) (e : Event) : Fitting (step S w e) := by
  cases e with
  | request r => exact ⟨h.safe.start (safe_handler r), h.answers⟩
  | advance i =>
    obtain ⟨hsafe, hstate⟩ := h.safe.advance Account.Later.refl Account.Later.trans
      (fun op a _ => Account.later_apply op a) i
    refine ⟨hsafe, ?_⟩
    simp only [Accounts.step]
    rcases hstate with hsame | ⟨op, hop, hafter⟩
    · rw [hsame]
      exact h.answers
    · rw [hafter]
      intro answer hanswer
      have hlater := Account.later_apply op w.state
      rcases mem_answers hanswer with hold | rfl
      · exact (h.answers answer hold).later hlater
      · exact Answer.Fits.later hop hlater

theorem Fitting.bumped (h : Fitting w) (hc : c ∈ w.state.changes) :
    c.bumpedAt ∈ w.state.history.bumps := by
  obtain ⟨answer, hanswer, heq⟩ := mem_filterMap.mp hc
  have hfits := h.answers answer hanswer
  split at heq
  · cases heq
    exact hfits
  · cases heq

/-- Hashes that show their password. -/
def plainService : Service where
  compareHashAndPassword hash password := hash = "#" ++ password
  generateFromPassword _ password := some ("#" ++ password)
  validateCode _ code secret := code = secret
  policy := ⟨8, false, false, false, false⟩
  maxFailedAttempts := 5
  lockMinutes := 30

def operator : User :=
  ⟨"ops", "ops@example.org", "#old-secret", "admin", 0, none, false, none, 0⟩

namespace TokenBlacklist

abbrev Entries := String → Option Int

structure State where
  clock : Int
  entries : Entries := fun _ => none

def State.add (s : State) (jti : String) (ttl : Int) : Entries :=
  Function.update s.entries jti (some (s.clock + ttl))

def State.isBlacklisted (s : State) (jti : String) : Bool × Entries :=
  match s.entries jti with
  | none => (false, s.entries)
  | some expiry =>
    if s.clock < expiry then (true, s.entries) else (false, Function.update s.entries jti none)

-- `reads`: the library hands `exp` out as the `float64` that `Logout` asks for.
variable (exp : String → Int) (reads : Bool)

/-- The checks of `Authenticator` up to the blacklist. -/
def authenticate (s : State) (jti : String) : Bool × Entries :=
  if s.clock < exp jti then (s.isBlacklisted jti).map not id else (false, s.entries)

inductive Event
  | tick (d : Nat)
  | logout (jti : String)
  | request (jti : String)

def step (s : State) : Event → State
  | .tick d => { s with clock := s.clock + d }
  | .logout jti =>
    if reads && s.clock < exp jti then { s with entries := s.add jti (exp jti - s.clock) } else s
  | .request jti => { s with entries := (authenticate exp s jti).2 }

theorem request_entry (s : State) (j jti : String) :
    (authenticate exp s j).2 jti = s.entries jti ∨
      (authenticate exp s j).2 jti = none ∧ ∀ expiry ∈ s.entries jti, expiry ≤ s.clock := by
  unfold authenticate State.isBlacklisted
  repeat' split
  all_goals by_cases hj : jti = j <;> simp_all

variable (clock : Int) (events : List Event) (jti : String)

/-- A token is listed from its logout until it expires. -/
theorem entry_run :
    let s := run (step exp reads) { clock } events
    (¬ (reads ∧ .logout jti ∈ events) → s.entries jti = none) ∧
      (reads ∧ .logout jti ∈ events → s.clock < exp jti → s.entries jti = some (exp jti)) := by
  induction events using reverseRecOn with
  | nil => simp
  | append_singleton events e ih =>
    rw [run_append, run_cons, run_nil]
    generalize run (step exp reads) { clock } events = s at ih ⊢
    cases e with
    | tick d => grind [step]
    | logout j =>
      simp only [step]
      split <;> by_cases hj : jti = j <;> simp_all only [State.add] <;> grind
    | request j =>
      rcases request_entry exp s j jti with hsame | ⟨hnone, hpast⟩
      · simpa [step, hsame] using ih
      · refine ⟨fun _ => hnone, fun h hlt => ?_⟩
        exact absurd (hpast _ (ih.2 (by simpa using h) hlt)) (Int.not_le.mpr hlt)

/-- A token passes until it expires or, if its `exp` can be read, is logged out. -/
theorem passes_iff :
    (authenticate exp (run (step exp reads) { clock } events) jti).1 = true ↔
      (run (step exp reads) { clock } events).clock < exp jti ∧
        ¬ (reads ∧ .logout jti ∈ events) := by
  have hentry := entry_run exp reads clock events jti
  unfold authenticate State.isBlacklisted
  grind

end TokenBlacklist

end Steward.Accounts
