import Steward.Sessions
import Steward.Text

/-!
# Two factors

A user who has enabled the second factor is asked for a code after the password. The code
goes to an endpoint of its own, which does not ask who gave the password. The login skips
the question when it cannot read the record, and a session is enough to replace the
record by one that is not enabled. Where none of this happens, a token is issued only to
a party that presented both factors.
-/

namespace Steward.Accounts

open Programs Runs

/-! ## Codes -/

inductive TOTPError where
  | unauthorized
  | badRequest
  | notFound
  | notEnabled
  | invalidCode
  | invalidPassword
  | failed
  deriving DecidableEq

namespace TOTPRecord

def backup (r : TOTPRecord) (code : String) : Bool :=
  r.backupCodes.any fun bc => Text.trimSpace bc = Text.trimSpace code

variable (S : Service) (now : Int) (r : TOTPRecord) (code : String)

/-- A valid code or a backup code that was not used yet. -/
def Accepts : Prop :=
  S.validateCode now code r.secret = true ∨ r.backup code = true

instance :
    Decidable (r.Accepts S now code) :=
  inferInstanceAs (Decidable (_ ∨ _))

end TOTPRecord

/-- The backup codes without the first that matches. -/
def consume (codes : List String) (code : String) : List String :=
  codes.eraseP fun bc => Text.trimSpace bc = Text.trimSpace code

/-! ## The requests -/

/-- The Authenticator on a token whose signature is good. -/
def authenticate (env : Env) (session : Token) : Handler Bool := do
  let version ← read env 0 fun a => a.user.tokenVersion
  pure (version = some session.tokenVersion)

def setup (env : Env) (session : Token) (secret : String) (backupCodes : List String) :
    Handler (Except TOTPError Unit) := do
  if ← authenticate env session then
    match ← getUserByID env 1 with
    | none => pure (.error .failed)
    | some _ =>
      match ← exec env 2 (.setTOTPSecret secret backupCodes) with
      | none => pure (.error .failed)
      | some _ => pure (.ok ())
  else pure (.error .unauthorized)

variable (S : Service) (env : Env)

/-- `Enable` of the service. -/
def enableRecord (code : String) : Handler (Except TOTPError Unit) := do
  match ← read env 1 Account.totp with
  | none => pure (.error .failed)
  | some none => pure (.error .notFound)
  | some (some record) =>
    if S.validateCode (env.now 0) code record.secret then
      match ← exec env 2 .updateTOTPVerified with
      | none => pure (.error .failed)
      | some _ =>
        match ← exec env 3 .updateTOTPEnabled with
        | none => pure (.error .failed)
        | some _ => pure (.ok ())
    else pure (.error .invalidCode)

variable (session : Token)

def enable (code : String) :
    Handler (Except TOTPError Unit) := do
  if ← authenticate env session then
    if code = "" then pure (.error .badRequest) else enableRecord S env code
  else pure (.error .unauthorized)

/-- `Disable` of the service. -/
def disableRecord (password : String) :
    Handler (Except TOTPError Unit) := do
  match ← getUserByID env 1 with
  | none => pure (.error .failed)
  | some user =>
    if S.compareHashAndPassword user.passwordHash password then
      match ← exec env 2 .deleteTOTP with
      | none => pure (.error .failed)
      | some _ => pure (.ok ())
    else pure (.error .invalidPassword)

def disable (password : String) :
    Handler (Except TOTPError Unit) := do
  if ← authenticate env session then
    if password = "" then pure (.error .badRequest) else disableRecord S env password
  else pure (.error .unauthorized)

/-- `Verify` of the service: a time based code, or a backup code, which is consumed. -/
def verifyCode (code : String) : Handler (Except TOTPError Unit) := do
  match ← read env 0 Account.totp with
  | none => pure (.error .failed)
  | some none => pure (.error .notFound)
  | some (some record) =>
    if !record.enabled then pure (.error .notEnabled)
    else if S.validateCode (env.now 0) code record.secret then pure (.ok ())
    else if record.backup code then
      match ← exec env 1 (.consumeBackupCode (consume record.backupCodes code)) with
      | none => pure (.error .failed)
      | some _ => pure (.ok ())
    else pure (.error .invalidCode)

/-- The public endpoint: the code is the only proof of identity. -/
def verify (code : String) : Handler (Except TOTPError Token) := do
  if code = "" then pure (.error .badRequest)
  else
    match ← verifyCode S env code with
    | .error e => pure (.error e)
    | .ok _ =>
      match ← getUserByID env 2 with
      | none => pure (.error .failed)
      | some user =>
        match ← generateToken env 3 user.role user.mustChangePassword with
        | none => pure (.error .failed)
        | some token => pure (.ok token)

/-! ## Sequences of requests -/

abbrev Party := Nat

/-- A request, by a party that holds the session where one is needed. -/
inductive Call where
  | login (env : Env) (name password : String)
  | setup (env : Env) (session : Token) (secret : String) (backupCodes : List String)
  | enable (env : Env) (session : Token) (code : String)
  | disable (env : Env) (session : Token) (password : String)
  | verify (env : Env) (code : String)

/-- The account, whether the second factor is enabled for its user, who has presented the
right password to a login, and the tokens that were issued. -/
structure Gate where
  account : Account
  enabled : Bool := false
  passwords : List Party := []
  issued : List (Party × Token) := []

/-- The password was right, whether or not the login went on to a token. -/
def rightPassword : Except LoginError LoginResponse → Bool
  | .ok _ => true
  | .error e => e = .tokenFailed

def tokenOf : Except LoginError LoginResponse → Option Token
  | .ok response => response.token
  | .error _ => none

namespace Gate

/-- A request on its own. -/
def perform {ρ : Type} (g : Gate) (p : Handler ρ) : ρ × Account := p.exec Stmt.apply g.account

variable (g : Gate)

def signed : Bool := g.issued.any fun x => x.2 = session

def step : Party × Call → Gate
  | (q, .login env name password) =>
    let (result, account) := g.perform (login S env name password)
    { g with
      account := account
      passwords := if rightPassword result then q :: g.passwords else g.passwords
      issued := g.issued ++ ((tokenOf result).map (q, ·)).toList }
  | (_, .setup env session secret codes) =>
    if g.signed session then
      { g with account := (g.perform (setup env session secret codes)).2 }
    else g
  | (_, .enable env session code) =>
    if g.signed session then
      let (result, account) := g.perform (enable S env session code)
      { g with account := account, enabled := g.enabled || result.isOk }
    else g
  | (_, .disable env session password) =>
    if g.signed session then
      let (result, account) := g.perform (disable S env session password)
      { g with account := account, enabled := g.enabled && !result.isOk }
    else g
  | (q, .verify env code) =>
    let (result, account) := g.perform (verify S env code)
    { g with
      account := account
      issued := g.issued ++ (result.toOption.map (q, ·)).toList }

/-- The token that a request is answered with. -/
def answered : Call → Option Token
  | .login env name password => tokenOf (g.perform (login S env name password)).1
  | .verify env code => (g.perform (verify S env code)).1.toOption
  | _ => none

/-- The party has given the right password to a login, and the code it gives now is accepted
by the record. -/
def PresentsBoth : Party × Call → Prop
  | (q, .verify env code) =>
    q ∈ g.passwords ∧ ∃ record ∈ g.account.totp,
      record.enabled = true ∧ record.Accepts S (env.now 0) code
  | _ => False

instance : (x : Party × Call) → Decidable (g.PresentsBoth S x)
  | (_, .verify ..) => inferInstanceAs (Decidable (_ ∧ ∃ _ ∈ g.account.totp, _))
  | (_, .login ..) | (_, .setup ..) | (_, .enable ..) | (_, .disable ..) => isFalse id

/-- While the second factor is enabled, a token goes only to a party that presents both. -/
def TwoFactors (x : Party × Call) : Prop :=
  g.enabled = true → g.answered S x.2 ≠ none → g.PresentsBoth S x

instance (x : Party × Call) : Decidable (g.TwoFactors S x) :=
  inferInstanceAs (Decidable (_ → _ → _))

/-- While the second factor is enabled, a login reads the record, no setup goes through, and
a code comes from a party that gave the password. -/
def Careful : Party × Call → Prop
  | (_, .login env _ _) => g.enabled = true → env.fails 5 = false
  | (_, .setup env session secret codes) =>
    g.enabled = true → g.signed session = true →
      (g.perform (setup env session secret codes)).1.isOk = false
  | (q, .verify _ _) => g.enabled = true → q ∈ g.passwords
  | _ => True

instance : (x : Party × Call) → Decidable (g.Careful x)
  | (_, .login ..) | (_, .verify ..) => inferInstanceAs (Decidable (_ → _))
  | (_, .setup ..) => inferInstanceAs (Decidable (_ → _ → _))
  | (_, .enable ..) | (_, .disable ..) => isTrue trivial

end Gate

/-! ## One request -/

/-- The record of the account is enabled. -/
def Account.TwoFactorOn (a : Account) : Prop := a.totp.any TOTPRecord.enabled = true

theorem Account.TwoFactorOn.of_totp {a b : Account} (h : a.TwoFactorOn) (hb : b.totp = a.totp) :
    b.TwoFactorOn := by
  unfold Account.TwoFactorOn
  rwa [hb]

section Exec

variable {ρ : Type} {S : Service} {env : Env} {a : Account} {τ : Type} {Q : τ → Account → Prop}
  {site : Nat} {e : TOTPError}

/-- A query answers nothing when it fails. -/
theorem ends_read {f : Account → ρ} {k : Option ρ → Handler τ}
    (hfail : env.fails site = true → (k none).Ends Stmt.apply a Q)
    (h : (k (some (f a))).Ends Stmt.apply a Q) : (read env site f >>= k).Ends Stmt.apply a Q := by
  unfold read
  split
  · next hdown => exact hfail hdown
  · exact h

theorem ends_exec {op : Stmt} {k : Option Unit → Handler τ} (hfail : (k none).Ends Stmt.apply a Q)
    (h : (k (some ())).Ends Stmt.apply (op.apply a) Q) :
    (exec env site op >>= k).Ends Stmt.apply a Q := by
  unfold exec write
  split
  · exact hfail
  · exact h

/-! ### Logins -/

/-- A login leaves the record alone, and asks for the code when it reads an enabled one. -/
def LoginSpec (env : Env) (a : Account) (r : Except LoginError LoginResponse) (b : Account) :
    Prop :=
  b.totp = a.totp ∧ (a.TwoFactorOn → env.fails 5 = false → tokenOf r = none)

variable {b : Account}

theorem loginSpec_error {e : LoginError} (h : b.totp = a.totp) :
    LoginSpec env a (.error e) b := ⟨h, fun _ _ => rfl⟩

variable (user : User)

theorem loginToken_spec (h : a.TwoFactorOn → env.fails 5 = true) :
    (loginToken env user).Ends Stmt.apply a (LoginSpec env a) := by
  refine ends_read (fun _ => Prog.ends_pure _ (loginSpec_error rfl)) (Prog.ends_pure _ ⟨rfl, ?_⟩)
  intro hon hread
  rw [h hon] at hread
  cases hread

theorem loginVerified_spec :
    (loginVerified env user).Ends Stmt.apply a (LoginSpec env a) := by
  refine ends_read (fun hdown => loginToken_spec user fun _ => hdown) ?_
  split
  · exact Prog.ends_pure _ ⟨rfl, fun _ _ => rfl⟩
  · next hoff =>
    refine loginToken_spec user fun hon => absurd ?_ hoff
    exact congrArg some hon

variable (session : Token) (code password : String)

theorem loginUnlocked_spec :
    (loginUnlocked S env password user).Ends Stmt.apply a (LoginSpec env a) := by
  unfold loginUnlocked
  split
  · exact Prog.ends_pure _ (loginSpec_error rfl)
  split
  · exact ends_exec (loginVerified_spec user) (loginVerified_spec user)
  · exact ends_exec (Prog.ends_pure _ (loginSpec_error rfl))
      (Prog.ends_pure _ (loginSpec_error rfl))

theorem loginFound_spec :
    (loginFound S env password user).Ends Stmt.apply a (LoginSpec env a) := by
  unfold loginFound
  split
  · exact loginUnlocked_spec ..
  split
  · exact Prog.ends_pure _ (loginSpec_error rfl)
  · exact ends_exec (loginUnlocked_spec ..) (loginUnlocked_spec ..)

theorem read_ends (site : Nat) (f : Account → ρ) :
    (read env site f).Ends Stmt.apply a fun _ b => b = a := by
  unfold read
  split <;> rfl

theorem getUserByUsernameOrEmail_spec (name : String) :
    (getUserByUsernameOrEmail env name).Ends Stmt.apply a fun _ b => b = a := by
  refine (read_ends ..).bind fun byUsername b hb => ?_
  subst hb
  split
  · exact Prog.ends_pure _ rfl
  · exact (read_ends ..).bind fun _ _ hc => hc

theorem login_spec (name password : String) :
    (login S env name password).Ends Stmt.apply a (LoginSpec env a) := by
  refine (getUserByUsernameOrEmail_spec name).bind fun found b hb => ?_
  subst hb
  split
  · exact Prog.ends_pure _ (loginSpec_error rfl)
  · exact loginFound_spec ..

/-! ### The record -/

/-- A request that fails leaves the record alone. -/
def RecordKept (a : Account) (r : Except TOTPError Unit) (b : Account) : Prop :=
  r.isOk = false → b.totp = a.totp

theorem recordKept_error : RecordKept a (.error e) a := fun _ => rfl

theorem recordKept_ok : RecordKept a (.ok ()) b := fun h => by cases h

/-- A session that does not pass ends the request at once. -/
theorem ends_authenticate {session : Token} {p : Handler τ} {e : τ} (hno : Q e a)
    (hp : p.Ends Stmt.apply a Q) :
    (authenticate env session >>= fun ok => if ok then p else pure e).Ends Stmt.apply a Q := by
  have hread : (authenticate env session).Ends Stmt.apply a fun _ b => b = a :=
    (read_ends ..).bind fun _ _ hb => hb
  refine hread.bind fun ok b hb => ?_
  subst hb
  split
  · exact hp
  · exact hno

theorem setup_spec (secret : String) (codes : List String) :
    (setup env session secret codes).Ends Stmt.apply a (RecordKept a) := by
  refine ends_authenticate recordKept_error ?_
  refine ends_read (fun _ => recordKept_error) ?_
  exact ends_exec recordKept_error recordKept_ok

theorem disable_spec : (disable S env session password).Ends Stmt.apply a (RecordKept a) := by
  refine ends_authenticate recordKept_error ?_
  split
  · exact recordKept_error
  refine ends_read (fun _ => recordKept_error) ?_
  dsimp only
  split
  · exact ends_exec recordKept_error recordKept_ok
  · exact recordKept_error

/-- Afterwards the record is enabled, if the request succeeded or it was enabled before. -/
def RecordEnabled (a : Account) (r : Except TOTPError Unit) (b : Account) : Prop :=
  r.isOk = true ∨ a.TwoFactorOn → b.TwoFactorOn

theorem recordEnabled_error (h : a.TwoFactorOn → b.TwoFactorOn) : RecordEnabled a (.error e) b := by
  rintro (hok | hon)
  · cases hok
  · exact h hon

theorem enable_spec : (enable S env session code).Ends Stmt.apply a (RecordEnabled a) := by
  refine ends_authenticate (recordEnabled_error id) ?_
  split
  · exact recordEnabled_error id
  refine ends_read (fun _ => recordEnabled_error id) ?_
  cases htotp : a.totp with
  | none => exact recordEnabled_error id
  | some record =>
    dsimp only
    split
    · have hverified : a.TwoFactorOn → (Stmt.updateTOTPVerified.apply a).TwoFactorOn := by
        simp [Account.TwoFactorOn, Stmt.apply, Stmt.effect, htotp]
      refine ends_exec (recordEnabled_error id) ?_
      refine ends_exec (recordEnabled_error hverified) fun _ => ?_
      simp [Account.TwoFactorOn, Stmt.apply, Stmt.effect, htotp]
    · exact recordEnabled_error id

/-- A code that is verified is accepted by an enabled record, which stays enabled. -/
def CodeSpec (S : Service) (env : Env) (code : String) (a b : Account) (ok : Bool) : Prop :=
  (a.TwoFactorOn → b.TwoFactorOn) ∧ (ok = true → ∃ record ∈ a.totp,
    record.enabled = true ∧ record.Accepts S (env.now 0) code)

theorem codeSpec_error : CodeSpec S env code a a false :=
  ⟨id, fun h => by cases h⟩

theorem verifyCode_spec :
    (verifyCode S env code).Ends Stmt.apply a fun r b => CodeSpec S env code a b r.isOk := by
  refine ends_read (fun _ => codeSpec_error code) ?_
  cases htotp : a.totp with
  | none => exact codeSpec_error code
  | some record =>
    dsimp only
    split
    · exact codeSpec_error code
    next hon =>
    have henabled : record.enabled = true := by simpa using hon
    split
    · next hvalid => exact ⟨id, fun _ => ⟨record, htotp, henabled, .inl hvalid⟩⟩
    split
    · next hbackup =>
      refine ends_exec (codeSpec_error code) ⟨fun _ => ?_, fun _ => ?_⟩
      · simpa [Account.TwoFactorOn, Stmt.apply, Stmt.effect, htotp] using henabled
      · exact ⟨record, htotp, henabled, .inr hbackup⟩
    · exact codeSpec_error code

theorem verify_spec :
    (verify S env code).Ends Stmt.apply a fun r b => CodeSpec S env code a b r.isOk := by
  unfold verify
  split
  · exact codeSpec_error code
  refine (verifyCode_spec code).bind fun r b hcode => ?_
  split
  · exact hcode
  · have herror : CodeSpec S env code a b false := ⟨hcode.1, fun h => by cases h⟩
    refine ends_read (fun _ => herror) ?_
    exact ends_read (fun _ => herror) hcode

end Exec

/-! ## Every sequence -/

namespace Gate

/-- The record of a user who has enabled the second factor is enabled. -/
def Consistent (g : Gate) : Prop := g.enabled = true → g.account.TwoFactorOn

variable {S : Service} {g : Gate} {x : Party × Call}

theorem twoFactors_of_none (h : g.enabled = true → g.answered S x.2 = none) : g.TwoFactors S x :=
  fun hon hsome => absurd (h hon) hsome

theorem careful_step (hg : g.Consistent) (hx : g.Careful x) :
    g.TwoFactors S x ∧ (g.step S x).Consistent := by
  obtain ⟨q, call⟩ := x
  cases call with
  | login env name password =>
    obtain ⟨htotp, hasked⟩ : (login S env name password).Ends Stmt.apply g.account _ :=
      login_spec name password
    refine ⟨twoFactors_of_none fun hon => hasked (hg hon) (hx hon), fun hon => ?_⟩
    exact (hg hon).of_totp htotp
  | setup env session secret codes =>
    have hspec : (setup env session secret codes).Ends Stmt.apply g.account _ :=
      setup_spec session secret codes
    refine ⟨twoFactors_of_none fun _ => rfl, ?_⟩
    simp only [Gate.step]
    split
    · next hsigned => exact fun hon => (hg hon).of_totp (hspec (hx hon hsigned))
    · exact hg
  | enable env session code =>
    have hspec : (enable S env session code).Ends Stmt.apply g.account _ :=
      enable_spec session code
    refine ⟨twoFactors_of_none fun _ => rfl, ?_⟩
    simp only [Gate.step]
    split
    · intro hon
      rcases Bool.or_eq_true_iff.mp hon with hon | hok
      · exact hspec (.inr (hg hon))
      · exact hspec (.inl hok)
    · exact hg
  | disable env session password =>
    have hspec : (disable S env session password).Ends Stmt.apply g.account _ :=
      disable_spec session password
    refine ⟨twoFactors_of_none fun _ => rfl, ?_⟩
    simp only [Gate.step]
    split
    · intro hon
      obtain ⟨hon, hnot⟩ := Bool.and_eq_true_iff.mp hon
      have hfailed : (g.perform (disable S env session password)).1.isOk = false := by
        simpa using hnot
      exact (hg hon).of_totp (hspec hfailed)
    · exact hg
  | verify env code =>
    obtain ⟨hkeeps, haccepted⟩ : (verify S env code).Ends Stmt.apply g.account _ :=
      verify_spec code
    refine ⟨fun hon hsome => ⟨hx hon, haccepted ?_⟩, fun hon => hkeeps (hg hon)⟩
    change (g.perform (verify S env code)).1.isOk = true
    cases hresult : (g.perform (verify S env code)).1 with
    | error e => simp [answered, hresult, Except.toOption] at hsome
    | ok token => rfl

end Gate

/-- While no read of the record fails in a login, no record is replaced and no code comes
from a party without the password, a token takes both factors. -/
theorem two_factors_needed (S : Service) (g : Gate) (calls : List (Party × Call))
    (hstart : g.enabled = false) (hcareful : Along (Gate.step S) Gate.Careful g calls) :
    Along (Gate.step S) (Gate.TwoFactors S) g calls := by
  refine along_of_along (P := Gate.Consistent) (fun g x hg hx => Gate.careful_step hg hx) ?_
    hcareful
  intro hon
  rw [hstart] at hon
  cases hon

/-! ### Three ways around -/

def oldSession : Token := ⟨"admin", 0, false, 0⟩

/-- A user with a session, from before the second factor. -/
def freshGate : Gate where
  account := { user := operator }
  issued := [(0, oldSession)]

/-- The user enables the second factor. -/
def enrol : List (Party × Call) :=
  [(0, .setup {} oldSession "123456" ["spare"]), (0, .enable {} oldSession "123456")]

/-- The password, then the code. -/
theorem signIn_takes_both :
    Along (Gate.step plainService) (Gate.TwoFactors plainService) freshGate
      (enrol ++ [(0, .login {} "ops" "old-secret"), (0, .verify {} "123456")]) :=
  two_factors_needed plainService freshGate _ rfl (by decide +kernel)

/-- After the user has enabled the second factor, a token is issued without both. -/
def OneFactorEnough (calls : List (Party × Call)) : Prop :=
  (run (Gate.step plainService) freshGate (enrol ++ calls)).enabled = true ∧
    ¬ Along (Gate.step plainService) (Gate.TwoFactors plainService) freshGate (enrol ++ calls)

instance (calls : List (Party × Call)) : Decidable (OneFactorEnough calls) :=
  inferInstanceAs (Decidable (_ ∧ ¬ _))

/-- A code without a password, a login that cannot read the record, and a login after the
record was replaced. -/
theorem one_factor_enough :
    OneFactorEnough [(7, .verify {} "spare")] ∧
      OneFactorEnough [(7, .login { fails := fun site => site = 5 } "ops" "old-secret")] ∧
      OneFactorEnough
        [(7, .setup {} oldSession "654321" []), (7, .login {} "ops" "old-secret")] := by
  decide +kernel

end Steward.Accounts
