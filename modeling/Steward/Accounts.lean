import Mathlib.Algebra.Ring.Int.Defs
import Steward.Interference

/-!
# User accounts

The row of one user and the requests that work on it: logins, changes of the password,
edits of the profile. A request is a program of single statements, each of which may
fail, and the requests of many clients interleave between them. A login checks the
password against the row it read first and reads the token version last; a change of
the password writes the row and then advances the version; every update of the row
writes all its columns from an earlier read.
-/

namespace Steward.Accounts

open Programs

/-! ## The tables -/

structure User where
  username : String
  email : String
  passwordHash : String
  role : String
  failedLoginAttempts : Int
  lockedUntil : Option Int
  mustChangePassword : Bool
  passwordChangedAt : Option Int
  tokenVersion : Nat
  deriving DecidableEq

/-- The row of `user_totp`. -/
structure TOTPRecord where
  secret : String
  verified : Bool
  backupCodes : List String
  enabled : Bool
  deriving DecidableEq

/-- The columns that `UpdateUser` writes. -/
structure UpdateUserParams where
  username : String
  email : String
  passwordHash : String
  role : String
  failedLoginAttempts : Int
  lockedUntil : Option Int
  mustChangePassword : Bool
  passwordChangedAt : Option Int
  deriving DecidableEq

def User.params (u : User) : UpdateUserParams :=
  ⟨u.username, u.email, u.passwordHash, u.role, u.failedLoginAttempts, u.lockedUntil,
    u.mustChangePassword, u.passwordChangedAt⟩

def User.update (u : User) (p : UpdateUserParams) : User :=
  ⟨p.username, p.email, p.passwordHash, p.role, p.failedLoginAttempts, p.lockedUntil,
    p.mustChangePassword, p.passwordChangedAt, u.tokenVersion⟩

/-! ## Answers -/

/-- The claims of a session token, and the number of statements before its version was read. -/
structure Token where
  role : String
  tokenVersion : Nat
  mustChange : Bool
  mintedAt : Nat
  deriving DecidableEq

structure LoginResponse where
  token : Option Token
  user : User
  twoFactorRequired : Bool := false
  deriving DecidableEq

inductive LoginError where
  | invalidCredentials
  | accountLocked (minutes : Int)
  | setupPending
  | tokenFailed
  deriving DecidableEq

inductive WeakPassword where
  | tooShort (minLength : Int)
  | equalsUsername
  | noUppercase
  | noLowercase
  | noDigit
  | noSpecial
  deriving DecidableEq

inductive PasswordError where
  | getFailed
  | invalidCredentials
  | samePassword
  | weakPassword (reason : WeakPassword)
  | hashFailed
  | updateFailed
  | bumpFailed
  deriving DecidableEq

/-- What a change of the password did: the hash it wrote over, and the number of statements
before it advanced the token version. -/
structure Changed where
  replaced : String
  bumpedAt : Nat
  deriving DecidableEq

inductive Answer where
  | login (password : String) (result : Except LoginError LoginResponse)
  | changed (result : Except PasswordError Changed)
  | profile (result : Except PasswordError User)

/-- The statements so far: how many there were, and which of them advanced the token version. -/
structure History where
  clock : Nat
  bumps : List Nat
  past : ∀ b ∈ bumps, b < clock

def History.empty : History where
  clock := 0
  bumps := []
  past b hb := by cases hb

def History.next (h : History) (bumped : Bool) : History where
  clock := h.clock + 1
  bumps := if bumped then h.bumps ++ [h.clock] else h.bumps
  past b hb := by
    split at hb
    · rcases List.mem_append.mp hb with hb | hb
      · exact Nat.lt_succ_of_lt (h.past b hb)
      · rw [List.mem_singleton.mp hb]
        exact Nat.lt_succ_self _
    · exact Nat.lt_succ_of_lt (h.past b hb)

/-- One user, the statements on the tables and the answers to the clients. -/
structure Account where
  user : User
  totp : Option TOTPRecord := none
  history : History := .empty
  answers : List Answer := []

/-! ## Statements -/

inductive Stmt where
  | updateUser (params : UpdateUserParams)
  | updateLoginAttempts (attempts : Int) (lockedUntil : Option Int)
  | resetLoginAttempts
  | bumpUserTokenVersion
  | setTOTPSecret (secret : String) (backupCodes : List String)
  | updateTOTPVerified
  | updateTOTPEnabled
  | deleteTOTP
  | consumeBackupCode (backupCodes : List String)
  /-- The answer goes to the client. -/
  | respond (answer : Answer)

def Stmt.effect : Stmt → Account → Account
  | updateUser p, a => { a with user := a.user.update p }
  | updateLoginAttempts n lock, a =>
    { a with user := { a.user with failedLoginAttempts := n, lockedUntil := lock } }
  | resetLoginAttempts, a =>
    { a with user := { a.user with failedLoginAttempts := 0, lockedUntil := none } }
  | bumpUserTokenVersion, a =>
    { a with user := { a.user with tokenVersion := a.user.tokenVersion + 1 } }
  | setTOTPSecret secret codes, a => { a with totp := some ⟨secret, false, codes, false⟩ }
  | updateTOTPVerified, a => { a with totp := a.totp.map fun t => { t with verified := true } }
  | updateTOTPEnabled, a => { a with totp := a.totp.map fun t => { t with enabled := true } }
  | deleteTOTP, a => { a with totp := none }
  | consumeBackupCode codes, a =>
    { a with totp := a.totp.map fun t => { t with backupCodes := codes } }
  | respond answer, a => { a with answers := a.answers ++ [answer] }

def Stmt.isBump : Stmt → Bool
  | bumpUserTokenVersion => true
  | _ => false

def Stmt.apply (op : Stmt) (a : Account) : Account :=
  { op.effect a with history := a.history.next op.isBump }

abbrev Handler := Prog Account Stmt

/-- What a request meets: which of its queries fail, the readings of the clock, and the
salt of its hash. -/
structure Env where
  fails : Nat → Bool := fun _ => false
  now : Nat → Int := fun _ => 0
  salt : Nat := 0

variable {ρ : Type} (env : Env) (site : Nat)

def read (f : Account → ρ) : Handler (Option ρ) :=
  if env.fails site then pure none else Prog.query fun a => some (f a)

/-- A statement, answered from the state it runs in unless it fails. -/
def write (op : Stmt) (f : Account → ρ) : Handler (Option ρ) :=
  if env.fails site then pure none else Prog.statement op fun a => some (f a)

def exec (op : Stmt) : Handler (Option Unit) :=
  write env site op fun _ => ()

/-! ## The service -/

structure PasswordPolicyConfig where
  minLength : Int
  requireUppercase : Bool
  requireLowercase : Bool
  requireDigit : Bool
  requireSpecial : Bool

/-- Bcrypt, the check of time based codes, and the settings. A password that is too long
has no hash. -/
structure Service where
  compareHashAndPassword : String → String → Bool
  generateFromPassword : Nat → String → Option String
  validateCode : Int → String → String → Bool
  policy : PasswordPolicyConfig
  maxFailedAttempts : Int
  lockMinutes : Int

def specialChars : List Char := "!@#$%^&*()_+-=[]\x7b\x7d;':\"\\|,.<>/?".toList

def validatePassword (policy : PasswordPolicyConfig) (password username : String) :
    Except WeakPassword Unit :=
  if password.utf8ByteSize < policy.minLength then .error (.tooShort policy.minLength)
  else if password = username then .error .equalsUsername
  else if policy.requireUppercase && !password.any fun c => 'A' ≤ c && c ≤ 'Z' then
    .error .noUppercase
  else if policy.requireLowercase && !password.any fun c => 'a' ≤ c && c ≤ 'z' then
    .error .noLowercase
  else if policy.requireDigit && !password.any fun c => '0' ≤ c && c ≤ '9' then .error .noDigit
  else if policy.requireSpecial && !password.any (· ∈ specialChars) then .error .noSpecial
  else .ok ()

/-- The attempts before a lock and its minutes, with their defaults. -/
def Service.lockoutParams (S : Service) : Int × Int :=
  (if S.maxFailedAttempts ≤ 0 then 5 else S.maxFailedAttempts,
    if S.lockMinutes ≤ 0 then 30 else S.lockMinutes)

/-- Nanoseconds. -/
def minute : Int := 60 * 10 ^ 9

def getUserByID : Handler (Option User) := read env site Account.user

def getUserByUsernameOrEmail (env : Env) (name : String) : Handler (Option User) := do
  let byUsername ← read env 0 fun a => if a.user.username = name then some a.user else none
  if byUsername.join.isSome then pure byUsername.join
  else
    let byEmail ← read env 1 fun a => if a.user.email = name then some a.user else none
    pure byEmail.join

/-- `IsEnabled`, where no answer is an error. -/
def isEnabled : Handler (Option Bool) :=
  read env site fun a => a.totp.any TOTPRecord.enabled

def generateToken (role : String) (mustChange : Bool) :
    Handler (Option Token) :=
  read env site fun a => ⟨role, a.user.tokenVersion, mustChange, a.history.clock⟩

/-! ### Logins -/

/-- The end of `Login` without a second factor. -/
def loginToken (env : Env) (user : User) : Handler (Except LoginError LoginResponse) := do
  match ← generateToken env 6 user.role user.mustChangePassword with
  | none => pure (.error .tokenFailed)
  | some token => pure (.ok { token := some token, user := user })

/-- The part of `Login` after the password was found right: an error of the check for the
second factor counts as none. -/
def loginVerified (env : Env) (user : User) : Handler (Except LoginError LoginResponse) := do
  let enabled ← isEnabled env 5
  if enabled = some true then
    pure (.ok { token := none, user := user, twoFactorRequired := true })
  else loginToken env user

variable (S : Service) (env : Env)

/-- The part of `Login` after a wrong password. -/
def loginRefused (user : User) :
    Handler (Except LoginError LoginResponse) := do
  let attempts := user.failedLoginAttempts + 1
  let lockedUntil :=
    if S.lockoutParams.1 ≤ attempts then some (env.now 2 + S.lockoutParams.2 * minute) else none
  let _ ← exec env 3 (.updateLoginAttempts attempts lockedUntil)
  pure (.error .invalidCredentials)

/-- The part of `Login` after the check for a lock. -/
def loginUnlocked (password : String) (user : User) :
    Handler (Except LoginError LoginResponse) := do
  -- an account that is not set up yet has no hash
  if user.passwordHash = "" then pure (.error .setupPending)
  else if S.compareHashAndPassword user.passwordHash password then
    let _ ← exec env 4 .resetLoginAttempts
    loginVerified env user
  else loginRefused S env user

/-- The part of `Login` after the row was found. -/
def loginFound (password : String) (user : User) :
    Handler (Except LoginError LoginResponse) := do
  match user.lockedUntil with
  | none => loginUnlocked S env password user
  | some lockedUntil =>
    if env.now 0 < lockedUntil then
      pure (.error (.accountLocked ((lockedUntil - env.now 1).tdiv minute + 1)))
    else
      -- a lock that has expired resets the counter
      match ← exec env 2 .resetLoginAttempts with
      | none => loginUnlocked S env password user
      | some _ =>
        loginUnlocked S env password { user with failedLoginAttempts := 0, lockedUntil := none }

def login (name password : String) :
    Handler (Except LoginError LoginResponse) := do
  match ← getUserByUsernameOrEmail env name with
  | none => pure (.error .invalidCredentials)
  | some user => loginFound S env password user

/-! ### Passwords and profiles -/

def ensureNewPassword (S : Service) (user : User) (newPassword : String) :
    Except PasswordError Unit :=
  if S.compareHashAndPassword user.passwordHash newPassword then .error .samePassword
  else (validatePassword S.policy newPassword user.username).mapError .weakPassword

/-- The end of every change: the row with its new hash, then the token version. -/
def replacePassword (env : Env) (params : UpdateUserParams) :
    Handler (Except PasswordError Changed) := do
  match ← write env 1 (.updateUser params) fun a => a.user.passwordHash with
  | none => pure (.error .updateFailed)
  | some replaced =>
    match ← write env 2 .bumpUserTokenVersion fun a => a.history.clock with
    | none => pure (.error .bumpFailed)
    | some bumpedAt => pure (.ok ⟨replaced, bumpedAt⟩)

variable (newPassword : String)

/-- A change of the password: the check of the row and the new password, and the columns
that are written with the new hash. -/
def changeWith
    (check : User → Except PasswordError Unit) (params : User → UpdateUserParams) :
    Handler (Except PasswordError Changed) := do
  match ← getUserByID env 0 with
  | none => pure (.error .getFailed)
  | some user =>
    match check user with
    | .error e => pure (.error e)
    | .ok _ =>
      match S.generateFromPassword env.salt newPassword with
      | none => pure (.error .hashFailed)
      | some hash =>
        replacePassword env
          { params user with passwordHash := hash, passwordChangedAt := some (env.now 0) }

def changePassword (oldPassword newPassword : String) :
    Handler (Except PasswordError Changed) :=
  changeWith S env newPassword
    (fun user =>
      if S.compareHashAndPassword user.passwordHash oldPassword then
        ensureNewPassword S user newPassword
      else .error .invalidCredentials)
    User.params

def forceChangePassword :
    Handler (Except PasswordError Changed) :=
  changeWith S env newPassword (fun user => ensureNewPassword S user newPassword)
    fun user => { user.params with mustChangePassword := false }

/-- Unlike the others, the new password may be the old one. -/
def adminResetPassword :
    Handler (Except PasswordError Changed) :=
  changeWith S env newPassword
    (fun user => (validatePassword S.policy newPassword user.username).mapError .weakPassword)
    fun user =>
      { user.params with
        failedLoginAttempts := 0
        lockedUntil := none
        mustChangePassword := true }

def updateProfile (env : Env) (email : String) : Handler (Except PasswordError User) := do
  match ← getUserByID env 0 with
  | none => pure (.error .getFailed)
  | some user =>
    let params := { user.params with email := email }
    match ← write env 1 (.updateUser params) fun a => a.user.update params with
    | none => pure (.error .updateFailed)
    | some updated => pure (.ok updated)

/-! ## Interleavings -/

inductive Request where
  | login (env : Env) (name password : String)
  | changePassword (env : Env) (oldPassword newPassword : String)
  | forceChangePassword (env : Env) (newPassword : String)
  | adminResetPassword (env : Env) (newPassword : String)
  | updateProfile (env : Env) (email : String)

def respond (answer : Answer) : Handler Unit := Prog.issue (.respond answer)

def Request.handler (S : Service) : Request → Handler Unit
  | login env name password => Accounts.login S env name password >>= (respond <| .login password ·)
  | changePassword env old new => Accounts.changePassword S env old new >>= (respond <| .changed ·)
  | forceChangePassword env new =>
    Accounts.forceChangePassword S env new >>= (respond <| .changed ·)
  | adminResetPassword env new => Accounts.adminResetPassword S env new >>= (respond <| .changed ·)
  | updateProfile env email => Accounts.updateProfile env email >>= (respond <| .profile ·)

/-- A request arrives, or one of those in progress takes its next step. -/
inductive Event where
  | request (r : Request)
  | advance (task : Nat)

abbrev Server := Pool Account Stmt

def step (S : Service) (w : Server) : Event → Server
  | .request r => w.start (r.handler S)
  | .advance task => w.advance Stmt.apply task

def start (user : User) (totp : Option TOTPRecord) : Server := { state := { user, totp } }

end Steward.Accounts
