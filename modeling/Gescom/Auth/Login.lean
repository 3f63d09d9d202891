import Gescom.Auth.Accounts

/-!
# `login`, statement by statement (`auth.service.ts:66`)

The row of the account is read once; the password is hashed against it; a wrong one is counted by an
update whose values come from the row that was read. Every statement commits at once. `login_alone`:
without overlap the statements compute `Auth.login`.
-/

namespace Gescom.Auth

open ReadCommitted Transition

/-- `user.findUnique({ where: { email } })`. -/
def Db.findUser (db : Db) (email : String) : Option User :=
  db.users.rows.find? fun u => u.email == email

def loginRefused : Except ApiError Result := .error (.unauthorized "Identifiants invalides")

inductive LoginState where
  | finding (email password : String)
  /-- `passwordService.verify`. -/
  | verifying (user : User) (password : String)
  | counting (user : User)
  | auditingLock (user : User)
  /-- `LOGIN_FAILED`, and the error. -/
  | refusing (log : AuditLog)
  | resetting (user : User)
  | issuing (user : User)
  | auditing (user : User) (pair : TokenPair)
  | finished (r : Except ApiError Result)

def User.isLocked (now : Instant) (user : User) : Bool := user.lockedUntil.any fun t => now < t

def User.shouldLock (user : User) : Bool :=
  decide (maxFailedLoginAttempts ≤ user.failedLoginCount + 1)

/-- The update of a wrong password, from the row `user` that was read. -/
def Db.countFailure (user : User) (db : Db) : Db :=
  db.updateUser user.id
    (fun u => u.loginFailed (user.failedLoginCount + 1)
      (if user.shouldLock then some (db.now + lockoutDurationMs) else user.lockedUntil))
    fun _ => rfl

theorem loggedIn_id (db : Db) (user : User) : (user.loggedIn db.now).id = user.id := rfl

def Db.resetFailures (user : User) (db : Db) : Db :=
  db.updateUser user.id (User.loggedIn db.now) (loggedIn_id db)

def LoginState.step (S : Services) (pid : Nat) (d : Draws) (s : AuthStore) :
    LoginState → Option (AuthStore × LoginState)
  | finding email password =>
    match s.db.findUser email with
    | none => some (s, refusing { action := .loginFailed, resource := "User" })
    | some user =>
      if user.isLocked s.db.now then
        some (s, refusing (userLog .loginFailed user))
      else if inactive user (s.db.enterpriseOf user) then
        some (s, refusing (userLog .loginFailed user))
      else some (s, verifying user password)
  | verifying user password =>
    if S.verifyPassword user.passwordHash password then some (s, resetting user)
    else some (s, counting user)
  | counting user =>
    if s.free pid (.user user.id) then
      match s.db.users.find? user.id with
      | none => some (s, finished (.error (.prisma .p2025)))
      | some _ =>
        some (s.autocommit (Db.countFailure user),
          if user.shouldLock then auditingLock user else refusing (userLog .loginFailed user))
    else none
  | auditingLock user =>
    some (s.autocommit (Db.record (userLog .accountLocked user)),
      refusing (userLog .loginFailed user))
  | refusing log => some (s.autocommit (Db.record log), finished loginRefused)
  | resetting user =>
    if s.free pid (.user user.id) then
      match s.db.users.find? user.id with
      | none => some (s, finished (.error (.prisma .p2025)))
      | some _ =>
        some (s.autocommit (Db.resetFailures user),
          if user.isSuperAdmin then
            if user.mfaEnabled = false then refusing (userLog .loginFailed user)
            else finished (.ok (.mfaRequired user.id))
          else issuing user)
    else none
  | issuing user =>
    some (s.autocommit fun db => (issueTokenPair S.toAuthEnv user d db).1,
      auditing user ⟨signAccessToken user, d.token.rawToken⟩)
  | auditing user pair =>
    some (s.autocommit (Db.record (userLog .login user)), finished (.ok (.pair pair)))
  | finished _ => none

/-- A call with its state and what its password check said. -/
structure LoginCall where
  st : LoginState
  verified : Option Bool := none

def LoginCall.step (S : Services) (pid : Nat) (d : Draws) (s : AuthStore) (call : LoginCall) :
    Option (AuthStore × LoginCall) :=
  (call.st.step S pid d s).map fun r =>
    (r.1, { st := r.2
            verified := match call.st with
              | .verifying user password => some (S.verifyPassword user.passwordHash password)
              | _ => call.verified })

/-- The columns the lockout rests on. -/
structure LockColumns where
  id : Uuid
  email : String
  failedLoginCount : Nat
  lockedUntil : Option Instant
  deriving DecidableEq

def User.lockColumns (u : User) : LockColumns :=
  ⟨u.id, u.email, u.failedLoginCount, u.lockedUntil⟩

/-- A change from outside: time passes, accounts appear, statuses and password hashes change. -/
structure Beside where
  apply : Db → Db
  users : ∀ db, db.users.rows.map User.lockColumns <+: (apply db).users.rows.map User.lockColumns

/-- Any number of `login` calls. -/
def logins (S : Services) : Machine AuthStore (Option LoginCall) Draws Beside where
  thread pid d s call := call.bind fun c => (c.step S pid d s).map fun r => (r.1, some r.2)
  env x s := s.autocommit x.apply

abbrev LoginPool := Pool AuthStore (Option LoginCall)

/-! ## One call alone -/

/-- A call that is refused at its first statement. -/
theorem refused_alone {S : Services} {pid : Nat} {d : Draws} {db : Db} {st : LoginState}
    (log : AuditLog)
    (h : LoginState.step S pid d (unlocked db) st = some (unlocked db, .refusing log)) :
    alone (fun s st => LoginState.step S pid d s st) 5 (unlocked db) st =
      (unlocked (db.record log), .finished loginRefused) := by
  rw [alone_succ h]
  rfl

/-- From the check of the password on. -/
theorem verified_alone (S : Services) (pid : Nat) (d : Draws) {db : Db} {user : User}
    (password : String) (hid : db.users.find? user.id = some user) :
    alone (fun s st => LoginState.step S pid d s st) 4 (unlocked db) (.verifying user password) =
      if S.verifyPassword user.passwordHash password = false then
        (unlocked (rejectPassword user db), .finished loginRefused)
      else if user.isSuperAdmin then
        if user.mfaEnabled = false then
          (unlocked ((db.resetFailures user).record (userLog .loginFailed user)),
            .finished loginRefused)
        else (unlocked (db.resetFailures user), .finished (.ok (.mfaRequired user.id)))
      else
        (unlocked ((issueTokenPair S.toAuthEnv user d (db.resetFailures user)).1.record
            (userLog .login user)),
          .finished (.ok (.pair (issueTokenPair S.toAuthEnv user d (db.resetFailures user)).2))) := by
  cases hpassword : S.verifyPassword user.passwordHash password with
  | false =>
    cases hlock : user.shouldLock with
    | false =>
      have hcount : ¬ maxFailedLoginAttempts ≤ user.failedLoginCount + 1 := by
        simpa [User.shouldLock] using hlock
      simp [alone, LoginState.step, hpassword, hid, hlock, Db.countFailure, rejectPassword, hcount]
    | true =>
      have hcount : maxFailedLoginAttempts ≤ user.failedLoginCount + 1 := by
        simpa [User.shouldLock] using hlock
      simp [alone, LoginState.step, hpassword, hid, hlock, Db.countFailure, rejectPassword, hcount]
  | true =>
    cases hadmin : user.isSuperAdmin with
    | false =>
      simp [alone, LoginState.step, hpassword, hid, hadmin]
      rfl
    | true =>
      cases hmfa : user.mfaEnabled <;> simp [alone, LoginState.step, hpassword, hid, hadmin, hmfa]

theorem login_alone (S : Services) (pid : Nat) (email password : String) (d : Draws) (db : Db) :
    alone (fun s st => LoginState.step S pid d s st) 5 (unlocked db) (.finding email password) =
      (unlocked (login S email password d db).1, .finished (login S email password d db).2) := by
  cases hfind : db.findUser email with
  | none =>
    have hrow : (db.users.rows.find? fun u => u.email == email) = none := hfind
    rw [refused_alone { action := .loginFailed, resource := "User" }]
    · simp only [login, hrow]
      rfl
    · simp only [LoginState.step, unlocked_db, hfind]
  | some user =>
    have hrow : (db.users.rows.find? fun u => u.email == email) = some user := hfind
    have hid : db.users.find? user.id = some user := Table.find?_of_findBy hrow
    cases hlocked : user.isLocked db.now with
    | true =>
      have hany : (user.lockedUntil.any fun t => db.now < t) = true := hlocked
      rw [refused_alone (userLog .loginFailed user)]
      · simp only [login, hrow, hany, if_true]
        rfl
      · simp only [LoginState.step, unlocked_db, hfind, hlocked, if_true]
    | false =>
      have hany : (user.lockedUntil.any fun t => db.now < t) = false := hlocked
      cases hinactive : inactive user (db.enterpriseOf user) with
      | true =>
        rw [refused_alone (userLog .loginFailed user)]
        · simp only [login, hrow, hany, hinactive, if_true]
          rfl
        · simp only [LoginState.step, unlocked_db, hfind, hlocked, hinactive, if_true]
          rfl
      | false =>
        have hfound : LoginState.step S pid d (unlocked db) (.finding email password) =
            some (unlocked db, .verifying user password) := by
          simp only [LoginState.step, unlocked_db, hfind, hlocked, hinactive]
          rfl
        rw [alone_succ hfound, verified_alone S pid d password hid]
        simp only [login, hrow, hany, hinactive]
        cases hpassword : S.verifyPassword user.passwordHash password with
        | false => rfl
        | true =>
          cases hadmin : user.isSuperAdmin with
          | false => rfl
          | true => cases hmfa : user.mfaEnabled <;> rfl

end Gescom.Auth
