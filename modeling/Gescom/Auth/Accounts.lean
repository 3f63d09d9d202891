import Gescom.Auth.Effects

/-!
# Accounts, one operation after the other

The paths that give, renew or end a session: `AuthService` (`auth.service.ts`), `InvitationsService`
(`invitations.service.ts`), `AccountRecoveryService.resetPassword` and `SuperAdminService`. Each is
a function from the database to the database and the result; what was written before an error stays,
a transaction that fails leaves nothing. `refresh_alone` and its siblings say that the statements of
`Gescom.Auth.Calls`, run without overlap, compute these functions.
-/

namespace Gescom.Auth

open ReadCommitted Transition

/-- The services around the database. -/
structure Services extends AuthEnv where
  /-- `passwordService.hash`. -/
  hashPassword : String → String
  /-- `passwordService.verify`. -/
  verifyPassword : String → String → Bool
  /-- `verifyCode(decryptSecret(mfaSecret), code)`; `none` when the secret cannot be decrypted. -/
  verifyCode : String → String → Option Bool

/-- The random values one operation may draw. -/
structure Draws where
  token : Draw
  familyId : Uuid
  userId : Uuid
  authTokenId : Uuid
  rawAuthToken : RawToken
  unusablePassword : String

/-- The values an operation draws are new. -/
def Draws.fresh (d : Draws) (E : AuthEnv) (db : Db) : Bool :=
  db.unused d.token.id (E.hashToken d.token.rawToken) &&
    db.refreshTokens.rows.all (fun t => t.familyId != d.familyId) &&
    (db.users.find? d.userId).isNone && (db.authTokens.find? d.authTokenId).isNone &&
    (db.findAuthToken (E.hashToken d.rawAuthToken)).isNone

/-- What an operation returns. -/
inductive Result where
  | pair (p : TokenPair)
  | mfaRequired (userId : Uuid)
  | invited (userId : Uuid)
  | enterprise (id : Uuid) (status : EnterpriseStatus)
  | done
  deriving DecidableEq, Repr

abbrev Outcome := Db × Except ApiError Result

def maxFailedLoginAttempts : Nat := 5
def lockoutDurationMs : Nat := 15 * 60000
def invitationTtlMs : Nat := 7 * 24 * 3600000

def userLog (action : AuditAction) (user : User) : AuditLog where
  action := action
  resource := "User"
  resourceId := some user.id
  userId := some user.id
  enterpriseId := user.enterpriseId

/-- `issueTokenPair` (`auth.service.ts:163`). -/
def issueTokenPair (E : AuthEnv) (user : User) (d : Draws) (db : Db) : Db × TokenPair :=
  (db.createToken
    { id := d.token.id, userId := user.id, familyId := d.familyId,
      tokenHash := E.hashToken d.token.rawToken,
      expiresAt := db.now + E.refreshTtl },
    ⟨signAccessToken user, d.token.rawToken⟩)

/-! ## `login` (`auth.service.ts:66`) -/

def User.loginFailed (user : User) (failedLoginCount : Nat) (lockedUntil : Option Instant) : User :=
  { user with failedLoginCount, lockedUntil }

def User.loggedIn (now : Instant) (user : User) : User :=
  { user with failedLoginCount := 0, lockedUntil := none, lastLoginAt := some now }

/-- The password is wrong: count it, and lock the account at the fifth. -/
def rejectPassword (user : User) (db : Db) : Db :=
  let failedLoginCount := user.failedLoginCount + 1
  let shouldLock := decide (maxFailedLoginAttempts ≤ failedLoginCount)
  let lockedUntil := if shouldLock then some (db.now + lockoutDurationMs) else user.lockedUntil
  let db := db.updateUser user.id (fun u => u.loginFailed failedLoginCount lockedUntil) fun _ => rfl
  let db := if shouldLock then db.record (userLog .accountLocked user) else db
  db.record (userLog .loginFailed user)

def login (S : Services) (email password : String) (d : Draws) (db : Db) : Outcome :=
  let refused : Except ApiError Result := .error (.unauthorized "Identifiants invalides")
  match db.users.rows.find? fun u => u.email == email with
  | none => (db.record { action := .loginFailed, resource := "User" }, refused)
  | some user =>
    if user.lockedUntil.any fun t => db.now < t then
      (db.record (userLog .loginFailed user), refused)
    else if inactive user (db.enterpriseOf user) then
      (db.record (userLog .loginFailed user), refused)
    else if S.verifyPassword user.passwordHash password = false then
      (rejectPassword user db, refused)
    else
      let db := db.updateUser user.id (User.loggedIn db.now) fun _ => rfl
      if user.isSuperAdmin then
        if user.mfaEnabled = false then (db.record (userLog .loginFailed user), refused)
        else (db, .ok (.mfaRequired user.id))
      else
        let (db, pair) := issueTokenPair S.toAuthEnv user d db
        (db.record (userLog .login user), .ok (.pair pair))

/-! ## `verifyMfaAndIssueTokens` (`auth.service.ts:182`) -/

/-- The challenge, as `verifyMfaChallengeToken` reads it, and the code are accepted. The status of
the user is not looked at. -/
def mfaPasses (S : Services) (db : Db) (challenge : Option Uuid) (code : String) :
    Option (User × Option Bool) :=
  match challenge.bind db.users.find? with
  | none => none
  | some user =>
    match user.mfaSecret with
    | some secret =>
      if user.mfaEnabled ∧ secret ≠ "" then some (user, S.verifyCode secret code) else none
    | none => none

def verifyMfaAndIssueTokens (S : Services) (challenge : Option Uuid) (code : String) (d : Draws)
    (db : Db) : Outcome :=
  match mfaPasses S db challenge code with
  | none => (db, .error (.unauthorized "Défi MFA invalide ou expiré"))
  | some (_, none) => (db, .error (.internal "Format de secret MFA invalide"))
  | some (user, some false) =>
    (db.record { userLog .mfaChallengeFailed user with enterpriseId := none },
      .error (.unauthorized "Code MFA invalide"))
  | some (user, some true) =>
    let (db, pair) := issueTokenPair S.toAuthEnv user d db
    (db.record { userLog .login user with enterpriseId := none }, .ok (.pair pair))

/-! ## `refresh` and `logout` -/

/-- `where: { familyId, status: { not: REVOKED } }`, the audit entry, and the error. -/
def refuse (existing : Existing) (why : Refusal) (db : Db) : Outcome :=
  ((db.revokeFamily existing.token.familyId).record (existing.refusalLog why),
    .error (.unauthorized why.message))

def refresh (E : AuthEnv) (rawToken : RawToken) (new : Draw) (db : Db) : Outcome :=
  match db.findExisting (E.hashToken rawToken) with
  | none => (db, .error (.unauthorized "Jeton de rafraîchissement invalide"))
  | some existing =>
    if existing.token.status ≠ .active then refuse existing .reuse db
    else if existing.token.expiresAt < db.now then
      (db.expireToken existing.token.id, .error (.unauthorized "Session expirée"))
    else if inactive existing.user existing.enterprise then refuse existing .inactive db
    else
      ((db.createToken (existing.successor E new db.now)).rotateToken existing.token.id new.id,
        .ok (.pair ⟨signAccessToken existing.user, new.rawToken⟩))

def logoutLog (currentUserId : Uuid) (user : Option User) : AuditLog where
  action := .logout
  resource := "User"
  resourceId := some currentUserId
  userId := some currentUserId
  enterpriseId := user.bind User.enterpriseId

def logout (E : AuthEnv) (rawToken : RawToken) (currentUserId : Uuid) (db : Db) : Outcome :=
  match db.findRefreshToken (E.hashToken rawToken) with
  | none => (db, .ok .done)
  | some existing =>
    if existing.userId ≠ currentUserId then (db, .ok .done)
    else ((db.revokeFamily existing.familyId).record
      (logoutLog currentUserId (db.users.find? currentUserId)),
      .ok .done)

/-! ## Invitations (`invitations.service.ts`) -/

/-- `invite` (line 29). -/
def invite (S : Services) (inviterEnterpriseId : Uuid) (email : String) (roleId : Uuid) (d : Draws)
    (db : Db) : Outcome :=
  if (db.users.rows.find? fun u => u.email == email).isSome then
    (db, .error (.conflict "Un compte existe déjà avec cet email"))
  else
    match db.roles.find? roleId with
    | none => (db, .error (.forbidden "Rôle invalide"))
    | some role =>
      if role.enterpriseId ≠ inviterEnterpriseId then (db, .error (.forbidden "Rôle invalide"))
      else
        let user : User :=
          { id := d.userId, email, passwordHash := S.hashPassword d.unusablePassword,
            enterpriseId := some inviterEnterpriseId, isSuperAdmin := false, identity := rfl,
            status := .pendingInvite }
        let authToken : AuthToken :=
          { id := d.authTokenId, userId := d.userId, type := .invitation,
            tokenHash := S.hashToken d.rawAuthToken, expiresAt := db.now + invitationTtlMs }
        ({ db with
            users := db.users.insert user
            userRoles := db.userRoles ++ [(user.id, role.id)]
            authTokens := db.authTokens.insert authToken }.record (userLog .userInvited user),
              .ok (.invited user.id))

/-- `data: { passwordHash, status: "ACTIVE", emailVerifiedAt: new Date() }`. -/
def User.activate (passwordHash : String) (now : Instant) (user : User) : User :=
  { user with passwordHash, status := .active, emailVerifiedAt := some now }

/-- `acceptInvitation` (line 102); neither the status of the user nor that of the enterprise is
looked at. -/
def acceptInvitation (S : Services) (rawToken : RawToken) (password : String) (d : Draws)
    (db : Db) : Outcome :=
  match db.findValidToken (S.hashToken rawToken) .invitation with
  | none => (db, .error (.unauthorized "Jeton invalide ou expiré"))
  | some authToken =>
    match db.users.find? authToken.userId with
    | none => (db, .error (.prisma .p2025))
    | some user =>
      let activated := user.activate (S.hashPassword password) db.now
      let db := (db.consumeAuthToken authToken.id db.now).updateUser authToken.userId
        (User.activate (S.hashPassword password) db.now) fun _ => rfl
      let (db, pair) := issueTokenPair S.toAuthEnv activated d
        (db.record (userLog .invitationAccepted activated))
      (db, .ok (.pair pair))

/-! ## Recovery and suspension -/

def resetLog (userId : Uuid) : AuditLog where
  action := .passwordResetCompleted
  resource := "User"
  resourceId := some userId
  userId := some userId

def resetPassword (S : Services) (rawToken : RawToken) (newPassword : String) (db : Db) : Outcome :=
  match db.findValidToken (S.hashToken rawToken) .passwordReset with
  | none => (db, .error (.unauthorized "Jeton invalide ou expiré"))
  | some authToken =>
    if (db.users.find? authToken.userId).isNone then (db, .error (.prisma .p2025))
    else ((db.commitReset authToken (S.hashPassword newPassword) db.now
      (db.liveTokensOf authToken.userId)).record
      (resetLog authToken.userId), .ok .done)

def enterpriseLog (action : AuditAction) (actorUserId enterpriseId : Uuid) : AuditLog where
  action := action
  resource := "Enterprise"
  resourceId := some enterpriseId
  userId := some actorUserId
  enterpriseId := some enterpriseId

def suspendEnterprise (actorUserId enterpriseId : Uuid) (db : Db) : Outcome :=
  if (db.enterprises.find? enterpriseId).isNone then
    (db, .error (.notFound "Entreprise introuvable"))
  else (((db.setEnterpriseStatus enterpriseId .suspended).revokeEnterprise enterpriseId).record
    (enterpriseLog .suspendAccount actorUserId enterpriseId),
      .ok (.enterprise enterpriseId .suspended))

/-- `reactivateEnterprise` (`super-admin.service.ts:105`): no session is restored. -/
def reactivateEnterprise (actorUserId enterpriseId : Uuid) (db : Db) : Outcome :=
  if (db.enterprises.find? enterpriseId).isNone then
    (db, .error (.notFound "Entreprise introuvable"))
  else ((db.setEnterpriseStatus enterpriseId .active).record
    (enterpriseLog .reactivateAccount actorUserId enterpriseId),
      .ok (.enterprise enterpriseId .active))

/-! ## Operations -/

inductive Op where
  | login (email password : String)
  | verifyMfaAndIssueTokens (challenge : Option Uuid) (code : String)
  | refresh (rawToken : RawToken)
  | logout (rawToken : RawToken) (currentUserId : Uuid)
  | invite (inviterEnterpriseId : Uuid) (email : String) (roleId : Uuid)
  | acceptInvitation (rawToken : RawToken) (password : String)
  | resetPassword (rawToken : RawToken) (newPassword : String)
  | suspendEnterprise (actorUserId enterpriseId : Uuid)
  | reactivateEnterprise (actorUserId enterpriseId : Uuid)

def Op.run (S : Services) (d : Draws) (db : Db) : Op → Outcome
  | login email password => Auth.login S email password d db
  | verifyMfaAndIssueTokens challenge code => Auth.verifyMfaAndIssueTokens S challenge code d db
  | refresh rawToken => Auth.refresh S.toAuthEnv rawToken d.token db
  | logout rawToken currentUserId => Auth.logout S.toAuthEnv rawToken currentUserId db
  | invite inviterEnterpriseId email roleId => Auth.invite S inviterEnterpriseId email roleId d db
  | acceptInvitation rawToken password => Auth.acceptInvitation S rawToken password d db
  | resetPassword rawToken newPassword => Auth.resetPassword S rawToken newPassword db
  | suspendEnterprise actorUserId enterpriseId => Auth.suspendEnterprise actorUserId enterpriseId db
  | reactivateEnterprise actorUserId enterpriseId =>
    Auth.reactivateEnterprise actorUserId enterpriseId db

/-! ## The statements, run alone -/

/-- No transaction is open. -/
def unlocked (db : Db) : AuthStore := { db, lock := fun _ => none }

@[simp] theorem unlocked_free (db : Db) (pid : Nat) (k : RowKey) :
    (unlocked db).free pid k = true := rfl

@[simp] theorem unlocked_tokensFree (db : Db) (pid : Nat) (p : RefreshToken → Bool) :
    tokensFree pid p (unlocked db) = true := by
  simp [tokensFree]

@[simp] theorem unlocked_autocommit (db : Db) (f : Db → Db) :
    (unlocked db).autocommit f = unlocked (f db) := rfl

@[simp] theorem unlocked_db (db : Db) : (unlocked db).db = db := rfl

theorem refresh_alone (E : AuthEnv) (pid : Nat) (raw : RawToken) (new : Draw) (db : Db)
    (hnew : db.unused new.id (E.hashToken new.rawToken) = true) :
    ∃ e r, alone (fun s st => RefreshState.step E pid new s st) 3 (unlocked db) (.finding raw) =
        (unlocked (refresh E raw new db).1, .finished e r) ∧
          r.map Result.pair = (refresh E raw new db).2 := by
  cases hfind : db.findExisting (E.hashToken raw) with
  | none => simp [alone, RefreshState.step, refresh, hfind, Except.map]
  | some e =>
    have hrow := token?_of_mem (List.mem_of_find?_eq_some (findExisting_token hfind))
    rcases found_cases db.now e with ⟨hf, hst⟩ | ⟨hst, ⟨hf, hexp⟩ | ⟨hle, ⟨hf, hin⟩ | ⟨hf, hin⟩⟩⟩
    · simp [alone, RefreshState.step, refresh, refuse, hfind, hf, hst, Except.map]
    · rw [Db.token?] at hrow
      simp [alone, RefreshState.step, refresh, hfind, hf, hst, hexp, hrow, Except.map]
    · simp [alone, RefreshState.step, refresh, refuse, hfind, hf, hst, Nat.not_lt.2 hle, hin,
        Except.map]
    · have hcreated :
          ((db.createToken (e.successor E new db.now)).refreshTokens).find? e.token.id =
            some e.token :=
        createToken_row hnew hrow
      have hnew' : db.unused (e.successor E new db.now).id (e.successor E new db.now).tokenHash =
          true := hnew
      simp [alone, RefreshState.step, refresh, hfind, hf, hst, Nat.not_lt.2 hle, hin, hnew',
        hcreated, Except.map]

theorem logout_alone (E : AuthEnv) (pid : Nat) (raw : RawToken) (currentUserId : Uuid) (db : Db) :
    alone (fun s st => LogoutState.step E pid s st) 4 (unlocked db) (.finding raw currentUserId) =
      (unlocked (logout E raw currentUserId db).1, .finished) := by
  cases hfind : db.findRefreshToken (E.hashToken raw) with
  | none => simp [alone, LogoutState.step, logout, hfind]
  | some t =>
    by_cases hu : t.userId = currentUserId
    · simp [alone, LogoutState.step, logout, hfind, hu, logoutLog]
      rfl
    · simp [alone, LogoutState.step, logout, hfind, hu]

theorem suspendEnterprise_alone (pid : Nat) (actorUserId enterpriseId : Uuid) (db : Db) :
    ∃ r, alone (fun s st => SuspendState.step pid s st) 4 (unlocked db)
      (.finding actorUserId enterpriseId) =
        (unlocked (suspendEnterprise actorUserId enterpriseId db).1, .finished r) ∧
      r.map (fun p => Result.enterprise p.1 p.2) =
        (suspendEnterprise actorUserId enterpriseId db).2 := by
  cases hfind : db.enterprises.find? enterpriseId with
  | none => simp [alone, SuspendState.step, suspendEnterprise, hfind, Except.map]
  | some e => simp [alone, SuspendState.step, suspendEnterprise, hfind, enterpriseLog, Except.map]

theorem alone_tokensFree {s : AuthStore} {pid : Nat} (h : s.Alone pid) (p : RefreshToken → Bool) :
    tokensFree pid p s = true := by
  simp [tokensFree, h.free]

/-- The transaction of `resetPassword` after its first statement. -/
theorem reset_transaction (E : AuthEnv) {pid : Nat} {s : AuthStore} (h : s.Alone pid)
    {a : AuthToken}
    (ha : s.db.authTokens.find? a.id = some a) (newPasswordHash : String) (now : Instant) :
    alone (fun s st => ResetState.step E pid s st) 4 s (.consuming a newPasswordHash now) =
      (unlocked ((s.db.commitReset a newPasswordHash now (s.db.liveTokensOf a.userId)).record
        (resetLog a.userId)),
        .finished (.ok ())) := by
  have hconsume : ResetState.step E pid s (.consuming a newPasswordHash now) =
      some (s.acquire pid (.authToken a.id), .revoking a newPasswordHash now) := by
    simp [ResetState.step, h.free, ha]
  rw [alone_succ hconsume]
  have h' := h.acquire (.authToken a.id)
  have hrevoke : ResetState.step E pid (s.acquire pid (.authToken a.id))
      (.revoking a newPasswordHash now) =
      some ((s.acquire pid (.authToken a.id)).acquireAll pid (s.db.liveTokenKeys a.userId),
        .committing a newPasswordHash now (s.db.liveTokensOf a.userId)) :=
    if_pos (alone_tokensFree h' _)
  rw [alone_succ hrevoke]
  have hcommit := (h'.acquireAll (s.db.liveTokenKeys a.userId)).commit
    (Db.commitReset a newPasswordHash now (s.db.liveTokensOf a.userId))
  simp only [alone, ResetState.step, hcommit]
  rfl

theorem resetPassword_alone (S : Services) (pid : Nat) (raw : RawToken) (newPassword : String)
    (db : Db) :
    ∃ r, alone (fun s st => ResetState.step S.toAuthEnv pid s st) 6 (unlocked db)
        (.finding raw (S.hashPassword newPassword)) =
          (unlocked (resetPassword S raw newPassword db).1, .finished r) ∧
      r.map (fun _ => Result.done) = (resetPassword S raw newPassword db).2 := by
  have halone : (unlocked db).Alone pid := fun _ => .inl rfl
  cases hfind : db.findValidToken (S.hashToken raw) .passwordReset with
  | none => simp [alone, ResetState.step, resetPassword, hfind, Except.map]
  | some a =>
    have hfound : ResetState.step S.toAuthEnv pid (unlocked db)
        (.finding raw (S.hashPassword newPassword)) =
        some (unlocked db, .updatingUser a (S.hashPassword newPassword)) := by
      simp [ResetState.step, hfind]
    rw [alone_succ hfound]
    cases huser : db.users.find? a.userId with
    | none =>
      have hmissing : ResetState.step S.toAuthEnv pid (unlocked db)
          (.updatingUser a (S.hashPassword newPassword)) =
          some ((unlocked db).release pid, .finished (.error (.prisma .p2025))) := by
        simp [ResetState.step, huser]
      rw [alone_succ hmissing, halone.release]
      refine ⟨.error (.prisma .p2025), ?_, ?_⟩
      · simp [alone, ResetState.step, resetPassword, hfind, huser, unlocked]
      · simp [resetPassword, hfind, huser, Except.map]
    | some user =>
      have hupdate : ResetState.step S.toAuthEnv pid (unlocked db)
          (.updatingUser a (S.hashPassword newPassword)) =
          some ((unlocked db).acquire pid (.user a.userId),
            .consuming a (S.hashPassword newPassword) db.now) := by
        simp [ResetState.step, huser]
      have htoken : db.authTokens.find? a.id = some a := by
        simp only [Db.findValidToken, Option.filter_eq_some_iff] at hfind
        exact Table.find?_of_findBy hfind.1
      refine ⟨.ok (), ?_, ?_⟩
      · rw [alone_succ hupdate, reset_transaction _ (halone.acquire _) htoken]
        simp [resetPassword, hfind, huser]
      · simp [resetPassword, hfind, huser, Except.map]

end Gescom.Auth
