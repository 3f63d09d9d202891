import Gescom.Auth.Db
import Gescom.Lib.ReadCommitted
import Gescom.Lib.Transition

/-!
# Refresh tokens, statement by statement

`AuthService.refresh` and `logout` (`auth.service.ts`), `AccountRecoveryService.resetPassword` and
`SuperAdminService.suspendEnterprise`. Each `await` on the database is one step. Only
`resetPassword` opens a transaction: its three writes are pending until its commit and hold their
row locks, every other statement commits at once and waits for the rows it matches to be free.
-/

namespace Gescom.Auth

open ReadCommitted Transition

/-- Whose row a lock is on. -/
inductive RowKey where
  | user (id : Uuid)
  | authToken (id : Uuid)
  | refreshToken (id : Uuid)
  deriving DecidableEq, Repr

abbrev AuthStore := Store Db RowKey

/-- The random values of one `create`. A draw that collides with a stored row is not modelled. -/
structure Draw where
  rawToken : RawToken
  id : Uuid
  deriving DecidableEq, Repr

/-- `signAccessToken`: the claims that are signed. -/
structure AccessToken where
  sub : Uuid
  enterpriseId : Option Uuid
  isSuperAdmin : Bool
  deriving DecidableEq, Repr

def signAccessToken (u : User) : AccessToken := ⟨u.id, u.enterpriseId, u.isSuperAdmin⟩

structure TokenPair where
  accessToken : AccessToken
  refreshToken : RawToken
  deriving DecidableEq, Repr

/-- The two branches of `refresh` that revoke the whole family. -/
inductive Refusal where
  | reuse | inactive
  deriving DecidableEq, Repr

def Refusal.action : Refusal → AuditAction
  | reuse => .refreshTokenReuseDetected
  | inactive => .refreshRejectedInactiveAccount

def Refusal.message : Refusal → String
  | reuse => "Session compromise, veuillez vous reconnecter"
  | inactive => "Compte ou entreprise suspendu(e)"

/-- Every row that matches `p` is free for `pid`. -/
def tokensFree (pid : Nat) (p : RefreshToken → Bool) (s : AuthStore) : Bool :=
  s.db.refreshTokens.rows.all fun t => !p t || s.free pid (.refreshToken t.id)

/-! ## `refresh` (`auth.service.ts:231`) -/

inductive RefreshState where
  | finding (rawToken : RawToken)
  | revoking (why : Refusal) (existing : Existing)
  | auditing (why : Refusal) (existing : Existing)
  | expiring (existing : Existing)
  | creating (existing : Existing)
  | rotating (existing : Existing) (new : Draw)
  | finished (existing : Option Existing) (r : Except ApiError TokenPair)

/-- The row a call has found. -/
def RefreshState.existing : RefreshState → Option Existing
  | finding _ => none
  | revoking _ e => some e
  | auditing _ e => some e
  | expiring e => some e
  | creating e => some e
  | rotating e _ => some e
  | finished e _ => e

/-- The checks on the row that was found. -/
def RefreshState.found (now : Instant) (existing : Existing) : RefreshState :=
  if existing.token.status ≠ .active then revoking .reuse existing
  else if existing.token.expiresAt < now then expiring existing
  else if inactive existing.user existing.enterprise then revoking .inactive existing
  else creating existing

/-- The successor: same user, same family. -/
def Existing.successor (E : AuthEnv) (existing : Existing) (new : Draw) (now : Instant) :
    RefreshToken where
  id := new.id
  userId := existing.token.userId
  familyId := existing.token.familyId
  tokenHash := E.hashToken new.rawToken
  expiresAt := now + E.refreshTtl

def Existing.refusalLog (existing : Existing) (why : Refusal) : AuditLog where
  action := why.action
  resource := "RefreshToken"
  resourceId := some existing.token.id
  userId := some existing.token.userId
  enterpriseId := existing.user.enterpriseId

def RefreshState.step (E : AuthEnv) (pid : Nat) (new : Draw) (s : AuthStore) :
    RefreshState → Option (AuthStore × RefreshState)
  | finding rawToken =>
    match s.db.findExisting (E.hashToken rawToken) with
    | none => some (s, finished none (.error (.unauthorized "Jeton de rafraîchissement invalide")))
    | some existing => some (s, found s.db.now existing)
  | revoking why existing =>
    let p := fun t : RefreshToken => t.familyId == existing.token.familyId && t.status != .revoked
    if tokensFree pid p s then
      some (s.autocommit (Db.revokeFamily existing.token.familyId), auditing why existing)
    else none
  | auditing why existing =>
    some (s.autocommit (Db.record (existing.refusalLog why)),
      finished (some existing) (.error (.unauthorized why.message)))
  | expiring existing =>
    if s.free pid (.refreshToken existing.token.id) then
      match s.db.refreshTokens.find? existing.token.id with
      | none => some (s, finished (some existing) (.error (.prisma .p2025)))
      | some _ =>
        some (s.autocommit (Db.expireToken existing.token.id),
          finished (some existing) (.error (.unauthorized "Session expirée")))
    else none
  | creating existing =>
    let token := existing.successor E new s.db.now
    if s.db.unused token.id token.tokenHash then
      some (s.autocommit (Db.createToken token), rotating existing new)
    else none
  | rotating existing new =>
    if s.free pid (.refreshToken existing.token.id) then
      match s.db.refreshTokens.find? existing.token.id with
      | none => some (s, finished (some existing) (.error (.prisma .p2025)))
      | some _ =>
        some (s.autocommit (Db.rotateToken existing.token.id new.id),
          finished (some existing) (.ok ⟨signAccessToken existing.user, new.rawToken⟩))
    else none
  | finished _ _ => none

/-- What one statement of `refresh` does. -/
inductive RefreshStep (E : AuthEnv) (s : AuthStore) :
    Draw → RefreshState → AuthStore → RefreshState → Prop
  | unknown {new rawToken} (h : s.db.findExisting (E.hashToken rawToken) = none) :
      RefreshStep E s new (.finding rawToken) s
        (.finished none (.error (.unauthorized "Jeton de rafraîchissement invalide")))
  | found {new rawToken existing} (h : s.db.findExisting (E.hashToken rawToken) = some existing) :
      RefreshStep E s new (.finding rawToken) s (.found s.db.now existing)
  | revoke {new why existing} :
      RefreshStep E s new (.revoking why existing)
        (s.autocommit (Db.revokeFamily existing.token.familyId))
        (.auditing why existing)
  | audit {new why existing} :
      RefreshStep E s new (.auditing why existing)
        (s.autocommit (Db.record (existing.refusalLog why)))
        (.finished (some existing) (.error (.unauthorized why.message)))
  | expire {new existing} :
      RefreshStep E s new (.expiring existing) (s.autocommit (Db.expireToken existing.token.id))
        (.finished (some existing) (.error (.unauthorized "Session expirée")))
  | create {new existing}
      (h : s.db.unused (existing.successor E new s.db.now).id
        (existing.successor E new s.db.now).tokenHash = true) :
      RefreshStep E s new (.creating existing)
        (s.autocommit (Db.createToken (existing.successor E new s.db.now))) (.rotating existing new)
  | rotate {d existing new} :
      RefreshStep E s d (.rotating existing new)
        (s.autocommit (Db.rotateToken existing.token.id new.id))
        (.finished (some existing) (.ok ⟨signAccessToken existing.user, new.rawToken⟩))
  | missing {d st existing e} (hst : st = .expiring existing ∨ ∃ new, st = .rotating existing new)
      (h : s.db.refreshTokens.find? existing.token.id = none) :
      RefreshStep E s d st s (.finished (some existing) (.error e))

theorem found_cases (now : Instant) (e : Existing) :
    (RefreshState.found now e = .revoking .reuse e ∧ e.token.status ≠ .active) ∨
    e.token.status = .active ∧
      ((RefreshState.found now e = .expiring e ∧ e.token.expiresAt < now) ∨
       now ≤ e.token.expiresAt ∧
        ((RefreshState.found now e = .revoking .inactive e ∧ inactive e.user e.enterprise = true) ∨
          RefreshState.found now e = .creating e ∧ inactive e.user e.enterprise = false)) := by
  unfold RefreshState.found
  by_cases hst : e.token.status = .active
  · refine .inr ⟨hst, ?_⟩
    by_cases hexp : e.token.expiresAt < now
    · simp [hst, hexp]
    · refine .inr ⟨Nat.le_of_not_lt hexp, ?_⟩
      by_cases hin : inactive e.user e.enterprise = true
      · simp [hst, hexp, hin]
      · simp only [Bool.not_eq_true] at hin
        simp [hst, hexp, hin]
  · simp [hst]

theorem existing_found (now : Instant) (e : Existing) :
    (RefreshState.found now e).existing = some e := by
  rcases found_cases now e with ⟨h, -⟩ | ⟨-, ⟨h, -⟩ | ⟨-, ⟨h, -⟩ | ⟨h, -⟩⟩⟩ <;> rw [h] <;> rfl

theorem refresh_step {E : AuthEnv} {pid : Nat} {new : Draw} {s s' : AuthStore}
    {st st' : RefreshState}
    (h : st.step E pid new s = some (s', st')) : RefreshStep E s new st s' st' := by
  cases st with
  | finding rawToken =>
    simp only [RefreshState.step] at h
    split at h <;> cases h
    · exact .unknown ‹_›
    · exact .found ‹_›
  | revoking why existing =>
    simp only [RefreshState.step] at h
    split at h <;> cases h
    exact .revoke
  | auditing why existing => cases h; exact .audit
  | expiring existing =>
    simp only [RefreshState.step] at h
    split at h
    · split at h <;> cases h
      · exact .missing (.inl rfl) ‹_›
      · exact .expire
    · cases h
  | creating existing =>
    simp only [RefreshState.step] at h
    split at h <;> cases h
    exact .create ‹_›
  | rotating existing n =>
    simp only [RefreshState.step] at h
    split at h
    · split at h <;> cases h
      · exact .missing (.inr ⟨n, rfl⟩) ‹_›
      · exact .rotate
    · cases h
  | finished existing r => cases h

/-! ## `logout` (`auth.service.ts:321`) -/

inductive LogoutState where
  | finding (rawToken : RawToken) (currentUserId : Uuid)
  | revoking (existing : RefreshToken) (currentUserId : Uuid)
  | readingUser (currentUserId : Uuid)
  | auditing (currentUserId : Uuid) (user : Option User)
  | finished

def LogoutState.step (E : AuthEnv) (pid : Nat) (s : AuthStore) :
    LogoutState → Option (AuthStore × LogoutState)
  | finding rawToken currentUserId =>
    match s.db.findRefreshToken (E.hashToken rawToken) with
    | none => some (s, finished)
    | some existing =>
      if existing.userId ≠ currentUserId then some (s, finished)
      else some (s, revoking existing currentUserId)
  | revoking existing currentUserId =>
    if tokensFree pid (fun t => t.familyId == existing.familyId && t.status != .revoked) s then
      some (s.autocommit (Db.revokeFamily existing.familyId), readingUser currentUserId)
    else none
  | readingUser currentUserId => some (s, auditing currentUserId (s.db.users.find? currentUserId))
  | auditing currentUserId user =>
    some (s.autocommit (Db.record
      { action := .logout, resource := "User", resourceId := some currentUserId,
        userId := some currentUserId,
        enterpriseId := user.bind User.enterpriseId }), finished)
  | finished => none

/-! ## `resetPassword` (`account-recovery.service.ts:75`) -/

inductive ResetState where
  | finding (rawToken : RawToken) (newPasswordHash : String)
  | updatingUser (authToken : AuthToken) (newPasswordHash : String)
  | consuming (authToken : AuthToken) (newPasswordHash : String) (now : Instant)
  | revoking (authToken : AuthToken) (newPasswordHash : String) (now : Instant)
  | committing (authToken : AuthToken) (newPasswordHash : String) (now : Instant)
    (revoked : List Uuid)
  | auditing (authToken : AuthToken)
  | finished (r : Except ApiError Unit)

/-- `data: { passwordHash, failedLoginCount: 0, lockedUntil: null }`. -/
def User.resetPassword (newPasswordHash : String) (u : User) : User :=
  { u with passwordHash := newPasswordHash, failedLoginCount := 0, lockedUntil := none }

def Db.resetUser (id : Uuid) (newPasswordHash : String) (db : Db) : Db :=
  db.updateUser id (User.resetPassword newPasswordHash) fun _ => rfl

def Db.consumeAuthToken (id : Uuid) (now : Instant) (db : Db) : Db :=
  { db with
    authTokens := db.authTokens.update id (fun t => { t with consumedAt := some now }) fun _ => rfl }

/-- The rows of a user that `updateMany` matches. -/
def Db.liveTokensOf (db : Db) (userId : Uuid) : List Uuid :=
  (db.refreshTokens.rows.filter fun t => t.userId == userId && t.status != .revoked).map
    RefreshToken.id

/-- Their locks. -/
def Db.liveTokenKeys (db : Db) (userId : Uuid) : RowKey → Bool
  | .refreshToken id => (db.liveTokensOf userId).contains id
  | _ => false

/-- The three writes of the transaction. -/
def Db.commitReset (authToken : AuthToken) (newPasswordHash : String) (now : Instant)
    (revoked : List Uuid) (db : Db) : Db :=
  ((db.resetUser authToken.userId newPasswordHash).consumeAuthToken authToken.id now).revokeWhere
    (fun t => revoked.contains t.id) now

def ResetState.step (E : AuthEnv) (pid : Nat) (s : AuthStore) :
    ResetState → Option (AuthStore × ResetState)
  | finding rawToken newPasswordHash =>
    match s.db.findValidToken (E.hashToken rawToken) .passwordReset with
    | none => some (s, finished (.error (.unauthorized "Jeton invalide ou expiré")))
    | some authToken => some (s, updatingUser authToken newPasswordHash)
  | updatingUser authToken newPasswordHash =>
    if s.free pid (.user authToken.userId) then
      match s.db.users.find? authToken.userId with
      | none => some (s.release pid, finished (.error (.prisma .p2025)))
      | some _ =>
        some (s.acquire pid (.user authToken.userId), consuming authToken newPasswordHash s.db.now)
    else none
  | consuming authToken newPasswordHash now =>
    if s.free pid (.authToken authToken.id) then
      match s.db.authTokens.find? authToken.id with
      | none => some (s.release pid, finished (.error (.prisma .p2025)))
      | some _ =>
        some (s.acquire pid (.authToken authToken.id), revoking authToken newPasswordHash now)
    else none
  | revoking authToken newPasswordHash now =>
    if tokensFree pid (fun t => t.userId == authToken.userId && t.status != .revoked) s then
      some (s.acquireAll pid (s.db.liveTokenKeys authToken.userId),
        committing authToken newPasswordHash now (s.db.liveTokensOf authToken.userId))
    else none
  | committing authToken newPasswordHash now revoked =>
    some (s.commit pid (Db.commitReset authToken newPasswordHash now revoked), auditing authToken)
  | auditing authToken =>
    some (s.autocommit (Db.record
      { action := .passwordResetCompleted, resource := "User", resourceId := some authToken.userId,
        userId := some authToken.userId }), finished (.ok ()))
  | finished _ => none

/-! ## `suspendEnterprise` (`super-admin.service.ts:75`) -/

inductive SuspendState where
  | finding (actorUserId enterpriseId : Uuid)
  | settingStatus (actorUserId enterpriseId : Uuid)
  | revoking (actorUserId enterpriseId : Uuid)
  | auditing (actorUserId enterpriseId : Uuid)
  | finished (r : Except ApiError (Uuid × EnterpriseStatus))

def Db.setEnterpriseStatus (id : Uuid) (status : EnterpriseStatus) (db : Db) : Db :=
  { db with enterprises := db.enterprises.update id (fun e => { e with status }) fun _ => rfl }

/-- `where: { user: { enterpriseId } }`. -/
def Db.ofEnterprise (db : Db) (enterpriseId : Uuid) (t : RefreshToken) : Bool :=
  (db.users.find? t.userId).any fun u => u.enterpriseId == some enterpriseId

/-- `revokeAllRefreshTokensForEnterprise` (`cross-tenant.repository.ts:169`). -/
def Db.revokeEnterprise (enterpriseId : Uuid) (db : Db) : Db :=
  db.revokeWhere (db.ofEnterprise enterpriseId) db.now

def SuspendState.step (pid : Nat) (s : AuthStore) : SuspendState → Option (AuthStore × SuspendState)
  | finding actorUserId enterpriseId =>
    match s.db.enterprises.find? enterpriseId with
    | none => some (s, finished (.error (.notFound "Entreprise introuvable")))
    | some _ => some (s, settingStatus actorUserId enterpriseId)
  | settingStatus actorUserId enterpriseId =>
    match s.db.enterprises.find? enterpriseId with
    | none => some (s, finished (.error (.prisma .p2025)))
    | some _ =>
      some (s.autocommit (Db.setEnterpriseStatus enterpriseId .suspended),
        revoking actorUserId enterpriseId)
  | revoking actorUserId enterpriseId =>
    if tokensFree pid (fun t => s.db.ofEnterprise enterpriseId t && t.status != .revoked) s then
      some (s.autocommit (Db.revokeEnterprise enterpriseId), auditing actorUserId enterpriseId)
    else none
  | auditing actorUserId enterpriseId =>
    some (s.autocommit (Db.record
      { action := .suspendAccount, resource := "Enterprise", resourceId := some enterpriseId,
        userId := some actorUserId, enterpriseId := some enterpriseId }),
          finished (.ok (enterpriseId, .suspended)))
  | finished _ => none

/-! ## The system -/

/-- A call in progress; a `thrown` one died at one of its statements. -/
inductive AuthCall where
  | refresh (st : RefreshState)
  | logout (st : LogoutState)
  | resetPassword (st : ResetState)
  | suspendEnterprise (st : SuspendState)
  | thrown

/-- What the outside feeds one statement: the values it draws, or a failure. -/
inductive Input where
  | proceed (new : Draw)
  | fail
  deriving DecidableEq, Repr

def AuthCall.returned : AuthCall → Bool
  | refresh (.finished _ _) => true
  | logout .finished => true
  | resetPassword (.finished _) => true
  | suspendEnterprise (.finished _) => true
  | thrown => true
  | _ => false

def AuthCall.step (E : AuthEnv) (pid : Nat) (i : Input) (s : AuthStore) (c : AuthCall) :
    Option (AuthStore × AuthCall) :=
  match i with
  | .fail => if c.returned then none else some (s.release pid, thrown)
  | .proceed new =>
    match c with
    | refresh st => (st.step E pid new s).map (Prod.map id refresh)
    | logout st => (st.step E pid s).map (Prod.map id logout)
    | resetPassword st => (st.step E pid s).map (Prod.map id resetPassword)
    | suspendEnterprise st => (st.step pid s).map (Prod.map id suspendEnterprise)
    | thrown => none

/-- What happens around the calls: time passes, statuses change, somebody logs in. -/
inductive Env where
  | tick (d : Nat)
  | setUserStatus (id : Uuid) (status : UserStatus)
  | setEnterpriseStatus (id : Uuid) (status : EnterpriseStatus)
  | login (token : RefreshToken)

def Db.setUserStatus (id : Uuid) (status : UserStatus) (db : Db) : Db :=
  db.updateUser id (fun u => { u with status }) fun _ => rfl

/-- The row `issueTokenPair` creates. -/
def RefreshToken.issued (t : RefreshToken) : RefreshToken :=
  { t with status := .active, replacedByTokenId := none, revokedAt := none }

/-- A login opens a family of its own (`generateFamilyId`). -/
def Db.openFamily (token : RefreshToken) (db : Db) : Db :=
  if db.unused token.id token.tokenHash ∧ ∀ t ∈ db.refreshTokens.rows,
    t.familyId ≠ token.familyId then
    db.createToken token.issued
  else db

def Env.apply : Env → Db → Db
  | tick d, db => { db with now := db.now + d }
  | setUserStatus id status, db => db.setUserStatus id status
  | setEnterpriseStatus id status, db => db.setEnterpriseStatus id status
  | login token, db => db.openFamily token

/-- Any number of `refresh`, `logout`, `resetPassword` and `suspendEnterprise` calls. -/
def sessions (E : AuthEnv) : Machine AuthStore AuthCall Input Env where
  thread pid i s c := c.step E pid i s
  env e s := s.autocommit e.apply

/-- What one statement of a call does: it dies, or it goes on. -/
inductive CallStep (E : AuthEnv) (pid : Nat) (s : AuthStore) :
    Input → AuthCall → AuthStore → AuthCall → Prop
  | fail {c} : CallStep E pid s .fail c (s.release pid) .thrown
  | refresh {new st s' st'} (h : RefreshStep E s new st s' st') :
      CallStep E pid s (.proceed new) (.refresh st) s' (.refresh st')
  | logout {new} {st : LogoutState} {s' st'} (h : st.step E pid s = some (s', st')) :
      CallStep E pid s (.proceed new) (.logout st) s' (.logout st')
  | resetPassword {new} {st : ResetState} {s' st'} (h : st.step E pid s = some (s', st')) :
      CallStep E pid s (.proceed new) (.resetPassword st) s' (.resetPassword st')
  | suspendEnterprise {new} {st : SuspendState} {s' st'} (h : st.step pid s = some (s', st')) :
      CallStep E pid s (.proceed new) (.suspendEnterprise st) s' (.suspendEnterprise st')

theorem call_step {E : AuthEnv} {pid : Nat} {i : Input} {s s' : AuthStore} {c c' : AuthCall}
    (h : (sessions E).thread pid i s c = some (s', c')) : CallStep E pid s i c s' c' := by
  cases i with
  | fail =>
    simp only [sessions, AuthCall.step] at h
    split at h <;> cases h
    exact .fail
  | proceed new =>
    cases c with
    | thrown => cases h
    | _ =>
      simp only [sessions, AuthCall.step, Option.map_eq_some_iff, Prod.exists, Prod.map, id] at h
      obtain ⟨_, st', hst, he⟩ := h
      cases he
      first
        | exact .refresh (refresh_step hst)
        | exact .logout hst
        | exact .resetPassword hst
        | exact .suspendEnterprise hst

abbrev AuthPool := Pool AuthStore AuthCall

def AuthCall.Fresh : AuthCall → Prop
  | refresh st => ∃ rawToken, st = .finding rawToken
  | logout st => ∃ rawToken currentUserId, st = .finding rawToken currentUserId
  | resetPassword st => ∃ rawToken newPasswordHash, st = .finding rawToken newPasswordHash
  | suspendEnterprise st => ∃ actorUserId enterpriseId, st = .finding actorUserId enterpriseId
  | thrown => True

end Gescom.Auth
