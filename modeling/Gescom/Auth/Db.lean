import Gescom.Common
import Gescom.Lib.Table

/-!
# Identity data (`schema.prisma`, models `User`, `Enterprise`, `RefreshToken`, `AuthToken`)

Raw tokens never reach the database: a row carries the hash of its token. A refresh token belongs to
a family, the chain of tokens one session has gone through.
-/

namespace Gescom.Auth

/-- 48 random bytes (`generateOpaqueToken`). -/
abbrev RawToken := Nat

/-- A SHA-256 digest. -/
abbrev TokenHash := Nat

/-- What the services take from the configuration and from cryptography. -/
structure AuthEnv where
  hashToken : RawToken → TokenHash
  /-- `parseDurationMs(env.jwtRefreshTtl())`. -/
  refreshTtl : Nat

inductive UserStatus where
  | pendingInvite | active | suspended
  deriving DecidableEq, Repr

inductive EnterpriseStatus where
  | active | suspended | archived
  deriving DecidableEq, Repr

inductive RefreshTokenStatus where
  | active | rotated | revoked
  deriving DecidableEq, Repr

inductive AuthTokenType where
  | emailVerification | passwordReset | invitation
  deriving DecidableEq, Repr

structure User where
  id : Uuid
  email : String
  passwordHash : String
  enterpriseId : Option Uuid
  isSuperAdmin : Bool
  /-- The CHECK constraint: super admins are the users without an enterprise. -/
  identity : isSuperAdmin = enterpriseId.isNone
  status : UserStatus
  mfaEnabled : Bool := false
  mfaSecret : Option String := none
  emailVerifiedAt : Option Instant := none
  failedLoginCount : Nat := 0
  lockedUntil : Option Instant := none
  lastLoginAt : Option Instant := none

structure Enterprise where
  id : Uuid
  status : EnterpriseStatus

structure RefreshToken where
  id : Uuid
  userId : Uuid
  familyId : Uuid
  tokenHash : TokenHash
  status : RefreshTokenStatus := .active
  expiresAt : Instant
  replacedByTokenId : Option Uuid := none
  revokedAt : Option Instant := none

structure Role where
  id : Uuid
  enterpriseId : Uuid

structure AuthToken where
  id : Uuid
  userId : Uuid
  type : AuthTokenType
  tokenHash : TokenHash
  expiresAt : Instant
  consumedAt : Option Instant := none

instance : Keyed User Uuid := ⟨User.id⟩
instance : Keyed Enterprise Uuid := ⟨Enterprise.id⟩
instance : Keyed RefreshToken Uuid := ⟨RefreshToken.id⟩
instance : Keyed AuthToken Uuid := ⟨AuthToken.id⟩
instance : Keyed Role Uuid := ⟨Role.id⟩

/-- The `AuditAction` values these services record. -/
inductive AuditAction where
  | login | loginFailed | logout | accountLocked | refreshTokenReuseDetected |
    refreshRejectedInactiveAccount
  | passwordResetRequested | passwordResetCompleted | emailVerified | mfaChallengeFailed
  | userInvited | invitationAccepted | suspendAccount | reactivateAccount
  deriving DecidableEq, Repr

structure AuditLog where
  action : AuditAction
  resource : String
  resourceId : Option Uuid := none
  userId : Option Uuid := none
  enterpriseId : Option Uuid := none
  deriving DecidableEq, Repr

structure Db where
  users : Table User
  enterprises : Table Enterprise
  refreshTokens : Table RefreshToken
  authTokens : Table AuthToken
  roles : Table Role := Table.empty
  userRoles : List (Uuid × Uuid) := []
  auditLogs : List AuditLog := []
  now : Instant

def Db.record (l : AuditLog) (db : Db) : Db := { db with auditLogs := db.auditLogs ++ [l] }

/-! ## Reads -/

/-- `refreshToken.findUnique({ where: { tokenHash } })`. -/
def Db.findRefreshToken (db : Db) (tokenHash : TokenHash) : Option RefreshToken :=
  db.refreshTokens.rows.find? fun t => t.tokenHash == tokenHash

/-- `authToken.findUnique({ where: { tokenHash } })`. -/
def Db.findAuthToken (db : Db) (tokenHash : TokenHash) : Option AuthToken :=
  db.authTokens.rows.find? fun t => t.tokenHash == tokenHash

def Db.enterpriseOf (db : Db) (u : User) : Option Enterprise :=
  u.enterpriseId.bind db.enterprises.find?

/-- A refresh token with `include: { user: { include: { enterprise: true } } }`. -/
structure Existing where
  token : RefreshToken
  user : User
  enterprise : Option Enterprise

/-- The foreign key has a user for every token. -/
def Db.findExisting (db : Db) (tokenHash : TokenHash) : Option Existing :=
  (db.findRefreshToken tokenHash).bind fun token =>
    (db.users.find? token.userId).map fun user =>
      { token, user, enterprise := db.enterpriseOf user }

/-- `user.status !== "ACTIVE" || (user.enterprise && user.enterprise.status !== "ACTIVE")`. -/
def inactive (user : User) (enterprise : Option Enterprise) : Bool :=
  user.status != .active || enterprise.any fun e => e.status != .active

/-- `findValidToken`. -/
def Db.findValidToken (db : Db) (tokenHash : TokenHash) (type : AuthTokenType) : Option AuthToken :=
  (db.findAuthToken tokenHash).filter fun t =>
    t.type == type && t.consumedAt.isNone && decide (db.now ≤ t.expiresAt)

/-- The random values a `create` draws are new: they collide with no stored row. -/
def Db.unused (db : Db) (id : Uuid) (tokenHash : TokenHash) : Bool :=
  (db.refreshTokens.find? id).isNone && (db.findRefreshToken tokenHash).isNone

def Db.updateUser (id : Uuid) (f : User → User) (hf : ∀ u, (f u).id = u.id) (db : Db) : Db :=
  { db with users := db.users.update id f hf }

/-! ## Writes of refresh tokens -/

/-- `data: { status: REVOKED, revokedAt: new Date() }`. -/
def RefreshToken.revoke (now : Instant) (t : RefreshToken) : RefreshToken :=
  { t with status := .revoked, revokedAt := some now }

/-- `data: { status: ROTATED, replacedByTokenId }`. -/
def RefreshToken.rotate (replacedBy : Uuid) (t : RefreshToken) : RefreshToken :=
  { t with status := .rotated, replacedByTokenId := some replacedBy }

/-- `updateMany` of the rows `p` that are not `REVOKED`, to `REVOKED` at `now`. -/
def Db.revokeWhere (p : RefreshToken → Bool) (now : Instant) (db : Db) : Db :=
  { db with
    refreshTokens := db.refreshTokens.updateWhere (fun t => p t && t.status != .revoked)
      (RefreshToken.revoke now)
      fun _ => rfl }

def Db.revokeFamily (familyId : Uuid) (db : Db) : Db :=
  db.revokeWhere (fun t => t.familyId == familyId) db.now

/-- `update({ where: { id }, data: { status: REVOKED, revokedAt: new Date() } })`. -/
def Db.expireToken (id : Uuid) (db : Db) : Db :=
  { db with refreshTokens := db.refreshTokens.update id (RefreshToken.revoke db.now) fun _ => rfl }

def Db.rotateToken (id replacedBy : Uuid) (db : Db) : Db :=
  { db with
    refreshTokens := db.refreshTokens.update id (RefreshToken.rotate replacedBy) fun _ => rfl }

def Db.createToken (t : RefreshToken) (db : Db) : Db :=
  { db with refreshTokens := db.refreshTokens.insert t }

/-! ## Rows under these writes -/

def Db.token? (db : Db) (id : Uuid) : Option RefreshToken := db.refreshTokens.find? id

/-- The columns nothing updates. -/
structure RefreshToken.Same (t t' : RefreshToken) : Prop where
  id : t'.id = t.id
  userId : t'.userId = t.userId
  familyId : t'.familyId = t.familyId
  tokenHash : t'.tokenHash = t.tokenHash
  expiresAt : t'.expiresAt = t.expiresAt

theorem RefreshToken.Same.refl (t : RefreshToken) : t.Same t := ⟨rfl, rfl, rfl, rfl, rfl⟩

theorem RefreshToken.Same.trans {t t' t'' : RefreshToken} (h : t.Same t') (h' : t'.Same t'') :
    t.Same t'' :=
  ⟨h'.id.trans h.id, h'.userId.trans h.userId, h'.familyId.trans h.familyId,
    h'.tokenHash.trans h.tokenHash, h'.expiresAt.trans h.expiresAt⟩

section
variable {db : Db} {id k : Uuid} {t : RefreshToken}

theorem token?_id (h : db.token? id = some t) : t.id = id := Table.key_of_find? h

theorem token?_of_mem (h : t ∈ db.refreshTokens.rows) : db.token? t.id = some t :=
  Table.find?_of_mem h

theorem token?_mem (h : db.token? id = some t) : t ∈ db.refreshTokens.rows := Table.mem_of_find? h

theorem token?_revokeWhere (db : Db) (id : Uuid) (p : RefreshToken → Bool) (now : Instant) :
    (db.revokeWhere p now).token? id =
      (db.token? id).map fun t => if p t && t.status != .revoked then t.revoke now else t :=
  db.refreshTokens.find?_updateWhere _ (RefreshToken.revoke now) (fun _ => rfl) id

theorem token?_expireToken :
    (db.expireToken id).token? k =
      if k = id then (db.token? id).map (RefreshToken.revoke db.now) else db.token? k :=
  db.refreshTokens.find?_update id k (RefreshToken.revoke db.now) fun _ => rfl

theorem token?_rotateToken (replacedBy : Uuid) :
    (db.rotateToken id replacedBy).token? k =
      if k = id then (db.token? id).map (RefreshToken.rotate replacedBy) else db.token? k :=
  db.refreshTokens.find?_update id k (RefreshToken.rotate replacedBy) fun _ => rfl

theorem token?_of_unused {tokenHash : TokenHash} (h : db.unused id tokenHash = true) :
    db.token? id = none := by
  simp only [Db.unused, Bool.and_eq_true, Option.isNone_iff_eq_none] at h
  exact h.1

theorem token?_createToken (h : db.unused t.id t.tokenHash = true) :
    (db.createToken t).token? k = if k = t.id then some t else db.token? k :=
  Table.find?_insert (token?_of_unused h) k

/-- A row under an `update` that rotates row `id`. -/
theorem rotateToken_row (replacedBy : Uuid) (h : db.token? k = some t) :
    ∃ t', (db.rotateToken id replacedBy).token? k = some t' ∧ t.Same t' ∧
      (t'.status = t.status ∨ t'.status = .rotated ∧ k = id) := by
  rw [token?_rotateToken]
  by_cases hk : k = id
  · subst hk
    rw [if_pos rfl, h]
    exact ⟨_, rfl, ⟨rfl, rfl, rfl, rfl, rfl⟩, .inr ⟨rfl, rfl⟩⟩
  · rw [if_neg hk]
    exact ⟨t, h, .refl t, .inl rfl⟩

theorem rotateToken_back {t' : RefreshToken} {replacedBy : Uuid}
    (h : (db.rotateToken id replacedBy).token? k = some t') :
    ∃ t, db.token? k = some t ∧ t.Same t' ∧ (t'.status = .active → t.status = .active) := by
  rw [token?_rotateToken] at h
  by_cases hk : k = id
  · subst hk
    rw [if_pos rfl] at h
    obtain ⟨t, ht, rfl⟩ := Option.map_eq_some_iff.1 h
    exact ⟨t, ht, ⟨rfl, rfl, rfl, rfl, rfl⟩, fun hact => by cases hact⟩
  · rw [if_neg hk] at h
    exact ⟨t', h, .refl t', fun hact => hact⟩

/-- A row under the insert of a new one. -/
theorem createToken_row {x : RefreshToken} (h : db.unused t.id t.tokenHash = true)
    (hx : db.token? k = some x) : (db.createToken t).token? k = some x := by
  rw [token?_createToken h, if_neg, hx]
  rintro rfl
  cases (token?_of_unused h).symm.trans hx

theorem createToken_back {x : RefreshToken} (h : db.unused t.id t.tokenHash = true)
    (hx : (db.createToken t).token? k = some x) : k = t.id ∧ x = t ∨ db.token? k = some x := by
  rw [token?_createToken h] at hx
  by_cases hk : k = t.id
  · rw [if_pos hk] at hx
    exact .inl ⟨hk, (Option.some.inj hx).symm⟩
  · rw [if_neg hk] at hx
    exact .inr hx

end

/-! ## A small database -/

def sampleEnv : AuthEnv where
  hashToken rawToken := 1000 + rawToken
  refreshTtl := 2592000000

def sampleUser : User where
  id := 3
  email := "a@b.sn"
  passwordHash := "x"
  enterpriseId := some 5
  isSuperAdmin := false
  identity := rfl
  status := .active

/-- One session of one user: family 7, whose only token, 1, is the one with raw value 10. -/
def sampleDb : Db where
  users := ⟨[sampleUser], by decide⟩
  enterprises := ⟨[{ id := 5, status := .active }], by decide⟩
  refreshTokens :=
    ⟨[{ id := 1, userId := 3, familyId := 7, tokenHash := 1010, expiresAt := 2592000000 }],
    by decide⟩
  authTokens := Table.empty
  roles := ⟨[{ id := 4, enterpriseId := 5 }], by decide⟩
  now := 0

theorem sampleDb_token {id : Uuid} {t : RefreshToken} (h : sampleDb.token? id = some t) :
    t = { id := 1, userId := 3, familyId := 7, tokenHash := 1010, expiresAt := 2592000000 } :=
  List.mem_singleton.1 (token?_mem h)

end Gescom.Auth
