import Gescom.Auth.Login
import Gescom.Entitlement.Cache

/-!
# `POST /users/invite` (`users.controller.ts:43`)

`LimitGuard.canActivate` (`limit.guard.ts:27`) reads the limit through the cache of its process and
counts the users in a transaction of its own; `InvitationsService.invite` (`invitations.service.ts:29`)
then inserts the user in another one. `invite_alone`: the statements of the second, run without
overlap, compute `Auth.invite`.
-/

namespace Gescom.Entitlement

open Auth (Services Draws User Role AuthToken Result)
open ReadCommitted Transition

/-- What an invitation locks: the index entries of the rows it inserts. -/
inductive InviteLock where
  | user (id : Uuid)
  | email (email : String)
  | authToken (id : Uuid)
  | tokenHash (tokenHash : Auth.TokenHash)
  deriving DecidableEq, Repr

/-- The database, its billing tables, and the cache of each process. -/
structure QuotaStore where
  api : Store Auth.Db InviteLock
  billing : Db
  caches : Nat → Cache

def QuotaStore.setCache (process : Nat) (cache : Cache) (s : QuotaStore) : QuotaStore :=
  { s with caches := Function.update s.caches process cache }

/-- `tx.user.count()`, under the row-level security of the tenant. -/
def usersOf (tenantId : Uuid) (db : Auth.Db) : Nat :=
  (db.users.rows.filter fun u => u.enterpriseId == some tenantId).length

/-- `USAGE_COUNTERS`. -/
def usageCounters : List (String × (Uuid → Auth.Db → Nat)) := [("users", usersOf)]

/-- `@WithinLimit("users")`. -/
def withinLimit : String := "users"

/-- The request, the process that serves it, and the values it draws. -/
structure InviteRequest where
  process : Nat
  email : String
  roleId : Uuid
  draws : Draws

inductive InviteState where
  | looking
  | resolving
  | storing (value : Entitlements)
  | counting (max : Int) (counter : Uuid → Auth.Db → Nat)
  | finding
  | readingRole
  | creatingUser (role : Role)
  | creatingUserRole (user : User) (role : Role)
  | creatingAuthToken (user : User) (role : Role)
  | committing (user : User) (role : Role) (authToken : AuthToken)
  | mailing (user : User)
  | auditing (user : User)
  | finished (r : Except ApiError Result)

/-- `canActivate` once it has the entitlements. -/
def limited (limitKey : String) (value : Entitlements) : InviteState :=
  match value.limit limitKey with
  | none | some none => .finding
  | some (some max) =>
    match usageCounters.lookup limitKey with
    | none => .finished (.error (.internal
        s!"LimitGuard : aucun compteur d'usage enregistré pour la clé \"{limitKey}\""))
    | some counter => .counting max counter

def quotaReached (limitKey : String) (max : Int) : ApiError :=
  .forbidden s!"Quota atteint pour \"{limitKey}\" (limite : {max})"

def InviteRequest.user (S : Services) (tenantId : Uuid) (c : InviteRequest) : User where
  id := c.draws.userId
  email := c.email
  passwordHash := S.hashPassword c.draws.unusablePassword
  enterpriseId := some tenantId
  isSuperAdmin := false
  identity := rfl
  status := .pendingInvite

def InviteRequest.authToken (S : Services) (now : Instant) (c : InviteRequest) : AuthToken where
  id := c.draws.authTokenId
  userId := c.draws.userId
  type := .invitation
  tokenHash := S.hashToken c.draws.rawAuthToken
  expiresAt := now + Auth.invitationTtlMs

/-- The three rows of the transaction. -/
def commitInvite (user : User) (role : Role) (authToken : AuthToken) (db : Auth.Db) : Auth.Db :=
  { db with
    users := db.users.insert user
    userRoles := db.userRoles ++ [(user.id, role.id)]
    authTokens := db.authTokens.insert authToken }

def InviteState.step (E : CacheEnv) (S : Services) (tenantId : Uuid) (c : InviteRequest) (pid : Nat)
    (s : QuotaStore) : InviteState → Option (QuotaStore × InviteState)
  | looking =>
    match lookup s.api.db.now tenantId (s.caches c.process) with
    | (cache, some value) => some (s.setCache c.process cache, limited withinLimit value)
    | (cache, none) => some (s.setCache c.process cache, resolving)
  | resolving => some (s, storing (s.billing.resolve tenantId))
  | storing value =>
    some (s.setCache c.process (refill E tenantId value s.api.db.now (s.caches c.process)),
      limited withinLimit value)
  | counting max counter =>
    if max ≤ (counter tenantId s.api.db : Int) then
      some (s, finished (.error (quotaReached withinLimit max)))
    else some (s, finding)
  | finding =>
    if (s.api.db.findUser c.email).isSome then
      some (s, finished (.error (.conflict "Un compte existe déjà avec cet email")))
    else some (s, readingRole)
  | readingRole =>
    match s.api.db.roles.find? c.roleId with
    | none => some (s, finished (.error (.forbidden "Rôle invalide")))
    | some role =>
      if role.enterpriseId ≠ tenantId then some (s, finished (.error (.forbidden "Rôle invalide")))
      else some (s, creatingUser role)
  | creatingUser role =>
    let user := c.user S tenantId
    if s.api.free pid (.user user.id) && s.api.free pid (.email user.email) then
      if (s.api.db.users.find? user.id).isSome || (s.api.db.findUser user.email).isSome then
        some ({ s with api := s.api.release pid }, finished (.error (.prisma .p2002)))
      else
        some ({ s with api := (s.api.acquire pid (.user user.id)).acquire pid (.email user.email) },
          creatingUserRole user role)
    else none
  | creatingUserRole user role => some (s, creatingAuthToken user role)
  | creatingAuthToken user role =>
    let authToken := c.authToken S s.api.db.now
    if s.api.free pid (.authToken authToken.id) && s.api.free pid (.tokenHash authToken.tokenHash) then
      if (s.api.db.authTokens.find? authToken.id).isSome ||
          (s.api.db.findAuthToken authToken.tokenHash).isSome then
        some ({ s with api := s.api.release pid }, finished (.error (.prisma .p2002)))
      else
        some ({ s with
            api := (s.api.acquire pid (.authToken authToken.id)).acquire pid
              (.tokenHash authToken.tokenHash) },
          committing user role authToken)
    else none
  | committing user role authToken =>
    some ({ s with api := s.api.commit pid (commitInvite user role authToken) }, mailing user)
  | mailing user => some (s, auditing user)
  | auditing user =>
    some ({ s with api := s.api.autocommit (Auth.Db.record (Auth.userLog .userInvited user)) },
      finished (.ok (.invited user.id)))
  | finished _ => none

/-- What the outside feeds a statement: nothing, or its failure. -/
inductive InviteInput where
  | proceed
  | fail (e : ApiError)
  deriving DecidableEq, Repr

abbrev InviteCall := Option (InviteRequest × InviteState)

def inviteThread (E : CacheEnv) (S : Services) (tenantId : Uuid) (pid : Nat) (i : InviteInput)
    (s : QuotaStore) : InviteCall → Option (QuotaStore × InviteCall)
  | none => none
  | some (_, .finished _) => none
  | some (c, st) =>
    match i with
    | .proceed => (st.step E S tenantId c pid s).map fun r => (r.1, some (c, r.2))
    | .fail e => some ({ s with api := s.api.release pid }, some (c, .finished (.error e)))

/-- What goes on beside the invitations of the tenant: time passes, other requests are served, the
cache forgets; no user comes in another way, and the plan keeps its limit. -/
structure Elsewhere (tenantId : Uuid) where
  apply : QuotaStore → QuotaStore
  users : ∀ s, usersOf tenantId (apply s).api.db ≤ usersOf tenantId s.api.db
  plan : ∀ s, ((apply s).billing.resolve tenantId).limit withinLimit =
    (s.billing.resolve tenantId).limit withinLimit
  cached : ∀ s process entry, ((apply s).caches process).find? tenantId = some entry →
    (s.caches process).find? tenantId = some entry

/-- Any number of invitations of one enterprise. -/
def invites (E : CacheEnv) (S : Services) (tenantId : Uuid) :
    Machine QuotaStore InviteCall InviteInput (Elsewhere tenantId) where
  thread pid i s call := inviteThread E S tenantId pid i s call
  env x s := x.apply s

abbrev InvitePool := Pool QuotaStore InviteCall

/-! ## One request alone -/

section
variable {E : CacheEnv} {S : Services} {tenantId : Uuid} {c : InviteRequest} {pid : Nat}
  {s : QuotaStore}

/-- The values the request draws are new. -/
structure InviteRequest.Fresh (S : Services) (c : InviteRequest) (db : Auth.Db) : Prop where
  user : db.users.find? c.draws.userId = none
  authToken : db.authTokens.find? c.draws.authTokenId = none
  tokenHash : db.findAuthToken (S.hashToken c.draws.rawAuthToken) = none

/-- The transaction, from the insert of the user on. -/
theorem insert_alone (E : CacheEnv) (tenantId : Uuid) (hs : s.api.Alone pid) (hc : c.Fresh S s.api.db)
    (hemail : s.api.db.findUser c.email = none) (role : Role) :
    (alone (fun s st => InviteState.step E S tenantId c pid s st) 6 s (.creatingUser role)).1.api.db =
        ((commitInvite (c.user S tenantId) role (c.authToken S s.api.db.now) s.api.db).record
          (Auth.userLog .userInvited (c.user S tenantId))) ∧
      (alone (fun s st => InviteState.step E S tenantId c pid s st) 6 s (.creatingUser role)).2 =
        .finished (.ok (.invited c.draws.userId)) := by
  have huser : InviteState.step E S tenantId c pid s (.creatingUser role) =
      some ({ s with api := (s.api.acquire pid (.user c.draws.userId)).acquire pid (.email c.email) },
        .creatingUserRole (c.user S tenantId) role) := by
    simp [InviteState.step, hs.free, InviteRequest.user, hc.user, hemail]
  have h' := (hs.acquire (.user c.draws.userId)).acquire (.email c.email)
  rw [alone_succ huser, alone_succ rfl]
  have htoken : InviteState.step E S tenantId c pid
      { s with api := (s.api.acquire pid (.user c.draws.userId)).acquire pid (.email c.email) }
      (.creatingAuthToken (c.user S tenantId) role) =
      some ({ s with
          api := (((s.api.acquire pid (.user c.draws.userId)).acquire pid (.email c.email)).acquire pid
            (.authToken c.draws.authTokenId)).acquire pid
              (.tokenHash (S.hashToken c.draws.rawAuthToken)) },
        .committing (c.user S tenantId) role (c.authToken S s.api.db.now)) := by
    simp [InviteState.step, h'.free, InviteRequest.authToken, hc.authToken, hc.tokenHash]
  rw [alone_succ htoken]
  exact ⟨rfl, rfl⟩

/-- The service, once the guard has let the request pass. -/
theorem invite_alone (hs : s.api.Alone pid) (hc : c.Fresh S s.api.db) :
    ∃ s' r, alone (fun s st => InviteState.step E S tenantId c pid s st) 8 s .finding =
        (s', .finished r) ∧
      Auth.invite S tenantId c.email c.roleId c.draws s.api.db = (s'.api.db, r) := by
  cases hemail : s.api.db.findUser c.email with
  | some user =>
    have hrow : (s.api.db.users.rows.find? fun u => u.email == c.email) = some user := hemail
    refine ⟨s, .error (.conflict "Un compte existe déjà avec cet email"), ?_, ?_⟩
    · simp [alone, InviteState.step, hemail]
    · simp [Auth.invite, hrow]
  | none =>
    have hrow : (s.api.db.users.rows.find? fun u => u.email == c.email) = none := hemail
    have hfound : InviteState.step E S tenantId c pid s .finding = some (s, .readingRole) := by
      simp [InviteState.step, hemail]
    rw [alone_succ hfound]
    cases hrole : s.api.db.roles.find? c.roleId with
    | none =>
      refine ⟨s, .error (.forbidden "Rôle invalide"), ?_, ?_⟩
      · simp [alone, InviteState.step, hrole]
      · simp [Auth.invite, hrow, hrole]
    | some role =>
      by_cases howner : role.enterpriseId = tenantId
      · have hread : InviteState.step E S tenantId c pid s .readingRole =
            some (s, .creatingUser role) := by
          simp [InviteState.step, hrole, howner]
        rw [alone_succ hread]
        obtain ⟨hdb, hst⟩ := insert_alone E tenantId hs hc hemail role
        refine ⟨_, _, Prod.ext rfl hst, ?_⟩
        rw [hdb]
        simp [Auth.invite, hrow, hrole, howner]
        rfl
      · refine ⟨s, .error (.forbidden "Rôle invalide"), ?_, ?_⟩
        · simp [alone, InviteState.step, hrole, howner]
        · simp [Auth.invite, hrow, hrole, howner]

end

end Gescom.Entitlement
