import Gescom.Access.Routes
import Gescom.Entitlement.LimitGuard
import Gescom.Lib.Expiring
import Gescom.Tenant.Connections

/-!
# A request on its way to its handler

`TenantContextMiddleware`, the `ThrottlerGuard` of `app.module.ts`, then the guards of the route in
their order: `jwt-auth.guard.ts`, `super-admin.guard.ts`, `permissions.guard.ts`, `feature.guard.ts`,
`subscription-access.guard.ts` and `limit.guard.ts`. A guard is cut where it awaits the database; each
process has a cache of account statuses, one of entitlements, and counts the requests it has seen. A
request that is admitted has passed its guards: the pipes that validate its parameters come next.
-/

namespace Gescom.Access

open Auth (JwtService AccessToken bearerToken User)
open Billing (SubscriptionStatus)
open Entitlement (CacheEnv Cache Entitlements lookup refill usageCounters quotaReached)
open Tenant (TenantStore TenantContextMiddleware.use)
open Transition

/-! ## The database and the processes -/

structure Permission where
  id : Uuid
  key : PermissionKey

instance : Keyed Permission Uuid := ⟨Permission.id⟩

structure Db where
  auth : Auth.Db
  billing : Entitlement.Db
  permissions : Table Permission
  /-- `roleId` and `permissionId`. -/
  rolePermissions : List (Uuid × Uuid)

/-- `user.status === "ACTIVE" && (!user.enterprise || user.enterprise.status === "ACTIVE")`. -/
def Db.accountActive (db : Db) (userId : Uuid) : Bool :=
  (db.auth.users.find? userId).any fun user => !Auth.inactive user (db.auth.enterpriseOf user)

/-- A row of `role_permissions` whose permission is `key` and whose role is one of the enterprise that
the user has. -/
def Db.isGrant (db : Db) (userId enterpriseId : Uuid) (key : PermissionKey) (g : Uuid × Uuid) : Bool :=
  (db.permissions.find? g.2).any (fun p => p.key == key) &&
    (db.auth.roles.find? g.1).any (fun role => role.enterpriseId == enterpriseId) &&
    db.auth.userRoles.contains (userId, g.1)

def Db.grants (db : Db) (userId enterpriseId : Uuid) (key : PermissionKey) : Prop :=
  ∃ g ∈ db.rolePermissions, db.isGrant userId enterpriseId key g = true

/-- `tx.rolePermission.count(…)`: the row-level security shows the roles of the tenant only. -/
def Db.grantCount (db : Db) (tenantId userId enterpriseId : Uuid) (key : PermissionKey) : Nat :=
  (db.rolePermissions.filter fun g =>
    (db.auth.roles.find? g.1).any (fun role => role.enterpriseId == tenantId) &&
      db.isGrant userId enterpriseId key g).length

structure CachedAccountStatus where
  userId : Uuid
  active : Bool
  expiresAt : Instant

instance : Keyed CachedAccountStatus Uuid := ⟨CachedAccountStatus.userId⟩

/-- A request that the throttler has counted, under its handler and the address it came from. -/
structure Hit where
  endpoint : Endpoint
  ip : String
  time : Instant
  deriving DecidableEq

/-- The `CacheEnv` of the entitlements, `env.accountStatusCacheTtlMs()`, `NODE_ENV`, and the storage of
the throttler package: whether it blocks a request after earlier ones at these times. -/
structure AccessEnv extends CacheEnv where
  accountStatusTtlMs : Nat
  nodeEnv : Option String
  isBlocked : RateLimit → List Instant → Instant → Bool

structure Api where
  db : Db
  statusCache : Nat → Table CachedAccountStatus
  entitlements : Nat → Cache
  hits : Nat → List Hit := fun _ => []

def Api.now (s : Api) : Instant := s.db.auth.now

def Api.setStatusCache (process : Nat) (cache : Table CachedAccountStatus) (s : Api) : Api :=
  { s with statusCache := Function.update s.statusCache process cache }

def Api.setEntitlements (process : Nat) (cache : Cache) (s : Api) : Api :=
  { s with entitlements := Function.update s.entitlements process cache }

def Api.setHits (process : Nat) (hits : List Hit) (s : Api) : Api :=
  { s with hits := Function.update s.hits process hits }

/-! ## Requests -/

structure AuthenticatedUser where
  id : Uuid
  enterpriseId : Option Uuid
  isSuperAdmin : Bool
  deriving DecidableEq, Repr

def AuthenticatedUser.of (payload : AccessToken) : AuthenticatedUser :=
  ⟨payload.sub, payload.enterpriseId, payload.isSuperAdmin⟩

structure Request where
  process : Nat
  route : Route
  method : Method
  /-- Express hands a `GET` handler the `HEAD` requests too. -/
  served : method = route.handler.method ∨ method = .head ∧ route.handler.method = .get
  authorization : Option String
  ip : String

/-- What a request carries: the store of its `AsyncLocalStorage`, `request.user`, and the guards that
are left. -/
structure Passage where
  store : Option TenantStore
  user : Option AuthenticatedUser := none
  left : List Guard

/-- The guards that call `getCurrent`. -/
inductive EntitledGuard where
  | feature | subscriptionAccess | limit
  deriving DecidableEq, Repr

def EntitledGuard.guard : EntitledGuard → Guard
  | .feature => .feature
  | .subscriptionAccess => .subscriptionAccess
  | .limit => .limit

inductive RequestState where
  | arriving
  | guarding (c : Passage)
  | findingAccount (payload : AccessToken) (c : Passage)
  | cachingStatus (payload : AccessToken) (active : Bool) (c : Passage)
  | resolving (g : EntitledGuard) (tenantId : Uuid) (c : Passage)
  | storing (g : EntitledGuard) (tenantId : Uuid) (value : Entitlements) (c : Passage)
  | countingGrants (user : AuthenticatedUser) (tenantId enterpriseId : Uuid) (key : PermissionKey)
      (c : Passage)
  | countingUsage (tenantId : Uuid) (limitKey : String) (max : Int)
      (counter : Uuid → Auth.Db → Nat) (c : Passage)
  | admitted (c : Passage)
  | refused (e : ApiError)

/-- `BLOCKING_STATUSES`. -/
def blockingStatuses : List SubscriptionStatus := [.expired, .suspended, .cancelled]

def noTenant : ApiError :=
  .internal "Aucun TenantContext actif : cette opération doit s'exécuter dans une requête authentifiée"

def permissionDenied : ApiError := .forbidden "Permission refusée"

def throttled : ApiError := .tooManyRequests "ThrottlerException: Too Many Requests"

/-- `request.user` is set, or the account is refused. -/
def RequestState.ofAccount (payload : AccessToken) (active : Bool) (c : Passage) : RequestState :=
  if active then .guarding { c with user := some (.of payload) }
  else .refused (.unauthorized "Compte ou entreprise suspendu(e)")

/-- `canActivate` of these guards, once they have the answer. -/
def RequestState.ofEntitlements (r : Request) (g : EntitledGuard) (tenantId : Uuid) (value : Entitlements)
    (c : Passage) : RequestState :=
  match g with
  | .feature =>
    match r.route.requiredFeature with
    | none => .guarding c
    | some required =>
      if required ∈ value.features then .guarding c
      else .refused (.forbidden s!"Fonctionnalité non disponible pour votre forfait : {required}")
  | .limit =>
    match r.route.withinLimit with
    | none => .guarding c
    | some limitKey =>
      match value.limit limitKey with
      | none | some none => .guarding c
      | some (some max) =>
        match usageCounters.lookup limitKey with
        | none => .refused (.internal
            s!"LimitGuard : aucun compteur d'usage enregistré pour la clé \"{limitKey}\"")
        | some counter => .countingUsage tenantId limitKey max counter c
  | .subscriptionAccess =>
    if value.subscriptionStatus.any (· ∈ blockingStatuses) then
      .refused (.forbidden "Abonnement inactif : accès en lecture seule")
    else .guarding c

/-- `ThrottlerGuard` refuses the request: each handler and address has a count of its own. -/
def Request.isBlocked (E : AccessEnv) (r : Request) (s : Api) : Bool :=
  E.isBlocked ((computeRateLimits E.nodeEnv).of r.route.controller.throttle)
    (((s.hits r.process).filter fun hit =>
      hit.endpoint = r.route.toEndpoint ∧ hit.ip = r.ip).map Hit.time) s.now

/-- `this.entitlements.getCurrent()`, up to its `await`. -/
def Request.getCurrent (r : Request) (g : EntitledGuard) (s : Api) (c : Passage) : Api × RequestState :=
  match c.store with
  | none => (s, .refused noTenant)
  | some store =>
    match lookup s.now store.tenantId (s.entitlements r.process) with
    | (cache, some value) =>
      (s.setEntitlements r.process cache, .ofEntitlements r g store.tenantId value c)
    | (cache, none) => (s.setEntitlements r.process cache, .resolving g store.tenantId c)

/-- `JwtAuthGuard.canActivate`, up to its `await`. -/
def Request.authenticate (jwt : JwtService) (r : Request) (s : Api) (c : Passage) : RequestState :=
  match bearerToken r.authorization with
  | none => .refused (.unauthorized "Authentification requise")
  | some token =>
    match jwt.verifyAccessToken s.now token with
    | none => .refused (.unauthorized "Jeton invalide ou expiré")
    | some payload =>
      match (s.statusCache r.process).find? payload.sub with
      | none => .findingAccount payload c
      | some cached =>
        if s.now < cached.expiresAt then .ofAccount payload cached.active c
        else .findingAccount payload c

/-- `PermissionsGuard.canActivate`, up to its `await`. -/
def Request.permit (r : Request) (c : Passage) : RequestState :=
  match r.route.requiredPermission with
  | none => if r.route.exempted then .guarding c else .refused permissionDenied
  | some key =>
    match c.user with
    | none => .refused permissionDenied
    | some user =>
      match user.enterpriseId, c.store with
      | none, _ => .refused permissionDenied
      | some _, none => .refused noTenant
      | some enterpriseId, some store =>
        .countingGrants user store.tenantId enterpriseId key c

/-- The next guard. -/
def Request.guard (jwt : JwtService) (r : Request) (s : Api) (g : Guard) (c : Passage) :
    Api × RequestState :=
  match g with
  | .jwtAuth => (s, r.authenticate jwt s c)
  | .superAdmin =>
    if c.user.any AuthenticatedUser.isSuperAdmin then (s, .guarding c)
    else (s, .refused (.forbidden "Réservé au Super Admin"))
  | .permissions => (s, r.permit c)
  | .feature => if r.route.requiredFeature.isNone then (s, .guarding c) else r.getCurrent .feature s c
  | .subscriptionAccess =>
    if r.method = .get then (s, .guarding c) else r.getCurrent .subscriptionAccess s c
  | .limit => if r.route.withinLimit.isNone then (s, .guarding c) else r.getCurrent .limit s c

def Request.step (E : AccessEnv) (jwt : JwtService) (r : Request) (s : Api) :
    RequestState → Option (Api × RequestState)
  | .arriving =>
    some (s.setHits r.process (s.hits r.process ++ [⟨r.route.toEndpoint, r.ip, s.now⟩]),
      if r.isBlocked E s then .refused throttled
      else .guarding
        { store := TenantContextMiddleware.use jwt s.now r.authorization, left := r.route.guards })
  | .guarding c =>
    match c.left with
    | [] => some (s, .admitted c)
    | g :: left => some (r.guard jwt s g { c with left })
  | .findingAccount payload c => some (s, .cachingStatus payload (s.db.accountActive payload.sub) c)
  | .cachingStatus payload active c =>
    let s' := if 0 < E.accountStatusTtlMs then
        s.setStatusCache r.process
          ((s.statusCache r.process).set ⟨payload.sub, active, s.now + E.accountStatusTtlMs⟩)
      else s
    some (s', .ofAccount payload active c)
  | .resolving g tenantId c => some (s, .storing g tenantId (s.db.billing.resolve tenantId) c)
  | .storing g tenantId value c =>
    some (s.setEntitlements r.process
        (refill E.toCacheEnv tenantId value s.now (s.entitlements r.process)),
      .ofEntitlements r g tenantId value c)
  | .countingGrants user tenantId enterpriseId key c =>
    if s.db.grantCount tenantId user.id enterpriseId key = 0 then some (s, .refused permissionDenied)
    else some (s, .guarding c)
  | .countingUsage tenantId limitKey max counter c =>
    if max ≤ (counter tenantId s.db.auth : Int) then some (s, .refused (quotaReached limitKey max))
    else some (s, .guarding c)
  | .admitted _ => none
  | .refused _ => none

/-- A statement goes through, or the database rejects it. -/
inductive Answer where
  | proceed
  | fail (e : ApiError)

def Request.thread (E : AccessEnv) (jwt : JwtService) (i : Answer) (s : Api)
    (t : Request × RequestState) : Option (Api × (Request × RequestState)) :=
  (t.1.step E jwt s t.2).map fun next =>
    match i with
    | .proceed => (next.1, t.1, next.2)
    | .fail e => (s, t.1, .refused e)

/-- Time passes, anything commits, a service calls `invalidate`, a process starts again. -/
inductive Outside where
  | tick (n : Nat)
  | commit (f : Db → Db) (now : ∀ db, (f db).auth.now = db.auth.now)
  | invalidate (process : Nat) (tenantId : Uuid)
  | restart (process : Nat)

def Outside.apply : Outside → Api → Api
  | .tick n, s => { s with db := { s.db with auth := { s.db.auth with now := s.now + n } } }
  | .commit f _, s => { s with db := f s.db }
  | .invalidate process tenantId, s =>
    s.setEntitlements process (Entitlement.invalidate tenantId (s.entitlements process))
  | .restart process, s =>
    ((s.setStatusCache process Table.empty).setEntitlements process Table.empty).setHits process []

/-- Any number of requests over any number of processes. -/
def api (E : AccessEnv) (jwt : JwtService) :
    Machine Api (Request × RequestState) Answer Outside where
  thread _ i s t := Request.thread E jwt i s t
  env x s := x.apply s

abbrev ApiPool := Pool Api (Request × RequestState)

end Gescom.Access
