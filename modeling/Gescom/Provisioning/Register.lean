import Gescom.Access.Guards
import Gescom.Access.Roles
import Gescom.Lib.UniqueRows

/-!
# `POST /auth/register` (`provisioning.service.ts`)

One transaction writes an enterprise with its trial subscription, its first user, the default roles and
their permissions, the eight account classes, a setting and an audit entry. Whoever runs beside it
sees all of these rows or none.
-/

namespace Gescom.Provisioning

open Access (Permission PermissionKey DefaultRoleName defaultRoleNames defaultRolePermissions)
open Auth (EnterpriseStatus UserStatus)
open Billing (SubscriptionStatus)
open ReadCommitted Transition UniqueRows
open Tenant (TableName)

/-! ## Rows and their index entries -/

structure Plan where
  id : Uuid
  isActive : Bool
  trialDays : Nat

instance : Keyed Plan Uuid := ⟨Plan.id⟩

structure Enterprise where
  id : Uuid
  name : String
  legalName : Option String
  ninea : Option String
  rccm : Option String
  address : Option String
  city : Option String
  country : String
  phone : Option String
  email : Option String
  sector : Option String
  currency : String := "XOF"
  status : EnterpriseStatus := .active
  currentSubscriptionId : Option Uuid := none
  deriving DecidableEq

structure Subscription where
  id : Uuid
  enterpriseId : Uuid
  planId : Uuid
  status : SubscriptionStatus
  startDate : Instant
  trialEndDate : Option Instant
  deriving DecidableEq

structure User where
  id : Uuid
  email : String
  passwordHash : String
  firstName : String
  lastName : String
  phone : Option String
  enterpriseId : Option Uuid
  status : UserStatus
  deriving DecidableEq

structure Role where
  id : Uuid
  enterpriseId : Uuid
  name : String
  isSystem : Bool
  deriving DecidableEq

structure Account where
  id : Uuid
  enterpriseId : Uuid
  code : String
  label : String
  deriving DecidableEq

/-- `value` of `commercial.defaults`. -/
structure CommercialDefaults where
  currency : String
  locale : String := "fr-SN"
  timezone : String := "Africa/Dakar"
  deriving DecidableEq

/-- A setting of scope `ENTERPRISE`. -/
structure Setting where
  id : Uuid
  enterpriseId : Uuid
  key : String
  value : CommercialDefaults
  deriving DecidableEq

structure AuditLog where
  id : Uuid
  userId : Uuid
  enterpriseId : Uuid
  action : String
  resource : String
  resourceId : Uuid
  deriving DecidableEq

inductive Row where
  | enterprise (e : Enterprise)
  | subscription (s : Subscription)
  | user (u : User)
  | role (r : Role)
  | permission (p : Permission)
  | rolePermission (roleId permissionId : Uuid)
  | userRole (userId roleId : Uuid)
  | account (a : Account)
  | setting (s : Setting)
  | auditLog (l : AuditLog)
  | authToken (id userId : Uuid) (tokenHash : Auth.TokenHash) (expiresAt : Instant)
  | notification (id userId enterpriseId : Uuid) (title body : String)
  | refreshToken (id userId familyId : Uuid) (tokenHash : Auth.TokenHash) (expiresAt : Instant)

/-- An entry of a unique index. -/
inductive IndexEntry where
  | id (table : TableName) (id : Uuid)
  | email (email : String)
  | ninea (ninea country : String)
  | rccm (rccm country : String)
  | currentSubscriptionId (id : Uuid)
  | roleName (enterpriseId : Uuid) (name : String)
  | permissionKey (key : PermissionKey)
  | rolePermission (roleId permissionId : Uuid)
  | userRole (userId roleId : Uuid)
  | accountCode (enterpriseId : Uuid) (code : String)
  | settingKey (enterpriseId : Uuid) (key : String)
  | tokenHash (table : TableName) (tokenHash : Auth.TokenHash)
  deriving DecidableEq

/-- `NULL` is in no unique index. -/
def Enterprise.entries (e : Enterprise) : List IndexEntry :=
  .id .enterprises e.id :: e.ninea.toList.map (.ninea · e.country) ++
    e.rccm.toList.map (.rccm · e.country) ++ e.currentSubscriptionId.toList.map .currentSubscriptionId

def Row.entries : Row → List IndexEntry
  | .enterprise e => e.entries
  | .subscription s => [.id .subscriptions s.id]
  | .user u => [.id .users u.id, .email u.email]
  | .role r => [.id .roles r.id, .roleName r.enterpriseId r.name]
  | .permission p => [.id .permissions p.id, .permissionKey p.key]
  | .rolePermission roleId permissionId => [.rolePermission roleId permissionId]
  | .userRole userId roleId => [.userRole userId roleId]
  | .account a => [.id .accounts a.id, .accountCode a.enterpriseId a.code]
  | .setting s => [.id .settings s.id, .settingKey s.enterpriseId s.key]
  | .auditLog l => [.id .auditLogs l.id]
  | .authToken id _ tokenHash _ => [.id .authTokens id, .tokenHash .authTokens tokenHash]
  | .notification id _ _ _ _ => [.id .notifications id]
  | .refreshToken id _ _ tokenHash _ => [.id .refreshTokens id, .tokenHash .refreshTokens tokenHash]

/-- The rows that the foreign keys of a row name. -/
def Row.references : Row → List IndexEntry
  | .enterprise e => e.currentSubscriptionId.toList.map (.id .subscriptions)
  | .subscription s => [.id .enterprises s.enterpriseId]
  | .user u => u.enterpriseId.toList.map (.id .enterprises)
  | .role r => [.id .enterprises r.enterpriseId]
  | .permission _ => []
  | .rolePermission roleId permissionId => [.id .roles roleId, .id .permissions permissionId]
  | .userRole userId roleId => [.id .users userId, .id .roles roleId]
  | .account a => [.id .enterprises a.enterpriseId]
  | .setting s => [.id .enterprises s.enterpriseId]
  | .auditLog l => [.id .users l.userId, .id .enterprises l.enterpriseId]
  | .authToken _ userId _ _ => [.id .users userId]
  | .notification _ userId enterpriseId _ _ =>
    [.id .users userId, .id .enterprises enterpriseId]
  | .refreshToken _ userId _ _ _ => [.id .users userId]

/-- The row without the columns that a service may write after the insert. -/
def Row.permanent : Row → Row
  | .enterprise e => .enterprise { e with status := .active }
  | .subscription s =>
    .subscription { s with planId := 0, status := .trial, startDate := 0, trialEndDate := none }
  | .user u => .user { u with passwordHash := "", status := .active }
  | .account a => .account { a with label := "" }
  | r => r

structure Db where
  rows : Rows Row.entries
  plans : Table Plan
  now : Instant

abbrev RegisterStore := Store Db IndexEntry

def Db.append (new : List Row) (db : Db) : Db := { db with rows := db.rows.append new }

def Db.permissionOf (key : PermissionKey) : Row → Option Uuid
  | .permission p => if p.key = key then some p.id else none
  | _ => none

/-- `tx.permission.findMany({ where: { key: { in: requiredKeys } } })`, as `permissionIdByKey`. -/
def Db.permissionIdByKey (db : Db) (key : PermissionKey) : Option Uuid :=
  db.rows.rows.findSome? (Db.permissionOf key)

/-! ## What a registration writes -/

structure RegisterInput where
  firstName : String
  lastName : String
  email : String
  phone : Option String := none
  password : String
  enterpriseName : String
  legalName : Option String := none
  ninea : Option String := none
  rccm : Option String := none
  sector : Option String := none
  address : Option String := none
  city : Option String := none
  country : String := "SN"
  enterprisePhone : Option String := none
  enterpriseEmail : Option String := none
  planId : Uuid

/-- The ids and tokens that one call draws. -/
structure Draws where
  enterprise : Uuid
  subscription : Uuid
  user : Uuid
  role : DefaultRoleName → Uuid
  account : String → Uuid
  setting : Uuid
  auditLog : Uuid
  verificationToken : Auth.RawToken
  authToken : Uuid
  notification : Uuid
  refreshToken : Auth.Draw
  familyId : Uuid

structure Call where
  input : RegisterInput
  draws : Draws

/-- `TRIAL_DAY_MS`. -/
def trialDayMs : Nat := 24 * 3600000

/-- `EMAIL_VERIFICATION_TTL_MS`. -/
def emailVerificationTtlMs : Nat := 24 * 3600000

/-- `SYSCOHADA_ACCOUNT_CLASSES`: codes and labels. -/
def syscohadaAccountClasses : List (String × String) :=
  [("1", "Comptes de ressources durables"), ("2", "Comptes d'actif immobilisé"),
    ("3", "Comptes de stocks"), ("4", "Comptes de tiers"), ("5", "Comptes de trésorerie"),
    ("6", "Comptes de charges des activités ordinaires"),
    ("7", "Comptes de produits des activités ordinaires"),
    ("8", "Comptes des autres charges et autres produits")]

namespace Call

variable (c : Call)

def enterprise : Enterprise where
  id := c.draws.enterprise
  name := c.input.enterpriseName
  legalName := c.input.legalName
  ninea := c.input.ninea
  rccm := c.input.rccm
  address := c.input.address
  city := c.input.city
  country := c.input.country
  phone := c.input.enterprisePhone
  email := c.input.enterpriseEmail
  sector := c.input.sector

def subscription (plan : Plan) (startDate : Instant) : Subscription where
  id := c.draws.subscription
  enterpriseId := c.draws.enterprise
  planId := plan.id
  status := .trial
  startDate := startDate
  trialEndDate := some (startDate + plan.trialDays * trialDayMs)

/-- `tx.enterprise.update({ data: { currentSubscriptionId } })`. -/
def linkedEnterprise : Enterprise :=
  { c.enterprise with currentSubscriptionId := some c.draws.subscription }

def user (S : Auth.Services) : User where
  id := c.draws.user
  email := c.input.email
  passwordHash := S.hashPassword c.input.password
  firstName := c.input.firstName
  lastName := c.input.lastName
  phone := c.input.phone
  enterpriseId := some c.draws.enterprise
  status := .active

def role (name : DefaultRoleName) : Role where
  id := c.draws.role name
  enterpriseId := c.draws.enterprise
  name := name.name
  isSystem := true

/-- The rows of `role_permissions`; no key is missing here. -/
def rolePermissions (permissionIdByKey : PermissionKey → Option Uuid) (name : DefaultRoleName) :
    List Row :=
  ((defaultRolePermissions name).filterMap permissionIdByKey).map (.rolePermission (c.draws.role name))

/-- The statements of one turn of the loop in `seedDefaultRoles`. -/
def seedRole (permissionIdByKey : PermissionKey → Option Uuid) (name : DefaultRoleName) :
    List (List Row) :=
  let rolePermissions := c.rolePermissions permissionIdByKey name
  [[.role (c.role name)]] ++ (if rolePermissions.isEmpty then [] else [rolePermissions]) ++
    if name = .admin then [[.userRole c.draws.user (c.draws.role name)]] else []

def accounts : List Row :=
  syscohadaAccountClasses.map fun account =>
    .account ⟨c.draws.account account.1, c.draws.enterprise, account.1, account.2⟩

def setting : Setting where
  id := c.draws.setting
  enterpriseId := c.draws.enterprise
  key := "commercial.defaults"
  value := { currency := c.enterprise.currency }

def auditLog : AuditLog where
  id := c.draws.auditLog
  userId := c.draws.user
  enterpriseId := c.draws.enterprise
  action := "ENTERPRISE_PROVISIONED"
  resource := "Enterprise"
  resourceId := c.draws.enterprise

/-- The inserts that follow the read of the permissions. -/
def statements (permissionIdByKey : PermissionKey → Option Uuid) : List (List Row) :=
  defaultRoleNames.flatMap (c.seedRole permissionIdByKey) ++
    [c.accounts, [.setting c.setting], [.auditLog c.auditLog]]

end Call

/-- `[...new Set(Object.values(DEFAULT_ROLE_PERMISSIONS).flat())]`. -/
def requiredKeys : List PermissionKey := (defaultRoleNames.flatMap defaultRolePermissions).eraseDups

theorem mem_requiredKeys (key : PermissionKey) : key ∈ requiredKeys := by
  rw [requiredKeys, List.mem_eraseDups, List.mem_flatMap]
  exact ⟨.admin, Access.mem_defaultRoleNames _, Access.mem_permissionKeys key⟩

/-! ## The call -/

def planNotFound : ApiError := .notFound "Forfait introuvable"

/-- What `P2002` becomes. -/
def alreadyExists : ApiError :=
  .conflict "Un compte existe déjà avec cet email, ou NINEA/RCCM déjà utilisé pour ce pays"

def catalogMissing (missing : List PermissionKey) : ApiError :=
  .internal ("Catalogue de permissions non initialisé (clés manquantes : " ++
    ", ".intercalate (missing.map PermissionKey.name) ++ ") — lancer \"pnpm prisma:seed\"")

inductive RegisterState where
  | findingPlan
  | creatingEnterprise (plan : Plan)
  | creatingSubscription (plan : Plan)
  | linkingSubscription (s : Subscription)
  | creatingUser (s : Subscription)
  | findingPermissions (rows : List Row)
  | inserting (todo : List (List Row)) (rows : List Row)
  | issuingVerification (rows : List Row)
  | notifying (rows : List Row)
  | mailing (rows : List Row)
  | issuingTokens (rows : List Row)
  | registered (rows : List Row) (pair : Auth.TokenPair)
  /-- The caller has an error, the rows are committed. -/
  | unanswered (e : ApiError) (rows : List Row)
  | rejected (e : ApiError)

/-- What becomes of a statement: it fails with `message`, or its answer is lost. -/
inductive Reply where
  | ok
  | failed (message : String)
  | lost (message : String)
/-- A statement of the transaction, which has written `rows` and now takes `new`. -/
def attempt (pid : Nat) (rows : List Row) (new : List IndexEntry) (s : RegisterStore)
    (next : RegisterState) : Reply → Option (RegisterStore × RegisterState)
  | .ok =>
    match take s s.db.rows.taken pid (rows.flatMap Row.entries) new with
    | .waits => none
    | .violation => some (s.release pid, .rejected alreadyExists)
    | .done s' => some (s', next)
  | .failed message | .lost message => some (s.release pid, .rejected (.internal message))

/-- A `create` after the transaction: it commits at once. -/
def create (pid : Nat) (row : Row) (s : RegisterStore) (next : RegisterState)
    (thrown : ApiError → RegisterState) (i : Reply) : Option (RegisterStore × RegisterState) :=
  match i with
  | .failed message => some (s, thrown (.internal message))
  | _ =>
    match take s s.db.rows.taken pid [] row.entries with
    | .waits => none
    | .violation => some (s, thrown (.prisma .p2002))
    | .done _ =>
      some (s.autocommit (Db.append [row]),
        match i with
        | .lost message => thrown (.internal message)
        | _ => next)

namespace Call

variable (S : Auth.Services) (c : Call)

def findPlan (i : Reply) (s : RegisterStore) : RegisterState :=
  match i with
  | .failed message | .lost message => .rejected (.internal message)
  | .ok =>
    match s.db.plans.find? c.input.planId with
    | none => .rejected planNotFound
    | some plan => if plan.isActive then .creatingEnterprise plan else .rejected planNotFound

/-- `seedDefaultRoles`, up to its loop. -/
def findPermissions (pid : Nat) (rows : List Row) (i : Reply) (s : RegisterStore) :
    RegisterStore × RegisterState :=
  match i with
  | .failed message | .lost message => (s.release pid, .rejected (.internal message))
  | .ok =>
    let missing := requiredKeys.filter fun key => (s.db.permissionIdByKey key).isNone
    if missing = [] then (s, .inserting (c.statements s.db.permissionIdByKey) rows)
    else (s.release pid, .rejected (catalogMissing missing))

def commit (pid : Nat) (rows : List Row) (i : Reply) (s : RegisterStore) :
    RegisterStore × RegisterState :=
  match i with
  | .ok => (s.commit pid (Db.append rows), .issuingVerification rows)
  | .lost message => (s.commit pid (Db.append rows), .unanswered (.internal message) rows)
  | .failed message => (s.release pid, .rejected (.internal message))

def authToken (now : Instant) : Row :=
  .authToken c.draws.authToken c.draws.user (S.hashToken c.draws.verificationToken)
    (now + emailVerificationTtlMs)

def notification : Row :=
  .notification c.draws.notification c.draws.user c.draws.enterprise "Bienvenue sur la plateforme"
    "Votre entreprise a été créée. Un email de vérification vous a été envoyé."

def refreshToken (now : Instant) : Row :=
  .refreshToken c.draws.refreshToken.id c.draws.user c.draws.familyId
    (S.hashToken c.draws.refreshToken.rawToken) (now + S.refreshTtl)

/-- `issueTokenPair(created.userId, created.enterpriseId, false)`. -/
def tokenPair : Auth.TokenPair :=
  ⟨⟨c.draws.user, some c.draws.enterprise, false⟩, c.draws.refreshToken.rawToken⟩

/-- The rows before the user. -/
def opening (s : Subscription) : List Row := [.enterprise c.linkedEnterprise, .subscription s]

def step (pid : Nat) (i : Reply) (s : RegisterStore) :
    RegisterState → Option (RegisterStore × RegisterState)
  | .findingPlan => some (s, c.findPlan i s)
  | .creatingEnterprise plan =>
    attempt pid [] (Row.enterprise c.enterprise).entries s (.creatingSubscription plan) i
  | .creatingSubscription plan =>
    let subscription := c.subscription plan s.db.now
    attempt pid [.enterprise c.enterprise] (Row.subscription subscription).entries s
      (.linkingSubscription subscription) i
  | .linkingSubscription subscription =>
    attempt pid [.enterprise c.enterprise, .subscription subscription]
      [.currentSubscriptionId subscription.id] s (.creatingUser subscription) i
  | .creatingUser subscription =>
    attempt pid (c.opening subscription) (Row.user (c.user S)).entries s
      (.findingPermissions (c.opening subscription ++ [.user (c.user S)])) i
  | .findingPermissions rows => some (c.findPermissions pid rows i s)
  | .inserting (new :: todo) rows =>
    attempt pid rows (new.flatMap Row.entries) s (.inserting todo (rows ++ new)) i
  | .inserting [] rows => some (commit pid rows i s)
  | .issuingVerification rows =>
    create pid (c.authToken S s.db.now) s (.notifying rows) (fun _ => .issuingTokens rows) i
  | .notifying rows =>
    create pid c.notification s (.mailing rows) (fun _ => .issuingTokens rows) i
  | .mailing rows => some (s, .issuingTokens rows)
  | .issuingTokens rows =>
    create pid (c.refreshToken S s.db.now) s (.registered rows c.tokenPair)
      (fun e => .unanswered e rows) i
  | .registered _ _ | .unanswered _ _ | .rejected _ => none

end Call

/-! ## Everything else -/

/-- What the rest of the application inserts: only a registration creates enterprises and roles. -/
def Row.foreign : Row → Bool
  | .enterprise _ | .role _ | .rolePermission _ _ => false
  | _ => true

/-- `new` may be committed now. -/
def insertable (new : List Row) (s : RegisterStore) : Bool :=
  new.all Row.foreign && decide (new.flatMap Row.entries).Nodup &&
    (new.flatMap Row.entries).all (fun k => !s.db.rows.taken k && s.lock k == none) &&
    (new.flatMap Row.references).all fun k => s.db.rows.taken k || k ∈ new.flatMap Row.entries

theorem entries_permanent (r : Row) : r.permanent.entries = r.entries := by
  cases r <;> rfl

/-- An update by another service. -/
structure Rewrite where
  apply : Row → Row
  permanent : ∀ r, (apply r).permanent = r.permanent

theorem Rewrite.entries (u : Rewrite) (r : Row) : (u.apply r).entries = r.entries := by
  rw [← entries_permanent, u.permanent, entries_permanent]

inductive Outside where
  | tick (n : Nat)
  | changePlans (plans : Table Plan)
  | insert (new : List Row)
  | update (u : Rewrite)

def Outside.apply (s : RegisterStore) : Outside → RegisterStore
  | .tick n => s.autocommit fun db => { db with now := db.now + n }
  | .changePlans plans => s.autocommit fun db => { db with plans }
  | .insert new => if insertable new s then s.autocommit (Db.append new) else s
  | .update u => s.autocommit fun db => { db with rows := db.rows.map u.apply u.entries }

/-- Any number of registrations, each with its input. -/
def registrations (S : Auth.Services) (calls : Nat → Call) :
    Machine RegisterStore RegisterState Reply Outside where
  thread pid i s t := (calls pid).step S pid i s t
  env x s := x.apply s

abbrev RegisterPool := Pool RegisterStore RegisterState

end Gescom.Provisioning
