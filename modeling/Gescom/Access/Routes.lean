import Gescom.Common

/-!
# The routes of the API and their guards (`*.controller.ts`)

Each controller with its handlers, in the order of the files, and the decorators that the guards read.
A path is the list of its segments.
-/

namespace Gescom.Access

inductive Crud where
  | read | create | update | delete
  deriving DecidableEq, Repr

/-- `PERMISSION_KEYS` (`packages/permissions`). -/
inductive PermissionKey where
  | clients (action : Crud)
  | suppliers (action : Crud)
  | products (action : Crud)
  | sales (action : Crud)
  | purchases (action : Crud)
  | invoicing (action : Crud)
  | stock (action : Crud)
  | accountingRead | accountingCreate | accountingUpdate
  | reportsRead
  | usersManage | settingsManage | billingManage
  deriving DecidableEq, Repr

/-- The methods of the controllers, and `HEAD`, which Express answers with the handler of `GET`. -/
inductive Method where
  | get | head | post | put | patch | delete
  deriving DecidableEq, Repr

inductive Guard where
  | jwtAuth | superAdmin | permissions | feature | subscriptionAccess | limit
  deriving DecidableEq, Repr

/-! ## Rate limits (`rate-limit.ts`) -/

/-- At most `limit` requests in `ttl` milliseconds. -/
structure RateLimit where
  ttl : Nat
  limit : Nat
  deriving DecidableEq, Repr

structure RateLimits where
  global : RateLimit
  auth : RateLimit
  webhooks : RateLimit
  deriving DecidableEq, Repr

def computeRateLimits (nodeEnv : Option String) : RateLimits :=
  let isTestEnv := nodeEnv = some "test"
  { global := ⟨60000, if isTestEnv then 1000000 else 100⟩
    auth := ⟨60000, if isTestEnv then 1000000 else 10⟩
    webhooks := ⟨60000, if isTestEnv then 1000000 else 300⟩ }

/-- The limit of `ThrottlerModule.forRoot`, or that of `@Throttle`. -/
inductive Throttle where
  | global | auth | webhooks
  deriving DecidableEq, Repr

def RateLimits.of (limits : RateLimits) : Throttle → RateLimit
  | .global => limits.global
  | .auth => limits.auth
  | .webhooks => limits.webhooks

/-! ## Controllers -/

/-- `@RequirePermission`, `@NoPermissionRequired`, `@RequiresFeature` and `@WithinLimit`. -/
structure Metadata where
  requiredPermission : Option PermissionKey := none
  noPermissionRequired : Option Bool := none
  requiredFeature : Option String := none
  withinLimit : Option String := none
  deriving DecidableEq, Repr

structure Handler where
  name : String
  method : Method
  path : List String := []
  guards : List Guard := []
  metadata : Metadata := {}
  deriving DecidableEq, Repr

structure Controller where
  path : List String
  throttle : Throttle := .global
  guards : List Guard := []
  metadata : Metadata := {}
  handlers : List Handler
  deriving DecidableEq, Repr

/-! ## Business modules -/

/-- `@UseGuards(JwtAuthGuard, PermissionsGuard, FeatureGuard, SubscriptionAccessGuard)`. -/
def businessGuards : List Guard := [.jwtAuth, .permissions, .feature, .subscriptionAccess]

/-- A handler with `@RequirePermission(permission)` and `@RequiresFeature(feature)`. -/
def Handler.business (name : String) (method : Method) (path : List String)
    (permission : PermissionKey) (feature : String) : Handler where
  name := name
  method := method
  path := path
  metadata := { requiredPermission := some permission, requiredFeature := some feature }

/-- `customers`, `suppliers` and `products` differ by their names only. -/
def catalogController (path : String) (permission : Crud → PermissionKey) (feature : String) :
    Controller where
  path := [path]
  guards := businessGuards
  handlers :=
    [.business "list" .get [] (permission .read) feature,
      .business "get" .get [":id"] (permission .read) feature,
      .business "create" .post [] (permission .create) feature,
      .business "update" .patch [":id"] (permission .update) feature,
      .business "deactivate" .delete [":id"] (permission .delete) feature]

def customersController : Controller := catalogController "customers" .clients "clients"
def suppliersController : Controller := catalogController "suppliers" .suppliers "suppliers"
def productsController : Controller := catalogController "products" .products "products"

/-- `sales`, `purchases` and `invoices`: a document is created, then goes through `update` and
`cancel`. -/
def documentsController (path : String) (permission : Crud → PermissionKey) (feature : String)
    (update cancel : String × String) : Controller where
  path := [path]
  guards := businessGuards
  handlers :=
    [.business "list" .get [] (permission .read) feature,
      .business "get" .get [":id"] (permission .read) feature,
      .business "create" .post [] (permission .create) feature,
      .business update.1 .post [":id", update.2] (permission .update) feature,
      .business cancel.1 .post [":id", cancel.2] (permission .delete) feature]

def salesController : Controller :=
  documentsController "sales" .sales "sales" ("confirm", "confirm") ("cancel", "cancel")

def purchasesController : Controller :=
  documentsController "purchases" .purchases "purchases" ("confirm", "confirm") ("cancel", "cancel")

def invoicingController : Controller :=
  documentsController "invoices" .invoicing "invoicing" ("markPaid", "mark-paid") ("void", "void")

def stockController : Controller where
  path := ["stock"]
  guards := businessGuards
  handlers :=
    [.business "listLevels" .get [] (.stock .read) "stock",
      .business "getLevel" .get [":productId"] (.stock .read) "stock",
      .business "listMovements" .get [":productId", "movements"] (.stock .read) "stock",
      .business "createMovement" .post ["movements"] (.stock .create) "stock"]

def accountsController : Controller where
  path := ["accounting", "accounts"]
  guards := businessGuards
  handlers :=
    [.business "list" .get [] .accountingRead "accounting",
      .business "get" .get [":id"] .accountingRead "accounting",
      .business "create" .post [] .accountingCreate "accounting",
      .business "update" .patch [":id"] .accountingUpdate "accounting"]

def journalController : Controller where
  path := ["accounting", "journal-entries"]
  guards := businessGuards
  handlers :=
    [.business "list" .get [] .accountingRead "accounting",
      .business "get" .get [":id"] .accountingRead "accounting",
      .business "create" .post [] .accountingCreate "accounting"]

def trialBalanceController : Controller where
  path := ["accounting"]
  guards := businessGuards
  handlers := [.business "trialBalance" .get ["trial-balance"] .accountingRead "accounting"]

def reportsController : Controller where
  path := ["reports"]
  guards := businessGuards
  handlers :=
    [.business "salesReport" .get ["sales"] .reportsRead "reports",
      .business "purchasesReport" .get ["purchases"] .reportsRead "reports",
      .business "incomeStatement" .get ["income-statement"] .reportsRead "reports"]

/-! ## Accounts, tenants and the platform -/

def authController : Controller where
  path := ["auth"]
  throttle := .auth
  handlers :=
    [{ name := "login", method := .post, path := ["login"] },
      { name := "verifyMfa", method := .post, path := ["mfa", "verify"] },
      { name := "refresh", method := .post, path := ["refresh"] },
      { name := "logout", method := .post, path := ["logout"], guards := [.jwtAuth] },
      { name := "me", method := .get, path := ["me"], guards := [.jwtAuth] },
      { name := "forgotPassword", method := .post, path := ["forgot-password"] },
      { name := "resetPassword", method := .post, path := ["reset-password"] },
      { name := "verifyEmail", method := .post, path := ["verify-email"] }]

def provisioningController : Controller where
  path := ["auth"]
  throttle := .auth
  handlers := [{ name := "register", method := .post, path := ["register"] }]

def usersController : Controller where
  path := ["users"]
  handlers :=
    [{ name := "getMyContext", method := .get, path := ["me", "context"], guards := [.jwtAuth] },
      { name := "list", method := .get, guards := [.jwtAuth, .permissions],
        metadata := { requiredPermission := some .usersManage } },
      { name := "invite", method := .post, path := ["invite"],
        guards := [.jwtAuth, .permissions, .subscriptionAccess, .limit],
        metadata := { requiredPermission := some .usersManage, withinLimit := some "users" } },
      { name := "acceptInvitation", method := .post, path := ["accept-invitation"] }]

/-- `roles` and `settings`: `@UseGuards(JwtAuthGuard, PermissionsGuard)`. -/
def managedController (path : String) (permission : PermissionKey) : Controller where
  path := [path]
  guards := [.jwtAuth, .permissions]
  handlers :=
    [{ name := "list", method := .get, metadata := { requiredPermission := some permission } }]

def rolesController : Controller := managedController "roles" .usersManage
def settingsController : Controller := managedController "settings" .settingsManage

def onboardingController : Controller where
  path := ["onboarding"]
  guards := [.jwtAuth]
  handlers := [{ name := "getState", method := .get }, { name := "advance", method := .patch }]

def mySubscriptionController : Controller where
  path := ["subscriptions", "me"]
  guards := [.jwtAuth]
  handlers := [{ name := "getCurrent", method := .get }]

/-- `@UseGuards(JwtAuthGuard, SuperAdminGuard)`. -/
def platformGuards : List Guard := [.jwtAuth, .superAdmin]

def superAdminController : Controller where
  path := ["admin"]
  guards := platformGuards
  handlers :=
    [{ name := "getOverview", method := .get, path := ["overview"] },
      { name := "listEnterprises", method := .get, path := ["enterprises"] },
      { name := "suspendEnterprise", method := .post, path := ["enterprises", ":id", "suspend"] },
      { name := "reactivateEnterprise", method := .post,
        path := ["enterprises", ":id", "reactivate"] }]

def subscriptionsController : Controller where
  path := ["admin", "enterprises", ":enterpriseId", "subscription"]
  guards := platformGuards
  handlers := [{ name := "changePlan", method := .patch }]

def paymentsBootstrapController : Controller where
  path := ["admin", "enterprises", ":enterpriseId", "payments"]
  guards := platformGuards
  handlers := [{ name := "create", method := .post }]

def plansAdminController : Controller where
  path := ["admin", "plans"]
  guards := platformGuards
  handlers :=
    [{ name := "list", method := .get },
      { name := "create", method := .post },
      { name := "update", method := .patch, path := [":id"] },
      { name := "setFeature", method := .put, path := [":id", "features", ":featureKey"] },
      { name := "setLimit", method := .put, path := [":id", "limits", ":limitKey"] }]

def plansController : Controller where
  path := ["plans"]
  handlers := [{ name := "list", method := .get }]

def paymentsWebhookController : Controller where
  path := ["webhooks", "payments"]
  throttle := .webhooks
  handlers := [{ name := "handle", method := .post, path := [":provider"] }]

def healthController : Controller where
  path := ["health"]
  handlers :=
    [{ name := "live", method := .get, path := ["live"] },
      { name := "ready", method := .get, path := ["ready"] },
      { name := "check", method := .get }]

def controllers : List Controller :=
  [accountsController, journalController, trialBalanceController, authController,
    customersController, healthController, invoicingController, onboardingController,
    paymentsBootstrapController, paymentsWebhookController, plansAdminController, plansController,
    productsController, provisioningController, purchasesController, reportsController,
    rolesController, salesController, settingsController, stockController,
    mySubscriptionController, subscriptionsController, superAdminController, suppliersController,
    usersController]

/-- A handler with its class. -/
structure Endpoint where
  controller : Controller
  handler : Handler
  deriving DecidableEq

namespace Endpoint

variable (r : Endpoint)

def path : List String := r.controller.path ++ r.handler.path

/-- Those of the class, then those of the method. -/
def guards : List Guard := r.controller.guards ++ r.handler.guards

/-- `getAllAndOverride(REQUIRED_PERMISSION_KEY, [context.getHandler(), context.getClass()])`. -/
def requiredPermission : Option PermissionKey :=
  r.handler.metadata.requiredPermission.or r.controller.metadata.requiredPermission

/-- The same for `NO_PERMISSION_REQUIRED_KEY`. -/
def exempted : Bool :=
  (r.handler.metadata.noPermissionRequired.or r.controller.metadata.noPermissionRequired).getD false

/-- `get(REQUIRED_FEATURE_KEY, context.getHandler())`: that of the class is not read. -/
def requiredFeature : Option String := r.handler.metadata.requiredFeature

/-- `get(WITHIN_LIMIT_KEY, context.getHandler())`. -/
def withinLimit : Option String := r.handler.metadata.withinLimit

end Endpoint

/-- An endpoint of the API. -/
structure Route extends Endpoint where
  declared : controller ∈ controllers
  mem : handler ∈ controller.handlers

/-! ## What a route asks for -/

/-- Read off the method and the path alone. `subscription`: whatever is no `GET` asks for a
subscription that still runs. -/
structure Demand where
  authenticated : Bool := true
  superAdmin : Bool := false
  permission : Option PermissionKey := none
  feature : Option String := none
  subscription : Bool := false
  limit : Option String := none

/-- The action of a request on a business module. -/
def action (method : Method) (path : List String) : Crud :=
  match method with
  | .get | .head => .read
  | .patch | .put => .update
  | .delete => .delete
  | .post =>
    if path.getLast? ∈ [some "confirm", some "mark-paid"] then .update
    else if path.getLast? ∈ [some "cancel", some "void"] then .delete
    else .create

def accounting : Crud → Option PermissionKey
  | .read => some .accountingRead
  | .create => some .accountingCreate
  | .update => some .accountingUpdate
  | .delete => none

def reports : Crud → Option PermissionKey
  | .read => some .reportsRead
  | _ => none

/-- First segment, feature and permissions of each business module. -/
def businessModules : List (String × String × (Crud → Option PermissionKey)) :=
  [("customers", "clients", some ∘ .clients), ("suppliers", "suppliers", some ∘ .suppliers),
    ("products", "products", some ∘ .products), ("sales", "sales", some ∘ .sales),
    ("purchases", "purchases", some ∘ .purchases), ("invoices", "invoicing", some ∘ .invoicing),
    ("stock", "stock", some ∘ .stock), ("accounting", "accounting", accounting),
    ("reports", "reports", reports)]

/-- Who has no account yet, providers, probes, and the price list. -/
def publicPaths : List (List String) :=
  [["auth", "login"], ["auth", "mfa", "verify"], ["auth", "refresh"], ["auth", "forgot-password"],
    ["auth", "reset-password"], ["auth", "verify-email"], ["auth", "register"],
    ["users", "accept-invitation"], ["webhooks", "payments", ":provider"], ["plans"],
    ["health", "live"], ["health", "ready"], ["health"]]

def managedPaths : List (List String × Demand) :=
  [(["users"], { permission := some .usersManage }),
    (["users", "invite"],
      { permission := some .usersManage, subscription := true, limit := some "users" }),
    (["roles"], { permission := some .usersManage }),
    (["settings"], { permission := some .settingsManage })]

def demand (method : Method) (path : List String) : Demand :=
  if path ∈ publicPaths then { authenticated := false }
  else if path.head? = some "admin" then { superAdmin := true }
  else
    match path.head?.bind fun segment => businessModules.lookup segment with
    | some (feature, permission) =>
      { permission := permission (action method path), feature := some feature, subscription := true }
    | none => (managedPaths.lookup path).getD {}

def Demand.guards (d : Demand) : List Guard :=
  [(d.authenticated, Guard.jwtAuth), (d.superAdmin, .superAdmin),
    (d.permission.isSome, .permissions), (d.feature.isSome, .feature),
    (d.subscription, .subscriptionAccess), (d.limit.isSome, .limit)].filterMap fun (asked, guard) =>
      if asked then some guard else none

def Endpoint.demand (r : Endpoint) : Demand := Access.demand r.handler.method r.path

/-- The guards of an endpoint, and what they read, are those its method and path call for. -/
structure Endpoint.Guarded (r : Endpoint) : Prop where
  guards : r.guards = r.demand.guards
  permission : r.requiredPermission = r.demand.permission
  feature : r.requiredFeature = r.demand.feature
  limit : r.withinLimit = r.demand.limit

instance (r : Endpoint) : Decidable r.Guarded :=
  decidable_of_iff (r.guards = r.demand.guards ∧ r.requiredPermission = r.demand.permission ∧
      r.requiredFeature = r.demand.feature ∧ r.withinLimit = r.demand.limit)
    ⟨fun ⟨h₁, h₂, h₃, h₄⟩ => ⟨h₁, h₂, h₃, h₄⟩, fun ⟨h₁, h₂, h₃, h₄⟩ => ⟨h₁, h₂, h₃, h₄⟩⟩

theorem controllers_guarded : ∀ c ∈ controllers, ∀ h ∈ c.handlers, Endpoint.Guarded ⟨c, h⟩ := by
  decide +kernel

theorem Route.guarded (r : Route) : r.Guarded :=
  controllers_guarded r.controller r.declared r.handler r.mem

theorem Endpoint.Guarded.permission_of_mem {r : Endpoint} (h : r.Guarded)
    (hmem : .permissions ∈ r.guards) : ∃ key, r.requiredPermission = some key := by
  rw [h.guards] at hmem
  rw [h.permission]
  exact Option.isSome_iff_exists.1 (by simpa [Demand.guards] using hmem)

theorem Endpoint.Guarded.feature_of_mem {r : Endpoint} (h : r.Guarded)
    (hmem : .feature ∈ r.guards) : ∃ key, r.requiredFeature = some key := by
  rw [h.guards] at hmem
  rw [h.feature]
  exact Option.isSome_iff_exists.1 (by simpa [Demand.guards] using hmem)

theorem Endpoint.Guarded.limit_of_mem {r : Endpoint} (h : r.Guarded)
    (hmem : .limit ∈ r.guards) : ∃ key, r.withinLimit = some key := by
  rw [h.guards] at hmem
  rw [h.limit]
  exact Option.isSome_iff_exists.1 (by simpa [Demand.guards] using hmem)

theorem controllers_jwtAuth : ∀ c ∈ controllers, ∀ h ∈ c.handlers,
    Endpoint.guards ⟨c, h⟩ = [] ∨ .jwtAuth ∈ Endpoint.guards ⟨c, h⟩ := by
  decide +kernel

theorem Route.jwtAuth_mem {r : Route} {g : Guard} (h : g ∈ r.guards) : .jwtAuth ∈ r.guards := by
  rcases controllers_jwtAuth r.controller r.declared r.handler r.mem with hnone | hmem
  · rw [show r.guards = [] from hnone] at h
    cases h
  · exact hmem

/-- `JwtAuthGuard` comes before whatever needs the user it sets. -/
theorem Endpoint.jwtAuth_notMem_tail (r : Endpoint) (h : r.Guarded) :
    Guard.jwtAuth ∉ r.guards.tail := by
  rw [h.guards, Demand.guards, List.filterMap_cons]
  intro hmem
  split at hmem
  · have hrest := List.mem_of_mem_tail hmem
    simp at hrest
  · simp at hmem

end Gescom.Access
