import Gescom.Common
import Gescom.Lib.RowSecurity

/-!
# Tables, policies and privileges of the tenant role

`erp_app_tenant`, as the migrations leave it (`20260809113836_add_tenant_role_and_rls`, and the one of
each table added since). A row is modelled by the columns that the policies compare.
-/

namespace Gescom.Tenant

open RowSecurity

inductive TableName where
  | permissions | plans | features | planFeatures | limits | planLimits
  | authTokens | refreshTokens | auditLogs
  | enterprises | roles | userRoles | rolePermissions | users | settings | notifications
  | subscriptions | subscriptionEvents | payments | invoices | invoiceCounters
  | accounts | onboardingStates | customers | suppliers | products | stockMovements
  | sales | saleLines | purchases | purchaseLines | salesInvoices | salesInvoiceCounters
  | journalEntries | journalEntryLines | journalEntryCounters
  deriving DecidableEq, Repr

/-- The table of a row, and the columns of its primary key. -/
structure RowKey where
  table : TableName
  id : List Uuid
  deriving DecidableEq, Repr

/-- `parentId` is `role_id` or `subscription_id`, `body` the columns that no policy looks at. -/
structure Row (β : Type) where
  key : RowKey
  enterpriseId : Option Uuid := none
  parentId : Uuid := 0
  body : β
  deriving DecidableEq

instance (β : Type) : Keyed (Row β) RowKey := ⟨Row.key⟩

/-- The `USING` clause of `tenant_isolation`. -/
inductive Policy where
  | none
  | id
  | enterpriseId
  | parentIn (table : TableName)

def policyOf : TableName → Policy
  | .permissions | .plans | .features | .planFeatures | .limits | .planLimits => .none
  | .authTokens | .refreshTokens | .auditLogs => .none
  | .enterprises => .id
  | .userRoles | .rolePermissions => .parentIn .roles
  | .subscriptionEvents => .parentIn .subscriptions
  | .roles | .users | .settings | .notifications | .subscriptions | .payments | .invoices
  | .invoiceCounters | .accounts | .onboardingStates | .customers | .suppliers | .products
  | .stockMovements | .sales | .saleLines | .purchases | .purchaseLines | .salesInvoices
  | .salesInvoiceCounters | .journalEntries | .journalEntryLines | .journalEntryCounters =>
    .enterpriseId

/-- `GRANT … TO erp_app_tenant`. -/
def granted : TableName → Privilege → Bool
  | .permissions, p | .plans, p | .features, p | .planFeatures, p | .limits, p | .planLimits, p =>
    p == .select
  | .refreshTokens, _ | .auditLogs, _ => false
  | _, _ => true

def Policy.kind : Policy → Kind
  | none => .shared
  | id => .column
  | enterpriseId => .column
  | parentIn _ => .parent

def Row.owner {β : Type} (r : Row β) : Owner Uuid RowKey :=
  match policyOf r.key.table with
  | .none => .shared
  | .id => .column r.key.id.head?
  | .enterpriseId => .column r.enterpriseId
  | .parentIn table => .parent ⟨table, [r.parentId]⟩

def schema (β : Type) : Schema (Row β) Uuid TableName where
  table := RowKey.table
  granted := granted
  kind t := (policyOf t).kind
  owner := Row.owner
  owner_kind r := by
    unfold Row.owner
    show _ = (policyOf r.key.table).kind
    cases policyOf r.key.table <;> rfl

/-- The catalogue of the platform, which every tenant may read, and the tokens of links. -/
def sharedTables : List TableName :=
  [.permissions, .plans, .features, .planFeatures, .limits, .planLimits, .authTokens]

/-- A table that the role may read has a policy or is one of these. -/
theorem shared_of_granted {t : TableName} (hread : granted t .select = true)
    (hkind : (policyOf t).kind = .shared) : t ∈ sharedTables := by
  revert hread hkind
  cases t <;> decide

/-- Of the tables without a policy, the role only writes the tokens of links. -/
theorem authTokens_of_granted {t : TableName} {p : Privilege} (hp : p ≠ .select)
    (hwrite : granted t p = true) (hkind : (policyOf t).kind = .shared) : t = .authTokens := by
  revert hwrite hkind
  cases t <;> cases p <;> first | exact absurd rfl hp | decide

end Gescom.Tenant
