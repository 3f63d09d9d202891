import Gescom.Access.Routes

/-!
# The roles of a new enterprise (`packages/permissions`)
-/

namespace Gescom.Access

def Crud.all : List Crud := [.read, .create, .update, .delete]

/-- `PERMISSION_KEYS`, and `ALL_PERMISSIONS`, which lists the same. -/
def permissionKeys : List PermissionKey :=
  Crud.all.map .clients ++ Crud.all.map .suppliers ++ Crud.all.map .products ++
    Crud.all.map .sales ++ Crud.all.map .purchases ++ Crud.all.map .invoicing ++
    Crud.all.map .stock ++
    [.accountingRead, .accountingCreate, .accountingUpdate, .reportsRead, .usersManage,
      .settingsManage, .billingManage]

theorem mem_permissionKeys (key : PermissionKey) : key ∈ permissionKeys := by
  cases key with
  | clients action => cases action <;> decide
  | suppliers action => cases action <;> decide
  | products action => cases action <;> decide
  | sales action => cases action <;> decide
  | purchases action => cases action <;> decide
  | invoicing action => cases action <;> decide
  | stock action => cases action <;> decide
  | _ => decide

def Crud.name : Crud → String
  | .read => "read"
  | .create => "create"
  | .update => "update"
  | .delete => "delete"

def PermissionKey.name : PermissionKey → String
  | .clients action => "clients." ++ action.name
  | .suppliers action => "suppliers." ++ action.name
  | .products action => "products." ++ action.name
  | .sales action => "sales." ++ action.name
  | .purchases action => "purchases." ++ action.name
  | .invoicing action => "invoicing." ++ action.name
  | .stock action => "stock." ++ action.name
  | .accountingRead => "accounting.read"
  | .accountingCreate => "accounting.create"
  | .accountingUpdate => "accounting.update"
  | .reportsRead => "reports.read"
  | .usersManage => "users.manage"
  | .settingsManage => "settings.manage"
  | .billingManage => "billing.manage"

/-- `ALL_READ`. -/
def allRead : List PermissionKey :=
  [.clients .read, .suppliers .read, .products .read, .sales .read, .purchases .read,
    .invoicing .read, .stock .read, .accountingRead, .reportsRead]

inductive DefaultRoleName where
  | admin | comptable | commercial | caissier | magasinier | gestionnaire | lecteur
  deriving DecidableEq, Repr

/-- `DEFAULT_ROLE_NAMES`. -/
def defaultRoleNames : List DefaultRoleName :=
  [.admin, .comptable, .commercial, .caissier, .magasinier, .gestionnaire, .lecteur]

def DefaultRoleName.name : DefaultRoleName → String
  | .admin => "ADMIN"
  | .comptable => "COMPTABLE"
  | .commercial => "COMMERCIAL"
  | .caissier => "CAISSIER"
  | .magasinier => "MAGASINIER"
  | .gestionnaire => "GESTIONNAIRE"
  | .lecteur => "LECTEUR"

/-- `DEFAULT_ROLE_PERMISSIONS`. -/
def defaultRolePermissions : DefaultRoleName → List PermissionKey
  | .admin => permissionKeys
  | .comptable =>
    [.accountingRead, .accountingCreate, .accountingUpdate, .reportsRead, .clients .read,
      .suppliers .read, .sales .read, .purchases .read, .invoicing .read, .invoicing .create,
      .invoicing .update, .invoicing .delete]
  | .commercial =>
    [.clients .read, .clients .create, .clients .update, .sales .read, .sales .create,
      .sales .update, .invoicing .read, .invoicing .create, .products .read, .reportsRead]
  | .caissier =>
    [.sales .read, .sales .create, .invoicing .read, .invoicing .create, .invoicing .update,
      .stock .read, .clients .read]
  | .magasinier =>
    [.stock .read, .stock .create, .stock .update, .stock .delete, .products .read,
      .products .update, .purchases .read, .suppliers .read]
  | .gestionnaire =>
    Crud.all.map .clients ++ Crud.all.map .suppliers ++ Crud.all.map .products ++
      Crud.all.map .sales ++ Crud.all.map .purchases ++ Crud.all.map .invoicing ++
      Crud.all.map .stock ++ [.accountingRead, .reportsRead]
  | .lecteur => allRead

theorem mem_defaultRoleNames (name : DefaultRoleName) : name ∈ defaultRoleNames := by
  cases name <;> decide

theorem defaultRoleNames_nodup : defaultRoleNames.Nodup := by decide

theorem DefaultRoleName.name_injective {a b : DefaultRoleName} (h : a.name = b.name) : a = b := by
  revert h
  cases a <;> cases b <;> decide

theorem defaultRolePermissions_nodup (name : DefaultRoleName) :
    (defaultRolePermissions name).Nodup := by
  cases name <;> decide

end Gescom.Access
