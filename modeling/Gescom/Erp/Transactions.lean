import Gescom.Lib.Confinement
import Gescom.Erp.Db

/-!
# What the repositories share (`tenant-scoped-prisma.service.ts`)

Each method of an ERP repository runs in `tenantPrisma.run`. Alone, it is a program on the database:
it answers and changes rows, or it throws and the transaction is rolled back. Where a query sets no
order, or rows tie, they come in the order of their insertion.
-/

namespace Gescom.Erp

open Confinement

abbrev Transaction (α : Type) := Program Db ApiError α

/-- What an insert draws: the identifiers of the row and of its lines. -/
structure Draw where
  id : Uuid
  lineId : Nat → Uuid

/-! ## Tables with an owner -/

/-- A table whose rows belong to an enterprise. `same` is its unique index beside the primary key. -/
structure TenantTable (ρ : Type) [Keyed ρ Uuid] where
  get : Db → Table ρ
  put : Db → Table ρ → Db
  owner : ρ → Uuid
  same : ρ → ρ → Bool

namespace TenantTable

variable {ρ : Type} [Keyed ρ Uuid] (t : TenantTable ρ)

/-- `findUnique({ where: { id } })`, and a 404 where the row is another enterprise's. -/
def findOwned (missing : String) (enterpriseId id : Uuid) (db : Db) : Except ApiError ρ :=
  match (t.get db).find? id with
  | none => .error (.notFound missing)
  | some r => if t.owner r ≠ enterpriseId then .error (.notFound missing) else .ok r

def findByIdOrThrow (missing : String) (enterpriseId id : Uuid) : Transaction ρ :=
  ask (t.findOwned missing enterpriseId id)

/-- `findMany({ where: { enterpriseId, … }, orderBy })`. -/
def findMany (enterpriseId : Uuid) (cond : ρ → Bool) (order : ρ → ρ → Bool) (db : Db) : List ρ :=
  ((t.get db).rows.filter fun r => t.owner r = enterpriseId ∧ cond r).mergeSort order

def create (row : Instant → ρ) : Transaction ρ := fun db =>
  let r := row db.now
  if (t.get db).rows.any fun x => Keyed.key x == Keyed.key r || t.same x r then
    .error (.prisma .p2002)
  else .ok (r, t.put db ((t.get db).insert r))

/-- `update({ where: { id }, data })`; `f` is what the data and `@updatedAt` change. -/
def update (id : Uuid) (f : Instant → ρ → ρ) (hf : ∀ now r, Keyed.key (f now r) = Keyed.key r) :
    Transaction ρ := fun db =>
  match (t.get db).find? id with
  | none => .error (.prisma .p2025)
  | some r =>
    if (t.get db).rows.any fun x => !(Keyed.key x == id) && t.same x (f db.now r) then
      .error (.prisma .p2002)
    else .ok (f db.now r, t.put db ((t.get db).update id (f db.now) (hf db.now)))

end TenantTable

def withUniqueCodeConflictMapped {α : Type} (message : String) : Transaction α → Transaction α :=
  mapError fun
    | .prisma .p2002 => .conflict message
    | e => e

/-! ## Lists -/

/-- What Postgres and Node do with texts: `mode: "insensitive"`, `ORDER BY` and `localeCompare`. -/
structure Texts where
  contains : String → String → Bool
  collate : String → String → Bool
  localeCompare : String → String → Bool

/-- `OR: [{ field: { contains: search, mode: "insensitive" } }, …]`, if there is a search. -/
def Texts.search (T : Texts) (search : Option String) (fields : List (Option String)) : Bool :=
  (truthy search).all fun s => fields.any fun f => f.any (T.contains · s)

/-- The part of a query that every list has: `page: int().min(1)`. -/
structure PageQuery where
  page : Nat := 1
  pageSize : Nat := 20
  positive : 0 < page := by decide

structure Paged (α : Type) where
  items : List α
  total : Nat
  page : Nat
  pageSize : Nat
  deriving DecidableEq, Repr

/-- `skip` and `take` on the rows, and their `count`. -/
def PageQuery.of {ρ α : Type} (query : PageQuery) (item : ρ → α) (rows : List ρ) : Paged α where
  items := ((rows.drop ((query.page - 1) * query.pageSize)).take query.pageSize).map item
  total := rows.length
  page := query.page
  pageSize := query.pageSize

end Gescom.Erp
