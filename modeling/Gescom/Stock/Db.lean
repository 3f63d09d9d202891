import Gescom.Common
import Gescom.Lib.Ledger
import Gescom.Lib.Table

/-!
# Stock data and the only writer of the ledger (`stock.repository.ts`)

`StockMovement` is an append-only ledger: nobody updates or deletes a row, and `applyMovement` is
the only function that inserts one. Sales and purchases have the same columns here, so one
`Document` stands for both, each kind in its own table.
-/

namespace Gescom.Stock

/-- `StockMovementType`. -/
inductive MovementType where
  | in_ | out | adjustment
  deriving DecidableEq, Repr

inductive DocKind where
  | sale | purchase
  deriving DecidableEq, Repr

structure Product where
  id : Uuid
  enterpriseId : Uuid
  trackStock : Bool
  deriving DecidableEq, Repr

/-- A line of a sale or a purchase; both schemas ask for `quantity: int().min(1)`. -/
@[ext] structure Line where
  productId : Uuid
  quantity : Int
  positive : 0 < quantity

instance : DecidableEq Line := fun _ _ => decidable_of_iff _ Line.ext_iff.symm

/-- `SaleStatus` and `PurchaseStatus`. -/
inductive DocStatus where
  | draft | confirmed | cancelled
  deriving DecidableEq, Repr

/-- A row of `sales` or `purchases`. Two fields are not columns: `version` is the row version
Postgres compares (`xmin`), `tracked` the products that tracked stock when the document was
confirmed. -/
structure Document where
  id : Uuid
  enterpriseId : Uuid
  status : DocStatus := .draft
  lines : List Line
  confirmedAt : Option Instant := none
  cancelledAt : Option Instant := none
  version : Nat := 0
  tracked : List Uuid := []
  deriving DecidableEq

/-- A row of `stock_movements`. `origin` is not a column: the document whose confirmation inserted
the row, if any. -/
structure Movement where
  id : Uuid
  enterpriseId : Uuid
  productId : Uuid
  type : MovementType
  quantity : Int
  note : Option String
  idempotencyKey : Option String
  origin : Option (DocKind × Uuid)
  deriving DecidableEq, Repr

/-- The sign is carried by the type, and by the quantity of an adjustment. -/
def MovementType.signed (t : MovementType) (quantity : Int) : Int :=
  if t = .out then -quantity else quantity

def Movement.delta (m : Movement) : Int := m.type.signed m.quantity

instance : Keyed Product Uuid := ⟨Product.id⟩
instance : Keyed Document Uuid := ⟨Document.id⟩

structure Db where
  products : Table Product
  sales : Table Document
  purchases : Table Document
  movements : List Movement
  now : Instant

def Db.documents (db : Db) : DocKind → Table Document
  | .sale => db.sales
  | .purchase => db.purchases

def Db.updateDocument (db : Db) (kind : DocKind) (id : Uuid) (f : Document → Document)
    (hf : ∀ d, (f d).id = d.id) : Db :=
  match kind with
  | .sale => { db with sales := db.sales.update id f hf }
  | .purchase => { db with purchases := db.purchases.update id f hf }

section
variable (db : Db) (kind : DocKind) (id : Uuid) (f : Document → Document)
  (hf : ∀ d, (f d).id = d.id)

@[simp] theorem updateDocument_products :
    (db.updateDocument kind id f hf).products = db.products := by
  cases kind <;> rfl

@[simp] theorem updateDocument_movements :
    (db.updateDocument kind id f hf).movements = db.movements := by
  cases kind <;> rfl

theorem updateDocument_documents (kind' : DocKind) :
    (db.updateDocument kind id f hf).documents kind' =
      if kind' = kind then (db.documents kind).update id f hf else db.documents kind' := by
  cases kind <;> cases kind' <;> rfl

end

/-- `line.product.trackStock`. -/
def Db.tracks (db : Db) (productId : Uuid) : Bool :=
  match db.products.find? productId with
  | some p => p.trackStock
  | none => false

/-- The movements of one product, in creation order. -/
def Db.movementsOf (db : Db) (productId : Uuid) : List Movement :=
  db.movements.filter fun m => m.productId = productId

/-! ## `aggregateQuantities` (`stock.repository.ts:247`) -/

/-- One row of `groupBy({ by: ["productId", "type"], _sum: { quantity } })`. -/
structure Group where
  productId : Uuid
  type : MovementType
  sum : Int

def groupKey (m : Movement) : Uuid × MovementType := (m.productId, m.type)

def groupBy (ms : List Movement) : List Group :=
  (ms.map groupKey).dedup.map fun k =>
    { productId := k.1, type := k.2, sum :=
      ((ms.filter fun m => groupKey m = k).map Movement.quantity).sum }

/-- The map from products to levels; a product without movements has no entry. -/
def Db.aggregateQuantities (db : Db) (enterpriseId : Uuid) (productIds : List Uuid) :
    Uuid → Option Int :=
  Ledger.accumulate (fun _ => none)
    ((groupBy (db.movements.filter fun m => m.enterpriseId = enterpriseId ∧
      m.productId ∈ productIds)).map
      fun g => (g.productId, g.type.signed g.sum))

/-- `quantities.get(productId) ?? 0`, over one product. -/
def Db.level (db : Db) (enterpriseId productId : Uuid) : Int :=
  (db.aggregateQuantities enterpriseId [productId] productId).getD 0

/-! ## `applyMovement` (`stock.repository.ts:176`) -/

/-- `createStockMovementSchema`: an input carries the result of its validation. -/
structure CreateStockMovementInput where
  productId : Uuid
  type : MovementType
  quantity : Int
  note : Option String
  valid : if type = .adjustment then quantity ≠ 0 else 0 < quantity

structure CreateMovementResult where
  movement : Movement
  quantityOnHand : Int
  created : Bool
  deriving DecidableEq, Repr

/-- An empty key is falsy. -/
def truthy (key : Option String) : Option String := key.filter (· ≠ "")

/-- `stockMovement.findFirst({ where: { enterpriseId, idempotencyKey } })`. -/
def Db.findByKey (db : Db) (enterpriseId : Uuid) (key : String) : Option Movement :=
  db.movements.find? fun m => m.enterpriseId = enterpriseId ∧ m.idempotencyKey = some key

/-- `stockMovement.create`: `none` when the index on `(enterpriseId, idempotencyKey)` refuses the
row. -/
def Db.insertMovement (db : Db) (m : Movement) : Option Db :=
  if (m.idempotencyKey.bind (db.findByKey m.enterpriseId)).isSome then none
  else some { db with movements := db.movements ++ [m] }

/-- A deduplicated replay. -/
def Db.replay (db : Db) (enterpriseId : Uuid) (existing : Movement) : CreateMovementResult :=
  { movement := existing, quantityOnHand := db.level enterpriseId existing.productId,
    created := false }

/-- `applyMovement`. `origin` is the document being confirmed, `fresh` the identifier of the new
row. -/
def applyMovement (enterpriseId : Uuid) (input : CreateStockMovementInput) (key : Option String)
    (origin : Option (DocKind × Uuid)) (fresh : Uuid) (db : Db) :
    Except ApiError (CreateMovementResult × Db) :=
  match (truthy key).bind (db.findByKey enterpriseId) with
  | some existing => .ok (db.replay enterpriseId existing, db)
  | none =>
    match db.products.find? input.productId with
    | none => .error (.notFound "Produit introuvable")
    | some product =>
      if product.enterpriseId ≠ enterpriseId then .error (.notFound "Produit introuvable")
      else if !product.trackStock then .error (.badRequest "Ce produit ne suit pas de stock")
      else
        let currentQuantity := db.level enterpriseId input.productId
        let nextQuantity := currentQuantity + input.type.signed input.quantity
        if nextQuantity < 0 then .error (.conflict "Stock insuffisant")
        else
          let movement : Movement :=
            { id := fresh, enterpriseId, productId := input.productId, type := input.type,
              quantity := input.quantity, note := input.note, idempotencyKey := key, origin }
          match db.insertMovement movement with
          | some db' => .ok ({ movement, quantityOnHand := nextQuantity, created := true }, db')
          | none =>
            -- P2002: only a key that is not falsy is looked up again
            match (truthy key).bind (db.findByKey enterpriseId) with
            | some existing => .ok (db.replay enterpriseId existing, db)
            | none => .error (.prisma .p2002)

/-- `createMovement` (`stock.repository.ts:142`), alone in its transaction. -/
def createMovement (enterpriseId : Uuid) (input : CreateStockMovementInput)
    (idempotencyKey : Option String)
    (fresh : Uuid) (db : Db) : Except ApiError (CreateMovementResult × Db) :=
  applyMovement enterpriseId input idempotencyKey none fresh db

end Gescom.Stock
