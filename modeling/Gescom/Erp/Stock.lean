import Gescom.Erp.Catalog

/-!
# Stock levels and movements (`stock.repository.ts`)

`applyMovement` on the tables of the ERP modules. It runs in a SERIALIZABLE transaction, so that a
call that commits is one step: `createMovement` is that step.
-/

namespace Gescom.Erp

export Stock (CreateStockMovementInput)

structure MovementResult where
  movement : StockMovement
  quantityOnHand : Int
  created : Bool
  deriving DecidableEq, Repr

/-- The ledger alone: `aggregateQuantities` reads no other table. -/
def Db.ledger (db : Db) : Stock.Db where
  products := Table.empty
  sales := Table.empty
  purchases := Table.empty
  movements := db.movements.map StockMovement.toMovement
  now := db.now

def Db.level (db : Db) (enterpriseId productId : Uuid) : Int :=
  db.ledger.level enterpriseId productId

/-- `stockMovement.findFirst({ where: { enterpriseId, idempotencyKey } })`. -/
def Db.movementByKey (db : Db) (enterpriseId : Uuid) (key : String) : Option StockMovement :=
  db.movements.find? fun m => m.enterpriseId = enterpriseId ∧ m.idempotencyKey = some key

/-- `applyMovement` (`stock.repository.ts:176`). `origin` is the document being confirmed, `fresh`
the identifier of the new row. -/
def applyMovement (enterpriseId : Uuid) (input : CreateStockMovementInput) (key : Option String)
    (origin : Option (DocKind × Uuid)) (fresh : Uuid) (db : Db) :
    Except ApiError (MovementResult × Db) :=
  match (truthy key).bind (db.movementByKey enterpriseId) with
  | some existing =>
    .ok (⟨existing, db.level enterpriseId existing.productId, false⟩, db)
  | none =>
    match db.products.find? input.productId with
    | none => .error (.notFound "Produit introuvable")
    | some product =>
      if product.enterpriseId ≠ enterpriseId then .error (.notFound "Produit introuvable")
      else if !product.trackStock then .error (.badRequest "Ce produit ne suit pas de stock")
      else
        let currentQuantity := db.level enterpriseId input.productId
        let nextQuantity := currentQuantity + input.type.signed input.quantity
        if nextQuantity < 0 then .error (.conflict "Stock insuffisant")
        -- the index refuses the row; only an empty key has not been looked up above
        else if (key.bind (db.movementByKey enterpriseId)).isSome then .error (.prisma .p2002)
        else
          let movement : StockMovement :=
            { id := fresh, enterpriseId, productId := input.productId, type := input.type
              quantity := input.quantity, note := input.note, idempotencyKey := key, origin
              createdAt := db.now }
          .ok (⟨movement, nextQuantity, true⟩, { db with movements := db.movements ++ [movement] })

/-- `createMovement` (`stock.repository.ts:142`). -/
def createMovement (enterpriseId : Uuid) (input : CreateStockMovementInput)
    (idempotencyKey : Option String) (fresh : Uuid) (db : Db) :
    Except ApiError (MovementResult × Db) :=
  applyMovement enterpriseId input idempotencyKey none fresh db

/-! ## Levels and lists -/

structure StockLevel where
  productId : Uuid
  code : String
  name : String
  unit : String
  quantityOnHand : Int
  deriving DecidableEq, Repr

structure ListStockQuery extends PageQuery where
  search : Option String := none

/-- An item of `findLevels`; `quantities` is the map `aggregateQuantities` returns. -/
def stockLevel (quantities : Uuid → Option Int) (product : Product) : StockLevel where
  productId := product.id
  code := product.code
  name := product.name
  unit := product.unit
  quantityOnHand := (quantities product.id).getD 0

def findTrackedProductOrThrow (enterpriseId productId : Uuid) (db : Db) : Except ApiError Product :=
  match db.products.find? productId with
  | none => .error (.notFound "Produit introuvable ou ne suit pas de stock")
  | some product =>
    if product.enterpriseId ≠ enterpriseId ∨ !product.trackStock then
      .error (.notFound "Produit introuvable ou ne suit pas de stock")
    else .ok product

namespace StockRepository

def findLevels (T : Texts) (enterpriseId : Uuid) (query : ListStockQuery) :
    Transaction (Paged StockLevel) :=
  Confinement.ask fun db =>
    let page := query.of id <| products.findMany enterpriseId
      (fun p => p.trackStock && T.search query.search [some p.name, some p.code])
      (fun a b => T.collate a.name b.name) db
    let quantities := db.ledger.aggregateQuantities enterpriseId (page.items.map Product.id)
    .ok { page with items := page.items.map (stockLevel quantities) }

def getLevel (enterpriseId productId : Uuid) : Transaction StockLevel :=
  Confinement.ask fun db =>
    (findTrackedProductOrThrow enterpriseId productId db).map <|
      stockLevel (db.ledger.aggregateQuantities enterpriseId [productId])

def findMovements (enterpriseId productId : Uuid) (query : PageQuery) :
    Transaction (Paged StockMovement) :=
  Confinement.ask fun db =>
    (findTrackedProductOrThrow enterpriseId productId db).map fun _ =>
      query.of id <| (db.movements.filter fun m =>
        m.enterpriseId = enterpriseId ∧ m.productId = productId).mergeSort fun a b =>
          b.createdAt ≤ a.createdAt

end StockRepository

variable {e fresh : Uuid} {input : CreateStockMovementInput} {key : Option String}
  {origin : Option (DocKind × Uuid)} {db db' : Db} {result : MovementResult}

/-- A movement that is accepted is the one that has the key, or a new one of a product of the
enterprise that does not overdraw. -/
theorem applyMovement_ok (h : applyMovement e input key origin fresh db = .ok (result, db')) :
    (db' = db ∧ ∃ k, truthy key = some k ∧ db.movementByKey e k = some result.movement) ∨
      (∃ product, db.products.find? input.productId = some product ∧ product.enterpriseId = e ∧
        key.bind (db.movementByKey e) = none ∧ result.movement.enterpriseId = e ∧
        result.movement.productId = input.productId ∧ result.movement.idempotencyKey = key ∧
        0 ≤ db.level e result.movement.productId + result.movement.delta ∧
        db' = { db with movements := db.movements ++ [result.movement] }) := by
  unfold applyMovement at h
  split at h
  · rename_i existing hfound
    cases h
    obtain ⟨k, hk, hexisting⟩ := Option.bind_eq_some_iff.1 hfound
    exact .inl ⟨rfl, k, hk, hexisting⟩
  · split at h
    · cases h
    · rename_i product hproduct
      simp only at h
      split_ifs at h with howner htracked hnegative htaken
      cases h
      refine .inr ⟨product, hproduct, by simpa using howner, ?_, rfl, rfl, rfl, ?_, rfl⟩
      · simpa using htaken
      · exact not_lt.1 hnegative

end Gescom.Erp
