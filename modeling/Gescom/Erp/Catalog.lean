import Gescom.Erp.Transactions

/-!
# Products and customers (`products.repository.ts`, `customers.repository.ts`)

Both repositories check the enterprise of a row before they update it by its identifier alone.
-/

namespace Gescom.Erp

/-! ## Products -/

/-- `@@unique([enterpriseId, code])`. -/
def products : TenantTable Product where
  get := Db.products
  put db t := { db with products := t }
  owner := Product.enterpriseId
  same a b := a.enterpriseId == b.enterpriseId && a.code == b.code

structure CreateProductInput where
  code : String
  name : String
  description : Option String := none
  unit : String := "pièce"
  category : Option String := none
  barcode : Option String := none
  sellingPriceExcludingTax : Nat
  vatRateBasisPoints : Nat := 1800
  trackStock : Bool := true
  deriving DecidableEq, Repr

/-- `createProductSchema.partial()`. -/
structure UpdateProductInput where
  code : Option String := none
  name : Option String := none
  description : Option String := none
  unit : Option String := none
  category : Option String := none
  barcode : Option String := none
  sellingPriceExcludingTax : Option Nat := none
  vatRateBasisPoints : Option Nat := none
  trackStock : Option Bool := none
  deriving DecidableEq, Repr

structure ListProductsQuery extends PageQuery where
  search : Option String := none
  isActive : Option Bool := none

def CreateProductInput.row (input : CreateProductInput) (enterpriseId id : Uuid) (now : Instant) :
    Product where
  id := id
  enterpriseId := enterpriseId
  code := input.code
  name := input.name
  description := input.description
  unit := input.unit
  category := input.category
  barcode := input.barcode
  sellingPriceExcludingTax := input.sellingPriceExcludingTax
  vatRateBasisPoints := input.vatRateBasisPoints
  trackStock := input.trackStock
  createdAt := now
  updatedAt := now

def UpdateProductInput.apply (input : UpdateProductInput) (now : Instant) (p : Product) : Product :=
  { p with
    code := input.code.getD p.code
    name := input.name.getD p.name
    description := input.description <|> p.description
    unit := input.unit.getD p.unit
    category := input.category <|> p.category
    barcode := input.barcode <|> p.barcode
    sellingPriceExcludingTax :=
      (input.sellingPriceExcludingTax.map Int.ofNat).getD p.sellingPriceExcludingTax
    vatRateBasisPoints := (input.vatRateBasisPoints.map Int.ofNat).getD p.vatRateBasisPoints
    trackStock := input.trackStock.getD p.trackStock
    updatedAt := now }

namespace ProductsRepository

def findMany (T : Texts) (enterpriseId : Uuid) (query : ListProductsQuery) :
    Transaction (Paged Product) :=
  Confinement.ask fun db => .ok <| query.of id <|
    products.findMany enterpriseId
      (fun p => query.isActive.all (p.isActive == ·) &&
        T.search query.search [some p.name, some p.code, p.barcode])
      (fun a b => T.collate a.name b.name) db

def findByIdOrThrow (enterpriseId id : Uuid) : Transaction Product :=
  products.findByIdOrThrow "Produit introuvable" enterpriseId id

def codeTaken : String := "Ce code produit est déjà utilisé"

def create (enterpriseId : Uuid) (input : CreateProductInput) (draw : Draw) : Transaction Product :=
  withUniqueCodeConflictMapped codeTaken (products.create (input.row enterpriseId draw.id))

def update (enterpriseId id : Uuid) (input : UpdateProductInput) : Transaction Product := do
  let _ ← findByIdOrThrow enterpriseId id
  withUniqueCodeConflictMapped codeTaken (products.update id input.apply fun _ _ => rfl)

def deactivate (enterpriseId id : Uuid) : Transaction Product := do
  let _ ← findByIdOrThrow enterpriseId id
  products.update id (fun now p => { p with isActive := false, updatedAt := now }) fun _ _ => rfl

end ProductsRepository

/-! ## Customers -/

def customers : TenantTable Party where
  get := Db.customers
  put db t := { db with customers := t }
  owner := Party.enterpriseId
  same _ _ := false

structure CreateCustomerInput where
  type : CustomerType := .company
  name : String
  email : Option String := none
  phone : Option String := none
  address : Option String := none
  city : Option String := none
  country : String := "Sénégal"
  ninea : Option String := none
  rccm : Option String := none
  notes : Option String := none
  deriving DecidableEq, Repr

/-- `createCustomerSchema.partial()`. -/
structure UpdateCustomerInput where
  type : Option CustomerType := none
  name : Option String := none
  email : Option String := none
  phone : Option String := none
  address : Option String := none
  city : Option String := none
  country : Option String := none
  ninea : Option String := none
  rccm : Option String := none
  notes : Option String := none
  deriving DecidableEq, Repr

structure ListCustomersQuery extends PageQuery where
  search : Option String := none
  isActive : Option Bool := none

def CreateCustomerInput.row (input : CreateCustomerInput) (enterpriseId id : Uuid)
    (now : Instant) : Party where
  id := id
  enterpriseId := enterpriseId
  type := input.type
  name := input.name
  email := input.email
  phone := input.phone
  address := input.address
  city := input.city
  country := input.country
  ninea := input.ninea
  rccm := input.rccm
  notes := input.notes
  createdAt := now
  updatedAt := now

def UpdateCustomerInput.apply (input : UpdateCustomerInput) (now : Instant) (c : Party) : Party :=
  { c with
    type := input.type.getD c.type
    name := input.name.getD c.name
    email := input.email <|> c.email
    phone := input.phone <|> c.phone
    address := input.address <|> c.address
    city := input.city <|> c.city
    country := input.country.getD c.country
    ninea := input.ninea <|> c.ninea
    rccm := input.rccm <|> c.rccm
    notes := input.notes <|> c.notes
    updatedAt := now }

namespace CustomersRepository

def findMany (T : Texts) (enterpriseId : Uuid) (query : ListCustomersQuery) :
    Transaction (Paged Party) :=
  Confinement.ask fun db => .ok <| query.of id <|
    customers.findMany enterpriseId
      (fun c => query.isActive.all (c.isActive == ·) &&
        T.search query.search [some c.name, c.email])
      (fun a b => T.collate a.name b.name) db

def findByIdOrThrow (enterpriseId id : Uuid) : Transaction Party :=
  customers.findByIdOrThrow "Client introuvable" enterpriseId id

def create (enterpriseId : Uuid) (input : CreateCustomerInput) (draw : Draw) : Transaction Party :=
  customers.create (input.row enterpriseId draw.id)

def update (enterpriseId id : Uuid) (input : UpdateCustomerInput) : Transaction Party := do
  let _ ← findByIdOrThrow enterpriseId id
  customers.update id input.apply fun _ _ => rfl

def deactivate (enterpriseId id : Uuid) : Transaction Party := do
  let _ ← findByIdOrThrow enterpriseId id
  customers.update id (fun now c => { c with isActive := false, updatedAt := now }) fun _ _ => rfl

end CustomersRepository

end Gescom.Erp
