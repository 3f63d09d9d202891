import Gescom.Stock.Documents
import Gescom.Erp.CreateAlone
import Gescom.Erp.DocumentRepositories
import Gescom.Erp.Stock

/-!
# Sales and purchases (`sales.repository.ts`, `purchases.repository.ts`)

`create` is `Repository.create` of `salesRepository` and `purchasesRepository`. The other methods of
the two repositories are one definition each, with the words of `Stock.DocumentRepository`.
`confirm` reads the products of the lines once, with the document, and applies one movement for each
line whose product tracks stock.
-/

namespace Gescom.Erp

open Confinement
open Stock (DocumentRepository)

/-- An update of the status touches no column of a unique index. -/
def documents (kind : DocKind) : TenantTable Document where
  get db := db.documents kind
  put db t := db.setDocuments kind t
  owner := Document.enterpriseId
  same _ _ := false

structure DocumentListItem where
  id : Uuid
  partyId : Uuid
  partyName : String
  status : DocStatus
  date : Instant
  totals : Totals
  linesCount : Nat
  createdAt : Instant
  deriving DecidableEq, Repr

/-- `ListSalesQuery` and `ListPurchasesQuery`. -/
structure ListDocumentsQuery extends PageQuery where
  search : Option String := none
  status : Option DocStatus := none

def Db.documentListItem (db : Db) (kind : DocKind) (d : Document) : DocumentListItem where
  id := d.id
  partyId := d.partyId
  partyName := db.partyName kind d
  status := d.status
  date := d.date
  totals := sumTotals (d.lines.map DocumentLine.totals)
  linesCount := d.lines.length
  createdAt := d.createdAt

/-- `line.product.trackStock`. -/
def Db.tracks (db : Db) (l : DocumentLine) : Bool :=
  (db.products.find? l.productId).any Product.trackStock

def viewOf (kind : DocKind) (d : Document) : Transaction DocumentView :=
  ask fun db => .ok (db.documentView kind d)

/-- `data: { status: "CONFIRMED", confirmedAt: new Date() }`, and `@updatedAt`. -/
def Document.confirm (now : Instant) (d : Document) : Document :=
  { d with status := .confirmed, confirmedAt := some now, updatedAt := now }

/-- `data: { status: "CANCELLED", cancelledAt: new Date() }`, and `@updatedAt`. -/
def Document.cancel (now : Instant) (d : Document) : Document :=
  { d with status := .cancelled, cancelledAt := some now, updatedAt := now }

namespace DocumentMethods

variable (r : DocumentRepository)

/-- `getSaleOrThrow` and `getPurchaseOrThrow`. -/
def getOrThrow (enterpriseId id : Uuid) : Transaction Document :=
  (documents r.kind).findByIdOrThrow r.notFound enterpriseId id

/-- The same, with the lines whose product tracks stock. -/
def getWithTracked (enterpriseId id : Uuid) : Transaction (Document × List DocumentLine) :=
  ask fun db => ((documents r.kind).findOwned r.notFound enterpriseId id db).map fun d =>
    (d, d.lines.filter db.tracks)

def findMany (T : Texts) (enterpriseId : Uuid) (query : ListDocumentsQuery) :
    Transaction (Paged DocumentListItem) :=
  ask fun db => .ok <| query.of (db.documentListItem r.kind) <|
    (documents r.kind).findMany enterpriseId
      (fun d => query.status.all (d.status == ·) &&
        T.search query.search [some (db.partyName r.kind d)])
      (fun a b => b.createdAt ≤ a.createdAt) db

def findByIdOrThrow (enterpriseId id : Uuid) : Transaction DocumentView := do
  let d ← getOrThrow r enterpriseId id
  viewOf r.kind d

/-- One turn of the loop of `confirm`; `fresh` is the identifier of the movement. -/
def confirmLine (enterpriseId id fresh : Uuid) (l : DocumentLine) : Transaction Unit :=
  (fun _ => ()) <$> (applyMovement enterpriseId
    (r.movementFor id ⟨l.productId, l.quantity, l.positive⟩) none (some (r.kind, id)) fresh :
      Transaction MovementResult)

def confirm (enterpriseId id : Uuid) (draw : Draw) : Transaction DocumentView := do
  let found ← getWithTracked r enterpriseId id
  if found.1.status ≠ .draft then throw (.conflict r.notConfirmable)
  else do
    found.2.zipIdx.forM fun l => confirmLine r enterpriseId found.1.id (draw.lineId l.2) l.1
    let confirmed ← (documents r.kind).update id Document.confirm fun _ _ => rfl
    viewOf r.kind confirmed

def cancel (enterpriseId id : Uuid) : Transaction DocumentView := do
  let d ← getOrThrow r enterpriseId id
  if d.status ≠ .draft then throw (.badRequest r.notCancellable)
  else do
    let cancelled ← (documents r.kind).update id Document.cancel fun _ _ => rfl
    viewOf r.kind cancelled

end DocumentMethods

end Gescom.Erp
