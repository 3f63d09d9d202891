import Gescom.Stock.Db

/-!
# The tables of the ERP modules (`schema.prisma`, models `Account` to `SalesInvoiceCounter`)

Every row belongs to one enterprise. Sales and purchases have the same columns, as customers and
suppliers have, so one structure stands for both, each kind in its own table. Lines are kept inside
their document: they are inserted with it and never change.
-/

namespace Gescom.Erp

export Stock (DocKind DocStatus MovementType truthy)

structure Enterprise where
  id : Uuid
  name : String
  legalName : Option String := none
  ninea : Option String := none
  rccm : Option String := none
  address : Option String := none
  city : Option String := none
  deriving DecidableEq, Repr

inductive CustomerType where
  | individual | company
  deriving DecidableEq, Repr

/-- A row of `customers` or `suppliers`. -/
structure Party where
  id : Uuid
  enterpriseId : Uuid
  type : CustomerType := .company
  name : String
  email : Option String := none
  phone : Option String := none
  address : Option String := none
  city : Option String := none
  country : String := "Sénégal"
  ninea : Option String := none
  rccm : Option String := none
  notes : Option String := none
  isActive : Bool := true
  createdAt : Instant
  updatedAt : Instant
  deriving DecidableEq, Repr

structure Product where
  id : Uuid
  enterpriseId : Uuid
  code : String
  name : String
  description : Option String := none
  unit : String := "pièce"
  category : Option String := none
  barcode : Option String := none
  sellingPriceExcludingTax : Int
  vatRateBasisPoints : Int := 1800
  trackStock : Bool := true
  isActive : Bool := true
  createdAt : Instant
  updatedAt : Instant
  deriving DecidableEq, Repr

/-- A row of `stock_movements` with its date. -/
structure StockMovement extends Stock.Movement where
  createdAt : Instant
  deriving DecidableEq, Repr

/-- A row of `sale_lines` or `purchase_lines`; the price of a purchase line is its
`unitCostExcludingTax`. Both schemas ask for `quantity: int().min(1)`. -/
structure DocumentLine where
  id : Uuid
  productId : Uuid
  quantity : Int
  unitPriceExcludingTax : Int
  vatRateBasisPoints : Int
  positive : 0 < quantity
  deriving DecidableEq

/-- A row of `sales` or `purchases`; `partyId` is its `customerId` or `supplierId`. -/
structure Document where
  id : Uuid
  enterpriseId : Uuid
  partyId : Uuid
  status : DocStatus := .draft
  date : Instant
  notes : Option String
  confirmedAt : Option Instant := none
  cancelledAt : Option Instant := none
  idempotencyKey : Option String
  lines : List DocumentLine
  createdAt : Instant
  updatedAt : Instant
  deriving DecidableEq

inductive InvoiceStatus where
  | draft | issued | paid | void
  deriving DecidableEq, Repr

structure SalesInvoice where
  id : Uuid
  enterpriseId : Uuid
  saleId : Uuid
  number : String
  status : InvoiceStatus := .issued
  issuedAt : Instant
  paidAt : Option Instant := none
  voidedAt : Option Instant := none
  legalMentions : String
  idempotencyKey : Option String
  createdAt : Instant
  updatedAt : Instant
  deriving DecidableEq, Repr

structure Account where
  id : Uuid
  enterpriseId : Uuid
  code : String
  label : String
  createdAt : Instant
  updatedAt : Instant
  deriving DecidableEq, Repr

structure JournalEntryLine where
  id : Uuid
  enterpriseId : Uuid
  accountId : Uuid
  label : Option String
  debitAmount : Int
  creditAmount : Int
  deriving DecidableEq, Repr

structure JournalEntry where
  id : Uuid
  enterpriseId : Uuid
  number : String
  entryDate : UtcDate
  reference : Option String
  description : String
  idempotencyKey : Option String
  lines : List JournalEntryLine
  createdAt : Instant
  updatedAt : Instant
  deriving DecidableEq, Repr

/-- A row of `sales_invoice_counters` or `journal_entry_counters`. -/
structure Counter where
  enterpriseId : Uuid
  lastNumber : Nat
  deriving DecidableEq, Repr

instance : Keyed Enterprise Uuid := ⟨Enterprise.id⟩
instance : Keyed Party Uuid := ⟨Party.id⟩
instance : Keyed Product Uuid := ⟨Product.id⟩
instance : Keyed Document Uuid := ⟨Document.id⟩
instance : Keyed SalesInvoice Uuid := ⟨SalesInvoice.id⟩
instance : Keyed Account Uuid := ⟨Account.id⟩
instance : Keyed JournalEntry Uuid := ⟨JournalEntry.id⟩
instance : Keyed Counter Uuid := ⟨Counter.enterpriseId⟩

structure Db where
  enterprises : Table Enterprise := Table.empty
  customers : Table Party := Table.empty
  suppliers : Table Party := Table.empty
  products : Table Product := Table.empty
  movements : List StockMovement := []
  sales : Table Document := Table.empty
  purchases : Table Document := Table.empty
  salesInvoices : Table SalesInvoice := Table.empty
  salesInvoiceCounters : Table Counter := Table.empty
  accounts : Table Account := Table.empty
  journalEntries : Table JournalEntry := Table.empty
  journalEntryCounters : Table Counter := Table.empty
  now : Instant := 0

def Db.parties (db : Db) : DocKind → Table Party
  | .sale => db.customers
  | .purchase => db.suppliers

def Db.documents (db : Db) : DocKind → Table Document
  | .sale => db.sales
  | .purchase => db.purchases

def Db.setDocuments (db : Db) (kind : DocKind) (t : Table Document) : Db :=
  match kind with
  | .sale => { db with sales := t }
  | .purchase => { db with purchases := t }

/-! ## Amounts -/

structure Totals where
  totalExcludingTax : Int
  totalVat : Int
  totalIncludingTax : Int
  deriving DecidableEq, Repr

/-- `lineTotals`, the same function in four files. -/
def lineTotals (quantity unitPriceExcludingTax vatRateBasisPoints : Int) : Totals :=
  let lineTotalExcludingTax := quantity * unitPriceExcludingTax
  let lineTotalVat := roundDiv (lineTotalExcludingTax * vatRateBasisPoints) 10000
  ⟨lineTotalExcludingTax, lineTotalVat, lineTotalExcludingTax + lineTotalVat⟩

def Totals.add (a b : Totals) : Totals :=
  ⟨a.totalExcludingTax + b.totalExcludingTax, a.totalVat + b.totalVat,
    a.totalIncludingTax + b.totalIncludingTax⟩

/-- The `reduce` over the totals of lines. -/
def sumTotals (ts : List Totals) : Totals := ts.foldl Totals.add ⟨0, 0, 0⟩

def DocumentLine.totals (l : DocumentLine) : Totals :=
  lineTotals l.quantity l.unitPriceExcludingTax l.vatRateBasisPoints

/-! ## Views -/

structure LineView where
  id : Uuid
  productId : Uuid
  productCode : String
  productName : String
  quantity : Int
  unitPriceExcludingTax : Int
  vatRateBasisPoints : Int
  totals : Totals
  deriving DecidableEq, Repr

/-- `SaleView` and `PurchaseView`. -/
structure DocumentView where
  id : Uuid
  enterpriseId : Uuid
  partyId : Uuid
  partyName : String
  status : DocStatus
  date : Instant
  notes : Option String
  confirmedAt : Option Instant
  cancelledAt : Option Instant
  totals : Totals
  lines : List LineView
  createdAt : Instant
  updatedAt : Instant
  deriving DecidableEq, Repr

/-- `include: { product: true }`; the foreign key makes the product exist. -/
def Db.lineView (db : Db) (l : DocumentLine) : LineView where
  id := l.id
  productId := l.productId
  productCode := ((db.products.find? l.productId).map Product.code).getD ""
  productName := ((db.products.find? l.productId).map Product.name).getD ""
  quantity := l.quantity
  unitPriceExcludingTax := l.unitPriceExcludingTax
  vatRateBasisPoints := l.vatRateBasisPoints
  totals := l.totals

/-- `customer.name` or `supplier.name` of a document. -/
def Db.partyName (db : Db) (kind : DocKind) (d : Document) : String :=
  (((db.parties kind).find? d.partyId).map Party.name).getD ""

/-- `toSaleView` and `toPurchaseView`. -/
def Db.documentView (db : Db) (kind : DocKind) (d : Document) : DocumentView where
  id := d.id
  enterpriseId := d.enterpriseId
  partyId := d.partyId
  partyName := db.partyName kind d
  status := d.status
  date := d.date
  notes := d.notes
  confirmedAt := d.confirmedAt
  cancelledAt := d.cancelledAt
  totals := sumTotals (d.lines.map DocumentLine.totals)
  lines := d.lines.map db.lineView
  createdAt := d.createdAt
  updatedAt := d.updatedAt

structure SalesInvoiceView where
  id : Uuid
  enterpriseId : Uuid
  saleId : Uuid
  customerId : Uuid
  customerName : String
  number : String
  status : InvoiceStatus
  issuedAt : Instant
  paidAt : Option Instant
  voidedAt : Option Instant
  legalMentions : String
  totals : Totals
  lines : List LineView
  createdAt : Instant
  updatedAt : Instant
  deriving DecidableEq, Repr

/-- `toInvoiceView`, on the invoice and the view of its sale. -/
def toInvoiceView (i : SalesInvoice) (sale : DocumentView) : SalesInvoiceView where
  id := i.id
  enterpriseId := sale.enterpriseId
  saleId := sale.id
  customerId := sale.partyId
  customerName := sale.partyName
  number := i.number
  status := i.status
  issuedAt := i.issuedAt
  paidAt := i.paidAt
  voidedAt := i.voidedAt
  legalMentions := i.legalMentions
  totals := sale.totals
  lines := sale.lines
  createdAt := i.createdAt
  updatedAt := i.updatedAt

structure JournalEntryLineView where
  id : Uuid
  accountId : Uuid
  accountCode : String
  accountLabel : String
  label : Option String
  debitAmount : Int
  creditAmount : Int
  deriving DecidableEq, Repr

structure JournalEntryView where
  id : Uuid
  enterpriseId : Uuid
  number : String
  entryDate : UtcDate
  reference : Option String
  description : String
  totalDebit : Int
  totalCredit : Int
  lines : List JournalEntryLineView
  createdAt : Instant
  updatedAt : Instant
  deriving DecidableEq, Repr

def Db.entryLineView (db : Db) (l : JournalEntryLine) : JournalEntryLineView where
  id := l.id
  accountId := l.accountId
  accountCode := ((db.accounts.find? l.accountId).map Account.code).getD ""
  accountLabel := ((db.accounts.find? l.accountId).map Account.label).getD ""
  label := l.label
  debitAmount := l.debitAmount
  creditAmount := l.creditAmount

/-- `toEntryView`. -/
def Db.entryView (db : Db) (e : JournalEntry) : JournalEntryView where
  id := e.id
  enterpriseId := e.enterpriseId
  number := e.number
  entryDate := e.entryDate
  reference := e.reference
  description := e.description
  totalDebit := (e.lines.map JournalEntryLine.debitAmount).sum
  totalCredit := (e.lines.map JournalEntryLine.creditAmount).sum
  lines := e.lines.map db.entryLineView
  createdAt := e.createdAt
  updatedAt := e.updatedAt

/-! ## Counters -/

inductive Series where
  | salesInvoice | journalEntry
  deriving DecidableEq, Repr

def Db.counters (db : Db) : Series → Table Counter
  | .salesInvoice => db.salesInvoiceCounters
  | .journalEntry => db.journalEntryCounters

/-- `last_number` of the counter row; 0 without one. -/
def Db.lastNumber (db : Db) (s : Series) (enterpriseId : Uuid) : Nat :=
  (((db.counters s).find? enterpriseId).map Counter.lastNumber).getD 0

/-- `INSERT … ON CONFLICT (enterprise_id) DO UPDATE`. -/
def setCounter (enterpriseId : Uuid) (n : Nat) (t : Table Counter) : Table Counter :=
  (t.insert ⟨enterpriseId, n⟩).update enterpriseId (fun c => { c with lastNumber := n }) fun _ => rfl

def Db.setLastNumber (db : Db) (s : Series) (enterpriseId : Uuid) (n : Nat) : Db :=
  match s with
  | .salesInvoice =>
    { db with salesInvoiceCounters := setCounter enterpriseId n db.salesInvoiceCounters }
  | .journalEntry =>
    { db with journalEntryCounters := setCounter enterpriseId n db.journalEntryCounters }

def Series.letters : Series → String
  | .salesInvoice => "FACT-"
  | .journalEntry => "ECR-"

/-- `FACT-XXXXXXXX-000001` and `ECR-XXXXXXXX-000001`. -/
def Series.number (s : Series) (enterpriseId : Uuid) (sequence : Nat) : String :=
  s.letters ++ slice8Upper enterpriseId ++ "-" ++ padStart sequence 6

theorem seriesNumber_inj (series : Series) (e e' : Uuid) (n n' : Nat) :
    series.number e n = series.number e' n' ↔ slice8Upper e = slice8Upper e' ∧ n = n' :=
  format_inj ..

end Gescom.Erp
