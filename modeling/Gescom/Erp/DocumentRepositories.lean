import Gescom.Erp.Create

/-!
# `create` of sales, purchases, invoices and journal entries

The four instances of `Repository`, with the lookups, the messages and the rows of their sources.
-/

namespace Gescom.Erp

/-- `findMany({ where: { id: { in: ids } } })` on distinct ids, and the loop that looks for the
first one that is missing or belongs to another enterprise. -/
def findAll {ρ : Type} [Keyed ρ Uuid] (t : Table ρ) (owner : ρ → Uuid) (missing : String)
    (enterpriseId : Uuid) (ids : List Uuid) : Except ApiError (List ρ) :=
  let distinct := ids.eraseDups
  let rows := t.rows.filter fun r => distinct.contains (Keyed.key r)
  match distinct.find? fun id => !rows.any fun r => Keyed.key r == id && owner r == enterpriseId with
  | some id => .error (.notFound (missing ++ uuidText id))
  | none => .ok rows

/-- Every identifier that was asked for is one of the enterprise's rows. -/
theorem findAll_ok {ρ : Type} [Keyed ρ Uuid] {t : Table ρ} {owner : ρ → Uuid} {missing : String}
    {e : Uuid} {ids : List Uuid} {found : List ρ} (h : findAll t owner missing e ids = .ok found) :
    ∀ id ∈ ids, ∃ r, t.find? id = some r ∧ owner r = e := by
  simp only [findAll] at h
  split at h
  · cases h
  · rename_i hnone
    intro id hid
    have hany := List.find?_eq_none.1 hnone id (List.mem_eraseDups.2 hid)
    simp only [Bool.not_eq_true', Bool.not_eq_false, List.any_eq_true, List.mem_filter,
      Bool.and_eq_true, beq_iff_eq] at hany
    obtain ⟨r, ⟨hmem, -⟩, hkey, howner⟩ := hany
    refine ⟨r, ?_, howner⟩
    rw [← hkey]
    exact Table.find?_of_mem hmem

/-! ## Sales and purchases -/

/-- `CreateSaleLineInput` and `CreatePurchaseLineInput`; only the second has a cost. -/
@[ext] structure DocumentLineInput where
  productId : Uuid
  quantity : Int
  positive : 0 < quantity
  unitCostExcludingTax : Nat := 0

instance : DecidableEq DocumentLineInput := fun _ _ =>
  decidable_of_iff _ DocumentLineInput.ext_iff.symm

/-- `CreateSaleInput` and `CreatePurchaseInput`. -/
structure DocumentInput where
  partyId : Uuid
  notes : Option String := none
  lines : List DocumentLineInput
  deriving DecidableEq

/-- `customer.findUnique` or `supplier.findUnique`, with the check of its enterprise. -/
def findParty (kind : DocKind) (missing : String) (enterpriseId partyId : Uuid) (db : Db) :
    Except ApiError Party :=
  match (db.parties kind).find? partyId with
  | some p => if p.enterpriseId = enterpriseId then .ok p else .error (.notFound missing)
  | none => .error (.notFound missing)

def findProducts (enterpriseId : Uuid) (lines : List DocumentLineInput) (db : Db) :
    Except ApiError (List Product) :=
  findAll db.products Product.enterpriseId "Produit introuvable : " enterpriseId
    (lines.map DocumentLineInput.productId)

/-- A created line; `product` is `productsById.get(line.productId)!`. -/
def newLine (unitPrice : DocumentLineInput → Option Product → Int) (products : List Product)
    (id : Uuid) (line : DocumentLineInput) : DocumentLine :=
  let product := products.find? fun p => p.id = line.productId
  { id := id
    productId := line.productId
    quantity := line.quantity
    unitPriceExcludingTax := unitPrice line product
    vatRateBasisPoints := (product.map Product.vatRateBasisPoints).getD 0
    positive := line.positive }

def newDocument (unitPrice : DocumentLineInput → Option Product → Int)
    (c : Create DocumentInput) (products : List Product) (draw : Draw) (now : Instant) :
    Document where
  id := draw.id
  enterpriseId := c.enterpriseId
  partyId := c.input.partyId
  date := now
  notes := c.input.notes
  idempotencyKey := c.idempotencyKey
  lines := c.input.lines.zipIdx.map fun l => newLine unitPrice products (draw.lineId l.2) l.1
  createdAt := now
  updatedAt := now

instance : DocumentRow Document where
  key := Document.id
  enterpriseId := Document.enterpriseId
  idempotencyKey := Document.idempotencyKey
  number _ := none
  saleId _ := none

/-- `SalesRepository` and `PurchasesRepository`. -/
def documentRepository (kind : DocKind) (partyMissing : String)
    (unitPrice : DocumentLineInput → Option Product → Int) :
    Repository DocumentInput (List Product) Document DocumentView where
  collection := .document kind
  table db := db.documents kind
  put db t := db.setDocuments kind t
  table_put db t := by cases kind <;> rfl
  counters_put db t := by cases kind <;> rfl
  table_setLastNumber db s e n := by cases kind <;> cases s <;> rfl
  toView db := db.documentView kind
  precheck _ := none
  start := []
  lookups e input :=
    [fun products db => (findParty kind partyMissing e input.partyId db).map fun _ => products,
      fun _ db => findProducts e input.lines db]
  series := none
  row c products _ draw now := newDocument unitPrice c products draw now
  created _ db := db.documentView kind
  conflict := none

/-- The price of a sale line is the one of the product. -/
def salesRepository : Repository DocumentInput (List Product) Document DocumentView :=
  documentRepository .sale "Client introuvable" fun _ product =>
    (product.map Product.sellingPriceExcludingTax).getD 0

/-- The cost of a purchase line is given by the client. -/
def purchasesRepository : Repository DocumentInput (List Product) Document DocumentView :=
  documentRepository .purchase "Fournisseur introuvable" fun line _ => line.unitCostExcludingTax

/-! ## Journal entries -/

/-- `CreateJournalEntryLineInput`; the amounts are `int().min(0)`. -/
structure JournalLineInput where
  accountId : Uuid
  label : Option String := none
  debitAmount : Nat := 0
  creditAmount : Nat := 0
  deriving DecidableEq, Repr

structure CreateJournalEntryInput where
  entryDate : Option UtcDate := none
  reference : Option String := none
  description : String
  lines : List JournalLineInput
  deriving DecidableEq, Repr

/-- The double entry, checked again before the transaction. -/
def CreateJournalEntryInput.check (input : CreateJournalEntryInput) : Option ApiError :=
  let totalDebit := (input.lines.map JournalLineInput.debitAmount).sum
  let totalCredit := (input.lines.map JournalLineInput.creditAmount).sum
  if totalDebit ≠ totalCredit ∨ totalDebit = 0 then
    some (.conflict
      "Écriture déséquilibrée : le total des débits doit être égal au total des crédits")
  else if input.lines.any fun l => decide (0 < l.debitAmount) == decide (0 < l.creditAmount) then
    some (.conflict
      "Une ligne doit porter soit un débit, soit un crédit, jamais les deux ni aucun des deux")
  else none

def findAccounts (enterpriseId : Uuid) (lines : List JournalLineInput) (db : Db) :
    Except ApiError (List Account) :=
  findAll db.accounts Account.enterpriseId "Compte introuvable : " enterpriseId
    (lines.map JournalLineInput.accountId)

/-- An account of the enterprise. -/
def Db.HasAccount (db : Db) (e id : Uuid) : Prop :=
  ∃ a, db.accounts.find? id = some a ∧ a.enterpriseId = e

/-- Every account the input names is found. -/
theorem findAccounts_ok {e : Uuid} {lines : List JournalLineInput} {found : List Account}
    {db : Db} (h : findAccounts e lines db = .ok found) :
    ∀ l ∈ lines, db.HasAccount e l.accountId :=
  fun _ hl => findAll_ok h _ (List.mem_map_of_mem hl)

def newEntryLine (enterpriseId id : Uuid) (line : JournalLineInput) : JournalEntryLine where
  id := id
  enterpriseId := enterpriseId
  accountId := line.accountId
  label := line.label
  debitAmount := line.debitAmount
  creditAmount := line.creditAmount

def newEntry (c : Create CreateJournalEntryInput) (sequence : Nat) (draw : Draw) (now : Instant) :
    JournalEntry where
  id := draw.id
  enterpriseId := c.enterpriseId
  number := Series.journalEntry.number c.enterpriseId sequence
  entryDate := c.input.entryDate.getD (now : Int)
  reference := c.input.reference
  description := c.input.description
  idempotencyKey := c.idempotencyKey
  lines := c.input.lines.zipIdx.map fun l => newEntryLine c.enterpriseId (draw.lineId l.2) l.1
  createdAt := now
  updatedAt := now

instance : DocumentRow JournalEntry where
  key := JournalEntry.id
  enterpriseId := JournalEntry.enterpriseId
  idempotencyKey := JournalEntry.idempotencyKey
  number e := some e.number
  saleId _ := none

def journalRepository :
    Repository CreateJournalEntryInput (List Account) JournalEntry JournalEntryView where
  collection := .journalEntry
  table := Db.journalEntries
  put db t := { db with journalEntries := t }
  table_put _ _ := rfl
  counters_put _ _ := rfl
  table_setLastNumber db s e n := by cases s <;> rfl
  toView db := db.entryView
  precheck := CreateJournalEntryInput.check
  start := []
  lookups e input := [fun _ db => findAccounts e input.lines db]
  series := some .journalEntry
  row c _ sequence draw now := newEntry c sequence draw now
  created _ db := db.entryView
  conflict := none

/-! ## Invoices -/

structure CreateSalesInvoiceInput where
  saleId : Uuid
  deriving DecidableEq, Repr

/-- ` — NINEA : … — RCCM : …`, each part only where it is filled in. -/
def registrations (ninea rccm : Option String) : String :=
  ((truthy ninea).map (" — NINEA : " ++ ·)).getD "" ++
    ((truthy rccm).map (" — RCCM : " ++ ·)).getD ""

def buildLegalMentions (enterprise : Enterprise) (customer : Party) : String :=
  "\n".intercalate <| List.reduceOption
    [some ("Émis par : " ++ enterprise.legalName.getD enterprise.name ++
        registrations enterprise.ninea enterprise.rccm),
      (truthy enterprise.address).map fun address =>
        "Adresse : " ++ address ++ ((truthy enterprise.city).map (", " ++ ·)).getD "",
      some ("Client : " ++ customer.name ++ registrations customer.ninea customer.rccm),
      some "TVA conforme à la réglementation en vigueur (UEMOA).",
      some "Montants exprimés en FCFA (XOF)."]

/-- What the statements before the counter read. -/
structure InvoiceFound where
  sale : Option DocumentView := none
  customer : Option Party := none
  enterprise : Option Enterprise := none

/-- `sale.findUnique` with its checks. -/
def findSale (enterpriseId saleId : Uuid) (found : InvoiceFound) (db : Db) :
    Except ApiError InvoiceFound :=
  match db.sales.find? saleId with
  | none => .error (.notFound "Vente introuvable")
  | some sale =>
    if sale.enterpriseId ≠ enterpriseId then .error (.notFound "Vente introuvable")
    else if sale.status ≠ .confirmed then
      .error (.badRequest "Seule une vente confirmée peut être facturée")
    else
      .ok { found with
        sale := some (db.documentView .sale sale), customer := db.customers.find? sale.partyId }

def alreadyInvoiced : ApiError := .conflict "Cette vente est déjà facturée"

/-- `salesInvoice.findUnique({ where: { saleId } })`. -/
def Db.invoiceOf (db : Db) (saleId : Uuid) : Option SalesInvoice :=
  db.salesInvoices.rows.find? fun i => i.saleId = saleId

def newInvoice (c : Create CreateSalesInvoiceInput) (found : InvoiceFound) (sequence : Nat)
    (draw : Draw) (now : Instant) : SalesInvoice where
  id := draw.id
  enterpriseId := c.enterpriseId
  saleId := c.input.saleId
  number := Series.salesInvoice.number c.enterpriseId sequence
  issuedAt := now
  legalMentions :=
    (found.enterprise.bind fun e => found.customer.map (buildLegalMentions e)).getD ""
  idempotencyKey := c.idempotencyKey
  createdAt := now
  updatedAt := now

instance : DocumentRow SalesInvoice where
  key := SalesInvoice.id
  enterpriseId := SalesInvoice.enterpriseId
  idempotencyKey := SalesInvoice.idempotencyKey
  number i := some i.number
  saleId i := some i.saleId

/-- The view of an invoice; the foreign key makes its sale exist. -/
def Db.invoiceView (db : Db) (i : SalesInvoice) : Option SalesInvoiceView :=
  (db.sales.find? i.saleId).map fun sale => toInvoiceView i (db.documentView .sale sale)

def invoicingRepository :
    Repository CreateSalesInvoiceInput InvoiceFound SalesInvoice (Option SalesInvoiceView) where
  collection := .salesInvoice
  table := Db.salesInvoices
  put db t := { db with salesInvoices := t }
  table_put _ _ := rfl
  counters_put _ _ := rfl
  table_setLastNumber db s e n := by cases s <;> rfl
  toView db := db.invoiceView
  precheck _ := none
  start := {}
  lookups e input :=
    [findSale e input.saleId,
      fun found db =>
        if (db.invoiceOf input.saleId).isSome then .error alreadyInvoiced else .ok found,
      fun found db =>
        match db.enterprises.find? e with
        | none => .error (.prisma .p2025)
        | some enterprise => .ok { found with enterprise := some enterprise }]
  series := some .salesInvoice
  row c found sequence draw now := newInvoice c found sequence draw now
  created found _ i := found.sale.map (toInvoiceView i)
  conflict := some fun db input =>
    if (db.invoiceOf input.saleId).isSome then some alreadyInvoiced else none

end Gescom.Erp
