import Gescom.Erp.Amounts
import Gescom.Lib.Paging

/-!
# The pages of the lists (`findMany`, `findLevels`, `findMovements`)

Nine lists share one form: the rows that match, `orderBy` on one column, `skip` and `take`, and a
`count`. The database may answer each query in another order of the rows that tie. Beside the one
the repositories are modelled with, `Listing.answer` is the answer for any such order;
`pages_exact` says of each list when its pages hold every row once. A code of an account is unique,
and the accounts always do; no other list is ordered by a unique column.
-/

namespace Gescom.Erp

open Confinement Paging

/-- The query behind a page: `where`, `orderBy`, and the item of a row, which may need the other rows
of its page. -/
structure Listing (ρ α : Type) where
  rows : Db → List ρ
  order : ρ → ρ → Bool
  item : Db → List ρ → ρ → α

namespace Listing

variable {ρ α : Type}

/-- The page of a query that the database has answered in the order `ord`. -/
def answer (L : Listing ρ α) (db : Db) (ord : List ρ) (query : PageQuery) : Paged α :=
  let rows := pageRows query.pageSize ord (query.page - 1)
  ⟨rows.map (L.item db rows), (L.rows db).length, query.page, query.pageSize⟩

/-- The order the model of the repositories takes. -/
def sorted (L : Listing ρ α) (db : Db) : List ρ := (L.rows db).mergeSort L.order

/-- Pages 1 to `ceil(total / pageSize)`, each answered in an order of its own, show every row once. -/
def VisitsOnce (L : Listing ρ α) (db : Db) (size : Nat) : Prop :=
  ∀ ord : Nat → List ρ, (∀ page, Arranged L.order (L.rows db) (ord page)) →
    let total := (L.answer db (ord 0) { pageSize := size }).total
    total = (L.rows db).length ∧ (visited size total ord).Perm (L.rows db)

/-- They do when no group of rows with equal keys is split between pages. -/
def Exact (L : Listing ρ α) (db : Db) (size : Nat) : Prop :=
  L.VisitsOnce db size ↔ Unsplit L.order (L.rows db) size

end Listing

/-- `findMany({ where: { enterpriseId, … }, orderBy })` on a table with an owner. -/
def TenantTable.listing {ρ α : Type} [Keyed ρ Uuid] (t : TenantTable ρ) (enterpriseId : Uuid)
    (cond : Db → ρ → Bool) (order : ρ → ρ → Bool) (item : Db → List ρ → ρ → α) : Listing ρ α where
  rows db := (t.get db).rows.filter fun r => t.owner r = enterpriseId ∧ cond db r
  order := order
  item := item

/-! ## The nine lists -/

section
variable (T : Texts) (enterpriseId : Uuid)

def productsListing (isActive : Option Bool) (search : Option String) : Listing Product Product :=
  products.listing enterpriseId
    (fun _ p => isActive.all (p.isActive == ·) &&
      T.search search [some p.name, some p.code, p.barcode])
    (fun a b => T.collate a.name b.name) fun _ _ p => p

def customersListing (isActive : Option Bool) (search : Option String) : Listing Party Party :=
  customers.listing enterpriseId
    (fun _ c => isActive.all (c.isActive == ·) && T.search search [some c.name, c.email])
    (fun a b => T.collate a.name b.name) fun _ _ c => c

def levelsListing (search : Option String) : Listing Product StockLevel :=
  products.listing enterpriseId
    (fun _ p => p.trackStock && T.search search [some p.name, some p.code])
    (fun a b => T.collate a.name b.name) fun db rows =>
      stockLevel (db.ledger.aggregateQuantities enterpriseId (rows.map Product.id))

def movementsListing (productId : Uuid) : Listing StockMovement StockMovement where
  rows db := db.movements.filter fun m => m.enterpriseId = enterpriseId ∧ m.productId = productId
  order a b := b.createdAt ≤ a.createdAt
  item _ _ m := m

/-- Sales and purchases. -/
def documentsListing (kind : DocKind) (status : Option DocStatus) (search : Option String) :
    Listing Document DocumentListItem :=
  (documents kind).listing enterpriseId
    (fun db d => status.all (d.status == ·) && T.search search [some (db.partyName kind d)])
    (fun a b => b.createdAt ≤ a.createdAt) fun db _ => db.documentListItem kind

def invoicesListing (status : Option InvoiceStatus) (search : Option String) :
    Listing SalesInvoice (Option SalesInvoiceListItem) :=
  salesInvoices.listing enterpriseId
    (fun db i => status.all (i.status == ·) && T.search search
      [some i.number, (db.sales.find? i.saleId).map (db.partyName .sale)])
    (fun a b => b.createdAt ≤ a.createdAt) fun db _ => db.invoiceListItem

def accountsListing (search : Option String) : Listing Account AccountView :=
  accounts.listing enterpriseId (fun _ a => T.search search [some a.code, some a.label])
    (fun a b => T.collate a.code b.code) fun db rows =>
      toAccountView (aggregateBalances db enterpriseId (rows.map Account.id))

def entriesListing (accountId : Option Uuid) (search : Option String) :
    Listing JournalEntry JournalEntryView :=
  journalEntries.listing enterpriseId
    (fun _ en => (accountId.all fun id => en.lines.any (·.accountId == id)) &&
      T.search search [some en.number, some en.description, en.reference])
    (fun a b => b.entryDate ≤ a.entryDate) fun db _ => db.entryView

end

/-- Postgres collations are deterministic: texts that tie are the same. -/
structure Texts.Deterministic (T : Texts) : Prop where
  preordered : Preordered T.collate
  antisymm : ∀ a b, T.collate a b = true → T.collate b a = true → a = b

/-- What the repositories answer is the page of a listing. -/
structure ListsAnswer (T : Texts) (db : Db) (e : Uuid) : Prop where
  products : ∀ query, (exec (ProductsRepository.findMany T e query) db).1 =
    .ok (let L := productsListing T e query.isActive query.search
      L.answer db (L.sorted db) query.toPageQuery)
  customers : ∀ query, (exec (CustomersRepository.findMany T e query) db).1 =
    .ok (let L := customersListing T e query.isActive query.search
      L.answer db (L.sorted db) query.toPageQuery)
  levels : ∀ query, (exec (StockRepository.findLevels T e query) db).1 =
    .ok (let L := levelsListing T e query.search
      L.answer db (L.sorted db) query.toPageQuery)
  movements : ∀ productId query,
    (exec (StockRepository.findMovements e productId query) db).1 =
      (findTrackedProductOrThrow e productId db).map fun _ =>
        let L := movementsListing e productId
        L.answer db (L.sorted db) query
  documents : ∀ kind query, (exec (DocumentMethods.findMany (kind.repository) T e query) db).1 =
    .ok (let L := documentsListing T e kind query.status query.search
      L.answer db (L.sorted db) query.toPageQuery)
  invoices : ∀ query, (exec (InvoicingRepository.findMany T e query) db).1 =
    .ok (let L := invoicesListing T e query.status query.search
      L.answer db (L.sorted db) query.toPageQuery)
  accounts : ∀ query, (exec (AccountsRepository.findMany T e query) db).1 =
    .ok (let L := accountsListing T e query.search
      L.answer db (L.sorted db) query.toPageQuery)
  entries : ∀ query, (exec (JournalRepository.findMany T e query) db).1 =
    .ok (let L := entriesListing T e query.accountId query.search
      L.answer db (L.sorted db) query.toPageQuery)

/-! ## The answers of the model -/

namespace Listing

variable {ρ α : Type}

/-- A page whose items need its rows. -/
theorem answer_sorted (L : Listing ρ α) (db : Db) (query : PageQuery) :
    L.answer db (L.sorted db) query =
      let page := query.of id (L.sorted db)
      ⟨page.items.map (L.item db page.items), page.total, page.page, page.pageSize⟩ := by
  simp [answer, PageQuery.of, pageRows, sorted]

/-- A page whose items do not. -/
theorem of_sorted (L : Listing ρ α) (db : Db) {f : ρ → α} (hitem : ∀ rows, L.item db rows = f)
    (query : PageQuery) : query.of f (L.sorted db) = L.answer db (L.sorted db) query := by
  simp [answer, PageQuery.of, pageRows, sorted, hitem]

end Listing

theorem lists_answer (T : Texts) (db : Db) (e : Uuid) : ListsAnswer T db e where
  products query := by
    have hpage := (productsListing T e query.isActive query.search).of_sorted db
      (fun _ => rfl) query.toPageQuery
    exact (exec_ask _ db).trans (congrArg Except.ok hpage)
  customers query := by
    have hpage := (customersListing T e query.isActive query.search).of_sorted db
      (fun _ => rfl) query.toPageQuery
    exact (exec_ask _ db).trans (congrArg Except.ok hpage)
  levels query := by
    have hpage := (levelsListing T e query.search).answer_sorted db query.toPageQuery
    exact (exec_ask _ db).trans (congrArg Except.ok hpage.symm)
  movements productId query := by
    have hpage := (movementsListing e productId).of_sorted db (fun _ => rfl) query
    rw [StockRepository.findMovements, exec_ask]
    exact congrArg (fun page => (findTrackedProductOrThrow e productId db).map fun _ => page) hpage
  documents kind query := by
    have hpage := (documentsListing T e kind query.status query.search).of_sorted db
      (fun _ => rfl) query.toPageQuery
    rw [DocumentMethods.findMany, exec_ask, Stock.repository_kind]
    exact congrArg Except.ok hpage
  invoices query := by
    have hpage := (invoicesListing T e query.status query.search).of_sorted db
      (fun _ => rfl) query.toPageQuery
    exact (exec_ask _ db).trans (congrArg Except.ok hpage)
  accounts query := by
    have hpage := (accountsListing T e query.search).answer_sorted db query.toPageQuery
    exact (exec_ask _ db).trans (congrArg Except.ok hpage.symm)
  entries query := by
    have hpage := (entriesListing T e query.accountId query.search).of_sorted db
      (fun _ => rfl) query.toPageQuery
    exact (exec_ask _ db).trans (congrArg Except.ok hpage)

/-! ## When the pages show every row once -/

structure PagesExact (T : Texts) (db : Db) (e : Uuid) (size : Nat) : Prop where
  products : ∀ isActive search, (productsListing T e isActive search).Exact db size
  customers : ∀ isActive search, (customersListing T e isActive search).Exact db size
  levels : ∀ search, (levelsListing T e search).Exact db size
  movements : ∀ productId, (movementsListing e productId).Exact db size
  documents : ∀ kind status search, (documentsListing T e kind status search).Exact db size
  invoices : ∀ status search, (invoicesListing T e status search).Exact db size
  accounts : ∀ search, (accountsListing T e search).Exact db size
  entries : ∀ accountId search, (entriesListing T e accountId search).Exact db size
  /-- `@@unique([enterpriseId, code])`. -/
  uniqueCodes : (∀ a ∈ db.accounts.rows, ∀ b ∈ db.accounts.rows, a.enterpriseId = b.enterpriseId →
      a.code = b.code → a = b) → ∀ search, (accountsListing T e search).VisitsOnce db size

section
variable {T : Texts} {db : Db} {e : Uuid} {size : Nat} {ρ α : Type}

theorem Listing.visitsOnce_iff_paging (L : Listing ρ α) :
    L.VisitsOnce db size ↔ Paging.VisitsOnce L.order (L.rows db) size :=
  ⟨fun h ord hord => (h ord hord).2, fun h ord hord => ⟨rfl, h ord hord⟩⟩

theorem Listing.exact {L : Listing ρ α} (horder : Preordered L.order) (hrows : (L.rows db).Nodup)
    (hsize : 0 < size) : L.Exact db size := by
  rw [Listing.Exact, L.visitsOnce_iff_paging]
  exact visitsOnce_iff horder hsize hrows

theorem TenantTable.nodup_listing [Keyed ρ Uuid] (t : TenantTable ρ) (cond : Db → ρ → Bool)
    (order : ρ → ρ → Bool) (item : Db → List ρ → ρ → α) :
    ((t.listing e cond order item).rows db).Nodup := (t.get db).nodup.of_map.filter _

theorem preordered_collate (hT : T.Deterministic) (key : ρ → String) :
    Preordered fun a b => T.collate (key a) (key b) :=
  ⟨fun _ _ _ => hT.preordered.trans _ _ _, fun _ _ => hT.preordered.total _ _⟩

theorem preordered_desc {β : Type} [LinearOrder β] (key : ρ → β) :
    Preordered fun a b => decide (key b ≤ key a) where
  trans a b c hab hbc :=
    decide_eq_true (le_trans (of_decide_eq_true hbc) (of_decide_eq_true hab))
  total a b := by
    rw [Bool.or_eq_true]
    exact (le_total (key b) (key a)).imp decide_eq_true decide_eq_true

theorem accounts_untied (hT : T.Deterministic)
    (hcodes : ∀ a ∈ db.accounts.rows, ∀ b ∈ db.accounts.rows, a.enterpriseId = b.enterpriseId →
      a.code = b.code → a = b) (search : Option String) :
    Unsplit (accountsListing T e search).order ((accountsListing T e search).rows db) size := by
  refine unsplit_of_antisymm (preordered_collate hT Account.code)
    (accounts.nodup_listing _ _ _) (fun a ha b hb hab hba => ?_) size
  obtain ⟨ha, hcond⟩ := List.mem_filter.1 ha
  obtain ⟨hb, hcond'⟩ := List.mem_filter.1 hb
  have howner := (of_decide_eq_true hcond).1.trans (of_decide_eq_true hcond').1.symm
  exact hcodes a ha b hb howner (hT.antisymm _ _ hab hba)

/-- The pages of a list show every row once exactly when none splits a group of ties. -/
theorem pages_exact (hT : T.Deterministic) (hmovements : (db.movements.map fun m => m.id).Nodup)
    (e : Uuid) (hsize : 0 < size) : ListsAnswer T db e ∧ PagesExact T db e size := by
  refine ⟨lists_answer T db e, ?_⟩
  constructor
  · exact fun _ _ => Listing.exact (preordered_collate hT Product.name)
      (products.nodup_listing _ _ _) hsize
  · exact fun _ _ => Listing.exact (preordered_collate hT Party.name)
      (customers.nodup_listing _ _ _) hsize
  · exact fun _ => Listing.exact (preordered_collate hT Product.name)
      (products.nodup_listing _ _ _) hsize
  · exact fun _ => Listing.exact (preordered_desc StockMovement.createdAt)
      (hmovements.of_map.filter _) hsize
  · exact fun kind _ _ => Listing.exact (preordered_desc Document.createdAt)
      ((documents kind).nodup_listing _ _ _) hsize
  · exact fun _ _ => Listing.exact (preordered_desc SalesInvoice.createdAt)
      (salesInvoices.nodup_listing _ _ _) hsize
  · exact fun _ => Listing.exact (preordered_collate hT Account.code)
      (accounts.nodup_listing _ _ _) hsize
  · exact fun _ _ => Listing.exact (preordered_desc JournalEntry.entryDate)
      (journalEntries.nodup_listing _ _ _) hsize
  · intro hcodes search
    rw [Listing.visitsOnce_iff_paging]
    exact visitsOnce_of_unsplit (preordered_collate hT Account.code) hsize
      (accounts_untied hT hcodes search)

end

theorem plainTexts_deterministic : plainTexts.Deterministic where
  preordered := ⟨plainTexts_collates.trans, plainTexts_collates.total⟩
  antisymm _ _ hab hba := String.le_antisymm (of_decide_eq_true hab) (of_decide_eq_true hba)

/-- Two products of one name. -/
def namesakes : Db where
  products := (Table.empty.insert
    { id := 1, enterpriseId := 1, code := "RIZ-1", name := "Riz", sellingPriceExcludingTax := 500
      createdAt := 0, updatedAt := 0 }).insert
    { id := 2, enterpriseId := 1, code := "RIZ-2", name := "Riz", sellingPriceExcludingTax := 600
      createdAt := 0, updatedAt := 0 }

theorem pages_exact_sample :
    ListsAnswer plainTexts namesakes 1 ∧ PagesExact plainTexts namesakes 1 20 :=
  pages_exact plainTexts_deterministic (by decide) 1 (by decide)

/-- One a page, either may be shown twice and the other never. -/
theorem namesakes_split : ¬ (productsListing plainTexts 1 none none).VisitsOnce namesakes 1 := by
  have hexact : (productsListing plainTexts 1 none none).Exact namesakes 1 :=
    Listing.exact (preordered_collate plainTexts_deterministic Product.name)
      (products.nodup_listing _ _ _) (by decide)
  rw [Listing.Exact] at hexact
  rw [hexact]
  decide +kernel

end Gescom.Erp
