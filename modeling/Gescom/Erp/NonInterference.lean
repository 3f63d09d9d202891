import Gescom.Erp.Collation
import Gescom.Erp.ConfinedCreate
import Gescom.Erp.Server

/-!
# Enterprises do not interfere

The ERP repositories called one after the other, with row-level security absent: what they answer to
an enterprise, and what they leave of its rows, depends on its own rows only, and nobody else's rows
change. A statement that fails for a reason outside the code is not among these runs.
-/

namespace Gescom.Erp

open Confinement

/-- The methods of the products, customers, stock, sales, purchases, invoicing, accounts, journal and
reports repositories, each with what it answers. -/
inductive Operation : Type → Type where
  | findProducts (query : ListProductsQuery) : Operation (Paged Product)
  | findProduct (id : Uuid) : Operation Product
  | createProduct (input : CreateProductInput) : Operation Product
  | updateProduct (id : Uuid) (input : UpdateProductInput) : Operation Product
  | deactivateProduct (id : Uuid) : Operation Product
  | findCustomers (query : ListCustomersQuery) : Operation (Paged Party)
  | findCustomer (id : Uuid) : Operation Party
  | createCustomer (input : CreateCustomerInput) : Operation Party
  | updateCustomer (id : Uuid) (input : UpdateCustomerInput) : Operation Party
  | deactivateCustomer (id : Uuid) : Operation Party
  | findLevels (query : ListStockQuery) : Operation (Paged StockLevel)
  | getLevel (productId : Uuid) : Operation StockLevel
  | findMovements (productId : Uuid) (query : PageQuery) : Operation (Paged StockMovement)
  | createMovement (input : CreateStockMovementInput) (key : Option String) : Operation MovementResult
  /-- `create` of sales, purchases, invoices and journal entries. -/
  | create (k : Kind) (input : k.Input) (key : Option String) : Operation (CreateResult k.View)
  | findDocuments (kind : DocKind) (query : ListDocumentsQuery) : Operation (Paged DocumentListItem)
  | findDocument (kind : DocKind) (id : Uuid) : Operation DocumentView
  | confirmDocument (kind : DocKind) (id : Uuid) : Operation DocumentView
  | cancelDocument (kind : DocKind) (id : Uuid) : Operation DocumentView
  | findInvoices (query : ListSalesInvoicesQuery) : Operation (Paged (Option SalesInvoiceListItem))
  | findInvoice (id : Uuid) : Operation (Option SalesInvoiceView)
  /-- `markPaid` and `void`. -/
  | settleInvoice (o : Outcome) (id : Uuid) : Operation (Option SalesInvoiceView)
  | findAccounts (query : ListAccountsQuery) : Operation (Paged AccountView)
  | findAccount (id : Uuid) : Operation AccountView
  | createAccount (input : CreateAccountInput) : Operation AccountView
  | updateAccount (id : Uuid) (input : UpdateAccountInput) : Operation AccountView
  | trialBalance : Operation TrialBalanceView
  | findEntries (query : ListJournalEntriesQuery) : Operation (Paged JournalEntryView)
  | findEntry (id : Uuid) : Operation JournalEntryView
  /-- `salesReport` and `purchasesReport`. -/
  | report (kind : DocKind) (query : ReportPeriodQuery) : Operation ReportView
  | incomeStatement (query : ReportPeriodQuery) : Operation IncomeStatementView

/-- The method, called by enterprise `e`. -/
def Operation.run (T : Texts) (e : Uuid) (draw : Draw) {α : Type} : Operation α → Transaction α
  | findProducts query => ProductsRepository.findMany T e query
  | findProduct id => ProductsRepository.findByIdOrThrow e id
  | createProduct input => ProductsRepository.create e input draw
  | updateProduct id input => ProductsRepository.update e id input
  | deactivateProduct id => ProductsRepository.deactivate e id
  | findCustomers query => CustomersRepository.findMany T e query
  | findCustomer id => CustomersRepository.findByIdOrThrow e id
  | createCustomer input => CustomersRepository.create e input draw
  | updateCustomer id input => CustomersRepository.update e id input
  | deactivateCustomer id => CustomersRepository.deactivate e id
  | findLevels query => StockRepository.findLevels T e query
  | getLevel productId => StockRepository.getLevel e productId
  | findMovements productId query => StockRepository.findMovements e productId query
  | createMovement input key => Erp.createMovement e input key draw.id
  | create k input key => k.repository.create ⟨e, input, key⟩ draw
  | findDocuments kind query => DocumentMethods.findMany kind.repository T e query
  | findDocument kind id => DocumentMethods.findByIdOrThrow kind.repository e id
  | confirmDocument kind id => DocumentMethods.confirm kind.repository e id draw
  | cancelDocument kind id => DocumentMethods.cancel kind.repository e id
  | findInvoices query => InvoicingRepository.findMany T e query
  | findInvoice id => InvoicingRepository.findByIdOrThrow e id
  | settleInvoice o id => InvoicingRepository.settle o e id
  | findAccounts query => AccountsRepository.findMany T e query
  | findAccount id => AccountsRepository.findByIdOrThrow e id
  | createAccount input => AccountsRepository.create e input draw
  | updateAccount id input => AccountsRepository.update e id input
  | trialBalance => AccountsRepository.trialBalance T e
  | findEntries query => JournalRepository.findMany T e query
  | findEntry id => JournalRepository.findByIdOrThrow e id
  | report kind query => ReportsRepository.report .binary64 T kind e query
  | incomeStatement query => ReportsRepository.incomeStatement T e query

/-- A call: the operation, the identifiers it draws, and its time. -/
structure Request where
  {α : Type}
  operation : Operation α
  draw : Draw
  now : Instant

/-- A call of enterprise `e`: what it answers, and the database after it. -/
def Request.serve (T : Texts) (e : Uuid) (r : Request) : Run Db (Σ α : Type, Except ApiError α) :=
  fun db =>
    let answer := exec (r.operation.run T e r.draw) { db with now := r.now }
    (⟨r.α, answer.1⟩, answer.2)

/-- The answers to the calls of `e`, one after the other, and the database after them. -/
def runAs (T : Texts) (e : Uuid) (requests : List Request) :
    Run Db (List (Σ α : Type, Except ApiError α)) :=
  execAll (requests.map (Request.serve T e))

variable {T : Texts} {e : Uuid} {draw : Draw} {db db₁ db₂ : Db}

/-! ## One call -/

theorem kind_create_confined (k : Kind) (input : k.Input) (key : Option String) :
    Confined (boundary e) (draw.FreshFor e) (k.repository.create ⟨e, input, key⟩ draw)
      fun _ _ => True := by
  cases k with
  | sale => exact document_create_confined rfl
  | purchase => exact document_create_confined rfl
  | invoice => exact invoice_create_confined rfl
  | entry => exact entry_create_confined rfl

/-- Every operation is confined to the enterprise that calls it. -/
theorem Operation.confined {α : Type} (op : Operation α) :
    Confined (boundary e) (draw.FreshFor e) (op.run T e draw) fun _ _ => True := by
  cases op with
  | findProducts query => exact ProductsRepository.findMany_confined query
  | findProduct id => exact ProductsRepository.findByIdOrThrow_confined
  | createProduct input => exact ProductsRepository.create_confined input
  | updateProduct id input => exact ProductsRepository.update_confined input
  | deactivateProduct id => exact ProductsRepository.deactivate_confined
  | findCustomers query => exact CustomersRepository.findMany_confined query
  | findCustomer id => exact CustomersRepository.findByIdOrThrow_confined
  | createCustomer input => exact CustomersRepository.create_confined input
  | updateCustomer id input => exact CustomersRepository.update_confined input
  | deactivateCustomer id => exact CustomersRepository.deactivate_confined
  | findLevels query => exact StockRepository.findLevels_confined query
  | getLevel productId => exact StockRepository.getLevel_confined
  | findMovements productId query => exact StockRepository.findMovements_confined query
  | createMovement input key => exact StockRepository.createMovement_confined input key
  | create k input key => exact kind_create_confined k input key
  | findDocuments kind query => exact DocumentMethods.findMany_confined query
  | findDocument kind id => exact DocumentMethods.findByIdOrThrow_confined
  | confirmDocument kind id => exact DocumentMethods.confirm_confined
  | cancelDocument kind id => exact DocumentMethods.cancel_confined
  | findInvoices query => exact InvoicingRepository.findMany_confined query
  | findInvoice id => exact InvoicingRepository.findByIdOrThrow_confined
  | settleInvoice o id => exact InvoicingRepository.settle_confined o
  | findAccounts query => exact AccountsRepository.findMany_confined query
  | findAccount id => exact AccountsRepository.findByIdOrThrow_confined
  | createAccount input => exact AccountsRepository.create_confined input
  | updateAccount id input => exact AccountsRepository.update_confined input
  | trialBalance => exact AccountsRepository.trialBalance_confined
  | findEntries query => exact JournalRepository.findMany_confined query
  | findEntry id => exact JournalRepository.findByIdOrThrow_confined
  | report kind query => exact ReportsRepository.report_confined .binary64 kind query
  | incomeStatement query => exact ReportsRepository.incomeStatement_confined query

theorem serves_setNow (h : db.Serves e) (now : Instant) : ({ db with now := now } : Db).Serves e :=
  ⟨intact_setNow h.intact now, h.prefixes, h.tenant⟩

theorem Request.confined {r : Request} {others : Db} (hfresh : r.draw.id ∉ others.ids) :
    ConfinedRun (boundary e) others (r.serve T e) := by
  have hop : ConfinedRun (boundary e) others (exec (r.operation.run T e r.draw)) := by
    refine exec_confined r.operation.confined fun db hrest => ?_
    rw [Draw.FreshFor, show db.rowsOfOthers e = others from hrest]
    exact hfresh
  intro db hs hrest
  obtain ⟨hview, hinv, hothers⟩ := hop { db with now := r.now } (serves_setNow hs r.now) hrest
  refine ⟨?_, hinv, hothers⟩
  have hclock : (boundary e).view { db with now := r.now } =
      { (boundary e).view db with now := r.now } := rfl
  simp only [Request.serve, ← hclock, hview]

/-! ## Runs -/

theorem runAs_confined {requests : List Request} {others : Db}
    (fresh : ∀ r ∈ requests, r.draw.id ∉ others.ids) :
    ConfinedRun (boundary e) others (runAs T e requests) := by
  refine execAll_confined fun c hc => ?_
  obtain ⟨r, hr, rfl⟩ := List.mem_map.1 hc
  exact Request.confined (fresh r hr)

/-- Nothing of a run depends on what the clock shows before its first call. -/
theorem runAs_setNow (r : Request) (requests : List Request) (db : Db) (now : Instant) :
    runAs T e (r :: requests) { db with now := now } = runAs T e (r :: requests) db := rfl

/-- The rows of `e` alone decide what a run of `e` answers and leaves of them. -/
theorem runAs_rowsOf {requests : List Request} (h₁ : db₁.Serves e) (h₂ : db₂.Serves e)
    (agree : db₁.rowsOf e = db₂.rowsOf e)
    (fresh₁ : ∀ r ∈ requests, r.draw.FreshFor e db₁)
    (fresh₂ : ∀ r ∈ requests, r.draw.FreshFor e db₂) :
    (runAs T e requests db₁).1 = (runAs T e requests db₂).1 ∧
      (runAs T e requests db₁).2.rowsOf e = (runAs T e requests db₂).2.rowsOf e := by
  cases requests with
  | nil => exact ⟨rfl, agree⟩
  | cons r requests =>
    rw [← runAs_setNow r requests db₁ 0, ← runAs_setNow r requests db₂ 0]
    have hrun : ∀ db : Db, (∀ q ∈ r :: requests, q.draw.FreshFor e db) →
        ConfinedRun (boundary e) ((boundary e).rest { db with now := 0 })
          (runAs T e (r :: requests)) := fun _ fresh => runAs_confined fresh
    have hview : (boundary e).view { db₁ with now := 0 } = (boundary e).view { db₂ with now := 0 } :=
      agree
    obtain ⟨hanswers, hviews⟩ := two_runs (hrun db₁ fresh₁) (hrun db₂ fresh₂)
      (serves_setNow h₁ 0) (serves_setNow h₂ 0) hview
    exact ⟨hanswers, congrArg (fun db : Db => { db with now := 0 }) hviews⟩

/-! ## The databases that calls lead to -/

/-- The enterprises register and call in any order. Suppliers and enterprises are written by other
modules, which delete none and give none to another enterprise. -/
inductive Reached (T : Texts) : Db → Prop where
  | empty : Reached T {}
  | elsewhere {db : Db} (enterprises : Table Enterprise) (suppliers : Table Party) :
      Reached T db → db.tenants ⊆ enterprises.rows.map Enterprise.id →
      KeepsOwners db.suppliers suppliers Party.enterpriseId →
      Reached T { db with enterprises := enterprises, suppliers := suppliers }
  | request {db : Db} (e : Uuid) (r : Request) :
      Reached T db → db.DistinctPrefixes → e ∈ db.tenants → r.draw.FreshFor e db →
      Reached T (r.serve T e db).2

/-- What `tenants_do_not_interfere` asks of the references and numbers holds of these databases. -/
theorem Reached.intact (h : Reached T db) : db.Intact := by
  induction h with
  | empty =>
    refine ⟨fun kind d hd => ?_, ?_, ?_, ?_, ?_, ?_⟩
    · cases kind <;> cases hd
    all_goals
      intro r hr
      cases hr
  | elsewhere enterprises suppliers _ htenants hsuppliers ih =>
    exact intact_elsewhere ih htenants hsuppliers
  | request e r _ hprefixes htenant hfresh ih =>
    obtain ⟨-, hserves, -⟩ := Request.confined (T := T) hfresh _ ⟨ih, hprefixes, htenant⟩ rfl
    exact hserves.intact

/-- The calls of one enterprise lead on. -/
theorem Reached.runAs {requests : List Request} (h : Reached T db) (hs : db.Serves e)
    (fresh : ∀ r ∈ requests, r.draw.FreshFor e db) :
    Reached T (Erp.runAs T e requests db).2 := by
  induction requests generalizing db with
  | nil => exact h
  | cons r requests ih =>
    have hfirst : r.draw.FreshFor e db := fresh r List.mem_cons_self
    obtain ⟨-, hserves, hrest⟩ := Request.confined (T := T) hfirst db hs rfl
    refine ih (h.request e r hs.prefixes hs.tenant hfirst) hserves fun q hq => ?_
    have hothers : (r.serve T e db).2.rowsOfOthers e = db.rowsOfOthers e := hrest
    rw [Draw.FreshFor, hothers]
    exact fresh q (List.mem_cons_of_mem _ hq)

/-! ## Two databases -/

/-- Two databases with the same rows of `e`: the same calls of `e` answer the same in both and leave
the same rows of `e`, whatever identifiers they are given, and the rows of the others stay. -/
theorem tenants_do_not_interfere (T : Texts) (e : Uuid) (requests : List Request) {db₁ db₂ : Db}
    (h₁ : db₁.Serves e) (h₂ : db₂.Serves e) (agree : db₁.rowsOf e = db₂.rowsOf e)
    (fresh : ∀ r ∈ requests, r.draw.FreshFor e db₁ ∧ r.draw.FreshFor e db₂) :
    (runAs T e requests db₁).1 = (runAs T e requests db₂).1 ∧
      (runAs T e requests db₁).2.rowsOf e = (runAs T e requests db₂).2.rowsOf e ∧
      (runAs T e requests db₁).2.rowsOfOthers e = db₁.rowsOfOthers e ∧
      (runAs T e requests db₂).2.rowsOfOthers e = db₂.rowsOfOthers e := by
  have fresh₁ : ∀ r ∈ requests, r.draw.FreshFor e db₁ := fun r hr => (fresh r hr).1
  have fresh₂ : ∀ r ∈ requests, r.draw.FreshFor e db₂ := fun r hr => (fresh r hr).2
  obtain ⟨hanswers, hrows⟩ := runAs_rowsOf (T := T) h₁ h₂ agree fresh₁ fresh₂
  obtain ⟨-, -, hothers₁⟩ := runAs_confined (T := T) fresh₁ db₁ h₁ rfl
  obtain ⟨-, -, hothers₂⟩ := runAs_confined (T := T) fresh₂ db₂ h₂ rfl
  exact ⟨hanswers, hrows, hothers₁, hothers₂⟩

section

def registered : Db :=
  { enterprises := (Table.empty.insert { id := 16 ^ 24, name := "A" }).insert
      { id := 2 * 16 ^ 24, name := "B" } }

def riz : CreateProductInput := { code := "RIZ", name := "Riz", sellingPriceExcludingTax := 500 }

/-- `registered`, and a product of the second enterprise. -/
def stocked (T : Texts) : Db :=
  (Request.serve T (2 * 16 ^ 24) ⟨.createProduct riz, ⟨7, id⟩, 1⟩ registered).2

/-- The first enterprise asks for that product, takes its code, and tries to deactivate it. -/
def foreign : List Request :=
  [⟨.findProduct 7, ⟨8, id⟩, 2⟩, ⟨.createProduct riz, ⟨8, id⟩, 3⟩, ⟨.deactivateProduct 7, ⟨9, id⟩, 4⟩]

theorem reached_registered : Reached T registered :=
  .elsewhere _ _ .empty (List.nil_subset _) fun _ _ h => h

theorem prefixes_registered : registered.DistinctPrefixes := by
  unfold Db.DistinctPrefixes
  decide +kernel

theorem reached_stocked : Reached T (stocked T) :=
  reached_registered.request (2 * 16 ^ 24) ⟨.createProduct riz, ⟨7, id⟩, 1⟩ prefixes_registered
    (by decide) List.not_mem_nil

theorem tenants_do_not_interfere_sample :
    (runAs plainTexts (16 ^ 24) foreign registered).1 =
        (runAs plainTexts (16 ^ 24) foreign (stocked plainTexts)).1 ∧
      (runAs plainTexts (16 ^ 24) foreign registered).2.rowsOf (16 ^ 24) =
        (runAs plainTexts (16 ^ 24) foreign (stocked plainTexts)).2.rowsOf (16 ^ 24) ∧
      (runAs plainTexts (16 ^ 24) foreign registered).2.rowsOfOthers (16 ^ 24) =
        registered.rowsOfOthers (16 ^ 24) ∧
      (runAs plainTexts (16 ^ 24) foreign (stocked plainTexts)).2.rowsOfOthers (16 ^ 24) =
        (stocked plainTexts).rowsOfOthers (16 ^ 24) := by
  refine tenants_do_not_interfere plainTexts (16 ^ 24) foreign ?_ ?_ rfl ?_
  · exact ⟨reached_registered.intact (T := plainTexts), prefixes_registered, by decide⟩
  · exact ⟨reached_stocked.intact, prefixes_registered, by decide⟩
  · unfold Draw.FreshFor
    decide +kernel

end

end Gescom.Erp
