import Gescom.Erp.CreateAlone
import Gescom.Erp.Outcome

/-!
# Sales invoices (`invoicing.repository.ts`)

`create` is `Repository.create` of `invoicingRepository`. `markPaid` and `void` as one transaction
each; `settle_alone` ties it to the statements of `SettlementState.step`.
-/

namespace Gescom.Erp

open Confinement ReadCommitted

/-- An update of the status touches no column of a unique index. -/
def salesInvoices : TenantTable SalesInvoice where
  get := Db.salesInvoices
  put db t := { db with salesInvoices := t }
  owner := SalesInvoice.enterpriseId
  same _ _ := false

structure SalesInvoiceListItem where
  id : Uuid
  saleId : Uuid
  customerId : Uuid
  customerName : String
  number : String
  status : InvoiceStatus
  issuedAt : Instant
  totals : Totals
  createdAt : Instant
  deriving DecidableEq, Repr

structure ListSalesInvoicesQuery extends PageQuery where
  search : Option String := none
  status : Option InvoiceStatus := none

/-- The item of an invoice; the foreign key makes its sale exist. -/
def Db.invoiceListItem (db : Db) (i : SalesInvoice) : Option SalesInvoiceListItem :=
  (db.sales.find? i.saleId).map fun sale =>
    { id := i.id
      saleId := i.saleId
      customerId := sale.partyId
      customerName := db.partyName .sale sale
      number := i.number
      status := i.status
      issuedAt := i.issuedAt
      totals := sumTotals (sale.lines.map DocumentLine.totals)
      createdAt := i.createdAt }

namespace InvoicingRepository

def findMany (T : Texts) (enterpriseId : Uuid) (query : ListSalesInvoicesQuery) :
    Transaction (Paged (Option SalesInvoiceListItem)) :=
  ask fun db => .ok <| query.of db.invoiceListItem <|
    salesInvoices.findMany enterpriseId
      (fun i => query.status.all (i.status == ·) && T.search query.search
        [some i.number, (db.sales.find? i.saleId).map (db.partyName .sale)])
      (fun a b => b.createdAt ≤ a.createdAt) db

def findByIdOrThrow (enterpriseId id : Uuid) : Transaction (Option SalesInvoiceView) :=
  ask fun db => (db.getInvoiceOrThrow enterpriseId id).map fun found =>
    found.2.map (toInvoiceView found.1)

/-- `markPaid` and `void`. -/
def settle (o : Outcome) (enterpriseId id : Uuid) : Transaction (Option SalesInvoiceView) := do
  let found ← ask fun db => db.getInvoiceOrThrow enterpriseId id
  if found.1.status ≠ .issued then throw o.refusal
  else do
    let row ← salesInvoices.update id o.update o.update_id
    pure (found.2.map (toInvoiceView row))

def markPaid : Uuid → Uuid → Transaction (Option SalesInvoiceView) := settle .paid

def void : Uuid → Uuid → Transaction (Option SalesInvoiceView) := settle .void

end InvoicingRepository

/-! ## The statements -/

/-- Alone, the statements of a call do what the program does. -/
theorem settle_alone {c : Settlement} {pid : Nat} {s : ErpStore} (hs : s.Alone pid) :
    ∃ s' r, Relation.ReflTransGen (fun x y => SettlementState.step c pid x.1 x.2 = some y)
        (s, SettlementState.reading) (s', .finished r) ∧
      exec (InvoicingRepository.settle c.outcome c.enterpriseId c.invoiceId) s.db = (r, s'.db) := by
  cases hfound : s.db.getInvoiceOrThrow c.enterpriseId c.invoiceId with
  | error e =>
    have hprogram : InvoicingRepository.settle c.outcome c.enterpriseId c.invoiceId s.db =
        .error e := bind_of_error (ask_of_error hfound)
    refine ⟨s, .error e, .single ?_, ?_⟩
    · simp only [SettlementState.step, hfound]
    · rw [exec, hprogram]
  | ok found =>
    have hprogram : InvoicingRepository.settle c.outcome c.enterpriseId c.invoiceId s.db = _ :=
      bind_of_ok (ask_of_ok hfound)
    by_cases hstatus : found.1.status = .issued
    · obtain ⟨i, hi⟩ : ∃ i, s.db.salesInvoices.find? c.invoiceId = some i := by
        cases hi : s.db.salesInvoices.find? c.invoiceId with
        | none => simp [Db.getInvoiceOrThrow, hi] at hfound
        | some i => exact ⟨i, rfl⟩
      have hupdate : salesInvoices.update c.invoiceId c.outcome.update c.outcome.update_id s.db =
          .ok (c.outcome.update s.db.now i, Db.settle c s.db.now s.db) := by
        simp [TenantTable.update, salesInvoices, hi, Db.settle]
      refine ⟨(s.acquire pid (.id .salesInvoice c.invoiceId)).commit pid (Db.settle c s.db.now),
        .ok (found.2.map (toInvoiceView (c.outcome.update s.db.now i))),
        .head (b := (s, .updating found.2)) ?_ (.head
          (b := (s.acquire pid (.id .salesInvoice c.invoiceId), .committing s.db.now
            (found.2.map (toInvoiceView (c.outcome.update s.db.now i))))) ?_ (.single rfl)), ?_⟩
      · simp only [SettlementState.step, hfound, hstatus]
        rfl
      · simp only [SettlementState.step, hs.free, if_true, hi]
      · rw [exec, hprogram, if_neg (not_not.2 hstatus), bind_of_ok hupdate]
        rfl
    · refine ⟨s, .error c.outcome.refusal, .single ?_, ?_⟩
      · simp only [SettlementState.step, hfound, ne_eq, hstatus, not_false_eq_true, if_true]
      · rw [exec, hprogram, if_pos hstatus]
        rfl

end Gescom.Erp
