import Gescom.Erp.Confirmation
import Gescom.Erp.DailyReports
import Mathlib.Data.Rat.Floor

/-!
# The amounts of a document

`lineTotals` is written in four files and the reduction over the lines in eight methods, over lines
that come with or without their products. Here are these copies, the amounts they should come to in
exact arithmetic (`exactTotals`), and `every_view_agrees`: the lists, the details, the invoices and
the reports all show those, whatever happens to the products afterwards.
-/

namespace Gescom.Erp

open Binary64 (Rounding)
open Confinement Grouping

/-- `lines.map` to the views of the lines, then `reduce` over the views. -/
def reduceViews (lineTotals : Int → Int → Int → LineTotals) (lines : List DocumentLine) : Totals :=
  (lines.map fun line =>
    lineTotals line.quantity line.unitPriceExcludingTax line.vatRateBasisPoints).foldl
    (Totals.addLine .exact) ⟨0, 0, 0⟩

/-! ## The copies -/

namespace SalesRepository

/-- `sales.repository.ts:71`. -/
def lineTotals (quantity unitPriceExcludingTax vatRateBasisPoints : Int) : LineTotals :=
  let lineTotalExcludingTax := quantity * unitPriceExcludingTax
  let lineTotalVat := mathRound ((lineTotalExcludingTax * vatRateBasisPoints : Int) / 10000)
  ⟨lineTotalExcludingTax, lineTotalVat, lineTotalExcludingTax + lineTotalVat⟩

def findManyTotals : List DocumentLine → Totals := reduceLines .exact lineTotals

def toSaleViewTotals : List DocumentLine → Totals := reduceViews lineTotals

end SalesRepository

namespace PurchasesRepository

/-- `purchases.repository.ts:67`. -/
def lineTotals (quantity unitCostExcludingTax vatRateBasisPoints : Int) : LineTotals :=
  let lineTotalExcludingTax := quantity * unitCostExcludingTax
  let lineTotalVat := mathRound ((lineTotalExcludingTax * vatRateBasisPoints : Int) / 10000)
  ⟨lineTotalExcludingTax, lineTotalVat, lineTotalExcludingTax + lineTotalVat⟩

def findManyTotals : List DocumentLine → Totals := reduceLines .exact lineTotals

def toPurchaseViewTotals : List DocumentLine → Totals := reduceViews lineTotals

end PurchasesRepository

namespace InvoicingRepository

/-- `invoicing.repository.ts:86`. -/
def lineTotals (quantity unitPriceExcludingTax vatRateBasisPoints : Int) : LineTotals :=
  let lineTotalExcludingTax := quantity * unitPriceExcludingTax
  let lineTotalVat := mathRound ((lineTotalExcludingTax * vatRateBasisPoints : Int) / 10000)
  ⟨lineTotalExcludingTax, lineTotalVat, lineTotalExcludingTax + lineTotalVat⟩

def findManyTotals : List DocumentLine → Totals := reduceLines .exact lineTotals

def toInvoiceViewTotals : List DocumentLine → Totals := reduceViews lineTotals

end InvoicingRepository

namespace ReportsRepository

def salesReportTotals : List DocumentLine → Totals := totals .exact

def purchasesReportTotals : List DocumentLine → Totals := totals .exact

end ReportsRepository

/-! ## The exact amounts -/

def DocumentLine.exactVat (l : DocumentLine) : Int :=
  mathRound ((l.quantity * l.unitPriceExcludingTax * l.vatRateBasisPoints : Int) / 10000)

/-- Each amount is a sum over the lines, each VAT amount rounded on its line. -/
def exactTotals (lines : List DocumentLine) : Totals where
  totalExcludingTax := (lines.map fun l => l.quantity * l.unitPriceExcludingTax).sum
  totalVat := (lines.map DocumentLine.exactVat).sum
  totalIncludingTax := (lines.map fun l => l.quantity * l.unitPriceExcludingTax + l.exactVat).sum

theorem exactTotals_including (lines : List DocumentLine) :
    (exactTotals lines).totalIncludingTax =
      (exactTotals lines).totalExcludingTax + (exactTotals lines).totalVat := List.sum_map_add

theorem exactTotals_perm {lines lines' : List DocumentLine} (h : lines.Perm lines') :
    exactTotals lines = exactTotals lines' := by
  simp only [exactTotals, (h.map _).sum_eq]

theorem exactTotals_cons (l : DocumentLine) (lines : List DocumentLine) :
    exactTotals (l :: lines) = (exactTotals [l]).add (exactTotals lines) := by
  simp only [exactTotals, Totals.add, List.map_cons, List.map_nil, List.sum_cons, List.sum_nil,
    Totals.mk.injEq]
  refine ⟨by omega, by omega, by omega⟩

/-- The integer formula of `roundDiv` is the rounding of the quotient. -/
theorem mathRound_div (n : Int) : mathRound ((n : ℚ) / 10000) = roundDiv n 10000 := by
  have hsum : (n : ℚ) / 10000 + 1 / 2 = ((2 * n + 10000 : Int) : ℚ) / ((20000 : ℕ) : ℚ) := by
    push_cast
    ring
  rw [mathRound, hsum, Rat.floor_intCast_div_natCast, roundDiv]
  norm_num

/-- The model's line amounts are the exact ones. -/
theorem line_totals (l : DocumentLine) : l.totals = exactTotals [l] := by
  simp only [DocumentLine.totals, lineTotals, exactTotals, DocumentLine.exactVat, mathRound_div,
    List.map_cons, List.map_nil, List.sum_cons, List.sum_nil, add_zero]

theorem foldl_addLine (f : DocumentLine → LineTotals)
    (hf : ∀ l, (⟨0, 0, 0⟩ : Totals).addLine .exact (f l) = exactTotals [l]) (lines : List DocumentLine)
    (acc : Totals) :
    lines.foldl (fun acc line => acc.addLine .exact (f line)) acc = acc.add (exactTotals lines) := by
  induction lines generalizing acc with
  | nil => simp [exactTotals, Totals.add]
  | cons l lines ih =>
    have hline : acc.addLine .exact (f l) = acc.add (exactTotals [l]) := by
      rw [← hf l]
      simp [Totals.addLine, Totals.add]
    rw [List.foldl_cons, ih, hline, exactTotals_cons l lines, Totals.add_assoc]

/-- A copy that computes the amounts of a line right computes those of a document right. -/
theorem reduceLines_eq {f : Int → Int → Int → LineTotals}
    (hf : ∀ l : DocumentLine, (⟨0, 0, 0⟩ : Totals).addLine .exact
      (f l.quantity l.unitPriceExcludingTax l.vatRateBasisPoints) = exactTotals [l])
    (lines : List DocumentLine) : reduceLines .exact f lines = exactTotals lines := by
  rw [reduceLines, foldl_addLine (fun l => f l.quantity l.unitPriceExcludingTax
    l.vatRateBasisPoints) hf, Totals.zero_add]

theorem reduceViews_eq {f : Int → Int → Int → LineTotals}
    (hf : ∀ l : DocumentLine, (⟨0, 0, 0⟩ : Totals).addLine .exact
      (f l.quantity l.unitPriceExcludingTax l.vatRateBasisPoints) = exactTotals [l])
    (lines : List DocumentLine) : reduceViews f lines = exactTotals lines := by
  rw [reduceViews, List.foldl_map]
  exact reduceLines_eq hf lines

theorem sumTotals_eq (lines : List DocumentLine) :
    sumTotals (lines.map DocumentLine.totals) = exactTotals lines := by
  have hfold : ∀ (lines : List DocumentLine) (acc : Totals),
      (lines.map DocumentLine.totals).foldl Totals.add acc = acc.add (exactTotals lines) := by
    intro lines
    induction lines with
    | nil => intro acc; simp [exactTotals, Totals.add]
    | cons l lines ih =>
      intro acc
      rw [List.map_cons, List.foldl_cons, ih, line_totals, exactTotals_cons l lines,
        Totals.add_assoc]
  rw [sumTotals, hfold, Totals.zero_add]

/-- The methods that compute the amounts of a document. -/
inductive Copy where
  | saleList | saleDetail | purchaseList | purchaseDetail | invoiceList | invoiceDetail
  | salesReport | purchasesReport
  deriving DecidableEq, Repr

def Copy.totals : Copy → List DocumentLine → Totals
  | saleList => SalesRepository.findManyTotals
  | saleDetail => SalesRepository.toSaleViewTotals
  | purchaseList => PurchasesRepository.findManyTotals
  | purchaseDetail => PurchasesRepository.toPurchaseViewTotals
  | invoiceList => InvoicingRepository.findManyTotals
  | invoiceDetail => InvoicingRepository.toInvoiceViewTotals
  | salesReport => ReportsRepository.salesReportTotals
  | purchasesReport => ReportsRepository.purchasesReportTotals

theorem ReportsRepository.totals_eq (lines : List DocumentLine) :
    ReportsRepository.totals .exact lines = exactTotals lines := by
  refine reduceLines_eq (fun l => ?_) lines
  simp only [ReportsRepository.lineTotals, Totals.addLine, Rounding.exact_int, Rounding.exact_round,
    exactTotals, DocumentLine.exactVat, List.map_cons, List.map_nil, List.sum_cons, List.sum_nil,
    add_zero, Int.zero_add]

theorem Copy.totals_eq (c : Copy) (lines : List DocumentLine) : c.totals lines = exactTotals lines := by
  have hline : ∀ l : DocumentLine, (⟨0, 0, 0⟩ : Totals).addLine .exact
      (SalesRepository.lineTotals l.quantity l.unitPriceExcludingTax l.vatRateBasisPoints) =
        exactTotals [l] := by
    intro l
    simp only [SalesRepository.lineTotals, Totals.addLine, Rounding.exact_int, exactTotals,
      DocumentLine.exactVat, List.map_cons, List.map_nil, List.sum_cons, List.sum_nil, add_zero,
      Int.zero_add]
  cases c with
  | saleList => exact reduceLines_eq hline lines
  | saleDetail => exact reduceViews_eq hline lines
  | purchaseList => exact reduceLines_eq hline lines
  | purchaseDetail => exact reduceViews_eq hline lines
  | invoiceList => exact reduceLines_eq hline lines
  | invoiceDetail => exact reduceViews_eq hline lines
  | salesReport => exact ReportsRepository.totals_eq lines
  | purchasesReport => exact ReportsRepository.totals_eq lines

def listCopy : DocKind → Copy
  | .sale => .saleList
  | .purchase => .purchaseList

def detailCopy : DocKind → Copy
  | .sale => .saleDetail
  | .purchase => .purchaseDetail

def reportCopy : DocKind → Copy
  | .sale => .salesReport
  | .purchase => .purchasesReport

/-- The documents a report is about. -/
def Db.reported (db : Db) (kind : DocKind) (enterpriseId : Uuid) (dateFrom dateTo : UtcDate) :
    List Document :=
  (db.documents kind).rows.filter fun d =>
    d.enterpriseId = enterpriseId ∧ d.status = .confirmed ∧ dateFrom ≤ d.date ∧ d.date ≤ dateTo

/-- What the methods show of the document `d`: each the amounts its own copy computes from the
lines. -/
structure Shows (T : Texts) (db : Db) (kind : DocKind) (d : Document) : Prop where
  list : ∀ query page, (exec (DocumentMethods.findMany kind.repository T d.enterpriseId query) db).1 =
    .ok page → ∀ item ∈ page.items, item.id = d.id → item.totals = (listCopy kind).totals d.lines
  detail : ∃ view, (exec (DocumentMethods.findByIdOrThrow kind.repository d.enterpriseId d.id) db).1 =
    .ok view ∧ view.totals = (detailCopy kind).totals d.lines
  invoiceList : kind = .sale → ∀ query page,
    (exec (InvoicingRepository.findMany T d.enterpriseId query) db).1 = .ok page →
      ∀ item, some item ∈ page.items → item.saleId = d.id →
        item.totals = Copy.invoiceList.totals d.lines
  invoice : kind = .sale → ∀ i ∈ db.salesInvoices.rows, i.saleId = d.id → ∃ view,
    (exec (InvoicingRepository.findByIdOrThrow d.enterpriseId i.id) db).1 = .ok (some view) ∧
      view.saleId = d.id ∧ view.totals = Copy.invoiceDetail.totals d.lines
  /-- A report adds up what its copy computes for each document, in all and day by day. -/
  report : ∀ query view, (exec (ReportsRepository.report .exact T kind d.enterpriseId query) db).1 = .ok view →
    view.totals = sumTotals ((db.reported kind d.enterpriseId view.dateFrom view.dateTo).map fun x =>
        (reportCopy kind).totals x.lines) ∧
      ∀ point ∈ view.byDay, point.totals = sumTotals
        (((db.reported kind d.enterpriseId view.dateFrom view.dateTo).filter fun x =>
          dayKey x.date = point.date).map fun x => (reportCopy kind).totals x.lines)

/-- One request about products: any enterprise changes a price, a rate, a name, or adds a product. -/
inductive ProductEdit (T : Texts) (db : Db) : Db → Prop where
  | create (e : Uuid) (input : CreateProductInput) (draw : Draw) (now : Instant) :
      ProductEdit T db (Request.serve T e ⟨.createProduct input, draw, now⟩ db).2
  | update (e id : Uuid) (input : UpdateProductInput) (draw : Draw) (now : Instant) :
      ProductEdit T db (Request.serve T e ⟨.updateProduct id input, draw, now⟩ db).2
  | deactivate (e id : Uuid) (draw : Draw) (now : Instant) :
      ProductEdit T db (Request.serve T e ⟨.deactivateProduct id, draw, now⟩ db).2

/-! ## What the methods show -/

section
variable {T : Texts} {db db' : Db} {kind : DocKind} {d : Document}

theorem DocumentLine.sum_totals (lines : List DocumentLine) (c : Copy) :
    sumTotals (lines.map DocumentLine.totals) = c.totals lines := by
  rw [sumTotals_eq, c.totals_eq]

/-- An item of a page comes from one of the rows. -/
theorem mem_page {ρ α : Type} {query : PageQuery} {item : ρ → α} {rows : List ρ} {x : α}
    (h : x ∈ (query.of item rows).items) : ∃ r ∈ rows, item r = x := by
  obtain ⟨r, hr, rfl⟩ := List.mem_map.1 h
  exact ⟨r, List.mem_of_mem_drop (List.mem_of_mem_take hr), rfl⟩

theorem mem_findMany {ρ : Type} [Keyed ρ Uuid] {t : TenantTable ρ} {e : Uuid} {cond : ρ → Bool}
    {order : ρ → ρ → Bool} {r : ρ} (h : r ∈ t.findMany e cond order db) : r ∈ (t.get db).rows :=
  (List.mem_filter.1 (List.mem_mergeSort.1 h)).1

theorem list_totals (hd : (db.documents kind).find? d.id = some d) {query : ListDocumentsQuery}
    {page : Paged DocumentListItem}
    (h : (exec (DocumentMethods.findMany kind.repository T d.enterpriseId query) db).1 = .ok page) :
    ∀ item ∈ page.items, item.id = d.id → item.totals = (listCopy kind).totals d.lines := by
  rw [DocumentMethods.findMany, exec_ask] at h
  cases h
  intro item hitem hid
  obtain ⟨x, hx, rfl⟩ := mem_page hitem
  have hmem : x ∈ (db.documents kind).rows := by
    have := mem_findMany hx
    rwa [Stock.repository_kind] at this
  have hsame : x = d := by
    have hfound := Table.find?_of_mem hmem
    rw [show Keyed.key x = d.id from hid, hd] at hfound
    exact (Option.some.inj hfound).symm
  rw [hsame]
  exact DocumentLine.sum_totals d.lines _

theorem detail_totals (hd : (db.documents kind).find? d.id = some d) :
    ∃ view, (exec (DocumentMethods.findByIdOrThrow kind.repository d.enterpriseId d.id) db).1 =
      .ok view ∧ view.totals = (detailCopy kind).totals d.lines := by
  have howned : (documents kind.repository.kind).findOwned kind.repository.notFound d.enterpriseId
      d.id db = .ok d := by
    have hfind : ((documents kind.repository.kind).get db).find? d.id = some d := by
      rw [Stock.repository_kind]
      exact hd
    simp only [TenantTable.findOwned, hfind]
    exact if_neg (not_not.2 rfl)
  have hget : DocumentMethods.getOrThrow kind.repository d.enterpriseId d.id db = .ok (d, db) :=
    ask_of_ok howned
  refine ⟨db.documentView kind.repository.kind d, ?_, DocumentLine.sum_totals d.lines _⟩
  rw [exec, DocumentMethods.findByIdOrThrow, bind_of_ok hget]
  rfl

theorem invoiceList_totals (hd : db.sales.find? d.id = some d) {query : ListSalesInvoicesQuery}
    {page : Paged (Option SalesInvoiceListItem)}
    (h : (exec (InvoicingRepository.findMany T d.enterpriseId query) db).1 = .ok page) :
    ∀ item, some item ∈ page.items → item.saleId = d.id →
      item.totals = Copy.invoiceList.totals d.lines := by
  rw [InvoicingRepository.findMany, exec_ask] at h
  cases h
  intro item hitem hsale
  obtain ⟨i, -, hi⟩ := mem_page hitem
  obtain ⟨sale, hfound, rfl⟩ := Option.map_eq_some_iff.1 hi
  rw [show i.saleId = d.id from hsale, hd] at hfound
  rw [← Option.some.inj hfound]
  exact DocumentLine.sum_totals d.lines _

theorem invoice_totals (hd : db.sales.find? d.id = some d) {i : SalesInvoice}
    (hi : i ∈ db.salesInvoices.rows) (howner : i.enterpriseId = d.enterpriseId)
    (hsale : i.saleId = d.id) :
    ∃ view, (exec (InvoicingRepository.findByIdOrThrow d.enterpriseId i.id) db).1 =
      .ok (some view) ∧ view.saleId = d.id ∧ view.totals = Copy.invoiceDetail.totals d.lines := by
  have hfind : db.salesInvoices.find? i.id = some i := Table.find?_of_mem hi
  refine ⟨toInvoiceView i (db.documentView .sale d), ?_, rfl, DocumentLine.sum_totals d.lines _⟩
  rw [InvoicingRepository.findByIdOrThrow, exec_ask, Db.getInvoiceOrThrow]
  simp only [hfind, howner, ne_eq, not_true_eq_false, if_false, hsale, hd]
  rfl

/-! ## Reports -/

/-- What an accumulator holds after the documents `docs`. -/
structure DailyAccumulator.Holds (acc : DailyAccumulator) (docs : List Document) : Prop where
  totals : acc.totals = sumTotals (docs.map fun x => exactTotals x.lines)
  keys : (acc.byDay.map Prod.fst).Nodup
  dates : ∀ kp ∈ acc.byDay, kp.2.date = kp.1
  days : ∀ kp ∈ acc.byDay, kp.2.totals = sumTotals
    ((docs.filter fun x => dayKey x.date = kp.1).map fun x => exactTotals x.lines)
  all : ∀ x ∈ docs, dayKey x.date ∈ acc.byDay.map Prod.fst

theorem Document.reported_totals (d : Document) :
    (d.reported .exact).totals = exactTotals d.lines := ReportsRepository.totals_eq d.lines

/-- The documents filed under a key. -/
theorem map_reported_filter (docs : List Document) (key : String) :
    ((docs.map (Document.reported .exact)).filter fun d => d.key = key).map Reported.totals =
      (docs.filter fun x => dayKey x.date = key).map fun x => exactTotals x.lines := by
  have htotals : (Reported.totals ∘ Document.reported .exact) = fun x => exactTotals x.lines :=
    funext Document.reported_totals
  have hkey : ∀ d : Document, (d.reported .exact).key = dayKey d.date := fun _ => rfl
  rw [List.filter_map, List.map_map, htotals]
  simp only [Function.comp_def, hkey]

theorem DailyAccumulator.holds_foldl (docs : List Document) :
    (docs.foldl (fun acc x => acc.add .exact x.date (ReportsRepository.totals .exact x.lines))
      ({} : DailyAccumulator)).Holds docs := by
  have htotals : (Reported.totals ∘ Document.reported .exact) = fun x => exactTotals x.lines :=
    funext Document.reported_totals
  have hacc : docs.foldl (fun acc x => acc.add .exact x.date
      (ReportsRepository.totals .exact x.lines)) ({} : DailyAccumulator) = _ :=
    List.foldl_map.symm.trans (accumulated .exact (docs.map (Document.reported .exact)))
  rw [hacc]
  refine ⟨?_, nodup_groups _, fun kp hkp => ?_, fun kp hkp => ?_, fun x hx => ?_⟩
  · rw [sumIn_exact, List.map_map, htotals, sumTotals_eq_sum]
  · rw [point_filed hkp]
    rfl
  · rw [point_filed hkp, ← map_reported_filter, sumTotals_eq_sum, ← sumIn_exact]
    rfl
  · exact mem_keys_groups.2 ⟨x.reported .exact, List.mem_map_of_mem hx, rfl⟩

theorem report_totals {e : Uuid} {query : ReportPeriodQuery} {view : ReportView}
    (h : (exec (ReportsRepository.report .exact T kind e query) db).1 = .ok view) :
    view.totals = sumTotals ((db.reported kind e view.dateFrom view.dateTo).map fun x =>
        (reportCopy kind).totals x.lines) ∧
      ∀ point ∈ view.byDay, point.totals = sumTotals
        (((db.reported kind e view.dateFrom view.dateTo).filter fun x =>
          dayKey x.date = point.date).map fun x => (reportCopy kind).totals x.lines) := by
  rw [ReportsRepository.report, exec_ask] at h
  cases h
  simp only [Copy.totals_eq]
  have hholds := DailyAccumulator.holds_foldl
    (db.reported kind e (query.dateFrom.getD (startOfCurrentMonth db.now))
      (query.dateTo.getD (db.now : Int)))
  refine ⟨hholds.totals, fun point hpoint => ?_⟩
  obtain ⟨kp, hkp, rfl⟩ := List.mem_map.1 (List.mem_mergeSort.1 hpoint)
  rw [hholds.dates kp hkp]
  exact hholds.days kp hkp

/-! ## Product changes -/

/-- Only the products, and the clock, differ. -/
def OnlyProducts (db db' : Db) : Prop := db' = { db with products := db'.products, now := db'.now }

/-- A method that writes the products table only. -/
def WritesProducts {α : Type} (m : Transaction α) : Prop :=
  ∀ db a db', m db = .ok (a, db') → OnlyProducts db db'

theorem writesProducts_create (row : Instant → Product) : WritesProducts (products.create row) := by
  intro db a db' h
  simp only [TenantTable.create] at h
  split at h
  · cases h
  · cases h
    rfl

theorem writesProducts_update {id : Uuid} {f : Instant → Product → Product}
    {hf : ∀ now r, Keyed.key (f now r) = Keyed.key r} : WritesProducts (products.update id f hf) := by
  intro db a db' h
  simp only [TenantTable.update] at h
  split at h
  · cases h
  · split at h
    · cases h
    · cases h
      rfl

theorem writesProducts_mapped {message : String} {α : Type} {m : Transaction α}
    (h : WritesProducts m) : WritesProducts (withUniqueCodeConflictMapped message m) := by
  intro db a db' hok
  refine h db a db' ?_
  simp only [withUniqueCodeConflictMapped, mapError] at hok
  cases hm : m db with
  | error e =>
    rw [hm] at hok
    cases hok
  | ok r =>
    rw [hm] at hok
    cases hok
    rfl

/-- Behind a lookup. -/
theorem writesProducts_bind {α β : Type} {q : Db → Except ApiError α} {m : Transaction β}
    (h : WritesProducts m) : WritesProducts (ask q >>= fun _ => m) := by
  intro db b db' hok
  obtain ⟨a, s, hask, hm⟩ := bind_ok hok
  obtain ⟨-, rfl⟩ := ask_ok hask
  exact h s b db' hm

theorem onlyProducts_serve {α : Type} {op : Operation α} {e : Uuid} {draw : Draw} {now : Instant}
    (h : WritesProducts (op.run T e draw)) :
    OnlyProducts db (Request.serve T e ⟨op, draw, now⟩ db).2 := by
  simp only [Request.serve, exec]
  cases hop : op.run T e draw { db with now := now } with
  | error err => rfl
  | ok r =>
    have honly : OnlyProducts { db with now := now } r.2 := h _ r.1 r.2 hop
    exact honly

theorem ProductEdit.onlyProducts (h : ProductEdit T db db') : OnlyProducts db db' := by
  cases h with
  | create e input draw now =>
    exact onlyProducts_serve (writesProducts_mapped (writesProducts_create _))
  | update e id input draw now =>
    exact onlyProducts_serve (writesProducts_bind (writesProducts_mapped writesProducts_update))
  | deactivate e id draw now => exact onlyProducts_serve (writesProducts_bind writesProducts_update)

/-- Any number of them. -/
theorem onlyProducts_edits (h : Relation.ReflTransGen (ProductEdit T) db db') :
    OnlyProducts db db' := by
  induction h with
  | refl => rfl
  | tail _ hstep ih =>
    rw [OnlyProducts, hstep.onlyProducts, ih]

/-- What is shown needs the document, and that its invoices belong to its enterprise. -/
theorem shows (hd : (db.documents kind).find? d.id = some d)
    (hinvoices : kind = .sale → ∀ i ∈ db.salesInvoices.rows, i.saleId = d.id →
      i.enterpriseId = d.enterpriseId) : Shows T db kind d where
  list _ _ h := list_totals hd h
  detail := detail_totals hd
  invoiceList hk query page h := by
    subst hk
    exact invoiceList_totals hd h
  invoice hk i hi hsale := by
    have howner := hinvoices hk i hi hsale
    subst hk
    exact invoice_totals hd hi howner hsale
  report _ _ h := report_totals h

end

/-- Every view of a sale or purchase shows the exact amounts of its lines, in a database that calls
lead to and after any changes of products there. -/
theorem every_view_agrees {T : Texts} {db : Db} (hr : Reached T db) (kind : DocKind) {d : Document}
    (hd : (db.documents kind).find? d.id = some d) :
    (∀ db', Relation.ReflTransGen (ProductEdit T) db db' → Shows T db' kind d) ∧
      (∀ c : Copy, c.totals d.lines = exactTotals d.lines) ∧
      (exactTotals d.lines).totalIncludingTax =
        (exactTotals d.lines).totalExcludingTax + (exactTotals d.lines).totalVat ∧
      ∀ lines, lines.Perm d.lines → ∀ c : Copy, c.totals lines = c.totals d.lines := by
  refine ⟨fun db' hedits => ?_, fun c => c.totals_eq d.lines, exactTotals_including d.lines,
    fun lines hperm c => ?_⟩
  · have honly := onlyProducts_edits hedits
    have hsame : (db'.documents kind).find? d.id = some d := by
      rw [honly]
      cases kind <;> exact hd
    refine shows hsame fun hk i hi hsale => ?_
    subst hk
    rw [honly] at hi
    obtain ⟨sale, hfound, howner⟩ := hr.intact.sales i hi
    rw [hsale] at hfound
    have hsale' : sale = d := Option.some.inj (hfound.symm.trans hd)
    rw [← howner, hsale']
  · rw [c.totals_eq, c.totals_eq, exactTotals_perm hperm]

/-- The draft sale of `shop`, before and after a change of its product. -/
theorem every_view_agrees_shop :
    ∃ d, shop.sales.find? 11 = some d ∧ Shows plainTexts shop .sale d ∧
      Shows plainTexts (Request.serve plainTexts (16 ^ 24)
        ⟨.updateProduct 7 { sellingPriceExcludingTax := some 900 }, ⟨13, id⟩, 6⟩ shop).2 .sale d := by
  have hsale : (shop.sales.find? 11).map Document.id = some 11 := by decide +kernel
  obtain ⟨d, hd, hid⟩ := Option.map_eq_some_iff.1 hsale
  have hfound : (shop.documents .sale).find? d.id = some d := by rw [hid]; exact hd
  have hviews := (every_view_agrees reached_shop .sale hfound).1
  exact ⟨d, hd, hviews _ .refl, hviews _ (.single (.update _ 7 _ _ 6))⟩

end Gescom.Erp
