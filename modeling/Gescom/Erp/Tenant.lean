import Gescom.Erp.Invoices
import Gescom.Erp.Reports

/-!
# The rows of one enterprise

`Db.restrict` keeps the rows of some enterprises. `Db.Intact` is what the repositories maintain
without row-level security: a reference never leaves an enterprise, and a number is written with the
identifier of its owner. `boundary e` is what confines a call of enterprise `e`: it sees the rows of
`e` and leaves the others as they are.
-/

namespace Gescom.Erp

open Confinement

def Db.restrict (p : Uuid → Bool) (db : Db) : Db where
  enterprises := db.enterprises.filter fun r => p r.id
  customers := db.customers.filter fun r => p r.enterpriseId
  suppliers := db.suppliers.filter fun r => p r.enterpriseId
  products := db.products.filter fun r => p r.enterpriseId
  movements := db.movements.filter fun r => p r.enterpriseId
  sales := db.sales.filter fun r => p r.enterpriseId
  purchases := db.purchases.filter fun r => p r.enterpriseId
  salesInvoices := db.salesInvoices.filter fun r => p r.enterpriseId
  salesInvoiceCounters := db.salesInvoiceCounters.filter fun r => p r.enterpriseId
  accounts := db.accounts.filter fun r => p r.enterpriseId
  journalEntries := db.journalEntries.filter fun r => p r.enterpriseId
  journalEntryCounters := db.journalEntryCounters.filter fun r => p r.enterpriseId
  now := db.now

/-- The rows of `e`, without the clock. -/
def Db.rowsOf (e : Uuid) (db : Db) : Db := { db.restrict (· == e) with now := 0 }

/-- The rows of the other enterprises. -/
def Db.rowsOfOthers (e : Uuid) (db : Db) : Db := { db.restrict (· != e) with now := 0 }

def Db.tenants (db : Db) : List Uuid := db.enterprises.rows.map Enterprise.id

/-- The identifiers of all rows. -/
def Db.ids (db : Db) : List Uuid :=
  db.customers.rows.map Party.id ++ db.suppliers.rows.map Party.id ++
    db.products.rows.map Product.id ++ db.movements.map (·.id) ++
    db.sales.rows.map Document.id ++ db.purchases.rows.map Document.id ++
    db.salesInvoices.rows.map SalesInvoice.id ++ db.accounts.rows.map Account.id ++
    db.journalEntries.rows.map JournalEntry.id

/-! ## References -/

/-- The row exists and belongs to `e`. -/
def Owns {ρ : Type} [Keyed ρ Uuid] (t : Table ρ) (owner : ρ → Uuid) (e id : Uuid) : Prop :=
  ∃ r, t.find? id = some r ∧ owner r = e

structure Document.RefsOk (db : Db) (kind : DocKind) (d : Document) : Prop where
  party : Owns (db.parties kind) Party.enterpriseId d.enterpriseId d.partyId
  lines : ∀ l ∈ d.lines, Owns db.products Product.enterpriseId d.enterpriseId l.productId

structure JournalEntry.RefsOk (db : Db) (en : JournalEntry) : Prop where
  owner : ∀ l ∈ en.lines, l.enterpriseId = en.enterpriseId
  accounts : ∀ l ∈ en.lines, Owns db.accounts Account.enterpriseId en.enterpriseId l.accountId

/-- A number of a series, written with the identifier of the enterprise. -/
def Db.Numbered (db : Db) (series : Series) (e : Uuid) (number : String) : Prop :=
  e ∈ db.tenants ∧ ∃ n, number = series.number e n

structure Db.Intact (db : Db) : Prop where
  documents : ∀ kind, ∀ d ∈ (db.documents kind).rows, d.RefsOk db kind
  movements : ∀ m ∈ db.movements, Owns db.products Product.enterpriseId m.enterpriseId m.productId
  sales : ∀ i ∈ db.salesInvoices.rows, Owns db.sales Document.enterpriseId i.enterpriseId i.saleId
  invoiceNumbers : ∀ i ∈ db.salesInvoices.rows, db.Numbered .salesInvoice i.enterpriseId i.number
  entries : ∀ en ∈ db.journalEntries.rows, en.RefsOk db
  entryNumbers : ∀ en ∈ db.journalEntries.rows, db.Numbered .journalEntry en.enterpriseId en.number

/-- No two enterprises share the eight characters that begin their numbers. -/
def Db.DistinctPrefixes (db : Db) : Prop :=
  ∀ e ∈ db.tenants, ∀ e' ∈ db.tenants, slice8Upper e = slice8Upper e' → e = e'

/-- What the calls of `e` rely on and keep. -/
structure Db.Serves (e : Uuid) (db : Db) : Prop where
  intact : db.Intact
  prefixes : db.DistinctPrefixes
  tenant : e ∈ db.tenants

def boundary (e : Uuid) : Boundary Db Db where
  inv := Db.Serves e
  view := Db.restrict (· == e)
  rest := Db.rowsOfOthers e

@[simp] theorem boundary_view (e : Uuid) (db : Db) : (boundary e).view db = db.restrict (· == e) := rfl

@[simp] theorem now_restrict (p : Uuid → Bool) (db : Db) : (db.restrict p).now = db.now := rfl

/-- The identifier drawn is not the one of a row of another enterprise. -/
def Draw.FreshFor (draw : Draw) (e : Uuid) (db : Db) : Prop := draw.id ∉ (db.rowsOfOthers e).ids

section
variable {ρ : Type} [Keyed ρ Uuid] {t : Table ρ} {owner : ρ → Uuid} {e id : Uuid}

theorem Owns.insert (h : Owns t owner e id) (r : ρ) : Owns (t.insert r) owner e id := by
  obtain ⟨x, hx, howner⟩ := h
  exact ⟨x, Table.find?_insert_of_some hx, howner⟩

theorem Owns.update (h : Owns t owner e id) {k : Uuid} {f : ρ → ρ}
    (hf : ∀ r, Keyed.key (f r) = Keyed.key r) (howner : ∀ r, owner (f r) = owner r) :
    Owns (t.update k f hf) owner e id := by
  obtain ⟨x, hx, hxe⟩ := h
  rw [Owns, Table.find?_update]
  by_cases hk : id = k
  · rw [if_pos hk, ← hk, hx]
    exact ⟨f x, rfl, (howner x).trans hxe⟩
  · rw [if_neg hk]
    exact ⟨x, hx, hxe⟩

/-- What `e` owns is found among its rows. -/
theorem Owns.find?_filter (h : Owns t owner e id) :
    (t.filter fun r => owner r == e).find? id = t.find? id := by
  obtain ⟨x, hx, howner⟩ := h
  rw [Table.find?_filter, hx, Option.filter_some_pos]
  exact beq_iff_eq.2 howner

/-- A lookup finds nothing, a row of `e`, or a row that is not among those of `e`. -/
theorem find?_owned (t : Table ρ) (owner : ρ → Uuid) (e id : Uuid) :
    (t.find? id = none ∧ (t.filter fun r => owner r == e).find? id = none) ∨
      (∃ r, t.find? id = some r ∧ owner r = e ∧
        (t.filter fun r => owner r == e).find? id = some r) ∨
      ∃ r, t.find? id = some r ∧ owner r ≠ e ∧
        (t.filter fun r => owner r == e).find? id = none := by
  rw [Table.find?_filter]
  cases t.find? id with
  | none => exact .inl ⟨rfl, rfl⟩
  | some r =>
    by_cases howner : owner r = e
    · exact .inr (.inl ⟨r, rfl, howner, Option.filter_some_pos (beq_iff_eq.2 howner)⟩)
    · exact .inr (.inr ⟨r, rfl, howner, Option.filter_some_neg (beq_eq_false_iff_ne.2 howner)⟩)

end

/-! ## What the views of a row read -/

section
variable {db : Db} {kind : DocKind} {e : Uuid}

theorem parties_restrict (p : Uuid → Bool) (db : Db) (kind : DocKind) :
    (db.restrict p).parties kind = (db.parties kind).filter fun r => p r.enterpriseId := by
  cases kind <;> rfl

theorem documents_restrict (p : Uuid → Bool) (db : Db) (kind : DocKind) :
    (db.restrict p).documents kind = (db.documents kind).filter fun r => p r.enterpriseId := by
  cases kind <;> rfl

theorem partyName_view {d : Document} (h : d.RefsOk db kind) (he : d.enterpriseId = e) :
    (db.restrict (· == e)).partyName kind d = db.partyName kind d := by
  have hparty : Owns (db.parties kind) Party.enterpriseId e d.partyId := he ▸ h.party
  rw [Db.partyName, parties_restrict, hparty.find?_filter]
  rfl

theorem lineView_view {l : DocumentLine}
    (h : Owns db.products Product.enterpriseId e l.productId) :
    (db.restrict (· == e)).lineView l = db.lineView l := by
  have hfind : (db.restrict (· == e)).products.find? l.productId = db.products.find? l.productId :=
    h.find?_filter
  simp only [Db.lineView, hfind]

theorem documentView_view {d : Document} (h : d.RefsOk db kind) (he : d.enterpriseId = e) :
    (db.restrict (· == e)).documentView kind d = db.documentView kind d := by
  have hlines : d.lines.map (db.restrict (· == e)).lineView = d.lines.map db.lineView :=
    List.map_congr_left fun l hl => lineView_view (he ▸ h.lines l hl)
  simp only [Db.documentView, partyName_view h he, hlines]

theorem documentListItem_view {d : Document} (h : d.RefsOk db kind) (he : d.enterpriseId = e) :
    (db.restrict (· == e)).documentListItem kind d = db.documentListItem kind d := by
  simp only [Db.documentListItem, partyName_view h he]

theorem entryView_view {en : JournalEntry} (h : en.RefsOk db) (he : en.enterpriseId = e) :
    (db.restrict (· == e)).entryView en = db.entryView en := by
  have hlines : en.lines.map (db.restrict (· == e)).entryLineView = en.lines.map db.entryLineView := by
    refine List.map_congr_left fun l hl => ?_
    have haccount : Owns db.accounts Account.enterpriseId e l.accountId := he ▸ h.accounts l hl
    have hfind : (db.restrict (· == e)).accounts.find? l.accountId = db.accounts.find? l.accountId :=
      haccount.find?_filter
    simp only [Db.entryLineView, hfind]
  simp only [Db.entryView, hlines]

/-- The sale of an invoice, with what its views read. -/
theorem sale_view (hI : db.Intact) {i : SalesInvoice} (hi : i ∈ db.salesInvoices.rows)
    (he : i.enterpriseId = e) : ∃ sale, db.sales.find? i.saleId = some sale ∧
      (db.restrict (· == e)).sales.find? i.saleId = some sale ∧
      (db.restrict (· == e)).documentView .sale sale = db.documentView .sale sale ∧
      (db.restrict (· == e)).partyName .sale sale = db.partyName .sale sale := by
  have hsale : Owns db.sales Document.enterpriseId e i.saleId := he ▸ hI.sales i hi
  have hfind : (db.restrict (· == e)).sales.find? i.saleId = db.sales.find? i.saleId :=
    hsale.find?_filter
  obtain ⟨sale, hfound, howner⟩ := hsale
  have hrefs : sale.RefsOk db .sale := hI.documents .sale sale (Table.mem_of_find? hfound)
  exact ⟨sale, hfound, hfind.trans hfound, documentView_view hrefs howner,
    partyName_view hrefs howner⟩

end

end Gescom.Erp
