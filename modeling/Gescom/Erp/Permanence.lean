import Gescom.Erp.Writes

/-!
# What an enterprise has read stays

Movements and journal entries are only added, lines never change, a document leaves `DRAFT` once and
an invoice `ISSUED` once, the code of an account stays. `history_permanent` says it of the answers of
the API: what was read of an invoice, a document, an entry or an account is read again after any
calls of any enterprises, names and labels apart.
-/

namespace Gescom.Erp

open Confinement

/-! ## What a row may become -/

/-- A draft is confirmed or cancelled, once. -/
def Document.Next : Document → Document → Prop :=
  Once (fun d => d.status = .draft) fun d d' => ∃ now, d' = d.confirm now ∨ d' = d.cancel now

/-- An issued invoice is paid or void, once. -/
def SalesInvoice.Next : SalesInvoice → SalesInvoice → Prop :=
  Once (fun i => i.status = .issued) fun i i' => ∃ o now, i' = Outcome.update o now i

def Party.Next (c c' : Party) : Prop := c'.enterpriseId = c.enterpriseId

def Product.Next (p p' : Product) : Prop := p'.enterpriseId = p.enterpriseId

/-- Only the label of an account changes. -/
def Account.Next (a a' : Account) : Prop := a'.enterpriseId = a.enterpriseId ∧ a'.code = a.code

theorem Document.Next.refl (d : Document) : d.Next d := .inl rfl

theorem SalesInvoice.Next.refl (i : SalesInvoice) : i.Next i := .inl rfl

theorem Party.Next.refl (c : Party) : c.Next c := rfl

theorem Product.Next.refl (p : Product) : p.Next p := rfl

theorem Account.Next.refl (a : Account) : a.Next a := ⟨rfl, rfl⟩

theorem Document.Next.trans {d d' d'' : Document} (h : d.Next d') (h' : d'.Next d'') : d.Next d'' := by
  refine Once.trans ?_ h h'
  rintro d d' ⟨now, rfl | rfl⟩ hdraft <;> cases hdraft

theorem SalesInvoice.Next.trans {i i' i'' : SalesInvoice} (h : i.Next i') (h' : i'.Next i'') :
    i.Next i'' := by
  refine Once.trans ?_ h h'
  rintro i i' ⟨o, now, rfl⟩ hissued
  rw [Outcome.update_status] at hissued
  cases o <;> cases hissued

theorem Account.Next.trans {a a' a'' : Account} (h : a.Next a') (h' : a'.Next a'') : a.Next a'' :=
  ⟨h'.1.trans h.1, h'.2.trans h.2⟩

/-- A double entry on accounts of its enterprise. -/
structure JournalEntry.Booked (accounts : Table Account) (en : JournalEntry) : Prop where
  doubleEntry : en.DoubleEntry
  accounts : ∀ l ∈ en.lines, Owns accounts Account.enterpriseId en.enterpriseId l.accountId

/-- An account stays its enterprise's. -/
theorem JournalEntry.Booked.stays {t u : Table Account} {en : JournalEntry} (h : en.Booked t)
    (hstays : t.Stays Account.Next u) : en.Booked u := by
  refine ⟨h.doubleEntry, fun l hl => ?_⟩
  obtain ⟨a, hfind, howner⟩ := h.accounts l hl
  obtain ⟨a', hfind', howner', -⟩ := hstays l.accountId a hfind
  exact ⟨a', hfind', howner'.trans howner⟩

/-- The tables of a later database beside those of an earlier one. -/
structure Db.Later (db db' : Db) : Prop where
  customers : db.customers.Stays Party.Next db'.customers
  products : db.products.Stays Product.Next db'.products
  movements : db.movements <+: db'.movements
  documents : ∀ kind, (db.documents kind).Stays Document.Next (db'.documents kind)
  salesInvoices : db.salesInvoices.Stays SalesInvoice.Next db'.salesInvoices
  accounts : db.accounts.Stays Account.Next db'.accounts
  journalEntries :
    Appended (JournalEntry.Booked db'.accounts) db.journalEntries.rows db'.journalEntries.rows

theorem Db.Later.refl (db : Db) : db.Later db where
  customers := .refl Party.Next.refl _
  products := .refl Product.Next.refl _
  movements := List.prefix_rfl
  documents _ := .refl Document.Next.refl _
  salesInvoices := .refl SalesInvoice.Next.refl _
  accounts := .refl Account.Next.refl _
  journalEntries := .refl _

theorem Db.Later.trans {db db' db'' : Db} (h : db.Later db') (h' : db'.Later db'') :
    db.Later db'' where
  customers := h.customers.trans (fun _ _ _ hr hr' => hr'.trans hr) h'.customers
  products := h.products.trans (fun _ _ _ hr hr' => hr'.trans hr) h'.products
  movements := h.movements.trans h'.movements
  documents kind := (h.documents kind).trans (fun _ _ _ hr hr' => hr.trans hr') (h'.documents kind)
  salesInvoices := h.salesInvoices.trans (fun _ _ _ hr hr' => hr.trans hr') h'.salesInvoices
  accounts := h.accounts.trans (fun _ _ _ hr hr' => hr.trans hr') h'.accounts
  journalEntries := (h.journalEntries.imp fun _ hen => hen.stays h'.accounts).trans h'.journalEntries

instance : IsPreorder Db Db.Later where
  refl := Db.Later.refl
  trans _ _ _ := Db.Later.trans

/-! ## One write -/

variable {e : Uuid} {db db' : Db}

theorem later_put_documents {kind : DocKind} {u : Table Document}
    (h : (db.documents kind).Stays Document.Next u) : db.Later ((documents kind).put db u) := by
  have hdocuments : ∀ kind', (db.documents kind').Stays Document.Next
      (((documents kind).put db u).documents kind') := by
    intro kind'
    cases kind <;> cases kind' <;> first | exact h | exact .refl Document.Next.refl _
  cases kind with
  | sale => exact { Db.Later.refl db with documents := hdocuments }
  | purchase => exact { Db.Later.refl db with documents := hdocuments }

/-- The counters are not among what is read. -/
theorem later_setLastNumber (h : db.Later db') (series : Series) (e : Uuid) (n : Nat) :
    db.Later (db'.setLastNumber series e n) := by
  cases series with
  | salesInvoice => exact { h with documents := fun kind => h.documents kind }
  | journalEntry => exact { h with documents := fun kind => h.documents kind }

theorem Write.later (h : Write e db db') : db.Later db' := by
  have hself : db.Later db := .refl db
  cases h with
  | newProduct p _ => exact { hself with products := Table.stays_insert Product.Next.refl _ p }
  | product id f hf _ howner =>
    exact { hself with products := Table.stays_update Product.Next.refl hf fun p _ => howner p }
  | newCustomer c _ => exact { hself with customers := Table.stays_insert Party.Next.refl _ c }
  | customer id f hf _ howner =>
    exact { hself with customers := Table.stays_update Party.Next.refl hf fun c _ => howner c }
  | movement m _ _ _ => exact { hself with movements := List.prefix_append _ _ }
  | newDocument kind d _ _ => exact later_put_documents (Table.stays_insert Document.Next.refl _ d)
  | confirmed kind d now _ hfound hdraft =>
    refine later_put_documents (Table.stays_update Document.Next.refl _ fun d' hd' => ?_)
    obtain rfl : d = d' := Option.some.inj (hfound.symm.trans hd')
    exact .inr ⟨hdraft, now, .inl rfl⟩
  | cancelled kind d now _ hfound hdraft =>
    refine later_put_documents (Table.stays_update Document.Next.refl _ fun d' hd' => ?_)
    obtain rfl : d = d' := Option.some.inj (hfound.symm.trans hd')
    exact .inr ⟨hdraft, now, .inr rfl⟩
  | newInvoice i sale n _ _ _ _ _ =>
    have hinsert : db.Later { db with salesInvoices := db.salesInvoices.insert i } :=
      { hself with salesInvoices := Table.stays_insert SalesInvoice.Next.refl _ i }
    exact later_setLastNumber hinsert .salesInvoice e n
  | settled o i now _ hfound hissued =>
    refine { hself with salesInvoices := Table.stays_update SalesInvoice.Next.refl (o.update_id now) fun i' hi' => ?_ }
    obtain rfl : i = i' := Option.some.inj (hfound.symm.trans hi')
    exact .inr ⟨hissued, o, now, rfl⟩
  | newAccount a _ =>
    exact { hself with
      accounts := Table.stays_insert Account.Next.refl _ a
      journalEntries := .refl _ }
  | account id f hf _ hcolumns =>
    exact { hself with
      accounts := Table.stays_update Account.Next.refl hf fun a _ => hcolumns a
      journalEntries := .refl _ }
  | newEntry en n howner hdouble haccounts haccepted =>
    have hrows : (db.journalEntries.insert en).rows = db.journalEntries.rows ++ [en] :=
      Table.rows_insert (Repository.accepted_id haccepted)
    have hbooked : en.Booked db.accounts :=
      ⟨hdouble, fun l hl => howner ▸ haccounts l hl⟩
    have hinsert : db.Later { db with journalEntries := db.journalEntries.insert en } :=
      { hself with journalEntries := hrows ▸ Appended.one hbooked _ }
    exact later_setLastNumber hinsert .journalEntry e n

/-- Enterprises, suppliers and the clock are not among these tables. -/
theorem later_elsewhere (db : Db) (enterprises : Table Enterprise) (suppliers : Table Party)
    (now : Instant) :
    db.Later { db with enterprises := enterprises, suppliers := suppliers, now := now } :=
  { Db.Later.refl db with
    documents := fun kind => by cases kind <;> exact .refl Document.Next.refl _ }

theorem after_later (T : Texts) (db : Db) (events : List Event) : db.Later (after T db events) :=
  after_guaranteed (fun _ _ _ h => h.later)
    (fun db now => later_elsewhere db db.enterprises db.suppliers now)
    (fun db enterprises suppliers => later_elsewhere db enterprises suppliers db.now) T db events

/-! ## What is read -/

/-- A line without the code and the name that its product has today. -/
def LineView.unnamed (l : LineView) : LineView := { l with productCode := "", productName := "" }

def DocumentView.unnamed (v : DocumentView) : DocumentView :=
  { v with partyName := "", lines := v.lines.map LineView.unnamed }

def SalesInvoiceView.unnamed (v : SalesInvoiceView) : SalesInvoiceView :=
  { v with customerName := "", lines := v.lines.map LineView.unnamed }

/-- An entry without the labels that its accounts have today. -/
def JournalEntryView.unlabelled (v : JournalEntryView) : JournalEntryView :=
  { v with lines := v.lines.map fun l => { l with accountLabel := "" } }

def DocumentView.confirm (now : Instant) (v : DocumentView) : DocumentView :=
  { v with status := .confirmed, confirmedAt := some now, updatedAt := now }

def DocumentView.cancel (now : Instant) (v : DocumentView) : DocumentView :=
  { v with status := .cancelled, cancelledAt := some now, updatedAt := now }

def Outcome.updateView (o : Outcome) (now : Instant) (v : SalesInvoiceView) : SalesInvoiceView :=
  match o with
  | .paid => { v with status := .paid, paidAt := some now, updatedAt := now }
  | .void => { v with status := .void, voidedAt := some now, updatedAt := now }

/-- What a document that was read as `v` may be read as later. -/
def DocumentView.Next (v v' : DocumentView) : Prop :=
  Once (fun v => v.status = .draft) (fun v v' => ∃ now, v' = v.confirm now ∨ v' = v.cancel now)
    v.unnamed v'.unnamed

def SalesInvoiceView.Next (v v' : SalesInvoiceView) : Prop :=
  Once (fun v => v.status = .issued) (fun v v' => ∃ o now, v' = Outcome.updateView o now v)
    v.unnamed v'.unnamed

/-- The totals of an account only grow. -/
structure AccountView.Next (v v' : AccountView) : Prop where
  account : v.account.Next v'.account
  totalDebit : v.totalDebit ≤ v'.totalDebit
  totalCredit : v.totalCredit ≤ v'.totalCredit

/-- The answer of a query. -/
def Db.Answers {α : Type} (db : Db) (m : Transaction α) (a : α) : Prop := (exec m db).1 = .ok a

/-- What was read in `db`, read in `db'`. -/
structure Permanent (db db' : Db) : Prop where
  invoice : ∀ e id v, db.Answers (InvoicingRepository.findByIdOrThrow e id) (some v) →
    ∃ v', db'.Answers (InvoicingRepository.findByIdOrThrow e id) (some v') ∧ v.Next v'
  document : ∀ (kind : DocKind) e id v,
    db.Answers (DocumentMethods.findByIdOrThrow kind.repository e id) v →
    ∃ v', db'.Answers (DocumentMethods.findByIdOrThrow kind.repository e id) v' ∧ v.Next v'
  entry : ∀ e id v, db.Answers (JournalRepository.findByIdOrThrow e id) v →
    ∃ v', db'.Answers (JournalRepository.findByIdOrThrow e id) v' ∧ v'.unlabelled = v.unlabelled
  account : ∀ e id v, db.Answers (AccountsRepository.findByIdOrThrow e id) v →
    ∃ v', db'.Answers (AccountsRepository.findByIdOrThrow e id) v' ∧ v.Next v'
  movements : db.movements <+: db'.movements

variable {id : Uuid}

theorem map_eq_ok {α β : Type} {f : α → β} {x : Except ApiError α} {b : β} :
    x.map f = .ok b ↔ ∃ a, x = .ok a ∧ f a = b := by
  cases x with
  | error err => simp [Except.map]
  | ok a => simp [Except.map]

theorem findOwned_iff {ρ : Type} [Keyed ρ Uuid] {t : TenantTable ρ} {missing : String} {r : ρ} :
    t.findOwned missing e id db = .ok r ↔ (t.get db).find? id = some r ∧ t.owner r = e := by
  refine ⟨TenantTable.findOwned_ok, fun ⟨hfind, howner⟩ => ?_⟩
  simp [TenantTable.findOwned, hfind, howner]

/-! ## Documents -/

/-- Names apart, the view of a document is its columns. -/
theorem documentView_unnamed (db db' : Db) (kind : DocKind) (d : Document) :
    (db'.documentView kind d).unnamed = (db.documentView kind d).unnamed := by
  simp only [DocumentView.unnamed, Db.documentView, List.map_map]
  rfl

theorem documentView_next {kind : DocKind} {d d' : Document} (h : d.Next d') :
    (db.documentView kind d).Next (db'.documentView kind d') := by
  rcases h with rfl | ⟨hdraft, now, rfl | rfl⟩
  · exact .inl (documentView_unnamed db db' kind d')
  · refine .inr ⟨hdraft, now, .inl ?_⟩
    exact congrArg (DocumentView.confirm now) (documentView_unnamed db db' kind d)
  · refine .inr ⟨hdraft, now, .inr ?_⟩
    exact congrArg (DocumentView.cancel now) (documentView_unnamed db db' kind d)

theorem answers_ask {α : Type} {q : Db → Except ApiError α} {a : α} :
    db.Answers (ask q) a ↔ q db = .ok a := by
  rw [Db.Answers, exec_ask]

theorem answers_document {kind : DocKind} {v : DocumentView} :
    db.Answers (DocumentMethods.findByIdOrThrow kind.repository e id) v ↔
      ∃ d, (db.documents kind).find? id = some d ∧ d.enterpriseId = e ∧
        db.documentView kind d = v := by
  have hask : DocumentMethods.findByIdOrThrow kind.repository e id = ask fun db =>
      ((documents kind).findOwned kind.repository.notFound e id db).map (db.documentView kind) := by
    funext db
    rw [DocumentMethods.findByIdOrThrow, DocumentMethods.getOrThrow, Stock.repository_kind]
    cases hfound : (documents kind).findOwned kind.repository.notFound e id db with
    | error err =>
      rw [TenantTable.findByIdOrThrow, bind_of_error (ask_of_error hfound), ask, hfound]
      rfl
    | ok d =>
      rw [TenantTable.findByIdOrThrow, bind_of_ok (ask_of_ok hfound), ask, hfound]
      rfl
  simp only [hask, answers_ask, map_eq_ok, findOwned_iff, and_assoc]
  rfl

theorem document_permanent {kind : DocKind} {v : DocumentView} (h : db.Later db')
    (hv : db.Answers (DocumentMethods.findByIdOrThrow kind.repository e id) v) :
    ∃ v', db'.Answers (DocumentMethods.findByIdOrThrow kind.repository e id) v' ∧ v.Next v' := by
  obtain ⟨d, hfind, howner, rfl⟩ := answers_document.1 hv
  obtain ⟨d', hfind', hnext⟩ := h.documents kind id d hfind
  have howner' : d'.enterpriseId = d.enterpriseId := by
    rcases hnext with rfl | ⟨-, now, rfl | rfl⟩ <;> rfl
  exact ⟨db'.documentView kind d', answers_document.2 ⟨d', hfind', howner'.trans howner, rfl⟩,
    documentView_next hnext⟩

/-! ## Invoices -/

theorem answers_invoice {v : SalesInvoiceView} :
    db.Answers (InvoicingRepository.findByIdOrThrow e id) (some v) ↔
      ∃ i sale, db.salesInvoices.find? id = some i ∧ i.enterpriseId = e ∧
        db.sales.find? i.saleId = some sale ∧ toInvoiceView i (db.documentView .sale sale) = v := by
  rw [InvoicingRepository.findByIdOrThrow, answers_ask, Db.getInvoiceOrThrow]
  constructor
  · intro h
    cases hi : db.salesInvoices.find? id with
    | none =>
      rw [hi] at h
      cases h
    | some i =>
      simp only [hi] at h
      split_ifs at h with howner
      · cases h
      · cases hsale : db.sales.find? i.saleId with
        | none =>
          rw [hsale] at h
          cases h
        | some sale =>
          rw [hsale] at h
          cases h
          exact ⟨i, sale, rfl, not_not.1 howner, hsale, rfl⟩
  · rintro ⟨i, sale, hi, howner, hsale, rfl⟩
    simp only [hi, howner, hsale, ne_eq, not_true_eq_false, if_false]
    rfl

/-- Neither the status of a sale nor its dates are in the view of its invoice. -/
theorem toInvoiceView_unnamed {sale sale' : Document} (i : SalesInvoice) (h : sale.Next sale') :
    (toInvoiceView i (db'.documentView .sale sale')).unnamed =
      (toInvoiceView i (db.documentView .sale sale)).unnamed := by
  rcases h with rfl | ⟨-, now, rfl | rfl⟩ <;>
  · simp only [SalesInvoiceView.unnamed, toInvoiceView, Db.documentView, List.map_map]
    rfl

theorem invoice_permanent {v : SalesInvoiceView} (h : db.Later db')
    (hv : db.Answers (InvoicingRepository.findByIdOrThrow e id) (some v)) :
    ∃ v', db'.Answers (InvoicingRepository.findByIdOrThrow e id) (some v') ∧ v.Next v' := by
  obtain ⟨i, sale, hi, howner, hsale, rfl⟩ := answers_invoice.1 hv
  obtain ⟨i', hi', hnext⟩ := h.salesInvoices id i hi
  obtain ⟨sale', hsale', hsaleNext⟩ := h.documents .sale i.saleId sale hsale
  have hcolumns : i'.enterpriseId = i.enterpriseId ∧ i'.saleId = i.saleId := by
    rcases hnext with rfl | ⟨-, o, now, rfl⟩
    · exact ⟨rfl, rfl⟩
    · cases o <;> exact ⟨rfl, rfl⟩
  refine ⟨toInvoiceView i' (db'.documentView .sale sale'),
    answers_invoice.2 ⟨i', sale', hi', hcolumns.1.trans howner, ?_, rfl⟩, ?_⟩
  · rw [hcolumns.2]
    exact hsale'
  · have hview : (toInvoiceView i (db'.documentView .sale sale')).unnamed =
        (toInvoiceView i (db.documentView .sale sale)).unnamed := toInvoiceView_unnamed i hsaleNext
    rcases hnext with rfl | ⟨hissued, o, now, rfl⟩
    · exact .inl hview
    · refine .inr ⟨hissued, o, now, ?_⟩
      cases o with
      | paid => exact congrArg (Outcome.updateView .paid now) hview
      | void => exact congrArg (Outcome.updateView .void now) hview

/-! ## Journal entries and accounts -/

theorem answers_entry {v : JournalEntryView} :
    db.Answers (JournalRepository.findByIdOrThrow e id) v ↔
      ∃ en, db.journalEntries.find? id = some en ∧ en.enterpriseId = e ∧ db.entryView en = v := by
  simp only [JournalRepository.findByIdOrThrow, answers_ask, map_eq_ok, findOwned_iff, and_assoc]
  rfl

/-- The code of an account of an entry stays, and is found again. -/
theorem entryView_unlabelled {en : JournalEntry} (hen : en.Booked db.accounts) (h : db.Later db') :
    (db'.entryView en).unlabelled = (db.entryView en).unlabelled := by
  simp only [JournalEntryView.unlabelled, Db.entryView, List.map_map]
  congr 1
  refine List.map_congr_left fun l hl => ?_
  obtain ⟨a, ha, -⟩ := hen.accounts l hl
  obtain ⟨a', ha', -, hcode⟩ := h.accounts l.accountId a ha
  simp only [Function.comp, Db.entryLineView, ha, ha', Option.map_some, Option.getD_some, hcode]

theorem entry_permanent {v : JournalEntryView} (h : db.Later db')
    (hbooked : ∀ en ∈ db.journalEntries.rows, en.Booked db.accounts)
    (hv : db.Answers (JournalRepository.findByIdOrThrow e id) v) :
    ∃ v', db'.Answers (JournalRepository.findByIdOrThrow e id) v' ∧
      v'.unlabelled = v.unlabelled := by
  obtain ⟨en, hfind, howner, rfl⟩ := answers_entry.1 hv
  have hmem : en ∈ db.journalEntries.rows := Table.mem_of_find? hfind
  have hfind' : db'.journalEntries.find? id = some en := by
    obtain rfl : en.id = id := Table.key_of_find? hfind
    exact Table.find?_of_mem (h.journalEntries.mem hmem)
  exact ⟨db'.entryView en, answers_entry.2 ⟨en, hfind', howner, rfl⟩,
    entryView_unlabelled (hbooked en hmem) h⟩

/-- The lines of an enterprise on an account. -/
def Db.linesOn (db : Db) (e id : Uuid) : List JournalEntryLine :=
  db.entryLines.filter fun l => l.enterpriseId = e ∧ l.accountId = id

theorem answers_account {v : AccountView} :
    db.Answers (AccountsRepository.findByIdOrThrow e id) v ↔
      ∃ a, db.accounts.find? id = some a ∧ a.enterpriseId = e ∧
        (⟨a, (sumLines (db.linesOn e id)).totalDebit, (sumLines (db.linesOn e id)).totalCredit,
          (sumLines (db.linesOn e id)).totalDebit - (sumLines (db.linesOn e id)).totalCredit⟩ :
            AccountView) = v := by
  have hview : ∀ a : Account, a.id = id → toAccountView (aggregateBalances db e [id]) a =
      ⟨a, (sumLines (db.linesOn e id)).totalDebit, (sumLines (db.linesOn e id)).totalCredit,
        (sumLines (db.linesOn e id)).totalDebit - (sumLines (db.linesOn e id)).totalCredit⟩ := by
    rintro a rfl
    simp only [toAccountView, lookup_aggregateBalances (List.mem_singleton.2 rfl), Db.linesOn]
  simp only [AccountsRepository.findByIdOrThrow, answers_ask, map_eq_ok, findOwned_iff, and_assoc]
  refine exists_congr fun a => and_congr_right fun hfind => and_congr_right fun _ => ?_
  rw [hview a (Table.key_of_find? hfind)]

/-- Lines that are added have no negative side. -/
theorem linesOn_grows (h : db.Later db') (e id : Uuid) :
    (sumLines (db.linesOn e id)).totalDebit ≤ (sumLines (db'.linesOn e id)).totalDebit ∧
      (sumLines (db.linesOn e id)).totalCredit ≤ (sumLines (db'.linesOn e id)).totalCredit := by
  obtain ⟨new, hrows, hnew⟩ := h.journalEntries
  have hlines : db'.linesOn e id = db.linesOn e id ++
      (new.flatMap JournalEntry.lines).filter fun l => l.enterpriseId = e ∧ l.accountId = id := by
    rw [Db.linesOn, Db.entryLines, hrows, List.flatMap_append, List.filter_append]
    rfl
  have hnonnegative : ∀ l ∈ (new.flatMap JournalEntry.lines).filter fun l =>
      l.enterpriseId = e ∧ l.accountId = id, 0 ≤ l.debitAmount ∧ 0 ≤ l.creditAmount := by
    intro l hl
    obtain ⟨en, hen, hline⟩ := List.mem_flatMap.1 (List.mem_filter.1 hl).1
    obtain ⟨hdebit, hcredit, -⟩ := (hnew en hen).doubleEntry.oneSide l hline
    exact ⟨hdebit, hcredit⟩
  rw [hlines, sumLines_append]
  constructor
  · refine Int.le_add_of_nonneg_right (List.sum_nonneg fun x hx => ?_)
    obtain ⟨l, hl, rfl⟩ := List.mem_map.1 hx
    exact (hnonnegative l hl).1
  · refine Int.le_add_of_nonneg_right (List.sum_nonneg fun x hx => ?_)
    obtain ⟨l, hl, rfl⟩ := List.mem_map.1 hx
    exact (hnonnegative l hl).2

theorem account_permanent {v : AccountView} (h : db.Later db')
    (hv : db.Answers (AccountsRepository.findByIdOrThrow e id) v) :
    ∃ v', db'.Answers (AccountsRepository.findByIdOrThrow e id) v' ∧ v.Next v' := by
  obtain ⟨a, hfind, howner, rfl⟩ := answers_account.1 hv
  obtain ⟨a', hfind', hnext⟩ := h.accounts id a hfind
  obtain ⟨hdebit, hcredit⟩ := linesOn_grows h e id
  exact ⟨_, answers_account.2 ⟨a', hfind', hnext.1.trans howner, rfl⟩, hnext, hdebit, hcredit⟩

/-! ## The result -/

/-- What was read of an invoice, a document, an entry or an account is read again after any more
calls of any enterprises, and no movement is lost. -/
theorem history_permanent (T : Texts) (past future : List Event) :
    Permanent (after T {} past) (after T {} (past ++ future)) := by
  have hlater : (after T {} past).Later (after T {} (past ++ future)) := by
    have happend : after T {} (past ++ future) = after T (after T {} past) future :=
      List.foldl_append
    rw [happend]
    exact after_later T (after T {} past) future
  have hbooked : ∀ en ∈ (after T {} past).journalEntries.rows,
      en.Booked (after T {} past).accounts := by
    -- no entry was there before the history
    obtain ⟨new, hrows, hnew⟩ := (after_later T {} past).journalEntries
    intro en hen
    rw [hrows] at hen
    exact hnew en hen
  exact ⟨fun _ _ _ => invoice_permanent hlater, fun _ _ _ _ => document_permanent hlater,
    fun _ _ _ => entry_permanent hlater hbooked, fun _ _ _ => account_permanent hlater,
    hlater.movements⟩

end Gescom.Erp
