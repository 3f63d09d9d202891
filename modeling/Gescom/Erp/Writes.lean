import Mathlib.Logic.Relation
import Gescom.Lib.Guarantee
import Gescom.Erp.NonInterference
import Gescom.Erp.TrialBalance

/-!
# What the ERP repositories write

`Write e` is a write of enterprise `e`: one row inserted or changed, under the conditions that the
methods check first. `operation_writes` says that a call does nothing else: from the database before
it to the one after it there are such writes, none where it throws.
-/

namespace Gescom.Erp

open Confinement Relation

/-- The two sides of an entry come to the same, and a line has one of them. -/
structure JournalEntry.DoubleEntry (en : JournalEntry) : Prop where
  balanced : (sumLines en.lines).totalDebit = (sumLines en.lines).totalCredit
  oneSide : ∀ l ∈ en.lines, 0 ≤ l.debitAmount ∧ 0 ≤ l.creditAmount ∧
    (0 < l.debitAmount ↔ ¬ 0 < l.creditAmount)

/-- A write of `e`, with what its method has checked. -/
inductive Write (e : Uuid) (db : Db) : Db → Prop where
  | newProduct (p : Product) (owner : p.enterpriseId = e) :
      Write e db (products.put db (db.products.insert p))
  | product (id : Uuid) (f : Product → Product) (hf : ∀ p, (f p).id = p.id)
      (owned : Owns db.products Product.enterpriseId e id)
      (owner : ∀ p, (f p).enterpriseId = p.enterpriseId) :
      Write e db (products.put db (db.products.update id f hf))
  | newCustomer (c : Party) (owner : c.enterpriseId = e) :
      Write e db (customers.put db (db.customers.insert c))
  | customer (id : Uuid) (f : Party → Party) (hf : ∀ c, (f c).id = c.id)
      (owned : Owns db.customers Party.enterpriseId e id)
      (owner : ∀ c, (f c).enterpriseId = c.enterpriseId) :
      Write e db (customers.put db (db.customers.update id f hf))
  | movement (m : StockMovement) (owner : m.enterpriseId = e)
      (product : Owns db.products Product.enterpriseId e m.productId)
      (covered : 0 ≤ db.level e m.productId + m.delta) :
      Write e db { db with movements := db.movements ++ [m] }
  | newDocument (kind : DocKind) (d : Document) (owner : d.enterpriseId = e)
      (draft : d.status = .draft) :
      Write e db ((documents kind).put db ((db.documents kind).insert d))
  | confirmed (kind : DocKind) (d : Document) (now : Instant) (owner : d.enterpriseId = e)
      (found : (db.documents kind).find? d.id = some d) (draft : d.status = .draft) :
      Write e db ((documents kind).put db
        ((db.documents kind).update d.id (Document.confirm now) fun _ => rfl))
  | cancelled (kind : DocKind) (d : Document) (now : Instant) (owner : d.enterpriseId = e)
      (found : (db.documents kind).find? d.id = some d) (draft : d.status = .draft) :
      Write e db ((documents kind).put db
        ((db.documents kind).update d.id (Document.cancel now) fun _ => rfl))
  | newInvoice (i : SalesInvoice) (sale : Document) (n : Nat) (owner : i.enterpriseId = e)
      (found : db.sales.find? i.saleId = some sale) (ofSale : sale.enterpriseId = e)
      (confirmed : sale.status = .confirmed) (accepted : invoicingRepository.refuses db i = false) :
      Write e db (invoicingRepository.commit e i n db)
  | settled (o : Outcome) (i : SalesInvoice) (now : Instant) (owner : i.enterpriseId = e)
      (found : db.salesInvoices.find? i.id = some i) (issued : i.status = .issued) :
      Write e db (salesInvoices.put db
        (db.salesInvoices.update i.id (o.update now) (o.update_id now)))
  | newAccount (a : Account) (owner : a.enterpriseId = e) :
      Write e db (accounts.put db (db.accounts.insert a))
  | account (id : Uuid) (f : Account → Account) (hf : ∀ a, (f a).id = a.id)
      (owned : Owns db.accounts Account.enterpriseId e id)
      (columns : ∀ a, (f a).enterpriseId = a.enterpriseId ∧ (f a).code = a.code) :
      Write e db (accounts.put db (db.accounts.update id f hf))
  | newEntry (en : JournalEntry) (n : Nat) (owner : en.enterpriseId = e)
      (doubleEntry : en.DoubleEntry) (accounts : ∀ l ∈ en.lines, db.HasAccount e l.accountId)
      (accepted : journalRepository.refuses db en = false) :
      Write e db (journalRepository.commit e en n db)

/-- Any number of writes of `e`. -/
abbrev Writes (e : Uuid) : Db → Db → Prop := ReflTransGen (Write e)

instance (e : Uuid) : IsPreorder Db (Writes e) where
  refl _ := .refl
  trans _ _ _ := .trans

variable {e id : Uuid} {draw : Draw} {db : Db}

/-! ## Statements -/

namespace TenantTable

variable {ρ : Type} [Keyed ρ Uuid] {t : TenantTable ρ} {P : Db → Prop} {G : Db → Db → Prop}

theorem find_guaranteed [IsPreorder Db G] (missing : String) :
    Guaranteed G P (t.findByIdOrThrow missing e id)
      fun r db => (t.get db).find? id = some r ∧ t.owner r = e :=
  .ask fun _ _ _ h => findOwned_ok h

theorem create_guaranteed {row : Instant → ρ}
    (h : ∀ db, G db (t.put db ((t.get db).insert (row db.now)))) :
    Guaranteed G P (t.create row) fun _ _ => True := by
  intro db r db' _ hok
  unfold create at hok
  simp only at hok
  split_ifs at hok
  cases hok
  exact ⟨h db, trivial⟩

theorem update_guaranteed {f : Instant → ρ → ρ} {hf : ∀ now r, Keyed.key (f now r) = Keyed.key r}
    (h : ∀ db, P db → G db (t.put db ((t.get db).update id (f db.now) (hf db.now)))) :
    Guaranteed G P (t.update id f hf) fun _ _ => True := by
  intro db r db' hp hok
  unfold update at hok
  cases hfound : (t.get db).find? id with
  | none =>
    rw [hfound] at hok
    cases hok
  | some x =>
    simp only [hfound] at hok
    split_ifs at hok
    cases hok
    exact ⟨h db hp, trivial⟩

end TenantTable

theorem withUniqueCodeConflictMapped_guaranteed {α : Type} {G : Db → Db → Prop} {P : Db → Prop}
    {Q : α → Db → Prop} {m : Transaction α} (message : String) (h : Guaranteed G P m Q) :
    Guaranteed G P (withUniqueCodeConflictMapped message m) Q :=
  h.mapError _

/-! ## Products, customers and accounts -/

namespace ProductsRepository

theorem create_writes (input : CreateProductInput) :
    Guaranteed (Writes e) (fun _ => True) (create e input draw) fun _ _ => True :=
  withUniqueCodeConflictMapped_guaranteed _ <|
    TenantTable.create_guaranteed fun _ => .single (.newProduct _ rfl)

theorem update_writes (input : UpdateProductInput) :
    Guaranteed (Writes e) (fun _ => True) (update e id input) fun _ _ => True := by
  refine (TenantTable.find_guaranteed "Produit introuvable").bind fun p => ?_
  refine withUniqueCodeConflictMapped_guaranteed _ (TenantTable.update_guaranteed fun db hp => ?_)
  exact .single (.product id (input.apply db.now) (fun _ => rfl) ⟨p, hp⟩ fun _ => rfl)

theorem deactivate_writes :
    Guaranteed (Writes e) (fun _ => True) (deactivate e id) fun _ _ => True := by
  refine (TenantTable.find_guaranteed "Produit introuvable").bind fun p => ?_
  refine TenantTable.update_guaranteed fun db hp => ?_
  exact .single (.product id (fun p => { p with isActive := false, updatedAt := db.now })
    (fun _ => rfl) ⟨p, hp⟩ fun _ => rfl)

end ProductsRepository

namespace CustomersRepository

theorem create_writes (input : CreateCustomerInput) :
    Guaranteed (Writes e) (fun _ => True) (create e input draw) fun _ _ => True :=
  TenantTable.create_guaranteed fun _ => .single (.newCustomer _ rfl)

theorem update_writes (input : UpdateCustomerInput) :
    Guaranteed (Writes e) (fun _ => True) (update e id input) fun _ _ => True := by
  refine (TenantTable.find_guaranteed "Client introuvable").bind fun c => ?_
  refine TenantTable.update_guaranteed fun db hc => ?_
  exact .single (.customer id (input.apply db.now) (fun _ => rfl) ⟨c, hc⟩ fun _ => rfl)

theorem deactivate_writes :
    Guaranteed (Writes e) (fun _ => True) (deactivate e id) fun _ _ => True := by
  refine (TenantTable.find_guaranteed "Client introuvable").bind fun c => ?_
  refine TenantTable.update_guaranteed fun db hc => ?_
  exact .single (.customer id (fun c => { c with isActive := false, updatedAt := db.now })
    (fun _ => rfl) ⟨c, hc⟩ fun _ => rfl)

end CustomersRepository

namespace AccountsRepository

theorem create_writes (input : CreateAccountInput) :
    Guaranteed (Writes e) (fun _ => True) (create e input draw) fun _ _ => True := by
  rw [createAccount_eq]
  refine (withUniqueCodeConflictMapped_guaranteed _ <| TenantTable.create_guaranteed
    fun db => .single (.newAccount (newAccount e input draw db.now) rfl)).bind fun _ => ?_
  exact .pure _ fun _ _ => trivial

theorem update_writes (input : UpdateAccountInput) :
    Guaranteed (Writes e) (fun _ => True) (update e id input) fun _ _ => True := by
  refine (TenantTable.find_guaranteed "Compte introuvable").bind fun a => ?_
  refine (TenantTable.update_guaranteed fun db ha => ?_).bind fun _ => .query _
  exact .single (.account id (input.apply db.now) (fun _ => rfl) ⟨a, ha⟩ fun _ => ⟨rfl, rfl⟩)

end AccountsRepository

/-! ## Stock -/

theorem applyMovement_writes {P : Db → Prop} {input : CreateStockMovementInput}
    {key : Option String} {origin : Option (DocKind × Uuid)} {fresh : Uuid}
    (hP : ∀ db ms, P db → P { db with movements := ms }) :
    Guaranteed (Writes e) P (applyMovement e input key origin fresh) fun _ => P := by
  intro db result db' hp hok
  rcases applyMovement_ok hok with ⟨rfl, -⟩ |
    ⟨product, hproduct, howner, -, hmovement, hproductId, -, hcovered, rfl⟩
  · exact ⟨.refl, hp⟩
  · have howns : Owns db.products Product.enterpriseId e result.movement.productId := by
      rw [hproductId]
      exact ⟨product, hproduct, howner⟩
    exact ⟨.single (.movement result.movement hmovement howns hcovered), hP db _ hp⟩

/-! ## `confirm` and `cancel` -/

namespace DocumentMethods

variable {r : Stock.DocumentRepository}

/-- The movements are in a table of their own. -/
theorem documents_movements (kind : DocKind) (db : Db) (ms : List StockMovement) :
    ({ db with movements := ms } : Db).documents kind = db.documents kind := by
  cases kind <;> rfl

/-- The document, as `e` has it. -/
def Has (kind : DocKind) (e : Uuid) (d : Document) (db : Db) : Prop :=
  (db.documents kind).find? d.id = some d ∧ d.enterpriseId = e

theorem getOrThrow_has : Guaranteed (Writes e) (fun _ => True) (getOrThrow r e id)
    fun d db => d.id = id ∧ Has r.kind e d db := by
  refine (TenantTable.find_guaranteed r.notFound).conseq (fun _ h => h) fun d db h => ?_
  obtain ⟨hfind, howner⟩ := h
  obtain rfl : d.id = id := Table.key_of_find? hfind
  exact ⟨rfl, hfind, howner⟩

theorem getWithTracked_has : Guaranteed (Writes e) (fun _ => True) (getWithTracked r e id)
    fun found db => found.1.id = id ∧ Has r.kind e found.1 db := by
  refine .ask fun db found _ hok => ?_
  cases hfound : (documents r.kind).findOwned r.notFound e id db with
  | error err =>
    rw [hfound] at hok
    cases hok
  | ok d =>
    rw [hfound] at hok
    cases hok
    obtain ⟨hfind, howner⟩ := TenantTable.findOwned_ok hfound
    obtain rfl : d.id = id := Table.key_of_find? hfind
    exact ⟨rfl, hfind, howner⟩

theorem confirm_writes :
    Guaranteed (Writes e) (fun _ => True) (confirm r e id draw) fun _ _ => True := by
  refine getWithTracked_has.bind fun found => .ite (fun _ => .throw _) fun hdraft => ?_
  have hstatus : found.1.status = .draft := not_not.1 hdraft
  -- the movements leave the document where it is
  have hloop : ∀ l ∈ found.2.zipIdx, Guaranteed (Writes e)
      (fun db => found.1.id = id ∧ Has r.kind e found.1 db)
      (confirmLine r e found.1.id (draw.lineId l.2) l.1)
      fun _ db => found.1.id = id ∧ Has r.kind e found.1 db := by
    intro l _
    refine (applyMovement_writes fun db ms h => ⟨h.1, ?_, h.2.2⟩).map _ fun _ _ h => h
    rw [documents_movements]
    exact h.2.1
  refine (Guaranteed.forM hloop).bind fun _ => ?_
  refine (TenantTable.update_guaranteed fun db h => ?_).bind fun _ => .query _
  obtain ⟨rfl, hfind, howner⟩ := h
  exact .single (.confirmed r.kind found.1 db.now howner hfind hstatus)

theorem cancel_writes :
    Guaranteed (Writes e) (fun _ => True) (cancel r e id) fun _ _ => True := by
  refine getOrThrow_has.bind fun d => .ite (fun _ => .throw _) fun hdraft => ?_
  refine (TenantTable.update_guaranteed fun db h => ?_).bind fun _ => .query _
  obtain ⟨rfl, hfind, howner⟩ := h
  exact .single (.cancelled r.kind d db.now howner hfind (not_not.1 hdraft))

end DocumentMethods

/-! ## `markPaid` and `void` -/

theorem settle_writes (o : Outcome) :
    Guaranteed (Writes e) (fun _ => True) (InvoicingRepository.settle o e id) fun _ _ => True := by
  refine Guaranteed.bind (Q := fun found db => found.1.id = id ∧
    db.salesInvoices.find? found.1.id = some found.1 ∧ found.1.enterpriseId = e)
    (.ask fun db found _ hok => ?_) fun found => .ite (fun _ => .throw _) fun hissued => ?_
  · unfold Db.getInvoiceOrThrow at hok
    split at hok
    · cases hok
    · rename_i i hfind
      split_ifs at hok with howner
      cases hok
      obtain rfl : i.id = id := Table.key_of_find? hfind
      exact ⟨rfl, hfind, not_not.1 howner⟩
  · refine (TenantTable.update_guaranteed fun db h => ?_).bind fun _ => .pure _ fun _ _ => trivial
    obtain ⟨rfl, hfind, howner⟩ := h
    exact .single (.settled o found.1 db.now howner hfind (not_not.1 hissued))

/-! ## `create` -/

namespace Repository

variable {ι φ ρ ν : Type} [DocumentRow ρ] {R : Repository ι φ ρ ν} {c : Create ι}

/-- What a `create` has checked when it inserts a row. -/
structure Inserted (R : Repository ι φ ρ ν) (c : Create ι) (draw : Draw) (db : Db) (found : φ)
    (row : ρ) : Prop where
  checked : R.precheck c.input = none
  gathered : R.gather c.enterpriseId c.input db = .ok found
  drawn : row = R.row c found (R.sequence c.enterpriseId db) draw db.now
  accepted : R.refuses db row = false

/-- A `create` that answers leaves the database as it was, or with one row more. -/
theorem create_guaranteed {G : Db → Db → Prop} [IsPreorder Db G] {P : Db → Prop}
    (h : ∀ db found row, R.Inserted c draw db found row →
      G db (R.commit c.enterpriseId row (R.sequence c.enterpriseId db) db)) :
    Guaranteed G P (R.create c draw) fun _ _ => True := by
  unfold create
  split
  · exact .throw _
  · rename_i hcheck
    have hreplay : ∀ {Q : Db → Prop}, Guaranteed G Q (R.replay c) fun _ _ => True := .query _
    have hinsert : Guaranteed G (fun _ => True) (R.insertNew c draw) fun _ _ => True := by
      refine Guaranteed.bind (Q := fun found db => R.gather c.enterpriseId c.input db = .ok found)
        (.ask fun _ _ _ hok => hok) fun found db result db' hfound hok => ?_
      unfold insertRow at hok
      simp only at hok
      split_ifs at hok with hrefused
      cases hok
      exact ⟨h db found _ ⟨hcheck, hfound, rfl, by simpa using hrefused⟩, trivial⟩
    have htransaction : Guaranteed G P (R.transaction c draw) fun _ _ => True := by
      refine hreplay.bind fun replayed => ?_
      cases replayed with
      | none => exact hinsert
      | some view => exact .pure _ fun _ _ => trivial
    refine htransaction.rescue fun e => ?_
    · refine .ite (fun _ => hreplay.bind fun replayed => ?_) fun _ => .throw _
      cases replayed with
      | none => exact .query _
      | some view => exact .pure _ fun _ _ => trivial

end Repository

/-- A new sale or purchase is a draft. -/
theorem document_create_writes {kind : DocKind} {partyMissing : String}
    {unitPrice : DocumentLineInput → Option Product → Int} {c : Create DocumentInput} :
    Guaranteed (Writes c.enterpriseId) (fun _ => True)
      ((documentRepository kind partyMissing unitPrice).create c draw) fun _ _ => True := by
  refine Repository.create_guaranteed fun db found row h => ?_
  obtain rfl := h.drawn
  exact .single (.newDocument kind _ rfl rfl)

/-- The sale that the lookups of an invoice have found. -/
theorem invoice_gather {e : Uuid} {input : CreateSalesInvoiceInput} {found : InvoiceFound}
    (h : invoicingRepository.gather e input db = .ok found) :
    ∃ sale, db.sales.find? input.saleId = some sale ∧ sale.enterpriseId = e ∧
      sale.status = .confirmed := by
  simp only [Repository.gather, invoicingRepository, List.foldlM_cons] at h
  cases hsale : findSale e input.saleId {} db with
  | error err =>
    rw [hsale] at h
    cases h
  | ok found' =>
    unfold findSale at hsale
    split at hsale
    · cases hsale
    · rename_i sale hfind
      split_ifs at hsale with howner hstatus
      exact ⟨sale, hfind, not_not.1 howner, not_not.1 hstatus⟩

theorem invoice_create_writes {c : Create CreateSalesInvoiceInput} :
    Guaranteed (Writes c.enterpriseId) (fun _ => True) (invoicingRepository.create c draw)
      fun _ _ => True := by
  refine Repository.create_guaranteed fun db found row h => ?_
  obtain ⟨sale, hfind, howner, hstatus⟩ := invoice_gather h.gathered
  obtain rfl := h.drawn
  exact .single (.newInvoice _ sale _ rfl hfind howner hstatus h.accepted)

theorem checked_oneSide {input : CreateJournalEntryInput} (h : input.check = none) :
    ∀ l ∈ input.lines, (0 < l.debitAmount ↔ ¬ 0 < l.creditAmount) := by
  intro l hl
  by_contra hsides
  have hany : (input.lines.any fun l =>
      decide (0 < l.debitAmount) == decide (0 < l.creditAmount)) = true := by
    refine List.any_eq_true.2 ⟨l, hl, ?_⟩
    rw [beq_iff_eq, decide_eq_decide]
    tauto
  unfold CreateJournalEntryInput.check at h
  dsimp only at h
  rw [if_pos hany] at h
  split at h
  · cases h
  · cases h

theorem newEntry_doubleEntry {c : Create CreateJournalEntryInput} (h : Linked c db) (n : Nat)
    (draw : Draw) (now : Instant) : (newEntry c n draw now).DoubleEntry where
  balanced := (newEntry_accepted h n draw now).balanced
  oneSide l hl := by
    obtain ⟨p, hp, rfl⟩ := List.mem_map.1 hl
    have hside := checked_oneSide h.1 p.1 (List.fst_mem_of_mem_zipIdx hp)
    exact ⟨Int.natCast_nonneg _, Int.natCast_nonneg _, by simpa [newEntryLine] using hside⟩

theorem entry_create_writes {c : Create CreateJournalEntryInput} :
    Guaranteed (Writes c.enterpriseId) (fun _ => True) (journalRepository.create c draw)
      fun _ _ => True := by
  refine Repository.create_guaranteed fun db found row h => ?_
  have hfound : findAccounts c.enterpriseId c.input.lines db = .ok found := by
    have hgather := h.gathered
    simp only [Repository.gather, journalRepository, List.foldlM_cons, List.foldlM_nil] at hgather
    cases hf : findAccounts c.enterpriseId c.input.lines db with
    | error err =>
      rw [hf] at hgather
      cases hgather
    | ok found' =>
      rw [hf] at hgather
      exact hgather
  obtain rfl := h.drawn
  have hlinked : Linked c db := ⟨h.checked, findAccounts_ok hfound⟩
  exact .single (.newEntry _ _ rfl (newEntry_doubleEntry hlinked _ _ _)
    (newEntry_accepted hlinked _ _ _).account h.accepted)

/-! ## Every call -/

theorem Operation.writes {α : Type} (op : Operation α) (T : Texts) :
    Guaranteed (Writes e) (fun _ => True) (op.run T e draw) fun _ _ => True := by
  cases op with
  | createProduct input => exact ProductsRepository.create_writes input
  | updateProduct id input => exact ProductsRepository.update_writes input
  | deactivateProduct id => exact ProductsRepository.deactivate_writes
  | createCustomer input => exact CustomersRepository.create_writes input
  | updateCustomer id input => exact CustomersRepository.update_writes input
  | deactivateCustomer id => exact CustomersRepository.deactivate_writes
  | createMovement input key => exact applyMovement_writes fun _ _ h => h
  | create k input key =>
    cases k with
    | sale => exact document_create_writes
    | purchase => exact document_create_writes
    | invoice => exact invoice_create_writes
    | entry => exact entry_create_writes
  | confirmDocument kind id => exact DocumentMethods.confirm_writes
  | cancelDocument kind id => exact DocumentMethods.cancel_writes
  | settleInvoice o id => exact settle_writes o
  | createAccount input => exact AccountsRepository.create_writes input
  | updateAccount id input => exact AccountsRepository.update_writes input
  | findDocument kind id => exact DocumentMethods.getOrThrow_has.bind fun _ => .query _
  | _ =>
    rw [Operation.run]
    exact .query _

/-- From the database before a call to the one after it there are only writes of its enterprise. -/
theorem Request.writes (T : Texts) (e : Uuid) (r : Request) (db : Db) :
    Writes e { db with now := r.now } (r.serve T e db).2 :=
  (r.operation.writes T).exec _

/-! ## Histories -/

/-- A call, or what other modules write: enterprises and suppliers. -/
inductive Event where
  | call (e : Uuid) (r : Request)
  | elsewhere (enterprises : Table Enterprise) (suppliers : Table Party)

def Event.apply (T : Texts) (db : Db) : Event → Db
  | call e r => (r.serve T e db).2
  | elsewhere enterprises suppliers => { db with enterprises := enterprises, suppliers := suppliers }

/-- The database after the calls of any enterprises, in their order. -/
def after (T : Texts) (db : Db) (events : List Event) : Db := events.foldl (Event.apply T) db

/-- What each write gives, and the changes from outside, a history gives. -/
theorem after_guaranteed {G : Db → Db → Prop} [IsPreorder Db G]
    (write : ∀ e db db', Write e db db' → G db db')
    (clock : ∀ (db : Db) (now : Instant), G db { db with now := now })
    (elsewhere : ∀ (db : Db) enterprises suppliers,
      G db { db with enterprises := enterprises, suppliers := suppliers })
    (T : Texts) (db : Db) (events : List Event) : G db (after T db events) := by
  have hwrites : ∀ e db db', Writes e db db' → G db db' := by
    intro e db db' h
    induction h with
    | refl => exact refl db
    | tail _ hlast ih => exact IsTrans.trans _ _ _ ih (write e _ _ hlast)
  induction events generalizing db with
  | nil => exact refl db
  | cons event events ih =>
    refine IsTrans.trans _ _ _ ?_ (ih (event.apply T db))
    cases event with
    | call e r => exact IsTrans.trans _ _ _ (clock db r.now) (hwrites e _ _ (r.writes T e db))
    | elsewhere enterprises suppliers => exact elsewhere db enterprises suppliers

end Gescom.Erp
