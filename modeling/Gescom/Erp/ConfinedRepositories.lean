import Gescom.Erp.Confined

/-!
# The repositories, method by method

Each method called with enterprise `e` is confined to the rows of `e`. A method that draws an
identifier is confined where the others have no row of that identifier.
-/

namespace Gescom.Erp

open Confinement
open Stock (DocumentRepository)

variable {ρ α : Type} [Keyed ρ Uuid] {t : TenantTable ρ} {e id : Uuid} {db : Db} {P : Db → Prop}
  {T : Texts} {draw : Draw}

/-! ## Lists -/

theorem of_congr {ρ : Type} {query : PageQuery} {item item' : ρ → α} {rows : List ρ}
    (h : ∀ r ∈ rows, item' r = item r) : query.of item' rows = query.of item rows := by
  have hitems : ((rows.drop ((query.page - 1) * query.pageSize)).take query.pageSize).map item' =
      ((rows.drop ((query.page - 1) * query.pageSize)).take query.pageSize).map item :=
    List.map_congr_left fun r hr => h r (List.mem_of_mem_drop (List.mem_of_mem_take hr))
  simp only [PageQuery.of, hitems]

/-- A list whose conditions and items read nothing of the others. -/
theorem list_confined (ht : t.Lawful) {query : PageQuery} {order : ρ → ρ → Bool}
    (cond : Db → ρ → Bool) (item : Db → ρ → α)
    (hcond : ∀ db, db.Intact → ∀ r ∈ (t.get db).rows, t.owner r = e →
      cond (db.restrict (· == e)) r = cond db r)
    (hitem : ∀ db, db.Intact → ∀ r ∈ (t.get db).rows, t.owner r = e →
      item (db.restrict (· == e)) r = item db r) :
    Confined (boundary e) P
      (ask fun db => .ok (query.of (item db) (t.findMany e (cond db) order db)) :
        Transaction (Paged α)) fun _ _ => True := by
  refine .ask (fun db hs _ => ?_) fun _ _ _ _ _ => trivial
  have hrows : t.findMany e (cond (db.restrict (· == e))) order (db.restrict (· == e)) =
      t.findMany e (cond db) order db := TenantTable.findMany_view ht (hcond db hs.intact)
  refine congrArg Except.ok ?_
  calc query.of (item (db.restrict (· == e)))
        (t.findMany e (cond (db.restrict (· == e))) order (db.restrict (· == e)))
      = query.of (item (db.restrict (· == e))) (t.findMany e (cond db) order db) := by rw [hrows]
    _ = query.of (item db) (t.findMany e (cond db) order db) :=
      of_congr fun r hr => hitem db hs.intact r (TenantTable.mem_findMany hr).1
        (TenantTable.mem_findMany hr).2

/-- The check that comes before an update by identifier alone. -/
theorem checked_confined (ht : t.Lawful) {missing : String} {m : Transaction α}
    {Q : α → Db → Prop}
    (hm : Confined (boundary e) (fun db => Owns (t.get db) t.owner e id) m Q) :
    Confined (boundary e) P (do
      let _ ← t.findByIdOrThrow missing e id
      m) Q := by
  refine (TenantTable.find_confined ht missing e id).bind fun r => ?_
  refine hm.conseq (fun db h => ?_) fun _ _ h => h
  exact ⟨r, h.2.1, h.2.2⟩

theorem true_of {m : Transaction α} {Q : α → Db → Prop} (h : Confined (boundary e) P m Q) :
    Confined (boundary e) P m fun _ _ => True :=
  h.conseq (fun _ hp => hp) fun _ _ _ => trivial

/-! ## Products and customers -/

namespace ProductsRepository

theorem findMany_confined (query : ListProductsQuery) :
    Confined (boundary e) P (findMany T e query) fun _ _ => True :=
  list_confined TenantTable.products_lawful _ _ (fun _ _ _ _ _ => rfl) fun _ _ _ _ _ => rfl

theorem findByIdOrThrow_confined :
    Confined (boundary e) P (findByIdOrThrow e id) fun _ _ => True :=
  true_of (TenantTable.find_confined TenantTable.products_lawful _ e id)

theorem create_confined (input : CreateProductInput) :
    Confined (boundary e) (draw.FreshFor e) (create e input draw) fun _ _ => True :=
  .mapError _ <| TenantTable.create_confined TenantTable.products_lawful (fun _ => rfl)
    (fun _ hp _ => hp) fun db h => intact_put_products h (keepsOwners_insert db.products _ _)

/-- An update of a product of `e`. -/
theorem row_confined {f : Instant → Product → Product} (hf : ∀ now p, (f now p).id = p.id)
    (hfo : ∀ now p, (f now p).enterpriseId = p.enterpriseId) :
    Confined (boundary e) (fun db => Owns (products.get db) products.owner e id)
      (products.update id f hf) fun _ _ => True :=
  true_of <| TenantTable.update_confined TenantTable.products_lawful hf hfo (fun _ h => h)
    fun db h => intact_put_products h (keepsOwners_update db.products (hf db.now) (hfo db.now))

theorem update_confined (input : UpdateProductInput) :
    Confined (boundary e) P (update e id input) fun _ _ => True :=
  checked_confined TenantTable.products_lawful
    (.mapError _ (row_confined (fun _ _ => by rfl) fun _ _ => by rfl))

theorem deactivate_confined : Confined (boundary e) P (deactivate e id) fun _ _ => True :=
  checked_confined TenantTable.products_lawful (row_confined (fun _ _ => by rfl) fun _ _ => by rfl)

end ProductsRepository

namespace CustomersRepository

theorem findMany_confined (query : ListCustomersQuery) :
    Confined (boundary e) P (findMany T e query) fun _ _ => True :=
  list_confined TenantTable.customers_lawful _ _ (fun _ _ _ _ _ => rfl) fun _ _ _ _ _ => rfl

theorem findByIdOrThrow_confined :
    Confined (boundary e) P (findByIdOrThrow e id) fun _ _ => True :=
  true_of (TenantTable.find_confined TenantTable.customers_lawful _ e id)

theorem create_confined (input : CreateCustomerInput) :
    Confined (boundary e) (draw.FreshFor e) (create e input draw) fun _ _ => True :=
  TenantTable.create_confined TenantTable.customers_lawful (fun _ => rfl) (fun _ hp _ => hp)
    fun db h => intact_put_customers h (keepsOwners_insert db.customers _ _)

/-- An update of a customer of `e`. -/
theorem row_confined {f : Instant → Party → Party} (hf : ∀ now c, (f now c).id = c.id)
    (hfo : ∀ now c, (f now c).enterpriseId = c.enterpriseId) :
    Confined (boundary e) (fun db => Owns (customers.get db) customers.owner e id)
      (customers.update id f hf) fun _ _ => True :=
  true_of <| TenantTable.update_confined TenantTable.customers_lawful hf hfo (fun _ h => h)
    fun db h => intact_put_customers h (keepsOwners_update db.customers (hf db.now) (hfo db.now))

theorem update_confined (input : UpdateCustomerInput) :
    Confined (boundary e) P (update e id input) fun _ _ => True :=
  checked_confined TenantTable.customers_lawful (row_confined (fun _ _ => by rfl) fun _ _ => by rfl)

theorem deactivate_confined : Confined (boundary e) P (deactivate e id) fun _ _ => True :=
  checked_confined TenantTable.customers_lawful (row_confined (fun _ _ => by rfl) fun _ _ => by rfl)

end CustomersRepository

/-! ## Stock -/

theorem movementByKey_view (key : String) :
    (db.restrict (· == e)).movementByKey e key = db.movementByKey e key := by
  have hmovements : (db.restrict (· == e)).movements =
      db.movements.filter fun m => m.enterpriseId == e := rfl
  rw [Db.movementByKey, hmovements, List.find?_filter]
  refine congrArg (fun q => db.movements.find? q) (funext fun m => ?_)
  by_cases howner : m.enterpriseId = e
  · simp [howner]
  · simp [howner]

theorem aggregateQuantities_view (ids : List Uuid) :
    (db.restrict (· == e)).ledger.aggregateQuantities e ids =
      db.ledger.aggregateQuantities e ids := by
  have hmovements : ((db.restrict (· == e)).ledger.movements.filter fun m =>
      m.enterpriseId = e ∧ m.productId ∈ ids) =
      db.ledger.movements.filter fun m => m.enterpriseId = e ∧ m.productId ∈ ids := by
    have hrestrict : (db.restrict (· == e)).ledger.movements =
        (db.movements.filter fun m => m.enterpriseId == e).map StockMovement.toMovement := rfl
    have hledger : db.ledger.movements = db.movements.map StockMovement.toMovement := rfl
    rw [hrestrict, hledger, List.filter_map, List.filter_map, List.filter_filter]
    refine congrArg (List.map _) (List.filter_congr fun m _ => ?_)
    by_cases howner : m.enterpriseId = e
    · simp [howner]
    · simp [howner]
  rw [Stock.Db.aggregateQuantities, hmovements]
  rfl

theorem level_view (productId : Uuid) :
    (db.restrict (· == e)).level e productId = db.level e productId := by
  simp only [Db.level, Stock.Db.level, aggregateQuantities_view]

theorem findTracked_view (productId : Uuid) :
    findTrackedProductOrThrow e productId (db.restrict (· == e)) =
      findTrackedProductOrThrow e productId db := by
  have hproducts : (db.restrict (· == e)).products =
      db.products.filter fun p => p.enterpriseId == e := rfl
  rw [findTrackedProductOrThrow, hproducts, findTrackedProductOrThrow]
  rcases find?_owned db.products Product.enterpriseId e productId with
    ⟨hfind, hview⟩ | ⟨p, hfind, howner, hview⟩ | ⟨p, hfind, howner, hview⟩
  · rw [hview, hfind]
  · rw [hview, hfind]
  · rw [hview, hfind]
    exact (if_pos (.inl howner)).symm

/-- Both answer 404 about a product of another enterprise, as about one that does not exist. -/
theorem applyMovement_view {input : CreateStockMovementInput} {key : Option String}
    {origin : Option (DocKind × Uuid)} {fresh : Uuid} :
    applyMovement e input key origin fresh (db.restrict (· == e)) =
      (applyMovement e input key origin fresh db).map fun r => (r.1, r.2.restrict (· == e)) := by
  have hkey : ∀ k : Option String, k.bind ((db.restrict (· == e)).movementByKey e) =
      k.bind (db.movementByKey e) := fun k =>
    congrArg k.bind (funext fun key => movementByKey_view key)
  have hproducts : (db.restrict (· == e)).products =
      db.products.filter fun p => p.enterpriseId == e := rfl
  unfold applyMovement
  rw [hkey, hkey, hproducts]
  simp only [level_view]
  cases (truthy key).bind (db.movementByKey e) with
  | some existing => rfl
  | none =>
    rcases find?_owned db.products Product.enterpriseId e input.productId with
      ⟨hfind, hview⟩ | ⟨product, hfind, howner, hview⟩ | ⟨product, hfind, howner, hview⟩
    · rw [hview, hfind]
      rfl
    · rw [hview, hfind]
      simp only [howner, ne_eq, not_true_eq_false, if_false]
      split_ifs with htracked hnegative htaken
      · rfl
      · rfl
      · rfl
      · refine congrArg (fun db' => Except.ok (_, db')) ?_
        simp [Db.restrict]
    · rw [hview, hfind]
      simp only [ne_eq, howner, not_false_eq_true, if_true]
      rfl

theorem applyMovement_confined {input : CreateStockMovementInput} {key : Option String}
    {origin : Option (DocKind × Uuid)} {fresh : Uuid}
    (hP : ∀ db ms, P db → P { db with movements := ms }) :
    Confined (boundary e) P (applyMovement e input key origin fresh : Transaction MovementResult)
      fun _ => P := by
  intro db hs hp
  refine ⟨applyMovement_view, fun r db' hok => ?_⟩
  rcases applyMovement_ok hok with ⟨rfl, -⟩ | ⟨p, hp', howner, -, hre, hrp, -, -, rfl⟩
  · exact ⟨hs, rfl, hp⟩
  · have howns : Owns db.products Product.enterpriseId r.movement.enterpriseId
        r.movement.productId := ⟨p, by rw [hrp, hp'], by rw [howner, hre]⟩
    refine ⟨⟨intact_append_movement hs.intact howns, hs.prefixes, hs.tenant⟩, ?_, hP db _ hp⟩
    simp [boundary, Db.rowsOfOthers, Db.restrict, hre]

namespace StockRepository

theorem findLevels_confined (query : ListStockQuery) :
    Confined (boundary e) P (findLevels T e query) fun _ _ => True := by
  refine .ask (fun db _ _ => ?_) fun _ _ _ _ _ => trivial
  have hrows : ∀ cond order, products.findMany e cond order (db.restrict (· == e)) =
      products.findMany e cond order db := fun _ _ =>
    TenantTable.findMany_view TenantTable.products_lawful fun _ _ _ => rfl
  simp only [boundary_view, hrows, aggregateQuantities_view]

theorem getLevel_confined : Confined (boundary e) P (getLevel e id) fun _ _ => True := by
  refine .ask (fun db _ _ => ?_) fun _ _ _ _ _ => trivial
  simp only [boundary_view, findTracked_view, aggregateQuantities_view]

theorem findMovements_confined (query : PageQuery) :
    Confined (boundary e) P (findMovements e id query) fun _ _ => True := by
  refine .ask (fun db _ _ => ?_) fun _ _ _ _ _ => trivial
  have hmovements : ((db.restrict (· == e)).movements.filter fun m =>
      m.enterpriseId = e ∧ m.productId = id) =
      db.movements.filter fun m => m.enterpriseId = e ∧ m.productId = id := by
    have hrestrict : (db.restrict (· == e)).movements =
        db.movements.filter fun m => m.enterpriseId == e := rfl
    rw [hrestrict, List.filter_filter]
    refine List.filter_congr fun m _ => ?_
    by_cases howner : m.enterpriseId = e
    · simp [howner]
    · simp [howner]
  simp only [boundary_view, findTracked_view, hmovements]

theorem createMovement_confined (input : CreateStockMovementInput) (key : Option String) :
    Confined (boundary e) P (createMovement e input key draw.id : Transaction MovementResult)
      fun _ _ => True :=
  (applyMovement_confined (P := fun _ => True) fun _ _ h => h).conseq (fun _ _ => trivial)
    fun _ _ _ => trivial

end StockRepository

/-! ## Sales and purchases -/

theorem tracks_view {l : DocumentLine} (h : Owns db.products Product.enterpriseId e l.productId) :
    (db.restrict (· == e)).tracks l = db.tracks l := by
  have hfind : (db.restrict (· == e)).products.find? l.productId = db.products.find? l.productId :=
    h.find?_filter
  rw [Db.tracks, hfind]
  rfl

theorem viewOf_confined {kind : DocKind} {d : Document} :
    Confined (boundary e) (fun db => ((documents kind).get db).find? id = some d ∧
      (documents kind).owner d = e) (viewOf kind d) fun _ _ => True := by
  refine .ask (fun db hs hp => ?_) fun _ _ _ _ _ => trivial
  have hrefs : d.RefsOk db kind := hs.intact.documents kind d (Table.mem_of_find? hp.1)
  exact congrArg Except.ok (documentView_view hrefs hp.2)

/-- A change of the status of a document of `e`, and its view. -/
theorem status_confined {kind : DocKind} {f : Instant → Document → Document}
    (hid : ∀ now d, (f now d).id = d.id) (howner : ∀ now d, (f now d).enterpriseId = d.enterpriseId)
    (hparty : ∀ now d, (f now d).partyId = d.partyId) (hlines : ∀ now d, (f now d).lines = d.lines) :
    Confined (boundary e) (fun db => Owns ((documents kind).get db) (documents kind).owner e id)
      (do
        let d ← (documents kind).update id f hid
        viewOf kind d) fun _ _ => True := by
  refine (TenantTable.update_confined (TenantTable.documents_lawful kind) hid howner (fun _ h => h)
    fun db hI => ?_).bind fun _ => viewOf_confined
  refine intact_put_documents hI kind (keepsOwners_update _ (hid db.now) (howner db.now)) ?_
  intro d' hd'
  rw [Table.update, Table.rows_updateWhere] at hd'
  obtain ⟨d, hd, rfl⟩ := List.mem_map.1 hd'
  have hrefs : d.RefsOk db kind := hI.documents kind d hd
  split
  · refine ⟨?_, fun l hl => ?_⟩
    · rw [howner, hparty]
      exact hrefs.party
    · rw [howner]
      exact hrefs.lines l (hlines db.now d ▸ hl)
  · exact hrefs

namespace DocumentMethods

variable {r : DocumentRepository}

theorem getOrThrow_confined : Confined (boundary e) P (getOrThrow r e id)
    fun d db => ((documents r.kind).get db).find? id = some d ∧ (documents r.kind).owner d = e :=
  (TenantTable.find_confined (TenantTable.documents_lawful r.kind) r.notFound e id).conseq
    (fun _ h => h) fun _ _ h => h.2

theorem findMany_confined (query : ListDocumentsQuery) :
    Confined (boundary e) P (findMany r T e query) fun _ _ => True := by
  refine list_confined (TenantTable.documents_lawful r.kind)
    (fun db d => query.status.all (d.status == ·) &&
      T.search query.search [some (db.partyName r.kind d)])
    (fun db => db.documentListItem r.kind) (fun db hI d hd howner => ?_) fun db hI d hd howner => ?_
  · have hname : (db.restrict (· == e)).partyName r.kind d = db.partyName r.kind d :=
      partyName_view (hI.documents r.kind d hd) howner
    simp only [hname]
  · exact documentListItem_view (hI.documents r.kind d hd) howner

theorem findByIdOrThrow_confined :
    Confined (boundary e) P (findByIdOrThrow r e id) fun _ _ => True :=
  getOrThrow_confined.bind fun _ => viewOf_confined

/-- The lines whose product tracks stock are the enterprise's to see. -/
theorem getWithTracked_confined : Confined (boundary e) P (getWithTracked r e id)
    fun _ db => Owns ((documents r.kind).get db) (documents r.kind).owner e id := by
  refine .ask (fun db hs _ => ?_) fun db found _ _ hok => ?_
  · have hview : (boundary e).view db = db.restrict (· == e) := rfl
    simp only [boundary_view, TenantTable.findOwned_view (TenantTable.documents_lawful r.kind)]
    cases hfound : (documents r.kind).findOwned r.notFound e id db with
    | error err => rfl
    | ok d =>
      obtain ⟨hfind, howner⟩ := TenantTable.findOwned_ok hfound
      have hrefs : d.RefsOk db r.kind :=
        hs.intact.documents r.kind d (Table.mem_of_find? hfind)
      have hlines : d.lines.filter (db.restrict (· == e)).tracks = d.lines.filter db.tracks :=
        List.filter_congr fun l hl => tracks_view (howner ▸ hrefs.lines l hl)
      simp only [Except.map, hlines]
  · cases hfound : (documents r.kind).findOwned r.notFound e id db with
    | error err =>
      rw [hfound] at hok
      cases hok
    | ok d => exact ⟨d, TenantTable.findOwned_ok hfound⟩

/-- A turn of the loop leaves the document where it is. -/
theorem confirmLine_confined (docId fresh : Uuid) (l : DocumentLine) :
    Confined (boundary e) (fun db => Owns ((documents r.kind).get db) (documents r.kind).owner e id)
      (confirmLine r e docId fresh l)
      fun _ db => Owns ((documents r.kind).get db) (documents r.kind).owner e id := by
  refine (applyMovement_confined fun db ms h => ?_).map _ fun _ _ h => h
  cases hk : r.kind with
  | sale =>
    rw [hk] at h
    exact h
  | purchase =>
    rw [hk] at h
    exact h

theorem confirm_confined : Confined (boundary e) P (confirm r e id draw) fun _ _ => True := by
  refine getWithTracked_confined.bind fun found => .ite (fun _ => .throw _) fun _ => ?_
  refine (Confined.forM fun l _ => confirmLine_confined found.1.id (draw.lineId l.2) l.1).bind
    fun _ => ?_
  exact status_confined (fun _ _ => by rfl) (fun _ _ => by rfl) (fun _ _ => by rfl)
    fun _ _ => by rfl

theorem cancel_confined : Confined (boundary e) P (cancel r e id) fun _ _ => True := by
  refine getOrThrow_confined.bind fun d => .ite (fun _ => .throw _) fun _ => ?_
  have howns : ∀ db, ((documents r.kind).get db).find? id = some d ∧
      (documents r.kind).owner d = e → Owns ((documents r.kind).get db) (documents r.kind).owner e id :=
    fun _ h => ⟨d, h⟩
  exact (status_confined (fun _ _ => by rfl) (fun _ _ => by rfl) (fun _ _ => by rfl)
    fun _ _ => by rfl).conseq howns fun _ _ h => h

end DocumentMethods

/-! ## Invoices -/

theorem getInvoiceOrThrow_view (hI : db.Intact) :
    (db.restrict (· == e)).getInvoiceOrThrow e id = db.getInvoiceOrThrow e id := by
  have hinvoices : (db.restrict (· == e)).salesInvoices =
      db.salesInvoices.filter fun i => i.enterpriseId == e := rfl
  rw [Db.getInvoiceOrThrow, hinvoices, Db.getInvoiceOrThrow]
  rcases find?_owned db.salesInvoices SalesInvoice.enterpriseId e id with
    ⟨hfind, hview⟩ | ⟨i, hfind, howner, hview⟩ | ⟨i, hfind, howner, hview⟩
  · rw [hview, hfind]
  · obtain ⟨sale, hsale, hsale', hsaleView, -⟩ := sale_view hI (Table.mem_of_find? hfind) howner
    rw [hview, hfind]
    simp only [hsale, hsale', Option.map_some, hsaleView]
  · rw [hview, hfind]
    exact (if_pos howner).symm

theorem getInvoiceOrThrow_ok {found : SalesInvoice × Option DocumentView}
    (h : db.getInvoiceOrThrow e id = .ok found) :
    Owns (salesInvoices.get db) salesInvoices.owner e id := by
  unfold Db.getInvoiceOrThrow at h
  cases hi : db.salesInvoices.find? id with
  | none =>
    rw [hi] at h
    cases h
  | some i =>
    rw [hi] at h
    simp only at h
    split_ifs at h with howner
    exact ⟨i, hi, not_not.1 howner⟩

namespace InvoicingRepository

theorem findMany_confined (query : ListSalesInvoicesQuery) :
    Confined (boundary e) P (findMany T e query) fun _ _ => True := by
  refine list_confined TenantTable.salesInvoices_lawful
    (fun db i => query.status.all (i.status == ·) &&
      T.search query.search [some i.number, (db.sales.find? i.saleId).map (db.partyName .sale)])
    (fun db => db.invoiceListItem)
    (fun db hI i hi howner => ?_) fun db hI i hi howner => ?_
  · obtain ⟨sale, hsale, hsale', -, hname⟩ := sale_view hI hi howner
    simp only [hsale, hsale', Option.map_some, hname]
  · obtain ⟨sale, hsale, hsale', -, hname⟩ := sale_view hI hi howner
    simp only [Db.invoiceListItem, hsale, hsale', Option.map_some, hname]

theorem findByIdOrThrow_confined :
    Confined (boundary e) P (findByIdOrThrow e id) fun _ _ => True := by
  refine .ask (fun db hs _ => ?_) fun _ _ _ _ _ => trivial
  simp only [boundary_view, getInvoiceOrThrow_view hs.intact]

theorem settle_confined (o : Outcome) :
    Confined (boundary e) P (settle o e id) fun _ _ => True := by
  refine Confined.bind (Q := fun _ db => Owns (salesInvoices.get db) salesInvoices.owner e id)
    (.ask (fun db hs _ => getInvoiceOrThrow_view hs.intact) fun _ _ _ _ h => getInvoiceOrThrow_ok h)
    fun found => .ite (fun _ => .throw _) fun _ => ?_
  have hkept : ∀ now i, (o.update now i).enterpriseId = i.enterpriseId ∧
      (o.update now i).saleId = i.saleId ∧ (o.update now i).number = i.number := by
    intro now i
    cases o <;> exact ⟨rfl, rfl, rfl⟩
  refine (TenantTable.update_confined TenantTable.salesInvoices_lawful o.update_id
    (fun now i => (hkept now i).1) (fun _ h => h) fun db hI => ?_).bind
      fun _ => .pure _ fun _ _ => trivial
  have hrows : ∀ i' ∈ ((salesInvoices.get db).update id (o.update db.now)
      (o.update_id db.now)).rows, ∃ i ∈ db.salesInvoices.rows, i'.enterpriseId = i.enterpriseId ∧
        i'.saleId = i.saleId ∧ i'.number = i.number := by
    intro i' hi'
    rw [Table.update, Table.rows_updateWhere] at hi'
    obtain ⟨i, hi, rfl⟩ := List.mem_map.1 hi'
    refine ⟨i, hi, ?_⟩
    split
    · exact hkept db.now i
    · exact ⟨rfl, rfl, rfl⟩
  refine intact_put_salesInvoices hI (fun i' hi' => ?_) fun i' hi' => ?_
  · obtain ⟨i, hi, howner, hsale, -⟩ := hrows i' hi'
    rw [howner, hsale]
    exact hI.sales i hi
  · obtain ⟨i, hi, howner, -, hnumber⟩ := hrows i' hi'
    rw [howner, hnumber]
    exact hI.invoiceNumbers i hi

end InvoicingRepository

/-! ## Accounts and journal entries -/

/-- The lines of the enterprise are in its own entries. -/
theorem entryLines_filter (entries : List JournalEntry)
    (h : ∀ en ∈ entries, ∀ l ∈ en.lines, l.enterpriseId = en.enterpriseId)
    (p : JournalEntryLine → Bool) (hp : ∀ l, p l = true → l.enterpriseId = e) :
    ((entries.filter fun en => en.enterpriseId == e).flatMap JournalEntry.lines).filter p =
      (entries.flatMap JournalEntry.lines).filter p := by
  induction entries with
  | nil => rfl
  | cons en entries ih =>
    have hrest := ih fun en' hen' => h en' (List.mem_cons_of_mem _ hen')
    by_cases howner : en.enterpriseId = e
    · rw [List.filter_cons_of_pos (by simpa using howner), List.flatMap_cons, List.flatMap_cons,
        List.filter_append, List.filter_append, hrest]
    · have hnone : en.lines.filter p = [] := by
        refine List.filter_eq_nil_iff.2 fun l hl hpl => howner ?_
        rw [← h en List.mem_cons_self l hl]
        exact hp l hpl
      rw [List.filter_cons_of_neg (by simpa using howner), List.flatMap_cons, List.filter_append,
        hnone, hrest]
      rfl

theorem aggregateBalances_view (hI : db.Intact) (ids : List Uuid) :
    aggregateBalances (db.restrict (· == e)) e ids = aggregateBalances db e ids := by
  have hlines : ((db.restrict (· == e)).entryLines.filter fun l =>
      l.enterpriseId = e ∧ l.accountId ∈ ids) =
      db.entryLines.filter fun l => l.enterpriseId = e ∧ l.accountId ∈ ids :=
    entryLines_filter _ (fun en hen l hl => (hI.entries en hen).owner l hl) _
      fun l hl => (of_decide_eq_true hl).1
  simp only [aggregateBalances, hlines]

namespace AccountsRepository

theorem findMany_confined (query : ListAccountsQuery) :
    Confined (boundary e) P (findMany T e query) fun _ _ => True := by
  refine .ask (fun db hs _ => ?_) fun _ _ _ _ _ => trivial
  have hrows : ∀ cond order, accounts.findMany e cond order (db.restrict (· == e)) =
      accounts.findMany e cond order db := fun _ _ =>
    TenantTable.findMany_view TenantTable.accounts_lawful fun _ _ _ => rfl
  simp only [boundary_view, hrows, aggregateBalances_view hs.intact]

theorem findByIdOrThrow_confined :
    Confined (boundary e) P (findByIdOrThrow e id) fun _ _ => True := by
  refine .ask (fun db hs _ => ?_) fun _ _ _ _ _ => trivial
  simp only [boundary_view, TenantTable.findOwned_view TenantTable.accounts_lawful,
    aggregateBalances_view hs.intact]

theorem create_confined (input : CreateAccountInput) :
    Confined (boundary e) (draw.FreshFor e) (create e input draw) fun _ _ => True := by
  rw [createAccount_eq]
  have hrow : Confined (boundary e) (draw.FreshFor e) (accounts.create (newAccount e input draw))
      fun _ _ => True :=
    TenantTable.create_confined TenantTable.accounts_lawful (fun _ => rfl) (fun _ hp _ => hp)
      fun db h => intact_put_accounts h (keepsOwners_insert db.accounts _ _)
  exact (Confined.mapError _ hrow).bind fun _ => .pure _ fun _ _ => trivial

theorem update_confined (input : UpdateAccountInput) :
    Confined (boundary e) P (update e id input) fun _ _ => True := by
  refine checked_confined TenantTable.accounts_lawful ?_
  refine Confined.bind (TenantTable.update_confined TenantTable.accounts_lawful
    (f := input.apply) (fun _ _ => rfl) (fun _ _ => rfl) (fun _ h => h) fun db h =>
      intact_put_accounts h (keepsOwners_update (f := input.apply db.now) db.accounts
        (fun _ => rfl) fun _ => rfl))
    fun account => .ask (fun db hs _ => ?_) fun _ _ _ _ _ => trivial
  exact congrArg (fun balances => Except.ok (toAccountView balances account))
    (aggregateBalances_view hs.intact [id])

theorem listAccounts_view (collate : String → String → Bool) :
    listAccounts collate (db.restrict (· == e)) e = listAccounts collate db e := by
  have hrestrict : (db.restrict (· == e)).accounts.rows =
      db.accounts.rows.filter fun a => a.enterpriseId == e := rfl
  rw [listAccounts, hrestrict, List.filter_filter, listAccounts]
  congr 1
  refine List.filter_congr fun a _ => ?_
  by_cases howner : a.enterpriseId = e
  · simp [howner]
  · simp [howner]

theorem trialBalance_confined : Confined (boundary e) P (trialBalance T e) fun _ _ => True := by
  refine .ask (fun db hs _ => ?_) fun _ _ _ _ _ => trivial
  simp only [boundary_view, listAccounts_view, aggregateBalances_view hs.intact]

end AccountsRepository

namespace JournalRepository

theorem findMany_confined (query : ListJournalEntriesQuery) :
    Confined (boundary e) P (findMany T e query) fun _ _ => True :=
  list_confined TenantTable.journalEntries_lawful _ _ (fun _ _ _ _ _ => rfl)
    fun _ hI en hen howner => entryView_view (hI.entries en hen) howner

theorem findByIdOrThrow_confined :
    Confined (boundary e) P (findByIdOrThrow e id) fun _ _ => True := by
  refine .ask (fun db hs _ => ?_) fun _ _ _ _ _ => trivial
  simp only [boundary_view, TenantTable.findOwned_view TenantTable.journalEntries_lawful]
  cases hfound : journalEntries.findOwned "Écriture introuvable" e id db with
  | error err => rfl
  | ok en =>
    obtain ⟨hfind, howner⟩ := TenantTable.findOwned_ok hfound
    have hrefs : en.RefsOk db := hs.intact.entries en (Table.mem_of_find? hfind)
    exact congrArg Except.ok (entryView_view hrefs howner)

end JournalRepository

/-! ## Reports -/

/-- The lines of a period, each with an account of the enterprise. -/
theorem periodLines_view (hI : db.Intact) (dateFrom dateTo : UtcDate) :
    (db.restrict (· == e)).periodLines e dateFrom dateTo = db.periodLines e dateFrom dateTo := by
  have hentries : ((db.restrict (· == e)).journalEntries.rows.filter fun en =>
      dateFrom ≤ en.entryDate ∧ en.entryDate ≤ dateTo) =
      (db.journalEntries.rows.filter fun en => dateFrom ≤ en.entryDate ∧ en.entryDate ≤ dateTo).filter
        fun en => en.enterpriseId == e := List.filter_comm _ _ _
  have hlines := entryLines_filter (e := e) (db.journalEntries.rows.filter fun en =>
      dateFrom ≤ en.entryDate ∧ en.entryDate ≤ dateTo)
    (fun en hen l hl => (hI.entries en (List.mem_filter.1 hen).1).owner l hl)
    (fun l => l.enterpriseId = e) fun l hl => of_decide_eq_true hl
  rw [Db.periodLines, hentries]
  simp only [hlines]
  rw [Db.periodLines]
  refine List.filterMap_congr fun l hl => ?_
  obtain ⟨hmem, howner⟩ := List.mem_filter.1 hl
  obtain ⟨en, hen, hline⟩ := List.mem_flatMap.1 hmem
  have hrefs : en.RefsOk db := hI.entries en (List.mem_filter.1 hen).1
  have hene : en.enterpriseId = e := (hrefs.owner l hline).symm.trans (of_decide_eq_true howner)
  have haccount : Owns db.accounts Account.enterpriseId e l.accountId :=
    hene ▸ hrefs.accounts l hline
  have hfind : (db.restrict (· == e)).accounts.find? l.accountId = db.accounts.find? l.accountId :=
    haccount.find?_filter
  rw [hfind]

namespace ReportsRepository

theorem report_confined (R : Binary64.Rounding) (kind : DocKind) (query : ReportPeriodQuery) :
    Confined (boundary e) P (report R T kind e query) fun _ _ => True := by
  refine .ask (fun db _ _ => ?_) fun _ _ _ _ _ => trivial
  have hdocs : ∀ dateFrom dateTo : UtcDate,
      (((db.restrict (· == e)).documents kind).rows.filter fun d =>
        d.enterpriseId = e ∧ d.status = .confirmed ∧ dateFrom ≤ d.date ∧ d.date ≤ dateTo) =
      (db.documents kind).rows.filter fun d =>
        d.enterpriseId = e ∧ d.status = .confirmed ∧ dateFrom ≤ d.date ∧ d.date ≤ dateTo := by
    intro dateFrom dateTo
    rw [documents_restrict, Table.rows_filter, List.filter_filter]
    refine List.filter_congr fun d _ => ?_
    by_cases howner : d.enterpriseId = e
    · simp [howner]
    · simp [howner]
  exact congrArg (fun docs => Except.ok (reportView R T _ _ docs)) (hdocs _ _)

theorem incomeStatement_confined (query : ReportPeriodQuery) :
    Confined (boundary e) P (incomeStatement T e query) fun _ _ => True := by
  refine .ask (fun db hs _ => ?_) fun _ _ _ _ _ => trivial
  simp only [boundary_view, now_restrict, periodLines_view hs.intact]

end ReportsRepository

end Gescom.Erp
