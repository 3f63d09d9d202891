import Gescom.Erp.Tenant

/-!
# Statements confined to an enterprise

The three statements every repository is made of (a lookup with its check, an insert, an update by
identifier) on any table whose rows have an owner, and what each table asks for so that a database
stays `Intact`.
-/

namespace Gescom.Erp

open Confinement

variable {ρ : Type} [Keyed ρ Uuid] {t : TenantTable ρ} {e id : Uuid} {db : Db}

/-! ## What keeps a database intact -/

/-- Whatever is owned in one table is owned in the other. -/
def KeepsOwners (u u' : Table ρ) (owner : ρ → Uuid) : Prop :=
  ∀ e id, Owns u owner e id → Owns u' owner e id

theorem keepsOwners_insert (u : Table ρ) (owner : ρ → Uuid) (r : ρ) :
    KeepsOwners u (u.insert r) owner := fun _ _ h => h.insert r

theorem keepsOwners_update (u : Table ρ) {owner : ρ → Uuid} {f : ρ → ρ}
    (hf : ∀ r, Keyed.key (f r) = Keyed.key r) (hfo : ∀ r, owner (f r) = owner r) :
    KeepsOwners u (u.update id f hf) owner := fun _ _ h => h.update hf hfo

/-- Whatever an enterprise owns, it keeps. -/
structure Db.Grows (db db' : Db) : Prop where
  tenants : db.tenants ⊆ db'.tenants
  parties : ∀ kind, KeepsOwners (db.parties kind) (db'.parties kind) Party.enterpriseId
  products : KeepsOwners db.products db'.products Product.enterpriseId
  sales : KeepsOwners db.sales db'.sales Document.enterpriseId
  accounts : KeepsOwners db.accounts db'.accounts Account.enterpriseId

theorem Db.Grows.refl (db : Db) : db.Grows db where
  tenants _ h := h
  parties _ _ _ h := h
  products _ _ h := h
  sales _ _ h := h
  accounts _ _ h := h

/-- A database is intact when its rows refer to what one it grew from has. -/
theorem Db.Grows.intact {db' : Db} (hg : db.Grows db')
    (documents : ∀ kind, ∀ d ∈ (db'.documents kind).rows, d.RefsOk db kind)
    (movements : ∀ m ∈ db'.movements,
      Owns db.products Product.enterpriseId m.enterpriseId m.productId)
    (sales : ∀ i ∈ db'.salesInvoices.rows,
      Owns db.sales Document.enterpriseId i.enterpriseId i.saleId)
    (invoiceNumbers : ∀ i ∈ db'.salesInvoices.rows,
      db.Numbered .salesInvoice i.enterpriseId i.number)
    (entries : ∀ en ∈ db'.journalEntries.rows, en.RefsOk db)
    (entryNumbers : ∀ en ∈ db'.journalEntries.rows,
      db.Numbered .journalEntry en.enterpriseId en.number) : db'.Intact where
  documents kind d hd := by
    have hrefs : d.RefsOk db kind := documents kind d hd
    exact ⟨hg.parties kind _ _ hrefs.party, fun l hl => hg.products _ _ (hrefs.lines l hl)⟩
  movements m hm := hg.products _ _ (movements m hm)
  sales i hi := hg.sales _ _ (sales i hi)
  invoiceNumbers i hi := (invoiceNumbers i hi).imp_left fun htenant => hg.tenants htenant
  entries en hen := by
    have hrefs : en.RefsOk db := entries en hen
    exact ⟨hrefs.owner, fun l hl => hg.accounts _ _ (hrefs.accounts l hl)⟩
  entryNumbers en hen := (entryNumbers en hen).imp_left fun htenant => hg.tenants htenant

theorem intact_put_products (h : db.Intact) {u : Table Product}
    (hu : KeepsOwners db.products u Product.enterpriseId) : (products.put db u).Intact := by
  have hg : db.Grows (products.put db u) := { Db.Grows.refl db with products := hu }
  exact hg.intact h.documents h.movements h.sales h.invoiceNumbers h.entries h.entryNumbers

theorem intact_put_customers (h : db.Intact) {u : Table Party}
    (hu : KeepsOwners db.customers u Party.enterpriseId) : (customers.put db u).Intact := by
  have hparties : ∀ kind, KeepsOwners (db.parties kind) ((customers.put db u).parties kind)
      Party.enterpriseId := by
    intro kind
    cases kind with
    | sale => exact hu
    | purchase => exact fun _ _ howns => howns
  have hg : db.Grows (customers.put db u) := { Db.Grows.refl db with parties := hparties }
  exact hg.intact h.documents h.movements h.sales h.invoiceNumbers h.entries h.entryNumbers

theorem intact_put_accounts (h : db.Intact) {u : Table Account}
    (hu : KeepsOwners db.accounts u Account.enterpriseId) : (accounts.put db u).Intact := by
  have hg : db.Grows (accounts.put db u) := { Db.Grows.refl db with accounts := hu }
  exact hg.intact h.documents h.movements h.sales h.invoiceNumbers h.entries h.entryNumbers

theorem intact_put_documents (h : db.Intact) (kind : DocKind) {u : Table Document}
    (hu : KeepsOwners (db.documents kind) u Document.enterpriseId)
    (hrows : ∀ d ∈ u.rows, d.RefsOk db kind) : ((documents kind).put db u).Intact := by
  have hrefs : ∀ kind', ∀ d ∈ (((documents kind).put db u).documents kind').rows,
      d.RefsOk db kind' := by
    intro kind' d hd
    cases kind <;> cases kind' <;> first | exact hrows d hd | exact h.documents _ d hd
  cases kind with
  | sale =>
    have hg : db.Grows ((documents .sale).put db u) := { Db.Grows.refl db with sales := hu }
    exact hg.intact hrefs h.movements h.sales h.invoiceNumbers h.entries h.entryNumbers
  | purchase =>
    have hg : db.Grows ((documents .purchase).put db u) := { Db.Grows.refl db with }
    exact hg.intact hrefs h.movements h.sales h.invoiceNumbers h.entries h.entryNumbers

theorem intact_put_salesInvoices (h : db.Intact) {u : Table SalesInvoice}
    (hsales : ∀ i ∈ u.rows, Owns db.sales Document.enterpriseId i.enterpriseId i.saleId)
    (hnumbers : ∀ i ∈ u.rows, db.Numbered .salesInvoice i.enterpriseId i.number) :
    (salesInvoices.put db u).Intact := by
  have hg : db.Grows (salesInvoices.put db u) := { Db.Grows.refl db with }
  exact hg.intact h.documents h.movements hsales hnumbers h.entries h.entryNumbers

theorem intact_put_journalEntries (h : db.Intact) {u : Table JournalEntry}
    (hrefs : ∀ en ∈ u.rows, en.RefsOk db)
    (hnumbers : ∀ en ∈ u.rows, db.Numbered .journalEntry en.enterpriseId en.number) :
    (journalEntries.put db u).Intact := by
  have hg : db.Grows (journalEntries.put db u) := { Db.Grows.refl db with }
  exact hg.intact h.documents h.movements h.sales h.invoiceNumbers hrefs hnumbers

theorem intact_append_movement (h : db.Intact) {m : StockMovement}
    (hm : Owns db.products Product.enterpriseId m.enterpriseId m.productId) :
    ({ db with movements := db.movements ++ [m] } : Db).Intact := by
  have hmovements : ∀ m' ∈ db.movements ++ [m],
      Owns db.products Product.enterpriseId m'.enterpriseId m'.productId := by
    intro m' hm'
    rcases List.mem_append.1 hm' with hold | hnew
    · exact h.movements m' hold
    · rw [List.mem_singleton.1 hnew]
      exact hm
  have hg : db.Grows { db with movements := db.movements ++ [m] } := { Db.Grows.refl db with }
  exact hg.intact h.documents hmovements h.sales h.invoiceNumbers h.entries h.entryNumbers

theorem intact_setLastNumber (h : db.Intact) (series : Series) (e : Uuid) (n : Nat) :
    (db.setLastNumber series e n).Intact := by
  have hg : db.Grows (db.setLastNumber series e n) := by
    cases series <;> exact { Db.Grows.refl db with }
  cases series <;>
    exact hg.intact h.documents h.movements h.sales h.invoiceNumbers h.entries h.entryNumbers

theorem intact_setNow (h : db.Intact) (now : Instant) :
    ({ db with now := now } : Db).Intact := by
  have hg : db.Grows { db with now := now } := { Db.Grows.refl db with }
  exact hg.intact h.documents h.movements h.sales h.invoiceNumbers h.entries h.entryNumbers

/-- What other modules write. -/
theorem intact_elsewhere (h : db.Intact) {enterprises : Table Enterprise} {suppliers : Table Party}
    (htenants : db.tenants ⊆ enterprises.rows.map Enterprise.id)
    (hsuppliers : KeepsOwners db.suppliers suppliers Party.enterpriseId) :
    ({ db with enterprises := enterprises, suppliers := suppliers } : Db).Intact := by
  have hparties : ∀ kind, KeepsOwners (db.parties kind)
      (({ db with enterprises := enterprises, suppliers := suppliers } : Db).parties kind)
      Party.enterpriseId := by
    intro kind
    cases kind with
    | sale => exact fun _ _ howns => howns
    | purchase => exact hsuppliers
  have hg : db.Grows { db with enterprises := enterprises, suppliers := suppliers } :=
    { Db.Grows.refl db with tenants := htenants, parties := hparties }
  exact hg.intact h.documents h.movements h.sales h.invoiceNumbers h.entries h.entryNumbers

namespace TenantTable

/-- The table is one of the tables of `Db`. -/
structure Lawful (t : TenantTable ρ) : Prop where
  get_put : ∀ db u, t.get (t.put db u) = u
  put_get : ∀ db, t.put db (t.get db) = db
  get_restrict : ∀ p db, t.get (db.restrict p) = (t.get db).filter fun r => p (t.owner r)
  put_restrict : ∀ p db u,
    (t.put db u).restrict p = t.put (db.restrict p) (u.filter fun r => p (t.owner r))
  tenants_put : ∀ db u, (t.put db u).tenants = db.tenants
  ids : ∀ db, ∀ r ∈ (t.get db).rows, Keyed.key r ∈ db.ids
  same_owner : ∀ a b, t.same a b = true → t.owner a = t.owner b

theorem products_lawful : products.Lawful where
  get_put _ _ := rfl
  put_get _ := rfl
  get_restrict _ _ := rfl
  put_restrict _ _ _ := rfl
  tenants_put _ _ := rfl
  ids db r hr := by
    have hid : r.id ∈ db.products.rows.map Product.id := List.mem_map_of_mem hr
    simp only [Db.ids, List.mem_append]
    tauto
  same_owner a b h := beq_iff_eq.1 (Bool.and_eq_true_iff.1 h).1

theorem customers_lawful : customers.Lawful where
  get_put _ _ := rfl
  put_get _ := rfl
  get_restrict _ _ := rfl
  put_restrict _ _ _ := rfl
  tenants_put _ _ := rfl
  ids db r hr := by
    have hid : r.id ∈ db.customers.rows.map Party.id := List.mem_map_of_mem hr
    simp only [Db.ids, List.mem_append]
    tauto
  same_owner _ _ h := by cases h

theorem documents_lawful (kind : DocKind) : (documents kind).Lawful where
  get_put _ _ := by cases kind <;> rfl
  put_get _ := by cases kind <;> rfl
  get_restrict _ _ := by cases kind <;> rfl
  put_restrict _ _ _ := by cases kind <;> rfl
  tenants_put _ _ := by cases kind <;> rfl
  ids db r hr := by
    have hid : r.id ∈ (db.documents kind).rows.map Document.id := List.mem_map_of_mem hr
    cases kind <;>
    · simp only [Db.documents] at hid
      simp only [Db.ids, List.mem_append]
      tauto
  same_owner _ _ h := by cases h

theorem salesInvoices_lawful : salesInvoices.Lawful where
  get_put _ _ := rfl
  put_get _ := rfl
  get_restrict _ _ := rfl
  put_restrict _ _ _ := rfl
  tenants_put _ _ := rfl
  ids db r hr := by
    have hid : r.id ∈ db.salesInvoices.rows.map SalesInvoice.id := List.mem_map_of_mem hr
    simp only [Db.ids, List.mem_append]
    tauto
  same_owner _ _ h := by cases h

theorem accounts_lawful : accounts.Lawful where
  get_put _ _ := rfl
  put_get _ := rfl
  get_restrict _ _ := rfl
  put_restrict _ _ _ := rfl
  tenants_put _ _ := rfl
  ids db r hr := by
    have hid : r.id ∈ db.accounts.rows.map Account.id := List.mem_map_of_mem hr
    simp only [Db.ids, List.mem_append]
    tauto
  same_owner a b h := beq_iff_eq.1 (Bool.and_eq_true_iff.1 h).1

theorem journalEntries_lawful : journalEntries.Lawful where
  get_put _ _ := rfl
  put_get _ := rfl
  get_restrict _ _ := rfl
  put_restrict _ _ _ := rfl
  tenants_put _ _ := rfl
  ids db r hr := by
    have hid : r.id ∈ db.journalEntries.rows.map JournalEntry.id := List.mem_map_of_mem hr
    simp only [Db.ids, List.mem_append]
    tauto
  same_owner _ _ h := by cases h

/-! ## Lookups and lists -/

theorem findOwned_view (ht : t.Lawful) (missing : String) (e id : Uuid) (db : Db) :
    t.findOwned missing e id (db.restrict (· == e)) = t.findOwned missing e id db := by
  unfold findOwned
  rw [ht.get_restrict]
  rcases find?_owned (t.get db) t.owner e id with
    ⟨hfind, hview⟩ | ⟨r, hfind, howner, hview⟩ | ⟨r, hfind, howner, hview⟩
  · rw [hview, hfind]
  · rw [hview, hfind]
  · rw [hview, hfind]
    exact (if_pos howner).symm

theorem findOwned_ok {missing : String} {r : ρ} (h : t.findOwned missing e id db = .ok r) :
    (t.get db).find? id = some r ∧ t.owner r = e := by
  unfold findOwned at h
  cases hfind : (t.get db).find? id with
  | none =>
    rw [hfind] at h
    cases h
  | some x =>
    rw [hfind] at h
    simp only at h
    split_ifs at h with howner
    cases h
    exact ⟨rfl, not_not.1 howner⟩

theorem findMany_view (ht : t.Lawful) {cond cond' : ρ → Bool} {order : ρ → ρ → Bool}
    (h : ∀ r ∈ (t.get db).rows, t.owner r = e → cond' r = cond r) :
    t.findMany e cond' order (db.restrict (· == e)) = t.findMany e cond order db := by
  unfold findMany
  rw [ht.get_restrict, Table.rows_filter, List.filter_filter]
  congr 1
  refine List.filter_congr fun r hr => ?_
  by_cases howner : t.owner r = e
  · simp [howner, h r hr howner]
  · simp [howner]

theorem mem_findMany {cond : ρ → Bool} {order : ρ → ρ → Bool} {r : ρ}
    (h : r ∈ t.findMany e cond order db) : r ∈ (t.get db).rows ∧ t.owner r = e := by
  have hfilter := List.mem_filter.1 (List.mem_mergeSort.1 h)
  exact ⟨hfilter.1, (of_decide_eq_true hfilter.2).1⟩

theorem find_confined (ht : t.Lawful) (missing : String) (e id : Uuid) {P : Db → Prop} :
    Confined (boundary e) P (t.findByIdOrThrow missing e id)
      fun r db => P db ∧ (t.get db).find? id = some r ∧ t.owner r = e :=
  .ask (fun db _ _ => findOwned_view ht missing e id db)
    fun _ _ _ hp h => ⟨hp, findOwned_ok h⟩

/-! ## Writes -/

theorem view_put (ht : t.Lawful) (u : Table ρ) : (t.put db u).restrict (· == e) =
    t.put (db.restrict (· == e)) (u.filter fun r => t.owner r == e) :=
  ht.put_restrict _ _ _

/-- A write that leaves the rows of the others in place. -/
theorem rest_put (ht : t.Lawful) {u : Table ρ} (h : (u.filter fun r => t.owner r != e) =
    (t.get db).filter fun r => t.owner r != e) :
    (t.put db u).rowsOfOthers e = db.rowsOfOthers e := by
  have hget : t.get (db.restrict (· != e)) = (t.get db).filter fun r => t.owner r != e :=
    ht.get_restrict _ _
  have hrestrict : (t.put db u).restrict (· != e) = db.restrict (· != e) := by
    rw [ht.put_restrict, h, ← hget, ht.put_get]
  rw [Db.rowsOfOthers, Db.rowsOfOthers, hrestrict]

theorem serves_put (ht : t.Lawful) (h : db.Serves e) {u : Table ρ} (hI : (t.put db u).Intact) :
    (t.put db u).Serves e where
  intact := hI
  prefixes := by
    rw [Db.DistinctPrefixes, ht.tenants_put]
    exact h.prefixes
  tenant := by
    rw [ht.tenants_put]
    exact h.tenant

/-- A row of another enterprise has its identifier among those of the others. -/
theorem owner_of_fresh (ht : t.Lawful) {r : ρ} (hfresh : Keyed.key r ∉ (db.rowsOfOthers e).ids)
    {x : ρ} (hx : x ∈ (t.get db).rows) (hkey : Keyed.key x = Keyed.key r) : t.owner x = e := by
  by_contra hne
  have hmem : x ∈ (t.get (db.restrict (· != e))).rows := by
    rw [ht.get_restrict]
    exact List.mem_filter.2 ⟨hx, by simpa using hne⟩
  have hids : Keyed.key x ∈ (db.restrict (· != e)).ids := ht.ids _ x hmem
  rw [hkey] at hids
  exact hfresh hids

theorem filter_insert_view (ht : t.Lawful) {r : ρ} (howner : t.owner r = e)
    (hfresh : Keyed.key r ∉ (db.rowsOfOthers e).ids) :
    (((t.get db).insert r).filter fun x => t.owner x == e) =
      ((t.get db).filter fun x => t.owner x == e).insert r :=
  Table.filter_insert (beq_iff_eq.2 howner) fun _ hx hkey =>
    beq_iff_eq.2 (owner_of_fresh ht hfresh hx hkey)

theorem filter_insert_rest {r : ρ} (howner : t.owner r = e) :
    (((t.get db).insert r).filter fun x => t.owner x != e) =
      (t.get db).filter fun x => t.owner x != e :=
  Table.filter_insert_neg (by simp [howner])

/-- A row that clashes with one of `e` is one of `e`. -/
theorem any_view (ht : t.Lawful) {p : ρ → Bool}
    (h : ∀ x ∈ (t.get db).rows, p x = true → t.owner x = e) :
    (t.get (db.restrict (· == e))).rows.any p = (t.get db).rows.any p := by
  rw [ht.get_restrict, Table.rows_filter, Bool.eq_iff_iff, List.any_eq_true, List.any_eq_true]
  constructor
  · rintro ⟨x, hx, hp⟩
    exact ⟨x, (List.mem_filter.1 hx).1, hp⟩
  · rintro ⟨x, hx, hp⟩
    exact ⟨x, List.mem_filter.2 ⟨hx, beq_iff_eq.2 (h x hx hp)⟩, hp⟩

theorem create_confined (ht : t.Lawful) {row : Instant → ρ} {P : Db → Prop}
    (howner : ∀ now, t.owner (row now) = e)
    (hfresh : ∀ db, P db → ∀ now, Keyed.key (row now) ∉ (db.rowsOfOthers e).ids)
    (hI : ∀ db, db.Intact → (t.put db ((t.get db).insert (row db.now))).Intact) :
    Confined (boundary e) P (t.create row) fun _ _ => True := by
  intro db hs hp
  have hre : t.owner (row db.now) = e := howner db.now
  have hrf : Keyed.key (row db.now) ∉ (db.rowsOfOthers e).ids := hfresh db hp db.now
  have htaken : ((t.get (db.restrict (· == e))).rows.any fun x =>
      Keyed.key x == Keyed.key (row db.now) || t.same x (row db.now)) =
      (t.get db).rows.any fun x => Keyed.key x == Keyed.key (row db.now) || t.same x (row db.now) := by
    refine any_view ht fun x hx hclash => ?_
    rcases Bool.or_eq_true_iff.1 hclash with hkey | hsame
    · exact owner_of_fresh ht hrf hx (beq_iff_eq.1 hkey)
    · exact (ht.same_owner _ _ hsame).trans hre
  have hinsert : (t.put db ((t.get db).insert (row db.now))).restrict (· == e) =
      t.put (db.restrict (· == e)) ((t.get (db.restrict (· == e))).insert (row db.now)) := by
    rw [view_put ht, filter_insert_view ht hre hrf, ht.get_restrict]
  by_cases hclash : ((t.get db).rows.any fun x =>
      Keyed.key x == Keyed.key (row db.now) || t.same x (row db.now)) = true
  · have hwhole : t.create row db = .error (.prisma .p2002) := if_pos hclash
    have hview : t.create row (db.restrict (· == e)) = .error (.prisma .p2002) :=
      if_pos (htaken.trans hclash)
    refine ⟨?_, fun r db' hok => ?_⟩
    · rw [hwhole]
      exact hview
    · rw [hwhole] at hok
      cases hok
  · have hwhole : t.create row db =
        .ok (row db.now, t.put db ((t.get db).insert (row db.now))) := if_neg hclash
    have hview : t.create row (db.restrict (· == e)) = .ok (row db.now,
        t.put (db.restrict (· == e)) ((t.get (db.restrict (· == e))).insert (row db.now))) :=
      if_neg (by rwa [← htaken] at hclash)
    refine ⟨?_, fun r db' hok => ?_⟩
    · rw [hwhole]
      refine hview.trans ?_
      rw [← hinsert]
      rfl
    · rw [hwhole] at hok
      cases hok
      exact ⟨serves_put ht hs (hI db hs.intact), rest_put ht (filter_insert_rest hre), trivial⟩

/-- The rows of the others, when a row of `e` is updated. -/
theorem filter_update_rest {f : ρ → ρ} (hf : ∀ r, Keyed.key (f r) = Keyed.key r)
    (hfo : ∀ r, t.owner (f r) = t.owner r) (howned : Owns (t.get db) t.owner e id) :
    (((t.get db).update id f hf).filter fun r => t.owner r != e) =
      (t.get db).filter fun r => t.owner r != e := by
  rw [Table.filter_update hf fun r => by rw [hfo]]
  refine Table.update_of_none hf ?_
  obtain ⟨r, hr, howner⟩ := howned
  rw [Table.find?_filter, hr, Option.filter_some_neg (by simp [howner])]

theorem update_confined (ht : t.Lawful) {f : Instant → ρ → ρ} {P : Db → Prop}
    (hf : ∀ now r, Keyed.key (f now r) = Keyed.key r) (hfo : ∀ now r, t.owner (f now r) = t.owner r)
    (howned : ∀ db, P db → Owns (t.get db) t.owner e id)
    (hI : ∀ db, db.Intact → (t.put db ((t.get db).update id (f db.now) (hf db.now))).Intact) :
    Confined (boundary e) P (t.update id f hf)
      fun r db => (t.get db).find? id = some r ∧ t.owner r = e := by
  intro db hs hp
  obtain ⟨r, hr, hre⟩ := howned db hp
  have hfr : t.owner (f db.now r) = e := (hfo db.now r).trans hre
  have hrview : (t.get (db.restrict (· == e))).find? id = some r := by
    rw [ht.get_restrict, Table.find?_filter, hr, Option.filter_some_pos]
    exact beq_iff_eq.2 hre
  have htaken : ((t.get (db.restrict (· == e))).rows.any fun x =>
      !(Keyed.key x == id) && t.same x (f db.now r)) =
      (t.get db).rows.any fun x => !(Keyed.key x == id) && t.same x (f db.now r) :=
    any_view ht fun x _ hclash =>
      (ht.same_owner _ _ (Bool.and_eq_true_iff.1 hclash).2).trans hfr
  have hupdate : (t.put db ((t.get db).update id (f db.now) (hf db.now))).restrict (· == e) =
      t.put (db.restrict (· == e))
        ((t.get (db.restrict (· == e))).update id (f db.now) (hf db.now)) := by
    rw [view_put ht, Table.filter_update (hf db.now) fun r => by rw [hfo], ht.get_restrict]
  by_cases hclash : ((t.get db).rows.any fun x =>
      !(Keyed.key x == id) && t.same x (f db.now r)) = true
  · have hwhole : t.update id f hf db = .error (.prisma .p2002) := by
      simp only [update, hr, hclash, if_true]
    have hview : t.update id f hf (db.restrict (· == e)) = .error (.prisma .p2002) := by
      have hnow : (db.restrict (· == e)).now = db.now := rfl
      simp only [update, hrview, hnow, htaken, hclash, if_true]
    refine ⟨?_, fun r' db' hok => ?_⟩
    · rw [hwhole]
      exact hview
    · rw [hwhole] at hok
      cases hok
  · have hwhole : t.update id f hf db = .ok (f db.now r,
        t.put db ((t.get db).update id (f db.now) (hf db.now))) := by
      simp only [update, hr]
      exact if_neg hclash
    have hview : t.update id f hf (db.restrict (· == e)) = .ok (f db.now r,
        t.put (db.restrict (· == e))
          ((t.get (db.restrict (· == e))).update id (f db.now) (hf db.now))) := by
      simp only [update, hrview]
      exact if_neg (by rwa [← htaken] at hclash)
    refine ⟨?_, fun r' db' hok => ?_⟩
    · rw [hwhole]
      refine hview.trans ?_
      rw [← hupdate]
      rfl
    · rw [hwhole] at hok
      cases hok
      refine ⟨serves_put ht hs (hI db hs.intact), rest_put ht
        (filter_update_rest (hf db.now) (hfo db.now) ⟨r, hr, hre⟩), ?_, hfr⟩
      rw [ht.get_put, Table.find?_update, if_pos rfl, hr]
      rfl

end TenantTable

end Gescom.Erp
