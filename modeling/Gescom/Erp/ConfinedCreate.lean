import Mathlib.Data.List.Find
import Gescom.Erp.ConfinedRepositories

/-!
# `create` confined to an enterprise

The unique indexes span all enterprises, and so do the lookups by identifier. `insertRow_confined`
gives what an insert needs: a row it clashes with is one of the same enterprise. For a number this
is the prefix, for the sale of an invoice the reference that never leaves the enterprise.
-/

namespace Gescom.Erp

open Confinement

variable {ι φ ρ ν : Type} [DocumentRow ρ] {R : Repository ι φ ρ ν} {t : TenantTable ρ} {e : Uuid}
  {c : Create ι} {draw : Draw} {db : Db} {P : Db → Prop}

/-! ## Counters -/

theorem filter_counter_update (p : Uuid → Bool) (n : Nat) (t : Table Counter) :
    ((t.update e (fun c => { c with lastNumber := n }) fun _ => rfl).filter
      fun c => p c.enterpriseId) =
      (t.filter fun c => p c.enterpriseId).update e (fun c => { c with lastNumber := n })
        fun _ => rfl :=
  Table.filter_update _ fun _ => rfl

theorem filter_setCounter {p : Uuid → Bool} (hp : p e = true) (n : Nat) (t : Table Counter) :
    ((setCounter e n t).filter fun c => p c.enterpriseId) =
      setCounter e n (t.filter fun c => p c.enterpriseId) := by
  unfold setCounter
  rw [filter_counter_update, Table.filter_insert (p := fun c : Counter => p c.enterpriseId) hp]
  intro c _ hkey
  have hc : c.enterpriseId = e := hkey
  rw [hc]
  exact hp

theorem filter_setCounter_neg {p : Uuid → Bool} (hp : p e = false) (n : Nat) (t : Table Counter) :
    ((setCounter e n t).filter fun c => p c.enterpriseId) = t.filter fun c => p c.enterpriseId := by
  unfold setCounter
  rw [filter_counter_update, Table.filter_insert_neg (p := fun c : Counter => p c.enterpriseId) hp]
  exact Table.update_of_none _ (t.find?_filter_key_neg hp)

theorem restrict_setLastNumber {p : Uuid → Bool} (hp : p e = true) (series : Series) (n : Nat) :
    (db.setLastNumber series e n).restrict p = (db.restrict p).setLastNumber series e n := by
  cases series with
  | salesInvoice =>
    simp only [Db.setLastNumber, Db.restrict, filter_setCounter hp]
  | journalEntry =>
    simp only [Db.setLastNumber, Db.restrict, filter_setCounter hp]

theorem restrict_setLastNumber_neg {p : Uuid → Bool} (hp : p e = false) (series : Series) (n : Nat) :
    (db.setLastNumber series e n).restrict p = db.restrict p := by
  cases series with
  | salesInvoice =>
    simp only [Db.setLastNumber, Db.restrict, filter_setCounter_neg hp]
  | journalEntry =>
    simp only [Db.setLastNumber, Db.restrict, filter_setCounter_neg hp]

theorem lastNumber_view (series : Series) :
    (db.restrict (· == e)).lastNumber series e = db.lastNumber series e := by
  have hcounters : (db.restrict (· == e)).counters series =
      (db.counters series).filter fun c => c.enterpriseId == e := by cases series <;> rfl
  have hfind : ((db.counters series).filter fun c => c.enterpriseId == e).find? e =
      (db.counters series).find? e :=
    (db.counters series).find?_filter_key (p := (· == e)) (beq_self_eq_true e)
  rw [Db.lastNumber, hcounters, hfind, Db.lastNumber]

/-! ## Any repository -/

namespace Repository

/-- The table of the repository, with its owner. -/
structure On (R : Repository ι φ ρ ν) (t : TenantTable ρ) : Prop where
  lawful : t.Lawful
  table : ∀ db, R.table db = t.get db
  put : ∀ db u, R.put db u = t.put db u
  owner : ∀ r, t.owner r = DocumentRow.enterpriseId r

theorem findFirst_view (hR : R.On t) (key : String) :
    R.findFirst (db.restrict (· == e)) e key = R.findFirst db e key := by
  rw [findFirst, hR.table, hR.lawful.get_restrict, Table.rows_filter, List.find?_filter, findFirst,
    hR.table]
  refine congrArg (fun q => (t.get db).rows.find? q) (funext fun r => ?_)
  rw [hR.owner]
  by_cases howner : DocumentRow.enterpriseId r = e
  · simp [howner]
  · simp [howner]

theorem replay_confined (hR : R.On t) (hc : c.enterpriseId = e)
    (hview : ∀ db, db.Intact → ∀ r ∈ (t.get db).rows, t.owner r = e →
      R.toView (db.restrict (· == e)) r = R.toView db r) :
    Confined (boundary e) P (R.replay c) fun _ => P := by
  refine .ask (fun db hs _ => ?_) fun _ _ _ hp _ => hp
  have hfound : (truthy c.idempotencyKey).bind (R.findFirst (db.restrict (· == e)) c.enterpriseId) =
      (truthy c.idempotencyKey).bind (R.findFirst db c.enterpriseId) := by
    rw [hc]
    exact congrArg _ (funext fun key => findFirst_view hR key)
  rw [boundary_view, hfound]
  refine congrArg Except.ok ?_
  cases hr : (truthy c.idempotencyKey).bind (R.findFirst db c.enterpriseId) with
  | none => rfl
  | some r =>
    obtain ⟨key, -, hkey⟩ := Option.bind_eq_some_iff.1 hr
    unfold findFirst at hkey
    have hmem : r ∈ (t.get db).rows := by
      rw [← hR.table]
      exact List.mem_of_find?_eq_some hkey
    have howner : t.owner r = e := by
      have hcolumns := List.find?_some hkey
      rw [hR.owner, ← hc]
      exact (of_decide_eq_true hcolumns).1
    exact congrArg some (hview db hs.intact r hmem howner)

theorem sequence_view : R.sequence e (db.restrict (· == e)) = R.sequence e db := by
  unfold sequence
  cases R.series with
  | none => rfl
  | some series =>
    simp only [lastNumber_view]

/-- A row of `e` inserted, and the counter set. -/
theorem commit_view (hR : R.On t) {r : ρ} (howner : t.owner r = e)
    (hfresh : Keyed.key r ∉ (db.rowsOfOthers e).ids) (n : Nat) :
    (R.commit e r n db).restrict (· == e) = R.commit e r n (db.restrict (· == e)) := by
  have hinsert : (R.insert r db).restrict (· == e) = R.insert r (db.restrict (· == e)) := by
    rw [insert, hR.put, TenantTable.view_put hR.lawful, hR.table,
      TenantTable.filter_insert_view hR.lawful howner hfresh, insert, hR.put, hR.table,
      hR.lawful.get_restrict]
  unfold commit
  cases R.series with
  | none => exact hinsert
  | some series =>
    simp only
    rw [restrict_setLastNumber (p := (· == e)) (beq_self_eq_true e), hinsert]

theorem commit_rest (hR : R.On t) {r : ρ} (howner : t.owner r = e) (n : Nat) :
    (R.commit e r n db).rowsOfOthers e = db.rowsOfOthers e := by
  have hinsert : (R.insert r db).rowsOfOthers e = db.rowsOfOthers e := by
    rw [insert, hR.put, hR.table]
    exact TenantTable.rest_put hR.lawful (TenantTable.filter_insert_rest howner)
  unfold commit
  cases R.series with
  | none => exact hinsert
  | some series =>
    simp only [Db.rowsOfOthers]
    rw [restrict_setLastNumber_neg (p := (· != e)) (by simp)]
    exact hinsert

theorem commit_serves (hR : R.On t) (hs : db.Serves e) {r : ρ} {n : Nat}
    (hI : (t.put db ((t.get db).insert r)).Intact) : (R.commit e r n db).Serves e := by
  have hinsert : (R.insert r db).Serves e := by
    rw [insert, hR.put, hR.table]
    exact TenantTable.serves_put hR.lawful hs hI
  unfold commit
  cases R.series with
  | none => exact hinsert
  | some series =>
    have htenants : ((R.insert r db).setLastNumber series e n).tenants =
        (R.insert r db).tenants := by cases series <;> rfl
    refine ⟨intact_setLastNumber hinsert.intact series e n, ?_, ?_⟩
    · simp only [Db.DistinctPrefixes, htenants]
      exact hinsert.prefixes
    · simp only [htenants]
      exact hinsert.tenant

/-- The four indexes. -/
theorem sameEntry_cases {x r : ρ} (h : sameEntry x r = true) : Keyed.key x = Keyed.key r ∨
    DocumentRow.enterpriseId x = DocumentRow.enterpriseId r ∨
    (∃ n, DocumentRow.number x = some n ∧ DocumentRow.number r = some n) ∨
    ∃ saleId, DocumentRow.saleId x = some saleId ∧ DocumentRow.saleId r = some saleId := by
  simp only [sameEntry, Bool.or_eq_true, Bool.and_eq_true, beq_iff_eq, Option.isSome_iff_exists] at h
  rcases h with ((hkey | ⟨⟨howner, -⟩, -⟩) | ⟨⟨n, hn⟩, hsame⟩) | ⟨⟨s, hs⟩, hsame⟩
  · exact .inl hkey
  · exact .inr (.inl howner)
  · exact .inr (.inr (.inl ⟨n, hn, hsame ▸ hn⟩))
  · exact .inr (.inr (.inr ⟨s, hs, hsame ▸ hs⟩))

/-- What an insert of `e` asks for. -/
structure Inserts (R : Repository ι φ ρ ν) (t : TenantTable ρ) (e : Uuid) (c : Create ι)
    (draw : Draw) (found : φ) (db : Db) : Prop where
  owner : ∀ n, t.owner (R.row c found n draw db.now) = e
  fresh : ∀ n, Keyed.key (R.row c found n draw db.now) ∉ (db.rowsOfOthers e).ids
  clash : ∀ n, ∀ x ∈ (t.get db).rows,
    sameEntry x (R.row c found n draw db.now) = true → t.owner x = e
  created : ∀ r, r = R.row c found (R.sequence e db) draw db.now →
    R.created found (R.insert r (db.restrict (· == e))) r = R.created found (R.insert r db) r
  intact : (t.put db ((t.get db).insert (R.row c found (R.sequence e db) draw db.now))).Intact

theorem insertRow_confined (hR : R.On t) (hc : c.enterpriseId = e) {found : φ}
    (h : ∀ db, db.Serves e → P db → R.Inserts t e c draw found db) :
    Confined (boundary e) P (R.insertRow c draw found) fun _ _ => True := by
  subst hc
  intro db hs hp
  have hi : R.Inserts t c.enterpriseId c draw found db := h db hs hp
  obtain ⟨r, hr⟩ : ∃ r, R.row c found (R.sequence c.enterpriseId db) draw db.now = r := ⟨_, rfl⟩
  have howner : t.owner r = c.enterpriseId := hr ▸ hi.owner _
  have hrefuses : R.refuses (db.restrict (· == c.enterpriseId)) r = R.refuses db r := by
    rw [refuses, hR.table, refuses, hR.table]
    exact TenantTable.any_view hR.lawful fun x hx hsame => hi.clash _ x hx (hr ▸ hsame)
  have hview : R.insertRow c draw found (db.restrict (· == c.enterpriseId)) =
      (R.insertRow c draw found db).map fun x => (x.1, x.2.restrict (· == c.enterpriseId)) := by
    simp only [insertRow, sequence_view, now_restrict, hr, hrefuses]
    split
    · split <;> rfl
    · rw [hi.created r hr.symm, ← commit_view hR howner (hr ▸ hi.fresh _)]
      rfl
  refine ⟨hview, fun a db' hok => ?_⟩
  have hdb : db' = R.commit c.enterpriseId r (R.sequence c.enterpriseId db) db := by
    simp only [insertRow, hr] at hok
    split at hok
    · split at hok <;> cases hok
    · cases hok
      rfl
  subst hdb
  exact ⟨commit_serves hR hs (hr ▸ hi.intact), commit_rest hR howner _, trivial⟩

/-- A `create` of `e`, from its lookups and its insert. -/
theorem create_confined (hR : R.On t) (hc : c.enterpriseId = e) {K : φ → Db → Prop}
    (hview : ∀ db, db.Intact → ∀ r ∈ (t.get db).rows, t.owner r = e →
      R.toView (db.restrict (· == e)) r = R.toView db r)
    (hlookups : Confined (boundary e) P (R.lookUp c) fun found db => P db ∧ K found db)
    (hinserts : ∀ found db, db.Serves e → P db → K found db → R.Inserts t e c draw found db)
    (hconflict : ∀ conflict db err, R.conflict = some conflict → db.Serves e → P db →
      isRequestError err = true → R.transaction c draw db = .error err →
      conflict (db.restrict (· == e)) c.input = conflict db c.input) :
    Confined (boundary e) P (R.create c draw) fun _ _ => True := by
  unfold create
  cases R.precheck c.input with
  | some err => exact .throw err
  | none =>
    refine .rescue ?_ fun err => ?_
    · refine (replay_confined hR hc hview).bind fun found => ?_
      cases found with
      | some view => exact .pure _ fun _ _ => trivial
      | none =>
        refine hlookups.bind fun found => insertRow_confined hR hc fun db hs h => ?_
        exact hinserts found db hs h.1 h.2
    · refine .ite (fun hrequest => ?_) fun _ => .throw err
      refine (replay_confined hR hc hview).bind fun found => ?_
      cases found with
      | some view => exact .pure _ fun _ _ => trivial
      | none =>
        refine .ask (fun db hs h => ?_) fun _ _ _ _ _ => trivial
        rw [boundary_view]
        cases hconf : R.conflict with
        | none => rfl
        | some conflict =>
          have hsame := hconflict conflict db err hconf hs h.1 (Bool.and_eq_true_iff.1 hrequest).2 h.2
          simp only [Option.bind_some, hsame]

end Repository

/-! ## Lookups by identifier -/

section
variable {ρ : Type} [Keyed ρ Uuid] {t : Table ρ} {owner : ρ → Uuid} {missing : String}
  {ids : List Uuid}

/-- Every identifier that was asked for is one of the enterprise's rows. -/
theorem findAll_owns {found : List ρ} (h : findAll t owner missing e ids = .ok found) :
    ∀ id ∈ ids, Owns t owner e id := by
  exact findAll_ok h

/-- The unfiltered `findMany` and the loop after it see the rows of the enterprise only. -/
theorem findAll_view :
    findAll (t.filter fun r => owner r == e) owner missing e ids = findAll t owner missing e ids := by
  have hany : ∀ id, (((t.filter fun r => owner r == e).rows.filter fun r =>
      ids.eraseDups.contains (Keyed.key r)).any fun r => Keyed.key r == id && owner r == e) =
      ((t.rows.filter fun r => ids.eraseDups.contains (Keyed.key r)).any fun r =>
        Keyed.key r == id && owner r == e) := by
    intro id
    rw [Table.rows_filter, List.any_filter, List.any_filter, List.any_filter]
    refine congrArg t.rows.any (funext fun r => ?_)
    by_cases howner : owner r = e
    · simp [howner]
    · simp [howner]
  cases hfound : findAll t owner missing e ids with
  | error err =>
    simp only [findAll] at hfound ⊢
    simp only [hany]
    split at hfound
    · exact hfound
    · cases hfound
  | ok found =>
    have howns : ∀ id ∈ ids, Owns t owner e id := findAll_owns hfound
    simp only [findAll] at hfound ⊢
    simp only [hany]
    split at hfound
    · cases hfound
    · cases hfound
      refine congrArg Except.ok ?_
      rw [Table.rows_filter, List.filter_filter]
      refine List.filter_congr fun r hr => ?_
      by_cases hid : ids.eraseDups.contains (Keyed.key r) = true
      · obtain ⟨x, hx, howner⟩ := howns (Keyed.key r) (List.mem_eraseDups.1 (by simpa using hid))
        rw [Table.find?_of_mem hr] at hx
        have hre : owner r = e := by rw [Option.some.inj hx, howner]
        simp [hre]
      · simp only [hid, Bool.false_and]

end

theorem findParty_view (kind : DocKind) (missing : String) (partyId : Uuid) :
    findParty kind missing e partyId (db.restrict (· == e)) = findParty kind missing e partyId db := by
  rw [findParty, parties_restrict, findParty]
  rcases find?_owned (db.parties kind) Party.enterpriseId e partyId with
    ⟨hfind, hview⟩ | ⟨p, hfind, howner, hview⟩ | ⟨p, hfind, howner, hview⟩
  · rw [hview, hfind]
  · rw [hview, hfind]
  · rw [hview, hfind]
    exact (if_neg howner).symm

theorem findParty_owns {kind : DocKind} {missing : String} {partyId : Uuid} {p : Party}
    (h : findParty kind missing e partyId db = .ok p) :
    Owns (db.parties kind) Party.enterpriseId e partyId := by
  unfold findParty at h
  split at h
  · rename_i hp
    split at h <;> cases h
    rename_i howner
    exact ⟨p, hp, howner⟩
  · cases h

/-! ## Sales and purchases -/

section
variable {kind : DocKind} {missing : String}
  {unitPrice : DocumentLineInput → Option Product → Int} {c : Create DocumentInput}

theorem documentRepository_on : (documentRepository kind missing unitPrice).On (documents kind) where
  lawful := TenantTable.documents_lawful kind
  table _ := rfl
  put _ _ := rfl
  owner _ := rfl

/-- What the lookups of a sale or a purchase have found. -/
def DocumentKnown (kind : DocKind) (e : Uuid) (input : DocumentInput) (db : Db) : Prop :=
  Owns (db.parties kind) Party.enterpriseId e input.partyId ∧
    ∀ l ∈ input.lines, Owns db.products Product.enterpriseId e l.productId

theorem document_lookUp_confined (hc : c.enterpriseId = e) :
    Confined (boundary e) P ((documentRepository kind missing unitPrice).lookUp c)
      fun _ db => P db ∧ DocumentKnown kind e c.input db := by
  subst hc
  refine .ask (fun db _ _ => ?_) fun db found _ hp hok => ⟨hp, ?_⟩
  · have hproducts : findProducts c.enterpriseId c.input.lines
        (db.restrict (· == c.enterpriseId)) = findProducts c.enterpriseId c.input.lines db :=
      findAll_view
    simp only [Repository.gather, documentRepository, List.foldlM_cons, List.foldlM_nil, boundary_view,
      findParty_view, hproducts]
  · simp only [Repository.gather, documentRepository, List.foldlM_cons, List.foldlM_nil] at hok
    cases hparty : findParty kind missing c.enterpriseId c.input.partyId db with
    | error err =>
      rw [hparty] at hok
      cases hok
    | ok p =>
      rw [hparty] at hok
      cases hproducts : findProducts c.enterpriseId c.input.lines db with
      | error err =>
        simp only [hproducts] at hok
        cases hok
      | ok products =>
        exact ⟨findParty_owns hparty, fun l hl =>
          findAll_owns hproducts _ (List.mem_map_of_mem hl)⟩

/-- The references of a new document are those its lookups have checked. -/
theorem newDocument_refs {products : List Product} {now : Instant}
    (h : DocumentKnown kind c.enterpriseId c.input db) :
    (newDocument unitPrice c products draw now).RefsOk db kind where
  party := h.1
  lines l hl := by
    obtain ⟨x, hx, rfl⟩ := List.mem_map.1 hl
    exact h.2 x.1 (List.fst_mem_of_mem_zipIdx hx)

theorem document_create_confined (hc : c.enterpriseId = e) :
    Confined (boundary e) (draw.FreshFor e)
      ((documentRepository kind missing unitPrice).create c draw) fun _ _ => True := by
  refine Repository.create_confined documentRepository_on hc
    (fun db hI d hd howner => documentView_view (hI.documents kind d hd) howner)
    (document_lookUp_confined hc) (fun found db hs hfresh hknown => ?_) fun _ _ _ h => by cases h
  subst hc
  have hrefs : (newDocument unitPrice c found draw db.now).RefsOk db kind := newDocument_refs hknown
  refine ⟨fun _ => rfl, fun _ => hfresh, fun n x hx hsame => ?_, fun r hr => ?_, ?_⟩
  · rcases Repository.sameEntry_cases hsame with hkey | howner | ⟨n, hn, -⟩ | ⟨saleId, hsale, -⟩
    · exact TenantTable.owner_of_fresh (TenantTable.documents_lawful kind)
        (r := newDocument unitPrice c found draw db.now) hfresh hx hkey
    · exact howner
    · cases hn
    · cases hsale
  · subst hr
    have hview : ∀ db' : Db, (documentRepository kind missing unitPrice).created found
        ((documentRepository kind missing unitPrice).insert
          (newDocument unitPrice c found draw db.now) db') (newDocument unitPrice c found draw db.now) =
        db'.documentView kind (newDocument unitPrice c found draw db.now) := by
      intro db'
      cases kind <;> rfl
    exact (hview _).trans ((documentView_view hrefs rfl).trans (hview db).symm)
  · refine intact_put_documents hs.intact kind (keepsOwners_insert _ _ _) fun d hd => ?_
    rcases Table.mem_insert hd with hold | rfl
    · exact hs.intact.documents kind d hold
    · exact hrefs

end

/-! ## Journal entries -/

/-- A number of the enterprise is written by no other. -/
theorem owner_of_number (hs : db.Serves e) {series : Series} {e' : Uuid} {n : Nat}
    (h : db.Numbered series e' (series.number e n)) : e' = e := by
  obtain ⟨htenant, n', hn⟩ := h
  exact hs.prefixes e' htenant e hs.tenant ((seriesNumber_inj series e e' n n').1 hn).1.symm

section
variable {c : Create CreateJournalEntryInput}

theorem journalRepository_on : journalRepository.On journalEntries where
  lawful := TenantTable.journalEntries_lawful
  table _ := rfl
  put _ _ := rfl
  owner _ := rfl

theorem entry_lookUp_confined (hc : c.enterpriseId = e) :
    Confined (boundary e) P (journalRepository.lookUp c) fun _ db => P db ∧
      ∀ l ∈ c.input.lines, Owns db.accounts Account.enterpriseId e l.accountId := by
  subst hc
  refine .ask (fun db _ _ => ?_) fun db found _ hp hok => ⟨hp, ?_⟩
  · have haccounts : findAccounts c.enterpriseId c.input.lines
        (db.restrict (· == c.enterpriseId)) = findAccounts c.enterpriseId c.input.lines db :=
      findAll_view
    simp only [Repository.gather, journalRepository, List.foldlM_cons, List.foldlM_nil, boundary_view,
      haccounts]
  · simp only [Repository.gather, journalRepository, List.foldlM_cons, List.foldlM_nil] at hok
    cases haccounts : findAccounts c.enterpriseId c.input.lines db with
    | error err =>
      rw [haccounts] at hok
      cases hok
    | ok accounts =>
      exact fun l hl => findAll_owns haccounts _ (List.mem_map_of_mem hl)

theorem newEntry_refs {n : Nat} {now : Instant}
    (h : ∀ l ∈ c.input.lines, Owns db.accounts Account.enterpriseId c.enterpriseId l.accountId) :
    (newEntry c n draw now).RefsOk db where
  owner l hl := by
    obtain ⟨x, -, rfl⟩ := List.mem_map.1 hl
    rfl
  accounts l hl := by
    obtain ⟨x, hx, rfl⟩ := List.mem_map.1 hl
    exact h x.1 (List.fst_mem_of_mem_zipIdx hx)

theorem entry_create_confined (hc : c.enterpriseId = e) :
    Confined (boundary e) (draw.FreshFor e) (journalRepository.create c draw) fun _ _ => True := by
  refine Repository.create_confined journalRepository_on hc
    (fun db hI en hen howner => entryView_view (hI.entries en hen) howner)
    (entry_lookUp_confined hc) (fun found db hs hfresh hknown => ?_) fun _ _ _ h => by cases h
  subst hc
  have hrefs : ∀ n, (newEntry c n draw db.now).RefsOk db := fun n => newEntry_refs hknown
  refine ⟨fun _ => rfl, fun _ => hfresh, fun n x hx hsame => ?_, fun r hr => ?_, ?_⟩
  · rcases Repository.sameEntry_cases hsame with hkey | howner | ⟨number, hn, hn'⟩ | ⟨s, hsale, -⟩
    · exact TenantTable.owner_of_fresh TenantTable.journalEntries_lawful
        (r := newEntry c n draw db.now) hfresh hx hkey
    · exact howner
    · have hnumber : x.number = Series.journalEntry.number c.enterpriseId n :=
        Option.some.inj (hn.trans hn'.symm)
      exact owner_of_number hs (hnumber ▸ hs.intact.entryNumbers x hx)
    · cases hsale
  · subst hr
    exact entryView_view (hrefs _) rfl
  · refine intact_put_journalEntries hs.intact (fun en hen => ?_) fun en hen => ?_
    · rcases Table.mem_insert hen with hold | rfl
      · exact hs.intact.entries en hold
      · exact hrefs _
    · rcases Table.mem_insert hen with hold | rfl
      · exact hs.intact.entryNumbers en hold
      · exact ⟨hs.tenant, _, rfl⟩

end

/-! ## Invoices -/

section
variable {c : Create CreateSalesInvoiceInput}

theorem invoicingRepository_on : invoicingRepository.On salesInvoices where
  lawful := TenantTable.salesInvoices_lawful
  table _ := rfl
  put _ _ := rfl
  owner _ := rfl

theorem findSale_owns {saleId : Uuid} {found found' : InvoiceFound}
    (h : findSale e saleId found db = .ok found') :
    Owns db.sales Document.enterpriseId e saleId := by
  unfold findSale at h
  split at h
  · cases h
  · rename_i sale hsale
    split_ifs at h with howner hstatus
    exact ⟨sale, hsale, not_not.1 howner⟩

theorem findSale_view (hI : db.Intact) (saleId : Uuid) (found : InvoiceFound) :
    findSale e saleId found (db.restrict (· == e)) = findSale e saleId found db := by
  have hsales : (db.restrict (· == e)).sales = db.sales.filter fun d => d.enterpriseId == e := rfl
  rw [findSale, hsales, findSale]
  rcases find?_owned db.sales Document.enterpriseId e saleId with
    ⟨hfind, hview⟩ | ⟨sale, hfind, howner, hview⟩ | ⟨sale, hfind, howner, hview⟩
  · rw [hview, hfind]
  · have hrefs : sale.RefsOk db .sale := hI.documents .sale sale (Table.mem_of_find? hfind)
    have hcustomer : Owns db.customers Party.enterpriseId e sale.partyId := howner ▸ hrefs.party
    have hparty : (db.restrict (· == e)).customers.find? sale.partyId =
        db.customers.find? sale.partyId := hcustomer.find?_filter
    rw [hview, hfind]
    simp only [hparty, documentView_view hrefs howner]
  · rw [hview, hfind]
    exact (if_pos howner).symm

/-- An invoice of a sale of `e` is one of `e`: the lookup by sale alone sees no other. -/
theorem invoiceOf_view (hI : db.Intact) {saleId : Uuid}
    (h : Owns db.sales Document.enterpriseId e saleId) :
    (db.restrict (· == e)).invoiceOf saleId = db.invoiceOf saleId := by
  have hinvoices : (db.restrict (· == e)).salesInvoices.rows =
      db.salesInvoices.rows.filter fun i => i.enterpriseId == e := rfl
  rw [Db.invoiceOf, hinvoices, List.find?_filter, Db.invoiceOf]
  obtain ⟨sale, hsale, howner⟩ := h
  refine List.find?_congr fun i hi => ?_
  by_cases hid : i.saleId = saleId
  · obtain ⟨sale', hsale', howner'⟩ := hI.sales i hi
    rw [hid, hsale] at hsale'
    have hie : i.enterpriseId = e := by rw [← howner', ← Option.some.inj hsale', howner]
    simp [hie]
  · simp [hid]

theorem enterprise_view : (db.restrict (· == e)).enterprises.find? e = db.enterprises.find? e :=
  db.enterprises.find?_filter_key (p := (· == e)) (beq_self_eq_true e)

/-- The first lookup decides whose sale it is. -/
theorem invoice_gather_eq {found : InvoiceFound}
    (h : findSale c.enterpriseId c.input.saleId {} db = .ok found) :
    invoicingRepository.gather c.enterpriseId c.input db =
      if (db.invoiceOf c.input.saleId).isSome then .error alreadyInvoiced
      else match db.enterprises.find? c.enterpriseId with
        | none => .error (.prisma .p2025)
        | some enterprise => .ok { found with enterprise := some enterprise } := by
  simp only [Repository.gather, invoicingRepository, List.foldlM_cons, List.foldlM_nil, h]
  split
  · rfl
  · simp only [Bind.bind, Except.bind]
    cases db.enterprises.find? c.enterpriseId <;> rfl

theorem invoice_gather_error {err : ApiError}
    (h : findSale c.enterpriseId c.input.saleId {} db = .error err) :
    invoicingRepository.gather c.enterpriseId c.input db = .error err := by
  simp only [Repository.gather, invoicingRepository, List.foldlM_cons, h]
  rfl

theorem invoice_gather_view (hI : db.Intact) :
    invoicingRepository.gather c.enterpriseId c.input (db.restrict (· == c.enterpriseId)) =
      invoicingRepository.gather c.enterpriseId c.input db := by
  cases hsale : findSale c.enterpriseId c.input.saleId {} db with
  | error err =>
    rw [invoice_gather_error hsale, invoice_gather_error ((findSale_view hI _ _).trans hsale)]
  | ok found =>
    rw [invoice_gather_eq hsale, invoice_gather_eq ((findSale_view hI _ _).trans hsale),
      invoiceOf_view hI (findSale_owns hsale), enterprise_view]

/-- What a sale lookup throws never opens the `catch` of `create`. -/
theorem findSale_error {saleId : Uuid} {found : InvoiceFound} {err : ApiError}
    (h : findSale e saleId found db = .error err) : isRequestError err = false := by
  unfold findSale at h
  split at h
  · cases h
    rfl
  · split_ifs at h <;> cases h <;> rfl

theorem invoice_lookUp_confined (hc : c.enterpriseId = e) :
    Confined (boundary e) P (invoicingRepository.lookUp c) fun _ db => P db ∧
      Owns db.sales Document.enterpriseId e c.input.saleId := by
  subst hc
  refine .ask (fun db hs _ => invoice_gather_view hs.intact) fun db found _ hp hok => ⟨hp, ?_⟩
  cases hsale : findSale c.enterpriseId c.input.saleId {} db with
  | error err =>
    have herror : Except.error err = Except.ok found := (invoice_gather_error hsale).symm.trans hok
    cases herror
  | ok _ => exact findSale_owns hsale

/-- A request error comes after the check of the sale. -/
theorem owns_of_requestError {err : ApiError} (hrequest : isRequestError err = true)
    (h : invoicingRepository.transaction c draw db = .error err) :
    Owns db.sales Document.enterpriseId c.enterpriseId c.input.saleId := by
  cases hsale : findSale c.enterpriseId c.input.saleId {} db with
  | ok _ => exact findSale_owns hsale
  | error err' =>
    have hlookups : invoicingRepository.lookUp c db = .error err' :=
      ask_of_error (invoice_gather_error hsale)
    rw [Repository.transaction, Repository.replay_bind] at h
    cases hfound : (truthy c.idempotencyKey).bind (invoicingRepository.findFirst db c.enterpriseId) with
    | some existing =>
      rw [hfound] at h
      cases h
    | none =>
      rw [hfound] at h
      have herror : invoicingRepository.insertNew c draw db = .error err' := bind_of_error hlookups
      have hsame : Except.error err' = Except.error err := herror.symm.trans h
      cases hsame
      rw [findSale_error hsale] at hrequest
      cases hrequest

theorem invoice_create_confined (hc : c.enterpriseId = e) :
    Confined (boundary e) (draw.FreshFor e) (invoicingRepository.create c draw) fun _ _ => True := by
  refine Repository.create_confined invoicingRepository_on hc (fun db hI i hi howner => ?_)
    (invoice_lookUp_confined hc) (fun found db hs hfresh hknown => ?_)
    fun conflict db err hconf hs _ hrequest herr => ?_
  · obtain ⟨sale, hsale, hsale', hview, -⟩ := sale_view hI hi howner
    simp only [invoicingRepository, Db.invoiceView, hsale, hsale', Option.map_some, hview]
  · subst hc
    refine ⟨fun _ => rfl, fun _ => hfresh, fun n x hx hsame => ?_, fun _ _ => rfl, ?_⟩
    · rcases Repository.sameEntry_cases hsame with
        hkey | howner | ⟨number, hn, hn'⟩ | ⟨s, hsale, hsale'⟩
      · exact TenantTable.owner_of_fresh TenantTable.salesInvoices_lawful
          (r := newInvoice c found n draw db.now) hfresh hx hkey
      · exact howner
      · have hnumber : x.number = Series.salesInvoice.number c.enterpriseId n :=
          Option.some.inj (hn.trans hn'.symm)
        exact owner_of_number hs (hnumber ▸ hs.intact.invoiceNumbers x hx)
      · -- two invoices of one sale belong to the owner of the sale
        have hid : x.saleId = c.input.saleId := Option.some.inj (hsale.trans hsale'.symm)
        obtain ⟨sale, hfind, howner⟩ := hs.intact.sales x hx
        obtain ⟨sale', hfind', howner'⟩ := hknown
        rw [hid, hfind'] at hfind
        have hxe : x.enterpriseId = c.enterpriseId := by
          rw [← howner, ← Option.some.inj hfind, howner']
        exact hxe
    · refine intact_put_salesInvoices hs.intact (fun i hi => ?_) fun i hi => ?_
      · rcases Table.mem_insert hi with hold | rfl
        · exact hs.intact.sales i hold
        · exact hknown
      · rcases Table.mem_insert hi with hold | rfl
        · exact hs.intact.invoiceNumbers i hold
        · exact ⟨hs.tenant, _, rfl⟩
  · subst hc
    cases hconf
    have howns := owns_of_requestError hrequest herr
    simp only [invoiceOf_view hs.intact howns]

end

end Gescom.Erp
