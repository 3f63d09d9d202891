import Gescom.Erp.Numbering
import Gescom.Erp.Stock

/-!
# The five creations that take an idempotency key

`POST /sales`, `/purchases`, `/invoices`, `/accounting/journal-entries` and `/stock/movements` on one
database. What a `create` inserts belongs to the enterprise of what its input names first: a
customer, a supplier, a sale, an account or a product.
-/

namespace Gescom.Erp

open ReadCommitted Transition

/-! ## The calls -/

inductive Kind where
  | sale | purchase | invoice | entry
  deriving DecidableEq, Repr

namespace Kind

def all : List Kind := [sale, purchase, invoice, entry]

abbrev Input : Kind → Type
  | sale | purchase => DocumentInput
  | invoice => CreateSalesInvoiceInput
  | entry => CreateJournalEntryInput

abbrev Found : Kind → Type
  | sale | purchase => List Product
  | invoice => InvoiceFound
  | entry => List Account

abbrev Row : Kind → Type
  | sale | purchase => Document
  | invoice => SalesInvoice
  | entry => JournalEntry

abbrev View : Kind → Type
  | sale | purchase => DocumentView
  | invoice => Option SalesInvoiceView
  | entry => JournalEntryView

instance (k : Kind) : DocumentRow k.Row :=
  match k with
  | sale | purchase => inferInstanceAs (DocumentRow Document)
  | invoice => inferInstanceAs (DocumentRow SalesInvoice)
  | entry => inferInstanceAs (DocumentRow JournalEntry)

def repository : (k : Kind) → Repository k.Input k.Found k.Row k.View
  | sale => salesRepository
  | purchase => purchasesRepository
  | invoice => invoicingRepository
  | entry => journalRepository

def rows (k : Kind) (db : Db) : List k.Row := (k.repository.table db).rows

end Kind

inductive Endpoint where
  | create (k : Kind)
  | movement
  deriving DecidableEq, Repr

/-- A call with its arguments. -/
inductive Arguments where
  | create (k : Kind) (c : Create k.Input)
  | movement (enterpriseId : Uuid) (input : CreateStockMovementInput)
    (idempotencyKey : Option String)

def Arguments.idempotencyKey : Arguments → Option String
  | create _ c => c.idempotencyKey
  | movement _ _ key => key

inductive Call where
  | create (k : Kind) (c : Create k.Input) (st : CreateState k.Found k.Row k.View)
  | movement (enterpriseId : Uuid) (input : CreateStockMovementInput)
    (idempotencyKey : Option String) (r : Option (Except ApiError MovementResult))

def Arguments.call : Arguments → Call
  | create k c => .create k c .checking
  | movement e input key => .movement e input key none

def Call.arguments : Call → Arguments
  | create k c _ => .create k c
  | movement e input key _ => .movement e input key

/-- The call has returned, and has not thrown. -/
def Call.Returned : Call → Prop
  | create _ _ (.finished (.ok _)) => True
  | movement _ _ _ (some (.ok _)) => True
  | _ => False

def Call.step (pid : Nat) (i : Input) (s : ErpStore) : Call → Option (ErpStore × Call)
  | create k c st =>
    match i with
    | .proceed draw => (k.repository.step c pid draw s st).map fun r => (r.1, .create k c r.2)
    | .fail => (k.repository.failed c st).map fun st' => (s.release pid, .create k c st')
  | movement e input key none =>
    match i with
    | .fail => some (s, .movement e input key (some (.error statementFailed)))
    | .proceed draw =>
      match createMovement e input key draw.id s.db with
      | .error err => some (s, .movement e input key (some (.error err)))
      | .ok (r, db) => some ({ s with db := db }, .movement e input key (some (.ok r)))
  | movement _ _ _ (some _) => none

/-- The rows that were created with the key, in any table. -/
def Db.createdWith (db : Db) (key : String) : List (Endpoint × Uuid) :=
  (Kind.all.flatMap fun k =>
    ((k.rows db).filter fun r => DocumentRow.idempotencyKey r = some key).map fun r =>
      (.create k, Keyed.key r)) ++
    (db.movements.filter fun m => m.idempotencyKey = some key).map fun m => (.movement, m.id)

/-! ## What the rows belong to -/

/-- What the input names first is the enterprise's. -/
def Kind.Owned (db : Db) (e : Uuid) : (k : Kind) → k.Input → Prop
  | .sale, input => ∃ p, db.customers.find? input.partyId = some p ∧ p.enterpriseId = e
  | .purchase, input => ∃ p, db.suppliers.find? input.partyId = some p ∧ p.enterpriseId = e
  | .invoice, input => ∃ sale, db.sales.find? input.saleId = some sale ∧ sale.enterpriseId = e
  | .entry, input => ∃ l a, input.lines.head? = some l ∧
      db.accounts.find? l.accountId = some a ∧ a.enterpriseId = e

def OwnedProduct (db : Db) (e productId : Uuid) : Prop :=
  ∃ p, db.products.find? productId = some p ∧ p.enterpriseId = e

/-- Two enterprises do not own the same row. -/
theorem Kind.Owned.unique {db : Db} {e e' : Uuid} {k : Kind} {input : k.Input}
    (h : k.Owned db e input) (h' : k.Owned db e' input) : e = e' := by
  cases k with
  | sale =>
    obtain ⟨p, hp, rfl⟩ := h
    obtain ⟨p', hp', rfl⟩ := h'
    rw [Option.some.inj (hp.symm.trans hp')]
  | purchase =>
    obtain ⟨p, hp, rfl⟩ := h
    obtain ⟨p', hp', rfl⟩ := h'
    rw [Option.some.inj (hp.symm.trans hp')]
  | invoice =>
    obtain ⟨p, hp, rfl⟩ := h
    obtain ⟨p', hp', rfl⟩ := h'
    rw [Option.some.inj (hp.symm.trans hp')]
  | entry =>
    obtain ⟨l, a, hl, ha, rfl⟩ := h
    obtain ⟨l', a', hl', ha', rfl⟩ := h'
    obtain rfl := Option.some.inj (hl.symm.trans hl')
    rw [Option.some.inj (ha.symm.trans ha')]

theorem findParty_ok {kind : DocKind} {missing : String} {e partyId : Uuid} {db : Db} {p : Party}
    (h : findParty kind missing e partyId db = .ok p) :
    (db.parties kind).find? partyId = some p ∧ p.enterpriseId = e := by
  simp only [findParty] at h
  split at h
  · split at h <;> cases h
    rename_i hp howner
    exact ⟨hp, howner⟩
  · cases h

/-- An entry that passes the check has a line. -/
theorem head_of_check {input : CreateJournalEntryInput} (h : input.check = none) :
    ∃ l, input.lines.head? = some l := by
  unfold CreateJournalEntryInput.check at h
  cases hlines : input.lines with
  | nil => simp [hlines] at h
  | cons l ls => exact ⟨l, rfl⟩

/-- The first lookup of every `create` looks at what the input names first. -/
theorem lookups_owned (k : Kind) {e : Uuid} {input : k.Input} {found found' : k.Found} {db : Db}
    (hcheck : k.repository.precheck input = none) {lookup : k.Found → Db → Except ApiError k.Found}
    {rest : List (k.Found → Db → Except ApiError k.Found)}
    (hlookups : k.repository.lookups e input = lookup :: rest) (h : lookup found db = .ok found') :
    k.Owned db e input := by
  cases k with
  | sale =>
    obtain ⟨rfl, -⟩ := List.cons.inj hlookups
    cases hparty : findParty .sale "Client introuvable" e input.partyId db with
    | error err => simp [hparty, Except.map] at h
    | ok p => exact ⟨p, findParty_ok hparty⟩
  | purchase =>
    obtain ⟨rfl, -⟩ := List.cons.inj hlookups
    cases hparty : findParty .purchase "Fournisseur introuvable" e input.partyId db with
    | error err => simp [hparty, Except.map] at h
    | ok p => exact ⟨p, findParty_ok hparty⟩
  | invoice =>
    obtain ⟨rfl, -⟩ := List.cons.inj hlookups
    simp only [findSale] at h
    split at h
    · cases h
    · rename_i sale hsale
      split_ifs at h with howner hstatus
      exact ⟨sale, hsale, by simpa using howner⟩
  | entry =>
    obtain ⟨rfl, -⟩ := List.cons.inj hlookups
    obtain ⟨l, hl⟩ := head_of_check hcheck
    obtain ⟨a, ha, howner⟩ := findAccounts_ok h l (List.mem_of_mem_head? hl)
    exact ⟨l, a, hl, ha, howner⟩

theorem lookups_ne_nil (k : Kind) (e : Uuid) (input : k.Input) :
    k.repository.lookups e input ≠ [] := by
  cases k <;> exact List.cons_ne_nil _ _

/-! ## What a commit leaves -/

section
variable {db : Db} {e e' : Uuid} {n : Nat}

theorem rows_commit_ne {k k' : Kind} (h : k' ≠ k) (row : k.Row) :
    k'.rows (k.repository.commit e row n db) = k'.rows db := by
  cases k <;> cases k' <;> first | exact absurd rfl h | rfl

theorem movements_commit (k : Kind) (row : k.Row) :
    (k.repository.commit e row n db).movements = db.movements := by
  cases k <;> rfl

theorem products_commit (k : Kind) (row : k.Row) :
    (k.repository.commit e row n db).products = db.products := by
  cases k <;> rfl

theorem rows_movements (k : Kind) (ms : List StockMovement) :
    k.rows { db with movements := ms } = k.rows db := by
  cases k <;> rfl

theorem owned_movements {k : Kind} {input : k.Input} (h : k.Owned db e input)
    (ms : List StockMovement) : k.Owned { db with movements := ms } e input := by
  cases k <;> exact h

theorem owned_commit (k : Kind) (row : k.Row) {k' : Kind} {input : k'.Input}
    (h : k'.Owned db e' input) : k'.Owned (k.repository.commit e row n db) e' input := by
  cases k with
  | sale =>
    cases k' with
    | invoice =>
      obtain ⟨sale, hsale, howner⟩ := h
      exact ⟨sale, Table.find?_insert_of_some hsale, howner⟩
    | _ => exact h
  | _ => cases k' <;> exact h

end

/-! ## The indexes -/

/-- The columns of a row that its unique indexes are about. -/
def columns {ρ : Type} [DocumentRow ρ] (r : ρ) :
    Uuid × Uuid × Option String × Option String × Option Uuid :=
  (Keyed.key r, DocumentRow.enterpriseId r, DocumentRow.idempotencyKey r, DocumentRow.number r,
    DocumentRow.saleId r)

theorem sameEntry_congr {ρ : Type} [DocumentRow ρ] {a a' b b' : ρ} (ha : columns a = columns a')
    (hb : columns b = columns b') :
    Repository.sameEntry a b = Repository.sameEntry a' b' := by
  simp only [columns, Prod.mk.injEq] at ha hb
  simp only [Repository.sameEntry, ha, hb]

/-- `@@unique([enterpriseId, idempotencyKey])`; an index does not hold nulls. -/
def MovementsIndexed (db : Db) : Prop :=
  db.movements.Pairwise fun a b => a.enterpriseId = b.enterpriseId →
    a.idempotencyKey = b.idempotencyKey → a.idempotencyKey = none

structure IndexesOk (db : Db) : Prop where
  rows : ∀ k : Kind, k.repository.Indexed db
  movements : MovementsIndexed db

/-! ## What a call knows -/

/-- A row that is inserted and not committed. -/
structure Inserted (k : Kind) (c : Create k.Input) (pid : Nat) (s : ErpStore) (row : k.Row) :
    Prop where
  owned : k.Owned s.db c.enterpriseId c.input
  owner : DocumentRow.enterpriseId row = c.enterpriseId
  key : DocumentRow.idempotencyKey row = c.idempotencyKey
  held : ∀ lock ∈ k.repository.locks row, s.lock lock = some pid
  accepted : k.repository.refuses s.db row = false

/-- There is a row with the key. -/
def Kind.HasKey (k : Kind) (db : Db) (e : Uuid) (key : Option String) : Prop :=
  ∀ x, truthy key = some x → ∃ r ∈ k.rows db, DocumentRow.enterpriseId r = e ∧
    DocumentRow.idempotencyKey r = some x

def CreateKnows (k : Kind) (c : Create k.Input) (pid : Nat) (s : ErpStore) :
    CreateState k.Found k.Row k.View → Prop
  | .reading _ rest => k.repository.precheck c.input = none ∧
      (rest = k.repository.lookups c.enterpriseId c.input ∨ k.Owned s.db c.enterpriseId c.input)
  | .numbering _ | .inserting _ _ => k.Owned s.db c.enterpriseId c.input
  | .committing row _ _ => Inserted k c pid s row
  | .finished (.ok _) => k.HasKey s.db c.enterpriseId c.idempotencyKey
  | _ => True

def Call.Knows (pid : Nat) (s : ErpStore) : Call → Prop
  | create k c st => CreateKnows k c pid s st
  | movement e _ key (some (.ok _)) => ∀ x, truthy key = some x →
      ∃ m ∈ s.db.movements, m.enterpriseId = e ∧ m.idempotencyKey = some x
  | _ => True

/-- What a step of `pid` does to the rows of one kind. -/
def RowsStep (k : Kind) (pid : Nat) (s s' : ErpStore) : Prop :=
  (∃ f : k.Row → k.Row, (∀ r, columns (f r) = columns r) ∧ k.rows s'.db = (k.rows s.db).map f) ∨
    ∃ row, k.rows s'.db = k.rows s.db ++ [row] ∧
      ∀ lock ∈ k.repository.locks row, s.lock lock = some pid

/-- What a step of `pid` is for the others. -/
structure ServerStep (pid : Nat) (s s' : ErpStore) : Prop where
  locks : LocksKept pid s s'
  owned : ∀ (k : Kind) e input, k.Owned s.db e input → k.Owned s'.db e input
  products : ∀ e id, OwnedProduct s.db e id → OwnedProduct s'.db e id
  rows : ∀ k, RowsStep k pid s s'
  movements : s.db.movements <+: s'.db.movements

variable {pid pid' : Nat} {s s' : ErpStore}

theorem RowsStep.of_eq {k : Kind} (h : k.rows s'.db = k.rows s.db) : RowsStep k pid s s' :=
  .inl ⟨id, fun _ => rfl, by rw [h, List.map_id]⟩

theorem ServerStep.of_db (hl : LocksKept pid s s') (h : s'.db = s.db) : ServerStep pid s s' where
  locks := hl
  owned k e input ho := by rw [h]; exact ho
  products e id ho := by rw [h]; exact ho
  rows k := .of_eq (by rw [h])
  movements := by rw [h]

/-- Every row is still there. -/
theorem RowsStep.keeps {k : Kind} (h : RowsStep k pid s s') {r : k.Row} (hr : r ∈ k.rows s.db) :
    ∃ r' ∈ k.rows s'.db, columns r' = columns r := by
  rcases h with ⟨f, hf, hrows⟩ | ⟨row, hrows, -⟩
  · exact ⟨f r, by rw [hrows]; exact List.mem_map_of_mem hr, hf r⟩
  · exact ⟨r, by rw [hrows]; exact List.mem_append_left _ hr, rfl⟩

theorem ServerStep.hasKey (h : ServerStep pid s s') {k : Kind} {e : Uuid} {key : Option String}
    (hk : k.HasKey s.db e key) : k.HasKey s'.db e key := by
  intro x hx
  obtain ⟨r, hr, howner, hkey⟩ := hk x hx
  obtain ⟨r', hr', hcolumns⟩ := (h.rows k).keeps hr
  simp only [columns, Prod.mk.injEq] at hcolumns
  exact ⟨r', hr', by rw [hcolumns.2.1, howner], by rw [hcolumns.2.2.1, hkey]⟩

theorem ServerStep.inserted (h : ServerStep pid s s') (hne : pid ≠ pid') {k : Kind}
    {c : Create k.Input} {row : k.Row} (hi : Inserted k c pid' s row) :
    Inserted k c pid' s' row where
  owned := h.owned k _ _ hi.owned
  owner := hi.owner
  key := hi.key
  held lock hmem := (h.locks lock pid' (Ne.symm hne)).2 (hi.held lock hmem)
  accepted := by
    rw [Repository.refuses_eq_false]
    have hold := Repository.refuses_eq_false.1 hi.accepted
    intro x hx
    rcases h.rows k with ⟨f, hf, hrows⟩ | ⟨row', hrows, hheld⟩
    · have hx' : x ∈ (k.rows s.db).map f := hrows ▸ hx
      obtain ⟨y, hy, rfl⟩ := List.mem_map.1 hx'
      rw [sameEntry_congr (hf y) rfl]
      exact hold y hy
    · have hx' : x ∈ k.rows s.db ++ [row'] := hrows ▸ hx
      rcases List.mem_append.1 hx' with hmem | hmem
      · exact hold x hmem
      · -- the two rows would need one lock
        rw [List.mem_singleton.1 hmem]
        by_contra hsame
        obtain ⟨lock, hlock', hlock⟩ :=
          Repository.lock_of_sameEntry (R := k.repository) (by simpa using hsame)
        have hother := hheld lock hlock'
        rw [hi.held lock hlock] at hother
        exact hne (Option.some.inj hother).symm

theorem ServerStep.knows (h : ServerStep pid s s') (hne : pid ≠ pid') {call : Call}
    (hk : call.Knows pid' s) : call.Knows pid' s' := by
  cases call with
  | create k c st =>
    cases st with
    | reading found rest => exact ⟨hk.1, hk.2.imp_right (h.owned k _ _)⟩
    | numbering found => exact h.owned k _ _ hk
    | inserting found n => exact h.owned k _ _ hk
    | committing row n view => exact h.inserted hne hk
    | finished r =>
      cases r with
      | ok v => exact h.hasKey hk
      | error err => trivial
    | _ => trivial
  | movement e input key r =>
    match r with
    | none => trivial
    | some (.error err) => trivial
    | some (.ok v) =>
      intro x hx
      obtain ⟨m, hm, howner, hkey⟩ := hk x hx
      exact ⟨m, h.movements.subset hm, howner, hkey⟩

/-- A change from outside: time passes, a document is confirmed, another module writes its tables.
Rows keep the columns of their indexes, and nothing changes its enterprise. -/
structure Beside where
  apply : Db → Db
  rows : ∀ db (k : Kind), ∃ f : k.Row → k.Row, (∀ r, columns (f r) = columns r) ∧
    k.rows (apply db) = (k.rows db).map f
  owned : ∀ db (k : Kind) e input, k.Owned db e input → k.Owned (apply db) e input
  products : ∀ db e id, OwnedProduct db e id → OwnedProduct (apply db) e id
  movements : ∀ db, ∃ new, (apply db).movements = db.movements ++ new ∧
    ∀ m ∈ new, m.idempotencyKey = none

theorem Beside.step (x : Beside) (pid : Nat) : ServerStep pid s (s.autocommit x.apply) where
  locks := .of_eq rfl
  owned k e input ho := x.owned _ k e input ho
  products e id ho := x.products _ e id ho
  rows k := .inl (x.rows s.db k)
  movements := by
    obtain ⟨new, hnew, -⟩ := x.movements s.db
    exact ⟨new, hnew.symm⟩

theorem Beside.indexes (x : Beside) {db : Db} (h : IndexesOk db) : IndexesOk (x.apply db) where
  rows k := by
    obtain ⟨f, hf, hrows⟩ := x.rows db k
    have hindexed : (k.rows db).Pairwise fun a b => Repository.sameEntry a b = false := h.rows k
    have hmap : (k.rows (x.apply db)).Pairwise fun a b => Repository.sameEntry a b = false := by
      rw [hrows, List.pairwise_map]
      refine hindexed.imp fun {a b} hab => ?_
      rw [sameEntry_congr (hf a) (hf b)]
      exact hab
    exact hmap
  movements := by
    obtain ⟨new, hnew, hnone⟩ := x.movements db
    unfold MovementsIndexed
    rw [hnew, List.pairwise_append]
    refine ⟨h.movements, ?_, fun a _ b hb _ hkey => hkey.trans (hnone b hb)⟩
    exact List.Pairwise.imp_of_mem (R := fun _ _ => True)
      (fun ha _ _ _ _ => hnone _ ha) (List.pairwise_of_forall fun _ _ => trivial)

/-! ## One step -/

/-- Where the rows of a step come from. -/
structure Creates (args : Arguments) (s s' : ErpStore) : Prop where
  rows : ∀ k, ∀ r' ∈ k.rows s'.db, (∃ r ∈ k.rows s.db, columns r = columns r') ∨
    ∃ c, args = .create k c ∧ DocumentRow.enterpriseId r' = c.enterpriseId ∧
      DocumentRow.idempotencyKey r' = c.idempotencyKey ∧ k.Owned s'.db c.enterpriseId c.input
  movements : ∀ m ∈ s'.db.movements, m ∈ s.db.movements ∨
    ∃ e input key, args = .movement e input key ∧ m.enterpriseId = e ∧ m.idempotencyKey = key ∧
      OwnedProduct s'.db e input.productId

/-- What one step of a call preserves. -/
structure CallStep (pid : Nat) (call : Call) (s s' : ErpStore) : Prop where
  indexes : IndexesOk s'.db
  knows : call.Knows pid s'
  step : ServerStep pid s s'
  creates : Creates call.arguments s s'

theorem CallStep.silent {call : Call} (hI : IndexesOk s.db) (hdb : s'.db = s.db)
    (hl : LocksKept pid s s') (hk : call.Knows pid s') : CallStep pid call s s' where
  indexes := by rw [hdb]; exact hI
  knows := hk
  step := .of_db hl hdb
  creates :=
    { rows := fun k r' hr' => .inl ⟨r', hdb ▸ hr', rfl⟩
      movements := fun m hm => .inl (hdb ▸ hm) }

theorem rowsOk (k : Kind) : k.repository.RowsOk where
  owner c found n draw t := by cases k <;> rfl
  key c found n draw t := by cases k <;> rfl
  number series hseries c found n draw t := by
    cases k <;> cases hseries <;> rfl

theorem thrown_knows (k : Kind) (c : Create k.Input) (err : ApiError) :
    CreateKnows k c pid s (k.repository.thrown c err) := by
  unfold Repository.thrown
  split
  · split <;> trivial
  · trivial

/-- The row a lookup by key finds has the key. -/
theorem hasKey_of_findFirst {k : Kind} {db : Db} {e : Uuid} {key : Option String} {r : k.Row}
    (h : (truthy key).bind (k.repository.findFirst db e) = some r) : k.HasKey db e key := by
  obtain ⟨x, hx, hfound⟩ := Option.bind_eq_some_iff.1 h
  intro y hy
  obtain rfl := Option.some.inj (hx.symm.trans hy)
  unfold Repository.findFirst at hfound
  have hcolumns := List.find?_some hfound
  exact ⟨r, List.mem_of_find?_eq_some hfound, of_decide_eq_true hcolumns⟩

theorem truthy_eq_some {key : Option String} {x : String} (h : truthy key = some x) :
    key = some x := by
  obtain ⟨hkey, -⟩ := Option.filter_eq_some_iff.1 h
  exact hkey

/-- The commit of a `create`. -/
theorem commit_step {k : Kind} {c : Create k.Input} {row : k.Row} {n : Nat} {view : k.View}
    (hI : IndexesOk s.db) (hi : Inserted k c pid s row) :
    CallStep pid (.create k c (.finished (.ok ⟨view, true⟩))) s
      (s.commit pid (k.repository.commit c.enterpriseId row n)) := by
  have hrows : k.rows (k.repository.commit c.enterpriseId row n s.db) = k.rows s.db ++ [row] :=
    Repository.rows_commit hi.accepted ..
  have hmovements : (k.repository.commit c.enterpriseId row n s.db).movements = s.db.movements :=
    movements_commit k row
  constructor
  · refine ⟨fun k' => ?_, ?_⟩
    · by_cases hk : k' = k
      · subst hk
        exact (hI.rows k').commit hi.accepted ..
      · have hindexed : (k'.rows s.db).Pairwise fun a b => Repository.sameEntry a b = false :=
          hI.rows k'
        rw [← rows_commit_ne hk row] at hindexed
        exact hindexed
    · unfold MovementsIndexed
      rw [commit_db, hmovements]
      exact hI.movements
  · intro x hx
    refine ⟨row, ?_, hi.owner, hi.key.trans (truthy_eq_some hx)⟩
    rw [commit_db, hrows]
    exact List.mem_append_right _ (List.mem_singleton_self row)
  · refine ⟨locksKept_commit, fun k' e input ho => owned_commit k row ho, fun e id ho => ?_,
      fun k' => ?_, ?_⟩
    · unfold OwnedProduct
      rw [commit_db, products_commit]
      exact ho
    · by_cases hk : k' = k
      · subst hk
        exact .inr ⟨row, hrows, hi.held⟩
      · exact .of_eq (rows_commit_ne hk row)
    · rw [commit_db, hmovements]
  · refine ⟨fun k' r' hr' => ?_, fun m hm => .inl ?_⟩
    · by_cases hk : k' = k
      · subst hk
        rw [commit_db, hrows] at hr'
        rcases List.mem_append.1 hr' with hold | hnew
        · exact .inl ⟨r', hold, rfl⟩
        · rw [List.mem_singleton.1 hnew]
          exact .inr ⟨c, rfl, hi.owner, hi.key, owned_commit k' row hi.owned⟩
      · rw [commit_db, rows_commit_ne hk] at hr'
        exact .inl ⟨r', hr', rfl⟩
    · rw [commit_db, hmovements] at hm
      exact hm

/-- One statement of a `create`. -/
theorem create_step {k : Kind} {c : Create k.Input} {draw : Draw}
    {st st' : CreateState k.Found k.Row k.View} (hI : IndexesOk s.db)
    (hQ : CreateKnows k c pid s st) (hst : k.repository.step c pid draw s st = some (s', st')) :
    CallStep pid (.create k c st') s s' := by
  cases st with
  | checking =>
    simp only [Repository.step] at hst
    split at hst
    · cases hst
      exact .silent hI rfl (.of_eq rfl) trivial
    · rename_i hcheck
      split at hst <;> cases hst
      · rename_i existing hfound
        exact .silent hI rfl (.of_eq rfl) (hasKey_of_findFirst hfound)
      · exact .silent hI rfl (.of_eq rfl) ⟨hcheck, .inl rfl⟩
  | reading found rest =>
    obtain ⟨hcheck, hrest⟩ := hQ
    cases rest with
    | nil =>
      have howned : k.Owned s.db c.enterpriseId c.input :=
        hrest.resolve_left fun h => lookups_ne_nil k _ _ h.symm
      cases hst
      split
      · exact .silent hI rfl (.of_eq rfl) howned
      · exact .silent hI rfl (.of_eq rfl) howned
    | cons lookup rest =>
      simp only [Repository.step] at hst
      split at hst <;> cases hst
      · exact .silent hI rfl (.of_eq rfl) (thrown_knows k c _)
      · rename_i found' hfound
        refine .silent hI rfl (.of_eq rfl) ⟨hcheck, .inr ?_⟩
        rcases hrest with hall | howned
        · exact lookups_owned k hcheck hall.symm hfound
        · exact howned
  | numbering found =>
    simp only [Repository.step] at hst
    split at hst
    · cases hst
      exact .silent hI rfl (.of_eq rfl) hQ
    · split at hst <;> cases hst
      rename_i hfree
      exact .silent hI rfl (locksKept_acquire hfree) hQ
  | inserting found sequence =>
    simp only [Repository.step] at hst
    split at hst
    · rename_i hfree
      split at hst
      · split at hst <;> cases hst
        · exact .silent hI rfl (.of_eq rfl) trivial
        · exact .silent hI rfl locksKept_release (thrown_knows k c _)
      · rename_i hnot
        have haccepted : k.repository.refuses s.db
            (k.repository.row c found sequence draw s.db.now) = false := by simpa using hnot
        cases hst
        refine .silent hI rfl (locksKept_acquireAll fun lock hl => ?_) ?_
        · exact List.all_eq_true.1 hfree lock (by simpa using hl)
        · exact
            { owned := hQ
              owner := (rowsOk k).owner ..
              key := (rowsOk k).key ..
              held := fun lock hmem => by simp [Store.acquireAll, hmem]
              accepted := haccepted }
    · cases hst
  | recovering =>
    cases hst
    exact .silent hI rfl locksKept_release trivial
  | committing row sequence view =>
    cases hst
    exact commit_step hI hQ
  | recoveringByKey err =>
    simp only [Repository.step] at hst
    split at hst <;> cases hst
    · rename_i existing hfound
      exact .silent hI rfl (.of_eq rfl) (hasKey_of_findFirst hfound)
    · exact .silent hI rfl (.of_eq rfl) trivial
  | recoveringBySale err =>
    simp only [Repository.step] at hst
    split at hst <;> cases hst <;> exact .silent hI rfl (.of_eq rfl) trivial
  | finished r => cases hst

theorem failed_knows (k : Kind) {c : Create k.Input} {st st' : CreateState k.Found k.Row k.View}
    (h : k.repository.failed c st = some st') : CreateKnows k c pid s st' := by
  cases st with
  | finished r => cases h
  | recoveringByKey err =>
    cases h
    trivial
  | recoveringBySale err =>
    cases h
    trivial
  | _ =>
    cases h
    exact thrown_knows k c _

theorem mem_movementByKey {db : Db} {e : Uuid} {x : String} {m : StockMovement}
    (h : db.movementByKey e x = some m) :
    m ∈ db.movements ∧ m.enterpriseId = e ∧ m.idempotencyKey = some x := by
  unfold Db.movementByKey at h
  have hcolumns := List.find?_some h
  exact ⟨List.mem_of_find?_eq_some h, of_decide_eq_true hcolumns⟩

/-- `createMovement` that commits. -/
theorem movement_step {e fresh : Uuid} {input : CreateStockMovementInput} {key : Option String}
    {result : MovementResult} {db' : Db} (hI : IndexesOk s.db)
    (h : createMovement e input key fresh s.db = .ok (result, db')) :
    CallStep pid (.movement e input key (some (.ok result))) s { s with db := db' } := by
  rcases applyMovement_ok h with ⟨rfl, x, hx, hfound⟩ |
      ⟨product, hproduct, howner, hfree, hresult, -, hkey, -, rfl⟩
  · refine .silent hI rfl (.of_eq rfl) ?_
    intro y hy
    obtain rfl := Option.some.inj (hx.symm.trans hy)
    exact ⟨result.movement, mem_movementByKey hfound⟩
  · have hmem : result.movement ∈ s.db.movements ++ [result.movement] :=
      List.mem_append_right _ (List.mem_singleton_self _)
    refine ⟨⟨fun k => ?_, ?_⟩, fun x hx => ?_,
      ⟨.of_eq rfl, fun k e input ho => owned_movements ho _, fun e id ho => ho,
        fun k => .of_eq (rows_movements k _), List.prefix_append ..⟩,
      ⟨fun k r' hr' => .inl ⟨r', (rows_movements k _) ▸ hr', rfl⟩, fun m hm => ?_⟩⟩
    · have hindexed : (k.rows s.db).Pairwise fun a b => Repository.sameEntry a b = false := hI.rows k
      rw [← rows_movements k (s.db.movements ++ [result.movement])] at hindexed
      exact hindexed
    · refine List.pairwise_append.2 ⟨hI.movements, List.pairwise_singleton .., fun a ha b hb => ?_⟩
      rw [List.mem_singleton.1 hb, hresult, hkey]
      intro howner' hkey'
      cases hx : key with
      | none => rw [hkey', hx]
      | some x =>
        rw [hx, Option.bind_some] at hfree
        have hnot := List.find?_eq_none.1 hfree a ha
        simp [howner', hkey', hx] at hnot
    · exact ⟨result.movement, hmem, hresult, hkey.trans (truthy_eq_some hx)⟩
    · rcases List.mem_append.1 hm with hold | hnew
      · exact .inl hold
      · rw [List.mem_singleton.1 hnew]
        exact .inr ⟨e, input, key, rfl, hresult, hkey, product, hproduct, howner⟩

theorem call_step {i : Input} {call call' : Call} (hI : IndexesOk s.db) (hQ : call.Knows pid s)
    (hst : call.step pid i s = some (s', call')) :
    CallStep pid call' s s' ∧ call'.arguments = call.arguments := by
  cases call with
  | create k c st =>
    cases i with
    | proceed draw =>
      obtain ⟨⟨s₁, st'⟩, hstep, hres⟩ := Option.map_eq_some_iff.1 hst
      cases hres
      exact ⟨create_step hI hQ hstep, rfl⟩
    | fail =>
      obtain ⟨st', hfailed, hres⟩ := Option.map_eq_some_iff.1 hst
      cases hres
      exact ⟨.silent hI rfl locksKept_release (failed_knows k hfailed), rfl⟩
  | movement e input key r =>
    cases r with
    | some r => cases hst
    | none =>
      cases i with
      | fail =>
        cases hst
        exact ⟨.silent hI rfl (.of_eq rfl) trivial, rfl⟩
      | proceed draw =>
        simp only [Call.step] at hst
        split at hst <;> cases hst
        · exact ⟨.silent hI rfl (.of_eq rfl) trivial, rfl⟩
        · rename_i hcreated
          exact ⟨movement_step hI hcreated, rfl⟩

end Gescom.Erp
