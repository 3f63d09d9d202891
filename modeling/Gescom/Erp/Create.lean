import Gescom.Lib.ReadCommitted
import Gescom.Lib.Transition
import Gescom.Erp.Transactions

/-!
# `create` of the document repositories

`SalesRepository`, `PurchasesRepository`, `JournalRepository` and `InvoicingRepository` share one
pattern: look the idempotency key up, check what the input refers to, draw a number where the
document has one, insert, and fall back on a second lookup when a unique index refuses the row. A
`Repository` holds what differs. In the first three the second lookup runs in the same transaction,
which the refused insert has aborted; `InvoicingRepository` opens a new one.
-/

namespace Gescom.Erp

open ReadCommitted Transition

inductive Collection where
  | document (kind : DocKind)
  | salesInvoice
  | journalEntry
  deriving DecidableEq, Repr

/-- What a transaction locks: a row, or the entry of a unique index it inserts. -/
inductive Lock where
  | id (c : Collection) (id : Uuid)
  | key (c : Collection) (enterpriseId : Uuid) (key : String)
  | number (c : Collection) (number : String)
  | invoiceOf (saleId : Uuid)
  | counter (s : Series) (enterpriseId : Uuid)
  deriving DecidableEq, Repr

abbrev ErpStore := Store Db Lock

/-- The columns of a document that its unique indexes are about. -/
class DocumentRow (ρ : Type) extends Keyed ρ Uuid where
  enterpriseId : ρ → Uuid
  idempotencyKey : ρ → Option String
  number : ρ → Option String
  saleId : ρ → Option Uuid

/-- The arguments of a `create`. -/
structure Create (ι : Type) where
  enterpriseId : Uuid
  input : ι
  idempotencyKey : Option String

/-- One repository: `ι` its inputs, `φ` what the lookups of a `create` gather, `ρ` its rows and `ν`
its views. -/
structure Repository (ι φ ρ ν : Type) [DocumentRow ρ] where
  collection : Collection
  table : Db → Table ρ
  put : Db → Table ρ → Db
  table_put : ∀ db t, table (put db t) = t
  counters_put : ∀ db t, (put db t).counters = db.counters
  table_setLastNumber : ∀ db s e n, table (db.setLastNumber s e n) = table db
  toView : Db → ρ → ν
  /-- The checks before the transaction. -/
  precheck : ι → Option ApiError
  start : φ
  /-- The statements that check what the input refers to, in order. -/
  lookups : Uuid → ι → List (φ → Db → Except ApiError φ)
  /-- The counter that numbers the rows. -/
  series : Option Series
  row : Create ι → φ → Nat → Draw → Instant → ρ
  /-- The view of the row just inserted. -/
  created : φ → Db → ρ → ν
  /-- The second lookup of a `catch` around the whole transaction. -/
  conflict : Option (Db → ι → Option ApiError)

variable {ι φ ρ ν : Type} [DocumentRow ρ]

structure CreateResult (ν : Type) where
  view : ν
  created : Bool
  deriving DecidableEq, Repr

namespace Repository

variable (R : Repository ι φ ρ ν)

/-- All the lookups of a call, on one state of the database. -/
def gather (e : Uuid) (input : ι) (db : Db) : Except ApiError φ :=
  (R.lookups e input).foldlM (fun found lookup => lookup found db) R.start

/-- `findFirst({ where: { enterpriseId, idempotencyKey } })`. -/
def findFirst (db : Db) (enterpriseId : Uuid) (key : String) : Option ρ :=
  (R.table db).rows.find? fun r =>
    DocumentRow.enterpriseId r = enterpriseId ∧ DocumentRow.idempotencyKey r = some key

/-- `a` and `b` have the same entry in a unique index; an index does not hold nulls. -/
def sameEntry (a b : ρ) : Bool :=
  Keyed.key a == Keyed.key b ||
    (DocumentRow.enterpriseId a == DocumentRow.enterpriseId b &&
      (DocumentRow.idempotencyKey a).isSome &&
      DocumentRow.idempotencyKey a == DocumentRow.idempotencyKey b) ||
    ((DocumentRow.number a).isSome && DocumentRow.number a == DocumentRow.number b) ||
    ((DocumentRow.saleId a).isSome && DocumentRow.saleId a == DocumentRow.saleId b)

/-- A unique index refuses the row. -/
def refuses (db : Db) (r : ρ) : Bool := (R.table db).rows.any fun x => sameEntry x r

def insert (r : ρ) (db : Db) : Db := R.put db ((R.table db).insert r)

/-- The index entries an insert holds until the transaction ends. -/
def locks (r : ρ) : List Lock :=
  [.id R.collection (Keyed.key r)] ++
    ((DocumentRow.idempotencyKey r).map
      (Lock.key R.collection (DocumentRow.enterpriseId r))).toList ++
    ((DocumentRow.number r).map (Lock.number R.collection)).toList ++
    ((DocumentRow.saleId r).map Lock.invoiceOf).toList

/-- What a committed `create` leaves: the row, and the counter at its number. -/
def commit (e : Uuid) (r : ρ) (sequence : Nat) (db : Db) : Db :=
  match R.series with
  | some s => (R.insert r db).setLastNumber s e sequence
  | none => R.insert r db

end Repository

/-- Postgres refuses every statement after a failed one until the transaction ends. -/
def transactionAborted : ApiError :=
  .internal "current transaction is aborted, commands ignored until end of transaction block"

/-- A statement that fails for a reason outside the code: connection, timeout. -/
def statementFailed : ApiError := .internal "statement failed"

/-- `PrismaClientKnownRequestError` or `PrismaClientUnknownRequestError`. -/
def isRequestError : ApiError → Bool
  | .prisma _ | .internal _ => true
  | _ => false

inductive CreateState (φ ρ ν : Type) where
  | checking
  | reading (found : φ) (rest : List (φ → Db → Except ApiError φ))
  | numbering (found : φ)
  | inserting (found : φ) (sequence : Nat)
  /-- The second lookup, in the transaction of the refused insert. -/
  | recovering
  | committing (row : ρ) (sequence : Nat) (view : ν)
  /-- The second lookups in new transactions, and the error that led there. -/
  | recoveringByKey (e : ApiError)
  | recoveringBySale (e : ApiError)
  | finished (r : Except ApiError (CreateResult ν))

namespace Repository

variable (R : Repository ι φ ρ ν)

/-- An error leaves the transaction; the `catch` around it only looks at request errors. -/
def thrown (c : Create ι) (e : ApiError) : CreateState φ ρ ν :=
  if R.conflict.isSome && isRequestError e then
    if (truthy c.idempotencyKey).isSome then .recoveringByKey e else .recoveringBySale e
  else .finished (.error e)

/-- One statement of `create`. `none`: it waits for a lock, or the call is over. -/
def step (c : Create ι) (pid : Nat) (draw : Draw) (s : ErpStore) :
    CreateState φ ρ ν → Option (ErpStore × CreateState φ ρ ν)
  | .checking =>
    match R.precheck c.input with
    | some e => some (s, .finished (.error e))
    | none =>
      match (truthy c.idempotencyKey).bind (R.findFirst s.db c.enterpriseId) with
      | some existing => some (s, .finished (.ok ⟨R.toView s.db existing, false⟩))
      | none => some (s, .reading R.start (R.lookups c.enterpriseId c.input))
  | .reading found [] =>
    some (s, if R.series.isSome then .numbering found else .inserting found 0)
  | .reading found (lookup :: rest) =>
    match lookup found s.db with
    | .error e => some (s, R.thrown c e)
    | .ok found => some (s, .reading found rest)
  | .numbering found =>
    match R.series with
    | none => some (s, .inserting found 0)
    | some series =>
      if s.free pid (.counter series c.enterpriseId) then
        some (s.acquire pid (.counter series c.enterpriseId),
          .inserting found (s.db.lastNumber series c.enterpriseId + 1))
      else none
  | .inserting found sequence =>
    let row := R.row c found sequence draw s.db.now
    if (R.locks row).all (s.free pid ·) then
      if R.refuses s.db row then
        if R.conflict.isNone && (truthy c.idempotencyKey).isSome then some (s, .recovering)
        else some (s.release pid, R.thrown c (.prisma .p2002))
      else
        some (s.acquireAll pid (R.locks row).contains,
          .committing row sequence (R.created found (R.insert row s.db) row))
    else none
  | .recovering => some (s.release pid, .finished (.error transactionAborted))
  | .committing row sequence view =>
    some (s.commit pid (R.commit c.enterpriseId row sequence), .finished (.ok ⟨view, true⟩))
  | .recoveringByKey e =>
    match (truthy c.idempotencyKey).bind (R.findFirst s.db c.enterpriseId) with
    | some existing => some (s, .finished (.ok ⟨R.toView s.db existing, false⟩))
    | none => some (s, .recoveringBySale e)
  | .recoveringBySale e =>
    match R.conflict.bind fun conflict => conflict s.db c.input with
    | some e' => some (s, .finished (.error e'))
    | none => some (s, .finished (.error e))
  | .finished _ => none

/-- The statement at hand fails. -/
def failed (c : Create ι) : CreateState φ ρ ν → Option (CreateState φ ρ ν)
  | .finished _ => none
  | .recoveringByKey _ => some (.finished (.error statementFailed))
  | .recoveringBySale _ => some (.finished (.error statementFailed))
  | _ => some (R.thrown c statementFailed)

end Repository

/-! ## The calls of one repository on one database -/

/-- What the outside feeds one statement: the values an insert draws, or its failure. -/
inductive Input where
  | proceed (draw : Draw)
  | fail

/-- A change from outside: time passes, or another module writes its own tables. -/
structure Elsewhere (R : Repository ι φ ρ ν) where
  apply : Db → Db
  table : ∀ db, R.table (apply db) = R.table db
  counters : ∀ db, (apply db).counters = db.counters

/-- A call of `create` with its arguments, or none. -/
abbrev CreateCall (ι φ ρ ν : Type) := Option (Create ι × CreateState φ ρ ν)

abbrev CreatePool (ι φ ρ ν : Type) := Pool ErpStore (CreateCall ι φ ρ ν)

/-- What a call answered, if it is over. -/
def CreateCall.answer : CreateCall ι φ ρ ν → Option (Except ApiError (CreateResult ν))
  | some (_, .finished r) => some r
  | _ => none

def Repository.thread (R : Repository ι φ ρ ν) (pid : Nat) (i : Input) (s : ErpStore) :
    CreateCall ι φ ρ ν → Option (ErpStore × CreateCall ι φ ρ ν)
  | none => none
  | some (c, st) =>
    match i with
    | .proceed draw => (R.step c pid draw s st).map fun r => (r.1, some (c, r.2))
    | .fail => (R.failed c st).map fun st' => (s.release pid, some (c, st'))

/-- Any number of `create` calls of one repository. -/
def Repository.creates (R : Repository ι φ ρ ν) :
    Machine ErpStore (CreateCall ι φ ρ ν) Input (Elsewhere R) where
  thread pid i s call := R.thread pid i s call
  env e s := s.autocommit e.apply

/-- A call that has not executed a statement yet, or no call. -/
def NotBegun : CreateCall ι φ ρ ν → Prop
  | none => True
  | some (_, st) => st = .checking

/-- `n` statements of call `pid`, which draws the identifier `id`. -/
def statements {R : Repository ι φ ρ ν} (pid n : Nat) (id : Uuid) :
    List (Act Input (Elsewhere R)) :=
  List.replicate n (.run pid (.proceed ⟨id, fun i => id + 1 + i⟩))

/-! ## What one statement does -/

/-- States that hold no number and no row, and that created nothing. -/
def CreateState.Idle : CreateState φ ρ ν → Prop
  | .inserting _ _ | .committing _ _ _ => False
  | .finished (.ok r) => r.created = false
  | _ => True

namespace Repository

variable {R : Repository ι φ ρ ν} {s s' : ErpStore} {pid : Nat}

theorem refuses_eq_false {db : Db} {r : ρ} :
    R.refuses db r = false ↔ ∀ x ∈ (R.table db).rows, sameEntry x r = false := by
  simp [refuses]

/-- The primary key is one of the indexes. -/
theorem accepted_id {db : Db} {r : ρ} (h : R.refuses db r = false) :
    (R.table db).find? (Keyed.key r) = none := by
  unfold Table.find?
  rw [List.find?_eq_none]
  intro x hx hkey
  have hsame : sameEntry x r = false := refuses_eq_false.1 h x hx
  simp [sameEntry, beq_iff_eq.1 hkey] at hsame

theorem table_commit (db : Db) (e : Uuid) (r : ρ) (n : Nat) :
    R.table (R.commit e r n db) = (R.table db).insert r := by
  unfold commit insert
  split <;> simp only [R.table_setLastNumber, R.table_put]

/-- What a statement of `create` does to the store, and where it leaves the call. -/
inductive Effect (R : Repository ι φ ρ ν) (c : Create ι) (pid : Nat) (s : ErpStore)
    (st : CreateState φ ρ ν) : ErpStore → CreateState φ ρ ν → Prop
  | silent (s' : ErpStore) (st' : CreateState φ ρ ν) (db : s'.db = s.db) (locks : LocksKept pid s s')
      (idle : st'.Idle) : Effect R c pid s st s' st'
  | unnumbered (found : φ) (series : R.series = none) :
      Effect R c pid s st s (.inserting found 0)
  | numbered (found : φ) (series : Series) (has : R.series = some series)
      (free : s.free pid (.counter series c.enterpriseId) = true) :
      Effect R c pid s st (s.acquire pid (.counter series c.enterpriseId))
        (.inserting found (s.db.lastNumber series c.enterpriseId + 1))
  | inserted (found : φ) (sequence : Nat) (draw : Draw) (row : ρ)
      (stmt : st = .inserting found sequence) (drawn : row = R.row c found sequence draw s.db.now)
      (free : ∀ lock ∈ R.locks row, s.free pid lock = true) (accepted : R.refuses s.db row = false) :
      Effect R c pid s st (s.acquireAll pid (R.locks row).contains)
        (.committing row sequence (R.created found (R.insert row s.db) row))
  | committed (row : ρ) (sequence : Nat) (view : ν) (stmt : st = .committing row sequence view) :
      Effect R c pid s st (s.commit pid (R.commit c.enterpriseId row sequence))
        (.finished (.ok ⟨view, true⟩))

theorem thrown_idle (c : Create ι) (e : ApiError) : (R.thrown c e).Idle := by
  unfold thrown
  split
  · split <;> trivial
  · trivial

theorem step_effect {c : Create ι} {draw : Draw} {st st' : CreateState φ ρ ν}
    (hst : R.step c pid draw s st = some (s', st')) : R.Effect c pid s st s' st' := by
  cases st with
  | checking =>
    simp only [step] at hst
    split at hst
    · cases hst
      exact .silent _ _ rfl (.of_eq rfl) trivial
    · split at hst <;> cases hst
      · exact .silent _ _ rfl (.of_eq rfl) rfl
      · exact .silent _ _ rfl (.of_eq rfl) trivial
  | reading found rest =>
    cases rest with
    | nil =>
      simp only [step] at hst
      split at hst <;> cases hst
      · exact .silent _ _ rfl (.of_eq rfl) trivial
      · rename_i hseries
        exact .unnumbered found (by simpa using hseries)
    | cons lookup rest =>
      simp only [step] at hst
      split at hst <;> cases hst
      · exact .silent _ _ rfl (.of_eq rfl) (thrown_idle c _)
      · exact .silent _ _ rfl (.of_eq rfl) trivial
  | numbering found =>
    simp only [step] at hst
    split at hst
    · cases hst
      rename_i hseries
      exact .unnumbered found hseries
    · rename_i series hseries
      split at hst <;> cases hst
      rename_i hfree
      exact .numbered found series hseries hfree
  | inserting found sequence =>
    simp only [step] at hst
    split at hst
    · rename_i hfree
      split at hst
      · split at hst <;> cases hst
        · exact .silent _ _ rfl (.of_eq rfl) trivial
        · exact .silent _ _ rfl locksKept_release (thrown_idle c _)
      · rename_i haccepted
        cases hst
        exact .inserted found sequence draw _ rfl rfl (fun lock hl => List.all_eq_true.1 hfree lock hl)
          (by simpa using haccepted)
    · cases hst
  | recovering =>
    cases hst
    exact .silent _ _ rfl locksKept_release trivial
  | committing row sequence view =>
    cases hst
    exact .committed row sequence view rfl
  | recoveringByKey e =>
    simp only [step] at hst
    split at hst <;> cases hst
    · exact .silent _ _ rfl (.of_eq rfl) rfl
    · exact .silent _ _ rfl (.of_eq rfl) trivial
  | recoveringBySale e =>
    simp only [step] at hst
    split at hst <;> cases hst
    · exact .silent _ _ rfl (.of_eq rfl) trivial
    · exact .silent _ _ rfl (.of_eq rfl) trivial
  | finished r => cases hst

theorem failed_idle {c : Create ι} {st st' : CreateState φ ρ ν}
    (h : R.failed c st = some st') : st'.Idle := by
  cases st with
  | finished r => cases h
  | recoveringByKey e =>
    cases h
    trivial
  | recoveringBySale e =>
    cases h
    trivial
  | _ =>
    cases h
    exact thrown_idle c _

/-- The same for a thread: it is a call, and a statement that fails is silent. -/
theorem thread_effect {call t : CreateCall ι φ ρ ν} {i : Input}
    (hst : R.thread pid i s call = some (s', t)) :
    ∃ c st st', call = some (c, st) ∧ t = some (c, st') ∧ R.Effect c pid s st s' st' := by
  cases call with
  | none => cases hst
  | some call =>
    obtain ⟨c, st⟩ := call
    cases i with
    | proceed draw =>
      obtain ⟨⟨s₁, st₁⟩, hstep, hres⟩ := Option.map_eq_some_iff.1 hst
      cases hres
      exact ⟨c, st, st₁, rfl, rfl, step_effect hstep⟩
    | fail =>
      obtain ⟨st₁, hfailed, hres⟩ := Option.map_eq_some_iff.1 hst
      cases hres
      exact ⟨c, st, st₁, rfl, rfl, .silent _ _ rfl locksKept_release (failed_idle hfailed)⟩

end Repository

end Gescom.Erp
