import Gescom.Lib.ReadCommitted
import Gescom.Lib.Transition
import Gescom.Stock.Db

/-!
# Confirming and cancelling documents (`sales.repository.ts`, `purchases.repository.ts`)

First `confirm` as one atomic function, which is what a serializable execution amounts to. Then
`confirm` and `cancel` statement by statement: `confirm` reads the snapshot of its transaction and
fails with P2034 when it updates a row that has changed since; `cancel` runs at READ COMMITTED,
reads the latest committed row, and its update waits for the row lock and re-checks the identifier
only.
-/

namespace Gescom.Stock

open ReadCommitted Transition

/-- What tells one repository from the other. -/
structure DocumentRepository where
  kind : DocKind
  movementType : MovementType
  notePrefix : String
  notFound : String
  notConfirmable : String
  notCancellable : String
  moves : movementType ≠ .adjustment

def salesRepository : DocumentRepository where
  kind := .sale
  movementType := .out
  notePrefix := "Vente "
  notFound := "Vente introuvable"
  notConfirmable := "Seule une vente en brouillon peut être confirmée"
  notCancellable := "Seule une vente en brouillon peut être annulée"
  moves := by decide

def purchasesRepository : DocumentRepository where
  kind := .purchase
  movementType := .in_
  notePrefix := "Achat "
  notFound := "Achat introuvable"
  notConfirmable := "Seul un achat en brouillon peut être confirmé"
  notCancellable := "Seul un achat en brouillon peut être annulé"
  moves := by decide

def DocKind.repository : DocKind → DocumentRepository
  | .sale => salesRepository
  | .purchase => purchasesRepository

@[simp] theorem repository_kind (k : DocKind) : k.repository.kind = k := by cases k <;> rfl

/-- `getSaleOrThrow` and `getPurchaseOrThrow`. -/
def DocumentRepository.getOrThrow (r : DocumentRepository) (db : Db) (enterpriseId id : Uuid) :
    Except ApiError Document :=
  match (db.documents r.kind).find? id with
  | none => .error (.notFound r.notFound)
  | some d => if d.enterpriseId ≠ enterpriseId then .error (.notFound r.notFound) else .ok d

/-- The input `confirm` gives `applyMovement` for a line. -/
def DocumentRepository.movementFor (r : DocumentRepository) (id : Uuid) (line : Line) :
    CreateStockMovementInput where
  productId := line.productId
  type := r.movementType
  quantity := line.quantity
  note := some (r.notePrefix ++ uuidText id)
  valid := by rw [if_neg r.moves]; exact line.positive

/-- One turn of the loop over the lines. -/
def DocumentRepository.confirmLine (r : DocumentRepository) (enterpriseId id fresh : Uuid)
    (line : Line) (db : Db) : Except ApiError Db :=
  if db.tracks line.productId then
    match applyMovement enterpriseId (r.movementFor id line) none (some (r.kind, id)) fresh db with
    | .ok (_, db') => .ok db'
    | .error e => .error e
  else .ok db

def DocumentRepository.confirmLines (r : DocumentRepository) (enterpriseId id : Uuid)
    (fresh : Nat → Uuid) :
    List Line → Db → Except ApiError Db
  | [], db => .ok db
  | line :: rest, db =>
    match r.confirmLine enterpriseId id (fresh rest.length) line db with
    | .ok db' => r.confirmLines enterpriseId id fresh rest db'
    | .error e => .error e

/-- The products of the lines that track stock. -/
def Document.trackedIn (d : Document) (db : Db) : List Uuid :=
  (d.lines.map Line.productId).filter db.tracks

/-- `data: { status: "CONFIRMED", confirmedAt: new Date() }`. -/
def Document.confirm (now : Instant) (tracked : List Uuid) (d : Document) : Document :=
  { d with status := .confirmed, confirmedAt := some now, version := d.version + 1, tracked }

/-- `data: { status: "CANCELLED", cancelledAt: new Date() }`. -/
def Document.cancel (now : Instant) (d : Document) : Document :=
  { d with status := .cancelled, cancelledAt := some now, version := d.version + 1 }

theorem confirm_id (now : Instant) (tracked : List Uuid) (d : Document) :
    (d.confirm now tracked).id = d.id := rfl

theorem cancel_id (now : Instant) (d : Document) : (d.cancel now).id = d.id := rfl

/-- `confirm` run alone. -/
def DocumentRepository.confirm (r : DocumentRepository) (enterpriseId id : Uuid)
    (fresh : Nat → Uuid) (db : Db) : Except ApiError Db :=
  match r.getOrThrow db enterpriseId id with
  | .error e => .error e
  | .ok d =>
    if d.status ≠ .draft then .error (.conflict r.notConfirmable)
    else match r.confirmLines enterpriseId id fresh d.lines db with
      | .error e => .error e
      | .ok db' =>
        .ok (db'.updateDocument r.kind id (Document.confirm db.now (d.trackedIn db)) (confirm_id _ _))

/-! ## Statement by statement -/

/-- What a call was given. -/
structure Call where
  kind : DocKind
  enterpriseId : Uuid
  id : Uuid
  deriving DecidableEq, Repr

def Call.repository (c : Call) : DocumentRepository := c.kind.repository

/-- Which row of which table; also the key of its lock. -/
abbrev DocKey := DocKind × Uuid

def Call.key (c : Call) : DocKey := (c.kind, c.id)

def Db.document? (db : Db) (key : DocKey) : Option Document := (db.documents key.1).find? key.2

abbrev StockStore := Store Db DocKey

/-- One try of `runWithSerializableRetry`: the row it has read, the snapshot, and the snapshot with
the transaction's own inserts. -/
structure Attempt where
  number : Nat
  doc : Document
  snapshot : Db
  view : Db

/-- The rows the transaction has inserted. -/
def Attempt.created (a : Attempt) : List Movement :=
  a.view.movements.drop a.snapshot.movements.length

inductive ConfirmState where
  | starting (attempt : Nat)
  | moving (a : Attempt) (rest : List Line)
  | updating (a : Attempt)
  | committing (a : Attempt) (confirmedAt : Instant)
  | finished (r : Except ApiError Unit)

inductive CancelState where
  | reading
  | updating (doc : Document)
  | committing (cancelledAt : Instant)
  | finished (r : Except ApiError Unit)

/-- `DEFAULT_MAX_ATTEMPTS` (`serializable-retry.ts:9`). -/
def maxAttempts : Nat := 3

/-- After a P2034: the next try, or the 409 that `confirm` maps the last failure to. -/
def afterSerializationFailure (attempt : Nat) : ConfirmState :=
  if attempt < maxAttempts then .starting (attempt + 1)
  else .finished (.error (.conflict "Conflit de concurrence, veuillez réessayer"))

def Db.commitConfirm (a : Attempt) (c : Call) (confirmedAt : Instant) (db : Db) : Db :=
  ({ db with movements := db.movements ++ a.created } : Db).updateDocument c.kind c.id
    (Document.confirm confirmedAt (a.doc.trackedIn a.snapshot)) (confirm_id _ _)

def Db.commitCancel (c : Call) (cancelledAt : Instant) (db : Db) : Db :=
  db.updateDocument c.kind c.id (Document.cancel cancelledAt) (cancel_id _)

def ConfirmState.step (c : Call) (pid : Nat) (fresh : Uuid) (s : StockStore) :
    ConfirmState → Option (StockStore × ConfirmState)
  | starting n =>
    match c.repository.getOrThrow s.db c.enterpriseId c.id with
    | .error e => some (s, .finished (.error e))
    | .ok doc =>
      if doc.status ≠ .draft then
        some (s, .finished (.error (.conflict c.repository.notConfirmable)))
      else some (s, .moving { number := n, doc, snapshot := s.db, view := s.db } doc.lines)
  | moving a [] => some (s, .updating a)
  | moving a (line :: rest) =>
    match c.repository.confirmLine c.enterpriseId c.id fresh line a.view with
    | .ok view => some (s, .moving { a with view } rest)
    | .error e => some (s, .finished (.error e))
  | updating a =>
    if s.free pid c.key then
      match s.db.document? c.key with
      | none => some (s, .finished (.error (.prisma .p2025)))
      | some row =>
        -- the row has changed since the snapshot: P2034
        if row.version ≠ a.doc.version then some (s, afterSerializationFailure a.number)
        else some (s.acquire pid c.key, .committing a s.db.now)
    else none
  | committing a confirmedAt =>
    some (s.commit pid (Db.commitConfirm a c confirmedAt), .finished (.ok ()))
  | finished _ => none

/-- A serialization failure may strike at any statement before the commit is done. -/
def ConfirmState.aborted : ConfirmState → Option ConfirmState
  | starting n => some (afterSerializationFailure n)
  | moving a _ => some (afterSerializationFailure a.number)
  | updating a => some (afterSerializationFailure a.number)
  | committing a _ => some (afterSerializationFailure a.number)
  | finished _ => none

def CancelState.step (c : Call) (pid : Nat) (s : StockStore) :
    CancelState → Option (StockStore × CancelState)
  | reading =>
    match c.repository.getOrThrow s.db c.enterpriseId c.id with
    | .error e => some (s, .finished (.error e))
    | .ok doc =>
      if doc.status ≠ .draft then
        some (s, .finished (.error (.badRequest c.repository.notCancellable)))
      else some (s, .updating doc)
  | updating _ =>
    -- `update({ where: { id } })`: waits for the row lock, re-checks nothing but the id
    if s.free pid c.key then
      match s.db.document? c.key with
      | none => some (s, .finished (.error (.prisma .p2025)))
      | some _ => some (s.acquire pid c.key, .committing s.db.now)
    else none
  | committing cancelledAt =>
    some (s.commit pid (Db.commitCancel c cancelledAt), .finished (.ok ()))
  | finished _ => none

/-! ## The system -/

/-- A call in progress; a `thrown` one has left with an error that nothing catches. -/
inductive StockCall where
  | confirm (c : Call) (st : ConfirmState)
  | cancel (c : Call) (st : CancelState)
  | thrown

/-- What the outside feeds one statement: nothing, a serialization failure, or any other failure;
and the identifier an insert draws. -/
inductive Input where
  | proceed (fresh : Uuid)
  | abort
  | fail
  deriving DecidableEq, Repr

/-- What happens around the calls: time passes, a product is edited, somebody else appends to the
ledger. -/
inductive Env where
  | tick (d : Nat)
  | setTrackStock (productId : Uuid) (trackStock : Bool)
  | movement (m : Movement)

def Db.setTrackStock (db : Db) (productId : Uuid) (trackStock : Bool) : Db :=
  { db with products := db.products.update productId (fun p => { p with trackStock }) fun _ => rfl }

def Env.apply : Env → Db → Db
  | tick d, db => { db with now := db.now + d }
  | setTrackStock id b, db => db.setTrackStock id b
  | movement m, db => { db with movements := db.movements ++ [{ m with origin := none }] }

def StockCall.returned : StockCall → Bool
  | confirm _ (.finished _) => true
  | cancel _ (.finished _) => true
  | thrown => true
  | _ => false

def StockCall.step (pid : Nat) (i : Input) (s : StockStore) :
    StockCall → Option (StockStore × StockCall)
  | confirm c st =>
    match i with
    | .proceed fresh => (st.step c pid fresh s).map (Prod.map id (confirm c))
    | .abort => st.aborted.map fun st' => (s.release pid, confirm c st')
    | .fail => if (confirm c st).returned then none else some (s.release pid, thrown)
  | cancel c st =>
    match i with
    | .proceed _ => (st.step c pid s).map (Prod.map id (cancel c))
    | _ => if (cancel c st).returned then none else some (s.release pid, thrown)
  | thrown => none

/-- Any number of `confirm` and `cancel` calls on one database. -/
def documents : Machine StockStore StockCall Input Env where
  thread pid i s c := c.step pid i s
  env e s := s.autocommit e.apply

def StockCall.Fresh : StockCall → Prop
  | confirm _ st => st = .starting 1
  | cancel _ st => st = .reading
  | thrown => True

abbrev StockPool := Pool StockStore StockCall

end Gescom.Stock
