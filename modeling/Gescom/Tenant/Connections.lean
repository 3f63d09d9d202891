import Gescom.Auth.Tokens
import Gescom.Tenant.Policies

/-!
# `TenantScopedPrismaService.run` over a pool of connections

`tenant-context.middleware.ts` and `tenant-scoped-prisma.service.ts`. Each call of `run` is a thread:
it takes the tenant from the verified token of its request, a connection of the pool that no other
call uses, opens a transaction, sets `app.tenant_id` for it, and then runs its callback: any queries,
inserts, updates outside the keys and upserts (no repository deletes a row, changes a key or sets
`app.tenant_id` itself). The connection goes back to the pool at the end of the transaction, with what is left of the
setting.
-/

namespace Gescom.Tenant

open RowSecurity ReadCommitted Transition
open Auth (JwtService bearerToken)

structure TenantStore where
  tenantId : Uuid
  userId : Uuid
  isSuperAdmin : Bool
  deriving DecidableEq, Repr

/-- `TenantContextMiddleware.use`: the store under which the request runs, or none. -/
def TenantContextMiddleware.use (jwt : JwtService) (now : Instant) (authorization : Option String) :
    Option TenantStore :=
  (bearerToken authorization).bind fun token =>
    (jwt.verifyAccessToken now token).bind fun payload =>
      payload.enterpriseId.map fun tenantId => ⟨tenantId, payload.sub, payload.isSuperAdmin⟩

/-- A connection of the pool, with the thread whose transaction it has open. -/
structure Connection where
  session : Session Uuid := {}
  holder : Option Nat := none

/-- The committed rows, and the connections of the tenant role. -/
structure Server (β : Type) where
  rows : Table (Row β)
  connections : Nat → Connection
  now : Instant

abbrev TenantDb (β : Type) := Store (Server β) RowKey

inductive Isolation where
  | readCommitted | serializable
  deriving DecidableEq, Repr

/-- A call of `run` in its transaction. `seen` is what its statements have returned so far, and
`writes` what they have written. -/
structure Txn (β : Type) where
  authorization : Option String
  verifiedAt : Instant
  tenantId : Uuid
  connection : Nat
  /-- What a `Serializable` transaction reads. -/
  snapshot : Option (Table (Row β))
  writes : List (Row β) := []
  seen : List (Row β) := []

inductive RunState (β : Type) where
  | calling (authorization : Option String) (isolationLevel : Isolation)
  | rejected
  | connecting (authorization : Option String) (verifiedAt : Instant) (tenantId : Uuid)
      (isolationLevel : Isolation)
  | scoping (authorization : Option String) (verifiedAt : Instant) (tenantId : Uuid)
      (connection : Nat) (isolationLevel : Isolation)
  | running (t : Txn β)
  | aborting (t : Txn β)
  | committed (t : Txn β)
  | rolledBack (t : Txn β)

/-- What drives a call: the next step of `run`, with the connection the pool has for it; a statement
of the callback; the callback resolves, or something rejects, the callback or the database. -/
inductive Move (β : Type) where
  | proceed (connection : Nat)
  | statement (c : Command (Row β) TableName)
  | resolve
  | reject

/-- Time passes; a service of the identity role writes, which no policy holds back. -/
inductive Outside (β : Type) where
  | tick (n : Nat)
  | identity (f : Table (Row β) → Table (Row β))

section
variable {β : Type}

def Server.setConnection (i : Nat) (c : Connection) (s : Server β) : Server β :=
  { s with connections := Function.update s.connections i c }

/-- The transaction of connection `i` is over. -/
def Server.disconnect (i : Nat) (s : Server β) : Server β :=
  s.setConnection i ⟨(s.connections i).session.finish, none⟩

def Server.setRows (rows : Table (Row β)) (s : Server β) : Server β := { s with rows }

/-- The rows a statement of `t` starts from. -/
def Txn.base (t : Txn β) (s : Server β) : Table (Row β) := t.snapshot.getD s.rows

/-- The unique index knows the pending rows of the transaction and every committed one. -/
def Txn.taken (t : Txn β) (s : Server β) (k : RowKey) : Bool :=
  ((overlay (t.base s) t.writes).find? k).isSome || (s.rows.find? k).isSome

def Txn.execute (t : Txn β) (c : Command (Row β) TableName) (s : Server β) :
    Except SqlError (Effect (Row β)) :=
  (schema β).execute (overlay (t.base s) t.writes) (t.taken s)
    (s.connections t.connection).session.current c

def Txn.perform (e : Effect (Row β)) (t : Txn β) : Txn β :=
  { t with writes := t.writes ++ e.writes, seen := t.seen ++ e.returned }

/-- A row it writes for the first time has been changed since its snapshot (40001). -/
def Txn.conflicts [DecidableEq β] (e : Effect (Row β)) (t : Txn β) (s : Server β) : Bool :=
  e.writes.any fun r =>
    t.writes.all (fun w => w.key != r.key) && s.rows.find? r.key != (t.base s).find? r.key

def TenantDb.acquireRows (pid : Nat) (rows : List (Row β)) (s : TenantDb β) : TenantDb β :=
  s.acquireAll pid fun k => rows.any fun r => r.key == k

def TenantDb.rowsFree (pid : Nat) (rows : List (Row β)) (s : TenantDb β) : Bool :=
  rows.all fun r => s.free pid r.key

def RunState.step [DecidableEq β] (jwt : JwtService) (pid : Nat) (s : TenantDb β) :
    RunState β → Move β → Option (TenantDb β × RunState β)
  | calling authorization isolationLevel, .proceed _ =>
    match TenantContextMiddleware.use jwt s.db.now authorization with
    | none => some (s, rejected) -- `getRequiredTenantId` throws
    | some store => some (s, connecting authorization s.db.now store.tenantId isolationLevel)
  | connecting authorization verifiedAt tenantId isolationLevel, .proceed i =>
    match (s.db.connections i).holder with
    | some _ => none
    | none => some (s.autocommit (·.setConnection i ⟨(s.db.connections i).session, some pid⟩),
        scoping authorization verifiedAt tenantId i isolationLevel)
  | scoping authorization verifiedAt tenantId i isolationLevel, .proceed _ =>
    let c := s.db.connections i
    let snapshot := if isolationLevel = .serializable then some s.db.rows else none
    some (s.autocommit (·.setConnection i { c with session := c.session.setLocal tenantId }),
      running { authorization, verifiedAt, tenantId, connection := i, snapshot })
  | running t, .statement c =>
    match t.execute c s.db with
    | .error _ => some (s, aborting t)
    | .ok e =>
      if TenantDb.rowsFree pid e.writes s = false then none
      else if t.conflicts e s.db then some (s, aborting t)
      else some (TenantDb.acquireRows pid e.writes s, running (t.perform e))
  | running t, .resolve =>
    some (s.commit pid fun db => (db.setRows (overlay db.rows t.writes)).disconnect t.connection,
      committed { t with writes := [] })
  | running t, .reject => some (s.commit pid (·.disconnect t.connection), rolledBack t)
  | aborting t, .reject => some (s.commit pid (·.disconnect t.connection), rolledBack t)
  | _, _ => none

def Outside.apply : Outside β → Server β → Server β
  | tick n, s => { s with now := s.now + n }
  | identity f, s => s.setRows (f s.rows)

/-- Any number of calls of `run`. -/
def api [DecidableEq β] (jwt : JwtService) :
    Machine (TenantDb β) (RunState β) (Move β) (Outside β) where
  thread pid m s st := st.step jwt pid s m
  env x s := s.autocommit x.apply

abbrev TenantPool (β : Type) := Pool (TenantDb β) (RunState β)

/-- The transaction of a call that has one. -/
def RunState.txn : RunState β → Option (Txn β)
  | running t | aborting t | committed t | rolledBack t => some t
  | _ => none

end

end Gescom.Tenant
