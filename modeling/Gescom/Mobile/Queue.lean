import Gescom.Common
import Gescom.Lib.Table
import Mathlib.Data.List.Infix

/-!
# The offline queue of the mobile client (`offline/mutation-queue.ts`, `offline/db.ts`)

A write of a screen is first a row of `mutation_queue`; `processQueue` sends the rows one by one. A
segment of `processQueue` between two awaits is one step here, and issues the SQLite statement it
ends with.

| here | there |
| --- | --- |
| `Phone.enqueueMutation` | `enqueueMutation` (`mutation-queue.ts:45`), `insertMutation` (`db.ts:119`) |
| `Phone.processQueue` | `processQueue` (`:86`) up to its loop |
| `Phone.proceed`, `Phone.receive` | the loop and `processOne` (`:104`) |
| `Phone.establish`, `Phone.purge`, `Phone.close` | `login`, `logout` (`auth-context.tsx:123`, `:146`) |
-/

namespace Gescom.Mobile

/-- Each login opens a session and gets the one access token of that session. -/
structure AccessToken where
  session : Nat
  enterpriseId : Option Uuid
  deriving DecidableEq, Repr

inductive HttpMethod where
  | post | patch | delete
  deriving DecidableEq, Repr

inductive MutationScope where
  | tenant | auth
  deriving DecidableEq, Repr

inductive MutationStatus where
  | pending | processing | failed
  deriving DecidableEq, Repr

structure QueuedMutation where
  id : Nat
  method : HttpMethod
  path : String
  /-- The JSON text. -/
  body : Option String
  scope : MutationScope
  status : MutationStatus := .pending
  retryCount : Nat := 0
  lastError : Option String := none
  idempotencyKey : String
  /-- In no column: the token the screen that enqueued the mutation was rendered with. -/
  author : AccessToken
  deriving DecidableEq, Repr

instance : Keyed QueuedMutation Nat := ⟨QueuedMutation.id⟩

structure EnqueueMutationInput where
  method : HttpMethod
  path : String
  body : Option String := none
  scope : Option MutationScope := none

/-- What `apiFetch` puts on the wire. -/
structure Request where
  method : HttpMethod
  path : String
  body : Option String
  authorization : AccessToken
  idempotencyKey : String
  /-- Not on the wire: the author of the mutation. -/
  author : AccessToken
  deriving DecidableEq, Repr

def QueuedMutation.request (m : QueuedMutation) (accessToken : AccessToken) : Request where
  method := m.method
  path := m.path
  body := m.body
  authorization := accessToken
  idempotencyKey := m.idempotencyKey
  author := m.author

structure Response where
  status : Nat
  /-- The message `extractErrorMessage` finds in the body. -/
  message : Option String

def Response.ok (r : Response) : Bool := 200 ≤ r.status && r.status < 300

def extractErrorMessage (r : Response) (fallback : String) : String := r.message.getD fallback

/-- `getAccessToken`: a screen hook closes over the token of its render, `useSyncEngine` reads a
ref. -/
inductive ProcessQueueDeps where
  | closed (accessToken : AccessToken)
  | ref
  deriving DecidableEq, Repr

/-- Where a run of `processQueue` waits. -/
inductive Run where
  /-- At the head of the loop. -/
  | next (rest : List QueuedMutation)
  /-- On `markMutationProcessing`; the token is read. -/
  | marking (m : QueuedMutation) (accessToken : AccessToken) (rest : List QueuedMutation)
  /-- On the response. -/
  | waiting (m : QueuedMutation) (rest : List QueuedMutation)
  /-- On the body of a response that is final. -/
  | rejected (m : QueuedMutation) (r : Response) (rest : List QueuedMutation)
  /-- On the last write before `"stop"`. -/
  | stopping (scheduleRetry : Bool)

/-- The session of `AuthProvider`. -/
inductive Session where
  | unauthenticated
  | authenticated (accessToken : AccessToken)
  deriving DecidableEq, Repr

def Session.accessToken : Session → Option AccessToken
  | unauthenticated => none
  | authenticated accessToken => some accessToken

structure Phone where
  queue : Table QueuedMutation
  /-- `AUTOINCREMENT`. -/
  nextId : Nat
  /-- `isProcessing`, with the run that has set it. -/
  processing : Option (ProcessQueueDeps × Run) := none
  /-- Screen hooks between their `enqueueMutation` and their `processQueue`. -/
  hooks : List AccessToken := []
  /-- Timers of `scheduleRetry`. -/
  timers : List ProcessQueueDeps := []
  session : Session := .unauthenticated
  /-- What the screens show. The ref of `useSyncEngine` has the token of this render. -/
  rendered : Session := .unauthenticated
  /-- Logins under way. -/
  loggingIn : Nat := 0
  /-- Logouts that have not purged the store. -/
  loggingOut : Nat := 0
  /-- Logouts that have, and have not closed the session. -/
  purged : Nat := 0
  /-- Sessions opened so far. -/
  sessions : Nat := 0
  /-- The token of the last login. -/
  lastLogin : Option AccessToken := none
  /-- What has been sent. -/
  requests : List Request := []

/-! ## `mutation_queue` -/

def isPathChar (c : Char) : Bool := c.isAlphanum || "-._~/".toList.contains c

/-- `assertValidMutationPath`. -/
def validMutationPath (path : String) : Bool :=
  match path.toList with
  | '/' :: cs =>
    cs.all isPathChar && !decide (['.', '.'] <:+: path.toList) &&
      !decide (['/', '/'] <:+: path.toList)
  | _ => false

/-- The screen was rendered with `author`; nothing is inserted when the path is refused. -/
def Phone.enqueueMutation (input : EnqueueMutationInput) (idempotencyKey : String)
    (author : AccessToken) (phone : Phone) : Phone :=
  if validMutationPath input.path then
    { phone with
      queue := phone.queue.insert
        { id := phone.nextId, method := input.method, path := input.path, body := input.body,
          scope := input.scope.getD .tenant, idempotencyKey, author }
      nextId := phone.nextId + 1 }
  else phone

/-- `WHERE status IN ('pending', 'processing') ORDER BY id ASC`: rows are in the order of their
ids. -/
def Phone.listPendingMutations (phone : Phone) : List QueuedMutation :=
  phone.queue.rows.filter fun m => m.status != .failed

def Phone.updateMutation (id : Nat) (f : QueuedMutation → QueuedMutation)
    (hf : ∀ m, (f m).id = m.id) (phone : Phone) : Phone :=
  { phone with queue := phone.queue.update id f hf }

def Phone.markMutationProcessing (id : Nat) (phone : Phone) : Phone :=
  phone.updateMutation id (fun m => { m with status := .processing }) fun _ => rfl

def Phone.markMutationPending (id : Nat) (phone : Phone) : Phone :=
  phone.updateMutation id (fun m => { m with status := .pending }) fun _ => rfl

def Phone.markMutationDone (id : Nat) (phone : Phone) : Phone :=
  { phone with queue := phone.queue.deleteWhere fun m => m.id == id }

def Phone.markMutationFailed (id : Nat) (error : String) (phone : Phone) : Phone :=
  phone.updateMutation id (fun m => { m with status := .failed, lastError := some error })
    fun _ => rfl

def Phone.incrementRetry (id : Nat) (error : String) (phone : Phone) : Phone :=
  phone.updateMutation id
    (fun m => { m with retryCount := m.retryCount + 1, lastError := some error }) fun _ => rfl

/-- `purgeTenantScoped`. -/
def Phone.purgeTenantScoped (phone : Phone) : Phone :=
  { phone with queue := phone.queue.deleteWhere fun m => m.scope != .auth }

/-! ## `processQueue` -/

def maxTransientRetries : Nat := 5

def ProcessQueueDeps.getAccessToken (phone : Phone) : ProcessQueueDeps → Option AccessToken
  | closed accessToken => some accessToken
  | ref => phone.rendered.accessToken

def Phone.processQueue (deps : ProcessQueueDeps) (phone : Phone) : Phone :=
  if phone.processing.isSome then phone
  else { phone with processing := some (deps, .next phone.listPendingMutations) }

/-- The next segment of the run. -/
def Phone.proceed (phone : Phone) : Option Phone :=
  match phone.processing with
  | none => none
  | some (_, .next []) => some { phone with processing := none }
  | some (deps, .next (m :: rest)) =>
    match deps.getAccessToken phone with
    | none => some { phone with processing := none }
    | some accessToken =>
      some { phone.markMutationProcessing m.id with
        processing := some (deps, .marking m accessToken rest) }
  | some (deps, .marking m accessToken rest) =>
    some { phone with
      requests := phone.requests ++ [m.request accessToken]
      processing := some (deps, .waiting m rest) }
  | some (_, .waiting ..) => none
  | some (deps, .rejected m r rest) =>
    some { phone.markMutationFailed m.id (extractErrorMessage r ("HTTP " ++ toString r.status)) with
      processing := some (deps, .next rest) }
  | some (deps, .stopping scheduleRetry) =>
    some { phone with
      timers := if scheduleRetry then phone.timers ++ [deps] else phone.timers
      processing := none }

/-- The segment after the request; `none` when `fetch` throws. -/
def Phone.receive (reply : Option Response) (phone : Phone) : Option Phone :=
  match phone.processing with
  | some (deps, .waiting m rest) =>
    match reply with
    | none =>
      some { phone.markMutationPending m.id with processing := some (deps, .stopping false) }
    | some r =>
      if r.ok then some { phone.markMutationDone m.id with processing := some (deps, .next rest) }
      else if r.status = 401 then
        some { phone.markMutationPending m.id with processing := some (deps, .stopping false) }
      else if 500 ≤ r.status ∨ r.status = 429 then
        let nextRetryCount := m.retryCount + 1
        if maxTransientRetries ≤ nextRetryCount then
          let error :=
            "HTTP " ++ toString r.status ++ " après " ++ toString nextRetryCount ++ " tentatives"
          some { phone.markMutationFailed m.id error with processing := some (deps, .next rest) }
        else
          some { phone.incrementRetry m.id ("HTTP " ++ toString r.status) with
            processing := some (deps, .stopping true) }
      else some { phone with processing := some (deps, .rejected m r rest) }
  | _ => none

/-! ## Sessions -/

/-- `establishSession` and `setSession`. -/
def Phone.establish (enterpriseId : Option Uuid) (phone : Phone) : Phone :=
  let accessToken : AccessToken := ⟨phone.sessions, enterpriseId⟩
  { phone with
    loggingIn := phone.loggingIn - 1
    session := .authenticated accessToken
    sessions := phone.sessions + 1
    lastLogin := some accessToken }

/-- `purgeOfflineStore`. -/
def Phone.purge (phone : Phone) : Phone :=
  { phone.purgeTenantScoped with loggingOut := phone.loggingOut - 1, purged := phone.purged + 1 }

/-- `setSession(UNAUTHENTICATED_SESSION)`. -/
def Phone.close (phone : Phone) : Phone :=
  { phone with purged := phone.purged - 1, session := .unauthenticated }

def Phone.render (phone : Phone) : Phone := { phone with rendered := phone.session }

end Gescom.Mobile
