import Gescom.Lib.InsertionMap
import Gescom.Lib.Transition

/-!
# The persisted cache of queries (`offline/query-client.ts`, `offline/persister.ts`)

`startPersisting` starts a persistence: it reads `query_cache`, later puts what it has read into the
cache in memory, then opens a subscription that writes the cache to `query_cache` at every change,
unless its stop function has been called. `purgeOfflineStore` stops the persistence that the
variable `stopPersisting` names, clears the cache, deletes both tables and starts a persistence anew
in its `finally`. SQLite executes the statements of the one connection in the order in which they
are issued, each a step of its own.

| here | there |
| --- | --- |
| `isAllowedToPersist`, `dehydrate` | `isAllowedToPersist`, `shouldDehydrateQuery` (`query-client.ts:46`, `:50`) |
| `Offline.startPersisting` | `startPersisting` (`:83`) |
| `Offline.withPersistenceSuspended`, `Offline.settle` | `withPersistenceSuspended` (`:102`) |
| `Offline.purgeOfflineStore`, `Purge.result` | `purgeOfflineStore` (`index.ts:25`) |
| `Statement` | `sqlitePersister` (`persister.ts:10`), `purgeTenantScoped` (`db.ts`) |
-/

namespace Gescom.Mobile

open Transition

/-! ## Queries -/

/-- A segment of a query key: a text, or an object of parameters as its JSON text. -/
inductive KeySegment where
  | text (segment : String)
  | params (json : String)
  deriving DecidableEq, Repr

def dehydrateAllowList : List (List String) :=
  [["customers"], ["suppliers"], ["products"], ["stock"], ["stock-movements"], ["sales"], ["sale"],
    ["purchases"], ["purchase"], ["invoices"], ["invoice"], ["accounting-accounts"],
    ["accounting-trial-balance"], ["journal-entries"], ["journal-entry"], ["reports-sales"],
    ["reports-purchases"], ["reports-income-statement"], ["users", "me", "context"]]

def isAllowedToPersist (queryKey : List KeySegment) : Bool :=
  dehydrateAllowList.any fun allowed => (allowed.map KeySegment.text).isPrefixOf queryKey

/-- Of a query that has data. -/
inductive QueryStatus where
  | success | error
  deriving DecidableEq, Repr

/-- `cachedAt` is `dataUpdatedAt`, on a clock that every cached datum and every purge moves. -/
structure CachedQuery where
  queryKey : List KeySegment
  status : QueryStatus
  cachedAt : Nat
  deriving DecidableEq, Repr

instance : Keyed CachedQuery (List KeySegment) := ⟨CachedQuery.queryKey⟩

/-- `dehydrate` under `shouldDehydrateQuery`. -/
def dehydrate (memory : Table CachedQuery) : List CachedQuery :=
  memory.rows.filter fun query => query.status == .success && isAllowedToPersist query.queryKey

/-- A change of the cache; `updated` leaves the data alone. -/
inductive CacheEvent where
  | fetched (queryKey : List KeySegment)
  | failed (queryKey : List KeySegment)
  | removed (queryKey : List KeySegment)
  | updated
  deriving DecidableEq, Repr

def CacheEvent.apply (now : Nat) (memory : Table CachedQuery) : CacheEvent → Table CachedQuery
  | .fetched queryKey => memory.set ⟨queryKey, .success, now⟩
  | .failed queryKey =>
    memory.update queryKey (fun query => { query with status := .error }) fun _ => rfl
  | .removed queryKey => memory.erase queryKey
  | .updated => memory

/-! ## The store -/

inductive PersistencePhase where
  | reading
  | read (client : List CachedQuery)
  | restored
  | subscribed
  | ended
  deriving DecidableEq, Repr

/-- A call of `persistQueryClient`; `stopped` is set by the stop function it has returned. -/
structure Persistence where
  phase : PersistencePhase := .reading
  stopped : Bool := false
  deriving DecidableEq, Repr

/-- The subscription is open. -/
def Persistence.live (p : Persistence) : Bool := p.phase == .subscribed && !p.stopped

/-- The statements that SQLite has yet to execute, each with the persistence or the purge that
waits for it. -/
inductive Statement where
  | restoreClient (i : Nat)
  | persistClient (client : List CachedQuery)
  | removeClient (startedAt : Nat)
  | purgeTenantScoped (startedAt : Nat)
  deriving DecidableEq, Repr

/-- The purge that the deletion belongs to. -/
def Statement.purge : Statement → Option Nat
  | .removeClient startedAt | .purgeTenantScoped startedAt => some startedAt
  | _ => none

def Statement.client : Statement → List CachedQuery
  | .persistClient client => client
  | _ => []

/-- A call of `purgeOfflineStore`; `outcome` is what its promise has settled to. -/
structure Purge where
  startedAt : Nat
  failures : Nat := 0
  outcome : Option (Except String Unit) := none
  deriving DecidableEq

/-- The `AggregateError` of the rejected deletions. -/
def Purge.result (p : Purge) : Except String Unit :=
  if 0 < p.failures then .error "Échec partiel de la purge du cache hors-ligne" else .ok ()

/-- `purges` has the newest first. -/
structure Offline where
  memory : Table CachedQuery
  queryCache : Option (List CachedQuery)
  statements : List Statement
  persistences : List Persistence
  stopPersisting : Option Nat
  purges : List Purge
  now : Nat

/-- `query_cache` as the application finds it. -/
structure Disk where
  queryCache : Option (List CachedQuery)
  now : Nat
  cachedBefore : ∀ query ∈ queryCache.getD [], query.cachedAt < now

def Offline.startPersisting (s : Offline) : Offline :=
  { s with
    persistences := s.persistences ++ [{}]
    statements := s.statements ++ [.restoreClient s.persistences.length]
    stopPersisting := some s.persistences.length }

def moduleLoad (d : Disk) : Offline :=
  Offline.startPersisting
    { memory := .empty, queryCache := d.queryCache, statements := [], persistences := []
      stopPersisting := none, purges := [], now := d.now }

/-- The cache has changed: every open subscription writes it. -/
def Offline.changed (memory : Table CachedQuery) (s : Offline) : Offline :=
  { s with
    memory := memory
    statements := s.statements ++
      (s.persistences.filter Persistence.live).map fun _ => .persistClient (dehydrate memory) }

/-- `hydrate`, for one query: data of the cache that is as new stays. -/
def Offline.hydrateQuery (s : Offline) (query : CachedQuery) : Offline :=
  match s.memory.find? query.queryKey with
  | some cached => if cached.cachedAt < query.cachedAt then s.changed (s.memory.set query) else s
  | none => s.changed (s.memory.set query)

def Offline.hydrate (client : List CachedQuery) (s : Offline) : Offline :=
  client.foldl Offline.hydrateQuery s

/-- `queryClient.clear`, which removes the queries one by one. -/
def Offline.clear (s : Offline) : Offline :=
  s.memory.keys.foldl (fun s queryKey => s.changed (s.memory.erase queryKey)) s

/-- `stopPersisting?.()`, then `stopPersisting = undefined`. -/
def Offline.suspend (s : Offline) : Offline :=
  { s with
    persistences := match s.stopPersisting with
      | some i => s.persistences.modify i fun p => { p with stopped := true }
      | none => s.persistences
    stopPersisting := none }

/-- `withPersistenceSuspended`, up to the first `await` of its action. -/
def Offline.withPersistenceSuspended (action : Offline → Offline) (s : Offline) : Offline :=
  action s.suspend

def Offline.purgeOfflineStore : Offline → Offline :=
  Offline.withPersistenceSuspended fun s =>
    let cleared := s.clear
    { cleared with
      statements := cleared.statements ++ [.removeClient s.now, .purgeTenantScoped s.now]
      purges := { startedAt := s.now } :: cleared.purges
      now := s.now + 1 }

def Offline.fail (startedAt : Nat) (s : Offline) : Offline :=
  { s with
    purges := s.purges.map fun p =>
      if p.startedAt = startedAt then { p with failures := p.failures + 1 } else p }

def Offline.enter (i : Nat) (phase : PersistencePhase) (s : Offline) : Offline :=
  { s with persistences := s.persistences.modify i fun p => { p with phase := phase } }

/-- SQLite executes a statement; a write or a deletion may fail. -/
def Offline.execute (ok : Bool) (s : Offline) : Statement → Offline
  | .restoreClient i => s.enter i (.read (s.queryCache.getD []))
  | .persistClient client => if ok then { s with queryCache := some client } else s
  | .removeClient startedAt => if ok then { s with queryCache := none } else s.fail startedAt
  | .purgeTenantScoped startedAt => if ok then s else s.fail startedAt

def Purge.settle (p : Purge) : Purge := { p with outcome := some p.result }

/-- `allSettled` resolves, and `finally` starts a persistence. -/
def Offline.settle (startedAt : Nat) (s : Offline) : Offline :=
  Offline.startPersisting
    { s with
      purges := s.purges.map fun p => if p.startedAt = startedAt then p.settle else p }

inductive OfflineAction where
  | purgeOfflineStore
  | sqlite (ok : Bool)
  | hydrate (i : Nat)
  | subscribe (i : Nat)
  | settle (startedAt : Nat)
  | cache (event : CacheEvent)
  deriving DecidableEq, Repr

def Offline.step (s : Offline) : OfflineAction → Option Offline
  | .purgeOfflineStore => some s.purgeOfflineStore
  | .sqlite ok =>
    match s.statements with
    | [] => none
    | statement :: statements => some (Offline.execute ok { s with statements } statement)
  | .hydrate i =>
    match s.persistences[i]? with
    | some ⟨.read client, _⟩ => some ((s.hydrate client).enter i .restored)
    | _ => none
  | .subscribe i =>
    match s.persistences[i]? with
    | some ⟨.restored, stopped⟩ => some (s.enter i (if stopped then .ended else .subscribed))
    | _ => none
  | .settle startedAt =>
    if (s.purges.any fun p => p.startedAt == startedAt && p.outcome.isNone) &&
        s.statements.all (·.purge != some startedAt) then some (s.settle startedAt)
    else none
  | .cache event => some { s.changed (event.apply s.now s.memory) with now := s.now + 1 }

def offline : System Offline OfflineAction := ⟨Offline.step⟩

/-- The steps, with what each asks for. -/
inductive Offline.Moves (s : Offline) : OfflineAction → Offline → Prop
  | purge : s.Moves .purgeOfflineStore s.purgeOfflineStore
  | sqlite {statement : Statement} {statements : List Statement} (ok : Bool)
      (issued : s.statements = statement :: statements) :
      s.Moves (.sqlite ok) (Offline.execute ok { s with statements } statement)
  | hydrate {i : Nat} {client : List CachedQuery} {stopped : Bool}
      (phase : s.persistences[i]? = some ⟨.read client, stopped⟩) :
      s.Moves (.hydrate i) ((s.hydrate client).enter i .restored)
  | subscribe {i : Nat} {stopped : Bool} (phase : s.persistences[i]? = some ⟨.restored, stopped⟩) :
      s.Moves (.subscribe i) (s.enter i (if stopped then .ended else .subscribed))
  | settle {p : Purge} (called : p ∈ s.purges) (underWay : p.outcome = none)
      (deleted : ∀ statement ∈ s.statements, statement.purge ≠ some p.startedAt) :
      s.Moves (.settle p.startedAt) (s.settle p.startedAt)
  | cache (event : CacheEvent) :
      s.Moves (.cache event) { s.changed (event.apply s.now s.memory) with now := s.now + 1 }

theorem moves_of_step {s s' : Offline} {a : OfflineAction} (hst : s.step a = some s') : s.Moves a s' := by
  cases a with
  | purgeOfflineStore =>
    cases hst
    exact .purge
  | sqlite ok =>
    simp only [Offline.step] at hst
    split at hst
    · cases hst
    · rename_i hs
      cases hst
      exact .sqlite ok hs
  | hydrate i =>
    simp only [Offline.step] at hst
    split at hst
    · rename_i hi
      cases hst
      exact .hydrate hi
    · cases hst
  | subscribe i =>
    simp only [Offline.step] at hst
    split at hst
    · rename_i hi
      cases hst
      exact .subscribe hi
    · cases hst
  | settle startedAt =>
    simp only [Offline.step] at hst
    split at hst
    · rename_i hguard
      cases hst
      simp only [Bool.and_eq_true, List.any_eq_true, List.all_eq_true, beq_iff_eq, bne_iff_ne,
        Option.isNone_iff_eq_none] at hguard
      obtain ⟨⟨p, hp, rfl, hunder⟩, hdone⟩ := hguard
      exact .settle hp hunder hdone
    · cases hst
  | cache event =>
    cases hst
    exact .cache event

/-! ## Changes of the cache -/

/-- `R` holds of the times at which the queries were cached. -/
def Dated (R : Nat → Prop) (queries : List CachedQuery) : Prop := ∀ query ∈ queries, R query.cachedAt

variable {R : Nat → Prop} {s s' s'' : Offline} {client : List CachedQuery} {query : CachedQuery}
  {statements : List Statement} {memory : Table CachedQuery}

theorem dated_nil (R : Nat → Prop) : Dated R [] := fun _ hquery => absurd hquery List.not_mem_nil

theorem dated_true (queries : List CachedQuery) : Dated (fun _ => True) queries := fun _ _ => trivial

/-- The cache in memory changes, to data of the times `R`, and the open subscriptions write it. -/
structure Offline.Changes (R : Nat → Prop) (s s' : Offline) : Prop where
  frame : s' = { s with memory := s'.memory, statements := s'.statements }
  memory : Dated R s'.memory.rows
  writes : ∃ writes : List (List CachedQuery),
    s'.statements = s.statements ++ writes.map .persistClient ∧ ∀ client ∈ writes, Dated R client

theorem dated_dehydrate (h : Dated R memory.rows) : Dated R (dehydrate memory) := fun query hquery =>
  h query (List.mem_of_mem_filter hquery)

theorem changes_refl (h : Dated R s.memory.rows) : s.Changes R s :=
  ⟨rfl, h, [], by simp, fun _ hclient => absurd hclient List.not_mem_nil⟩

theorem changes_changed (h : Dated R memory.rows) : s.Changes R (s.changed memory) := by
  refine ⟨rfl, h, (s.persistences.filter Persistence.live).map fun _ => dehydrate memory, ?_, ?_⟩
  · rw [List.map_map]
    rfl
  · intro client hclient
    obtain ⟨_, -, rfl⟩ := List.mem_map.1 hclient
    exact dated_dehydrate h

theorem Offline.Changes.trans (h : s.Changes R s') (h' : s'.Changes R s'') : s.Changes R s'' := by
  obtain ⟨writes, hstatements, hwrites⟩ := h.writes
  obtain ⟨writes', hstatements', hwrites'⟩ := h'.writes
  refine ⟨?_, h'.memory, writes ++ writes', ?_, fun client hclient => ?_⟩
  · rw [h'.frame, h.frame]
  · rw [hstatements', hstatements, List.map_append, List.append_assoc]
  · rcases List.mem_append.1 hclient with hold | hnew
    · exact hwrites client hold
    · exact hwrites' client hnew

theorem dated_set (h : Dated R memory.rows) (hquery : R query.cachedAt) :
    Dated R (memory.set query).rows := by
  intro x hx
  rcases Table.mem_set hx with hold | rfl
  · exact h x hold
  · exact hquery

theorem dated_apply (event : CacheEvent) {now : Nat} (h : Dated R memory.rows) (hnow : R now) :
    Dated R (event.apply now memory).rows := by
  cases event with
  | fetched queryKey => exact dated_set h hnow
  | failed queryKey =>
    intro x hx
    obtain ⟨query, hquery, rfl⟩ := List.mem_map.1 hx
    split
    · exact h query hquery
    · exact h query hquery
  | removed queryKey => exact fun x hx => h x (List.mem_of_mem_filter hx)
  | updated => exact h

theorem changes_hydrateQuery (h : Dated R s.memory.rows) (hquery : R query.cachedAt) :
    s.Changes R (s.hydrateQuery query) := by
  unfold Offline.hydrateQuery
  split
  · split
    · exact changes_changed (dated_set h hquery)
    · exact changes_refl h
  · exact changes_changed (dated_set h hquery)

theorem changes_hydrate (h : Dated R s.memory.rows) (hclient : Dated R client) :
    s.Changes R (s.hydrate client) := by
  unfold Offline.hydrate
  induction client generalizing s with
  | nil => exact changes_refl h
  | cons query client ih =>
    have hfirst : s.Changes R (s.hydrateQuery query) :=
      changes_hydrateQuery h (hclient query List.mem_cons_self)
    exact hfirst.trans (ih hfirst.memory fun x hx => hclient x (List.mem_cons_of_mem _ hx))

theorem foldl_erase_of_quiet (h : s.persistences.filter Persistence.live = [])
    (queryKeys : List (List KeySegment)) (memory : Table CachedQuery) :
    queryKeys.foldl (fun s queryKey => s.changed (s.memory.erase queryKey)) { s with memory } =
      { s with memory := queryKeys.foldl Table.erase memory } := by
  induction queryKeys generalizing memory with
  | nil => rfl
  | cons queryKey queryKeys ih =>
    simp only [List.foldl_cons, Offline.changed, h, List.map_nil, List.append_nil]
    exact ih (memory.erase queryKey)

/-- Nothing is written while no subscription is open. -/
theorem clear_of_quiet (h : ∀ p ∈ s.persistences, p.live = false) :
    s.clear = { s with memory := .empty } := by
  have hquiet : s.persistences.filter Persistence.live = [] :=
    List.filter_eq_nil_iff.2 fun p hp hlive => by
      rw [h p hp] at hlive
      cases hlive
  calc s.clear
      = { s with memory := s.memory.keys.foldl Table.erase s.memory } :=
        foldl_erase_of_quiet hquiet s.memory.keys s.memory
    _ = { s with memory := .empty } := by rw [Table.foldl_erase_keys]

theorem changes_clear (h : Dated R s.memory.rows) : s.Changes R s.clear := by
  have herase : ∀ (queryKeys : List (List KeySegment)) (s : Offline), Dated R s.memory.rows →
      s.Changes R (queryKeys.foldl (fun s queryKey => s.changed (s.memory.erase queryKey)) s) := by
    intro queryKeys
    induction queryKeys with
    | nil => exact fun s hs => changes_refl hs
    | cons queryKey queryKeys ih =>
      intro s hs
      have hfirst : s.Changes R (s.changed (s.memory.erase queryKey)) :=
        changes_changed fun query hquery => hs query (List.mem_of_mem_filter hquery)
      exact hfirst.trans (ih _ hfirst.memory)
  exact herase s.memory.keys s h

/-! ## Persistences -/

theorem getElem?_enter {i j : Nat} {phase : PersistencePhase} {p' : Persistence}
    (h : (s.enter i phase).persistences[j]? = some p') :
    ∃ p, s.persistences[j]? = some p ∧ p'.stopped = p.stopped ∧
      (p'.phase = phase ∨ p'.phase = p.phase) := by
  rw [Offline.enter, List.getElem?_modify] at h
  obtain ⟨p, hp, rfl⟩ := Option.map_eq_some_iff.1 h
  refine ⟨p, hp, ?_⟩
  split
  · exact ⟨rfl, .inl rfl⟩
  · exact ⟨rfl, .inr rfl⟩

theorem read_enter {i : Nat} {phase : PersistencePhase}
    (h : ∀ p ∈ s.persistences, ∀ client, p.phase = .read client → Dated R client)
    (hphase : ∀ client, phase = .read client → Dated R client) :
    ∀ p ∈ (s.enter i phase).persistences, ∀ client, p.phase = .read client → Dated R client := by
  intro p' hp' client hclient
  obtain ⟨j, hj⟩ := List.mem_iff_getElem?.1 hp'
  obtain ⟨p, hp, -, hnew | hsame⟩ := getElem?_enter hj
  · exact hphase client (hnew ▸ hclient)
  · exact h p (List.mem_of_getElem? hp) client (hsame ▸ hclient)

theorem getElem?_suspend {i : Nat} {p' : Persistence} (h : s.suspend.persistences[i]? = some p') :
    ∃ p, s.persistences[i]? = some p ∧ p'.phase = p.phase ∧
      (p'.stopped = false → p.stopped = false ∧ s.stopPersisting ≠ some i) := by
  unfold Offline.suspend at h
  split at h
  · rename_i j hj
    simp only [List.getElem?_modify] at h
    obtain ⟨p, hp, rfl⟩ := Option.map_eq_some_iff.1 h
    refine ⟨p, hp, ?_⟩
    split
    · exact ⟨rfl, fun hopen => by cases hopen⟩
    · rename_i hij
      refine ⟨rfl, fun hopen => ⟨hopen, fun hi => hij ?_⟩⟩
      exact Option.some.inj (hj.symm.trans hi)
  · rename_i hnone
    refine ⟨p', h, rfl, fun hopen => ⟨hopen, fun hi => ?_⟩⟩
    rw [hnone] at hi
    cases hi

/-! ## The clock -/

def Offline.stored (s : Offline) : List CachedQuery :=
  s.queryCache.getD [] ++ s.statements.flatMap Statement.client

/-- Every query, wherever it is, was cached at one of the times `R`. -/
structure Offline.Every (R : Nat → Prop) (s : Offline) : Prop where
  memory : Dated R s.memory.rows
  read : ∀ p ∈ s.persistences, ∀ client, p.phase = .read client → Dated R client
  stored : Dated R s.stored

theorem Offline.Every.mono {R' : Nat → Prop} (h : s.Every R) (himp : ∀ t, R t → R' t) : s.Every R' :=
  ⟨fun query hquery => himp _ (h.memory query hquery),
    fun p hp client hclient query hquery => himp _ (h.read p hp client hclient query hquery),
    fun query hquery => himp _ (h.stored query hquery)⟩

theorem Offline.Every.changes (h : s.Every R) (hc : s.Changes R s') : s'.Every R := by
  obtain ⟨writes, hstatements, hwrites⟩ := hc.writes
  refine ⟨hc.memory, ?_, fun query hquery => ?_⟩
  · rw [hc.frame]
    exact h.read
  · rw [hc.frame, Offline.stored, hstatements, List.flatMap_append, ← List.append_assoc] at hquery
    rcases List.mem_append.1 hquery with hold | hnew
    · exact h.stored query hold
    · obtain ⟨statement, hs, hmem⟩ := List.mem_flatMap.1 hnew
      obtain ⟨client, hclient, rfl⟩ := List.mem_map.1 hs
      exact hwrites client hclient query hmem

/-- The steps that cache nothing new, seen from the statements. -/
theorem Offline.Every.frame (h : s.Every R) (hmemory : s'.memory = s.memory)
    (hread : ∀ p' ∈ s'.persistences, ∀ client, p'.phase = .read client →
      Dated R client ∨ ∃ p ∈ s.persistences, p.phase = p'.phase)
    (hstored : ∀ query ∈ s'.stored, query ∈ s.stored) : s'.Every R := by
  refine ⟨hmemory ▸ h.memory, fun p' hp' client hclient => ?_, fun query hquery => ?_⟩
  · rcases hread p' hp' client hclient with hdated | ⟨p, hp, hphase⟩
    · exact hdated
    · exact h.read p hp client (hphase.trans hclient)
  · exact h.stored query (hstored query hquery)

theorem every_enter {i : Nat} {phase : PersistencePhase} (h : s.Every R)
    (hphase : ∀ client, phase = .read client → Dated R client) : (s.enter i phase).Every R :=
  ⟨h.memory, read_enter h.read hphase, h.stored⟩

theorem every_purge (h : s.Every R) : s.purgeOfflineStore.Every R := by
  have hsuspend : s.suspend.Every R := by
    refine h.frame rfl (fun p' hp' client _ => .inr ?_) fun _ hquery => hquery
    obtain ⟨i, hi⟩ := List.mem_iff_getElem?.1 hp'
    obtain ⟨p, hp, hphase, -⟩ := getElem?_suspend hi
    exact ⟨p, List.mem_of_getElem? hp, hphase.symm⟩
  have hclear : s.suspend.clear.Every R := hsuspend.changes (changes_clear hsuspend.memory)
  refine hclear.frame rfl (fun p hp _ _ => .inr ⟨p, hp, rfl⟩) fun query hquery => ?_
  simp only [Offline.purgeOfflineStore, Offline.withPersistenceSuspended, Offline.stored,
    List.flatMap_append] at hquery
  simpa [Statement.client, Offline.stored] using hquery

theorem every_execute (h : s.Every R) {statement : Statement}
    (hs : s.statements = statement :: statements) (ok : Bool) :
    (Offline.execute ok { s with statements } statement).Every R := by
  have hcache : Dated R (s.queryCache.getD []) := fun query hquery =>
    h.stored query (List.mem_append_left _ hquery)
  have hstored : ∀ query ∈ Offline.stored { s with statements }, query ∈ s.stored := by
    intro query hquery
    rw [Offline.stored, hs, List.flatMap_cons]
    rcases List.mem_append.1 hquery with hold | hrest
    · exact List.mem_append_left _ hold
    · exact List.mem_append_right _ (List.mem_append_right _ hrest)
  have hrest : Offline.Every R { s with statements } :=
    h.frame rfl (fun p hp _ _ => .inr ⟨p, hp, rfl⟩) hstored
  cases statement with
  | restoreClient i =>
    refine every_enter hrest fun client hclient => ?_
    cases hclient
    exact hcache
  | persistClient client =>
    cases ok with
    | true =>
      refine ⟨h.memory, h.read, fun query hquery => h.stored query ?_⟩
      rw [Offline.stored, hs, List.flatMap_cons]
      exact List.mem_append_right _ hquery
    | false => exact hrest
  | removeClient startedAt =>
    cases ok with
    | true =>
      exact ⟨h.memory, h.read, fun query hquery => hrest.stored query (List.mem_append_right _ hquery)⟩
    | false => exact ⟨hrest.memory, hrest.read, hrest.stored⟩
  | purgeTenantScoped startedAt =>
    cases ok with
    | true => exact hrest
    | false => exact ⟨hrest.memory, hrest.read, hrest.stored⟩

theorem every_start (h : s.Every R) : s.startPersisting.Every R := by
  refine h.frame rfl (fun p hp client hclient => ?_) fun query hquery => ?_
  · rcases List.mem_append.1 hp with hold | hnew
    · exact .inr ⟨p, hold, rfl⟩
    · obtain rfl := List.mem_singleton.1 hnew
      cases hclient
  · simpa [Offline.startPersisting, Offline.stored, Statement.client] using hquery

/-- Only a change of the cache dates a query. -/
theorem every_step (h : s.Every R) {a : OfflineAction} (hnow : ∀ event, a = .cache event → R s.now)
    (hst : s.step a = some s') : s'.Every R := by
  cases moves_of_step hst with
  | purge => exact every_purge h
  | sqlite ok issued => exact every_execute h issued ok
  | hydrate phase =>
    have hdated := h.read _ (List.mem_of_getElem? phase) _ rfl
    exact every_enter (h.changes (changes_hydrate h.memory hdated)) fun _ hphase => by cases hphase
  | @subscribe i stopped phase =>
    refine every_enter h fun _ hphase => ?_
    cases stopped <;> cases hphase
  | settle => exact every_start ⟨h.memory, h.read, h.stored⟩
  | cache event =>
    have hchange := h.changes (changes_changed (s := s) (dated_apply event h.memory (hnow event rfl)))
    exact ⟨hchange.memory, hchange.read, hchange.stored⟩

theorem now_step {a : OfflineAction} (hst : s.step a = some s') : s.now ≤ s'.now := by
  cases moves_of_step hst with
  | purge => exact Nat.le_succ s.now
  | @sqlite statement _ ok => cases statement <;> cases ok <;> exact Nat.le_refl s.now
  | @hydrate i client =>
    have hchange : s.Changes (fun _ => True) (s.hydrate client) :=
      changes_hydrate (dated_true _) (dated_true _)
    exact Nat.le_of_eq (congrArg Offline.now hchange.frame).symm
  | subscribe => exact Nat.le_refl s.now
  | settle => exact Nat.le_refl s.now
  | cache => exact Nat.le_succ s.now

theorem every_moduleLoad (d : Disk) : (moduleLoad d).Every (· < d.now) := by
  refine every_start ⟨dated_nil _, fun p hp => absurd hp List.not_mem_nil, fun query hquery => ?_⟩
  rw [Offline.stored, List.flatMap_nil, List.append_nil] at hquery
  exact d.cachedBefore query hquery

/-- A purge is later than all that is cached when it starts. -/
theorem cached_before_now (d : Disk) (hr : Reach offline Always (moduleLoad d) s) :
    s.Every (· < s.now) := by
  refine hr.inv (fun s => s.Every (· < s.now)) (every_moduleLoad d) ?_
  intro s a s' _ h _ hst
  have hlater : s.Every (· < s'.now) := h.mono fun t ht => Nat.lt_of_lt_of_le ht (now_step hst)
  refine every_step hlater (fun event ha => ?_) hst
  subst ha
  cases hst
  exact Nat.lt_succ_self s.now

end Gescom.Mobile
