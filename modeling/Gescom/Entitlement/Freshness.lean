import Gescom.Entitlement.Cache
import Gescom.Lib.Transition

/-!
# Freshness of cached entitlements

`getCurrent` stores what `resolve` answered when the answer arrives, and `invalidate` drops what is
stored when it runs. An answer that was read before a change and arrives after the invalidation puts
the old plan back. `getCurrent_fresh` gives the runs in which whoever calls after `invalidate`
returned gets the entitlements of a database that has the change; `stale_refill` is one of the others.
-/

namespace Gescom.Entitlement

open Transition

/-! ## The calls -/

/-- A change of `SubscriptionsService.changePlan` or `PaymentWebhookService`. -/
inductive Change where
  | plan (newPlanId : Uuid)
  | status (newStatus : Billing.SubscriptionStatus)

def Change.apply : Change → Subscription → Subscription
  | plan newPlanId, s => { s with planId := newPlanId }
  | status newStatus, s => { s with status := newStatus }

theorem Change.apply_key (c : Change) (s : Subscription) : Keyed.key (c.apply s) = Keyed.key s := by
  cases c <;> rfl

/-- The change of the current subscription of the tenant. -/
def Change.commit (c : Change) (tenantId : Uuid) (db : Db) : Db :=
  match db.currentSubscription tenantId with
  | none => db
  | some s => { db with subscriptions := db.subscriptions.update s.id c.apply c.apply_key }

/-- A process, and the states its database has had: `commits` of them after the first, the last one
current. -/
structure World where
  dbAt : Nat → Db
  commits : Nat
  cache : Cache
  now : Instant
  /-- The commit of the last change of the tenant that an `invalidate` has followed. -/
  invalidated : Uuid → Nat

def World.db (w : World) : Db := w.dbAt w.commits

def World.commit (f : Db → Db) (w : World) : World :=
  { w with
    dbAt := Function.update w.dbAt (w.commits + 1) (f w.db)
    commits := w.commits + 1 }

/-- `asked` is what had been invalidated when the call started, `readAt` the commit its `resolve`
has read. -/
inductive CallState where
  | looking (tenantId : Uuid)
  | resolving (tenantId : Uuid) (asked : Nat)
  | storing (tenantId : Uuid) (asked : Nat) (readAt : Nat) (value : Entitlements)
  | answered (tenantId : Uuid) (asked : Nat) (value : Entitlements)
  | committing (tenantId : Uuid) (c : Change)
  | invalidating (tenantId : Uuid) (changedAt : Nat)
  | changed

def CallState.step (E : CacheEnv) (w : World) : CallState → Option (World × CallState)
  | looking tenantId =>
    match lookup w.now tenantId w.cache with
    | (cache, some value) =>
      some ({ w with cache := cache }, answered tenantId (w.invalidated tenantId) value)
    | (cache, none) => some ({ w with cache := cache }, resolving tenantId (w.invalidated tenantId))
  | resolving tenantId asked =>
    some (w, storing tenantId asked w.commits (w.db.resolve tenantId))
  | storing tenantId asked _ value =>
    some ({ w with cache := refill E tenantId value w.now w.cache }, answered tenantId asked value)
  | committing tenantId c =>
    some (w.commit (c.commit tenantId), invalidating tenantId (w.commits + 1))
  | invalidating tenantId changedAt =>
    some ({ w with
      cache := invalidate tenantId w.cache
      invalidated := Function.update w.invalidated tenantId
        (max (w.invalidated tenantId) changedAt) }, changed)
  | answered _ _ _ => none
  | changed => none

/-- Time passes, and others write to the database. -/
inductive Event where
  | tick (n : Nat)
  | write (f : Db → Db)

def Event.apply : Event → World → World
  | tick n, w => { w with now := w.now + n }
  | write f, w => w.commit f

/-- Any number of calls of one process. -/
def process (E : CacheEnv) : Machine World CallState Unit Event where
  thread _ _ w st := st.step E w
  env e w := e.apply w

/-! ## What must hold -/

/-- The entitlements the tenant had at a commit not before `since`. -/
def World.HasRead (w : World) (since : Nat) (tenantId : Uuid) (value : Entitlements) : Prop :=
  ∃ i, since ≤ i ∧ i ≤ w.commits ∧ value = (w.dbAt i).resolve tenantId

/-- Where a run may begin: every call is still to come, and nothing is cached. -/
structure Starts (P : Pool World CallState) : Prop where
  calls : ∀ pid, (∃ tenantId, P.threads pid = .looking tenantId) ∨
    ∃ tenantId c, P.threads pid = .committing tenantId c
  cache : P.shared.cache.rows = []
  invalidated : ∀ tenantId, P.shared.invalidated tenantId = 0

/-- The answer a call stores is not older than a change already invalidated. -/
def StoresFresh (E : CacheEnv) (P : Pool World CallState) : Act Unit Event → Prop
  | .run pid _ => ∀ tenantId asked readAt value,
      P.threads pid = .storing tenantId asked readAt value → 0 < E.ttlMs →
        P.shared.invalidated tenantId ≤ readAt
  | .env _ => True

/-- In the runs whose steps meet `K`, every call answers with entitlements that have every change
invalidated before it started. -/
def Fresh (E : CacheEnv) (K : Pool World CallState → Act Unit Event → Prop)
    (P₀ : Pool World CallState) : Prop :=
  ∀ P pid tenantId asked value, Reach (process E).system K P₀ P →
    P.threads pid = .answered tenantId asked value → P.shared.HasRead asked tenantId value

/-! ## Proof outline -/

/-- Each cached entry has every change invalidated so far. -/
structure World.Inv (w : World) : Prop where
  cached : ∀ tenantId entry, w.cache.find? tenantId = some entry →
    w.HasRead (w.invalidated tenantId) tenantId entry.value
  past : ∀ tenantId, w.invalidated tenantId ≤ w.commits

def CallState.Knows (st : CallState) (w : World) : Prop :=
  match st with
  | looking _ => True
  | resolving tenantId asked => asked ≤ w.invalidated tenantId
  | storing tenantId asked readAt value =>
    asked ≤ readAt ∧ readAt ≤ w.commits ∧ value = (w.dbAt readAt).resolve tenantId
  | answered tenantId asked value => w.HasRead asked tenantId value
  | committing _ _ => True
  | invalidating _ changedAt => changedAt ≤ w.commits
  | changed => True

/-- What a step of any call leaves in place. -/
structure World.Grows (w w' : World) : Prop where
  commits : w.commits ≤ w'.commits
  dbAt : ∀ i ≤ w.commits, w'.dbAt i = w.dbAt i
  invalidated : ∀ tenantId, w.invalidated tenantId ≤ w'.invalidated tenantId

section
variable {E : CacheEnv} {w w' : World} {since since' : Nat} {tenantId : Uuid} {value : Entitlements}
  {st st' : CallState}

theorem World.Grows.hasRead (h : w.Grows w') (hread : w.HasRead since tenantId value) :
    w'.HasRead since tenantId value := by
  obtain ⟨i, hsince, hi, rfl⟩ := hread
  exact ⟨i, hsince, Nat.le_trans hi h.commits, by rw [h.dbAt i hi]⟩

theorem CallState.Knows.grows (h : st.Knows w) (hgrows : w.Grows w') : st.Knows w' := by
  cases st with
  | looking tenantId => trivial
  | resolving tenantId asked => exact Nat.le_trans h (hgrows.invalidated tenantId)
  | storing tenantId asked readAt value =>
    obtain ⟨hasked, hread, hvalue⟩ := h
    exact ⟨hasked, Nat.le_trans hread hgrows.commits, by rw [hgrows.dbAt readAt hread]; exact hvalue⟩
  | answered tenantId asked value => exact hgrows.hasRead h
  | committing tenantId c => trivial
  | invalidating tenantId changedAt => exact Nat.le_trans h hgrows.commits
  | changed => trivial

theorem grows_commit (f : Db → Db) (w : World) : w.Grows (w.commit f) where
  commits := Nat.le_succ _
  dbAt i hi := Function.update_of_ne (by omega) ..
  invalidated _ := Nat.le_refl _

theorem inv_commit (f : Db → Db) (h : w.Inv) : (w.commit f).Inv where
  cached tenantId entry hfind := (grows_commit f w).hasRead (h.cached tenantId entry hfind)
  past tenantId := Nat.le_trans (h.past tenantId) (Nat.le_succ _)

/-- A step that only touches the cache. -/
theorem grows_cache (cache : Cache) (w : World) : w.Grows { w with cache := cache } :=
  ⟨Nat.le_refl _, fun _ _ => rfl, fun _ => Nat.le_refl _⟩

/-- The cache of a lookup holds no entry it did not hold before. -/
theorem inv_lookup (tenantId : Uuid) (h : w.Inv) :
    { w with cache := (lookup w.now tenantId w.cache).1 }.Inv where
  cached other entry hfind := h.cached other entry (find?_of_lookup hfind)
  past := h.past

theorem inv_refill {asked readAt : Nat} (h : w.Inv)
    (hknows : (CallState.storing tenantId asked readAt value).Knows w)
    (hfresh : 0 < E.ttlMs → w.invalidated tenantId ≤ readAt) :
    { w with cache := refill E tenantId value w.now w.cache }.Inv where
  cached other entry hfind := by
    simp only [refill] at hfind
    split at hfind
    · rename_i httl
      rcases find?_of_store hfind with rfl | hold
      · have hid : tenantId = other := Table.key_of_find? hfind
        subst hid
        exact ⟨readAt, hfresh httl, hknows.2.1, hknows.2.2⟩
      · exact h.cached other entry hold
    · exact h.cached other entry hfind
  past := h.past

theorem inv_invalidate {changedAt : Nat} (h : w.Inv) (hle : changedAt ≤ w.commits) :
    { w with
      cache := invalidate tenantId w.cache
      invalidated := Function.update w.invalidated tenantId
        (max (w.invalidated tenantId) changedAt) }.Inv where
  cached other entry hfind := by
    obtain ⟨hne, hold⟩ := find?_of_invalidate hfind
    simp only [Function.update_of_ne hne]
    exact h.cached other entry hold
  past other := by
    by_cases hne : other = tenantId
    · subst hne
      simp only [Function.update_self]
      exact Nat.max_le.2 ⟨h.past other, hle⟩
    · simp only [Function.update_of_ne hne]
      exact h.past other

theorem grows_invalidate (changedAt : Nat) (w : World) :
    w.Grows { w with
      cache := invalidate tenantId w.cache
      invalidated := Function.update w.invalidated tenantId
        (max (w.invalidated tenantId) changedAt) } where
  commits := Nat.le_refl _
  dbAt _ _ := rfl
  invalidated other := by
    by_cases hne : other = tenantId
    · subst hne
      simp only [Function.update_self]
      exact Nat.le_max_left ..
    · simp only [Function.update_of_ne hne]
      exact Nat.le_refl _

/-- One segment of a call. -/
theorem step_knows (hI : w.Inv) (hQ : st.Knows w)
    (hfresh : ∀ tenantId asked readAt value,
      st = .storing tenantId asked readAt value → 0 < E.ttlMs → w.invalidated tenantId ≤ readAt)
    (hst : st.step E w = some (w', st')) : w'.Inv ∧ st'.Knows w' ∧ w.Grows w' := by
  cases st with
  | looking tenantId =>
    cases hhit : hit? w.now tenantId w.cache with
    | none =>
      simp only [CallState.step, lookup_miss hhit, Option.some.injEq, Prod.mk.injEq] at hst
      obtain ⟨rfl, rfl⟩ := hst
      exact ⟨hI, Nat.le_refl _, grows_cache _ w⟩
    | some entry =>
      have hinv := inv_lookup tenantId hI
      simp only [CallState.step, lookup, hhit, Option.some.injEq, Prod.mk.injEq] at hst hinv
      obtain ⟨rfl, rfl⟩ := hst
      have hread : w.HasRead (w.invalidated tenantId) tenantId entry.value :=
        hI.cached tenantId entry (hit?_find hhit).1
      exact ⟨hinv, (grows_cache _ w).hasRead hread, grows_cache _ w⟩
  | resolving tenantId asked =>
    simp only [CallState.step, Option.some.injEq, Prod.mk.injEq] at hst
    obtain ⟨rfl, rfl⟩ := hst
    exact ⟨hI, ⟨Nat.le_trans hQ (hI.past tenantId), Nat.le_refl _, rfl⟩, grows_cache _ w⟩
  | storing tenantId asked readAt value =>
    simp only [CallState.step, Option.some.injEq, Prod.mk.injEq] at hst
    obtain ⟨rfl, rfl⟩ := hst
    exact ⟨inv_refill hI hQ (hfresh tenantId asked readAt value rfl), ⟨readAt, hQ⟩, grows_cache _ w⟩
  | committing tenantId c =>
    simp only [CallState.step, Option.some.injEq, Prod.mk.injEq] at hst
    obtain ⟨rfl, rfl⟩ := hst
    exact ⟨inv_commit _ hI, Nat.le_refl _, grows_commit _ w⟩
  | invalidating tenantId changedAt =>
    simp only [CallState.step, Option.some.injEq, Prod.mk.injEq] at hst
    obtain ⟨rfl, rfl⟩ := hst
    exact ⟨inv_invalidate hI hQ, trivial, grows_invalidate changedAt w⟩
  | answered tenantId asked value => cases hst
  | changed => cases hst

end

theorem outline (E : CacheEnv) :
    Outline (process E) (StoresFresh E) World.Inv (fun _ st w => CallState.Knows st w)
      (fun _ w w' => w.Grows w') where
  own _ _ _ _ _ hK hI hQ hst := step_knows hI hQ hK hst
  stable _ _ _ _ _ _ _ _ hG hQ := hQ.grows hG
  env P e _ hI := by
    cases e with
    | tick n =>
      have hgrows : P.shared.Grows ((Event.tick n).apply P.shared) :=
        ⟨Nat.le_refl _, fun _ _ => rfl, fun _ => Nat.le_refl _⟩
      exact ⟨⟨hI.cached, hI.past⟩, fun _ _ hQ => hQ.grows hgrows⟩
    | write f => exact ⟨inv_commit f hI, fun _ _ hQ => hQ.grows (grows_commit f P.shared)⟩

theorem Starts.annotated {P : Pool World CallState} (h : Starts P) :
    Annotated World.Inv (fun _ st w => CallState.Knows st w) P := by
  refine ⟨⟨fun tenantId entry hfind => ?_, fun tenantId => ?_⟩, fun pid => ?_⟩
  · have hmem := Table.mem_of_find? hfind
    rw [h.cache] at hmem
    cases hmem
  · rw [h.invalidated]
    exact Nat.zero_le _
  · rcases h.calls pid with ⟨tenantId, hst⟩ | ⟨tenantId, c, hst⟩ <;> rw [hst] <;> trivial

/-- As long as no call stores an answer older than an invalidated change, every call that starts
after an `invalidate` answers from a database that has the change. -/
theorem getCurrent_fresh (E : CacheEnv) (P₀ : Pool World CallState) (h0 : Starts P₀) :
    Fresh E (StoresFresh E) P₀ := by
  intro P pid tenantId asked value hr hst
  have hQ := ((outline E).sound h0.annotated hr).2 pid
  rw [hst] at hQ
  exact hQ

def samplePlan (id : Uuid) (code : String) : Plan where
  id := id
  code := code
  planFeatures := []
  planLimits := [⟨"users", some 3⟩]
  limitKeys := List.nodup_singleton _

/-- Tenant 1 is on plan 1, and plan 2 exists. -/
def planDb : Db where
  enterprises := ⟨[⟨1, some 10⟩], by decide⟩
  subscriptions := ⟨[⟨10, 1, .active⟩], by decide⟩
  plans := ⟨[samplePlan 1 "basic", samplePlan 2 "pro"], by decide⟩

/-- A change to plan 2, and requests of the tenant around it. -/
def samplePool : Pool World CallState where
  shared :=
    { dbAt := fun _ => planDb, commits := 0, cache := Table.empty, now := 0,
      invalidated := fun _ => 0 }
  threads pid := if pid = 1 then .committing 1 (.plan 2) else .looking 1

theorem samplePool_starts : Starts samplePool where
  calls pid := by
    by_cases h : pid = 1
    · exact .inr ⟨1, .plan 2, by simp [samplePool, h]⟩
    · exact .inl ⟨1, by simp [samplePool, h]⟩
  cache := rfl
  invalidated _ := rfl

/-- The configured default: five seconds. -/
def defaultEnv : CacheEnv where
  ttlMs := 5000
  maxEntries := 1000

theorem getCurrent_fresh_sample : Fresh defaultEnv (StoresFresh defaultEnv) samplePool :=
  getCurrent_fresh defaultEnv samplePool samplePool_starts

/-- Call 0 reads plan 1; the change commits and is invalidated; call 0 stores plan 1, and call 2,
which starts after that, is given it. -/
theorem stale_refill : Starts samplePool ∧ ¬ Fresh defaultEnv Always samplePool := by
  refine ⟨samplePool_starts, fun h => ?_⟩
  have hrun : (exec (process defaultEnv).system (fun _ _ => true) samplePool
      [.run 0 (), .run 0 (), .run 1 (), .run 1 (), .run 0 (), .run 2 ()]).map (fun P =>
        (P.shared.commits, ((P.shared.dbAt 1).resolve 1).planCode,
          match P.threads 2 with
          | .answered 1 1 value => some value.planCode
          | _ => none)) = some (1, some "pro", some (some "basic")) := by decide +kernel
  obtain ⟨P, hP, hres⟩ := Option.map_eq_some_iff.1 hrun
  obtain ⟨hcommits, hrest⟩ := Prod.mk.inj hres
  obtain ⟨hdb, hcall⟩ := Prod.mk.inj hrest
  split at hcall
  · rename_i value hanswered
    obtain ⟨i, hsince, hi, hvalue⟩ :=
      h P 2 1 1 value (Reach.of_exec _ (fun _ _ _ => trivial) _ hP) hanswered
    have hone : i = 1 := by omega
    rw [hvalue, hone, hdb] at hcall
    exact absurd hcall (by decide)
  · cases hcall

end Gescom.Entitlement
