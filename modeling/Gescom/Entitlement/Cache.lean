import Gescom.Billing.StateMachine
import Gescom.Common
import Gescom.Lib.InsertionMap

/-!
# Entitlements (`entitlements.service.ts`)

What the current plan grants an enterprise, read from the database (`resolve`), and the cache of one
process in front of it. `getCurrent` is cut where it awaits `resolve`: `lookup` before, `store`
after.
-/

namespace Gescom.Entitlement

open Billing (SubscriptionStatus)

structure PlanFeature where
  key : String
  enabled : Bool
  deriving DecidableEq, Repr

/-- `value = none` is `NULL`, "illimité". -/
structure PlanLimit where
  key : String
  value : Option Int
  deriving DecidableEq, Repr

/-- A plan with its `planFeatures` and `planLimits`. -/
structure Plan where
  id : Uuid
  code : String
  planFeatures : List PlanFeature
  planLimits : List PlanLimit
  /-- `@@id([planId, limitId])`, and `limits.key` is unique. -/
  limitKeys : (planLimits.map PlanLimit.key).Nodup

structure Subscription where
  id : Uuid
  planId : Uuid
  status : SubscriptionStatus

structure Enterprise where
  id : Uuid
  currentSubscriptionId : Option Uuid

instance : Keyed Plan Uuid := ⟨Plan.id⟩
instance : Keyed Subscription Uuid := ⟨Subscription.id⟩
instance : Keyed Enterprise Uuid := ⟨Enterprise.id⟩

structure Db where
  enterprises : Table Enterprise
  subscriptions : Table Subscription
  plans : Table Plan

structure Entitlements where
  subscriptionStatus : Option SubscriptionStatus
  planCode : Option String
  features : List String
  limits : List (String × Option Int)
  deriving DecidableEq, Repr

/-- `NO_SUBSCRIPTION`. -/
def noSubscription : Entitlements where
  subscriptionStatus := none
  planCode := none
  features := []
  limits := []

/-- `limits.get(key)`: `none` is `undefined`, `some none` is `null`. -/
def Entitlements.limit (e : Entitlements) (key : String) : Option (Option Int) :=
  e.limits.lookup key

def Entitlements.of (subscription : Subscription) (plan : Plan) : Entitlements where
  subscriptionStatus := some subscription.status
  planCode := some plan.code
  features := (plan.planFeatures.filter PlanFeature.enabled).map PlanFeature.key
  limits := plan.planLimits.map fun pl => (pl.key, pl.value)

/-- `enterprise?.currentSubscription`. -/
def Db.currentSubscription (db : Db) (tenantId : Uuid) : Option Subscription :=
  (db.enterprises.find? tenantId).bind fun enterprise =>
    enterprise.currentSubscriptionId.bind db.subscriptions.find?

/-- The foreign key has a plan for every subscription. -/
def Db.resolve (db : Db) (tenantId : Uuid) : Entitlements :=
  match db.currentSubscription tenantId with
  | none => noSubscription
  | some subscription =>
    match db.plans.find? subscription.planId with
    | none => noSubscription
    | some plan => .of subscription plan

/-! ## The cache -/

/-- `env.entitlementsCacheTtlMs()` and `env.entitlementsCacheMaxEntries()`. -/
structure CacheEnv where
  ttlMs : Nat
  maxEntries : Nat

structure CacheEntry where
  tenantId : Uuid
  value : Entitlements
  expiresAt : Instant

instance : Keyed CacheEntry Uuid := ⟨CacheEntry.tenantId⟩

/-- `new Map<string, …>()`. -/
abbrev Cache := Table CacheEntry

/-- `cached && cached.expiresAt > Date.now()`. -/
def hit? (now : Instant) (tenantId : Uuid) (cache : Cache) : Option CacheEntry :=
  (cache.find? tenantId).filter fun cached => decide (now < cached.expiresAt)

/-- `getCurrent` up to its `await`: a hit is answered, and its entry set again after a `delete`. -/
def lookup (now : Instant) (tenantId : Uuid) (cache : Cache) : Cache × Option Entitlements :=
  match hit? now tenantId cache with
  | some cached => ((cache.erase tenantId).set cached, some cached.value)
  | none => (cache, none)

/-- `cache.keys().next().value`, deleted when the map is full. -/
def evict (maxEntries : Nat) (cache : Cache) : Cache :=
  if maxEntries ≤ cache.rows.length then
    match cache.keys.head? with
    | some oldestKey => cache.erase oldestKey
    | none => cache
  else cache

def store (maxEntries : Nat) (entry : CacheEntry) (cache : Cache) : Cache :=
  (evict maxEntries cache).set entry

/-- `getCurrent` after its `await`. -/
def refill (E : CacheEnv) (tenantId : Uuid) (value : Entitlements) (now : Instant) (cache : Cache) :
    Cache :=
  if 0 < E.ttlMs then store E.maxEntries ⟨tenantId, value, now + E.ttlMs⟩ cache else cache

/-- A `getCurrent` that nothing overlaps: it starts at `start`, and where it has to ask, the
database answers `value` at `finish`. -/
def getCurrent (E : CacheEnv) (tenantId : Uuid) (start : Instant) (value : Entitlements)
    (finish : Instant) (cache : Cache) : Cache × Entitlements :=
  match lookup start tenantId cache with
  | (cache, some cached) => (cache, cached)
  | (cache, none) => (refill E tenantId value finish cache, value)

def invalidate (tenantId : Uuid) (cache : Cache) : Cache := cache.erase tenantId

/-! ## Keys and entries under these operations -/

section
variable {cache : Cache} {tenantId : Uuid} {now : Instant} {entry : CacheEntry}

theorem hit?_find (h : hit? now tenantId cache = some entry) :
    cache.find? tenantId = some entry ∧ now < entry.expiresAt := by
  obtain ⟨hfind, hfresh⟩ := Option.filter_eq_some_iff.1 h
  exact ⟨hfind, by simpa using hfresh⟩

/-- A hit moves its key to the end. -/
theorem keys_lookup_hit (h : hit? now tenantId cache = some entry) :
    (lookup now tenantId cache).1.keys = cache.keys.filter (· != tenantId) ++ [tenantId] := by
  have hid : Keyed.key entry = tenantId := Table.key_of_find? (hit?_find h).1
  have hgone : Keyed.key entry ∉ (cache.erase tenantId).keys := by
    rw [hid, Table.keys_erase]
    simp
  simp only [lookup, h]
  rw [Table.keys_set_of_notMem hgone, Table.keys_erase, hid]

theorem lookup_hit (h : hit? now tenantId cache = some entry) :
    (lookup now tenantId cache).2 = some entry.value := by
  simp only [lookup, h]

theorem lookup_miss (h : hit? now tenantId cache = none) :
    lookup now tenantId cache = (cache, none) := by
  simp only [lookup, h]

theorem evict_of_lt {maxEntries : Nat} (h : cache.rows.length < maxEntries) :
    evict maxEntries cache = cache := by
  rw [evict, if_neg (by omega)]

theorem keys_evict_of_le {maxEntries : Nat} {oldest : Uuid} (h : maxEntries ≤ cache.rows.length)
    (hold : cache.keys.head? = some oldest) :
    (evict maxEntries cache).keys = cache.keys.filter (· != oldest) := by
  rw [evict, if_pos h, hold]
  exact Table.keys_erase ..

/-- Whatever `evict` keeps was there. -/
theorem find?_of_evict {maxEntries : Nat} (h : (evict maxEntries cache).find? tenantId = some entry) :
    cache.find? tenantId = some entry := by
  unfold evict at h
  split at h
  · split at h
    · rename_i oldest _
      by_cases hne : tenantId = oldest
      · rw [hne, Table.find?_erase_self] at h
        cases h
      · rwa [Table.find?_erase_ne hne] at h
    · exact h
  · exact h

/-- The only entry `store` adds is its own. -/
theorem find?_of_store {maxEntries : Nat} {new : CacheEntry}
    (h : (store maxEntries new cache).find? tenantId = some entry) :
    entry = new ∨ cache.find? tenantId = some entry := by
  unfold store at h
  by_cases hne : tenantId = new.tenantId
  · subst hne
    exact .inl (Option.some.inj (h.symm.trans (Table.find?_set_self _ new)))
  · rw [Table.find?_set_ne hne] at h
    exact .inr (find?_of_evict h)

theorem find?_of_lookup {other : Uuid}
    (h : (lookup now tenantId cache).1.find? other = some entry) :
    cache.find? other = some entry := by
  cases hhit : hit? now tenantId cache with
  | none => rwa [lookup_miss hhit] at h
  | some cached =>
    obtain ⟨hfind, -⟩ := hit?_find hhit
    have hid : Keyed.key cached = tenantId := Table.key_of_find? hfind
    simp only [lookup, hhit] at h
    by_cases hne : other = tenantId
    · have hsame : entry = cached := by
        refine Option.some.inj (h.symm.trans ?_)
        rw [hne, ← hid]
        exact Table.find?_set_self _ cached
      rw [hsame, hne, hfind]
    · rwa [Table.find?_set_ne (by rwa [hid]), Table.find?_erase_ne hne] at h

theorem find?_of_invalidate {other : Uuid}
    (h : (invalidate tenantId cache).find? other = some entry) :
    other ≠ tenantId ∧ cache.find? other = some entry := by
  unfold invalidate at h
  by_cases hne : other = tenantId
  · rw [hne, Table.find?_erase_self] at h
    cases h
  · exact ⟨hne, by rwa [Table.find?_erase_ne hne] at h⟩

end

end Gescom.Entitlement
