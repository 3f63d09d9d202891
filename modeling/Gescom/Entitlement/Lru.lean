import Gescom.Entitlement.Cache
import Mathlib.Data.List.Induction

/-!
# Eviction of cached entitlements

`store` deletes the oldest key of a full map and sets its own. Where the tenant's expired entry is
still in the map, `set` leaves it at its old place, and a full map loses its oldest key for nothing.
`boundedLru_iff` says which sequences of calls the cache serves as the bounded LRU it is meant to
be: those where an expired entry is refilled at the end of the order, or at its head when the map
is full. The bound holds in all of them (`length_run_le`).
-/

namespace Gescom.Entitlement

open Recency

/-- A call that nothing overlaps. -/
inductive Call where
  | getCurrent (tenantId : Uuid) (start : Instant) (value : Entitlements) (finish : Instant)
  | invalidate (tenantId : Uuid)

def Call.run (E : CacheEnv) (cache : Cache) : Call → Cache
  | getCurrent tenantId start value finish =>
    (Entitlement.getCurrent E tenantId start value finish cache).1
  | invalidate tenantId => Entitlement.invalidate tenantId cache

/-- The tenant whose entitlements a call asks for. -/
def Call.uses : Call → Option Uuid
  | getCurrent tenantId _ _ _ => some tenantId
  | invalidate _ => none

/-- The cache after `calls`, from the one the constructor makes. -/
def run (E : CacheEnv) (calls : List Call) : Cache := calls.foldl (Call.run E) Table.empty

def uses (calls : List Call) : List Uuid := calls.filterMap Call.uses

/-- Times do not go back. -/
def Call.times : Call → List Instant
  | getCurrent _ start _ finish => [start, finish]
  | invalidate _ => []

def NonDecreasing (calls : List Call) : Prop := (calls.flatMap Call.times).Pairwise (· ≤ ·)

instance (calls : List Call) : Decidable (NonDecreasing calls) :=
  inferInstanceAs (Decidable (List.Pairwise _ _))

/-- The keys a call has removed to make room. -/
def Evicted (E : CacheEnv) (pre : List Call) (c : Call) (tenantId : Uuid) : Prop :=
  tenantId ∈ (run E pre).keys ∧ tenantId ∉ (run E (pre ++ [c])).keys ∧ ∃ user, c.uses = some user

/-- What a bounded LRU keeps at the call `c` after `pre`. -/
structure Kept (E : CacheEnv) (pre : List Call) (c : Call) : Prop where
  bounded : (run E (pre ++ [c])).rows.length ≤ E.maxEntries
  ordered : Ordered (run E (pre ++ [c])).keys (uses (pre ++ [c]))
  /-- Nothing is evicted unless the new key would be one too many, and then it is the tenant whose
  last use is the oldest. -/
  evicts : ∀ tenantId, Evicted E pre c tenantId →
    (∃ user, c.uses = some user ∧ user ∉ (run E pre).keys) ∧
      E.maxEntries < (run E pre).rows.length + 1 ∧
      leastRecent (run E pre).keys (uses pre) = some tenantId

/-- Each call of the sequence keeps it. -/
def BoundedLru (E : CacheEnv) (calls : List Call) : Prop :=
  ∀ pre c, pre ++ [c] <+: calls → Kept E pre c

/-- Where `c` refills an entry that is still in the map, the key is the last of the order, or the
first when the map is full. -/
def RefillFits (E : CacheEnv) (pre : List Call) : Call → Prop
  | .getCurrent tenantId start _ _ =>
    tenantId ∈ (run E pre).keys → hit? start tenantId (run E pre) = none →
      if (run E pre).rows.length < E.maxEntries then (run E pre).keys.getLast? = some tenantId
      else (run E pre).keys.head? = some tenantId
  | .invalidate _ => True

/-! ## One call -/

section
variable {E : CacheEnv} {pre calls : List Call} {c : Call} {tenantId : Uuid} {start finish : Instant}
  {value : Entitlements}

@[simp] theorem run_nil (E : CacheEnv) : run E [] = Table.empty := rfl

@[simp] theorem run_concat (E : CacheEnv) (pre : List Call) (c : Call) :
    run E (pre ++ [c]) = c.run E (run E pre) := by
  simp [run]

@[simp] theorem uses_getCurrent (pre : List Call) :
    uses (pre ++ [.getCurrent tenantId start value finish]) = uses pre ++ [tenantId] := by
  simp [uses, Call.uses]

@[simp] theorem uses_invalidate (pre : List Call) :
    uses (pre ++ [.invalidate tenantId]) = uses pre := by
  simp [uses, Call.uses]

theorem run_hit {cache : Cache} {entry : CacheEntry} (h : hit? start tenantId cache = some entry) :
    Call.run E cache (.getCurrent tenantId start value finish) =
      (lookup start tenantId cache).1 := by
  simp only [Call.run, getCurrent, lookup, h]

theorem run_miss {cache : Cache} (httl : 0 < E.ttlMs) (h : hit? start tenantId cache = none) :
    Call.run E cache (.getCurrent tenantId start value finish) =
      store E.maxEntries ⟨tenantId, value, finish + E.ttlMs⟩ cache := by
  simp only [Call.run, getCurrent, lookup, h, refill, if_pos httl]

/-- What holds between calls. -/
structure Steady (E : CacheEnv) (pre : List Call) : Prop where
  bounded : (run E pre).rows.length ≤ E.maxEntries
  ordered : Ordered (run E pre).keys (uses pre)

theorem steady_nil (E : CacheEnv) : Steady E [] where
  bounded := Nat.zero_le _
  ordered := ordered_nil _

theorem Kept.steady (h : Kept E pre c) : Steady E (pre ++ [c]) := ⟨h.bounded, h.ordered⟩

theorem length_run (E : CacheEnv) (pre : List Call) :
    (run E pre).rows.length = (run E pre).keys.length := (Table.length_keys _).symm

/-- Moving a key to the end keeps their number. -/
theorem length_moved {keys : List Uuid} {k : Uuid} (hk : k ∈ keys) (hnodup : keys.Nodup) :
    (keys.filter (· != k) ++ [k]).length = keys.length := by
  rw [← hnodup.erase_eq_filter, List.length_append, List.length_erase_of_mem hk]
  have : 0 < keys.length := List.length_pos_of_mem hk
  simp only [List.length_singleton]
  omega

theorem length_store_le {cache : Cache} {entry : CacheEntry} (hmax : 1 ≤ E.maxEntries)
    (h : cache.rows.length ≤ E.maxEntries) :
    (store E.maxEntries entry cache).rows.length ≤ E.maxEntries := by
  have hroom : (evict E.maxEntries cache).keys.length + 1 ≤ E.maxEntries := by
    rw [← Table.length_keys] at h
    by_cases hlt : cache.rows.length < E.maxEntries
    · rw [evict_of_lt hlt, Table.length_keys]
      omega
    · cases hkeys : cache.keys with
      | nil =>
        rw [← Table.length_keys, hkeys, List.length_nil] at hlt
        omega
      | cons oldest rest =>
        rw [keys_evict_of_le (by omega) (by rw [hkeys]; rfl)]
        have : (cache.keys.filter (· != oldest)).length < cache.keys.length :=
          List.length_filter_lt_length_iff_exists.2 ⟨oldest, by simp [hkeys], by simp⟩
        omega
  rw [← Table.length_keys, store]
  by_cases hmem : Keyed.key entry ∈ (evict E.maxEntries cache).keys
  · rw [Table.keys_set_of_mem hmem]
    omega
  · rw [Table.keys_set_of_notMem hmem, List.length_append, List.length_singleton]
    omega

theorem mem_moved {keys : List Uuid} {k x : Uuid} (hx : x ∈ keys) :
    x ∈ keys.filter (· != k) ++ [k] := by
  by_cases hk : x = k <;> simp [hk, hx]

theorem nodup_keys (cache : Cache) : cache.keys.Nodup := cache.nodup

theorem kept_invalidate (hs : Steady E pre) : Kept E pre (.invalidate tenantId) := by
  have hkeys : (run E (pre ++ [.invalidate tenantId])).keys =
      (run E pre).keys.filter (· != tenantId) := by
    rw [run_concat]
    exact Table.keys_erase ..
  constructor
  · rw [length_run, hkeys]
    have := List.length_filter_le (· != tenantId) (run E pre).keys
    have := hs.bounded
    rw [length_run] at this
    omega
  · rw [hkeys, uses_invalidate]
    exact hs.ordered.filter _
  · rintro x ⟨-, -, user, huser⟩
    cases huser

theorem kept_hit {entry : CacheEntry} (hs : Steady E pre)
    (h : hit? start tenantId (run E pre) = some entry) :
    Kept E pre (.getCurrent tenantId start value finish) := by
  have hmem : tenantId ∈ (run E pre).keys := Table.mem_keys.2 ⟨entry, (hit?_find h).1⟩
  have hkeys : (run E (pre ++ [.getCurrent tenantId start value finish])).keys =
      (run E pre).keys.filter (· != tenantId) ++ [tenantId] := by
    rw [run_concat, run_hit h, keys_lookup_hit h]
  constructor
  · rw [length_run, hkeys, length_moved hmem (nodup_keys _), ← length_run]
    exact hs.bounded
  · rw [hkeys, uses_getCurrent]
    exact hs.ordered.touch tenantId
  · rintro x ⟨hx, hgone, -⟩
    rw [hkeys] at hgone
    exact absurd (mem_moved hx) hgone

/-- The keys after a refill. -/
theorem keys_refill (httl : 0 < E.ttlMs) (h : hit? start tenantId (run E pre) = none) :
    (run E (pre ++ [.getCurrent tenantId start value finish])).keys =
      let keys := (evict E.maxEntries (run E pre)).keys
      if tenantId ∈ keys then keys else keys ++ [tenantId] := by
  rw [run_concat, run_miss httl h, store]
  simp only
  split
  · rename_i hmem
    exact Table.keys_set_of_mem hmem
  · rename_i hmem
    exact Table.keys_set_of_notMem hmem

/-- With room left nothing is evicted, and the new key is one more. -/
theorem kept_room (hs : Steady E pre) (httl : 0 < E.ttlMs)
    (h : hit? start tenantId (run E pre) = none) (hnew : tenantId ∉ (run E pre).keys)
    (hroom : (run E pre).rows.length < E.maxEntries) :
    Kept E pre (.getCurrent tenantId start value finish) := by
  have hkeys : (run E (pre ++ [.getCurrent tenantId start value finish])).keys =
      (run E pre).keys ++ [tenantId] := by
    rw [keys_refill httl h, evict_of_lt hroom]
    simp only [if_neg hnew]
  have hsame : (run E pre).keys.filter (· != tenantId) = (run E pre).keys :=
    List.filter_eq_self.2 fun x hx => by simpa using fun e : x = tenantId => hnew (e ▸ hx)
  constructor
  · rw [length_run, hkeys, List.length_append, ← length_run]
    simp only [List.length_singleton]
    omega
  · rw [hkeys, uses_getCurrent]
    have := hs.ordered.touch tenantId
    rwa [hsame] at this
  · rintro x ⟨hx, hgone, -⟩
    rw [hkeys] at hgone
    exact absurd (List.mem_append_left _ hx) hgone

/-- A full map gives up its oldest key for a new one. -/
theorem kept_full {oldest : Uuid} (hs : Steady E pre) (httl : 0 < E.ttlMs)
    (h : hit? start tenantId (run E pre) = none) (hnew : tenantId ∉ (run E pre).keys)
    (hfull : E.maxEntries ≤ (run E pre).rows.length)
    (hold : (run E pre).keys.head? = some oldest) :
    Kept E pre (.getCurrent tenantId start value finish) := by
  have hrest : tenantId ∉ (run E pre).keys.filter (· != oldest) := fun hmem =>
    hnew (List.mem_filter.1 hmem).1
  have hkeys : (run E (pre ++ [.getCurrent tenantId start value finish])).keys =
      (run E pre).keys.filter (· != oldest) ++ [tenantId] := by
    rw [keys_refill httl h, keys_evict_of_le hfull hold]
    simp only [if_neg hrest]
  constructor
  · have hmem : oldest ∈ (run E pre).keys := List.mem_of_mem_head? hold
    have hlen := length_moved hmem (nodup_keys _)
    have hle := hs.bounded
    rw [length_run] at hle ⊢
    simp only [hkeys, List.length_append, List.length_singleton] at hlen ⊢
    omega
  · have hsame : ((run E pre).keys.filter (· != oldest)).filter (· != tenantId) =
        (run E pre).keys.filter (· != oldest) :=
      List.filter_eq_self.2 fun x hx => by simpa using fun e : x = tenantId => hrest (e ▸ hx)
    rw [hkeys, uses_getCurrent]
    have := (hs.ordered.filter (· != oldest)).touch tenantId
    rwa [hsame] at this
  · rintro x ⟨hx, hgone, -⟩
    have hxold : x = oldest := by
      by_contra hne
      refine hgone ?_
      rw [hkeys]
      exact List.mem_append_left _ (List.mem_filter.2 ⟨hx, by simpa using hne⟩)
    refine ⟨⟨tenantId, rfl, hnew⟩, by omega, ?_⟩
    rw [hxold, ← hold]
    exact hs.ordered.head.symm

/-- An expired entry refilled with room left keeps its place: the right one if it was the last. -/
theorem kept_held_room (hs : Steady E pre) (httl : 0 < E.ttlMs)
    (h : hit? start tenantId (run E pre) = none) (hmem : tenantId ∈ (run E pre).keys)
    (hroom : (run E pre).rows.length < E.maxEntries) :
    Kept E pre (.getCurrent tenantId start value finish) ↔
      (run E pre).keys.getLast? = some tenantId := by
  have hkeys : (run E (pre ++ [.getCurrent tenantId start value finish])).keys =
      (run E pre).keys := by
    rw [keys_refill httl h, evict_of_lt hroom]
    simp only [if_pos hmem]
  constructor
  · intro hk
    have hord := hk.ordered
    rw [hkeys, uses_getCurrent] at hord
    exact hord.getLast hmem
  · intro hlast
    constructor
    · rw [length_run, hkeys, ← length_run]
      exact hs.bounded
    · rw [hkeys, uses_getCurrent]
      exact hs.ordered.again hlast
    · rintro x ⟨hx, hgone, -⟩
      rw [hkeys] at hgone
      exact absurd hx hgone

/-- In a full map it costs the oldest key: nothing is lost if that key is its own. -/
theorem kept_held_full {oldest : Uuid} (hs : Steady E pre) (httl : 0 < E.ttlMs)
    (h : hit? start tenantId (run E pre) = none) (hmem : tenantId ∈ (run E pre).keys)
    (hfull : E.maxEntries ≤ (run E pre).rows.length)
    (hold : (run E pre).keys.head? = some oldest) :
    Kept E pre (.getCurrent tenantId start value finish) ↔ oldest = tenantId := by
  by_cases hown : oldest = tenantId
  · subst hown
    have hrest : oldest ∉ (run E pre).keys.filter (· != oldest) := by simp
    have hkeys : (run E (pre ++ [.getCurrent oldest start value finish])).keys =
        (run E pre).keys.filter (· != oldest) ++ [oldest] := by
      rw [keys_refill httl h, keys_evict_of_le hfull hold]
      simp only [if_neg hrest]
    refine iff_of_true ⟨?_, ?_, ?_⟩ rfl
    · rw [length_run, hkeys, length_moved hmem (nodup_keys _), ← length_run]
      exact hs.bounded
    · rw [hkeys, uses_getCurrent]
      exact hs.ordered.touch oldest
    · rintro x ⟨hx, hgone, -⟩
      rw [hkeys] at hgone
      exact absurd (mem_moved hx) hgone
  · have hrest : tenantId ∈ (run E pre).keys.filter (· != oldest) :=
      List.mem_filter.2 ⟨hmem, by simpa using Ne.symm hown⟩
    have hkeys : (run E (pre ++ [.getCurrent tenantId start value finish])).keys =
        (run E pre).keys.filter (· != oldest) := by
      rw [keys_refill httl h, keys_evict_of_le hfull hold]
      simp only [if_pos hrest]
    refine iff_of_false (fun hk => ?_) hown
    have hevicted : Evicted E pre (.getCurrent tenantId start value finish) oldest :=
      ⟨List.mem_of_mem_head? hold, by rw [hkeys]; simp, tenantId, rfl⟩
    obtain ⟨⟨user, huser, hnew⟩, -⟩ := hk.evicts oldest hevicted
    cases huser
    exact hnew hmem

theorem kept_iff (httl : 0 < E.ttlMs) (hmax : 1 ≤ E.maxEntries) (hs : Steady E pre) :
    Kept E pre c ↔ RefillFits E pre c := by
  cases c with
  | invalidate tenantId => exact iff_of_true (kept_invalidate hs) trivial
  | getCurrent tenantId start value finish =>
    cases h : hit? start tenantId (run E pre) with
    | some entry =>
      refine iff_of_true (kept_hit hs h) fun _ hmiss => ?_
      rw [h] at hmiss
      cases hmiss
    | none =>
      by_cases hmem : tenantId ∈ (run E pre).keys
      · simp only [RefillFits, hmem, h, true_implies]
        by_cases hroom : (run E pre).rows.length < E.maxEntries
        · rw [if_pos hroom]
          exact kept_held_room hs httl h hmem hroom
        · rw [if_neg hroom]
          obtain ⟨oldest, hold⟩ :=
            Option.isSome_iff_exists.1 (List.isSome_head?.2 (List.ne_nil_of_mem hmem))
          rw [hold, Option.some.injEq]
          exact kept_held_full hs httl h hmem (by omega) hold
      · refine iff_of_true ?_ fun hin => absurd hin hmem
        by_cases hroom : (run E pre).rows.length < E.maxEntries
        · exact kept_room hs httl h hmem hroom
        · have hlen := length_run E pre
          cases hkeys : (run E pre).keys with
          | nil =>
            rw [hkeys, List.length_nil] at hlen
            omega
          | cons oldest rest =>
            exact kept_full hs httl h hmem (by omega) (by rw [hkeys]; rfl)

/-- A property that each call hands on to the next holds before every call of the sequence. -/
theorem steady_of_kept (h : BoundedLru E calls) (hpre : pre <+: calls) : Steady E pre := by
  cases pre using List.reverseRecOn with
  | nil => exact steady_nil E
  | append_singleton pre c => exact (h pre c hpre).steady

theorem steady_of_fits (httl : 0 < E.ttlMs) (hmax : 1 ≤ E.maxEntries)
    (h : ∀ pre c, pre ++ [c] <+: calls → RefillFits E pre c) (hpre : pre <+: calls) :
    Steady E pre := by
  induction pre using List.reverseRecOn with
  | nil => exact steady_nil E
  | append_singleton pre c ih =>
    have hbefore : Steady E pre := ih ((List.prefix_append ..).trans hpre)
    exact ((kept_iff httl hmax hbefore).2 (h pre c hpre)).steady

end

/-! ## The sequences -/

/-- The bound holds whatever the calls are. -/
theorem length_run_le {E : CacheEnv} (hmax : 1 ≤ E.maxEntries) (calls : List Call) :
    (run E calls).rows.length ≤ E.maxEntries := by
  induction calls using List.reverseRecOn with
  | nil => exact Nat.zero_le _
  | append_singleton pre c ih =>
    rw [run_concat]
    cases c with
    | invalidate tenantId => exact Nat.le_trans (List.length_filter_le ..) ih
    | getCurrent tenantId start value finish =>
      cases h : hit? start tenantId (run E pre) with
      | some entry =>
        have hmem : tenantId ∈ (run E pre).keys := Table.mem_keys.2 ⟨entry, (hit?_find h).1⟩
        rw [run_hit h, ← Table.length_keys, keys_lookup_hit h, length_moved hmem (nodup_keys _),
          Table.length_keys]
        exact ih
      | none =>
        simp only [Call.run, getCurrent, lookup, h, refill]
        split
        · exact length_store_le hmax ih
        · exact ih

/-- The cache serves a sequence of calls as a bounded LRU exactly when each refill of an expired
entry that is still there fits. -/
theorem boundedLru_iff (E : CacheEnv) (httl : 0 < E.ttlMs) (hmax : 1 ≤ E.maxEntries)
    (calls : List Call) :
    BoundedLru E calls ↔ ∀ pre c, pre ++ [c] <+: calls → RefillFits E pre c := by
  constructor
  · intro h pre c hpre
    have hs : Steady E pre := steady_of_kept h ((List.prefix_append ..).trans hpre)
    exact (kept_iff httl hmax hs).1 (h pre c hpre)
  · intro h pre c hpre
    have hs : Steady E pre := steady_of_fits httl hmax h ((List.prefix_append ..).trans hpre)
    exact (kept_iff httl hmax hs).2 (h pre c hpre)

def sampleEnv : CacheEnv where
  ttlMs := 10
  maxEntries := 2

/-- A miss and a hit. -/
theorem boundedLru_two :
    0 < sampleEnv.ttlMs ∧
      (BoundedLru sampleEnv
          [.getCurrent 1 0 noSubscription 0, .getCurrent 1 5 noSubscription 5] ↔
        ∀ pre c, pre ++ [c] <+: [.getCurrent 1 0 noSubscription 0,
          .getCurrent 1 5 noSubscription 5] → RefillFits sampleEnv pre c) :=
  ⟨by decide, boundedLru_iff sampleEnv (by decide) (by decide) _⟩

/-- Tenants 1 and 2 fill the map; both entries expire and 2, then 1 come back. The refill of 2
evicts 1, whose entry was not in its way. -/
def expiredCalls : List Call :=
  [.getCurrent 1 0 noSubscription 0, .getCurrent 2 1 noSubscription 1,
    .getCurrent 2 20 noSubscription 20]

theorem expired_not_boundedLru :
    0 < sampleEnv.ttlMs ∧ 1 ≤ sampleEnv.maxEntries ∧ NonDecreasing expiredCalls ∧
      ¬ BoundedLru sampleEnv expiredCalls := by
  refine ⟨by decide, by decide, by decide, fun h => ?_⟩
  have hkept := h [.getCurrent 1 0 noSubscription 0, .getCurrent 2 1 noSubscription 1]
    (.getCurrent 2 20 noSubscription 20) (List.prefix_refl _)
  obtain ⟨⟨user, huser, hnew⟩, -⟩ := hkept.evicts 1 ⟨by decide, by decide, 2, rfl⟩
  cases huser
  exact absurd hnew (by decide)

end Gescom.Entitlement
