import Gescom.Access.Mediation

/-!
# What a step of a request can do

`Leaves` is about the caches, seen as entries that expire, and `Follows` about the request itself: what
it is about to store, where its user comes from, and the guards it has still to pass.
-/

namespace Gescom.Access

open Auth (JwtService AccessToken bearerToken)
open Entitlement (Entitlements Cache lookup refill)
open Expiring (Entries)
open Tenant (TenantStore)

/-! ## Caches and states of a request -/

def Api.statusEntries (s : Api) (process : Nat) : Entries Uuid Bool := fun userId =>
  ((s.statusCache process).find? userId).map fun cached => (cached.active, cached.expiresAt)

def Api.entitlementEntries (s : Api) (process : Nat) : Entries Uuid Entitlements := fun tenantId =>
  ((s.entitlements process).find? tenantId).map fun entry => (entry.value, entry.expiresAt)

def RequestState.passage : RequestState → Option Passage
  | .guarding c | .findingAccount _ c | .cachingStatus _ _ c | .resolving _ _ c | .storing _ _ _ c
  | .countingGrants _ _ _ _ c | .countingUsage _ _ _ _ c | .admitted c => some c
  | .arriving | .refused _ => none

/-- The guards that have not let the request pass yet. -/
def RequestState.ahead (r : Request) : RequestState → List Guard
  | .arriving => r.route.guards
  | .guarding c => c.left
  | .findingAccount _ c | .cachingStatus _ _ c => .jwtAuth :: c.left
  | .resolving g _ c | .storing g _ _ c => g.guard :: c.left
  | .countingGrants _ _ _ _ c => .permissions :: c.left
  | .countingUsage _ _ _ _ c => .limit :: c.left
  | .admitted _ | .refused _ => []

/-- The entitlements with which a guard lets the request pass, once it asks for them. -/
def Request.Accepts (r : Request) (value : Entitlements) : EntitledGuard → Prop
  | .feature => ∀ key, r.route.requiredFeature = some key → key ∈ value.features
  | .subscriptionAccess => ¬ blocked value
  | .limit => True

/-- The guard does not let the request pass without entitlements it accepts. -/
def Request.Asks (r : Request) : EntitledGuard → Prop
  | .feature => r.route.requiredFeature.isSome
  | .subscriptionAccess => r.method ≠ .get
  | .limit => False -- its answer is a number, and the users are counted each time

section
variable {E : AccessEnv} {jwt : JwtService} {r : Request} {s s' : Api} {st st' : RequestState}
  {c c' c₀ : Passage} {g : Guard} {payload : AccessToken} {active : Bool} {tenantId : Uuid}
  {value : Entitlements} {process : Nat}

/-! ## What a step does to the caches -/

theorem statusEntries_eq_some {userId : Uuid} {t : Instant} :
    s.statusEntries process userId = some (active, t) ↔
      (s.statusCache process).find? userId = some ⟨userId, active, t⟩ := by
  unfold Api.statusEntries
  constructor
  · intro h
    obtain ⟨cached, hcached, hvalue⟩ := Option.map_eq_some_iff.1 h
    have hid : cached.userId = userId := Table.key_of_find? hcached
    cases hvalue
    rw [hcached, ← hid]
  · intro h
    rw [h]
    rfl

theorem entitlementEntries_eq_some {t : Instant} :
    s.entitlementEntries process tenantId = some (value, t) ↔
      (s.entitlements process).find? tenantId = some ⟨tenantId, value, t⟩ := by
  unfold Api.entitlementEntries
  constructor
  · intro h
    obtain ⟨entry, hentry, hvalue⟩ := Option.map_eq_some_iff.1 h
    have hid : entry.tenantId = tenantId := Table.key_of_find? hentry
    cases hvalue
    rw [hentry, ← hid]
  · intro h
    rw [h]
    rfl

theorem entitlementEntries_hit {entry : Entitlement.CacheEntry}
    (h : Entitlement.hit? s.now tenantId (s.entitlements process) = some entry) :
    (s.entitlementEntries process).hit s.now tenantId = some entry.value := by
  obtain ⟨hfind, hlt⟩ := Entitlement.hit?_find h
  have hid : entry.tenantId = tenantId := Table.key_of_find? hfind
  subst hid
  exact Expiring.Entries.hit_eq_some.2 ⟨entry.expiresAt, entitlementEntries_eq_some.2 hfind, hlt⟩

theorem setEntitlements_gains {cache : Cache} {p : Uuid → Entitlements → Prop} {ttl : Nat}
    (h : ∀ tenantId value t, cache.find? tenantId = some ⟨tenantId, value, t⟩ →
      (s.entitlements process).find? tenantId = some ⟨tenantId, value, t⟩ ∨
        p tenantId value ∧ t = s.now + ttl) (process' : Nat) :
    (s.entitlementEntries process').Gains ttl s.now p
      ((s.setEntitlements process cache).entitlementEntries process') := by
  intro tenantId value t ht
  rw [entitlementEntries_eq_some] at ht ⊢
  simp only [Api.setEntitlements] at ht
  by_cases hp : process' = process
  · subst hp
    rw [Function.update_self] at ht
    exact h tenantId value t ht
  · rw [Function.update_of_ne hp] at ht
    exact .inl ht

theorem setStatusCache_gains {cache : Table CachedAccountStatus} {p : Uuid → Bool → Prop} {ttl : Nat}
    (h : ∀ userId active t, cache.find? userId = some ⟨userId, active, t⟩ →
      (s.statusCache process).find? userId = some ⟨userId, active, t⟩ ∨
        p userId active ∧ t = s.now + ttl) (process' : Nat) :
    (s.statusEntries process').Gains ttl s.now p
      ((s.setStatusCache process cache).statusEntries process') := by
  intro userId active t ht
  rw [statusEntries_eq_some] at ht ⊢
  simp only [Api.setStatusCache] at ht
  by_cases hp : process' = process
  · subst hp
    rw [Function.update_self] at ht
    exact h userId active t ht
  · rw [Function.update_of_ne hp] at ht
    exact .inl ht

/-- What a step from `st` can do to the shared state. -/
structure Leaves (E : AccessEnv) (s : Api) (st : RequestState) (s' : Api) : Prop where
  db : s'.db = s.db
  status : ∀ process, (s.statusEntries process).Gains E.accountStatusTtlMs s.now
    (fun userId active => ∃ payload c, st = .cachingStatus payload active c ∧ payload.sub = userId)
    (s'.statusEntries process)
  entitlements : ∀ process, (s.entitlementEntries process).Gains E.ttlMs s.now
    (fun tenantId value => ∃ g c, st = .storing g tenantId value c) (s'.entitlementEntries process)

theorem Leaves.refl : Leaves E s st s := ⟨rfl, fun _ => .refl, fun _ => .refl⟩

theorem getCurrent_leaves {g : EntitledGuard} : Leaves E s st (r.getCurrent g s c).1 := by
  have hlookup (store : TenantStore) : Leaves E s st (s.setEntitlements r.process
      (lookup s.now store.tenantId (s.entitlements r.process)).1) :=
    ⟨rfl, fun _ => .refl, setEntitlements_gains fun _ _ _ h => .inl (Entitlement.find?_of_lookup h)⟩
  unfold Request.getCurrent
  split
  · exact .refl
  · rename_i store _
    have hstore := hlookup store
    split
    all_goals
      rename_i hlookup
      rwa [hlookup] at hstore

theorem guard_leaves : Leaves E s st (r.guard jwt s g c).1 := by
  cases g with
  | jwtAuth => exact .refl
  | permissions => exact .refl
  | superAdmin =>
    simp only [Request.guard]
    split <;> exact .refl
  | feature =>
    simp only [Request.guard]
    split
    · exact .refl
    · exact getCurrent_leaves
  | subscriptionAccess =>
    simp only [Request.guard]
    split
    · exact .refl
    · exact getCurrent_leaves
  | limit =>
    simp only [Request.guard]
    split
    · exact .refl
    · exact getCurrent_leaves

theorem step_leaves (h : r.step E jwt s st = some (s', st')) : Leaves E s st s' := by
  cases st with
  | arriving => cases h; exact ⟨rfl, fun _ => .refl, fun _ => .refl⟩
  | guarding c =>
    simp only [Request.step] at h
    split at h
    · cases h
      exact .refl
    · obtain rfl := congrArg Prod.fst (Option.some.inj h)
      exact guard_leaves
  | findingAccount payload c => cases h; exact .refl
  | cachingStatus payload active c =>
    cases h
    split
    · refine ⟨rfl, setStatusCache_gains fun userId active' t ht => ?_, fun _ => .refl⟩
      by_cases hu : userId = payload.sub
      · subst hu
        cases ht.symm.trans (Table.find?_set_self _ _)
        exact .inr ⟨⟨payload, c, rfl, rfl⟩, rfl⟩
      · rw [Table.find?_set_ne hu] at ht
        exact .inl ht
    · exact .refl
  | resolving g tenantId c => cases h; exact .refl
  | storing g tenantId value c =>
    cases h
    refine ⟨rfl, fun _ => .refl, setEntitlements_gains fun tenantId' value' t ht => ?_⟩
    unfold refill at ht
    split at ht
    · rcases Entitlement.find?_of_store ht with hnew | hold
      · cases hnew
        exact .inr ⟨⟨g, c, rfl⟩, rfl⟩
      · exact .inl hold
    · exact .inl ht
  | countingGrants user tenantId enterpriseId key c =>
    simp only [Request.step] at h
    split at h <;> (cases h; exact .refl)
  | countingUsage tenantId limitKey max counter c =>
    simp only [Request.step] at h
    split at h <;> (cases h; exact .refl)
  | admitted c => cases h
  | refused e => cases h

/-! ## What a step does to its request -/

/-- What a step from `st` can make of the request. -/
structure Follows (r : Request) (s : Api) (st st' : RequestState) : Prop where
  caching : ∀ payload active c, st' = .cachingStatus payload active c →
    s.db.accountActive payload.sub = active
  storing : ∀ g tenantId value c, st' = .storing g tenantId value c →
    s.db.billing.resolve tenantId = value
  store : ∀ c', st'.passage = some c' →
    st = .arriving ∨ ∃ c, st.passage = some c ∧ c'.store = c.store
  user : ∀ c' user, st'.passage = some c' → c'.user = some user →
    (∃ c, st.passage = some c ∧ c.user = some user) ∨
      (s.statusEntries r.process).hit s.now user.id = some true ∨
      ∃ payload c, st = .cachingStatus payload true c ∧ payload.sub = user.id
  ahead : ∀ c' g, st'.passage = some c' → g.guard ∈ st.ahead r → r.Asks g → g.guard ∈ st'.ahead r ∨
    ∃ store value, c'.store = some store ∧ r.Accepts value g ∧
      ((s.entitlementEntries r.process).hit s.now store.tenantId = some value ∨
        ∃ g c, st = .storing g store.tenantId value c)

theorem Follows.refused {e : ApiError} : Follows r s st (.refused e) where
  caching _ _ _ h := by cases h
  storing _ _ _ _ h := by cases h
  store _ h := by cases h
  user _ _ h := by cases h
  ahead _ _ h := by cases h

/-- The request goes on with the same store and user, and no guard that asks is left behind. -/
theorem Follows.keeps (h₀ : st.passage = some c₀) (h' : st'.passage = some c)
    (hstore : c.store = c₀.store) (huser : c.user = c₀.user)
    (hcaching : ∀ payload active c, st' = .cachingStatus payload active c →
      s.db.accountActive payload.sub = active)
    (hstoring : ∀ g tenantId value c, st' = .storing g tenantId value c →
      s.db.billing.resolve tenantId = value)
    (hahead : ∀ g, EntitledGuard.guard g ∈ st.ahead r → r.Asks g → g.guard ∈ st'.ahead r ∨
      ∃ store value, c.store = some store ∧ r.Accepts value g ∧
        ((s.entitlementEntries r.process).hit s.now store.tenantId = some value ∨
          ∃ g c, st = .storing g store.tenantId value c)) : Follows r s st st' where
  caching := hcaching
  storing := hstoring
  store c' hc' := by
    obtain rfl := Option.some.inj (h'.symm.trans hc')
    exact .inr ⟨c₀, h₀, hstore⟩
  user c' user hc' hu := by
    obtain rfl := Option.some.inj (h'.symm.trans hc')
    exact .inl ⟨c₀, h₀, huser ▸ hu⟩
  ahead c' g hc' hg hasks := by
    obtain rfl := Option.some.inj (h'.symm.trans hc')
    exact hahead g hg hasks

theorem ofAccount_follows (h₀ : st.passage = some c₀) (hstore : c.store = c₀.store)
    (hleft : ∀ g, EntitledGuard.guard g ∈ st.ahead r → g.guard ∈ c.left)
    (hactive : active = true → (s.statusEntries r.process).hit s.now payload.sub = some true ∨
      ∃ c, st = .cachingStatus payload true c) :
    Follows r s st (.ofAccount payload active c) := by
  cases active with
  | false => exact .refused
  | true =>
    exact
      { caching := fun _ _ _ h => by cases h
        storing := fun _ _ _ _ h => by cases h
        store := fun c' hc' => by cases hc'; exact .inr ⟨c₀, h₀, hstore⟩
        user := fun c' user hc' hu => by
          cases hc'
          cases hu
          rcases hactive rfl with hhit | ⟨c, hst⟩
          · exact .inr (.inl hhit)
          · exact .inr (.inr ⟨payload, c, hst, rfl⟩)
        ahead := fun c' g hc' hg hasks => by cases hc'; exact .inl (hleft g hg) }

/-- A guard lets a request pass with entitlements it accepts. -/
theorem ofEntitlements_cases (r : Request) (g : EntitledGuard) (tenantId : Uuid) (value : Entitlements)
    (c : Passage) : (∃ e, RequestState.ofEntitlements r g tenantId value c = .refused e) ∨
      r.Accepts value g ∧ (RequestState.ofEntitlements r g tenantId value c = .guarding c ∨
        ∃ limitKey max counter, RequestState.ofEntitlements r g tenantId value c =
          .countingUsage tenantId limitKey max counter c) := by
  cases g with
  | feature =>
    cases hrequired : r.route.requiredFeature with
    | none =>
      refine .inr ⟨fun key hkey => ?_, .inl ?_⟩
      · rw [hrequired] at hkey; cases hkey
      · simp only [RequestState.ofEntitlements, hrequired]
    | some required =>
      by_cases hmem : required ∈ value.features
      · refine .inr ⟨fun key hkey => ?_, .inl ?_⟩
        · rw [hrequired] at hkey
          cases hkey
          exact hmem
        · simp only [RequestState.ofEntitlements, hrequired, if_pos hmem]
      · exact .inl ⟨_, by simp only [RequestState.ofEntitlements, hrequired, if_neg hmem]; rfl⟩
  | limit =>
    cases hkey : r.route.withinLimit with
    | none => exact .inr ⟨trivial, .inl (by simp only [RequestState.ofEntitlements, hkey])⟩
    | some limitKey =>
      cases hmax : value.limit limitKey with
      | none => exact .inr ⟨trivial, .inl (by simp only [RequestState.ofEntitlements, hkey, hmax])⟩
      | some max =>
        cases max with
        | none => exact .inr ⟨trivial, .inl (by simp only [RequestState.ofEntitlements, hkey, hmax])⟩
        | some max =>
          cases hcounter : Entitlement.usageCounters.lookup limitKey with
          | none =>
            exact .inl ⟨_, by simp only [RequestState.ofEntitlements, hkey, hmax, hcounter]; rfl⟩
          | some counter =>
            exact .inr ⟨trivial, .inr ⟨limitKey, max, counter, by
              simp only [RequestState.ofEntitlements, hkey, hmax, hcounter]⟩⟩
  | subscriptionAccess =>
    cases hany : value.subscriptionStatus.any (· ∈ blockingStatuses) with
    | true => exact .inl ⟨_, by simp only [RequestState.ofEntitlements, hany, if_true]; rfl⟩
    | false => exact .inr ⟨not_blocked hany, .inl (by simp [RequestState.ofEntitlements, hany])⟩

theorem EntitledGuard.guard_injective {g g' : EntitledGuard} (h : g.guard = g'.guard) : g = g' := by
  cases g <;> cases g' <;> first | rfl | cases h

theorem ofEntitlements_follows {g : EntitledGuard} {store : TenantStore} (h₀ : st.passage = some c₀)
    (hstore : c.store = c₀.store) (huser : c.user = c₀.user) (hahead : st.ahead r = g.guard :: c.left)
    (htenant : c.store = some store)
    (hvalue : (s.entitlementEntries r.process).hit s.now store.tenantId = some value ∨
      ∃ g c, st = .storing g store.tenantId value c) :
    Follows r s st (.ofEntitlements r g store.tenantId value c) := by
  -- the guards behind `g` are still ahead, and `g` has accepted the value
  have hnext (haccepts : r.Accepts value g) (g' : EntitledGuard) (hg' : g'.guard ∈ st.ahead r) :
      g'.guard ∈ c.left ∨ ∃ store value, c.store = some store ∧ r.Accepts value g' ∧
        ((s.entitlementEntries r.process).hit s.now store.tenantId = some value ∨
          ∃ g c, st = .storing g store.tenantId value c) := by
    rw [hahead] at hg'
    rcases List.mem_cons.1 hg' with hsame | hleft
    · obtain rfl := EntitledGuard.guard_injective hsame
      exact .inr ⟨store, value, htenant, haccepts, hvalue⟩
    · exact .inl hleft
  rcases ofEntitlements_cases r g store.tenantId value c with ⟨e, hrefused⟩ | ⟨haccepts, hguarding |
    ⟨limitKey, max, counter, hcounting⟩⟩
  · rw [hrefused]
    exact .refused
  · rw [hguarding]
    exact .keeps h₀ rfl hstore huser (fun _ _ _ h => by cases h) (fun _ _ _ _ h => by cases h)
      fun g' hg' _ => hnext haccepts g' hg'
  · rw [hcounting]
    refine .keeps h₀ rfl hstore huser (fun _ _ _ h => by cases h) (fun _ _ _ _ h => by cases h)
      fun g' hg' _ => ?_
    rcases hnext haccepts g' hg' with hleft | hpassed
    · exact .inl (List.mem_cons_of_mem _ hleft)
    · exact .inr hpassed

/-- A guard that passes on what it does not ask about. -/
theorem Follows.skip {left : List Guard} (hleft : c.left = g :: left)
    (hg : ∀ g', EntitledGuard.guard g' = g → ¬ r.Asks g') :
    Follows r s (.guarding c) (.guarding { c with left }) :=
  .keeps rfl rfl rfl rfl (fun _ _ _ h => by cases h) (fun _ _ _ _ h => by cases h)
    fun g' hg' hasks => by
      simp only [RequestState.ahead, hleft] at hg' ⊢
      rcases List.mem_cons.1 hg' with hsame | hmem
      · exact absurd hasks (hg g' hsame)
      · exact .inl hmem

theorem getCurrent_follows {g : EntitledGuard} {left : List Guard} (hleft : c.left = g.guard :: left) :
    Follows r s (.guarding c) (r.getCurrent g s { c with left }).2 := by
  cases hstore : c.store with
  | none =>
    simp only [Request.getCurrent]
    exact .refused
  | some store =>
    cases hhit : Entitlement.hit? s.now store.tenantId (s.entitlements r.process) with
    | none =>
      simp only [Request.getCurrent, Entitlement.lookup_miss hhit]
      refine .keeps rfl rfl hstore.symm rfl (fun _ _ _ h => by cases h) (fun _ _ _ _ h => by cases h)
        fun g' hg' _ => .inl ?_
      simp only [RequestState.ahead, hleft] at hg' ⊢
      exact hg'
    | some cached =>
      have hlookup : lookup s.now store.tenantId (s.entitlements r.process) =
          ((lookup s.now store.tenantId (s.entitlements r.process)).1, some cached.value) :=
        Prod.ext rfl (Entitlement.lookup_hit hhit)
      simp only [Request.getCurrent]
      rw [hlookup]
      exact ofEntitlements_follows rfl hstore.symm rfl hleft rfl (.inl (entitlementEntries_hit hhit))

theorem not_entitled {g : Guard} (h : ∀ g', EntitledGuard.guard g' ≠ g) (g' : EntitledGuard)
    (hg' : g'.guard = g) : ¬ r.Asks g' :=
  absurd hg' (h g')

theorem authenticate_follows {left : List Guard} (hleft : c.left = .jwtAuth :: left) :
    Follows r s (.guarding c) (r.authenticate jwt s { c with left }) := by
  have hkeep (g : EntitledGuard) (hg : g.guard ∈ RequestState.ahead r (.guarding c)) :
      g.guard ∈ left := by
    simp only [RequestState.ahead, hleft] at hg
    rcases List.mem_cons.1 hg with hsame | hmem
    · cases g <;> cases hsame
    · exact hmem
  cases htoken : bearerToken r.authorization with
  | none =>
    simp only [Request.authenticate, htoken]
    exact .refused
  | some token =>
    cases hpayload : jwt.verifyAccessToken s.now token with
    | none =>
      simp only [Request.authenticate, htoken, hpayload]
      exact .refused
    | some payload =>
      have hfinding : Follows r s (.guarding c) (.findingAccount payload { c with left }) :=
        .keeps rfl rfl rfl rfl (fun _ _ _ h => by cases h) (fun _ _ _ _ h => by cases h)
          fun g hg _ => .inl (List.mem_cons_of_mem _ (hkeep g hg))
      cases hcached : (s.statusCache r.process).find? payload.sub with
      | none =>
        simp only [Request.authenticate, htoken, hpayload, hcached]
        exact hfinding
      | some cached =>
        simp only [Request.authenticate, htoken, hpayload, hcached]
        split
        · rename_i hlt
          refine ofAccount_follows (c := { c with left }) rfl rfl (fun g hg => hkeep g hg)
            fun hactive => .inl ?_
          have hid : cached.userId = payload.sub := Table.key_of_find? hcached
          refine Expiring.Entries.hit_eq_some.2 ⟨cached.expiresAt, statusEntries_eq_some.2 ?_, hlt⟩
          rw [hcached, ← hid, ← hactive]
        · exact hfinding

theorem permit_follows {left : List Guard} (hleft : c.left = .permissions :: left) :
    Follows r s (.guarding c) (r.permit { c with left }) := by
  cases hkey : r.route.requiredPermission with
  | none =>
    simp only [Request.permit, hkey]
    split
    · exact .skip hleft (not_entitled fun g' => by cases g' <;> simp [EntitledGuard.guard])
    · exact .refused
  | some key =>
    cases huser : c.user with
    | none =>
      simp only [Request.permit, hkey]
      exact .refused
    | some user =>
      cases henterprise : user.enterpriseId with
      | none =>
        simp only [Request.permit, hkey, henterprise]
        exact .refused
      | some enterpriseId =>
        cases hstore : c.store with
        | none =>
          simp only [Request.permit, hkey, henterprise]
          exact .refused
        | some store =>
          simp only [Request.permit, hkey, henterprise]
          refine .keeps rfl rfl hstore.symm huser.symm (fun _ _ _ h => by cases h)
            (fun _ _ _ _ h => by cases h) fun g' hg' _ => .inl ?_
          simp only [RequestState.ahead, hleft] at hg' ⊢
          exact hg'

theorem guard_follows {left : List Guard} (hleft : c.left = g :: left) :
    Follows r s (.guarding c) (r.guard jwt s g { c with left }).2 := by
  cases g with
  | jwtAuth => exact authenticate_follows hleft
  | superAdmin =>
    simp only [Request.guard]
    split
    · exact .skip hleft (not_entitled fun g' => by cases g' <;> simp [EntitledGuard.guard])
    · exact .refused
  | permissions => exact permit_follows hleft
  | feature =>
    simp only [Request.guard]
    split
    · rename_i hnone
      refine .skip hleft fun g' hg' hasks => ?_
      cases g' <;> cases hg'
      simp only [Request.Asks] at hasks
      rw [Option.isNone_iff_eq_none.1 hnone] at hasks
      cases hasks
    · exact getCurrent_follows hleft
  | subscriptionAccess =>
    simp only [Request.guard]
    split
    · rename_i hget
      refine .skip hleft fun g' hg' hasks => ?_
      cases g' <;> cases hg'
      exact hasks hget
    · exact getCurrent_follows hleft
  | limit =>
    simp only [Request.guard]
    split
    · refine .skip hleft fun g' hg' hasks => ?_
      cases g' <;> cases hg'
      exact hasks
    · exact getCurrent_follows hleft

theorem step_follows (h : r.step E jwt s st = some (s', st'))
    (hstore : ∀ g tenantId value c, st = .storing g tenantId value c →
      c.store.map TenantStore.tenantId = some tenantId) : Follows r s st st' := by
  cases st with
  | arriving =>
    cases h
    split
    · exact .refused
    exact
      { caching := fun _ _ _ h => by cases h
        storing := fun _ _ _ _ h => by cases h
        store := fun _ _ => .inl rfl
        user := fun c' user hc' hu => by cases hc'; cases hu
        ahead := fun c' g hc' hg _ => by cases hc'; exact .inl hg }
  | guarding c =>
    cases hleft : c.left with
    | nil =>
      simp only [Request.step, hleft, Option.some.injEq, Prod.mk.injEq] at h
      obtain ⟨rfl, rfl⟩ := h
      refine .keeps rfl rfl rfl rfl (fun _ _ _ h => by cases h) (fun _ _ _ _ h => by cases h)
        fun g hg _ => ?_
      simp only [RequestState.ahead, hleft] at hg
      cases hg
    | cons g left =>
      simp only [Request.step, hleft, Option.some.injEq] at h
      have hnext : Follows r s (.guarding c) (r.guard jwt s g { c with left }).2 :=
        guard_follows hleft
      rwa [h] at hnext
  | findingAccount payload c =>
    cases h
    refine .keeps rfl rfl rfl rfl (fun _ _ _ h => ?_) (fun _ _ _ _ h => by cases h)
      fun g hg _ => .inl hg
    cases h
    rfl
  | cachingStatus payload active c =>
    cases h
    refine ofAccount_follows rfl rfl (fun g hg => ?_) fun hactive => .inr ⟨c, by rw [hactive]⟩
    rcases List.mem_cons.1 hg with hsame | hmem
    · cases g <;> cases hsame
    · exact hmem
  | resolving g tenantId c =>
    cases h
    refine .keeps rfl rfl rfl rfl (fun _ _ _ h => by cases h) (fun _ _ _ _ h => ?_)
      fun g hg _ => .inl hg
    cases h
    rfl
  | storing g tenantId value c =>
    cases h
    obtain ⟨store, hsome, rfl⟩ := Option.map_eq_some_iff.1 (hstore g tenantId value c rfl)
    exact ofEntitlements_follows rfl rfl rfl rfl hsome (.inr ⟨g, c, rfl⟩)
  | countingGrants user tenantId enterpriseId key c =>
    simp only [Request.step] at h
    split at h
    · cases h
      exact .refused
    · cases h
      refine .keeps rfl rfl rfl rfl (fun _ _ _ h => by cases h) (fun _ _ _ _ h => by cases h)
        fun g hg _ => .inl ?_
      rcases List.mem_cons.1 hg with hsame | hmem
      · cases g <;> cases hsame
      · exact hmem
  | countingUsage tenantId limitKey max counter c =>
    simp only [Request.step] at h
    split at h
    · cases h
      exact .refused
    · cases h
      refine .keeps rfl rfl rfl rfl (fun _ _ _ h => by cases h) (fun _ _ _ _ h => by cases h)
        fun g hg hasks => .inl ?_
      rcases List.mem_cons.1 hg with hsame | hmem
      · cases g <;> cases hsame
        exact hasks.elim
      · exact hmem
  | admitted c => cases h
  | refused e => cases h

end

end Gescom.Access
