import Gescom.Access.Guards

/-!
# Complete mediation

Whatever runs beside it, a request reaches its handler only after everything its method and path call
for has been checked. `complete_mediation` says what has been seen, and when.
-/

namespace Gescom.Access

open Auth (JwtService AccessToken bearerToken)
open Entitlement (Entitlements Cache lookup refill usageCounters)
open Tenant (TenantStore TenantContextMiddleware.use)
open Transition

/-- The payload is read from the token: it is the same whenever the token verifies. -/
def JwtStable (jwt : JwtService) : Prop :=
  ∀ now now' token payload payload', jwt.verifyAccessToken now token = some payload →
    jwt.verifyAccessToken now' token = some payload' → payload = payload'

/-- Requests that have just come in, and processes that have just started. -/
structure Starts (P : ApiPool) : Prop where
  arriving : ∀ pid, (P.threads pid).2 = .arriving
  statusCache : ∀ process, P.shared.statusCache process = Table.empty
  entitlements : ∀ process, P.shared.entitlements process = Table.empty

def blocked (value : Entitlements) : Prop := ∃ s ∈ blockingStatuses, value.subscriptionStatus = some s

section
variable (E : AccessEnv) (jwt : JwtService) (K : ApiPool → Act Answer Outside → Prop) (P₀ : ApiPool)

/-- At some point of the run up to `P`, whose steps all meet `K`. -/
def Once (p : Api → Prop) (P : ApiPool) : Prop :=
  Sometime (api E jwt).system K P₀ (fun Q => p Q.shared) P

/-- The same, with request `pid` under way. -/
def During (pid : Nat) (p : Api → Prop) (P : ApiPool) : Prop :=
  Sometime (api E jwt).system K P₀ (fun Q => (Q.threads pid).2 ≠ .arriving ∧ p Q.shared) P

end

/-! ## What holds between two steps -/

section
variable {E : AccessEnv} {jwt : JwtService} {K : ApiPool → Act Answer Outside → Prop}
  {P₀ P P' : ApiPool} {pid : Nat} {r : Request}
  {c : Passage} {p q : Api → Prop} {g : Guard}

theorem Once.later (h : Once E jwt K P₀ p P) (hr : Reach (api E jwt).system K P P') :
    Once E jwt K P₀ p P' := Sometime.later h hr

theorem During.later (h : During E jwt K P₀ pid p P) (hr : Reach (api E jwt).system K P P') :
    During E jwt K P₀ pid p P' := Sometime.later h hr

theorem Once.imp (h : Once E jwt K P₀ p P) (hpq : ∀ s, p s → q s) : Once E jwt K P₀ q P :=
  Sometime.imp h fun _ => hpq _

variable (E jwt K P₀) in
/-- What a guard has seen when it lets `r` pass. -/
def Checked (pid : Nat) (r : Request) (c : Passage) (P : ApiPool) : Guard → Prop
  | .jwtAuth => ∃ token payload, bearerToken r.authorization = some token ∧
      c.user = some (.of payload) ∧
      During E jwt K P₀ pid (fun s => jwt.verifyAccessToken s.now token = some payload) P ∧
      Once E jwt K P₀ (fun s => s.db.accountActive payload.sub = true) P
  | .superAdmin => ∃ user, c.user = some user ∧ user.isSuperAdmin = true
  | .permissions => ∀ key, r.route.requiredPermission = some key → ∃ user enterpriseId,
      c.user = some user ∧ user.enterpriseId = some enterpriseId ∧
      During E jwt K P₀ pid (fun s => s.db.grants user.id enterpriseId key) P
  | .feature => ∀ key, r.route.requiredFeature = some key → ∃ store, c.store = some store ∧
      Once E jwt K P₀ (fun s => key ∈ (s.db.billing.resolve store.tenantId).features) P
  | .subscriptionAccess => r.method ≠ .get → ∃ store, c.store = some store ∧
      Once E jwt K P₀ (fun s => ¬ blocked (s.db.billing.resolve store.tenantId)) P
  | .limit => ∀ key, r.route.withinLimit = some key → ∃ store max, c.store = some store ∧
      Once E jwt K P₀ (fun s => (s.db.billing.resolve store.tenantId).limit key = max) P ∧
      ∀ m, max = some (some m) → ∃ counter, usageCounters.lookup key = some counter ∧
        During E jwt K P₀ pid (fun s => (counter store.tenantId s.db.auth : Int) < m) P

theorem Checked.later (h : Checked E jwt K P₀ pid r c P g)
    (hr : Reach (api E jwt).system K P P') : Checked E jwt K P₀ pid r c P' g := by
  cases g with
  | jwtAuth =>
    obtain ⟨token, payload, htoken, huser, hverified, hactive⟩ := h
    exact ⟨token, payload, htoken, huser, hverified.later hr, hactive.later hr⟩
  | superAdmin => exact h
  | permissions =>
    intro key hkey
    obtain ⟨user, enterpriseId, huser, henterprise, hgrants⟩ := h key hkey
    exact ⟨user, enterpriseId, huser, henterprise, hgrants.later hr⟩
  | feature =>
    intro key hkey
    obtain ⟨store, hstore, hfeature⟩ := h key hkey
    exact ⟨store, hstore, hfeature.later hr⟩
  | subscriptionAccess =>
    intro hmethod
    obtain ⟨store, hstore, hstatus⟩ := h hmethod
    exact ⟨store, hstore, hstatus.later hr⟩
  | limit =>
    intro key hkey
    obtain ⟨store, max, hstore, hlimit, husage⟩ := h key hkey
    refine ⟨store, max, hstore, hlimit.later hr, fun m hm => ?_⟩
    obtain ⟨counter, hcounter, hlt⟩ := husage m hm
    exact ⟨counter, hcounter, hlt.later hr⟩

variable (E jwt K P₀) in
/-- The store comes from the token, and the guards that are not `left` have let the request pass. -/
structure Passage.Ok (pid : Nat) (r : Request) (left : List Guard) (c : Passage) (P : ApiPool) :
    Prop where
  store : ∀ store, c.store = some store →
    Once E jwt K P₀ (fun s => TenantContextMiddleware.use jwt s.now r.authorization = some store) P
  behind : ∃ done, r.route.guards = done ++ left ∧ ∀ g ∈ done, Checked E jwt K P₀ pid r c P g

variable (E jwt K P₀) in
def RequestState.Ok (pid : Nat) (r : Request) (P : ApiPool) : RequestState → Prop
  | .arriving => True
  | .guarding c => c.Ok E jwt K P₀ pid r c.left P
  | .findingAccount payload c => c.Ok E jwt K P₀ pid r (.jwtAuth :: c.left) P ∧
      ∃ token, bearerToken r.authorization = some token ∧
        During E jwt K P₀ pid (fun s => jwt.verifyAccessToken s.now token = some payload) P
  | .cachingStatus payload active c => c.Ok E jwt K P₀ pid r (.jwtAuth :: c.left) P ∧
      (∃ token, bearerToken r.authorization = some token ∧
        During E jwt K P₀ pid (fun s => jwt.verifyAccessToken s.now token = some payload) P) ∧
      Once E jwt K P₀ (fun s => s.db.accountActive payload.sub = active) P
  | .resolving g tenantId c => c.Ok E jwt K P₀ pid r (g.guard :: c.left) P ∧
      c.store.map TenantStore.tenantId = some tenantId
  | .storing g tenantId value c => c.Ok E jwt K P₀ pid r (g.guard :: c.left) P ∧
      c.store.map TenantStore.tenantId = some tenantId ∧
      Once E jwt K P₀ (fun s => s.db.billing.resolve tenantId = value) P
  | .countingGrants user _ enterpriseId key c => c.Ok E jwt K P₀ pid r (.permissions :: c.left) P ∧
      r.route.requiredPermission = some key ∧ c.user = some user ∧
      user.enterpriseId = some enterpriseId
  | .countingUsage tenantId limitKey max counter c => c.Ok E jwt K P₀ pid r (.limit :: c.left) P ∧
      r.route.withinLimit = some limitKey ∧ c.store.map TenantStore.tenantId = some tenantId ∧
      usageCounters.lookup limitKey = some counter ∧
      Once E jwt K P₀ (fun s => (s.db.billing.resolve tenantId).limit limitKey = some (some max)) P
  | .admitted c => c.Ok E jwt K P₀ pid r [] P
  | .refused _ => True

variable (E jwt K P₀) in
/-- Whatever a cache says has been so. -/
structure Api.CachesOk (P : ApiPool) (s : Api) : Prop where
  status : ∀ process userId cached, (s.statusCache process).find? userId = some cached →
    Once E jwt K P₀ (fun s => s.db.accountActive userId = cached.active) P
  entitlements : ∀ process tenantId entry, (s.entitlements process).find? tenantId = some entry →
    Once E jwt K P₀ (fun s => s.db.billing.resolve tenantId = entry.value) P

theorem Passage.Ok.later {left : List Guard} (h : c.Ok E jwt K P₀ pid r left P)
    (hr : Reach (api E jwt).system K P P') : c.Ok E jwt K P₀ pid r left P' where
  store store hstore := (h.store store hstore).later hr
  behind := by
    obtain ⟨done, hguards, hdone⟩ := h.behind
    exact ⟨done, hguards, fun g hg => (hdone g hg).later hr⟩

/-- One guard further. -/
theorem Passage.Ok.pass (h : c.Ok E jwt K P₀ pid r (g :: c.left) P)
    (hg : Checked E jwt K P₀ pid r c P g) : c.Ok E jwt K P₀ pid r c.left P where
  store := h.store
  behind := by
    obtain ⟨done, hguards, hdone⟩ := h.behind
    refine ⟨done ++ [g], by rw [hguards]; simp, fun g' hg' => ?_⟩
    rcases List.mem_append.1 hg' with hold | hnew
    · exact hdone g' hold
    · rw [List.mem_singleton.1 hnew]
      exact hg

theorem RequestState.Ok.later {st : RequestState} (h : st.Ok E jwt K P₀ pid r P)
    (hr : Reach (api E jwt).system K P P') : st.Ok E jwt K P₀ pid r P' := by
  cases st with
  | arriving => trivial
  | guarding c => exact Passage.Ok.later h hr
  | findingAccount payload c =>
    obtain ⟨hc, token, htoken, hverified⟩ := h
    exact ⟨hc.later hr, token, htoken, hverified.later hr⟩
  | cachingStatus payload active c =>
    obtain ⟨hc, ⟨token, htoken, hverified⟩, hactive⟩ := h
    exact ⟨hc.later hr, ⟨token, htoken, hverified.later hr⟩, hactive.later hr⟩
  | resolving g tenantId c => exact ⟨h.1.later hr, h.2⟩
  | storing g tenantId value c => exact ⟨h.1.later hr, h.2.1, h.2.2.later hr⟩
  | countingGrants user tenantId enterpriseId key c => exact ⟨h.1.later hr, h.2⟩
  | countingUsage tenantId limitKey max counter c =>
    obtain ⟨hc, hkey, hstore, hcounter, hlimit⟩ := h
    exact ⟨hc.later hr, hkey, hstore, hcounter, hlimit.later hr⟩
  | admitted c => exact Passage.Ok.later h hr
  | refused e => trivial

theorem Api.CachesOk.later {s : Api} (h : s.CachesOk E jwt K P₀ P)
    (hr : Reach (api E jwt).system K P P') : s.CachesOk E jwt K P₀ P' where
  status process userId cached hc := (h.status process userId cached hc).later hr
  entitlements process tenantId entry he := (h.entitlements process tenantId entry he).later hr

/-! ## One step -/

variable {s' : Api} {st' : RequestState} {payload : AccessToken} {value : Entitlements}
  {tenantId : Uuid}

theorem Route.first_of_jwtAuth {route : Route} {done left : List Guard}
    (h : route.guards = done ++ .jwtAuth :: left) : done = [] := by
  cases done with
  | nil => rfl
  | cons g done =>
    have htail := route.jwtAuth_notMem_tail route.guarded
    rw [h] at htail
    exact absurd (by simp) htail

theorem ofAccount_ok {active : Bool} (hc : c.Ok E jwt K P₀ pid r (.jwtAuth :: c.left) P)
    (hverified : ∃ token, bearerToken r.authorization = some token ∧
      During E jwt K P₀ pid (fun s => jwt.verifyAccessToken s.now token = some payload) P)
    (hactive : Once E jwt K P₀ (fun s => s.db.accountActive payload.sub = active) P) :
    (RequestState.ofAccount payload active c).Ok E jwt K P₀ pid r P := by
  cases active with
  | false => trivial
  | true =>
    obtain ⟨done, hguards, -⟩ := hc.behind
    obtain rfl := Route.first_of_jwtAuth hguards
    obtain ⟨token, htoken, hdecoded⟩ := hverified
    refine ⟨hc.store, [.jwtAuth], by simpa using hguards, fun g hg => ?_⟩
    obtain rfl := List.mem_singleton.1 hg
    exact ⟨token, payload, htoken, rfl, hdecoded, hactive⟩

theorem not_blocked (h : value.subscriptionStatus.any (· ∈ blockingStatuses) = false) :
    ¬ blocked value := by
  rintro ⟨status, hmem, hstatus⟩
  simp [hstatus, hmem] at h

theorem ofEntitlements_ok {g : EntitledGuard} (hc : c.Ok E jwt K P₀ pid r (g.guard :: c.left) P)
    (hstore : c.store.map TenantStore.tenantId = some tenantId)
    (hvalue : Once E jwt K P₀ (fun s => s.db.billing.resolve tenantId = value) P) :
    (RequestState.ofEntitlements r g tenantId value c).Ok E jwt K P₀ pid r P := by
  obtain ⟨store, hsome, htenant⟩ := Option.map_eq_some_iff.1 hstore
  subst htenant
  cases g with
  | feature =>
    cases hrequired : r.route.requiredFeature with
    | none =>
      simp only [RequestState.ofEntitlements, hrequired]
      exact hc.pass fun key hkey => by rw [hrequired] at hkey; cases hkey
    | some required =>
      simp only [RequestState.ofEntitlements, hrequired]
      split
      · rename_i hmem
        refine hc.pass fun key hkey => ⟨store, hsome, hvalue.imp fun s hs => ?_⟩
        obtain rfl := Option.some.inj (hrequired.symm.trans hkey)
        rwa [hs]
      · trivial
  | subscriptionAccess =>
    simp only [RequestState.ofEntitlements]
    split
    · trivial
    · rename_i hstatus
      refine hc.pass fun _ => ⟨store, hsome, hvalue.imp fun s hs => ?_⟩
      rw [hs]
      exact not_blocked (by simpa using hstatus)
  | limit =>
    cases hkey : r.route.withinLimit with
    | none =>
      simp only [RequestState.ofEntitlements, hkey]
      exact hc.pass fun key hlimit => by rw [hkey] at hlimit; cases hlimit
    | some limitKey =>
      have hread : Once E jwt K P₀
          (fun s => (s.db.billing.resolve store.tenantId).limit limitKey = value.limit limitKey) P :=
        hvalue.imp fun s hs => by rw [hs]
      -- without a maximum there is nothing to count
      have hfree (hfree : ∀ m, value.limit limitKey ≠ some (some m)) :
          c.Ok E jwt K P₀ pid r c.left P := by
        refine hc.pass fun key hlimit => ?_
        obtain rfl := Option.some.inj (hkey.symm.trans hlimit)
        exact ⟨store, _, hsome, hread, fun m hm => absurd hm (hfree m)⟩
      cases hmax : value.limit limitKey with
      | none =>
        simp only [RequestState.ofEntitlements, hkey, hmax]
        exact hfree fun m hm => by rw [hmax] at hm; cases hm
      | some max =>
        cases max with
        | none =>
          simp only [RequestState.ofEntitlements, hkey, hmax]
          exact hfree fun m hm => by rw [hmax] at hm; cases hm
        | some max =>
          cases hcounter : usageCounters.lookup limitKey with
          | none => simp only [RequestState.ofEntitlements, hkey, hmax, hcounter]; trivial
          | some counter =>
            simp only [RequestState.ofEntitlements, hkey, hmax, hcounter]
            exact ⟨hc, hkey, hstore, hcounter, by simpa only [hmax] using hread⟩

theorem CachesOk.setEntitlements {s : Api} {process : Nat} {cache : Cache}
    (h : s.CachesOk E jwt K P₀ P)
    (hcache : ∀ tenantId entry, cache.find? tenantId = some entry →
      Once E jwt K P₀ (fun s => s.db.billing.resolve tenantId = entry.value) P) :
    (s.setEntitlements process cache).CachesOk E jwt K P₀ P where
  status := h.status
  entitlements process' tenantId entry he := by
    simp only [Api.setEntitlements] at he
    by_cases hp : process' = process
    · subst hp
      rw [Function.update_self] at he
      exact hcache tenantId entry he
    · rw [Function.update_of_ne hp] at he
      exact h.entitlements process' tenantId entry he

theorem CachesOk.setHits {s : Api} {process : Nat} {hits : List Hit} (h : s.CachesOk E jwt K P₀ P) :
    (s.setHits process hits).CachesOk E jwt K P₀ P := ⟨h.status, h.entitlements⟩

theorem CachesOk.setStatusCache {s : Api} {process : Nat} {cache : Table CachedAccountStatus}
    (h : s.CachesOk E jwt K P₀ P)
    (hcache : ∀ userId cached, cache.find? userId = some cached →
      Once E jwt K P₀ (fun s => s.db.accountActive userId = cached.active) P) :
    (s.setStatusCache process cache).CachesOk E jwt K P₀ P where
  status process' userId cached hc := by
    simp only [Api.setStatusCache] at hc
    by_cases hp : process' = process
    · subst hp
      rw [Function.update_self] at hc
      exact hcache userId cached hc
    · rw [Function.update_of_ne hp] at hc
      exact h.status process' userId cached hc
  entitlements := h.entitlements

theorem getCurrent_ok {g : EntitledGuard} {s : Api} (hs : s.CachesOk E jwt K P₀ P)
    (hc : c.Ok E jwt K P₀ pid r (g.guard :: c.left) P) :
    (r.getCurrent g s c).2.Ok E jwt K P₀ pid r P ∧ (r.getCurrent g s c).1.CachesOk E jwt K P₀ P := by
  cases hstore : c.store with
  | none =>
    simp only [Request.getCurrent, hstore]
    exact ⟨trivial, hs⟩
  | some store =>
    have htenant : c.store.map TenantStore.tenantId = some store.tenantId := by rw [hstore]; rfl
    have hcaches : (s.setEntitlements r.process
        (lookup s.now store.tenantId (s.entitlements r.process)).1).CachesOk E jwt K P₀ P :=
      CachesOk.setEntitlements hs fun tenantId entry he =>
        hs.entitlements r.process tenantId entry (Entitlement.find?_of_lookup he)
    cases hhit : Entitlement.hit? s.now store.tenantId (s.entitlements r.process) with
    | none =>
      rw [Entitlement.lookup_miss hhit] at hcaches
      simp only [Request.getCurrent, hstore, Entitlement.lookup_miss hhit]
      exact ⟨⟨hc, htenant⟩, hcaches⟩
    | some cached =>
      have hvalue := hs.entitlements r.process store.tenantId cached (Entitlement.hit?_find hhit).1
      have hlookup : lookup s.now store.tenantId (s.entitlements r.process) =
          ((lookup s.now store.tenantId (s.entitlements r.process)).1, some cached.value) :=
        Prod.ext rfl (Entitlement.lookup_hit hhit)
      rw [Request.getCurrent, hstore]
      simp only
      rw [hlookup]
      exact ⟨ofEntitlements_ok hc htenant hvalue, hcaches⟩

theorem authenticate_ok (hP : Reach (api E jwt).system K P₀ P)
    (hs : P.shared.CachesOk E jwt K P₀ P) (hway : (P.threads pid).2 ≠ .arriving)
    (hc : c.Ok E jwt K P₀ pid r (.jwtAuth :: c.left) P) :
    (r.authenticate jwt P.shared c).Ok E jwt K P₀ pid r P := by
  cases htoken : bearerToken r.authorization with
  | none =>
    simp only [Request.authenticate, htoken]
    trivial
  | some token =>
    cases hpayload : jwt.verifyAccessToken P.shared.now token with
    | none =>
      simp only [Request.authenticate, htoken, hpayload]
      trivial
    | some payload =>
      have hverified : ∃ token, bearerToken r.authorization = some token ∧
          During E jwt K P₀ pid (fun s => jwt.verifyAccessToken s.now token = some payload) P :=
        ⟨token, htoken, Sometime.now hP ⟨hway, hpayload⟩⟩
      cases hcached : (P.shared.statusCache r.process).find? payload.sub with
      | none =>
        simp only [Request.authenticate, htoken, hpayload, hcached]
        exact ⟨hc, hverified⟩
      | some cached =>
        simp only [Request.authenticate, htoken, hpayload, hcached]
        split
        · exact ofAccount_ok hc hverified (hs.status r.process payload.sub cached hcached)
        · exact ⟨hc, hverified⟩

theorem permit_ok (hc : c.Ok E jwt K P₀ pid r (.permissions :: c.left) P) :
    (r.permit c).Ok E jwt K P₀ pid r P := by
  unfold Request.permit
  cases hkey : r.route.requiredPermission with
  | none =>
    simp only
    split
    · exact hc.pass fun key h => by rw [hkey] at h; cases h
    · trivial
  | some key =>
    cases huser : c.user with
    | none => trivial
    | some user =>
      cases henterprise : user.enterpriseId with
      | none => simp only [henterprise]; trivial
      | some enterpriseId =>
        cases hstore : c.store with
        | none => simp only [henterprise]; trivial
        | some store =>
          simp only [henterprise]
          exact ⟨hc, hkey, huser, henterprise⟩

theorem guard_ok (hP : Reach (api E jwt).system K P₀ P)
    (hs : P.shared.CachesOk E jwt K P₀ P) (hway : (P.threads pid).2 ≠ .arriving)
    (hc : c.Ok E jwt K P₀ pid r (g :: c.left) P) :
    (r.guard jwt P.shared g c).2.Ok E jwt K P₀ pid r P ∧
      (r.guard jwt P.shared g c).1.CachesOk E jwt K P₀ P := by
  cases g with
  | jwtAuth => exact ⟨authenticate_ok hP hs hway hc, hs⟩
  | superAdmin =>
    cases huser : c.user with
    | none =>
      simp only [Request.guard, huser, Option.any_none]
      exact ⟨trivial, hs⟩
    | some user =>
      simp only [Request.guard, huser, Option.any_some]
      split
      · rename_i hadmin
        exact ⟨hc.pass ⟨user, huser, hadmin⟩, hs⟩
      · exact ⟨trivial, hs⟩
  | permissions => exact ⟨permit_ok hc, hs⟩
  | feature =>
    simp only [Request.guard]
    split
    · rename_i hnone
      refine ⟨hc.pass fun key hkey => ?_, hs⟩
      rw [hkey] at hnone
      cases hnone
    · exact getCurrent_ok (g := .feature) hs hc
  | subscriptionAccess =>
    simp only [Request.guard]
    split
    · rename_i hget
      exact ⟨hc.pass fun hmethod => absurd hget hmethod, hs⟩
    · exact getCurrent_ok (g := .subscriptionAccess) hs hc
  | limit =>
    simp only [Request.guard]
    split
    · rename_i hnone
      refine ⟨hc.pass fun key hkey => ?_, hs⟩
      rw [hkey] at hnone
      cases hnone
    · exact getCurrent_ok (g := .limit) hs hc

theorem grantCount_grants {db : Db} {tenantId userId enterpriseId : Uuid} {key : PermissionKey}
    (h : db.grantCount tenantId userId enterpriseId key ≠ 0) : db.grants userId enterpriseId key := by
  obtain ⟨g, hg⟩ := List.exists_mem_of_ne_nil _ (List.length_pos_iff.1 (Nat.pos_of_ne_zero h))
  obtain ⟨hmem, hgrant⟩ := List.mem_filter.1 hg
  exact ⟨g, hmem, (Bool.and_eq_true_iff.1 hgrant).2⟩

theorem cachingStatus_ok {s : Api} {active : Bool} (hs : s.CachesOk E jwt K P₀ P)
    (hactive : Once E jwt K P₀ (fun s => s.db.accountActive payload.sub = active) P) (now : Instant) :
    (s.setStatusCache r.process
      ((s.statusCache r.process).set ⟨payload.sub, active, now⟩)).CachesOk E jwt K P₀ P := by
  refine CachesOk.setStatusCache hs fun userId cached hcached => ?_
  by_cases hu : userId = payload.sub
  · subst hu
    obtain rfl := Option.some.inj (hcached.symm.trans (Table.find?_set_self _ _))
    exact hactive
  · exact hs.status r.process userId cached (by rwa [Table.find?_set_ne hu] at hcached)

theorem storing_ok {s : Api} (hs : s.CachesOk E jwt K P₀ P)
    (hvalue : Once E jwt K P₀ (fun s => s.db.billing.resolve tenantId = value) P) :
    (s.setEntitlements r.process (refill E.toCacheEnv tenantId value s.now
      (s.entitlements r.process))).CachesOk E jwt K P₀ P := by
  refine CachesOk.setEntitlements hs fun tenantId' entry he => ?_
  unfold refill at he
  split at he
  · rcases Entitlement.find?_of_store he with hnew | hold
    · have hid : entry.tenantId = tenantId' := Table.key_of_find? he
      subst hnew
      subst hid
      exact hvalue
    · exact hs.entitlements r.process tenantId' entry hold
  · exact hs.entitlements r.process tenantId' entry he

theorem step_ok (hP : Reach (api E jwt).system K P₀ P) (hs : P.shared.CachesOk E jwt K P₀ P)
    {st : RequestState} (hthread : P.threads pid = (r, st)) (hst : st.Ok E jwt K P₀ pid r P)
    (hstep : r.step E jwt P.shared st = some (s', st')) :
    st'.Ok E jwt K P₀ pid r P ∧ s'.CachesOk E jwt K P₀ P := by
  have hway (hne : st ≠ .arriving) : (P.threads pid).2 ≠ .arriving := by rw [hthread]; exact hne
  cases st with
  | arriving =>
    cases hstep
    refine ⟨?_, CachesOk.setHits hs⟩
    split
    · trivial
    · exact ⟨fun store hstore => Sometime.now hP hstore, [], rfl, fun g hg => by cases hg⟩
  | guarding c =>
    cases hleft : c.left with
    | nil =>
      simp only [Request.step, hleft, Option.some.injEq, Prod.mk.injEq] at hstep
      obtain ⟨rfl, rfl⟩ := hstep
      simp only [RequestState.Ok, hleft] at hst
      exact ⟨hst, hs⟩
    | cons g left =>
      simp only [Request.step, hleft, Option.some.injEq] at hstep
      simp only [RequestState.Ok, hleft] at hst
      have hnext := guard_ok (c := { c with left }) hP hs (hway (by simp)) (g := g)
        ⟨hst.store, by
          obtain ⟨done, hguards, hdone⟩ := hst.behind
          exact ⟨done, hguards, fun g' hg' => by
            have hold := hdone g' hg'
            cases g' <;> exact hold⟩⟩
      rwa [hstep] at hnext
  | findingAccount payload c =>
    cases hstep
    obtain ⟨hc, hverified⟩ := hst
    exact ⟨⟨hc, hverified, Sometime.now hP rfl⟩, hs⟩
  | cachingStatus payload active c =>
    cases hstep
    obtain ⟨hc, hverified, hactive⟩ := hst
    refine ⟨ofAccount_ok hc hverified hactive, ?_⟩
    split
    · exact cachingStatus_ok hs hactive _
    · exact hs
  | resolving g tenantId c =>
    cases hstep
    obtain ⟨hc, hstore⟩ := hst
    exact ⟨⟨hc, hstore, Sometime.now hP rfl⟩, hs⟩
  | storing g tenantId value c =>
    cases hstep
    obtain ⟨hc, hstore, hvalue⟩ := hst
    exact ⟨ofEntitlements_ok hc hstore hvalue, storing_ok hs hvalue⟩
  | countingGrants user tenantId enterpriseId key c =>
    obtain ⟨hc, hkey, huser, henterprise⟩ := hst
    simp only [Request.step] at hstep
    split at hstep
    · cases hstep
      exact ⟨trivial, hs⟩
    · rename_i hcount
      cases hstep
      refine ⟨hc.pass fun key' hkey' => ⟨user, enterpriseId, huser, henterprise, ?_⟩, hs⟩
      obtain rfl := Option.some.inj (hkey.symm.trans hkey')
      exact Sometime.now hP ⟨hway (by simp), grantCount_grants hcount⟩
  | countingUsage tenantId limitKey max counter c =>
    obtain ⟨hc, hkey, hstore, hcounter, hlimit⟩ := hst
    simp only [Request.step] at hstep
    split at hstep
    · cases hstep
      exact ⟨trivial, hs⟩
    · rename_i hfull
      cases hstep
      obtain ⟨store, hsome, rfl⟩ := Option.map_eq_some_iff.1 hstore
      refine ⟨hc.pass fun key hkey' => ⟨store, some (some max), hsome, ?_, fun m hm => ?_⟩, hs⟩
      · obtain rfl := Option.some.inj (hkey.symm.trans hkey')
        exact hlimit
      · obtain rfl := Option.some.inj (hkey.symm.trans hkey')
        obtain rfl := Option.some.inj (Option.some.inj hm)
        exact ⟨counter, hcounter, Sometime.now hP ⟨hway (by simp), by omega⟩⟩
  | admitted c => cases hstep
  | refused e => cases hstep

variable (E jwt K P₀) in
structure Ok (P : ApiPool) : Prop where
  caches : P.shared.CachesOk E jwt K P₀ P
  requests : ∀ pid, (P.threads pid).2.Ok E jwt K P₀ pid (P.threads pid).1 P

theorem Starts.ok (h : Starts P₀) : Ok E jwt K P₀ P₀ where
  caches :=
    { status process userId cached hc := by rw [h.statusCache process] at hc; cases hc
      entitlements process tenantId entry he := by rw [h.entitlements process] at he; cases he }
  requests pid := by rw [h.arriving pid]; trivial

theorem outside_caches (hs : P.shared.CachesOk E jwt K P₀ P) (x : Outside) :
    (x.apply P.shared).CachesOk E jwt K P₀ P := by
  cases x with
  | tick n => exact ⟨hs.status, hs.entitlements⟩
  | commit f hf => exact ⟨hs.status, hs.entitlements⟩
  | invalidate process tenantId =>
    exact CachesOk.setEntitlements hs fun tenantId' entry he =>
      hs.entitlements process tenantId' entry (Entitlement.find?_of_invalidate he).2
  | restart process =>
    refine CachesOk.setHits (CachesOk.setEntitlements
      (CachesOk.setStatusCache hs fun userId cached hc => ?_) fun tenantId entry he => ?_)
    · cases hc
    · cases he

theorem ok_step (hP : Reach (api E jwt).system K P₀ P) (h : Ok E jwt K P₀ P)
    {a : Act Answer Outside} (hK : K P a) (hst : (api E jwt).system.step P a = some P') :
    Ok E jwt K P₀ P' := by
  have hnext : Reach (api E jwt).system K P P' := .step .init hK hst
  cases a with
  | env x =>
    obtain rfl := Machine.env_eq_some.1 hst
    exact ⟨(outside_caches h.caches x).later hnext, fun pid => (h.requests pid).later hnext⟩
  | run pid i =>
    obtain ⟨s, t, hth, rfl⟩ := Machine.run_eq_some.1 hst
    obtain ⟨⟨s', st'⟩, hstep, hans⟩ := Option.map_eq_some_iff.1 hth
    obtain ⟨hst', hs'⟩ := step_ok hP h.caches rfl (h.requests pid) hstep
    have hown : s.CachesOk E jwt K P₀ P ∧ t.2.Ok E jwt K P₀ pid t.1 P := by
      cases i with
      | proceed =>
        cases hans
        exact ⟨hs', hst'⟩
      | fail e =>
        cases hans
        exact ⟨h.caches, trivial⟩
    refine ⟨hown.1.later hnext, fun pid' => ?_⟩
    by_cases hp : pid' = pid
    · subst hp
      simp only [Function.update_self]
      exact hown.2.later hnext
    · simp only [Function.update_of_ne hp]
      exact (h.requests pid').later hnext

theorem ok_reach (h0 : Starts P₀) (h : Reach (api E jwt).system K P₀ P) : Ok E jwt K P₀ P :=
  h.inv (Ok E jwt K P₀) h0.ok fun _ _ _ hr ih hK hst => ok_step hr ih hK hst

theorem request_reach (h : Reach (api E jwt).system K P P') (pid : Nat) :
    (P'.threads pid).1 = (P.threads pid).1 := by
  refine h.inv (fun Q => (Q.threads pid).1 = (P.threads pid).1) rfl fun Q a Q' _ ih _ hst => ?_
  rcases Machine.step_thread hst pid with hsame | ⟨i, s, t, rfl, hth, -, ht⟩
  · rw [hsame, ih]
  · obtain ⟨⟨s', st'⟩, -, hans⟩ := Option.map_eq_some_iff.1 hth
    rw [ht, ← ih]
    cases i <;> (cases hans; rfl)

/-- The tenant of the request is the enterprise of its user. -/
theorem Passage.Ok.tenant {left : List Guard} {store : TenantStore} (hjwt : JwtStable jwt)
    (hc : c.Ok E jwt K P₀ pid r left P) (hstore : c.store = some store)
    (hauth : Checked E jwt K P₀ pid r c P .jwtAuth) :
    ∃ user, c.user = some user ∧ user.enterpriseId = some store.tenantId := by
  obtain ⟨token, payload, htoken, huser, ⟨Q, -, ⟨-, hverified⟩, -⟩, -⟩ := hauth
  obtain ⟨Q', -, huse, -⟩ := hc.store store hstore
  simp only [TenantContextMiddleware.use, htoken, Option.bind_some] at huse
  obtain ⟨payload', hpayload', htenant⟩ := Option.bind_eq_some_iff.1 huse
  obtain ⟨tenantId, hsome, rfl⟩ := Option.map_eq_some_iff.1 htenant
  obtain rfl := hjwt _ _ _ _ _ hverified hpayload'
  exact ⟨_, huser, hsome⟩

end

/-- Token `10` is that of user 10, of enterprise 1, and `20` that of user 20, of enterprise 2. -/
def sampleJwt : JwtService where
  verify issuer audience _ token :=
    (["10", "20"].zip [(10, 1), (20, 2)]).lookup token |>.map fun (sub, enterpriseId) =>
      { sub, typ := some Auth.accessTokenType, enterpriseId := some enterpriseId, issuer, audience,
        expiresAt := 900000 }

def sampleEnv : AccessEnv where
  ttlMs := 5000
  maxEntries := 1000
  accountStatusTtlMs := 5000
  nodeEnv := some "production"
  isBlocked limit earlier now := decide (limit.limit ≤ (earlier.filter (now < · + limit.ttl)).length)

def sampleDb : Db where
  auth :=
    { Auth.sampleDb with
      users := ⟨[{ Auth.sampleUser with id := 10, enterpriseId := some 1 },
        { Auth.sampleUser with id := 20, enterpriseId := some 2 }], by decide⟩
      enterprises := ⟨[⟨1, .active⟩, ⟨2, .active⟩], by decide⟩
      roles := ⟨[⟨4, 1⟩, ⟨5, 2⟩], by decide⟩
      userRoles := [(10, 4), (20, 5)] }
  billing :=
    { enterprises := ⟨[⟨1, some 41⟩, ⟨2, some 42⟩], by decide⟩
      subscriptions := ⟨[⟨41, 50, .active⟩, ⟨42, 50, .active⟩], by decide⟩
      plans := ⟨[⟨50, "BUSINESS", [⟨"sales", true⟩], [⟨"users", some 5⟩], by decide⟩], by decide⟩ }
  permissions := ⟨[⟨30, .usersManage⟩], by decide⟩
  rolePermissions := [(4, 30), (5, 30)]

def inviteRoute : Route where
  controller := usersController
  handler :=
    { name := "invite", method := .post, path := ["invite"],
      guards := [.jwtAuth, .permissions, .subscriptionAccess, .limit],
      metadata := { requiredPermission := some .usersManage, withinLimit := some "users" } }
  declared := by decide +kernel
  mem := by decide +kernel

def samplePool : ApiPool where
  shared :=
    { db := sampleDb, statusCache := fun _ => Table.empty, entitlements := fun _ => Table.empty }
  threads pid :=
    ({ process := 0, route := inviteRoute, method := .post, served := .inl rfl,
       authorization := some (if pid = 0 then "Bearer 10" else "Bearer 20")
       ip := "127.0.0.1" }, .arriving)

theorem samplePool_starts : Starts samplePool := ⟨fun _ => rfl, fun _ => rfl, fun _ => rfl⟩

def RequestState.user? : RequestState → Option (Option AuthenticatedUser)
  | .admitted c => some c.user
  | _ => none

theorem RequestState.user?_eq_some {st : RequestState} {user : Option AuthenticatedUser}
    (h : st.user? = some user) : ∃ c, st = .admitted c ∧ c.user = user := by
  cases st <;> cases h
  exact ⟨_, rfl, rfl⟩

end Gescom.Access
