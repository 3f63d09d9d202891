import Gescom.Access.Steps
import Mathlib.Logic.Relation

/-!
# A request alone

With nothing beside it and caches that agree with the database, a request is admitted exactly when the
limiter lets it through and its token, its account and its enterprise have what its route asks for: the
guards refuse nobody else.
-/

namespace Gescom.Access

open Auth (JwtService AccessToken bearerToken)
open Entitlement (lookup usageCounters quotaReached)
open Tenant (TenantStore TenantContextMiddleware.use)
open Relation (ReflTransGen)

/-- What is in the caches and has not expired is what the database says. -/
structure Api.Agrees (s : Api) : Prop where
  status : ∀ process userId active, (s.statusEntries process).hit s.now userId = some active →
    active = s.db.accountActive userId
  entitlements : ∀ process tenantId value,
    (s.entitlementEntries process).hit s.now tenantId = some value →
      value = s.db.billing.resolve tenantId

/-- Steps of the request, until `st'` where it stops. -/
def Request.Serves (E : AccessEnv) (jwt : JwtService) (r : Request) (s : Api) (st : RequestState)
    (s' : Api) (st' : RequestState) : Prop :=
  ReflTransGen (fun x y => r.step E jwt x.1 x.2 = some y) (s, st) (s', st')

/-- The payload of a token that verifies. -/
def Request.payload (jwt : JwtService) (r : Request) (s : Api) : Option AccessToken :=
  (bearerToken r.authorization).bind (jwt.verifyAccessToken s.now)

/-- What guard `g` wants of a request with this payload. -/
def Request.Passes (r : Request) (s : Api) (payload : AccessToken) : Guard → Prop
  | .jwtAuth => s.db.accountActive payload.sub = true
  | .superAdmin => payload.isSuperAdmin = true
  | .permissions => ∃ key enterpriseId, r.route.requiredPermission = some key ∧
      payload.enterpriseId = some enterpriseId ∧ s.db.grants payload.sub enterpriseId key
  | .feature => ∃ key enterpriseId, r.route.requiredFeature = some key ∧
      payload.enterpriseId = some enterpriseId ∧ key ∈ (s.db.billing.resolve enterpriseId).features
  | .subscriptionAccess => r.method = .get ∨ ∃ enterpriseId,
      payload.enterpriseId = some enterpriseId ∧ ¬ blocked (s.db.billing.resolve enterpriseId)
  | .limit => ∃ key enterpriseId, r.route.withinLimit = some key ∧
      payload.enterpriseId = some enterpriseId ∧
      ∀ max, (s.db.billing.resolve enterpriseId).limit key = some (some max) →
        ∃ counter, usageCounters.lookup key = some counter ∧
          (counter enterpriseId s.db.auth : Int) < max

/-- A route without guards asks for nothing. -/
def Request.Satisfied (jwt : JwtService) (r : Request) (s : Api) : Prop :=
  r.route.guards = [] ∨ ∃ payload, r.payload jwt s = some payload ∧
    ∀ g ∈ r.route.guards, r.Passes s payload g

section
variable {E : AccessEnv} {jwt : JwtService} {r : Request} {s s' : Api} {st st' : RequestState}
  {c : Passage} {g : Guard} {left : List Guard} {payload : AccessToken} {tenantId : Uuid}

/-- What is about to be stored is what the database says. -/
def RequestState.Truthful (s : Api) : RequestState → Prop
  | .cachingStatus payload active _ => s.db.accountActive payload.sub = active
  | .storing _ tenantId value _ => s.db.billing.resolve tenantId = value
  | _ => True

theorem agrees_step (h : s.Agrees) (hst : st.Truthful s) (hstep : r.step E jwt s st = some (s', st')) :
    s'.Agrees ∧ s'.db = s.db := by
  have hleaves := step_leaves hstep
  have hnow : s'.now = s.now := congrArg (fun db => db.auth.now) hleaves.db
  refine ⟨⟨fun process userId active hhit => ?_, fun process tenantId value hhit => ?_⟩, hleaves.db⟩
  · rw [hleaves.db]
    obtain ⟨t, ht, hlt⟩ := Expiring.Entries.hit_eq_some.1 hhit
    rw [hnow] at hlt
    rcases hleaves.status process userId active t ht with hold | ⟨⟨payload, c, rfl, rfl⟩, -⟩
    · exact h.status process userId active (Expiring.Entries.hit_eq_some.2 ⟨t, hold, hlt⟩)
    · exact hst.symm
  · rw [hleaves.db]
    obtain ⟨t, ht, hlt⟩ := Expiring.Entries.hit_eq_some.1 hhit
    rw [hnow] at hlt
    rcases hleaves.entitlements process tenantId value t ht with hold | ⟨⟨g, c, rfl⟩, -⟩
    · exact h.entitlements process tenantId value (Expiring.Entries.hit_eq_some.2 ⟨t, hold, hlt⟩)
    · exact hst.symm

/-- Steps that change nothing but the caches, and keep them in agreement. -/
structure Request.Quietly (E : AccessEnv) (jwt : JwtService) (r : Request) (s : Api)
    (st : RequestState) (s' : Api) (st' : RequestState) : Prop where
  serves : r.Serves E jwt s st s' st'
  agrees : s'.Agrees
  db : s'.db = s.db

theorem Request.Quietly.step (h : s.Agrees) (hstep : r.step E jwt s st = some (s', st'))
    (hst : st.Truthful s) : r.Quietly E jwt s st s' st' :=
  ⟨.single hstep, (agrees_step h hst hstep).1, (agrees_step h hst hstep).2⟩

theorem Request.Quietly.trans {s'' : Api} {st'' : RequestState} (h : r.Quietly E jwt s st s' st')
    (h' : r.Quietly E jwt s' st' s'' st'') : r.Quietly E jwt s st s'' st'' :=
  ⟨h.serves.trans h'.serves, h'.agrees, h'.db.trans h.db⟩

/-- One more step. -/
theorem Request.Quietly.next {s'' : Api} {st'' : RequestState} (h : r.Quietly E jwt s st s' st')
    (hst : st'.Truthful s') (hstep : r.step E jwt s' st' = some (s'', st'')) :
    r.Quietly E jwt s st s'' st'' :=
  h.trans (.step h.agrees hstep hst)

theorem guarding_step (hleft : c.left = g :: left) :
    r.step E jwt s (.guarding c) = some (r.guard jwt s g { c with left }) := by
  simp only [Request.step, hleft]

/-- `getCurrent` answers what the database says. -/
theorem getCurrent_quietly {g : EntitledGuard} {store : TenantStore} (h : s.Agrees)
    (hleft : c.left = g.guard :: left) (hstore : c.store = some store)
    (hguard : r.guard jwt s g.guard { c with left } = r.getCurrent g s { c with left }) :
    ∃ s', r.Quietly E jwt s (.guarding c) s' (.ofEntitlements r g store.tenantId
      (s.db.billing.resolve store.tenantId) { c with left }) := by
  cases hhit : Entitlement.hit? s.now store.tenantId (s.entitlements r.process) with
  | some cached =>
    have hvalue := h.entitlements r.process store.tenantId cached.value (entitlementEntries_hit hhit)
    have hlookup : lookup s.now store.tenantId (s.entitlements r.process) =
        ((lookup s.now store.tenantId (s.entitlements r.process)).1, some cached.value) :=
      Prod.ext rfl (Entitlement.lookup_hit hhit)
    have hstep : r.step E jwt s (.guarding c) =
        some (s.setEntitlements r.process (lookup s.now store.tenantId (s.entitlements r.process)).1,
          .ofEntitlements r g store.tenantId (s.db.billing.resolve store.tenantId)
            { c with left }) := by
      rw [guarding_step hleft, hguard, Request.getCurrent]
      simp only [hstore]
      rw [hlookup, ← hvalue]
    exact ⟨_, .step h hstep trivial⟩
  | none =>
    have hstep : r.step E jwt s (.guarding c) =
        some (s.setEntitlements r.process (s.entitlements r.process),
          .resolving g store.tenantId { c with left }) := by
      rw [guarding_step hleft, hguard, Request.getCurrent]
      simp only [hstore, Entitlement.lookup_miss hhit]
    have hresolving := Request.Quietly.step h hstep trivial
    have hstoring : r.Quietly E jwt s (.guarding c) _ (.storing g store.tenantId
        (s.db.billing.resolve store.tenantId) { c with left }) := hresolving.next trivial rfl
    exact ⟨_, hstoring.next rfl rfl⟩

/-! ## One guard -/

/-- The guard lets the request pass when it has what the guard wants, and refuses it otherwise. -/
def Request.Decides (r : Request) (s : Api) (payload : AccessToken) (g : Guard) (c : Passage)
    (st : RequestState) : Prop :=
  r.Passes s payload g ∧ st = .guarding c ∨ ¬ r.Passes s payload g ∧ ∃ e, st = .refused e

/-- The passage that `JwtAuthGuard` leaves. -/
structure Passage.Of (payload : AccessToken) (c : Passage) : Prop where
  user : c.user = some (.of payload)
  store : c.store = payload.enterpriseId.map fun tenantId =>
    ⟨tenantId, payload.sub, payload.isSuperAdmin⟩

theorem Passage.Of.storeOf {enterpriseId : Uuid} (hc : c.Of payload)
    (h : payload.enterpriseId = some enterpriseId) :
    c.store = some ⟨enterpriseId, payload.sub, payload.isSuperAdmin⟩ := by
  rw [hc.store, h]
  rfl

theorem grantCount_eq_zero {db : Db} {enterpriseId userId : Uuid} {key : PermissionKey} :
    db.grantCount enterpriseId userId enterpriseId key = 0 ↔ ¬ db.grants userId enterpriseId key := by
  constructor
  · rintro h ⟨g, hg, hgrant⟩
    have hnil := List.length_eq_zero_iff.1 h
    have hmem : g ∈ db.rolePermissions.filter fun g =>
        (db.auth.roles.find? g.1).any (fun role => role.enterpriseId == enterpriseId) &&
          db.isGrant userId enterpriseId key g := by
      refine List.mem_filter.2 ⟨hg, ?_⟩
      have hrole := hgrant
      simp only [Db.isGrant, Bool.and_eq_true] at hrole
      rw [hgrant, hrole.1.2]
      rfl
    rw [hnil] at hmem
    cases hmem
  · exact fun h => Decidable.byContradiction fun hne => h (grantCount_grants hne)

theorem permit_eq {key : PermissionKey} {user : AuthenticatedUser} {enterpriseId : Uuid}
    {store : TenantStore} (hkey : r.route.requiredPermission = some key) (huser : c.user = some user)
    (henterprise : user.enterpriseId = some enterpriseId) (hstore : c.store = some store) :
    r.permit c = .countingGrants user store.tenantId enterpriseId key c := by
  simp only [Request.permit, hkey, huser, henterprise, hstore]

theorem permit_stranger {key : PermissionKey} {user : AuthenticatedUser}
    (hkey : r.route.requiredPermission = some key) (huser : c.user = some user)
    (henterprise : user.enterpriseId = none) : r.permit c = .refused permissionDenied := by
  simp only [Request.permit, hkey, huser, henterprise]

theorem superAdmin_decides (h : s.Agrees) (hleft : c.left = .superAdmin :: left)
    (hc : c.Of payload) : ∃ s' st', r.Quietly E jwt s (.guarding c) s' st' ∧
      r.Decides s payload .superAdmin { c with left } st' := by
  have hany : c.user.any AuthenticatedUser.isSuperAdmin = payload.isSuperAdmin := by
    rw [hc.user]
    rfl
  by_cases hadmin : payload.isSuperAdmin = true
  · have hstep : r.step E jwt s (.guarding c) = some (s, .guarding { c with left }) := by
      rw [guarding_step hleft, Request.guard, hany, if_pos hadmin]
    exact ⟨s, _, .step h hstep trivial, .inl ⟨hadmin, rfl⟩⟩
  · have hstep : r.step E jwt s (.guarding c) =
        some (s, .refused (.forbidden "Réservé au Super Admin")) := by
      rw [guarding_step hleft, Request.guard, hany, if_neg hadmin]
    exact ⟨s, _, .step h hstep trivial, .inr ⟨hadmin, _, rfl⟩⟩

theorem permissions_decides (h : s.Agrees) (hleft : c.left = .permissions :: left)
    (hmem : .permissions ∈ r.route.guards) (hc : c.Of payload) :
    ∃ s' st', r.Quietly E jwt s (.guarding c) s' st' ∧
      r.Decides s payload .permissions { c with left } st' := by
  obtain ⟨key, hkey⟩ := r.route.guarded.permission_of_mem hmem
  have hguard : r.step E jwt s (.guarding c) = some (s, r.permit { c with left }) :=
    guarding_step hleft
  cases henterprise : payload.enterpriseId with
  | none =>
    rw [permit_stranger hkey (c := { c with left }) hc.user henterprise] at hguard
    refine ⟨s, _, .step h hguard trivial, .inr ⟨?_, _, rfl⟩⟩
    rintro ⟨_, _, -, hsome, -⟩
    cases henterprise.symm.trans hsome
  | some enterpriseId =>
    rw [permit_eq hkey (c := { c with left }) hc.user henterprise (hc.storeOf henterprise)] at hguard
    have hcounting := Request.Quietly.step h hguard trivial
    have hpasses : r.Passes s payload .permissions ↔ s.db.grants payload.sub enterpriseId key := by
      constructor
      · rintro ⟨key', enterpriseId', hkey', henterprise', hgrants⟩
        obtain rfl := Option.some.inj (hkey.symm.trans hkey')
        obtain rfl := Option.some.inj (henterprise.symm.trans henterprise')
        exact hgrants
      · exact fun hgrants => ⟨key, enterpriseId, hkey, henterprise, hgrants⟩
    by_cases hcount : s.db.grantCount enterpriseId payload.sub enterpriseId key = 0
    · exact ⟨s, .refused permissionDenied, hcounting.next trivial (if_pos hcount),
        .inr ⟨hpasses.not.2 (grantCount_eq_zero.1 hcount), _, rfl⟩⟩
    · exact ⟨s, .guarding { c with left }, hcounting.next trivial (if_neg hcount),
        .inl ⟨hpasses.2 (grantCount_grants hcount), rfl⟩⟩

/-- Without an enterprise `getCurrent` throws. -/
theorem getCurrent_stranger {g : EntitledGuard} (h : s.Agrees) (hleft : c.left = g.guard :: left)
    (hc : c.Of payload) (henterprise : payload.enterpriseId = none)
    (hguard : r.guard jwt s g.guard { c with left } = r.getCurrent g s { c with left }) :
    r.Quietly E jwt s (.guarding c) s (.refused noTenant) := by
  have hstore : c.store = none := by
    rw [hc.store, henterprise]
    rfl
  have hstep : r.step E jwt s (.guarding c) = some (s, .refused noTenant) := by
    rw [guarding_step hleft, hguard]
    simp only [Request.getCurrent, hstore]
  exact .step h hstep trivial

theorem feature_decides (h : s.Agrees) (hleft : c.left = .feature :: left)
    (hmem : .feature ∈ r.route.guards) (hc : c.Of payload) :
    ∃ s' st', r.Quietly E jwt s (.guarding c) s' st' ∧
      r.Decides s payload .feature { c with left } st' := by
  obtain ⟨key, hkey⟩ := r.route.guarded.feature_of_mem hmem
  have hguard : r.guard jwt s EntitledGuard.feature.guard { c with left } =
      r.getCurrent .feature s { c with left } := by
    simp [EntitledGuard.guard, Request.guard, hkey]
  cases henterprise : payload.enterpriseId with
  | none =>
    refine ⟨s, _, getCurrent_stranger (g := .feature) h hleft hc henterprise hguard,
      .inr ⟨?_, _, rfl⟩⟩
    rintro ⟨_, _, -, hsome, -⟩
    cases henterprise.symm.trans hsome
  | some enterpriseId =>
    obtain ⟨s', hquietly⟩ :=
      getCurrent_quietly (E := E) h hleft (hc.storeOf henterprise) hguard
    refine ⟨s', _, hquietly, ?_⟩
    have hpasses : r.Passes s payload .feature ↔
        key ∈ (s.db.billing.resolve enterpriseId).features := by
      constructor
      · rintro ⟨key', enterpriseId', hkey', henterprise', hfeature⟩
        obtain rfl := Option.some.inj (hkey.symm.trans hkey')
        obtain rfl := Option.some.inj (henterprise.symm.trans henterprise')
        exact hfeature
      · exact fun hfeature => ⟨key, enterpriseId, hkey, henterprise, hfeature⟩
    simp only [Request.Decides, hpasses, RequestState.ofEntitlements, hkey]
    by_cases hfeature : key ∈ (s.db.billing.resolve enterpriseId).features
    · exact .inl ⟨hfeature, if_pos hfeature⟩
    · exact .inr ⟨hfeature, _, if_neg hfeature⟩

theorem subscriptionAccess_decides (h : s.Agrees) (hleft : c.left = .subscriptionAccess :: left)
    (hc : c.Of payload) : ∃ s' st', r.Quietly E jwt s (.guarding c) s' st' ∧
      r.Decides s payload .subscriptionAccess { c with left } st' := by
  by_cases hget : r.method = .get
  · have hstep : r.step E jwt s (.guarding c) = some (s, .guarding { c with left }) := by
      rw [guarding_step hleft, Request.guard, if_pos hget]
    exact ⟨s, _, .step h hstep trivial, .inl ⟨.inl hget, rfl⟩⟩
  have hguard : r.guard jwt s EntitledGuard.subscriptionAccess.guard { c with left } =
      r.getCurrent .subscriptionAccess s { c with left } := if_neg hget
  cases henterprise : payload.enterpriseId with
  | none =>
    refine ⟨s, _, getCurrent_stranger (g := .subscriptionAccess) h hleft hc henterprise hguard,
      .inr ⟨?_, _, rfl⟩⟩
    rintro (hmethod | ⟨_, hsome, -⟩)
    · exact hget hmethod
    · cases henterprise.symm.trans hsome
  | some enterpriseId =>
    obtain ⟨s', hquietly⟩ :=
      getCurrent_quietly (E := E) h hleft (hc.storeOf henterprise) hguard
    refine ⟨s', _, hquietly, ?_⟩
    have hpasses : r.Passes s payload .subscriptionAccess ↔
        ¬ blocked (s.db.billing.resolve enterpriseId) := by
      constructor
      · rintro (hmethod | ⟨enterpriseId', henterprise', hstatus⟩)
        · exact absurd hmethod hget
        · obtain rfl := Option.some.inj (henterprise.symm.trans henterprise')
          exact hstatus
      · exact fun hstatus => .inr ⟨enterpriseId, henterprise, hstatus⟩
    simp only [Request.Decides, hpasses, RequestState.ofEntitlements]
    cases hany : (s.db.billing.resolve enterpriseId).subscriptionStatus.any
        (· ∈ blockingStatuses) with
    | true =>
      refine .inr ⟨fun hstatus => hstatus ?_, _, if_pos rfl⟩
      obtain ⟨status, hsome, hmem⟩ := (Option.any_eq_true _ _).1 hany
      exact ⟨status, by simpa using hmem, hsome⟩
    | false => exact .inl ⟨not_blocked hany, if_neg (by simp)⟩

theorem limit_decides (h : s.Agrees) (hleft : c.left = .limit :: left)
    (hmem : .limit ∈ r.route.guards) (hc : c.Of payload) :
    ∃ s' st', r.Quietly E jwt s (.guarding c) s' st' ∧
      r.Decides s payload .limit { c with left } st' := by
  obtain ⟨key, hkey⟩ := r.route.guarded.limit_of_mem hmem
  have hguard : r.guard jwt s EntitledGuard.limit.guard { c with left } =
      r.getCurrent .limit s { c with left } := by
    simp [EntitledGuard.guard, Request.guard, hkey]
  cases henterprise : payload.enterpriseId with
  | none =>
    refine ⟨s, _, getCurrent_stranger (g := .limit) h hleft hc henterprise hguard,
      .inr ⟨?_, _, rfl⟩⟩
    rintro ⟨_, _, -, hsome, -⟩
    cases henterprise.symm.trans hsome
  | some enterpriseId =>
    obtain ⟨s', hquietly⟩ :=
      getCurrent_quietly (E := E) h hleft (hc.storeOf henterprise) hguard
    have hpasses : r.Passes s payload .limit ↔
        ∀ max, (s.db.billing.resolve enterpriseId).limit key = some (some max) →
          ∃ counter, usageCounters.lookup key = some counter ∧
            (counter enterpriseId s.db.auth : Int) < max := by
      constructor
      · rintro ⟨key', enterpriseId', hkey', henterprise', husage⟩
        obtain rfl := Option.some.inj (hkey.symm.trans hkey')
        obtain rfl := Option.some.inj (henterprise.symm.trans henterprise')
        exact husage
      · exact fun husage => ⟨key, enterpriseId, hkey, henterprise, husage⟩
    simp only [Request.Decides, hpasses]
    simp only [RequestState.ofEntitlements, hkey] at hquietly
    -- without a maximum nothing is counted
    cases hlimit : (s.db.billing.resolve enterpriseId).limit key with
    | none =>
      simp only [hlimit] at hquietly
      exact ⟨s', _, hquietly, .inl ⟨fun max hmax => (by cases hmax), rfl⟩⟩
    | some limit =>
      cases limit with
      | none =>
        simp only [hlimit] at hquietly
        exact ⟨s', _, hquietly, .inl ⟨fun max hmax => (by cases hmax), rfl⟩⟩
      | some max =>
        simp only [hlimit] at hquietly
        cases hcounter : usageCounters.lookup key with
        | none =>
          simp only [hcounter] at hquietly
          refine ⟨s', _, hquietly, .inr ⟨fun husage => ?_, _, rfl⟩⟩
          obtain ⟨counter, hsome, -⟩ := husage max rfl
          cases hsome
        | some counter =>
          simp only [hcounter] at hquietly
          by_cases hfull : max ≤ (counter enterpriseId s'.db.auth : Int)
          · refine ⟨s', .refused (quotaReached key max), hquietly.next trivial (if_pos hfull),
              .inr ⟨fun husage => ?_, _, rfl⟩⟩
            obtain ⟨counter', hsome, hlt⟩ := husage max rfl
            cases hsome
            rw [hquietly.db] at hfull
            omega
          · refine ⟨s', .guarding { c with left }, hquietly.next trivial (if_neg hfull),
              .inl ⟨fun max' hmax => ?_, rfl⟩⟩
            cases hmax
            rw [hquietly.db] at hfull
            exact ⟨counter, rfl, by omega⟩

theorem guard_decides (h : s.Agrees) (hleft : c.left = g :: left) (hmem : g ∈ r.route.guards)
    (hne : g ≠ .jwtAuth) (hc : c.Of payload) :
    ∃ s' st', r.Quietly E jwt s (.guarding c) s' st' ∧ r.Decides s payload g { c with left } st' := by
  cases g with
  | jwtAuth => exact absurd rfl hne
  | superAdmin => exact superAdmin_decides h hleft hc
  | permissions => exact permissions_decides h hleft hmem hc
  | feature => exact feature_decides h hleft hmem hc
  | subscriptionAccess => exact subscriptionAccess_decides h hleft hc
  | limit => exact limit_decides h hleft hmem hc

/-! ## All of them -/

theorem passes_congr (hdb : s'.db = s.db) : r.Passes s' payload g ↔ r.Passes s payload g := by
  cases g <;> simp only [Request.Passes, hdb]

/-- What comes of a request whose `left` guards are still to run. -/
def Request.Ends (r : Request) (s : Api) (payload : AccessToken) (left : List Guard)
    (st : RequestState) : Prop :=
  (∀ g ∈ left, r.Passes s payload g) ∧ (∃ c, st = .admitted c) ∨
    (¬ ∀ g ∈ left, r.Passes s payload g) ∧ ∃ e, st = .refused e

theorem guards_end (left : List Guard) (h : s.Agrees) (hleft : c.left = left)
    (hmem : ∀ g ∈ left, g ∈ r.route.guards) (hne : .jwtAuth ∉ left) (hc : c.Of payload) :
    ∃ s' st', r.Serves E jwt s (.guarding c) s' st' ∧ r.Ends s payload left st' := by
  induction left generalizing s c with
  | nil =>
    refine ⟨s, .admitted c, .single ?_, .inl ⟨fun g hg => (List.not_mem_nil hg).elim, c, rfl⟩⟩
    simp only [Request.step, hleft]
  | cons g left ih =>
    obtain ⟨s₁, st₁, hquietly, ⟨hpasses, rfl⟩ | ⟨hfails, e, rfl⟩⟩ :=
      guard_decides (E := E) h hleft (hmem g List.mem_cons_self)
        (fun heq => hne (heq ▸ List.mem_cons_self)) hc
    · obtain ⟨s', st', hserves, hends⟩ := ih (c := { c with left }) hquietly.agrees rfl
        (fun g' hg' => hmem g' (List.mem_cons_of_mem _ hg'))
        (fun hg' => hne (List.mem_cons_of_mem _ hg')) ⟨hc.user, hc.store⟩
      refine ⟨s', st', hquietly.serves.trans hserves, ?_⟩
      have hall : (∀ g' ∈ left, r.Passes s₁ payload g') ↔
          ∀ g' ∈ g :: left, r.Passes s payload g' := by
        simp only [passes_congr hquietly.db, List.forall_mem_cons]
        exact ⟨fun hrest => ⟨hpasses, hrest⟩, fun hboth => hboth.2⟩
      rcases hends with ⟨hrest, hadmitted⟩ | ⟨hrest, hrefused⟩
      · exact .inl ⟨hall.1 hrest, hadmitted⟩
      · exact .inr ⟨fun hrest' => hrest (hall.2 hrest'), hrefused⟩
    · exact ⟨s₁, .refused e, hquietly.serves,
        .inr ⟨fun hall => hfails (hall g List.mem_cons_self), e, rfl⟩⟩

/-- `JwtAuthGuard` finds what the database says of the account. -/
theorem account_quietly (h : s.Agrees) (hleft : c.left = .jwtAuth :: left)
    (hpayload : r.payload jwt s = some payload) : ∃ s', r.Quietly E jwt s (.guarding c) s'
      (.ofAccount payload (s.db.accountActive payload.sub) { c with left }) := by
  obtain ⟨token, htoken, hverified⟩ := Option.bind_eq_some_iff.1 hpayload
  have hstep : r.step E jwt s (.guarding c) = some (s, r.authenticate jwt s { c with left }) :=
    guarding_step hleft
  have hfinding (hfound : r.authenticate jwt s { c with left } =
      .findingAccount payload { c with left }) : ∃ s', r.Quietly E jwt s (.guarding c) s'
        (.ofAccount payload (s.db.accountActive payload.sub) { c with left }) := by
    rw [hfound] at hstep
    have hasking := Request.Quietly.step h hstep trivial
    have hcaching : r.Quietly E jwt s (.guarding c) _ (.cachingStatus payload
        (s.db.accountActive payload.sub) { c with left }) := hasking.next trivial rfl
    exact ⟨_, hcaching.next rfl rfl⟩
  cases hcached : (s.statusCache r.process).find? payload.sub with
  | none =>
    refine hfinding ?_
    simp only [Request.authenticate, htoken, hverified, hcached]
  | some cached =>
    by_cases hlt : s.now < cached.expiresAt
    · have hid : cached.userId = payload.sub := Table.key_of_find? hcached
      have hactive := h.status r.process payload.sub cached.active
        (Expiring.Entries.hit_eq_some.2 ⟨cached.expiresAt,
          statusEntries_eq_some.2 (by rw [hcached, ← hid]), hlt⟩)
      have hdone : r.authenticate jwt s { c with left } =
          .ofAccount payload (s.db.accountActive payload.sub) { c with left } := by
        simp only [Request.authenticate, htoken, hverified, hcached, if_pos hlt, hactive]
      rw [hdone] at hstep
      exact ⟨s, .step h hstep trivial⟩
    · refine hfinding ?_
      simp only [Request.authenticate, htoken, hverified, hcached, if_neg hlt]

/-- Without a payload it refuses. -/
theorem stranger_quietly (h : s.Agrees) (hleft : c.left = .jwtAuth :: left)
    (hpayload : r.payload jwt s = none) :
    ∃ e, r.Quietly E jwt s (.guarding c) s (.refused e) := by
  have hstep : r.step E jwt s (.guarding c) = some (s, r.authenticate jwt s { c with left }) :=
    guarding_step hleft
  cases htoken : bearerToken r.authorization with
  | none =>
    have hrefused : r.authenticate jwt s { c with left } =
        .refused (.unauthorized "Authentification requise") := by
      simp only [Request.authenticate, htoken]
    rw [hrefused] at hstep
    exact ⟨_, .step h hstep trivial⟩
  | some token =>
    have hverified : jwt.verifyAccessToken s.now token = none := by
      simpa [Request.payload, htoken] using hpayload
    have hrefused : r.authenticate jwt s { c with left } =
        .refused (.unauthorized "Jeton invalide ou expiré") := by
      simp only [Request.authenticate, htoken, hverified]
    rw [hrefused] at hstep
    exact ⟨_, .step h hstep trivial⟩

theorem use_payload (hpayload : r.payload jwt s = some payload) :
    TenantContextMiddleware.use jwt s.now r.authorization =
      payload.enterpriseId.map fun tenantId => ⟨tenantId, payload.sub, payload.isSuperAdmin⟩ := by
  obtain ⟨token, htoken, hverified⟩ := Option.bind_eq_some_iff.1 hpayload
  simp only [TenantContextMiddleware.use, htoken, hverified, Option.bind_some]

end

/-- Past the limiter a request is admitted if it has what its guards want, and refused otherwise. -/
theorem guarded_alone (E : AccessEnv) (jwt : JwtService) (r : Request) (s : Api) (h : s.Agrees) :
    ∃ s' st', r.Serves E jwt s (.guarding
        { store := TenantContextMiddleware.use jwt s.now r.authorization, left := r.route.guards })
        s' st' ∧
      (r.Satisfied jwt s ∧ (∃ c, st' = .admitted c) ∨
        ¬ r.Satisfied jwt s ∧ ∃ e, st' = .refused e) := by
  let c₀ : Passage :=
    { store := TenantContextMiddleware.use jwt s.now r.authorization, left := r.route.guards }
  cases hguards : r.route.guards with
  | nil =>
    refine ⟨s, .admitted c₀, .single ?_, .inl ⟨.inl hguards, c₀, rfl⟩⟩
    simp only [Request.step, c₀, hguards]
  | cons g left =>
    have hfirst : g = .jwtAuth := by
      have hmem := Route.jwtAuth_mem (r := r.route) (hguards ▸ List.mem_cons_self)
      rw [hguards] at hmem
      rcases List.mem_cons.1 hmem with hsame | htail
      · exact hsame.symm
      · have hnot := r.route.jwtAuth_notMem_tail r.route.guarded
        rw [hguards] at hnot
        exact absurd htail hnot
    subst hfirst
    rw [← hguards]
    have hnotMem : Guard.jwtAuth ∉ left := by
      have hnot := r.route.jwtAuth_notMem_tail r.route.guarded
      rwa [hguards] at hnot
    have hsatisfied : r.Satisfied jwt s ↔ ∃ payload, r.payload jwt s = some payload ∧
        ∀ g ∈ Guard.jwtAuth :: left, r.Passes s payload g := by
      simp [Request.Satisfied, hguards]
    cases hpayload : r.payload jwt s with
    | none =>
      obtain ⟨e, hrefused⟩ := stranger_quietly (E := E) (c := c₀) h hguards hpayload
      refine ⟨s, .refused e, hrefused.serves, .inr ⟨?_, e, rfl⟩⟩
      rw [hsatisfied, hpayload]
      rintro ⟨payload, hsome, -⟩
      cases hsome
    | some payload =>
      obtain ⟨s₁, haccount⟩ := account_quietly (E := E) (c := c₀) h hguards hpayload
      have hall : r.Satisfied jwt s ↔ s.db.accountActive payload.sub = true ∧
          ∀ g ∈ left, r.Passes s payload g := by
        simp [hsatisfied, hpayload, Request.Passes]
      cases hactive : s.db.accountActive payload.sub with
      | false =>
        rw [hactive] at haccount hall
        refine ⟨s₁, _, haccount.serves, .inr ⟨?_, _, rfl⟩⟩
        simp [hall]
      | true =>
        rw [hactive] at haccount hall
        have hc : Passage.Of payload { c₀ with left, user := some (.of payload) } :=
          ⟨rfl, use_payload hpayload⟩
        have hserved : ∃ s' st', r.Serves E jwt s₁ (.guarding _) s' st' ∧
            r.Ends s₁ payload left st' :=
          guards_end left haccount.agrees rfl (fun g hg => hguards ▸ List.mem_cons_of_mem _ hg)
            hnotMem hc
        obtain ⟨s', st', hserves, hends⟩ := hserved
        refine ⟨s', st', haccount.serves.trans hserves, ?_⟩
        have hiff : r.Satisfied jwt s ↔ ∀ g ∈ left, r.Passes s₁ payload g := by
          simp [hall, passes_congr haccount.db]
        rw [hiff]
        exact hends

/-- Alone, with caches that agree with the database, a request that the limiter lets through is
admitted if it has what its guards want; any other is refused. -/
theorem served_alone (E : AccessEnv) (jwt : JwtService) (r : Request) (s : Api) (h : s.Agrees) :
    ∃ s' st', r.Serves E jwt s .arriving s' st' ∧
      ((r.isBlocked E s = false ∧ r.Satisfied jwt s) ∧ (∃ c, st' = .admitted c) ∨
        ¬ (r.isBlocked E s = false ∧ r.Satisfied jwt s) ∧ ∃ e, st' = .refused e) := by
  -- the limiter counts the request, whatever it answers
  let counted := s.setHits r.process (s.hits r.process ++ [⟨r.route.toEndpoint, r.ip, s.now⟩])
  by_cases hblocked : r.isBlocked E s = true
  · have hstep : r.step E jwt s .arriving = some (counted, .refused throttled) := by
      simp only [Request.step, if_pos hblocked]
      rfl
    refine ⟨counted, _, .single hstep, .inr ⟨fun hboth => ?_, _, rfl⟩⟩
    rw [hblocked] at hboth
    cases hboth.1
  · have hstep : r.step E jwt s .arriving = some (counted, .guarding
        { store := TenantContextMiddleware.use jwt s.now r.authorization, left := r.route.guards }) := by
      simp only [Request.step, if_neg hblocked]
      rfl
    have hagrees : counted.Agrees := ⟨h.status, h.entitlements⟩
    obtain ⟨s', st', hserves, hends⟩ := guarded_alone E jwt r counted hagrees
    refine ⟨s', st', .head hstep hserves, ?_⟩
    have hsatisfied : r.Satisfied jwt counted ↔ r.Satisfied jwt s := Iff.rfl
    rw [hsatisfied] at hends
    have hfree : r.isBlocked E s = false := by simpa using hblocked
    simpa [hfree] using hends

/-- A request stops in one state at most. -/
theorem serves_unique {E : AccessEnv} {jwt : JwtService} {r : Request} {s s₁ s₂ : Api}
    {st st₁ st₂ : RequestState} (h₁ : r.Serves E jwt s st s₁ st₁) (h₂ : r.Serves E jwt s st s₂ st₂)
    (hstop₁ : r.step E jwt s₁ st₁ = none) (hstop₂ : r.step E jwt s₂ st₂ = none) : st₁ = st₂ := by
  have h := Transition.stop_unique h₁ h₂ hstop₁ hstop₂
  exact congrArg Prod.snd h

/-- The guards are exact: alone, with caches that agree with the database, a request passes them if and
only if the limiter lets it through and its token, account and enterprise have what the guards of its
route want. -/
theorem admitted_iff (E : AccessEnv) (jwt : JwtService) (r : Request) (s : Api) (h : s.Agrees) :
    (∃ s' c, r.Serves E jwt s .arriving s' (.admitted c)) ↔
      r.isBlocked E s = false ∧ r.Satisfied jwt s := by
  obtain ⟨s₀, st₀, hserves, ⟨hsatisfied, c₀, rfl⟩ | ⟨hnot, e, rfl⟩⟩ := served_alone E jwt r s h
  · exact ⟨fun _ => hsatisfied, fun _ => ⟨s₀, c₀, hserves⟩⟩
  · refine ⟨?_, fun hsatisfied => absurd hsatisfied hnot⟩
    rintro ⟨s', c, hadmitted⟩
    cases serves_unique hserves hadmitted rfl rfl

theorem Starts.agrees {P : ApiPool} (h : Starts P) : P.shared.Agrees where
  status process userId active hhit := by
    obtain ⟨t, ht, -⟩ := Expiring.Entries.hit_eq_some.1 hhit
    rw [statusEntries_eq_some, h.statusCache process] at ht
    cases ht
  entitlements process tenantId value hhit := by
    obtain ⟨t, ht, -⟩ := Expiring.Entries.hit_eq_some.1 hhit
    rw [entitlementEntries_eq_some, h.entitlements process] at ht
    cases ht

theorem admitted_iff_sample :
    ∃ s' c, (samplePool.threads 0).1.Serves sampleEnv sampleJwt samplePool.shared .arriving s'
      (.admitted c) := by
  refine (admitted_iff sampleEnv sampleJwt _ _ samplePool_starts.agrees).2
    ⟨by decide +kernel, .inr ⟨⟨10, some 1, false⟩, by decide +kernel, fun g hg => ?_⟩⟩
  have hguard : g ∈ [Guard.jwtAuth, .permissions, .subscriptionAccess, .limit] := hg
  simp only [List.mem_cons, List.not_mem_nil, or_false] at hguard
  rcases hguard with rfl | rfl | rfl | rfl
  · exact (by decide +kernel : sampleDb.accountActive 10 = true)
  · exact ⟨.usersManage, 1, rfl, rfl, (4, 30), by decide, by decide +kernel⟩
  · refine .inr ⟨1, rfl, ?_⟩
    rintro ⟨status, hmem, hstatus⟩
    cases (show some Billing.SubscriptionStatus.active = some status from hstatus)
    simp [blockingStatuses] at hmem
  · refine ⟨"users", 1, rfl, rfl, fun max hmax => ⟨Entitlement.usersOf, rfl, ?_⟩⟩
    cases (show some (some (5 : Int)) = some (some max) from hmax)
    decide +kernel

end Gescom.Access
