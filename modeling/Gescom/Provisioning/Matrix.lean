import Gescom.Access.Alone
import Gescom.Provisioning.Alone

/-!
# What the members of a default role may do

In a sound database the guards know the default roles by their permissions alone: a member of one gets
through to a handler that asks for a permission exactly when the role has it.
-/

namespace Gescom.Provisioning

open Access (PermissionKey DefaultRoleName defaultRolePermissions Request Api ApiPool AccessEnv JwtStable
  Endpoint RequestState Passage blocked controllers)
open Auth (JwtService AccessToken)
open Transition UniqueRows

/-- The tables that the guards read hold these rows. -/
structure Shows (rows : List Row) (db : Access.Db) : Prop where
  permission : ∀ p, p ∈ db.permissions.rows ↔ .permission p ∈ rows
  role : ∀ r : Auth.Role, r ∈ db.auth.roles.rows ↔
    ∃ role, .role role ∈ rows ∧ role.id = r.id ∧ role.enterpriseId = r.enterpriseId
  rolePermission : ∀ g, g ∈ db.rolePermissions ↔ .rolePermission g.1 g.2 ∈ rows
  userRole : ∀ g, g ∈ db.auth.userRoles ↔ .userRole g.1 g.2 ∈ rows

def Row.permission? : Row → Option Access.Permission
  | .permission p => some p
  | _ => none

def Row.role? : Row → Option Auth.Role
  | .role r => some ⟨r.id, r.enterpriseId⟩
  | _ => none

def Row.rolePermission? : Row → Option (Uuid × Uuid)
  | .rolePermission roleId permissionId => some (roleId, permissionId)
  | _ => none

def Row.userRole? : Row → Option (Uuid × Uuid)
  | .userRole userId roleId => some (userId, roleId)
  | _ => none

/-- The tables that the guards read, from those of a registration. -/
def Db.access (db : Db) (auth : Auth.Db) (billing : Entitlement.Db) : Access.Db where
  auth :=
    { auth with
      roles := ⟨db.rows.rows.filterMap Row.role?, db.rows.nodup_filterMap (.id .roles ·)
        (fun r role h => by cases r <;> cases h; simp [Row.entries, Keyed.key])⟩
      userRoles := db.rows.rows.filterMap Row.userRole? }
  billing
  permissions := ⟨db.rows.rows.filterMap Row.permission?, db.rows.nodup_filterMap (.id .permissions ·)
    (fun r p h => by cases r <;> cases h; simp [Row.entries, Keyed.key])⟩
  rolePermissions := db.rows.rows.filterMap Row.rolePermission?

theorem shows_access (db : Db) (auth : Auth.Db) (billing : Entitlement.Db) :
    Shows db.permanent (db.access auth billing) where
  permission p := by
    simp only [Db.access, Db.permanent, List.mem_filterMap, List.mem_map]
    refine exists_congr fun r => and_congr_right fun _ => ?_
    cases r <;> simp [Row.permission?, Row.permanent]
  role r := by
    simp only [Db.access, Db.permanent, List.mem_filterMap, List.mem_map]
    constructor
    · rintro ⟨row, hrow, h⟩
      cases row <;> cases h
      exact ⟨_, ⟨_, hrow, rfl⟩, rfl, rfl⟩
    · rintro ⟨role, ⟨row, hrow, h⟩, hid, he⟩
      cases row <;> cases h
      exact ⟨_, hrow, by simp [Row.role?, hid, he]⟩
  rolePermission g := by
    simp only [Db.access, Db.permanent, List.mem_filterMap, List.mem_map]
    refine exists_congr fun r => and_congr_right fun _ => ?_
    cases r <;> simp [Row.rolePermission?, Row.permanent, Prod.ext_iff]
  userRole g := by
    simp only [Db.access, Db.permanent, List.mem_filterMap, List.mem_map]
    refine exists_congr fun r => and_congr_right fun _ => ?_
    cases r <;> simp [Row.userRole?, Row.permanent, Prod.ext_iff]

/-- In a sound database, the user has this default role of the enterprise and no other. -/
structure Member (rows : List Row) (db : Access.Db) (userId : Uuid) (e : Enterprise) (r : Role)
    (name : DefaultRoleName) : Prop where
  sound : Sound rows
  shows : Shows rows db
  enterprise : .enterprise e ∈ rows
  role : .role r ∈ rows
  enterpriseId : r.enterpriseId = e.id
  name : r.name = name.name
  only : ∀ roleId, .userRole userId roleId ∈ rows ↔ roleId = r.id

def HasRole (db : Access.Db) (userId enterpriseId : Uuid) (name : DefaultRoleName) : Prop :=
  ∃ rows e r, Member rows db userId e r name ∧ e.id = enterpriseId

section
variable {rows : List Row} {db : Access.Db} {userId enterpriseId : Uuid} {e : Enterprise} {r : Role}
  {name : DefaultRoleName} {key : PermissionKey}

theorem Member.hasExactly (h : Member rows db userId e r name) :
    HasExactly rows r.id (defaultRolePermissions name) := by
  obtain ⟨name', hname, hexact⟩ :=
    (h.sound.complete e h.enterprise).permissions r h.role h.enterpriseId
  obtain rfl : name = name' := Access.DefaultRoleName.name_injective (h.name ▸ hname)
  exact hexact

theorem Member.find_role (h : Member rows db userId e r name) :
    db.auth.roles.find? r.id = some ⟨r.id, e.id⟩ := by
  have hmem : (⟨r.id, e.id⟩ : Auth.Role) ∈ db.auth.roles.rows :=
    (h.shows.role _).2 ⟨r, h.role, rfl, h.enterpriseId⟩
  exact Table.find?_of_mem hmem

theorem grants_iff (h : HasRole db userId enterpriseId name) :
    db.grants userId enterpriseId key ↔ key ∈ defaultRolePermissions name := by
  obtain ⟨rows, e, r, h, rfl⟩ := h
  constructor
  · rintro ⟨g, hg, hgrant⟩
    simp only [Access.Db.isGrant, Bool.and_eq_true, Option.any_eq_true, beq_iff_eq,
      List.contains_iff_mem] at hgrant
    obtain ⟨⟨⟨p, hp, hkey⟩, -⟩, huser⟩ := hgrant
    have hrole : g.1 = r.id := (h.only g.1).1 ((h.shows.userRole _).1 huser)
    have hrow : .rolePermission r.id g.2 ∈ rows := hrole ▸ (h.shows.rolePermission g).1 hg
    obtain ⟨p', hp', hid, hmem⟩ := h.hasExactly.only g.2 hrow
    have hfind : db.permissions.find? p'.id = some p' := Table.find?_of_mem ((h.shows.permission p').2 hp')
    rw [hid, hp] at hfind
    cases hfind
    exact hkey ▸ hmem
  · intro hkey
    obtain ⟨p, hp, rfl, hrow⟩ := h.hasExactly.all key hkey
    refine ⟨(r.id, p.id), (h.shows.rolePermission _).2 hrow, ?_⟩
    have hfind : db.permissions.find? p.id = some p := Table.find?_of_mem ((h.shows.permission p).2 hp)
    have huser : (userId, r.id) ∈ db.auth.userRoles := (h.shows.userRole _).2 ((h.only _).2 rfl)
    simp [Access.Db.isGrant, hfind, h.find_role, huser]

end

/-! ## What the policy says of the roles -/

theorem controllers_superAdmin : ∀ c ∈ controllers, ∀ h ∈ c.handlers,
    (Endpoint.demand ⟨c, h⟩).permission.isSome = true → (Endpoint.demand ⟨c, h⟩).superAdmin = false := by
  decide +kernel

/-- Whatever a permission to read opens is a `GET`. -/
theorem controllers_read : ∀ c ∈ controllers, ∀ h ∈ c.handlers,
    ∀ key ∈ (Endpoint.demand ⟨c, h⟩).permission, key ∈ Access.allRead → h.method = .get := by
  decide +kernel

theorem managed_admin {name : DefaultRoleName} {key : PermissionKey}
    (hkey : key ∈ [PermissionKey.usersManage, .settingsManage, .billingManage])
    (h : key ∈ defaultRolePermissions name) : name = .admin := by
  revert key
  cases name <;> decide

/-! ## In every run -/

/-- The user is a member of the role at every step. -/
def Remains (userId enterpriseId : Uuid) (name : DefaultRoleName) (P : ApiPool)
    (_ : Act Access.Answer Access.Outside) : Prop :=
  HasRole P.shared.db userId enterpriseId name

/-- While a user is a member of a default role, whatever else happens, he reaches a handler that asks
for a permission only if the role has it. -/
theorem role_confined (E : AccessEnv) (jwt : JwtService) (user : Access.AuthenticatedUser)
    (enterpriseId : Uuid) (henterprise : user.enterpriseId = some enterpriseId)
    (name : DefaultRoleName) (P₀ P : ApiPool) (h0 : Access.Starts P₀)
    (h : Reach (Access.api E jwt).system (Remains user.id enterpriseId name) P₀ P)
    (hend : HasRole P.shared.db user.id enterpriseId name) (pid : Nat) (r : Request) (c : Passage)
    (hadmitted : P.threads pid = (r, .admitted c)) (huser : c.user = some user)
    (key : PermissionKey) (hdemand : r.route.demand.permission = some key) :
    key ∈ defaultRolePermissions name ∧ (name = .lecteur → r.method = .get ∨ r.method = .head) ∧
      (key ∈ [PermissionKey.usersManage, .settingsManage, .billingManage] → name = .admin) := by
  have hc : c.Ok E jwt (Remains user.id enterpriseId name) P₀ pid r [] P := by
    have hrequest := (Access.ok_reach h0 h).requests pid
    rwa [hadmitted] at hrequest
  obtain ⟨done, hguards, hdone⟩ := hc.behind
  rw [List.append_nil] at hguards
  have hr := r.route.guarded
  have hmem : Access.Guard.permissions ∈ r.route.guards := by
    simp [hr.guards, Access.Demand.guards, hdemand]
  obtain ⟨user', enterpriseId', huser', henterprise', hgrants⟩ :=
    hdone .permissions (hguards ▸ hmem) key (hr.permission.trans hdemand)
  cases huser.symm.trans huser'
  cases henterprise.symm.trans henterprise'
  obtain ⟨Q, -, ⟨-, hgrant⟩, hP⟩ := hgrants
  have hrole : HasRole Q.shared.db user.id enterpriseId name := by
    rcases hP.first with rfl | ⟨a, hstays⟩
    · exact hend
    · exact hstays
  have hkey : key ∈ defaultRolePermissions name := (grants_iff hrole).1 hgrant
  refine ⟨hkey, fun hname => ?_, fun hmanaged => managed_admin hmanaged hkey⟩
  subst hname
  have hget : r.route.handler.method = .get :=
    controllers_read r.route.controller r.route.declared r.route.handler r.route.mem key
      (Option.mem_def.2 hdemand) hkey
  rcases r.served with hmethod | ⟨hmethod, -⟩
  · exact .inl (hmethod.trans hget)
  · exact .inr hmethod

/-! ## And alone -/

/-- What else the route asks for. -/
structure Entitled (r : Request) (s : Api) (enterpriseId : Uuid) : Prop where
  feature : ∀ key, r.route.demand.feature = some key →
    key ∈ (s.db.billing.resolve enterpriseId).features
  subscription : r.route.demand.subscription = true →
    r.method = .get ∨ ¬ blocked (s.db.billing.resolve enterpriseId)
  limit : ∀ key, r.route.demand.limit = some key → ∀ max,
    (s.db.billing.resolve enterpriseId).limit key = some (some max) →
      ∃ counter, Entitlement.usageCounters.lookup key = some counter ∧
        (counter enterpriseId s.db.auth : Int) < max

theorem satisfied_iff {jwt : JwtService} {r : Request} {s : Api} {payload : AccessToken}
    {enterpriseId : Uuid} {name : DefaultRoleName} {key : PermissionKey}
    (hpayload : r.payload jwt s = some payload) (henterprise : payload.enterpriseId = some enterpriseId)
    (hrole : HasRole s.db payload.sub enterpriseId name)
    (hdemand : r.route.demand.permission = some key) :
    r.Satisfied jwt s ↔ s.db.accountActive payload.sub = true ∧
      key ∈ defaultRolePermissions name ∧ Entitled r s enterpriseId := by
  have hr := r.route.guarded
  have hpermissions : Access.Guard.permissions ∈ r.route.guards := by
    simp [hr.guards, Access.Demand.guards, hdemand]
  have hjwt := Access.Route.jwtAuth_mem hpermissions
  have hsuper : r.route.demand.superAdmin = false :=
    controllers_superAdmin r.route.controller r.route.declared r.route.handler r.route.mem
      (Option.isSome_iff_exists.2 ⟨key, hdemand⟩)
  constructor
  · rintro (hnone | ⟨payload', hpayload', hall⟩)
    · rw [hnone] at hjwt
      cases hjwt
    cases hpayload.symm.trans hpayload'
    refine ⟨hall .jwtAuth hjwt, ?_, fun feature hd => ?_, fun hd => ?_, fun limit hd max hmax => ?_⟩
    · obtain ⟨key', enterpriseId', hkey', hid, hgrants⟩ := hall .permissions hpermissions
      cases henterprise.symm.trans hid
      cases hkey'.symm.trans (hr.permission.trans hdemand)
      exact (grants_iff hrole).1 hgrants
    · have hmem : Access.Guard.feature ∈ r.route.guards := by
        simp [hr.guards, Access.Demand.guards, hd]
      obtain ⟨feature', enterpriseId', hfeature, hid, hin⟩ := hall .feature hmem
      cases henterprise.symm.trans hid
      cases hfeature.symm.trans (hr.feature.trans hd)
      exact hin
    · have hmem : Access.Guard.subscriptionAccess ∈ r.route.guards := by
        simp [hr.guards, Access.Demand.guards, hd]
      rcases hall .subscriptionAccess hmem with hget | ⟨enterpriseId', hid, hopen⟩
      · exact .inl hget
      · cases henterprise.symm.trans hid
        exact .inr hopen
    · have hmem : Access.Guard.limit ∈ r.route.guards := by
        simp [hr.guards, Access.Demand.guards, hd]
      obtain ⟨limit', enterpriseId', hlimit, hid, hcount⟩ := hall .limit hmem
      cases henterprise.symm.trans hid
      cases hlimit.symm.trans (hr.limit.trans hd)
      exact hcount max hmax
  · rintro ⟨hactive, hkey, hentitled⟩
    refine .inr ⟨payload, hpayload, fun g hg => ?_⟩
    cases g with
    | jwtAuth => exact hactive
    | superAdmin =>
      simp [hr.guards, Access.Demand.guards, hsuper] at hg
    | permissions =>
      exact ⟨key, enterpriseId, hr.permission.trans hdemand, henterprise, (grants_iff hrole).2 hkey⟩
    | feature =>
      obtain ⟨feature, hfeature⟩ := hr.feature_of_mem hg
      exact ⟨feature, enterpriseId, hfeature, henterprise,
        hentitled.feature feature (hr.feature.symm.trans hfeature)⟩
    | subscriptionAccess =>
      have hd : r.route.demand.subscription = true := by
        simpa [hr.guards, Access.Demand.guards] using hg
      rcases hentitled.subscription hd with hget | hopen
      · exact .inl hget
      · exact .inr ⟨enterpriseId, henterprise, hopen⟩
    | limit =>
      obtain ⟨limit, hlimit⟩ := hr.limit_of_mem hg
      exact ⟨limit, enterpriseId, hlimit, henterprise,
        hentitled.limit limit (hr.limit.symm.trans hlimit)⟩

/-- A member of a default role whose account is active is admitted, alone, exactly when the limiter lets
the request through, the role has the permission and the enterprise what else the route asks for. -/
theorem role_exact (E : AccessEnv) (jwt : JwtService) (r : Request) (s : Api) (h : s.Agrees)
    (payload : AccessToken) (hpayload : r.payload jwt s = some payload) (enterpriseId : Uuid)
    (henterprise : payload.enterpriseId = some enterpriseId) (name : DefaultRoleName)
    (hrole : HasRole s.db payload.sub enterpriseId name)
    (hactive : s.db.accountActive payload.sub = true) (key : PermissionKey)
    (hdemand : r.route.demand.permission = some key) :
    (∃ s' c, r.Serves E jwt s .arriving s' (.admitted c)) ↔
      r.isBlocked E s = false ∧ key ∈ defaultRolePermissions name ∧ Entitled r s enterpriseId := by
  have hiff := satisfied_iff hpayload henterprise hrole hdemand
  simp only [hactive, true_and] at hiff
  rw [← hiff]
  obtain ⟨s₀, st₀, hserves, ⟨hsatisfied, c₀, rfl⟩ | ⟨hnot, e, rfl⟩⟩ := Access.served_alone E jwt r s h
  · exact ⟨fun _ => hsatisfied, fun _ => ⟨s₀, c₀, hserves⟩⟩
  · refine ⟨?_, fun hsatisfied => absurd hsatisfied hnot⟩
    rintro ⟨s', c, hadmitted⟩
    cases Access.serves_unique hserves hadmitted rfl rfl

/-! ## The first user of an enterprise -/

def samplePlan : Plan := ⟨1, true, 14⟩

def sampleRegistration : List Row :=
  (sampleCall 0).registration sampleServices samplePlan sampleDb.now sampleDb.permissionIdByKey

theorem sampleRegistration_admissible :
    Admissible sampleServices (sampleCall 0) sampleDb.permanent sampleRegistration samplePlan
      sampleDb.now sampleDb.permissionIdByKey where
  eq := rfl
  unique := nodup_registration (sampleCall_fresh (by decide)) (oneKey sampleDb)
  untaken r hr k hk r' hr' hk' := by
    have hfree : sampleDb.rows.taken k = false :=
      untaken_registration (sampleCall_fresh (by decide)) sampleDb_sound (by decide +kernel)
        (List.mem_flatMap.2 ⟨r, hr, hk⟩)
    rw [Db.taken_iff.2 ⟨r', hr', hk'⟩] at hfree
    cases hfree
  catalog := catalog_of_found (by decide +kernel)

theorem sampleRegistration_unique :
    ((sampleDb.rows.rows ++ sampleRegistration).flatMap Row.entries).Nodup := by
  rw [List.flatMap_append, List.nodup_append']
  refine ⟨sampleDb.rows.unique, sampleRegistration_admissible.unique, fun k hk hk' => ?_⟩
  obtain ⟨r, hr, hkr⟩ := List.mem_flatMap.1 hk
  obtain ⟨r', hr', hkr'⟩ := List.mem_flatMap.1 hk'
  exact sampleRegistration_admissible.untaken r' hr' k hkr' _ (List.mem_map_of_mem hr)
    (by rwa [entries_permanent])

/-- The database after the registration of `sampleCall 0`. -/
def registeredDb : Db :=
  { sampleDb with rows := ⟨sampleDb.rows.rows ++ sampleRegistration, sampleRegistration_unique⟩ }

theorem registeredDb_sound : Sound registeredDb.permanent := by
  have hsound := sampleRegistration_admissible.sound sampleDb_sound
  rwa [Db.permanent, ← List.map_append] at hsound

/-- The tokens of the user that the registration creates. -/
def adminJwt : JwtService where
  verify issuer audience _ token :=
    if token = "1000" then
      some { sub := 1000, typ := some Auth.accessTokenType, enterpriseId := some 1000, issuer, audience,
             expiresAt := 900000 }
    else none

def settingsRoute : Access.Route where
  controller := Access.settingsController
  handler := { name := "list", method := .get, metadata := { requiredPermission := some .settingsManage } }
  declared := by decide +kernel
  mem := by decide +kernel

def adminRequest : Request where
  process := 0
  route := settingsRoute
  method := .get
  served := .inl rfl
  authorization := some "Bearer 1000"
  ip := "127.0.0.1"

def adminAuth : Auth.Db where
  users := ⟨[{ id := 1000, email := "awa@example.sn", passwordHash := "secret", enterpriseId := some 1000,
               isSuperAdmin := false, identity := rfl, status := .active }], by decide⟩
  enterprises := ⟨[⟨1000, .active⟩], by decide⟩
  refreshTokens := Table.empty
  authTokens := Table.empty
  now := 5

def adminPool : ApiPool where
  shared :=
    { db := registeredDb.access adminAuth ⟨Table.empty, Table.empty, Table.empty⟩
      statusCache := fun _ => Table.empty
      entitlements := fun _ => Table.empty }
  threads _ := (adminRequest, .arriving)

theorem adminPool_starts : Access.Starts adminPool := ⟨fun _ => rfl, fun _ => rfl, fun _ => rfl⟩

theorem admin_hasRole : HasRole adminPool.shared.db 1000 1000 .admin := by
  have hmem : ∀ r ∈ sampleRegistration, r.permanent ∈ registeredDb.permanent :=
    fun r hr => List.mem_map_of_mem (List.mem_append_right _ hr)
  have hadm := sampleRegistration_admissible
  refine ⟨registeredDb.permanent, (sampleCall 0).linkedEnterprise, (sampleCall 0).role .admin,
    ⟨registeredDb_sound, shows_access _ _ _, hmem _ hadm.mem_enterprise, hmem _ (hadm.mem_role .admin),
      rfl, rfl, fun roleId => ⟨fun h => ?_, ?_⟩⟩, rfl⟩
  · obtain ⟨r, hr, heq⟩ := List.mem_map.1 h
    cases r <;> cases heq
    rcases List.mem_append.1 hr with hr | hr
    · simp [sampleDb, samplePermissions] at hr
    · rw [sampleRegistration, mem_registration] at hr
      have hids : 1000 = (sampleCall 0).draws.user ∧ roleId = (sampleCall 0).draws.role .admin := by
        simpa [Call.rolePermissions, Call.accounts] using hr
      exact hids.2
  · rintro rfl
    exact hmem _ hadm.mem_userRole

theorem role_exact_sample :
    ∃ s' c, adminRequest.Serves Access.sampleEnv adminJwt adminPool.shared .arriving s' (.admitted c) := by
  have hfeature : adminRequest.route.demand.feature = none := by decide +kernel
  have hsubscription : adminRequest.route.demand.subscription = false := by decide +kernel
  have hlimit : adminRequest.route.demand.limit = none := by decide +kernel
  refine (role_exact Access.sampleEnv adminJwt adminRequest adminPool.shared adminPool_starts.agrees
    ⟨1000, some 1000, false⟩ (by decide +kernel) 1000 rfl .admin admin_hasRole (by decide +kernel)
    .settingsManage (by decide +kernel)).2 ⟨by decide +kernel, by decide, ?_, ?_, ?_⟩
  · simp [hfeature]
  · simp [hsubscription]
  · simp [hlimit]

/-- A step of a request leaves the database. -/
def isRun (_ : ApiPool) : Act Access.Answer Access.Outside → Bool
  | .run _ _ => true
  | .env _ => false

theorem db_of_runs {E : AccessEnv} {jwt : JwtService} {P₀ P : ApiPool}
    (h : Reach (Access.api E jwt).system (fun P a => isRun P a = true) P₀ P) : P.shared.db = P₀.shared.db := by
  refine h.inv (fun Q => Q.shared.db = P₀.shared.db) rfl fun Q a Q' _ ih hrun hst => ?_
  cases a with
  | env x => cases hrun
  | run pid i =>
    obtain ⟨s, t, hth, rfl⟩ := Machine.run_eq_some.1 hst
    obtain ⟨⟨s', st'⟩, hstep, hans⟩ := Option.map_eq_some_iff.1 hth
    have hleaves := (Access.step_leaves hstep).db
    cases i <;> cases hans
    · exact hleaves.trans ih
    · exact ih

theorem role_confined_sample :
    ∃ P c, Reach (Access.api Access.sampleEnv adminJwt).system (Remains 1000 1000 .admin) adminPool P ∧
      P.threads 0 = (adminRequest, .admitted c) ∧
      PermissionKey.settingsManage ∈ defaultRolePermissions .admin := by
  have hrun : (exec (Access.api Access.sampleEnv adminJwt).system isRun adminPool
      (List.replicate 7 (.run 0 .proceed))).map (fun P => (P.threads 0).2.user?) =
      some (some (some ⟨1000, some 1000, false⟩)) := by decide +kernel
  obtain ⟨P, hP, hres⟩ := Option.map_eq_some_iff.1 hrun
  obtain ⟨c, hc, huser⟩ := Access.RequestState.user?_eq_some hres
  have hruns : Reach (Access.api Access.sampleEnv adminJwt).system (fun P a => isRun P a = true)
      adminPool P := Reach.of_exec isRun (fun _ _ h => h) _ hP
  have hrole : ∀ Q, Reach (Access.api Access.sampleEnv adminJwt).system (fun P a => isRun P a = true)
      adminPool Q → HasRole Q.shared.db 1000 1000 .admin :=
    fun Q hQ => db_of_runs hQ ▸ admin_hasRole
  have hreach : Reach (Access.api Access.sampleEnv adminJwt).system (Remains 1000 1000 .admin)
      adminPool P := hruns.restrict fun Q a hQ _ => hrole Q hQ
  have hthread : P.threads 0 = (adminRequest, .admitted c) :=
    Prod.ext (Access.request_reach hreach 0) hc
  exact ⟨P, c, hreach, hthread, (role_confined Access.sampleEnv adminJwt ⟨1000, some 1000, false⟩ 1000
    rfl .admin adminPool P adminPool_starts hreach (hrole P hruns) 0 adminRequest c hthread huser
    .settingsManage (by decide +kernel)).1⟩

end Gescom.Provisioning
