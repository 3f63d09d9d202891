import Gescom.Provisioning.Register

/-!
# What a new enterprise has

`Complete` says what the rows of one registration amount to, `Sound` that every enterprise is complete
and every foreign key resolved. Both are about the permanent columns, so that the updates of other
services leave them; `Sound.register` and `Sound.foreign` say what inserts do.
-/

namespace Gescom.Provisioning

open Access (PermissionKey DefaultRoleName defaultRoleNames defaultRolePermissions)
open ReadCommitted UniqueRows

/-- The role has these permissions and no others. -/
structure HasExactly (rows : List Row) (roleId : Uuid) (keys : List PermissionKey) : Prop where
  all : ∀ key ∈ keys, ∃ p, .permission p ∈ rows ∧ p.key = key ∧ .rolePermission roleId p.id ∈ rows
  only : ∀ permissionId, .rolePermission roleId permissionId ∈ rows →
    ∃ p, .permission p ∈ rows ∧ p.id = permissionId ∧ p.key ∈ keys

structure Complete (rows : List Row) (e : Enterprise) : Prop where
  subscription : ∃ s, .subscription s ∈ rows ∧ s.enterpriseId = e.id ∧
    e.currentSubscriptionId = some s.id
  role : ∀ name : DefaultRoleName, ∃ r, .role r ∈ rows ∧ r.enterpriseId = e.id ∧ r.name = name.name
  permissions : ∀ r, .role r ∈ rows → r.enterpriseId = e.id →
    ∃ name : DefaultRoleName, r.name = name.name ∧ HasExactly rows r.id (defaultRolePermissions name)
  admin : ∃ u r, .user u ∈ rows ∧ u.enterpriseId = some e.id ∧ .role r ∈ rows ∧
    r.enterpriseId = e.id ∧ r.name = DefaultRoleName.admin.name ∧ .userRole u.id r.id ∈ rows
  accounts : ∀ account ∈ syscohadaAccountClasses, ∃ a, .account a ∈ rows ∧
    a.enterpriseId = e.id ∧ a.code = account.1
  setting : ∃ s, .setting s ∈ rows ∧ s.enterpriseId = e.id ∧ s.key = "commercial.defaults"
  auditLog : ∃ l, .auditLog l ∈ rows ∧ l.enterpriseId = e.id ∧ l.action = "ENTERPRISE_PROVISIONED"

/-- Every enterprise is complete, and every foreign key names a row. -/
structure Sound (rows : List Row) : Prop where
  complete : ∀ e, .enterprise e ∈ rows → Complete rows e
  grounded : ∀ r ∈ rows, ∀ k ∈ r.references, ∃ r' ∈ rows, k ∈ r'.entries

/-! ## More rows -/

variable {rows new : List Row} {e : Enterprise}

theorem HasExactly.append {roleId : Uuid} {keys : List PermissionKey} (h : HasExactly rows roleId keys)
    (hnew : ∀ permissionId, .rolePermission roleId permissionId ∉ new) :
    HasExactly (rows ++ new) roleId keys where
  all key hkey := by
    obtain ⟨p, hp, hk, hr⟩ := h.all key hkey
    exact ⟨p, List.mem_append_left _ hp, hk, List.mem_append_left _ hr⟩
  only permissionId hmem := by
    rcases List.mem_append.1 hmem with hold | hin
    · obtain ⟨p, hp, hk⟩ := h.only permissionId hold
      exact ⟨p, List.mem_append_left _ hp, hk⟩
    · exact absurd hin (hnew permissionId)

/-- Rows that bring neither a role nor a permission to an enterprise leave it complete. -/
theorem Complete.append (h : Complete rows e)
    (hrole : ∀ r, .role r ∈ new → r.enterpriseId ≠ e.id)
    (hgrant : ∀ r permissionId, .role r ∈ rows → r.enterpriseId = e.id →
      .rolePermission r.id permissionId ∉ new) : Complete (rows ++ new) e where
  subscription := by
    obtain ⟨s, hs, h'⟩ := h.subscription
    exact ⟨s, List.mem_append_left _ hs, h'⟩
  role name := by
    obtain ⟨r, hr, h'⟩ := h.role name
    exact ⟨r, List.mem_append_left _ hr, h'⟩
  permissions r hr he := by
    rcases List.mem_append.1 hr with hold | hin
    · obtain ⟨name, hname, hexact⟩ := h.permissions r hold he
      exact ⟨name, hname, hexact.append fun permissionId => hgrant r permissionId hold he⟩
    · exact absurd he (hrole r hin)
  admin := by
    obtain ⟨u, r, hu, heu, hr, her, hname, hur⟩ := h.admin
    exact ⟨u, r, List.mem_append_left _ hu, heu, List.mem_append_left _ hr, her, hname,
      List.mem_append_left _ hur⟩
  accounts account ha := by
    obtain ⟨a, ha, h'⟩ := h.accounts account ha
    exact ⟨a, List.mem_append_left _ ha, h'⟩
  setting := by
    obtain ⟨s, hs, h'⟩ := h.setting
    exact ⟨s, List.mem_append_left _ hs, h'⟩
  auditLog := by
    obtain ⟨l, hl, h'⟩ := h.auditLog
    exact ⟨l, List.mem_append_left _ hl, h'⟩

theorem Sound.append (h : Sound rows)
    (hgrounded : ∀ r ∈ new, ∀ k ∈ r.references, ∃ r' ∈ rows ++ new, k ∈ r'.entries)
    (hrole : ∀ e r, .enterprise e ∈ rows → .role r ∈ new → r.enterpriseId ≠ e.id)
    (hgrant : ∀ r permissionId, .role r ∈ rows → .rolePermission r.id permissionId ∉ new)
    (hnew : ∀ e, .enterprise e ∈ new → Complete (rows ++ new) e) : Sound (rows ++ new) where
  complete e he := by
    rcases List.mem_append.1 he with hold | hin
    · exact (h.complete e hold).append (fun r hr => hrole e r hold hr)
        fun r permissionId hr _ => hgrant r permissionId hr
    · exact hnew e hin
  grounded r hr k hk := by
    rcases List.mem_append.1 hr with hold | hin
    · obtain ⟨r', hr', hk'⟩ := h.grounded r hold k hk
      exact ⟨r', List.mem_append_left _ hr', hk'⟩
    · exact hgrounded r hin k hk

/-- Other services bring no enterprise, no role and no permission. -/
theorem Sound.foreign (h : Sound rows) (hforeign : ∀ r ∈ new, r.foreign = true)
    (hgrounded : ∀ r ∈ new, ∀ k ∈ r.references, ∃ r' ∈ rows ++ new, k ∈ r'.entries) :
    Sound (rows ++ new) := by
  refine h.append hgrounded (fun e r _ hr => ?_) (fun r permissionId _ hr => ?_) fun e he => ?_
  · cases hforeign _ hr
  · cases hforeign _ hr
  · cases hforeign _ he

/-! ## The rows of a registration -/

/-- What a call commits. -/
def Call.registration (S : Auth.Services) (c : Call) (plan : Plan) (startDate : Instant)
    (permissionIdByKey : PermissionKey → Option Uuid) : List Row :=
  c.opening (c.subscription plan startDate) ++ [.user (c.user S)] ++
    (c.statements permissionIdByKey).flatten

variable {S : Auth.Services} {c : Call} {plan : Plan} {startDate : Instant}
  {permissionIdByKey : PermissionKey → Option Uuid} {r : Row}

theorem mem_seedRole {name : DefaultRoleName} :
    r ∈ (c.seedRole permissionIdByKey name).flatten ↔
      r = .role (c.role name) ∨ r ∈ c.rolePermissions permissionIdByKey name ∨
        name = .admin ∧ r = .userRole c.draws.user (c.draws.role name) := by
  simp only [Call.seedRole]
  split <;> split <;> simp_all

theorem mem_registration :
    r ∈ c.registration S plan startDate permissionIdByKey ↔
      r = .enterprise c.linkedEnterprise ∨ r = .subscription (c.subscription plan startDate) ∨
      r = .user (c.user S) ∨ (∃ name, r = .role (c.role name)) ∨
      (∃ name, r ∈ c.rolePermissions permissionIdByKey name) ∨
      r = .userRole c.draws.user (c.draws.role .admin) ∨ r ∈ c.accounts ∨
      r = .setting c.setting ∨ r = .auditLog c.auditLog := by
  have hroles : (∃ l, (∃ name ∈ defaultRoleNames, l ∈ c.seedRole permissionIdByKey name) ∧ r ∈ l) ↔
      (∃ name, r = .role (c.role name)) ∨ (∃ name, r ∈ c.rolePermissions permissionIdByKey name) ∨
        r = .userRole c.draws.user (c.draws.role .admin) := by
    constructor
    · rintro ⟨l, ⟨name, -, hl⟩, hr⟩
      rcases mem_seedRole.1 (List.mem_flatten.2 ⟨l, hl, hr⟩) with h | h | ⟨rfl, h⟩
      · exact .inl ⟨name, h⟩
      · exact .inr (.inl ⟨name, h⟩)
      · exact .inr (.inr h)
    · have find : ∀ name, r ∈ (c.seedRole permissionIdByKey name).flatten →
          ∃ l, (∃ name ∈ defaultRoleNames, l ∈ c.seedRole permissionIdByKey name) ∧ r ∈ l := by
        intro name h
        obtain ⟨l, hl, hr⟩ := List.mem_flatten.1 h
        exact ⟨l, ⟨name, Access.mem_defaultRoleNames name, hl⟩, hr⟩
      rintro (⟨name, h⟩ | ⟨name, h⟩ | h)
      · exact find name (mem_seedRole.2 (.inl h))
      · exact find name (mem_seedRole.2 (.inr (.inl h)))
      · exact find .admin (mem_seedRole.2 (.inr (.inr ⟨rfl, h⟩)))
  simp only [Call.registration, Call.opening, Call.statements, List.mem_append, List.mem_cons,
    List.not_mem_nil, or_false, List.flatten_append, List.mem_flatten, List.mem_flatMap, hroles,
    exists_eq_or_imp, exists_eq_left, or_assoc]

/-! ## The permanent columns -/

theorem mem_permanent (hr : r ∈ new) : r.permanent ∈ new.map Row.permanent :=
  List.mem_map_of_mem hr

theorem references_permanent (r : Row) : r.permanent.references = r.references := by
  cases r <;> rfl

def Db.permanent (db : Db) : List Row := db.rows.rows.map Row.permanent

theorem Db.taken_iff {db : Db} {k : IndexEntry} :
    db.rows.taken k = true ↔ ∃ r ∈ db.permanent, k ∈ r.entries := by
  simp [Rows.taken_iff, Db.permanent, entries_permanent]

theorem Db.permanent_of_append {db : Db} {new : List Row}
    (h : (db.rows.append new).rows = db.rows.rows ++ new) :
    (db.append new).permanent = db.permanent ++ new.map Row.permanent := by
  simp [Db.permanent, Db.append, h]

theorem role_of_permanent {role : Role} (h : Row.role role ∈ new.map Row.permanent) :
    .role role ∈ new := by
  obtain ⟨r, hr, heq⟩ := List.mem_map.1 h
  cases r <;> cases heq
  exact hr

theorem rolePermission_of_permanent {roleId permissionId : Uuid}
    (h : Row.rolePermission roleId permissionId ∈ new.map Row.permanent) :
    .rolePermission roleId permissionId ∈ new := by
  obtain ⟨r, hr, heq⟩ := List.mem_map.1 h
  cases r <;> cases heq
  exact hr

theorem enterprise_of_permanent (h : Row.enterprise e ∈ new.map Row.permanent) :
    ∃ e', .enterprise e' ∈ new ∧ e'.id = e.id ∧
      e'.currentSubscriptionId = e.currentSubscriptionId := by
  obtain ⟨r, hr, heq⟩ := List.mem_map.1 h
  cases r <;> cases heq
  exact ⟨_, hr, rfl, rfl⟩

/-! ## A registration is complete -/

/-- The read of the permissions found every key. -/
def Catalog (rows : List Row) (permissionIdByKey : PermissionKey → Option Uuid) : Prop :=
  ∀ key, ∃ id, permissionIdByKey key = some id ∧ .permission ⟨id, key⟩ ∈ rows

theorem permissionOf_eq {key : PermissionKey} {id : Uuid} {r : Row}
    (h : Db.permissionOf key r = some id) : r = .permission ⟨id, key⟩ := by
  unfold Db.permissionOf at h
  split at h
  · split at h <;> cases h
    rename_i hkey
    rw [← hkey]
  · cases h

theorem mem_of_permissionIdByKey {db : Db} {key : PermissionKey} {id : Uuid}
    (h : db.permissionIdByKey key = some id) : .permission ⟨id, key⟩ ∈ db.rows.rows := by
  obtain ⟨r, hr, hperm⟩ := List.exists_of_findSome?_eq_some h
  exact permissionOf_eq hperm ▸ hr

theorem catalog_of_found {db : Db}
    (h : requiredKeys.filter (fun key => (db.permissionIdByKey key).isNone) = []) :
    Catalog db.permanent db.permissionIdByKey := by
  intro key
  have hsome := List.filter_eq_nil_iff.1 h key (mem_requiredKeys key)
  obtain ⟨id, hid⟩ := Option.ne_none_iff_exists'.1 (by simpa using hsome)
  exact ⟨id, hid, List.mem_map.2 ⟨_, mem_of_permissionIdByKey hid, rfl⟩⟩

/-- The rows of a registration, and what lets them in. -/
structure Admissible (S : Auth.Services) (c : Call) (rows new : List Row) (plan : Plan)
    (startDate : Instant) (permissionIdByKey : PermissionKey → Option Uuid) : Prop where
  eq : new = c.registration S plan startDate permissionIdByKey
  unique : (new.flatMap Row.entries).Nodup
  untaken : ∀ r ∈ new, ∀ k ∈ r.entries, ∀ r' ∈ rows, k ∉ r'.entries
  catalog : Catalog rows permissionIdByKey

namespace Admissible

variable (h : Admissible S c rows new plan startDate permissionIdByKey)
include h

theorem mem_enterprise : .enterprise c.linkedEnterprise ∈ new :=
  h.eq ▸ mem_registration.2 (.inl rfl)

theorem mem_subscription : .subscription (c.subscription plan startDate) ∈ new :=
  h.eq ▸ mem_registration.2 (.inr (.inl rfl))

theorem mem_user : .user (c.user S) ∈ new := h.eq ▸ mem_registration.2 (.inr (.inr (.inl rfl)))

theorem mem_userRole : .userRole c.draws.user (c.draws.role .admin) ∈ new :=
  h.eq ▸ mem_registration.2 (.inr (.inr (.inr (.inr (.inr (.inl rfl))))))

theorem mem_setting : .setting c.setting ∈ new := by
  rw [h.eq, mem_registration]
  simp

theorem mem_auditLog : .auditLog c.auditLog ∈ new := by
  rw [h.eq, mem_registration]
  simp

theorem mem_role (name : DefaultRoleName) : .role (c.role name) ∈ new :=
  h.eq ▸ mem_registration.2 (.inr (.inr (.inr (.inl ⟨name, rfl⟩))))

/-- No row refers to the new enterprise or to one of its roles. -/
theorem unknown {k : IndexEntry} (hr : r ∈ new) (hk : k ∈ r.entries) (hsound : Sound rows) :
    ∀ r' ∈ rows, k ∉ r'.references := by
  intro r' hr' hk'
  obtain ⟨r'', hr'', hk''⟩ := hsound.grounded r' hr' k hk'
  exact h.untaken r hr k hk r'' hr'' hk''

theorem eq_role {role : Role} (hr : .role role ∈ new) : ∃ name, role = c.role name := by
  rw [h.eq, mem_registration] at hr
  simpa [Call.rolePermissions, Call.accounts] using hr

theorem rolePermission_iff {roleId permissionId : Uuid} :
    .rolePermission roleId permissionId ∈ new ↔ ∃ name, roleId = c.draws.role name ∧
      ∃ key ∈ defaultRolePermissions name, permissionIdByKey key = some permissionId := by
  rw [h.eq, mem_registration]
  simp only [Call.rolePermissions, Call.accounts, List.mem_map, List.mem_filterMap, reduceCtorEq,
    false_or, and_false, exists_false, or_false, Row.rolePermission.injEq, exists_eq_right_right]
  exact exists_congr fun name => ⟨fun ⟨hkeys, hname⟩ => ⟨hname.symm, hkeys⟩,
    fun ⟨hname, hkeys⟩ => ⟨hkeys, hname.symm⟩⟩

/-- The roles have different ids. -/
theorem role_injective {name name' : DefaultRoleName} (heq : c.draws.role name = c.draws.role name') :
    name = name' := by
  have hrow := eq_of_entry h.unique (h.mem_role name) (h.mem_role name')
    (k := .id .roles (c.draws.role name)) (by simp [Row.entries, Call.role])
    (by simp [Row.entries, Call.role, heq])
  simp only [Row.role.injEq, Call.role, Role.mk.injEq] at hrow
  exact Access.DefaultRoleName.name_injective hrow.2.2.1

theorem hasExactly (hsound : Sound rows) (name : DefaultRoleName) :
    HasExactly (rows ++ new.map Row.permanent) (c.draws.role name) (defaultRolePermissions name) where
  all key hkey := by
    obtain ⟨id, hid, hp⟩ := h.catalog key
    refine ⟨⟨id, key⟩, List.mem_append_left _ hp, rfl, List.mem_append_right _ ?_⟩
    exact mem_permanent (h.rolePermission_iff.2 ⟨name, rfl, key, hkey, hid⟩)
  only permissionId hmem := by
    rcases List.mem_append.1 hmem with hold | hin
    · exact absurd (by simp [Row.references])
        (h.unknown (h.mem_role name) (k := .id .roles (c.draws.role name))
          (by simp [Row.entries, Call.role]) hsound _ hold)
    · obtain ⟨name', hname, key, hkey, hid⟩ :=
        h.rolePermission_iff.1 (rolePermission_of_permanent hin)
      obtain rfl := h.role_injective hname
      obtain ⟨id, hid', hp⟩ := h.catalog key
      rw [hid] at hid'
      cases hid'
      exact ⟨_, List.mem_append_left _ hp, rfl, hkey⟩

theorem complete (hsound : Sound rows) {e : Enterprise} (hid : e.id = c.draws.enterprise)
    (hsub : e.currentSubscriptionId = some c.draws.subscription) :
    Complete (rows ++ new.map Row.permanent) e where
  subscription :=
    ⟨_, List.mem_append_right _ (mem_permanent h.mem_subscription), by rw [hid]; rfl, hsub⟩
  role name :=
    ⟨c.role name, List.mem_append_right _ (mem_permanent (h.mem_role name)), by rw [hid]; rfl, rfl⟩
  permissions r hr he := by
    rcases List.mem_append.1 hr with hold | hin
    · exact absurd (by simp [Row.references, he, hid])
        (h.unknown h.mem_enterprise (k := .id .enterprises c.draws.enterprise)
          (by simp [Row.entries, Enterprise.entries, Call.linkedEnterprise, Call.enterprise])
          hsound _ hold)
    · obtain ⟨name, rfl⟩ := h.eq_role (role_of_permanent hin)
      exact ⟨name, rfl, h.hasExactly hsound name⟩
  admin := by
    exact ⟨_, c.role .admin, List.mem_append_right _ (mem_permanent h.mem_user), by rw [hid]; rfl,
      List.mem_append_right _ (mem_permanent (h.mem_role .admin)), by rw [hid]; rfl, rfl,
      List.mem_append_right _ (mem_permanent h.mem_userRole)⟩
  accounts account ha := by
    refine ⟨⟨c.draws.account account.1, c.draws.enterprise, account.1, ""⟩,
      List.mem_append_right _ (mem_permanent
        (r := .account ⟨c.draws.account account.1, c.draws.enterprise, account.1, account.2⟩) ?_),
      hid.symm, rfl⟩
    refine h.eq ▸ mem_registration.2 (.inr (.inr (.inr (.inr (.inr (.inr (.inl ?_)))))))
    exact List.mem_map.2 ⟨account, ha, rfl⟩
  setting :=
    ⟨c.setting, List.mem_append_right _ (mem_permanent h.mem_setting), by rw [hid]; rfl, rfl⟩
  auditLog :=
    ⟨c.auditLog, List.mem_append_right _ (mem_permanent h.mem_auditLog), by rw [hid]; rfl, rfl⟩

/-- Its foreign keys name its own rows and the permissions. -/
theorem grounded {k : IndexEntry} (hr : r ∈ new) (hk : k ∈ r.references) :
    ∃ r' ∈ rows ++ new.map Row.permanent, k ∈ r'.entries := by
  have own : ∀ r' ∈ new, k ∈ r'.entries → ∃ r' ∈ rows ++ new.map Row.permanent, k ∈ r'.entries :=
    fun r' hr' hk' => ⟨_, List.mem_append_right _ (mem_permanent hr'), by
      rwa [entries_permanent]⟩
  have enterprise : k = .id .enterprises c.draws.enterprise →
      ∃ r' ∈ rows ++ new.map Row.permanent, k ∈ r'.entries := by
    rintro rfl
    exact own _ h.mem_enterprise (by
      simp [Row.entries, Enterprise.entries, Call.linkedEnterprise, Call.enterprise])
  have user : k = .id .users c.draws.user →
      ∃ r' ∈ rows ++ new.map Row.permanent, k ∈ r'.entries := by
    rintro rfl
    exact own _ h.mem_user (by simp [Row.entries, Call.user])
  have role : ∀ name, k = .id .roles (c.draws.role name) →
      ∃ r' ∈ rows ++ new.map Row.permanent, k ∈ r'.entries := by
    rintro name rfl
    exact own _ (h.mem_role name) (by simp [Row.entries, Call.role])
  have hmem := hr
  rw [h.eq, mem_registration] at hmem
  rcases hmem with rfl | rfl | rfl | ⟨name, rfl⟩ | ⟨name, hrow⟩ | rfl | hrow | rfl | rfl
  · obtain rfl : k = .id .subscriptions c.draws.subscription := by
      simpa [Row.references, Call.linkedEnterprise] using hk
    exact own _ h.mem_subscription (by simp [Row.entries, Call.subscription])
  · exact enterprise (by simpa [Row.references, Call.subscription] using hk)
  · exact enterprise (by simpa [Row.references, Call.user] using hk)
  · exact enterprise (by simpa [Row.references, Call.role] using hk)
  · obtain ⟨permissionId, hids, rfl⟩ := List.mem_map.1 hrow
    obtain ⟨key, -, hid⟩ := List.mem_filterMap.1 hids
    simp only [Row.references, List.mem_cons, List.not_mem_nil, or_false] at hk
    rcases hk with hk | rfl
    · exact role name hk
    · obtain ⟨id, hid', hp⟩ := h.catalog key
      rw [hid] at hid'
      cases hid'
      exact ⟨_, List.mem_append_left _ hp, by simp [Row.entries]⟩
  · simp only [Row.references, List.mem_cons, List.not_mem_nil, or_false] at hk
    rcases hk with hk | hk
    · exact user hk
    · exact role .admin hk
  · obtain ⟨account, -, rfl⟩ := List.mem_map.1 hrow
    exact enterprise (by simpa [Row.references] using hk)
  · exact enterprise (by simpa [Row.references, Call.setting] using hk)
  · simp only [Row.references, Call.auditLog, List.mem_cons, List.not_mem_nil, or_false] at hk
    rcases hk with hk | hk
    · exact user hk
    · exact enterprise hk

theorem sound (hsound : Sound rows) : Sound (rows ++ new.map Row.permanent) := by
  refine hsound.append (fun r hr k hk => ?_) (fun e r he hr hid => ?_)
    (fun r permissionId hr hmem => ?_) fun e he => ?_
  · obtain ⟨r', hr', rfl⟩ := List.mem_map.1 hr
    exact h.grounded hr' (references_permanent r' ▸ hk)
  · obtain ⟨name, rfl⟩ := h.eq_role (role_of_permanent hr)
    refine h.untaken _ h.mem_enterprise (.id .enterprises c.draws.enterprise) ?_ _ he ?_
    · simp [Row.entries, Enterprise.entries, Call.linkedEnterprise, Call.enterprise]
    · simp [Row.entries, Enterprise.entries, ← hid, Call.role]
  · obtain ⟨name, hname, -⟩ := h.rolePermission_iff.1 (rolePermission_of_permanent hmem)
    refine h.untaken _ (h.mem_role name) (.id .roles (c.draws.role name)) ?_ _ hr ?_
    · simp [Row.entries, Call.role]
    · simp [Row.entries, hname]
  · obtain ⟨e', he', hid, hsub⟩ := enterprise_of_permanent he
    rw [h.eq, mem_registration] at he'
    obtain rfl : e' = c.linkedEnterprise := by
      simpa [Call.rolePermissions, Call.accounts] using he'
    exact h.complete hsound hid.symm hsub.symm

end Admissible

end Gescom.Provisioning
