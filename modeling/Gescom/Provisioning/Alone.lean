import Gescom.Provisioning.Completeness
import Mathlib.Logic.Relation

/-!
# A registration as one program

`Call.register` is `ProvisioningService.register` as a function of the database. `runs_register` says
that the statements, run without overlap, compute it: with ids that are in use nowhere, the only
conflicts are the email, the NINEA and the RCCM.
-/

namespace Gescom.Provisioning

open Access (PermissionKey DefaultRoleName defaultRoleNames defaultRolePermissions permissionKeys)
open ReadCommitted UniqueRows

/-! ## Ids that are not in use -/

/-- The unique values that the call draws. -/
def Call.drawn (S : Auth.Services) (c : Call) : List IndexEntry :=
  [.id .enterprises c.draws.enterprise, .id .subscriptions c.draws.subscription,
    .id .users c.draws.user, .id .settings c.draws.setting, .id .auditLogs c.draws.auditLog,
    .id .authTokens c.draws.authToken,
    .tokenHash .authTokens (S.hashToken c.draws.verificationToken),
    .id .notifications c.draws.notification, .id .refreshTokens c.draws.refreshToken.id,
    .tokenHash .refreshTokens (S.hashToken c.draws.refreshToken.rawToken)] ++
    defaultRoleNames.map (fun name => .id .roles (c.draws.role name)) ++
    syscohadaAccountClasses.map fun account => .id .accounts (c.draws.account account.1)

structure Fresh (S : Auth.Services) (c : Call) (db : Db) : Prop where
  role : ∀ name name', c.draws.role name = c.draws.role name' → name = name'
  account : (syscohadaAccountClasses.map fun account => c.draws.account account.1).Nodup
  unused : ∀ k ∈ c.drawn S, db.rows.taken k = false

/-- The entries of a call that it does not draw. -/
def Call.given (c : Call) : List IndexEntry :=
  .email c.input.email :: (c.input.ninea.toList.map (.ninea · c.input.country) ++
    c.input.rccm.toList.map (.rccm · c.input.country))

/-- The row that a row with this entry refers to. -/
def IndexEntry.owner : IndexEntry → Option IndexEntry
  | .currentSubscriptionId subscriptionId => some (.id .subscriptions subscriptionId)
  | .roleName enterpriseId _ | .accountCode enterpriseId _ | .settingKey enterpriseId _ =>
    some (.id .enterprises enterpriseId)
  | .rolePermission roleId _ => some (.id .roles roleId)
  | .userRole userId _ => some (.id .users userId)
  | _ => none

theorem owner_mem_references {r : Row} {k k' : IndexEntry} (hk : k ∈ r.entries)
    (howner : k.owner = some k') : k' ∈ r.references := by
  cases r <;> cases k <;> simp_all [Row.entries, Row.references, Enterprise.entries, IndexEntry.owner]

section
variable {S : Auth.Services} {c : Call} {db : Db} {plan : Plan} {now : Instant}
  {permissionIdByKey : PermissionKey → Option Uuid} {rows : List Row} {r : Row} {k : IndexEntry}

/-- The entries of a registration are given, drawn, or owned by one that is drawn. -/
theorem entries_registration (hr : r ∈ c.registration S plan now permissionIdByKey)
    (hk : k ∈ r.entries) :
    k ∈ c.given ∨ k ∈ c.drawn S ∨ ∃ k' ∈ c.drawn S, k.owner = some k' := by
  have role : ∀ name, .id .roles (c.draws.role name) ∈ c.drawn S := fun name => by
    simp [Call.drawn, Access.mem_defaultRoleNames]
  have enterprise : .id .enterprises c.draws.enterprise ∈ c.drawn S := by simp [Call.drawn]
  have subscription : .id .subscriptions c.draws.subscription ∈ c.drawn S := by simp [Call.drawn]
  have user : .id .users c.draws.user ∈ c.drawn S := by simp [Call.drawn]
  rw [mem_registration] at hr
  rcases hr with rfl | rfl | rfl | ⟨name, rfl⟩ | ⟨name, hr⟩ | rfl | hr | rfl | rfl
  · simp only [Row.entries, Enterprise.entries, Call.linkedEnterprise, Call.enterprise,
      List.mem_append, List.mem_cons, Option.toList_some, List.map_cons, List.map_nil,
      List.not_mem_nil, or_false] at hk
    rcases hk with ((rfl | hk) | hk) | rfl
    · exact .inr (.inl (by simp [Call.drawn]))
    · exact .inl (List.mem_cons_of_mem _ (List.mem_append_left _ hk))
    · exact .inl (List.mem_cons_of_mem _ (List.mem_append_right _ hk))
    · exact .inr (.inr ⟨_, subscription, rfl⟩)
  · obtain rfl := List.mem_singleton.1 hk
    exact .inr (.inl (by simp [Call.drawn, Call.subscription]))
  · simp only [Row.entries, Call.user, List.mem_cons, List.not_mem_nil, or_false] at hk
    rcases hk with rfl | rfl
    · exact .inr (.inl (by simp [Call.drawn]))
    · exact .inl List.mem_cons_self
  · simp only [Row.entries, Call.role, List.mem_cons, List.not_mem_nil, or_false] at hk
    rcases hk with rfl | rfl
    · exact .inr (.inl (role name))
    · exact .inr (.inr ⟨_, enterprise, rfl⟩)
  · obtain ⟨permissionId, -, rfl⟩ := List.mem_map.1 hr
    obtain rfl := List.mem_singleton.1 hk
    exact .inr (.inr ⟨_, role name, rfl⟩)
  · obtain rfl := List.mem_singleton.1 hk
    exact .inr (.inr ⟨_, user, rfl⟩)
  · obtain ⟨account, haccount, rfl⟩ := List.mem_map.1 hr
    simp only [Row.entries, List.mem_cons, List.not_mem_nil, or_false] at hk
    rcases hk with rfl | rfl
    · exact .inr (.inl (List.mem_append_right _ (List.mem_map.2 ⟨account, haccount, rfl⟩)))
    · exact .inr (.inr ⟨_, enterprise, rfl⟩)
  · simp only [Row.entries, Call.setting, List.mem_cons, List.not_mem_nil, or_false] at hk
    rcases hk with rfl | rfl
    · exact .inr (.inl (by simp [Call.drawn]))
    · exact .inr (.inr ⟨_, enterprise, rfl⟩)
  · obtain rfl := List.mem_singleton.1 hk
    exact .inr (.inl (by simp [Call.drawn, Call.auditLog]))

/-- What may be taken of them is given. -/
theorem Fresh.given_of_taken (hf : Fresh S c db) (hsound : Sound db.permanent)
    (hr : r ∈ c.registration S plan now permissionIdByKey) (hk : k ∈ r.entries)
    (htaken : db.rows.taken k = true) : k ∈ c.given := by
  rcases entries_registration hr hk with hgiven | hdrawn | ⟨k', hdrawn, howner⟩
  · exact hgiven
  · rw [hf.unused k hdrawn] at htaken
    cases htaken
  · obtain ⟨r', hr', hk'⟩ := Db.taken_iff.1 htaken
    obtain ⟨r'', hr'', hmem⟩ := hsound.grounded r' hr' k' (owner_mem_references hk' howner)
    have hfalse := hf.unused k' hdrawn
    rw [Db.taken_iff.2 ⟨r'', hr'', hmem⟩] at hfalse
    cases hfalse

/-! ## Entries that differ -/

theorem flatten_seedRole (name : DefaultRoleName) :
    (c.seedRole permissionIdByKey name).flatten =
      .role (c.role name) :: (c.rolePermissions permissionIdByKey name ++
        if name = .admin then [.userRole c.draws.user (c.draws.role name)] else []) := by
  simp only [Call.seedRole]
  split <;> split <;> simp_all

theorem entries_seedRole {name : DefaultRoleName}
    (hk : k ∈ ((c.seedRole permissionIdByKey name).flatten).flatMap Row.entries) :
    k = .id .roles (c.draws.role name) ∨ k = .roleName c.draws.enterprise name.name ∨
      (∃ permissionId, k = .rolePermission (c.draws.role name) permissionId) ∨
      k = .userRole c.draws.user (c.draws.role name) := by
  obtain ⟨r, hr, hk⟩ := List.mem_flatMap.1 hk
  rcases mem_seedRole.1 hr with rfl | hr | ⟨rfl, rfl⟩
  · simp only [Row.entries, Call.role, List.mem_cons, List.not_mem_nil, or_false] at hk
    rcases hk with rfl | rfl
    · exact .inl rfl
    · exact .inr (.inl rfl)
  · obtain ⟨permissionId, -, rfl⟩ := List.mem_map.1 hr
    exact .inr (.inr (.inl ⟨permissionId, List.mem_singleton.1 hk⟩))
  · exact .inr (.inr (.inr (List.mem_singleton.1 hk)))

/-- No two keys have one id. -/
def OneKey (permissionIdByKey : PermissionKey → Option Uuid) : Prop :=
  ∀ key key' id, permissionIdByKey key = some id → permissionIdByKey key' = some id → key = key'

theorem nodup_seedRole (hids : OneKey permissionIdByKey) (name : DefaultRoleName) :
    (((c.seedRole permissionIdByKey name).flatten).flatMap Row.entries).Nodup := by
  have hperm : ((c.rolePermissions permissionIdByKey name).flatMap Row.entries) =
      ((defaultRolePermissions name).filterMap permissionIdByKey).map
        (.rolePermission (c.draws.role name)) := by
    rw [Call.rolePermissions, List.flatMap_map, List.map_eq_flatMap]
    rfl
  have hnodup : ((defaultRolePermissions name).filterMap permissionIdByKey).Nodup :=
    (Access.defaultRolePermissions_nodup name).filterMap fun key key' id h h' =>
      hids key key' id h h'
  have hrole : (((defaultRolePermissions name).filterMap permissionIdByKey).map
      (IndexEntry.rolePermission (c.draws.role name))).Nodup :=
    hnodup.map fun _ _ h => by cases h; rfl
  rw [flatten_seedRole, List.flatMap_cons, List.flatMap_append, hperm]
  split <;> simp [Row.entries, Call.role, List.nodup_append', hrole]

theorem nodup_seedDefaultRoles (hf : Fresh S c db) (hids : OneKey permissionIdByKey) :
    ((defaultRoleNames.flatMap (c.seedRole permissionIdByKey)).flatten.flatMap Row.entries).Nodup := by
  have hflat : ∀ names : List DefaultRoleName,
      (names.flatMap (c.seedRole permissionIdByKey)).flatten.flatMap Row.entries =
        names.flatMap fun name => ((c.seedRole permissionIdByKey name).flatten).flatMap Row.entries := by
    intro names
    induction names with
    | nil => rfl
    | cons name names ih => simp only [List.flatMap_cons, List.flatten_append, List.flatMap_append, ih]
  rw [hflat, List.nodup_flatMap]
  refine ⟨fun name _ => nodup_seedRole hids name, ?_⟩
  refine Access.defaultRoleNames_nodup.imp fun {name name'} hne k hk hk' => hne ?_
  rcases entries_seedRole hk with rfl | rfl | ⟨_, rfl⟩ | rfl <;>
    rcases entries_seedRole hk' with h | h | ⟨_, h⟩ | h <;>
    simp only [reduceCtorEq, IndexEntry.id.injEq, IndexEntry.roleName.injEq, true_and,
      IndexEntry.rolePermission.injEq, IndexEntry.userRole.injEq] at h
  · exact hf.role _ _ h
  · exact Access.DefaultRoleName.name_injective h
  · exact hf.role _ _ h.1
  · exact hf.role _ _ h

/-- Which of the inserts takes the entry: the first three, the roles, the accounts, the last two. -/
def IndexEntry.part : IndexEntry → Nat
  | .id .roles _ | .roleName _ _ | .rolePermission _ _ | .userRole _ _ => 1
  | .id .accounts _ | .accountCode _ _ => 2
  | .id .settings _ | .settingKey _ _ | .id .auditLogs _ => 3
  | _ => 0

theorem nodup_append_of_part {l l' : List IndexEntry} (n : Nat) (h : l.Nodup) (h' : l'.Nodup)
    (hl : ∀ k ∈ l, k.part < n) (hl' : ∀ k ∈ l', n ≤ k.part) : (l ++ l').Nodup := by
  refine List.nodup_append'.2 ⟨h, h', fun k hk hk' => ?_⟩
  exact absurd (hl k hk) (Nat.not_lt.2 (hl' k hk'))

theorem part_seedDefaultRoles
    (hk : k ∈ (defaultRoleNames.flatMap (c.seedRole permissionIdByKey)).flatten.flatMap Row.entries) :
    k.part = 1 := by
  obtain ⟨r, hr, hk⟩ := List.mem_flatMap.1 hk
  obtain ⟨rows, hrows, hr⟩ := List.mem_flatten.1 hr
  obtain ⟨name, -, hname⟩ := List.mem_flatMap.1 hrows
  rcases entries_seedRole (List.mem_flatMap.2 ⟨r, List.mem_flatten.2 ⟨rows, hname, hr⟩, hk⟩) with
    rfl | rfl | ⟨_, rfl⟩ | rfl <;> rfl

theorem part_accounts (hk : k ∈ c.accounts.flatMap Row.entries) : k.part = 2 := by
  obtain ⟨r, hr, hk⟩ := List.mem_flatMap.1 hk
  obtain ⟨account, -, rfl⟩ := List.mem_map.1 hr
  simp only [Row.entries, List.mem_cons, List.not_mem_nil, or_false] at hk
  rcases hk with rfl | rfl <;> rfl

theorem part_last (hk : k ∈ [Row.setting c.setting, .auditLog c.auditLog].flatMap Row.entries) :
    k.part = 3 := by
  simp only [Row.entries, List.flatMap_cons, List.flatMap_nil, List.append_nil, List.cons_append,
    List.nil_append, List.mem_cons, List.not_mem_nil, or_false] at hk
  rcases hk with rfl | rfl | rfl <;> rfl

theorem nodup_accounts (hf : Fresh S c db) : (c.accounts.flatMap Row.entries).Nodup := by
  have hcodes : (syscohadaAccountClasses.map Prod.fst).Nodup := by decide
  rw [Call.accounts, List.flatMap_map, List.nodup_flatMap]
  refine ⟨fun account _ => by simp [Row.entries], ?_⟩
  refine ((List.pairwise_map.1 hf.account).and (List.pairwise_map.1 hcodes)).imp ?_
  rintro account account' ⟨hid, hcode⟩
  simp [Function.onFun, Row.entries, Ne.symm hid, Ne.symm hcode]

theorem entries_first :
    (c.opening (c.subscription plan now) ++ [Row.user (c.user S)]).flatMap Row.entries =
      .id .enterprises c.draws.enterprise :: c.input.ninea.toList.map (.ninea · c.input.country) ++
        c.input.rccm.toList.map (.rccm · c.input.country) ++
        [.currentSubscriptionId c.draws.subscription, .id .subscriptions c.draws.subscription,
          .id .users c.draws.user, .email c.input.email] := by
  simp [Call.opening, Row.entries, Enterprise.entries, Call.linkedEnterprise, Call.enterprise,
    Call.subscription, Call.user]

theorem nodup_first :
    ((c.opening (c.subscription plan now) ++ [Row.user (c.user S)]).flatMap Row.entries).Nodup := by
  rw [entries_first]
  cases c.input.ninea <;> cases c.input.rccm <;> simp

/-- The four parts of a registration. -/
theorem flatMap_registration :
    (c.registration S plan now permissionIdByKey).flatMap Row.entries =
      (c.opening (c.subscription plan now) ++ [Row.user (c.user S)]).flatMap Row.entries ++
        ((defaultRoleNames.flatMap (c.seedRole permissionIdByKey)).flatten.flatMap Row.entries ++
          (c.accounts.flatMap Row.entries ++
            [Row.setting c.setting, .auditLog c.auditLog].flatMap Row.entries)) := by
  simp only [Call.registration, Call.statements, List.flatten_append, List.flatMap_append,
    List.flatten_cons, List.flatten_nil, List.append_assoc, List.flatMap_cons, List.flatMap_nil,
    List.append_nil]

/-- The registration takes no entry twice. -/
theorem nodup_registration (hf : Fresh S c db) (hids : OneKey permissionIdByKey) :
    ((c.registration S plan now permissionIdByKey).flatMap Row.entries).Nodup := by
  rw [flatMap_registration]
  refine nodup_append_of_part 1 nodup_first (nodup_append_of_part 2 (nodup_seedDefaultRoles hf hids)
    (nodup_append_of_part 3 (nodup_accounts hf) ?_ ?_ ?_) ?_ ?_) ?_ ?_
  · simp [Row.entries]
  · exact fun k hk => by rw [part_accounts hk]; decide
  · exact fun k hk => Nat.le_of_eq (part_last hk).symm
  · exact fun k hk => by rw [part_seedDefaultRoles hk]; decide
  · intro k hk
    rcases List.mem_append.1 hk with hk | hk
    · exact Nat.le_of_eq (part_accounts hk).symm
    · rw [part_last hk]
      decide
  · rw [entries_first]
    simp [IndexEntry.part, or_imp, forall_and]
  · intro k hk
    rcases List.mem_append.1 hk with hk | hk
    · exact Nat.le_of_eq (part_seedDefaultRoles hk).symm
    · rcases List.mem_append.1 hk with hk | hk
      · rw [part_accounts hk]
        decide
      · rw [part_last hk]
        decide

end

/-! ## The program -/

/-- `register`, as a function of the database. -/
def Call.register (S : Auth.Services) (c : Call) (db : Db) : Db × Except ApiError Auth.TokenPair :=
  match db.plans.find? c.input.planId with
  | none => (db, .error planNotFound)
  | some plan =>
    if plan.isActive = false then (db, .error planNotFound)
    else if c.given.any db.rows.taken then (db, .error alreadyExists)
    else
      let missing := requiredKeys.filter fun key => (db.permissionIdByKey key).isNone
      if missing = [] then
        ((((db.append (c.registration S plan db.now db.permissionIdByKey)).append
          [c.authToken S db.now]).append [c.notification]).append [c.refreshToken S db.now],
          .ok c.tokenPair)
      else (db, .error (catalogMissing missing))

def RegisterState.answer? : RegisterState → Option (Except ApiError Auth.TokenPair)
  | .registered _ pair => some (.ok pair)
  | .unanswered e _ | .rejected e => some (.error e)
  | _ => none

/-- Statements that all go through. -/
def Call.Runs (S : Auth.Services) (c : Call) (pid : Nat) :
    RegisterStore × RegisterState → RegisterStore × RegisterState → Prop :=
  Relation.ReflTransGen fun x y => c.step S pid .ok x.1 x.2 = some y

def unlocked (db : Db) : RegisterStore := ⟨db, fun _ => none⟩

/-- The transaction of a call that is alone has come to `t`. -/
def Comes (S : Auth.Services) (c : Call) (pid : Nat) (db : Db) (t : RegisterState) : Prop :=
  ∃ s : RegisterStore, s.db = db ∧ s.Alone pid ∧ c.Runs S pid (unlocked db, .findingPlan) (s, t)

section
variable {S : Auth.Services} {c : Call} {pid : Nat} {db : Db} {t next : RegisterState}
  {rows : List Row} {entries : List IndexEntry}

theorem unlocked_alone : (unlocked db).Alone pid := fun _ => .inl rfl

theorem Comes.attempt (h : Comes S c pid db t)
    (hstep : ∀ s, s.db = db → c.step S pid .ok s t = Provisioning.attempt pid rows entries s next .ok)
    (hnodup : (rows.flatMap Row.entries ++ entries).Nodup)
    (hnew : ∀ k ∈ entries, db.rows.taken k = false) : Comes S c pid db next := by
  obtain ⟨s, rfl, hs, hruns⟩ := h
  refine ⟨s.acquireAll pid fun k => decide (k ∈ entries), rfl, hs.acquireAll _, hruns.tail ?_⟩
  simp only [hstep s rfl, Provisioning.attempt, take_alone hs hnodup hnew]

theorem Comes.conflict (h : Comes S c pid db t) {k : IndexEntry}
    (hstep : ∀ s, s.db = db → c.step S pid .ok s t = Provisioning.attempt pid rows entries s next .ok)
    (hk : k ∈ entries) (htaken : db.rows.taken k = true) :
    c.Runs S pid (unlocked db, .findingPlan) (unlocked db, .rejected alreadyExists) := by
  obtain ⟨s, rfl, hs, hruns⟩ := h
  refine hruns.tail ?_
  simp only [hstep s rfl, Provisioning.attempt, take_taken hs hk htaken, hs.release, unlocked]

theorem Comes.inserting {todo : List (List Row)} (h : Comes S c pid db (.inserting todo rows))
    (hnodup : ((rows ++ todo.flatten).flatMap Row.entries).Nodup)
    (hnew : ∀ k ∈ todo.flatten.flatMap Row.entries, db.rows.taken k = false) :
    Comes S c pid db (.inserting [] (rows ++ todo.flatten)) := by
  induction todo generalizing rows with
  | nil => simpa using h
  | cons new todo ih =>
    rw [List.flatten_cons, List.flatMap_append] at hnew
    rw [List.flatten_cons, ← List.append_assoc] at hnodup ⊢
    refine ih (h.attempt (fun s _ => rfl) ?_ fun k hk => hnew k (List.mem_append_left _ hk)) hnodup
      fun k hk => hnew k (List.mem_append_right _ hk)
    rw [← List.flatMap_append]
    rw [List.flatMap_append] at hnodup
    exact hnodup.of_append_left

/-- A `create` after the commit. -/
theorem create_alone {row : Row} {thrown : ApiError → RegisterState} (hnodup : row.entries.Nodup)
    (hnew : ∀ k ∈ row.entries, db.rows.taken k = false) :
    create pid row (unlocked db) next thrown .ok = some (unlocked (db.append [row]), next) := by
  have htake : take (unlocked db) db.rows.taken pid [] row.entries = .done _ :=
    take_alone unlocked_alone hnodup hnew
  have hdb : (unlocked db).db = db := rfl
  simp only [create, hdb, htake]
  rfl

/-! ## Up to the read of the permissions -/

section
variable {plan : Plan} (hf : Fresh S c db) (hsound : Sound db.permanent)
  (hplan : db.plans.find? c.input.planId = some plan) (hactive : plan.isActive = true)

include hf hsound in
theorem untaken_first (plan : Plan) {k : IndexEntry}
    (hk : k ∈ (c.opening (c.subscription plan db.now) ++ [Row.user (c.user S)]).flatMap Row.entries)
    (hgiven : k ∈ c.given → db.rows.taken k = false) : db.rows.taken k = false := by
  obtain ⟨r, hr, hk⟩ := List.mem_flatMap.1 hk
  by_contra htaken
  have hmem : r ∈ c.registration S plan db.now fun _ => none := List.mem_append_left _ hr
  have htaken' : db.rows.taken k = true := by simpa using htaken
  exact htaken (hgiven (hf.given_of_taken hsound hmem hk htaken'))

theorem entries_enterprise : (Row.enterprise c.enterprise).entries =
    .id .enterprises c.draws.enterprise :: (c.input.ninea.toList.map (.ninea · c.input.country) ++
      c.input.rccm.toList.map (.rccm · c.input.country)) := by
  simp [Row.entries, Enterprise.entries, Call.enterprise]

theorem enterprise_mem_first {k : IndexEntry} {plan : Plan} {now : Instant}
    (hk : k ∈ (Row.enterprise c.enterprise).entries) :
    k ∈ (c.opening (c.subscription plan now) ++ [Row.user (c.user S)]).flatMap Row.entries := by
  rw [entries_enterprise, List.mem_cons] at hk
  rw [entries_first]
  rcases hk with rfl | hk
  · exact List.mem_cons_self
  · exact List.mem_append_left _ (List.mem_cons_of_mem _ hk)

theorem nodup_opening (plan : Plan) (now : Instant) :
    ([Row.enterprise c.enterprise, .subscription (c.subscription plan now)].flatMap Row.entries ++
      [IndexEntry.currentSubscriptionId c.draws.subscription]).Nodup := by
  rw [List.flatMap_cons, entries_enterprise]
  cases c.input.ninea <;> cases c.input.rccm <;> simp [Row.entries, Call.subscription]

include hplan hactive in
theorem comes_creatingEnterprise : Comes S c pid db (.creatingEnterprise plan) := by
  refine ⟨unlocked db, rfl, unlocked_alone, .single ?_⟩
  simp only [Call.step, Call.findPlan, unlocked, hplan, hactive, if_true]

include hf hsound hplan hactive in
theorem comes_creatingUser
    (hgiven : ∀ k ∈ (Row.enterprise c.enterprise).entries, k ∈ c.given → db.rows.taken k = false) :
    Comes S c pid db (.creatingUser (c.subscription plan db.now)) := by
  have hsub : db.rows.taken (.id .subscriptions c.draws.subscription) = false :=
    untaken_first hf hsound plan (by rw [entries_first]; simp) (by simp [Call.given])
  have hcurrent : db.rows.taken (.currentSubscriptionId c.draws.subscription) = false :=
    untaken_first hf hsound plan (by rw [entries_first]; simp) (by simp [Call.given])
  have hnodup := nodup_opening (c := c) plan db.now
  have h₁ : Comes S c pid db (.creatingSubscription plan) := by
    refine (comes_creatingEnterprise hplan hactive).attempt (fun s _ => rfl) ?_ fun k hk => ?_
    · exact hnodup.of_append_left.of_append_left
    · exact untaken_first hf hsound plan (enterprise_mem_first hk) (hgiven k hk)
  have h₂ : Comes S c pid db (.linkingSubscription (c.subscription plan db.now)) := by
    refine h₁.attempt (fun s hs => by rw [Call.step, hs]) ?_ fun k hk => ?_
    · simpa using hnodup.of_append_left
    · exact List.mem_singleton.1 hk ▸ hsub
  refine h₂.attempt (fun s _ => rfl) hnodup fun k hk => ?_
  exact List.mem_singleton.1 hk ▸ hcurrent

include hf hsound hplan hactive in
theorem comes_findingPermissions (hgiven : ∀ k ∈ c.given, db.rows.taken k = false) :
    Comes S c pid db
      (.findingPermissions (c.opening (c.subscription plan db.now) ++ [.user (c.user S)])) := by
  refine (comes_creatingUser hf hsound hplan hactive fun k _ => hgiven k).attempt (fun s _ => rfl) ?_
    fun k hk => ?_
  · have hnodup : ((c.opening (c.subscription plan db.now) ++ [Row.user (c.user S)]).flatMap
        Row.entries).Nodup := nodup_first
    simpa using hnodup
  · refine untaken_first hf hsound plan ?_ (hgiven k)
    rw [List.flatMap_append]
    exact List.mem_append_right _ (by simpa using hk)

include hf hsound hplan hactive in
/-- One of the given entries is taken. -/
theorem runs_conflict (hgiven : c.given.any db.rows.taken = true) :
    c.Runs S pid (unlocked db, .findingPlan) (unlocked db, .rejected alreadyExists) := by
  by_cases hent : ∃ k ∈ (Row.enterprise c.enterprise).entries, db.rows.taken k = true
  · obtain ⟨k, hk, htaken⟩ := hent
    exact (comes_creatingEnterprise hplan hactive).conflict (fun s _ => rfl) hk htaken
  · have hfree : ∀ k ∈ (Row.enterprise c.enterprise).entries, db.rows.taken k = false :=
      fun k hk => by
        by_contra htaken
        exact hent ⟨k, hk, by simpa using htaken⟩
    obtain ⟨k, hk, htaken⟩ := List.any_eq_true.1 hgiven
    refine (comes_creatingUser hf hsound hplan hactive fun k hk _ => hfree k hk).conflict
      (fun s _ => rfl) ?_ htaken
    rcases List.mem_cons.1 hk with rfl | hk
    · simp [Row.entries, Call.user]
    · rw [hfree k (entries_enterprise ▸ List.mem_cons_of_mem _ hk)] at htaken
      cases htaken

end

/-! ## The whole call -/

theorem oneKey (db : Db) : OneKey db.permissionIdByKey := by
  intro key key' id h h'
  have heq := eq_of_entry db.rows.unique (mem_of_permissionIdByKey h) (mem_of_permissionIdByKey h')
    (k := .id .permissions id) (by simp [Row.entries]) (by simp [Row.entries])
  cases heq
  rfl

section
variable {plan : Plan} (hf : Fresh S c db) (hsound : Sound db.permanent)
  (hgiven : ∀ k ∈ c.given, db.rows.taken k = false)
include hf hsound hgiven

theorem untaken_registration {k : IndexEntry}
    (hk : k ∈ (c.registration S plan db.now db.permissionIdByKey).flatMap Row.entries) :
    db.rows.taken k = false := by
  obtain ⟨r, hr, hk⟩ := List.mem_flatMap.1 hk
  by_contra htaken
  have htaken' : db.rows.taken k = true := by simpa using htaken
  exact htaken (hgiven k (hf.given_of_taken hsound hr hk htaken'))

theorem comes_registration
    (h : Comes S c pid db
      (.findingPermissions (c.opening (c.subscription plan db.now) ++ [.user (c.user S)])))
    (hfound : requiredKeys.filter (fun key => (db.permissionIdByKey key).isNone) = []) :
    Comes S c pid db (.inserting [] (c.registration S plan db.now db.permissionIdByKey)) := by
  have hinserting : Comes S c pid db (.inserting (c.statements db.permissionIdByKey)
      (c.opening (c.subscription plan db.now) ++ [.user (c.user S)])) := by
    obtain ⟨s, rfl, hs, hruns⟩ := h
    refine ⟨s, rfl, hs, hruns.tail ?_⟩
    simp only [Call.step, Call.findPermissions, hfound, if_true]
  refine hinserting.inserting (nodup_registration hf (oneKey db)) fun k hk => ?_
  have hmem : k ∈ (c.registration S plan db.now db.permissionIdByKey).flatMap Row.entries := by
    rw [Call.registration, List.flatMap_append]
    exact List.mem_append_right _ hk
  exact untaken_registration hf hsound hgiven hmem

end

/-- An entry of a row after the commit. -/
def IndexEntry.late : IndexEntry → Bool
  | .id .authTokens _ | .id .notifications _ | .id .refreshTokens _ | .tokenHash _ _ => true
  | _ => false

theorem late_of_part {k : IndexEntry} (h : 0 < k.part) : k.late = false := by
  unfold IndexEntry.part at h
  split at h <;> first | rfl | cases h

theorem late_registration {plan : Plan} {now : Instant} {k : IndexEntry}
    {permissionIdByKey : PermissionKey → Option Uuid}
    (hk : k ∈ (c.registration S plan now permissionIdByKey).flatMap Row.entries) : k.late = false := by
  have hfirst : ∀ k ∈ (c.opening (c.subscription plan now) ++ [Row.user (c.user S)]).flatMap Row.entries,
      k.late = false := by
    rw [entries_first]
    simp [IndexEntry.late, or_imp, forall_and]
  rw [flatMap_registration] at hk
  rcases List.mem_append.1 hk with hk | hk
  · exact hfirst k hk
  · refine late_of_part ?_
    rcases List.mem_append.1 hk with hk | hk
    · rw [part_seedDefaultRoles hk]
      decide
    · rcases List.mem_append.1 hk with hk | hk
      · rw [part_accounts hk]
        decide
      · rw [part_last hk]
        decide

theorem untaken_append {new : List Row} {k : IndexEntry} (h : db.rows.taken k = false)
    (hk : k ∉ new.flatMap Row.entries) : (db.append new).rows.taken k = false := by
  by_contra htaken
  rcases Rows.taken_of_append (Bool.not_eq_false _ ▸ htaken) with hold | hnew
  · rw [h] at hold
    cases hold
  · exact hk hnew

/-- The three `create`s after the commit. -/
theorem runs_after (hfree : ∀ k ∈ c.drawn S, k.late = true → db.rows.taken k = false) :
    c.Runs S pid (unlocked db, .issuingVerification rows)
      (unlocked (((db.append [c.authToken S db.now]).append [c.notification]).append
        [c.refreshToken S db.now]), .registered rows c.tokenPair) := by
  have hverification : c.step S pid .ok (unlocked db) (.issuingVerification rows) =
      some (unlocked (db.append [c.authToken S db.now]), .notifying rows) := by
    rw [Call.step]
    refine create_alone (by simp [Call.authToken, Row.entries, unlocked]) fun k hk => hfree k ?_ ?_ <;>
      revert k <;> simp [Call.authToken, Row.entries, Call.drawn, IndexEntry.late]
  have hnotification : c.step S pid .ok (unlocked (db.append [c.authToken S db.now])) (.notifying rows) =
      some (unlocked ((db.append [c.authToken S db.now]).append [c.notification]), .mailing rows) := by
    rw [Call.step]
    refine create_alone (by simp [Call.notification, Row.entries]) fun k hk => ?_
    obtain rfl := List.mem_singleton.1 hk
    refine untaken_append (hfree _ (by simp [Call.drawn]) rfl) ?_
    simp [Call.authToken, Row.entries]
  have htokens : c.step S pid .ok (unlocked ((db.append [c.authToken S db.now]).append
      [c.notification])) (.issuingTokens rows) =
      some (unlocked (((db.append [c.authToken S db.now]).append [c.notification]).append
        [c.refreshToken S db.now]), .registered rows c.tokenPair) := by
    rw [Call.step]
    refine create_alone (by simp [Call.refreshToken, Row.entries]) fun k hk => ?_
    refine untaken_append (untaken_append (hfree k ?_ ?_) ?_) ?_ <;> revert k <;>
      simp [Call.refreshToken, Call.authToken, Call.notification, Row.entries, Call.drawn,
        IndexEntry.late]
  exact Relation.ReflTransGen.head hverification
    (Relation.ReflTransGen.head hnotification
      (Relation.ReflTransGen.head rfl (Relation.ReflTransGen.single htokens)))

/-- The statements of a call that runs alone compute `register`. -/
theorem runs_register (hf : Fresh S c db) (hsound : Sound db.permanent) :
    ∃ t, c.Runs S pid (unlocked db, .findingPlan) (unlocked (c.register S db).1, t) ∧
      t.answer? = some (c.register S db).2 := by
  have hfound : ∀ t, c.findPlan .ok (unlocked db) = t →
      c.Runs S pid (unlocked db, .findingPlan) (unlocked db, t) := by
    rintro t rfl
    exact .single rfl
  cases hplan : db.plans.find? c.input.planId with
  | none =>
    refine ⟨.rejected planNotFound, ?_, ?_⟩
    · simp only [Call.register, hplan]
      exact hfound _ (by simp only [Call.findPlan, unlocked, hplan])
    · simp only [Call.register, hplan, RegisterState.answer?]
  | some plan =>
    by_cases hactive : plan.isActive = true
    · by_cases hgiven : c.given.any db.rows.taken = true
      · refine ⟨.rejected alreadyExists, ?_, ?_⟩
        · simp only [Call.register, hplan, hactive, hgiven, if_true, Bool.true_eq_false, if_false]
          exact runs_conflict hf hsound hplan hactive hgiven
        · simp [Call.register, hplan, hactive, hgiven, RegisterState.answer?]
      · have hfree : ∀ k ∈ c.given, db.rows.taken k = false := by simpa using hgiven
        have hcomes : Comes S c pid db _ := comes_findingPermissions hf hsound hplan hactive hfree
        by_cases hmissing : requiredKeys.filter (fun key => (db.permissionIdByKey key).isNone) = []
        · refine ⟨.registered (c.registration S plan db.now db.permissionIdByKey) c.tokenPair, ?_, ?_⟩
          · simp only [Call.register, hplan, hactive, hgiven, hmissing, if_true, Bool.true_eq_false,
              if_false]
            obtain ⟨s, hdb, hs, hruns⟩ :=
              comes_registration hf hsound hfree hcomes hmissing
            have hcommit : c.step S pid .ok s
                (.inserting [] (c.registration S plan db.now db.permissionIdByKey)) =
                some (unlocked (db.append (c.registration S plan db.now db.permissionIdByKey)),
                  .issuingVerification (c.registration S plan db.now db.permissionIdByKey)) := by
              simp only [Call.step, Call.commit, hs.commit, hdb, unlocked]
            refine (hruns.tail hcommit).trans (runs_after fun k hk hlate => ?_)
            refine untaken_append (hf.unused k hk) fun hin => ?_
            rw [late_registration hin] at hlate
            cases hlate
          · simp [Call.register, hplan, hactive, hgiven, hmissing, RegisterState.answer?]
        · refine ⟨.rejected (catalogMissing (requiredKeys.filter fun key =>
            (db.permissionIdByKey key).isNone)), ?_, ?_⟩
          · simp only [Call.register, hplan, hactive, hgiven, hmissing, Bool.true_eq_false,
              Bool.false_eq_true, if_false]
            obtain ⟨s, hdb, hs, hruns⟩ := hcomes
            refine hruns.tail ?_
            simp only [Call.step, Call.findPermissions, hdb, hmissing, if_false, hs.release, unlocked]
          · simp [Call.register, hplan, hactive, hgiven, hmissing, RegisterState.answer?]
    · refine ⟨.rejected planNotFound, ?_, ?_⟩
      · simp only [Call.register, hplan, hactive]
        exact hfound _ (by simp [Call.findPlan, unlocked, hplan, hactive])
      · simp [Call.register, hplan, hactive, RegisterState.answer?]

/-- Alone, a call ends as `register` says, and in no other way. -/
theorem register_alone (S : Auth.Services) (c : Call) (pid : Nat) (db : Db) (hf : Fresh S c db)
    (hsound : Sound db.permanent) :
    (∃ t, c.Runs S pid (unlocked db, .findingPlan) (unlocked (c.register S db).1, t) ∧
      c.step S pid .ok (unlocked (c.register S db).1) t = none) ∧
    ∀ s t, c.Runs S pid (unlocked db, .findingPlan) (s, t) → c.step S pid .ok s t = none →
      s = unlocked (c.register S db).1 ∧ t.answer? = some (c.register S db).2 := by
  obtain ⟨t₀, hruns, hanswer⟩ : ∃ t, c.Runs S pid (unlocked db, .findingPlan)
      (unlocked (c.register S db).1, t) ∧ t.answer? = some (c.register S db).2 :=
    runs_register hf hsound
  have hstop : c.step S pid .ok (unlocked (c.register S db).1) t₀ = none := by
    cases t₀ <;> first | rfl | cases hanswer
  refine ⟨⟨t₀, hruns, hstop⟩, fun s t h hend => ?_⟩
  cases Transition.stop_unique h hruns hend hstop
  exact ⟨rfl, hanswer⟩

end

def sampleServices : Auth.Services where
  hashToken token := token
  refreshTtl := 1000
  hashPassword password := password
  verifyPassword hash password := hash == password
  verifyCode _ _ := none

def samplePermissions : List Row :=
  permissionKeys.zipIdx.map fun key => .permission ⟨100 + key.2, key.1⟩

/-- A super admin. -/
def sampleUser : User where
  id := 1
  email := "admin@example.sn"
  passwordHash := "secret"
  firstName := "Moussa"
  lastName := "Fall"
  phone := none
  enterpriseId := none
  status := .active

def sampleDb : Db where
  rows := ⟨.user sampleUser :: samplePermissions, by decide +kernel⟩
  plans := ⟨[⟨1, true, 14⟩], by decide⟩
  now := 5

/-- The ids from `n` on. -/
def sampleDraws (n : Nat) : Draws where
  enterprise := n
  subscription := n
  user := n
  role name := n + defaultRoleNames.idxOf name
  account code := n + syscohadaAccountClasses.findIdx fun account => account.1 == code
  setting := n
  auditLog := n
  verificationToken := n
  authToken := n
  notification := n
  refreshToken := ⟨n, n⟩
  familyId := n

def sampleCall (pid : Nat) : Call where
  input :=
    { firstName := "Awa", lastName := "Diop",
      email := if pid = 0 then "awa@example.sn" else "admin@example.sn", password := "secret",
      enterpriseName := "Teranga", planId := 1 }
  draws := sampleDraws (1000 * (pid + 1))

theorem sampleDb_sound : Sound sampleDb.permanent := by
  have hrows : ∀ r ∈ sampleDb.permanent, r = (Row.user sampleUser).permanent ∨ ∃ p, r = .permission p := by
    intro r hr
    simp only [Db.permanent, sampleDb, samplePermissions, List.map_cons, List.map_map, List.mem_cons,
      List.mem_map] at hr
    rcases hr with hr | ⟨p, -, rfl⟩
    · exact .inl hr
    · exact .inr ⟨_, rfl⟩
  constructor
  · intro e he
    rcases hrows _ he with h | ⟨p, h⟩ <;> cases h
  · intro r hr k hk
    rcases hrows r hr with rfl | ⟨p, rfl⟩ <;> cases hk

theorem sampleCall_fresh {pid : Nat} (hpid : pid < 2) :
    Fresh sampleServices (sampleCall pid) sampleDb where
  role name name' h := by
    have hidx : defaultRoleNames.idxOf name = defaultRoleNames.idxOf name' := Nat.add_left_cancel h
    revert hidx
    cases name <;> cases name' <;> decide
  account := by
    revert pid
    decide +kernel
  unused := by
    revert pid
    decide +kernel

theorem sampleCall_ok :
    ((sampleCall 0).register sampleServices sampleDb).2 = .ok (sampleCall 0).tokenPair := by
  decide +kernel

theorem register_alone_sample :
    ∃ t, (sampleCall 0).Runs sampleServices 0 (unlocked sampleDb, .findingPlan)
        (unlocked ((sampleCall 0).register sampleServices sampleDb).1, t) ∧
      t.answer? = some (.ok (sampleCall 0).tokenPair) := by
  obtain ⟨⟨t, hruns, hstop⟩, hends⟩ :=
    register_alone sampleServices (sampleCall 0) 0 sampleDb (sampleCall_fresh (by decide))
      sampleDb_sound
  exact ⟨t, hruns, sampleCall_ok ▸ (hends _ t hruns hstop).2⟩

end Gescom.Provisioning
