import Gescom.Auth.Suspension
import Gescom.Entitlement.Freshness
import Gescom.Entitlement.LimitGuard
import Gescom.Lib.Counting

/-!
# The user quota of a plan

The guard counts the users before the invitation inserts one, in another transaction. Requests that
have passed the guard hold no place: `quota_holds` gives the runs in which there is one for each of
them, `last_place_twice` is a run in which two take the last one.
-/

namespace Gescom.Entitlement

open Auth (Services User Role AuthToken)
open ReadCommitted Transition

/-- The guard has let the request pass, and its user is not inserted yet. -/
def InviteState.Admitted : InviteState → Prop
  | finding | readingRole | creatingUser _ | creatingUserRole _ _ | creatingAuthToken _ _ |
    committing _ _ _ => True
  | _ => False

def InviteCall.Admitted (call : InviteCall) : Prop := ∃ c st, call = some (c, st) ∧ st.Admitted

/-- The guard lets a request pass only where a place is left beside those that have passed before. -/
def RoomLeft (tenantId : Uuid) (P : InvitePool) : Act InviteInput (Elsewhere tenantId) → Prop
  | .run pid i => i = .proceed → ∀ c max counter, P.threads pid = some (c, .counting max counter) →
      (usersOf tenantId P.shared.api.db : Int) < max →
      ∀ A : Finset Nat, P.All InviteCall.Admitted A →
        (usersOf tenantId P.shared.api.db + A.card : Int) < max
  | .env _ => True

/-- Requests of one enterprise with at most `max` users, whose plan and cached entitlements have the
limit `max`. -/
structure QuotaStarts (tenantId : Uuid) (max : Int) (P : InvitePool) : Prop where
  calls : ∀ pid c st, P.threads pid = some (c, st) → st = .looking
  plan : (P.shared.billing.resolve tenantId).limit withinLimit = some (some max)
  cached : ∀ process entry, (P.shared.caches process).find? tenantId = some entry →
    entry.value.limit withinLimit = some (some max)
  users : (usersOf tenantId P.shared.api.db : Int) ≤ max

/-- In the runs whose steps meet `K` the enterprise never has more than `max` users. -/
def QuotaHolds (E : CacheEnv) (S : Services) (tenantId : Uuid) (max : Int)
    (K : InvitePool → Act InviteInput (Elsewhere tenantId) → Prop) (P₀ : InvitePool) : Prop :=
  ∀ P, Reach (invites E S tenantId).system K P₀ P → (usersOf tenantId P.shared.api.db : Int) ≤ max

/-! ## The limit -/

variable {E : CacheEnv} {S : Services} {tenantId : Uuid} {max : Int} {c : InviteRequest} {pid : Nat}
  {s s' : QuotaStore} {st st' : InviteState} {P P₀ : InvitePool}

/-- Whatever the guard may read has the limit. -/
structure QuotaStore.Limited (tenantId : Uuid) (max : Int) (s : QuotaStore) : Prop where
  plan : (s.billing.resolve tenantId).limit withinLimit = some (some max)
  cached : ∀ process entry, (s.caches process).find? tenantId = some entry →
    entry.value.limit withinLimit = some (some max)

/-- What a request in the guard has read. -/
def InviteState.HasLimit (max : Int) : InviteState → Prop
  | storing value => value.limit withinLimit = some (some max)
  | counting m counter => m = max ∧ counter = usersOf
  | _ => True

theorem limited_eq {value : Entitlements} (h : value.limit withinLimit = some (some max)) :
    limited withinLimit value = .counting max usersOf := by
  simp only [limited, h]
  rfl

theorem QuotaStore.Limited.setCache {process : Nat} {cache : Cache} (h : s.Limited tenantId max)
    (hcache : ∀ entry, cache.find? tenantId = some entry →
      entry.value.limit withinLimit = some (some max)) :
    (s.setCache process cache).Limited tenantId max where
  plan := h.plan
  cached other entry hentry := by
    by_cases hother : other = process
    · subst hother
      simp only [QuotaStore.setCache, Function.update_self] at hentry
      exact hcache entry hentry
    · simp only [QuotaStore.setCache, Function.update_of_ne hother] at hentry
      exact h.cached other entry hentry

/-- What one statement is for the quota: it leaves the users alone, the guard lets the request pass,
or the user is inserted. -/
inductive QuotaStep (tenantId : Uuid) (max : Int) (s : QuotaStore) :
    InviteState → QuotaStore → InviteState → Prop
  | same {st₁ : InviteState} {s₂ : QuotaStore} {st₂ : InviteState}
      (users : s₂.api.db.users = s.api.db.users) (admitted : st₂.Admitted → st₁.Admitted) :
      QuotaStep tenantId max s st₁ s₂ st₂
  | pass {counter : Uuid → Auth.Db → Nat} (left : (usersOf tenantId s.api.db : Int) < max) :
      QuotaStep tenantId max s (.counting max counter) s .finding
  | insert {user : User} {role : Role} {authToken : AuthToken} {holder : Nat} :
      QuotaStep tenantId max s (.committing user role authToken)
        { s with api := s.api.commit holder (commitInvite user role authToken) } (.mailing user)

theorem quota_step (hI : s.Limited tenantId max) (hQ : st.HasLimit max)
    (h : st.step E S tenantId c pid s = some (s', st')) :
    s'.Limited tenantId max ∧ st'.HasLimit max ∧ QuotaStep tenantId max s st s' st' := by
  cases st with
  | looking =>
    cases hhit : hit? s.api.db.now tenantId (s.caches c.process) with
    | none =>
      simp only [InviteState.step, lookup_miss hhit] at h
      cases h
      exact ⟨hI.setCache (hI.cached c.process), trivial, .same rfl id⟩
    | some cached =>
      obtain ⟨hfind, -⟩ := hit?_find hhit
      have hlimit := hI.cached c.process cached hfind
      have hlookup : lookup s.api.db.now tenantId (s.caches c.process) =
          ((lookup s.api.db.now tenantId (s.caches c.process)).1, some cached.value) :=
        Prod.ext rfl (lookup_hit hhit)
      simp only [InviteState.step] at h
      rw [hlookup] at h
      cases h
      rw [limited_eq hlimit]
      exact ⟨hI.setCache fun entry hentry => hI.cached c.process entry (find?_of_lookup hentry),
        ⟨rfl, rfl⟩, .same rfl id⟩
  | resolving =>
    cases h
    exact ⟨hI, hI.plan, .same rfl id⟩
  | storing value =>
    cases h
    rw [limited_eq hQ]
    refine ⟨hI.setCache fun entry hentry => ?_, ⟨rfl, rfl⟩, .same rfl id⟩
    unfold refill at hentry
    split at hentry
    · rcases find?_of_store hentry with rfl | hold
      · exact hQ
      · exact hI.cached c.process entry hold
    · exact hI.cached c.process entry hentry
  | counting m counter =>
    obtain ⟨rfl, rfl⟩ := hQ
    simp only [InviteState.step] at h
    split at h <;> cases h
    · exact ⟨hI, trivial, .same rfl id⟩
    · exact ⟨hI, trivial, .pass (Int.not_le.1 ‹_›)⟩
  | finding =>
    simp only [InviteState.step] at h
    split at h <;> cases h <;> exact ⟨hI, trivial, .same rfl fun _ => trivial⟩
  | readingRole =>
    simp only [InviteState.step] at h
    split at h
    · cases h
      exact ⟨hI, trivial, .same rfl fun _ => trivial⟩
    · split at h <;> cases h <;> exact ⟨hI, trivial, .same rfl fun _ => trivial⟩
  | creatingUser role =>
    simp only [InviteState.step] at h
    split at h
    · split at h <;> cases h <;>
        exact ⟨⟨hI.plan, hI.cached⟩, trivial, .same rfl fun _ => trivial⟩
    · cases h
  | creatingUserRole user role =>
    cases h
    exact ⟨hI, trivial, .same rfl fun _ => trivial⟩
  | creatingAuthToken user role =>
    simp only [InviteState.step] at h
    split at h
    · split at h <;> cases h <;>
        exact ⟨⟨hI.plan, hI.cached⟩, trivial, .same rfl fun _ => trivial⟩
    · cases h
  | committing user role authToken =>
    cases h
    exact ⟨⟨hI.plan, hI.cached⟩, trivial, .insert⟩
  | mailing user =>
    cases h
    exact ⟨hI, trivial, .same rfl id⟩
  | auditing user =>
    cases h
    exact ⟨⟨hI.plan, hI.cached⟩, trivial, .same rfl id⟩
  | finished r => cases h

/-! ## Runs -/

def InviteCall.HasLimit (max : Int) : InviteCall → Prop
  | some (_, st) => st.HasLimit max
  | none => True

/-- What one step of a request is: a statement, or a failure. -/
theorem invite_thread {i : InviteInput} {call t : InviteCall} (hI : s.Limited tenantId max)
    (hQ : call.HasLimit max) (h : (invites E S tenantId).thread pid i s call = some (s', t)) :
    s'.Limited tenantId max ∧ t.HasLimit max ∧
      ∃ c st st', call = some (c, st) ∧ t = some (c, st') ∧ QuotaStep tenantId max s st s' st' ∧
        ((∃ counter, st = .counting max counter) → st'.Admitted → i = .proceed) := by
  cases call with
  | none => cases h
  | some call =>
    obtain ⟨c, st⟩ := call
    simp only [invites, inviteThread] at h
    split at h
    · cases h
    · cases h
    · rename_i c st _ hcall
      cases hcall
      cases i with
      | proceed =>
        obtain ⟨⟨s₁, st₁⟩, hstep, hres⟩ := Option.map_eq_some_iff.1 h
        cases hres
        obtain ⟨hI', hQ', hquota⟩ := quota_step hI hQ hstep
        exact ⟨hI', hQ', c, st, st₁, rfl, rfl, hquota, fun _ _ => rfl⟩
      | fail e =>
        cases h
        exact ⟨⟨hI.plan, hI.cached⟩, trivial, c, st, _, rfl, rfl, .same rfl fun h => h.elim,
          fun _ h => h.elim⟩

/-- The limit stands in every run. -/
theorem limits : Outline (invites E S tenantId) Always (QuotaStore.Limited tenantId max)
    (fun _ call _ => InviteCall.HasLimit max call) (fun _ _ _ => True) where
  own P pid i s t _ hI hQ hst := by
    obtain ⟨hI', hQ', -⟩ := invite_thread hI hQ hst
    exact ⟨hI', hQ', trivial⟩
  stable _ _ _ _ _ _ _ _ _ hQ := hQ
  env P x _ hI :=
    ⟨⟨(x.plan P.shared).trans hI.plan,
      fun process entry hentry => hI.cached process entry (x.cached P.shared process entry hentry)⟩,
      fun _ _ hQ => hQ⟩

theorem QuotaStarts.annotated (h : QuotaStarts tenantId max P) :
    Annotated (QuotaStore.Limited tenantId max) (fun _ call _ => InviteCall.HasLimit max call) P := by
  refine ⟨⟨h.plan, h.cached⟩, fun pid => ?_⟩
  cases hcall : P.threads pid with
  | none => trivial
  | some call =>
    obtain ⟨c, st⟩ := call
    obtain rfl := h.calls pid c st hcall
    trivial

theorem usersOf_commitInvite (user : User) (role : Role) (authToken : AuthToken) (db : Auth.Db) :
    usersOf tenantId (commitInvite user role authToken db) ≤ usersOf tenantId db + 1 := by
  simp only [usersOf, commitInvite, Table.insert]
  split
  · exact Nat.le_succ _
  · rw [List.filter_append, List.length_append]
    have hone := List.length_filter_le (fun u : User => u.enterpriseId == some tenantId) [user]
    exact Nat.add_le_add_left hone _

/-- As long as every request that passes the guard finds a place beside those that have passed
before, the quota holds in every state. -/
theorem quota_holds (h0 : QuotaStarts tenantId max P₀) :
    QuotaHolds E S tenantId max (RoomLeft tenantId) P₀ := by
  intro P hr
  have hpositive : 0 ≤ max := (Int.natCast_nonneg _).trans h0.users
  have hplaces := hr.reserves InviteCall.Admitted (fun s => usersOf tenantId s.api.db) max.toNat
    ?_ ?_ ?_ ?_ ∅ fun _ h => absurd h (Finset.notMem_empty _)
  · simp only [Finset.card_empty] at hplaces
    omega
  · rintro pid ⟨c, st, hcall, hst⟩
    obtain rfl := h0.calls pid c st hcall
    exact hst
  · have husers := h0.users
    omega
  · intro P x _ _
    exact x.users P.shared
  · intro P pid i s t hP hK hth
    obtain ⟨hI, hQ⟩ := limits.sound h0.annotated hP.always
    obtain ⟨-, -, c, st, st', hcall, rfl, hstep, hproceed⟩ := invite_thread hI (hQ pid) hth
    cases hstep with
    | same users admitted =>
      refine .inl ⟨?_, fun hadmitted => .inl ?_⟩
      · simp only [usersOf, users]
        exact Nat.le_refl _
      · obtain ⟨c', st₁, hcall', hst₁⟩ := hadmitted
        cases hcall'
        exact ⟨c, st, hcall, admitted hst₁⟩
    | pass left =>
      refine .inl ⟨Nat.le_refl _, fun _ => .inr fun A hA => ?_⟩
      have hroom := hK (hproceed ⟨_, rfl⟩ trivial) c max _ hcall left A hA
      omega
    | insert =>
      refine .inr ⟨usersOf_commitInvite .., ⟨c, _, hcall, trivial⟩, ?_⟩
      rintro ⟨c', st₁, hcall', hst₁⟩
      cases hcall'
      exact hst₁

/-! ## The last place -/

def member (id : Uuid) (email : String) : User where
  id := id
  email := email
  passwordHash := "#"
  enterpriseId := some 1
  isSuperAdmin := false
  identity := rfl
  status := .active

/-- Two of the three users the plan of tenant 1 allows. -/
def teamDb : Auth.Db where
  users := ⟨[member 11 "a@b.sn", member 12 "c@b.sn"], by decide⟩
  enterprises := ⟨[{ id := 1, status := .active }], by decide⟩
  refreshTokens := Table.empty
  authTokens := Table.empty
  roles := ⟨[{ id := 4, enterpriseId := 1 }], by decide⟩
  now := 0

def invitation (process : Nat) (email : String) : InviteRequest where
  process := process
  email := email
  roleId := 4
  draws := ⟨⟨process, process⟩, process, 20 + process, 30 + process, 40 + process, ""⟩

/-- Two requests, each served by a process of its own. -/
def lastPlace : InvitePool where
  shared :=
    { api := { db := teamDb, lock := fun _ => none }, billing := planDb,
      caches := fun _ => Table.empty }
  threads
    | 0 => some (invitation 0 "d@b.sn", .looking)
    | 1 => some (invitation 1 "e@b.sn", .looking)
    | _ => none

theorem lastPlace_starts : QuotaStarts 1 3 lastPlace where
  calls pid c st h := by
    match pid with
    | 0 => cases h; rfl
    | 1 => cases h; rfl
    | _ + 2 => cases h
  plan := by decide +kernel
  cached process entry h := by cases h
  users := by decide +kernel

theorem quota_holds_sample :
    QuotaHolds defaultEnv Auth.sampleServices 1 3 (RoomLeft 1) lastPlace :=
  quota_holds lastPlace_starts

/-- Both requests pass the guard with two users, and both insert theirs. -/
theorem last_place_twice : QuotaStarts 1 3 lastPlace ∧
    ¬ QuotaHolds defaultEnv Auth.sampleServices 1 3 Always lastPlace := by
  refine ⟨lastPlace_starts, fun h => ?_⟩
  have hrun : (exec (invites defaultEnv Auth.sampleServices 1).system (fun _ _ => true) lastPlace
      (List.replicate 4 (.run 0 .proceed) ++ List.replicate 4 (.run 1 .proceed) ++
        List.replicate 6 (.run 0 .proceed) ++ List.replicate 6 (.run 1 .proceed))).map
      (fun P => usersOf 1 P.shared.api.db) = some 4 := by
    decide +kernel
  obtain ⟨P, hP, hres⟩ := Option.map_eq_some_iff.1 hrun
  have husers := h P (Reach.of_exec _ (fun _ _ _ => trivial) _ hP)
  rw [hres] at husers
  exact absurd husers (by decide)

end Gescom.Entitlement
