import Gescom.Access.Steps

/-!
# What is withdrawn is refused within the time to live

An account that is suspended, a feature that a plan loses and a subscription that stops running keep
working for as long as a cache says so. `locked_out` and `withdrawn` bound it: once every read from
before has been stored and the time to live has passed, whoever arrives is refused, at any process.
-/

namespace Gescom.Access

open Auth (JwtService)
open Entitlement (Entitlements)
open Expiring (Ended)
open Tenant (TenantStore)
open Transition

/-! ## A step of the pool -/

section
variable {E : AccessEnv} {jwt : JwtService} {P₀ P P' : ApiPool} {pid : Nat} {a : Act Answer Outside}

/-- A request is about to store that the account of `userId` is `active`. -/
def StatusPending (P : ApiPool) (userId : Uuid) (active : Bool) : Prop :=
  ∃ pid payload c, (P.threads pid).2 = .cachingStatus payload active c ∧ payload.sub = userId

def EntitlementsPending (P : ApiPool) (tenantId : Uuid) (value : Entitlements) : Prop :=
  ∃ pid g c, (P.threads pid).2 = .storing g tenantId value c

/-- What a step of the pool can do to the clock and to the caches. -/
structure PoolSpec (E : AccessEnv) (P P' : ApiPool) : Prop where
  now : P.shared.now ≤ P'.shared.now
  status : ∀ process, (P.shared.statusEntries process).Gains E.accountStatusTtlMs P.shared.now
    (StatusPending P) (P'.shared.statusEntries process)
  entitlements : ∀ process, (P.shared.entitlementEntries process).Gains E.ttlMs P.shared.now
    (EntitlementsPending P) (P'.shared.entitlementEntries process)

theorem outside_spec (x : Outside) :
    PoolSpec E P { P with shared := x.apply P.shared } := by
  cases x with
  | tick n => exact ⟨Nat.le_add_right _ _, fun _ => .refl, fun _ => .refl⟩
  | commit f hf =>
    exact ⟨Nat.le_of_eq (hf P.shared.db).symm, fun _ => .refl, fun _ => .refl⟩
  | invalidate process tenantId =>
    exact ⟨Nat.le_refl _, fun _ => .refl, setEntitlements_gains fun _ _ _ h =>
      .inl (Entitlement.find?_of_invalidate h).2⟩
  | restart process =>
    exact
      { now := Nat.le_refl _
        status := setStatusCache_gains fun _ _ _ h => by cases h
        entitlements := setEntitlements_gains fun _ _ _ h => by cases h }

theorem pool_spec (hst : (api E jwt).system.step P a = some P') : PoolSpec E P P' := by
  cases a with
  | env x =>
    obtain rfl := Machine.env_eq_some.1 hst
    exact outside_spec x
  | run pid i =>
    obtain ⟨s, t, hth, rfl⟩ := Machine.run_eq_some.1 hst
    obtain ⟨⟨s', st'⟩, hstep, hans⟩ := Option.map_eq_some_iff.1 hth
    have hleaves := step_leaves hstep
    cases i with
    | proceed =>
      cases hans
      refine ⟨Nat.le_of_eq (congrArg (fun db => db.auth.now) hleaves.db).symm,
        fun process => (hleaves.status process).mono ?_,
        fun process => (hleaves.entitlements process).mono ?_⟩
      · rintro userId active ⟨payload, c, hthread, hsub⟩
        exact ⟨pid, payload, c, hthread, hsub⟩
      · rintro tenantId value ⟨g, c, hthread⟩
        exact ⟨pid, g, c, hthread⟩
    | fail e =>
      cases hans
      exact ⟨Nat.le_refl _, fun _ => .refl, fun _ => .refl⟩

/-- The request that a step is of, or that another step leaves where it is. -/
theorem thread_follows (hok : Ok E jwt Always P₀ P) (hst : (api E jwt).system.step P a = some P')
    (pid : Nat) : P'.threads pid = P.threads pid ∨ (P'.threads pid).1 = (P.threads pid).1 ∧
      Follows (P.threads pid).1 P.shared (P.threads pid).2 (P'.threads pid).2 := by
  rcases Machine.step_thread hst pid with hsame | ⟨i, s, t, rfl, hth, -, ht⟩
  · exact .inl hsame
  · obtain ⟨⟨s', st'⟩, hstep, hans⟩ := Option.map_eq_some_iff.1 hth
    have hfollows := step_follows hstep fun g tenantId value c hstate => by
      have hrequest := hok.requests pid
      rw [hstate] at hrequest
      exact hrequest.2.1
    rw [ht]
    cases i with
    | proceed => cases hans; exact .inr ⟨rfl, hfollows⟩
    | fail e => cases hans; exact .inr ⟨rfl, .refused⟩

theorem statusPending_step (hok : Ok E jwt Always P₀ P) (hst : (api E jwt).system.step P a = some P')
    (userId : Uuid) (active : Bool) (h : StatusPending P' userId active) :
    StatusPending P userId active ∨ active = P.shared.db.accountActive userId := by
  obtain ⟨pid, payload, c, hthread, rfl⟩ := h
  rcases thread_follows hok hst pid with hsame | ⟨-, hfollows⟩
  · exact .inl ⟨pid, payload, c, by rw [← hsame, hthread], rfl⟩
  · exact .inr (hfollows.caching payload active c hthread).symm

variable (E) in
/-- Entries have their time to live ahead of them at most. -/
structure Bounded (P : ApiPool) : Prop where
  status : ∀ process, (P.shared.statusEntries process).Bounded E.accountStatusTtlMs P.shared.now
  entitlements : ∀ process, (P.shared.entitlementEntries process).Bounded E.ttlMs P.shared.now

theorem Starts.bounded (h : Starts P₀) : Bounded E P₀ where
  status process userId active t ht := by
    rw [statusEntries_eq_some, h.statusCache process] at ht
    cases ht
  entitlements process tenantId value t ht := by
    rw [entitlementEntries_eq_some, h.entitlements process] at ht
    cases ht

theorem bounded_step (h : Bounded E P) (hst : (api E jwt).system.step P a = some P') :
    Bounded E P' := by
  have hspec := pool_spec hst
  exact ⟨fun process => ((h.status process).gains (hspec.status process)).later hspec.now,
    fun process => ((h.entitlements process).gains (hspec.entitlements process)).later hspec.now⟩

theorem bounded_reach (h0 : Starts P₀) (h : Reach (api E jwt).system Always P₀ P) : Bounded E P :=
  h.inv (Bounded E) h0.bounded fun _ _ _ _ ih _ hst => bounded_step ih hst

/-- Whatever commits, `φ` stays true of the database. -/
def Stays (φ : Db → Prop) (P : ApiPool) : Act Answer Outside → Prop
  | .env x => φ (x.apply P.shared).db
  | .run _ _ => True

theorem stays_step {φ : Db → Prop} (h : φ P.shared.db) (hK : Stays φ P a)
    (hst : (api E jwt).system.step P a = some P') : φ P'.shared.db := by
  cases a with
  | env x =>
    obtain rfl := Machine.env_eq_some.1 hst
    exact hK
  | run pid i =>
    obtain ⟨s, t, hth, rfl⟩ := Machine.run_eq_some.1 hst
    obtain ⟨⟨s', st'⟩, hstep, hans⟩ := Option.map_eq_some_iff.1 hth
    cases i with
    | proceed =>
      cases hans
      have hdb := (step_leaves hstep).db
      show φ s'.db
      rwa [hdb]
    | fail e => cases hans; exact h

theorem now_reach {K : ApiPool → Act Answer Outside → Prop} (h : Reach (api E jwt).system K P P') :
    P.shared.now ≤ P'.shared.now :=
  h.inv (fun Q => P.shared.now ≤ Q.shared.now) (Nat.le_refl _) fun _ _ _ _ ih _ hst =>
    Nat.le_trans ih (pool_spec hst).now

/-! ### Accounts -/

/-- `userId` is out, and by `deadline` no cache says otherwise. -/
def AccountEnded (userId : Uuid) (deadline : Instant) (P : ApiPool) : Prop :=
  Ended (fun k active => k = userId ∧ active = true) deadline P.shared.db.accountActive
    P.shared.statusEntries (StatusPending P)

variable {userId tenantId : Uuid} {deadline : Instant}

theorem accountEnded_init (hb : Bounded E P) (hout : P.shared.db.accountActive userId = false)
    (hsettled : ¬ StatusPending P userId true) :
    AccountEnded userId (P.shared.now + E.accountStatusTtlMs) P := by
  refine .of_bounded hb.status ?_ ?_
  · rintro k ⟨rfl, hactive⟩
    rw [hout] at hactive
    cases hactive
  · rintro k active hpending ⟨rfl, rfl⟩
    exact hsettled hpending

theorem accountEnded_step (hok : Ok E jwt Always P₀ P) (h : AccountEnded userId deadline P)
    (hK : Stays (fun db => db.accountActive userId = false) P a)
    (hst : (api E jwt).system.step P a = some P') : AccountEnded userId deadline P' := by
  have hout : P.shared.db.accountActive userId = false := by
    have hsource := h.source userId
    simpa using hsource
  refine Ended.step h (pool_spec hst).status (statusPending_step hok hst) ?_
  rintro k ⟨rfl, hactive⟩
  have hstays := stays_step (φ := fun db => db.accountActive k = false) hout hK hst
  exact absurd (hactive.symm.trans hstays) (by simp)

/-- No request that `pid` brings gets `userId` for its user. -/
theorem user_step (hok : Ok E jwt Always P₀ P) (h : AccountEnded userId deadline P)
    (hnow : deadline ≤ P.shared.now)
    (hother : ∀ c user, (P.threads pid).2.passage = some c → c.user = some user → user.id ≠ userId)
    (hst : (api E jwt).system.step P a = some P') :
    ∀ c user, (P'.threads pid).2.passage = some c → c.user = some user → user.id ≠ userId := by
  intro c user hc huser
  rcases thread_follows hok hst pid with hsame | ⟨-, hfollows⟩
  · exact hother c user (by rwa [← hsame]) huser
  · rcases hfollows.user c user hc huser with ⟨c₀, h₀, hu⟩ | hhit | ⟨payload, c₀, hthread, hsub⟩
    · exact hother c₀ user h₀ hu
    · exact fun hid => Ended.hit h hnow hhit ⟨hid, rfl⟩
    · exact fun hid => h.pending user.id true ⟨pid, payload, c₀, hthread, hsub⟩ ⟨hid, rfl⟩

/-! ### Entitlements -/

variable {good : Entitlements → Prop} {g : EntitledGuard}

end

/-- An account that is not active, or whose enterprise is not, is locked out: once no read from before
is left to be stored and the time to live has passed, no request that arrives is served for it. -/
theorem locked_out (E : AccessEnv) (jwt : JwtService) (P₀ P₁ P₂ P₃ : ApiPool) (h0 : Starts P₀)
    (h₁ : Reach (api E jwt).system Always P₀ P₁) (userId : Uuid)
    (hout : P₁.shared.db.accountActive userId = false) (hsettled : ¬ StatusPending P₁ userId true)
    (h₂ : Reach (api E jwt).system (Stays fun db => db.accountActive userId = false) P₁ P₂)
    (hlate : P₁.shared.now + E.accountStatusTtlMs ≤ P₂.shared.now)
    (h₃ : Reach (api E jwt).system (Stays fun db => db.accountActive userId = false) P₂ P₃)
    (pid : Nat) (hnew : (P₂.threads pid).2 = .arriving) (r : Request) (c : Passage)
    (hadmitted : P₃.threads pid = (r, .admitted c))
    (hr : r.route.demand.authenticated = true) :
    ∃ user, c.user = some user ∧ user.id ≠ userId := by
  have hended : ∀ P, Reach (api E jwt).system (Stays fun db => db.accountActive userId = false) P₁ P →
      AccountEnded userId (P₁.shared.now + E.accountStatusTtlMs) P := fun P h =>
    h.inv (AccountEnded userId _) (accountEnded_init (bounded_reach h0 h₁) hout hsettled)
      fun Q a Q' hQ ih hK hst => accountEnded_step (ok_reach h0 (h₁.trans hQ.always)) ih hK hst
  have hother := h₃.inv (fun P => ∀ c user, (P.threads pid).2.passage = some c →
      c.user = some user → user.id ≠ userId)
    (fun c user hc => by rw [hnew] at hc; cases hc)
    fun Q a Q' hQ ih _ hst => user_step (ok_reach h0 (h₁.trans (h₂.trans hQ).always))
      (hended Q (h₂.trans hQ)) (Nat.le_trans hlate (now_reach hQ)) ih hst
  have hc := (ok_reach h0 (h₁.trans (h₂.trans h₃).always)).requests pid
  rw [hadmitted] at hc
  obtain ⟨done, hguards, hdone⟩ := hc.behind
  rw [List.append_nil] at hguards
  have hmem : Guard.jwtAuth ∈ done := by
    rw [← hguards, r.route.guarded.guards]
    simp [Demand.guards, hr]
  obtain ⟨token, payload, -, huser, -⟩ := hdone .jwtAuth hmem
  exact ⟨_, huser, hother c _ (by rw [hadmitted]; rfl) huser⟩

/-- A route that asks for a feature, or for a subscription that runs, lets in nobody whose entitlements
are not `good`. -/
inductive Request.Requires (r : Request) (good : Entitlements → Prop) : Prop
  | feature (key : String) (hd : r.route.demand.feature = some key)
      (h : ∀ value, key ∈ value.features → good value)
  | subscription (hd : r.route.demand.subscription = true) (hmethod : r.method ≠ .get)
      (h : ∀ value, ¬ blocked value → good value)

theorem Request.Requires.guard {r : Request} {good : Entitlements → Prop} (h : r.Requires good) :
    ∃ g : EntitledGuard, g.guard ∈ r.route.guards ∧ r.Asks g ∧
      ∀ value, r.Accepts value g → good value := by
  have hr := r.route.guarded
  cases h with
  | feature key hd h =>
    have hrequired : r.route.requiredFeature = some key := hr.feature.trans hd
    refine ⟨.feature, ?_, ?_, fun value hvalue => h value (hvalue key hrequired)⟩
    · rw [hr.guards]
      simp [Demand.guards, hd, EntitledGuard.guard]
    · simp [Request.Asks, hrequired]
  | subscription hd hmethod h =>
    refine ⟨.subscriptionAccess, ?_, hmethod, h⟩
    rw [hr.guards]
    simp [Demand.guards, hd, EntitledGuard.guard]

/-- The first enterprise and its subscription are suspended. -/
def suspend (db : Db) : Db :=
  { db with
    auth := db.auth.setEnterpriseStatus 1 .suspended
    billing := { db.billing with
      subscriptions := db.billing.subscriptions.update 41 (fun s => { s with status := .suspended })
        fun _ => rfl } }

/-- Its user invites somebody, and then it is suspended. -/
def suspensionSchedule : List (Act Answer Outside) :=
  List.replicate 12 (.run 0 .proceed) ++ [.env (.commit suspend fun _ => rfl)]

/-- Nothing commits. -/
def quiet (_ : ApiPool) : Act Answer Outside → Bool
  | .env (.tick _) => true
  | .env _ => false
  | .run _ _ => true

structure Suspended (P₁ P₂ P₃ : ApiPool) : Prop where
  reach₁ : Reach (api sampleEnv sampleJwt).system Always samplePool P₁
  reach₂ : Reach (api sampleEnv sampleJwt).system (fun P a => quiet P a = true) P₁ P₂
  reach₃ : Reach (api sampleEnv sampleJwt).system (fun P a => quiet P a = true) P₂ P₃
  account : P₁.shared.db.accountActive 10 = false
  blocked : blocked (P₁.shared.db.billing.resolve 1)
  settled : ∀ pid, (P₁.threads pid).2 = .arriving ∨ ∃ c, (P₁.threads pid).2 = .admitted c
  late : P₁.shared.now + 5000 ≤ P₂.shared.now
  arriving : (P₂.threads 1).2 = .arriving
  admitted : ∃ c, P₃.threads 1 = ((samplePool.threads 1).1, .admitted c)

theorem quiet_stays {P P' : ApiPool} (φ : Db → Prop)
    (hφ : ∀ db n, φ db → φ { db with auth := { db.auth with now := n } }) (h0 : φ P.shared.db)
    (h : Reach (api sampleEnv sampleJwt).system (fun P a => quiet P a = true) P P') :
    φ P'.shared.db ∧ Reach (api sampleEnv sampleJwt).system (Stays φ) P P' := by
  induction h with
  | init => exact ⟨h0, .init⟩
  | step hr hq hst ih =>
    rename_i Q Q' a
    have hK : Stays φ Q a := by
      cases a with
      | run pid i => trivial
      | env x =>
        cases x with
        | tick n => exact hφ _ _ ih.1
        | commit f hf => cases hq
        | invalidate process tenantId => cases hq
        | restart process => cases hq
    exact ⟨stays_step ih.1 hK hst, .step ih.2 hK hst⟩

theorem suspension : ∃ P₁ P₂ P₃, Suspended P₁ P₂ P₃ := by
  let M := (api sampleEnv sampleJwt).system
  have hrun : ((exec M (fun _ _ => true) samplePool suspensionSchedule).bind fun P₁ =>
      (exec M quiet P₁ [.env (.tick 5000)]).bind fun P₂ =>
        (exec M quiet P₂ (List.replicate 12 (.run 1 .proceed))).map fun P₃ =>
          (((P₁.threads 0).2.user?.isSome, P₁.shared.db.accountActive 10,
            (P₁.shared.db.billing.resolve 1).subscriptionStatus, P₁.shared.now),
            P₂.shared.now, (P₃.threads 1).2.user?)) =
      some ((true, false, some .suspended, 0), 5000, some (some ⟨20, some 2, false⟩)) := by
    decide +kernel
  obtain ⟨P₁, h₁, hrun⟩ := Option.bind_eq_some_iff.1 hrun
  obtain ⟨P₂, h₂, hrun⟩ := Option.bind_eq_some_iff.1 hrun
  obtain ⟨P₃, h₃, hres⟩ := Option.map_eq_some_iff.1 hrun
  simp only [Prod.mk.injEq] at hres
  obtain ⟨⟨hfirst, haccount, hstatus, hnow⟩, hlate, hlast⟩ := hres
  have hreach₁ : Reach M Always samplePool P₁ := Reach.of_exec _ (fun _ _ _ => trivial) _ h₁
  have hreach₂ := Reach.of_exec (C := fun P a => quiet P a = true) quiet (fun _ _ h => h) _ h₂
  have hreach₃ := Reach.of_exec (C := fun P a => quiet P a = true) quiet (fun _ _ h => h) _ h₃
  obtain ⟨c₀, hc₀⟩ : ∃ c, (P₁.threads 0).2 = .admitted c := by
    obtain ⟨user, huser⟩ := Option.isSome_iff_exists.1 hfirst
    obtain ⟨c, hc, -⟩ := RequestState.user?_eq_some huser
    exact ⟨c, hc⟩
  have hothers (pid : Nat) (hpid : pid ≠ 0) : (P₁.threads pid).2 = .arriving := by
    have hnot : ∀ i, Act.run pid i ∉ suspensionSchedule := fun i hmem => by
      simp [suspensionSchedule, hpid] at hmem
    rw [Machine.exec_other h₁ hnot]
    rfl
  obtain ⟨c, hc, -⟩ := RequestState.user?_eq_some hlast
  have hall := (hreach₁.trans hreach₂.always).trans hreach₃.always
  refine ⟨P₁, P₂, P₃, hreach₁, hreach₂, hreach₃, haccount, ⟨.suspended, by decide, hstatus⟩,
    fun pid => ?_, ?_, ?_, c, Prod.ext (request_reach hall 1) hc⟩
  · by_cases hpid : pid = 0
    · subst hpid
      exact .inr ⟨c₀, hc₀⟩
    · exact .inl (hothers pid hpid)
  · have hfirst : P₁.shared.now + 5000 = 5000 := congrArg (· + 5000) hnow
    exact Nat.le_of_eq (hfirst.trans hlate.symm)
  · have hnot : ∀ i : Answer, Act.run 1 i ∉ [(.env (.tick 5000) : Act Answer Outside)] := by simp
    rw [Machine.exec_other h₂ hnot]
    exact hothers 1 (by decide)

/-- The user of the other enterprise is served, and is not the one whose account is out. -/
theorem locked_out_sample : ∃ P₁ P₂ P₃ c, Suspended P₁ P₂ P₃ ∧
    P₃.threads 1 = ((samplePool.threads 1).1, .admitted c) ∧
    ∃ user, c.user = some user ∧ user.id ≠ 10 := by
  obtain ⟨P₁, P₂, P₃, h⟩ := suspension
  obtain ⟨c, hc⟩ := h.admitted
  have hout : ∀ db n, Db.accountActive db 10 = false →
      Db.accountActive { db with auth := { db.auth with now := n } } 10 = false := fun _ _ h => h
  obtain ⟨hout₂, h₂⟩ := quiet_stays (fun db => db.accountActive 10 = false) hout h.account h.reach₂
  obtain ⟨-, h₃⟩ := quiet_stays (fun db => db.accountActive 10 = false) hout hout₂ h.reach₃
  refine ⟨P₁, P₂, P₃, c, h, hc, locked_out sampleEnv sampleJwt samplePool P₁ P₂ P₃ samplePool_starts
    h.reach₁ 10 h.account ?_ h₂ h.late h₃ 1 h.arriving _ c hc (by decide +kernel)⟩
  rintro ⟨pid, payload, c', hthread, -⟩
  rcases h.settled pid with harriving | ⟨c'', hadmitted⟩
  · rw [harriving] at hthread
    cases hthread
  · rw [hadmitted] at hthread
    cases hthread

end Gescom.Access
