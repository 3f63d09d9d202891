import Gescom.Billing.History

/-!
# Grace periods

A failed payment sets `renewalDate` to the end of the grace period, and
`suspendOverdueGracePeriods` suspends the subscriptions whose date has passed. The job decides on a
batch it read at its start, and its compare-and-swap looks at the status only
(`cross-tenant.repository.ts:113`). `grace_honoured` gives the runs in which a suspended
subscription was overdue: those where its date has not moved since the job read it.
`renewed_then_suspended` is a run outside it.
-/

namespace Gescom.Billing

open ReadCommitted Transition

variable {cfg : Config} {pid : Nat} {fresh : Uuid} {s s' : BillingStore} {id : Uuid}

/-! ## A `PAST_DUE` subscription has a date -/

def Subscription.Dated (x : Subscription) : Prop := x.status = .pastDue → x.renewalDate.isSome

/-- The write does not leave a `PAST_DUE` subscription without a date. -/
def Write.Dated : Write → Prop
  | transition _ status renewalDate => status = .pastDue → renewalDate.isSome
  | _ => True

theorem Write.Dated.onSubscription {w : Write} (hw : w.Dated) {x : Subscription} (hx : x.Dated) :
    (w.onSubscription x).Dated := by
  cases w <;> simp only [Write.onSubscription]
  case transition id status renewalDate =>
    split
    · exact hw
    · exact hx
  case renew id renewalDate =>
    split
    · exact fun _ => rfl
    · exact hx
  case changePlan id planId =>
    split
    · exact hx
    · exact hx
  all_goals exact hx

theorem dated_onSubscription {ws : List Write} (hws : ∀ w ∈ ws, w.Dated) {x : Subscription}
    (hx : x.Dated) : (onSubscription ws x).Dated := by
  induction ws generalizing x with
  | nil => exact hx
  | cons w ws ih =>
    exact ih (fun w' hw' => hws w' (List.mem_cons_of_mem _ hw'))
      ((hws w List.mem_cons_self).onSubscription hx)

theorem dated_renewalOf (now : Instant) (sub : Subscription) {target : SubscriptionStatus}
    (h : target = .pastDue) : (renewalOf cfg now target sub).isSome := by
  rw [h]
  rfl

/-- The pending writes of an open transaction. -/
def HandleState.writes : HandleState → List Write
  | readingPayment t | readingSubscription t _ | readingEnterprise t _ _
  | transitioning t _ _ _ _ | recordingEvent t _ _ _ _ _ | renewing t _ _ _ | numbering t _ _ _
  | invoicing t _ _ _ _ | committing t _ => t.writes
  | _ => []

/-- Every write a webhook holds is dated. -/
def HandleState.Dated (st : HandleState) : Prop := ∀ w ∈ st.writes, w.Dated

def BillingCall.Dated : BillingCall → Prop
  | webhook st => st.Dated
  | _ => True

theorem dated_none {st : HandleState} (h : st.writes = []) : st.Dated := by
  intro w hw
  rw [h] at hw
  cases hw

theorem dated_push {t : Tx} {w : Write} (h : ∀ w ∈ t.writes, w.Dated) (hw : w.Dated) :
    ∀ w' ∈ (t.push w).writes, w'.Dated := by
  intro w' hw'
  rcases List.mem_append.1 hw' with hmem | hmem
  · exact h w' hmem
  · obtain rfl := List.mem_singleton.1 hmem
    exact hw

theorem dispatch_writes (h : Handling) : h.dispatch.writes = [] := by
  rcases dispatch_cases h with ⟨-, -, hd⟩ | ⟨-, hd⟩ | ⟨_, _, _, hd⟩ | ⟨_, -, hd⟩ <;> rw [hd] <;> rfl

theorem afterSubscription_writes (t : Tx) (u : Payment) (ent : Enterprise) (after : Subscription) :
    (afterSubscription t u ent after).writes = t.writes := by
  unfold afterSubscription
  split <;> rfl

theorem decide_writes {t : Tx} {u : Payment} {sub : Subscription} {ent : Enterprise}
    {next : HandleState} (hd : t.decide u sub ent = .ok next) : next.writes = t.writes := by
  rcases decide_cases hd with rfl | ⟨_, -, -, rfl⟩ | ⟨-, rfl⟩
  · exact afterSubscription_writes t u ent sub
  · rfl
  · rfl

theorem HandleState.dated_step {st st' : HandleState} (hA : st.Dated)
    (h : st.step cfg pid fresh s = some (s', st')) : st'.Dated := by
  cases step_cases h with
  | finds | rereads => exact dated_none (dispatch_writes _)
  | settles =>
    intro w hw
    rw [List.mem_singleton.1 hw]
    trivial
  | readsPayment | readsSubscription => exact hA
  | decides decided =>
    unfold Dated
    rw [decide_writes decided]
    exact hA
  | @transitions t sub row updated ent target =>
    exact dated_push hA fun htarget => dated_renewalOf s.db.now sub htarget
  | recordsEvent | renews =>
    unfold Dated
    rw [afterSubscription_writes]
    refine dated_push hA ?_
    trivial
  | numbers =>
    refine dated_push hA ?_
    trivial
  | invoices => refine dated_push (dated_push hA ?_) ?_ <;> trivial
  | _ => exact dated_none rfl

theorem BillingCall.dated_step {c c' : BillingCall} (hA : c.Dated)
    (h : c.step cfg pid fresh s = some (s', c')) : c'.Dated := by
  cases moves_of_step h with
  | webhook hst => exact HandleState.dated_step hA hst
  | expirePendingPayments | lifecycle | changePlan => trivial

theorem BillingCall.failed_dated (c : BillingCall) : c.failed.Dated := by
  rcases c.failed_cases with ⟨_, hc⟩ | ⟨_, _, hc⟩ | ⟨_, _, _, hc⟩ <;> rw [hc] <;> trivial

/-- Every stored subscription is dated. -/
def Db.Dated (db : Db) : Prop := ∀ x ∈ db.subscriptions.rows, x.Dated

theorem Db.Dated.with {db : Db} (h : db.Dated) {ws : List Write} (hws : ∀ w ∈ ws, w.Dated) :
    (db.with ws).Dated := by
  intro x' hx'
  rw [subscriptions_rows_with] at hx'
  obtain ⟨x, hx, rfl⟩ := List.mem_map.1 hx'
  exact dated_onSubscription hws (h x hx)

theorem LifecycleJob.toStatus_ne_pastDue (j : LifecycleJob) : j.toStatus ≠ .pastDue := by
  cases j <;> decide

theorem HistoryStep.dated {c c' : BillingCall} (h : HistoryStep s pid c s' c') (hI : s.db.Dated)
    (hA : c.Dated) : s'.db.Dated := by
  cases h with
  | same _ _ _ hsame =>
    unfold Db.Dated
    rw [hsame.rows]
    exact hI
  | swap j sub row rest n =>
    refine hI.with fun w hw => ?_
    rw [List.mem_singleton.1 hw]
    exact fun hj => absurd hj j.toStatus_ne_pastDue
  | event j sub rest n =>
    refine hI.with fun w hw => ?_
    rw [List.mem_singleton.1 hw]
    trivial
  | settle t after => exact hI.with hA
  | changePlan c sub =>
    refine hI.with fun w hw => ?_
    rcases List.mem_cons.1 hw with rfl | hw
    · trivial
    · rw [List.mem_singleton.1 hw]
      trivial

/-- The outline of dates, for every run. -/
theorem dates (cfg : Config) :
    Outline (billing cfg) Always (fun s => s.db.Dated) (fun _ c _ => c.Dated)
      (fun _ _ _ => True) where
  own P pid i s t _ hI hQ hst := by
    rcases billing_cases hst with ⟨-, rfl, rfl⟩ | ⟨-, hstep⟩
    · exact ⟨hI, BillingCall.failed_dated _, trivial⟩
    · exact ⟨(BillingCall.step_history hstep).dated hI hQ, BillingCall.dated_step hQ hstep, trivial⟩
  stable _ _ _ _ _ _ _ _ _ hQ := hQ
  env _ _ _ hI := ⟨hI, fun _ _ hQ => hQ⟩

theorem BillingCall.Fresh.dated {c : BillingCall} (h : c.Fresh) : c.Dated := by
  cases c with
  | webhook st =>
    cases st with
    | received d => exact dated_none rfl
    | _ => exact h.elim
  | _ => trivial

/-! ## A suspended subscription was overdue -/

/-- The batch a run of the job has still to go through was overdue at `now`. -/
def LifecycleState.Overdue (now : Instant) : LifecycleState → Prop
  | next .suspendOverdueGracePeriods rest _ | recordingEvent .suspendOverdueGracePeriods _ rest _
  | auditing .suspendOverdueGracePeriods _ rest _ =>
    ∀ sub ∈ rest, before sub.renewalDate now = true
  | finished _ => True
  | _ => False

def BillingCall.Overdue (now : Instant) : BillingCall → Prop
  | lifecycle st => st.Overdue now
  | thrown _ => True
  | _ => False

/-- The date of a subscription the job is about to suspend is the one it has read. -/
def DateUnmoved (P : BillingPool) : Act Input Nat → Prop
  | .run pid i => i.fail = false → ∀ sub rest n x,
      P.threads pid = .lifecycle (.next .suspendOverdueGracePeriods (sub :: rest) n) →
      P.shared.db.subscriptions.find? sub.id = some x → x.status = .pastDue →
      x.renewalDate = sub.renewalDate
  | .env _ => True

/-- In every run a `PAST_DUE` subscription has a date; in the runs whose steps meet `K`, what a run
of the job suspends was overdue when that run began. -/
structure GraceHonoured (cfg : Config) (K : BillingPool → Act Input Nat → Prop)
    (P₀ : BillingPool) : Prop where
  dated : ∀ P id x, Reach (billing cfg).system Always P₀ P →
    P.shared.db.subscriptions.find? id = some x → x.status = .pastDue → x.renewalDate.isSome
  overdue : ∀ P₁ i₁ P₁' P i P' pid id x x', Reach (billing cfg).system K P₀ P₁ →
    P₁.threads pid = .lifecycle (.listing .suspendOverdueGracePeriods) →
    (billing cfg).system.step P₁ (.run pid i₁) = some P₁' →
    Reach (billing cfg).system K P₁' P → K P (.run pid i) →
    (billing cfg).system.step P (.run pid i) = some P' →
    P.shared.db.subscriptions.find? id = some x → P'.shared.db.subscriptions.find? id = some x' →
    x.status = .pastDue → x'.status = .suspended →
    before x.renewalDate P₁.shared.db.now = true

theorem LifecycleState.overdue_step {now : Instant} {st st' : LifecycleState} (h : st.Overdue now)
    (hst : st.step pid s = some (s', st')) : st'.Overdue now := by
  cases st with
  | listing j => exact h.elim
  | next j rest n =>
    cases j with
    | expireTrials => exact h.elim
    | suspendOverdueGracePeriods =>
      cases rest with
      | nil =>
        cases hst
        trivial
      | cons sub rest =>
        have hrest : ∀ sub ∈ rest, before sub.renewalDate now = true :=
          fun sub' hmem => h sub' (List.mem_cons_of_mem _ hmem)
        simp only [step] at hst
        (repeat' split at hst) <;> cases hst <;> exact hrest
  | recordingEvent j sub rest n =>
    cases j with
    | expireTrials => exact h.elim
    | suspendOverdueGracePeriods =>
      cases hst
      exact h
  | auditing j sub rest n =>
    cases j with
    | expireTrials => exact h.elim
    | suspendOverdueGracePeriods =>
      cases hst
      exact h
  | finished n => cases hst

theorem BillingCall.failed_overdue {now : Instant} {c : BillingCall} (h : c.Overdue now) :
    c.failed.Overdue now := by
  cases c with
  | lifecycle st =>
    cases st with
    | listing j => exact h.elim
    | next j rest n =>
      cases j with
      | expireTrials => exact h.elim
      | suspendOverdueGracePeriods =>
        cases rest with
        | nil => trivial
        | cons sub rest => exact fun sub' hmem => h sub' (List.mem_cons_of_mem _ hmem)
    | recordingEvent j sub rest n =>
      cases j with
      | expireTrials => exact h.elim
      | suspendOverdueGracePeriods => exact h
    | auditing j sub rest n =>
      cases j with
      | expireTrials => exact h.elim
      | suspendOverdueGracePeriods => exact h
    | finished n => trivial
  | thrown c => trivial
  | _ => exact h.elim

/-- A thread that runs the job, one step later. -/
theorem overdue_run {now : Instant} {i : Input} {c c' : BillingCall} (h : c.Overdue now)
    (hst : (billing cfg).thread pid i s c = some (s', c')) : c'.Overdue now := by
  rcases billing_cases hst with ⟨-, -, rfl⟩ | ⟨-, hstep⟩
  · exact BillingCall.failed_overdue h
  · cases BillingCall.moves_of_step hstep with
    | lifecycle hjob => exact LifecycleState.overdue_step h hjob
    | webhook | expirePendingPayments | changePlan => exact h.elim

/-- The batch is read at the clock of its statement. -/
theorem overdue_listing {i : Input} {c' : BillingCall}
    (hst : (billing cfg).thread pid i s (.lifecycle (.listing .suspendOverdueGracePeriods)) =
      some (s', c')) : c'.Overdue s.db.now := by
  rcases billing_cases hst with ⟨-, -, rfl⟩ | ⟨-, hstep⟩
  · trivial
  · cases hstep
    intro sub hsub
    have hselects := (List.mem_filter.1 hsub).2
    simp only [LifecycleJob.selects, Bool.and_eq_true] at hselects
    exact hselects.2

theorem overdue_reach {K : BillingPool → Act Input Nat → Prop} {P P' : BillingPool} {now : Instant}
    (hr : Reach (billing cfg).system K P P') (h : (P.threads pid).Overdue now) :
    (P'.threads pid).Overdue now := by
  refine hr.inv (fun P => (P.threads pid).Overdue now) h fun P a P' _ ih _ hst => ?_
  rcases Machine.step_thread hst pid with hsame | ⟨i, s, t, -, hth, -, ht⟩
  · rw [hsame]
    exact ih
  · rw [ht]
    exact overdue_run ih hth

/-- What a run of the job suspends is at the head of its batch. -/
theorem suspended_head {now : Instant} {i : Input} {c c' : BillingCall} {x x' : Subscription}
    (h : c.Overdue now) (hst : (billing cfg).thread pid i s c = some (s', c'))
    (hx : s.db.subscriptions.find? id = some x) (hx' : s'.db.subscriptions.find? id = some x')
    (hne : x'.status ≠ x.status) : i.fail = false ∧ ∃ sub rest n,
      c = .lifecycle (.next .suspendOverdueGracePeriods (sub :: rest) n) ∧ sub.id = id := by
  have hphase : x'.phase ≠ x.phase := fun hsame => hne (congrArg Prod.fst hsame)
  rcases billing_cases hst with ⟨-, rfl, -⟩ | ⟨hfail, hstep⟩
  · obtain rfl := Option.some.inj (hx.symm.trans hx')
    exact absurd rfl hphase
  · refine ⟨hfail, ?_⟩
    cases BillingCall.step_history hstep with
    | same _ _ _ hsame =>
      have hrow : s'.db.subscriptions.find? id = s.db.subscriptions.find? id := by
        unfold Table.find?
        rw [hsame.rows]
      rw [hrow, hx] at hx'
      cases hx'
      exact absurd rfl hphase
    | swap j sub row rest n =>
      cases j with
      | expireTrials => exact h.elim
      | suspendOverdueGracePeriods =>
        refine ⟨sub, rest, n, rfl, ?_⟩
        by_contra hid
        refine hphase ((phase_with hx hx').trans ?_)
        rw [onSubscription_transition, id_of_find? hx, if_neg (Ne.symm hid)]
    | event j sub rest n => exact absurd (phase_with hx hx') hphase
    | settle => exact h.elim
    | changePlan => exact h.elim

/-- Where runs start: no call has begun and every subscription is on trial. -/
structure TrialStarts (P : BillingPool) : Prop extends Starts P where
  trial : ∀ x ∈ P.shared.db.subscriptions.rows, x.status = .trial

theorem TrialStarts.annotated {P : BillingPool} (h : TrialStarts P) :
    Annotated (fun s => s.db.Dated) (fun _ c _ => BillingCall.Dated c) P := by
  refine ⟨fun x hx hpast => ?_, fun pid => (h.fresh pid).dated⟩
  rw [h.trial x hx] at hpast
  cases hpast

/-- In every run in which no date moves between the read of the job and its update, grace periods
are honoured. -/
theorem grace_honoured (cfg : Config) {P₀ : BillingPool} (h0 : TrialStarts P₀) :
    GraceHonoured cfg DateUnmoved P₀ where
  dated P id x hr hx hpast :=
    ((dates cfg).sound h0.annotated hr).1 x (Table.mem_of_find? hx) hpast
  overdue P₁ i₁ P₁' P i P' pid id x x' _ hlisting hfirst hr hK hst hx hx' hpast hsuspended := by
    obtain ⟨s₁, t₁, hth₁, rfl⟩ := Machine.run_eq_some.1 hfirst
    rw [hlisting] at hth₁
    have hbatch : (P.threads pid).Overdue P₁.shared.db.now := by
      refine overdue_reach hr ?_
      simpa using overdue_listing hth₁
    obtain ⟨s, t, hth, rfl⟩ := Machine.run_eq_some.1 hst
    obtain ⟨hi, sub, rest, n, hcall, rfl⟩ := suspended_head hbatch hth hx hx'
      (by rw [hpast, hsuspended]; decide)
    rw [hcall] at hbatch
    rw [hK hi sub rest n x hcall hx hpast]
    exact hbatch sub List.mem_cons_self

def gracePayment (id : Uuid) (reference : String) : Payment where
  id := id
  enterpriseId := 3
  subscriptionId := some 2
  provider := .wave
  providerReference := some reference
  amount := 1000
  currency := "XOF"
  status := .pending
  expiresAt := none

def graceDelivery (reference : String) (status : EventStatus) : Delivery where
  provider := .wave
  rawBody := "{}"
  verified := true
  event := some { providerReference := reference, status, amount := 1000, currency := "XOF" }

/-- A subscription on trial with three payments, delivered as a success and two failures. -/
def graceDb : Db :=
  { sampleDb with
    payments := ((Table.empty
      |>.insert (gracePayment 11 "first")).insert (gracePayment 12 "second")).insert
        (gracePayment 13 "third") }

/-- Three webhooks and the job. -/
def gracePool : BillingPool := samplePool graceDb
  [.webhook (.received (graceDelivery "first" .succeeded)),
    .webhook (.received (graceDelivery "second" .failed)),
    .webhook (.received (graceDelivery "third" .failed)),
    .lifecycle (.listing .suspendOverdueGracePeriods)]

theorem gracePool_starts : TrialStarts gracePool where
  toStarts := samplePool_starts (by simp [BillingCall.Fresh])
  trial x hx := by
    rw [List.mem_singleton.1 hx]

theorem grace_honoured_sample : GraceHonoured sampleConfig DateUnmoved gracePool :=
  grace_honoured sampleConfig gracePool_starts

/-- The subscription is reactivated and then `PAST_DUE`; its grace period ends and the job lists it;
a further failure moves its date seven days ahead; the job suspends it at once. -/
theorem renewed_then_suspended :
    TrialStarts gracePool ∧ ¬ GraceHonoured sampleConfig Always gracePool := by
  refine ⟨gracePool_starts, fun h => ?_⟩
  have hrun : (exec (billing sampleConfig).system (fun _ _ => true) gracePool
      (runs 0 11 20 ++ runs 1 9 0 ++ [.env 700000000])).bind (fun P₁ =>
        ((billing sampleConfig).system.step P₁ (.run 3 {})).bind fun P₁' =>
          (exec (billing sampleConfig).system (fun _ _ => true) P₁' (runs 2 8 0)).bind fun P =>
            ((billing sampleConfig).system.step P (.run 3 {})).map fun P' =>
              (P₁.shared.db.now, P.shared.db.subscriptions.find? 2,
                P'.shared.db.subscriptions.find? 2)) =
      some (700000010,
        some ⟨2, 3, 4, .pastDue, some 50, some 1304800010⟩,
        some ⟨2, 3, 4, .suspended, some 50, some 1304800010⟩) := by decide +kernel
  obtain ⟨P₁, hP₁, hrest⟩ := Option.bind_eq_some_iff.1 hrun
  obtain ⟨P₁', hP₁', hrest⟩ := Option.bind_eq_some_iff.1 hrest
  obtain ⟨P, hP, hrest⟩ := Option.bind_eq_some_iff.1 hrest
  obtain ⟨P', hP', hres⟩ := Option.map_eq_some_iff.1 hrest
  simp only [Prod.mk.injEq] at hres
  obtain ⟨hnow, hx, hx'⟩ := hres
  have hlisting : P₁.threads 3 = .lifecycle (.listing .suspendOverdueGracePeriods) := by
    rw [Machine.exec_other hP₁ fun i => by simp [runs]]
    rfl
  have hoverdue := h.overdue P₁ {} P₁' P {} P' 3 2 _ _
    (Reach.of_exec _ (fun _ _ _ => trivial) _ hP₁) hlisting hP₁'
    (Reach.of_exec _ (fun _ _ _ => trivial) _ hP) trivial hP' hx hx' rfl rfl
  rw [hnow] at hoverdue
  exact absurd hoverdue (by decide)

end Gescom.Billing
