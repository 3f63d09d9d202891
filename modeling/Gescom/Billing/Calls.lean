import Gescom.Billing.Webhook
import Gescom.Lib.Transition

/-!
# The other billing calls, and the system of all of them

`PaymentLifecycleService.expirePendingPayments`, `SubscriptionLifecycleService.expireTrials` and
`suspendOverdueGracePeriods`, and `SubscriptionsService.changePlan`, in the same form as `handle`;
then `billing`, the machine whose threads are any number of such calls on one database.
-/

namespace Gescom.Billing

open ReadCommitted Transition

/-! ## `PaymentLifecycleService.expirePendingPayments` (`payment-lifecycle.service.ts:28`) -/

inductive ExpireState where
  | listing
  | next (rest : List Payment) (expiredCount : Nat)
  | auditing (payment : Payment) (rest : List Payment) (expiredCount : Nat)
  | finished (expiredCount : Nat)
  deriving DecidableEq, Repr

def expireLog (p : Payment) : AuditLog where
  enterpriseId := some p.enterpriseId
  action := .expirePayment
  resource := "Payment"
  resourceId := some p.id
  metadata := .expiry "pending_payment_expired" p.provider p.providerReference p.expiresAt

/-- `findExpirablePendingPayments`. -/
def Db.expirablePayments (db : Db) : List Payment :=
  db.payments.rows.filter fun p => p.status == .pending && p.expiredAt db.now

def ExpireState.step (pid : Nat) (s : BillingStore) :
    ExpireState → Option (BillingStore × ExpireState)
  | listing => some (s, .next s.db.expirablePayments 0)
  | next [] n => some (s, .finished n)
  | next (p :: rest) n =>
    match s.db.payments.find? p.id with
    | some row =>
      if row.status = .pending then
        if s.free pid (.payment p.id) then
          some (s.autocommit fun db => db.with [.settle p.id .expired row.paidAt],
            .auditing p rest n)
        else none
      else some (s, .next rest n)
    | none => some (s, .next rest n)
  | auditing p rest n => some (s.autocommit (Db.record (expireLog p)), .next rest (n + 1))
  | finished _ => none

/-- A statement of `expire` that throws is caught and logged, and the loop goes on (`:60`). -/
def ExpireState.failed : ExpireState → Option ExpireState
  | next (_ :: rest) n => some (.next rest n)
  | auditing _ rest n => some (.next rest n)
  | _ => none

/-! ## `SubscriptionLifecycleService` (`subscription-lifecycle.service.ts:34`) -/

inductive LifecycleJob where
  | expireTrials | suspendOverdueGracePeriods
  deriving DecidableEq, Repr

def LifecycleJob.toStatus : LifecycleJob → SubscriptionStatus
  | expireTrials => .expired
  | suspendOverdueGracePeriods => .suspended

def LifecycleJob.reason : LifecycleJob → String
  | expireTrials => "trial_expired"
  | suspendOverdueGracePeriods => "grace_period_expired"

def LifecycleJob.auditAction : LifecycleJob → AuditAction
  | expireTrials => .expireTrial
  | suspendOverdueGracePeriods => .suspendSubscription

def before (date : Option Instant) (now : Instant) : Bool :=
  match date with
  | some d => decide (d < now)
  | none => false

/-- `findExpirableTrialSubscriptions` and `findOverdueGracePeriodSubscriptions`. -/
def LifecycleJob.selects : LifecycleJob → Instant → Subscription → Bool
  | expireTrials, now, s => s.status == .trial && before s.trialEndDate now
  | suspendOverdueGracePeriods, now, s => s.status == .pastDue && before s.renewalDate now

inductive LifecycleState where
  | listing (j : LifecycleJob)
  | next (j : LifecycleJob) (rest : List Subscription) (count : Nat)
  | recordingEvent (j : LifecycleJob) (sub : Subscription) (rest : List Subscription) (count : Nat)
  | auditing (j : LifecycleJob) (sub : Subscription) (rest : List Subscription) (count : Nat)
  | finished (count : Nat)
  deriving DecidableEq, Repr

def lifecycleLog (j : LifecycleJob) (sub : Subscription) : AuditLog where
  enterpriseId := some sub.enterpriseId
  action := j.auditAction
  resource := "Subscription"
  resourceId := some sub.id
  metadata := .transition sub.status j.toStatus j.reason

def LifecycleState.step (pid : Nat) (s : BillingStore) :
    LifecycleState → Option (BillingStore × LifecycleState)
  | listing j =>
    let batch := s.db.subscriptions.rows.filter (j.selects s.db.now)
    some (s, .next j batch batch.length)
  | next _ [] n => some (s, .finished n)
  | next j (sub :: rest) n =>
    match assertSubscriptionTransition sub.status j.toStatus with
    | .error _ => some (s, .next j rest n)
    | .ok () =>
      -- `updateSubscriptionStatus`: compare-and-swap on the status read in the batch
      match s.db.subscriptions.find? sub.id with
      | some row =>
        if row.status = sub.status then
          if s.free pid (.subscription sub.id) then
            some (s.autocommit fun db => db.with [.transition sub.id j.toStatus row.renewalDate],
              .recordingEvent j sub rest n)
          else none
        else some (s, .next j rest n)
      | none => some (s, .next j rest n)
  | recordingEvent j sub rest n =>
    some (s.autocommit fun db => db.with [.event
        { subscriptionId := sub.id, fromStatus := sub.status, toStatus := j.toStatus
          reason := some j.reason }], .auditing j sub rest n)
  | auditing j sub rest n => some (s.autocommit (Db.record (lifecycleLog j sub)), .next j rest n)
  | finished _ => none

/-- A statement of `transition` that throws is caught and logged, and the loop goes on (`:94`). -/
def LifecycleState.failed : LifecycleState → Option LifecycleState
  | next j (_ :: rest) n => some (.next j rest n)
  | recordingEvent j _ rest n => some (.next j rest n)
  | auditing j _ rest n => some (.next j rest n)
  | _ => none

/-! ## `SubscriptionsService.changePlan` (`subscriptions.service.ts:35`) -/

structure ChangePlan where
  enterpriseId : Uuid
  newPlanId : Uuid
  actorUserId : Uuid
  reason : Option String
  deriving DecidableEq, Repr

inductive ChangePlanState where
  | findingSubscription (c : ChangePlan)
  | findingPlan (c : ChangePlan) (sub : Subscription)
  | updatingPlan (c : ChangePlan) (sub : Subscription)
  | recordingEvent (c : ChangePlan) (sub : Subscription)
  | committing (c : ChangePlan) (sub : Subscription)
  | auditing (c : ChangePlan) (sub : Subscription)
  | finished (r : Except ApiError Uuid)

/-- What the transaction writes (`:64-80`). -/
def ChangePlan.writes (c : ChangePlan) (sub : Subscription) : List Write :=
  [.changePlan sub.id c.newPlanId,
   .event
    { subscriptionId := sub.id, fromStatus := sub.status, toStatus := sub.status
      fromPlanId := some sub.planId, toPlanId := some c.newPlanId
      reason := c.reason, triggeredByUserId := some c.actorUserId }]

def changePlanLog (c : ChangePlan) (sub : Subscription) : AuditLog where
  userId := some c.actorUserId
  enterpriseId := some c.enterpriseId
  action := .changePlan
  resource := "Subscription"
  resourceId := some sub.id
  metadata := .planChange sub.planId c.newPlanId c.reason

def Db.currentSubscription (db : Db) (enterpriseId : Uuid) : Option Subscription := do
  let ent ← db.enterprises.find? enterpriseId
  db.subscriptions.find? (← ent.currentSubscriptionId)

def ChangePlanState.step (pid : Nat) (s : BillingStore) :
    ChangePlanState → Option (BillingStore × ChangePlanState)
  | findingSubscription c =>
    match s.db.currentSubscription c.enterpriseId with
    | none =>
      some (s, .finished (.error (.notFound "Aucun abonnement actif pour cette entreprise")))
    | some sub =>
      if sub.status.Terminal then
        some (s, .finished (.error (.conflict
          ("Impossible de changer de forfait : l'abonnement est " ++ sub.status.text))))
      else some (s, .findingPlan c sub)
  | findingPlan c sub =>
    if c.newPlanId ∉ s.db.planIds then
      some (s, .finished (.error (.notFound "Forfait introuvable")))
    else if sub.planId = c.newPlanId then
      some (s, .finished (.error (.conflict "L'entreprise est déjà sur ce forfait")))
    else some (s, .updatingPlan c sub)
  | updatingPlan c sub =>
    -- `update({ where: { id } })`: waits for the row lock, re-checks nothing but the id
    if s.free pid (.subscription sub.id) then
      match s.db.subscriptions.find? sub.id with
      | none => some (s.release pid, .finished (.error (.prisma .p2025)))
      | some _ => some (s.acquire pid (.subscription sub.id), .recordingEvent c sub)
    else none
  | recordingEvent c sub => some (s, .committing c sub)
  | committing c sub => some (s.commit pid fun db => db.with (c.writes sub), .auditing c sub)
  | auditing c sub =>
    some (s.autocommit fun db => Db.record (changePlanLog c sub)
      { db with invalidated := db.invalidated ++ [c.enterpriseId] }, .finished (.ok sub.id))
  | finished _ => none

/-! ## The system -/

/-- A call in progress. `thrown c`: a statement of `c` failed (connection, timeout, crash of the
process) at the point `c` had reached, and the error left the call. -/
inductive BillingCall where
  | webhook (st : HandleState)
  | expirePendingPayments (st : ExpireState)
  | lifecycle (st : LifecycleState)
  | changePlan (st : ChangePlanState)
  | thrown (c : BillingCall)

/-- What the outside feeds one step: the statement fails, or the identifier an insert draws. -/
structure Input where
  fail : Bool := false
  fresh : Uuid := 0
  deriving DecidableEq, Repr

/-- The call has returned. -/
def BillingCall.returned : BillingCall → Bool
  | webhook (.answered _ _) => true
  | expirePendingPayments (.finished _) => true
  | lifecycle (.finished _) => true
  | changePlan (.finished _) => true
  | thrown _ => true
  | _ => false

/-- What a failing statement does to the call: the jobs catch it, the other calls throw it. -/
def BillingCall.failed : BillingCall → BillingCall
  | expirePendingPayments st =>
    (st.failed.map expirePendingPayments).getD (thrown (expirePendingPayments st))
  | lifecycle st => (st.failed.map lifecycle).getD (thrown (lifecycle st))
  | c => thrown c

def BillingCall.step (cfg : Config) (pid : Nat) (fresh : Uuid) (s : BillingStore) :
    BillingCall → Option (BillingStore × BillingCall)
  | webhook st => (st.step cfg pid fresh s).map (Prod.map id webhook)
  | expirePendingPayments st => (st.step pid s).map (Prod.map id expirePendingPayments)
  | lifecycle st => (st.step pid s).map (Prod.map id lifecycle)
  | changePlan st => (st.step pid s).map (Prod.map id changePlan)
  | thrown _ => none

/-- Any number of billing calls on one database; the environment lets time pass. -/
def billing (cfg : Config) : Machine BillingStore BillingCall Input Nat where
  thread pid i s c :=
    if i.fail then if c.returned then none else some (s.release pid, c.failed)
    else c.step cfg pid i.fresh s
  env d s := { s with db := { s.db with now := s.db.now + d } }

/-- A call that has not executed a statement yet. -/
def BillingCall.Fresh : BillingCall → Prop
  | webhook (.received _) => True
  | expirePendingPayments .listing => True
  | lifecycle (.listing _) => True
  | changePlan (.findingSubscription _) => True
  | _ => False

abbrev BillingPool := Pool BillingStore BillingCall

/-- Where runs start: no call has begun and no lock is held; the database is arbitrary. -/
structure Starts (P : BillingPool) : Prop where
  fresh : ∀ pid, (P.threads pid).Fresh
  unlocked : ∀ k, P.shared.lock k = none

/-! ## A pool to run -/

/-- The hash is evaluated on the body `{}` only. -/
def sampleConfig : Config where
  paymentGracePeriodDays := 7
  sha256 _ := "44136fa355b3678a1146ad16f7e8649e94fb4fc21fe77e8310c060f61caaff8a"

def sampleDelivery (status : EventStatus) : Delivery where
  provider := .wave
  rawBody := "{}"
  verified := true
  event := some { providerReference := "ref", status, amount := 1000, currency := "XOF" }

/-- One enterprise on trial with one `PENDING` payment of its subscription. -/
def sampleDb : Db where
  payments := Table.empty.insert
    { id := 1, enterpriseId := 3, subscriptionId := some 2, provider := .wave,
      providerReference := some "ref", amount := 1000, currency := "XOF", status := .pending,
      expiresAt := none }
  subscriptions := Table.empty.insert
    { id := 2, enterpriseId := 3, planId := 4, status := .trial, trialEndDate := some 50,
      renewalDate := none }
  enterprises := Table.empty.insert { id := 3, name := "Client", currentSubscriptionId := some 2 }
  planIds := [4, 5]
  now := 10

def samplePool (db : Db) (calls : List BillingCall) : BillingPool where
  shared := { db, lock := fun _ => none }
  threads pid := calls.getD pid (.expirePendingPayments .listing)

theorem samplePool_starts {db : Db} {calls : List BillingCall} (h : ∀ c ∈ calls, c.Fresh) :
    Starts (samplePool db calls) where
  unlocked _ := rfl
  fresh pid := by
    simp only [samplePool, List.getD_eq_getElem?_getD]
    cases hc : calls[pid]? with
    | none => trivial
    | some c => exact h c (List.mem_of_getElem? hc)

/-- `n` statements of call `pid`. -/
def runs (pid n : Nat) (fresh : Uuid) : List (Act Input Nat) :=
  List.replicate n (.run pid { fresh })

end Gescom.Billing
