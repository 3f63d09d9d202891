import Gescom.Billing.Payments
import Mathlib.Algebra.Order.Ring.Nat

/-!
# Failed payments (`payments-webhook.service.ts:239`)

A `FAILED` event is meant to be recorded whatever the subscription has become: during the trial
`targetStatus` asks for no transition, because a refused one would leave the payment `PENDING` for
good. Past the trial it asks for `PAST_DUE`, and `ALLOWED_TRANSITIONS` has that from `ACTIVE` only:
once the subscription is `SUSPENDED`, `EXPIRED` or `CANCELLED` the event is refused and rolled back.
`failure_recorded_iff` says so of every database; `suspended_stays_pending` is one that is reached.
-/

namespace Gescom.Billing

open ReadCommitted Transition SubscriptionStatus

/-! ## The foreign keys of a payment -/

structure Db.References (db : Db) : Prop where
  subscription : ∀ p ∈ db.payments.rows, ∀ id, p.subscriptionId = some id →
    ∃ sub, db.subscriptions.find? id = some sub
  enterprise : ∀ p ∈ db.payments.rows, ∃ ent, db.enterprises.find? p.enterpriseId = some ent

variable {cfg : Config} {pid : Nat} {fresh : Uuid} {s s' : BillingStore}

/-- No row of these tables is deleted, and the keys of a payment do not change. -/
structure KeysKept (s s' : BillingStore) : Prop where
  payments : ∃ f : Payment → Payment, s'.db.payments.rows = s.db.payments.rows.map f ∧
    ∀ r, (f r).terms = r.terms
  subscriptions : ∃ f : Subscription → Subscription,
    s'.db.subscriptions.rows = s.db.subscriptions.rows.map f ∧ ∀ r, (f r).id = r.id
  enterprises : s'.db.enterprises = s.db.enterprises

theorem Db.References.keep (h : s.db.References) (hk : KeysKept s s') : s'.db.References := by
  obtain ⟨f, hpayments, hterms⟩ := hk.payments
  obtain ⟨g, hsubscriptions, hid⟩ := hk.subscriptions
  constructor
  · intro p hp id hsub
    rw [hpayments] at hp
    obtain ⟨r, hr, rfl⟩ := List.mem_map.1 hp
    have hsame : (f r).subscriptionId = r.subscriptionId :=
      show (f r).terms.subscriptionId = r.terms.subscriptionId by rw [hterms r]
    obtain ⟨sub, hfound⟩ := h.subscription r hr id (hsame.symm.trans hsub)
    exact ⟨g sub, by rw [Table.find?_of_rows_map hid hsubscriptions, hfound]; rfl⟩
  · intro p hp
    rw [hpayments] at hp
    obtain ⟨r, hr, rfl⟩ := List.mem_map.1 hp
    have hsame : (f r).enterpriseId = r.enterpriseId :=
      show (f r).terms.enterpriseId = r.terms.enterpriseId by rw [hterms r]
    rw [hsame, hk.enterprises]
    exact h.enterprise r hr

theorem enterprises_with (db : Db) (ws : List Write) :
    (db.with ws).enterprises = db.enterprises := by
  induction ws generalizing db with
  | nil => rfl
  | cons w ws ih => rw [with_cons, ih]; rfl

theorem HandleState.step_enterprises {st st' : HandleState}
    (h : st.step cfg pid fresh s = some (s', st')) : s'.db.enterprises = s.db.enterprises := by
  cases step_cases h with
  | expires r e found pending free => exact enterprises_with s.db _
  | commits t after => exact enterprises_with s.db _
  | _ => rfl

/-- The statements of a job commit one by one. -/
structure JobStep (s s' : BillingStore) : Prop where
  lock : s'.lock = s.lock
  enterprises : s'.db.enterprises = s.db.enterprises

theorem JobStep.refl (s : BillingStore) : JobStep s s := ⟨rfl, rfl⟩

theorem JobStep.with (s : BillingStore) (ws : List Write) :
    JobStep s (s.autocommit fun db => db.with ws) := ⟨rfl, enterprises_with s.db ws⟩

theorem JobStep.record (s : BillingStore) (l : AuditLog) :
    JobStep s (s.autocommit (Db.record l)) := ⟨rfl, rfl⟩

theorem ExpireState.jobStep {st st' : ExpireState} (h : st.step pid s = some (s', st')) :
    JobStep s s' := by
  unfold step at h
  split at h
  · cases h
    exact .refl s
  · cases h
    exact .refl s
  · split at h
    · split at h
      · split at h <;> cases h
        exact .with s _
      · cases h
        exact .refl s
    · cases h
      exact .refl s
  · cases h
    exact .record s _
  · cases h

theorem LifecycleState.jobStep {st st' : LifecycleState} (h : st.step pid s = some (s', st')) :
    JobStep s s' := by
  unfold step at h
  split at h
  · cases h
    exact .refl s
  · cases h
    exact .refl s
  · split at h
    · cases h
      exact .refl s
    · split at h
      · split at h
        · split at h <;> cases h
          exact .with s _
        · cases h
          exact .refl s
      · cases h
        exact .refl s
  · cases h
    exact .with s _
  · cases h
    exact .record s _
  · cases h

theorem ChangePlanState.step_enterprises {st st' : ChangePlanState}
    (h : st.step pid s = some (s', st')) : s'.db.enterprises = s.db.enterprises := by
  cases st <;> simp only [step] at h
  case findingSubscription c =>
    split at h
    · cases h
      rfl
    · split at h <;> cases h <;> rfl
  case findingPlan c sub =>
    split at h
    · cases h
      rfl
    · split at h <;> cases h <;> rfl
  case updatingPlan c sub =>
    split at h
    · split at h <;> cases h <;> rfl
    · cases h
  case committing c sub =>
    cases h
    exact enterprises_with s.db _
  case finished r => cases h
  all_goals
    cases h
    rfl

theorem billing_enterprises {i : Input} {c c' : BillingCall}
    (h : (billing cfg).thread pid i s c = some (s', c')) :
    s'.db.enterprises = s.db.enterprises := by
  rcases billing_cases h with ⟨-, rfl, -⟩ | ⟨-, hstep⟩
  · rfl
  · cases BillingCall.moves_of_step hstep with
    | webhook hst => exact HandleState.step_enterprises hst
    | expirePendingPayments hst => exact (ExpireState.jobStep hst).enterprises
    | lifecycle hst => exact (LifecycleState.jobStep hst).enterprises
    | changePlan hst => exact ChangePlanState.step_enterprises hst

theorem KeysKept.of_writes (ws : List Write) (hp : s'.db.payments = (s.db.with ws).payments)
    (hs : s'.db.subscriptions = (s.db.with ws).subscriptions)
    (he : s'.db.enterprises = s.db.enterprises) : KeysKept s s' where
  payments := ⟨onPayment ws, by rw [hp, payments_rows_with], onPayment_terms ws⟩
  subscriptions := ⟨onSubscription ws, by rw [hs, subscriptions_rows_with], onSubscription_id ws⟩
  enterprises := he

theorem KeysKept.of_effect {c : BillingCall} (h : Effect pid s c s')
    (he : s'.db.enterprises = s.db.enterprises) : KeysKept s s' := by
  cases h with
  | quiet h => exact .of_writes [] (Table.ext h.payments) (Table.ext h.subscriptions) he
  | flag hd stmt =>
    exact ⟨⟨_, rfl, fun r => by split <;> rfl⟩, ⟨id, (List.map_id _).symm, fun _ => rfl⟩, he⟩
  | expirePayment id row found pending free => exact .of_writes _ rfl rfl he
  | transition j row found allowed free => exact .of_writes _ rfl rfl he
  | settle t after stmt => exact .of_writes _ rfl rfl he
  | changePlan p sub stmt => exact .of_writes _ rfl rfl he

theorem references_of_reach {P₀ P : BillingPool} (h0 : P₀.shared.db.References)
    (h : Reach (billing cfg).system Always P₀ P) : P.shared.db.References := by
  refine h.inv (fun P => P.shared.db.References) h0 fun P a P' _ ih _ hstep => ?_
  cases a with
  | run pid i =>
    obtain ⟨s, c, hthread, rfl⟩ := Machine.run_eq_some.1 hstep
    exact ih.keep (.of_effect (billing_effect hthread) (billing_enterprises hthread))
  | env d =>
    obtain rfl := Machine.env_eq_some.1 hstep
    exact ⟨ih.subscription, ih.enterprise⟩

/-! ## One delivery alone -/

/-- The statements of `handle` with nobody else's in between, while time passes. -/
def handleAlone (cfg : Config) (pid : Nat) (fresh : Uuid) (ticks : List Nat) (s : BillingStore)
    (d : Delivery) : BillingStore × HandleState :=
  attended (HandleState.step cfg pid fresh) (billing cfg).env ticks s (.received d)

/-- An authentic `FAILED` event, the `PENDING` payment it names and the subscription of this one;
`lookup` is when the payment is read. -/
structure FailureOf (db : Db) (lookup : Instant) (a : AuthenticEvent) (p : Payment)
    (sub : Subscription) : Prop where
  failed : a.event.status = .failed
  found : db.findPayment a.delivery.provider a.event.providerReference = some p
  pending : p.status = .pending
  unexpired : p.expiredAt lookup = false
  amount : p.amount = a.event.amount
  currency : p.currency = a.event.currency
  subscriptionId : p.subscriptionId = some sub.id
  row : db.subscriptions.find? sub.id = some sub

/-- What a recorded failure may make of the subscription. -/
inductive SubscriptionChange (sub : Subscription) : Subscription → Prop
  | kept : SubscriptionChange sub sub
  | transition (status : SubscriptionStatus) (renewalDate : Instant)
      (allowed : canTransitionSubscription sub.status status = true) :
      SubscriptionChange sub { sub with status, renewalDate := some renewalDate }
  | renewed (renewalDate : Instant) :
      SubscriptionChange sub { sub with renewalDate := some renewalDate }

/-- The payment is `FAILED`, and its subscription has changed as it may. -/
structure PaymentFailed (p : Payment) (sub : Subscription) (db : Db) : Prop where
  failed : db.statusOf p.id = some .failed
  subscription : ∃ sub', db.subscriptions.find? sub.id = some sub' ∧ SubscriptionChange sub sub'

/-- The call answers `processed`, and the failure is recorded. -/
structure FailureRecorded (p : Payment) (sub : Subscription) (d : Delivery)
    (final : BillingStore × HandleState) : Prop where
  processed : final.2 = .answered d (.ok ⟨.processed, p.id⟩)
  recorded : PaymentFailed p sub final.1.db

/-! ## From one statement to the end -/

/-- `Q` is about the rows of payments and subscriptions only. -/
def RowsOnly (Q : Db → Prop) : Prop :=
  ∀ db db', db'.payments = db.payments → db'.subscriptions = db.subscriptions → Q db → Q db'

theorem RowsOnly.with {Q : Db → Prop} (hQ : RowsOnly Q) (db : Db) {db' : Db} {ws : List Write}
    (hp : db'.payments = db.payments) (hs : db'.subscriptions = db.subscriptions)
    (h : Q (db.with ws)) : Q (db'.with ws) := by
  refine hQ _ _ ?_ ?_ h
  · exact Table.ext (by rw [payments_rows_with, payments_rows_with, hp])
  · exact Table.ext (by rw [subscriptions_rows_with, subscriptions_rows_with, hs])

theorem RowsOnly.env {Q : Db → Prop} (hQ : RowsOnly Q) (e : Nat) (h : Q s.db) :
    Q ((billing cfg).env e s).db := hQ s.db _ rfl rfl h

theorem RowsOnly.autocommit {Q : Db → Prop} (hQ : RowsOnly Q) {f : Db → Db}
    (hp : ∀ db, (f db).payments = db.payments) (hs : ∀ db, (f db).subscriptions = db.subscriptions)
    (h : Q s.db) : Q (s.autocommit f).db := hQ s.db _ (hp s.db) (hs s.db) h

/-- Within `n` statements the call answers `r`, with `Q` of the database. -/
abbrev Answers (cfg : Config) (pid : Nat) (fresh : Uuid) (Q : Db → Prop) (d : Delivery)
    (r : Except ApiError WebhookResult) (n : Nat) (s : BillingStore) (st : HandleState) : Prop :=
  Ends (HandleState.step cfg pid fresh) (billing cfg).env
    (fun s st => st = .answered d r ∧ Q s.db) n s st

section
variable {Q : Db → Prop} (hQ : RowsOnly Q) {d : Delivery} {r : Except ApiError WebhookResult}
  {h : Handling} {t : Tx}

include hQ

theorem answers_answered (hdb : Q s.db) : Answers cfg pid fresh Q d r 0 s (.answered d r) :=
  Ends.over (fun _ => rfl) (fun _ s hs => ⟨hs.1, hQ s.db _ rfl rfl hs.2⟩) ⟨rfl, hdb⟩

theorem answers_rejecting (r : Rejection) (e : ApiError) (hdb : Q s.db) :
    Answers cfg pid fresh Q d (.error e) 1 s (.rejecting d r e) :=
  Ends.step fun _ => ⟨_, _, rfl, answers_answered hQ (hQ s.db _ rfl rfl hdb)⟩

theorem answers_notifying (after : Subscription) (u : User) (hdb : Q s.db) :
    Answers cfg pid fresh Q h.delivery (.ok ⟨.processed, h.payment.id⟩) 1 s
      (.notifying h after u) :=
  Ends.step fun e => ⟨_, _, rfl,
    answers_answered hQ (hQ.autocommit (fun _ => rfl) (fun _ => rfl) (hQ.env e hdb))⟩

theorem answers_findingRecipient (after : Subscription) (hdb : Q s.db) :
    Answers cfg pid fresh Q h.delivery (.ok ⟨.processed, h.payment.id⟩) 2 s
      (.findingRecipient h after) := by
  refine Ends.step fun e => ?_
  have hkept : Q ((billing cfg).env e s).db := hQ.env e hdb
  simp only [HandleState.step]
  split
  · exact ⟨_, _, rfl, (answers_answered hQ hkept).mono (Nat.zero_le 1)⟩
  · exact ⟨_, _, rfl, answers_notifying hQ after _ hkept⟩

theorem answers_auditing (after : Subscription) (hdb : Q s.db) :
    Answers cfg pid fresh Q h.delivery (.ok ⟨.processed, h.payment.id⟩) 3 s (.auditing h after) :=
  Ends.step fun e => ⟨_, _, rfl, answers_findingRecipient hQ after
    (hQ.autocommit (fun _ => rfl) (fun _ => rfl) (hQ.env e hdb))⟩

/-- The commit, at whatever time. -/
theorem answers_committing (after : Subscription) (hdb : Q (s.db.with t.writes)) :
    Answers cfg pid fresh Q t.delivery (.ok ⟨.processed, t.payment.id⟩) 4 s
      (.committing t after) := by
  refine Ends.step fun e => ⟨_, _, rfl, answers_auditing hQ after ?_⟩
  exact hQ.with s.db rfl rfl hdb

theorem answers_renewing {sub : Subscription} (u : Payment) (ent : Enterprise)
    (halone : s.Alone pid) (hrow : s.db.subscriptions.find? sub.id = some sub)
    (hfailed : t.event.status = .failed)
    (hdb : ∀ date, Q (s.db.with (t.writes ++ [.renew sub.id date]))) :
    Answers cfg pid fresh Q t.delivery (.ok ⟨.processed, t.payment.id⟩) 5 s
      (.renewing t u sub ent) := by
  refine Ends.step fun e => ?_
  have hfree : ((billing cfg).env e s).free pid (.subscription sub.id) = true := halone.free _
  have hrow' : ((billing cfg).env e s).db.subscriptions.find? sub.id = some sub := hrow
  simp only [HandleState.step, hfree, hrow', if_true, afterSubscription, Tx.push, hfailed]
  exact ⟨_, _, rfl, answers_committing hQ (t := t.push _) _ (hQ.with s.db rfl rfl (hdb _))⟩

theorem answers_transitioning {sub : Subscription} (u : Payment) (ent : Enterprise)
    (halone : s.Alone pid) (hrow : s.db.subscriptions.find? sub.id = some sub)
    (hfailed : t.event.status = .failed)
    (hdb : ∀ date e, Q (s.db.with
      (t.writes ++ [.transition sub.id pastDue (some date)] ++ [.event e]))) :
    Answers cfg pid fresh Q t.delivery (.ok ⟨.processed, t.payment.id⟩) 6 s
      (.transitioning t u sub ent pastDue) := by
  refine Ends.step fun e => ?_
  have hfree : ((billing cfg).env e s).free pid (.subscription sub.id) = true := halone.free _
  have hrow' : ((billing cfg).env e s).db.subscriptions.find? sub.id = some sub := hrow
  simp only [HandleState.step, hfree, hrow', if_true]
  refine ⟨_, _, rfl, Ends.step fun e' => ?_⟩
  simp only [HandleState.step, afterSubscription, Tx.push, hfailed, renewalOf, if_true]
  exact ⟨_, _, rfl, answers_committing hQ (t := (t.push _).push _) _
    (hQ.with s.db rfl rfl (hdb _ _))⟩

/-- A refused transition: the transaction is rolled back. -/
theorem answers_refused {sub : Subscription} {u : Payment} {ent : Enterprise} {e : ApiError}
    (hent : s.db.enterprises.find? t.payment.enterpriseId = some ent)
    (hdecide : t.decide u sub ent = .error e) (hdb : Q s.db) :
    Answers cfg pid fresh Q t.delivery (.error e) 2 s (.readingEnterprise t u sub) := by
  refine Ends.step fun e => ?_
  have hent' : ((billing cfg).env e s).db.enterprises.find? t.payment.enterpriseId = some ent :=
    hent
  simp only [HandleState.step, hent', hdecide, rollbackTo]
  exact ⟨_, _, rfl, answers_rejecting hQ _ _ (hQ s.db _ rfl rfl hdb)⟩

end

/-! ## Up to the decision -/

theorem answers_decided {Q : Db → Prop} {d : Delivery} {r : Except ApiError WebhookResult} {t : Tx}
    {sub : Subscription} {u : Payment} {ent : Enterprise} {st : HandleState} {n : Nat}
    (hent : s.db.enterprises.find? t.payment.enterpriseId = some ent)
    (hdecide : t.decide u sub ent = .ok st)
    (hst : ∀ e, Answers cfg pid fresh Q d r n ((billing cfg).env e s) st) :
    Answers cfg pid fresh Q d r (n + 1) s (.readingEnterprise t u sub) := by
  refine Ends.step fun e => ?_
  have hent' : ((billing cfg).env e s).db.enterprises.find? t.payment.enterpriseId = some ent :=
    hent
  simp only [HandleState.step, hent', hdecide]
  exact ⟨_, _, rfl, hst e⟩

/-- The transaction of a failure, when it has marked the payment. -/
def failingTx (a : AuthenticEvent) (p : Payment) (sub : Subscription) : Tx where
  toAuthenticEvent := a
  payment := p
  subscriptionId := sub.id
  writes := [.settle p.id .failed none]

/-- Nothing is committed, and no other transaction holds a lock. -/
structure Undisturbed (pid : Nat) (s s' : BillingStore) : Prop where
  payments : s'.db.payments = s.db.payments
  subscriptions : s'.db.subscriptions = s.db.subscriptions
  enterprises : s'.db.enterprises = s.db.enterprises
  alone : s'.Alone pid

variable {ticks : List Nat} {lookup : Instant} {a : AuthenticEvent} {p : Payment}
  {sub : Subscription}

theorem FailureOf.payment (h : FailureOf s.db lookup a p sub) :
    s.db.payments.find? p.id = some p := Table.find?_of_findBy h.found

theorem step_received (a : AuthenticEvent) :
    HandleState.step cfg pid fresh s (.received a.delivery) = some (s, .findingPayment a) := by
  obtain ⟨d, ev, hv, hp⟩ := a
  simp only [HandleState.step]
  rw [dif_pos hv]
  split
  · rename_i hnone
    rw [hnone] at hp
    cases hp
  · rename_i ev' hev
    obtain rfl : ev = ev' := Option.some.inj (hp.symm.trans hev)
    rfl

theorem FailureOf.dispatch (h : FailureOf s.db lookup a p sub) :
    Handling.dispatch ⟨a, p⟩ = .settling ⟨a, p⟩ sub.id := by
  simp [Handling.dispatch, h.pending, h.amount, h.currency, h.subscriptionId]

theorem Undisturbed.refl (h : s.Alone pid) : Undisturbed pid s s := ⟨rfl, rfl, rfl, h⟩

theorem Undisturbed.tick (h : Undisturbed pid s s') (cfg : Config) (e : Nat) :
    Undisturbed pid s ((billing cfg).env e s') :=
  ⟨h.payments, h.subscriptions, h.enterprises, h.alone⟩

theorem Undisturbed.acquire (h : Undisturbed pid s s') (k : Lock) :
    Undisturbed pid s (s'.acquire pid k) :=
  ⟨h.payments, h.subscriptions, h.enterprises, h.alone.acquire k⟩

theorem step_settling (h : FailureOf s.db lookup a p sub) (hs : Undisturbed pid s s') :
    HandleState.step cfg pid fresh s' (.settling ⟨a, p⟩ sub.id) =
      some (s'.acquire pid (.payment p.id), .readingPayment (failingTx a p sub)) := by
  have hfound : s'.db.payments.find? p.id = some p := hs.payments ▸ h.payment
  simp [HandleState.step, hfound, h.pending, hs.alone.free, failingTx, h.failed,
    EventStatus.toPayment]

theorem step_readingPayment (cfg : Config) (fresh : Uuid) (h : FailureOf s.db lookup a p sub) (hs : Undisturbed pid s s') :
    ∃ u, HandleState.step cfg pid fresh s' (.readingPayment (failingTx a p sub)) =
      some (s', .readingSubscription (failingTx a p sub) u) := by
  have hfound : (s'.db.with (failingTx a p sub).writes).payments.find? p.id =
      some (onPayment (failingTx a p sub).writes p) := by
    rw [find?_payments_with, hs.payments, h.payment]
    rfl
  refine ⟨onPayment (failingTx a p sub).writes p, ?_⟩
  simp only [HandleState.step]
  rw [show (failingTx a p sub).payment.id = p.id from rfl, hfound]

theorem step_readingSubscription (h : FailureOf s.db lookup a p sub) (hs : Undisturbed pid s s')
    (u : Payment) :
    HandleState.step cfg pid fresh s' (.readingSubscription (failingTx a p sub) u) =
      some (s', .readingEnterprise (failingTx a p sub) u sub) := by
  have hfound : (s'.db.with (failingTx a p sub).writes).subscriptions.find? sub.id = some sub := by
    rw [find?_subscriptions_with, hs.subscriptions, h.row]
    rfl
  simp only [HandleState.step]
  rw [show (failingTx a p sub).subscriptionId = sub.id from rfl, hfound]

section
variable {Q : Db → Prop} {r : Except ApiError WebhookResult} {n : Nat}

theorem answers_settling (h : FailureOf s.db lookup a p sub) (hs : Undisturbed pid s s')
    (hst : ∀ s' u, Undisturbed pid s s' →
      Answers cfg pid fresh Q a.delivery r n s' (.readingEnterprise (failingTx a p sub) u sub)) :
    Answers cfg pid fresh Q a.delivery r (n + 3) s' (.settling ⟨a, p⟩ sub.id) := by
  refine Ends.step fun e => ⟨_, _, step_settling h (hs.tick cfg e), Ends.step fun e' => ?_⟩
  have hs' := ((hs.tick cfg e).acquire (.payment p.id)).tick cfg e'
  obtain ⟨u, hread⟩ := step_readingPayment cfg fresh h hs'
  refine ⟨_, _, hread, Ends.step fun e'' => ?_⟩
  exact ⟨_, _, step_readingSubscription h (hs'.tick cfg e'') u, hst _ u (hs'.tick cfg e'')⟩

/-- From the look-up of the payment to the look-up of the enterprise. -/
theorem handleAlone_reaches (cfg : Config) (fresh : Uuid)
    (h : FailureOf s.db (s.db.now + (ticks.take 2).sum) a p sub) (halone : s.Alone pid)
    (hst : ∀ s' u, Undisturbed pid s s' →
      Answers cfg pid fresh Q a.delivery r n s' (.readingEnterprise (failingTx a p sub) u sub))
    (hlen : n + 5 ≤ ticks.length) :
    (handleAlone cfg pid fresh ticks s a.delivery).2 = .answered a.delivery r ∧
      Q (handleAlone cfg pid fresh ticks s a.delivery).1.db := by
  cases ticks with
  | nil => exact absurd hlen (by simp)
  | cons e ticks =>
    cases ticks with
    | nil => exact absurd hlen (by simp)
    | cons e' ticks =>
      have htime : s.db.now + ((e :: e' :: ticks).take 2).sum = s.db.now + e + e' := by
        simp [Nat.add_assoc]
      have hs := ((Undisturbed.refl halone).tick cfg e).tick cfg e'
      have hfinds : HandleState.step cfg pid fresh
          ((billing cfg).env e' ((billing cfg).env e s)) (.findingPayment a) =
            some ((billing cfg).env e' ((billing cfg).env e s), .settling ⟨a, p⟩ sub.id) := by
        have hfound : ((billing cfg).env e' ((billing cfg).env e s)).db.findPayment
            a.delivery.provider a.event.providerReference = some p := h.found
        have hcurrent : p.expiredAt
            ((billing cfg).env e' ((billing cfg).env e s)).db.now = false :=
          (congrArg p.expiredAt htime).symm.trans h.unexpired
        simp only [HandleState.step, hfound, hcurrent, h.dispatch]
        rw [if_neg (by simp)]
      unfold handleAlone
      rw [attended_cons (step_received a), attended_cons hfinds]
      exact answers_settling h hs hst ticks
        (Nat.le_of_succ_le_succ (Nat.le_of_succ_le_succ hlen))

end

/-! ## The decision -/

/-- The statuses from which `targetStatus` of a failure is no move, or an allowed one. -/
def FailureAllowed (status : SubscriptionStatus) : Prop :=
  status = trial ∨ status = active ∨ status = pastDue

theorem decide_refused (h : a.event.status = .failed) (hsub : ¬ FailureAllowed sub.status)
    (u : Payment) (ent : Enterprise) : (failingTx a p sub).decide u sub ent =
      .error (.conflict (InvalidSubscriptionTransition.message ⟨sub.status, pastDue⟩)) := by
  unfold FailureAllowed at hsub
  simp only [Tx.decide, failingTx, h, targetStatus]
  revert hsub
  cases sub.status <;> simp [assertSubscriptionTransition, canTransitionSubscription,
    allowedTransitions]

theorem rowsOnly_paymentFailed (p : Payment) (sub : Subscription) : RowsOnly (PaymentFailed p sub) := by
  intro db db' hp hs h
  refine ⟨?_, ?_⟩
  · rw [Db.statusOf, hp]
    exact h.failed
  · rw [hs]
    exact h.subscription

/-- The writes of the transaction, on the rows they are about. -/
theorem paymentFailed_with (h : FailureOf s.db lookup a p sub) (hs : Undisturbed pid s s')
    {ws : List Write} (hfailed : (onPayment ws p).status = .failed)
    (hchange : SubscriptionChange sub (onSubscription ws sub)) :
    PaymentFailed p sub (s'.db.with ws) where
  failed := by
    rw [Db.statusOf, find?_payments_with, hs.payments, h.payment]
    exact congrArg some hfailed
  subscription := by
    refine ⟨_, ?_, hchange⟩
    rw [find?_subscriptions_with, hs.subscriptions, h.row]
    rfl

/-- An allowed failure is recorded, in every branch of the decision. -/
theorem answers_allowed (h : FailureOf s.db lookup a p sub) (hs : Undisturbed pid s s')
    (hsub : FailureAllowed sub.status) {ent : Enterprise}
    (hent : s'.db.enterprises.find? p.enterpriseId = some ent) (u : Payment) :
    Answers cfg pid fresh (PaymentFailed p sub) a.delivery (.ok ⟨.processed, p.id⟩) 7 s'
      (.readingEnterprise (failingTx a p sub) u sub) := by
  have hQ := rowsOnly_paymentFailed p sub
  have hevent : (failingTx a p sub).event.status = .failed := h.failed
  obtain htrial | hactive | hpastDue := hsub
  · have hdecide : (failingTx a p sub).decide u sub ent =
        .ok (.committing (failingTx a p sub) sub) := by
      simp [Tx.decide, hevent, targetStatus, htrial, afterSubscription]
    refine Ends.mono (n := 5) (answers_decided hent hdecide fun e => ?_) (by decide)
    refine answers_committing hQ (t := failingTx a p sub) sub (paymentFailed_with h (hs.tick cfg e) ?_ ?_)
    · simp [failingTx, onPayment, Write.onPayment]
    · exact .kept
  · have hdecide : (failingTx a p sub).decide u sub ent =
        .ok (.transitioning (failingTx a p sub) u sub ent pastDue) := by
      simp [Tx.decide, hevent, targetStatus, hactive, assertSubscriptionTransition,
        canTransitionSubscription, allowedTransitions]
    refine answers_decided hent hdecide fun e => ?_
    refine answers_transitioning hQ (t := failingTx a p sub) u ent hs.alone
      (hs.subscriptions ▸ h.row) hevent fun date ev => paymentFailed_with h (hs.tick cfg e) ?_ ?_
    · simp [failingTx, onPayment, Write.onPayment]
    · have hnew : onSubscription ((failingTx a p sub).writes ++
          [.transition sub.id pastDue (some date)] ++ [.event ev]) sub =
            { sub with status := pastDue, renewalDate := some date } := by
        simp [failingTx, onSubscription, Write.onSubscription]
      rw [hnew]
      exact .transition pastDue date (by rw [hactive]; decide)
  · have hdecide : (failingTx a p sub).decide u sub ent =
        .ok (.renewing (failingTx a p sub) u sub ent) := by
      simp [Tx.decide, hevent, targetStatus, hpastDue]
    refine Ends.mono (n := 6) (answers_decided hent hdecide fun e => ?_) (by decide)
    refine answers_renewing hQ (t := failingTx a p sub) u ent hs.alone
      (hs.subscriptions ▸ h.row) hevent fun date => paymentFailed_with h (hs.tick cfg e) ?_ ?_
    · simp [failingTx, onPayment, Write.onPayment]
    · have hnew : onSubscription ((failingTx a p sub).writes ++ [.renew sub.id date]) sub =
          { sub with renewalDate := some date } := by
        simp [failingTx, onSubscription, Write.onSubscription]
      rw [hnew]
      exact .renewed date

/-- A refused failure leaves the payment as it was. -/
theorem answers_forbidden (h : FailureOf s.db lookup a p sub) (hs : Undisturbed pid s s')
    (hsub : ¬ FailureAllowed sub.status) {ent : Enterprise}
    (hent : s'.db.enterprises.find? p.enterpriseId = some ent) (u : Payment) :
    Answers cfg pid fresh (fun db => db.statusOf p.id = some .pending) a.delivery
      (.error (.conflict (InvalidSubscriptionTransition.message ⟨sub.status, pastDue⟩))) 2 s'
      (.readingEnterprise (failingTx a p sub) u sub) := by
  have hQ : RowsOnly fun db => db.statusOf p.id = some .pending := by
    intro db db' hp _ hpending
    rw [Db.statusOf, hp]
    exact hpending
  have hpending : s'.db.statusOf p.id = some .pending := by
    rw [Db.statusOf, hs.payments, h.payment]
    exact congrArg some h.pending
  exact answers_refused hQ hent (decide_refused h.failed hsub u ent) hpending

/-! ## The calls around it -/

/-- The call has a transaction open. -/
def BillingCall.inTx : BillingCall → Bool
  | webhook st => st.tx.isSome
  | changePlan (.recordingEvent _ _) => true
  | changePlan (.committing _ _) => true
  | _ => false

/-- The call holds no lock. -/
def HoldsNone (pid : Nat) (s : BillingStore) : Prop := ∀ k, s.lock k ≠ some pid

theorem afterSubscription_tx (t : Tx) (u : Payment) (ent : Enterprise) (after : Subscription) :
    (afterSubscription t u ent after).tx = some t := by
  unfold afterSubscription
  split <;> rfl

theorem decide_tx {t : Tx} {u : Payment} {sub : Subscription} {ent : Enterprise}
    {next : HandleState} (h : t.decide u sub ent = .ok next) : next.tx = some t := by
  rcases decide_cases h with rfl | ⟨_, -, -, rfl⟩ | ⟨-, rfl⟩
  · exact afterSubscription_tx t u ent sub
  · rfl
  · rfl

theorem holdsNone_release : HoldsNone pid (s.release pid) := fun _ => release_ne

/-- A delivery that has no transaction open any more has let go of its locks. -/
theorem HandleState.holdsNone_step {st st' : HandleState}
    (h : st.step cfg pid fresh s = some (s', st')) (hs : st.tx = none → HoldsNone pid s)
    (hst' : st'.tx = none) : HoldsNone pid s' := by
  cases step_cases h with
  | forbids | aborts => exact holdsNone_release
  | commits t after => exact holdsNone_release (s := s.autocommit fun db => db.with t.writes)
  | decides decided => rw [decide_tx decided] at hst'; cases hst'
  | recordsEvent => rw [afterSubscription_tx] at hst'; cases hst'
  | renews => rw [afterSubscription_tx] at hst'; cases hst'
  | _ => first | exact hs rfl | cases hst'

theorem ChangePlanState.holdsNone_step {st st' : ChangePlanState}
    (h : st.step pid s = some (s', st'))
    (hs : (BillingCall.changePlan st).inTx = false → HoldsNone pid s)
    (hst' : (BillingCall.changePlan st').inTx = false) : HoldsNone pid s' := by
  cases st <;> simp only [step] at h
  case findingSubscription c =>
    split at h
    · cases h
      exact hs rfl
    · split at h <;> cases h <;> exact hs rfl
  case findingPlan c sub =>
    split at h
    · cases h
      exact hs rfl
    · split at h <;> cases h <;> exact hs rfl
  case updatingPlan c sub =>
    split at h
    · split at h <;> cases h
      · exact holdsNone_release
      · cases hst'
    · cases h
  case recordingEvent c sub =>
    cases h
    cases hst'
  case committing c sub =>
    cases h
    exact holdsNone_release (s := s.autocommit fun db => db.with (c.writes sub))
  case auditing c sub =>
    cases h
    exact hs rfl
  case finished r => cases h

theorem BillingCall.holdsNone_step {c c' : BillingCall}
    (h : c.step cfg pid fresh s = some (s', c')) (hs : c.inTx = false → HoldsNone pid s)
    (hc' : c'.inTx = false) : HoldsNone pid s' := by
  cases moves_of_step h with
  | webhook hst =>
    exact HandleState.holdsNone_step hst (fun hnone => hs (by rw [inTx, hnone]; rfl))
      (Option.isSome_eq_false_iff.1 hc' |> Option.isNone_iff_eq_none.1)
  | expirePendingPayments hst =>
    intro k
    rw [(ExpireState.jobStep hst).lock]
    exact hs rfl k
  | lifecycle hst =>
    intro k
    rw [(LifecycleState.jobStep hst).lock]
    exact hs rfl k
  | changePlan hst => exact ChangePlanState.holdsNone_step hst hs hc'

theorem locks_of_reach {P₀ P : BillingPool} (h0 : Starts P₀)
    (h : Reach (billing cfg).system Always P₀ P) (pid : Nat)
    (hcall : (P.threads pid).inTx = false) : HoldsNone pid P.shared := by
  revert hcall
  refine h.inv (fun P => (P.threads pid).inTx = false → HoldsNone pid P.shared) ?_ ?_
  · intro _ k
    rw [h0.unlocked k]
    simp
  · intro P a P' _ ih _ hstep hcall
    cases a with
    | env d =>
      obtain rfl := Machine.env_eq_some.1 hstep
      exact ih hcall
    | run pid' i =>
      obtain ⟨s, c, hthread, rfl⟩ := Machine.run_eq_some.1 hstep
      by_cases hpid : pid = pid'
      · subst hpid
        simp only [Function.update_self] at hcall
        rcases billing_cases hthread with ⟨-, rfl, -⟩ | ⟨-, hcallStep⟩
        · exact holdsNone_release
        · exact BillingCall.holdsNone_step hcallStep ih hcall
      · simp only [Function.update_of_ne hpid] at hcall
        intro k hk
        exact ih hcall k (((billing_effect hthread).locks k pid hpid).1 hk)

/-- The call has not begun, or is over. -/
def BillingCall.NotInProgress (c : BillingCall) : Prop := c.Fresh ∨ c.returned = true

theorem BillingCall.NotInProgress.inTx {c : BillingCall} (h : c.NotInProgress) :
    c.inTx = false := by
  obtain hfresh | hreturned := h
  · cases c with
    | webhook st => cases st <;> first | rfl | cases hfresh
    | changePlan st => cases st <;> first | rfl | cases hfresh
    | _ => rfl
  · cases c with
    | webhook st => cases st <;> first | rfl | cases hreturned
    | changePlan st => cases st <;> first | rfl | cases hreturned
    | _ => rfl

/-- With no other call in progress, nobody else holds a lock. -/
theorem alone_of_reach {P₀ P : BillingPool} (h0 : Starts P₀)
    (h : Reach (billing cfg).system Always P₀ P) {pid : Nat}
    (hothers : ∀ pid', pid' ≠ pid → (P.threads pid').NotInProgress) : P.shared.Alone pid := by
  intro k
  cases hk : P.shared.lock k with
  | none => exact .inl rfl
  | some pid' =>
    right
    by_contra hne
    have hpid : pid' ≠ pid := fun heq => hne (congrArg some heq)
    exact locks_of_reach h0 h pid' (hothers pid' hpid).inTx k hk

/-- The statements of `handleAlone`, as a run of the system. -/
theorem handleAlone_reach (ticks : List Nat) : ∀ {P : BillingPool} {st : HandleState},
    P.threads pid = .webhook st → ∃ P', Reach (billing cfg).system Always P P' ∧
      P'.shared = (attended (HandleState.step cfg pid fresh) (billing cfg).env ticks P.shared st).1 ∧
      P'.threads pid =
        .webhook (attended (HandleState.step cfg pid fresh) (billing cfg).env ticks P.shared st).2 := by
  induction ticks with
  | nil => exact fun {P} {st} hcall => ⟨P, .init, rfl, hcall⟩
  | cons e ticks ih =>
    intro P st hcall
    have htick : Reach (billing cfg).system Always P
        { P with shared := (billing cfg).env e P.shared } :=
      .step .init trivial (Machine.env_eq_some.2 rfl)
    cases hstep : st.step cfg pid fresh ((billing cfg).env e P.shared) with
    | none =>
      obtain ⟨P', hreach, hshared, hthread⟩ :=
        ih (P := { P with shared := (billing cfg).env e P.shared }) hcall
      simp only [attended, hstep]
      exact ⟨P', htick.trans hreach, hshared, hthread⟩
    | some r =>
      obtain ⟨s', st'⟩ := r
      have hrun : (billing cfg).system.step { P with shared := (billing cfg).env e P.shared }
          (.run pid { fresh }) = some ⟨s', Function.update P.threads pid (.webhook st')⟩ := by
        refine Machine.run_eq_some.2 ⟨s', .webhook st', ?_, rfl⟩
        simpa [billing, hcall, BillingCall.step] using hstep
      obtain ⟨P', hreach, hshared, hthread⟩ :=
        @ih ⟨s', Function.update P.threads pid (.webhook st')⟩ st' (Function.update_self ..)
      rw [attended_cons hstep]
      exact ⟨P', (htick.step trivial hrun).trans hreach, hshared, hthread⟩

/-! ## The result -/

/-- A delivery is about to be handled, with no other call in progress: `event` is its failure, about
`payment` and `subscription`, and `ticks` is how long its statements take. -/
structure FailureArrives (P : BillingPool) (pid : Nat) (ticks : List Nat) (event : AuthenticEvent)
    (payment : Payment) (subscription : Subscription) : Prop where
  call : P.threads pid = .webhook (.received event.delivery)
  others : ∀ pid', pid' ≠ pid → (P.threads pid').NotInProgress
  failure : FailureOf P.shared.db (P.shared.db.now + (ticks.take 2).sum) event payment subscription
  length : 12 ≤ ticks.length

/-- Every failure that arrives is recorded. -/
def FailuresRecorded (cfg : Config) (P₀ : BillingPool) : Prop :=
  ∀ P, Reach (billing cfg).system Always P₀ P → ∀ pid fresh ticks a p sub,
    FailureArrives P pid ticks a p sub →
      FailureRecorded p sub a.delivery (handleAlone cfg pid fresh ticks P.shared a.delivery)

/-- A refused one is answered with a 409, and the payment is left `PENDING`. -/
theorem FailureArrives.refused {P₀ P : BillingPool} (h0 : Starts P₀)
    (hrefs : P₀.shared.db.References) (hr : Reach (billing cfg).system Always P₀ P)
    (h : FailureArrives P pid ticks a p sub) (hsub : ¬ FailureAllowed sub.status) (fresh : Uuid) :
    (handleAlone cfg pid fresh ticks P.shared a.delivery).2 = .answered a.delivery
        (.error (.conflict (InvalidSubscriptionTransition.message ⟨sub.status, pastDue⟩))) ∧
      (handleAlone cfg pid fresh ticks P.shared a.delivery).1.db.statusOf p.id =
        some .pending := by
  have halone := alone_of_reach h0 hr h.others
  obtain ⟨ent, hent⟩ := (references_of_reach hrefs hr).enterprise p
    (Table.mem_of_find? h.failure.payment)
  exact handleAlone_reaches cfg fresh h.failure halone
    (fun s' u hs => answers_forbidden h.failure hs hsub (hs.enterprises ▸ hent) u)
    (Nat.le_trans (by decide) h.length)

theorem FailureArrives.recorded {P₀ P : BillingPool} (h0 : Starts P₀)
    (hrefs : P₀.shared.db.References) (hr : Reach (billing cfg).system Always P₀ P)
    (h : FailureArrives P pid ticks a p sub) (hsub : FailureAllowed sub.status) :
    FailureRecorded p sub a.delivery (handleAlone cfg pid fresh ticks P.shared a.delivery) := by
  have halone := alone_of_reach h0 hr h.others
  obtain ⟨ent, hent⟩ := (references_of_reach hrefs hr).enterprise p
    (Table.mem_of_find? h.failure.payment)
  obtain ⟨hprocessed, hrecorded⟩ := handleAlone_reaches cfg fresh h.failure
    halone (fun s' u hs => answers_allowed h.failure hs hsub (hs.enterprises ▸ hent) u) h.length
  exact ⟨hprocessed, hrecorded⟩

/-- A failure is recorded in the trial, while the subscription is active and in its period of
grace, and in no other status. -/
theorem failure_recorded_iff (cfg : Config) {P₀ P : BillingPool} (h0 : Starts P₀)
    (hrefs : P₀.shared.db.References) (hr : Reach (billing cfg).system Always P₀ P) (pid : Nat)
    (fresh : Uuid) (ticks : List Nat) (a : AuthenticEvent) (p : Payment) (sub : Subscription)
    (h : FailureArrives P pid ticks a p sub) :
    FailureRecorded p sub a.delivery (handleAlone cfg pid fresh ticks P.shared a.delivery) ↔
      FailureAllowed sub.status := by
  refine ⟨fun hrecorded => ?_, h.recorded h0 hrefs hr⟩
  by_contra hsub
  have hanswer := (h.refused h0 hrefs hr hsub fresh).1
  rw [hrecorded.processed] at hanswer
  cases hanswer

/-! ## A subscription that is suspended -/

def failedEvent : AuthenticEvent where
  delivery := sampleDelivery .failed
  event := { providerReference := "ref", status := .failed, amount := 1000, currency := "XOF" }
  verified := rfl
  parsed := rfl

def samplePayment : Payment where
  id := 1
  enterpriseId := 3
  subscriptionId := some 2
  provider := .wave
  providerReference := some "ref"
  amount := 1000
  currency := "XOF"
  status := .pending
  expiresAt := none

def overdueSubscription : Subscription where
  id := 2
  enterpriseId := 3
  planId := 4
  status := pastDue
  trialEndDate := some 50
  renewalDate := some 5

/-- A second payment is in progress when the period of grace of the first one ends. -/
def overdueDb : Db :=
  { sampleDb with subscriptions := Table.empty.insert overdueSubscription }

def overduePool : BillingPool := samplePool overdueDb
  [.lifecycle (.listing .suspendOverdueGracePeriods), .webhook (.received (sampleDelivery .failed))]

theorem overduePool_starts : Starts overduePool := samplePool_starts (by simp [BillingCall.Fresh])

theorem overdueDb_references : overdueDb.References where
  subscription p hp id hid := by
    obtain rfl : p = samplePayment := List.mem_singleton.1 hp
    obtain rfl : 2 = id := Option.some.inj hid
    exact ⟨overdueSubscription, by decide⟩
  enterprise p hp := by
    obtain rfl : p = samplePayment := List.mem_singleton.1 hp
    exact ⟨_, rfl⟩

theorem overdue_arrives :
    FailureArrives overduePool 1 (List.replicate 12 0) failedEvent samplePayment
      overdueSubscription where
  call := rfl
  others pid' _ := .inl (overduePool_starts.fresh pid')
  failure :=
    { failed := rfl, found := by decide, pending := rfl, unexpired := rfl, amount := rfl,
      currency := rfl, subscriptionId := rfl, row := by decide }
  length := by decide

theorem overdue_recorded :
    FailureRecorded samplePayment overdueSubscription failedEvent.delivery
        (handleAlone sampleConfig 1 0 (List.replicate 12 0) overduePool.shared
          failedEvent.delivery) ↔
      FailureAllowed overdueSubscription.status :=
  failure_recorded_iff sampleConfig overduePool_starts overdueDb_references .init 1 0
    (List.replicate 12 0) failedEvent samplePayment overdueSubscription overdue_arrives

def suspendedSubscription : Subscription := { overdueSubscription with status := suspended }

/-- The job suspends the subscription; then the second payment fails too. -/
theorem suspended_stays_pending :
    Starts overduePool ∧ overduePool.shared.db.References ∧
      ¬ FailuresRecorded sampleConfig overduePool := by
  refine ⟨overduePool_starts, overdueDb_references, fun hall => ?_⟩
  have hrun : (exec (billing sampleConfig).system (fun _ _ => true) overduePool
      (runs 0 5 0)).map (fun P => (P.shared.db.findPayment .wave "ref",
        P.shared.db.subscriptions.find? 2, (P.threads 0).returned)) =
      some (some samplePayment, some suspendedSubscription, true) := by decide +kernel
  obtain ⟨P, hP, hfacts⟩ := Option.map_eq_some_iff.1 hrun
  simp only [Prod.mk.injEq] at hfacts
  obtain ⟨hfound, hrow, hreturned⟩ := hfacts
  have hr : Reach (billing sampleConfig).system Always overduePool P :=
    .of_exec _ (fun _ _ _ => trivial) _ hP
  have hsame : ∀ pid, pid ≠ 0 → P.threads pid = overduePool.threads pid := fun pid hpid =>
    Machine.exec_other hP fun i hi => hpid (by simp [runs] at hi; exact hi.1)
  have harrives : FailureArrives P 1 (List.replicate 12 0) failedEvent samplePayment
      suspendedSubscription := by
    refine ⟨hsame 1 (by decide), fun pid hpid => ?_, ?_, by decide⟩
    · by_cases hzero : pid = 0
      · subst hzero
        exact .inr hreturned
      · rw [hsame pid hzero]
        exact .inl (overduePool_starts.fresh pid)
    · exact { failed := rfl, found := hfound, pending := rfl, unexpired := rfl, amount := rfl,
              currency := rfl, subscriptionId := rfl, row := hrow }
  have hanswer := (harrives.refused overduePool_starts overdueDb_references hr
    (by simp [FailureAllowed, suspendedSubscription]) 0).1
  rw [(hall P hr 1 0 _ _ _ _ harrives).processed] at hanswer
  cases hanswer

end Gescom.Billing
