import Gescom.Billing.Calls

/-!
# What one statement can do to the billing database

`billing_effect` is the inversion of `billing`: a statement leaves payments, subscriptions and
invoices alone (`Quiet`), or it is one of five writes. What happens to payments and what happens to
subscriptions are both read off it, so no later proof goes through the statements again for the
store.
-/

namespace Gescom.Billing

open ReadCommitted Transition

/-! ## The statements of a webhook -/

/-- The transaction a delivery has open. -/
def HandleState.tx : HandleState → Option Tx
  | readingPayment t | readingSubscription t _ | readingEnterprise t _ _
  | transitioning t _ _ _ _ | recordingEvent t _ _ _ _ _ | renewing t _ _ _ | numbering t _ _ _
  | invoicing t _ _ _ _ | committing t _ => some t
  | _ => none

/-- A delivery for a payment that is known ends, reports a conflict or starts its transaction. -/
theorem dispatch_cases (h : Handling) :
    (h.payment.status ≠ .pending ∧ h.event.status.toPayment = h.payment.status ∧
      h.dispatch = .answered h.delivery (.ok ⟨.ignoredAlreadyProcessed, h.payment.id⟩)) ∨
    (h.payment.status ≠ .pending ∧ h.dispatch = .flagging h) ∨
    (∃ httpStatus reason e, h.dispatch = h.reject httpStatus reason e) ∨
    ∃ id, h.payment.subscriptionId = some id ∧ h.dispatch = .settling h id := by
  unfold Handling.dispatch
  split
  · rename_i hsettled
    split
    · rename_i hsame
      exact .inl ⟨hsettled, hsame, rfl⟩
    · exact .inr (.inl ⟨hsettled, rfl⟩)
  · split
    · exact .inr (.inr (.inl ⟨_, _, _, rfl⟩))
    · split
      · exact .inr (.inr (.inl ⟨_, _, _, rfl⟩))
      · rename_i id hid
        exact .inr (.inr (.inr ⟨id, hid, rfl⟩))

/-- What the transaction does with the subscription it has read. -/
theorem decide_cases {t : Tx} {u : Payment} {sub : Subscription} {ent : Enterprise}
    {next : HandleState} (hd : t.decide u sub ent = .ok next) :
    next = afterSubscription t u ent sub ∨
    (∃ target, targetStatus t.event.status sub.status = some target ∧
      assertSubscriptionTransition sub.status target = .ok () ∧
      next = .transitioning t u sub ent target) ∨
    sub.status = .pastDue ∧ next = .renewing t u sub ent := by
  unfold Tx.decide at hd
  split at hd
  · cases hd
    exact .inl rfl
  · rename_i target htarget
    split at hd
    · split at hd <;> cases hd
      rename_i hallowed
      exact .inr (.inl ⟨target, htarget, hallowed, rfl⟩)
    · rename_i hsame
      split at hd <;> cases hd
      · rename_i hpast
        exact .inr (.inr ⟨(not_not.1 hsame).trans hpast, rfl⟩)
      · exact .inl rfl

/-- A job goes on with its batch, or the error leaves the call. -/
theorem BillingCall.failed_cases (c : BillingCall) :
    (∃ c', c.failed = .thrown c') ∨
    (∃ rest n, c.failed = .expirePendingPayments (.next rest n)) ∨
    ∃ j rest n, c.failed = .lifecycle (.next j rest n) := by
  cases c with
  | expirePendingPayments st =>
    cases st with
    | next rest n =>
      cases rest with
      | nil => exact .inl ⟨_, rfl⟩
      | cons p rest => exact .inr (.inl ⟨rest, n, rfl⟩)
    | auditing p rest n => exact .inr (.inl ⟨rest, n, rfl⟩)
    | _ => exact .inl ⟨_, rfl⟩
  | lifecycle st =>
    cases st with
    | next j rest n =>
      cases rest with
      | nil => exact .inl ⟨_, rfl⟩
      | cons sub rest => exact .inr (.inr ⟨j, rest, n, rfl⟩)
    | recordingEvent j sub rest n | auditing j sub rest n => exact .inr (.inr ⟨j, rest, n, rfl⟩)
    | _ => exact .inl ⟨_, rfl⟩
  | _ => exact .inl ⟨_, rfl⟩

/-- What one statement of `handle` does, with the branch it takes. -/
inductive HandleStep (cfg : Config) (pid : Nat) (fresh : Uuid) (s : BillingStore) :
    HandleState → BillingStore → HandleState → Prop
  | refuses {d : Delivery} (r : Rejection) (e : ApiError)
      (invalid : d.verified = true → d.event = none) :
      HandleStep cfg pid fresh s (.received d) s (.rejecting d r e)
  | accepts (a : AuthenticEvent) :
      HandleStep cfg pid fresh s (.received a.delivery) s (.findingPayment a)
  | rejects (d : Delivery) (r : Rejection) (e : ApiError) :
      HandleStep cfg pid fresh s (.rejecting d r e)
        (s.autocommit (Db.record (rejectionLog cfg d r))) (.answered d (.error e))
  | unknown {a : AuthenticEvent} (r : Rejection) (e : ApiError)
      (missing : s.db.findPayment a.delivery.provider a.event.providerReference = none) :
      HandleStep cfg pid fresh s (.findingPayment a) s (.rejecting a.delivery r e)
  | overdue {a : AuthenticEvent} {payment : Payment}
      (found : s.db.findPayment a.delivery.provider a.event.providerReference = some payment)
      (expired : payment.status = .pending ∧ payment.expiredAt s.db.now = true) :
      HandleStep cfg pid fresh s (.findingPayment a) s (.expiring ⟨a, payment⟩)
  | finds {a : AuthenticEvent} {payment : Payment}
      (found : s.db.findPayment a.delivery.provider a.event.providerReference = some payment)
      (current : ¬ (payment.status = .pending ∧ payment.expiredAt s.db.now = true)) :
      HandleStep cfg pid fresh s (.findingPayment a) s (Handling.dispatch ⟨a, payment⟩)
  | expires {h : Handling} {row : Payment} (r : Rejection) (e : ApiError)
      (found : s.db.payments.find? h.payment.id = some row) (pending : row.status = .pending)
      (free : s.free pid (.payment h.payment.id) = true) :
      HandleStep cfg pid fresh s (.expiring h)
        (s.autocommit fun db => db.with [.settle h.payment.id .expired row.paidAt])
        (.rejecting h.delivery r e)
  | resolved {h : Handling}
      (other : ∀ row, s.db.payments.find? h.payment.id = some row → row.status ≠ .pending) :
      HandleStep cfg pid fresh s (.expiring h) s (.rereading h)
  | gone {h : Handling} (missing : s.db.payments.find? h.payment.id = none) :
      HandleStep cfg pid fresh s (.rereading h) s (.notFound h.delivery)
  | rereads {h : Handling} {payment : Payment}
      (found : s.db.payments.find? h.payment.id = some payment) :
      HandleStep cfg pid fresh s (.rereading h) s (Handling.dispatch { h with payment })
  | flags (h : Handling) (free : s.free pid (.payment h.payment.id) = true) :
      HandleStep cfg pid fresh s (.flagging h) (s.autocommit (Db.flag h)) (.reporting h)
  | reports (h : Handling) :
      HandleStep cfg pid fresh s (.reporting h) (s.autocommit (Db.record (conflictLog h)))
        (.answered h.delivery (.ok ⟨.statusConflict, h.payment.id⟩))
  | settles {h : Handling} {row : Payment} (subscriptionId : Uuid)
      (found : s.db.payments.find? h.payment.id = some row) (pending : row.status = .pending)
      (free : s.free pid (.payment h.payment.id) = true) :
      HandleStep cfg pid fresh s (.settling h subscriptionId)
        (s.acquire pid (.payment h.payment.id))
        (.readingPayment ⟨h, subscriptionId, [.settle h.payment.id h.event.status.toPayment
          (if h.event.status = .succeeded then some s.db.now else none)]⟩)
  | ignores {h : Handling} (subscriptionId : Uuid)
      (other : ∀ row, s.db.payments.find? h.payment.id = some row → row.status ≠ .pending) :
      HandleStep cfg pid fresh s (.settling h subscriptionId) s
        (.answered h.delivery (.ok ⟨.ignoredAlreadyProcessed, h.payment.id⟩))
  | readsPayment {t : Tx} {updated : Payment}
      (found : (s.db.with t.writes).payments.find? t.payment.id = some updated) :
      HandleStep cfg pid fresh s (.readingPayment t) s (.readingSubscription t updated)
  | readsSubscription {t : Tx} {sub : Subscription} (updated : Payment)
      (found : (s.db.with t.writes).subscriptions.find? t.subscriptionId = some sub) :
      HandleStep cfg pid fresh s (.readingSubscription t updated) s
        (.readingEnterprise t updated sub)
  | decides {t : Tx} {updated : Payment} {sub : Subscription} {ent : Enterprise}
      {next : HandleState} (decided : t.decide updated sub ent = .ok next) :
      HandleStep cfg pid fresh s (.readingEnterprise t updated sub) s next
  | forbids {t : Tx} (r : Rejection) (e : ApiError) (updated : Payment) (sub : Subscription) :
      HandleStep cfg pid fresh s (.readingEnterprise t updated sub) (s.release pid)
        (.rejecting t.delivery r e)
  | transitions {t : Tx} {sub row : Subscription} (updated : Payment) (ent : Enterprise)
      (target : SubscriptionStatus) (free : s.free pid (.subscription sub.id) = true)
      (found : s.db.subscriptions.find? sub.id = some row) :
      HandleStep cfg pid fresh s (.transitioning t updated sub ent target)
        (s.acquire pid (.subscription sub.id))
        (.recordingEvent (t.push (.transition sub.id target (renewalOf cfg s.db.now target sub)))
          updated sub ent target
          ((Write.transition sub.id target (renewalOf cfg s.db.now target sub)).onSubscription row))
  | recordsEvent (t : Tx) (updated : Payment) (sub : Subscription) (ent : Enterprise)
      (target : SubscriptionStatus) (after : Subscription) :
      HandleStep cfg pid fresh s (.recordingEvent t updated sub ent target after) s
        (afterSubscription
          (t.push (.event
            { subscriptionId := sub.id, fromStatus := sub.status, toStatus := target
              fromPlanId := some sub.planId, toPlanId := some sub.planId
              reason := some (transitionReason t.event.status) }))
          updated ent after)
  | renews {t : Tx} {sub row : Subscription} (updated : Payment) (ent : Enterprise)
      (free : s.free pid (.subscription sub.id) = true)
      (found : s.db.subscriptions.find? sub.id = some row) :
      HandleStep cfg pid fresh s (.renewing t updated sub ent)
        (s.acquire pid (.subscription sub.id))
        (afterSubscription (t.push (.renew sub.id (graceDate cfg s.db.now))) updated ent
          ((Write.renew sub.id (graceDate cfg s.db.now)).onSubscription row))
  | numbers (t : Tx) (updated : Payment) (ent : Enterprise) (after : Subscription)
      (free : s.free pid (.invoiceCounter ent.id) = true) :
      HandleStep cfg pid fresh s (.numbering t updated ent after)
        (s.acquire pid (.invoiceCounter ent.id))
        (.invoicing (t.push (.counter ⟨ent.id, s.db.nextInvoiceNumber ent.id⟩)) updated ent after
          (s.db.nextInvoiceNumber ent.id))
  | invoices {t : Tx} {updated : Payment} {ent : Enterprise} {i : Invoice} (after : Subscription)
      (sequence : Nat)
      (row : i = invoiceFor fresh s.db.now ent t.subscriptionId updated sequence)
      (free : ∀ k ∈ invoiceLocks i, s.free pid k = true) (accepted : s.db.acceptsInvoice i = true) :
      HandleStep cfg pid fresh s (.invoicing t updated ent after sequence)
        (s.acquireAll pid (invoiceLocks i).contains)
        (.committing ((t.push (.invoice i)).push (.attachInvoice updated.id i.id)) after)
  | aborts {st : HandleState} {t : Tx} (code : PrismaCode) (inTx : st.tx = some t) :
      HandleStep cfg pid fresh s st (s.release pid) (.answered t.delivery (.error (.prisma code)))
  | commits (t : Tx) (after : Subscription) :
      HandleStep cfg pid fresh s (.committing t after) (s.commit pid fun db => db.with t.writes)
        (.auditing t.toHandling after)
  | audits (h : Handling) (after : Subscription) :
      HandleStep cfg pid fresh s (.auditing h after)
        (s.autocommit fun db => Db.record (settlementLog h)
          { db with invalidated := db.invalidated ++ [h.payment.enterpriseId] })
        (.findingRecipient h after)
  | noRecipient {h : Handling} (after : Subscription)
      (missing : s.db.findRecipient h.payment.enterpriseId = none) :
      HandleStep cfg pid fresh s (.findingRecipient h after) s
        (.answered h.delivery (.ok ⟨.processed, h.payment.id⟩))
  | recipient {h : Handling} {u : User} (after : Subscription)
      (found : s.db.findRecipient h.payment.enterpriseId = some u) :
      HandleStep cfg pid fresh s (.findingRecipient h after) s (.notifying h after u)
  | notifies (h : Handling) (after : Subscription) (u : User) :
      HandleStep cfg pid fresh s (.notifying h after u)
        (s.autocommit fun db =>
          { db with notifications := db.notifications ++ [notificationFor db.now h after u] })
        (.answered h.delivery (.ok ⟨.processed, h.payment.id⟩))

variable {cfg : Config} {pid : Nat} {fresh : Uuid} {s s' : BillingStore}

theorem HandleState.step_cases {st st' : HandleState}
    (h : st.step cfg pid fresh s = some (s', st')) : HandleStep cfg pid fresh s st s' st' := by
  cases st <;> simp only [step, rollbackTo] at h
  case received d =>
    split at h
    · split at h <;> cases h
      · rename_i hnone
        exact .refuses _ _ fun _ => hnone
      · rename_i hverified ev hparsed
        exact .accepts ⟨d, ev, hverified, hparsed⟩
    · rename_i hverified
      cases h
      exact .refuses _ _ fun hv => absurd hv hverified
  case rejecting d r e =>
    cases h
    exact .rejects d r e
  case findingPayment a =>
    split at h
    · rename_i hnone
      cases h
      exact .unknown _ _ hnone
    · rename_i payment hfound
      split at h <;> cases h
      · rename_i hexpired
        exact .overdue hfound hexpired
      · rename_i hcurrent
        exact .finds hfound hcurrent
  case expiring hd =>
    split at h
    · rename_i row hrow
      split at h
      · rename_i hpending
        split at h <;> cases h
        rename_i hfree
        exact .expires _ _ hrow hpending hfree
      · rename_i hother
        cases h
        exact .resolved fun x hx => Option.some.inj (hrow.symm.trans hx) ▸ hother
    · rename_i hnone
      cases h
      exact .resolved fun x hx => by
        rw [hnone] at hx
        cases hx
  case rereading hd =>
    split at h <;> cases h
    · exact .gone ‹_›
    · exact .rereads ‹_›
  case flagging hd =>
    split at h <;> cases h
    exact .flags hd ‹_›
  case reporting hd =>
    cases h
    exact .reports hd
  case settling hd subscriptionId =>
    split at h
    · rename_i row hrow
      split at h
      · rename_i hpending
        split at h <;> cases h
        rename_i hfree
        exact .settles subscriptionId hrow hpending hfree
      · rename_i hother
        cases h
        exact .ignores subscriptionId fun x hx => Option.some.inj (hrow.symm.trans hx) ▸ hother
    · rename_i hnone
      cases h
      exact .ignores subscriptionId fun x hx => by
        rw [hnone] at hx
        cases hx
  case readingPayment t =>
    split at h <;> cases h
    · exact .readsPayment ‹_›
    · exact .aborts .p2025 rfl
  case readingSubscription t updated =>
    split at h <;> cases h
    · exact .readsSubscription updated ‹_›
    · exact .aborts .p2025 rfl
  case readingEnterprise t updated sub =>
    split at h
    · cases h
      exact .aborts .p2025 rfl
    · split at h <;> cases h
      · exact .decides ‹_›
      · exact .forbids _ _ updated sub
  case transitioning t updated sub ent target =>
    split at h
    · rename_i hfree
      split at h <;> cases h
      · exact .aborts .p2025 rfl
      · exact .transitions updated ent target hfree ‹_›
    · cases h
  case recordingEvent t updated sub ent target after =>
    cases h
    exact .recordsEvent t updated sub ent target after
  case renewing t updated sub ent =>
    split at h
    · rename_i hfree
      split at h <;> cases h
      · exact .aborts .p2025 rfl
      · exact .renews updated ent hfree ‹_›
    · cases h
  case numbering t updated ent after =>
    split at h <;> cases h
    exact .numbers t updated ent after ‹_›
  case invoicing t updated ent after sequence =>
    split at h
    · rename_i hfree
      split at h <;> cases h
      · exact .invoices after sequence rfl (List.all_eq_true.1 hfree) ‹_›
      · exact .aborts .p2002 rfl
    · cases h
  case committing t after =>
    cases h
    exact .commits t after
  case auditing hd after =>
    cases h
    exact .audits hd after
  case findingRecipient hd after =>
    split at h <;> cases h
    · exact .noRecipient after ‹_›
    · exact .recipient after ‹_›
  case notifying hd after u =>
    cases h
    exact .notifies hd after u
  case answered d r => cases h

/-! ## The effects -/

/-- Nothing but locks, logs, notifications, events and the clock moves. -/
structure Quiet (pid : Nat) (s s' : BillingStore) : Prop where
  locks : LocksKept pid s s'
  payments : s'.db.payments.rows = s.db.payments.rows
  subscriptions : s'.db.subscriptions.rows = s.db.subscriptions.rows
  invoices : s'.db.invoices = s.db.invoices
  logs : s.db.auditLogs <+: s'.db.auditLogs

theorem Quiet.of_db {pid : Nat} {s s' : BillingStore} (hl : LocksKept pid s s')
    (hd : s'.db = s.db) : Quiet pid s s' :=
  ⟨hl, by rw [hd], by rw [hd], by rw [hd], hd ▸ List.prefix_rfl⟩

theorem Quiet.refl (pid : Nat) (s : BillingStore) : Quiet pid s s := .of_db (.of_eq rfl) rfl

theorem Quiet.release (pid : Nat) (s : BillingStore) : Quiet pid s (s.release pid) :=
  .of_db locksKept_release rfl

theorem Quiet.acquire {pid : Nat} {s : BillingStore} {k : Lock} (h : s.free pid k = true) :
    Quiet pid s (s.acquire pid k) := .of_db (locksKept_acquire h) rfl

theorem Quiet.record (pid : Nat) (s : BillingStore) (l : AuditLog) :
    Quiet pid s (s.autocommit (Db.record l)) :=
  ⟨.of_eq rfl, rfl, rfl, rfl, List.prefix_append _ _⟩

theorem Quiet.event (pid : Nat) (s : BillingStore) (e : SubscriptionEvent) :
    Quiet pid s (s.autocommit fun db => db.with [.event e]) where
  locks := .of_eq rfl
  payments := (payments_rows_with s.db _).trans (List.map_id' _)
  subscriptions := (subscriptions_rows_with s.db _).trans (List.map_id' _)
  invoices := (invoices_with s.db _).trans (List.append_nil _)
  logs := List.prefix_rfl

/-- What a statement of call `c` does to the store. -/
inductive Effect (pid : Nat) (s : BillingStore) (c : BillingCall) : BillingStore → Prop
  | quiet {s' : BillingStore} (h : Quiet pid s s') : Effect pid s c s'
  | expirePayment (id : Uuid) (row : Payment) (found : s.db.payments.find? id = some row)
      (pending : row.status = .pending) (free : s.free pid (.payment id) = true) :
      Effect pid s c (s.autocommit fun db => db.with [.settle id .expired row.paidAt])
  | flag (h : Handling) (stmt : c = .webhook (.flagging h)) :
      Effect pid s c (s.autocommit (Db.flag h))
  | transition (j : LifecycleJob) (row : Subscription)
      (found : s.db.subscriptions.find? row.id = some row)
      (allowed : canTransitionSubscription row.status j.toStatus = true)
      (free : s.free pid (.subscription row.id) = true) :
      Effect pid s c
        (s.autocommit fun db => db.with [.transition row.id j.toStatus row.renewalDate])
  | settle (t : Tx) (after : Subscription) (stmt : c = .webhook (.committing t after)) :
      Effect pid s c (s.commit pid fun db => db.with t.writes)
  | changePlan (p : ChangePlan) (sub : Subscription) (stmt : c = .changePlan (.committing p sub)) :
      Effect pid s c (s.commit pid fun db => db.with (p.writes sub))

theorem HandleState.step_effect {st st' : HandleState}
    (h : st.step cfg pid fresh s = some (s', st')) : Effect pid s (.webhook st) s' := by
  cases step_cases h with
  | expires r e found pending free => exact .expirePayment _ _ found pending free
  | flags hd free => exact .flag hd rfl
  | commits t after => exact .settle t after rfl
  | rejects | reports => exact .quiet (.record pid s _)
  | settles _ _ _ free | transitions _ _ _ free | renews _ _ free | numbers _ _ _ _ free =>
    exact .quiet (.acquire free)
  | invoices after sequence row free accepted =>
    refine .quiet (.of_db (locksKept_acquireAll fun k hk => ?_) rfl)
    exact free k (List.contains_iff_mem.1 hk)
  | forbids | aborts => exact .quiet (.release pid s)
  | audits => exact .quiet ⟨.of_eq rfl, rfl, rfl, rfl, List.prefix_append _ _⟩
  | notifies => exact .quiet ⟨.of_eq rfl, rfl, rfl, rfl, List.prefix_rfl⟩
  | _ => exact .quiet (.refl pid s)

theorem ExpireState.step_effect {st st' : ExpireState} (h : st.step pid s = some (s', st')) :
    Effect pid s (.expirePendingPayments st) s' := by
  cases st with
  | listing =>
    cases h
    exact .quiet (.refl pid s)
  | next rest n =>
    cases rest with
    | nil =>
      cases h
      exact .quiet (.refl pid s)
    | cons p rest =>
      simp only [step] at h
      split at h
      · rename_i row hrow
        split at h
        · rename_i hpending
          split at h <;> cases h
          rename_i hfree
          exact .expirePayment _ row hrow hpending hfree
        · cases h
          exact .quiet (.refl pid s)
      · cases h
        exact .quiet (.refl pid s)
  | auditing p rest n =>
    cases h
    exact .quiet (.record pid s _)
  | finished n => cases h

theorem LifecycleState.step_effect {st st' : LifecycleState} (h : st.step pid s = some (s', st')) :
    Effect pid s (.lifecycle st) s' := by
  cases st with
  | listing j =>
    cases h
    exact .quiet (.refl pid s)
  | next j rest n =>
    cases rest with
    | nil =>
      cases h
      exact .quiet (.refl pid s)
    | cons sub rest =>
      simp only [step] at h
      split at h
      · cases h
        exact .quiet (.refl pid s)
      · rename_i hok
        split at h
        · rename_i row hrow
          split at h
          · rename_i hsame
            split at h <;> cases h
            rename_i hfree
            have hid : row.id = sub.id := Table.key_of_find? hrow
            rw [← hsame] at hok
            rw [← hid] at hrow hfree ⊢
            exact .transition j row hrow (assertSubscriptionTransition_ok_iff.1 hok) hfree
          · cases h
            exact .quiet (.refl pid s)
        · cases h
          exact .quiet (.refl pid s)
  | recordingEvent j sub rest n =>
    cases h
    exact .quiet (.event pid s _)
  | auditing j sub rest n =>
    cases h
    exact .quiet (.record pid s _)
  | finished n => cases h

theorem ChangePlanState.step_effect {st st' : ChangePlanState}
    (h : st.step pid s = some (s', st')) : Effect pid s (.changePlan st) s' := by
  cases st <;> simp only [step] at h
  case findingSubscription c =>
    split at h
    · cases h
      exact .quiet (.refl pid s)
    · split at h <;> cases h
      · exact .quiet (.refl pid s)
      · exact .quiet (.refl pid s)
  case findingPlan c sub =>
    split at h
    · cases h
      exact .quiet (.refl pid s)
    · split at h <;> cases h
      · exact .quiet (.refl pid s)
      · exact .quiet (.refl pid s)
  case updatingPlan c sub =>
    split at h
    · rename_i hfree
      split at h <;> cases h
      · exact .quiet (.release pid s)
      · exact .quiet (.acquire hfree)
    · cases h
  case recordingEvent c sub =>
    cases h
    exact .quiet (.refl pid s)
  case committing c sub =>
    cases h
    exact .changePlan c sub rfl
  case auditing c sub =>
    cases h
    exact .quiet ⟨.of_eq rfl, rfl, rfl, rfl, List.prefix_append _ _⟩
  case finished r => cases h

/-- A step of a call is one of what it runs. -/
inductive BillingCall.Moves (cfg : Config) (pid : Nat) (fresh : Uuid) (s s' : BillingStore) :
    BillingCall → BillingCall → Prop
  | webhook {st st' : HandleState} (step : st.step cfg pid fresh s = some (s', st')) :
      Moves cfg pid fresh s s' (.webhook st) (.webhook st')
  | expirePendingPayments {st st' : ExpireState} (step : st.step pid s = some (s', st')) :
      Moves cfg pid fresh s s' (.expirePendingPayments st) (.expirePendingPayments st')
  | lifecycle {st st' : LifecycleState} (step : st.step pid s = some (s', st')) :
      Moves cfg pid fresh s s' (.lifecycle st) (.lifecycle st')
  | changePlan {st st' : ChangePlanState} (step : st.step pid s = some (s', st')) :
      Moves cfg pid fresh s s' (.changePlan st) (.changePlan st')

theorem BillingCall.moves_of_step {c c' : BillingCall}
    (h : c.step cfg pid fresh s = some (s', c')) : Moves cfg pid fresh s s' c c' := by
  cases c with
  | thrown c => cases h
  | webhook st =>
    obtain ⟨⟨_, st'⟩, hst, he⟩ := Option.map_eq_some_iff.1 h
    cases he
    exact .webhook hst
  | expirePendingPayments st =>
    obtain ⟨⟨_, st'⟩, hst, he⟩ := Option.map_eq_some_iff.1 h
    cases he
    exact .expirePendingPayments hst
  | lifecycle st =>
    obtain ⟨⟨_, st'⟩, hst, he⟩ := Option.map_eq_some_iff.1 h
    cases he
    exact .lifecycle hst
  | changePlan st =>
    obtain ⟨⟨_, st'⟩, hst, he⟩ := Option.map_eq_some_iff.1 h
    cases he
    exact .changePlan hst

/-- A statement fails and the call lets its locks go, or the call makes a step. -/
theorem billing_cases {i : Input} {c c' : BillingCall}
    (h : (billing cfg).thread pid i s c = some (s', c')) :
    (i.fail = true ∧ s' = s.release pid ∧ c' = c.failed) ∨
      i.fail = false ∧ c.step cfg pid i.fresh s = some (s', c') := by
  simp only [billing] at h
  split at h
  · rename_i hfail
    split at h <;> cases h
    exact .inl ⟨hfail, rfl, rfl⟩
  · rename_i hfail
    exact .inr ⟨Bool.eq_false_iff.2 hfail, h⟩

theorem BillingCall.step_effect {c c' : BillingCall} (h : c.step cfg pid fresh s = some (s', c')) :
    Effect pid s c s' := by
  cases moves_of_step h with
  | webhook hst => exact HandleState.step_effect hst
  | expirePendingPayments hst => exact ExpireState.step_effect hst
  | lifecycle hst => exact LifecycleState.step_effect hst
  | changePlan hst => exact ChangePlanState.step_effect hst

theorem billing_effect {i : Input} {c c' : BillingCall}
    (h : (billing cfg).thread pid i s c = some (s', c')) : Effect pid s c s' := by
  rcases billing_cases h with ⟨-, rfl, -⟩ | ⟨-, hst⟩
  · exact .quiet (.release pid s)
  · exact BillingCall.step_effect hst

theorem Effect.locks {c : BillingCall} (h : Effect pid s c s') : LocksKept pid s s' := by
  cases h with
  | quiet hq => exact hq.locks
  | settle => exact locksKept_commit
  | changePlan => exact locksKept_commit
  | _ => exact .of_eq rfl

end Gescom.Billing
