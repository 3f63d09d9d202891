import Gescom.Billing.Payments

/-!
# Every call keeps its assertions on payments

A case for each statement of each call; with the guarantee this is the proof outline `payments`.
-/

namespace Gescom.Billing

open ReadCommitted Transition

variable {pid : Nat} {s s' : BillingStore} {id p : Uuid}

/-! ## A delivery keeps its own assertions -/

theorem Idle.of_lock (h : Idle pid s) (hl : s'.lock = s.lock) : Idle pid s' := by
  intro id
  rw [hl]
  exact h id

theorem idle_release (pid : Nat) (s : BillingStore) : Idle pid (s.release pid) :=
  fun _ => release_ne

/-- Own steps inside the transaction change neither the data nor the payment locks. -/
theorem Tx.Reading.of_db {t : Tx} {u : Payment} (h : t.Reading u pid s) (hd : s'.db = s.db)
    (hl : ∀ id, s'.lock (.payment id) = s.lock (.payment id)) : t.Reading u pid s' where
  locked := (hl _).trans h.locked
  only id hp := h.only id ((hl id).symm.trans hp)
  pending := by rw [hd]; exact h.pending
  writes := h.writes
  uninvoiced := h.uninvoiced
  read := by
    obtain ⟨row, hrow, hu⟩ := h.read
    exact ⟨row, by rw [hd]; exact hrow, hu⟩

/-- A pending write about something else than payments and invoices. -/
theorem Tx.Reading.push {t : Tx} {u : Payment} {w : Write} (h : t.Reading u pid s)
    (hp : ∀ r, w.onPayment r = r) (hi : w.invoice? = none) : (t.push w).Reading u pid s where
  locked := h.toSettling.locked
  only := h.only
  pending := h.pending
  writes := h.writes.push (fun r => by rw [hp]) fun r _ => hp r
  uninvoiced := by rw [Tx.push, invoicesOf_append, h.uninvoiced, hi]; rfl
  read := h.read

theorem Tx.Reading.id_eq {t : Tx} {u : Payment} (h : t.Reading u pid s) : u.id = t.payment.id := by
  obtain ⟨row, hrow, hu⟩ := h.read
  exact (terms_id hu).trans (Table.key_of_find? hrow)

theorem not_payment_invoiceLocks (i : Invoice) (id : Uuid) :
    (invoiceLocks i).contains (.payment id) = false := by
  cases hp : i.paymentId <;> simp [invoiceLocks, hp]

/-- The insert of the invoice and the update that points the payment to it. -/
theorem Tx.Reading.invoice {t : Tx} {u : Payment} {i : Invoice} (h : t.Reading u pid s)
    (hev : t.event.status = .succeeded) (hp : i.paymentId = some u.id) (ha : i.amount = u.amount)
    (after : Subscription) :
    HandleState.Asserts pid (s.acquireAll pid (invoiceLocks i).contains)
      (.committing ((t.push (.invoice i)).push (.attachInvoice u.id i.id)) after) := by
  have h' : t.Reading u pid (s.acquireAll pid (invoiceLocks i).contains) :=
    h.of_db rfl fun id => acquireAll_ne (not_payment_invoiceLocks i id)
  obtain ⟨row, hrow, hu⟩ := h'.read
  refine ⟨⟨h'.toSettling.locked, h'.only, h'.pending, ?_⟩, ?_⟩
  · refine (h.writes.push (fun _ => rfl) fun _ _ => rfl).push (fun r => ?_) fun r hr => ?_
    · simp only [Write.onPayment]; split <;> rfl
    · simp only [Write.onPayment, h.id_eq]
      rw [if_neg (by simpa using hr)]
  · unfold Tx.Invoices
    simp only [Tx.push, hev]
    refine ⟨i, row, ?_, ?_, hrow, ha.trans (terms_amount hu)⟩
    · rw [invoicesOf_append, invoicesOf_append, h.uninvoiced]; rfl
    · exact hp.trans (congrArg some h.id_eq)

theorem dispatch_asserts {h : Handling} (hi : Idle pid s) (hk : h.Known s) :
    h.dispatch.Asserts pid s := by
  rcases dispatch_cases h with ⟨-, -, hd⟩ | ⟨-, hd⟩ | ⟨_, _, _, hd⟩ | ⟨_, -, hd⟩ <;> rw [hd]
  · exact hi
  · exact ⟨hi, hk⟩
  · exact hi
  · exact ⟨hi, hk⟩

theorem afterSubscription_asserts {t : Tx} {u : Payment} (h : t.Reading u pid s) (ent : Enterprise)
    (after : Subscription) : (afterSubscription t u ent after).Asserts pid s := by
  unfold afterSubscription
  split
  · rename_i hev
    exact ⟨h, hev⟩
  · rename_i hev
    refine ⟨h.toSettling, ?_⟩
    unfold Tx.Invoices
    rw [hev]
    exact h.uninvoiced

theorem decide_asserts {t : Tx} {u : Payment} {sub : Subscription} {ent : Enterprise}
    {next : HandleState}
    (h : t.Reading u pid s) (hd : t.decide u sub ent = .ok next) : next.Asserts pid s := by
  rcases decide_cases hd with rfl | ⟨_, -, -, rfl⟩ | ⟨-, rfl⟩
  · exact afterSubscription_asserts h ent sub
  · exact h
  · exact h

theorem HandleState.asserts_step {cfg : Config} {fresh : Uuid} {st st' : HandleState}
    (hA : st.Asserts pid s) (h : st.step cfg pid fresh s = some (s', st')) :
    st'.Asserts pid s' := by
  have payment_ne : ∀ {k : Lock} (id : Uuid), Lock.payment id ≠ k →
      (s.acquire pid k).lock (.payment id) = s.lock (.payment id) := fun _ h => acquire_ne h
  cases step_cases h with
  | overdue found => exact ⟨hA, _, Table.find?_of_findBy found⟩
  | finds found => exact dispatch_asserts hA ⟨_, Table.find?_of_findBy found⟩
  | @rereads hd payment found =>
    have hid : payment.id = hd.payment.id := Table.key_of_find? found
    exact dispatch_asserts hA.1 ⟨payment, by rw [hid]; exact found⟩
  | resolved => exact hA
  | expires | gone | flags | ignores => exact hA.1
  | settles subscriptionId found pending free =>
    -- the compare-and-swap takes the lock of a row it has just seen `PENDING`
    refine ⟨⟨acquire_lock_self, fun id hl => ?_, by simp [Db.statusOf, found, pending],
      settles_first _ _ _⟩, rfl⟩
    by_contra hne
    rw [acquire_ne (by simpa using hne)] at hl
    exact hA.1 id hl
  | readsPayment found =>
    rw [find?_payments_with] at found
    obtain ⟨row, hrow, rfl⟩ := Option.map_eq_some_iff.1 found
    exact ⟨hA.1, hA.2, row, hrow, onPayment_terms _ _⟩
  | readsSubscription => exact hA
  | decides decided => exact decide_asserts hA decided
  | transitions => exact (hA.push (fun _ => rfl) rfl).of_db rfl fun id => payment_ne id (by simp)
  | recordsEvent t updated sub ent target after =>
    exact afterSubscription_asserts (hA.push (fun _ => rfl) rfl) ent after
  | renews updated ent =>
    refine afterSubscription_asserts ?_ ent _
    exact (hA.push (fun _ => rfl) rfl).of_db rfl fun id => payment_ne id (by simp)
  | numbers =>
    exact ⟨(hA.1.push (fun _ => rfl) rfl).of_db rfl fun id => payment_ne id (by simp), hA.2⟩
  | invoices after sequence row =>
    subst row
    exact hA.1.invoice hA.2 rfl rfl after
  | forbids | aborts => exact idle_release pid s
  | commits => exact (idle_release pid s).of_lock rfl
  | _ => exact hA

/-! ## Who reaches the effects -/

theorem not_reached_dispatch (h : Handling) (ev : EventStatus) : ¬ h.dispatch.Reached p ev := by
  rcases dispatch_cases h with ⟨-, -, hd⟩ | ⟨-, hd⟩ | ⟨_, _, _, hd⟩ | ⟨_, -, hd⟩ <;> rw [hd] <;>
    simp [Handling.reject, HandleState.Reached]

theorem not_reached_afterSubscription (t : Tx) (u : Payment) (ent : Enterprise)
    (after : Subscription)
    (ev : EventStatus) : ¬ (afterSubscription t u ent after).Reached p ev := by
  unfold afterSubscription
  split <;> simp [HandleState.Reached]

theorem not_reached_decide {t : Tx} {u : Payment} {sub : Subscription} {ent : Enterprise}
    {next : HandleState} (hd : t.decide u sub ent = .ok next) (ev : EventStatus) :
    ¬ next.Reached p ev := by
  rcases decide_cases hd with rfl | ⟨_, -, -, rfl⟩ | ⟨-, rfl⟩
  · exact not_reached_afterSubscription _ _ _ _ _
  · simp [HandleState.Reached]
  · simp [HandleState.Reached]

/-- A delivery comes to the effects by committing its transaction, and in no other way. -/
theorem HandleState.reached_step {cfg : Config} {fresh : Uuid} {ev : EventStatus}
    {st st' : HandleState} (h : st.step cfg pid fresh s = some (s', st')) (hr : st'.Reached p ev) :
    st.Reached p ev ∨ ∃ t after, st = committing t after ∧ t.payment.id = p ∧ t.event.status = ev ∧
      s' = s.commit pid fun db => db.with t.writes := by
  have processed : ∀ {hd : Handling},
      (answered hd.delivery (.ok ⟨.processed, hd.payment.id⟩)).Reached p ev →
      hd.payment.id = p ∧ hd.event.status = ev := by
    rintro hd ⟨hres, hev⟩
    simp only [WebhookResult.mk.injEq, true_and] at hres
    rw [hd.parsed] at hev
    exact ⟨hres, by simpa using hev⟩
  cases step_cases h with
  | commits t after => exact .inr ⟨t, after, rfl, hr.1, hr.2, rfl⟩
  | audits | recipient => exact .inl hr
  | noRecipient | notifies => exact .inl (processed hr)
  -- every other statement leads to a state that is before the effects
  | finds | rereads => exact absurd hr (not_reached_dispatch _ _)
  | decides decided => exact absurd hr (not_reached_decide decided _)
  | recordsEvent | renews => exact absurd hr (not_reached_afterSubscription _ _ _ _ _)
  | reports | ignores =>
    simp [Reached] at hr
  | _ => exact hr.elim

theorem BillingCall.reached_step {cfg : Config} {i : Input} {ev : EventStatus} {c c' : BillingCall}
    (h : (billing cfg).thread pid i s c = some (s', c')) (hr : c'.ReachedEffects p ev) :
    c.ReachedEffects p ev ∨ ∃ t after, c = webhook (.committing t after) ∧ t.payment.id = p ∧
      t.event.status = ev ∧ s' = s.commit pid fun db => db.with t.writes := by
  rcases billing_cases h with ⟨-, -, rfl⟩ | ⟨-, hstep⟩
  · -- a failed statement: the webhook is thrown where it stands, the jobs go on
    cases c with
    | webhook st => exact .inl hr
    | expirePendingPayments st => cases hst : st.failed <;> simp [failed, hst, ReachedEffects] at hr
    | lifecycle st => cases hst : st.failed <;> simp [failed, hst, ReachedEffects] at hr
    | changePlan st => simp [failed, ReachedEffects] at hr
    | thrown c => simp [failed, ReachedEffects] at hr
  · cases moves_of_step hstep with
    | webhook hst =>
      rcases HandleState.reached_step hst hr with hr | ⟨t, after, rfl, hp, hev, rfl⟩
      · exact .inl hr
      · exact .inr ⟨t, after, rfl, hp, hev, rfl⟩
    | expirePendingPayments | lifecycle | changePlan => exact hr.elim

theorem BillingCall.Fresh.not_reached {c : BillingCall} (h : c.Fresh) {ev : EventStatus} :
    ¬ c.ReachedEffects p ev := by
  intro hr
  cases c with
  | webhook st => cases st <;> first | exact hr.elim | exact h.elim
  | thrown c => exact h.elim
  | _ => exact hr.elim

/-! ## The outline -/

theorem ExpireState.step_lock {st st' : ExpireState} (h : st.step pid s = some (s', st')) :
    s'.lock = s.lock := by
  cases st with
  | next rest n =>
    cases rest with
    | nil => cases h; rfl
    | cons p rest =>
      simp only [step] at h
      split at h
      · split at h
        · split at h <;> cases h
          rfl
        · cases h; rfl
      · cases h; rfl
  | finished n => cases h
  | _ => cases h; rfl

theorem LifecycleState.step_lock {st st' : LifecycleState} (h : st.step pid s = some (s', st')) :
    s'.lock = s.lock := by
  cases st with
  | next j rest n =>
    cases rest with
    | nil => cases h; rfl
    | cons sub rest =>
      simp only [step] at h
      split at h
      · cases h; rfl
      · split at h
        · split at h
          · split at h <;> cases h
            rfl
          · cases h; rfl
        · cases h; rfl
  | finished n => cases h
  | _ => cases h; rfl

theorem ChangePlanState.idle_step {st st' : ChangePlanState} (hi : Idle pid s)
    (h : st.step pid s = some (s', st')) : Idle pid s' := by
  cases st <;> simp only [step] at h
  case findingSubscription c =>
    split at h
    · cases h; exact hi
    · split at h <;> cases h <;> exact hi
  case findingPlan c sub =>
    split at h
    · cases h; exact hi
    · split at h <;> cases h <;> exact hi
  case updatingPlan c sub =>
    split at h
    · split at h <;> cases h
      · exact idle_release pid s
      · intro id
        rw [acquire_ne (by simp)]
        exact hi id
    · cases h
  case committing c sub =>
    cases h
    exact (idle_release pid s).of_lock rfl
  case finished r => cases h
  all_goals cases h; exact hi

/-- The jobs and `changePlan` never take a payment lock, and a thrown call has released its
locks. -/
theorem BillingCall.here_step {cfg : Config} {i : Input} {c c' : BillingCall}
    (hA : c.AssertsHere pid s)
    (h : (billing cfg).thread pid i s c = some (s', c')) : c'.AssertsHere pid s' := by
  rcases billing_cases h with ⟨-, rfl, rfl⟩ | ⟨-, hstep⟩
  · have hi := idle_release pid s
    rcases c.failed_cases with ⟨_, hc⟩ | ⟨_, _, hc⟩ | ⟨_, _, _, hc⟩ <;> rw [hc] <;> exact hi
  · cases moves_of_step hstep with
    | webhook hst => exact HandleState.asserts_step hA hst
    | expirePendingPayments hst => exact Idle.of_lock hA (ExpireState.step_lock hst)
    | lifecycle hst => exact Idle.of_lock hA (LifecycleState.step_lock hst)
    | changePlan hst => exact ChangePlanState.idle_step hA hst

theorem BillingCall.asserts_step {cfg : Config} {i : Input} {c c' : BillingCall}
    (hA : c.Asserts pid s)
    (h : (billing cfg).thread pid i s c = some (s', c')) : c'.Asserts pid s' where
  here := here_step hA.here h
  resolved p ev hr := by
    rcases reached_step h hr with hr | ⟨t, after, rfl, rfl, rfl, rfl⟩
    · have hg := paymentStep_of_effect (billing_effect h) hA
      exact hg.statusOf (hA.resolved p ev hr) (toPayment_ne_pending ev)
    · exact hA.here.1.statusOf_commit

/-- The outline of payments: every call keeps its assertions and stays inside `PaymentStep`. -/
theorem payments (cfg : Config) :
    Outline (billing cfg) Always (fun _ => True) (fun pid c s => c.Asserts pid s) PaymentStep where
  own P pid i s t _ _ hQ hst :=
    ⟨trivial, BillingCall.asserts_step hQ hst, paymentStep_of_effect (billing_effect hst) hQ⟩
  stable _ _ _ _ _ hne _ _ hG hQ := BillingCall.Asserts.stable hQ hne hG
  env P d _ _ := by
    refine ⟨trivial, fun pid c hc => ?_⟩
    have hq : Quiet (pid + 1) P.shared ((billing cfg).env d P.shared) :=
      ⟨.of_eq rfl, rfl, rfl, rfl, List.prefix_rfl⟩
    exact hc.stable (Nat.succ_ne_self pid) hq.paymentStep

theorem Starts.annotated {P : BillingPool} (h : Starts P) :
    Annotated (fun _ => True) (fun pid c s => BillingCall.Asserts pid c s) P := by
  have idle : ∀ pid, Idle pid P.shared := fun pid id => by simp [h.unlocked]
  refine ⟨trivial, fun pid => ⟨?_, fun p ev hr => ?_⟩⟩
  · have := h.fresh pid
    cases hc : P.threads pid with
    | webhook st =>
      rw [hc] at this
      cases st <;> first | exact idle pid | exact this.elim
    | _ => exact idle pid
  · exact absurd hr (h.fresh pid).not_reached

variable {cfg : Config} {K : BillingPool → Act Input Nat → Prop} {P₀ P P' : BillingPool}

/-- In every run every call is where its assertion holds. -/
theorem Starts.asserts (h0 : Starts P₀) (h : Reach (billing cfg).system K P₀ P) (pid : Nat) :
    (P.threads pid).Asserts pid P.shared :=
  ((payments cfg).sound h0.annotated h.always).2 pid

theorem Starts.paymentStep (h0 : Starts P₀) (h : Reach (billing cfg).system K P₀ P)
    {a : Act Input Nat} (hst : (billing cfg).system.step P a = some P') :
    ∃ pid, PaymentStep pid P.shared P'.shared := by
  cases a with
  | run pid i =>
    exact ⟨pid, (payments cfg).guarantee (K := Always) h0.annotated h.always trivial hst⟩
  | env d =>
    obtain rfl := Machine.env_eq_some.1 hst
    have hq : Quiet 0 P.shared ((billing cfg).env d P.shared) :=
      ⟨.of_eq rfl, rfl, rfl, rfl, List.prefix_rfl⟩
    exact ⟨0, hq.paymentStep⟩

end Gescom.Billing
