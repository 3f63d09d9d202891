import Gescom.Billing.Effects

/-!
# The subscription state machine under concurrency

`handle` and `changePlan` read a subscription, decide, and then update it by its identifier alone
(`payments-webhook.service.ts:248`, `:273`, `subscriptions.service.ts:65`); the daily jobs
compare-and-swap on the status they read. `transitions_allowed` gives the runs in which every
committed write stays inside `ALLOWED_TRANSITIONS`: those where no update by identifier meets a
subscription that a job has expired or suspended since it was read. `expired_reactivated` is a run
outside it.
-/

namespace Gescom.Billing

open ReadCommitted Transition SubscriptionStatus

/-- What a committed write may do to a subscription. -/
structure WriteAllowed (x x' : Subscription) : Prop where
  status : x'.status = x.status ∨ canTransitionSubscription x.status x'.status = true
  terminal : x.status.Terminal →
    x'.status = x.status ∧ x'.planId = x.planId ∧ x'.renewalDate = x.renewalDate

/-- Every committed write of the runs whose steps meet `K` is allowed. -/
def TransitionsAllowed (cfg : Config) (K : BillingPool → Act Input Nat → Prop)
    (P₀ : BillingPool) : Prop :=
  ∀ P a P', Reach (billing cfg).system K P₀ P → K P a → (billing cfg).system.step P a = some P' →
    ∀ id x x', P.shared.db.subscriptions.find? id = some x →
      P'.shared.db.subscriptions.find? id = some x' → WriteAllowed x x'

/-- An update by identifier finds a subscription the jobs have not moved out of the way: not
`EXPIRED`, and not `SUSPENDED` when the update sets `PAST_DUE`. -/
def FreshUpdates (P : BillingPool) : Act Input Nat → Prop
  | .run pid i => i.fail = false → ∀ x,
      (∀ t u sub ent target, P.threads pid = .webhook (.transitioning t u sub ent target) →
        P.shared.db.subscriptions.find? sub.id = some x →
        (target = active → x.status ≠ expired) ∧ (target = pastDue → x.status ≠ suspended)) ∧
      (∀ c sub, P.threads pid = .changePlan (.updatingPlan c sub) →
        P.shared.db.subscriptions.find? sub.id = some x → x.status ≠ expired)
  | .env _ => True

/-! ## The guarantee on subscription rows -/

/-- `WriteAllowed`, and nobody cancels. -/
structure RowStep (x x' : Subscription) : Prop extends WriteAllowed x x' where
  id_eq : x'.id = x.id
  not_cancelled : x.status ≠ cancelled → x'.status ≠ cancelled

theorem RowStep.refl (x : Subscription) : RowStep x x :=
  ⟨⟨.inl rfl, fun _ => ⟨rfl, rfl, rfl⟩⟩, rfl, id⟩

/-- What a step of `pid` may do to subscriptions: a row changes by an allowed write only, while no
other transaction holds its lock. -/
structure SubscriptionStep (pid : Nat) (s s' : BillingStore) : Prop where
  locks : LocksKept pid s s'
  rows : ∃ f : Subscription → Subscription,
    s'.db.subscriptions.rows = s.db.subscriptions.rows.map f ∧
    (∀ r, (f r).id = r.id) ∧
    ∀ r ∈ s.db.subscriptions.rows, f r = r ∨ s.free pid (.subscription r.id) = true ∧
      RowStep r (f r)

variable {pid pid' : Nat} {s s' : BillingStore} {id : Uuid}

theorem Quiet.subscriptionStep (h : Quiet pid s s') : SubscriptionStep pid s s' where
  locks := h.locks
  rows := ⟨fun r => r,
    by rw [h.subscriptions]; exact (List.map_id' _).symm, fun _ => rfl, fun _ _ => .inl rfl⟩

/-- A row found after a step comes from a row found before it. -/
theorem SubscriptionStep.find?_back (h : SubscriptionStep pid s s') {x' : Subscription}
    (hx' : s'.db.subscriptions.find? id = some x') :
    ∃ x, s.db.subscriptions.find? id = some x ∧
      (x' = x ∨ s.free pid (.subscription id) = true ∧ RowStep x x') := by
  obtain ⟨f, hrows, hid, hstep⟩ := h.rows
  rw [Table.find?_of_rows_map hid hrows] at hx'
  obtain ⟨x, hx, rfl⟩ := Option.map_eq_some_iff.1 hx'
  refine ⟨x, hx, ?_⟩
  have := hstep x (Table.mem_of_find? hx)
  rwa [show x.id = id from Table.key_of_find? hx] at this

theorem SubscriptionStep.rowStep (h : SubscriptionStep pid s s') {x x' : Subscription}
    (hx : s.db.subscriptions.find? id = some x) (hx' : s'.db.subscriptions.find? id = some x') :
    RowStep x x' := by
  obtain ⟨y, hy, hstep⟩ := h.find?_back hx'
  obtain rfl := Option.some.inj (hx.symm.trans hy)
  rcases hstep with rfl | ⟨-, hstep⟩
  · exact .refl _
  · exact hstep

/-- A row whose lock another transaction holds does not change. -/
theorem SubscriptionStep.locked (h : SubscriptionStep pid s s') (hne : pid ≠ pid')
    (hl : s.lock (.subscription id) = some pid') {x' : Subscription}
    (hx' : s'.db.subscriptions.find? id = some x') : s.db.subscriptions.find? id = some x' := by
  obtain ⟨x, hx, rfl | ⟨hfree, -⟩⟩ := h.find?_back hx'
  · exact hx
  · rw [not_free hl hne] at hfree
    simp at hfree

/-! ## What a captured subscription and pending writes still say -/

/-- `sub` was read earlier: the row may have moved since, but it was not cancelled, and a paid
subscription stays paid. -/
def Captured (sub : Subscription) (s : BillingStore) : Prop :=
  ∀ x, s.db.subscriptions.find? sub.id = some x →
    (sub.status ≠ cancelled → x.status ≠ cancelled) ∧ (sub.status.Paid → x.status.Paid)

/-- The pending writes leave every subscription alone. -/
def Untouched (ws : List Write) : Prop := ∀ y : Subscription, onSubscription ws y = y

/-- The pending writes change a subscription only under its lock, in an allowed way. -/
def Writable (pid : Nat) (ws : List Write) (s : BillingStore) : Prop :=
  ∀ id, (∀ y : Subscription, y.id = id → onSubscription ws y = y) ∨
    s.lock (.subscription id) = some pid ∧
      ∀ x, s.db.subscriptions.find? id = some x → RowStep x (onSubscription ws x)

theorem Untouched.writable {ws : List Write} (h : Untouched ws) : Writable pid ws s :=
  fun _ => .inl fun y _ => h y

theorem Captured.of_find? {sub : Subscription} (h : s.db.subscriptions.find? id = some sub) :
    Captured sub s := by
  intro x hx
  obtain rfl : sub.id = id := Table.key_of_find? h
  obtain rfl := Option.some.inj (h.symm.trans hx)
  exact ⟨fun h => h, fun h => h⟩

theorem Captured.stable {sub : Subscription} (h : Captured sub s) (hg : SubscriptionStep pid s s') :
    Captured sub s' := by
  intro x' hx'
  obtain ⟨x, hx, hstep⟩ := hg.find?_back hx'
  obtain ⟨hc, hp⟩ := h x hx
  rcases hstep with rfl | ⟨-, hstep⟩
  · exact ⟨hc, hp⟩
  · refine ⟨fun hsub => hstep.not_cancelled (hc hsub), fun hsub => ?_⟩
    have hpaid := hp hsub
    rcases hstep.status with hsame | htrans
    · rw [hsame]; exact hpaid
    · exact hpaid.of_canTransition htrans
        (hstep.not_cancelled (by rintro h; rw [h] at hpaid; revert hpaid; decide))

theorem Writable.stable {ws : List Write} (h : Writable pid' ws s) (hne : pid ≠ pid')
    (hg : SubscriptionStep pid s s') : Writable pid' ws s' := by
  intro id
  rcases h id with hu | ⟨hl, hstep⟩
  · exact .inl hu
  · exact .inr ⟨(hg.locks _ _ (Ne.symm hne)).2 hl, fun x' hx' => hstep x' (hg.locked hne hl hx')⟩

theorem onSubscription_append (ws : List Write) (w : Write) (x : Subscription) :
    onSubscription (ws ++ [w]) x = w.onSubscription (onSubscription ws x) := by
  simp [onSubscription]

theorem Writable.push {ws : List Write} {w : Write} (h : Writable pid ws s)
    (hw : ∀ y, w.onSubscription y = y) : Writable pid (ws ++ [w]) s := by
  intro id
  rcases h id with hu | ⟨hl, hstep⟩
  · exact .inl fun y hy => by rw [onSubscription_append, hw, hu y hy]
  · exact .inr ⟨hl, fun x hx => by rw [onSubscription_append, hw]; exact hstep x hx⟩

/-- Own steps that change no data and keep the locks held. -/
theorem Writable.of_db {ws : List Write} (h : Writable pid ws s) (hd : s'.db = s.db)
    (hl : ∀ k, s.lock k = some pid → s'.lock k = some pid) : Writable pid ws s' := by
  intro id
  rcases h id with hu | ⟨hlk, hstep⟩
  · exact .inl hu
  · exact .inr ⟨hl _ hlk, by rw [hd]; exact hstep⟩

/-- The update by identifier: it locks the row, and is allowed if the row it meets allows it. -/
theorem Untouched.update {ws : List Write} {w : Write} (h : Untouched ws)
    (hother : ∀ y : Subscription, y.id ≠ id → w.onSubscription y = y)
    (hrow : ∀ x, s.db.subscriptions.find? id = some x → RowStep x (w.onSubscription x)) :
    Writable pid (ws ++ [w]) (s.acquire pid (.subscription id)) := by
  intro id'
  by_cases hid : id' = id
  · subst hid
    exact .inr ⟨acquire_lock_self, fun x hx => by rw [onSubscription_append, h x]; exact hrow x hx⟩
  · refine .inl fun y hy => ?_
    rw [onSubscription_append, h y]
    exact hother y (by rw [hy]; exact hid)

/-! ## The assertions of the statements -/

/-- The transition decided from what was read. -/
structure Decided (sub : Subscription) (target : SubscriptionStatus) : Prop where
  billed : target = active ∨ target = pastDue
  allowed : canTransitionSubscription sub.status target = true

/-- Before the subscription part of the transaction. -/
structure Tx.Deciding (t : Tx) (sub : Subscription) (s : BillingStore) : Prop where
  untouched : Untouched t.writes
  captured : Captured sub s

def HandleState.Holds (pid : Nat) (s : BillingStore) : HandleState → Prop
  | readingPayment t | readingSubscription t _ => Untouched t.writes
  | readingEnterprise t _ sub => t.Deciding sub s
  | transitioning t _ sub _ target => t.Deciding sub s ∧ Decided sub target
  | renewing t _ sub _ => t.Deciding sub s ∧ sub.status = pastDue
  | recordingEvent t _ _ _ _ _ => Writable pid t.writes s
  | numbering t _ _ _ => Writable pid t.writes s
  | invoicing t _ _ _ _ => Writable pid t.writes s
  | committing t _ => Writable pid t.writes s
  | _ => True

def ChangePlanState.Holds (pid : Nat) (s : BillingStore) : ChangePlanState → Prop
  | findingPlan _ sub | updatingPlan _ sub => Captured sub s ∧ ¬ sub.status.Terminal
  | recordingEvent c sub | committing c sub => Writable pid (c.writes sub) s
  | _ => True

def BillingCall.Holds (pid : Nat) (c : BillingCall) (s : BillingStore) : Prop :=
  match c with
  | webhook st => st.Holds pid s
  | changePlan st => st.Holds pid s
  | _ => True

theorem Tx.Deciding.stable {t : Tx} {sub : Subscription} (h : t.Deciding sub s)
    (hg : SubscriptionStep pid s s') :
    t.Deciding sub s' := ⟨h.untouched, h.captured.stable hg⟩

theorem BillingCall.Holds.stable {c : BillingCall} (h : c.Holds pid' s) (hne : pid ≠ pid')
    (hg : SubscriptionStep pid s s') : c.Holds pid' s' := by
  cases c with
  | webhook st =>
    cases st <;> simp only [Holds, HandleState.Holds] at h ⊢
    case readingPayment t => exact h
    case readingSubscription t u => exact h
    case readingEnterprise t u sub => exact h.stable hg
    case transitioning t u sub ent target => exact ⟨h.1.stable hg, h.2⟩
    case renewing t u sub ent => exact ⟨h.1.stable hg, h.2⟩
    all_goals exact Writable.stable h hne hg
  | changePlan st =>
    cases st <;> simp only [Holds, ChangePlanState.Holds] at h ⊢
    case findingPlan c sub => exact ⟨h.1.stable hg, h.2⟩
    case updatingPlan c sub => exact ⟨h.1.stable hg, h.2⟩
    all_goals exact Writable.stable h hne hg
  | _ => trivial

/-! ## Calls keep their assertions -/

theorem dispatch_holds (h : Handling) : h.dispatch.Holds pid s := by
  rcases dispatch_cases h with ⟨-, -, hd⟩ | ⟨-, hd⟩ | ⟨_, _, _, hd⟩ | ⟨_, -, hd⟩ <;> rw [hd] <;>
    trivial

theorem afterSubscription_holds {t : Tx} (h : Writable pid t.writes s) (u : Payment)
    (ent : Enterprise) (after : Subscription) : (afterSubscription t u ent after).Holds pid s := by
  unfold afterSubscription
  split
  · exact h
  · exact h

theorem targetStatus_eq_some {ev : EventStatus} {a b : SubscriptionStatus}
    (h : targetStatus ev a = some b) : b = active ∨ b = pastDue := by
  cases ev with
  | succeeded => cases h; exact .inl rfl
  | failed =>
    simp only [targetStatus] at h
    split at h <;> cases h
    exact .inr rfl

theorem decide_holds {t : Tx} {u : Payment} {sub : Subscription} {ent : Enterprise}
    {next : HandleState}
    (h : t.Deciding sub s) (hd : t.decide u sub ent = .ok next) : next.Holds pid s := by
  rcases decide_cases hd with rfl | ⟨target, htarget, hallowed, rfl⟩ | ⟨hpast, rfl⟩
  · exact afterSubscription_holds h.untouched.writable u ent sub
  · exact ⟨h, targetStatus_eq_some htarget, assertSubscriptionTransition_ok_iff.1 hallowed⟩
  · exact ⟨h, hpast⟩

/-- The update of a transition, on the row it meets: neither cancelled nor, by the condition, moved
out of the way. -/
theorem rowStep_transition {sub x : Subscription} {target : SubscriptionStatus}
    (hd : Decided sub target)
    (hcap : (sub.status ≠ cancelled → x.status ≠ cancelled) ∧ (sub.status.Paid → x.status.Paid))
    (hfresh : (target = active → x.status ≠ expired) ∧ (target = pastDue → x.status ≠ suspended))
    (hid : x.id = sub.id) (renewal : Option Instant) :
    RowStep x ((Write.transition sub.id target renewal).onSubscription x) := by
  have hw : (Write.transition sub.id target renewal).onSubscription x =
      { x with status := target, renewalDate := renewal } := by simp [Write.onSubscription, hid]
  obtain ⟨htarget, hallowed⟩ := hd
  have hcancel : x.status ≠ cancelled := by
    refine hcap.1 fun hc => ?_
    rw [hc] at hallowed
    simp [canTransitionSubscription, allowedTransitions] at hallowed
  rw [hw]
  have hmove : target = x.status ∨ canTransitionSubscription x.status target = true := by
    rcases htarget with rfl | rfl
    · have hexp := hfresh.1 rfl
      revert hcancel hexp
      cases x.status <;> decide
    · have hpaid : sub.status.Paid := by
        revert hallowed
        cases sub.status <;> decide
      have hsusp := hfresh.2 rfl
      have := hcap.2 hpaid
      revert this hsusp
      cases x.status <;> decide
  have hterm : ¬ x.status.Terminal := by
    rcases hmove with heq | htrans
    · rcases htarget with rfl | rfl <;> (rw [← heq]; decide)
    · exact not_terminal_of_canTransition htrans
  refine ⟨⟨hmove, fun ht => absurd ht hterm⟩, rfl, fun _ => ?_⟩
  rcases htarget with rfl | rfl <;> simp

theorem rowStep_renew {sub x : Subscription} (hpaid : x.status.Paid) (date : Instant) :
    RowStep x ((Write.renew sub.id date).onSubscription x) := by
  have hterm : ¬ x.status.Terminal := by revert hpaid; cases x.status <;> decide
  simp only [Write.onSubscription]
  split
  · exact ⟨⟨.inl rfl, fun ht => absurd ht hterm⟩, rfl, fun h => h⟩
  · exact .refl x

theorem rowStep_changePlan {sub x : Subscription} (hterm : ¬ x.status.Terminal) (planId : Uuid) :
    RowStep x ((Write.changePlan sub.id planId).onSubscription x) := by
  simp only [Write.onSubscription]
  split
  · exact ⟨⟨.inl rfl, fun ht => absurd ht hterm⟩, rfl, fun h => h⟩
  · exact .refl x

theorem HandleState.holds_step {cfg : Config} {fresh : Uuid} {st st' : HandleState}
    (hH : st.Holds pid s) (hK : ∀ t u sub ent target, st = transitioning t u sub ent target → ∀ x,
      s.db.subscriptions.find? sub.id = some x →
        (target = active → x.status ≠ expired) ∧ (target = pastDue → x.status ≠ suspended))
    (h : st.step cfg pid fresh s = some (s', st')) : st'.Holds pid s' := by
  cases step_cases h with
  | finds | rereads => exact dispatch_holds _
  | settles => exact fun y => rfl
  | readsPayment => exact hH
  | readsSubscription updated found =>
    rw [find?_subscriptions_with] at found
    obtain ⟨x, hx, rfl⟩ := Option.map_eq_some_iff.1 found
    exact ⟨hH, by rw [hH x]; exact .of_find? hx⟩
  | decides decided => exact decide_holds hH decided
  | transitions =>
    refine hH.1.untouched.update (fun y hy => by simp [Write.onSubscription, hy]) fun x hx => ?_
    exact rowStep_transition hH.2 (hH.1.captured x hx) (hK _ _ _ _ _ rfl x hx)
      (Table.key_of_find? hx) _
  | recordsEvent t u sub ent target after =>
    exact afterSubscription_holds (Writable.push hH fun _ => rfl) u ent after
  | renews u ent =>
    refine afterSubscription_holds ?_ u ent _
    refine hH.1.untouched.update (fun y hy => by simp [Write.onSubscription, hy]) fun x hx => ?_
    exact rowStep_renew ((hH.1.captured x hx).2 (by rw [hH.2]; decide)) _
  | numbers => exact Writable.of_db (Writable.push hH fun _ => rfl) rfl fun k hk => acquire_keeps hk
  | invoices =>
    exact Writable.of_db (Writable.push (Writable.push hH fun _ => rfl) fun _ => rfl) rfl
      fun k hk => acquireAll_keeps hk
  | _ => trivial

theorem ChangePlanState.holds_step {st st' : ChangePlanState} (hH : st.Holds pid s)
    (hK : ∀ c sub, st = updatingPlan c sub →
      ∀ x, s.db.subscriptions.find? sub.id = some x → x.status ≠ expired)
    (h : st.step pid s = some (s', st')) : st'.Holds pid s' := by
  cases st <;> simp only [step] at h
  case findingSubscription c =>
    split at h
    · cases h; trivial
    · rename_i sub hsub
      split at h <;> cases h
      · trivial
      · rename_i hterm
        simp only [Db.currentSubscription, Option.bind_eq_bind, Option.bind_eq_some_iff] at hsub
        obtain ⟨ent, -, id, -, hfound⟩ := hsub
        exact ⟨.of_find? hfound, hterm⟩
  case findingPlan c sub =>
    split at h
    · cases h; trivial
    · split at h <;> cases h
      · trivial
      · exact hH
  case updatingPlan c sub =>
    split at h
    · split at h <;> cases h
      · trivial
      · have hu : Untouched ([] : List Write) := fun y => rfl
        have hrow : ∀ x, s.db.subscriptions.find? sub.id = some x →
            RowStep x ((Write.changePlan sub.id c.newPlanId).onSubscription x) := by
          refine fun x hx => rowStep_changePlan (fun hterm => ?_) _
          obtain ⟨hcap, hsub⟩ := hH
          have hexp := hK c sub rfl x hx
          have hcan := (hcap x hx).1 fun hc => hsub (by rw [hc]; decide)
          revert hterm hexp hcan
          cases x.status <;> decide
        exact (hu.update (fun y hy => by simp [Write.onSubscription, hy]) hrow).push fun _ => rfl
    · cases h
  case recordingEvent c sub => cases h; exact hH
  case committing c sub => cases h; trivial
  case auditing c sub => cases h; trivial
  case finished r => cases h

/-- A failed call is in a state without assertion. -/
theorem BillingCall.holds_failed (c : BillingCall) : c.failed.Holds pid s := by
  rcases c.failed_cases with ⟨_, hc⟩ | ⟨_, _, hc⟩ | ⟨_, _, _, hc⟩ <;> rw [hc] <;> trivial

theorem BillingCall.holds_step {cfg : Config} {P : BillingPool} {i : Input} {c' : BillingCall}
    (hK : FreshUpdates P (.run pid i)) (hH : (P.threads pid).Holds pid P.shared)
    (h : (billing cfg).thread pid i P.shared (P.threads pid) = some (s', c')) :
    c'.Holds pid s' := by
  rcases billing_cases h with ⟨-, -, rfl⟩ | ⟨hfail, hstep⟩
  · exact holds_failed _
  · have hK := hK hfail
    generalize hc : P.threads pid = c at hstep hH
    cases moves_of_step hstep with
    | webhook hst =>
      refine HandleState.holds_step hH ?_ hst
      rintro t u sub ent target rfl x hx
      exact (hK x).1 t u sub ent target hc hx
    | changePlan hst =>
      refine ChangePlanState.holds_step hH ?_ hst
      rintro c sub rfl x hx
      exact (hK x).2 c sub hc hx
    | expirePendingPayments | lifecycle => trivial

/-! ## Every statement stays inside the guarantee -/

theorem toStatus_ne_cancelled (j : LifecycleJob) : j.toStatus ≠ cancelled := by cases j <;> decide

/-- A commit of pending writes that are `Writable`. -/
theorem subscriptionStep_commit {ws : List Write} (h : Writable pid ws s) :
    SubscriptionStep pid s (s.commit pid fun db => db.with ws) := by
  refine ⟨locksKept_commit, _, subscriptions_rows_with s.db ws, onSubscription_id ws,
    fun r hr => ?_⟩
  rcases h r.id with hu | ⟨hl, hstep⟩
  · exact .inl (hu r rfl)
  · exact .inr ⟨free_iff.2 (.inr hl), hstep r (Table.find?_of_mem hr)⟩

theorem subscriptionStep_of_effect {c : BillingCall} (he : Effect pid s c s') (hH : c.Holds pid s) :
    SubscriptionStep pid s s' := by
  cases he with
  | quiet h => exact h.subscriptionStep
  | expirePayment id row found pending free =>
    exact ⟨.of_eq rfl, _, subscriptions_rows_with s.db _, fun _ => rfl, fun _ _ => .inl rfl⟩
  | flag h stmt =>
    exact ⟨.of_eq rfl, fun r => r, (List.map_id' _).symm, fun _ => rfl, fun _ _ => .inl rfl⟩
  | transition j row found allowed free =>
    refine ⟨.of_eq rfl, _, subscriptions_rows_with s.db _, onSubscription_id _, fun r hr => ?_⟩
    by_cases hid : r.id = row.id
    · have hfound : s.db.subscriptions.find? row.id = some r := by
        rw [← hid]; exact Table.find?_of_mem hr
      obtain rfl := Option.some.inj (hfound.symm.trans found)
      right
      have hnew : onSubscription [.transition r.id j.toStatus r.renewalDate] r =
          { r with status := j.toStatus } := by
        simp [onSubscription, Write.onSubscription]
      rw [hnew]
      exact ⟨free, ⟨.inr allowed, fun ht => absurd ht (not_terminal_of_canTransition allowed)⟩, rfl,
        fun _ => toStatus_ne_cancelled j⟩
    · left
      simp [onSubscription, Write.onSubscription, hid]
  | settle t after stmt =>
    subst stmt
    exact subscriptionStep_commit hH
  | changePlan q sub stmt =>
    subst stmt
    exact subscriptionStep_commit hH

/-- The outline of subscriptions. -/
theorem subscriptions (cfg : Config) :
    Outline (billing cfg) FreshUpdates (fun _ => True) (fun pid c s => c.Holds pid s)
      SubscriptionStep where
  own P pid i s t hK _ hQ hst :=
    ⟨trivial, BillingCall.holds_step hK hQ hst, subscriptionStep_of_effect (billing_effect hst) hQ⟩
  stable _ _ _ _ _ hne _ _ hG hQ := BillingCall.Holds.stable hQ hne hG
  env P d _ _ := by
    refine ⟨trivial, fun pid c hc => ?_⟩
    have hq : Quiet (pid + 1) P.shared ((billing cfg).env d P.shared) :=
      ⟨.of_eq rfl, rfl, rfl, rfl, List.prefix_rfl⟩
    exact hc.stable (Nat.succ_ne_self pid) hq.subscriptionStep

theorem BillingCall.Fresh.holds {c : BillingCall} (h : c.Fresh) : c.Holds pid s := by
  cases c with
  | webhook st => cases st <;> trivial
  | changePlan st => cases st <;> trivial
  | _ => trivial

/-! ## The result -/

/-- In every run in which no update by identifier meets a subscription that was expired or suspended
behind its back, every committed write follows `ALLOWED_TRANSITIONS` and none touches a terminal
subscription. -/
theorem transitions_allowed (cfg : Config) {P₀ : BillingPool} (h0 : Starts P₀) :
    TransitionsAllowed cfg FreshUpdates P₀ := by
  intro P a P' hr hK hstep id x x' hx hx'
  have hA0 : Annotated (fun _ => True) (fun pid c s => BillingCall.Holds pid c s) P₀ :=
    ⟨trivial, fun pid => (h0.fresh pid).holds⟩
  cases a with
  | run pid i =>
    exact (((subscriptions cfg).guarantee hA0 hr hK hstep).rowStep hx hx').toWriteAllowed
  | env d =>
    obtain rfl := Machine.env_eq_some.1 hstep
    obtain rfl := Option.some.inj (hx.symm.trans hx')
    exact (RowStep.refl x).toWriteAllowed

/-- A succeeded payment and the trial expiry job. -/
def expiryPool : BillingPool := samplePool sampleDb
  [.webhook (.received (sampleDelivery .succeeded)), .lifecycle (.listing .expireTrials)]

theorem expiryPool_starts : Starts expiryPool := samplePool_starts (by simp [BillingCall.Fresh])

theorem transitions_allowed_sample : TransitionsAllowed sampleConfig FreshUpdates expiryPool :=
  transitions_allowed sampleConfig expiryPool_starts

/-- The delivery reads `TRIAL`; the trial ends and the job commits `EXPIRED`; the delivery commits
`ACTIVE` on top of it. -/
theorem expired_reactivated :
    Starts expiryPool ∧ ¬ TransitionsAllowed sampleConfig Always expiryPool := by
  refine ⟨expiryPool_starts, fun hall => ?_⟩
  have hrun : (exec (billing sampleConfig).system (fun _ _ => true) expiryPool
      (runs 0 6 0 ++ [.env 100] ++ runs 1 2 0 ++ runs 0 4 9)).bind (fun P =>
        ((billing sampleConfig).system.step P (.run 0 {})).map fun P' =>
          ((P.shared.db.subscriptions.find? 2).map Subscription.status,
            (P'.shared.db.subscriptions.find? 2).map Subscription.status)) =
      some (some expired, some active) := by decide +kernel
  obtain ⟨P, hP, hlast⟩ := Option.bind_eq_some_iff.1 hrun
  obtain ⟨P', hP', hres⟩ := Option.map_eq_some_iff.1 hlast
  simp only [Prod.mk.injEq, Option.map_eq_some_iff] at hres
  obtain ⟨⟨x, hx, hxs⟩, x', hx', hxs'⟩ := hres
  have hwrite := hall P _ P' (Reach.of_exec _ (fun _ _ _ => trivial) _ hP) trivial hP' 2 x x' hx hx'
  have hkept := (hwrite.terminal (by rw [hxs]; decide)).1
  rw [hxs, hxs'] at hkept
  cases hkept

end Gescom.Billing
