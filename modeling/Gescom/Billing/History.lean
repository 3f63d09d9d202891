import Gescom.Lib.Ledger
import Gescom.Billing.Effects

/-!
# The history of a subscription

`SubscriptionEvent` is meant to be an immutable and complete history. A webhook and `changePlan`
write the event in the transaction of the change, but from a row read before they lock it; a
lifecycle job writes the event in a second statement after its compare-and-swap.
`history_faithful` gives the runs in which the events are a chain from the first status and plan to
the current ones. `expired_without_event` is a run outside it.
-/

namespace Gescom.Billing

open ReadCommitted Transition

/-- What the history is about. -/
abbrev Phase := SubscriptionStatus × Uuid

def Subscription.phase (x : Subscription) : Phase := (x.status, x.planId)

/-- The event tells the change from `a` to `b`. -/
def SubscriptionEvent.Tells (a : Phase) (e : SubscriptionEvent) (b : Phase) : Prop :=
  e.fromStatus = a.1 ∧ (∀ p, e.fromPlanId = some p → p = a.2) ∧
    b = (e.toStatus, e.toPlanId.getD a.2)

def Db.eventsOf (db : Db) (id : Uuid) : List SubscriptionEvent :=
  db.subscriptionEvents.filter fun e => e.subscriptionId = id

/-- The event of a lifecycle job (`subscription-lifecycle.service.ts:76`). -/
def LifecycleJob.event (j : LifecycleJob) (sub : Subscription) : SubscriptionEvent where
  subscriptionId := sub.id
  fromStatus := sub.status
  toStatus := j.toStatus
  reason := some j.reason

/-- The call has changed the status of `id` and has still to write the event. -/
def BillingCall.Owes (id : Uuid) (e : SubscriptionEvent) : BillingCall → Prop
  | lifecycle (.recordingEvent j sub _ _) => sub.id = id ∧ e = j.event sub
  | _ => False

/-- The events of `id` with the one a job owes, if any; two jobs never owe at once. -/
def Told (P : BillingPool) (id : Uuid) (es : List SubscriptionEvent) : Prop :=
  ((∀ pid e, ¬ (P.threads pid).Owes id e) ∧ es = P.shared.db.eventsOf id) ∨
    ∃ pid e, (P.threads pid).Owes id e ∧ (∀ pid' e', (P.threads pid').Owes id e' → pid' = pid) ∧
      es = P.shared.db.eventsOf id ++ [e]

/-! ## The runs -/

/-- The statement changes the status or the plan of `id`. -/
def BillingCall.Changes (db : Db) (id : Uuid) : BillingCall → Prop
  | webhook (.committing t _) => ∃ e, Write.event e ∈ t.writes ∧ e.subscriptionId = id
  | changePlan (.committing _ sub) => sub.id = id
  | lifecycle (.next _ (sub :: _) _) =>
    sub.id = id ∧ ∃ x, db.subscriptions.find? id = some x ∧ x.status = sub.status
  | _ => False

/-- An update by identifier meets the status and the plan its call has read. -/
def BillingCall.UpToDate (db : Db) : BillingCall → Prop
  | webhook (.transitioning _ _ sub _ _) =>
    ∀ x, db.subscriptions.find? sub.id = some x → x.phase = sub.phase
  | changePlan (.updatingPlan _ sub) =>
    ∀ x, db.subscriptions.find? sub.id = some x → x.phase = sub.phase
  | _ => True

/-- The event statement of a job does not fail; of the statements that do not fail, updates are up to
date and nothing else changes a subscription whose event is still owed. -/
def Recorded (P : BillingPool) : Act Input Nat → Prop
  | .run pid i =>
    (i.fail = true → ∀ id e, ¬ (P.threads pid).Owes id e) ∧
    (i.fail = false → (P.threads pid).UpToDate P.shared.db ∧
      ∀ id, (P.threads pid).Changes P.shared.db id → ∀ pid' e, ¬ (P.threads pid').Owes id e)
  | .env _ => True

/-- In the runs whose steps meet `K` from a database whose subscriptions started as `origin`. -/
structure HistoryFaithful (cfg : Config) (K : BillingPool → Act Input Nat → Prop)
    (origin : Uuid → Phase) (P₀ : BillingPool) : Prop where
  /-- No event is owed: the events lead to the current status and plan. -/
  chain : ∀ P id x, Reach (billing cfg).system K P₀ P →
    P.shared.db.subscriptions.find? id = some x → (∀ pid e, ¬ (P.threads pid).Owes id e) →
    Ledger.Leads SubscriptionEvent.Tells (origin id) (P.shared.db.eventsOf id) x.phase
  /-- Between the two statements of a job, they do with the event it is about to write. -/
  owed : ∀ P id x pid e, Reach (billing cfg).system K P₀ P →
    P.shared.db.subscriptions.find? id = some x → (P.threads pid).Owes id e →
    Ledger.Leads SubscriptionEvent.Tells (origin id) (P.shared.db.eventsOf id ++ [e]) x.phase
  /-- Every change has one event and every event tells a change. -/
  oneEach : ∀ P a P' id x x', Reach (billing cfg).system K P₀ P → K P a →
    (billing cfg).system.step P a = some P' → P.shared.db.subscriptions.find? id = some x →
    P'.shared.db.subscriptions.find? id = some x' →
    ∃ es es', Told P id es ∧ Told P' id es' ∧
      ((es' = es ∧ x'.phase = x.phase) ∨ ∃ e, es' = es ++ [e] ∧ e.Tells x.phase x'.phase)

variable {cfg : Config} {pid pid' : Nat} {fresh : Uuid} {s s' : BillingStore} {id : Uuid}

/-! ## Events and phases under pending writes -/

def eventsIn (ws : List Write) : List SubscriptionEvent := ws.filterMap Write.event?

theorem events_with (db : Db) (ws : List Write) :
    (db.with ws).subscriptionEvents = db.subscriptionEvents ++ eventsIn ws := by
  induction ws generalizing db with
  | nil => simp [Db.with, eventsIn]
  | cons w ws ih =>
    rw [with_cons, ih]
    cases hw : w.event? <;> simp [Write.apply, hw, eventsIn]

theorem eventsOf_with (db : Db) (ws : List Write) (id : Uuid) :
    (db.with ws).eventsOf id =
      db.eventsOf id ++ (eventsIn ws).filter fun e => e.subscriptionId = id := by
  simp only [Db.eventsOf, events_with, List.filter_append]

/-- The writes neither write an event nor change a phase. -/
structure Silent (ws : List Write) : Prop where
  events : eventsIn ws = []
  phase : ∀ y : Subscription, (onSubscription ws y).phase = y.phase

/-- The writes that tell nothing, one at a time. -/
def Write.Silent (w : Write) : Prop :=
  w.event? = none ∧ ∀ y : Subscription, (w.onSubscription y).phase = y.phase

theorem silent_settle (id : Uuid) (st : PaymentStatus) (d : Option Instant) :
    (Write.settle id st d).Silent := ⟨rfl, fun _ => rfl⟩

theorem silent_renew (id : Uuid) (d : Instant) : (Write.renew id d).Silent := by
  refine ⟨rfl, fun y => ?_⟩
  simp only [Write.onSubscription]
  split <;> rfl

theorem eventsIn_append (ws : List Write) (w : Write) :
    eventsIn (ws ++ [w]) = eventsIn ws ++ w.event?.toList := by
  cases w <;> simp [eventsIn, List.filterMap_append, Write.event?]

theorem onSubscription_concat (ws : List Write) (w : Write) (x : Subscription) :
    onSubscription (ws ++ [w]) x = w.onSubscription (onSubscription ws x) := by
  simp [onSubscription]

theorem Silent.nil : Silent [] := ⟨rfl, fun _ => rfl⟩

theorem Silent.push {ws : List Write} {w : Write} (h : Silent ws) (hw : w.Silent) :
    Silent (ws ++ [w]) where
  events := by rw [eventsIn_append, h.events, hw.1]; rfl
  phase y := by rw [onSubscription_concat, hw.2, h.phase]

/-- The writes tell each change they make, from the committed rows, and hold the rows they
change. -/
def Logged (pid : Nat) (ws : List Write) (s : BillingStore) : Prop :=
  ∀ id, ((eventsIn ws).filter (fun e => e.subscriptionId = id) = [] ∧
      ∀ y : Subscription, y.id = id → (onSubscription ws y).phase = y.phase) ∨
    s.lock (.subscription id) = some pid ∧
      ∀ x, s.db.subscriptions.find? id = some x →
        ∃ e, (eventsIn ws).filter (fun e => e.subscriptionId = id) = [e] ∧
          e.Tells x.phase (onSubscription ws x).phase

theorem Silent.logged {ws : List Write} (h : Silent ws) : Logged pid ws s :=
  fun _ => .inl ⟨by rw [h.events]; rfl, fun y _ => h.phase y⟩

theorem Logged.push {ws : List Write} {w : Write} (h : Logged pid ws s) (hw : w.Silent) :
    Logged pid (ws ++ [w]) s := by
  have hevents : eventsIn (ws ++ [w]) = eventsIn ws := by
    rw [eventsIn_append, hw.1]
    exact List.append_nil _
  intro id
  rw [hevents]
  rcases h id with ⟨hnone, hphase⟩ | ⟨hlock, htells⟩
  · exact .inl ⟨hnone, fun y hy => by rw [onSubscription_concat, hw.2, hphase y hy]⟩
  · refine .inr ⟨hlock, fun x hx => ?_⟩
    obtain ⟨e, he, ht⟩ := htells x hx
    exact ⟨e, he, by rw [onSubscription_concat, hw.2]; exact ht⟩

theorem Logged.of_db {ws : List Write} (h : Logged pid ws s) (hd : s'.db = s.db)
    (hl : ∀ k, s.lock k = some pid → s'.lock k = some pid) : Logged pid ws s' := by
  intro id
  rw [hd]
  rcases h id with hsilent | ⟨hlock, htells⟩
  · exact .inl hsilent
  · exact .inr ⟨hl _ hlock, htells⟩

/-- The row is locked, and has the phase that was read. -/
def Held (pid : Nat) (sub : Subscription) (s : BillingStore) : Prop :=
  s.lock (.subscription sub.id) = some pid ∧
    ∀ x, s.db.subscriptions.find? sub.id = some x → x.phase = sub.phase

/-- A webhook's update and event, on the row it has read. -/
theorem Held.logged {ws : List Write} {sub : Subscription} (h : Held pid sub s) (hws : Silent ws)
    (target : SubscriptionStatus) (d : Option Instant) {e : SubscriptionEvent}
    (he : e.subscriptionId = sub.id) (htells : e.Tells sub.phase (target, sub.planId)) :
    Logged pid (ws ++ [.transition sub.id target d] ++ [.event e]) s := by
  have hevents : eventsIn (ws ++ [.transition sub.id target d] ++ [.event e]) = [e] := by
    rw [eventsIn_append, eventsIn_append, hws.events]
    rfl
  have hphase : ∀ y : Subscription,
      (onSubscription (ws ++ [.transition sub.id target d] ++ [.event e]) y).phase =
        if (onSubscription ws y).id == sub.id then (target, y.planId) else y.phase := by
    intro y
    rw [onSubscription_concat, onSubscription_concat]
    have hplan : (onSubscription ws y).planId = y.planId := congrArg Prod.snd (hws.phase y)
    simp only [Write.onSubscription]
    split
    · simp only [Subscription.phase, hplan]
    · exact hws.phase y
  intro id
  rw [hevents]
  by_cases hid : sub.id = id
  · subst hid
    refine .inr ⟨h.1, fun x hx => ⟨e, by simp [he], ?_⟩⟩
    have hrow := h.2 x hx
    have hxid : (onSubscription ws x).id = sub.id :=
      (onSubscription_id ws x).trans (Table.key_of_find? hx)
    rw [hphase, hrow, if_pos (by simpa using hxid)]
    have hplan : x.planId = sub.planId := congrArg Prod.snd hrow
    rw [hplan]
    exact htells
  · refine .inl ⟨by simp [he, hid], fun y hy => ?_⟩
    rw [hphase, onSubscription_id, hy, if_neg (by simpa using Ne.symm hid)]

/-! ## What holds between two statements -/

def HandleState.Logs (pid : Nat) (s : BillingStore) : HandleState → Prop
  | readingPayment t | readingSubscription t _ | readingEnterprise t _ _
  | transitioning t _ _ _ _ | renewing t _ _ _ => Silent t.writes
  | recordingEvent t _ sub _ target _ =>
    (∃ ws d, t.writes = ws ++ [.transition sub.id target d] ∧ Silent ws) ∧ Held pid sub s
  | numbering t _ _ _ | invoicing t _ _ _ _ | committing t _ => Logged pid t.writes s
  | _ => True

def BillingCall.Logs (pid : Nat) (c : BillingCall) (s : BillingStore) : Prop :=
  match c with
  | webhook st => st.Logs pid s
  | changePlan (.recordingEvent _ sub) | changePlan (.committing _ sub) => Held pid sub s
  | _ => True

/-- What a step of `pid` is for the others: a phase changes only while nobody else holds the row. -/
def PhaseStep (pid : Nat) (s s' : BillingStore) : Prop :=
  LocksKept pid s s' ∧ ∀ id x', s'.db.subscriptions.find? id = some x' →
    ∃ x, s.db.subscriptions.find? id = some x ∧
      (x'.phase = x.phase ∨ s.free pid (.subscription id) = true)

/-- Rows rewritten one by one, from what the rewriting does to the phase of each. -/
theorem PhaseStep.of_rows {f : Subscription → Subscription} (hl : LocksKept pid s s')
    (hf : ∀ x, (f x).id = x.id)
    (hrows : s'.db.subscriptions.rows = s.db.subscriptions.rows.map f)
    (h : ∀ id x, s.db.subscriptions.find? id = some x →
      (f x).phase = x.phase ∨ s.free pid (.subscription id) = true) : PhaseStep pid s s' := by
  refine ⟨hl, fun id x' hx' => ?_⟩
  rw [Table.find?_of_rows_map hf hrows] at hx'
  obtain ⟨x, hx, rfl⟩ := Option.map_eq_some_iff.1 hx'
  exact ⟨x, hx, h id x hx⟩

theorem PhaseStep.of_same (hl : LocksKept pid s s')
    (h : s'.db.subscriptions.rows = s.db.subscriptions.rows) : PhaseStep pid s s' :=
  .of_rows hl (fun _ => rfl) (h.trans (List.map_id' _).symm) fun _ _ _ => .inl rfl

/-- A row another transaction holds keeps its phase. -/
theorem PhaseStep.locked (h : PhaseStep pid s s') (hne : pid ≠ pid')
    (hlock : s.lock (.subscription id) = some pid') {x' : Subscription}
    (hx' : s'.db.subscriptions.find? id = some x') :
    ∃ x, s.db.subscriptions.find? id = some x ∧ x'.phase = x.phase := by
  obtain ⟨x, hx, hphase | hfree⟩ := h.2 id x' hx'
  · exact ⟨x, hx, hphase⟩
  · rw [not_free hlock hne] at hfree
    cases hfree

theorem Held.stable {sub : Subscription} (h : Held pid' sub s) (hne : pid ≠ pid')
    (hg : PhaseStep pid s s') : Held pid' sub s' := by
  refine ⟨(hg.1 _ _ (Ne.symm hne)).2 h.1, fun x' hx' => ?_⟩
  obtain ⟨x, hx, hphase⟩ := hg.locked hne h.1 hx'
  rw [hphase]
  exact h.2 x hx

theorem onSubscription_phase (ws : List Write) {x y : Subscription} (hid : x.id = y.id)
    (hphase : x.phase = y.phase) : (onSubscription ws x).phase = (onSubscription ws y).phase := by
  induction ws generalizing x y with
  | nil => exact hphase
  | cons w ws ih =>
    refine ih ((w.onSubscription_id x).trans (hid.trans (w.onSubscription_id y).symm)) ?_
    obtain ⟨hstatus, hplan⟩ := Prod.mk.inj hphase
    cases w <;> simp only [Write.onSubscription, hid]
    case transition => split <;> simp [Subscription.phase, hstatus, hplan]
    case renew => split <;> simp [Subscription.phase, hstatus, hplan]
    case changePlan => split <;> simp [Subscription.phase, hstatus, hplan]
    all_goals exact hphase

theorem Logged.stable {ws : List Write} (h : Logged pid' ws s) (hne : pid ≠ pid')
    (hg : PhaseStep pid s s') : Logged pid' ws s' := by
  intro id
  rcases h id with hsilent | ⟨hlock, htells⟩
  · exact .inl hsilent
  · refine .inr ⟨(hg.1 _ _ (Ne.symm hne)).2 hlock, fun x' hx' => ?_⟩
    obtain ⟨x, hx, hphase⟩ := hg.locked hne hlock hx'
    obtain ⟨e, he, ht⟩ := htells x hx
    have hid : x'.id = x.id := (Table.key_of_find? hx').trans (Table.key_of_find? hx).symm
    exact ⟨e, he, by rw [hphase, onSubscription_phase ws hid hphase]; exact ht⟩

theorem BillingCall.Logs.stable {c : BillingCall} (h : c.Logs pid' s) (hne : pid ≠ pid')
    (hg : PhaseStep pid s s') : c.Logs pid' s' := by
  cases c with
  | webhook st =>
    cases st with
    | recordingEvent t u sub ent target after => exact ⟨h.1, h.2.stable hne hg⟩
    | numbering t u ent after => exact Logged.stable h hne hg
    | invoicing t u ent after n => exact Logged.stable h hne hg
    | committing t after => exact Logged.stable h hne hg
    | _ => exact h
  | changePlan st =>
    cases st with
    | recordingEvent c sub => exact Held.stable h hne hg
    | committing c sub => exact Held.stable h hne hg
    | _ => trivial
  | _ => trivial

/-! ## One step keeps the assertions -/

theorem dispatch_logs (h : Handling) : h.dispatch.Logs pid s := by
  rcases dispatch_cases h with ⟨-, -, hd⟩ | ⟨-, hd⟩ | ⟨_, _, _, hd⟩ | ⟨_, -, hd⟩ <;> rw [hd] <;>
    trivial

theorem afterSubscription_logs {t : Tx} (h : Logged pid t.writes s) (u : Payment) (ent : Enterprise)
    (after : Subscription) : (afterSubscription t u ent after).Logs pid s := by
  unfold afterSubscription
  split
  · exact h
  · exact h

theorem decide_logs {t : Tx} {u : Payment} {sub : Subscription} {ent : Enterprise}
    {next : HandleState} (h : Silent t.writes) (hd : t.decide u sub ent = .ok next) :
    next.Logs pid s := by
  rcases decide_cases hd with rfl | ⟨_, -, -, rfl⟩ | ⟨-, rfl⟩
  · exact afterSubscription_logs h.logged u ent sub
  · exact h
  · exact h

theorem HandleState.logs_step {st st' : HandleState} (hA : st.Logs pid s)
    (hfresh : (BillingCall.webhook st).UpToDate s.db)
    (h : st.step cfg pid fresh s = some (s', st')) : st'.Logs pid s' := by
  cases step_cases h with
  | finds | rereads => exact dispatch_logs _
  | settles => exact Silent.nil.push (silent_settle ..)
  | readsPayment | readsSubscription => exact hA
  | decides decided => exact decide_logs hA decided
  | @transitions t => exact ⟨⟨t.writes, _, rfl, hA⟩, acquire_lock_self, hfresh⟩
  | recordsEvent t u sub ent target after =>
    obtain ⟨⟨ws, d, hws, hsilent⟩, hheld⟩ := hA
    refine afterSubscription_logs ?_ u ent after
    simp only [Tx.push, hws]
    exact hheld.logged hsilent target d rfl
      ⟨rfl, fun p hp => (Option.some.inj hp).symm, rfl⟩
  | renews u ent => exact afterSubscription_logs (Silent.push hA (silent_renew ..)).logged u ent _
  | numbers => exact (Logged.push hA ⟨rfl, fun _ => rfl⟩).of_db rfl fun _ hk => acquire_keeps hk
  | invoices =>
    exact ((Logged.push hA ⟨rfl, fun _ => rfl⟩).push ⟨rfl, fun _ => rfl⟩).of_db rfl
      fun _ hk => acquireAll_keeps hk
  | _ => trivial

theorem ChangePlanState.logs_step {st st' : ChangePlanState}
    (hA : (BillingCall.changePlan st).Logs pid s)
    (hfresh : (BillingCall.changePlan st).UpToDate s.db)
    (h : st.step pid s = some (s', st')) : (BillingCall.changePlan st').Logs pid s' := by
  cases st <;> simp only [step] at h
  case findingSubscription c =>
    split at h
    · cases h
      trivial
    · split at h <;> cases h <;> trivial
  case findingPlan c sub =>
    split at h
    · cases h
      trivial
    · split at h <;> cases h <;> trivial
  case updatingPlan c sub =>
    split at h
    · split at h <;> cases h
      · trivial
      · exact ⟨acquire_lock_self, hfresh⟩
    · cases h
  case recordingEvent c sub =>
    cases h
    exact hA
  case committing c sub =>
    cases h
    trivial
  case auditing c sub =>
    cases h
    trivial
  case finished r => cases h

/-! ## What one step writes -/

structure SameHistory (db db' : Db) : Prop where
  events : db'.subscriptionEvents = db.subscriptionEvents
  rows : db'.subscriptions.rows = db.subscriptions.rows

theorem SameHistory.refl (db : Db) : SameHistory db db := ⟨rfl, rfl⟩

theorem SameHistory.settle (db : Db) (id : Uuid) (st : PaymentStatus) (d : Option Instant) :
    SameHistory db (db.with [.settle id st d]) :=
  ⟨List.append_nil _, (subscriptions_rows_with ..).trans (List.map_id' _)⟩

/-- A statement leaves the history alone, or it is one of four. -/
inductive HistoryStep (s : BillingStore) (pid : Nat) :
    BillingCall → BillingStore → BillingCall → Prop
  | same (c : BillingCall) (s' : BillingStore) (c' : BillingCall) (h : SameHistory s.db s'.db)
      (before : ∀ id e, ¬ c.Owes id e) (after : ∀ id e, ¬ c'.Owes id e) :
      HistoryStep s pid c s' c'
  | swap (j : LifecycleJob) (sub row : Subscription) (rest : List Subscription) (n : Nat)
      (found : s.db.subscriptions.find? sub.id = some row) (status : row.status = sub.status)
      (free : s.free pid (.subscription sub.id) = true) :
      HistoryStep s pid (.lifecycle (.next j (sub :: rest) n))
        (s.autocommit fun db => db.with [.transition sub.id j.toStatus row.renewalDate])
        (.lifecycle (.recordingEvent j sub rest n))
  | event (j : LifecycleJob) (sub : Subscription) (rest : List Subscription) (n : Nat) :
      HistoryStep s pid (.lifecycle (.recordingEvent j sub rest n))
        (s.autocommit fun db => db.with [.event (j.event sub)])
        (.lifecycle (.auditing j sub rest n))
  | settle (t : Tx) (after : Subscription) :
      HistoryStep s pid (.webhook (.committing t after))
        (s.commit pid fun db => db.with t.writes) (.webhook (.auditing t.toHandling after))
  | changePlan (c : ChangePlan) (sub : Subscription) :
      HistoryStep s pid (.changePlan (.committing c sub))
        (s.commit pid fun db => db.with (c.writes sub)) (.changePlan (.auditing c sub))

theorem HandleState.step_sameHistory {st st' : HandleState}
    (h : st.step cfg pid fresh s = some (s', st')) (hne : ∀ t after, st ≠ .committing t after) :
    SameHistory s.db s'.db := by
  cases step_cases h with
  | commits t after => exact absurd rfl (hne t after)
  | expires => exact SameHistory.settle ..
  | _ => exact ⟨rfl, rfl⟩

theorem ExpireState.step_sameHistory {st st' : ExpireState} (h : st.step pid s = some (s', st')) :
    SameHistory s.db s'.db := by
  cases st with
  | next rest n =>
    cases rest <;> simp only [step] at h <;> (repeat' split at h) <;> cases h <;>
      first | exact ⟨rfl, rfl⟩ | exact SameHistory.settle ..
  | _ => cases h <;> exact ⟨rfl, rfl⟩

theorem ChangePlanState.step_sameHistory {st st' : ChangePlanState}
    (h : st.step pid s = some (s', st')) (hne : ∀ c sub, st ≠ .committing c sub) :
    SameHistory s.db s'.db := by
  cases st <;> simp only [step] at h
  case committing c sub => exact absurd rfl (hne c sub)
  all_goals (repeat' split at h) <;> cases h <;> exact ⟨rfl, rfl⟩

theorem LifecycleState.step_history {st st' : LifecycleState}
    (h : st.step pid s = some (s', st')) :
    HistoryStep s pid (.lifecycle st) s' (.lifecycle st') := by
  cases st with
  | listing j =>
    cases h
    exact .same _ _ _ (.refl _) (fun _ _ => id) fun _ _ => id
  | next j rest n =>
    cases rest with
    | nil =>
      cases h
      exact .same _ _ _ (.refl _) (fun _ _ => id) fun _ _ => id
    | cons sub rest =>
      simp only [step] at h
      split at h
      · cases h
        exact .same _ _ _ (.refl _) (fun _ _ => id) fun _ _ => id
      · split at h
        · rename_i row hrow
          split at h
          · rename_i hstatus
            split at h <;> cases h
            rename_i hfree
            exact .swap j sub row rest n hrow hstatus hfree
          · cases h
            exact .same _ _ _ (.refl _) (fun _ _ => id) fun _ _ => id
        · cases h
          exact .same _ _ _ (.refl _) (fun _ _ => id) fun _ _ => id
  | recordingEvent j sub rest n =>
    cases h
    exact .event j sub rest n
  | auditing j sub rest n =>
    cases h
    exact .same _ _ _ ⟨rfl, rfl⟩ (fun _ _ => id) fun _ _ => id
  | finished n => cases h

theorem BillingCall.step_history {c c' : BillingCall} (h : c.step cfg pid fresh s = some (s', c')) :
    HistoryStep s pid c s' c' := by
  cases moves_of_step h with
  | @webhook st st' hst =>
    by_cases hcommit : ∃ t after, st = .committing t after
    · obtain ⟨t, after, rfl⟩ := hcommit
      cases hst
      exact .settle t after
    · exact .same _ _ _ (HandleState.step_sameHistory hst fun t after heq => hcommit ⟨t, after, heq⟩)
        (fun _ _ => False.elim) fun _ _ => False.elim
  | expirePendingPayments hst =>
    exact .same _ _ _ (ExpireState.step_sameHistory hst) (fun _ _ => False.elim)
      fun _ _ => False.elim
  | lifecycle hst => exact LifecycleState.step_history hst
  | @changePlan st st' hst =>
    by_cases hcommit : ∃ c sub, st = .committing c sub
    · obtain ⟨c, sub, rfl⟩ := hcommit
      cases hst
      exact .changePlan c sub
    · exact .same _ _ _ (ChangePlanState.step_sameHistory hst fun c sub heq => hcommit ⟨c, sub, heq⟩)
        (fun _ _ => False.elim) fun _ _ => False.elim

/-- The call that a failing statement leaves behind owes nothing. -/
theorem BillingCall.failed_not_owes (c : BillingCall) (id : Uuid) (e : SubscriptionEvent) :
    ¬ c.failed.Owes id e := by
  rcases c.failed_cases with ⟨_, hc⟩ | ⟨_, _, hc⟩ | ⟨_, _, _, hc⟩ <;> rw [hc] <;> exact False.elim

theorem onSubscription_transition (x : Subscription) (st : SubscriptionStatus)
    (d : Option Instant) :
    (onSubscription [.transition id st d] x).phase = if x.id = id then (st, x.planId) else x.phase := by
  simp only [onSubscription, List.foldl_cons, List.foldl_nil, Write.onSubscription, beq_iff_eq]
  split <;> rfl

theorem onSubscription_changePlan (x : Subscription) (c : ChangePlan) (sub : Subscription) :
    (onSubscription (c.writes sub) x).phase =
      if x.id = sub.id then (x.status, c.newPlanId) else x.phase := by
  simp only [onSubscription, ChangePlan.writes, List.foldl_cons, List.foldl_nil,
    Write.onSubscription, beq_iff_eq]
  split <;> rfl

theorem id_of_find? {db : Db} {x : Subscription} (h : db.subscriptions.find? id = some x) :
    x.id = id := Table.key_of_find? h

theorem phase_with {ws : List Write} {db : Db} {x x' : Subscription}
    (hx : db.subscriptions.find? id = some x) (hx' : (db.with ws).subscriptions.find? id = some x') :
    x'.phase = (onSubscription ws x).phase := by
  rw [find?_subscriptions_with, hx] at hx'
  cases hx'
  rfl

theorem HistoryStep.phaseStep {c c' : BillingCall} (h : HistoryStep s pid c s' c')
    (hl : LocksKept pid s s') (hA : c.Logs pid s) : PhaseStep pid s s' := by
  have writes : ∀ ws : List Write, s'.db = s.db.with ws → (∀ id x,
      s.db.subscriptions.find? id = some x →
      (onSubscription ws x).phase = x.phase ∨ s.free pid (.subscription id) = true) →
      PhaseStep pid s s' := by
    intro ws hdb hfree
    refine .of_rows hl (onSubscription_id ws) ?_ hfree
    rw [hdb, subscriptions_rows_with]
  cases h with
  | same _ _ _ hsame => exact .of_same hl hsame.rows
  | swap j sub row rest n found status free =>
    refine writes _ rfl fun id x hx => ?_
    by_cases hid : id = sub.id
    · subst hid
      exact .inr free
    · left
      rw [onSubscription_transition, id_of_find? hx, if_neg hid]
  | event j sub rest n => exact writes _ rfl fun id x _ => .inl rfl
  | settle t after =>
    refine writes _ rfl fun id x hx => ?_
    rcases hA id with ⟨-, hphase⟩ | ⟨hlock, -⟩
    · exact .inl (hphase x (Table.key_of_find? hx))
    · exact .inr (free_iff.2 (.inr hlock))
  | changePlan c sub =>
    refine writes _ rfl fun id x hx => ?_
    by_cases hid : id = sub.id
    · subst hid
      exact .inr (free_iff.2 (.inr hA.1))
    · left
      rw [onSubscription_changePlan, id_of_find? hx, if_neg hid]

theorem BillingCall.step_logs {c c' : BillingCall} (hA : c.Logs pid s) (hfresh : c.UpToDate s.db)
    (h : c.step cfg pid fresh s = some (s', c')) : c'.Logs pid s' := by
  cases moves_of_step h with
  | webhook hst => exact HandleState.logs_step hA hfresh hst
  | changePlan hst => exact ChangePlanState.logs_step hA hfresh hst
  | expirePendingPayments | lifecycle => trivial

theorem BillingCall.failed_logs (c : BillingCall) : c.failed.Logs pid s := by
  rcases c.failed_cases with ⟨_, hc⟩ | ⟨_, _, hc⟩ | ⟨_, _, _, hc⟩ <;> rw [hc] <;> trivial

/-- The outline of phases and pending events. -/
theorem history (cfg : Config) :
    Outline (billing cfg) Recorded (fun _ => True) (fun pid c s => c.Logs pid s) PhaseStep where
  own P pid i s t hK _ hQ hst := by
    rcases billing_cases hst with ⟨-, rfl, rfl⟩ | ⟨hok, hstep⟩
    · exact ⟨trivial, BillingCall.failed_logs _, .of_same locksKept_release rfl⟩
    · exact ⟨trivial, BillingCall.step_logs hQ (hK.2 hok).1 hstep,
        (BillingCall.step_history hstep).phaseStep (BillingCall.step_effect hstep).locks hQ⟩
  stable _ _ _ _ _ hne _ _ hG hQ := hQ.stable hne hG
  env P d _ _ :=
    ⟨trivial, fun pid _ hc => hc.stable (Nat.succ_ne_self pid) (.of_same (.of_eq rfl) rfl)⟩

/-! ## The events told so far -/

section
variable {P P' : BillingPool} {es : List SubscriptionEvent} {x x' : Subscription}

theorem Told.congr (howes : ∀ pid e, (P'.threads pid).Owes id e ↔ (P.threads pid).Owes id e)
    (hevents : P'.shared.db.eventsOf id = P.shared.db.eventsOf id) (h : Told P id es) :
    Told P' id es := by
  unfold Told
  simp only [howes, hevents]
  exact h

/-- Nobody owes an event of `id`. -/
theorem Told.settled (h : Told P id es) (hnone : ∀ pid e, ¬ (P.threads pid).Owes id e) :
    es = P.shared.db.eventsOf id := by
  rcases h with ⟨-, hes⟩ | ⟨pid, e, howes, -, -⟩
  · exact hes
  · exact absurd howes (hnone pid e)

/-- `pid` owes the event `e` of `id`. -/
theorem Told.owed (h : Told P id es) {e : SubscriptionEvent} (howes : (P.threads pid).Owes id e) :
    es = P.shared.db.eventsOf id ++ [e] ∧ ∀ pid' e', (P.threads pid').Owes id e' → pid' = pid := by
  rcases h with ⟨hnone, -⟩ | ⟨pid₀, e₀, howes₀, hunique, hes⟩
  · exact absurd howes (hnone pid e)
  · obtain rfl := hunique pid e howes
    refine ⟨?_, hunique⟩
    have heq : e = e₀ := by
      revert howes howes₀
      cases P.threads pid with
      | lifecycle st =>
        cases st with
        | recordingEvent j sub rest n => exact fun h h₀ => h.2.trans h₀.2.symm
        | _ => exact fun h => h.elim
      | _ => exact fun h => h.elim
    rw [heq]
    exact hes

/-- What a step is for the history of one subscription. -/
def Extends (P' : BillingPool) (id : Uuid) (es : List SubscriptionEvent) (a b : Phase) : Prop :=
  ∃ es', Told P' id es' ∧ ((es' = es ∧ b = a) ∨ ∃ e, es' = es ++ [e] ∧ e.Tells a b)

theorem Told.same (h : Told P id es)
    (howes : ∀ pid e, (P'.threads pid).Owes id e ↔ (P.threads pid).Owes id e)
    (hevents : P'.shared.db.eventsOf id = P.shared.db.eventsOf id) {a b : Phase} (hphase : b = a) :
    Extends P' id es a b := ⟨es, h.congr howes hevents, .inl ⟨rfl, hphase⟩⟩

/-- The thread that steps and what it owes decide what the others owe. -/
theorem owes_update {c' : BillingCall} {e : SubscriptionEvent} :
    (Function.update P.threads pid c' pid').Owes id e ↔
      if pid' = pid then c'.Owes id e else (P.threads pid').Owes id e := by
  by_cases hp : pid' = pid
  · subst hp
    simp
  · simp [hp]

/-- A thread that owes nothing of `id` before and after its step. -/
theorem owes_unowed {c' : BillingCall} (hbefore : ∀ e, ¬ (P.threads pid).Owes id e)
    (hafter : ∀ e, ¬ c'.Owes id e) (pid' : Nat) (e : SubscriptionEvent) :
    (Function.update P.threads pid c' pid').Owes id e ↔ (P.threads pid').Owes id e := by
  rw [owes_update]
  split
  · rename_i hp
    subst hp
    exact iff_of_false (hafter e) (hbefore e)
  · exact Iff.rfl

/-- The statement leaves the history alone. -/
theorem Told.sameHistory {c' : BillingCall} (hT : Told P id es)
    (hsame : SameHistory P.shared.db s'.db) (hbefore : ∀ e, ¬ (P.threads pid).Owes id e)
    (hafter : ∀ e, ¬ c'.Owes id e) (hx : P.shared.db.subscriptions.find? id = some x)
    (hx' : s'.db.subscriptions.find? id = some x') :
    Extends ⟨s', Function.update P.threads pid c'⟩ id es x.phase x'.phase := by
  refine hT.same (owes_unowed hbefore hafter) ?_ ?_
  · simp only [Db.eventsOf, hsame.events]
  · have hrow : s'.db.subscriptions.find? id = P.shared.db.subscriptions.find? id := by
      unfold Table.find?
      rw [hsame.rows]
    rw [hrow, hx] at hx'
    cases hx'
    rfl

/-- The compare-and-swap of a job: from here on it owes the event. -/
theorem Told.swap {j : LifecycleJob} {sub row : Subscription} {rest : List Subscription} {n : Nat}
    (hT : Told P id es) (hcall : P.threads pid = .lifecycle (.next j (sub :: rest) n))
    (found : P.shared.db.subscriptions.find? sub.id = some row) (status : row.status = sub.status)
    (hK : (P.threads pid).Changes P.shared.db id → ∀ pid' e, ¬ (P.threads pid').Owes id e)
    (hs : s'.db = P.shared.db.with [.transition sub.id j.toStatus row.renewalDate])
    (hx : P.shared.db.subscriptions.find? id = some x)
    (hx' : s'.db.subscriptions.find? id = some x') :
    Extends ⟨s', Function.update P.threads pid (.lifecycle (.recordingEvent j sub rest n))⟩ id es
      x.phase x'.phase := by
  rw [hs] at hx'
  have hphase : x'.phase = _ := (phase_with hx hx').trans (onSubscription_transition x _ _)
  have hevents : ∀ id, s'.db.eventsOf id = P.shared.db.eventsOf id := fun id => by
    rw [hs]
    exact (eventsOf_with ..).trans (List.append_nil _)
  rw [hcall] at hK
  by_cases hid : id = sub.id
  · subst hid
    obtain rfl := Option.some.inj (hx.symm.trans found)
    have hnone := hK ⟨rfl, x, hx, status⟩
    refine ⟨es ++ [j.event sub], .inr ⟨pid, j.event sub, ?_, ?_, ?_⟩, .inr ⟨_, rfl, ?_⟩⟩
    · rw [owes_update, if_pos rfl]
      exact ⟨rfl, rfl⟩
    · intro pid' e' howes
      rw [owes_update] at howes
      by_contra hne
      rw [if_neg hne] at howes
      exact hnone pid' e' howes
    · rw [hT.settled hnone]
      exact congrArg (· ++ _) (hevents sub.id).symm
    · rw [hphase, if_pos (id_of_find? hx)]
      exact ⟨status.symm, (fun p hp => by cases hp), rfl⟩
  · have hbefore : ∀ e, ¬ (P.threads pid).Owes id e := by
      rw [hcall]
      exact fun _ h => h
    have hafter : ∀ e, ¬ (BillingCall.lifecycle (.recordingEvent j sub rest n)).Owes id e :=
      fun _ h => hid h.1.symm
    refine hT.same (owes_unowed hbefore hafter) (hevents id) ?_
    rw [hphase, id_of_find? hx, if_neg hid]

/-- The event statement of a job. -/
theorem Told.event {j : LifecycleJob} {sub : Subscription} {rest : List Subscription} {n : Nat}
    (hT : Told P id es) (hcall : P.threads pid = .lifecycle (.recordingEvent j sub rest n))
    (hs : s'.db = P.shared.db.with [.event (j.event sub)])
    (hx : P.shared.db.subscriptions.find? id = some x)
    (hx' : s'.db.subscriptions.find? id = some x') :
    Extends ⟨s', Function.update P.threads pid (.lifecycle (.auditing j sub rest n))⟩ id es
      x.phase x'.phase := by
  rw [hs] at hx'
  have hphase : x'.phase = x.phase := phase_with hx hx'
  have hevents : s'.db.eventsOf id = _ :=
    (congrArg (Db.eventsOf · id) hs).trans (eventsOf_with P.shared.db [.event (j.event sub)] id)
  by_cases hid : id = sub.id
  · subst hid
    have howes : (P.threads pid).Owes sub.id (j.event sub) := by
      rw [hcall]
      exact ⟨rfl, rfl⟩
    obtain ⟨hes, hunique⟩ := hT.owed howes
    refine ⟨es, .inl ⟨fun pid' e' howes' => ?_, ?_⟩, .inl ⟨rfl, hphase⟩⟩
    · rw [owes_update] at howes'
      split at howes'
      · exact howes'
      · rename_i hne
        exact hne (hunique pid' e' howes')
    · rw [hes]
      refine Eq.trans ?_ hevents.symm
      simp [eventsIn, Write.event?, LifecycleJob.event]
  · have hbefore : ∀ e, ¬ (P.threads pid).Owes id e := by
      rw [hcall]
      exact fun _ h => hid h.1.symm
    have hafter : ∀ e, ¬ (BillingCall.lifecycle (.auditing j sub rest n)).Owes id e := fun _ h => h
    refine hT.same (owes_unowed hbefore hafter) ?_ hphase
    refine hevents.trans ?_
    simp [eventsIn, Write.event?, LifecycleJob.event, Ne.symm hid]

/-- Pending writes that write an event of a subscription. -/
theorem event_of_eventsIn {ws : List Write} {e : SubscriptionEvent}
    (h : e ∈ (eventsIn ws).filter fun e => e.subscriptionId = id) :
    Write.event e ∈ ws ∧ e.subscriptionId = id := by
  obtain ⟨hin, hid⟩ := List.mem_filter.1 h
  obtain ⟨w, hw, hwe⟩ := List.mem_filterMap.1 hin
  cases w with
  | event e' =>
    cases hwe
    exact ⟨hw, by simpa using hid⟩
  | _ => cases hwe

/-- The commit of a webhook. -/
theorem Told.settle {t : Tx} {after : Subscription} (hT : Told P id es)
    (hcall : P.threads pid = .webhook (.committing t after))
    (hA : (P.threads pid).Logs pid P.shared)
    (hK : (P.threads pid).Changes P.shared.db id → ∀ pid' e, ¬ (P.threads pid').Owes id e)
    (hs : s'.db = P.shared.db.with t.writes) (hx : P.shared.db.subscriptions.find? id = some x)
    (hx' : s'.db.subscriptions.find? id = some x') :
    Extends ⟨s', Function.update P.threads pid (.webhook (.auditing t.toHandling after))⟩ id es
      x.phase x'.phase := by
  rw [hs] at hx'
  have hphase : x'.phase = _ := phase_with hx hx'
  have hevents : s'.db.eventsOf id = _ :=
    (congrArg (Db.eventsOf · id) hs).trans (eventsOf_with P.shared.db t.writes id)
  have hbefore : ∀ e, ¬ (P.threads pid).Owes id e := by
    rw [hcall]
    exact fun _ h => h
  have hafter : ∀ e, ¬ (BillingCall.webhook (.auditing t.toHandling after)).Owes id e := fun _ h => h
  have hkept := owes_unowed hbefore hafter
  rw [hcall] at hA hK
  rcases hA id with ⟨hnone, hsilent⟩ | ⟨-, htells⟩
  · refine hT.same hkept ?_ (hphase.trans (hsilent x (id_of_find? hx)))
    exact hevents.trans (by rw [hnone]; exact List.append_nil _)
  · obtain ⟨e, he, ht⟩ := htells x hx
    have hnone := hK ⟨e, event_of_eventsIn (by rw [he]; exact List.mem_singleton_self e)⟩
    refine ⟨es ++ [e], .inl ⟨fun pid' e' howes => ?_, ?_⟩, .inr ⟨e, rfl, ?_⟩⟩
    · exact hnone pid' e' ((hkept pid' e').1 howes)
    · rw [hT.settled hnone]
      refine Eq.trans ?_ hevents.symm
      rw [he]
    · rw [hphase]
      exact ht

/-- The commit of `changePlan`. -/
theorem Told.changePlan {c : ChangePlan} {sub : Subscription} (hT : Told P id es)
    (hcall : P.threads pid = .changePlan (.committing c sub))
    (hA : (P.threads pid).Logs pid P.shared)
    (hK : (P.threads pid).Changes P.shared.db id → ∀ pid' e, ¬ (P.threads pid').Owes id e)
    (hs : s'.db = P.shared.db.with (c.writes sub))
    (hx : P.shared.db.subscriptions.find? id = some x)
    (hx' : s'.db.subscriptions.find? id = some x') :
    Extends ⟨s', Function.update P.threads pid (.changePlan (.auditing c sub))⟩ id es
      x.phase x'.phase := by
  rw [hs] at hx'
  have hphase : x'.phase = _ := (phase_with hx hx').trans (onSubscription_changePlan x c sub)
  have hevents : s'.db.eventsOf id = _ :=
    (congrArg (Db.eventsOf · id) hs).trans (eventsOf_with P.shared.db (c.writes sub) id)
  have hbefore : ∀ e, ¬ (P.threads pid).Owes id e := by
    rw [hcall]
    exact fun _ h => h
  have hafter : ∀ e, ¬ (BillingCall.changePlan (.auditing c sub)).Owes id e := fun _ h => h
  have hkept := owes_unowed hbefore hafter
  rw [hcall] at hA hK
  by_cases hid : id = sub.id
  · subst hid
    have hnone := hK rfl
    have hrow : x.phase = sub.phase := hA.2 x hx
    obtain ⟨hstatus, hplan⟩ := Prod.mk.inj hrow
    refine ⟨es ++ eventsIn (c.writes sub), .inl ⟨fun pid' e' howes => ?_, ?_⟩,
      .inr ⟨_, rfl, ?_⟩⟩
    · exact hnone pid' e' ((hkept pid' e').1 howes)
    · rw [hT.settled hnone]
      refine Eq.trans ?_ hevents.symm
      refine congrArg (P.shared.db.eventsOf sub.id ++ ·) (List.filter_eq_self.2 fun e he => ?_).symm
      rw [List.mem_singleton.1 he]
      exact decide_eq_true rfl
    · rw [hphase, if_pos (id_of_find? hx)]
      refine ⟨hstatus.symm, fun p hp => ?_, ?_⟩
      · rw [← Option.some.inj hp]
        exact hplan.symm
      · simp only [hstatus]
        rfl
  · refine hT.same hkept ?_ ?_
    · refine hevents.trans ?_
      simp [eventsIn, ChangePlan.writes, Write.event?, Ne.symm hid]
    · rw [hphase, id_of_find? hx, if_neg hid]

theorem HistoryStep.extends {c' : BillingCall} (hstep : HistoryStep P.shared pid (P.threads pid) s' c')
    (hA : (P.threads pid).Logs pid P.shared)
    (hK : (P.threads pid).Changes P.shared.db id → ∀ pid' e, ¬ (P.threads pid').Owes id e)
    (hT : Told P id es) (hx : P.shared.db.subscriptions.find? id = some x)
    (hx' : s'.db.subscriptions.find? id = some x') :
    Extends ⟨s', Function.update P.threads pid c'⟩ id es x.phase x'.phase := by
  generalize hcall : P.threads pid = c at hstep
  cases hstep with
  | same _ _ _ hsame hbefore hafter =>
    exact hT.sameHistory hsame (hcall ▸ hbefore id) (hafter id) hx hx'
  | swap j sub row rest n found status free => exact hT.swap hcall found status hK rfl hx hx'
  | event j sub rest n => exact hT.event hcall rfl hx hx'
  | settle t after => exact hT.settle hcall hA hK rfl hx hx'
  | changePlan c sub => exact hT.changePlan hcall hA hK rfl hx hx'

theorem Recorded.extends {a : Act Input Nat} (hK : Recorded P a)
    (hA : ∀ pid, (P.threads pid).Logs pid P.shared) (hst : (billing cfg).system.step P a = some P')
    (hT : Told P id es) (hx : P.shared.db.subscriptions.find? id = some x)
    (hx' : P'.shared.db.subscriptions.find? id = some x') :
    Extends P' id es x.phase x'.phase := by
  cases a with
  | env d =>
    obtain rfl := Machine.env_eq_some.1 hst
    obtain rfl := Option.some.inj (hx.symm.trans hx')
    exact hT.same (fun _ _ => Iff.rfl) rfl rfl
  | run pid i =>
    obtain ⟨hfail, hchanges⟩ := hK
    obtain ⟨s, t, hth, rfl⟩ := Machine.run_eq_some.1 hst
    rcases billing_cases hth with ⟨hi, rfl, rfl⟩ | ⟨hok, hstep⟩
    · obtain rfl := Option.some.inj (hx.symm.trans hx')
      refine ⟨es, Told.congr (P := P) (fun pid' e => ?_) rfl hT, .inl ⟨rfl, rfl⟩⟩
      rw [owes_update]
      split
      · rename_i hp
        subst hp
        exact iff_of_false (BillingCall.failed_not_owes _ id e) (hfail hi id e)
      · exact Iff.rfl
    · exact (BillingCall.step_history hstep).extends (hA pid) ((hchanges hok).2 id) hT hx hx'

/-- Rows are never inserted. -/
theorem find?_before {a : Act Input Nat} (hK : Recorded P a)
    (hA : ∀ pid, (P.threads pid).Logs pid P.shared) (hst : (billing cfg).system.step P a = some P')
    (hx' : P'.shared.db.subscriptions.find? id = some x') :
    ∃ x, P.shared.db.subscriptions.find? id = some x := by
  cases a with
  | env d =>
    obtain rfl := Machine.env_eq_some.1 hst
    exact ⟨x', hx'⟩
  | run pid i =>
    obtain ⟨s, t, hth, rfl⟩ := Machine.run_eq_some.1 hst
    obtain ⟨-, -, hstep⟩ := (history cfg).own P pid i s t hK trivial (hA pid) hth
    obtain ⟨x, hx, -⟩ := hstep.2 id x' hx'
    exact ⟨x, hx⟩

theorem BillingCall.Fresh.logs {c : BillingCall} (h : c.Fresh) : c.Logs pid s := by
  cases c with
  | webhook st =>
    cases st with
    | received d => trivial
    | _ => exact h.elim
  | changePlan st =>
    cases st with
    | findingSubscription c => trivial
    | _ => exact h.elim
  | _ => trivial

theorem BillingCall.Fresh.not_owes {c : BillingCall} (h : c.Fresh) (e : SubscriptionEvent) :
    ¬ c.Owes id e := by
  cases c with
  | lifecycle st =>
    cases st with
    | recordingEvent j sub rest n => exact h.elim
    | _ => exact False.elim
  | _ => exact False.elim

end

/-! ## The result -/

/-- Where runs start: no call has begun, and the events of each subscription lead from `origin` to
where it stands; a new subscription has none and stands at its origin. -/
structure HistoryStarts (origin : Uuid → Phase) (P : BillingPool) : Prop extends Starts P where
  chain : ∀ id x, P.shared.db.subscriptions.find? id = some x →
    Ledger.Leads SubscriptionEvent.Tells (origin id) (P.shared.db.eventsOf id) x.phase

/-- In every run that records each change before the next one, the history is faithful. -/
theorem history_faithful (cfg : Config) (origin : Uuid → Phase) {P₀ : BillingPool}
    (h0 : HistoryStarts origin P₀) : HistoryFaithful cfg Recorded origin P₀ := by
  have hA0 : Annotated (fun _ => True) (fun pid c s => BillingCall.Logs pid c s) P₀ :=
    ⟨trivial, fun pid => (h0.fresh pid).logs⟩
  have logs : ∀ P, Reach (billing cfg).system Recorded P₀ P →
      ∀ pid, (P.threads pid).Logs pid P.shared := fun P hr => ((history cfg).sound hA0 hr).2
  have told : ∀ P, Reach (billing cfg).system Recorded P₀ P → ∀ id x,
      P.shared.db.subscriptions.find? id = some x →
      ∃ es, Told P id es ∧ Ledger.Leads SubscriptionEvent.Tells (origin id) es x.phase := by
    intro P hr
    refine hr.inv (fun P => ∀ id x, P.shared.db.subscriptions.find? id = some x →
      ∃ es, Told P id es ∧ Ledger.Leads SubscriptionEvent.Tells (origin id) es x.phase) ?_ ?_
    · intro id x hx
      exact ⟨_, .inl ⟨fun pid e => (h0.fresh pid).not_owes e, rfl⟩, h0.chain id x hx⟩
    · intro P a P' hP ih hK hst id x' hx'
      obtain ⟨x, hx⟩ := find?_before hK (logs P hP) hst hx'
      obtain ⟨es, hT, hleads⟩ := ih id x hx
      obtain ⟨es', hT', ⟨rfl, hphase⟩ | ⟨e, rfl, htells⟩⟩ :=
        hK.extends (logs P hP) hst hT hx hx'
      · exact ⟨es', hT', by rw [hphase]; exact hleads⟩
      · exact ⟨_, hT', hleads.concat htells⟩
  refine ⟨fun P id x hr hx hnone => ?_, fun P id x pid e hr hx howes => ?_,
    fun P a P' id x x' hr hK hst hx hx' => ?_⟩
  · obtain ⟨es, hT, hleads⟩ := told P hr id x hx
    rw [hT.settled hnone] at hleads
    exact hleads
  · obtain ⟨es, hT, hleads⟩ := told P hr id x hx
    rw [(hT.owed howes).1] at hleads
    exact hleads
  · obtain ⟨es, hT, -⟩ := told P hr id x hx
    obtain ⟨es', hT', hstep⟩ := hK.extends (logs P hr) hst hT hx hx'
    exact ⟨es, es', hT, hT', hstep⟩

def sampleOrigin : Uuid → Phase := fun _ => (.trial, 4)

/-- The trial expiry job on a new subscription. -/
def trialPool : BillingPool := samplePool sampleDb [.lifecycle (.listing .expireTrials)]

theorem trialPool_starts : HistoryStarts sampleOrigin trialPool where
  toStarts := samplePool_starts (by simp [BillingCall.Fresh])
  chain id x hx := by
    have hmem := Table.mem_of_find? hx
    obtain rfl := List.mem_singleton.1 hmem
    rfl

theorem history_faithful_sample : HistoryFaithful sampleConfig Recorded sampleOrigin trialPool :=
  history_faithful sampleConfig sampleOrigin trialPool_starts

/-- The job commits `EXPIRED`; its event statement fails, is logged, and the loop goes on. -/
theorem expired_without_event :
    HistoryStarts sampleOrigin trialPool ∧
      ¬ HistoryFaithful sampleConfig Always sampleOrigin trialPool := by
  refine ⟨trialPool_starts, fun h => ?_⟩
  have hrun : (exec (billing sampleConfig).system (fun _ _ => true) trialPool
      ([.env 100] ++ runs 0 2 0 ++ [.run 0 { fail := true }])).map (fun P =>
        ((P.shared.db.subscriptions.find? 2).map Subscription.phase, P.shared.db.eventsOf 2,
          match P.threads 0 with
          | .lifecycle (.recordingEvent _ _ _ _) => false
          | _ => true)) = some (some (.expired, 4), [], true) := by decide +kernel
  obtain ⟨P, hP, hres⟩ := Option.map_eq_some_iff.1 hrun
  simp only [Prod.mk.injEq, Option.map_eq_some_iff] at hres
  obtain ⟨⟨x, hx, hphase⟩, hevents, hthread⟩ := hres
  have hnone : ∀ pid e, ¬ (P.threads pid).Owes 2 e := by
    intro pid e howes
    by_cases hp : pid = 0
    · subst hp
      revert howes hthread
      cases P.threads 0 with
      | lifecycle st => cases st <;> simp [BillingCall.Owes]
      | _ => simp [BillingCall.Owes]
    · rw [Machine.exec_other hP fun i => by simp [runs, hp]] at howes
      exact (trialPool_starts.fresh pid).not_owes e howes
  have hleads := h.chain P 2 x (Reach.of_exec _ (fun _ _ _ => trivial) _ hP) hx hnone
  rw [hevents, hphase] at hleads
  exact absurd hleads (by simp [Ledger.Leads, sampleOrigin])

end Gescom.Billing
