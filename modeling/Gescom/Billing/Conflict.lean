import Gescom.Billing.Settlement

/-!
# Conflicting events (BIL-07)

An event that meets a payment already resolved the other way must be answered `status_conflict` and
leave an anomaly entry. The branch behind the first read does so
(`payments-webhook.service.ts:124`); the loser branch of the compare-and-swap (`:309`) answers
`ignored_already_processed` without comparing statuses. `conflicts_reported` gives the runs in which
conflicts are all reported: those where no compare-and-swap finds the payment resolved the other
way. `conflict_swallowed` is a run of two deliveries outside it.
-/

namespace Gescom.Billing

open ReadCommitted Transition

variable {pid : Nat} {s s' : BillingStore} {p q : Uuid} {a : AuthenticEvent} {ps : PaymentStatus}

/-- The entry of an event that contradicts the status `ps` of payment `q`. -/
def IsAnomaly (a : AuthenticEvent) (q : Uuid) (ps : PaymentStatus) (l : AuditLog) : Prop :=
  l.action = .payment ∧ l.resourceId = some q ∧
    l.metadata = .anomaly "high" "status_conflict_after_terminal_state" a.delivery.provider
      a.event.providerReference ps a.event.status

/-- The entry of a delivery answered with an error. -/
def IsRejection (cfg : Config) (d : Delivery) (l : AuditLog) : Prop :=
  l.action = .paymentWebhookRejected ∧ ∃ httpStatus reason reference,
    l.metadata = .rejection httpStatus reason d.provider reference (cfg.sha256 d.rawBody)

def Db.paymentFor (db : Db) (a : AuthenticEvent) : Option Uuid :=
  (db.findPayment a.delivery.provider a.event.providerReference).map Payment.id

/-- Nothing is decided yet about the event `a` on payment `q`: the call is at a statement up to its
compare-and-swap. -/
def HandleState.Undecided (db : Db) (a : AuthenticEvent) (q : Uuid) : HandleState → Prop
  | received d => d = a.delivery ∧ db.paymentFor a = some q
  | findingPayment a' => a' = a ∧ db.paymentFor a = some q
  | expiring h | rereading h | settling h _ => h.toAuthenticEvent = a ∧ h.payment.id = q
  | _ => False

/-- No conflicting event is swallowed in the runs whose steps meet `K`. -/
structure ConflictsReported (cfg : Config) (K : BillingPool → Act Input Nat → Prop)
    (P₀ : BillingPool) : Prop where
  /-- 'ignored_already_processed' is only answered to an event the payment's status agrees with. -/
  ignored : ∀ P pid d id, Reach (billing cfg).system K P₀ P →
    P.threads pid = .webhook (.answered d (.ok ⟨.ignoredAlreadyProcessed, id⟩)) →
    ∃ ev, d.event = some ev ∧ P.shared.db.statusOf id = some ev.status.toPayment
  /-- An undecided event whose payment has another final status is answered 'status_conflict' and
  leaves its anomaly entry. -/
  late : ∀ P P' pid st a q ps d r, Reach (billing cfg).system K P₀ P → P.threads pid = .webhook st →
    st.Undecided P.shared.db a q → P.shared.db.statusOf q = some ps → ps ≠ .pending →
    ps ≠ a.event.status.toPayment → Reach (billing cfg).system K P P' →
    P'.threads pid = .webhook (.answered d r) →
    r = .ok ⟨.statusConflict, q⟩ ∧ ∃ l ∈ P'.shared.db.auditLogs, IsAnomaly a q ps l
  /-- Such an event gets its answer: no lock can keep it waiting. -/
  answers : ∀ P pid st a q ps, Reach (billing cfg).system K P₀ P → P.threads pid = .webhook st →
    st.Undecided P.shared.db a q → (∀ h id, st ≠ .settling h id) →
      P.shared.db.statusOf q = some ps →
    ps ≠ .pending → ps ≠ a.event.status.toPayment →
    ∃ P', Reach (billing cfg).system K P P' ∧
      P'.threads pid = .webhook (.answered a.delivery (.ok ⟨.statusConflict, q⟩))
  /-- Any other error answer leaves a rejection entry, the failed lookups inside a transaction
  (`findUniqueOrThrow`, unique indexes) apart. -/
  rejected : ∀ P pid d e, Reach (billing cfg).system K P₀ P →
    P.threads pid = .webhook (.answered d (.error e)) →
    (∃ l ∈ P.shared.db.auditLogs, IsRejection cfg d l) ∨ ∃ code, e = .prisma code

/-- The compare-and-swap of a delivery is not executed on a payment that is already resolved the
other way. -/
def NoConflictAtSwap (P : BillingPool) : Act Input Nat → Prop
  | .run pid i => i.fail = false → ∀ h id, P.threads pid = .webhook (.settling h id) →
      ∀ ps, P.shared.db.statusOf h.payment.id = some ps → ps = .pending ∨
        ps = h.event.status.toPayment
  | .env _ => True

/-! ## Payments are found under the same reference -/

theorem terms_reference {x y : Payment} (h : x.terms = y.terms) :
    x.provider = y.provider ∧ x.providerReference = y.providerReference := by
  have h1 : x.terms.provider = y.terms.provider := by rw [h]
  have h2 : x.terms.providerReference = y.terms.providerReference := by rw [h]
  exact ⟨h1, h2⟩

theorem PaymentStep.paymentFor (h : PaymentStep pid s s') (a : AuthenticEvent) :
    s'.db.paymentFor a = s.db.paymentFor a := by
  obtain ⟨f, hrows, hterms, -⟩ := h.rows
  rw [Db.paymentFor, Db.findPayment, hrows, List.find?_map, Option.map_map, Db.paymentFor,
    Db.findPayment]
  have hid : Payment.id ∘ f = Payment.id := funext fun x => terms_id (hterms x)
  rw [hid]
  refine congrArg (fun g => (s.db.payments.rows.find? g).map Payment.id) (funext fun x => ?_)
  obtain ⟨h1, h2⟩ := terms_reference (hterms x)
  simp only [Function.comp, h1, h2]

theorem status_of_find? {x : Payment} (hx : s.db.payments.find? q = some x)
    (hs : s.db.statusOf q = some ps) : x.status = ps := by
  simpa [Db.statusOf, hx] using hs

/-! ## A late event -/

/-- A late event on its way to the answer 'status_conflict'. -/
def HandleState.Late (db : Db) (a : AuthenticEvent) (q : Uuid) (ps : PaymentStatus) :
    HandleState → Prop
  | flagging h | reporting h => h.toAuthenticEvent = a ∧ h.payment.id = q ∧ h.payment.status = ps
  | answered d r => d = a.delivery ∧ r = .ok ⟨.statusConflict, q⟩ ∧
    ∃ l ∈ db.auditLogs, IsAnomaly a q ps l
  | st => st.Undecided db a q

/-- How many statements are left before the answer; more than that at the compare-and-swap, which is
not on the way. -/
def HandleState.left : HandleState → Nat
  | settling _ _ => 5
  | received _ | expiring _ => 4
  | findingPayment _ | rereading _ => 3
  | flagging _ => 2
  | reporting _ => 1
  | _ => 0

theorem HandleState.Undecided.late {st : HandleState} {db : Db} (h : st.Undecided db a q) :
    st.Late db a q ps := by
  cases st <;> first | exact h | exact h.elim

theorem HandleState.Late.stable {st : HandleState} (h : st.Late s.db a q ps)
    (hg : PaymentStep pid s s') : st.Late s'.db a q ps := by
  cases st <;> simp only [Late, Undecided] at h ⊢ <;> try exact h
  case received d => exact ⟨h.1, (hg.paymentFor a).trans h.2⟩
  case findingPayment a' => exact ⟨h.1, (hg.paymentFor a).trans h.2⟩
  case answered d r =>
    obtain ⟨hd, hr, l, hl, han⟩ := h
    exact ⟨hd, hr, l, hg.logs.subset hl, han⟩

theorem dispatch_of_conflict {h : Handling} (hps : h.payment.status ≠ .pending)
    (hne : h.payment.status ≠ h.event.status.toPayment) : h.dispatch = .flagging h := by
  unfold Handling.dispatch
  rw [if_pos hps, if_neg (Ne.symm hne)]

/-- One statement of a late event: it stays on its way, one statement closer to the answer. -/
theorem HandleState.Late.step {cfg : Config} {fresh : Uuid} {st st' : HandleState}
    (h : st.Late s.db a q ps) (hs : s.db.statusOf q = some ps) (hps : ps ≠ .pending)
    (hne : ps ≠ a.event.status.toPayment) (hsettle : ∀ h id, st ≠ settling h id)
    (hst : st.step cfg pid fresh s = some (s', st')) :
    st'.Late s'.db a q ps ∧ st'.left + 1 = st.left := by
  cases st <;> simp only [Late, Undecided] at h <;> simp only [HandleState.step] at hst
  case received d =>
    obtain ⟨rfl, hfor⟩ := h
    rw [dif_pos a.verified] at hst
    split at hst
    · rename_i hnone
      rw [a.parsed] at hnone
      cases hnone
    · rename_i ev hev
      cases hst
      obtain rfl : a.event = ev := Option.some.inj (a.parsed.symm.trans hev)
      exact ⟨⟨rfl, hfor⟩, rfl⟩
  case findingPayment a' =>
    obtain ⟨rfl, hfor⟩ := h
    obtain ⟨x, hx, rfl⟩ := Option.map_eq_some_iff.1 hfor
    have hxs := status_of_find? (Table.find?_of_findBy hx) hs
    simp only [hx] at hst
    rw [if_neg (by rw [hxs]; exact fun hand => hps hand.1)] at hst
    cases hst
    rw [dispatch_of_conflict (by simpa [hxs] using hps) (by simpa [hxs] using hne)]
    exact ⟨⟨rfl, rfl, hxs⟩, rfl⟩
  case expiring hd =>
    obtain ⟨rfl, rfl⟩ := h
    split at hst
    · rename_i row hrow
      rw [if_neg (by rw [status_of_find? hrow hs]; exact hps)] at hst
      cases hst
      exact ⟨⟨rfl, rfl⟩, rfl⟩
    · rename_i hnone
      simp [Db.statusOf, hnone] at hs
  case rereading hd =>
    obtain ⟨rfl, rfl⟩ := h
    split at hst
    · rename_i hnone
      simp [Db.statusOf, hnone] at hs
    · rename_i x hx
      have hxs := status_of_find? hx hs
      cases hst
      rw [dispatch_of_conflict (by simpa [hxs] using hps) (by simpa [hxs] using hne)]
      exact ⟨⟨rfl, Table.key_of_find? hx, hxs⟩, rfl⟩
  case settling hd id => exact absurd rfl (hsettle hd id)
  case flagging hd =>
    split at hst <;> cases hst
    exact ⟨h, rfl⟩
  case reporting hd =>
    obtain ⟨rfl, rfl, rfl⟩ := h
    cases hst
    exact ⟨⟨rfl, rfl, conflictLog hd, List.mem_append_right _ (List.mem_singleton.2 rfl), rfl,
      rfl, rfl⟩, rfl⟩
  case answered d r => cases hst

/-- A late event before its answer is never blocked: the locks of a resolved payment are free. -/
theorem HandleState.Late.enabled {cfg : Config} {fresh : Uuid} {st : HandleState}
    (h : st.Late s.db a q ps) (hleft : st.left ≠ 0) (hsettle : ∀ h id, st ≠ settling h id)
    (hfree : s.lock (.payment q) = none) (hps : ps ≠ .pending)
    (hs : s.db.statusOf q = some ps) : ∃ r, st.step cfg pid fresh s = some r := by
  cases st <;> simp only [Late, Undecided] at h <;> simp only [HandleState.step] <;>
    try exact absurd rfl hleft
  case received d =>
    split
    · split <;> exact ⟨_, rfl⟩
    · exact ⟨_, rfl⟩
  case findingPayment a' =>
    split
    · exact ⟨_, rfl⟩
    · split <;> exact ⟨_, rfl⟩
  case expiring hd =>
    obtain ⟨-, rfl⟩ := h
    split
    · rename_i row hrow
      rw [if_neg (by rw [status_of_find? hrow hs]; exact hps)]
      exact ⟨_, rfl⟩
    · exact ⟨_, rfl⟩
  case rereading hd => split <;> exact ⟨_, rfl⟩
  case flagging hd =>
    obtain ⟨-, rfl, -⟩ := h
    rw [if_pos (free_iff.2 (.inl hfree))]
    exact ⟨_, rfl⟩
  case reporting hd => exact ⟨_, rfl⟩
  case settling hd id => exact absurd rfl (hsettle hd id)

/-- A payment lock is only held while its payment is `PENDING`. -/
theorem unlocked_of_resolved {P : BillingPool}
    (hA : ∀ pid, BillingCall.Asserts pid (P.threads pid) P.shared)
    (hs : P.shared.db.statusOf q = some ps)
    (hps : ps ≠ .pending) : P.shared.lock (.payment q) = none := by
  cases hl : P.shared.lock (.payment q) with
  | none => rfl
  | some pid =>
    exfalso
    have settling : ∀ t : Tx, ¬ t.Settling pid P.shared := fun t ht => by
      have hpending := ht.pending
      rw [← ht.only q hl, hs] at hpending
      exact hps (Option.some.inj hpending)
    have hh := (hA pid).here
    cases hc : P.threads pid with
    | webhook st =>
      rw [hc] at hh
      cases st <;> first | exact hh q hl | exact hh.1 q hl | exact settling _ hh.1.toSettling |
        exact settling _ hh.toSettling | exact settling _ hh.1
    | _ => rw [hc] at hh; exact hh q hl

/-! ## Answers -/

/-- What an answered delivery has left behind. -/
def HandleState.Answered (cfg : Config) (db : Db) : HandleState → Prop
  | answered d (.ok ⟨.ignoredAlreadyProcessed, id⟩) =>
    ∃ ev, d.event = some ev ∧ db.statusOf id = some ev.status.toPayment
  | answered d (.error e) => (∃ l ∈ db.auditLogs, IsRejection cfg d l) ∨ ∃ code, e = .prisma code
  | _ => True

theorem HandleState.Answered.stable {cfg : Config} {st : HandleState} (h : st.Answered cfg s.db)
    (hg : PaymentStep pid s s') : st.Answered cfg s'.db := by
  unfold Answered at *
  split
  · obtain ⟨ev, hev, hs⟩ := h
    exact ⟨ev, hev, hg.statusOf hs (toPayment_ne_pending _)⟩
  · rcases h with ⟨l, hl, hrej⟩ | hcode
    · exact .inl ⟨l, hg.logs.subset hl, hrej⟩
    · exact .inr hcode
  · trivial

/-- The pre-read branch compares the statuses. -/
theorem answered_dispatch (cfg : Config) {h : Handling} {db : Db}
    (hs : db.statusOf h.payment.id = some h.payment.status) : h.dispatch.Answered cfg db := by
  rcases dispatch_cases h with ⟨-, heq, hd⟩ | ⟨-, hd⟩ | ⟨_, _, _, hd⟩ | ⟨_, -, hd⟩ <;> rw [hd]
  · exact ⟨h.event, h.parsed, by rw [heq]; exact hs⟩
  · trivial
  · trivial
  · trivial

theorem answered_afterSubscription (cfg : Config) (db : Db) (t : Tx) (u : Payment)
    (ent : Enterprise)
    (after : Subscription) : (afterSubscription t u ent after).Answered cfg db := by
  unfold afterSubscription
  split <;> trivial

theorem answered_decide (cfg : Config) (db : Db) {t : Tx} {u : Payment} {sub : Subscription}
    {ent : Enterprise} {next : HandleState} (hd : t.decide u sub ent = .ok next) :
    next.Answered cfg db := by
  rcases decide_cases hd with rfl | ⟨_, -, -, rfl⟩ | ⟨-, rfl⟩
  · exact answered_afterSubscription cfg db _ _ _ _
  · trivial
  · trivial

theorem answered_notFound (cfg : Config) (db : Db) (d : Delivery) :
    (HandleState.notFound d).Answered cfg db := .inr ⟨_, rfl⟩

theorem HandleState.answered_step {cfg : Config} {fresh : Uuid} {st st' : HandleState}
    (hA : st.Asserts pid s)
    (hK : ∀ h id, st = settling h id → ∀ ps, s.db.statusOf h.payment.id = some ps →
      ps = .pending ∨ ps = h.event.status.toPayment)
    (h : st.step cfg pid fresh s = some (s', st')) : st'.Answered cfg s'.db := by
  cases step_cases h with
  | rejects => exact .inl ⟨_, List.mem_append_right _ (List.mem_singleton.2 rfl), rfl, _, _, _, rfl⟩
  | @finds a x found =>
    have hrow : s.db.payments.find? x.id = some x := Table.find?_of_findBy found
    exact answered_dispatch cfg (by simp [Db.statusOf, hrow])
  | gone => exact answered_notFound cfg _ _
  | @rereads hd x found =>
    refine answered_dispatch cfg ?_
    have hid : x.id = hd.payment.id := Table.key_of_find? found
    simp [Db.statusOf, hid, found]
  | @ignores hd sid other =>
    -- the loser branch: only `hK` relates the status to the event
    obtain ⟨row, hrow⟩ := hA.2
    have hs : s.db.statusOf hd.payment.id = some row.status := by simp [Db.statusOf, hrow]
    refine ⟨hd.event, hd.parsed, ?_⟩
    rw [← (hK hd sid rfl _ hs).resolve_left (other row hrow)]
    exact hs
  | decides decided => exact answered_decide cfg _ decided
  | recordsEvent | renews => exact answered_afterSubscription cfg _ _ _ _ _
  | aborts => exact .inr ⟨_, rfl⟩
  | _ => trivial

/-! ## Runs -/

variable {cfg : Config} {P₀ P P' : BillingPool}

theorem NoConflictAtSwap.at_swap {i : Input} (hK : NoConflictAtSwap P (.run pid i))
    (hf : i.fail = false) {st : HandleState} (hc : P.threads pid = .webhook st) :
    ∀ h id, st = .settling h id → ∀ ps, P.shared.db.statusOf h.payment.id = some ps →
      ps = .pending ∨ ps = h.event.status.toPayment := by
  rintro h id rfl
  exact hK hf h id hc

/-- A step of the call itself, when it is still a delivery afterwards. -/
theorem webhook_step {i : Input} {c : BillingCall} {st' : HandleState}
    (h : (billing cfg).thread pid i s c = some (s', .webhook st')) :
    i.fail = false ∧ ∃ st, c = .webhook st ∧ st.step cfg pid i.fresh s = some (s', st') := by
  rcases billing_cases h with ⟨-, -, hc⟩ | ⟨hfail, hstep⟩
  · rcases c.failed_cases with ⟨_, hfailed⟩ | ⟨_, _, hfailed⟩ | ⟨_, _, _, hfailed⟩ <;>
      cases hc.trans hfailed
  · refine ⟨hfail, ?_⟩
    cases BillingCall.moves_of_step hstep with
    | webhook hst => exact ⟨_, rfl, hst⟩

theorem answered_of_reach (h0 : Starts P₀) (h : Reach (billing cfg).system NoConflictAtSwap P₀ P) :
    ∀ pid st, P.threads pid = .webhook st → st.Answered cfg P.shared.db := by
  refine h.inv (fun P => ∀ pid st, P.threads pid = .webhook st → st.Answered cfg P.shared.db) ?_ ?_
  · intro pid st hst
    have := h0.fresh pid
    rw [hst] at this
    cases st <;> trivial
  · intro P a P' hr ih hK hstep pid st hst
    obtain ⟨_, hg⟩ := h0.paymentStep hr hstep
    rcases Machine.step_thread hstep pid with hsame | ⟨i, s, c, rfl, hth, rfl, hc'⟩
    · exact (ih pid st (hsame.symm.trans hst)).stable hg
    · obtain rfl := hc'.symm.trans hst
      obtain ⟨hf, st₀, hc, hstep₀⟩ := webhook_step hth
      have hA := (h0.asserts hr pid).here
      rw [hc] at hA
      exact HandleState.answered_step hA (hK.at_swap hf hc) hstep₀

/-- A late event stays late until it is answered. -/
theorem late_of_reach (h0 : Starts P₀) (hr : Reach (billing cfg).system NoConflictAtSwap P₀ P)
    {st : HandleState} (hst : P.threads pid = .webhook st) (hlate : st.Late P.shared.db a q ps)
    (hs : P.shared.db.statusOf q = some ps) (hps : ps ≠ .pending)
    (hne : ps ≠ a.event.status.toPayment) (h : Reach (billing cfg).system NoConflictAtSwap P P') :
    ∀ st', P'.threads pid = .webhook st' → st'.Late P'.shared.db a q ps := by
  refine h.inv (fun P' => ∀ st', P'.threads pid = .webhook st' → st'.Late P'.shared.db a q ps) ?_ ?_
  · intro st' hst'
    rw [hst] at hst'
    cases hst'
    exact hlate
  · intro P₁ act P₂ hr₁ ih hK hstep st' hst'
    have hr₀ := hr.trans hr₁
    have hs₁ := status_final h0 hr hr₁ hs hps
    obtain ⟨_, hg⟩ := h0.paymentStep hr₀ hstep
    rcases Machine.step_thread hstep pid with hsame | ⟨i, s, c, rfl, hth, rfl, hc'⟩
    · exact (ih st' (hsame.symm.trans hst')).stable hg
    · obtain rfl := hc'.symm.trans hst'
      obtain ⟨hf, st₀, hc, hstep₀⟩ := webhook_step hth
      have hlate₀ := ih st₀ hc
      refine (hlate₀.step hs₁ hps hne ?_ hstep₀).1
      -- the condition keeps a late event from executing its compare-and-swap
      rintro hd id rfl
      obtain ⟨ha, hq⟩ := hlate₀
      rcases hK.at_swap hf hc hd id rfl ps (by rw [hq]; exact hs₁) with hpe | heq
      · exact hps hpe
      · exact hne (by rw [← ha]; exact heq)

/-- A late event that is not at its compare-and-swap comes to its answer by its own statements. -/
theorem late_answers (h0 : Starts P₀) (n : Nat) :
    ∀ P st, Reach (billing cfg).system NoConflictAtSwap P₀ P → P.threads pid = .webhook st →
      st.Late P.shared.db a q ps → (∀ h id, st ≠ .settling h id) →
        P.shared.db.statusOf q = some ps →
      ps ≠ .pending → ps ≠ a.event.status.toPayment → st.left = n →
      ∃ P', Reach (billing cfg).system NoConflictAtSwap P P' ∧
        P'.threads pid = .webhook (.answered a.delivery (.ok ⟨.statusConflict, q⟩)) := by
  induction n with
  | zero =>
    intro P st hr hst hlate hsettle hs hps hne hn
    cases st <;> simp only [HandleState.Late, HandleState.Undecided] at hlate <;>
      simp only [HandleState.left] at hn <;> try omega
    case answered d r =>
      obtain ⟨rfl, rfl, -⟩ := hlate
      exact ⟨P, .init, hst⟩
  | succ n ih =>
    intro P st hr hst hlate hsettle hs hps hne hn
    have hfree := unlocked_of_resolved (h0.asserts hr) hs hps
    obtain ⟨⟨s', st'⟩, hstep⟩ : ∃ r, st.step cfg pid 0 P.shared = some r :=
      hlate.enabled (by omega) hsettle hfree hps hs
    obtain ⟨hlate', hleft⟩ := hlate.step hs hps hne hsettle hstep
    have hsys : (billing cfg).system.step P (.run pid {}) =
        some { shared := s', threads := Function.update P.threads pid (.webhook st') } := by
      rw [Machine.run_eq_some]
      refine ⟨s', _, ?_, rfl⟩
      simp [billing, hst, BillingCall.step, hstep]
    have hK : NoConflictAtSwap P (.run pid {}) := by
      intro _ hd id hc
      rw [hst] at hc
      cases hc
      exact absurd rfl (hsettle hd id)
    have hr' : Reach (billing cfg).system NoConflictAtSwap P _ := .step .init hK hsys
    have hsettle' : ∀ h id, st' ≠ .settling h id := by
      rintro hd id rfl
      have hn' : (HandleState.settling hd id).left = n := by omega
      have hle : st.left ≤ 5 := by cases st <;> simp [HandleState.left]
      simp only [HandleState.left] at hn'
      omega
    obtain ⟨P', hr'', hans⟩ := ih _ st' (hr.trans hr') (by simp) hlate' hsettle'
      (status_final h0 hr hr' hs hps) hps hne (by omega)
    exact ⟨P', hr'.trans hr'', hans⟩

/-- The compare-and-swap of a conflicting event answers `ignored_already_processed`. -/
theorem swap_on_conflict {h : Handling} {id : Uuid} (hs : s.db.statusOf h.payment.id = some ps)
    (hps : ps ≠ .pending) (cfg : Config) (fresh : Uuid) :
    (HandleState.settling h id).step cfg pid fresh s =
      some (s, .answered h.delivery (.ok ⟨.ignoredAlreadyProcessed, h.payment.id⟩)) := by
  obtain ⟨row, hrow, rfl⟩ := Option.map_eq_some_iff.1 hs
  simp only [HandleState.step, hrow]
  rw [if_neg hps]

/-- Conflicts are reported in every run in which no compare-and-swap finds its payment resolved the
other way; and each compare-and-swap that does is answered `ignored_already_processed`. -/
theorem conflicts_reported (cfg : Config) {P₀ : BillingPool} (h0 : Starts P₀) :
    ConflictsReported cfg NoConflictAtSwap P₀ ∧
    ∀ P pid i, Reach (billing cfg).system Always P₀ P → ¬ NoConflictAtSwap P (.run pid i) →
      ∃ P' d ev id ps, (billing cfg).system.step P (.run pid i) = some P' ∧ d.event = some ev ∧
        P'.threads pid = .webhook (.answered d (.ok ⟨.ignoredAlreadyProcessed, id⟩)) ∧
        P'.shared.db.statusOf id = some ps ∧ ps ≠ ev.status.toPayment := by
  refine ⟨⟨?_, ?_, ?_, ?_⟩, ?_⟩
  · intro P pid d id hr hst
    exact answered_of_reach h0 hr pid _ hst
  · intro P P' pid st a q ps d r hr hst hund hs hps hne h hst'
    obtain ⟨-, hres, l, hl, han⟩ := late_of_reach h0 hr hst hund.late hs hps hne h _ hst'
    exact ⟨hres, l, hl, han⟩
  · intro P pid st a q ps hr hst hund hsettle hs hps hne
    exact late_answers h0 st.left P st hr hst hund.late hsettle hs hps hne rfl
  · intro P pid d e hr hst
    exact answered_of_reach h0 hr pid _ hst
  · intro P pid i _ hK
    simp only [NoConflictAtSwap, not_forall, not_or] at hK
    obtain ⟨hf, h, id, hc, ps, hs, hps, hne⟩ := hK
    refine ⟨_, h.delivery, h.event, h.payment.id, ps, Machine.run_eq_some.2 ⟨P.shared, _, ?_, rfl⟩,
      h.parsed, Function.update_self .., hs, hne⟩
    simp only [billing, hf, Bool.false_eq_true, if_false, hc, BillingCall.step,
      swap_on_conflict hs hps]
    rfl

/-! ## Two deliveries of one payment -/

def BillingCall.answer? : BillingCall → Option (Delivery × WebhookResult)
  | webhook (.answered d (.ok r)) => some (d, r)
  | _ => none

theorem BillingCall.answer?_eq_some {c : BillingCall} {d : Delivery} {r : WebhookResult}
    (h : c.answer? = some (d, r)) : c = webhook (.answered d (.ok r)) := by
  unfold answer? at h
  split at h <;> cases h
  rfl

/-- A failed and a succeeded event of one payment. -/
def conflictPool : BillingPool := samplePool sampleDb
  [.webhook (.received (sampleDelivery .succeeded)), .webhook (.received (sampleDelivery .failed))]

theorem conflictPool_starts : Starts conflictPool := samplePool_starts (by simp [BillingCall.Fresh])

/-- Both deliveries read `PENDING`; the failed one settles the payment; the succeeded one, money
received, is answered `ignored_already_processed`. -/
theorem conflict_swallowed :
    Starts conflictPool ∧ ¬ ConflictsReported sampleConfig Always conflictPool := by
  refine ⟨conflictPool_starts, fun hrep => ?_⟩
  have hrun : (exec (billing sampleConfig).system (fun _ _ => true) conflictPool
      (runs 0 2 0 ++ runs 1 7 0 ++ runs 0 1 0)).map
        (fun P => (P.shared.db.statusOf 1, (P.threads 0).answer?)) =
      some (some .failed, some (sampleDelivery .succeeded, ⟨.ignoredAlreadyProcessed, 1⟩)) := by
    decide +kernel
  obtain ⟨P, hP, hres⟩ := Option.map_eq_some_iff.1 hrun
  simp only [Prod.mk.injEq] at hres
  obtain ⟨ev, hev, hs⟩ := hrep.ignored P 0 _ _ (Reach.of_exec _ (fun _ _ _ => trivial) _ hP)
    (BillingCall.answer?_eq_some hres.2)
  obtain rfl : PaymentWebhookEvent.mk "ref" .succeeded 1000 "XOF" = ev := Option.some.inj hev
  rw [hres.1] at hs
  cases hs

theorem conflicts_reported_sample : ConflictsReported sampleConfig NoConflictAtSwap conflictPool :=
  (conflicts_reported sampleConfig conflictPool_starts).1

end Gescom.Billing
