import Gescom.Billing.Effects

/-!
# Payments under concurrent calls

The compare-and-swap of `handle` (`payments-webhook.service.ts:218`) takes the row lock of a
`PENDING` payment, so until its transaction ends nobody else resolves that payment. `PaymentStep` is
the guarantee every call gives on payment rows; `Asserts` annotates the statements of the
transaction with what its lock lets it rely on.
-/

namespace Gescom.Billing

open ReadCommitted Transition

/-! ## The guarantee on payment rows -/

/-- What is fixed when a payment is created: the row without its mutable columns. -/
def Payment.terms (p : Payment) : Payment :=
  { p with invoiceId := none, status := .pending, paidAt := none, metadata := none }

def Db.statusOf (db : Db) (id : Uuid) : Option PaymentStatus :=
  (db.payments.find? id).map Payment.status

/-- What a step of `pid` may do to payments: rewrite rows in place, and change the status of a row
only from `PENDING` while no other transaction holds its lock. -/
structure PaymentStep (pid : Nat) (s s' : BillingStore) : Prop where
  locks : LocksKept pid s s'
  rows : ∃ f : Payment → Payment, s'.db.payments.rows = s.db.payments.rows.map f ∧
    (∀ r, (f r).terms = r.terms) ∧
    ∀ r ∈ s.db.payments.rows, (f r).status = r.status ∨
      r.status = .pending ∧ s.free pid (.payment r.id) = true
  logs : s.db.auditLogs <+: s'.db.auditLogs

theorem terms_id {p q : Payment} (h : p.terms = q.terms) : p.id = q.id := by
  change p.terms.id = q.terms.id
  rw [h]

theorem terms_amount {p q : Payment} (h : p.terms = q.terms) : p.amount = q.amount := by
  change p.terms.amount = q.terms.amount
  rw [h]

theorem Write.onPayment_terms (w : Write) (p : Payment) : (w.onPayment p).terms = p.terms := by
  cases w <;> simp only [onPayment] <;> split <;> rfl

theorem onPayment_terms (ws : List Write) (p : Payment) : (onPayment ws p).terms = p.terms := by
  induction ws generalizing p with
  | nil => rfl
  | cons w ws ih => exact (ih _).trans (w.onPayment_terms p)

variable {pid pid' : Nat} {s s' : BillingStore} {id p : Uuid}

theorem Quiet.paymentStep (h : Quiet pid s s') : PaymentStep pid s s' where
  locks := h.locks
  rows := ⟨fun r => r,
    by rw [h.payments]; exact (List.map_id' _).symm, fun _ => rfl, fun _ _ => .inl rfl⟩
  logs := h.logs

/-- Each stored row is found again after a step, with its terms. -/
theorem PaymentStep.find? (h : PaymentStep pid s s') {r : Payment}
    (hr : s.db.payments.find? id = some r) :
    ∃ r', s'.db.payments.find? id = some r' ∧ r'.terms = r.terms ∧
      (r'.status = r.status ∨ r.status = .pending ∧ s.free pid (.payment id) = true) := by
  obtain ⟨f, hrows, hterms, hstatus⟩ := h.rows
  have hid : ∀ x : Payment, (f x).id = x.id := fun x => terms_id (hterms x)
  refine ⟨f r, ?_, hterms r, ?_⟩
  · rw [Table.find?_of_rows_map hid hrows, hr]; rfl
  · have := hstatus r (Table.mem_of_find? hr)
    rwa [show r.id = id from Table.key_of_find? hr] at this

theorem PaymentStep.find?_back (h : PaymentStep pid s s') {r' : Payment}
    (hr' : s'.db.payments.find? id = some r') :
    ∃ r, s.db.payments.find? id = some r ∧ r'.terms = r.terms := by
  obtain ⟨f, hrows, hterms, -⟩ := h.rows
  rw [Table.find?_of_rows_map (fun x => terms_id (hterms x)) hrows] at hr'
  obtain ⟨r, hr, rfl⟩ := Option.map_eq_some_iff.1 hr'
  exact ⟨r, hr, hterms r⟩

theorem PaymentStep.statusOf (h : PaymentStep pid s s') {st : PaymentStatus}
    (hs : s.db.statusOf id = some st) (hst : st ≠ .pending) : s'.db.statusOf id = some st := by
  obtain ⟨r, hr, rfl⟩ := Option.map_eq_some_iff.1 hs
  obtain ⟨r', hr', -, hsame | ⟨hpending, -⟩⟩ := h.find? hr
  · simp [Db.statusOf, hr', hsame]
  · exact absurd hpending hst

/-- A payment whose lock another transaction holds keeps its status. -/
theorem PaymentStep.locked (h : PaymentStep pid s s') (hne : pid ≠ pid')
    (hl : s.lock (.payment id) = some pid') {r : Payment} (hr : s.db.payments.find? id = some r) :
    ∃ r', s'.db.payments.find? id = some r' ∧ r'.terms = r.terms ∧ r'.status = r.status := by
  obtain ⟨r', hr', ht, hsame | ⟨-, hfree⟩⟩ := h.find? hr
  · exact ⟨r', hr', ht, hsame⟩
  · rw [not_free hl hne] at hfree
    simp at hfree

/-! ## The assertions of the transaction -/

/-- What pending writes do to payments: they settle payment `id` with the event's status and touch
no other payment. -/
structure Settles (id : Uuid) (ev : EventStatus) (ws : List Write) : Prop where
  own : ∀ r : Payment, r.id = id → (onPayment ws r).status = ev.toPayment
  other : ∀ r : Payment, r.id ≠ id → onPayment ws r = r

theorem settles_first (id : Uuid) (ev : EventStatus) (paidAt : Option Instant) :
    Settles id ev [.settle id ev.toPayment paidAt] := by
  constructor <;> intro r hr <;> simp [onPayment, Write.onPayment, hr]

theorem onPayment_append (ws : List Write) (w : Write) (r : Payment) :
    onPayment (ws ++ [w]) r = w.onPayment (onPayment ws r) := by
  simp [onPayment]

/-- A later write that leaves payments alone, or only sets the invoice of the same payment. -/
theorem Settles.push {ev : EventStatus} {ws : List Write} {w : Write} (h : Settles id ev ws)
    (hstatus : ∀ r, (w.onPayment r).status = r.status)
    (hother : ∀ r, r.id ≠ id → w.onPayment r = r) : Settles id ev (ws ++ [w]) where
  own r hr := by rw [onPayment_append, hstatus]; exact h.own r hr
  other r hr := by rw [onPayment_append, h.other r hr]; exact hother r hr

/-- The call holds no payment lock. -/
def Idle (pid : Nat) (s : BillingStore) : Prop := ∀ id, s.lock (.payment id) ≠ some pid

/-- An open transaction: it holds the lock of its payment and of no other; the payment is still
`PENDING` for everybody else, and the writes settle it. -/
structure Tx.Settling (t : Tx) (pid : Nat) (s : BillingStore) : Prop where
  locked : s.lock (.payment t.payment.id) = some pid
  only : ∀ id, s.lock (.payment id) = some pid → id = t.payment.id
  pending : s.db.statusOf t.payment.id = some .pending
  writes : Settles t.payment.id t.event.status t.writes

/-- `u` is the transaction's payment, up to mutable columns. -/
def Tx.Read (t : Tx) (u : Payment) (s : BillingStore) : Prop :=
  ∃ row, s.db.payments.find? t.payment.id = some row ∧ u.terms = row.terms

/-- What the transaction is about to insert: one invoice of the payment's amount on a success. -/
def Tx.Invoices (t : Tx) (s : BillingStore) : Prop :=
  match t.event.status with
  | .succeeded => ∃ i row, invoicesOf t.writes = [i] ∧ i.paymentId = some t.payment.id ∧
      s.db.payments.find? t.payment.id = some row ∧ i.amount = row.amount
  | .failed => invoicesOf t.writes = []

/-- Before the invoice: no invoice is pending and the payment has been read. -/
structure Tx.Reading (t : Tx) (u : Payment) (pid : Nat) (s : BillingStore) : Prop extends
    t.Settling pid s where
  uninvoiced : invoicesOf t.writes = []
  read : t.Read u s

/-- The payment the call is about is stored. -/
def Handling.Known (h : Handling) (s : BillingStore) : Prop :=
  ∃ row, s.db.payments.find? h.payment.id = some row

/-- The assertion of each statement of `handle`. -/
def HandleState.Asserts (pid : Nat) (s : BillingStore) : HandleState → Prop
  | readingPayment t => t.Settling pid s ∧ invoicesOf t.writes = []
  | readingSubscription t u => t.Reading u pid s
  | readingEnterprise t u _ => t.Reading u pid s
  | transitioning t u _ _ _ => t.Reading u pid s
  | recordingEvent t u _ _ _ _ => t.Reading u pid s
  | renewing t u _ _ => t.Reading u pid s
  | numbering t u _ _ => t.Reading u pid s ∧ t.event.status = .succeeded
  | invoicing t u _ _ _ => t.Reading u pid s ∧ t.event.status = .succeeded
  | committing t _ => t.Settling pid s ∧ t.Invoices s
  | expiring h | rereading h | settling h _ | flagging h => Idle pid s ∧ h.Known s
  | _ => Idle pid s

/-- The delivery has reached the effects that follow the transaction (`:317-333`): it resolved
payment `p` with status `ev`. -/
def HandleState.Reached (p : Uuid) (ev : EventStatus) : HandleState → Prop
  | auditing h _ | findingRecipient h _ | notifying h _ _ => h.payment.id = p ∧ h.event.status = ev
  | answered d (.ok r) => r = ⟨.processed, p⟩ ∧ d.event.map PaymentWebhookEvent.status = some ev
  | _ => False

def BillingCall.ReachedEffects (p : Uuid) (ev : EventStatus) : BillingCall → Prop
  | webhook st | thrown (webhook st) => st.Reached p ev
  | _ => False

def BillingCall.AssertsHere (pid : Nat) (s : BillingStore) : BillingCall → Prop
  | webhook st => st.Asserts pid s
  | _ => Idle pid s

/-- The assertion of each statement of each call. -/
structure BillingCall.Asserts (pid : Nat) (c : BillingCall) (s : BillingStore) : Prop where
  here : c.AssertsHere pid s
  resolved : ∀ p ev, c.ReachedEffects p ev → s.db.statusOf p = some ev.toPayment

theorem statusOf_with (db : Db) (ws : List Write) (p : Uuid) :
    (db.with ws).statusOf p = (db.payments.find? p).map fun r => (onPayment ws r).status := by
  rw [Db.statusOf, find?_payments_with, Option.map_map]
  rfl

theorem Tx.Settling.statusOf_commit {t : Tx} (ht : t.Settling pid s) :
    (s.db.with t.writes).statusOf t.payment.id = some t.event.status.toPayment := by
  obtain ⟨row, hrow, -⟩ := Option.map_eq_some_iff.1 ht.pending
  rw [statusOf_with, hrow, Option.map_some, ht.writes.own row (Table.key_of_find? hrow)]

/-! ## Stability -/

theorem Idle.stable (h : Idle pid' s) (hne : pid ≠ pid') (hg : PaymentStep pid s s') :
    Idle pid' s' :=
  fun id hl => h id ((hg.locks _ _ (Ne.symm hne)).1 hl)

theorem Handling.Known.stable {h : Handling} (hk : h.Known s) (hg : PaymentStep pid s s') :
    h.Known s' := by
  obtain ⟨row, hrow⟩ := hk
  obtain ⟨row', hrow', -⟩ := hg.find? hrow
  exact ⟨row', hrow'⟩

theorem Tx.Settling.stable {t : Tx} (h : t.Settling pid' s) (hne : pid ≠ pid')
    (hg : PaymentStep pid s s') : t.Settling pid' s' where
  locked := (hg.locks _ _ (Ne.symm hne)).2 h.locked
  only id hl := h.only id ((hg.locks _ _ (Ne.symm hne)).1 hl)
  pending := by
    obtain ⟨r, hr, hst⟩ := Option.map_eq_some_iff.1 h.pending
    obtain ⟨r', hr', -, hsame⟩ := hg.locked hne h.locked hr
    simp [Db.statusOf, hr', hsame, hst]
  writes := h.writes

theorem Tx.Read.stable {t : Tx} {u : Payment} (h : t.Read u s) (hg : PaymentStep pid s s') :
    t.Read u s' := by
  obtain ⟨row, hrow, hu⟩ := h
  obtain ⟨row', hrow', ht, -⟩ := hg.find? hrow
  exact ⟨row', hrow', hu.trans ht.symm⟩

theorem Tx.Reading.stable {t : Tx} {u : Payment} (h : t.Reading u pid' s) (hne : pid ≠ pid')
    (hg : PaymentStep pid s s') : t.Reading u pid' s' :=
  ⟨h.toSettling.stable hne hg, h.uninvoiced, h.read.stable hg⟩

theorem Tx.Invoices.stable {t : Tx} (h : t.Invoices s) (hg : PaymentStep pid s s') :
    t.Invoices s' := by
  unfold Invoices at *
  split
  · rename_i hev
    rw [hev] at h
    obtain ⟨i, row, hi, hp, hrow, ha⟩ := h
    obtain ⟨row', hrow', ht, -⟩ := hg.find? hrow
    exact ⟨i, row', hi, hp, hrow', ha.trans (terms_amount ht).symm⟩
  · rename_i hev
    rwa [hev] at h

theorem HandleState.Asserts.stable {st : HandleState} (h : st.Asserts pid' s) (hne : pid ≠ pid')
    (hg : PaymentStep pid s s') : st.Asserts pid' s' := by
  cases st <;> simp only [Asserts] at h ⊢
  case readingPayment t => exact ⟨h.1.stable hne hg, h.2⟩
  case readingSubscription t u => exact h.stable hne hg
  case readingEnterprise t u sub => exact h.stable hne hg
  case transitioning t u sub ent target => exact h.stable hne hg
  case recordingEvent t u sub ent target after => exact h.stable hne hg
  case renewing t u sub ent => exact h.stable hne hg
  case numbering t u ent after => exact ⟨h.1.stable hne hg, h.2⟩
  case invoicing t u ent after seq => exact ⟨h.1.stable hne hg, h.2⟩
  case committing t after => exact ⟨h.1.stable hne hg, h.2.stable hg⟩
  case expiring hd => exact ⟨h.1.stable hne hg, h.2.stable hg⟩
  case rereading hd => exact ⟨h.1.stable hne hg, h.2.stable hg⟩
  case settling hd sid => exact ⟨h.1.stable hne hg, h.2.stable hg⟩
  case flagging hd => exact ⟨h.1.stable hne hg, h.2.stable hg⟩
  all_goals exact Idle.stable h hne hg

theorem toPayment_ne_pending (ev : EventStatus) : ev.toPayment ≠ .pending := by cases ev <;> decide

theorem BillingCall.Asserts.stable {c : BillingCall} (h : c.Asserts pid' s) (hne : pid ≠ pid')
    (hg : PaymentStep pid s s') : c.Asserts pid' s' where
  here := by
    have hA := h.here
    cases c with
    | webhook st => exact HandleState.Asserts.stable hA hne hg
    | _ => exact Idle.stable hA hne hg
  resolved p ev hr := hg.statusOf (h.resolved p ev hr) (toPayment_ne_pending ev)

/-! ## Every statement stays inside the guarantee -/

theorem paymentStep_of_effect {c : BillingCall} (he : Effect pid s c s') (hA : c.Asserts pid s) :
    PaymentStep pid s s' := by
  cases he with
  | quiet h => exact h.paymentStep
  | expirePayment id row found pending free =>
    refine ⟨.of_eq rfl, ⟨_, payments_rows_with s.db _, onPayment_terms _, fun r hr => ?_⟩,
      logs_with _ _⟩
    by_cases hid : r.id = id
    · subst hid
      have hsame : r = row := Option.some.inj ((Table.find?_of_mem hr).symm.trans found)
      exact .inr ⟨hsame ▸ pending, free⟩
    · left
      simp [onPayment, Write.onPayment, hid]
  | flag h stmt =>
    refine ⟨.of_eq rfl, ⟨_, rfl, fun r => ?_, fun r _ => .inl ?_⟩, List.prefix_rfl⟩
    · split <;> rfl
    · split <;> rfl
  | transition j row found allowed free =>
    exact ⟨.of_eq rfl, ⟨_, payments_rows_with s.db _, onPayment_terms _, fun r _ => .inl rfl⟩,
      logs_with _ _⟩
  | settle t after stmt =>
    subst stmt
    obtain ⟨ht, -⟩ := hA.here
    refine ⟨locksKept_commit, ⟨_, payments_rows_with s.db _, onPayment_terms _, fun r hr => ?_⟩,
      logs_with _ _⟩
    by_cases hid : r.id = t.payment.id
    · right
      have hfound : s.db.payments.find? t.payment.id = some r := hid ▸ Table.find?_of_mem hr
      have hpending := ht.pending
      simp only [Db.statusOf, hfound, Option.map_some, Option.some.injEq] at hpending
      exact ⟨hpending, free_iff.2 (.inr (hid ▸ ht.locked))⟩
    · left
      rw [ht.writes.other r hid]
  | changePlan q sub stmt =>
    exact ⟨locksKept_commit, ⟨_, payments_rows_with s.db _, onPayment_terms _, fun r _ => .inl rfl⟩,
      logs_with _ _⟩

end Gescom.Billing
