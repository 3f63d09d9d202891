import Gescom.Billing.PaymentOutline

/-!
# A payment is resolved once and invoiced once

`InvoicedOnce` is kept by every statement: only the commit of a settlement inserts an invoice, and it
holds the lock of a payment that was `PENDING` until then.
-/

namespace Gescom.Billing

open ReadCommitted Transition

variable {pid : Nat} {s s' : BillingStore} {p : Uuid} {cfg : Config}
  {K : BillingPool → Act Input Nat → Prop} {P₀ P P' : BillingPool}

/-! ## One invoice per succeeded payment -/

def Db.invoicesFor (db : Db) (p : Uuid) : List Invoice :=
  db.invoices.filter fun i => i.paymentId == some p

/-- One invoice, of the payment's amount, if the payment is `SUCCEEDED`, and none otherwise. -/
structure Db.InvoicedOnce (p : Uuid) (db : Db) : Prop where
  count : (db.invoicesFor p).length = if db.statusOf p = some .succeeded then 1 else 0
  amount : ∀ i ∈ db.invoicesFor p, ∀ row, db.payments.find? p = some row → i.amount = row.amount

/-- A step that inserts no invoice of `p` and does not make `p` succeed. -/
theorem Db.InvoicedOnce.keep (hI : s.db.InvoicedOnce p) (hg : PaymentStep pid s s')
    (hi : s'.db.invoicesFor p = s.db.invoicesFor p)
    (hs : s'.db.statusOf p = some .succeeded ↔ s.db.statusOf p = some .succeeded) :
    s'.db.InvoicedOnce p where
  count := by simp only [hi, hs]; exact hI.count
  amount i hmem row' hrow' := by
    obtain ⟨row, hrow, ht⟩ := hg.find?_back hrow'
    rw [hi] at hmem
    exact (hI.amount i hmem row hrow).trans (terms_amount ht).symm

theorem invoicesFor_with (db : Db) (ws : List Write) (p : Uuid) :
    (db.with ws).invoicesFor p = db.invoicesFor p ++ (invoicesOf ws).filter fun i =>
      i.paymentId == some p := by
  rw [Db.invoicesFor, invoices_with, List.filter_append]
  rfl

/-- The commit of a settlement, seen from its own payment. -/
theorem Db.InvoicedOnce.commit_own {t : Tx} (hI : s.db.InvoicedOnce t.payment.id)
    (ht : t.Settling pid s)
    (hinv : t.Invoices s) : (s.db.with t.writes).InvoicedOnce t.payment.id := by
  obtain ⟨row, hrow, -⟩ := Option.map_eq_some_iff.1 ht.pending
  have hnone : s.db.invoicesFor t.payment.id = [] := by
    have := hI.count
    simp only [ht.pending, Option.some.injEq, reduceCtorEq, if_false] at this
    exact List.length_eq_zero_iff.1 this
  have hstatus := ht.statusOf_commit
  unfold Tx.Invoices at hinv
  cases hev : t.event.status with
  | succeeded =>
    rw [hev] at hinv hstatus
    obtain ⟨i, row₂, hi, hp, hrow₂, ha⟩ := hinv
    obtain rfl : row = row₂ := Option.some.inj (hrow.symm.trans hrow₂)
    have hfor : (s.db.with t.writes).invoicesFor t.payment.id = [i] := by
      rw [invoicesFor_with, hnone, hi]
      simp [hp]
    refine ⟨by simp [hfor, hstatus, EventStatus.toPayment], fun j hj row' hrow' => ?_⟩
    rw [hfor, List.mem_singleton] at hj
    rw [find?_payments_with, hrow] at hrow'
    cases hrow'
    rw [hj, ha]
    exact (terms_amount (onPayment_terms t.writes row)).symm
  | failed =>
    rw [hev] at hinv hstatus
    have hfor : (s.db.with t.writes).invoicesFor t.payment.id = [] := by
      rw [invoicesFor_with, hnone, hinv]; rfl
    exact ⟨by simp [hfor, hstatus, EventStatus.toPayment], fun j hj => by simp [hfor] at hj⟩

/-- The pending invoices of a transaction are for its own payment. -/
theorem Tx.Invoices.only_own {t : Tx} (h : t.Invoices s) (hne : p ≠ t.payment.id) :
    ((invoicesOf t.writes).filter fun i => i.paymentId == some p) = [] := by
  unfold Tx.Invoices at h
  split at h
  · obtain ⟨i, -, hi, hp, -⟩ := h
    simp [hi, hp, Ne.symm hne]
  · rw [h]; rfl

theorem invoicedOnce_of_effect {c : BillingCall} (he : Effect pid s c s') (hA : c.Asserts pid s)
    (hI : s.db.InvoicedOnce p) : s'.db.InvoicedOnce p := by
  have hg := paymentStep_of_effect he hA
  cases he with
  | quiet h =>
    refine hI.keep hg (by rw [Db.invoicesFor, h.invoices]; rfl) ?_
    rw [Db.statusOf, Table.find?, h.payments]
    rfl
  | expirePayment id row found pending free =>
    refine hI.keep hg ((invoicesFor_with s.db _ p).trans (List.append_nil _)) ?_
    rw [autocommit_db, statusOf_with, Db.statusOf]
    by_cases hid : p = id
    · subst hid
      have : row.id = p := Table.key_of_find? found
      simp [found, pending, onPayment, Write.onPayment, this]
    · cases hr : s.db.payments.find? p with
      | none => rfl
      | some r =>
        have : r.id = p := Table.key_of_find? hr
        simp [onPayment, Write.onPayment, this, hid]
  | flag h stmt =>
    refine hI.keep hg rfl ?_
    rw [autocommit_db, Db.statusOf, Db.flag, Table.find?_update, Db.statusOf]
    by_cases hid : p = h.payment.id
    · subst hid
      cases hr : s.db.payments.find? h.payment.id <;> simp
    · rw [if_neg hid]
  | transition j row found allowed free =>
    refine hI.keep hg ((invoicesFor_with s.db _ p).trans (List.append_nil _)) ?_
    rw [autocommit_db, statusOf_with]
    rfl
  | settle t after stmt =>
    subst stmt
    obtain ⟨ht, hinv⟩ := hA.here
    by_cases hid : p = t.payment.id
    · subst hid
      exact hI.commit_own ht hinv
    · refine hI.keep hg ?_ ?_
      · rw [commit_db, invoicesFor_with, hinv.only_own hid, List.append_nil]
      · rw [commit_db, statusOf_with, Db.statusOf]
        cases hr : s.db.payments.find? p with
        | none => rfl
        | some r =>
          have : r.id = p := Table.key_of_find? hr
          simp [ht.writes.other r (by rw [this]; exact hid)]
  | changePlan q sub stmt =>
    refine hI.keep hg ((invoicesFor_with s.db _ p).trans (List.append_nil _)) ?_
    rw [commit_db, statusOf_with]
    rfl

/-! ## The result -/

/-- A payment that has left `PENDING` keeps its status in every later state. -/
theorem status_final (h0 : Starts P₀) (hr : Reach (billing cfg).system K P₀ P)
    (h : Reach (billing cfg).system K P P') {st : PaymentStatus}
    (hs : P.shared.db.statusOf p = some st)
    (hst : st ≠ .pending) : P'.shared.db.statusOf p = some st := by
  refine h.inv (fun P' => P'.shared.db.statusOf p = some st) hs fun P₁ a P₂ hr₁ ih _ hstep => ?_
  obtain ⟨pid, hg⟩ := h0.paymentStep (hr.trans hr₁) hstep
  exact hg.statusOf ih hst

theorem invoicedOnce_of_reach (h0 : Starts P₀) (hI : P₀.shared.db.InvoicedOnce p)
    (h : Reach (billing cfg).system K P₀ P) : P.shared.db.InvoicedOnce p := by
  refine h.inv (fun P => P.shared.db.InvoicedOnce p) hI fun P a P' hr ih _ hstep => ?_
  cases a with
  | run pid i =>
    obtain ⟨s, c, hth, rfl⟩ := Machine.run_eq_some.1 hstep
    exact invoicedOnce_of_effect (billing_effect hth) (h0.asserts hr pid) ih
  | env d =>
    obtain ⟨pid, hg⟩ := h0.paymentStep hr hstep
    obtain rfl := Machine.env_eq_some.1 hstep
    exact ih.keep hg rfl Iff.rfl

/-- Two deliveries never both reach the effects of payment `p`: whoever enters finds the payment
`PENDING`, and it is `PENDING` no more once somebody is in. -/
theorem effects_exclusive (h0 : Starts P₀) (h : Reach (billing cfg).system K P₀ P) :
    ∀ i j, (∃ ev, (P.threads i).ReachedEffects p ev) → (∃ ev, (P.threads j).ReachedEffects p ev) →
      i = j := by
  refine Reach.exclusive (fun c => ∃ ev, BillingCall.ReachedEffects p ev c) ?_ ?_ h
  · rintro pid ⟨ev, hr⟩
    exact (h0.fresh pid).not_reached hr
  · rintro P pid i s t hr - hst ⟨ev, ht⟩
    rcases BillingCall.reached_step hst ht with hpre | ⟨tx, after, hc, rfl, rfl, -⟩
    · exact .inl ⟨ev, hpre⟩
    · right
      rintro j ⟨ev', hj⟩
      have hhere := (h0.asserts hr pid).here
      rw [hc] at hhere
      have hpending := hhere.1.pending
      rw [(h0.asserts hr j).resolved _ ev' hj] at hpending
      exact toPayment_ne_pending ev' (Option.some.inj hpending)

/-- Over every run of deliveries, expiry jobs and other billing calls: the payment leaves `PENDING`
once at most, it has its one invoice if and only if it has succeeded, and at most one delivery goes
on to the effects, the one whose event gave the payment its status. -/
theorem payment_resolved_and_invoiced_once (cfg : Config) (p : Uuid) {P₀ P : BillingPool}
    (h0 : Starts P₀)
    (hI : P₀.shared.db.InvoicedOnce p) (hr : Reach (billing cfg).system Always P₀ P) :
    (∀ P' st, Reach (billing cfg).system Always P P' → P.shared.db.statusOf p = some st →
      st ≠ .pending → P'.shared.db.statusOf p = some st) ∧
    P.shared.db.InvoicedOnce p ∧
    (∀ i j ev ev', (P.threads i).ReachedEffects p ev → (P.threads j).ReachedEffects p ev' → i = j) ∧
    ∀ i ev, (P.threads i).ReachedEffects p ev → P.shared.db.statusOf p = some ev.toPayment := by
  refine ⟨fun P' st h hs hst => status_final h0 hr h hs hst, invoicedOnce_of_reach h0 hI hr,
    fun i j ev ev' hi hj => ?_, fun i ev hi => (h0.asserts hr i).resolved p ev hi⟩
  exact effects_exclusive h0 hr i j ⟨ev, hi⟩ ⟨ev', hj⟩

theorem payment_resolved_and_invoiced_once_sample :
    let P₀ := samplePool sampleDb
      [.webhook (.received (sampleDelivery .succeeded)),
        .webhook (.received (sampleDelivery .failed))]
    ∃ P, Reach (billing sampleConfig).system Always P₀ P ∧
      P.shared.db.statusOf 1 = some .succeeded ∧
      P.shared.db.InvoicedOnce 1 := by
  intro P₀
  have hrun : (exec (billing sampleConfig).system (fun _ _ => true) P₀
      (runs 1 2 0 ++ runs 0 11 9)).map
      (fun P => P.shared.db.statusOf 1) = some (some .succeeded) := by decide +kernel
  obtain ⟨P, hP, hst⟩ := Option.map_eq_some_iff.1 hrun
  have hr : Reach (billing sampleConfig).system Always P₀ P :=
    Reach.of_exec _ (fun _ _ _ => trivial) _ hP
  have h0 : Starts P₀ := samplePool_starts (by simp [BillingCall.Fresh])
  have hI : P₀.shared.db.InvoicedOnce 1 := ⟨by decide, fun i hi => by cases hi⟩
  exact ⟨P, hr, hst, (payment_resolved_and_invoiced_once sampleConfig 1 h0 hI hr).2.1⟩

end Gescom.Billing
