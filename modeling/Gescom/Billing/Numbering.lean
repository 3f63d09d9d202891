import Gescom.Lib.Numbering
import Gescom.Billing.Effects

/-!
# The numbers of platform invoices

`generateForPayment` increments the counter of the enterprise and inserts the invoice inside the
transaction of the webhook. The counter row stays locked until that transaction ends, so the number
of a committed invoice is the one after the last committed number, and a transaction that rolls back
gives its number back.
-/

namespace Gescom.Billing

open ReadCommitted Transition

variable {cfg : Config} {pid : Nat} {fresh : Uuid} {s s' : BillingStore}

/-- `last_number` of the counter row; 0 without one. -/
def Db.lastInvoiceNumber (db : Db) (enterpriseId : Uuid) : Nat :=
  ((db.invoiceCounters.find? enterpriseId).map InvoiceCounter.lastNumber).getD 0

theorem lastInvoiceNumber_congr {db db' : Db} (h : db'.invoiceCounters = db.invoiceCounters) :
    db'.lastInvoiceNumber = db.lastInvoiceNumber := by
  funext e
  simp only [Db.lastInvoiceNumber, h]

theorem nextInvoiceNumber_eq (db : Db) (e : Uuid) :
    db.nextInvoiceNumber e = db.lastInvoiceNumber e + 1 := by
  unfold Db.nextInvoiceNumber Db.lastInvoiceNumber
  cases db.invoiceCounters.find? e <;> rfl

/-- Every enterprise's invoices carry the numbers from 1 to its counter, in the order of their
commits. -/
def Db.GapFree (db : Db) : Prop :=
  Numbering.GapFree Invoice.enterpriseId Invoice.number invoiceNumber db.invoices
    db.lastInvoiceNumber

/-! ## Writes that number -/

/-- The write touches neither the counters nor the invoices. -/
def Write.Unnumbered : Write → Prop
  | counter _ | invoice _ => False
  | _ => True

def Unnumbered (ws : List Write) : Prop := ∀ w ∈ ws, w.Unnumbered

theorem Unnumbered.push {ws : List Write} {w : Write} (h : Unnumbered ws) (hw : w.Unnumbered) :
    Unnumbered (ws ++ [w]) := by
  intro x hx
  rcases List.mem_append.1 hx with hx | hx
  · exact h x hx
  · rwa [List.mem_singleton.1 hx]

theorem Unnumbered.with {ws : List Write} (h : Unnumbered ws) (db : Db) :
    (db.with ws).invoices = db.invoices ∧ (db.with ws).invoiceCounters = db.invoiceCounters := by
  induction ws generalizing db with
  | nil => exact ⟨rfl, rfl⟩
  | cons w ws ih =>
    have hw : w.Unnumbered := h w List.mem_cons_self
    obtain ⟨hi, hc⟩ := ih (fun x hx => h x (List.mem_cons_of_mem _ hx)) (w.apply db)
    rw [with_cons, hi, hc]
    cases w with
    | counter c => exact hw.elim
    | invoice i => exact hw.elim
    | _ => exact ⟨List.append_nil _, rfl⟩

/-- The writes of a transaction that has numbered an invoice. -/
structure Numbers (ws : List Write) (i : Invoice) (n : Nat) : Prop where
  number : i.number = invoiceNumber i.enterpriseId n
  shape : ∃ before after, ws = before ++ [.counter ⟨i.enterpriseId, n⟩, .invoice i] ++ after ∧
    Unnumbered before ∧ Unnumbered after

theorem with_append (db : Db) (ws ws' : List Write) : db.with (ws ++ ws') = (db.with ws).with ws' :=
  List.foldl_append ..

theorem lastInvoiceNumber_counter (db : Db) (c : InvoiceCounter) (e : Uuid) :
    ((Write.counter c).apply db).lastInvoiceNumber e =
      if e = c.enterpriseId then c.lastNumber else db.lastInvoiceNumber e := by
  unfold Db.lastInvoiceNumber Write.apply Write.counters
  rw [Table.find?_update]
  by_cases he : e = c.enterpriseId
  · subst he
    cases ht : db.invoiceCounters.find? c.enterpriseId with
    | none =>
      rw [Table.find?_insert ht]
      simp [Keyed.key]
    | some x =>
      rw [Table.find?_insert_of_some ht]
      simp
  · rw [if_neg he, if_neg he, Table.find?_insert_ne he]

theorem Numbers.with {ws : List Write} {i : Invoice} {n : Nat} (h : Numbers ws i n) (db : Db) :
    (db.with ws).invoices = db.invoices ++ [i] ∧
      ∀ e, (db.with ws).lastInvoiceNumber e =
        if e = i.enterpriseId then n else db.lastInvoiceNumber e := by
  obtain ⟨-, before, after, rfl, hbefore, hafter⟩ := h
  obtain ⟨hi, hc⟩ := hbefore.with db
  rw [with_append, with_append]
  obtain ⟨hi', hc'⟩ := hafter.with
    ((db.with before).with [.counter ⟨i.enterpriseId, n⟩, .invoice i])
  refine ⟨?_, fun e => ?_⟩
  · rw [hi', invoices_with, hi]
    rfl
  · rw [lastInvoiceNumber_congr hc']
    refine (lastInvoiceNumber_counter (db.with before) ⟨i.enterpriseId, n⟩ e).trans ?_
    rw [lastInvoiceNumber_congr hc]

/-! ## What holds between two statements -/

/-- The call holds the counter of `e`, and `n` is the next number. -/
def Draws (e : Uuid) (n : Nat) (pid : Nat) (s : BillingStore) : Prop :=
  s.lock (.invoiceCounter e) = some pid ∧ n = s.db.lastInvoiceNumber e + 1

/-- What an open transaction has numbered so far. -/
def HandleState.Reserves (pid : Nat) (s : BillingStore) : HandleState → Prop
  | readingPayment t | readingSubscription t _ | readingEnterprise t _ _
  | transitioning t _ _ _ _ | recordingEvent t _ _ _ _ _ | renewing t _ _ _
  | numbering t _ _ _ => Unnumbered t.writes
  | invoicing t _ ent _ n =>
    (∃ before, t.writes = before ++ [.counter ⟨ent.id, n⟩] ∧ Unnumbered before) ∧
      Draws ent.id n pid s
  | committing t _ => Unnumbered t.writes ∨
      ∃ i n, Numbers t.writes i n ∧ Draws i.enterpriseId n pid s
  | _ => True

def BillingCall.Reserves (pid : Nat) (c : BillingCall) (s : BillingStore) : Prop :=
  match c with
  | webhook st => st.Reserves pid s
  | _ => True

/-- What a step of `pid` is for the others: at most one invoice, with the next number of a counter
`pid` holds. -/
def Issues (pid : Nat) (s s' : BillingStore) : Prop :=
  LocksKept pid s s' ∧
    ((s'.db.invoices = s.db.invoices ∧ s'.db.invoiceCounters = s.db.invoiceCounters) ∨
      ∃ i n, Draws i.enterpriseId n pid s ∧ i.number = invoiceNumber i.enterpriseId n ∧
        s'.db.invoices = s.db.invoices ++ [i] ∧
        ∀ e, s'.db.lastInvoiceNumber e =
          if e = i.enterpriseId then n else s.db.lastInvoiceNumber e)

theorem Issues.gapFree (h : Issues pid s s') (hI : s.db.GapFree) : s'.db.GapFree := by
  unfold Db.GapFree at hI ⊢
  rcases h.2 with ⟨hi, hc⟩ | ⟨i, n, ⟨-, hn⟩, hnumber, hi, hlast⟩
  · rw [hi, lastInvoiceNumber_congr hc]
    exact hI
  · rw [hi]
    refine hI.append (by rw [hnumber, hn]) ?_ fun e he => ?_
    · rw [hlast, if_pos rfl, hn]
    · rw [hlast, if_neg he]

theorem Draws.stable {e : Uuid} {n : Nat} {pid' : Nat} (hne : pid ≠ pid') (hstep : Issues pid s s')
    (h : Draws e n pid' s) : Draws e n pid' s' := by
  refine ⟨(hstep.1 _ pid' (Ne.symm hne)).2 h.1, ?_⟩
  rcases hstep.2 with ⟨-, hc⟩ | ⟨i, n', ⟨hlock, -⟩, -, -, hlast⟩
  · rw [lastInvoiceNumber_congr hc]
    exact h.2
  · have hother : e ≠ i.enterpriseId := by
      rintro rfl
      rw [h.1] at hlock
      exact hne (Option.some.inj hlock).symm
    rw [hlast, if_neg hother]
    exact h.2

theorem BillingCall.Reserves.stable {c : BillingCall} {pid' : Nat} (hne : pid ≠ pid')
    (hstep : Issues pid s s') (h : c.Reserves pid' s) : c.Reserves pid' s' := by
  cases c with
  | webhook st =>
    cases st with
    | invoicing t u ent after n => exact ⟨h.1, h.2.stable hne hstep⟩
    | committing t after =>
      rcases h with hw | ⟨i, n, hw, hd⟩
      · exact .inl hw
      · exact .inr ⟨i, n, hw, hd.stable hne hstep⟩
    | _ => exact h
  | _ => trivial

/-! ## One step -/

theorem dispatch_reserves (h : Handling) : h.dispatch.Reserves pid s := by
  rcases dispatch_cases h with ⟨-, -, hd⟩ | ⟨-, hd⟩ | ⟨_, _, _, hd⟩ | ⟨_, -, hd⟩ <;> rw [hd] <;>
    trivial

theorem afterSubscription_reserves {t : Tx} (u : Payment) (ent : Enterprise) (after : Subscription)
    (h : Unnumbered t.writes) : (afterSubscription t u ent after).Reserves pid s := by
  unfold afterSubscription
  split
  · exact h
  · exact .inl h

theorem decide_reserves {t : Tx} {u : Payment} {sub : Subscription} {ent : Enterprise}
    {next : HandleState} (h : Unnumbered t.writes) (hd : t.decide u sub ent = .ok next) :
    next.Reserves pid s := by
  rcases decide_cases hd with rfl | ⟨_, -, -, rfl⟩ | ⟨-, rfl⟩
  · exact afterSubscription_reserves u ent sub h
  · exact h
  · exact h

theorem HandleState.reserves_step {st st' : HandleState} (hA : st.Reserves pid s)
    (h : st.step cfg pid fresh s = some (s', st')) : st'.Reserves pid s' := by
  cases step_cases h with
  | finds | rereads => exact dispatch_reserves _
  | settles =>
    intro w hw
    rw [List.mem_singleton.1 hw]
    trivial
  | readsPayment | readsSubscription => exact hA
  | decides decided => exact decide_reserves hA decided
  | transitions => exact Unnumbered.push hA trivial
  | recordsEvent t u sub ent target after =>
    exact afterSubscription_reserves u ent after (Unnumbered.push hA trivial)
  | renews u ent => exact afterSubscription_reserves u ent _ (Unnumbered.push hA trivial)
  | numbers t u ent =>
    exact ⟨⟨t.writes, rfl, hA⟩, acquire_lock_self, nextInvoiceNumber_eq s.db ent.id⟩
  | @invoices t u ent _ after n row =>
    subst row
    obtain ⟨⟨before, hbefore, hun⟩, hlock, hn⟩ := hA
    refine .inr ⟨invoiceFor fresh s.db.now ent t.subscriptionId u n, n, ⟨rfl, before,
      [.attachInvoice u.id fresh], ?_, hun, ?_⟩, acquireAll_keeps hlock, hn⟩
    · simp [Tx.push, hbefore, invoiceFor]
    · intro w hw
      rw [List.mem_singleton.1 hw]
      trivial
  | _ => trivial

/-- Only the transaction of a webhook writes counters. -/
theorem HandleState.step_counters {st st' : HandleState}
    (h : st.step cfg pid fresh s = some (s', st')) (hne : ∀ t after, st ≠ .committing t after) :
    s'.db.invoiceCounters = s.db.invoiceCounters := by
  cases step_cases h with
  | commits t after => exact absurd rfl (hne t after)
  | _ => rfl

theorem ExpireState.step_counters {st st' : ExpireState} (h : st.step pid s = some (s', st')) :
    s'.db.invoiceCounters = s.db.invoiceCounters := by
  cases st with
  | next rest n =>
    cases rest <;> simp only [step] at h <;> (repeat' split at h) <;> cases h <;> rfl
  | _ => cases h <;> rfl

theorem LifecycleState.step_counters {st st' : LifecycleState}
    (h : st.step pid s = some (s', st')) : s'.db.invoiceCounters = s.db.invoiceCounters := by
  cases st with
  | next j rest n =>
    cases rest <;> simp only [step] at h <;> (repeat' split at h) <;> cases h <;> rfl
  | _ => cases h <;> rfl

theorem ChangePlanState.step_counters {st st' : ChangePlanState}
    (h : st.step pid s = some (s', st')) : s'.db.invoiceCounters = s.db.invoiceCounters := by
  cases st <;> simp only [step] at h <;> (repeat' split at h) <;> cases h <;> rfl

theorem Effect.invoices {c : BillingCall} (h : Effect pid s c s')
    (hne : ∀ t after, c ≠ .webhook (.committing t after)) :
    s'.db.invoices = s.db.invoices ∧ LocksKept pid s s' := by
  cases h with
  | quiet hq => exact ⟨hq.invoices, hq.locks⟩
  | settle t after stmt => exact absurd stmt (hne t after)
  | flag => exact ⟨rfl, .of_eq rfl⟩
  | expirePayment => exact ⟨(invoices_with ..).trans (List.append_nil _), .of_eq rfl⟩
  | transition => exact ⟨(invoices_with ..).trans (List.append_nil _), .of_eq rfl⟩
  | changePlan => exact ⟨(invoices_with ..).trans (List.append_nil _), locksKept_commit⟩

theorem BillingCall.step_issues {c c' : BillingCall} (hA : c.Reserves pid s)
    (h : c.step cfg pid fresh s = some (s', c')) : Issues pid s s' := by
  have heffect := BillingCall.step_effect h
  have frame : s'.db.invoiceCounters = s.db.invoiceCounters →
      (∀ t after, c ≠ .webhook (.committing t after)) → Issues pid s s' :=
    fun hc hne => ⟨(heffect.invoices hne).2, .inl ⟨(heffect.invoices hne).1, hc⟩⟩
  cases moves_of_step h with
  | @webhook st st' hst =>
    by_cases hcommit : ∃ t after, st = .committing t after
    · obtain ⟨t, after, rfl⟩ := hcommit
      cases hst
      refine ⟨locksKept_commit, ?_⟩
      rcases hA with hw | ⟨i, n, hw, hd⟩
      · exact .inl (hw.with s.db)
      · exact .inr ⟨i, n, hd, hw.number, hw.with s.db⟩
    · refine frame (HandleState.step_counters hst fun t after heq => hcommit ⟨t, after, heq⟩) ?_
      intro t after heq
      cases heq
      exact hcommit ⟨t, after, rfl⟩
  | expirePendingPayments hst => exact frame (ExpireState.step_counters hst) (by simp)
  | lifecycle hst => exact frame (LifecycleState.step_counters hst) (by simp)
  | changePlan hst => exact frame (ChangePlanState.step_counters hst) (by simp)

theorem BillingCall.step_reserves {c c' : BillingCall} (hA : c.Reserves pid s)
    (h : c.step cfg pid fresh s = some (s', c')) : c'.Reserves pid s' := by
  cases moves_of_step h with
  | webhook hst => exact HandleState.reserves_step hA hst
  | expirePendingPayments | lifecycle | changePlan => trivial

theorem BillingCall.failed_reserves (c : BillingCall) : c.failed.Reserves pid s := by
  rcases c.failed_cases with ⟨_, hc⟩ | ⟨_, _, hc⟩ | ⟨_, _, _, hc⟩ <;> rw [hc] <;> trivial

/-- The outline of invoices, for every run. -/
theorem invoicing (cfg : Config) :
    Outline (billing cfg) Always (fun s => s.db.GapFree) (fun pid c s => c.Reserves pid s)
      Issues where
  own P pid i s t _ hI hQ hst := by
    rcases billing_cases hst with ⟨-, rfl, rfl⟩ | ⟨-, hstep⟩
    · exact ⟨hI, BillingCall.failed_reserves _, locksKept_release, .inl ⟨rfl, rfl⟩⟩
    · have hissues := BillingCall.step_issues hQ hstep
      exact ⟨hissues.gapFree hI, BillingCall.step_reserves hQ hstep, hissues⟩
  stable _ _ _ _ _ hne _ _ hG hQ := hQ.stable hne hG
  env P d _ hI := by
    refine ⟨hI, fun pid c hc => ?_⟩
    exact hc.stable (Nat.succ_ne_self pid) ⟨.of_eq rfl, .inl ⟨rfl, rfl⟩⟩

end Gescom.Billing
