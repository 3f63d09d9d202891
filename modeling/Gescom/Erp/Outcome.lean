import Gescom.Erp.DocumentRepositories

/-!
# `markPaid` and `void` (`invoicing.repository.ts:304`)

Both read the invoice, check that it is `ISSUED`, and update it by its identifier alone in the same
transaction. At READ COMMITTED the update waits for the row and then takes it as it finds it.
`one_outcome` gives the runs in which an invoice has one final outcome: those where no update meets
an invoice that has been settled since it was read. `paid_then_voided` is a run outside it.
-/

namespace Gescom.Erp

open ReadCommitted Transition

inductive Outcome where
  | paid | void
  deriving DecidableEq, Repr

def Outcome.status : Outcome → InvoiceStatus
  | .paid => .paid
  | .void => .void

/-- What the call answers when the invoice is not `ISSUED`. -/
def Outcome.refusal : Outcome → ApiError
  | .paid => .conflict "Seule une facture émise peut être marquée payée"
  | .void => .badRequest "Seule une facture émise peut être annulée"

/-- The `data` of the update, and `@updatedAt`. -/
def Outcome.update (o : Outcome) (now : Instant) (i : SalesInvoice) : SalesInvoice :=
  match o with
  | .paid => { i with status := .paid, paidAt := some now, updatedAt := now }
  | .void => { i with status := .void, voidedAt := some now, updatedAt := now }

theorem Outcome.update_id (o : Outcome) (now : Instant) (i : SalesInvoice) :
    Keyed.key (o.update now i) = Keyed.key i := by cases o <;> rfl

/-- `getInvoiceOrThrow`: the invoice and the view of its sale. -/
def Db.getInvoiceOrThrow (db : Db) (enterpriseId invoiceId : Uuid) :
    Except ApiError (SalesInvoice × Option DocumentView) :=
  match db.salesInvoices.find? invoiceId with
  | none => .error (.notFound "Facture introuvable")
  | some i =>
    if i.enterpriseId ≠ enterpriseId then .error (.notFound "Facture introuvable")
    else .ok (i, (db.sales.find? i.saleId).map (db.documentView .sale))

/-- The arguments of a call. -/
structure Settlement where
  outcome : Outcome
  enterpriseId : Uuid
  invoiceId : Uuid
  deriving DecidableEq, Repr

inductive SettlementState where
  | reading
  | updating (sale : Option DocumentView)
  | committing (now : Instant) (view : Option SalesInvoiceView)
  | finished (r : Except ApiError (Option SalesInvoiceView))

def Db.settle (c : Settlement) (now : Instant) (db : Db) : Db :=
  { db with
    salesInvoices := db.salesInvoices.update c.invoiceId (c.outcome.update now)
      (c.outcome.update_id now) }

def SettlementState.step (c : Settlement) (pid : Nat) (s : ErpStore) :
    SettlementState → Option (ErpStore × SettlementState)
  | reading =>
    match s.db.getInvoiceOrThrow c.enterpriseId c.invoiceId with
    | .error e => some (s, .finished (.error e))
    | .ok (invoice, sale) =>
      if invoice.status ≠ .issued then some (s, .finished (.error c.outcome.refusal))
      else some (s, .updating sale)
  | updating sale =>
    -- `update({ where: { id } })`: waits for the row lock, re-checks nothing but the id
    if s.free pid (.id .salesInvoice c.invoiceId) then
      match s.db.salesInvoices.find? c.invoiceId with
      | none => some (s.release pid, .finished (.error (.prisma .p2025)))
      | some row =>
        some (s.acquire pid (.id .salesInvoice c.invoiceId),
          .committing s.db.now (sale.map (toInvoiceView (c.outcome.update s.db.now row))))
    else none
  | committing now view => some (s.commit pid (Db.settle c now), .finished (.ok view))
  | finished _ => none

/-- A change from outside: time passes, or another module writes its own tables. -/
structure Aside where
  apply : Db → Db
  invoices : ∀ db, (apply db).salesInvoices = db.salesInvoices

/-- A call with its arguments, or none. -/
abbrev SettlementCall := Option (Settlement × SettlementState)

/-- Any number of `markPaid` and `void` calls. The flag says that the statement at hand fails. -/
def settlements : Machine ErpStore SettlementCall Bool Aside where
  thread pid fails s call :=
    match call with
    | none => none
    | some (_, .finished _) => none
    | some (c, st) =>
      if fails then some (s.release pid, some (c, .finished (.error statementFailed)))
      else (st.step c pid s).map fun r => (r.1, some (c, r.2))
  env x s := s.autocommit x.apply

abbrev SettlementPool := Pool ErpStore SettlementCall

/-! ## What must hold -/

/-- `paidAt` is set exactly on a paid invoice, `voidedAt` exactly on a void one. -/
structure SalesInvoice.DatesOk (i : SalesInvoice) : Prop where
  paid : i.paidAt.isSome ↔ i.status = .paid
  voided : i.voidedAt.isSome ↔ i.status = .void

def SettlementCall.Succeeded (id : Uuid) : SettlementCall → Prop
  | some (c, .finished (.ok _)) => c.invoiceId = id
  | _ => False

/-- An update meets an invoice that is still `ISSUED`. -/
def StillIssued (P : SettlementPool) : Act Bool Aside → Prop
  | .run pid fails => fails = false → ∀ c sale row, P.threads pid = some (c, .updating sale) →
      P.shared.db.salesInvoices.find? c.invoiceId = some row → row.status = .issued
  | .env _ => True

structure SettlementStarts (P : SettlementPool) : Prop where
  fresh : ∀ pid c st, P.threads pid = some (c, st) → st = .reading
  dates : ∀ i ∈ P.shared.db.salesInvoices.rows, i.DatesOk

/-- In the runs whose steps meet `K` every invoice has one final outcome. -/
structure OneOutcome (K : SettlementPool → Act Bool Aside → Prop) (P₀ : SettlementPool) :
    Prop where
  once : ∀ P id pid pid', Reach settlements.system K P₀ P →
    (P.threads pid).Succeeded id → (P.threads pid').Succeeded id → pid = pid'
  terminal : ∀ P P' id i, Reach settlements.system K P₀ P → Reach settlements.system K P P' →
    P.shared.db.salesInvoices.find? id = some i → i.status = .paid ∨ i.status = .void →
    ∃ i', P'.shared.db.salesInvoices.find? id = some i' ∧ i'.status = i.status
  dates : ∀ P id i, Reach settlements.system K P₀ P →
    P.shared.db.salesInvoices.find? id = some i → i.DatesOk

variable {s s' : ErpStore} {pid pid' : Nat} {id : Uuid} {K : SettlementPool → Act Bool Aside → Prop}
  {P₀ P P' : SettlementPool}

/-! ## What holds between two statements -/

def Db.IssuedRow (db : Db) (id : Uuid) : Prop :=
  ∃ row, db.salesInvoices.find? id = some row ∧ row.status = .issued

def Db.SettledRow (db : Db) (id : Uuid) : Prop :=
  ∃ row, db.salesInvoices.find? id = some row ∧ row.status ≠ .issued

def SettlementCall.Holds (pid : Nat) (call : SettlementCall) (s : ErpStore) : Prop :=
  match call with
  | some (c, .committing _ _) =>
    s.lock (.id .salesInvoice c.invoiceId) = some pid ∧ s.db.IssuedRow c.invoiceId
  | some (c, .finished (.ok _)) => s.db.SettledRow c.invoiceId
  | _ => True

/-- A step of `pid` settles at most invoices it holds and that are `ISSUED`. -/
def Settles (pid : Nat) (s s' : ErpStore) : Prop :=
  LocksKept pid s s' ∧ ∀ id, s'.db.salesInvoices.find? id = s.db.salesInvoices.find? id ∨
    s.lock (.id .salesInvoice id) = some pid ∧ s.db.IssuedRow id ∧ s'.db.SettledRow id

theorem Settles.of_same (hl : LocksKept pid s s') (h : s'.db.salesInvoices = s.db.salesInvoices) :
    Settles pid s s' := ⟨hl, fun id => .inl (by rw [h])⟩

theorem not_issued_of_settled {db : Db} (h : db.SettledRow id) : ¬ db.IssuedRow id := by
  obtain ⟨row, hrow, hne⟩ := h
  rintro ⟨row', hrow', hissued⟩
  obtain rfl := Option.some.inj (hrow.symm.trans hrow')
  exact hne hissued

theorem Settles.settledRow (h : Settles pid s s') (hs : s.db.SettledRow id) :
    s'.db.SettledRow id := by
  rcases h.2 id with hsame | ⟨-, hissued, -⟩
  · unfold Db.SettledRow
    rw [hsame]
    exact hs
  · exact absurd hissued (not_issued_of_settled hs)

theorem SettlementCall.Holds.stable {call : SettlementCall} (h : call.Holds pid' s)
    (hne : pid ≠ pid') (hg : Settles pid s s') : call.Holds pid' s' := by
  match call with
  | none => trivial
  | some (c, .reading) => trivial
  | some (c, .updating sale) => trivial
  | some (c, .finished (.error e)) => trivial
  | some (c, .finished (.ok v)) => exact hg.settledRow h
  | some (c, .committing now view) =>
    obtain ⟨hlock, hissued⟩ := h
    refine ⟨(hg.1 _ _ (Ne.symm hne)).2 hlock, ?_⟩
    rcases hg.2 c.invoiceId with hsame | ⟨hheld, -, -⟩
    · unfold Db.IssuedRow
      rw [hsame]
      exact hissued
    · rw [hlock] at hheld
      exact absurd (Option.some.inj hheld).symm hne

/-! ## The update -/

theorem Outcome.update_status (o : Outcome) (now : Instant) (i : SalesInvoice) :
    (o.update now i).status = o.status := by cases o <;> rfl

theorem SalesInvoice.DatesOk.update {i : SalesInvoice} (h : i.DatesOk) (hi : i.status = .issued)
    (o : Outcome) (now : Instant) : (o.update now i).DatesOk := by
  obtain ⟨hpaid, hvoided⟩ := h
  rw [hi] at hpaid hvoided
  cases o with
  | paid => exact ⟨by simp [Outcome.update], by simpa [Outcome.update] using hvoided⟩
  | void => exact ⟨by simpa [Outcome.update] using hpaid, by simp [Outcome.update]⟩

theorem find?_settle (c : Settlement) (now : Instant) (db : Db) (id : Uuid) :
    (db.settle c now).salesInvoices.find? id =
      if id = c.invoiceId then (db.salesInvoices.find? c.invoiceId).map (c.outcome.update now)
      else db.salesInvoices.find? id :=
  Table.find?_update _ _ _ _ (c.outcome.update_id now)

theorem settle_dates {db : Db} {c : Settlement} {now : Instant} (hissued : db.IssuedRow c.invoiceId)
    (h : ∀ i ∈ db.salesInvoices.rows, i.DatesOk) :
    ∀ i ∈ (db.settle c now).salesInvoices.rows, i.DatesOk := by
  intro i hi
  have hfound : (db.settle c now).salesInvoices.find? i.id = some i := Table.find?_of_mem hi
  rw [find?_settle] at hfound
  split at hfound
  · obtain ⟨row, hrow, hstatus⟩ := hissued
    rw [hrow] at hfound
    cases hfound
    exact (h row (Table.mem_of_find? hrow)).update hstatus _ _
  · exact h i (Table.mem_of_find? hfound)

theorem SettlementState.step_holds {c : Settlement} {st st' : SettlementState}
    (hI : ∀ i ∈ s.db.salesInvoices.rows, i.DatesOk)
    (hQ : SettlementCall.Holds pid (some (c, st)) s)
    (hK : ∀ sale row, st = .updating sale → s.db.salesInvoices.find? c.invoiceId = some row →
      row.status = .issued)
    (hst : st.step c pid s = some (s', st')) :
    (∀ i ∈ s'.db.salesInvoices.rows, i.DatesOk) ∧ SettlementCall.Holds pid (some (c, st')) s' ∧
      Settles pid s s' := by
  cases st with
  | reading =>
    simp only [step] at hst
    split at hst
    · cases hst
      exact ⟨hI, trivial, .of_same (.of_eq rfl) rfl⟩
    · split at hst <;> cases hst <;> exact ⟨hI, trivial, .of_same (.of_eq rfl) rfl⟩
  | updating sale =>
    simp only [step] at hst
    split at hst
    · rename_i hfree
      split at hst
      · cases hst
        exact ⟨hI, trivial, .of_same locksKept_release rfl⟩
      · rename_i row hrow
        cases hst
        exact ⟨hI, ⟨acquire_lock_self, row, hrow, hK sale row rfl hrow⟩,
          .of_same (locksKept_acquire hfree) rfl⟩
    · cases hst
  | committing now view =>
    obtain ⟨hlock, hissued⟩ := hQ
    cases hst
    obtain ⟨row, hrow, hstatus⟩ := hissued
    have hsettled : (s.db.settle c now).SettledRow c.invoiceId := by
      refine ⟨c.outcome.update now row, ?_, ?_⟩
      · rw [find?_settle, if_pos rfl, hrow]
        rfl
      · rw [Outcome.update_status]
        cases c.outcome <;> decide
    refine ⟨settle_dates ⟨row, hrow, hstatus⟩ hI, hsettled, locksKept_commit, fun id => ?_⟩
    by_cases hid : id = c.invoiceId
    · subst hid
      exact .inr ⟨hlock, ⟨row, hrow, hstatus⟩, hsettled⟩
    · exact .inl ((find?_settle c now s.db id).trans (if_neg hid))
  | finished r => cases hst

/-- The outline of invoices. -/
theorem outcomes :
    Outline settlements StillIssued (fun s => ∀ i ∈ s.db.salesInvoices.rows, i.DatesOk)
      (fun pid call s => SettlementCall.Holds pid call s) Settles where
  own P pid fails s t hK hI hQ hst := by
    simp only [settlements] at hst
    split at hst
    · cases hst
    · cases hst
    · rename_i c st _ hcall
      split at hst
      · cases hst
        exact ⟨hI, trivial, .of_same locksKept_release rfl⟩
      · rename_i hfails
        obtain ⟨⟨s', st'⟩, hstep, hres⟩ := Option.map_eq_some_iff.1 hst
        cases hres
        rw [hcall] at hQ
        exact SettlementState.step_holds hI hQ
          (fun sale row heq hrow => hK (by simpa using hfails) c sale row (heq ▸ hcall) hrow) hstep
  stable _ _ _ _ _ hne _ _ hG hQ := hQ.stable hne hG
  env P x _ hI := by
    have hsame := x.invoices P.shared.db
    refine ⟨?_, fun pid call hQ => hQ.stable (Nat.succ_ne_self pid) (.of_same (.of_eq rfl) hsame)⟩
    simp only [settlements, autocommit_db, hsame]
    exact hI

/-! ## The result -/

theorem SettlementStarts.annotated (h : SettlementStarts P) :
    Annotated (fun s => ∀ i ∈ s.db.salesInvoices.rows, i.DatesOk)
      (fun pid call s => SettlementCall.Holds pid call s) P := by
  refine ⟨h.dates, fun pid => ?_⟩
  cases hcall : P.threads pid with
  | none => trivial
  | some call =>
    obtain ⟨c, st⟩ := call
    obtain rfl := h.fresh pid c st hcall
    trivial

/-- A call that succeeded has left its invoice settled. -/
theorem settled_of_succeeded {call : SettlementCall} (hQ : call.Holds pid s)
    (h : call.Succeeded id) : s.db.SettledRow id := by
  match call with
  | some (c, .finished (.ok v)) =>
    obtain rfl : c.invoiceId = id := h
    exact hQ
  | some (c, .finished (.error e)) => exact h.elim
  | some (c, .reading) => exact h.elim
  | some (c, .updating sale) => exact h.elim
  | some (c, .committing now view) => exact h.elim
  | none => exact h.elim

/-- A call succeeds at its commit, on an invoice that was `ISSUED`. -/
theorem issued_of_success {fails : Bool} {call t : SettlementCall} (hQ : call.Holds pid s)
    (hst : settlements.thread pid fails s call = some (s', t)) (h : t.Succeeded id) :
    s.db.IssuedRow id := by
  simp only [settlements] at hst
  split at hst
  · cases hst
  · cases hst
  · rename_i c st _
    split at hst
    · cases hst
      exact h.elim
    · obtain ⟨⟨s₁, st₁⟩, hstep, hres⟩ := Option.map_eq_some_iff.1 hst
      cases hres
      cases st with
      | committing now view =>
        cases hstep
        obtain rfl : c.invoiceId = id := h
        exact hQ.2
      | reading =>
        simp only [SettlementState.step] at hstep
        split at hstep
        · cases hstep
          exact h.elim
        · split at hstep <;> cases hstep <;> exact h.elim
      | updating sale =>
        simp only [SettlementState.step] at hstep
        split at hstep
        · split at hstep <;> cases hstep <;> exact h.elim
        · cases hstep
      | finished r => cases hstep

/-- In every run in which no update meets a settled invoice, each invoice has one final outcome. -/
theorem one_outcome {P₀ : SettlementPool} (h0 : SettlementStarts P₀) :
    OneOutcome StillIssued P₀ where
  once P id pid pid' hr hpid hpid' := by
    refine hr.exclusive (SettlementCall.Succeeded id) ?_ ?_ pid pid' hpid hpid'
    · intro i hi
      cases hcall : P₀.threads i with
      | none =>
        rw [hcall] at hi
        exact hi
      | some call =>
        obtain ⟨c, st⟩ := call
        obtain rfl := h0.fresh i c st hcall
        rw [hcall] at hi
        exact hi
    · intro P pid fails s t hP hK hth ht
      right
      have hQ := (outcomes.sound h0.annotated hP).2
      have hissued := issued_of_success (hQ pid) hth ht
      exact fun j hj => not_issued_of_settled (settled_of_succeeded (hQ j) hj) hissued
  terminal P P' id i hr hr' hi hfinal := by
    refine hr'.inv (fun P' => ∃ i', P'.shared.db.salesInvoices.find? id = some i' ∧
      i'.status = i.status) ⟨i, hi, rfl⟩ ?_
    rintro P₁ a P₂ hr₁ ⟨i', hi', hstatus⟩ hK hst
    cases a with
    | env x =>
      obtain rfl := Machine.env_eq_some.1 hst
      exact ⟨i', (congrArg (·.find? id) (x.invoices P₁.shared.db)).trans hi', hstatus⟩
    | run pid fails =>
      have hstep := outcomes.guarantee h0.annotated (hr.trans hr₁) hK hst
      rcases hstep.2 id with hsame | ⟨-, hissued, -⟩
      · exact ⟨i', hsame.trans hi', hstatus⟩
      · refine absurd hissued (not_issued_of_settled ⟨i', hi', ?_⟩)
        rw [hstatus]
        rcases hfinal with h | h <;> rw [h] <;> decide
  dates P id i hr hi := (outcomes.sound h0.annotated hr).1 i (Table.mem_of_find? hi)

/-- One issued invoice, and two calls about it. -/
def outcomePool (first second : Outcome) : SettlementPool where
  shared :=
    { db :=
        { salesInvoices := Table.empty.insert
            { id := 7, enterpriseId := 1, saleId := 6, number := "FACT-1", issuedAt := 0,
              legalMentions := "", idempotencyKey := none, createdAt := 0, updatedAt := 0 } }
      lock := fun _ => none }
  threads
    | 0 => some (⟨first, 1, 7⟩, .reading)
    | 1 => some (⟨second, 1, 7⟩, .reading)
    | _ => none

theorem outcomePool_starts (first second : Outcome) :
    SettlementStarts (outcomePool first second) where
  fresh pid c st h := by
    match pid with
    | 0 => cases h; rfl
    | 1 => cases h; rfl
    | _ + 2 => cases h
  dates i hi := by
    rw [List.mem_singleton.1 hi]
    exact ⟨by simp, by simp⟩

theorem one_outcome_sample : OneOutcome StillIssued (outcomePool .paid .void) :=
  one_outcome (outcomePool_starts .paid .void)

/-- Both calls read `ISSUED`; `markPaid` commits, then `void` takes the paid invoice. -/
theorem paid_then_voided :
    SettlementStarts (outcomePool .paid .void) ∧ ¬ OneOutcome Always (outcomePool .paid .void) := by
  refine ⟨outcomePool_starts .paid .void, fun h => ?_⟩
  have hrun : (exec settlements.system (fun _ _ => true) (outcomePool .paid .void)
      [.run 0 false, .run 1 false, .run 0 false, .run 0 false, .run 1 false, .run 1 false]).map
        (fun P => (P.shared.db.salesInvoices.find? 7).map fun i => (i.status, i.paidAt)) =
      some (some (.void, some 0)) := by decide +kernel
  obtain ⟨P, hP, hres⟩ := Option.map_eq_some_iff.1 hrun
  obtain ⟨i, hi, hinvoice⟩ := Option.map_eq_some_iff.1 hres
  obtain ⟨hstatus, hpaid⟩ := Prod.mk.inj hinvoice
  have hdates := (h.dates P 7 i (Reach.of_exec _ (fun _ _ _ => trivial) _ hP) hi).paid
  rw [hstatus, hpaid] at hdates
  exact absurd hdates (by decide)

end Gescom.Erp
