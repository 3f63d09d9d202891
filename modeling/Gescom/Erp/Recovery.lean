import Gescom.Erp.Idempotency
import Gescom.Erp.Server

/-!
# `InvoicingRepository.create` after a failure (`invoicing.repository.ts:182`)

Whatever request error the first transaction ends with, the `catch` asks the database what happened:
it looks the key up, then the sale, each in a transaction of its own. `settles` gives the runs in
which the answer is the one of the database (`Db.answer`), and for an invoiced sale the one about its
invoice: those where nobody commits an invoice with the key of the call between its two lookups, and
the key of a call whose sale is invoiced is not the one of another invoice. `replay_refused` is a run
outside it.
-/

namespace Gescom.Erp

open ReadCommitted Transition

/-- What an attempt throws. -/
inductive Failure where
  /-- `PrismaClientKnownRequestError`. -/
  | known (code : String)
  /-- `PrismaClientUnknownRequestError`. -/
  | unknown (message : String)
  /-- `PrismaClientValidationError`. -/
  | validation (message : String)
  /-- An exception of the code. -/
  | business (e : ApiError)
  deriving DecidableEq, Repr

/-- The two classes the `catch` looks at. -/
def Failure.isRequest : Failure → Bool
  | known _ | unknown _ => true
  | validation _ | business _ => false

def PrismaCode.text : PrismaCode → String
  | .p2002 => "P2002"
  | .p2025 => "P2025"
  | .p2034 => "P2034"

/-- What a statement of the attempt throws by itself. -/
def Failure.of : ApiError → Failure
  | .prisma code => known (PrismaCode.text code)
  | .internal message => unknown message
  | e => business e

abbrev Invoicing := Create CreateSalesInvoiceInput

/-- The lookup by key, which an empty `Idempotency-Key` skips. -/
def Db.invoiceByKey (db : Db) (c : Invoicing) : Option SalesInvoice :=
  (truthy c.idempotencyKey).bind (invoicingRepository.findFirst db c.enterpriseId)

abbrev InvoiceResult := CreateResult (Option SalesInvoiceView)

/-- `failed` is what the first transaction ended with, if it did not commit. -/
inductive IssueState where
  | running (st : CreateState InvoiceFound SalesInvoice (Option SalesInvoiceView))
  | recoveringByKey (failed : Failure)
  | recoveringBySale (failed : Failure)
  | finished (failed : Option Failure) (r : Except Failure InvoiceResult)

/-- The `catch`. -/
def caught (c : Invoicing) (e : Failure) : IssueState :=
  if e.isRequest then
    if (truthy c.idempotencyKey).isSome then .recoveringByKey e else .recoveringBySale e
  else .finished (some e) (.error e)

/-- A statement of the first transaction has been executed. -/
def settle (c : Invoicing) :
    CreateState InvoiceFound SalesInvoice (Option SalesInvoiceView) → IssueState
  | .finished (.ok r) => .finished none (.ok r)
  | .finished (.error e) | .recoveringByKey e | .recoveringBySale e => caught c (.of e)
  | st => .running st

def IssueState.step (c : Invoicing) (pid : Nat) (draw : Draw) (s : ErpStore) :
    IssueState → Option (ErpStore × IssueState)
  | running st =>
    (invoicingRepository.step c pid draw s st).map fun r => (r.1, settle c r.2)
  | recoveringByKey failed =>
    match s.db.invoiceByKey c with
    | some existing => some (s, finished (some failed) (.ok ⟨s.db.invoiceView existing, false⟩))
    | none => some (s, recoveringBySale failed)
  | recoveringBySale failed =>
    if (s.db.invoiceOf c.input.saleId).isSome then
      some (s, finished (some failed) (.error (.business alreadyInvoiced)))
    else some (s, finished (some failed) (.error failed))
  | finished _ _ => none

/-- What the outside feeds a statement of the first transaction: the values an insert draws, or its
failure. A commit may also fail after it took effect. -/
inductive IssueInput where
  | proceed (draw : Draw)
  | fail (e : Failure)
  | lost (e : Failure)

abbrev IssueCall := Option (Invoicing × IssueState)

def issueThread (pid : Nat) (i : IssueInput) (s : ErpStore) :
    IssueCall → Option (ErpStore × IssueCall)
  | none => none
  | some (c, st) =>
    match i, st with
    | .proceed draw, st => (st.step c pid draw s).map fun r => (r.1, some (c, r.2))
    | .fail e, .running _ => some (s.release pid, some (c, caught c e))
    | .lost e, .running (.committing row sequence _) =>
      some (s.commit pid (invoicingRepository.commit c.enterpriseId row sequence),
        some (c, caught c e))
    | _, _ => none

abbrev IssuePool := Pool ErpStore IssueCall

/-- Any number of `create` calls. -/
def issues : Machine ErpStore IssueCall IssueInput (Elsewhere invoicingRepository) where
  thread pid i s call := issueThread pid i s call
  env e s := s.autocommit e.apply

/-! ## What must hold -/

/-- Calls for one confirmed sale of one enterprise, with any keys. -/
structure IssueStarts (e saleId : Uuid) (P : IssuePool) : Prop where
  calls : ∀ pid c st, P.threads pid = some (c, st) →
    st = .running .checking ∧ c.enterpriseId = e ∧ c.input.saleId = saleId
  sale : ∃ sale, P.shared.db.sales.find? saleId = some sale ∧ sale.enterpriseId = e ∧
    sale.status = .confirmed
  integrity : invoicingRepository.Integrity P.shared

/-- The invoice carries the key of the call. -/
def Invoicing.Keyed (c : Invoicing) (i : SalesInvoice) : Prop :=
  i.enterpriseId = c.enterpriseId ∧ ∃ k, truthy c.idempotencyKey = some k ∧ i.idempotencyKey = some k

instance (c : Invoicing) (i : SalesInvoice) : Decidable (c.Keyed i) :=
  decidable_of_iff (i.enterpriseId = c.enterpriseId ∧ (truthy c.idempotencyKey).isSome ∧
    i.idempotencyKey = truthy c.idempotencyKey) <| by
      unfold Invoicing.Keyed
      cases truthy c.idempotencyKey <;> simp

/-- The answer of one moment after a request error: the invoice that carries the key of the call,
else the conflict with the one of its sale, else the error itself. -/
def Db.answer (db : Db) (c : Invoicing) (e : Failure) : Except Failure InvoiceResult :=
  match db.invoiceByKey c, db.invoiceOf c.input.saleId with
  | some i, _ => .ok ⟨db.invoiceView i, false⟩
  | none, some _ => .error (.business alreadyInvoiced)
  | none, none => .error e

/-- In the runs whose steps meet `K`, every failed call settles to the right answer. -/
structure Recovers (K : IssuePool → Act IssueInput (Elsewhere invoicingRepository) → Prop)
    (P₀ : IssuePool) : Prop where
  one : ∀ P, Reach issues.system K P₀ P → ∀ i ∈ P.shared.db.salesInvoices.rows,
    ∀ j ∈ P.shared.db.salesInvoices.rows, i.saleId = j.saleId → i = j
  request : ∀ P pid x P' c e r, Reach issues.system K P₀ P → K P (.run pid x) →
    issues.system.step P (.run pid x) = some P' →
    P'.threads pid = some (c, .finished (some e) r) → e.isRequest = true →
    r = P'.shared.db.answer c e
  /-- The invoice of the sale for the call that carries its key, the conflict for any other. -/
  invoiced : ∀ P pid x P' c e r i, Reach issues.system K P₀ P → K P (.run pid x) →
    issues.system.step P (.run pid x) = some P' →
    P'.threads pid = some (c, .finished (some e) r) → e.isRequest = true →
    P'.shared.db.invoiceOf c.input.saleId = some i →
    r = if c.Keyed i then .ok ⟨P'.shared.db.invoiceView i, false⟩
      else .error (.business alreadyInvoiced)
  /-- The error comes back as it was where no invoice has the key or the sale. -/
  rethrown : ∀ P pid x P' c e r, Reach issues.system K P₀ P → K P (.run pid x) →
    issues.system.step P (.run pid x) = some P' →
    P'.threads pid = some (c, .finished (some e) r) → e.isRequest = true →
    (r = .error e ↔ (∀ i ∈ P'.shared.db.salesInvoices.rows, ¬ c.Keyed i) ∧
      P'.shared.db.invoiceOf c.input.saleId = none)
  others : ∀ P pid c e r, Reach issues.system K P₀ P →
    P.threads pid = some (c, .finished (some e) r) → e.isRequest = false → r = .error e

/-- No invoice with the key of a call is committed between its two lookups, and what its key finds is
the invoice of the sale, where that has one. -/
structure RecoversApart (P : IssuePool) (pid : Nat) (x : IssueInput) : Prop where
  commits : ∀ c row n view, P.threads pid = some (c, .running (.committing row n view)) →
    (∀ e, x ≠ .fail e) → ∀ pid' c' e, P.threads pid' = some (c', .recoveringBySale e) →
      ¬ c'.Keyed row
  key : ∀ c e i j, P.threads pid = some (c, .recoveringByKey e) →
    P.shared.db.invoiceByKey c = some i → P.shared.db.invoiceOf c.input.saleId = some j → i = j

def Apart (P : IssuePool) : Act IssueInput (Elsewhere invoicingRepository) → Prop
  | .run pid x => RecoversApart P pid x
  | .env _ => True

/-! ## One step -/

/-- What one step does: a statement of the first transaction, its end by an error, or a lookup. -/
inductive IssueStep (pid : Nat) (s : ErpStore) :
    IssueInput → Invoicing → IssueState → ErpStore → IssueState → Prop
  | statement {c st s' st'} (draw : Draw)
      (h : invoicingRepository.step c pid draw s st = some (s', st')) :
      IssueStep pid s (.proceed draw) c (.running st) s' (settle c st')
  | throws {c st} (e : Failure) : IssueStep pid s (.fail e) c (.running st) (s.release pid) (caught c e)
  | loses {c row n view} (e : Failure) :
      IssueStep pid s (.lost e) c (.running (.committing row n view))
        (s.commit pid (invoicingRepository.commit c.enterpriseId row n)) (caught c e)
  | byKey {c failed draw existing}
      (h : s.db.invoiceByKey c = some existing) :
      IssueStep pid s (.proceed draw) c (.recoveringByKey failed) s
        (.finished (some failed) (.ok ⟨s.db.invoiceView existing, false⟩))
  | noKey {c failed draw} (h : s.db.invoiceByKey c = none) :
      IssueStep pid s (.proceed draw) c (.recoveringByKey failed) s (.recoveringBySale failed)
  | bySale {c failed draw} (h : (s.db.invoiceOf c.input.saleId).isSome = true) :
      IssueStep pid s (.proceed draw) c (.recoveringBySale failed) s
        (.finished (some failed) (.error (.business alreadyInvoiced)))
  | noSale {c failed draw} (h : s.db.invoiceOf c.input.saleId = none) :
      IssueStep pid s (.proceed draw) c (.recoveringBySale failed) s
        (.finished (some failed) (.error failed))

section
variable {c : Invoicing} {e : Failure} {pid : Nat} {s s' : ErpStore} {x : IssueInput}
  {call t : IssueCall} {st : CreateState InvoiceFound SalesInvoice (Option SalesInvoiceView)}
  {P P' P₀ : IssuePool} {db : Db}

/-- The call as one of `creates`, as long as its first transaction is open. -/
def IssueCall.inner :
    IssueCall → CreateCall CreateSalesInvoiceInput InvoiceFound SalesInvoice (Option SalesInvoiceView)
  | some (c, .running st) => some (c, st)
  | _ => none

/-- Where a throw leads. -/
theorem caught_cases (c : Invoicing) (e : Failure) :
    (caught c e = .recoveringByKey e ∧ e.isRequest = true) ∨
      (caught c e = .recoveringBySale e ∧ e.isRequest = true ∧ truthy c.idempotencyKey = none) ∨
      caught c e = .finished (some e) (.error e) ∧ e.isRequest = false := by
  unfold caught
  cases he : e.isRequest with
  | false => exact .inr (.inr ⟨by simp, rfl⟩)
  | true =>
    cases hkey : truthy c.idempotencyKey with
    | none => exact .inr (.inl ⟨by simp, rfl, rfl⟩)
    | some k => exact .inl ⟨by simp, rfl⟩

/-- Where a statement of the first transaction leads. -/
theorem settle_cases (c : Invoicing)
    (st : CreateState InvoiceFound SalesInvoice (Option SalesInvoiceView)) :
    settle c st = .running st ∨ (∃ r, settle c st = .finished none (.ok r)) ∨
      ∃ e, settle c st = caught c e := by
  cases st with
  | finished r =>
    cases r with
    | ok r => exact .inr (.inl ⟨r, rfl⟩)
    | error e => exact .inr (.inr ⟨_, rfl⟩)
  | recoveringByKey e => exact .inr (.inr ⟨_, rfl⟩)
  | recoveringBySale e => exact .inr (.inr ⟨_, rfl⟩)
  | _ => exact .inl rfl

theorem inner_caught (c : Invoicing) (e : Failure) :
    IssueCall.inner (some (c, caught c e)) = none := by
  rcases caught_cases c e with ⟨h, -⟩ | ⟨h, -⟩ | ⟨h, -⟩ <;> rw [h] <;> rfl

theorem issue_step (hst : issueThread pid x s call = some (s', t)) :
    ∃ c st st', call = some (c, st) ∧ t = some (c, st') ∧ IssueStep pid s x c st s' st' := by
  cases call with
  | none => cases hst
  | some call =>
    obtain ⟨c, st⟩ := call
    cases x with
    | proceed draw =>
      obtain ⟨⟨s₁, st₁⟩, hstep, hres⟩ := Option.map_eq_some_iff.1 hst
      cases hres
      refine ⟨c, st, st₁, rfl, rfl, ?_⟩
      cases st with
      | running st =>
        obtain ⟨⟨s₂, st₂⟩, hinner, hres⟩ := Option.map_eq_some_iff.1 hstep
        cases hres
        exact .statement draw hinner
      | recoveringByKey failed =>
        simp only [IssueState.step] at hstep
        split at hstep <;> cases hstep
        · rename_i hfound
          exact .byKey hfound
        · rename_i hnone
          exact .noKey hnone
      | recoveringBySale failed =>
        simp only [IssueState.step] at hstep
        split at hstep <;> cases hstep
        · rename_i hsome
          exact .bySale hsome
        · rename_i hnone
          exact .noSale (by simpa using hnone)
      | finished failed r => cases hstep
    | fail e =>
      cases st with
      | running st =>
        cases hst
        exact ⟨c, _, _, rfl, rfl, .throws e⟩
      | _ => cases hst
    | lost e =>
      cases st with
      | running st =>
        cases st with
        | committing row n view =>
          cases hst
          exact ⟨c, _, _, rfl, rfl, .loses e⟩
        | _ => cases hst
      | _ => cases hst

/-! ## Indexes -/

/-- What a call asserts while its transaction is open. -/
def IssueReserves (pid : Nat) (call : IssueCall) (s : ErpStore) : Prop :=
  invoicingRepository.Reserves pid call.inner s

theorem issueStep_reserves {st st' : IssueState} (hI : invoicingRepository.Integrity s)
    (hQ : IssueReserves pid (some (c, st)) s) (h : IssueStep pid s x c st s' st') :
    invoicingRepository.Integrity s' ∧ IssueReserves pid (some (c, st')) s' ∧
      invoicingRepository.Commits pid s s' := by
  have thrown : ∀ e s', IssueReserves pid (some (c, caught c e)) s' := by
    intro e s'
    unfold IssueReserves
    rw [inner_caught]
    trivial
  cases h with
  | statement draw hstep =>
    obtain ⟨hI', hQ', hG⟩ :=
      (Repository.step_effect hstep).reserves (rowsOk .invoice) hI hQ
    refine ⟨hI', ?_, hG⟩
    rename_i st'
    rcases settle_cases c st' with h | ⟨r, h⟩ | ⟨e, h⟩
    · rw [h]
      exact hQ'
    · rw [h]
      trivial
    · rw [h]
      exact thrown e s'
  | throws e => exact ⟨hI, thrown e _, .of_db locksKept_release rfl⟩
  | loses e =>
    rename_i row n view
    have heffect : invoicingRepository.Effect c pid s (.committing row n view) _ _ :=
      .committed row n view rfl
    obtain ⟨hI', -, hG⟩ := heffect.reserves (rowsOk .invoice) hI hQ
    exact ⟨hI', thrown e _, hG⟩
  | byKey h => exact ⟨hI, trivial, .of_db (.of_eq rfl) rfl⟩
  | noKey h => exact ⟨hI, trivial, .of_db (.of_eq rfl) rfl⟩
  | bySale h => exact ⟨hI, trivial, .of_db (.of_eq rfl) rfl⟩
  | noSale h => exact ⟨hI, trivial, .of_db (.of_eq rfl) rfl⟩

theorem issuing : Outline issues Always invoicingRepository.Integrity IssueReserves
    invoicingRepository.Commits where
  own P pid i s t _ hI hQ hst := by
    obtain ⟨c, st, st', hcall, rfl, hstep⟩ := issue_step hst
    rw [hcall] at hQ
    exact issueStep_reserves hI hQ hstep
  stable _ _ _ _ _ hne _ _ hG hQ := Repository.Reserves.stable hne hG hQ
  env P x _ hI := by
    obtain ⟨hI', hQ'⟩ := (Repository.integrity (rowsOk .invoice)).env
      ⟨P.shared, fun pid => (P.threads pid).inner⟩ x trivial hI
    exact ⟨hI', fun pid call hQ => hQ' pid call.inner hQ⟩

/-! ## The table -/

/-- A call without a key has no invoice of its own. -/
theorem not_keyed (h : truthy c.idempotencyKey = none) (i : SalesInvoice) : ¬ c.Keyed i := by
  rintro ⟨-, k, hk, -⟩
  rw [h] at hk
  cases hk

/-- The second lookup of a throw is the first one only for a call without a key. -/
theorem keyless_of_caught {e' : Failure} (h : caught c e = .recoveringBySale e') :
    truthy c.idempotencyKey = none := by
  rcases caught_cases c e with ⟨hc, -⟩ | ⟨-, -, hkey⟩ | ⟨hc, -⟩
  · rw [hc] at h
    cases h
  · exact hkey
  · rw [hc] at h
    cases h

theorem keyless_of_settle (h : settle c st = .recoveringBySale e) :
    truthy c.idempotencyKey = none := by
  rcases settle_cases c st with hs | ⟨r, hs⟩ | ⟨e', hs⟩
  · rw [hs] at h
    cases h
  · rw [hs] at h
    cases h
  · exact keyless_of_caught (hs.symm.trans h)

/-- The lookup by key finds nothing exactly where no row carries the key. -/
theorem invoiceByKey_none (h : db.invoiceByKey c = none) :
    ∀ i ∈ db.salesInvoices.rows, ¬ c.Keyed i := by
  rintro i hi ⟨howner, k, hk, hkey⟩
  rw [Db.invoiceByKey, hk, Option.bind_some, Repository.findFirst, List.find?_eq_none] at h
  exact h i hi (by simpa using ⟨howner, hkey⟩)

theorem invoiceByKey_some {i : SalesInvoice} (h : db.invoiceByKey c = some i) :
    i ∈ db.salesInvoices.rows ∧ c.Keyed i := by
  obtain ⟨k, hk, hfound⟩ := Option.bind_eq_some_iff.1 h
  have hkeyed := List.find?_some hfound
  exact ⟨List.mem_of_find?_eq_some hfound, (of_decide_eq_true hkeyed).1, k, hk,
    (of_decide_eq_true hkeyed).2⟩

theorem invoiceOf_some {i : SalesInvoice} {saleId : Uuid} (h : db.invoiceOf saleId = some i) :
    i ∈ db.salesInvoices.rows ∧ i.saleId = saleId :=
  ⟨List.mem_of_find?_eq_some h, by simpa using List.find?_some h⟩

theorem rows_of_pending {row : SalesInvoice} {n : Nat} {e' : Uuid}
    (h : invoicingRepository.Pending e' row n pid s) :
    (invoicingRepository.commit e' row n s.db).salesInvoices.rows =
      s.db.salesInvoices.rows ++ [row] :=
  Repository.rows_commit (R := invoicingRepository) h.accepted e' n

/-- Rows are only added, by the calls at their commit. -/
theorem issueStep_rows {st st' : IssueState} (hQ : IssueReserves pid (some (c, st)) s)
    (h : IssueStep pid s x c st s' st') :
    s'.db.salesInvoices.rows = s.db.salesInvoices.rows ∨
      ∃ row n view, st = .running (.committing row n view) ∧ (∀ e, x ≠ .fail e) ∧
        s'.db.salesInvoices.rows = s.db.salesInvoices.rows ++ [row] := by
  cases h with
  | statement draw hstep =>
    cases Repository.step_effect hstep with
    | silent _ _ hdb => exact .inl (by rw [hdb])
    | unnumbered => exact .inl rfl
    | numbered => exact .inl rfl
    | inserted => exact .inl rfl
    | committed row n view stmt =>
      subst stmt
      exact .inr ⟨row, n, view, rfl, by simp, rows_of_pending hQ⟩
  | loses e => exact .inr ⟨_, _, _, rfl, by simp, rows_of_pending hQ⟩
  | _ => exact .inl rfl

/-! ## Between the two lookups -/

/-- A call that looks the sale up has no invoice with its key. -/
def Unkeyed (P : IssuePool) : Prop :=
  ∀ pid c e, P.threads pid = some (c, .recoveringBySale e) →
    ∀ i ∈ P.shared.db.salesInvoices.rows, ¬ c.Keyed i

theorem issueStep_unkeyed {st : IssueState}
    (h : IssueStep pid s x c st s' (.recoveringBySale e)) :
    ∀ i ∈ s'.db.salesInvoices.rows, ¬ c.Keyed i := by
  generalize hst' : IssueState.recoveringBySale e = st' at h
  cases h with
  | statement draw hstep => exact fun i _ => not_keyed (keyless_of_settle hst'.symm) i
  | throws e' => exact fun i _ => not_keyed (keyless_of_caught hst'.symm) i
  | loses e' => exact fun i _ => not_keyed (keyless_of_caught hst'.symm) i
  | noKey hnone => exact invoiceByKey_none hnone
  | byKey hfound => cases hst'
  | bySale hsome => cases hst'
  | noSale hnone => cases hst'

theorem IssueStarts.annotated {e saleId : Uuid} (h0 : IssueStarts e saleId P₀) :
    Annotated invoicingRepository.Integrity IssueReserves P₀ := by
  refine ⟨h0.integrity, fun pid => ?_⟩
  cases hcall : P₀.threads pid with
  | none => trivial
  | some call =>
    obtain ⟨c, st⟩ := call
    obtain ⟨rfl, -, -⟩ := h0.calls pid c st hcall
    trivial

theorem IssueStarts.unkeyed {e saleId : Uuid} (h0 : IssueStarts e saleId P₀)
    (hr : Reach issues.system Apart P₀ P) : Unkeyed P := by
  refine hr.inv Unkeyed ?_ ?_
  · intro pid c e hcall
    obtain ⟨hst, -, -⟩ := h0.calls pid c _ hcall
    cases hst
  · intro P a P' hP ih hK hst pid c e hcall
    cases a with
    | env y =>
      obtain rfl := Machine.env_eq_some.1 hst
      have hsame : (issues.env y P.shared).db.salesInvoices = P.shared.db.salesInvoices :=
        y.table P.shared.db
      simp only [hsame]
      exact ih pid c e hcall
    | run pid' x =>
      obtain ⟨s, t, hth, rfl⟩ := Machine.run_eq_some.1 hst
      obtain ⟨c', st, st', hcall', rfl, hstep⟩ := issue_step hth
      by_cases hpid : pid = pid'
      · subst hpid
        simp only [Function.update_self, Option.some.injEq, Prod.mk.injEq] at hcall
        obtain ⟨rfl, rfl⟩ := hcall
        exact issueStep_unkeyed hstep
      · simp only [Function.update_of_ne hpid] at hcall
        have hQ := (issuing.sound h0.annotated hP.always).2 pid'
        rw [hcall'] at hQ
        rcases issueStep_rows hQ hstep with hrows | ⟨row, n, view, rfl, hx, hrows⟩
        · rw [hrows]
          exact ih pid c e hcall
        · intro i hi
          rw [hrows] at hi
          rcases List.mem_append.1 hi with hi | hi
          · exact ih pid c e hcall i hi
          · rw [List.mem_singleton.1 hi]
            exact hK.commits c' row n view hcall' hx pid c e hcall

/-! ## The answers -/

/-- The index on `saleId`. -/
theorem one_invoice (h : invoicingRepository.Integrity s) :
    ∀ i ∈ s.db.salesInvoices.rows, ∀ j ∈ s.db.salesInvoices.rows, i.saleId = j.saleId → i = j := by
  have hindexed : s.db.salesInvoices.rows.Pairwise fun i j => Repository.sameEntry i j = false := h.1
  have apart : ∀ {i j : SalesInvoice}, Repository.sameEntry i j = false → i.saleId ≠ j.saleId := by
    intro i j hij hsale
    simp [Repository.sameEntry, DocumentRow.saleId, hsale] at hij
  exact List.Pairwise.forall_of_forall_of_flip (R := fun i j => i.saleId = j.saleId → i = j)
    (fun i _ _ => rfl) (hindexed.imp fun hij hsale => absurd hsale (apart hij))
    (hindexed.imp fun hij hsale => absurd hsale.symm (apart hij))

theorem finished_of_caught {e' : Failure} {r : Except Failure InvoiceResult}
    (h : caught c e' = .finished (some e) r) : e.isRequest = false ∧ r = .error e := by
  rcases caught_cases c e' with ⟨hc, -⟩ | ⟨hc, -⟩ | ⟨hc, hfalse⟩
  · rw [hc] at h
    cases h
  · rw [hc] at h
    cases h
  · rw [hc] at h
    cases h
    exact ⟨hfalse, rfl⟩

theorem finished_of_settle {r : Except Failure InvoiceResult}
    (h : settle c st = .finished (some e) r) : e.isRequest = false ∧ r = .error e := by
  rcases settle_cases c st with hs | ⟨r', hs⟩ | ⟨e', hs⟩
  · rw [hs] at h
    cases h
  · rw [hs] at h
    cases h
  · exact finished_of_caught (hs.symm.trans h)

/-- The lookups are for request errors only, and the other errors come back. -/
def IssueState.Sorted : IssueState → Prop
  | recoveringByKey e | recoveringBySale e => e.isRequest = true
  | finished (some e) r => e.isRequest = false → r = .error e
  | _ => True

theorem caught_sorted (c : Invoicing) (e : Failure) : (caught c e).Sorted := by
  rcases caught_cases c e with ⟨h, he⟩ | ⟨h, he, -⟩ | ⟨h, -⟩
  · rw [h]
    exact he
  · rw [h]
    exact he
  · rw [h]
    exact fun _ => rfl

theorem issueStep_sorted {st st' : IssueState} (hst : st.Sorted)
    (h : IssueStep pid s x c st s' st') : st'.Sorted := by
  cases h with
  | statement draw hstep =>
    rename_i st₂
    rcases settle_cases c st₂ with hs | ⟨r, hs⟩ | ⟨e, hs⟩
    · rw [hs]
      trivial
    · rw [hs]
      trivial
    · rw [hs]
      exact caught_sorted c e
  | throws e => exact caught_sorted c e
  | loses e => exact caught_sorted c e
  | byKey hfound => exact fun hfalse => absurd (hfalse.symm.trans hst) (by simp)
  | noKey hnone => exact hst
  | bySale hsome => exact fun hfalse => absurd (hfalse.symm.trans hst) (by simp)
  | noSale hnone => exact fun _ => rfl

/-- A request error is settled by a lookup. -/
theorem settled_cases {st : IssueState} {r : Except Failure InvoiceResult}
    (h : IssueStep pid s x c st s' (.finished (some e) r)) (he : e.isRequest = true) : s' = s ∧
      ((∃ i, st = .recoveringByKey e ∧ s.db.invoiceByKey c = some i ∧
          r = .ok ⟨s.db.invoiceView i, false⟩) ∨
        (∃ i, st = .recoveringBySale e ∧ s.db.invoiceOf c.input.saleId = some i ∧
          r = .error (.business alreadyInvoiced)) ∨
        st = .recoveringBySale e ∧ s.db.invoiceOf c.input.saleId = none ∧ r = .error e) := by
  generalize hst' : IssueState.finished (some e) r = st' at h
  cases h with
  | statement draw hstep =>
    have hfalse := (finished_of_settle hst'.symm).1
    rw [he] at hfalse
    cases hfalse
  | throws e' =>
    have hfalse := (finished_of_caught hst'.symm).1
    rw [he] at hfalse
    cases hfalse
  | loses e' =>
    have hfalse := (finished_of_caught hst'.symm).1
    rw [he] at hfalse
    cases hfalse
  | byKey hfound =>
    cases hst'
    exact ⟨rfl, .inl ⟨_, rfl, hfound, rfl⟩⟩
  | noKey hnone => cases hst'
  | bySale hsome =>
    cases hst'
    obtain ⟨i, hi⟩ := Option.isSome_iff_exists.1 hsome
    exact ⟨rfl, .inr (.inl ⟨i, rfl, hi, rfl⟩)⟩
  | noSale hnone =>
    cases hst'
    exact ⟨rfl, .inr (.inr ⟨rfl, hnone, rfl⟩)⟩

/-- Where no invoice carries the key, the lookup finds none. -/
theorem invoiceByKey_of_none (h : ∀ i ∈ db.salesInvoices.rows, ¬ c.Keyed i) :
    db.invoiceByKey c = none := by
  cases hfound : db.invoiceByKey c with
  | none => rfl
  | some i =>
    obtain ⟨hi, hkeyed⟩ := invoiceByKey_some hfound
    exact absurd hkeyed (h i hi)

/-- The lookups in a run whose steps meet `Apart`. -/
theorem IssueStarts.settled {e' saleId : Uuid} (h0 : IssueStarts e' saleId P₀)
    (hr : Reach issues.system Apart P₀ P) (hK : Apart P (.run pid x))
    (hst : issues.system.step P (.run pid x) = some P') {r : Except Failure InvoiceResult}
    (hcall : P'.threads pid = some (c, .finished (some e) r)) (he : e.isRequest = true) :
    r = P'.shared.db.answer c e ∧ ∀ i j, P'.shared.db.invoiceByKey c = some i →
      P'.shared.db.invoiceOf c.input.saleId = some j → i = j := by
  obtain ⟨s, t, hth, rfl⟩ := Machine.run_eq_some.1 hst
  obtain ⟨c', st, st', hcall', rfl, hstep⟩ := issue_step hth
  simp only [Function.update_self, Option.some.injEq, Prod.mk.injEq] at hcall
  obtain ⟨rfl, rfl⟩ := hcall
  obtain ⟨rfl, hcases⟩ := settled_cases hstep he
  -- a call that looks the sale up has no invoice with its key, then as before
  have unkeyed : st = .recoveringBySale e → P.shared.db.invoiceByKey c' = none := by
    rintro rfl
    exact invoiceByKey_of_none (h0.unkeyed hr pid c' e hcall')
  rcases hcases with ⟨i, rfl, hfound, hres⟩ | ⟨i, hbySale, hfound, hres⟩ | ⟨hbySale, hnone, hres⟩
  · refine ⟨?_, fun i j => hK.key c' e i j hcall'⟩
    rw [hres, Db.answer, hfound]
  · refine ⟨?_, fun i j hi => ?_⟩
    · rw [hres, Db.answer, unkeyed hbySale, hfound]
    · cases (unkeyed hbySale).symm.trans hi
  · refine ⟨?_, fun i j hi => ?_⟩
    · rw [hres, Db.answer, unkeyed hbySale, hnone]
    · cases (unkeyed hbySale).symm.trans hi

/-- The error itself is the answer where the database has neither invoice. -/
theorem answer_eq_error (he : e.isRequest = true) : db.answer c e = .error e ↔
    (∀ i ∈ db.salesInvoices.rows, ¬ c.Keyed i) ∧ db.invoiceOf c.input.saleId = none := by
  unfold Db.answer
  cases hkey : db.invoiceByKey c with
  | some i =>
    obtain ⟨hi, hkeyed⟩ := invoiceByKey_some hkey
    refine ⟨fun h => ?_, fun h => absurd hkeyed (h.1 i hi)⟩
    cases h
  | none =>
    cases hsale : db.invoiceOf c.input.saleId with
    | some j =>
      refine ⟨fun h => ?_, fun h => ?_⟩
      · cases h
        cases he
      · cases h.2
    | none => exact ⟨fun _ => ⟨invoiceByKey_none hkey, rfl⟩, fun _ => rfl⟩

/-- The answer for an invoiced sale whose invoice is the only one that the key may find. -/
theorem answer_of_invoiced {i : SalesInvoice} (hof : db.invoiceOf c.input.saleId = some i)
    (hsame : ∀ i j, db.invoiceByKey c = some i → db.invoiceOf c.input.saleId = some j → i = j) :
    db.answer c e = if c.Keyed i then .ok ⟨db.invoiceView i, false⟩
      else .error (.business alreadyInvoiced) := by
  unfold Db.answer
  cases hkey : db.invoiceByKey c with
  | some j =>
    obtain rfl := hsame j i hkey hof
    rw [if_pos (invoiceByKey_some hkey).2]
  | none =>
    have hi : ¬ c.Keyed i := invoiceByKey_none hkey i (invoiceOf_some hof).1
    rw [hof, if_neg hi]

/-- Where no invoice gets in between the two lookups of a call with its key, and no key of a call
whose sale is invoiced is the one of another invoice, every failed call settles to what the database
says. -/
theorem settles {e saleId : Uuid} (h0 : IssueStarts e saleId P₀) : Recovers Apart P₀ where
  one P hr := one_invoice (issuing.sound h0.annotated hr.always).1
  request P pid x P' c e r hr hK hst hcall he := (h0.settled hr hK hst hcall he).1
  invoiced P pid x P' c e r i hr hK hst hcall he hof := by
    obtain ⟨hanswer, hsame⟩ := h0.settled hr hK hst hcall he
    exact hanswer.trans (answer_of_invoiced hof hsame)
  rethrown P pid x P' c e r hr hK hst hcall he := by
    obtain ⟨hanswer, -⟩ := h0.settled hr hK hst hcall he
    rw [hanswer]
    exact answer_eq_error he
  others P pid c e r hr hcall he := by
    have hsorted : ∀ pid c st, P.threads pid = some (c, st) → st.Sorted := by
      refine hr.inv (fun P => ∀ pid c st, P.threads pid = some (c, st) → st.Sorted) ?_ ?_
      · intro pid c st hcall
        rw [(h0.calls pid c st hcall).1]
        trivial
      · intro P a P' _ ih _ hst pid c st hcall
        rcases Machine.step_thread hst pid with hsame | ⟨x, s, t, -, hth, -, ht⟩
        · exact ih pid c st (hsame ▸ hcall)
        · obtain ⟨c', st₁, st₂, hcall', rfl, hstep⟩ := issue_step hth
          rw [ht] at hcall
          cases hcall
          exact issueStep_sorted (ih pid c st₁ hcall') hstep
    exact hsorted pid c _ hcall he

end

/-! ## Two calls for one sale -/

def confirmedSale : Document where
  id := 6
  enterpriseId := 1
  partyId := 2
  status := .confirmed
  date := 0
  notes := none
  confirmedAt := some 0
  idempotencyKey := none
  lines :=
    [{ id := 7, productId := 3, quantity := 2, unitPriceExcludingTax := 500,
       vatRateBasisPoints := 1800, positive := (by decide : (1 : Int) ≤ 2) }]
  createdAt := 0
  updatedAt := 0

def issueOf (key : Option String) : Invoicing := ⟨1, ⟨6⟩, key⟩

def issuePool (first second : Option String) : IssuePool where
  shared :=
    { db := { sampleDb with sales := Table.empty.insert confirmedSale }, lock := fun _ => none }
  threads
    | 0 => some (issueOf first, .running .checking)
    | 1 => some (issueOf second, .running .checking)
    | _ => none

theorem issuePool_starts (first second : Option String) :
    IssueStarts 1 6 (issuePool first second) where
  calls pid c st h := by
    match pid with
    | 0 => cases h; exact ⟨rfl, rfl, rfl⟩
    | 1 => cases h; exact ⟨rfl, rfl, rfl⟩
    | _ + 2 => cases h
  sale := ⟨confirmedSale, rfl, rfl, rfl⟩
  integrity := ⟨List.Pairwise.nil, fun series h => by cases h; exact fun e => rfl⟩

theorem settles_sample : Recovers Apart (issuePool (some "k") none) :=
  settles (issuePool_starts (some "k") none)

/-- What a call that failed has settled to. -/
def IssueCall.settled : IssueCall → Option (Invoicing × Failure × Except Failure InvoiceResult)
  | some (c, .finished (some e) r) => some (c, e, r)
  | _ => none

theorem finished_of_settled {call : IssueCall} {c : Invoicing} {e : Failure}
    {r : Except Failure InvoiceResult} (h : call.settled = some (c, e, r)) :
    call = some (c, .finished (some e) r) := by
  match call with
  | some (c, .finished (some e) r) =>
    cases h
    rfl
  | some (c, .finished none r) => cases h
  | some (c, .running st) => cases h
  | some (c, .recoveringByKey e) => cases h
  | some (c, .recoveringBySale e) => cases h
  | none => cases h

def proceed (pid n : Nat) (id : Uuid) :
    List (Act IssueInput (Elsewhere invoicingRepository)) :=
  List.replicate n (.run pid (.proceed ⟨id, fun i => id + 1 + i⟩))

/-- A replay waits for the counter that its first attempt holds, and its transaction times out. The
first attempt commits after the replay has looked the key up: the replay finds the invoice by its
sale, and refuses what carries its own key. -/
theorem replay_refused :
    IssueStarts 1 6 (issuePool (some "k") (some "k")) ∧
      ¬ Recovers Always (issuePool (some "k") (some "k")) := by
  refine ⟨issuePool_starts _ _, fun h => ?_⟩
  have hrun : ((exec issues.system (fun _ _ => true) (issuePool (some "k") (some "k"))
      (proceed 0 6 10 ++ proceed 1 5 20 ++ [.run 1 (.fail (.known "P2028"))] ++
        proceed 1 1 20 ++ proceed 0 2 10)).bind fun P =>
      (issues.system.step P (.run 1 (.proceed ⟨20, fun i => 21 + i⟩))).map fun P' =>
        ((P'.threads 1).settled, (P'.shared.db.invoiceOf 6).map fun i =>
          decide ((issueOf (some "k")).Keyed i))) =
      some (some (issueOf (some "k"), .known "P2028", .error (.business alreadyInvoiced)),
        some true) := by rfl
  obtain ⟨P, hP, hlast⟩ := Option.bind_eq_some_iff.1 hrun
  obtain ⟨P', hst, hres⟩ := Option.map_eq_some_iff.1 hlast
  obtain ⟨hsettled, hinvoice⟩ := Prod.mk.inj hres
  obtain ⟨i, hof, hkeyed⟩ := Option.map_eq_some_iff.1 hinvoice
  have hreach := Reach.of_exec (C := Always) _ (fun _ _ _ => trivial) _ hP
  have hright := h.invoiced P 1 _ P' _ _ _ i hreach trivial hst (finished_of_settled hsettled) rfl hof
  rw [if_pos (of_decide_eq_true hkeyed)] at hright
  cases hright

end Gescom.Erp
