import Gescom.Billing.Numbering
import Gescom.Erp.Numbering

/-!
# Legal numbers

The three numbered series: platform invoices, sales invoices and journal entries. Within an
enterprise they are gap-free in every run (`numbers_gapFree`). Across enterprises they are not
unique: a number keeps eight hexadecimal digits of the identifier only (`numbers_unique_iff`), while
the schema asks for a globally unique column.
-/

namespace Gescom

open ReadCommitted Transition

/-! ## The format -/

theorem invoiceNumber_inj (e e' : Uuid) (n n' : Nat) :
    Billing.invoiceNumber e n = Billing.invoiceNumber e' n' ↔
      slice8Upper e = slice8Upper e' ∧ n = n' := format_inj ..

/-! ## Within an enterprise -/

/-- Where the runs of the billing calls start: no call has begun, and the invoices are numbered. -/
def BillingStarts (P : Billing.BillingPool) : Prop := Billing.Starts P ∧ P.shared.db.GapFree

theorem BillingStarts.annotated {P : Billing.BillingPool} (h : BillingStarts P) :
    Annotated (fun s => s.db.GapFree) (fun pid c s => Billing.BillingCall.Reserves pid c s) P := by
  refine ⟨h.2, fun pid => ?_⟩
  have hfresh := h.1.fresh pid
  revert hfresh
  cases P.threads pid with
  | webhook st =>
    cases st with
    | received d => intro _; trivial
    | _ => intro hfresh; exact hfresh.elim
  | _ => intro _; trivial

theorem invoices_numbered (cfg : Billing.Config) :
    Numbering.Runs (Billing.billing cfg).system BillingStarts Billing.Invoice.enterpriseId
      Billing.Invoice.number Billing.invoiceNumber (fun P => P.shared.db.invoices)
      (fun P => P.shared.db.lastInvoiceNumber) where
  gapFree _ _ h0 hr := ((Billing.invoicing cfg).sound h0.annotated hr).1
  once _ _ h0 hr e := by
    refine ((Billing.invoicing cfg).sound h0.annotated hr).1.nodup (fun e n n' h => ?_) e
    exact ((invoiceNumber_inj e e n n').1 h).2
  inOrder P₀ P a P' h0 hr hst := by
    cases a with
    | env d =>
      obtain rfl := Machine.env_eq_some.1 hst
      exact .inl rfl
    | run pid i =>
      have hissues := (Billing.invoicing cfg).guarantee h0.annotated hr trivial hst
      rcases hissues.2 with ⟨hi, -⟩ | ⟨i, n, ⟨-, hn⟩, hnumber, hi, hlast⟩
      · exact .inl hi
      · refine .inr ⟨i, hi, by rw [hnumber, hn], ?_⟩
        rw [hlast, if_pos rfl, hn]

section
open Erp
variable {ι φ ρ ν : Type} [DocumentRow ρ]

/-- Where the runs of the `create` calls of a repository start. -/
def CreateStarts (R : Repository ι φ ρ ν) (P : CreatePool ι φ ρ ν) : Prop :=
  (∀ pid, NotBegun (P.threads pid)) ∧ R.Integrity P.shared

theorem CreateStarts.annotated {R : Repository ι φ ρ ν} {P : CreatePool ι φ ρ ν}
    (h : CreateStarts R P) : Annotated R.Integrity R.Reserves P := by
  refine ⟨h.2, fun pid => ?_⟩
  have hbegun := h.1 pid
  revert hbegun
  cases P.threads pid with
  | none => intro _; trivial
  | some call =>
    obtain ⟨c, st⟩ := call
    intro hbegun
    obtain rfl : st = .checking := hbegun
    trivial

theorem documents_numbered {R : Repository ι φ ρ ν} {series : Erp.Series} (hR : R.RowsOk)
    (hseries : R.series = some series) :
    Numbering.Runs R.creates.system (CreateStarts R) DocumentRow.enterpriseId DocumentRow.number
      (fun e n => some (series.number e n)) (fun P => (R.table P.shared.db).rows)
      (fun P => P.shared.db.lastNumber series) where
  gapFree _ _ h0 hr := ((Repository.integrity hR).sound h0.annotated hr).1.2 series hseries
  once _ _ h0 hr e := by
    have hgap := ((Repository.integrity hR).sound h0.annotated hr).1.2 series hseries
    refine Numbering.GapFree.nodup hgap (fun e n n' h => ?_) e
    exact ((Erp.seriesNumber_inj series e e n n').1 (Option.some.inj h)).2
  inOrder P₀ P a P' h0 hr hst := by
    cases a with
    | env x =>
      obtain rfl := Machine.env_eq_some.1 hst
      exact .inl (congrArg Table.rows (x.table P.shared.db))
    | run pid i =>
      have hcommits := (Repository.integrity hR).guarantee h0.annotated hr trivial hst
      rcases hcommits.2 with ⟨ht, -⟩ | ⟨e, row, n, hpending, hdb⟩
      · exact .inl (by rw [ht])
      · obtain ⟨-, hn⟩ := hpending.draws series hseries
        refine .inr ⟨row, ?_, ?_, ?_⟩
        · rw [hdb]
          exact Repository.rows_commit hpending.accepted e n
        · rw [hpending.number series hseries, hpending.owner, hn]
        · rw [hdb, Repository.lastNumber_commit hseries, hpending.owner, if_pos rfl, hn]

end

theorem invoicingRepository_rowsOk : Erp.invoicingRepository.RowsOk where
  owner _ _ _ _ _ := rfl
  key _ _ _ _ _ := rfl
  number series hseries _ _ _ _ _ := by
    cases hseries
    rfl

theorem journalRepository_rowsOk : Erp.journalRepository.RowsOk where
  owner _ _ _ _ _ := rfl
  key _ _ _ _ _ := rfl
  number series hseries _ _ _ _ _ := by
    cases hseries
    rfl

/-- The three series, in every run: successes, rejections, unique violations, replays, failed
statements and rollbacks in any interleaving. -/
theorem numbers_gapFree :
    (∀ cfg, Numbering.Runs (Billing.billing cfg).system BillingStarts Billing.Invoice.enterpriseId
      Billing.Invoice.number Billing.invoiceNumber (fun P => P.shared.db.invoices)
      (fun P => P.shared.db.lastInvoiceNumber)) ∧
    Numbering.Runs Erp.invoicingRepository.creates.system (CreateStarts Erp.invoicingRepository)
      Erp.SalesInvoice.enterpriseId (fun i => some i.number)
      (fun e n => some (Erp.Series.salesInvoice.number e n))
      (fun P => P.shared.db.salesInvoices.rows)
      (fun P => P.shared.db.lastNumber .salesInvoice) ∧
    Numbering.Runs Erp.journalRepository.creates.system (CreateStarts Erp.journalRepository)
      Erp.JournalEntry.enterpriseId (fun e => some e.number)
      (fun e n => some (Erp.Series.journalEntry.number e n))
      (fun P => P.shared.db.journalEntries.rows)
      (fun P => P.shared.db.lastNumber .journalEntry) :=
  ⟨invoices_numbered, documents_numbered invoicingRepository_rowsOk rfl,
    documents_numbered journalRepository_rowsOk rfl⟩

/-! ## Across enterprises -/

/-- The next number of `e` is taken by another enterprise exactly when one with the same eight
digits is ahead of it. -/
theorem taken_iff {ρ β : Type} {owner : ρ → Uuid} {number : ρ → β} {format : Uuid → Nat → β}
    {rows : List ρ} {last : Uuid → Nat}
    (hformat : ∀ e e' n n', format e n = format e' n' ↔ slice8Upper e = slice8Upper e' ∧ n = n')
    (h : Numbering.GapFree owner number format rows last) (e : Uuid) :
    (∃ r ∈ rows, owner r ≠ e ∧ number r = format e (last e + 1)) ↔
      ∃ e', e' ≠ e ∧ slice8Upper e' = slice8Upper e ∧ last e < last e' := by
  have hinj : ∀ k, Function.Injective (format k) := fun k n n' hn => ((hformat k k n n').1 hn).2
  constructor
  · rintro ⟨r, hr, howner, hnumber⟩
    have hmem : number r ∈ (Numbering.rowsOf owner rows (owner r)).map number :=
      List.mem_map.2 ⟨r, by simp [Numbering.rowsOf, hr], rfl⟩
    rw [h (owner r)] at hmem
    obtain ⟨n, hn, hsame⟩ := List.mem_map.1 hmem
    rw [hnumber] at hsame
    obtain ⟨hslice, rfl⟩ := (hformat _ _ _ _).1 hsame
    rw [List.mem_range'_1] at hn
    exact ⟨owner r, howner, hslice, by omega⟩
  · rintro ⟨e', hne, hslice, hlt⟩
    obtain ⟨r, hr, howner, hnumber⟩ := (h.mem_iff hinj (k := e') (n := last e + 1)).2 (by omega)
    refine ⟨r, hr, by rw [howner]; exact hne, ?_⟩
    rw [hnumber]
    exact (hformat _ _ _ _).2 ⟨hslice, rfl⟩

section
open Erp
variable {ι φ ρ ν : Type} [DocumentRow ρ]

/-- Before each insert of a numbered document. -/
theorem documentNumber_taken_iff {R : Repository ι φ ρ ν} {series : Erp.Series} (hR : R.RowsOk)
    (hseries : R.series = some series) {P₀ P : CreatePool ι φ ρ ν} (h0 : CreateStarts R P₀)
    (hr : Reach R.creates.system Always P₀ P) {pid : Nat} {c : Create ι} {found : φ} {n : Nat}
    (hcall : P.threads pid = some (c, .inserting found n)) :
    (∃ r ∈ (R.table P.shared.db).rows, DocumentRow.enterpriseId r ≠ c.enterpriseId ∧
      DocumentRow.number r = some (series.number c.enterpriseId n)) ↔
    ∃ e', e' ≠ c.enterpriseId ∧ slice8Upper e' = slice8Upper c.enterpriseId ∧
      P.shared.db.lastNumber series c.enterpriseId < P.shared.db.lastNumber series e' := by
  obtain ⟨⟨-, hgap⟩, hQ⟩ := (Repository.integrity hR).sound h0.annotated hr
  have hdraws := hQ pid
  rw [hcall] at hdraws
  obtain ⟨-, hn⟩ := hdraws series hseries
  rw [hn]
  exact taken_iff (fun e e' n n' => by simpa using Erp.seriesNumber_inj series e e' n n')
    (hgap series hseries) c.enterpriseId

end

/-- Before each insert of a platform invoice. -/
theorem invoiceNumber_taken_iff {cfg : Billing.Config} {P₀ P : Billing.BillingPool}
    (h0 : BillingStarts P₀) (hr : Reach (Billing.billing cfg).system Always P₀ P) {pid : Nat}
    {t : Billing.Tx} {u : Billing.Payment} {ent : Billing.Enterprise} {after : Billing.Subscription}
    {n : Nat} (hcall : P.threads pid = .webhook (.invoicing t u ent after n)) :
    (∃ i ∈ P.shared.db.invoices, i.enterpriseId ≠ ent.id ∧
      i.number = Billing.invoiceNumber ent.id n) ↔
    ∃ e', e' ≠ ent.id ∧ slice8Upper e' = slice8Upper ent.id ∧
      P.shared.db.lastInvoiceNumber ent.id < P.shared.db.lastInvoiceNumber e' := by
  obtain ⟨hgap, hQ⟩ := (Billing.invoicing cfg).sound h0.annotated hr
  have hreserves := hQ pid
  rw [hcall] at hreserves
  obtain ⟨-, -, hn⟩ := hreserves
  rw [hn]
  exact taken_iff invoiceNumber_inj hgap ent.id

/-- Two numbers differ exactly when the eight digits or the sequences do; and an insert meets its own
number on another enterprise's document exactly when one with the same eight digits is ahead. -/
theorem numbers_unique_iff (e e' : Uuid) (n n' : Nat) :
    (Billing.invoiceNumber e n ≠ Billing.invoiceNumber e' n' ↔
      slice8Upper e ≠ slice8Upper e' ∨ n ≠ n') ∧
    (∀ series : Erp.Series, series.number e n ≠ series.number e' n' ↔
      slice8Upper e ≠ slice8Upper e' ∨ n ≠ n') ∧
    (∀ cfg P₀ P pid t u ent after n, BillingStarts P₀ →
      Reach (Billing.billing cfg).system Always P₀ P →
      P.threads pid = .webhook (.invoicing t u ent after n) →
      ((∃ i ∈ P.shared.db.invoices, i.enterpriseId ≠ ent.id ∧
          i.number = Billing.invoiceNumber ent.id n) ↔
        ∃ e', e' ≠ ent.id ∧ slice8Upper e' = slice8Upper ent.id ∧
          P.shared.db.lastInvoiceNumber ent.id < P.shared.db.lastInvoiceNumber e')) ∧
    (∀ P₀ P pid c found n, CreateStarts Erp.invoicingRepository P₀ →
      Reach Erp.invoicingRepository.creates.system Always P₀ P →
      P.threads pid = some (c, .inserting found n) →
      ((∃ i ∈ P.shared.db.salesInvoices.rows, i.enterpriseId ≠ c.enterpriseId ∧
          i.number = Erp.Series.salesInvoice.number c.enterpriseId n) ↔
        ∃ e', e' ≠ c.enterpriseId ∧ slice8Upper e' = slice8Upper c.enterpriseId ∧
          P.shared.db.lastNumber .salesInvoice c.enterpriseId <
            P.shared.db.lastNumber .salesInvoice e')) ∧
    (∀ P₀ P pid c found n, CreateStarts Erp.journalRepository P₀ →
      Reach Erp.journalRepository.creates.system Always P₀ P →
      P.threads pid = some (c, .inserting found n) →
      ((∃ e ∈ P.shared.db.journalEntries.rows, e.enterpriseId ≠ c.enterpriseId ∧
          e.number = Erp.Series.journalEntry.number c.enterpriseId n) ↔
        ∃ e', e' ≠ c.enterpriseId ∧ slice8Upper e' = slice8Upper c.enterpriseId ∧
          P.shared.db.lastNumber .journalEntry c.enterpriseId <
            P.shared.db.lastNumber .journalEntry e')) := by
  refine ⟨?_, fun series => ?_, ?_, ?_, ?_⟩
  · rw [Ne, invoiceNumber_inj, not_and_or]
  · rw [Ne, Erp.seriesNumber_inj, not_and_or]
  · intro cfg P₀ P pid t u ent after n h0 hr hcall
    exact invoiceNumber_taken_iff h0 hr hcall
  · intro P₀ P pid c found n h0 hr hcall
    refine Iff.trans ?_ (documentNumber_taken_iff invoicingRepository_rowsOk rfl h0 hr hcall)
    exact ⟨fun ⟨r, hr, howner, hnumber⟩ => ⟨r, hr, howner, congrArg some hnumber⟩,
      fun ⟨r, hr, howner, hnumber⟩ => ⟨r, hr, howner, Option.some.inj hnumber⟩⟩
  · intro P₀ P pid c found n h0 hr hcall
    refine Iff.trans ?_ (documentNumber_taken_iff journalRepository_rowsOk rfl h0 hr hcall)
    exact ⟨fun ⟨r, hr, howner, hnumber⟩ => ⟨r, hr, howner, congrArg some hnumber⟩,
      fun ⟨r, hr, howner, hnumber⟩ => ⟨r, hr, howner, Option.some.inj hnumber⟩⟩

/-- Two enterprises whose identifiers start with the same eight digits. -/
def twins : Uuid × Uuid :=
  (0x11111111aaaa4aaa8aaaaaaaaaaaaaaa, 0x11111111bbbb4bbb8bbbbbbbbbbbbbbb)

/-- Each of them with two accounts. -/
def twinsDb : Erp.Db where
  accounts := ((((Table.empty
    |>.insert ⟨11, twins.1, "411", "Clients", 0, 0⟩)
    |>.insert ⟨12, twins.1, "701", "Ventes", 0, 0⟩)
    |>.insert ⟨21, twins.2, "411", "Clients", 0, 0⟩)
    |>.insert ⟨22, twins.2, "701", "Ventes", 0, 0⟩)

def twinsEntry (enterpriseId debited credited : Uuid) : Erp.Create Erp.CreateJournalEntryInput where
  enterpriseId := enterpriseId
  input :=
    { description := "Vente"
      lines := [{ accountId := debited, debitAmount := 1000 },
        { accountId := credited, creditAmount := 1000 }] }
  idempotencyKey := none

def twinsPool :
    Erp.CreatePool Erp.CreateJournalEntryInput (List Erp.Account) Erp.JournalEntry
      Erp.JournalEntryView where
  shared := { db := twinsDb, lock := fun _ => none }
  threads
    | 0 => some (twinsEntry twins.1 11 12, .checking)
    | 1 => some (twinsEntry twins.2 21 22, .checking)
    | _ => none

theorem twinsPool_starts : CreateStarts Erp.journalRepository twinsPool := by
  refine ⟨fun pid => ?_, List.Pairwise.nil, fun series hseries => ?_⟩
  · match pid with
    | 0 => rfl
    | 1 => rfl
    | _ + 2 => trivial
  · cases hseries
    exact Numbering.GapFree.nil

/-- Their first numbers are equal in the three series, and the first entry of the second is refused
because of the first entry of the other. -/
theorem twins_collide :
    twins.1 ≠ twins.2 ∧ Billing.invoiceNumber twins.1 1 = Billing.invoiceNumber twins.2 1 ∧
      (∀ series : Erp.Series, series.number twins.1 1 = series.number twins.2 1) ∧
      CreateStarts Erp.journalRepository twinsPool ∧
      ∃ P, Reach Erp.journalRepository.creates.system Always twinsPool P ∧
        Erp.CreateCall.answer (P.threads 1) = some (.error (.prisma .p2002)) := by
  have hslice : slice8Upper twins.1 = slice8Upper twins.2 := by decide +kernel
  have hrun : ((exec Erp.journalRepository.creates.system (fun _ _ => true) twinsPool
      (Erp.statements 0 6 100 ++ Erp.statements 1 5 200)).map fun P =>
        (Erp.CreateCall.answer (P.threads 1)).map fun r =>
          match r with
          | .ok _ => none
          | .error e => some e) = some (some (some (.prisma .p2002))) := by decide +kernel
  obtain ⟨P, hP, hanswer⟩ := Option.map_eq_some_iff.1 hrun
  obtain ⟨r, hr, herror⟩ := Option.map_eq_some_iff.1 hanswer
  refine ⟨by decide, (invoiceNumber_inj ..).2 ⟨hslice, rfl⟩,
    fun series => (Erp.seriesNumber_inj ..).2 ⟨hslice, rfl⟩, twinsPool_starts, P,
    Reach.of_exec _ (fun _ _ _ => trivial) _ hP, ?_⟩
  cases r with
  | ok v => cases herror
  | error e =>
    cases herror
    exact hr

end Gescom
