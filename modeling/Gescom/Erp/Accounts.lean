import Mathlib.Data.List.Dedup
import Gescom.Lib.Ledger
import Gescom.Erp.Db

/-!
# Accounts and their balances (`accounts.repository.ts`)

A balance is never stored: `aggregateBalances` sums the lines of the accounts it is given in one
grouped statement, and `toAccountView` looks each account up in the result. `totals_trialBalance`
says what the sums of a trial balance are: the lines on the accounts it lists, and no others.
-/

namespace Gescom.Erp

structure Balance where
  totalDebit : Int
  totalCredit : Int
  deriving DecidableEq, Repr

/-- `Account` with its balance. -/
structure AccountView where
  account : Account
  totalDebit : Int
  totalCredit : Int
  balance : Int
  deriving DecidableEq, Repr

structure TrialBalanceView where
  accounts : List AccountView
  totalDebit : Int
  totalCredit : Int
  deriving DecidableEq, Repr

/-- The rows of `journal_entry_lines`. -/
def Db.entryLines (db : Db) : List JournalEntryLine :=
  db.journalEntries.rows.flatMap JournalEntry.lines

/-- `_sum: { debitAmount: true, creditAmount: true }`. -/
def sumLines (lines : List JournalEntryLine) : Balance :=
  ⟨(lines.map JournalEntryLine.debitAmount).sum, (lines.map JournalEntryLine.creditAmount).sum⟩

/-- `groupBy` on the account, and the map built from the groups. -/
def aggregateBalances (db : Db) (enterpriseId : Uuid) (accountIds : List Uuid) :
    List (Uuid × Balance) :=
  if accountIds.isEmpty then []
  else
    let lines := db.entryLines.filter fun l =>
      l.enterpriseId = enterpriseId ∧ l.accountId ∈ accountIds
    (lines.map JournalEntryLine.accountId).dedup.map fun id =>
      (id, sumLines (lines.filter fun l => l.accountId = id))

def toAccountView (balances : List (Uuid × Balance)) (account : Account) : AccountView :=
  let b := (balances.lookup account.id).getD ⟨0, 0⟩
  ⟨account, b.totalDebit, b.totalCredit, b.totalDebit - b.totalCredit⟩

/-- `findMany({ where: { enterpriseId }, orderBy: { code: "asc" } })`; `collate` is the order of the
database on texts. -/
def listAccounts (collate : String → String → Bool) (db : Db) (enterpriseId : Uuid) :
    List Account :=
  (db.accounts.rows.filter fun a => a.enterpriseId = enterpriseId).mergeSort fun a b =>
    collate a.code b.code

/-- The views of a trial balance and the `reduce` over them. -/
def trialBalanceView (accounts : List Account) (balances : List (Uuid × Balance)) :
    TrialBalanceView :=
  let views := accounts.map (toAccountView balances)
  let totals : Balance := views.foldl
    (fun acc v => ⟨acc.totalDebit + v.totalDebit, acc.totalCredit + v.totalCredit⟩) ⟨0, 0⟩
  ⟨views, totals.totalDebit, totals.totalCredit⟩

/-- `createAccountSchema` keeps a code of 1 to 8 digits, the first from 1 to 8. -/
structure CreateAccountInput where
  code : String
  label : String
  deriving DecidableEq, Repr

/-- `tx.account.create` with its unique indexes, under `withUniqueCodeConflictMapped`. -/
def createAccount (enterpriseId : Uuid) (input : CreateAccountInput) (id : Uuid) (db : Db) :
    Except ApiError (AccountView × Db) :=
  let account : Account :=
    { id := id, enterpriseId := enterpriseId, code := input.code, label := input.label
      createdAt := db.now, updatedAt := db.now }
  if db.accounts.rows.any fun a =>
      a.id == id || (a.enterpriseId == enterpriseId && a.code == input.code) then
    .error (.conflict "Ce code de compte est déjà utilisé")
  else .ok (toAccountView [] account, { db with accounts := db.accounts.insert account })

/-! ## What the sums are -/

variable {db : Db} {e : Uuid} {ids : List Uuid} {accounts : List Account}

theorem sumLines_cons (l : JournalEntryLine) (ls : List JournalEntryLine) :
    sumLines (l :: ls) = ⟨l.debitAmount + (sumLines ls).totalDebit,
      l.creditAmount + (sumLines ls).totalCredit⟩ := by
  simp [sumLines]

theorem sumLines_append (ls ms : List JournalEntryLine) :
    sumLines (ls ++ ms) = ⟨(sumLines ls).totalDebit + (sumLines ms).totalDebit,
      (sumLines ls).totalCredit + (sumLines ms).totalCredit⟩ := by
  simp [sumLines]

/-- The lines with and the lines without `p` make up the sum. -/
theorem sumLines_filter (p : JournalEntryLine → Bool) (ls : List JournalEntryLine) :
    (sumLines ls).totalDebit =
        (sumLines (ls.filter p)).totalDebit + (sumLines (ls.filter fun l => !p l)).totalDebit ∧
      (sumLines ls).totalCredit =
        (sumLines (ls.filter p)).totalCredit + (sumLines (ls.filter fun l => !p l)).totalCredit := by
  induction ls with
  | nil => exact ⟨rfl, rfl⟩
  | cons l ls ih =>
    obtain ⟨hdebit, hcredit⟩ := ih
    by_cases hp : p l = true
    · simp only [List.filter_cons, hp, if_true, sumLines_cons, Bool.not_true, Bool.false_eq_true,
        if_false]
      omega
    · simp only [List.filter_cons, hp, if_false, sumLines_cons, Bool.not_false, if_true,
        Bool.false_eq_true]
      omega

/-- An account that was asked for gets the sums of its lines, zero without any. -/
theorem lookup_aggregateBalances {id : Uuid} (hid : id ∈ ids) :
    ((aggregateBalances db e ids).lookup id).getD ⟨0, 0⟩ =
      sumLines (db.entryLines.filter fun l => l.enterpriseId = e ∧ l.accountId = id) := by
  have hne : ids.isEmpty = false := by
    cases ids with
    | nil => cases hid
    | cons a as => rfl
  have hlines : (db.entryLines.filter fun l => l.enterpriseId = e ∧ l.accountId ∈ ids).filter
      (fun l => l.accountId = id) =
      db.entryLines.filter fun l => l.enterpriseId = e ∧ l.accountId = id := by
    rw [List.filter_filter]
    refine List.filter_congr fun l _ => ?_
    rw [← Bool.decide_and]
    refine decide_eq_decide.2 ⟨fun h => ⟨h.2.1, h.1⟩, fun h => ⟨h.2, h.1, ?_⟩⟩
    rw [h.2]
    exact hid
  simp only [aggregateBalances, hne, Bool.false_eq_true, if_false]
  by_cases hmem : id ∈ ((db.entryLines.filter fun l =>
      l.enterpriseId = e ∧ l.accountId ∈ ids).map JournalEntryLine.accountId).dedup
  · rw [List.lookup_graph _ hmem, Option.getD_some, hlines]
  · -- no line of the account: there is no group, and the sum is empty
    have hnone : (db.entryLines.filter fun l => l.enterpriseId = e ∧ l.accountId = id) = [] := by
      rw [← hlines, List.filter_eq_nil_iff]
      intro l hl hacc
      refine hmem (List.mem_dedup.2 (List.mem_map.2 ⟨l, hl, ?_⟩))
      simpa using hacc
    rw [hnone, List.lookup_eq_none_iff.2]
    · rfl
    · intro p hp
      obtain ⟨k, hk, rfl⟩ := List.mem_map.1 hp
      simp only [bne_iff_ne, ne_eq]
      rintro rfl
      exact hmem hk

theorem trialBalanceView_accounts {v : AccountView}
    (hv : v ∈ (trialBalanceView accounts
      (aggregateBalances db e (accounts.map Account.id))).accounts) :
    v.account ∈ accounts ∧
      (⟨v.totalDebit, v.totalCredit⟩ : Balance) = sumLines (db.entryLines.filter fun l =>
        l.enterpriseId = e ∧ l.accountId = v.account.id) ∧
      v.balance = v.totalDebit - v.totalCredit := by
  obtain ⟨a, ha, rfl⟩ := List.mem_map.1 hv
  refine ⟨ha, ?_, rfl⟩
  exact lookup_aggregateBalances (List.mem_map_of_mem ha)

theorem trialBalanceView_totals (accounts : List Account)
    (balances : List (Uuid × Balance)) :
    (trialBalanceView accounts balances).totalDebit =
        (accounts.map fun a => (toAccountView balances a).totalDebit).sum ∧
      (trialBalanceView accounts balances).totalCredit =
        (accounts.map fun a => (toAccountView balances a).totalCredit).sum := by
  have hfold : ∀ (vs : List AccountView) (acc : Balance),
      vs.foldl (fun acc v => (⟨acc.totalDebit + v.totalDebit, acc.totalCredit + v.totalCredit⟩ :
          Balance)) acc =
        ⟨acc.totalDebit + (vs.map AccountView.totalDebit).sum,
          acc.totalCredit + (vs.map AccountView.totalCredit).sum⟩ := by
    intro vs
    induction vs with
    | nil => intro acc; simp
    | cons v vs ih =>
      intro acc
      rw [List.foldl_cons, ih]
      simp [add_assoc]
  simp only [trialBalanceView, hfold, zero_add, List.map_map]
  exact ⟨rfl, rfl⟩

/-- The totals of a trial balance are the sums over the lines on the accounts it lists. -/
theorem totals_trialBalance (db : Db) (e : Uuid) (hnd : (accounts.map Account.id).Nodup) :
    (⟨(trialBalanceView accounts (aggregateBalances db e (accounts.map Account.id))).totalDebit,
        (trialBalanceView accounts (aggregateBalances db e (accounts.map Account.id))).totalCredit⟩ :
      Balance) =
      sumLines (db.entryLines.filter fun l =>
        l.enterpriseId = e ∧ l.accountId ∈ accounts.map Account.id) := by
  have hgroup : ∀ (f : JournalEntryLine → Int),
      (accounts.map fun a => ((db.entryLines.filter fun l =>
          l.enterpriseId = e ∧ l.accountId = a.id).map f).sum).sum =
        ((db.entryLines.filter fun l =>
          l.enterpriseId = e ∧ l.accountId ∈ accounts.map Account.id).map f).sum := by
    intro f
    rw [← Ledger.sum_groups JournalEntryLine.accountId f hnd, List.map_map]
    · refine congrArg List.sum (List.map_congr_left fun a ha => ?_)
      simp only [Function.comp, List.filter_filter]
      refine congrArg (fun ls => (List.map f ls).sum) (List.filter_congr fun l _ => ?_)
      rw [← Bool.decide_and]
      refine decide_eq_decide.2 ⟨fun h => ⟨h.2, h.1, ?_⟩, fun h => ⟨h.2.1, h.1⟩⟩
      rw [h.2]
      exact List.mem_map_of_mem ha
    · intro l hl
      have hmem := (List.mem_filter.1 hl).2
      exact (of_decide_eq_true hmem).2
  obtain ⟨hdebit, hcredit⟩ := trialBalanceView_totals accounts
    (aggregateBalances db e (accounts.map Account.id))
  have hview : ∀ a ∈ accounts,
      ((aggregateBalances db e (accounts.map Account.id)).lookup a.id).getD ⟨0, 0⟩ =
        sumLines (db.entryLines.filter fun l => l.enterpriseId = e ∧ l.accountId = a.id) :=
    fun a ha => lookup_aggregateBalances (List.mem_map_of_mem ha)
  rw [hdebit, hcredit, sumLines, ← hgroup, ← hgroup, Balance.mk.injEq]
  constructor
  · refine congrArg List.sum (List.map_congr_left fun a ha => ?_)
    simp only [toAccountView, hview a ha]
    rfl
  · refine congrArg List.sum (List.map_congr_left fun a ha => ?_)
    simp only [toAccountView, hview a ha]
    rfl

end Gescom.Erp
