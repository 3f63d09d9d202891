import Gescom.Erp.Collation
import Gescom.Erp.Reports
import Gescom.Erp.TrialBalance
import Gescom.Lib.Decimal

/-!
# The income statement (`reports.repository.ts:184`)

`incomeStatement` adds up the lines of a period on each account of class 6 or 7, revenue with its
credit balance and expenses with its debit balance. Every entry balances, so the net result is what
the period left on all other accounts (`netResult_eq`): a fact of `JournalRepository.create`, which
the statement never looks at.
-/

namespace Gescom.Erp

open Confinement Decimal Grouping ReadCommitted Transition

/-- `/^[1-8][0-9]{0,7}$/`, the pattern of a code in `createAccountSchema`. -/
def accountCode (code : String) : Bool :=
  code.toList.head?.any (fun c => '1' ≤ c && c ≤ '8') && code.toList.all Char.isDigit &&
    code.toList.length ≤ 8

/-- The lines of a period. -/
def Db.linesWithin (db : Db) (enterpriseId : Uuid) (dateFrom dateTo : UtcDate) :
    List JournalEntryLine :=
  (db.journalEntries.rows.filter fun en =>
    en.enterpriseId = enterpriseId ∧ dateFrom ≤ en.entryDate ∧ en.entryDate ≤ dateTo).flatMap
    JournalEntry.lines

/-- The line is on an account of this class. -/
def Db.onClass (db : Db) (digit : String) (l : JournalEntryLine) : Bool :=
  (db.accounts.find? l.accountId).any fun a => a.code.startsWith digit

/-- What the lines outside classes 6 and 7 leave. -/
def Db.otherBalance (db : Db) (enterpriseId : Uuid) (dateFrom dateTo : UtcDate) : Int :=
  let lines := (db.linesWithin enterpriseId dateFrom dateTo).filter fun l =>
    !(db.onClass "6" l || db.onClass "7" l)
  (lines.map fun l => l.debitAmount - l.creditAmount).sum

/-- The item of an account, with its balance over some lines. -/
def Account.item (a : Account) (balance : Balance → Int) (lines : List JournalEntryLine) :
    IncomeStatementAccountLine :=
  ⟨a.id, a.code, a.label, balance (sumLines (lines.filter fun l => l.accountId = a.id))⟩

/-- The accounts of a class that have a line, each once, sorted by code. -/
structure Db.ListsClass (db : Db) (digit : String) (balance : Balance → Int)
    (lines : List JournalEntryLine) (items : List IncomeStatementAccountLine) : Prop where
  sorted : (items.map IncomeStatementAccountLine.accountCode).Pairwise (· < ·)
  once : (items.map IncomeStatementAccountLine.accountId).Nodup
  items : ∀ item, item ∈ items ↔ ∃ l ∈ lines, ∃ a, db.accounts.find? l.accountId = some a ∧
    a.code.startsWith digit = true ∧ item = a.item balance lines

structure Db.States (db : Db) (enterpriseId : Uuid) (view : IncomeStatementView) : Prop where
  revenue : db.ListsClass "7" (fun b => b.totalCredit - b.totalDebit)
    (db.linesWithin enterpriseId view.dateFrom view.dateTo) view.revenueByAccount
  expenses : db.ListsClass "6" (fun b => b.totalDebit - b.totalCredit)
    (db.linesWithin enterpriseId view.dateFrom view.dateTo) view.expensesByAccount
  totalRevenue : view.totalRevenue =
    (view.revenueByAccount.map IncomeStatementAccountLine.amount).sum
  totalExpenses : view.totalExpenses =
    (view.expensesByAccount.map IncomeStatementAccountLine.amount).sum
  netResult : view.netResult = view.totalRevenue - view.totalExpenses
  others : view.netResult = db.otherBalance enterpriseId view.dateFrom view.dateTo

/-- The statement of a period. -/
def Db.statement (db : Db) (T : Texts) (enterpriseId : Uuid) (dateFrom dateTo : UtcDate) :
    IncomeStatementView :=
  incomeStatementView T dateFrom dateTo (db.periodLines enterpriseId dateFrom dateTo)

structure IncomeStatements (T : Texts) (db : Db) (enterpriseId : Uuid) : Prop where
  answers : ∀ dateFrom dateTo,
    (exec (ReportsRepository.incomeStatement T enterpriseId ⟨some dateFrom, some dateTo⟩) db).1 =
      .ok (db.statement T enterpriseId dateFrom dateTo)
  states : ∀ dateFrom dateTo, db.States enterpriseId (db.statement T enterpriseId dateFrom dateTo)
  /-- Adjacent periods, each up to the millisecond before the next. -/
  adds : ∀ cut : Nat → UtcDate, (∀ i, cut i ≤ cut (i + 1)) → ∀ n,
    (db.statement T enterpriseId (cut 0) (cut n - 1)).netResult = ((List.range n).map fun i =>
      (db.statement T enterpriseId (cut i) (cut (i + 1) - 1)).netResult).sum

/-- An account call has passed its schema. -/
def BookCall.CodeOk : BookCall → Prop
  | .account _ input _ => accountCode input.code = true
  | _ => True

/-- A ledger that is empty, and calls that have not begun. -/
structure LedgerStarts (P : BookPool) : Prop extends BookStarts P where
  codes : ∀ pid, (P.threads pid).CodeOk
  noAccount : P.shared.db.accounts.rows = []

/-- In every state that the calls lead to. -/
def LedgerStates (T : Texts) (collate : String → String → Bool) (P₀ : BookPool) : Prop :=
  ∀ P, Reach (bookkeeping collate).system Always P₀ P → ∀ e, IncomeStatements T P.shared.db e

variable {T : Texts} {collate : String → String → Bool} {s s' : ErpStore} {pid : Nat} {e : Uuid}
  {db : Db} {t t' : UtcDate}

/-! ## Codes -/

/-- Codes match the pattern, and an enterprise has each once. -/
structure Db.CodesOk (db : Db) : Prop where
  codes : ∀ a ∈ db.accounts.rows, accountCode a.code = true
  distinct : ∀ a ∈ db.accounts.rows, ∀ b ∈ db.accounts.rows, a.enterpriseId = b.enterpriseId →
    a.code = b.code → a = b

theorem Db.CodesOk.of_eq {db' : Db} (h : db'.accounts = db.accounts) (hdb : db.CodesOk) :
    db'.CodesOk := by
  constructor
  · rw [h]
    exact hdb.codes
  · rw [h]
    exact hdb.distinct

theorem createAccount_codesOk {input : CreateAccountInput} {id : Uuid} {view : AccountView}
    {db' : Db} (hdb : db.CodesOk) (hcode : accountCode input.code = true)
    (h : createAccount e input id db = .ok (view, db')) : db'.CodesOk := by
  simp only [createAccount] at h
  split at h
  · cases h
  · rename_i hfree
    cases h
    have hnew : ∀ a ∈ db.accounts.rows, a.enterpriseId = e → a.code ≠ input.code := by
      intro a ha howner hsame
      exact hfree (List.any_eq_true.2 ⟨a, ha, by simp [howner, hsame]⟩)
    constructor
    · intro a ha
      rcases Table.mem_insert ha with hold | rfl
      · exact hdb.codes a hold
      · exact hcode
    · intro a ha b hb howner hsame
      rcases Table.mem_insert ha with ha | rfl <;> rcases Table.mem_insert hb with hb | rfl
      · exact hdb.distinct a ha b hb howner hsame
      · exact absurd hsame (hnew a ha howner)
      · exact absurd hsame.symm (hnew b hb howner.symm)
      · rfl

/-- An entry writes no account. -/
theorem entry_accounts {i : Input}
    {call t : CreateCall CreateJournalEntryInput (List Account) JournalEntry JournalEntryView}
    (h : journalRepository.thread pid i s call = some (s', t)) :
    s'.db.accounts = s.db.accounts := by
  obtain ⟨c, st, st', -, -, heffect⟩ := Repository.thread_effect h
  cases heffect with
  | silent _ _ hdb => rw [hdb]
  | _ => rfl

theorem bookThread_codes {i : Input} {call t : BookCall} (hI : s.db.CodesOk) (hQ : call.CodeOk)
    (h : bookThread collate pid i s call = some (s', t)) : s'.db.CodesOk ∧ t.CodeOk := by
  cases call with
  | entry call =>
    obtain ⟨⟨s₁, call'⟩, hthread, hres⟩ := Option.map_eq_some_iff.1 h
    cases hres
    exact ⟨hI.of_eq (entry_accounts hthread), trivial⟩
  | account e input r =>
    cases r with
    | some r => cases h
    | none =>
      cases i with
      | fail =>
        cases h
        exact ⟨hI, hQ⟩
      | proceed draw =>
        simp only [bookThread] at h
        split at h <;> cases h
        · exact ⟨hI, hQ⟩
        · rename_i hcreated
          exact ⟨createAccount_codesOk hI hQ hcreated, hQ⟩
  | trialBalance e st =>
    cases st with
    | finished r => cases i <;> cases h
    | _ => cases i <;> cases h <;> exact ⟨hI, trivial⟩

theorem ledger_codes : Outline (bookkeeping collate) Always (fun s => s.db.CodesOk)
    (fun _ call _ => call.CodeOk) (fun _ _ _ => True) where
  own _ _ _ _ _ _ hI hQ hst :=
    have hstep := bookThread_codes hI hQ hst
    ⟨hstep.1, hstep.2, trivial⟩
  stable _ _ _ _ _ _ _ _ _ hQ := hQ
  env _ x _ hI := ⟨hI.of_eq (x.accounts _), fun _ _ hQ => hQ⟩

theorem LedgerStarts.annotated_codes {P : BookPool} (h : LedgerStarts P) :
    Annotated (fun s => s.db.CodesOk) (fun _ call _ => call.CodeOk) P := by
  refine ⟨⟨fun a ha => ?_, fun a ha => ?_⟩, h.codes⟩
  · rw [h.noAccount] at ha
    cases ha
  · rw [h.noAccount] at ha
    cases ha

theorem accountCode_numeric {code : String} (h : accountCode code = true) : NumericText code := by
  simp only [accountCode, Bool.and_eq_true, List.all_eq_true] at h
  exact fun c hc => .inl (h.1.2 c hc)

/-! ## The lines of a period -/

/-- An account of class 6 or 7 of a line. -/
def Db.classAccount (db : Db) (l : JournalEntryLine) : Option Account :=
  (db.accounts.find? l.accountId).filter fun a => a.code.startsWith "6" || a.code.startsWith "7"

theorem classAccount_eq_some {l : JournalEntryLine} {a : Account} :
    db.classAccount l = some a ↔ db.accounts.find? l.accountId = some a ∧
      (a.code.startsWith "6" || a.code.startsWith "7") = true := by
  rw [Db.classAccount, Option.filter_eq_some_iff]

theorem isSome_classAccount (l : JournalEntryLine) :
    (db.classAccount l).isSome = (db.onClass "6" l || db.onClass "7" l) := by
  rw [Db.classAccount, Db.onClass, Db.onClass]
  cases db.accounts.find? l.accountId with
  | none => rfl
  | some a => simp [Option.isSome_filter]

/-- The lines of an entry are of its enterprise. -/
theorem filter_lines (hdb : db.BooksOk) (e : Uuid) (t t' : UtcDate) :
    ((db.journalEntries.rows.filter fun en => t ≤ en.entryDate ∧ en.entryDate ≤ t').flatMap
      JournalEntry.lines).filter (fun l => l.enterpriseId = e) = db.linesWithin e t t' := by
  have hentries : ∀ entries : List JournalEntry, (∀ en ∈ entries, en.Accepted db) →
      ((entries.filter fun en => t ≤ en.entryDate ∧ en.entryDate ≤ t').flatMap
        JournalEntry.lines).filter (fun l => l.enterpriseId = e) =
      (entries.filter fun en => en.enterpriseId = e ∧ t ≤ en.entryDate ∧ en.entryDate ≤ t').flatMap
        JournalEntry.lines := by
    intro entries
    induction entries with
    | nil => intro _; rfl
    | cons en entries ih =>
      intro hok
      have hrest := ih fun x hx => hok x (List.mem_cons_of_mem en hx)
      have howner := (hok en List.mem_cons_self).owner
      by_cases hwithin : t ≤ en.entryDate ∧ en.entryDate ≤ t'
      · by_cases he : en.enterpriseId = e
        · have hall : en.lines.filter (fun l => l.enterpriseId = e) = en.lines :=
            List.filter_eq_self.2 fun l hl => by simp [howner l hl, he]
          rw [List.filter_cons_of_pos (by simpa using hwithin), List.filter_cons_of_pos
            (by simpa [he] using hwithin), List.flatMap_cons, List.flatMap_cons, List.filter_append,
            hall, hrest]
        · have hnone : en.lines.filter (fun l => l.enterpriseId = e) = [] :=
            List.filter_eq_nil_iff.2 fun l hl => by simp [howner l hl, he]
          rw [List.filter_cons_of_pos (by simpa using hwithin), List.filter_cons_of_neg
            (by simp [he]), List.flatMap_cons, List.filter_append, hnone, List.nil_append, hrest]
      · rw [List.filter_cons_of_neg (by simpa using hwithin), List.filter_cons_of_neg
          (by simpa using fun _ => hwithin), hrest]
  exact hentries _ hdb

theorem periodLines_eq (hdb : db.BooksOk) (e : Uuid) (t t' : UtcDate) :
    db.periodLines e t t' = (db.linesWithin e t t').filterMap fun l =>
      (db.classAccount l).map fun a => (l, a) := by
  rw [← filter_lines hdb]
  rfl

/-- A line of the enterprise is on one of its accounts. -/
theorem owner_of_line (hdb : db.BooksOk) {l : JournalEntryLine} (hl : l ∈ db.linesWithin e t t')
    {a : Account} (ha : db.accounts.find? l.accountId = some a) : a.enterpriseId = e := by
  obtain ⟨en, hen, hline⟩ := List.mem_flatMap.1 hl
  obtain ⟨hmem, hwithin⟩ := List.mem_filter.1 hen
  obtain ⟨x, hx, howner⟩ := (hdb en hmem).account l hline
  rw [ha] at hx
  rw [Option.some.inj hx, howner]
  exact (of_decide_eq_true hwithin).1

theorem sum_net (ls : List JournalEntryLine) :
    (ls.map fun l => l.debitAmount - l.creditAmount).sum =
      (sumLines ls).totalDebit - (sumLines ls).totalCredit := by
  induction ls with
  | nil => rfl
  | cons l ls ih =>
    rw [List.map_cons, List.sum_cons, ih, sumLines_cons]
    simp only
    omega

/-- Over a period, the lines of an enterprise balance. -/
theorem linesWithin_balanced (hdb : db.BooksOk) (e : Uuid) (t t' : UtcDate) :
    ((db.linesWithin e t t').map fun l => l.debitAmount - l.creditAmount).sum = 0 := by
  have hentries : ∀ entries : List JournalEntry, (∀ en ∈ entries, en.Accepted db) →
      ((entries.flatMap JournalEntry.lines).map fun l => l.debitAmount - l.creditAmount).sum = 0 := by
    intro entries
    induction entries with
    | nil => intro _; rfl
    | cons en entries ih =>
      intro hok
      have hrest := ih fun x hx => hok x (List.mem_cons_of_mem en hx)
      have hbalanced := (hok en List.mem_cons_self).balanced
      rw [List.flatMap_cons, List.map_append, List.sum_append, hrest, sum_net, hbalanced]
      omega
  exact hentries _ fun en hen => hdb en (List.mem_filter.1 hen).1

/-! ## The map `byAccount` -/

section
variable (hdb : db.BooksOk)
include hdb

/-- The lines of the statement are those on the accounts of class 6 or 7. -/
theorem mem_periodLines {l : JournalEntryLine} {a : Account} :
    (l, a) ∈ db.periodLines e t t' ↔ l ∈ db.linesWithin e t t' ∧
      db.accounts.find? l.accountId = some a ∧
      (a.code.startsWith "6" || a.code.startsWith "7") = true := by
  rw [periodLines_eq hdb, List.mem_filterMap]
  constructor
  · rintro ⟨x, hx, hmap⟩
    obtain ⟨b, hb, hpair⟩ := Option.map_eq_some_iff.1 hmap
    obtain ⟨rfl, rfl⟩ := Prod.mk.inj hpair
    exact ⟨hx, classAccount_eq_some.1 hb⟩
  · rintro ⟨hl, ha⟩
    exact ⟨l, hl, Option.map_eq_some_iff.2 ⟨a, classAccount_eq_some.2 ha, rfl⟩⟩

/-- The lines on one of these accounts. -/
theorem periodLines_of_account {id : Uuid} {a : Account} (ha : db.accounts.find? id = some a)
    (hclass : (a.code.startsWith "6" || a.code.startsWith "7") = true) :
    ((db.periodLines e t t').filter fun p => p.1.accountId = id).map Prod.fst =
      (db.linesWithin e t t').filter fun l => l.accountId = id := by
  rw [periodLines_eq hdb]
  induction db.linesWithin e t t' with
  | nil => rfl
  | cons l ls ih =>
    by_cases hid : l.accountId = id
    · have hsome : db.classAccount l = some a := by
        rw [classAccount_eq_some, hid]
        exact ⟨ha, hclass⟩
      rw [List.filterMap_cons_some (by rw [hsome]; rfl), List.filter_cons_of_pos (by simpa using hid),
        List.filter_cons_of_pos (by simpa using hid), List.map_cons, ih]
    · rw [List.filter_cons_of_neg (by simpa using hid), ← ih, List.filterMap_cons]
      cases db.classAccount l with
      | none => rfl
      | some b =>
        simp only [Option.map_some]
        rw [List.filter_cons_of_neg (by simpa using hid)]

end

/-- What a line does to the entry of its account. -/
def AccountMovement.post (m : AccountMovement) (l : JournalEntryLine × Account) : AccountMovement :=
  { m with debit := m.debit + l.1.debitAmount, credit := m.credit + l.1.creditAmount }

theorem foldl_post (ls : List (JournalEntryLine × Account)) (m : AccountMovement) :
    ls.foldl AccountMovement.post m =
      ⟨m.accountCode, m.accountLabel, m.debit + (sumLines (ls.map Prod.fst)).totalDebit,
        m.credit + (sumLines (ls.map Prod.fst)).totalCredit⟩ := by
  induction ls generalizing m with
  | nil => simp [sumLines]
  | cons l ls ih =>
    rw [List.foldl_cons, ih, List.map_cons, sumLines_cons]
    simp only [AccountMovement.post, AccountMovement.mk.injEq, true_and]
    omega

def byAccount (ls : List (JournalEntryLine × Account)) : List (Uuid × AccountMovement) :=
  groups (fun l => l.1.accountId) (fun l => ⟨l.2.code, l.2.label, 0, 0⟩) AccountMovement.post ls

/-- The movements of an account over the lines. -/
def Account.movement (a : Account) (lines : List JournalEntryLine) : AccountMovement :=
  let sums := sumLines (lines.filter fun l => l.accountId = a.id)
  ⟨a.code, a.label, sums.totalDebit, sums.totalCredit⟩

/-- An account of class 6 or 7 with a line. -/
def Db.HasLine (db : Db) (lines : List JournalEntryLine) (a : Account) : Prop :=
  (a.code.startsWith "6" || a.code.startsWith "7") = true ∧
    ∃ l ∈ lines, db.accounts.find? l.accountId = some a

theorem of_mem_byAccount (hdb : db.BooksOk) {id : Uuid} {m : AccountMovement}
    (h : (id, m) ∈ byAccount (db.periodLines e t t')) :
    ∃ a, db.HasLine (db.linesWithin e t t') a ∧ db.accounts.find? id = some a ∧
      m = a.movement (db.linesWithin e t t') := by
  obtain ⟨⟨l, a⟩, hmem, rfl, rfl⟩ := of_mem_groups h
  obtain ⟨hl, ha, hclass⟩ := (mem_periodLines hdb).1 hmem
  have hkey : a.id = l.accountId := Table.key_of_find? ha
  refine ⟨a, ⟨hclass, l, hl, ha⟩, ha, ?_⟩
  rw [foldl_post, periodLines_of_account hdb ha hclass, Account.movement, hkey]
  simp

/-- The map has the movements of the accounts of class 6 or 7 that have a line. -/
theorem mem_byAccount (hdb : db.BooksOk) {kb : Uuid × AccountMovement} :
    kb ∈ byAccount (db.periodLines e t t') ↔ ∃ a, db.HasLine (db.linesWithin e t t') a ∧
      kb = (a.id, a.movement (db.linesWithin e t t')) := by
  constructor
  · intro h
    obtain ⟨a, ha, hfind, hm⟩ := of_mem_byAccount hdb (m := kb.2) h
    have hkey : a.id = kb.1 := Table.key_of_find? hfind
    exact ⟨a, ha, by rw [hkey, ← hm]⟩
  · rintro ⟨a, ⟨hclass, l, hl, hfind⟩, rfl⟩
    have hkey : a.id = l.accountId := Table.key_of_find? hfind
    have hmem := (mem_periodLines hdb).2 ⟨hl, hfind, hclass⟩
    have hid : l.accountId ∈ (byAccount (db.periodLines e t t')).map Prod.fst :=
      mem_keys_groups.2 ⟨(l, a), hmem, rfl⟩
    obtain ⟨⟨id, m⟩, hm, rfl⟩ := List.mem_map.1 hid
    obtain ⟨b, -, hb, rfl⟩ := of_mem_byAccount hdb hm
    obtain rfl : a = b := Option.some.inj (hfind.symm.trans hb)
    rw [hkey]
    exact hm

theorem nodup_byAccount (ls : List (JournalEntryLine × Account)) :
    ((byAccount ls).map Prod.fst).Nodup := nodup_groups ls

/-! ## The lists of the statement -/

/-- The items of a class: part of the map, with a balance of its movements, sorted by code. -/
def classItems (T : Texts) (p : AccountMovement → Bool) (balance : Balance → Int)
    (m : List (Uuid × AccountMovement)) : List IncomeStatementAccountLine :=
  ((m.filter fun kb => p kb.2).map fun kb => (⟨kb.1, kb.2.accountCode, kb.2.accountLabel,
    balance ⟨kb.2.debit, kb.2.credit⟩⟩ : IncomeStatementAccountLine)).mergeSort fun a b =>
      T.localeCompare a.accountCode b.accountCode

theorem statement_eq (T : Texts) (db : Db) (e : Uuid) (t t' : UtcDate) :
    let m := byAccount (db.periodLines e t t')
    let revenue := classItems T (fun m => m.accountCode.startsWith "7")
      (fun b => b.totalCredit - b.totalDebit) m
    let expenses := classItems T (fun m => !m.accountCode.startsWith "7")
      (fun b => b.totalDebit - b.totalCredit) m
    let totalRevenue := (revenue.map IncomeStatementAccountLine.amount).sum
    let totalExpenses := (expenses.map IncomeStatementAccountLine.amount).sum
    db.statement T e t t' =
      ⟨t, t', totalRevenue, totalExpenses, totalRevenue - totalExpenses, revenue, expenses⟩ := rfl

theorem startsWith_disjoint {code : String} (h : code.startsWith "7" = true) :
    code.startsWith "6" = false := by
  rw [String.startsWith_string_eq_false_iff]
  rw [String.startsWith_string_iff] at h
  obtain ⟨rest, hrest⟩ := h
  rintro ⟨rest', hrest'⟩
  rw [← hrest] at hrest'
  exact absurd (List.cons.inj hrest').1 (by decide)

/-- The part of the map that belongs to a class. -/
structure ClassPart (p : AccountMovement → Bool) (digit : String) : Prop where
  part : ∀ (a : Account) lines, (a.code.startsWith "6" || a.code.startsWith "7") = true →
    (p (a.movement lines) = true ↔ a.code.startsWith digit = true)
  either : ∀ code : String, code.startsWith digit = true →
    (code.startsWith "6" || code.startsWith "7") = true

theorem revenue_part : ClassPart (fun m => m.accountCode.startsWith "7") "7" where
  part _ _ _ := Iff.rfl
  either code h := by rw [h, Bool.or_true]

/-- What is not of class 7 is of class 6. -/
theorem expenses_part : ClassPart (fun m => !m.accountCode.startsWith "7") "6" where
  part a lines heither := by
    rw [Bool.not_eq_true']
    constructor
    · intro hnot
      have hcode : a.code.startsWith "7" = false := hnot
      rwa [hcode, Bool.or_false] at heither
    · intro hsix
      cases hseven : a.code.startsWith "7" with
      | false => exact hseven
      | true => rw [startsWith_disjoint hseven] at hsix; cases hsix
  either code h := by rw [h, Bool.true_or]

section
variable (hdb : db.BooksOk) {p : AccountMovement → Bool} {digit : String}
  {balance : Balance → Int} (hp : ClassPart p digit)
include hdb hp

theorem mem_classItems (item : IncomeStatementAccountLine) :
    item ∈ classItems T p balance (byAccount (db.periodLines e t t')) ↔
      ∃ l ∈ db.linesWithin e t t', ∃ a, db.accounts.find? l.accountId = some a ∧
        a.code.startsWith digit = true ∧ item = a.item balance (db.linesWithin e t t') := by
  rw [classItems, List.mem_mergeSort, List.mem_map]
  constructor
  · rintro ⟨kb, hkb, rfl⟩
    obtain ⟨hmem, hclass⟩ := List.mem_filter.1 hkb
    obtain ⟨a, ⟨heither, l, hl, hfind⟩, rfl⟩ := (mem_byAccount hdb).1 hmem
    exact ⟨l, hl, a, hfind, (hp.part a _ heither).1 hclass, rfl⟩
  · rintro ⟨l, hl, a, hfind, hclass, rfl⟩
    have heither := hp.either a.code hclass
    refine ⟨(a.id, a.movement (db.linesWithin e t t')), List.mem_filter.2 ⟨?_, ?_⟩, rfl⟩
    · exact (mem_byAccount hdb).2 ⟨a, ⟨heither, l, hl, hfind⟩, rfl⟩
    · exact (hp.part a _ heither).2 hclass

theorem classItems_lists (hT : T.Collates) (hcodes : db.CodesOk) :
    db.ListsClass digit balance (db.linesWithin e t t')
      (classItems T p balance (byAccount (db.periodLines e t t'))) := by
  have hmem : ∀ item, item ∈ classItems T p balance (byAccount (db.periodLines e t t')) ↔ _ :=
    mem_classItems hdb hp
  have hperm := List.mergeSort_perm (((byAccount (db.periodLines e t t')).filter fun kb =>
    p kb.2).map fun kb => (⟨kb.1, kb.2.accountCode, kb.2.accountLabel,
      balance ⟨kb.2.debit, kb.2.credit⟩⟩ : IncomeStatementAccountLine)) fun a b =>
        T.localeCompare a.accountCode b.accountCode
  have honce : ((classItems T p balance (byAccount (db.periodLines e t t'))).map
      IncomeStatementAccountLine.accountId).Nodup := by
    rw [classItems, (hperm.map _).nodup_iff, List.map_map]
    exact (nodup_byAccount (db.periodLines e t t')).sublist (List.filter_sublist.map _)
  refine ⟨?_, honce, hmem⟩
  -- an enterprise has each code once, so the sort is strict
  have hdistinct : ((((byAccount (db.periodLines e t t')).filter fun kb => p kb.2).map fun kb =>
      (⟨kb.1, kb.2.accountCode, kb.2.accountLabel, balance ⟨kb.2.debit, kb.2.credit⟩⟩ :
        IncomeStatementAccountLine)).map IncomeStatementAccountLine.accountCode).Nodup := by
    refine ((hperm.map _).nodup_iff.1 honce).of_map.map_on fun x hx y hy hsame => ?_
    obtain ⟨l, hl, a, ha, -, rfl⟩ := (hmem x).1 (hperm.mem_iff.2 hx)
    obtain ⟨l', hl', b, hb, -, rfl⟩ := (hmem y).1 (hperm.mem_iff.2 hy)
    have howner := (owner_of_line hdb hl ha).trans (owner_of_line hdb hl' hb).symm
    rw [hcodes.distinct a (Table.mem_of_find? ha) b (Table.mem_of_find? hb) howner hsame]
  have hnumeric : ∀ x ∈ classItems T p balance (byAccount (db.periodLines e t t')),
      NumericText x.accountCode := by
    intro x hx
    obtain ⟨l, hl, a, ha, -, rfl⟩ := (hmem x).1 hx
    exact accountCode_numeric (hcodes.codes a (Table.mem_of_find? ha))
  have hbefore := hT.pairwise (fun x hx => (hnumeric x (hperm.mem_iff.2 hx)).signed) hdistinct
  refine hbefore.imp_of_mem fun {x y} hx hy h => ?_
  obtain ⟨i, hi, rfl⟩ := List.mem_map.1 hx
  obtain ⟨j, hj, rfl⟩ := List.mem_map.1 hy
  exact hT.lt_of_before (hnumeric i hi) (hnumeric j hj) h

end

/-! ## The net result -/

/-- Revenue less expenses is the credit balance of the whole map. -/
theorem sum_parts (p : AccountMovement → Bool) (m : List (Uuid × AccountMovement)) :
    ((m.filter fun kb => p kb.2).map fun kb => kb.2.credit - kb.2.debit).sum -
        ((m.filter fun kb => !p kb.2).map fun kb => kb.2.debit - kb.2.credit).sum =
      (m.map fun kb => kb.2.credit - kb.2.debit).sum := by
  induction m with
  | nil => rfl
  | cons kb m ih =>
    cases hp : p kb.2 with
    | true =>
      rw [List.filter_cons_of_pos (by simpa using hp), List.filter_cons_of_neg (by simp [hp]),
        List.map_cons, List.map_cons, List.sum_cons, List.sum_cons]
      omega
    | false =>
      rw [List.filter_cons_of_neg (by simp [hp]), List.filter_cons_of_pos (by simp [hp]),
        List.map_cons, List.map_cons, List.sum_cons, List.sum_cons]
      omega

/-- The credit balance of the lines on class 6 or 7, from the balance of all and of the others. -/
theorem sum_classLines (db : Db) (ls : List JournalEntryLine) :
    ((ls.filterMap fun l => (db.classAccount l).map fun a => (l, a)).map fun p =>
        p.1.creditAmount - p.1.debitAmount).sum +
        (ls.map fun l => l.debitAmount - l.creditAmount).sum =
      ((ls.filter fun l => !(db.onClass "6" l || db.onClass "7" l)).map fun l =>
        l.debitAmount - l.creditAmount).sum := by
  induction ls with
  | nil => rfl
  | cons l ls ih =>
    have hclass : (db.classAccount l).isSome = (db.onClass "6" l || db.onClass "7" l) :=
      isSome_classAccount l
    cases ha : db.classAccount l with
    | none =>
      rw [ha] at hclass
      rw [List.filterMap_cons_none (by rw [ha]; rfl), List.filter_cons_of_pos (by simp [← hclass]),
        List.map_cons, List.map_cons, List.sum_cons, List.sum_cons]
      omega
    | some a =>
      rw [ha] at hclass
      rw [List.filterMap_cons_some (by rw [ha]; rfl), List.filter_cons_of_neg (by simp [← hclass]),
        List.map_cons, List.map_cons, List.sum_cons, List.sum_cons]
      dsimp only
      omega

theorem sum_classItems (T : Texts) (p : AccountMovement → Bool) (balance : Balance → Int)
    (m : List (Uuid × AccountMovement)) :
    ((classItems T p balance m).map IncomeStatementAccountLine.amount).sum =
      ((m.filter fun kb => p kb.2).map fun kb => balance ⟨kb.2.debit, kb.2.credit⟩).sum := by
  rw [classItems, ((List.mergeSort_perm _ _).map _).sum_eq, List.map_map]
  rfl

theorem netResult_eq (hdb : db.BooksOk) (T : Texts) (e : Uuid) (t t' : UtcDate) :
    (db.statement T e t t').netResult = db.otherBalance e t t' := by
  have hmap : ((byAccount (db.periodLines e t t')).map fun kb => kb.2.credit - kb.2.debit).sum =
      ((db.periodLines e t t').map fun p => p.1.creditAmount - p.1.debitAmount).sum := by
    refine sum_groups (g := fun m : AccountMovement => m.credit - m.debit) (fun m l => ?_)
      (fun _ => rfl) _
    simp only [AccountMovement.post]
    omega
  have hlines := sum_classLines db (db.linesWithin e t t')
  rw [← periodLines_eq hdb, linesWithin_balanced hdb, ← hmap, ← sum_parts fun m =>
    m.accountCode.startsWith "7"] at hlines
  rw [statement_eq, Db.otherBalance]
  simp only [sum_classItems]
  omega

/-! ## Adjacent periods -/

/-- What an entry leaves outside classes 6 and 7. -/
def Db.entryBalance (db : Db) (en : JournalEntry) : Int :=
  ((en.lines.filter fun l => !(db.onClass "6" l || db.onClass "7" l)).map fun l =>
    l.debitAmount - l.creditAmount).sum

theorem otherBalance_eq (db : Db) (e : Uuid) (t t' : UtcDate) :
    db.otherBalance e t t' = ((db.journalEntries.rows.filter fun en =>
      en.enterpriseId = e ∧ t ≤ en.entryDate ∧ en.entryDate ≤ t').map db.entryBalance).sum := by
  rw [Db.otherBalance, Db.linesWithin]
  induction db.journalEntries.rows.filter fun en =>
      en.enterpriseId = e ∧ t ≤ en.entryDate ∧ en.entryDate ≤ t' with
  | nil => rfl
  | cons en entries ih =>
    rw [List.flatMap_cons, List.filter_append, List.map_append, List.sum_append, ih, List.map_cons,
      List.sum_cons]
    rfl

theorem sum_adjacent {α : Type} (q : α → Prop) [DecidablePred q] (date f : α → Int) {a b c : Int}
    (hab : a ≤ b) (hbc : b ≤ c) (l : List α) :
    ((l.filter fun x => q x ∧ a ≤ date x ∧ date x ≤ c - 1).map f).sum =
      ((l.filter fun x => q x ∧ a ≤ date x ∧ date x ≤ b - 1).map f).sum +
        ((l.filter fun x => q x ∧ b ≤ date x ∧ date x ≤ c - 1).map f).sum := by
  induction l with
  | nil => rfl
  | cons x l ih =>
    simp only [List.filter_cons, decide_eq_true_eq]
    by_cases hq : q x
    · by_cases hearly : date x < b
      · by_cases hlow : a ≤ date x
        · rw [if_pos ⟨hq, hlow, by omega⟩, if_pos ⟨hq, hlow, by omega⟩, if_neg (by omega),
            List.map_cons, List.map_cons, List.sum_cons, List.sum_cons, ih]
          omega
        · rw [if_neg (by omega), if_neg (by omega), if_neg (by omega), ih]
      · by_cases hhigh : date x ≤ c - 1
        · rw [if_pos ⟨hq, by omega, hhigh⟩, if_neg (by omega), if_pos ⟨hq, by omega, hhigh⟩,
            List.map_cons, List.map_cons, List.sum_cons, List.sum_cons, ih]
          omega
        · rw [if_neg (by omega), if_neg (by omega), if_neg (by omega), ih]
    · rw [if_neg (by simp [hq]), if_neg (by simp [hq]), if_neg (by simp [hq]), ih]

theorem otherBalance_adds (db : Db) (e : Uuid) {cut : Nat → UtcDate}
    (hcut : ∀ i, cut i ≤ cut (i + 1)) (n : Nat) :
    db.otherBalance e (cut 0) (cut n - 1) =
      ((List.range n).map fun i => db.otherBalance e (cut i) (cut (i + 1) - 1)).sum := by
  induction n with
  | zero =>
    rw [otherBalance_eq, List.filter_eq_nil_iff.2]
    · rfl
    · intro en _ hwithin
      have hempty := (of_decide_eq_true hwithin).2
      exact absurd (Int.le_trans hempty.1 hempty.2) (Int.not_le.2 (Int.sub_one_lt_of_le (Int.le_refl _)))
  | succ n ih =>
    rw [List.range_succ, List.map_append, List.sum_append, ← ih, List.map_singleton,
      List.sum_singleton, otherBalance_eq, otherBalance_eq, otherBalance_eq]
    exact sum_adjacent (fun en => en.enterpriseId = e) JournalEntry.entryDate db.entryBalance
      (monotone_nat_of_le_succ hcut (Nat.zero_le n)) (hcut n) db.journalEntries.rows

/-! ## The result -/

theorem incomeStatements (hT : T.Collates) (hdb : db.BooksOk) (hcodes : db.CodesOk) (e : Uuid) :
    IncomeStatements T db e where
  answers dateFrom dateTo := exec_ask _ db
  states dateFrom dateTo :=
    { revenue := classItems_lists hdb revenue_part hT hcodes
      expenses := classItems_lists hdb expenses_part hT hcodes
      totalRevenue := rfl
      totalExpenses := rfl
      netResult := rfl
      others := netResult_eq hdb T e dateFrom dateTo }
  adds cut hcut n := by
    simp only [netResult_eq hdb]
    exact otherBalance_adds db e hcut n

/-- In every ledger that calls lead to, the net result is the change of the other accounts. -/
theorem ledger_states (hT : T.Collates) (collate : String → String → Bool) {P₀ : BookPool}
    (h0 : LedgerStarts P₀) : LedgerStates T collate P₀ := by
  intro P hr e
  have hbooks := (books.sound h0.toBookStarts.annotated hr).1
  have hcodes := (ledger_codes.sound h0.annotated_codes hr).1
  exact incomeStatements hT hbooks hcodes e

/-- Two accounts, of classes 5 and 7, and an entry on both. -/
def ledgerPool : BookPool where
  shared := { db := {}, lock := fun _ => none }
  threads
    | 0 => .account 1 ⟨"521000", "Banque"⟩ none
    | 1 => .account 1 ⟨"701000", "Ventes"⟩ none
    | 2 => .entry <| some
        (⟨1, { description := "Vente"
               lines := [⟨11, none, 10000, 0⟩, ⟨12, none, 0, 10000⟩] }, none⟩, .checking)
    | _ => .entry none

theorem ledgerPool_starts : LedgerStarts ledgerPool where
  entries pid call h := by
    match pid with
    | 0 => cases h
    | 1 => cases h
    | 2 =>
      cases h
      rfl
    | _ + 3 =>
      cases h
      trivial
  trialBalances pid e st h := by
    match pid with
    | 0 => cases h
    | 1 => cases h
    | 2 => cases h
    | _ + 3 => cases h
  noEntry := rfl
  noAccount := rfl
  codes pid := by
    match pid with
    | 0 => exact (by decide : accountCode "521000" = true)
    | 1 => exact (by decide : accountCode "701000" = true)
    | 2 => trivial
    | _ + 3 => trivial

theorem ledgerPool_states : LedgerStates plainTexts (fun a b => decide (a ≤ b)) ledgerPool :=
  ledger_states plainTexts_collates _ ledgerPool_starts

end Gescom.Erp
