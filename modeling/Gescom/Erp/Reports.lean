import Gescom.Erp.Books
import Gescom.Erp.Documents
import Gescom.Lib.Binary64
import Gescom.Lib.Calendar
import Gescom.Lib.Grouping

/-!
# Reports (`reports.repository.ts`)

Sums over a period: confirmed sales or purchases day by day, and the income statement, by account of
class 6 and 7. The module writes nothing. The amounts of a day are JavaScript numbers, which round a
sum that takes more than 53 bits: the daily reports take the rounding as a parameter.
-/

namespace Gescom.Erp

open Binary64 (Rounding)
open Confinement Calendar Grouping

/-! ## Dates -/

def millisPerDay : Int := 86400000

/-- The day of a date, counted from 1970-01-01. -/
def dayOf (t : UtcDate) : Int := t / millisPerDay

/-- The year of `toISOString`: four digits, or a sign and six. -/
def isoYear (year : Int) : String :=
  if 0 ≤ year ∧ year ≤ 9999 then padStart year.toNat 4
  else (if year < 0 then "-" else "+") ++ padStart year.natAbs 6

/-- The date in `toISOString`. -/
def isoDate (d : CivilDate) : String :=
  isoYear d.year ++ "-" ++ padStart d.month 2 ++ "-" ++ padStart d.day 2

/-- `date.toISOString().slice(0, 10)`: the date takes ten characters of it, or more. -/
def dayKey (t : UtcDate) : String :=
  String.ofList ((isoDate (CivilDate.ofDay (dayOf t))).toList.take 10)

example : dayKey 951782400000 = "2000-02-29" := by decide +kernel

def startOfCurrentMonth (now : UtcDate) : UtcDate :=
  (dayOf now + 1 - (CivilDate.ofDay (dayOf now)).day) * millisPerDay

def startOfCurrentYear (now : UtcDate) : UtcDate :=
  CivilDate.toDay ⟨(CivilDate.ofDay (dayOf now)).year, 1, 1⟩ * millisPerDay

/-! ## Amounts -/

/-- `Math.round`: halves go up. -/
def mathRound (x : ℚ) : Int := ⌊x + 1 / 2⌋

/-- What `lineTotals` returns. -/
structure LineTotals where
  lineTotalExcludingTax : Int
  lineTotalVat : Int
  lineTotalIncludingTax : Int
  deriving DecidableEq, Repr

/-- `reports.repository.ts:50`. -/
def ReportsRepository.lineTotals (R : Rounding)
    (quantity unitAmountExcludingTax vatRateBasisPoints : Int) : LineTotals :=
  let lineTotalExcludingTax := R.int (quantity * unitAmountExcludingTax)
  let taxed := R.int (lineTotalExcludingTax * vatRateBasisPoints)
  let lineTotalVat := mathRound (R.round (taxed / 10000))
  ⟨lineTotalExcludingTax, lineTotalVat, R.int (lineTotalExcludingTax + lineTotalVat)⟩

def Totals.addLine (R : Rounding) (acc : Totals) (t : LineTotals) : Totals where
  totalExcludingTax := R.int (acc.totalExcludingTax + t.lineTotalExcludingTax)
  totalVat := R.int (acc.totalVat + t.lineTotalVat)
  totalIncludingTax := R.int (acc.totalIncludingTax + t.lineTotalIncludingTax)

/-- `lines.reduce` with `lineTotals` inside. -/
def reduceLines (R : Rounding) (lineTotals : Int → Int → Int → LineTotals)
    (lines : List DocumentLine) : Totals :=
  lines.foldl (fun acc line => acc.addLine R
    (lineTotals line.quantity line.unitPriceExcludingTax line.vatRateBasisPoints)) ⟨0, 0, 0⟩

/-- The totals of a document in a report. -/
def ReportsRepository.totals (R : Rounding) (lines : List DocumentLine) : Totals :=
  reduceLines R (lineTotals R) lines

/-- Three sums, rounded. -/
def Totals.addIn (R : Rounding) (a b : Totals) : Totals where
  totalExcludingTax := R.int (a.totalExcludingTax + b.totalExcludingTax)
  totalVat := R.int (a.totalVat + b.totalVat)
  totalIncludingTax := R.int (a.totalIncludingTax + b.totalIncludingTax)

/-! ## Accumulators -/

structure ReportDailyPoint where
  date : String
  count : Nat
  totals : Totals
  deriving DecidableEq, Repr

structure ReportPeriodQuery where
  dateFrom : Option UtcDate := none
  dateTo : Option UtcDate := none
  deriving DecidableEq, Repr

/-- `SalesReportView` and `PurchasesReportView`. -/
structure ReportView where
  dateFrom : UtcDate
  dateTo : UtcDate
  count : Nat
  totals : Totals
  byDay : List ReportDailyPoint
  deriving DecidableEq, Repr

structure DailyAccumulator where
  byDay : List (String × ReportDailyPoint) := []
  count : Nat := 0
  totals : Totals := ⟨0, 0, 0⟩

/-- One more document on the point of its day. -/
def ReportDailyPoint.file (R : Rounding) (totals : Totals) (point : ReportDailyPoint) :
    ReportDailyPoint :=
  { point with count := point.count + 1, totals := point.totals.addIn R totals }

def DailyAccumulator.add (R : Rounding) (acc : DailyAccumulator) (date : UtcDate) (totals : Totals) :
    DailyAccumulator where
  byDay := mapUpdate (dayKey date) (ReportDailyPoint.file R totals) ⟨dayKey date, 0, ⟨0, 0, 0⟩⟩
    acc.byDay
  count := acc.count + 1
  totals := acc.totals.addIn R totals

def DailyAccumulator.build (acc : DailyAccumulator) (T : Texts) (dateFrom dateTo : UtcDate) :
    ReportView where
  dateFrom := dateFrom
  dateTo := dateTo
  count := acc.count
  totals := acc.totals
  byDay := (acc.byDay.map Prod.snd).mergeSort fun a b => T.localeCompare a.date b.date

/-- The loop over the confirmed documents of a period. -/
def reportView (R : Rounding) (T : Texts) (dateFrom dateTo : UtcDate) (docs : List Document) :
    ReportView :=
  (docs.foldl (fun acc d => acc.add R d.date (ReportsRepository.totals R d.lines))
    ({} : DailyAccumulator)).build T dateFrom dateTo

structure IncomeStatementAccountLine where
  accountId : Uuid
  accountCode : String
  accountLabel : String
  amount : Int
  deriving DecidableEq, Repr

structure IncomeStatementView where
  dateFrom : UtcDate
  dateTo : UtcDate
  totalRevenue : Int
  totalExpenses : Int
  netResult : Int
  revenueByAccount : List IncomeStatementAccountLine
  expensesByAccount : List IncomeStatementAccountLine
  deriving DecidableEq, Repr

/-- An entry of the map `byAccount`. -/
structure AccountMovement where
  accountCode : String
  accountLabel : String
  debit : Int
  credit : Int

/-- The lines of a period on accounts of class 6 or 7, each with its account. -/
def Db.periodLines (db : Db) (enterpriseId : Uuid) (dateFrom dateTo : UtcDate) :
    List (JournalEntryLine × Account) :=
  let entries := db.journalEntries.rows.filter fun en => dateFrom ≤ en.entryDate ∧ en.entryDate ≤ dateTo
  let lines := (entries.flatMap JournalEntry.lines).filter fun l => l.enterpriseId = enterpriseId
  lines.filterMap fun l =>
    ((db.accounts.find? l.accountId).filter fun a =>
      a.code.startsWith "6" || a.code.startsWith "7").map fun a => (l, a)

def addLine (byAccount : List (Uuid × AccountMovement)) (l : JournalEntryLine × Account) :
    List (Uuid × AccountMovement) :=
  mapUpdate l.1.accountId
    (fun m => { m with debit := m.debit + l.1.debitAmount, credit := m.credit + l.1.creditAmount })
    ⟨l.2.code, l.2.label, 0, 0⟩ byAccount

def incomeStatementView (T : Texts) (dateFrom dateTo : UtcDate)
    (lines : List (JournalEntryLine × Account)) : IncomeStatementView :=
  let byAccount := lines.foldl addLine []
  let revenue := byAccount.filter fun m => m.2.accountCode.startsWith "7"
  let expenses := byAccount.filter fun m => !m.2.accountCode.startsWith "7"
  -- class 7 has a credit balance, class 6 a debit balance
  let revenueByAccount := (revenue.map fun m => (⟨m.1, m.2.accountCode, m.2.accountLabel,
    m.2.credit - m.2.debit⟩ : IncomeStatementAccountLine)).mergeSort fun a b =>
      T.localeCompare a.accountCode b.accountCode
  let expensesByAccount := (expenses.map fun m => (⟨m.1, m.2.accountCode, m.2.accountLabel,
    m.2.debit - m.2.credit⟩ : IncomeStatementAccountLine)).mergeSort fun a b =>
      T.localeCompare a.accountCode b.accountCode
  let totalRevenue := (revenueByAccount.map IncomeStatementAccountLine.amount).sum
  let totalExpenses := (expensesByAccount.map IncomeStatementAccountLine.amount).sum
  ⟨dateFrom, dateTo, totalRevenue, totalExpenses, totalRevenue - totalExpenses, revenueByAccount,
    expensesByAccount⟩

namespace ReportsRepository

/-- `salesReport` and `purchasesReport`; the default period is the current month. -/
def report (R : Rounding) (T : Texts) (kind : DocKind) (enterpriseId : Uuid)
    (query : ReportPeriodQuery) : Transaction ReportView :=
  ask fun db =>
    let dateFrom := query.dateFrom.getD (startOfCurrentMonth db.now)
    let dateTo := query.dateTo.getD (db.now : Int)
    .ok <| reportView R T dateFrom dateTo <| (db.documents kind).rows.filter fun d =>
      d.enterpriseId = enterpriseId ∧ d.status = .confirmed ∧ dateFrom ≤ d.date ∧ d.date ≤ dateTo

def salesReport (T : Texts) : Uuid → ReportPeriodQuery → Transaction ReportView :=
  report .binary64 T .sale

def purchasesReport (T : Texts) : Uuid → ReportPeriodQuery → Transaction ReportView :=
  report .binary64 T .purchase

/-- The default period is the current calendar year. -/
def incomeStatement (T : Texts) (enterpriseId : Uuid) (query : ReportPeriodQuery) :
    Transaction IncomeStatementView :=
  ask fun db =>
    let dateFrom := query.dateFrom.getD (startOfCurrentYear db.now)
    let dateTo := query.dateTo.getD (db.now : Int)
    .ok (incomeStatementView T dateFrom dateTo (db.periodLines enterpriseId dateFrom dateTo))

end ReportsRepository

end Gescom.Erp
