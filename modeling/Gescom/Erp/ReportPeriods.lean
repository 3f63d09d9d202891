import Gescom.Erp.DailyReports

/-!
# The last day of a period (`reports.repository.ts:120`, `reports.ts:8`)

The clients send the two days of a period as dates, `z.coerce.date()` makes each the midnight it
begins at, and the queries take what is dated at most then. So a period ends with the first
millisecond of its last day. `last_day_counted_iff` says of each report when this leaves nothing out:
when nothing it would count is dated later on that day.
-/

namespace Gescom.Erp

open Calendar Confinement Decimal

/-- `reportPeriodQuerySchema`, on the texts of two date inputs. -/
def reportPeriodQuery (dateFrom dateTo : String) : Option ReportPeriodQuery := do
  let dateFrom ← coerceDate dateFrom
  let dateTo ← coerceDate dateTo
  some ⟨some dateFrom, some dateTo⟩

/-- The key of a day lies between two texts. -/
def KeyBetween (dateFrom dateTo : String) (t : UtcDate) : Prop :=
  dateFrom ≤ dayKey t ∧ dayKey t ≤ dateTo

instance (dateFrom dateTo : String) (t : UtcDate) : Decidable (KeyBetween dateFrom dateTo t) :=
  inferInstanceAs (Decidable (_ ∧ _))

/-- On a day, after its midnight. -/
def LaterOn (day : Int) (t : UtcDate) : Prop := dayOf t = day ∧ midnight day < t

instance (day : Int) (t : UtcDate) : Decidable (LaterOn day t) := inferInstanceAs (Decidable (_ ∧ _))

/-- The lines on accounts of class 6 or 7 of the entries dated so, each with its account. -/
def Db.classLines (db : Db) (enterpriseId : Uuid) (dated : UtcDate → Bool) :
    List (JournalEntryLine × Account) :=
  let entries := db.journalEntries.rows.filter fun en => dated en.entryDate
  let lines := (entries.flatMap JournalEntry.lines).filter fun l => l.enterpriseId = enterpriseId
  lines.filterMap fun l =>
    ((db.accounts.find? l.accountId).filter fun a =>
      a.code.startsWith "6" || a.code.startsWith "7").map fun a => (l, a)

/-- The report is that of the documents whose key lies between the two texts. -/
def CountsPeriod (T : Texts) (db : Db) (kind : DocKind) (enterpriseId : Uuid)
    (dateFrom dateTo : String) : Prop :=
  ∃ t t', reportPeriodQuery dateFrom dateTo = some ⟨some t, some t'⟩ ∧
    (exec (ReportsRepository.report .binary64 T kind enterpriseId ⟨some t, some t'⟩) db).1 =
      .ok (dailyReport .binary64 T t t' ((db.confirmed .binary64 kind enterpriseId).filter fun d =>
        KeyBetween dateFrom dateTo d.date))

/-- The statement is that of the lines of the entries whose key lies between the two texts. -/
def StatesPeriod (T : Texts) (db : Db) (enterpriseId : Uuid) (dateFrom dateTo : String) : Prop :=
  ∃ t t' lines, reportPeriodQuery dateFrom dateTo = some ⟨some t, some t'⟩ ∧
    (exec (ReportsRepository.incomeStatement T enterpriseId ⟨some t, some t'⟩) db).1 =
      .ok (incomeStatementView T t t' lines) ∧
    lines = db.periodLines enterpriseId t t' ∧
    lines = db.classLines enterpriseId fun t => KeyBetween dateFrom dateTo t

structure LastDayCounted (T : Texts) (db : Db) (enterpriseId : Uuid) (day day' : Int) : Prop where
  /-- `salesReport` and `purchasesReport`. -/
  documents : ∀ kind,
    CountsPeriod T db kind enterpriseId (isoDate (CivilDate.ofDay day))
        (isoDate (CivilDate.ofDay day')) ↔
      ∀ d ∈ db.confirmed .binary64 kind enterpriseId, ¬ LaterOn day' d.date
  entries :
    StatesPeriod T db enterpriseId (isoDate (CivilDate.ofDay day))
        (isoDate (CivilDate.ofDay day')) ↔
      db.classLines enterpriseId (fun t => LaterOn day' t) = []

variable {T : Texts} {db : Db} {e : Uuid} {day day' : Int} {t : UtcDate}

/-! ## Keys and days -/

/-- A year of more digits begins with a sign, which comes before every digit. -/
theorem dayKey_lt_of_sign (h : FourDigitYear day) (ht : ¬ FourDigitYear (dayOf t)) :
    dayKey t < isoDate (CivilDate.ofDay day) := by
  have hsign : ∃ sign rest, (dayKey t).toList = sign :: rest ∧ sign.toNat < 48 := by
    have hyear : isoYear (CivilDate.ofDay (dayOf t)).year = _ := if_neg ht
    rw [dayKey, isoDate, hyear, String.toList_ofList]
    simp only [String.toList_append]
    split
    · exact ⟨'-', _, rfl, by decide⟩
    · exact ⟨'+', _, rfl, by decide⟩
  have hdigit : ∃ digit rest, (isoDate (CivilDate.ofDay day)).toList = digit :: rest ∧
      48 ≤ digit.toNat := by
    have hlength := length_padStart (by decide) (year_lt h)
    obtain ⟨digit, rest, hyear⟩ := List.exists_cons_of_length_eq_add_one hlength
    have hmem : digit ∈ (padStart (CivilDate.ofDay day).year.toNat 4).toList :=
      hyear ▸ List.mem_cons_self
    rw [isoDate_toList h, hyear, List.cons_append]
    exact ⟨digit, _, rfl, (digit_bounds (padStart_digits _ _ digit hmem)).1⟩
  obtain ⟨sign, rest, hkey, hlt⟩ := hsign
  obtain ⟨digit, rest', hdate, hle⟩ := hdigit
  have hbefore : sign < digit := by
    rw [Char.lt_def, UInt32.lt_iff_toNat_lt]
    exact Nat.lt_of_lt_of_le hlt hle
  rw [String.lt_iff, hkey, hdate]
  exact List.cons_lt_cons_iff.2 (.inl hbefore)

theorem year_le_of_le (h : day ≤ day') :
    (CivilDate.ofDay day).year ≤ (CivilDate.ofDay day').year := by
  obtain rfl | hlt := Int.le_iff_eq_or_lt.1 h
  · exact Int.le_refl _
  · have hbefore := before_ofDay hlt
    unfold CivilDate.Before at hbefore
    omega

theorem keyBetween_iff (h : FourDigitYear day) (h' : FourDigitYear day') :
    KeyBetween (isoDate (CivilDate.ofDay day)) (isoDate (CivilDate.ofDay day')) t ↔
      day ≤ dayOf t ∧ dayOf t ≤ day' := by
  by_cases ht : FourDigitYear (dayOf t)
  · rw [KeyBetween, dayKey_eq ht, ← String.not_lt, ← String.not_lt, isoDate_lt_iff ht h,
      isoDate_lt_iff h' ht]
    omega
  · have hkey := dayKey_lt_of_sign h ht
    refine iff_of_false (fun hbetween => String.not_lt.2 hbetween.1 hkey) fun hdays => ht ?_
    exact ⟨h.1.trans (year_le_of_le hdays.1), (year_le_of_le hdays.2).trans h'.2⟩

/-- What the queries take is what they should, less what is dated later on the last day. -/
theorem within_iff (hle : day ≤ day') :
    midnight day ≤ t ∧ t ≤ midnight day' ↔
      (day ≤ dayOf t ∧ dayOf t ≤ day') ∧ ¬ LaterOn day' t := by
  have hmillis : ∀ n n' x : Int, n ≤ n' → (n * 86400000 ≤ x ∧ x ≤ n' * 86400000 ↔
      (n ≤ x / 86400000 ∧ x / 86400000 ≤ n') ∧ ¬ (x / 86400000 = n' ∧ n' * 86400000 < x)) := by
    intro n n' x hn
    omega
  exact hmillis day day' t hle

/-! ## Filters -/

/-- A stricter filter keeps as much when it leaves nothing out. -/
theorem length_filter_eq_iff {α : Type} {p q : α → Bool} {l : List α} (h : ∀ x, p x → q x) :
    (l.filter p).length = (l.filter q).length ↔ ∀ x ∈ l, q x → p x := by
  have hfilter : l.filter p = (l.filter q).filter p := by
    rw [List.filter_filter]
    refine List.filter_congr fun x _ => ?_
    cases hp : p x with
    | true => rw [h x hp, Bool.and_self]
    | false => rfl
  rw [hfilter, List.length_filter_eq_length_iff]
  simp only [List.mem_filter, and_imp]

theorem length_flatMap_filter {α β : Type} {p q : α → Bool} {f : α → List β}
    (h : ∀ x, p x → q x) (l : List α) :
    ((l.filter q).flatMap f).length =
      ((l.filter p).flatMap f).length + ((l.filter fun x => q x && !p x).flatMap f).length := by
  induction l with
  | nil => rfl
  | cons x l ih =>
    by_cases hp : p x
    · have hq : q x := h x hp
      simp only [List.filter_cons, hp, hq, if_true, Bool.not_true, Bool.and_false, List.flatMap_cons,
        List.length_append, ih]
      simp [Nat.add_assoc]
    · by_cases hq : q x
      · simp only [List.filter_cons, hp, hq, if_true, Bool.not_false, Bool.and_true, Bool.false_eq_true,
          if_false, List.flatMap_cons, List.length_append, ih]
        omega
      · simp [hp, hq, ih]

theorem flatMap_filter_eq_iff {α β : Type} {p q : α → Bool} {f : α → List β}
    (h : ∀ x, p x → q x) (l : List α) :
    (l.filter p).flatMap f = (l.filter q).flatMap f ↔
      (l.filter fun x => q x && !p x).flatMap f = [] := by
  constructor
  · intro hsame
    have hnone := length_flatMap_filter (f := f) h l
    rw [hsame] at hnone
    exact List.length_eq_zero_iff.1 (by omega)
  · intro hnone
    rw [List.flatMap_eq_nil_iff] at hnone
    induction l with
    | nil => rfl
    | cons x l ih =>
      have hrest := ih fun y hy => hnone y <| by
        rw [List.filter_cons]
        split
        · exact List.mem_cons_of_mem x hy
        · exact hy
      by_cases hp : p x
      · have hq : q x := h x hp
        simp only [List.filter_cons, hp, hq, if_true, List.flatMap_cons, hrest]
      · by_cases hq : q x
        · have hempty : f x = [] := hnone x (by simp [hp, hq])
          simp [hp, hq, hempty, hrest]
        · simp [hp, hq, hrest]

/-! ## Lines -/

/-- The lines entry by entry. -/
theorem classLines_eq (db : Db) (e : Uuid) (dated : UtcDate → Bool) :
    db.classLines e dated =
      (db.journalEntries.rows.filter fun en => dated en.entryDate).flatMap fun en =>
        (en.lines.filter fun l => l.enterpriseId = e).filterMap fun l =>
          ((db.accounts.find? l.accountId).filter fun a =>
            a.code.startsWith "6" || a.code.startsWith "7").map fun a => (l, a) := by
  simp only [Db.classLines, List.filter_flatMap, List.filterMap_flatMap]

theorem classLines_eq_iff {p q : UtcDate → Bool} (h : ∀ t, p t → q t) :
    db.classLines e p = db.classLines e q ↔ db.classLines e (fun t => q t && !p t) = [] := by
  rw [classLines_eq, classLines_eq, classLines_eq]
  exact flatMap_filter_eq_iff (fun en hen => h en.entryDate hen) db.journalEntries.rows

/-! ## The result -/

section
variable (h : FourDigitYear day) (h' : FourDigitYear day') (hle : day ≤ day')
include h h'

theorem reportPeriodQuery_isoDate :
    reportPeriodQuery (isoDate (CivilDate.ofDay day)) (isoDate (CivilDate.ofDay day')) =
      some ⟨some (midnight day), some (midnight day')⟩ := by
  rw [reportPeriodQuery, coerceDate_isoDate h, coerceDate_isoDate h']
  rfl

include hle

theorem keyBetween_of_within (hwithin : midnight day ≤ t ∧ t ≤ midnight day') :
    KeyBetween (isoDate (CivilDate.ofDay day)) (isoDate (CivilDate.ofDay day')) t :=
  (keyBetween_iff h h').2 ((within_iff hle).1 hwithin).1

theorem within_of_keyBetween
    (hkey : KeyBetween (isoDate (CivilDate.ofDay day)) (isoDate (CivilDate.ofDay day')) t) :
    (midnight day ≤ t ∧ t ≤ midnight day') ↔ ¬ LaterOn day' t := by
  rw [within_iff hle]
  exact and_iff_right ((keyBetween_iff h h').1 hkey)

theorem keyBetween_of_laterOn (hlater : LaterOn day' t) :
    KeyBetween (isoDate (CivilDate.ofDay day)) (isoDate (CivilDate.ofDay day')) t := by
  rw [keyBetween_iff h h', hlater.1]
  exact ⟨hle, Int.le_refl _⟩

theorem countsPeriod_iff (T : Texts) (db : Db) (kind : DocKind) (e : Uuid) :
    CountsPeriod T db kind e (isoDate (CivilDate.ofDay day)) (isoDate (CivilDate.ofDay day')) ↔
      ∀ d ∈ db.confirmed .binary64 kind e, ¬ LaterOn day' d.date := by
  constructor
  · rintro ⟨t, t', hquery, hreport⟩ d hd hlater
    rw [reportPeriodQuery_isoDate h h'] at hquery
    cases hquery
    rw [report_eq, Except.ok.injEq] at hreport
    have hcount := congrArg ReportView.count hreport
    simp only [periodReport, dailyReport_eq] at hcount
    have hall := (length_filter_eq_iff fun d hwithin => by
      exact decide_eq_true (keyBetween_of_within h h' hle (of_decide_eq_true hwithin))).1 hcount
    have hkey := keyBetween_of_laterOn h h' hle hlater
    have hwithin := of_decide_eq_true (hall d hd (decide_eq_true hkey))
    exact (within_of_keyBetween h h' hle hkey).1 hwithin hlater
  · intro hnone
    refine ⟨_, _, reportPeriodQuery_isoDate h h', ?_⟩
    have hfilter : ((db.confirmed .binary64 kind e).filter fun d =>
        midnight day ≤ d.date ∧ d.date ≤ midnight day') = (db.confirmed .binary64 kind e).filter fun d =>
          KeyBetween (isoDate (CivilDate.ofDay day)) (isoDate (CivilDate.ofDay day')) d.date := by
      refine List.filter_congr fun d hd => decide_eq_decide.2 ⟨keyBetween_of_within h h' hle, ?_⟩
      exact fun hkey => (within_of_keyBetween h h' hle hkey).2 (hnone d hd)
    rw [report_eq, periodReport, hfilter]

theorem statesPeriod_iff (T : Texts) (db : Db) (e : Uuid) :
    StatesPeriod T db e (isoDate (CivilDate.ofDay day)) (isoDate (CivilDate.ofDay day')) ↔
      db.classLines e (fun t => LaterOn day' t) = [] := by
  have hlater : (fun t => decide (KeyBetween (isoDate (CivilDate.ofDay day))
      (isoDate (CivilDate.ofDay day')) t) && !decide (midnight day ≤ t ∧ t ≤ midnight day')) =
        fun t => decide (LaterOn day' t) := by
    funext t
    rw [← decide_not, ← Bool.decide_and, decide_eq_decide]
    constructor
    · rintro ⟨hkey, hnot⟩
      exact not_not.1 fun hearly => hnot ((within_of_keyBetween h h' hle hkey).2 hearly)
    · intro hlater
      have hkey := keyBetween_of_laterOn h h' hle hlater
      exact ⟨hkey, fun hwithin => (within_of_keyBetween h h' hle hkey).1 hwithin hlater⟩
  have hkeys : ∀ t, decide (midnight day ≤ t ∧ t ≤ midnight day') = true →
      decide (KeyBetween (isoDate (CivilDate.ofDay day)) (isoDate (CivilDate.ofDay day')) t) :=
    fun t hwithin =>
      decide_eq_true (keyBetween_of_within h h' hle (of_decide_eq_true hwithin))
  rw [← hlater, ← classLines_eq_iff hkeys]
  constructor
  · rintro ⟨t, t', lines, hquery, -, rfl, hwanted⟩
    rw [reportPeriodQuery_isoDate h h'] at hquery
    cases hquery
    exact hwanted
  · intro hwanted
    exact ⟨_, _, _, reportPeriodQuery_isoDate h h', exec_ask _ db, rfl, hwanted⟩

/-- A period includes its last day when nothing is dated on it after midnight. -/
theorem last_day_counted_iff (T : Texts) (db : Db) (e : Uuid) : LastDayCounted T db e day day' :=
  ⟨fun kind => countsPeriod_iff h h' hle T db kind e, statesPeriod_iff h h' hle T db e⟩

end

/-- A confirmed sale of June 30, 2026, at ten in the morning. -/
def lateSale : Db where
  sales := Table.empty.insert
    { id := 1, enterpriseId := 1, partyId := 1, status := .confirmed, date := 1782813600000
      notes := none, confirmedAt := some 1782813600000, idempotencyKey := none, lines := []
      createdAt := 1782813600000, updatedAt := 1782813600000 }

theorem last_day_counted_sample : LastDayCounted plainTexts lateSale 1 20605 20634 :=
  last_day_counted_iff (by decide) (by decide) (by decide) plainTexts lateSale 1

/-- The report of June does not count it. -/
theorem late_sale_not_counted :
    ¬ CountsPeriod plainTexts lateSale .sale 1 "2026-06-01" "2026-06-30" := by
  have hfirst : isoDate (CivilDate.ofDay 20605) = "2026-06-01" := by decide +kernel
  have hlast : isoDate (CivilDate.ofDay 20634) = "2026-06-30" := by decide +kernel
  have hyear : FourDigitYear 20605 := by decide
  have hyear' : FourDigitYear 20634 := by decide
  have hconfirmed : lateSale.confirmed .binary64 .sale 1 = [⟨1782813600000, ⟨0, 0, 0⟩⟩] := rfl
  rw [← hfirst, ← hlast, countsPeriod_iff hyear hyear' (by decide)]
  intro hnone
  exact hnone ⟨1782813600000, ⟨0, 0, 0⟩⟩ (hconfirmed ▸ List.mem_cons_self) (by decide)

end Gescom.Erp
