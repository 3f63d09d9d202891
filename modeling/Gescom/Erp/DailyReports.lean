import Gescom.Erp.Collation
import Gescom.Erp.DayKeys

/-!
# Daily reports (`reports.repository.ts:76`)

`DailyAccumulator` adds each document to the totals of the report and to the point of its day, in a
map. What it builds is a function of the set of documents: the point of a key is the sum of the
documents filed under it (`mem_byDay`). `daily_reports_decompose` gives the rest from that: the points
add up to the report, no order of the documents matters, and a period is the sum of its parts. This
holds of the counts always, of the amounts as long as their sums are not rounded: up to 2^53. A point
is that of one day unless two days share their key, as those of a month do after the year 9999.
-/

namespace Gescom.Erp

open Binary64 (Rounding)
open Calendar Confinement Grouping

/-- What a report reads of a sale or purchase, with the totals of its lines. -/
structure Reported where
  date : UtcDate
  totals : Totals

def Document.reported (R : Rounding) (d : Document) : Reported :=
  ⟨d.date, ReportsRepository.totals R d.lines⟩

namespace Reported

def key (d : Reported) : String := dayKey d.date

def day (d : Reported) : Int := dayOf d.date

end Reported

/-- The report over documents that come in this order. -/
def dailyReport (R : Rounding) (T : Texts) (dateFrom dateTo : UtcDate) (docs : List Reported) :
    ReportView :=
  (docs.foldl (fun acc d => acc.add R d.date d.totals) ({} : DailyAccumulator)).build T dateFrom dateTo

/-- The report of a period. -/
def periodReport (R : Rounding) (T : Texts) (docs : List Reported) (dateFrom dateTo : UtcDate) :
    ReportView :=
  dailyReport R T dateFrom dateTo (docs.filter fun d => dateFrom ≤ d.date ∧ d.date ≤ dateTo)

/-- The confirmed sales or purchases of an enterprise. -/
def Db.confirmed (db : Db) (R : Rounding) (kind : DocKind) (enterpriseId : Uuid) : List Reported :=
  ((db.documents kind).rows.filter fun d =>
    d.enterpriseId = enterpriseId ∧ d.status = .confirmed).map (Document.reported R)

/-! ## What a report should say -/

def ReportDailyPoint.add (p q : ReportDailyPoint) : ReportDailyPoint :=
  ⟨p.date, p.count + q.count, p.totals.add q.totals⟩

/-- The point of a key, of zeros where there is none. -/
def ReportView.point (view : ReportView) (key : String) : ReportDailyPoint :=
  (view.byDay.find? fun p => p.date = key).getD ⟨key, 0, ⟨0, 0, 0⟩⟩

/-- A point without its amounts. -/
def ReportDailyPoint.tally (p : ReportDailyPoint) : ReportDailyPoint := { p with totals := ⟨0, 0, 0⟩ }

/-- A report without its amounts. -/
def ReportView.tally (view : ReportView) : ReportView :=
  { view with totals := ⟨0, 0, 0⟩, byDay := view.byDay.map ReportDailyPoint.tally }

/-- The report of a day alone, as a point. -/
def dayReport (R : Rounding) (T : Texts) (docs : List Reported) (day : Int) : ReportDailyPoint :=
  let view := periodReport R T docs (midnight day) (midnight (day + 1) - 1)
  ⟨dayKey (midnight day), view.count, view.totals⟩

/-- The UTC days that have a document, each once. -/
def reportedDays (docs : List Reported) : List Int := (docs.map Reported.day).dedup

/-- One report is the sum of two. -/
structure ReportView.IsSum (view early late : ReportView) : Prop where
  count : view.count = early.count + late.count
  totals : view.totals = early.totals.add late.totals
  days : ∀ key, key ∈ view.byDay.map ReportDailyPoint.date ↔
    key ∈ early.byDay.map ReportDailyPoint.date ∨ key ∈ late.byDay.map ReportDailyPoint.date
  points : ∀ key, view.point key = (early.point key).add (late.point key)

/-- Documents filed under one key are of one day. -/
def SeparateDays (docs : List Reported) : Prop :=
  ∀ d ∈ docs, ∀ d' ∈ docs, d.key = d'.key → d.day = d'.day

/-- The amounts of the documents come to 2^53 at most, each of the three in all. -/
structure SmallAmounts (docs : List Reported) : Prop where
  excludingTax : (docs.map fun d => |d.totals.totalExcludingTax|).sum ≤ 2 ^ 53
  vat : (docs.map fun d => |d.totals.totalVat|).sum ≤ 2 ^ 53
  includingTax : (docs.map fun d => |d.totals.totalIncludingTax|).sum ≤ 2 ^ 53

/-- What the amounts of the reports add up to. -/
structure ExactAmounts (T : Texts) (docs : List Reported) : Prop where
  sums : ∀ dateFrom dateTo, let view := periodReport .binary64 T docs dateFrom dateTo
    view.totals = sumTotals (view.byDay.map ReportDailyPoint.totals)
  anyOrder : ∀ docs', docs'.Perm docs →
    periodReport .binary64 T docs' = periodReport .binary64 T docs
  split : ∀ dateFrom dateTo instant, dateFrom ≤ instant → instant ≤ dateTo →
    (periodReport .binary64 T docs dateFrom dateTo).IsSum
      (periodReport .binary64 T docs dateFrom (instant - 1))
      (periodReport .binary64 T docs instant dateTo)

structure DailyReports (T : Texts) (docs : List Reported) : Prop where
  increasing : ∀ dateFrom dateTo,
    ((periodReport .binary64 T docs dateFrom dateTo).byDay.map ReportDailyPoint.date).Pairwise
      T.Before
  counts : ∀ dateFrom dateTo, let view := periodReport .binary64 T docs dateFrom dateTo
    view.count = (view.byDay.map ReportDailyPoint.count).sum
  anyOrder : ∀ docs', docs'.Perm docs → ∀ dateFrom dateTo,
    (periodReport .binary64 T docs' dateFrom dateTo).tally =
      (periodReport .binary64 T docs dateFrom dateTo).tally
  split : ∀ dateFrom dateTo instant, dateFrom ≤ instant → instant ≤ dateTo →
    (periodReport .binary64 T docs dateFrom dateTo).tally.IsSum
      (periodReport .binary64 T docs dateFrom (instant - 1)).tally
      (periodReport .binary64 T docs instant dateTo).tally
  /-- One point per day with a document, the report of that day. -/
  days : ∀ dateFrom dateTo,
    let within := docs.filter fun d => dateFrom ≤ d.date ∧ d.date ≤ dateTo
    (dailyReport .binary64 T dateFrom dateTo within).byDay.Perm
        ((reportedDays within).map (dayReport .binary64 T within)) ↔ SeparateDays within
  fourDigits : (∀ d ∈ docs, FourDigitYear d.day) → SeparateDays docs ∧ ∀ dateFrom dateTo,
    ((periodReport .binary64 T docs dateFrom dateTo).byDay.map ReportDailyPoint.date).Pairwise (· < ·)
  exact : SmallAmounts docs → ExactAmounts T docs

variable {R : Rounding} {T : Texts} {docs docs' : List Reported} {a b : UtcDate} {key : String}

/-! ## Totals -/

theorem Totals.add_assoc (a b c : Totals) : (a.add b).add c = a.add (b.add c) := by
  simp only [Totals.add, Totals.mk.injEq]
  refine ⟨by omega, by omega, by omega⟩

theorem Totals.add_comm (a b : Totals) : a.add b = b.add a := by
  simp only [Totals.add, Totals.mk.injEq]
  refine ⟨by omega, by omega, by omega⟩

@[simp] theorem Totals.zero_add (a : Totals) : (⟨0, 0, 0⟩ : Totals).add a = a := by
  simp [Totals.add]

@[simp] theorem Totals.addIn_exact (a b : Totals) : a.addIn .exact b = a.add b := by
  simp only [Totals.addIn, Rounding.exact_int, Totals.add]

instance : Add Totals := ⟨Totals.add⟩

instance : Zero Totals := ⟨⟨0, 0, 0⟩⟩

instance : AddCommMonoid Totals where
  add_assoc := Totals.add_assoc
  zero_add := Totals.zero_add
  add_zero a := (Totals.add_comm a _).trans a.zero_add
  add_comm := Totals.add_comm
  nsmul := nsmulRec

theorem sumTotals_eq_sum (ts : List Totals) : sumTotals ts = ts.sum := by
  have hfold : ∀ (ts : List Totals) (acc : Totals), ts.foldl Totals.add acc = acc + ts.sum := by
    intro ts
    induction ts with
    | nil => exact fun acc => (add_zero acc).symm
    | cons t ts ih =>
      intro acc
      rw [List.foldl_cons, ih, List.sum_cons]
      exact Totals.add_assoc acc t ts.sum
  rw [sumTotals, hfold]
  exact Totals.zero_add _

/-- The totals of documents, added up in their order. -/
def sumIn (R : Rounding) (docs : List Reported) : Totals :=
  docs.foldl (fun acc d => acc.addIn R d.totals) ⟨0, 0, 0⟩

theorem sumIn_concat (R : Rounding) (docs : List Reported) (d : Reported) :
    sumIn R (docs ++ [d]) = (sumIn R docs).addIn R d.totals := by
  simp [sumIn]

theorem sumIn_exact (docs : List Reported) : sumIn .exact docs = (docs.map Reported.totals).sum := by
  rw [← sumTotals_eq_sum, sumTotals, List.foldl_map, sumIn]
  simp only [Totals.addIn_exact]

/-! ## The point of a key -/

/-- The sum of the documents filed under a key. -/
def pointOf (R : Rounding) (docs : List Reported) (key : String) : ReportDailyPoint :=
  let filed := docs.filter fun d => d.key = key
  ⟨key, filed.length, sumIn R filed⟩

def filed (R : Rounding) (docs : List Reported) : List (String × ReportDailyPoint) :=
  groups Reported.key (fun d => ⟨d.key, 0, ⟨0, 0, 0⟩⟩) (fun p d => p.file R d.totals) docs

theorem filed_concat (R : Rounding) (docs : List Reported) (d : Reported) :
    filed R (docs ++ [d]) = mapUpdate d.key (ReportDailyPoint.file R d.totals)
      ⟨d.key, 0, ⟨0, 0, 0⟩⟩ (filed R docs) := groups_concat docs d

theorem foldl_file (docs : List Reported) (p : ReportDailyPoint) :
    docs.foldl (fun p d => p.file R d.totals) p = ⟨p.date, p.count + docs.length,
      docs.foldl (fun acc d => acc.addIn R d.totals) p.totals⟩ := by
  induction docs generalizing p with
  | nil => rfl
  | cons d docs ih =>
    rw [List.foldl_cons, ih]
    simp only [ReportDailyPoint.file, List.length_cons, List.foldl_cons, ReportDailyPoint.mk.injEq,
      true_and, and_true]
    omega

/-- What the loop leaves. -/
theorem accumulated (R : Rounding) (docs : List Reported) :
    docs.foldl (fun acc d => acc.add R d.date d.totals) ({} : DailyAccumulator) =
      ⟨filed R docs, docs.length, sumIn R docs⟩ := by
  induction docs using List.reverseRecOn with
  | nil => rfl
  | append_singleton docs d ih =>
    rw [List.foldl_append, List.foldl_cons, List.foldl_nil, ih, filed_concat, List.length_append,
      sumIn_concat]
    rfl

theorem point_filed {kp : String × ReportDailyPoint} (h : kp ∈ filed R docs) :
    kp.2 = pointOf R docs kp.1 := by
  obtain ⟨d, -, hk, hp⟩ := of_mem_groups h
  rw [hp, foldl_file, Nat.zero_add, hk]
  rfl

theorem mem_filed {p : ReportDailyPoint} :
    p ∈ (filed R docs).map Prod.snd ↔ (∃ d ∈ docs, d.key = p.date) ∧ p = pointOf R docs p.date := by
  constructor
  · intro hp
    obtain ⟨kp, hkp, rfl⟩ := List.mem_map.1 hp
    rw [point_filed hkp]
    exact ⟨mem_keys_groups.1 (List.mem_map_of_mem hkp), rfl⟩
  · rintro ⟨hkey, hp⟩
    obtain ⟨kp, hkp, hk⟩ := List.mem_map.1 (mem_keys_groups.2 hkey)
    exact List.mem_map.2 ⟨kp, hkp, by rw [point_filed hkp, hk, ← hp]⟩

theorem dates_filed (R : Rounding) (docs : List Reported) :
    ((filed R docs).map Prod.snd).map ReportDailyPoint.date = (filed R docs).map Prod.fst := by
  rw [List.map_map]
  refine List.map_congr_left fun kp hkp => ?_
  rw [Function.comp_apply, point_filed hkp]
  rfl

theorem nodup_filed (R : Rounding) (docs : List Reported) :
    (((filed R docs).map Prod.snd).map ReportDailyPoint.date).Nodup := by
  rw [dates_filed]
  exact nodup_groups docs

/-! ## The report -/

theorem dailyReport_eq (R : Rounding) (T : Texts) (a b : UtcDate) (docs : List Reported) :
    dailyReport R T a b docs =
      ⟨a, b, docs.length, sumIn R docs,
        ((filed R docs).map Prod.snd).mergeSort fun p q => T.localeCompare p.date q.date⟩ := by
  rw [dailyReport, accumulated]
  rfl

theorem byDay_perm (R : Rounding) (T : Texts) (a b : UtcDate) (docs : List Reported) :
    (dailyReport R T a b docs).byDay.Perm ((filed R docs).map Prod.snd) := by
  rw [dailyReport_eq]
  exact List.mergeSort_perm ..

theorem mem_byDay {p : ReportDailyPoint} : p ∈ (dailyReport R T a b docs).byDay ↔
    (∃ d ∈ docs, d.key = p.date) ∧ p = pointOf R docs p.date := by
  rw [(byDay_perm R T a b docs).mem_iff, mem_filed]

theorem nodup_byDay (R : Rounding) (T : Texts) (a b : UtcDate) (docs : List Reported) :
    ((dailyReport R T a b docs).byDay.map ReportDailyPoint.date).Nodup :=
  ((byDay_perm R T a b docs).map _).nodup_iff.2 (nodup_filed R docs)

theorem dayKey_signed (t : UtcDate) : SignedText (dayKey t) := by
  have hyear : ∀ year, SignedText (isoYear year) := by
    intro year c hc
    rw [isoYear] at hc
    split at hc
    · exact .inl (padStart_digits _ _ c hc)
    · rw [String.toList_append, List.mem_append] at hc
      rcases hc with hsign | hdigit
      · split at hsign
        · exact .inr (.inl (List.mem_singleton.1 hsign))
        · exact .inr (.inr (List.mem_singleton.1 hsign))
      · exact .inl (padStart_digits _ _ c hdigit)
  intro c hc
  rw [dayKey, String.toList_ofList] at hc
  have hiso := List.mem_of_mem_take hc
  simp only [isoDate, String.toList_append, List.mem_append] at hiso
  rcases hiso with (((h | h) | h) | h) | h
  · exact hyear _ c h
  · exact .inr (.inl (List.mem_singleton.1 h))
  · exact .inl (padStart_digits _ _ c h)
  · exact .inr (.inl (List.mem_singleton.1 h))
  · exact .inl (padStart_digits _ _ c h)

theorem dayKey_numeric {t : UtcDate} (h : FourDigitYear (dayOf t)) : NumericText (dayKey t) := by
  intro c hc
  rw [dayKey_eq h, isoDate_toList h] at hc
  simp only [List.mem_append, List.mem_cons, List.not_mem_nil, or_false] at hc
  rcases hc with h | h | h | h | h
  · exact .inl (padStart_digits _ _ c h)
  · exact .inr h
  · exact .inl (padStart_digits _ _ c h)
  · exact .inr h
  · exact .inl (padStart_digits _ _ c h)

theorem date_signed {p : ReportDailyPoint} (hp : p ∈ (filed R docs).map Prod.snd) :
    SignedText p.date := by
  obtain ⟨⟨d, -, hd⟩, -⟩ := mem_filed.1 hp
  rw [← hd]
  exact dayKey_signed d.date

theorem byDay_increasing (R : Rounding) (hT : T.Collates) (a b : UtcDate) (docs : List Reported) :
    ((dailyReport R T a b docs).byDay.map ReportDailyPoint.date).Pairwise T.Before := by
  rw [dailyReport_eq]
  exact hT.pairwise (fun _ => date_signed) (nodup_filed R docs)

/-- What the points add up to is what the documents add up to. -/
theorem sum_byDay {M : Type} [AddCommMonoid M] {g : ReportDailyPoint → M} {w : Reported → M}
    (hfile : ∀ p (d : Reported), g (p.file R d.totals) = g p + w d)
    (hzero : ∀ key, g ⟨key, 0, ⟨0, 0, 0⟩⟩ = 0) (T : Texts) (a b : UtcDate) (docs : List Reported) :
    ((dailyReport R T a b docs).byDay.map g).sum = (docs.map w).sum := by
  have hgroups : ((filed R docs).map fun kp => g kp.2).sum = (docs.map w).sum :=
    sum_groups hfile (fun d => hzero d.key) docs
  rw [((byDay_perm R T a b docs).map g).sum_eq, List.map_map]
  exact hgroups

theorem byDay_counts (R : Rounding) (T : Texts) (a b : UtcDate) (docs : List Reported) :
    let view := dailyReport R T a b docs
    view.count = (view.byDay.map ReportDailyPoint.count).sum := by
  intro view
  have hview : view = _ := dailyReport_eq R T a b docs
  rw [sum_byDay (w := fun _ => 1) (fun _ _ => rfl) (fun _ => rfl), hview]
  simp

/-! ## Without rounding -/

/-- Points and sums of exact amounts. -/
theorem byDay_totals (T : Texts) (a b : UtcDate) (docs : List Reported) :
    let view := dailyReport .exact T a b docs
    view.totals = sumTotals (view.byDay.map ReportDailyPoint.totals) := by
  intro view
  have hview : view = _ := dailyReport_eq .exact T a b docs
  have hfile : ∀ (p : ReportDailyPoint) (d : Reported),
      (p.file .exact d.totals).totals = p.totals + d.totals := fun p d => Totals.addIn_exact ..
  rw [sumTotals_eq_sum, sum_byDay (w := Reported.totals) hfile (fun _ => rfl), hview]
  exact sumIn_exact docs

theorem pointOf_perm (h : docs'.Perm docs) (key : String) :
    pointOf .exact docs' key = pointOf .exact docs key := by
  have hfiled := h.filter fun d => d.key = key
  simp only [pointOf, hfiled.length_eq, sumIn_exact, (hfiled.map Reported.totals).sum_eq]

/-- A report is of a set of documents. -/
theorem dailyReport_perm (hT : T.Collates) (a b : UtcDate) (h : docs'.Perm docs) :
    dailyReport .exact T a b docs' = dailyReport .exact T a b docs := by
  have hpoints : ((filed .exact docs').map Prod.snd).Perm ((filed .exact docs).map Prod.snd) := by
    refine (List.perm_ext_iff_of_nodup (nodup_filed _ docs').of_map (nodup_filed _ docs).of_map).2 ?_
    intro p
    rw [mem_filed, mem_filed, pointOf_perm h]
    exact and_congr_left' (exists_congr fun d => and_congr_left' h.mem_iff)
  rw [dailyReport_eq, dailyReport_eq, h.length_eq, sumIn_exact, sumIn_exact,
    (h.map Reported.totals).sum_eq]
  congr 1
  refine hT.mergeSort_eq hpoints (fun _ => date_signed) fun p hp q hq hdate => ?_
  rw [(mem_filed.1 hp).2, (mem_filed.1 hq).2, hdate]

theorem pointOf_append (xs ys : List Reported) (key : String) :
    pointOf .exact (xs ++ ys) key = (pointOf .exact xs key).add (pointOf .exact ys key) := by
  simp only [pointOf, ReportDailyPoint.add, List.filter_append, List.length_append, List.map_append,
    sumIn_exact, List.sum_append, ReportDailyPoint.mk.injEq, true_and]
  rfl

theorem dates_byDay : key ∈ (dailyReport R T a b docs).byDay.map ReportDailyPoint.date ↔
    ∃ d ∈ docs, d.key = key := by
  rw [((byDay_perm R T a b docs).map _).mem_iff, dates_filed]
  exact mem_keys_groups

theorem point_dailyReport (R : Rounding) (T : Texts) (a b : UtcDate) (docs : List Reported)
    (key : String) : (dailyReport R T a b docs).point key = pointOf R docs key := by
  rw [ReportView.point]
  cases hfind : (dailyReport R T a b docs).byDay.find? fun p => p.date = key with
  | some p =>
    have hdate : p.date = key := by simpa using List.find?_some hfind
    rw [Option.getD_some, (mem_byDay.1 (List.mem_of_find?_eq_some hfind)).2, hdate]
  | none =>
    have hnone : (docs.filter fun d => d.key = key) = [] := by
      refine List.filter_eq_nil_iff.2 fun d hd hkey => ?_
      obtain ⟨p, hp, hdate⟩ := List.mem_map.1 (dates_byDay.2 ⟨d, hd, of_decide_eq_true hkey⟩)
      exact List.find?_eq_none.1 hfind p hp (decide_eq_true hdate)
    rw [Option.getD_none, pointOf, hnone]
    rfl

/-- The documents of two lists. -/
theorem dailyReport_append (T : Texts) {a₁ b₁ a₂ b₂ : UtcDate} (xs ys : List Reported) :
    (dailyReport .exact T a b (xs ++ ys)).IsSum (dailyReport .exact T a₁ b₁ xs)
      (dailyReport .exact T a₂ b₂ ys) where
  count := by
    simp only [dailyReport_eq, List.length_append]
  totals := by
    simp only [dailyReport_eq, List.map_append, sumIn_exact, List.sum_append]
    rfl
  days key := by
    rw [dates_byDay, dates_byDay, dates_byDay]
    simp only [List.mem_append, or_and_right, exists_or]
  points key := by
    rw [point_dailyReport, point_dailyReport, point_dailyReport, pointOf_append]

/-- The bounds of the parts, of whole milliseconds. -/
theorem within_early {a b s x : Int} (h : s ≤ b) :
    x < s ∧ a ≤ x ∧ x ≤ b ↔ a ≤ x ∧ x ≤ s - 1 := by omega

theorem within_late {a b s x : Int} (h : a ≤ s) :
    ¬ x < s ∧ a ≤ x ∧ x ≤ b ↔ s ≤ x ∧ x ≤ b := by omega

theorem periodReport_split (hT : T.Collates) {instant : UtcDate} (hfrom : a ≤ instant)
    (hto : instant ≤ b) (docs : List Reported) :
    (periodReport .exact T docs a b).IsSum (periodReport .exact T docs a (instant - 1))
      (periodReport .exact T docs instant b) := by
  have hearly : (docs.filter fun d => a ≤ d.date ∧ d.date ≤ b).filter (fun d => d.date < instant) =
      docs.filter fun d => a ≤ d.date ∧ d.date ≤ instant - 1 := by
    rw [List.filter_filter]
    refine List.filter_congr fun d _ => ?_
    rw [← Bool.decide_and]
    exact decide_eq_decide.2 (within_early hto)
  have hlate : (docs.filter fun d => a ≤ d.date ∧ d.date ≤ b).filter
      (fun d => !decide (d.date < instant)) =
        docs.filter fun d => instant ≤ d.date ∧ d.date ≤ b := by
    rw [List.filter_filter]
    refine List.filter_congr fun d _ => ?_
    rw [← decide_not, ← Bool.decide_and]
    exact decide_eq_decide.2 (within_late hfrom)
  have hparts := List.filter_append_perm (fun d => decide (d.date < instant))
    (docs.filter fun d => a ≤ d.date ∧ d.date ≤ b)
  rw [hearly, hlate] at hparts
  rw [periodReport, ← dailyReport_perm hT a b hparts]
  exact dailyReport_append T _ _

/-! ## Counts -/

/-- The rounding is of the amounts only. -/
theorem tally_filed (R : Rounding) (docs : List Reported) :
    (filed R docs).map (Prod.map id ReportDailyPoint.tally) =
      groups Reported.key (fun d => ⟨d.key, 0, ⟨0, 0, 0⟩⟩)
        (fun p _ => { p with count := p.count + 1 }) docs :=
  map_groups ReportDailyPoint.tally (fun _ _ => rfl) docs

theorem tally_dailyReport (R R' : Rounding) (T : Texts) (a b : UtcDate) (docs : List Reported) :
    (dailyReport R T a b docs).tally = (dailyReport R' T a b docs).tally := by
  have htally : ∀ R, ((filed R docs).map Prod.snd).map ReportDailyPoint.tally =
      ((filed R docs).map (Prod.map id ReportDailyPoint.tally)).map Prod.snd := by
    intro R
    rw [List.map_map, List.map_map]
    rfl
  have hsort : ∀ ps : List ReportDailyPoint,
      (ps.mergeSort fun p q => T.localeCompare p.date q.date).map ReportDailyPoint.tally =
        (ps.map ReportDailyPoint.tally).mergeSort fun p q => T.localeCompare p.date q.date :=
    fun ps => List.map_mergeSort fun _ _ _ _ => rfl
  rw [dailyReport_eq, dailyReport_eq, ReportView.tally, ReportView.tally, hsort, hsort, htally,
    htally, tally_filed, tally_filed]

theorem ReportView.point_tally (view : ReportView) (key : String) :
    view.tally.point key = (view.point key).tally := by
  have hdates : ∀ ps : List ReportDailyPoint,
      (ps.map ReportDailyPoint.tally).find? (fun p => p.date = key) =
        (ps.find? fun p => p.date = key).map ReportDailyPoint.tally := fun ps => List.find?_map ..
  rw [ReportView.point, ReportView.point, ReportView.tally, hdates]
  cases view.byDay.find? fun p => p.date = key with
  | none => rfl
  | some p => rfl

theorem ReportView.IsSum.tally {view early late : ReportView} (h : view.IsSum early late) :
    view.tally.IsSum early.tally late.tally := by
  have hdates : ∀ view : ReportView,
      view.tally.byDay.map ReportDailyPoint.date = view.byDay.map ReportDailyPoint.date := by
    intro view
    rw [ReportView.tally, List.map_map]
    rfl
  refine ⟨h.count, rfl, fun key => ?_, fun key => ?_⟩
  · rw [hdates, hdates, hdates]
    exact h.days key
  · rw [point_tally, point_tally, point_tally, h.points key]
    rfl

/-! ## Small amounts -/

theorem SmallAmounts.sublist (h : SmallAmounts docs) (hsub : docs'.Sublist docs) :
    SmallAmounts docs' := by
  have hsum : ∀ f : Reported → Int, (docs'.map fun d => |f d|).sum ≤ (docs.map fun d => |f d|).sum :=
    fun f => (hsub.map _).sum_le_sum fun x hx => by
      obtain ⟨d, -, rfl⟩ := List.mem_map.1 hx
      exact abs_nonneg _
  exact ⟨(hsum _).trans h.excludingTax, (hsum _).trans h.vat, (hsum _).trans h.includingTax⟩

theorem SmallAmounts.perm (h : SmallAmounts docs) (hperm : docs'.Perm docs) : SmallAmounts docs' := by
  have hsum : ∀ f : Reported → Int, (docs'.map fun d => |f d|).sum = (docs.map fun d => |f d|).sum :=
    fun f => (hperm.map _).sum_eq
  exact ⟨(hsum _).trans_le h.excludingTax, (hsum _).trans_le h.vat, (hsum _).trans_le h.includingTax⟩

theorem sumIn_eq (R : Rounding) (docs : List Reported) :
    sumIn R docs = ⟨R.sum (docs.map fun d => d.totals.totalExcludingTax),
      R.sum (docs.map fun d => d.totals.totalVat),
      R.sum (docs.map fun d => d.totals.totalIncludingTax)⟩ := by
  induction docs using List.reverseRecOn with
  | nil => rfl
  | append_singleton docs d ih =>
    rw [sumIn_concat, ih]
    simp only [Totals.addIn, List.map_append, List.map_singleton, Rounding.sum_concat]

/-- Small amounts add up without rounding. -/
theorem sumIn_small (h : SmallAmounts docs) : sumIn .binary64 docs = sumIn .exact docs := by
  have hsum : ∀ f : Reported → Int, (docs.map fun d => |f d|).sum ≤ 2 ^ 53 →
      Rounding.binary64.sum (docs.map f) = Rounding.exact.sum (docs.map f) := by
    intro f hf
    rw [Rounding.exact_sum, Rounding.binary64_sum]
    rw [List.map_map]
    exact hf
  rw [sumIn_eq, sumIn_eq, hsum _ h.excludingTax, hsum _ h.vat, hsum _ h.includingTax]

theorem filed_eq (R : Rounding) (docs : List Reported) :
    filed R docs = ((filed .exact docs).map Prod.fst).map fun key => (key, pointOf R docs key) := by
  have hkeys : ∀ R, (filed R docs).map Prod.fst =
      ((filed R docs).map (Prod.map id ReportDailyPoint.tally)).map Prod.fst := by
    intro R
    rw [List.map_map]
    rfl
  have hsame : (filed .exact docs).map Prod.fst = (filed R docs).map Prod.fst := by
    rw [hkeys, hkeys, tally_filed, tally_filed]
  rw [hsame, List.map_map]
  exact (List.map_id _).symm.trans
    (List.map_congr_left fun kp hkp => Prod.ext rfl (point_filed hkp))

/-- A report of small amounts is the exact one. -/
theorem dailyReport_small (h : SmallAmounts docs) (T : Texts) (a b : UtcDate) :
    dailyReport .binary64 T a b docs = dailyReport .exact T a b docs := by
  have hpoint : ∀ key, pointOf .binary64 docs key = pointOf .exact docs key := by
    intro key
    rw [pointOf, pointOf, sumIn_small (h.sublist List.filter_sublist)]
  have hfiled : filed .binary64 docs = filed .exact docs := by
    rw [filed_eq .binary64 docs, funext hpoint]
    exact (filed_eq .exact docs).symm
  rw [dailyReport_eq, dailyReport_eq, sumIn_small h, hfiled]

theorem exactAmounts (hT : T.Collates) (h : SmallAmounts docs) : ExactAmounts T docs := by
  have hexact : ∀ {docs'}, SmallAmounts docs' →
      periodReport .binary64 T docs' = periodReport .exact T docs' := by
    intro docs' h'
    funext a b
    exact dailyReport_small (h'.sublist List.filter_sublist) T a b
  constructor
  · intro dateFrom dateTo
    rw [hexact h]
    exact byDay_totals T dateFrom dateTo _
  · intro docs' hperm
    rw [hexact h, hexact (h.perm hperm)]
    funext dateFrom dateTo
    exact dailyReport_perm hT dateFrom dateTo (hperm.filter _)
  · intro dateFrom dateTo instant hfrom hto
    rw [hexact h]
    exact periodReport_split hT hfrom hto docs

/-! ## Days -/

theorem key_eq (d : Reported) : d.key = dayKey (midnight d.day) := by
  rw [dayKey, dayOf_midnight]
  rfl

theorem mem_reportedDays {n : Int} : n ∈ reportedDays docs ↔ ∃ d ∈ docs, d.day = n := by
  rw [reportedDays, List.mem_dedup, List.mem_map]

/-- The report of a day is the point of its key, where the key names one day. -/
theorem dayReport_eq (R : Rounding) (T : Texts) (h : SeparateDays docs) {n : Int}
    (hn : n ∈ reportedDays docs) :
    dayReport R T docs n = pointOf R docs (dayKey (midnight n)) := by
  obtain ⟨d₀, hd₀, rfl⟩ := mem_reportedDays.1 hn
  have hfilter : (docs.filter fun d => midnight d₀.day ≤ d.date ∧ d.date ≤ midnight (d₀.day + 1) - 1) =
      docs.filter fun d => d.key = dayKey (midnight d₀.day) := by
    refine List.filter_congr fun d hd => decide_eq_decide.2 ?_
    have hday : d.day = d₀.day ↔ _ := dayOf_eq_iff
    rw [← key_eq]
    constructor
    · intro hwithin
      rw [key_eq d, key_eq d₀, hday.2 ⟨hwithin.1, Int.le_sub_one_iff.1 hwithin.2⟩]
    · intro hkey
      have hsame := hday.1 (h d hd d₀ hd₀ hkey)
      exact ⟨hsame.1, Int.le_sub_one_iff.2 hsame.2⟩
  rw [dayReport, periodReport, hfilter, dailyReport_eq]
  rfl

theorem dayReport_date (R : Rounding) (T : Texts) (docs : List Reported) (n : Int) :
    (dayReport R T docs n).date = dayKey (midnight n) := rfl

theorem days_iff (R : Rounding) (T : Texts) (a b : UtcDate) (docs : List Reported) :
    (dailyReport R T a b docs).byDay.Perm ((reportedDays docs).map (dayReport R T docs)) ↔
      SeparateDays docs := by
  constructor
  · intro hperm d hd d' hd' hkey
    have hnodup := ((hperm.map ReportDailyPoint.date).nodup_iff.1 (nodup_byDay R T a b docs))
    rw [List.map_map] at hnodup
    refine List.inj_on_of_nodup_map hnodup (mem_reportedDays.2 ⟨d, hd, rfl⟩)
      (mem_reportedDays.2 ⟨d', hd', rfl⟩) ?_
    rw [Function.comp_apply, Function.comp_apply, dayReport_date, dayReport_date, ← key_eq, ← key_eq,
      hkey]
  · intro h
    have hdistinct : ((reportedDays docs).map (dayReport R T docs)).Nodup := by
      refine (List.nodup_dedup _).map_on fun n hn n' hn' hpoint => ?_
      obtain ⟨d, hd, rfl⟩ := mem_reportedDays.1 hn
      obtain ⟨d', hd', rfl⟩ := mem_reportedDays.1 hn'
      refine h d hd d' hd' ?_
      rw [key_eq, key_eq, ← dayReport_date R T docs, ← dayReport_date R T docs, hpoint]
    refine (List.perm_ext_iff_of_nodup (nodup_byDay R T a b docs).of_map hdistinct).2 fun p => ?_
    rw [mem_byDay, List.mem_map]
    constructor
    · rintro ⟨⟨d, hd, hkey⟩, hp⟩
      have hday := mem_reportedDays.2 ⟨d, hd, rfl⟩
      exact ⟨d.day, hday, by rw [dayReport_eq R T h hday, ← key_eq, hkey, ← hp]⟩
    · rintro ⟨n, hn, rfl⟩
      rw [dayReport_eq R T h hn]
      obtain ⟨d, hd, rfl⟩ := mem_reportedDays.1 hn
      exact ⟨⟨d, hd, key_eq d⟩, rfl⟩

theorem separateDays_of_fourDigits (h : ∀ d ∈ docs, FourDigitYear d.day) : SeparateDays docs :=
  fun d hd d' hd' hkey => (dayKey_eq_iff (h d hd) (h d' hd')).1 hkey

/-- Keys with years of four digits compare as texts. -/
theorem byDay_chronological (R : Rounding) (hT : T.Collates)
    (h : ∀ d ∈ docs, FourDigitYear d.day) (a b : UtcDate) :
    ((dailyReport R T a b docs).byDay.map ReportDailyPoint.date).Pairwise (· < ·) := by
  refine (byDay_increasing R hT a b docs).imp_of_mem fun {x y} hx hy hbefore => ?_
  obtain ⟨d, hd, rfl⟩ := dates_byDay.1 hx
  obtain ⟨d', hd', rfl⟩ := dates_byDay.1 hy
  exact hT.lt_of_before (dayKey_numeric (h d hd)) (dayKey_numeric (h d' hd')) hbefore

/-! ## The result -/

theorem report_eq (R : Rounding) (T : Texts) (db : Db) (kind : DocKind) (e : Uuid) (a b : UtcDate) :
    (exec (ReportsRepository.report R T kind e ⟨some a, some b⟩) db).1 =
      .ok (periodReport R T (db.confirmed R kind e) a b) := by
  have hfilter : ((db.documents kind).rows.filter fun d =>
      d.enterpriseId = e ∧ d.status = .confirmed ∧ a ≤ d.date ∧ d.date ≤ b).map (Document.reported R) =
      (db.confirmed R kind e).filter fun d => a ≤ d.date ∧ d.date ≤ b := by
    rw [Db.confirmed, List.filter_map, List.filter_filter]
    refine congrArg _ (List.filter_congr fun d _ => ?_)
    rw [Function.comp_apply, ← Bool.decide_and, decide_eq_decide]
    constructor
    · rintro ⟨howner, hstatus, hperiod⟩
      exact ⟨hperiod, howner, hstatus⟩
    · rintro ⟨hperiod, howner, hstatus⟩
      exact ⟨howner, hstatus, hperiod⟩
  rw [periodReport, ← hfilter, dailyReport, List.foldl_map]
  exact exec_ask _ db

/-- `salesReport` and `purchasesReport` on the confirmed documents, and what such a report says. -/
theorem daily_reports_decompose (hT : T.Collates) (docs : List Reported) :
    (∀ db kind e dateFrom dateTo,
      (exec (ReportsRepository.report .binary64 T kind e ⟨some dateFrom, some dateTo⟩) db).1 =
        .ok (periodReport .binary64 T (db.confirmed .binary64 kind e) dateFrom dateTo)) ∧
      DailyReports T docs := by
  refine ⟨report_eq .binary64 T, ?_⟩
  constructor
  · exact fun dateFrom dateTo => byDay_increasing .binary64 hT dateFrom dateTo _
  · exact fun dateFrom dateTo => byDay_counts .binary64 T dateFrom dateTo _
  · intro docs' hperm dateFrom dateTo
    rw [periodReport, periodReport, tally_dailyReport .binary64 .exact,
      tally_dailyReport .binary64 .exact, dailyReport_perm hT dateFrom dateTo (hperm.filter _)]
  · intro dateFrom dateTo instant hfrom hto
    have hsplit := (periodReport_split hT hfrom hto docs).tally
    simp only [periodReport, tally_dailyReport .exact .binary64] at hsplit
    exact hsplit
  · exact fun dateFrom dateTo => days_iff .binary64 T dateFrom dateTo _
  · intro hyears
    refine ⟨separateDays_of_fourDigits hyears, fun dateFrom dateTo => ?_⟩
    exact byDay_chronological .binary64 hT (fun d hd => hyears d (List.mem_filter.1 hd).1) dateFrom
      dateTo
  · exact exactAmounts hT

/-- Two documents of February 2000, on the leap day and after. -/
theorem daily_reports_sample : DailyReports plainTexts
    [⟨951782400000, ⟨100, 18, 118⟩⟩, ⟨951868800000, ⟨200, 36, 236⟩⟩] :=
  (daily_reports_decompose plainTexts_collates _).2

/-- A sale of one line without VAT on the leap day. -/
def leapDaySale (quantity unitPriceExcludingTax : Int) (h : 0 < quantity) : Reported :=
  ⟨951782400000, ReportsRepository.totals .binary64
    [⟨1, 1, quantity, unitPriceExcludingTax, 0, h⟩]⟩

/-- January 1 and 2 of the year 10000 share the key `+010000-01`; 2^53 and twice 1 add up to 2^53,
twice 1 and 2^53 to 2^53 + 2. -/
theorem days_share_key :
    (¬ ∀ docs : List Reported, ∀ dateFrom dateTo,
      (dailyReport .binary64 plainTexts dateFrom dateTo docs).byDay.Perm
        ((reportedDays docs).map (dayReport .binary64 plainTexts docs))) ∧
      ¬ ∀ docs docs' : List Reported, docs'.Perm docs → ∀ dateFrom dateTo,
        periodReport .binary64 plainTexts docs' dateFrom dateTo =
          periodReport .binary64 plainTexts docs dateFrom dateTo := by
  constructor
  · intro h
    have hseparate := (days_iff .binary64 plainTexts 0 253402387200000 _).1
      (h [⟨253402300800000, ⟨0, 0, 0⟩⟩, ⟨253402387200000, ⟨0, 0, 0⟩⟩] 0 253402387200000)
    have hkeys : dayKey 253402300800000 = dayKey 253402387200000 := by decide +kernel
    have hday := hseparate _ List.mem_cons_self _ (List.mem_cons_of_mem _ List.mem_cons_self) hkeys
    exact absurd hday (by decide)
  · intro h
    have hsame := h
      ([leapDaySale 8388608 1073741824 (by decide)] ++
        [leapDaySale 1 1 (by decide), leapDaySale 1 1 (by decide)])
      ([leapDaySale 1 1 (by decide), leapDaySale 1 1 (by decide)] ++
        [leapDaySale 8388608 1073741824 (by decide)])
      List.perm_append_comm 0 951782400000
    have htotals := congrArg (fun view => view.totals.totalExcludingTax) hsame
    revert htotals
    decide +kernel

end Gescom.Erp
