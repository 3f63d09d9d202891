import Gescom.Erp.Reports
import Gescom.Lib.Decimal

/-!
# Dates as texts (`reports.repository.ts:67`, `reports.ts:9`)

A document is filed under the key of its day, and the clients send the texts of date inputs, which
`z.coerce.date()` reads as midnight in UTC. In the years 0000 to 9999 keys compare as the days do
(`dayKey_lt_iff`) and a text is read back to the day it names (`coerceDate_isoDate`); beyond them,
ten characters are the month only.
-/

namespace Gescom.Erp

open Calendar Decimal

/-- The days whose ISO date has a year of four digits. -/
def FourDigitYear (day : Int) : Prop :=
  0 ≤ (CivilDate.ofDay day).year ∧ (CivilDate.ofDay day).year ≤ 9999

instance (day : Int) : Decidable (FourDigitYear day) := inferInstanceAs (Decidable (_ ∧ _))

/-- The instant a day begins at. -/
def midnight (day : Int) : UtcDate := day * millisPerDay

/-- The text `YYYY-MM-DD` as a date of the calendar. -/
def parseDateOnly (s : String) : Option CivilDate :=
  let l := s.toList
  if l.length = 10 ∧ l[4]? = some '-' ∧ l[7]? = some '-' then
    some ⟨Nat.ofDigitChars 10 (l.take 4) 0, Nat.ofDigitChars 10 ((l.drop 5).take 2) 0,
      Nat.ofDigitChars 10 (l.drop 8) 0⟩
  else none

/-- `z.coerce.date()` on the text of a date input: `new Date` of a date alone is its midnight. -/
def coerceDate (s : String) : Option UtcDate :=
  (parseDateOnly s).map fun d => midnight d.toDay

variable {day day' : Int} {t t' : UtcDate} {n n' width : Nat}

/-! ## Fields -/

theorem padStart_digits (n width : Nat) : Digits (padStart n width).toList := by
  intro c hc
  rw [padStart, String.toList_ofList, List.leftpad, List.mem_append] at hc
  rcases hc with hzero | hdigit
  · rw [List.eq_of_mem_replicate hzero]
    rfl
  · exact Nat.isDigit_of_mem_toDigits (by decide) (by decide) hdigit

theorem length_padStart (hwidth : 0 < width) (h : n < 10 ^ width) :
    (padStart n width).toList.length = width := by
  have hlength := (Nat.length_toDigits_le_iff (by decide) hwidth).2 h
  rw [padStart, String.toList_ofList, List.length_leftpad]
  exact Nat.max_eq_left hlength

/-- Two fields as wide compare as their numbers, then by what follows. -/
theorem padStart_append_lt_iff (hwidth : 0 < width) (h : n < 10 ^ width) (h' : n' < 10 ^ width)
    (rest rest' : List Char) :
    (padStart n width).toList ++ rest < (padStart n' width).toList ++ rest' ↔
      n < n' ∨ n = n' ∧ rest < rest' := by
  have hlength := (length_padStart hwidth h).trans (length_padStart hwidth h').symm
  rw [append_lt_append_iff hlength,
    lt_iff_ofDigitChars_lt (padStart_digits n width) (padStart_digits n' width) hlength 0,
    ofDigitChars_padStart, ofDigitChars_padStart, String.toList_inj, padStart_inj]

/-! ## Dates -/

theorem year_lt (h : FourDigitYear day) : (CivilDate.ofDay day).year.toNat < 10 ^ 4 := by
  have := h.2
  omega

theorem month_lt (day : Int) : (CivilDate.ofDay day).month < 10 ^ 2 := by
  have := month_bounds day
  omega

theorem day_lt (day : Int) : (CivilDate.ofDay day).day < 10 ^ 2 := by
  have := day_bounds day
  omega

theorem isoDate_toList (h : FourDigitYear day) :
    (isoDate (CivilDate.ofDay day)).toList =
      (padStart (CivilDate.ofDay day).year.toNat 4).toList ++
        '-' :: ((padStart (CivilDate.ofDay day).month 2).toList ++
          '-' :: ((padStart (CivilDate.ofDay day).day 2).toList ++ [])) := by
  have hyear : isoYear (CivilDate.ofDay day).year = padStart (CivilDate.ofDay day).year.toNat 4 :=
    if_pos h
  rw [isoDate, hyear]
  simp [String.toList_append]

theorem length_isoDate (h : FourDigitYear day) :
    (isoDate (CivilDate.ofDay day)).toList.length = 10 := by
  rw [isoDate_toList h]
  simp only [List.length_append, List.length_cons, List.length_nil,
    length_padStart (by decide) (year_lt h), length_padStart (by decide) (month_lt day),
    length_padStart (by decide) (day_lt day)]

/-- Then the key is the whole date. -/
theorem dayKey_eq (h : FourDigitYear (dayOf t)) : dayKey t = isoDate (CivilDate.ofDay (dayOf t)) := by
  have htake := List.take_of_length_le (Nat.le_of_eq (length_isoDate h))
  rw [dayKey, htake, String.ofList_toList]

theorem isoDate_lt_iff (h : FourDigitYear day) (h' : FourDigitYear day') :
    isoDate (CivilDate.ofDay day) < isoDate (CivilDate.ofDay day') ↔ day < day' := by
  have hdash : ∀ l l' : List Char, '-' :: l < '-' :: l' ↔ l < l' := by
    intro l l'
    simp
  rw [String.lt_iff, isoDate_toList h, isoDate_toList h', ← before_ofDay_iff,
    padStart_append_lt_iff (by decide) (year_lt h) (year_lt h'), hdash,
    padStart_append_lt_iff (by decide) (month_lt day) (month_lt day'), hdash,
    padStart_append_lt_iff (by decide) (day_lt day) (day_lt day')]
  have hyear := h.1
  have hyear' := h'.1
  unfold CivilDate.Before
  simp only [List.lt_irrefl, and_false, or_false]
  omega

theorem dayKey_lt_iff (h : FourDigitYear (dayOf t)) (h' : FourDigitYear (dayOf t')) :
    dayKey t < dayKey t' ↔ dayOf t < dayOf t' := by
  rw [dayKey_eq h, dayKey_eq h', isoDate_lt_iff h h']

theorem dayKey_eq_iff (h : FourDigitYear (dayOf t)) (h' : FourDigitYear (dayOf t')) :
    dayKey t = dayKey t' ↔ dayOf t = dayOf t' := by
  constructor
  · intro hkey
    have hnot : ¬ dayKey t < dayKey t' := by
      rw [hkey]
      exact String.lt_irrefl _
    have hnot' : ¬ dayKey t' < dayKey t := by
      rw [hkey]
      exact String.lt_irrefl _
    rw [dayKey_lt_iff h h'] at hnot
    rw [dayKey_lt_iff h' h] at hnot'
    omega
  · intro hday
    rw [dayKey, hday, dayKey]

/-- The instants of a day. -/
theorem dayOf_eq_iff : dayOf t = day ↔ midnight day ≤ t ∧ t < midnight (day + 1) := by
  have hdiv : ∀ a b : Int, a / 86400000 = b ↔ b * 86400000 ≤ a ∧ a < (b + 1) * 86400000 := by
    intro a b
    omega
  exact hdiv t day

theorem dayOf_midnight (day : Int) : dayOf (midnight day) = day :=
  Int.mul_ediv_cancel day (by decide)

/-! ## Texts of date inputs -/

theorem parseDateOnly_isoDate (h : FourDigitYear day) :
    parseDateOnly (isoDate (CivilDate.ofDay day)) = some (CivilDate.ofDay day) := by
  have hyear := length_padStart (by decide) (year_lt h)
  have hmonth := length_padStart (by decide) (month_lt day)
  have hlength := length_isoDate h
  have hsign : (((CivilDate.ofDay day).year.toNat : Nat) : Int) = (CivilDate.ofDay day).year :=
    Int.toNat_of_nonneg h.1
  unfold parseDateOnly
  rw [isoDate_toList h] at hlength ⊢
  rw [if_pos ⟨hlength, by simp [hyear], by simp [hyear, hmonth, List.getElem?_append]⟩]
  have hdrop {l : List Char} {k m : Nat} (hk : l.length = k) (hkm : k ≤ m) : l.drop m = [] :=
    List.drop_eq_nil_of_le (hk ▸ hkm)
  simp [hyear, hmonth, List.drop_append, ofDigitChars_padStart, hsign,
    hdrop hyear (show 4 ≤ 5 by decide), hdrop hyear (show 4 ≤ 8 by decide),
    hdrop hmonth (show 2 ≤ 3 by decide)]

theorem coerceDate_isoDate (h : FourDigitYear day) :
    coerceDate (isoDate (CivilDate.ofDay day)) = some (midnight day) := by
  rw [coerceDate, parseDateOnly_isoDate h, Option.map_some, toDay_ofDay]

end Gescom.Erp
