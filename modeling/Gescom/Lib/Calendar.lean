import Mathlib.Algebra.Order.Ring.Int

/-!
# The Gregorian calendar

Days are counted from 1970-01-01, before and after it. `CivilDate.ofDay` is the date of a day and
`CivilDate.toDay` the day of a date. Both go through years that begin on March 1, so that the leap
day is the last one of its year; the days of `Y` are those from `marchFirst Y` to
`marchFirst (Y + 1)`, and that is all the proofs use of how the year is computed.
-/

namespace Calendar

structure CivilDate where
  year : Int
  month : Nat
  day : Nat
  deriving DecidableEq, Repr

/-- March 1 of a year, counted from March 1 of the year 0. -/
def marchFirst (year : Int) : Int := 365 * year + year / 4 - year / 100 + year / 400

/-- The year, in an era of 400 years, of one of its days. -/
def yearOfEra (dayOfEra : Int) : Int :=
  (dayOfEra - dayOfEra / 1460 + dayOfEra / 36524 - dayOfEra / 146096) / 365

/-- The year from March 1 to which a day counted from March 1 of the year 0 belongs. -/
def marchYear (z : Int) : Int := z / 146097 * 400 + yearOfEra (z % 146097)

/-- March 1 of the year 0, in days before 1970-01-01. -/
def epochOffset : Int := 719468

namespace CivilDate

/-- The date of a day of the year from March 1, whose months are numbered from 0. -/
def ofMarch (year dayOfYear : Int) : CivilDate :=
  let marchMonth := (5 * dayOfYear + 2) / 153
  { year := if marchMonth < 10 then year else year + 1
    month := (if marchMonth < 10 then marchMonth + 3 else marchMonth - 9).toNat
    day := (dayOfYear - (153 * marchMonth + 2) / 5 + 1).toNat }

def ofDay (day : Int) : CivilDate :=
  let z := day + epochOffset
  ofMarch (marchYear z) (z - marchFirst (marchYear z))

def toDay (d : CivilDate) : Int :=
  let marchMonth : Int := (d.month + 9) % 12
  let year := if d.month ≤ 2 then d.year - 1 else d.year
  marchFirst year + (153 * marchMonth + 2) / 5 + d.day - 1 - epochOffset

/-- Earlier in the calendar. -/
def Before (d d' : CivilDate) : Prop :=
  d.year < d'.year ∨ d.year = d'.year ∧ (d.month < d'.month ∨ d.month = d'.month ∧ d.day < d'.day)

instance (d d' : CivilDate) : Decidable (d.Before d') := inferInstanceAs (Decidable (_ ∨ _))

end CivilDate

open CivilDate

/-! ## Years -/

theorem marchFirst_mono {y y' : Int} (h : y ≤ y') : marchFirst y ≤ marchFirst y' := by
  unfold marchFirst
  omega

/-- An era has as many days as any other. -/
theorem marchFirst_era (era y : Int) : marchFirst (era * 400 + y) = 146097 * era + marchFirst y := by
  have hfour : (era * 400 + y) / 4 = era * 100 + y / 4 := by omega
  have hcentury : (era * 400 + y) / 100 = era * 4 + y / 100 := by omega
  have hera : (era * 400 + y) / 400 = era + y / 400 := by omega
  unfold marchFirst
  rw [hfour, hcentury, hera]
  omega

section
variable {n : Int} (hn : 0 ≤ n) (hn' : n < 146097)
include hn hn'

theorem yearOfEra_bounds : 0 ≤ yearOfEra n ∧ yearOfEra n ≤ 399 := by
  unfold yearOfEra
  constructor
  · omega
  · omega

theorem marchFirst_yearOfEra_le : marchFirst (yearOfEra n) ≤ n := by
  obtain ⟨hnonneg, hle⟩ := yearOfEra_bounds hn hn'
  have hleaps : yearOfEra n / 4 ≤ n / 1460 := by
    unfold yearOfEra
    omega
  have hcenturies : n / 36524 - n / 146096 ≤ yearOfEra n / 100 := by
    have hcases : n / 36524 = 0 ∨ n / 36524 = 1 ∨ n / 36524 = 2 ∨ n / 36524 = 3 ∨
      n / 36524 = 4 := by omega
    unfold yearOfEra
    omega
  have hyears : 365 * yearOfEra n ≤ n - n / 1460 + n / 36524 - n / 146096 := by
    unfold yearOfEra
    omega
  unfold marchFirst
  omega

theorem lt_marchFirst_yearOfEra : n < marchFirst (yearOfEra n + 1) := by
  have hleaps : n / 1460 ≤ (yearOfEra n + 1) / 4 := by
    unfold yearOfEra
    omega
  have hyears : n - n / 1460 + n / 36524 - n / 146096 < 365 * (yearOfEra n + 1) := by
    unfold yearOfEra
    omega
  have hlast : n = 146096 ∨ n / 146096 = 0 := by omega
  obtain rfl | hlast := hlast
  · decide
  · have hcases : n / 36524 = 0 ∨ n / 36524 = 1 ∨ n / 36524 = 2 ∨ n / 36524 = 3 := by omega
    have hcentury : 100 * (n / 36524) ≤ yearOfEra n ∧
        yearOfEra n ≤ 100 * (n / 36524) + 99 := by
      unfold yearOfEra
      omega
    unfold marchFirst
    -- the last year of a century, which its first day does not count yet, or another one
    by_cases hfull : yearOfEra n = 100 * (n / 36524) + 99
    · omega
    · have hsame : (yearOfEra n + 1) / 100 = n / 36524 := by omega
      omega

end

/-- The year a day belongs to. -/
theorem marchYear_spec (z : Int) :
    marchFirst (marchYear z) ≤ z ∧ z < marchFirst (marchYear z + 1) := by
  have hnonneg := Int.emod_nonneg z (show (146097 : Int) ≠ 0 by decide)
  have hlt := Int.emod_lt_of_pos z (show (0 : Int) < 146097 by decide)
  have hle := marchFirst_yearOfEra_le hnonneg hlt
  have hlt' := lt_marchFirst_yearOfEra hnonneg hlt
  have hdiv := Int.mul_ediv_add_emod z 146097
  unfold marchYear
  rw [add_assoc, marchFirst_era, marchFirst_era]
  constructor
  · omega
  · omega

theorem marchYear_mono {z z' : Int} (h : z ≤ z') : marchYear z ≤ marchYear z' := by
  by_contra hlt
  have hmono := marchFirst_mono (show marchYear z' + 1 ≤ marchYear z by omega)
  have hz := (marchYear_spec z).1
  have hz' := (marchYear_spec z').2
  omega

/-- The leap day is the last day of its year. -/
theorem dayOfYear_bounds (z : Int) :
    0 ≤ z - marchFirst (marchYear z) ∧ z - marchFirst (marchYear z) ≤ 365 := by
  obtain ⟨hle, hlt⟩ := marchYear_spec z
  have hlength : marchFirst (marchYear z + 1) ≤ marchFirst (marchYear z) + 366 := by
    unfold marchFirst
    omega
  constructor
  · omega
  · omega

/-! ## Dates -/

/-- The months, counted from March of the year 0. -/
theorem ofMarch_months {y n : Int} (hn : 0 ≤ n) (hn' : n ≤ 365) :
    12 * (ofMarch y n).year + (ofMarch y n).month = 12 * y + (5 * n + 2) / 153 + 3 ∧
      1 ≤ (ofMarch y n).month ∧ (ofMarch y n).month ≤ 12 := by
  simp only [ofMarch]
  split
  · omega
  · omega

theorem ofMarch_day (y n : Int) :
    ((ofMarch y n).day : Int) = n - (153 * ((5 * n + 2) / 153) + 2) / 5 + 1 ∧
      1 ≤ (ofMarch y n).day ∧ (ofMarch y n).day ≤ 31 := by
  simp only [ofMarch]
  omega

theorem month_bounds (day : Int) : 1 ≤ (ofDay day).month ∧ (ofDay day).month ≤ 12 :=
  (ofMarch_months (dayOfYear_bounds _).1 (dayOfYear_bounds _).2).2

theorem day_bounds (day : Int) : 1 ≤ (ofDay day).day ∧ (ofDay day).day ≤ 31 :=
  (ofMarch_day _ _).2

theorem toDay_ofMarch {y n : Int} (hn : 0 ≤ n) (hn' : n ≤ 365) :
    (ofMarch y n).toDay = marchFirst y + n - epochOffset := by
  have hcount : (((ofMarch y n).month : Int) + 9) % 12 = (5 * n + 2) / 153 := by
    simp only [ofMarch]
    split
    · omega
    · omega
  have hyear : (if (ofMarch y n).month ≤ 2 then (ofMarch y n).year - 1 else (ofMarch y n).year) =
      y := by
    obtain ⟨hmonths, hfirst, hlast⟩ := ofMarch_months (y := y) hn hn'
    split
    · omega
    · omega
  rw [toDay, hcount, hyear, (ofMarch_day y n).1]
  omega

/-- A date is that of one day only. -/
theorem toDay_ofDay (day : Int) : (ofDay day).toDay = day := by
  obtain ⟨hn, hn'⟩ := dayOfYear_bounds (day + epochOffset)
  rw [ofDay, toDay_ofMarch hn hn']
  omega

theorem before_ofMarch {y y' n n' : Int} (hn : 0 ≤ n ∧ n ≤ 365) (hn' : 0 ≤ n' ∧ n' ≤ 365)
    (h : y < y' ∨ y = y' ∧ n < n') : (ofMarch y n).Before (ofMarch y' n') := by
  have hmonths := ofMarch_months (y := y) hn.1 hn.2
  have hmonths' := ofMarch_months (y := y') hn'.1 hn'.2
  have hday := (ofMarch_day y n).1
  have hday' := (ofMarch_day y' n').1
  unfold CivilDate.Before
  omega

/-- A later day has a later date. -/
theorem before_ofDay {a b : Int} (h : a < b) : (ofDay a).Before (ofDay b) := by
  refine before_ofMarch (dayOfYear_bounds _) (dayOfYear_bounds _) ?_
  have hyear := marchYear_mono (show a + epochOffset ≤ b + epochOffset by omega)
  obtain hsame | hlt := Int.le_iff_eq_or_lt.1 hyear
  · right
    rw [hsame]
    exact ⟨rfl, by omega⟩
  · exact .inl hlt

theorem Before.asymm {d d' : CivilDate} (h : d.Before d') : ¬ d'.Before d := by
  unfold CivilDate.Before at *
  omega

theorem before_ofDay_iff {a b : Int} : (ofDay a).Before (ofDay b) ↔ a < b := by
  refine ⟨fun h => ?_, before_ofDay⟩
  obtain hlt | rfl | hgt := lt_trichotomy a b
  · exact hlt
  · exact absurd h (Before.asymm h)
  · exact absurd h (Before.asymm (before_ofDay hgt))

end Calendar
