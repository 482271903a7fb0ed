import Mathlib.Algebra.Order.Ring.Int

/-!
# The Gregorian calendar

Days are counted from the first of January 1970. In a year that begins in March the leap day is the
last one, so that the days before a month do not depend on the year; `Calendar.daysBefore` are the
days before such a year. A number of days is taken apart into the blocks of 400, 100, 4 and 1
years (`Calendar.marchYear`), and a day of the year into a month and a day of the month.

The date of a number of days is a date (`Calendar.Date.isDate_ofDays`), and has this number
(`Calendar.Date.toDays_ofDays`).
-/

namespace Calendar

/-! ### Years that begin in March -/

/-- The days before a year, from the first of March of the year zero. -/
def daysBefore (year : ℤ) : ℤ := 365 * year + year / 4 - year / 100 + year / 400

/-- **The year of a day**, and the number of the day in it. The last day of a block of 400 years,
and that of a block of four, belong to the last century and to the last year. -/
def marchYear (n : ℤ) : ℤ × ℤ :=
  let century := min (n % 146097 / 36524) 3
  let ofCentury := n % 146097 - 36524 * century
  let year := min (ofCentury % 1461 / 365) 3
  (400 * (n / 146097) + 100 * century + 4 * (ofCentury / 1461) + year,
    ofCentury % 1461 - 365 * year)

/-- The days before a year, block by block. -/
theorem daysBefore_blocks {era century four year : ℤ} (hcentury : 0 ≤ century)
    (hcentury' : century ≤ 3) (hfour : 0 ≤ four) (hfour' : four ≤ 24) (hyear : 0 ≤ year)
    (hyear' : year ≤ 3) :
    daysBefore (400 * era + 100 * century + 4 * four + year) =
      146097 * era + 36524 * century + 1461 * four + 365 * year := by
  unfold daysBefore
  omega

theorem daysBefore_marchYear (n : ℤ) : daysBefore (marchYear n).1 + (marchYear n).2 = n := by
  unfold marchYear
  dsimp only
  rw [daysBefore_blocks (by omega) (by omega) (by omega) (by omega) (by omega) (by omega)]
  omega

/-- A year has 366 days at most. -/
theorem marchYear_day_mem (n : ℤ) : 0 ≤ (marchYear n).2 ∧ (marchYear n).2 ≤ 365 := by
  unfold marchYear
  dsimp only
  omega

theorem marchYear_year_mem (n : ℤ) :
    400 * (n / 146097) ≤ (marchYear n).1 ∧ (marchYear n).1 ≤ 400 * (n / 146097) + 399 := by
  unfold marchYear
  dsimp only
  omega

/-! ### Dates -/

/-- A date; the first month is January. -/
structure Date where
  year : ℤ
  month : ℤ
  day : ℤ
  deriving DecidableEq, Repr

namespace Date

/-- The days from the first of January 1970. -/
def toDays (date : Date) : ℤ :=
  let year := if date.month ≤ 2 then date.year - 1 else date.year
  let month := if date.month ≤ 2 then date.month + 9 else date.month - 3
  daysBefore year + (153 * month + 2) / 5 + date.day - 1 - 719468

/-- The date of a day of a year that begins in March. -/
def ofMarchYear (year dayOfYear : ℤ) : Date :=
  let month := (5 * dayOfYear + 2) / 153
  { year := if month < 10 then year else year + 1
    month := if month < 10 then month + 3 else month - 9
    day := dayOfYear - (153 * month + 2) / 5 + 1 }

/-- The date of a number of days. -/
def ofDays (n : ℤ) : Date := ofMarchYear (marchYear (n + 719468)).1 (marchYear (n + 719468)).2

/-- Months and days are in their ranges. -/
structure IsDate (date : Date) : Prop where
  one_le_month : 1 ≤ date.month
  month_le : date.month ≤ 12
  one_le_day : 1 ≤ date.day
  day_le : date.day ≤ 31

theorem isDate_ofDays (n : ℤ) : (ofDays n).IsDate := by
  obtain ⟨hlow, hhigh⟩ := marchYear_day_mem (n + 719468)
  unfold ofDays ofMarchYear
  constructor <;> dsimp only <;> omega

theorem toDays_ofMarchYear {year dayOfYear : ℤ} (hlow : 0 ≤ dayOfYear) (hhigh : dayOfYear ≤ 365) :
    (ofMarchYear year dayOfYear).toDays = daysBefore year + dayOfYear - 719468 := by
  rcases lt_or_ge ((5 * dayOfYear + 2) / 153) 10 with hmonth | hmonth
  · -- from March to December
    have hmarch : ¬(5 * dayOfYear + 2) / 153 + 3 ≤ 2 := by omega
    simp only [ofMarchYear, toDays, if_pos hmonth, if_neg hmarch]
    omega
  · have hjanuary : (5 * dayOfYear + 2) / 153 - 9 ≤ 2 := by omega
    simp only [ofMarchYear, toDays, if_neg hmonth.not_gt, if_pos hjanuary,
      add_sub_cancel_right]
    omega

/-- **The date of a number of days has this number.** -/
theorem toDays_ofDays (n : ℤ) : (ofDays n).toDays = n := by
  obtain ⟨hlow, hhigh⟩ := marchYear_day_mem (n + 719468)
  rw [ofDays, toDays_ofMarchYear hlow hhigh, daysBefore_marchYear, add_sub_cancel_right]

/-- The years of some centuries. -/
theorem year_ofDays_mem {n : ℤ} (hlow : -135080 ≤ n) (hhigh : n < 157113) :
    1600 ≤ (ofDays n).year ∧ (ofDays n).year ≤ 2400 := by
  obtain ⟨hyear, hyear'⟩ := marchYear_year_mem (n + 719468)
  unfold ofDays ofMarchYear
  dsimp only
  split <;> omega

example : (⟨2000, 2, 29⟩ : Date).toDays = 11016 := by decide

example : ofDays 11016 = ⟨2000, 2, 29⟩ := by decide

end Date

end Calendar
