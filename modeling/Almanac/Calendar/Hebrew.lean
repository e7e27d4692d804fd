import Almanac.Calendar.YearMonthDay

/-!
# The Hebrew year

The years of the Hebrew calendar: their months, their new years by the mean conjunction and its
postponements, and the day counts that follow. Days are counted from the day before 0001-01-01, so
that the remainder modulo seven is zero on Sundays. Months run in civil order from Tishri.

* `isLeap`: the seven leap years of a cycle of nineteen, which have thirteen months.
* `newYear`: the day of 1 Tishri.
* `newYear_lt_succ`, `monthsBefore_lt_succ`: both grow from year to year, which bounds the searches.
* `dateOfDay`, `dayOfDate`: from a day to its date and back.
* `newYear_yearOfDay_bounds`: the year that is found holds the day.
* `monthOfIndex`, `indexOfMonth`: from a running month number to its year and month and back.
* `monthsBefore_yearOfIndex_bounds`: the year that is found holds the month.
-/

namespace Almanac.Hebrew

/-- The leap years: seven in each cycle of nineteen. -/
def isLeap (year : Int) : Bool := (7 * year + 1) % 19 < 7

/-- The months in a year. -/
def monthsInYear (year : Int) : Int := if isLeap year then 13 else 12

/-- The months that pass between the epoch and a year. -/
def monthsBefore (year : Int) : Int := (235 * year - 234) / 19

/-- The days from the epoch to the mean conjunction of a year's first month. -/
def conjunctionDay (year : Int) : Int :=
  29 * monthsBefore year + (12084 + 13753 * monthsBefore year) / 25920

/-- The conjunction day, a day later where the new year would fall on Sunday, Wednesday or
Friday. -/
def postponedDay (year : Int) : Int :=
  let days := conjunctionDay year
  if (3 * (days + 1)) % 7 < 3 then days + 1 else days

/-- The further days by which a new year is put off so that no year has an illegal length: two
where this year would have 356 days, one where the year before would have 382. -/
def lengthCorrection (year : Int) : Int :=
  if postponedDay (year + 1) - postponedDay year = 356 then 2
  else if postponedDay year - postponedDay (year - 1) = 382 then 1
  else 0

/-- The day of 1 Tishri of the year 1, less one. -/
def epoch : Int := -1373427

/-- The day of 1 Tishri of a year. -/
def newYear (year : Int) : Int := epoch + postponedDay year + lengthCorrection year

/-- The days in a year. -/
def daysInYear (year : Int) : Int := newYear (year + 1) - newYear year

/-- The month that is doubled in leap years. -/
def adar : Int := 6

/-- The days in a month of a leap year or not, of a complete year or not, of a deficient year or
not. Heshvan is long in complete years and Kislev short in deficient ones; the other months have
fixed lengths, those after a leap month one place later. -/
def monthLength (leap complete deficient : Bool) (month : Int) : Int :=
  if month = 2 then if complete then 30 else 29
  else if month = 3 then if deficient then 29 else 30
  else if month = adar then if leap then 30 else 29
  else
    let plain := if leap ∧ adar < month then month - 1 else month
    if plain = 1 ∨ plain = 5 ∨ plain = 7 ∨ plain = 9 ∨ plain = 11 then 30 else 29

/-- The days in a month. The last digit of the length of a year is five in complete years and three
in deficient ones. -/
def daysInMonth (year month : Int) : Int :=
  monthLength (isLeap year) (daysInYear year % 10 = 5) (daysInYear year % 10 = 3) month

/-- The days in the first `months` months of a year. -/
def daysInMonths (year : Int) : Nat → Int
  | 0 => 0
  | months + 1 => daysInMonths year months + daysInMonth year (months + 1)

/-- The day of a date. -/
def dayOfDate (d : YearMonthDay) : Int :=
  newYear d.year + daysInMonths d.year (d.month - 1).toNat + (d.day - 1)

theorem monthsBefore_lt_succ (year : Int) : monthsBefore year + 12 ≤ monthsBefore (year + 1) := by
  unfold monthsBefore; omega

theorem conjunctionDay_le_postponedDay (year : Int) :
    conjunctionDay year ≤ postponedDay year ∧ postponedDay year ≤ conjunctionDay year + 1 := by
  simp only [postponedDay]; split <;> omega

theorem conjunctionDay_succ (year : Int) :
    conjunctionDay year + 354 ≤ conjunctionDay (year + 1) := by
  have h := monthsBefore_lt_succ year
  unfold conjunctionDay; omega

theorem lengthCorrection_bounds (year : Int) :
    0 ≤ lengthCorrection year ∧ lengthCorrection year ≤ 2 := by
  unfold lengthCorrection; split <;> (try split) <;> omega

/-- A year has at least 351 days; the exact lengths need the postponements. -/
theorem newYear_lt_succ (year : Int) : newYear year + 351 ≤ newYear (year + 1) := by
  have h₁ := conjunctionDay_le_postponedDay year
  have h₂ := conjunctionDay_le_postponedDay (year + 1)
  have h₃ := conjunctionDay_succ year
  have h₄ := lengthCorrection_bounds year
  have h₅ := lengthCorrection_bounds (year + 1)
  unfold newYear; omega

theorem daysInMonth_bounds (year month : Int) :
    29 ≤ daysInMonth year month ∧ daysInMonth year month ≤ 30 := by
  simp only [daysInMonth, monthLength]; grind

/-- The first year at or before `year` that begins no later than `day`; at most `steps` years are
tried. -/
def yearDown (day : Int) : (steps : Nat) → (year : Int) → Int
  | 0, year => year
  | steps + 1, year => if day < newYear year then yearDown day steps (year - 1) else year

/-- The last year from `year` on that begins no later than `day`, if `year` does; at most `steps`
years are tried. -/
def yearUp (day : Int) : (steps : Nat) → (year : Int) → Int
  | 0, year => year
  | steps + 1, year => if newYear (year + 1) ≤ day then yearUp day steps (year + 1) else year

/-- The year by the mean length of a year, which is 35975351 / 98496 days. -/
def yearEstimate (day : Int) : Int := (day - epoch) * 98496 / 35975351 + 1

/-- The year that a day lies in, by a search from the estimate. The days between the estimate's new
year and the day bound its steps. -/
def yearOfDay (day : Int) : Int :=
  let below := yearDown day (newYear (yearEstimate day) - day).toNat (yearEstimate day)
  yearUp day (day - newYear below).toNat below

/-- The month, from `month` on, in which `days` days after its first day lie, and the day; at most
`steps` months are passed. -/
def monthAndDay (year : Int) : (steps : Nat) → (month days : Int) → Int × Int
  | 0, month, days => (month, days + 1)
  | steps + 1, month, days =>
    if daysInMonth year month ≤ days then
      monthAndDay year steps (month + 1) (days - daysInMonth year month)
    else (month, days + 1)

/-- The date of a day. -/
def dateOfDay (day : Int) : YearMonthDay :=
  let year := yearOfDay day
  let inYear := day - newYear year
  let (month, inMonth) := monthAndDay year inYear.toNat 1 inYear
  ⟨year, month, inMonth⟩

theorem newYear_yearDown_le {day : Int} {steps : Nat} {year : Int}
    (h : newYear year - day ≤ steps) : newYear (yearDown day steps year) ≤ day := by
  induction steps generalizing year with
  | zero => simp only [yearDown]; omega
  | succ steps ih =>
    simp only [yearDown]
    split
    · have := newYear_lt_succ (year - 1)
      simp only [Int.sub_add_cancel] at this
      exact ih (by omega)
    · omega

theorem newYear_yearUp_bounds {day : Int} {steps : Nat} {year : Int} (hle : newYear year ≤ day)
    (h : day - newYear year ≤ steps) :
    newYear (yearUp day steps year) ≤ day ∧ day < newYear (yearUp day steps year + 1) := by
  induction steps generalizing year with
  | zero =>
    have := newYear_lt_succ year
    simp only [yearUp]; omega
  | succ steps ih =>
    simp only [yearUp]
    split
    · next hnext =>
      have := newYear_lt_succ year
      exact ih hnext (by omega)
    · omega

/-- A day lies between the new year of its year and the next one. -/
theorem newYear_yearOfDay_bounds (day : Int) :
    newYear (yearOfDay day) ≤ day ∧ day < newYear (yearOfDay day + 1) := by
  have hgap := Int.self_le_toNat (newYear (yearEstimate day) - day)
  exact newYear_yearUp_bounds (newYear_yearDown_le hgap) (Int.self_le_toNat _)

/-- The running number of a month. -/
def indexOfMonth (year month : Int) : Int := monthsBefore year + month - 1

/-- The first year at or before `year` that begins no later than the month of `index`; at most
`steps` years are tried. -/
def indexDown (index : Int) : (steps : Nat) → (year : Int) → Int
  | 0, year => year
  | steps + 1, year => if index < monthsBefore year then indexDown index steps (year - 1) else year

/-- The last year from `year` on that begins no later than the month of `index`, if `year` does; at
most `steps` years are tried. -/
def indexUp (index : Int) : (steps : Nat) → (year : Int) → Int
  | 0, year => year
  | steps + 1, year =>
    if monthsBefore (year + 1) ≤ index then indexUp index steps (year + 1) else year

/-- The year of a running month number by the mean number of months, which is 235 / 19. -/
def indexEstimate (index : Int) : Int := 19 * index / 235 + 1

/-- The year of a running month number, by a search from the estimate. The months between the two
bound its steps. -/
def yearOfIndex (index : Int) : Int :=
  let below := indexDown index (monthsBefore (indexEstimate index) - index).toNat
    (indexEstimate index)
  indexUp index (index - monthsBefore below).toNat below

/-- The year and month of a running month number. -/
def monthOfIndex (index : Int) : Int × Int :=
  (yearOfIndex index, index - monthsBefore (yearOfIndex index) + 1)

theorem monthsBefore_indexDown_le {index : Int} {steps : Nat} {year : Int}
    (h : monthsBefore year - index ≤ steps) :
    monthsBefore (indexDown index steps year) ≤ index := by
  induction steps generalizing year with
  | zero => simp only [indexDown]; omega
  | succ steps ih =>
    simp only [indexDown]
    split
    · have := monthsBefore_lt_succ (year - 1)
      simp only [Int.sub_add_cancel] at this
      exact ih (by omega)
    · omega

theorem monthsBefore_indexUp_bounds {index : Int} {steps : Nat} {year : Int}
    (hle : monthsBefore year ≤ index) (h : index - monthsBefore year ≤ steps) :
    monthsBefore (indexUp index steps year) ≤ index ∧
      index < monthsBefore (indexUp index steps year + 1) := by
  induction steps generalizing year with
  | zero =>
    have := monthsBefore_lt_succ year
    simp only [indexUp]; omega
  | succ steps ih =>
    simp only [indexUp]
    split
    · next hnext =>
      have := monthsBefore_lt_succ year
      exact ih hnext (by omega)
    · omega

/-- A month lies between the first month of its year and that of the next one. -/
theorem monthsBefore_yearOfIndex_bounds (index : Int) :
    monthsBefore (yearOfIndex index) ≤ index ∧ index < monthsBefore (yearOfIndex index + 1) := by
  have hgap := Int.self_le_toNat (monthsBefore (indexEstimate index) - index)
  exact monthsBefore_indexUp_bounds (monthsBefore_indexDown_le hgap) (Int.self_le_toNat _)

end Almanac.Hebrew
