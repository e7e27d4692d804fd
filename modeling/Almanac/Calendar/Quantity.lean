import Almanac.Calendar.Structure
import Almanac.Number.Arithmetic

/-!
# Calendars on numbers of any kind

The rules of the calendars for years, months and days that are fractions or doubles. The Coptic,
Islamic and Hebrew counts of days extend to them; a month that falls between two others has the
length that the rule of the calendar gives it. On integers they are the counts of
`Almanac.Calendar.Structure`.

* `Coptic.dayAt`, `Islamic.dayAt`, `Hebrew.dayAt`: the day of a date.
* `Calendar.daysInMonthAt`, `Calendar.epochDayAt`: the same for any calendar; the ISO calendar, and
  those that follow it, count whole days only, and so does the Hebrew one its months.
* `Calendar.daysInMonthAt_whole`, `Calendar.epochDayAt_whole`: what they are on integers.
-/

namespace Almanac

namespace Iso

/-- The leap years among the numbers; only an integer can be one. -/
def isLeapAt (year : Number) : Bool := year.whole?.any isLeap

theorem isLeapAt_whole (year : Int) : isLeapAt (.whole year) = isLeap year := by
  simp [isLeapAt, Number.whole?_whole]

/-- The days in a month: those of a common year but in the February of a leap year. -/
def daysInMonthAt (year : Number) (month : Int) : Int :=
  if month = 2 ∧ isLeapAt year then 29 else daysInMonth 1 month

theorem daysInMonthAt_whole (year month : Int) :
    daysInMonthAt (.whole year) month = daysInMonth year month := by
  by_cases hm : month = 2
  · subst hm
    have hcommon : isLeap 1 = false := by decide
    simp [daysInMonthAt, daysInMonth, isLeapAt_whole, hcommon]
  · simp [daysInMonthAt, daysInMonth, hm]

end Iso

namespace Coptic

/-- The leap years among the numbers. -/
def isLeapAt (year : Number) : Bool := (year.remainder 4).same 3

/-- The days in a month. -/
def daysInMonthAt (year month : Number) : Int :=
  if month.below 13 then 30 else if isLeapAt year then 6 else 5

/-- The day of a date. -/
def dayAt (epoch : Int) (year month day : Number) : Number :=
  .whole (epoch - 1) + (year - 1).times 365 + year.quotient 4 + (month - 1).times 30 + day

theorem daysInMonthAt_whole (year month : Int) :
    daysInMonthAt (.whole year) (.whole month) = daysInMonth year month := by
  simp [daysInMonthAt, daysInMonth, isLeapAt, isLeap, Number.below_whole, Number.same_whole]

theorem dayAt_whole (epoch year month day : Int) :
    dayAt epoch (.whole year) (.whole month) (.whole day) =
      .whole (dayOfDate epoch ⟨year, month, day⟩) := by
  simp [dayAt, dayOfDate]

end Coptic

namespace Islamic

/-- The leap years among the numbers. -/
def isLeapAt (year : Number) : Bool := ((14 + year.times 11).remainder 30).below 11

/-- The days in a month. -/
def daysInMonthAt (year month : Number) : Int :=
  if month.same 12 && isLeapAt year then 30 else if (month.remainder 2).same 1 then 30 else 29

/-- The day of a date. -/
def dayAt (epoch : Int) (year month day : Number) : Number :=
  .whole (epoch - 1) + (year - 1).times 354 + (3 + year.times 11).quotient 30 +
    (month - 1).times 29 + month.quotient 2 + day

theorem daysInMonthAt_whole (year month : Int) :
    daysInMonthAt (.whole year) (.whole month) = daysInMonth year month := by
  simp [daysInMonthAt, daysInMonth, isLeapAt, isLeap, Number.below_whole, Number.same_whole]

theorem dayAt_whole (epoch year month day : Int) :
    dayAt epoch (.whole year) (.whole month) (.whole day) =
      .whole (dayOfDate epoch ⟨year, month, day⟩) := by
  simp [dayAt, dayOfDate, Int.mul_comm]

end Islamic

namespace Hebrew

/-- The leap years among the numbers. -/
def isLeapAt (year : Number) : Bool := ((year.times 7 + 1).remainder 19).below 7

/-- The months that pass between the epoch and a year. -/
def monthsBeforeAt (year : Number) : Number := (year.times 235 - 234).quotient 19

/-- The days from the epoch to the mean conjunction of a year's first month. -/
def conjunctionDayAt (year : Number) : Number :=
  let months := monthsBeforeAt year
  months.times 29 + (12084 + months.times 13753).quotient 25920

/-- The conjunction day with its postponement. -/
def postponedDayAt (year : Number) : Number :=
  let days := conjunctionDayAt year
  if (((days + 1).times 3).remainder 7).below 3 then days + 1 else days

/-- The further days by which a new year is put off. -/
def lengthCorrectionAt (year : Number) : Int :=
  if (postponedDayAt (year + 1) - postponedDayAt year).same 356 then 2
  else if (postponedDayAt year - postponedDayAt (year - 1)).same 382 then 1
  else 0

/-- The day of 1 Tishri of a year. -/
def newYearAt (year : Number) : Number :=
  .whole epoch + postponedDayAt year + .whole (lengthCorrectionAt year)

/-- The days in a year. -/
def daysInYearAt (year : Number) : Number := newYearAt (year + 1) - newYearAt year

/-- The days in a month. -/
def daysInMonthAt (year : Number) (month : Int) : Int :=
  let lastDigit := (daysInYearAt year).remainder 10
  monthLength (isLeapAt year) (lastDigit.same 5) (lastDigit.same 3) month

/-- The days in the first `months` months of a year. -/
def daysInMonthsAt (year : Number) : Nat → Int
  | 0 => 0
  | months + 1 => daysInMonthsAt year months + daysInMonthAt year (months + 1)

/-- The day of a date. -/
def dayAt (year : Number) (month : Int) (day : Number) : Number :=
  newYearAt year + .whole (daysInMonthsAt year (month - 1).toNat) + day - 1

theorem isLeapAt_whole (year : Int) : isLeapAt (.whole year) = isLeap year := by
  simp [isLeapAt, isLeap, Number.below_whole]

theorem monthsBeforeAt_whole (year : Int) :
    monthsBeforeAt (.whole year) = .whole (monthsBefore year) := by
  simp [monthsBeforeAt, monthsBefore]

theorem postponedDayAt_whole (year : Int) :
    postponedDayAt (.whole year) = .whole (postponedDay year) := by
  simp only [postponedDayAt, postponedDay, conjunctionDayAt, conjunctionDay, monthsBeforeAt_whole]
  simp only [Number.ofNat_eq_whole, Number.whole_add_whole, Number.times_whole,
    Number.quotient_whole, Number.remainder_whole, Number.below_whole, decide_eq_true_eq]
  exact (apply_ite Number.whole ..).symm

theorem newYearAt_whole (year : Int) : newYearAt (.whole year) = .whole (newYear year) := by
  have h : lengthCorrectionAt (.whole year) = lengthCorrection year := by
    simp [lengthCorrectionAt, lengthCorrection, postponedDayAt_whole, Number.same_whole]
  simp [newYearAt, newYear, postponedDayAt_whole, h]

theorem daysInMonthAt_whole (year month : Int) :
    daysInMonthAt (.whole year) month = daysInMonth year month := by
  have h : (daysInYearAt (.whole year)).remainder 10 = .whole (daysInYear year % 10) := by
    simp [daysInYearAt, daysInYear, newYearAt_whole]
  simp only [daysInMonthAt, h, isLeapAt_whole, Number.ofNat_eq_whole, Number.same_whole]
  rfl

theorem daysInMonthsAt_whole (year : Int) (months : Nat) :
    daysInMonthsAt (.whole year) months = daysInMonths year months := by
  induction months with
  | zero => rfl
  | succ months ih => simp [daysInMonthsAt, daysInMonths, daysInMonthAt_whole, ih]

theorem dayAt_whole (year month day : Int) :
    dayAt (.whole year) month (.whole day) = .whole (dayOfDate ⟨year, month, day⟩) := by
  simp [dayAt, dayOfDate, newYearAt_whole, daysInMonthsAt_whole]
  omega

end Hebrew

namespace Calendar

/-- Whether a year of a calendar is a leap year of the Hebrew calendar. -/
def isHebrewLeapAt (c : Calendar) (year : Number) : Bool := c = hebrew && Hebrew.isLeapAt year

/-- The number of months in a year. -/
def monthsInYearAt (c : Calendar) (year : Number) : Int :=
  c.monthsPerYear?.getD (if Hebrew.isLeapAt year then 13 else 12)

/-- The number of days in a month. -/
def daysInMonthAt (c : Calendar) (year month : Number) : Except Error Int :=
  match c with
  | coptic | ethiopic => .ok (Coptic.daysInMonthAt year month)
  | hebrew => (month.toWhole "month").map (Hebrew.daysInMonthAt year)
  | islamicCivil | islamicTabular => .ok (Islamic.daysInMonthAt year month)
  | _ => (month.toWhole "month").map (Iso.daysInMonthAt (year - .whole c.yearOffset))

/-- The day count from 1970-01-01 of a date, cut off toward zero. -/
def epochDayAt (c : Calendar) (year month day : Number) : Except Error Int :=
  let cut (day : Number) : Except Error Int := (day - .whole unixEpoch).truncate
  match c with
  | coptic => cut (Coptic.dayAt Coptic.copticEpoch year month day)
  | ethiopic => cut (Coptic.dayAt Coptic.ethiopicEpoch year month day)
  | hebrew => do cut (Hebrew.dayAt year (← month.toWhole "month") day)
  | islamicCivil => cut (Islamic.dayAt Islamic.civilEpoch year month day)
  | islamicTabular => cut (Islamic.dayAt Islamic.astronomicalEpoch year month day)
  | _ => do
    let year ← (year - .whole c.yearOffset).toWhole "year"
    let month ← month.toWhole "month"
    Iso.toEpochDay year month (← day.toWhole "day")

theorem isHebrewLeapAt_whole (c : Calendar) (year : Int) :
    c.isHebrewLeapAt (.whole year) = c.isHebrewLeap year := by
  simp [isHebrewLeapAt, isHebrewLeap, Hebrew.isLeapAt_whole]

theorem monthsInYearAt_whole (c : Calendar) (year : Int) :
    c.monthsInYearAt (.whole year) = c.monthsInYear year := by
  simp [monthsInYearAt, monthsInYear, Hebrew.monthsInYear, Hebrew.isLeapAt_whole]

theorem daysInMonthAt_whole (c : Calendar) (year month : Int) :
    c.daysInMonthAt (.whole year) (.whole month) = .ok (c.daysInMonth year month) := by
  cases c <;> simp [daysInMonthAt, daysInMonth, Coptic.daysInMonthAt_whole,
    Islamic.daysInMonthAt_whole, Hebrew.daysInMonthAt_whole, Iso.daysInMonthAt_whole, Except.map]

theorem epochDayAt_whole (c : Calendar) (year month day : Int) :
    c.epochDayAt (.whole year) (.whole month) (.whole day) = c.toEpochDay ⟨year, month, day⟩ := by
  cases c <;> simp [epochDayAt, toEpochDay, followsIso, epochDay, Coptic.dayAt_whole,
    Islamic.dayAt_whole, Hebrew.dayAt_whole, bind, Except.bind]

end Calendar

end Almanac
