import Almanac.Calendar.YearMonthDay

/-!
# The tabular Islamic year

Months of thirty and twenty-nine days in turn; the last one gains a day in eleven of every thirty
years. The two calendars differ by a day in the epoch, which is a parameter. Days are counted from
the day before 0001-01-01.

* `dateOfDay`, `dayOfDate`: from a day to its date and back.
-/

namespace Almanac.Islamic

/-- The day of 1 Muharram of the year 1 by the civil count: a Friday. -/
def civilEpoch : Int := 227015

/-- The day of 1 Muharram of the year 1 by the astronomical count: the Thursday before. -/
def astronomicalEpoch : Int := 227014

/-- The leap years: eleven in each cycle of thirty. -/
def isLeap (year : Int) : Bool := (14 + 11 * year) % 30 < 11

/-- The days in a month. -/
def daysInMonth (year month : Int) : Int :=
  if month = 12 ∧ isLeap year then 30 else if month % 2 = 1 then 30 else 29

/-- The days in a year. -/
def daysInYear (year : Int) : Int := if isLeap year then 355 else 354

/-- The day of a date. -/
def dayOfDate (epoch : Int) (d : YearMonthDay) : Int :=
  epoch - 1 + (d.year - 1) * 354 + (3 + 11 * d.year) / 30 + 29 * (d.month - 1) + d.month / 2 + d.day

/-- The date of a day. -/
def dateOfDay (epoch day : Int) : YearMonthDay :=
  let year := (30 * (day - epoch) + 10646) / 10631
  let inYear := day - dayOfDate epoch ⟨year, 1, 1⟩
  let month := (11 * inYear + 330) / 325
  ⟨year, month, day - dayOfDate epoch ⟨year, month, 1⟩ + 1⟩

end Almanac.Islamic
