import Almanac.Calendar.YearMonthDay

/-!
# The Coptic year

Twelve months of thirty days and a thirteenth of five, or of six every fourth year. The Ethiopic
calendar is the same with another epoch, which is therefore a parameter. Days are counted from the
day before 0001-01-01.

* `dateOfDay`, `dayOfDate`: from a day to its date and back.
-/

namespace Almanac.Coptic

/-- The day of 1 Thout of the Coptic year 1. -/
def copticEpoch : Int := 103605

/-- The day of 1 Meskerem of the Ethiopic year 1. -/
def ethiopicEpoch : Int := 2796

/-- Every fourth year is a leap year, the third of each four. -/
def isLeap (year : Int) : Bool := year % 4 = 3

/-- The days in a month. -/
def daysInMonth (year month : Int) : Int :=
  if month < 13 then 30 else if isLeap year then 6 else 5

/-- The days in a year. -/
def daysInYear (year : Int) : Int := if isLeap year then 366 else 365

/-- The day of a date. -/
def dayOfDate (epoch : Int) (d : YearMonthDay) : Int :=
  epoch - 1 + 365 * (d.year - 1) + d.year / 4 + 30 * (d.month - 1) + d.day

/-- The date of a day. -/
def dateOfDay (epoch day : Int) : YearMonthDay :=
  let year := (4 * (day - epoch) + 1463) / 1461
  let month := (day - dayOfDate epoch ⟨year, 1, 1⟩) / 30 + 1
  ⟨year, month, day + 1 - dayOfDate epoch ⟨year, month, 1⟩⟩

end Almanac.Coptic
