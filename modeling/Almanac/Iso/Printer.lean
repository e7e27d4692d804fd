import Almanac.Calendar.Suffix
import Almanac.Iso.Date

/-!
# The text of dates and year-months

ISO 8601 text with the calendar annotation. A year from 0 to 9999 has four digits, any other a sign
and at least six.

* `Iso.yearChars`: a year.
* `IsoDate.dateChars`: a date with its calendar.
* `IsoDate.monthChars`: a month with its calendar; the day is written only where the calendar is not
  the ISO one or is named by force.
-/

namespace Almanac

open Text (paddedChars paddedDigits)

/-- The text of a year. -/
def Iso.yearChars (year : Int) : List Char :=
  if 0 ≤ year ∧ year ≤ 9999 then paddedDigits 4 year.natAbs
  else (if year < 0 then '-' else '+') :: paddedDigits 6 year.natAbs

namespace IsoDate

/-- A year and a month. -/
def yearMonthChars (d : IsoDate) : List Char := Iso.yearChars d.year ++ '-' :: paddedChars 2 d.month

/-- A year, a month and a day. -/
def fullChars (d : IsoDate) : List Char := d.yearMonthChars ++ '-' :: paddedChars 2 d.day

/-- The text of a date in a calendar. -/
def dateChars (d : IsoDate) (c : Calendar) (how : CalendarDisplay) : List Char :=
  d.fullChars ++ how.suffix c

/-- The text of the month in a calendar that a date anchors. -/
def monthChars (d : IsoDate) (c : Calendar) (how : CalendarDisplay) : List Char :=
  (if c ≠ .iso8601 || how.isForced then d.fullChars else d.yearMonthChars) ++ how.suffix c

end IsoDate

end Almanac
