import Almanac.Iso.Date
import Almanac.Word

/-!
# Day counts of ISO dates

The count of days from 1970-01-01, in both directions.

* `Iso.epochDay`: the count of a date, whose month and day may lie outside their range.
* `IsoDate.ofEpochDay`: the date of a count.
* `Iso.dayWord`: the count of a date as it is formed in words, which is the count itself unless that
  or what leads to it does not fit one.
* `Iso.toEpochDay`, `IsoDate.ofEpochDay?`: the same with the refusal of what is beyond a word: a
  year, a month or a day; a count.
-/

namespace Almanac

namespace Iso

/-- The days from 0001-01-01 to 1970-01-01. -/
def epochOffset : Int := 719162

/-- A month outside its year, carried into the year. -/
def balanceMonth (year month : Int) : Int × Int :=
  (year + (month - 1) / 12, (month - 1) % 12 + 1)

/-- The days from 0001-01-01 to the first day of a year. -/
def daysBeforeYear (year : Int) : Int :=
  365 * (year - 1) + (year - 1) / 4 - (year - 1) / 100 + (year - 1) / 400

/-- The days from the first day of a year to the first day of its month: the mean month, less one
or two days after a February. -/
def daysBeforeMonth (year month : Int) : Int :=
  (367 * month - 362) / 12 - (if month ≤ 2 then 0 else if isLeap year then 1 else 2)

/-- The days from 1970-01-01 to a date. A month outside the year and a day outside the month are
counted on. -/
def epochDay (year month day : Int) : Int :=
  let (y, m) := balanceMonth year month
  daysBeforeYear y + daysBeforeMonth y m + (day - 1) - epochOffset

/-- The year that the day `n` after 0001-01-01 lies in. Whole cycles of 400, 100, 4 years and one
year are taken off in turn; the last day of a leap year would begin a fifth year of its cycle. -/
def yearOfDay (n : Int) : Int :=
  let inEra := n % 146097
  let centuries := inEra / 36524
  let inCentury := inEra % 36524
  let fours := inCentury / 1461
  let ones := inCentury % 1461 / 365
  let years := 400 * (n / 146097) + 100 * centuries + 4 * fours + ones
  if centuries = 4 ∨ ones = 4 then years else years + 1

/-- The month that the day `n` after the first of January lies in. -/
def monthOfDay (year n : Int) : Int :=
  let shifted :=
    if n < daysBeforeMonth year 3 then n else if isLeap year then n + 1 else n + 2
  (12 * shifted + 373) / 367

/-- Whether the years from 1970, the months from January and the days from the first of the month
can each be counted in a word. -/
def inWords (year month day : Int) : Bool :=
  fitsWord (year - 1970) && fitsWord (month - 1) && fitsWord (day - 1)

/-- The months from January 1970 to a January, in a word, given the years between. The year itself
has to be a word other than the one for no time. -/
def monthsOfYears (years : Int) : Int :=
  if years = noTime ∨ toWord (1970 + years) = noTime then noTime else toWord (12 * years)

/-- The days from 1970-01-01 to a first of January, in a word, given the years between. The leap
years are counted from the last one before 1970 or the first one after it, in either direction, as
the days of common years say. -/
def daysOfYears (years : Int) : Int :=
  let days := toWord (365 * years)
  toWord (
    if 0 ≤ days then
      days + (years + 1).tdiv 4 - (years + 69).tdiv 100 + (years + 369).tdiv 400
    else days + (years - 2).tdiv 4 - (years - 30).tdiv 100 + (years - 30).tdiv 400)

/-- The days from 1970-01-01 to the first of a month, in a word, given the months between. -/
def daysOfMonths (months : Int) : Int :=
  if months = noTime then noTime
  else
    let years := months / 12
    toWord (daysOfYears years + daysBeforeMonth (1970 + years) (months % 12 + 1))

/-- The day count of a date, in a word. The years are taken for months, from which the months are
counted on, and these for days, from which the days are. -/
def dayWord (year month day : Int) : Int :=
  countOn (daysOfMonths (countOn (monthsOfYears (year - 1970)) (month - 1))) (day - 1)

/-- The day count of a date; a year, month or day too far from the first one for a word has none. -/
def toEpochDay (year month day : Int) : Except Error Int :=
  if inWords year month day then .ok (dayWord year month day)
  else .error (.dateBeyondWord year month day)

end Iso

namespace IsoDate

/-- The date of a day count from 1970-01-01. -/
def ofEpochDay (n : Int) : IsoDate :=
  let fromOne := n + Iso.epochOffset
  let year := Iso.yearOfDay fromOne
  let inYear := fromOne - Iso.daysBeforeYear year
  let month := Iso.monthOfDay year inYear
  ⟨year, month, inYear - Iso.daysBeforeMonth year month + 1⟩

/-- The date of a day count, unless the count is beyond a word. -/
def ofEpochDay? (n : Int) : Except Error IsoDate :=
  if fitsWord n then .ok (ofEpochDay n) else .error (.dayCountBeyondWord n)

/-- The day count of a date, unless its year, month or day is beyond a word. -/
def toEpochDay (d : IsoDate) : Except Error Int := Iso.toEpochDay d.year d.month d.day

end IsoDate

end Almanac
