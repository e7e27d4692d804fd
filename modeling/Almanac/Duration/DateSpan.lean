import Almanac.Number.Double

/-!
# Date spans

The years, months, weeks and days by which two dates differ, or by which a date is moved.

* `DateSpan`: the four counts.
* `sign`: the sign of the first count that is not zero.
* `wholeWeeks`: the weeks in a number of days.
-/

namespace Almanac

/-- Years, months, weeks and days. -/
structure DateSpan where
  years : Int := 0
  months : Int := 0
  weeks : Int := 0
  days : Int := 0
deriving DecidableEq, Repr

namespace DateSpan

/-- The counts, largest unit first. -/
def toList (d : DateSpan) : List Int := [d.years, d.months, d.weeks, d.days]

/-- The sign of the first count that is not zero. -/
def sign (d : DateSpan) : Int :=
  if d.years ≠ 0 then d.years.sign
  else if d.months ≠ 0 then d.months.sign
  else if d.weeks ≠ 0 then d.weeks.sign
  else d.days.sign

/-- The span in the opposite direction. -/
def neg (d : DateSpan) : DateSpan := ⟨-d.years, -d.months, -d.weeks, -d.days⟩

instance : Neg DateSpan := ⟨neg⟩

/-- The days of the weeks and days together. -/
def dayCount (d : DateSpan) : Int := 7 * d.weeks + d.days

/-- The whole weeks in a number of days, toward zero. The quotient is formed in double precision,
which changes nothing while the weeks stay below `2 ^ 51`: a quotient that is not whole is at least
a seventh away from the next whole number, more than half of the last place there. -/
def wholeWeeks (days : Int) : Int :=
  if days.natAbs < 7 * 2251799813685248 then days.tdiv 7
  else
    let q := Double.nearest (mkRat days 7)
    q.num.tdiv q.den

/-- A number of days as whole weeks and the days left over. -/
def ofDays (days : Int) : DateSpan :=
  { weeks := wholeWeeks days, days := days - 7 * wholeWeeks days }

end DateSpan

end Almanac
