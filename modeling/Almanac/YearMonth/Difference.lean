import Almanac.Rounding.Relative
import Almanac.YearMonth.Arithmetic

/-!
# Comparing year-months

* `YearMonth.compare`: the order of the anchors, whatever the calendars.
* `YearMonth.Same`: the same anchor and the same calendar.
* `YearMonth.difference`: the years and months between two months of one calendar, rounded.
-/

namespace Almanac.YearMonth

/-- The order of the anchors as a number: -1, 0 or 1. -/
def compare (one two : YearMonth) : Int := one.anchor.compare two.anchor

/-- The same anchor and the same calendar. -/
def same (one two : YearMonth) : Bool := one = two

/-- The units that a difference of year-months has no use for. -/
def disallowedUnits : List TimeUnit := TimeUnit.all.filter fun u => TimeUnit.week.rank ≤ u.rank

/-- The years and months from the first day of one month to the first day of another. Whole months
need no rounding. -/
def spanBetween (c : Calendar) (one two : IsoDate) (options : DifferenceOptions) :
    Except Error DateSpan := do
  let exact ← c.difference one two options.largest
  let span : DateSpan := { years := exact.years, months := exact.months }
  if options.smallest = .month ∧ options.increment = 1 then return span
  else
    let destination ← two.epochNanoseconds
    roundRelative span destination one c false options.largest options.increment options.smallest
      options.mode

/-- The duration from one month to another. -/
def difference (direction : Direction) (one two : YearMonth) (options : DifferenceOptions) :
    Except Error Duration :=
  if one.calendar ≠ two.calendar then .error (.calendarsDiffer one.calendar two.calendar)
  else if one.anchor = two.anchor then .ok .zero
  else do
    let first ← one.firstDay
    let second ← two.firstDay
    let span ← spanBetween one.calendar first second options
    let duration ← Duration.ofParts { years := span.years, months := span.months }
    return if direction = .since then -duration else duration

/-- The order of the year-months that two values are, write or describe. -/
def compareFrom (one two : Value) : Except Error Int := do
  let one ← one.toYearMonth .constrain
  return one.compare (← two.toYearMonth .constrain)

/-- Whether a value is, writes or describes the same year-month. -/
def sameFrom (ym : YearMonth) (other : Value) : Except Error Bool := do
  return ym.same (← other.toYearMonth .constrain)

/-- The duration to or from the year-month that a value is, writes or describes, with the options
that a caller passes. -/
def differenceFrom (direction : Direction) (ym : YearMonth) (other : Value)
    (args : DifferenceArguments) : Except Error Duration := do
  let other ← other.toYearMonth .constrain
  let options ← DifferenceOptions.read direction disallowedUnits .month .year args
  difference direction ym other options

end Almanac.YearMonth
