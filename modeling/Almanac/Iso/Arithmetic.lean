import Almanac.Duration.DateSpan
import Almanac.Furthest
import Almanac.Iso.EpochDay
import Almanac.Overflow

/-!
# Arithmetic of ISO dates

* `IsoDate.balance`: a day outside its month counted on into the next ones.
* `IsoDate.regulate`: a month or day that does not exist, moved into range or refused.
* `IsoDate.add`: a date moved by years and months, then by weeks and days.
* `IsoDate.difference`: the span between two dates, as large units first.
-/

namespace Almanac.IsoDate

/-- The date whose day may lie outside its month, counted on into the neighbouring months. -/
def balance (d : IsoDate) : Except Error IsoDate := do
  ofEpochDay? (← d.toEpochDay)

/-- The nearest month and day that exist. -/
def clamp (d : IsoDate) : IsoDate :=
  let month := min (max d.month 1) 12
  ⟨d.year, month, min (max d.day 1) (Iso.daysInMonth d.year month)⟩

/-- The date, with a month or day that does not exist moved into range or refused. -/
def regulate (d : IsoDate) : Overflow → Except Error IsoDate
  | .reject => d.checkValid
  | .constrain => .ok d.clamp

/-- The date a number of years later, the month and the day kept; it need not exist. -/
def yearsLater (d : IsoDate) (years : Int) : IsoDate := { d with year := d.year + years }

/-- The date a number of months later, the day kept; it need not exist. -/
def monthsLater (d : IsoDate) (months : Int) : IsoDate :=
  let (year, month) := Iso.balanceMonth d.year (d.month + months)
  ⟨year, month, d.day⟩

/-- The date moved by years and months, its day regulated there, then by weeks and days. -/
def add (d : IsoDate) (span : DateSpan) (overflow : Overflow) : Except Error IsoDate := do
  let moved ← ((d.yearsLater span.years).monthsLater span.months).regulate overflow
  { moved with day := moved.day + span.dayCount }.balance

/-- Whether a date, which need not exist, lies beyond the target in the direction of `sign`. -/
def surpasses (sign : Int) (d target : IsoDate) : Bool := 0 < sign * compare d target

/-- The years of a difference: the furthest shift by years that does not go past the target. The
first candidate is one short of the difference of the years, and the third goes past the year of the
target. -/
def yearsBetween (sign : Int) (one two : IsoDate) : Int :=
  let gap := two.year - one.year
  furthest (fun k => !surpasses sign (one.yearsLater k) two) sign 0
    (if gap = 0 then 0 else gap - sign) 3

/-- The months of a difference: the furthest shift by months that does not go past the target. It
ends when the year has gone past, which bounds the candidates. -/
def monthsBetween (sign : Int) (one two : IsoDate) : Int :=
  furthest (fun k => !surpasses sign (one.monthsLater k) two) sign 0 sign
    (12 * ((two.year - one.year).natAbs + 1) + one.month.natAbs + 2)

/-- The whole years and months between two dates, where years are wanted. -/
def wholeMonths (sign : Int) (one two : IsoDate) (largest : TimeUnit) : Int × Int :=
  if largest = .year ∨ largest = .month then
    let years := yearsBetween sign one two
    (years, monthsBetween sign (one.yearsLater years) two)
  else (0, 0)

/-- The date moved by years and months, with the nearest day that exists there. -/
def shift (d : IsoDate) (years months : Int) : IsoDate :=
  ((d.yearsLater years).monthsLater months).clamp

/-- Years, months and days as a span in units no larger than `largest`. -/
def spanOf (largest : TimeUnit) (years months days : Int) : DateSpan :=
  match largest with
  | .month => { months := months + 12 * years, days }
  | .week => .ofDays days
  | _ => { years, months, days }

/-- The span between two dates, in units no larger than `largest`: first the whole years and
months, then the days from the date that they lead to. -/
def difference (one two : IsoDate) (largest : TimeUnit) : Except Error DateSpan :=
  let sign := compare two one
  if sign = 0 then .ok {}
  else do
    let (years, months) := wholeMonths sign one two largest
    let last ← two.toEpochDay
    let reached ← (one.shift years months).toEpochDay
    return spanOf largest years months (last - reached)

end Almanac.IsoDate
