import Almanac.Calendar.Resolve
import Almanac.Iso.Arithmetic

/-!
# Arithmetic of dates in a calendar

Two ways to move a date and to measure the span between two dates. `addByMonths` and
`differenceByMonths` work in any calendar, on its own months. The calendars that follow the ISO
calendar use the arithmetic of ISO dates instead.

* `Calendar.add`: a date moved by a span, within the represented range.
* `Calendar.difference`: the span between two dates.
-/

namespace Almanac.Calendar

/-- The year and month that a number of years leads to, the month code kept. -/
def shiftYears (c : Calendar) (year month years : Int) (overflow : Overflow) :
    Except Error (Int × Int) :=
  if years = 0 then .ok (year, month)
  else
    let code := c.monthCode year month
    (c.monthOfCode (year + years) code code.text overflow).map fun m => (year + years, m)

/-- The year and month that a number of months leads to. -/
def shiftMonths (c : Calendar) (year month months : Int) : Int × Int :=
  if months = 0 then (year, month) else c.addMonths year month months

/-- A date moved by years, which keep the month code, by months, then by weeks and days. -/
def addByMonths (c : Calendar) (iso : IsoDate) (span : DateSpan) (overflow : Overflow) :
    Except Error IsoDate := do
  let date ← c.read iso
  let (year, month) ← c.shiftYears date.year date.month span.years overflow
  let (year, month) := c.shiftMonths year month span.months
  let day ← c.regulateDay year month date.day overflow
  let days ← c.toEpochDay ⟨year, month, day⟩
  (← IsoDate.ofEpochDay? (days + span.dayCount)).checkLimits

/-- A date moved by a span, within the represented range. -/
def add (c : Calendar) (iso : IsoDate) (span : DateSpan) (overflow : Overflow) :
    Except Error IsoDate :=
  if c.followsIso then do (← iso.add span overflow).checkLimits
  else c.addByMonths iso span overflow

/-- The month of a code in a year, where a leap month of a common year is Adar. -/
def monthOfCodeIn (c : Calendar) (code : MonthCode) (year : Int) : Int :=
  match c.monthOfCode year code code.text .constrain with
  | .ok month => month
  | .error _ => code.number

/-- The date a number of years later, the month code and the day kept; the day need not exist. -/
def yearsLater (c : Calendar) (d : YearMonthDay) (years : Int) : YearMonthDay :=
  if years = 0 then d
  else ⟨d.year + years, c.monthOfCodeIn (c.monthCode d.year d.month) (d.year + years), d.day⟩

/-- The date a number of months later, the day kept; the day need not exist. -/
def monthsLater (c : Calendar) (d : YearMonthDay) (months : Int) : YearMonthDay :=
  let (year, month) := c.addMonths d.year d.month months
  ⟨year, month, d.day⟩

/-- The years between two dates: the furthest shift by years that does not go past the target. The
first candidate is one short of the difference of the years, and the third goes past the year of the
target. -/
def yearsBetween (c : Calendar) (sign : Int) (start target : YearMonthDay) : Int :=
  let gap := target.year - start.year
  furthest (fun k => !YearMonthDay.surpasses sign (c.yearsLater start k) target) sign 0
    (if gap = 0 then 0 else gap - sign) 3

/-- The months between two dates: the furthest shift by months that does not go past the target. The
first candidate is one short of the difference of the running month numbers, and the third goes past
the month of the target. -/
def monthsBetween (c : Calendar) (sign : Int) (start target : YearMonthDay) : Int :=
  let gap := c.monthIndex target.year target.month - c.monthIndex start.year start.month
  furthest (fun k => !YearMonthDay.surpasses sign (c.monthsLater start k) target) sign 0
    (if gap = 0 then 0 else gap - sign) 3

/-- The years, months and days between two dates, the second of which is a day count; years only
where they are wanted. -/
def yearsMonthsDays (c : Calendar) (sign : Int) (start target : YearMonthDay) (targetDay : Int)
    (wantYears : Bool) : Except Error DateSpan :=
  let years := if wantYears then c.yearsBetween sign start target else 0
  let base := c.yearsLater start years
  let months := c.monthsBetween sign base target
  let last := c.monthsLater base months
  let day := min last.day (c.daysInMonth last.year last.month)
  (c.toEpochDay { last with day }).map fun reached =>
    { years, months, days := targetDay - reached }

/-- The span between two dates, measured on the months of the calendar. -/
def differenceByMonths (c : Calendar) (one two : IsoDate) (largest : TimeUnit) :
    Except Error DateSpan :=
  let sign := IsoDate.compare two one
  if sign = 0 then .ok {}
  else do
    let first ← one.toEpochDay
    let last ← two.toEpochDay
    match largest with
    | .week => return .ofDays (last - first)
    | .day => return { days := last - first }
    | _ =>
      let start ← c.ofEpochDay first
      let target ← c.ofEpochDay last
      c.yearsMonthsDays sign start target last (largest = .year)

/-- The span between two dates in units no larger than `largest`. -/
def difference (c : Calendar) (one two : IsoDate) (largest : TimeUnit) : Except Error DateSpan :=
  if c.followsIso then one.difference two largest else c.differenceByMonths one two largest

end Almanac.Calendar
