import Almanac.Calendar.Arithmetic
import Almanac.Duration.Convert
import Almanac.YearMonth.Convert

/-!
# Adding durations to year-months

A month is moved through one of its days: the first for a duration forwards, the last for one
backwards, so that days fewer than the month has do not leave it.

* `YearMonth.add`, `YearMonth.subtract`: the month a duration later or earlier.
-/

namespace Almanac

/-- The years, months, weeks and days of a duration, with the whole days of its time. -/
def Duration.spanOfDays (d : Duration) : DateSpan :=
  { d.dateSpan with days := d.days + d.timeNanoseconds.tdiv (TimeUnit.nanoseconds .day) }

namespace YearMonth

/-- The last day of the month that begins on a date. -/
def lastDayFrom (ym : YearMonth) (first : IsoDate) : Except Error IsoDate := do
  let next ← ym.calendar.add first { months := 1 } .constrain
  let last ← (← IsoDate.balance { next with day := next.day - 1 }).checkLimits
  let day := (← ym.calendar.read last).day
  ym.calendar.dateOfFields ((ym.fields [.monthCode, .year]).set .day (.number day)) .constrain

/-- The month a duration later. -/
def add (ym : YearMonth) (d : Duration) (overflow : Overflow) : Except Error YearMonth := do
  let span := d.spanOfDays
  let first ← ym.firstDay
  let start ← if span.sign < 0 then ym.lastDayFrom first else pure first
  let reached ← ym.calendar.add start span overflow
  let fields := ym.calendar.fieldsOf (ym.calendar.dateOf reached)
    (ym.calendar.fieldsFor [.monthCode, .year])
  ofFields ym.calendar fields overflow

/-- The month a duration earlier. -/
def subtract (ym : YearMonth) (d : Duration) (overflow : Overflow) : Except Error YearMonth :=
  ym.add (-d) overflow

/-- The month later by the duration that a value is, writes or describes. -/
def addFrom (ym : YearMonth) (d overflow : Value) : Except Error YearMonth := do
  let d ← d.toDuration
  ym.add d (← overflow.toOverflow)

/-- The month earlier by the duration that a value is, writes or describes. -/
def subtractFrom (ym : YearMonth) (d overflow : Value) : Except Error YearMonth := do
  let d ← d.toDuration
  ym.subtract d (← overflow.toOverflow)

end YearMonth

end Almanac
