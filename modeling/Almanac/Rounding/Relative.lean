import Almanac.Calendar.Arithmetic
import Almanac.Duration.Basic
import Almanac.Rounding.Mode

/-!
# Rounding relative to a date

Years and months have no fixed length, so a span is rounded by the dates that it leads to. Two
multiples of the increment enclose the span; the dates that they lead to from the origin enclose
the destination; and how far the destination is from the one to the other, as an exact fraction,
decides between them.

* `Nudge.of`: a span rounded in one unit.
* `bubble`: a unit that has been filled up by rounding, carried into the next larger one.
* `roundRelative`: both steps.
-/

namespace Almanac

/-- The instant at which a date begins, in nanoseconds from 1970-01-01. -/
def IsoDate.epochNanoseconds (d : IsoDate) : Except Error Int := do
  return (← d.toEpochDay) * TimeUnit.nanoseconds .day

/-- The instant to which a span leads from an origin. -/
def Calendar.reach (c : Calendar) (origin : IsoDate) (span : DateSpan) : Except Error Int := do
  (← c.add origin span .constrain).epochNanoseconds

/-- A span rounded in one unit. -/
structure Nudge where
  span : DateSpan
  /-- The instant to which the span leads. -/
  instant : Int
  /-- Whether the span is the larger of the two candidates. -/
  expanded : Bool
deriving DecidableEq, Repr

/-- A candidate of rounding: a count of the unit, and the span with that count. -/
structure Candidate where
  count : Int
  span : DateSpan
deriving DecidableEq, Repr

namespace Nudge

/-- The candidate with a given count of the unit; smaller units are dropped. -/
def candidate (span : DateSpan) (unit : TimeUnit) (count : Int) : Except Error Candidate :=
  match unit with
  | .year => .ok ⟨count, { years := count }⟩
  | .month => .ok ⟨count, { years := span.years, months := count }⟩
  | _ => .error (.unroundableUnit unit)

/-- The lower candidate: the multiple of the increment next to the span, toward zero. -/
def lower (span : DateSpan) (unit : TimeUnit) (increment : Int) : Except Error Candidate :=
  match unit with
  | .year => do candidate span unit (← truncateTo increment span.years)
  | .month => do candidate span unit (← truncateTo increment span.months)
  | _ => .error (.unroundableUnit unit)

/-- The magnitude to which a count is rounded, `progress` of the way from the lower candidate to the
upper. -/
def roundedCount (sign increment lower upper : Int) (progress : Rat) (mode : RoundingMode) : Int :=
  if progress = 1 then upper.natAbs
  else
    let total : Rat := lower + progress * increment * sign
    (mode.forMagnitude (sign < 0)).choose (if total < 0 then -total else total) lower.natAbs
      upper.natAbs

/-- The candidate that a destination is rounded to, given the instants to which the two lead. -/
def pick (sign increment destination : Int) (unit : TimeUnit) (mode : RoundingMode)
    (low high : Candidate) (start finish : Int) : Except Error Nudge :=
  if destination < min start finish ∨ max start finish < destination then
    .error (.outsideBracket unit low.count high.count)
  else if start = finish then .error .zeroDenominator
  else
    let progress : Rat := (destination - start : Int) / (finish - start : Int)
    if roundedCount sign increment low.count high.count progress mode = high.count.natAbs then
      .ok ⟨high.span, finish, true⟩
    else .ok ⟨low.span, start, false⟩

/-- A span rounded in one unit, so that it leads from the origin to one side of the destination. -/
def of (sign : Int) (span : DateSpan) (destination : Int) (origin : IsoDate) (c : Calendar)
    (increment : Int) (unit : TimeUnit) (mode : RoundingMode) : Except Error Nudge := do
  let low ← lower span unit increment
  let high ← candidate span unit (low.count + increment * sign)
  let start ← c.reach origin low.span
  let finish ← c.reach origin high.span
  pick sign increment destination unit mode low high start finish

end Nudge

/-- The span with one more of a unit, in the direction of `sign`; smaller units are dropped. -/
def DateSpan.grow (span : DateSpan) (sign : Int) : TimeUnit → DateSpan
  | .year => { years := span.years + sign }
  | .month => { years := span.years, months := span.months + sign }
  | _ => { years := span.years, months := span.months, weeks := span.weeks + sign }

/-- A span carried into the given units, smallest first, as long as the instant that rounding led to
is not short of the date at which the unit is full. -/
def carry (sign : Int) (instant : Int) (origin : IsoDate) (c : Calendar) (span : DateSpan) :
    List TimeUnit → Except Error DateSpan
  | [] => .ok span
  | unit :: rest => do
    let full ← c.reach origin (span.grow sign unit)
    if (instant - full).sign = -sign then return span
    else carry sign instant origin c (span.grow sign unit) rest

/-- A span whose smallest unit has been filled up by rounding, carried into the units up to the
largest. Weeks are passed over unless they are the largest unit. -/
def bubble (sign : Int) (span : DateSpan) (instant : Int) (origin : IsoDate) (c : Calendar)
    (largest smallest : TimeUnit) : Except Error DateSpan :=
  carry sign instant origin c span
    (TimeUnit.all.reverse.filter fun u =>
      u.rank < smallest.rank && largest.rank ≤ u.rank && (u ≠ .week || largest = .week))

/-- A span from an origin to a destination, rounded to its smallest unit. -/
def roundRelative (span : DateSpan) (destination : Int) (origin : IsoDate) (c : Calendar)
    (zoned : Bool) (largest : TimeUnit) (increment : Int) (smallest : TimeUnit)
    (mode : RoundingMode) : Except Error DateSpan :=
  if zoned then .error .zonedRounding
  else if !smallest.isCalendarUnit then .error (.unroundableUnit smallest)
  else do
    let sign := if span.sign < 0 then -1 else 1
    let nudge ← Nudge.of sign span destination origin c increment smallest mode
    if nudge.expanded && smallest ≠ .week then
      bubble sign nudge.span nudge.instant origin c largest (smallest.larger .day)
    else return nudge.span

end Almanac
