import Almanac.Duration.Basic
import Almanac.Text.Padded

/-!
# The text of a duration

The ISO 8601 form, such as `P1Y2M` or `-PT1.5S`. Counts of zero are left out, and the parts of a
second are written as a decimal fraction of the seconds.

* `Duration.chars`, `Duration.text`: the text of a duration.
-/

namespace Almanac.Duration

open Text (digits paddedDigits)

/-- A count with its designator, unless it is zero. -/
def component (count : Nat) (designator : Char) : List Char :=
  if count = 0 then [] else digits count ++ [designator]

/-- The years, months, weeks and days. -/
def dateChars (d : Duration) : List Char :=
  component d.years.natAbs 'Y' ++ component d.months.natAbs 'M' ++ component d.weeks.natAbs 'W' ++
    component d.days.natAbs 'D'

/-- The hours and minutes. -/
def hourChars (d : Duration) : List Char :=
  component d.hours.natAbs 'H' ++ component d.minutes.natAbs 'M'

/-- The nanoseconds in the parts of a second. -/
def subsecond (d : Duration) : Nat :=
  d.milliseconds.natAbs * 1000000 + d.microseconds.natAbs * 1000 + d.nanoseconds.natAbs

/-- A fraction of a second, a number of nanoseconds, without its final zeros. -/
def fractionChars (ns : Nat) : List Char :=
  if ns = 0 then []
  else '.' :: ((paddedDigits 9 ns).reverse.dropWhile (· = '0')).reverse

/-- The seconds with their fraction; a duration that shows nothing else shows its seconds. -/
def secondChars (d : Duration) : List Char :=
  let whole := d.seconds.natAbs + d.subsecond / 1000000000
  let fraction := d.subsecond % 1000000000
  if whole = 0 ∧ fraction = 0 ∧ d.dateChars ++ d.hourChars ≠ [] then []
  else digits whole ++ fractionChars fraction ++ ['S']

/-- The text of a duration. -/
def chars (d : Duration) : List Char :=
  let time := d.hourChars ++ d.secondChars
  (if d.sign < 0 then ['-'] else []) ++ 'P' :: d.dateChars ++
    if time = [] then [] else 'T' :: time

/-- The text of a duration. -/
def text (d : Duration) : String := String.ofList d.chars

end Almanac.Duration
