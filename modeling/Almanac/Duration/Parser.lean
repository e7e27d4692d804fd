import Almanac.Duration.Basic
import Almanac.Text.Digit

/-!
# Reading durations

ISO 8601 durations: a sign, `P`, years, months, weeks and days, then `T`, hours, minutes and
seconds. Every component may be missing but not all, none may be repeated or out of order, and the
last of the time components may have a fraction of up to nine digits. Digits may be of any script.

* `Components`: the components as they are written.
* `Components.ofChars?`: the grammar.
* `Components.fault?`: what the grammar leaves open and is refused all the same.
* `Components.parts`: the counts, with a fraction spread over the smaller units.
* `Duration.parse`: all of it.
-/

namespace Almanac

/-- A count in a text, with the digits of its fraction. -/
structure Component where
  count : Nat
  fraction : List Nat := []
deriving DecidableEq, Repr

/-- The components of a duration as they are written. -/
structure Components where
  negative : Bool := false
  years : Option Component := none
  months : Option Component := none
  weeks : Option Component := none
  days : Option Component := none
  /-- Whether the time designator is there. -/
  timed : Bool := false
  hours : Option Component := none
  minutes : Option Component := none
  seconds : Option Component := none
deriving DecidableEq, Repr

namespace Component

/-- The digits of a fraction at the front of a text: a point or comma and digits. -/
def spanFraction : List Char → List Nat × List Char
  | c :: rest =>
    if c = '.' ∨ c = ',' then
      match Text.spanDigits rest with
      | ([], _) => ([], c :: rest)
      | (ds, rest') => (ds, rest')
    else ([], c :: rest)
  | [] => ([], [])

/-- A component with the given designator, in either letter case, at the front of a text. Without
one nothing is read. -/
def read (fractional : Bool) (designator : Char) (s : List Char) :
    Option Component × List Char :=
  match Text.spanDigits s with
  | ([], _) => (none, s)
  | (ds, afterCount) =>
    let (fraction, afterFraction) :=
      if fractional then spanFraction afterCount else ([], afterCount)
    match afterFraction with
    | c :: rest =>
      if c.toUpper = designator ∧ fraction.length ≤ 9 then
        (some ⟨Text.number ds, fraction⟩, rest)
      else (none, s)
    | [] => (none, s)

/-- The length of a fraction of a unit in nanoseconds, cut off below one. -/
def fractionNanoseconds (c : Option Component) (unit : TimeUnit) : Nat :=
  match c with
  | some c =>
    Text.number c.fraction * unit.nanoseconds.toNat / Nat.pow 10 c.fraction.length
  | none => 0

/-- The count of a component that may be missing. -/
def countOf (c : Option Component) : Nat := (c.map Component.count).getD 0

/-- Whether a component is there and has a fraction. -/
def hasFraction (c : Option Component) : Bool := c.any fun c => !c.fraction.isEmpty

end Component

namespace Components

open Component (read fractionNanoseconds countOf hasFraction)

/-- The time components of a text, which end it. -/
def readTime (c : Components) (s : List Char) : Option Components :=
  match s with
  | [] => some c
  | t :: s =>
    if t.toUpper = 'T' then
      let (hours, s) := read true 'H' s
      let (minutes, s) := read true 'M' s
      let (seconds, s) := read true 'S' s
      if s = [] then some { c with timed := true, hours, minutes, seconds } else none
    else none

/-- The components after the sign. -/
def readUnsigned (negative : Bool) : List Char → Option Components
  | p :: s =>
    if p.toUpper = 'P' then
      let (years, s) := read false 'Y' s
      let (months, s) := read false 'M' s
      let (weeks, s) := read false 'W' s
      let (days, s) := read false 'D' s
      readTime { negative, years, months, weeks, days } s
    else none
  | [] => none

/-- The components of a text, if the text has the form of a duration. -/
def ofChars? : List Char → Option Components
  | '-' :: s => readUnsigned true s
  | '+' :: s => readUnsigned false s
  | s => readUnsigned false s

/-- Whether no time component is there. -/
def timeless (c : Components) : Bool := c.hours.isNone && c.minutes.isNone && c.seconds.isNone

/-- Whether no date component is there. -/
def dateless (c : Components) : Bool :=
  c.years.isNone && c.months.isNone && c.weeks.isNone && c.days.isNone

/-- The fault of components that make no duration. -/
def fault? (c : Components) : Option ParseFault :=
  if c.dateless && c.timeless then some .noComponents
  else if c.timed && c.timeless then some .emptyTime
  else if hasFraction c.hours && (c.minutes.isSome || c.seconds.isSome) then
    some .fractionalHours
  else if hasFraction c.minutes && c.seconds.isSome then some .fractionalMinutes
  else none

/-- The counts without their sign. A fraction of an hour fills the minutes and seconds, a fraction
of a minute the seconds, and what is left of any fraction the parts of a second. -/
def magnitudes (c : Components) : DurationParts :=
  let ns := fractionNanoseconds c.hours .hour + fractionNanoseconds c.minutes .minute +
    fractionNanoseconds c.seconds .second
  let (extraMinutes, ns) :=
    if hasFraction c.hours then (ns / 60000000000, ns % 60000000000) else (0, ns)
  let (extraSeconds, ns) :=
    if hasFraction c.hours || hasFraction c.minutes then (ns / 1000000000, ns % 1000000000)
    else (0, ns)
  { years := countOf c.years
    months := countOf c.months
    weeks := countOf c.weeks
    days := countOf c.days
    hours := countOf c.hours
    minutes := countOf c.minutes + extraMinutes
    seconds := countOf c.seconds + extraSeconds
    milliseconds := ns / 1000000
    microseconds := ns % 1000000 / 1000
    nanoseconds := ns % 1000 }

/-- The counts. -/
def parts (c : Components) : DurationParts := if c.negative then c.magnitudes.neg else c.magnitudes

end Components

/-- The duration that a text writes. -/
def Duration.parse (s : String) : Except Error Duration :=
  match Components.ofChars? s.toList with
  | none => .error (.unparsable s .notDuration)
  | some c =>
    match c.fault? with
    | some fault => .error (.unparsable s fault)
    | none => Duration.ofParts c.parts

end Almanac
