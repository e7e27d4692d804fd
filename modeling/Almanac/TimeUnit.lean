/-!
# Units of time

The ten units that a duration counts, from the year down to the nanosecond.

* `rank`: the place of a unit in that order, so a smaller rank is a larger unit.
* `larger`: the larger of two units.
* `ofName?`: the unit that a singular or plural name names.
-/

namespace Almanac

/-- A unit of time. -/
inductive TimeUnit
  | year
  | month
  | week
  | day
  | hour
  | minute
  | second
  | millisecond
  | microsecond
  | nanosecond
deriving DecidableEq, Repr

namespace TimeUnit

/-- The units, largest first. -/
def all : List TimeUnit :=
  [year, month, week, day, hour, minute, second, millisecond, microsecond, nanosecond]

/-- The place of a unit among the units, largest first. -/
def rank : TimeUnit → Nat
  | year => 0
  | month => 1
  | week => 2
  | day => 3
  | hour => 4
  | minute => 5
  | second => 6
  | millisecond => 7
  | microsecond => 8
  | nanosecond => 9

/-- The singular name of a unit. -/
def singular : TimeUnit → String
  | year => "year"
  | month => "month"
  | week => "week"
  | day => "day"
  | hour => "hour"
  | minute => "minute"
  | second => "second"
  | millisecond => "millisecond"
  | microsecond => "microsecond"
  | nanosecond => "nanosecond"

/-- The plural name of a unit. -/
def plural (u : TimeUnit) : String := u.singular ++ "s"

/-- Years, months and weeks have no fixed length in time. -/
def isCalendarUnit (u : TimeUnit) : Bool := u.rank ≤ week.rank

/-- Years, months, weeks and days count whole days. -/
def isDateUnit (u : TimeUnit) : Bool := u.rank ≤ day.rank

/-- The larger of two units. -/
def larger (u v : TimeUnit) : TimeUnit := if u.rank ≤ v.rank then u else v

/-- The unit that a name, singular or plural, names. -/
def ofName? (name : String) : Option TimeUnit :=
  all.find? fun u => u.singular == name || u.plural == name

end TimeUnit

end Almanac
