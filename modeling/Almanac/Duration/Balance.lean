import Almanac.Duration.Basic

/-!
# Balanced time

Nanoseconds as days, hours and smaller units, each but the largest below one of the next unit.

* `Duration.balance`: that duration, from a chosen largest unit down.
-/

namespace Almanac

namespace DurationParts

/-- The counts of a number of nanoseconds in the given units, which are taken off in turn: the whole
count of each, toward zero. Any other unit has the count zero. -/
def spread (units : List TimeUnit) (ns : Int) : TimeUnit → Int :=
  match units with
  | [] => fun _ => 0
  | u :: rest => fun v =>
    if v = u then ns.tdiv u.nanoseconds else spread rest (ns.tmod u.nanoseconds) v

/-- The units of fixed length from `largest` down; a calendar unit counts as the day. -/
def unitsBelow (largest : TimeUnit) : List TimeUnit :=
  TimeUnit.all.filter fun u => max largest.rank TimeUnit.day.rank ≤ u.rank

/-- The counts of a number of nanoseconds in the units from `largest` down. -/
def ofNanoseconds (ns : Int) (largest : TimeUnit) : DurationParts :=
  .ofCounts (spread (unitsBelow largest) ns)

end DurationParts

/-- The duration of a number of nanoseconds in the units from `largest` down. -/
def Duration.balance (ns : Int) (largest : TimeUnit) : Except Error Duration :=
  Duration.ofParts (.ofNanoseconds ns largest)

end Almanac
