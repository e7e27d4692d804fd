/-!
# The furthest candidate

The search by which a difference of dates finds its years and its months: walk from a first
candidate in steps of one sign and keep the last candidate that has not gone past the target.

* `furthest`: that candidate, within a given number of steps.
-/

namespace Almanac

/-- The last of the candidates `k`, `k + s`, `k + 2 * s`, … before the first that is not `within`,
or `best` when there is none; at most as many candidates are tried as the last argument says. -/
def furthest (within : Int → Bool) (s best k : Int) : Nat → Int
  | 0 => best
  | steps + 1 => if within k then furthest within s k (k + s) steps else best

end Almanac
