import Almanac.Rounding.Mode
import Almanac.TimeUnit

/-!
# The options of a difference

* `Direction`: from which of two values to the other a difference is taken.
* `DifferenceOptions`: its smallest and largest unit, and how it is rounded.
-/

namespace Almanac

/-- The direction of a difference. -/
inductive Direction
  /-- From the receiver to the other value. -/
  | until
  /-- From the other value to the receiver. -/
  | since
deriving DecidableEq, Repr

/-- The text of a direction. -/
def Direction.name : Direction → String
  | .until => "until"
  | .since => "since"

/-- The options of a difference. -/
structure DifferenceOptions where
  smallest : TimeUnit
  largest : TimeUnit
  mode : RoundingMode
  increment : Int
deriving DecidableEq, Repr

end Almanac
