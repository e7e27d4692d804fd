/-!
# Overflow

What becomes of a month or a day that its year or month does not have.
-/

namespace Almanac

/-- How a field beyond its range is treated. -/
inductive Overflow
  /-- It is moved to the nearest value in range. -/
  | constrain
  /-- It is refused. -/
  | reject
deriving DecidableEq, Repr

namespace Overflow

/-- The option text of each treatment, in the order a message lists them. -/
def names : List (Overflow × String) := [(constrain, "constrain"), (reject, "reject")]

/-- The option text of a treatment. -/
def name : Overflow → String
  | constrain => "constrain"
  | reject => "reject"

end Overflow

end Almanac
