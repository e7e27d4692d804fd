import Almanac.Error

/-!
# Rounding modes

The directions in which a signed number is rounded, and those that remain once its sign is set
aside.

* `RoundingMode.negate`: the mode for the number with its sign reversed.
* `RoundingMode.forMagnitude`: the mode for the magnitude of a number.
* `MagnitudeMode.choose`: which of two neighbours a magnitude is rounded to.
* `truncateTo`: the multiple of an increment next to a number, toward zero.
-/

namespace Almanac

/-- A direction of rounding. -/
inductive RoundingMode
  | ceil
  | floor
  /-- Away from zero. -/
  | expand
  /-- Toward zero. -/
  | trunc
  | halfCeil
  | halfFloor
  | halfExpand
  | halfTrunc
  | halfEven
deriving DecidableEq, Repr

/-- A direction of rounding for a number that is not negative. -/
inductive MagnitudeMode
  | zero
  | infinity
  | halfZero
  | halfInfinity
  | halfEven
deriving DecidableEq, Repr

namespace RoundingMode

/-- The option text of each mode, in the order a message lists them. -/
def names : List (RoundingMode × String) :=
  [(ceil, "ceil"), (floor, "floor"), (expand, "expand"), (trunc, "trunc"), (halfCeil, "halfCeil"),
   (halfFloor, "halfFloor"), (halfExpand, "halfExpand"), (halfTrunc, "halfTrunc"),
   (halfEven, "halfEven")]

/-- The option text of a mode. -/
def name : RoundingMode → String
  | ceil => "ceil"
  | floor => "floor"
  | expand => "expand"
  | trunc => "trunc"
  | halfCeil => "halfCeil"
  | halfFloor => "halfFloor"
  | halfExpand => "halfExpand"
  | halfTrunc => "halfTrunc"
  | halfEven => "halfEven"

/-- The mode that rounds the opposite of a number to the opposite of what this one rounds the
number to. -/
def negate : RoundingMode → RoundingMode
  | ceil => floor
  | floor => ceil
  | halfCeil => halfFloor
  | halfFloor => halfCeil
  | mode => mode

/-- The mode that rounds the magnitude of a number, given whether the number is negative. -/
def forMagnitude (mode : RoundingMode) (negative : Bool) : MagnitudeMode :=
  match mode with
  | ceil => if negative then .zero else .infinity
  | floor => if negative then .infinity else .zero
  | expand => .infinity
  | trunc => .zero
  | halfCeil => if negative then .halfZero else .halfInfinity
  | halfFloor => if negative then .halfInfinity else .halfZero
  | halfExpand => .halfInfinity
  | halfTrunc => .halfZero
  | halfEven => .halfEven

end RoundingMode

namespace MagnitudeMode

/-- The text of a mode. -/
def name : MagnitudeMode → String
  | zero => "zero"
  | infinity => "infinity"
  | halfZero => "half-zero"
  | halfInfinity => "half-infinity"
  | halfEven => "half-even"

/-- The modes. -/
def all : List MagnitudeMode := [zero, infinity, halfZero, halfInfinity, halfEven]

/-- The neighbour, of the two that enclose a magnitude, that it is rounded to. A half goes the way
of the mode; `halfEven` takes the lower neighbour if that is an even multiple of the distance of the
two. -/
def choose (mode : MagnitudeMode) (x : Rat) (lower upper : Int) : Int :=
  if x = lower then lower
  else
    match mode with
    | zero => lower
    | infinity => upper
    | _ =>
      let below := x - lower
      let above := upper - x
      if below < above then lower
      else if above < below then upper
      else
        match mode with
        | halfZero => lower
        | halfInfinity => upper
        | _ => if lower % (2 * (upper - lower)) = 0 then lower else upper

end MagnitudeMode

/-- The multiple of an increment that is next to a number in the direction of zero. -/
def truncateTo (increment value : Int) : Except Error Int :=
  if increment = 0 then .error .zeroDenominator
  else .ok (value.sign * ((value.natAbs : Int).fdiv increment * increment))

end Almanac
