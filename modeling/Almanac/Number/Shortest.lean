import Almanac.Number.Double
import Almanac.Text.Padded

/-!
# The shortest text of a double

A finite double is written with the fewest digits that are read back as the same double; of several
such decimals the nearest one is taken, and of two equally near ones the even one. Magnitudes from
a ten-thousandth to ten to the sixteenth are written out, the others with an exponent of ten.

* `Double.shortest`: the digits and their exponent.
* `Double.layout`: digits around a point, or with an exponent.
* `Double.display`: the text.
-/

namespace Almanac.Double

open Text (digits paddedDigits)

/-- A power of ten. -/
def powerOfTen (e : Int) : Rat :=
  if 0 ≤ e then ((Nat.pow 10 e.toNat : Nat) : Rat) else mkRat 1 (Nat.pow 10 e.natAbs)

/-- The least `p` for which a positive rational is below the `p`-th power of ten: the place of the
point when its first digit stands right behind it. The digits of numerator and denominator tell it
but for one. -/
def pointOf (q : Rat) : Int :=
  let p : Int := (digits q.num.natAbs).length - (digits q.den).length
  if q < powerOfTen p then p else p + 1

/-- Of the two multiples of `unit` around a positive double, the one that is read back as the
double, as a count; if both are, the nearer one, and the even one when they are equally near. -/
def nearestCount? (q unit : Rat) : Option Nat :=
  let steps := q / unit
  let below := steps.num.natAbs / steps.den
  let readsBack (count : Nat) : Bool := nearest (count * unit) = q
  if readsBack below then
    if readsBack (below + 1) then some (roundHalfEven steps.num.natAbs steps.den) else some below
  else if readsBack (below + 1) then some (below + 1)
  else none

/-- The most digits that a double needs. -/
def maxDigits : Nat := 17

/-- The digits of a positive double, as a number, and their exponent of ten: the first grid with a
point that is read back, from one digit on. -/
def shortest (q : Rat) : Nat × Int :=
  let point := pointOf q
  let attempt (count : Nat) : Option (Nat × Int) :=
    let e := point - (count + 1)
    (nearestCount? q (powerOfTen e)).map fun n => (n, e)
  ((List.range maxDigits).findSome? attempt).getD (roundHalfEven q.num.natAbs q.den, 0)

/-- Digits around a point, at least one on either side. -/
def positional (ds : List Char) (point : Int) : List Char :=
  if point ≤ 0 then '0' :: '.' :: List.replicate point.natAbs '0' ++ ds
  else
    let whole := ds.take point.toNat ++ List.replicate (point.toNat - ds.length) '0'
    let fraction := ds.drop point.toNat
    whole ++ '.' :: if fraction = [] then ['0'] else fraction

/-- Digits with an exponent: a point behind the first digit if there are more, and the exponent with
its sign and at least two digits. -/
def scientific (ds : List Char) (e : Int) : List Char :=
  let mantissa := ds.take 1 ++ if ds.length ≤ 1 then [] else '.' :: ds.drop 1
  mantissa ++ 'e' :: (if e < 0 then '-' else '+') :: paddedDigits 2 e.natAbs

/-- Digits whose first stands right behind the point, the point moved by `point` places. -/
def layout (ds : List Char) (point : Int) : List Char :=
  if -4 < point ∧ point ≤ 16 then positional ds point else scientific ds (point - 1)

/-- The text of a positive double. -/
def magnitudeChars (q : Rat) : List Char :=
  let (n, e) := shortest q
  let ds := digits n
  layout (ds.reverse.dropWhile (· = '0')).reverse (ds.length + e)

/-- A double as messages show it. -/
def display : Double → String
  | finite q =>
    if q = 0 then "0.0"
    else if q < 0 then String.ofList ('-' :: magnitudeChars (-q))
    else String.ofList (magnitudeChars q)
  | negativeZero => "-0.0"
  | infinite true => "-inf"
  | infinite false => "inf"
  | nan => "nan"

end Almanac.Double
