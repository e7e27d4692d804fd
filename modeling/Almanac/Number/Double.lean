/-!
# Double precision

The numbers of the binary64 format: 53 significant bits above the smallest exponent, two infinities,
two zeros, and a value that is no number. Finite values are exact rationals; only the act of
rounding is modelled.

* `Double.roundHalfEven`: a quotient of naturals to the nearest integer, a half to the even one.
* `Double.nearest`: a rational rounded to 53 bits, whatever its size.
* `Double.fits`: whether that is below the overflow threshold.
* `Double.ofRat`: the double next to a rational.
-/

namespace Almanac

/-- A double. -/
inductive Double
  | finite (value : Rat)
  /-- The zero below zero. -/
  | negativeZero
  | infinite (negative : Bool)
  | nan
deriving DecidableEq, Repr

namespace Double

/-- The quotient to the nearest integer, a half to the even neighbour. -/
def roundHalfEven (num den : Nat) : Nat :=
  let q := num / den
  let r := num % den
  if 2 * r < den then q
  else if den < 2 * r then q + 1
  else if q % 2 = 0 then q else q + 1

/-- The exponent of the largest power of two that is at most the positive rational `num / den`. -/
def exponent (num den : Nat) : Int :=
  let k : Int := num.log2 - den.log2
  let below : Bool :=
    if 0 ≤ k then num < den * Nat.pow 2 k.toNat else num * Nat.pow 2 (-k).toNat < den
  if below then k - 1 else k

/-- The exponent of the last place of a double near `num / den`. -/
def lastPlace (num den : Nat) : Int := max (-1074) (exponent num den - 52)

/-- The magnitude `num / den` rounded to 53 significant bits, a half to the even neighbour. -/
def nearestMagnitude (num den : Nat) : Rat :=
  if num = 0 then 0
  else
    let e := lastPlace num den
    let unit := Nat.pow 2 e.natAbs
    if 0 ≤ e then ((roundHalfEven num (den * unit) * unit : Nat) : Rat)
    else mkRat (roundHalfEven (num * unit) den) unit

/-- A rational rounded to the nearest double, as if doubles had no greatest one. -/
def nearest (q : Rat) : Rat :=
  if q.num < 0 then -nearestMagnitude q.num.natAbs q.den else nearestMagnitude q.num.natAbs q.den

/-- The power of two at which doubles overflow. -/
def overflow : Nat := Nat.pow 2 1024

/-- Whether a rational rounds to a finite double. -/
def fits (q : Rat) : Bool := nearestMagnitude q.num.natAbs q.den < overflow

/-- The double next to a rational; beyond the greatest one it is infinite. -/
def ofRat (q : Rat) : Double := if fits q then finite (nearest q) else infinite (q.num < 0)

/-- The value of a double that is finite. -/
def value? : Double → Option Rat
  | finite q => some q
  | negativeZero => some 0
  | infinite _ | nan => none

end Double

end Almanac
