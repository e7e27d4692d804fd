import Almanac.Error
import Almanac.Number.Basic

/-!
# Arithmetic of numbers

Sums, multiples, quotients and remainders of numbers of any kind. Integers and fractions are exact.
With a double the result is a double: the exact result, rounded.

* `Number.add`, `Number.sub`, `Number.times`: sums, differences, and multiples by a natural number.
* `Number.quotient`, `Number.remainder`: division by a positive natural number, toward the floor.
* `Number.truncate`, `Number.toWhole`: the integer part of a finite number, and the integer that a
  number is.
* `whole_add_whole` and its companions: on integers these are the operations of integers.
-/

namespace Almanac

namespace Double

/-- A double with its sign reversed. -/
def neg : Double → Double
  | finite q => if q = 0 then negativeZero else finite (-q)
  | negativeZero => finite 0
  | infinite negative => infinite !negative
  | nan => nan

/-- The sum of two doubles. Opposite infinities have none. -/
def add : Double → Double → Double
  | nan, _ | _, nan => nan
  | infinite a, infinite b => if a = b then infinite a else nan
  | infinite a, _ | _, infinite a => infinite a
  | negativeZero, y => y
  | x, negativeZero => x
  | finite p, finite q => ofRat (p + q)

/-- A positive multiple of a double. -/
def times (k : Nat) : Double → Double
  | finite q => ofRat (k * q)
  | x => x

/-- What is left of a rational when the multiples of a divisor are taken off toward zero. -/
def rest (q : Rat) (divisor : Nat) : Rat :=
  let quotient := q / divisor
  q - divisor * (quotient.num.tdiv quotient.den : Int)

/-- The remainder by a positive divisor, which is not negative: what is left toward zero, and the
divisor added to it if that is negative. -/
def remainder (divisor : Nat) : Double → Double
  | finite q =>
    let left := rest q divisor
    ofRat (if left < 0 then left + divisor else left)
  | negativeZero => finite 0
  | infinite _ | nan => nan

/-- The quotient by a positive divisor, as a whole number: what remains once the rest is taken off
is divided, one less if the rest was negative, and the result, which is next to a whole number,
moved to it. -/
def quotient (divisor : Nat) : Double → Double
  | finite q =>
    let left := rest q divisor
    let divided := nearest (nearest (q - left) / divisor)
    let divided := if left < 0 then nearest (divided - 1) else divided
    let floor := divided.floor
    finite (if 1 / 2 < divided - floor then floor + 1 else floor)
  | negativeZero => negativeZero
  | infinite _ | nan => nan

end Double

namespace Number

instance : Coe Int Number := ⟨whole⟩

instance (n : Nat) : OfNat Number n := ⟨whole n⟩

/-- A number as a double. -/
def toDouble : Number → Double
  | whole n => .ofRat n
  | ratio q => .ofRat q
  | double d => d

/-- The sum of two numbers. -/
def add : Number → Number → Number
  | whole m, whole n => whole (m + n)
  | whole m, ratio q => ratio (m + q)
  | ratio p, whole n => ratio (p + n)
  | ratio p, ratio q => ratio (p + q)
  | a, b => double (a.toDouble.add b.toDouble)

/-- A number with its sign reversed. -/
def neg : Number → Number
  | whole n => whole (-n)
  | ratio q => ratio (-q)
  | double d => double d.neg

/-- The difference of two numbers. -/
def sub (a b : Number) : Number := a.add b.neg

instance : Add Number := ⟨add⟩

instance : Sub Number := ⟨sub⟩

/-- A positive multiple of a number. -/
def times (k : Nat) : Number → Number
  | whole n => whole (k * n)
  | ratio q => ratio (k * q)
  | double d => double (d.times k)

/-- The quotient by a positive divisor, toward the floor. -/
def quotient (divisor : Nat) : Number → Number
  | whole n => whole (n / divisor)
  | ratio q => whole (q / divisor).floor
  | double d => double (d.quotient divisor)

/-- The remainder by a positive divisor, which is not negative. -/
def remainder (divisor : Nat) : Number → Number
  | whole n => whole (n % divisor)
  | ratio q => ratio (q - divisor * (q / divisor).floor)
  | double d => double (d.remainder divisor)

/-- The integer part of a number, toward zero. An infinity has none, and what is no number has
none. -/
def truncate (n : Number) : Except Error Int :=
  match n.position with
  | some (0, q) => .ok (integerPart q)
  | _ => .error .numberBeyondDouble

/-- The integer that a number is. -/
def toWhole (n : Number) (name : String) : Except Error Int :=
  match n.whole? with
  | some n => .ok n
  | none => .error (.notWhole name n.display)

@[simp]
theorem ofNat_eq_whole (n : Nat) : (OfNat.ofNat n : Number) = whole n := rfl

@[simp]
theorem whole_add_whole (m n : Int) : whole m + whole n = whole (m + n) := rfl

@[simp]
theorem whole_sub_whole (m n : Int) : whole m - whole n = whole (m - n) := rfl

@[simp]
theorem times_whole (k : Nat) (n : Int) : (whole n).times k = whole (k * n) := rfl

@[simp]
theorem quotient_whole (divisor : Nat) (n : Int) :
    (whole n).quotient divisor = whole (n / divisor) := rfl

@[simp]
theorem remainder_whole (divisor : Nat) (n : Int) :
    (whole n).remainder divisor = whole (n % divisor) := rfl

@[simp]
theorem truncate_whole (n : Int) : (whole n).truncate = .ok n := by
  simp [truncate, position, integerPart]

@[simp]
theorem toWhole_whole (n : Int) (name : String) : (whole n).toWhole name = .ok n := rfl

end Number

end Almanac
