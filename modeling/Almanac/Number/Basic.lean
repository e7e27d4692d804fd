import Almanac.Number.Shortest
import Almanac.Text.Shown

/-!
# Numbers

The numbers that a caller can pass: integers of any size, exact fractions and doubles.

* `Number.display`, `Number.plain`: a number as messages show it, with its kind or without.
* `Number.position`: where a number stands; `Number.below` and `Number.same` compare places exactly.
* `Number.whole?`: the integer that a number is.
-/

namespace Almanac

/-- A number. -/
inductive Number
  | whole (n : Int)
  | ratio (q : Rat)
  | double (d : Double)
deriving DecidableEq, Repr

namespace Number

/-- The type name that messages use for a number. -/
def typeName : Number → String
  | whole _ => "int"
  | ratio _ => "Fraction"
  | double _ => "float"

/-- A number as messages show it. -/
def display : Number → Shown
  | whole n => .number n
  | ratio q => "Fraction(" ++ Shown.number q.num ++ ", " ++ Shown.number q.den ++ ")"
  | double d => d.display

/-- A number as plain text: a fraction without its kind. -/
def plain : Number → Shown
  | ratio q =>
    if q.den = 1 then .number q.num else Shown.number q.num ++ "/" ++ Shown.number q.den
  | n => n.display

/-- The integer part of a rational, toward zero. -/
def integerPart (q : Rat) : Int := q.num.tdiv q.den

/-- Where a number stands: at an infinity, which the first component gives by its sign, or at a
rational. -/
def position : Number → Option (Int × Rat)
  | whole n => some (0, n)
  | ratio q => some (0, q)
  | double (.infinite negative) => some (if negative then -1 else 1, 0)
  | double d => d.value?.map fun q => (0, q)

/-- Whether a number is less than another. -/
def below (a b : Number) : Bool :=
  match a.position, b.position with
  | some (s, p), some (t, q) => s < t || s = t && p < q
  | _, _ => false

/-- Whether two numbers stand at the same place. -/
def same (a b : Number) : Bool :=
  match a.position, b.position with
  | some p, some q => p = q
  | _, _ => false

/-- The sign of a number; the numbers that are not comparable have the sign zero. -/
def sign (n : Number) : Int :=
  if n.below (whole 0) then -1 else if (whole 0).below n then 1 else 0

/-- The integer that a number is. -/
def whole? (n : Number) : Option Int :=
  match n.position with
  | some (0, q) => if q.den = 1 then some q.num else none
  | _ => none

theorem whole?_whole (n : Int) : (whole n).whole? = some n := rfl

theorem below_whole (m n : Int) : (whole m).below (whole n) = decide (m < n) := by
  have h : ((m : Rat) < n) = (m < n) := propext Rat.intCast_lt_intCast
  simp only [below, position, h, Int.lt_irrefl, decide_false, Bool.false_or, decide_true,
    Bool.true_and]

theorem same_whole (m n : Int) : (whole m).same (whole n) = decide (m = n) := by
  simp [same, position]

end Number

end Almanac
