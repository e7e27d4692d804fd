import Almanac.Text.Digit

/-!
# Padded numbers

Decimal text with leading zeros. The width counts the minus sign, so a negative number gets one
zero fewer.

* `padded`: the decimal text of an integer, filled with zeros up to a width.
-/

namespace Almanac.Text

/-- The digits of a natural number, filled with zeros up to `width`. -/
def paddedDigits (width n : Nat) : List Char :=
  List.replicate (width - (digits n).length) '0' ++ digits n

/-- The decimal text of an integer, filled with zeros up to `width` characters, sign included. -/
def paddedChars (width : Nat) (n : Int) : List Char :=
  if n < 0 then '-' :: paddedDigits (width - 1) n.natAbs else paddedDigits width n.natAbs

/-- The decimal text of an integer, filled with zeros up to `width` characters, sign included. -/
def padded (width : Nat) (n : Int) : String := String.ofList (paddedChars width n)

end Almanac.Text
