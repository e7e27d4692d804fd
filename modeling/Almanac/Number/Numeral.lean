import Almanac.Number.Basic
import Almanac.Text.Blank
import Almanac.Text.Digit

/-!
# Numerals

Numbers in texts. A numeral is a sign, digits, and then either a slash and the digits of a
denominator or a point, digits and an exponent of ten. Digits may be of any script and single
underscores may separate them.

* `Numeral.ofChars?`: the grammar.
* `Numeral.value`: the rational that a numeral writes; its denominator must not be zero.
* `Numeral.read`: the rational of a text, white space around it aside; blank is zero.
* `Double.ofText?`: the double of a decimal text.
-/

namespace Almanac

/-- A numeral as it is written. -/
structure Numeral where
  negative : Bool := false
  integer : List Nat := []
  denominator : Option (List Nat) := none
  fraction : List Nat := []
  exponent : Option (Bool × List Nat) := none
deriving DecidableEq, Repr

/-- Why a text gives no rational. -/
inductive NumeralFault
  | unreadable
  | zeroDenominator
deriving DecidableEq, Repr

namespace Numeral

/-- The digits at the front of a text, with single underscores between them. -/
def spanGroups : List Char → List Nat × List Char
  | [] => ([], [])
  | c :: s =>
    match Text.digit? c with
    | none => ([], c :: s)
    | some d =>
      match s with
      | '_' :: e :: s' =>
        if Text.isDigit e then
          let (ds, rest) := spanGroups (e :: s')
          (d :: ds, rest)
        else ([d], s)
      | s =>
        let (ds, rest) := spanGroups s
        (d :: ds, rest)

/-- A sign at the front of a text, and the rest. -/
def takeSign : List Char → Bool × List Char
  | '-' :: s => (true, s)
  | '+' :: s => (false, s)
  | s => (false, s)

/-- The exponent at the end of a text. -/
def takeExponent (n : Numeral) : List Char → Option Numeral
  | [] => some n
  | e :: s =>
    if e = 'e' ∨ e = 'E' then
      let (negative, s) := takeSign s
      match spanGroups s with
      | (d :: ds, []) => some { n with exponent := some (negative, d :: ds) }
      | _ => none
    else none

/-- What follows the sign and the digits of the integer part. -/
def takeRest (n : Numeral) : List Char → Option Numeral
  | '/' :: s =>
    match spanGroups s with
    | (d :: ds, []) => some { n with denominator := some (d :: ds) }
    | _ => none
  | '.' :: s =>
    let (ds, s) := spanGroups s
    if n.integer = [] ∧ ds = [] then none else takeExponent { n with fraction := ds } s
  | s => if n.integer = [] then none else takeExponent n s

/-- The numeral of a text, if it is one. -/
def ofChars? (s : List Char) : Option Numeral :=
  let (negative, s) := takeSign s
  let (ds, s) := spanGroups s
  if ds = [] ∧ s.head? ≠ some '.' then none else takeRest { negative, integer := ds } s

/-- Whether no part of a numeral has too many digits. -/
def isShort (n : Numeral) : Bool :=
  n.integer.length ≤ Text.maxDigits && (n.denominator.getD []).length ≤ Text.maxDigits &&
    n.fraction.length ≤ Text.maxDigits &&
    ((n.exponent.map Prod.snd).getD []).length ≤ Text.maxDigits

/-- The magnitude of a numeral without a denominator. -/
def decimalMagnitude (n : Numeral) : Rat :=
  let mantissa := Text.number (n.integer ++ n.fraction)
  let scale := Nat.pow 10 n.fraction.length
  match n.exponent with
  | none => mkRat mantissa scale
  | some (false, ds) => mkRat (mantissa * Nat.pow 10 (Text.number ds)) scale
  | some (true, ds) => mkRat mantissa (scale * Nat.pow 10 (Text.number ds))

/-- The rational that a numeral writes. -/
def value (n : Numeral) : Except NumeralFault Rat :=
  let signed (q : Rat) : Rat := if n.negative then -q else q
  match n.denominator with
  | some ds =>
    if Text.number ds = 0 then .error .zeroDenominator
    else .ok (signed (mkRat (Text.number n.integer) (Text.number ds)))
  | none => .ok (signed n.decimalMagnitude)

/-- The rational of a text. -/
def read (s : String) : Except NumeralFault Rat :=
  match Text.strip s.toList with
  | [] => .ok 0
  | chars =>
    match ofChars? chars with
    | some n => if n.isShort then n.value else .error .unreadable
    | none => .error .unreadable

end Numeral

/-- The double of a decimal text, `nan`, `inf` or `-inf`. -/
def Double.ofText? (s : String) : Option Double :=
  if s = "nan" then some .nan
  else if s = "inf" then some (.infinite false)
  else if s = "-inf" then some (.infinite true)
  else do
    let numeral ← Numeral.ofChars? s.toList
    let q ← numeral.value.toOption
    let d := Double.ofRat q
    return if numeral.negative && d = .finite 0 then .negativeZero else d

end Almanac
