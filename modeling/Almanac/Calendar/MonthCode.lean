import Almanac.Error
import Almanac.Text.Digit

/-!
# Month codes

The names of months that keep their meaning from year to year: `M`, two digits, and `L` for a leap
month that follows the month of that number.

* `MonthCode.text`: the text of a code.
* `MonthCode.ofText?`: the code of a text. The digits may be of any script, one line break may
  follow, and the ASCII number `00` is refused.
-/

namespace Almanac

/-- A month code. -/
structure MonthCode where
  number : Int
  leap : Bool := false
deriving DecidableEq, Repr

namespace MonthCode

/-- The text of a code. -/
def text (code : MonthCode) : String :=
  "M" ++ Text.padded 2 code.number ++ if code.leap then "L" else ""

/-- The end of a code, after its digits: nothing or `L`, then perhaps a line break. -/
def leapOfEnd? : List Char → Option Bool
  | [] | ['\n'] => some false
  | ['L'] | ['L', '\n'] => some true
  | _ => none

/-- The code of a text, if it is one. -/
def ofChars? : List Char → Option MonthCode
  | 'M' :: a :: b :: rest => do
    let tens ← Text.digit? a
    let ones ← Text.digit? b
    let leap ← leapOfEnd? rest
    if a = '0' ∧ b = '0' then none else some ⟨10 * tens + ones, leap⟩
  | _ => none

/-- The code of a text. -/
def ofText (s : String) : Except Error MonthCode :=
  match ofChars? s.toList with
  | some code => .ok code
  | none => .error (.malformedMonthCode s)

end MonthCode

end Almanac
