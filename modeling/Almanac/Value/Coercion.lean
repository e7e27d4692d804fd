import Almanac.Number.Numeral
import Almanac.Value.Basic

/-!
# Numbers from values

How an integer is read from a value that a caller passes.

* `Value.truncated`, `Value.positive`, `Value.integral`: a number cut off toward zero, the same with
  a positive result, and a number without a fractional part.
* `Value.argument`: the argument of a constructor, which may be the text of a number, and which is
  out of range when it is no number at all.
-/

namespace Almanac

namespace Value

/-- The number that a value is. -/
def toNumber (v : Value) (name : String) : Except Error Number :=
  match v with
  | number n => .ok n
  | bool _ => .error (.numberExpected name "a bool")
  | v => .error (.numberExpected name v.typeName)

/-- A fraction that can be tested for being finite, which takes it through a double. -/
def checkRatio (q : Rat) : Except Error Rat :=
  if Double.fits q then .ok q else .error .numberBeyondDouble

/-- A number cut off toward zero. -/
def truncated (v : Value) (name : String) : Except Error Int := do
  match ← v.toNumber name with
  | .whole n => return n
  | .ratio q => return Number.integerPart (← checkRatio q)
  | .double d =>
    match d.value? with
    | some q => return Number.integerPart q
    | none => throw (.notFinite name d.display)

/-- A number cut off toward zero, which must then be at least one. -/
def positive (v : Value) (name : String) : Except Error Int := do
  let n ← v.truncated name
  if n < 1 then throw (.notPositive name v.display) else return n

theorem truncated_whole (n : Int) (name : String) : (number (.whole n)).truncated name = .ok n :=
  rfl

/-- An integer that is at least one is read as it is. -/
theorem positive_whole {n : Int} (h : 1 ≤ n) (name : String) :
    (number (.whole n)).positive name = .ok n := by
  rw [positive, truncated_whole]
  exact if_neg (Int.not_lt.2 h)

/-- A number without a fractional part. -/
def integral (v : Value) (name : String) : Except Error Int := do
  let n ← v.toNumber name
  if let .ratio q := n then discard (checkRatio q)
  match n.whole? with
  | some n => return n
  | none => throw (.notWhole name v.display)

/-- The argument of a constructor as a value that is no text: a numeral becomes its rational. -/
def readNumeral (v : Value) (name : String) : Except Error Value :=
  match v with
  | text s =>
    match Numeral.read s with
    | .ok q => .ok (number (.ratio q))
    | .error .unreadable => .error (.argumentUnreadable name s)
    | .error .zeroDenominator => .error .zeroDenominator
  | v => .ok v

/-- The integer that an argument of a constructor gives. -/
def argument (v : Value) (name : String) : Except Error Int := do
  let v ← v.readNumeral name
  match v.truncated name with
  | .error (.numberExpected name got) => throw (.argumentNotNumber name got)
  | r => r

/-- The sign of a number, where the truth values count as one and zero. A year-month is not compared
with numbers. -/
def sign : Value → Except Error Int
  | bool b => .ok (if b then 1 else 0)
  | number n => .ok n.sign
  | yearMonth _ => .error .noPrimitive
  | _ => .ok 0

end Value

/-- The text that a reader of texts is given. -/
def Value.written (v : Value) : Except Error String :=
  match v with
  | .text s => .ok s
  | v => .error (.textExpected v.typeName)

/-- The text that a value is, under a name that a refusal mentions. -/
def Value.string (v : Value) (name : String) : Except Error String :=
  match v with
  | .text s => .ok s
  | v => .error (.stringExpected name v.typeName)

/-- The calendar that a value names or is. -/
def Value.toCalendar (v : Value) : Except Error Calendar :=
  match v with
  | .calendar c => .ok c
  | .text s =>
    match Calendar.ofId? s with
    | some c => .ok c
    | none => .error (.unknownCalendar s)
  | v => .error (.stringExpected "Calendar" v.typeName)

end Almanac
