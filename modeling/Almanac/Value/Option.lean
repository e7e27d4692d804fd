import Almanac.Value.Coercion

/-!
# Options

How the options of an operation are read: each from `null`, which gives the default, from a member
of its enumeration, or from a text.

* `Value.toOverflow`, `Value.toCalendarDisplay`, `Value.toRoundingMode`: options with a list of
  texts.
* `Value.toIncrement`: the rounding increment, from 1 to 1000000000.
* `Value.toDateUnit`: a unit of dates, or `auto`.
* `DifferenceOptions.read`: the options of a difference together.
-/

namespace Almanac

namespace Value

/-- The text of an option. -/
def optionText (v : Value) (name : String) : Except Error String :=
  match v with
  | text s => .ok s
  | v => .error (.optionStringExpected name v.typeName)

/-- The member of an enumeration that an option text names. -/
def named {α : Type} (v : Value) (name : String) (members : List (α × String)) :
    Except Error α := do
  let s ← v.optionText name
  match members.find? fun m => m.2 = s with
  | some m => return m.1
  | none => throw (.invalidChoice name s (members.map Prod.snd))

/-- The option that says how an overflow is treated. -/
def toOverflow (v : Value) : Except Error Overflow :=
  match v with
  | null => .ok .constrain
  | choice (.overflow o) => .ok o
  | v => v.named "overflow" Overflow.names

/-- The option that says when the calendar is shown. -/
def toCalendarDisplay (v : Value) : Except Error CalendarDisplay :=
  match v with
  | null => .ok .auto
  | choice (.calendarDisplay d) => .ok d
  | v => v.named "calendar_name" CalendarDisplay.names

/-- The option that gives the rounding mode. -/
def toRoundingMode (v : Value) : Except Error RoundingMode :=
  match v with
  | null => .ok .trunc
  | choice (.roundingMode m) => .ok m
  | v => v.named "rounding_mode" RoundingMode.names

/-- The greatest rounding increment. -/
def maxIncrement : Nat := 1000000000

/-- The option that gives the rounding increment: a number cut off toward zero. -/
def toIncrement (v : Value) : Except Error Int := do
  let bounded (n : Int) : Except Error Int :=
    if 1 ≤ n ∧ n ≤ maxIncrement then .ok n
    else .error (.incrementBeyondBounds maxIncrement v.display)
  match v with
  | null => return 1
  | number (.whole n) => bounded (Number.integerPart (← checkRatio n))
  | number (.ratio q) => bounded (Number.integerPart (← checkRatio q))
  | number (.double d) =>
    match d.value? with
    | some q => bounded (Number.integerPart q)
    | none => throw (.incrementNotFinite d.display)
  | v => throw (.incrementNumberExpected v.display)

end Value

/-- A unit that an option gives, or leaves to the operation. -/
inductive UnitOption
  | auto
  | unit (u : TimeUnit)
deriving DecidableEq, Repr

/-- The option that gives a unit of dates; nothing is given by `null`. -/
def Value.toDateUnit (v : Value) (name : String) : Except Error (Option UnitOption) := do
  let checked (u : TimeUnit) : Except Error (Option UnitOption) :=
    if u.isDateUnit then .ok (some (.unit u)) else .error (.notDateUnit name u)
  match v with
  | .null => return none
  | .choice (.unit u) => checked u
  | v =>
    let s ← v.optionText name
    if s = "auto" then return some .auto
    match TimeUnit.ofName? s with
    | some u => checked u
    | none => throw (.invalidUnit name s)

/-- The options of a difference as they are passed. -/
structure DifferenceArguments where
  largestUnit : Value := .null
  smallestUnit : Value := .null
  roundingMode : Value := .null
  roundingIncrement : Value := .null

namespace DifferenceOptions

/-- A unit that is not among the disallowed ones. -/
def allowed (disallowed : List TimeUnit) (name : String) (u : TimeUnit) : Except Error TimeUnit :=
  if u ∈ disallowed then .error (.unitNotAllowed name u) else .ok u

/-- The options of a difference, read in the order largest unit, increment, mode, smallest unit.
A difference taken backwards rounds in the negated mode. -/
def read (direction : Direction) (disallowed : List TimeUnit)
    (defaultSmallest defaultLargest : TimeUnit) (args : DifferenceArguments) :
    Except Error DifferenceOptions := do
  let largest? := (← args.largestUnit.toDateUnit "largest_unit").getD .auto
  if let .unit u := largest? then discard (allowed disallowed "largest_unit" u)
  let increment ← args.roundingIncrement.toIncrement
  let mode ← args.roundingMode.toRoundingMode
  let mode := if direction = .since then mode.negate else mode
  match (← args.smallestUnit.toDateUnit "smallest_unit").getD (.unit defaultSmallest) with
  | .auto => throw .smallestAuto
  | .unit smallest =>
    discard (allowed disallowed "smallest_unit" smallest)
    let largest :=
      match largest? with
      | .auto => defaultLargest.larger smallest
      | .unit u => u
    if largest.larger smallest = largest then return { smallest, largest, mode, increment }
    else throw (.smallestAboveLargest smallest largest)

end DifferenceOptions

end Almanac
