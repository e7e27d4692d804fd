import Almanac.Calendar.Basic
import Almanac.Text.Shown
import Almanac.TimeUnit

/-!
# Errors

Every way in which an operation can fail, as a cause with the data that it concerns.

* `family`: whether the cause is a wrong type, a wrong range, a wrong key, a write to an immutable
  value, a number beyond the machine's, or a zero denominator.
* `kind?`: the finer class that the errors of type and range carry.
* `wording`: what the message of a cause shows; `message`: the text, which may not be written.
-/

namespace Almanac

open Text (quote)
open Shown (number)

/-- What is wrong with a text that should be a year-month, a date or a duration. -/
inductive ParseFault
  | notYearMonth
  | negativeZeroYear
  | timeWithoutDay
  | badTime
  | utcDesignator
  | offsetWithoutTime
  | badOffset
  | badDate
  | misplacedTimeZone
  | malformedSuffix (body : String)
  | unknownCritical (body : String)
  | criticalCalendars
  | notDuration
  | noComponents
  | emptyTime
  | fractionalHours
  | fractionalMinutes
deriving DecidableEq, Repr

/-- The wording of a fault, as it follows the quoted text. -/
def ParseFault.message : ParseFault → String
  | notYearMonth => "not an ISO 8601 year-month or date"
  | negativeZeroYear => "negative zero year"
  | timeWithoutDay => "time requires a full date"
  | badTime => "invalid time"
  | utcDesignator => "UTC designator not allowed for a plain year-month"
  | offsetWithoutTime => "UTC offset requires a time"
  | badOffset => "invalid UTC offset"
  | badDate => "invalid date"
  | misplacedTimeZone => "misplaced time zone annotation"
  | malformedSuffix body => "malformed annotation [" ++ body ++ "]"
  | unknownCritical body => "unknown critical annotation [" ++ body ++ "]"
  | criticalCalendars => "multiple calendar annotations with a critical flag"
  | notDuration => "not an ISO 8601 duration"
  | noComponents => "duration has no components"
  | emptyTime => "time designator without time components"
  | fractionalHours => "fractional hours must be the last component"
  | fractionalMinutes => "fractional minutes must be the last component"

/-- The cause of a failure. A field `got` holds the name of the type of the value found, a field
`shown` the value found as messages show it. The years, months and days that a calendar refuses are
held as they are shown, too, since a field may hold any value. -/
inductive Error
  -- wrong types
  | numberExpected (name got : String)
  | stringExpected (name got : String)
  | optionStringExpected (name got : String)
  | incrementNumberExpected (shown : Shown)
  | textExpected (got : String)
  | durationExpected (got : String)
  | yearMonthExpected (got : String)
  | patchMappingExpected (got : String)
  | dayMappingExpected (got : String)
  -- missing fields
  | missingField (name : String)
  | eraIncomplete
  | noneOfFields (names : List String)
  | noneOfDurationFields (names : List String)
  -- temporal values where plain fields are due
  | patchIsTemporal
  | patchNamesTemporal (key : String)
  -- conversions that do not exist
  | noPrimitive
  -- values out of range
  | argumentNotNumber (name got : String)
  | argumentUnreadable (name text : String)
  | notFinite (name : String) (shown : Shown)
  | notPositive (name : String) (shown : Shown)
  | notWhole (name : String) (shown : Shown)
  | unknownEra (calendar : Calendar) (shown : Shown)
  | eraMismatch (year era eraYear : Shown)
  | monthMismatch (month code : Shown)
  | monthBeyondYear (calendar : Calendar) (year month : Shown)
  | dayBeyondMonth (calendar : Calendar) (year : Shown) (code : String) (day : Shown)
  | leapMonthAbsent (code : String) (year : Shown)
  | outsideBracket (unit : TimeUnit) (lower upper : Int)
  -- dates
  | invalidIsoDate (year month day : Int)
  | yearMonthBeyondLimits (year month : Int)
  | dateBeyondLimits (year month day : Int)
  -- calendars
  | unknownCalendar (name : String)
  | calendarsDiffer (one two : Calendar)
  -- month codes
  | malformedMonthCode (code : String)
  | monthCodeNotInCalendar (calendar : Calendar) (code : String)
  -- texts
  | unparsable (text : String) (fault : ParseFault)
  -- options
  | invalidChoice (name text : String) (allowed : List String)
  | invalidUnit (name text : String)
  | notDateUnit (name : String) (unit : TimeUnit)
  | unitNotAllowed (name : String) (unit : TimeUnit)
  | smallestAuto
  | smallestAboveLargest (smallest largest : TimeUnit)
  | incrementNotFinite (shown : Shown)
  | incrementBeyondBounds (greatest : Nat) (shown : Shown)
  | unroundableUnit (unit : TimeUnit)
  | zonedRounding
  -- durations
  | mixedSigns
  | durationPartBeyond (name : String) (value : Int)
  | durationTimeBeyond
  -- keys of field records
  | unknownField (shown : Shown)
  | absentField (key : Shown)
  -- writes
  | immutable
  -- numbers beyond the machine's
  | dateBeyondWord (year month day : Int)
  | dayCountBeyondWord (days : Int)
  | numberBeyondDouble
  | zeroDenominator
deriving DecidableEq, Repr

namespace Error

/-- The broad classes of causes. -/
inductive Family
  | type
  | range
  | key
  | attribute
  | overflow
  | zeroDivision
deriving DecidableEq, Repr

/-- The finer class of an error of type or range. -/
inductive Kind
  | unexpectedType
  | missingField
  | temporalLikeObject
  | noPrimitiveConversion
  | outOfRange
  | invalidIsoDate
  | plainYearMonthInvalid
  | plainDateInvalid
  | calendarUnknown
  | calendarIncompatible
  | invalidMonthCode
  | parseFailure
  | invalidOption
  | durationInvalid
deriving DecidableEq, Repr

/-- The tag of a kind. -/
def Kind.tag : Kind → String
  | unexpectedType => "unexpected-type"
  | missingField => "missing-field"
  | temporalLikeObject => "temporal-like-object"
  | noPrimitiveConversion => "no-primitive-conversion"
  | outOfRange => "out-of-range"
  | invalidIsoDate => "invalid-iso-date"
  | plainYearMonthInvalid => "plain-year-month-invalid"
  | plainDateInvalid => "plain-date-invalid"
  | calendarUnknown => "calendar-unknown"
  | calendarIncompatible => "calendar-incompatible"
  | invalidMonthCode => "invalid-month-code"
  | parseFailure => "parse-failure"
  | invalidOption => "invalid-option"
  | durationInvalid => "duration-invalid"

/-- Errors of four kinds are about types, the others about ranges. -/
def Kind.family : Kind → Family
  | unexpectedType | missingField | temporalLikeObject | noPrimitiveConversion => .type
  | _ => .range

/-- The kind of a cause; the causes that have none concern keys, writes and machine numbers. -/
def kind? : Error → Option Kind
  | numberExpected .. | stringExpected .. | optionStringExpected .. | incrementNumberExpected ..
  | textExpected .. | durationExpected .. | yearMonthExpected .. | patchMappingExpected ..
  | dayMappingExpected .. => some .unexpectedType
  | missingField .. | eraIncomplete | noneOfFields .. | noneOfDurationFields .. =>
    some .missingField
  | patchIsTemporal | patchNamesTemporal .. => some .temporalLikeObject
  | noPrimitive => some .noPrimitiveConversion
  | argumentNotNumber .. | argumentUnreadable .. | notFinite .. | notPositive .. | notWhole ..
  | unknownEra .. | eraMismatch .. | monthMismatch .. | monthBeyondYear .. | dayBeyondMonth ..
  | leapMonthAbsent .. | outsideBracket .. => some .outOfRange
  | invalidIsoDate .. => some .invalidIsoDate
  | yearMonthBeyondLimits .. => some .plainYearMonthInvalid
  | dateBeyondLimits .. => some .plainDateInvalid
  | unknownCalendar .. => some .calendarUnknown
  | calendarsDiffer .. => some .calendarIncompatible
  | malformedMonthCode .. | monthCodeNotInCalendar .. => some .invalidMonthCode
  | unparsable .. => some .parseFailure
  | invalidChoice .. | invalidUnit .. | notDateUnit .. | unitNotAllowed .. | smallestAuto
  | smallestAboveLargest .. | incrementNotFinite .. | incrementBeyondBounds ..
  | unroundableUnit .. | zonedRounding => some .invalidOption
  | mixedSigns | durationPartBeyond .. | durationTimeBeyond => some .durationInvalid
  | unknownField .. | absentField .. | immutable | dateBeyondWord .. | dayCountBeyondWord ..
  | numberBeyondDouble | zeroDenominator => none

/-- The broad class of a cause. -/
def family : Error → Family
  | unknownField .. | absentField .. => .key
  | immutable => .attribute
  | dateBeyondWord .. | dayCountBeyondWord .. | numberBeyondDouble => .overflow
  | zeroDenominator => .zeroDivision
  | e => (e.kind?.map Kind.family).getD .range

/-- What the message of a cause shows. -/
def wording : Error → Shown
  | numberExpected name got | argumentNotNumber name got =>
    s!"{name} must be a number, got {got}"
  | stringExpected name got => s!"{name} must be a string, got {got}"
  | optionStringExpected name got => s!"{name} option must be a string, got {got}"
  | incrementNumberExpected shown => "rounding_increment must be a number, got " ++ shown
  | textExpected got => s!"Expected a string, got {got}"
  | durationExpected got => s!"Expected a Duration, mapping or string, got {got}"
  | yearMonthExpected got => s!"Cannot convert {got} to PlainYearMonth"
  | patchMappingExpected got => s!"with_() expects a mapping, got {got}"
  | dayMappingExpected got => s!"to_plain_date() expects a mapping, got {got}"
  | missingField name => s!"Missing required field: {name}"
  | eraIncomplete => "era and era_year must be given together"
  | noneOfFields names => "Expected at least one of: " ++ ", ".intercalate names
  | noneOfDurationFields names =>
    "Duration-like mapping must have at least one of: " ++ ", ".intercalate names
  | patchIsTemporal => "with_() does not accept a temporal object"
  | patchNamesTemporal key => s!"with_() does not accept a {quote key} field"
  | noPrimitive =>
    "PlainYearMonth cannot be converted to a primitive; use compare() or equals()"
  | argumentUnreadable name text => s!"{name} is not a number: {quote text}"
  | notFinite name shown => s!"{name} must be finite, got " ++ shown
  | notPositive name shown => s!"{name} must be positive, got " ++ shown
  | notWhole name shown => s!"{name} must be an integer, got " ++ shown
  | unknownEra calendar shown => "Unknown era " ++ shown ++ s!" for the {calendar.id} calendar"
  | eraMismatch year era eraYear =>
    "year " ++ year ++ " does not match era " ++ era ++ " year " ++ eraYear
  | monthMismatch month code => "month " ++ month ++ " does not match month_code " ++ code
  | monthBeyondYear calendar year month =>
    "month " ++ month ++ s!" out of range for {calendar.id} year " ++ year
  | dayBeyondMonth calendar year code day =>
    "day " ++ day ++ s!" out of range for {calendar.id} " ++ year ++ s!"-{code}"
  | leapMonthAbsent code year =>
    s!"Month code {quote code} does not exist in common year " ++ year
  | outsideBracket unit lower upper =>
    s!"Destination is outside the {unit.plural} rounding bracket [" ++ number lower ++ ", " ++
      number upper ++ "]"
  | invalidIsoDate year month day =>
    "Invalid ISO date: " ++ number year ++ "-" ++ number month 2 ++ "-" ++ number day 2
  | yearMonthBeyondLimits year month =>
    "Year-month " ++ number year ++ "-" ++ number month 2 ++ " outside supported range"
  | dateBeyondLimits year month day =>
    "Date " ++ number year ++ "-" ++ number month 2 ++ "-" ++ number day 2 ++
      " outside supported range"
  | unknownCalendar name => s!"Unknown calendar: {quote name}"
  | calendarsDiffer one two => s!"Cannot compare {one.id} and {two.id} year-months"
  | malformedMonthCode code => s!"Invalid month code: {quote code}"
  | monthCodeNotInCalendar calendar code =>
    s!"Month code {quote code} is not valid in the {calendar.id} calendar"
  | unparsable text fault => s!"Cannot parse {quote text}: {fault.message}"
  | invalidChoice name text allowed =>
    s!"Invalid {name}: {quote text}. Allowed: " ++ ", ".intercalate allowed
  | invalidUnit name text => s!"Invalid {name}: {quote text}"
  | notDateUnit name unit => s!"{name} must be a date unit, got {quote unit.singular}"
  | unitNotAllowed name unit => s!"{name} {quote unit.singular} is not allowed here"
  | smallestAuto => "smallest_unit cannot be 'auto'"
  | smallestAboveLargest smallest largest =>
    s!"smallest_unit {quote smallest.singular} is larger than largest_unit " ++
      quote largest.singular
  | incrementNotFinite shown => "rounding_increment must be finite, got " ++ shown
  | incrementBeyondBounds greatest shown =>
    s!"rounding_increment must be between 1 and {greatest}, got " ++ shown
  | unroundableUnit unit => s!"Cannot round year-month differences to {unit.plural}"
  | zonedRounding => "Zoned rounding is not supported"
  | mixedSigns => "Duration components must not have mixed signs"
  | durationPartBeyond name value => s!"Duration {name} out of range: " ++ number value
  | durationTimeBeyond => "Duration time portion out of range"
  | unknownField shown => "Unknown calendar field: " ++ shown
  | absentField key => key
  | immutable => "PlainYearMonth is immutable"
  | dateBeyondWord .. => "date beyond the day count"
  | dayCountBeyondWord _ => "day count too large"
  | numberBeyondDouble => "number too large"
  | zeroDenominator => "zero denominator"

/-- The message of a cause, if a value may still be shown to `free` levels inside another one. Where
there is none, an exception that is no error of the library is raised in its place. -/
def message (e : Error) (free : Nat) : Except Unwritten String := e.wording.write free

end Error

end Almanac
