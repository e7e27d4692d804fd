import Almanac.Error
import Almanac.Iso.Date
import Almanac.Text.Digit

/-!
# Reading year-months

ISO 8601 months and dates, with the suffixes of RFC 9557: a time and an offset, which are checked
and dropped, and annotations in brackets, of which one names a calendar. Digits may be of any
script.

* `WrittenDate`: the parts of a text as they are written.
* `WrittenDate.ofChars?`: the grammar. After an extended month, two digits behind a hyphen are the
  day if the rest then fits, and an offset otherwise.
* `WrittenDate.calendars`: the calendar annotations among the annotations.
* `WrittenDate.check`: what the grammar leaves open and is refused all the same.
* `YearMonth.parse`: all of it.
-/

namespace Almanac

/-- Hours, minutes and seconds. -/
structure Clock where
  hour : Nat
  minute : Nat := 0
  second : Nat := 0
deriving DecidableEq, Repr

/-- An offset from UTC. -/
inductive Offset
  /-- The designator of UTC itself. -/
  | utc
  | ofClock (c : Clock)
deriving DecidableEq, Repr

/-- A text in brackets, marked critical or not. -/
structure Suffix where
  critical : Bool
  body : List Char
deriving DecidableEq, Repr

/-- The parts of a month or date as they are written. -/
structure WrittenDate where
  year : Int
  /-- Whether the year is written as a negative zero, in ASCII digits. -/
  negativeZero : Bool := false
  month : Nat
  day : Option Nat := none
  time : Option Clock := none
  offset : Option Offset := none
  suffixes : List Suffix := []
deriving DecidableEq, Repr

/-- What a text gives for a year-month: a date, and a calendar if the text names one. -/
structure ParsedMonth where
  iso : IsoDate
  calendar : Option String
deriving DecidableEq, Repr

namespace WrittenDate

/-- The values of exactly `n` digits at the front of a text. -/
def takeDigits : Nat → List Char → Option (List Nat × List Char)
  | 0, s => some ([], s)
  | n + 1, c :: s => do
    let d ← Text.digit? c
    let (ds, rest) ← takeDigits n s
    return (d :: ds, rest)
  | _ + 1, [] => none

/-- The number that exactly `n` digits at the front of a text write. -/
def takeNumber (n : Nat) (s : List Char) : Option (Nat × List Char) :=
  (takeDigits n s).map fun (ds, rest) => (Text.number ds, rest)

/-- A year at the front of a text: four digits, or a sign and six. -/
def takeYear : List Char → Option (Int × List Char)
  | '+' :: s => (takeNumber 6 s).map fun (n, rest) => ((n : Int), rest)
  | '-' :: s => (takeNumber 6 s).map fun (n, rest) => (-(n : Int), rest)
  | s => (takeNumber 4 s).map fun (n, rest) => ((n : Int), rest)

/-- Two digits at the front of a text, perhaps after a colon. -/
def takeColonPair : List Char → Option (Nat × List Char)
  | ':' :: s => takeNumber 2 s
  | s => takeNumber 2 s

/-- The text after a fraction of up to nine digits, or the text itself if it begins with none. -/
def dropFraction : List Char → List Char
  | c :: s =>
    if c = '.' ∨ c = ',' then
      let (ds, rest) := Text.spanDigits s
      if 1 ≤ ds.length ∧ ds.length ≤ 9 then rest else c :: s
    else c :: s
  | [] => []

/-- Hours at the front of a text, with minutes, seconds and a fraction as far as they go. -/
def takeClock (s : List Char) : Option (Clock × List Char) := do
  let (hour, s) ← takeNumber 2 s
  match takeColonPair s with
  | none => return ({ hour }, s)
  | some (minute, s) =>
    match takeColonPair s with
    | none => return ({ hour, minute }, s)
    | some (second, s) => return ({ hour, minute, second }, dropFraction s)

/-- A time at the front of a text, if there is one. -/
def takeTime : List Char → Option Clock × List Char
  | c :: s =>
    if c = 'T' ∨ c = 't' ∨ c = ' ' then
      match takeClock s with
      | some (clock, rest) => (some clock, rest)
      | none => (none, c :: s)
    else (none, c :: s)
  | [] => (none, [])

/-- An offset at the front of a text, if there is one. -/
def takeOffset : List Char → Option Offset × List Char
  | c :: s =>
    if c = 'Z' ∨ c = 'z' then (some .utc, s)
    else if c = '+' ∨ c = '-' then
      match takeClock s with
      | some (clock, rest) => (some (.ofClock clock), rest)
      | none => (none, c :: s)
    else (none, c :: s)
  | [] => (none, [])

/-- The texts in the brackets that make up a text. The first argument is what has been read of the
open bracket, backwards. -/
def bracketed : Option (List Char) → List Char → Option (List (List Char))
  | none, [] => some []
  | none, c :: s => if c = '[' then bracketed (some []) s else none
  | some _, [] => none
  | some body, c :: s =>
    if c = ']' then (bracketed none s).map (body.reverse :: ·)
    else if c = '[' then none
    else bracketed (some (c :: body)) s

/-- The annotation that a bracket holds: an exclamation mark in front makes it critical. -/
def suffixOf : List Char → Suffix
  | '!' :: body => ⟨true, body⟩
  | body => ⟨false, body⟩

/-- What follows the date: a time, an offset and annotations, up to the end of the text. -/
def takeSuffix (date : WrittenDate) (s : List Char) : Option WrittenDate := do
  let (time, s) := takeTime s
  let (offset, s) := takeOffset s
  let bodies ← bracketed none s
  return { date with time, offset, suffixes := bodies.map suffixOf }

/-- What follows the year in the extended form. -/
def takeExtended (year : Int) (negativeZero : Bool) (s : List Char) : Option WrittenDate := do
  let (month, s) ← takeNumber 2 s
  let withoutDay : WrittenDate := { year, negativeZero, month }
  let withDay? : Option WrittenDate :=
    match s with
    | '-' :: s => do
      let (day, s) ← takeNumber 2 s
      takeSuffix { withoutDay with day := some day } s
    | _ => none
  match withDay? with
  | some date => return date
  | none => takeSuffix withoutDay s

/-- What follows the year in the basic form. -/
def takeBasic (year : Int) (negativeZero : Bool) (s : List Char) : Option WrittenDate := do
  let (month, s) ← takeNumber 2 s
  match takeNumber 2 s with
  | some (day, s) => takeSuffix { year, negativeZero, month, day := some day } s
  | none => takeSuffix { year, negativeZero, month } s

/-- The parts of a text, if the text has the form of a month or date. -/
def ofChars? (s : List Char) : Option WrittenDate := do
  let (year, rest) ← takeYear s
  let negativeZero := "-000000".toList.isPrefixOf s
  match rest with
  | '-' :: rest => takeExtended year negativeZero rest
  | rest => takeBasic year negativeZero rest

/-- The text without one final line break. -/
def dropFinalBreak (s : List Char) : List Char :=
  if s.getLast? = some '\n' then s.dropLast else s

/-- Whether a character may begin an annotation's key. -/
def isKeyStart (c : Char) : Bool := c.isLower || c = '_'

/-- Whether a text is the key of an annotation: lower-case letters, digits, hyphens and underscores,
of which the first is a letter or underscore. One line break may follow. -/
def isKey (s : List Char) : Bool :=
  match dropFinalBreak s with
  | c :: rest => isKeyStart c && rest.all fun c => isKeyStart c || c.isDigit || c = '-'
  | [] => false

/-- Whether a text is made of letters and digits in groups, joined by single hyphens. The first
argument says whether a group has yet to begin. -/
def isGroups : Bool → List Char → Bool
  | atStart, [] => !atStart
  | atStart, c :: s =>
    if c.isAlphanum then isGroups false s
    else c = '-' && !atStart && isGroups true s

/-- Whether a text is the value of an annotation. One line break may follow. -/
def isValue (s : List Char) : Bool := isGroups true (dropFinalBreak s)

/-- The calendars that annotations name, with their critical marks. Without an equals sign an
annotation is a time zone, which has to come first. -/
def calendars : (isFirst : Bool) → List Suffix → Except ParseFault (List (Bool × List Char))
  | _, [] => .ok []
  | isFirst, a :: rest =>
    if '=' ∉ a.body then
      if !isFirst || a.body = [] then .error .misplacedTimeZone else calendars false rest
    else
      let key := a.body.takeWhile (· ≠ '=')
      let value := (a.body.dropWhile (· ≠ '=')).drop 1
      if !isKey key || !isValue value then .error (.malformedSuffix (String.ofList a.body))
      else if key = "u-ca".toList then
        (calendars false rest).map ((a.critical, value) :: ·)
      else if a.critical then .error (.unknownCritical (String.ofList a.body))
      else calendars false rest

/-- The calendar that annotations name: the first of several, of which none may be critical. -/
def calendar? (suffixes : List Suffix) : Except ParseFault (Option String) :=
  match calendars true suffixes with
  | .error fault => .error fault
  | .ok named =>
    if 1 < named.length ∧ named.any Prod.fst then .error .criticalCalendars
    else .ok (named.head?.map fun n => String.ofList n.2)

/-- Hours, minutes and seconds that a day has, leap seconds included. -/
def isTime (c : Clock) : Bool := c.hour ≤ 23 && c.minute ≤ 59 && c.second ≤ 60

/-- Hours and minutes that an offset may have. -/
def isOffset (c : Clock) : Bool := c.hour ≤ 23 && c.minute ≤ 59

/-- What is wrong with a time. -/
def timeFault? (w : WrittenDate) : Option ParseFault :=
  match w.time with
  | none => none
  | some clock =>
    if w.day.isNone then some .timeWithoutDay
    else if !isTime clock then some .badTime
    else none

/-- What is wrong with an offset. -/
def offsetFault? (w : WrittenDate) : Option ParseFault :=
  match w.offset with
  | none => none
  | some .utc => some .utcDesignator
  | some (.ofClock clock) =>
    if w.time.isNone then some .offsetWithoutTime
    else if !isOffset clock then some .badOffset
    else none

/-- The date that is written; without a day it is the first of the month. -/
def iso (w : WrittenDate) : IsoDate := ⟨w.year, w.month, w.day.getD 1⟩

/-- What is wrong with the parts before the annotations. -/
def fault? (w : WrittenDate) : Option ParseFault :=
  if w.negativeZero then some .negativeZeroYear
  else w.timeFault? <|> w.offsetFault? <|> if w.iso.Valid then none else some .badDate

/-- The date and calendar of the parts, unless they are at fault. -/
def check (w : WrittenDate) : Except ParseFault ParsedMonth :=
  match w.fault? with
  | some fault => .error fault
  | none => (calendar? w.suffixes).map (⟨w.iso, ·⟩)

end WrittenDate

/-- The date and calendar that a text gives for a year-month. -/
def ParsedMonth.parse (s : String) : Except Error ParsedMonth :=
  match WrittenDate.ofChars? s.toList with
  | none => .error (.unparsable s .notYearMonth)
  | some w => w.check.mapError (.unparsable s)

end Almanac
