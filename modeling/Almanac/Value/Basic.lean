import Almanac.Date.Basic
import Almanac.Duration.Printer
import Almanac.Number.Basic
import Almanac.Rounding.Options
import Almanac.Rounding.Relative
import Almanac.YearMonth.Basic

/-!
# Values

What a caller can pass where the library reads fields, options or whole values: plain data, values
of the library, and members of its enumerations.

* `Value`: the type.
* `Value.typeName`: the type name that messages use.
* `Value.display`, `Value.plain`: a value as messages show it, and its plain text.
* `Value.entries?`: the entries of a value that is a mapping.
-/

namespace Almanac

/-- A member of one of the enumerations. -/
inductive Choice
  | overflow (o : Overflow)
  | calendarDisplay (d : CalendarDisplay)
  | unit (u : TimeUnit)
  | roundingMode (m : RoundingMode)
  | magnitudeMode (m : MagnitudeMode)
  | direction (d : Direction)
  /-- The only group of units: those of dates. -/
  | dateUnits
deriving DecidableEq, Repr

/-- A value that a caller passes. -/
inductive Value
  | null
  | bool (b : Bool)
  | number (n : Number)
  | text (s : String)
  | list (items : List Value)
  | tuple (items : List Value)
  | mapping (entries : List (String × Value))
  | record (entries : List (Field × Value))
  | yearMonth (ym : YearMonth)
  | date (d : Date)
  | duration (d : Duration)
  | calendar (c : Calendar)
  | choice (c : Choice)
  | isoDate (d : IsoDate)
  | calendarDate (d : YearMonthDay)
  | span (d : DateSpan)
  | options (o : DifferenceOptions)
  | nudge (n : Nudge)
deriving Inhabited

namespace Choice

/-- The type name that messages use for a member. -/
def typeName : Choice → String
  | overflow _ => "Overflow"
  | calendarDisplay _ => "ShowCalendar"
  | unit _ => "TemporalUnit"
  | roundingMode _ => "RoundingMode"
  | magnitudeMode _ => "UnsignedRoundingMode"
  | direction _ => "TemporalDifference"
  | dateUnits => "UnitGroup"

/-- The text or number that a member stands for. -/
def content : Choice → String
  | overflow o => Text.quote o.name
  | calendarDisplay d => Text.quote d.name
  | unit u => toString u.rank
  | roundingMode m => Text.quote m.name
  | magnitudeMode m => Text.quote m.name
  | direction d => Text.quote d.name
  | dateUnits => Text.quote "date"

/-- A compound name in capitals: `halfEven` and `half-even` become `HALF_EVEN`. -/
def capitals (name : String) : String :=
  String.ofList (name.toList.flatMap fun c =>
    if c.isUpper then ['_', c] else if c = '-' then ['_'] else [c.toUpper])

/-- The name of a member in its enumeration. -/
def memberName : Choice → String
  | overflow o => capitals o.name
  | calendarDisplay d => capitals d.name
  | unit u => capitals u.singular
  | roundingMode m => capitals m.name
  | magnitudeMode m => capitals m.name
  | direction d => capitals d.name
  | dateUnits => "DATE"

/-- A member as messages show it. -/
def display (c : Choice) : String :=
  "<" ++ c.typeName ++ "." ++ c.memberName ++ ": " ++ c.content ++ ">"

end Choice

/-- A constructor applied to named parts, as messages show it. -/
def displayParts (constructor : String) (parts : List (String × Shown)) : Shown :=
  constructor ++ "(" ++ Shown.joined ", " (parts.map fun (name, shown) => name ++ "=" ++ shown) ++
    ")"

/-- A duration as messages show it. -/
def Duration.display (d : Duration) : Shown :=
  displayParts "Duration" (TimeUnit.all.map fun u => (u.plural, .number (d.count u)))

/-- A span as messages show it. -/
def DateSpan.display (d : DateSpan) : Shown :=
  displayParts "DateDuration" [("years", .number d.years), ("months", .number d.months),
    ("weeks", .number d.weeks), ("days", .number d.days)]

/-- The options of a difference as messages show them. -/
def DifferenceOptions.display (o : DifferenceOptions) : Shown :=
  displayParts "DifferenceSettings" [("smallest_unit", (Choice.unit o.smallest).display),
    ("largest_unit", (Choice.unit o.largest).display),
    ("rounding_mode", (Choice.roundingMode o.mode).display),
    ("rounding_increment", .number o.increment)]

namespace Value

/-- The type name that messages use for a value. -/
def typeName : Value → String
  | null => "NoneType"
  | bool _ => "bool"
  | number n => n.typeName
  | text _ => "str"
  | list _ => "list"
  | tuple _ => "tuple"
  | mapping _ => "dict"
  | record _ => "FieldRecord"
  | yearMonth _ => "PlainYearMonth"
  | date _ => "PlainDate"
  | duration _ => "Duration"
  | calendar c => c.typeName
  | choice c => c.typeName
  | isoDate _ => "IsoDate"
  | calendarDate _ => "CalendarDate"
  | span _ => "DateDuration"
  | options _ => "DifferenceSettings"
  | nudge _ => "NudgeResult"

/-- The items of a list as messages show them. -/
def listText (items : List Shown) : Shown := "[" ++ Shown.joined ", " items ++ "]"

/-- The items of a tuple as messages show them; a single item keeps its comma. -/
def tupleText : List Shown → Shown
  | [item] => "(" ++ item ++ ",)"
  | items => "(" ++ Shown.joined ", " items ++ ")"

/-- The entries of a mapping as messages show them. -/
def mappingText (entries : List Shown) : Shown :=
  "\x7b" ++ Shown.joined ", " entries ++ "\x7d"

/-- A truth value as messages show it. -/
def boolText (b : Bool) : String := if b then "True" else "False"

/-- A rounded span as messages show it. -/
def nudgeText (n : Nudge) : Shown :=
  displayParts "NudgeResult" [("duration", n.span.display), ("nudged_epoch_ns", .number n.instant),
    ("did_expand_calendar_unit", boolText n.expanded)]

/-- Three parts of a date as messages show them. -/
def dateText (constructor : String) (year month day : Int) : Shown :=
  displayParts constructor [("year", .number year), ("month", .number month), ("day", .number day)]

mutual

/-- A value as messages show it. What is in a list or a mapping is one level further inside. -/
def display : Value → Shown
  | null => "None"
  | bool b => boolText b
  | number n => n.display
  | text s => Text.quote s
  | list items => listText (displayItems items)
  | tuple items => tupleText (displayItems items)
  | mapping entries => mappingText (displayEntries entries)
  | record entries => "FieldRecord(" ++ Shown.nested (mappingText (displayFields entries)) ++ ")"
  | yearMonth ym => ym.display
  | date d => d.display
  | duration d => d.display
  | calendar c => c.display
  | choice c => c.display
  | isoDate d => dateText "IsoDate" d.year d.month d.day
  | calendarDate d => dateText "CalendarDate" d.year d.month d.day
  | span d => d.display
  | options o => o.display
  | nudge n => nudgeText n

/-- The items of a list as messages show them. -/
def displayItems : List Value → List Shown
  | [] => []
  | v :: rest => .nested v.display :: displayItems rest

/-- The entries of a mapping as messages show them. -/
def displayEntries : List (String × Value) → List Shown
  | [] => []
  | (k, v) :: rest => .nested (Text.quote k ++ ": " ++ v.display) :: displayEntries rest

/-- The entries of a record as messages show them. -/
def displayFields : List (Field × Value) → List Shown
  | [] => []
  | (f, v) :: rest => .nested (Text.quote f.name ++ ": " ++ v.display) :: displayFields rest

end

/-- The plain text of a value: a text as it is, a value of the library in its own text. -/
def plain : Value → Shown
  | number n => n.plain
  | text s => s
  | yearMonth ym => ym.text .auto
  | date d => d.text .auto
  | duration d => d.text
  | calendar c => c.id
  | choice c => c.typeName ++ "." ++ c.memberName
  | isoDate d => d.display
  | v => v.display

/-- What a prepared field holds, as a value. -/
def ofReading : Reading → Value
  | .number n => number (.whole n)
  | .text s => text s

/-- A record of prepared fields as a value. -/
def ofReadings (r : Record Reading) : Value := record (r.map ofReading).entries

/-- The entries of a value that is a mapping, which a record is too. -/
def entries? : Value → Option (List (String × Value))
  | mapping entries => some entries
  | record entries => some (entries.map fun (f, v) => (f.name, v))
  | _ => none

/-- The value of a key of a mapping, `null` if it is absent. -/
def lookup (entries : List (String × Value)) (key : String) : Value :=
  ((entries.find? fun e => e.1 = key).map Prod.snd).getD .null

/-- Whether a value is `null`. -/
def isNull : Value → Bool
  | null => true
  | _ => false

end Value

end Almanac
