import Almanac.Field.Prepare
import Almanac.Value.Option
import Almanac.YearMonth.Parser

/-!
# Year-months from other values

Every way to a year-month leads to one whose anchor is the first day of its month, but for the
constructor, which takes the anchor as it is given.

* `YearMonth.ofFields`: the month that a year and a month field give.
* `YearMonth.ofDate`, `YearMonth.ofMapping`, `YearMonth.ofText`: from a date, a mapping, a text.
* `Value.toYearMonth`, `YearMonth.ofItem`: from whichever of these a value is.
* `YearMonth.ofArguments`, `Date.ofArguments`: the constructors.
* `YearMonth.textAs`, `Date.textAs`: back to a text.
-/

namespace Almanac

namespace YearMonth

/-- The month that a year and a month field give. -/
def ofFields (c : Calendar) (fields : Record Reading) (overflow : Overflow) :
    Except Error YearMonth := do
  of (← c.monthOfFields fields overflow) c

/-- The fields that describe a month in a calendar. -/
def fieldsOfMonth (c : Calendar) : List Field := c.fieldsFor [.month, .monthCode, .year]

/-- The month that a date lies in. -/
def ofDate (d : Date) (overflow : Overflow) : Except Error YearMonth :=
  ofFields d.calendar (d.calendar.fieldsOf d.reading (fieldsOfMonth d.calendar)) overflow

/-- The calendar of a mapping: that of a value of the library, or a calendar by name; the ISO
calendar if there is none. -/
def calendarOf (entries : List (String × Value)) : Except Error Calendar :=
  match Value.lookup entries "calendar" with
  | .null => .ok .iso8601
  | .yearMonth ym => .ok ym.calendar
  | .date d => .ok d.calendar
  | v => v.toCalendar

/-- The month that the fields of a mapping give. -/
def ofMapping (entries : List (String × Value)) (overflow : Overflow) :
    Except Error YearMonth := do
  let c ← calendarOf entries
  ofFields c (← Record.prepare entries ((fieldsOfMonth c).map Field.name) []) overflow

/-- The month that a written date lies in. The range is checked first, the reader having found the
date to exist. -/
def ofText (s : String) : Except Error YearMonth := do
  let parsed ← ParsedMonth.parse s
  let c ← (Value.text (parsed.calendar.getD "iso8601")).toCalendar
  if ¬ Iso.MonthInLimits parsed.iso.year parsed.iso.month then
    throw (.yearMonthBeyondLimits parsed.iso.year parsed.iso.month)
  let written ← of parsed.iso c
  ofFields c (written.fields [.monthCode, .year]) .constrain

/-- The month with the given anchor. -/
def ofArguments (isoYear isoMonth calendar referenceDay : Value) : Except Error YearMonth := do
  let year ← isoYear.argument "iso_year"
  let month ← isoMonth.argument "iso_month"
  let name ← if calendar.isNull then pure "iso8601" else calendar.string "calendar"
  let c ← (Value.text name).toCalendar
  let day ← if referenceDay.isNull then pure 1 else referenceDay.argument "reference_iso_day"
  of ⟨year, month, day⟩ c

end YearMonth

/-- The year-month that a value is, writes or describes. -/
def Value.toYearMonth (v : Value) (overflow : Overflow) : Except Error YearMonth :=
  match v with
  | .yearMonth ym => .ok ym
  | .date d => YearMonth.ofDate d overflow
  | .text s => YearMonth.ofText s
  | v =>
    match v.entries? with
    | some entries => YearMonth.ofMapping entries overflow
    | none => .error (.yearMonthExpected v.typeName)

/-- The year-month that a value is, writes or describes, with the treatment of overflow that a
caller passes, which is read first. -/
def YearMonth.ofItem (item overflow : Value) : Except Error YearMonth := do
  let overflow ← overflow.toOverflow
  item.toYearMonth overflow

/-- The text of a year-month, with the display of the calendar that a caller passes. -/
def YearMonth.textAs (ym : YearMonth) (calendarName : Value) : Except Error String :=
  calendarName.toCalendarDisplay.map ym.text

/-- The text of a date, with the display of the calendar that a caller passes. -/
def Date.textAs (d : Date) (calendarName : Value) : Except Error String :=
  calendarName.toCalendarDisplay.map d.text

/-- The date with the given year, month and day. -/
def Date.ofArguments (isoYear isoMonth isoDay calendar : Value) : Except Error Date := do
  let year ← isoYear.argument "iso_year"
  let month ← isoMonth.argument "iso_month"
  let day ← isoDay.argument "iso_day"
  let iso ← (IsoDate.mk year month day).checkValid
  let iso ← iso.checkLimits
  Date.of iso (← calendar.toCalendar)

end Almanac
