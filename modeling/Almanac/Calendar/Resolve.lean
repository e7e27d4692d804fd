import Almanac.Field.Record

/-!
# Dates from fields

How the fields of a date are read from an ISO date, and how a record of fields is resolved to an
ISO date: the year from a year or an era, the month from its place or its code, the day within the
month.

* `Calendar.dateOf`: the date of an ISO date; `Calendar.read` refuses years beyond a word.
* `Calendar.resolveYear`, `Calendar.resolveMonth`, `Calendar.regulateDay`: one field each.
* `Calendar.dateOfFields`, `Calendar.monthOfFields`: the ISO date of a date, or of the first day of
  a month.
-/

namespace Almanac.Calendar

/-- The date of an ISO date in a calendar. -/
def dateOf (c : Calendar) (iso : IsoDate) : YearMonthDay :=
  if c.followsIso then c.shiftYear iso
  else c.dateOfEpochDay (Iso.epochDay iso.year iso.month iso.day)

/-- The date of an ISO date, unless a day count is needed and its year is beyond a word. -/
def read (c : Calendar) (iso : IsoDate) : Except Error YearMonthDay :=
  if c.followsIso then .ok (c.shiftYear iso) else (iso.toEpochDay).map c.dateOfEpochDay

/-- The year that the fields of an era give, of which there must be both or none. -/
def yearFromEra (c : Calendar) (fields : Record Reading) : Except Error (Option Int) :=
  if !c.hasEras then .ok none
  else
    match fields.text? .era, fields.number? .eraYear with
    | none, none => .ok none
    | some era, some eraYear => (c.yearOfEra era eraYear).map some
    | _, _ => .error .eraIncomplete

/-- The refusal of a year that is not the one that its era gives. -/
def eraMismatch (year : Int) (fields : Record Reading) : Error :=
  .eraMismatch (.number year) (.text (Text.quote ((fields.text? .era).getD "")))
    (.number ((fields.number? .eraYear).getD 0))

/-- The year that the fields give, by itself or by its era; both must agree. -/
def resolveYear (c : Calendar) (fields : Record Reading) : Except Error Int := do
  match fields.number? .year, ← c.yearFromEra fields with
  | none, none => throw (.missingField "year")
  | some year, none => return year
  | none, some fromEra => return fromEra
  | some year, some fromEra =>
    if year = fromEra then return year else throw (eraMismatch year fields)

/-- A month beyond the year is the last month, or refused. -/
def regulateMonth (c : Calendar) (year month : Int) (overflow : Overflow) : Except Error Int :=
  if c.monthsInYear year < month then
    match overflow with
    | .reject => .error (.monthBeyondYear c (.number year) (.number month))
    | .constrain => .ok (c.monthsInYear year)
  else .ok month

/-- The month that the fields give in a year, by its place or its code; both must agree. -/
def resolveMonth (c : Calendar) (year : Int) (fields : Record Reading) (overflow : Overflow) :
    Except Error Int :=
  match fields.number? .month, fields.text? .monthCode with
  | none, none => .error (.missingField "month or month_code")
  | none, some code => c.monthOfText year code overflow
  | some month, none => c.regulateMonth year month overflow
  | some month, some code => do
    let fromCode ← c.monthOfText year code overflow
    if month = fromCode then return month
    else throw (.monthMismatch (.number month) (.text (Text.quote code)))

/-- A day beyond its month is the last day, or refused. -/
def regulateDay (c : Calendar) (year month day : Int) (overflow : Overflow) : Except Error Int :=
  if c.daysInMonth year month < day then
    match overflow with
    | .reject =>
      .error (.dayBeyondMonth c (.number year) (c.monthCode year month).text (.number day))
    | .constrain => .ok (c.daysInMonth year month)
  else .ok day

/-- The ISO date of a date. -/
def toIso (c : Calendar) (d : YearMonthDay) : Except Error IsoDate := do
  IsoDate.ofEpochDay? (← c.toEpochDay d)

/-- The ISO date that a year, a month and a day field give. -/
def dateOfFields (c : Calendar) (fields : Record Reading) (overflow : Overflow) :
    Except Error IsoDate := do
  let year ← c.resolveYear fields
  let month ← c.resolveMonth year fields overflow
  match fields.number? .day with
  | none => throw (.missingField "day")
  | some given => do
    let day ← c.regulateDay year month given overflow
    let iso ← c.toIso ⟨year, month, day⟩
    iso.checkLimits

/-- The ISO date of the first day of the month that a year and a month field give. -/
def monthOfFields (c : Calendar) (fields : Record Reading) (overflow : Overflow) :
    Except Error IsoDate := do
  let year ← c.resolveYear fields
  let month ← c.resolveMonth year fields overflow
  let iso ← c.toIso ⟨year, month, 1⟩
  iso.checkMonthLimits

end Almanac.Calendar
