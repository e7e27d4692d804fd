import Almanac.YearMonth.Convert

/-!
# Year-months with other fields

* `YearMonth.patch`: the month with some fields replaced.
* `YearMonth.onDay`: the date of a day in the month.
-/

namespace Almanac.YearMonth

/-- The month with some fields replaced by those of a record. -/
def patch (ym : YearMonth) (fields : Record Reading) (overflow : Overflow) :
    Except Error YearMonth :=
  let base := ym.fields [.month, .monthCode, .year]
  ofFields ym.calendar (base.merge ym.calendar.hasEras fields) overflow

/-- The date of a day in the month. -/
def onDay (ym : YearMonth) (day : Int) (overflow : Overflow) : Except Error Date := do
  let fields := (ym.fields [.monthCode, .year]).set .day (.number day)
  Date.of (← ym.calendar.dateOfFields fields overflow) ym.calendar

/-- The keys that only a value of the library would have. -/
def temporalKeys : List String := ["calendar", "time_zone"]

/-- The month with the fields that the entries of a mapping have replaced. -/
def patchEntries (ym : YearMonth) (entries : List (String × Value)) (overflow : Value) :
    Except Error YearMonth :=
  match temporalKeys.find? fun k => !(Value.lookup entries k).isNull with
  | some key => .error (.patchNamesTemporal key)
  | none => do
    let overflow ← overflow.toOverflow
    let patch ← Record.preparePartial entries ((fieldsOfMonth ym.calendar).map Field.name)
    ym.patch patch overflow

/-- The month with the fields that a mapping has replaced. -/
def patchFrom (ym : YearMonth) (fields overflow : Value) : Except Error YearMonth :=
  match fields with
  | .yearMonth _ | .date _ => .error .patchIsTemporal
  | v =>
    match v.entries? with
    | some entries => ym.patchEntries entries overflow
    | none => .error (.patchMappingExpected v.typeName)

/-- The day that a mapping gives, which must be there. -/
def dayOf (entries : List (String × Value)) : Except Error Int :=
  let v := Value.lookup entries "day"
  if v.isNull then .error (.missingField "day") else v.positive "day"

/-- The date of the day that a mapping gives. -/
def onDayFrom (ym : YearMonth) (fields overflow : Value) : Except Error Date :=
  match fields.entries? with
  | some entries => do
    let overflow ← overflow.toOverflow
    ym.onDay (← dayOf entries) overflow
  | none => .error (.dayMappingExpected fields.typeName)

end Almanac.YearMonth
