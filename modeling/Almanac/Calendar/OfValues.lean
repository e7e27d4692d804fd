import Almanac.Calendar.Quantity
import Almanac.Value.Coercion
import Almanac.Value.Same

/-!
# Dates from values as they are

A record can be resolved to a date before its values have been read. The values are then used as
they are: the year, the month and the day may be numbers of any kind or truth values, which count as
one and zero; `null` is no year, no month and no month code, but an era and a day whenever the
record has the field; and a refusal shows the values that it is about.

* `Calendar.yearOfValues`, `Calendar.monthOfValues`, `Calendar.dayOfValue`: one field each.
* `Calendar.dateOfValues`, `Calendar.firstOfValues`: the ISO date of a date, or of the first day of
  a month.
-/

namespace Almanac

/-- The number that a value counts as; a value that counts as none is not a number. -/
def Value.quantity (v : Value) : Number := v.quantity?.getD (.double .nan)

/-- The number that a value counts as when it is compared with numbers, which a year-month is
not. -/
def Value.comparand (v : Value) : Except Error Number :=
  match v with
  | .yearMonth _ => .error .noPrimitive
  | v => .ok v.quantity

/-- The value of a field, `null` if there is none. -/
def Record.value (r : Record Value) (f : Field) : Value := (r.get? f).getD .null

namespace Calendar

/-- The year of a year within an era. Where the era counts forwards it is the value itself. -/
def EraCount.yearOfValue (count : EraCount) (eraYear : Value) : Value :=
  match count with
  | forwards => eraYear
  | backwards => .number (1 - eraYear.quantity)
  | ameteAlem => .number (eraYear.quantity - .whole ameteAlemOffset)

/-- The year of a year within an era. -/
def yearOfEraValue (c : Calendar) (era eraYear : Value) : Except Error Value :=
  let count? : Option EraCount :=
    match era with
    | .text s => c.eraCount? s
    | _ => none
  match count? with
  | some count => .ok (count.yearOfValue eraYear)
  | none => .error (.unknownEra c era.display)

/-- The year that the fields of an era give, of which there must be both or none. -/
def yearFromEraValues (c : Calendar) (fields : Record Value) : Except Error (Option Value) :=
  if !c.hasEras then .ok none
  else
    match fields.get? .era, fields.get? .eraYear with
    | none, none => .ok none
    | some era, some eraYear => (c.yearOfEraValue era eraYear).map some
    | _, _ => .error .eraIncomplete

/-- The year that is given by itself, unless its era gives another one. -/
def agreedYear (fields : Record Value) (year : Value) (fromEra? : Option Value) :
    Except Error Value :=
  match fromEra? with
  | none => .ok year
  | some fromEra =>
    if year.isNull || year.same fromEra then .ok fromEra
    else
      .error (.eraMismatch year.plain (fields.value .era).display (fields.value .eraYear).plain)

/-- The year that the fields give, by itself or by its era; both must agree. -/
def yearOfValues (c : Calendar) (fields : Record Value) : Except Error Value := do
  let year ← agreedYear fields (fields.value .year) (← c.yearFromEraValues fields)
  if year.isNull then throw (.missingField "year") else return year

/-- A month beyond the year is the last month, or refused. -/
def regulateMonthValue (c : Calendar) (year month : Value) (overflow : Overflow) :
    Except Error Number := do
  let months := c.monthsInYearAt year.quantity
  let given ← month.comparand
  if (Number.whole months).below given then
    match overflow with
    | .reject => throw (.monthBeyondYear c year.plain month.plain)
    | .constrain => return months
  else return given

/-- The month of a written code in a year. -/
def monthOfCodeValue (c : Calendar) (year code : Value) (overflow : Overflow) :
    Except Error Int := do
  let written ← code.string "month_code"
  c.monthOfCodeWhere (c.isHebrewLeapAt year.quantity) (← MonthCode.ofText written) written
    year.plain overflow

/-- The month that the fields give in a year, by its place or its code; both must agree. -/
def monthOfValues (c : Calendar) (year : Value) (fields : Record Value) (overflow : Overflow) :
    Except Error Number :=
  let month := fields.value .month
  let code := fields.value .monthCode
  if code.isNull then
    if month.isNull then .error (.missingField "month or month_code")
    else c.regulateMonthValue year month overflow
  else do
    let fromCode ← c.monthOfCodeValue year code overflow
    if month.isNull || month.same (.number fromCode) then return fromCode
    else throw (.monthMismatch month.plain code.display)

/-- A day beyond its month is the last day, or refused. -/
def dayOfValue (c : Calendar) (year : Value) (month : Number) (day : Value) (overflow : Overflow) :
    Except Error Number := do
  let days ← c.daysInMonthAt year.quantity month
  let given ← day.comparand
  if (Number.whole days).below given then
    match overflow with
    | .reject =>
      let code := codeOfPlace (c.isHebrewLeapAt year.quantity) (← month.toWhole "month")
      throw (.dayBeyondMonth c year.plain code.text day.plain)
    | .constrain => return days
  else return given

/-- The ISO date of a date. -/
def isoAt (c : Calendar) (year month day : Number) : Except Error IsoDate := do
  IsoDate.ofEpochDay? (← c.epochDayAt year month day)

/-- The ISO date that a year, a month and a day field give. -/
def dateOfValues (c : Calendar) (fields : Record Value) (overflow : Overflow) :
    Except Error IsoDate := do
  let year ← c.yearOfValues fields
  let month ← c.monthOfValues year fields overflow
  match fields.get? .day with
  | none => throw (.missingField "day")
  | some given => do
    let day ← c.dayOfValue year month given overflow
    let iso ← c.isoAt year.quantity month day
    iso.checkLimits

/-- The ISO date of the first day of the month that a year and a month field give. -/
def firstOfValues (c : Calendar) (fields : Record Value) (overflow : Overflow) :
    Except Error IsoDate := do
  let year ← c.yearOfValues fields
  let month ← c.monthOfValues year fields overflow
  let iso ← c.isoAt year.quantity month 1
  iso.checkMonthLimits

/-- An integer as a value counts as itself. -/
theorem quantity_whole (n : Int) : (Value.number (.whole n)).quantity = .whole n := rfl

theorem comparand_whole (n : Int) : (Value.number (.whole n)).comparand = .ok (.whole n) := rfl

theorem plain_whole (n : Int) : (Value.number (.whole n)).plain = .number n := rfl

theorem display_text (s : String) : (Value.text s).display = .text (Text.quote s) := by
  rw [Value.display]

theorem regulateMonthValue_whole (c : Calendar) (year month : Int) (overflow : Overflow) :
    c.regulateMonthValue (.number (.whole year)) (.number (.whole month)) overflow =
      (c.regulateMonth year month overflow).map .whole := by
  simp only [regulateMonthValue, regulateMonth, quantity_whole, comparand_whole, plain_whole,
    monthsInYearAt_whole, bind, Except.bind, Number.below_whole, decide_eq_true_eq]
  split
  · cases overflow <;> rfl
  · rfl

theorem monthOfCodeValue_whole (c : Calendar) (year : Int) (code : String) (overflow : Overflow) :
    c.monthOfCodeValue (.number (.whole year)) (.text code) overflow =
      c.monthOfText year code overflow := by
  simp only [monthOfCodeValue, monthOfText, monthOfCode, quantity_whole, plain_whole,
    isHebrewLeapAt_whole]
  rfl

theorem dayOfValue_whole (c : Calendar) (year month day : Int) (overflow : Overflow) :
    c.dayOfValue (.number (.whole year)) (.whole month) (.number (.whole day)) overflow =
      (c.regulateDay year month day overflow).map .whole := by
  simp only [dayOfValue, regulateDay, quantity_whole, comparand_whole, plain_whole,
    daysInMonthAt_whole, isHebrewLeapAt_whole, Number.toWhole_whole, bind, Except.bind,
    Number.below_whole, decide_eq_true_eq]
  split
  · cases overflow <;> rfl
  · rfl

theorem isoAt_whole (c : Calendar) (year month day : Int) :
    c.isoAt (.whole year) (.whole month) (.whole day) = c.toIso ⟨year, month, day⟩ := by
  rw [isoAt, toIso, epochDayAt_whole]

section Prepared

variable {r : Record Reading} (h : r.IsPrepared)

theorem value_map (r : Record Reading) (f : Field) :
    (r.map Value.ofReading).value f = ((r.get? f).map Value.ofReading).getD .null := by
  rw [Record.value, Record.get?_map]

include h

theorem yearFromEraValues_map (c : Calendar) :
    c.yearFromEraValues (r.map Value.ofReading) =
      (c.yearFromEra r).map (Option.map fun n => .number (.whole n)) := by
  unfold yearFromEraValues yearFromEra
  split
  · rfl
  · simp only [Record.get?_map, Record.get?_eq_text? h (f := .era) rfl,
      Record.get?_eq_number? h (f := .eraYear) rfl]
    cases r.text? .era with
    | none => cases r.number? .eraYear <;> rfl
    | some era =>
      cases r.number? .eraYear with
      | none => rfl
      | some eraYear =>
        simp only [Option.map_some, Value.ofReading, yearOfEraValue, yearOfEra]
        cases c.eraCount? era with
        | none => rfl
        | some count => cases count <;> rfl

omit h in
theorem fields_of_yearFromEra {c : Calendar} {n : Int} (he : c.yearFromEra r = .ok (some n)) :
    ∃ era eraYear, r.text? .era = some era ∧ r.number? .eraYear = some eraYear := by
  unfold yearFromEra at he
  split at he
  · cases he
  · split at he
    · cases he
    · next era eraYear h₁ h₂ => exact ⟨era, eraYear, h₁, h₂⟩
    · cases he

theorem yearOfValues_map (c : Calendar) :
    c.yearOfValues (r.map Value.ofReading) =
      (c.resolveYear r).map fun n => .number (.whole n) := by
  have hy := value_map r .year
  rw [Record.get?_eq_number? h rfl] at hy
  unfold yearOfValues resolveYear
  rw [yearFromEraValues_map h, hy]
  cases he : c.yearFromEra r with
  | error e => cases r.number? .year <;> rfl
  | ok fromEra =>
    cases fromEra with
    | none => cases r.number? .year <;> rfl
    | some n =>
      cases r.number? .year with
      | none => rfl
      | some year =>
        obtain ⟨era, eraYear, h₁, h₂⟩ := fields_of_yearFromEra he
        have hera := value_map r .era
        have heraYear := value_map r .eraYear
        rw [Record.get?_eq_text? h rfl, h₁] at hera
        rw [Record.get?_eq_number? h rfl, h₂] at heraYear
        by_cases hn : year = n
        · simp [agreedYear, Value.ofReading, Value.isNull, Value.same_whole, hn, bind, Except.bind,
            Except.map, pure, Except.pure]
        · simp [agreedYear, eraMismatch, hera, heraYear, h₁, h₂, Value.ofReading, Value.isNull,
            Value.same_whole, hn, bind, Except.bind, Except.map, throw, throwThe,
            MonadExceptOf.throw, Value.plain, Number.plain, Number.display, display_text]

theorem monthOfValues_map (c : Calendar) (year : Int) (overflow : Overflow) :
    c.monthOfValues (.number (.whole year)) (r.map Value.ofReading) overflow =
      (c.resolveMonth year r overflow).map .whole := by
  have hm := value_map r .month
  have hc := value_map r .monthCode
  rw [Record.get?_eq_number? h rfl] at hm
  rw [Record.get?_eq_text? h rfl] at hc
  unfold monthOfValues resolveMonth
  rw [hm, hc]
  cases r.text? .monthCode with
  | none =>
    cases r.number? .month with
    | none => rfl
    | some month => exact regulateMonthValue_whole c year month overflow
  | some code =>
    have hcode := monthOfCodeValue_whole c year code overflow
    cases r.number? .month with
    | none =>
      simp only [Option.map_some, Option.getD_some, Value.ofReading, hcode]
      cases c.monthOfText year code overflow <;> rfl
    | some month =>
      simp only [Option.map_some, Option.getD_some, Value.ofReading, hcode]
      cases c.monthOfText year code overflow with
      | error e => rfl
      | ok fromCode =>
        by_cases hn : month = fromCode
        · simp [Value.isNull, Value.same_whole, hn, bind, Except.bind, Except.map, pure,
            Except.pure]
        · simp [Value.isNull, Value.same_whole, hn, bind, Except.bind, Except.map, throw, throwThe,
            MonadExceptOf.throw, Value.plain, Number.plain, Number.display, display_text]

/-- On a record of integers and texts the values as they are give the date that the fields give. -/
theorem dateOfValues_map (c : Calendar) (overflow : Overflow) :
    c.dateOfValues (r.map Value.ofReading) overflow = c.dateOfFields r overflow := by
  have hd := Record.get?_map Value.ofReading r .day
  rw [Record.get?_eq_number? h rfl] at hd
  unfold dateOfValues dateOfFields
  rw [yearOfValues_map h, hd]
  cases c.resolveYear r with
  | error e => rfl
  | ok year =>
    have hm := monthOfValues_map h c year overflow
    simp only [Except.map, bind, Except.bind, hm]
    cases c.resolveMonth year r overflow with
    | error e => rfl
    | ok month =>
      cases r.number? .day with
      | none => rfl
      | some day =>
        have hday := dayOfValue_whole c year month day overflow
        simp only [Option.map_some, Value.ofReading, hday, Except.map]
        cases c.regulateDay year month day overflow with
        | error e => rfl
        | ok day => simp only [quantity_whole, isoAt_whole]

/-- On a record of integers and texts the values as they are give the month that the fields give. -/
theorem firstOfValues_map (c : Calendar) (overflow : Overflow) :
    c.firstOfValues (r.map Value.ofReading) overflow = c.monthOfFields r overflow := by
  unfold firstOfValues monthOfFields
  rw [yearOfValues_map h]
  cases c.resolveYear r with
  | error e => rfl
  | ok year =>
    have hm := monthOfValues_map h c year overflow
    simp only [Except.map, bind, Except.bind, hm]
    cases c.resolveMonth year r overflow with
    | error e => rfl
    | ok month =>
      simp only [quantity_whole, Number.ofNat_eq_whole, isoAt_whole]
      rfl

end Prepared

end Calendar

end Almanac
