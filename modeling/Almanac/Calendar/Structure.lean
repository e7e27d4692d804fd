import Almanac.Calendar.Coptic
import Almanac.Calendar.Hebrew
import Almanac.Calendar.Islamic
import Almanac.Calendar.MonthCode
import Almanac.Iso.EpochDay
import Almanac.Overflow

/-!
# The structure of the calendars

What distinguishes the nine calendars: their leap years, months and eras, and how they number days
and months. Everything else is built on these functions.

* `isLeap`, `monthsInYear`, `daysInMonth`, `daysInYear`: the shape of a year.
* `HasMonth`, `HasDate`: the month and the day exist.
* `epochDay`, `dateOfEpochDay`: between dates and day counts from 1970-01-01.
* `monthIndex`, `monthOfIndex`: between months and running month numbers.
* `monthCode`, `monthOfCode`: between ordinal months and month codes; `codeOfPlace`, `placeOfCode`
  need to know of the year only whether it is a Hebrew leap year.
* `eraOf`, `yearOfEra`: between years and years of an era, which `EraCount` tells how to count.
-/

namespace Almanac.Calendar

/-- Whether a calendar has the months and leap years of the ISO calendar. -/
def followsIso : Calendar → Bool
  | iso8601 | gregory | buddhist | roc => true
  | _ => false

/-- The year of a calendar that follows the ISO calendar, less the ISO year. -/
def yearOffset : Calendar → Int
  | buddhist => 543
  | roc => -1911
  | _ => 0

/-- The number of months in every year; the Hebrew calendar has no such number. -/
def monthsPerYear? : Calendar → Option Int
  | coptic | ethiopic => some 13
  | hebrew => none
  | _ => some 12

/-- Whether a year is a leap year. -/
def isLeap (c : Calendar) (year : Int) : Bool :=
  match c with
  | coptic | ethiopic => Coptic.isLeap year
  | hebrew => Hebrew.isLeap year
  | islamicCivil | islamicTabular => Islamic.isLeap year
  | _ => Iso.isLeap (year - c.yearOffset)

/-- The number of months in a year. -/
def monthsInYear (c : Calendar) (year : Int) : Int :=
  (c.monthsPerYear?).getD (Hebrew.monthsInYear year)

/-- The number of days in a month. -/
def daysInMonth (c : Calendar) (year month : Int) : Int :=
  match c with
  | coptic | ethiopic => Coptic.daysInMonth year month
  | hebrew => Hebrew.daysInMonth year month
  | islamicCivil | islamicTabular => Islamic.daysInMonth year month
  | _ => Iso.daysInMonth (year - c.yearOffset) month

/-- The number of days in a year. -/
def daysInYear (c : Calendar) (year : Int) : Int :=
  match c with
  | coptic | ethiopic => Coptic.daysInYear year
  | hebrew => Hebrew.daysInYear year
  | islamicCivil | islamicTabular => Islamic.daysInYear year
  | _ => Iso.daysInYear (year - c.yearOffset)

/-- The year has the month. -/
def HasMonth (c : Calendar) (year month : Int) : Prop := 1 ≤ month ∧ month ≤ c.monthsInYear year

instance (c : Calendar) (year month : Int) : Decidable (c.HasMonth year month) := by
  unfold HasMonth; infer_instance

/-- The year has the month, and the month the day. -/
def HasDate (c : Calendar) (d : YearMonthDay) : Prop :=
  c.HasMonth d.year d.month ∧ 1 ≤ d.day ∧ d.day ≤ c.daysInMonth d.year d.month

instance (c : Calendar) (d : YearMonthDay) : Decidable (c.HasDate d) := by
  unfold HasDate; infer_instance

/-- The day 1970-01-01, counted from the day before 0001-01-01. -/
def unixEpoch : Int := 719163

/-- The day count from 1970-01-01 of a date. -/
def epochDay (c : Calendar) (d : YearMonthDay) : Int :=
  match c with
  | coptic => Coptic.dayOfDate Coptic.copticEpoch d - unixEpoch
  | ethiopic => Coptic.dayOfDate Coptic.ethiopicEpoch d - unixEpoch
  | hebrew => Hebrew.dayOfDate d - unixEpoch
  | islamicCivil => Islamic.dayOfDate Islamic.civilEpoch d - unixEpoch
  | islamicTabular => Islamic.dayOfDate Islamic.astronomicalEpoch d - unixEpoch
  | _ => Iso.epochDay (d.year - c.yearOffset) d.month d.day

/-- An ISO date in a calendar that follows the ISO calendar. -/
def shiftYear (c : Calendar) (d : IsoDate) : YearMonthDay := ⟨d.year + c.yearOffset, d.month, d.day⟩

/-- A calendar that follows the ISO calendar has the dates that the ISO calendar has. -/
theorem hasDate_shiftYear_iff {c : Calendar} (h : c.followsIso) {d : IsoDate} :
    c.HasDate (c.shiftYear d) ↔ d.Valid := by
  have hyear : (c.shiftYear d).year - c.yearOffset = d.year := by simp only [shiftYear]; omega
  cases c <;> simp_all [followsIso, HasDate, HasMonth, daysInMonth, monthsInYear, monthsPerYear?,
    IsoDate.Valid, and_assoc] <;> rfl

/-- The date of a day count from 1970-01-01. -/
def dateOfEpochDay (c : Calendar) (n : Int) : YearMonthDay :=
  match c with
  | coptic => Coptic.dateOfDay Coptic.copticEpoch (n + unixEpoch)
  | ethiopic => Coptic.dateOfDay Coptic.ethiopicEpoch (n + unixEpoch)
  | hebrew => Hebrew.dateOfDay (n + unixEpoch)
  | islamicCivil => Islamic.dateOfDay Islamic.civilEpoch (n + unixEpoch)
  | islamicTabular => Islamic.dateOfDay Islamic.astronomicalEpoch (n + unixEpoch)
  | _ => c.shiftYear (IsoDate.ofEpochDay n)

/-- The day count of a date; a calendar that follows the ISO calendar refuses a year, month or
day beyond a word. -/
def toEpochDay (c : Calendar) (d : YearMonthDay) : Except Error Int :=
  if c.followsIso then Iso.toEpochDay (d.year - c.yearOffset) d.month d.day
  else .ok (c.epochDay d)

/-- The date of a day count; a calendar that follows the ISO calendar refuses a count beyond a
word. -/
def ofEpochDay (c : Calendar) (n : Int) : Except Error YearMonthDay :=
  if c.followsIso then (IsoDate.ofEpochDay? n).map c.shiftYear else .ok (c.dateOfEpochDay n)

/-- The running number of a month, consecutive from year to year. -/
def monthIndex (c : Calendar) (year month : Int) : Int :=
  match c.monthsPerYear? with
  | some months => year * months + month - 1
  | none => Hebrew.indexOfMonth year month

/-- The year and month of a running number. -/
def monthOfIndex (c : Calendar) (index : Int) : Int × Int :=
  match c.monthsPerYear? with
  | some months => (index / months, index % months + 1)
  | none => Hebrew.monthOfIndex index

/-- The month a number of months after another. -/
def addMonths (c : Calendar) (year month months : Int) : Int × Int :=
  c.monthOfIndex (c.monthIndex year month + months)

/-- The code of a month, given whether the year is a Hebrew leap year. In such a year the month
before Adar is its leap month, of number five, and the later months keep the numbers that they have
in a common year. -/
def codeOfPlace (hebrewLeap : Bool) (month : Int) : MonthCode :=
  if hebrewLeap then
    if month < Hebrew.adar then ⟨month, false⟩
    else if month = Hebrew.adar then ⟨Hebrew.adar - 1, true⟩
    else ⟨month - 1, false⟩
  else ⟨month, false⟩

/-- The month of a code, given whether the year is a Hebrew leap year. The leap month has the place
of Adar, whether the year has it or not. -/
def placeOfCode (hebrewLeap : Bool) (code : MonthCode) : Int :=
  if code.leap then Hebrew.adar
  else if hebrewLeap ∧ Hebrew.adar ≤ code.number then code.number + 1
  else code.number

/-- Whether a year of a calendar is a leap year of the Hebrew calendar. -/
def isHebrewLeap (c : Calendar) (year : Int) : Bool := c = hebrew && Hebrew.isLeap year

/-- The code of a month. -/
def monthCode (c : Calendar) (year month : Int) : MonthCode :=
  codeOfPlace (c.isHebrewLeap year) month

/-- Whether some year of a calendar has a month of this code. -/
def hasMonthCode (c : Calendar) (code : MonthCode) : Bool :=
  match c.monthsPerYear? with
  | some months => !code.leap && code.number ≤ months
  | none => code.number ≤ 12 && (!code.leap || code.number == Hebrew.adar - 1)

/-- The month of a code, given whether the year is a Hebrew leap year. A leap month in a common year
is Adar, or refused. The texts are the code as it was written and the year as it is shown. -/
def monthOfCodeWhere (c : Calendar) (hebrewLeap : Bool) (code : MonthCode) (written : String)
    (shown : Shown) (overflow : Overflow) : Except Error Int :=
  if !c.hasMonthCode code then .error (.monthCodeNotInCalendar c written)
  else if code.leap && !hebrewLeap && overflow = .reject then
    .error (.leapMonthAbsent written shown)
  else .ok (placeOfCode hebrewLeap code)

/-- The month of a code in a year. The text is the code as it was written. -/
def monthOfCode (c : Calendar) (year : Int) (code : MonthCode) (written : String)
    (overflow : Overflow) : Except Error Int :=
  c.monthOfCodeWhere (c.isHebrewLeap year) code written (.number year) overflow

/-- The month of a written code in a year. -/
def monthOfText (c : Calendar) (year : Int) (written : String) (overflow : Overflow) :
    Except Error Int := do
  c.monthOfCode year (← MonthCode.ofText written) written overflow

/-- The names of the eras of a calendar. -/
def eras : Calendar → List String
  | iso8601 => []
  | gregory => ["ce", "bce"]
  | buddhist => ["be"]
  | roc => ["roc", "broc"]
  | coptic | hebrew => ["am"]
  | ethiopic => ["am", "aa"]
  | islamicCivil | islamicTabular => ["ah", "bh"]

/-- Whether a calendar has eras. -/
def hasEras (c : Calendar) : Bool := !c.eras.isEmpty

/-- The years between the two Ethiopic eras. -/
def ameteAlemOffset : Int := 5500

/-- The era of a year and the year within it. Years before an era are counted backwards, or in the
Ethiopic calendar from an earlier epoch. -/
def eraOf (c : Calendar) (year : Int) : Option (String × Int) :=
  let backwards (era before : String) : String × Int :=
    if 1 ≤ year then (era, year) else (before, 1 - year)
  match c with
  | iso8601 => none
  | gregory => some (backwards "ce" "bce")
  | buddhist => some ("be", year)
  | roc => some (backwards "roc" "broc")
  | coptic | hebrew => some ("am", year)
  | ethiopic => some (if 1 ≤ year then ("am", year) else ("aa", year + ameteAlemOffset))
  | islamicCivil | islamicTabular => some (backwards "ah" "bh")

/-- How the years of an era are counted. -/
inductive EraCount
  /-- As the years of the calendar are. -/
  | forwards
  /-- Backwards from the year before the first. -/
  | backwards
  /-- From the earlier Ethiopic epoch. -/
  | ameteAlem
deriving DecidableEq, Repr

/-- How a calendar counts the years of an era, if it has the era. -/
def eraCount? (c : Calendar) (era : String) : Option EraCount :=
  match c, era with
  | gregory, "ce" | buddhist, "be" | roc, "roc" | coptic, "am" | ethiopic, "am" | hebrew, "am"
  | islamicCivil, "ah" | islamicTabular, "ah" => some .forwards
  | gregory, "bce" | roc, "broc" | islamicCivil, "bh" | islamicTabular, "bh" => some .backwards
  | ethiopic, "aa" => some .ameteAlem
  | _, _ => none

/-- The year of a year within an era. -/
def EraCount.year (count : EraCount) (eraYear : Int) : Int :=
  match count with
  | forwards => eraYear
  | backwards => 1 - eraYear
  | ameteAlem => eraYear - ameteAlemOffset

/-- The year of a year within an era. -/
def yearOfEra (c : Calendar) (era : String) (eraYear : Int) : Except Error Int :=
  match c.eraCount? era with
  | some count => .ok (count.year eraYear)
  | none => .error (.unknownEra c (Text.quote era))

end Almanac.Calendar
