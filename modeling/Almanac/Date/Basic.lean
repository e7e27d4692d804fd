import Almanac.Calendar.Resolve
import Almanac.Iso.Printer

/-!
# Dates

A day of the represented range together with the calendar that reads it.

* `Date`: the type; `Date.of` refuses dates that do not exist or lie outside the range.
* `Date.reading`: the date in its own calendar.
* `Date.text`: its text.
-/

namespace Almanac

/-- A day and its calendar. -/
structure Date where
  iso : IsoDate
  calendar : Calendar
  valid : iso.Valid := by decide
  inLimits : iso.InLimits := by decide
deriving Repr

namespace Date

@[ext]
theorem ext {a b : Date} (h : a.iso = b.iso) (hc : a.calendar = b.calendar) : a = b := by
  cases a; cases b; simp_all

instance : DecidableEq Date := fun a b =>
  if h : a.iso = b.iso ∧ a.calendar = b.calendar then isTrue (ext h.1 h.2)
  else isFalse fun e => h ⟨congrArg _ e, congrArg _ e⟩

/-- The date of an ISO date in a calendar. -/
def of (iso : IsoDate) (calendar : Calendar) : Except Error Date :=
  if hv : iso.Valid then
    if hl : iso.InLimits then .ok ⟨iso, calendar, hv, hl⟩
    else .error (.dateBeyondLimits iso.year iso.month iso.day)
  else .error (.invalidIsoDate iso.year iso.month iso.day)

/-- The date in the numbering of its calendar. -/
def reading (d : Date) : YearMonthDay := d.calendar.dateOf d.iso

/-- The text of a date. -/
def text (d : Date) (how : CalendarDisplay) : String :=
  String.ofList (d.iso.dateChars d.calendar how)

/-- A date as messages show it. -/
def display (d : Date) : String :=
  "PlainDate(iso_year=" ++ toString d.iso.year ++ ", iso_month=" ++ toString d.iso.month ++
    ", iso_day=" ++ toString d.iso.day ++ ", calendar=" ++ d.calendar.display ++ ")"

end Date

end Almanac
