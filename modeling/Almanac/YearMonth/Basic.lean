import Almanac.Calendar.Resolve
import Almanac.Iso.Printer

/-!
# Year-months

A month of a calendar, held by one of its days: the anchor. In the ISO calendar the anchor is
usually the first of the month; the months of other calendars do not line up with ISO months, and
the day tells which one is meant.

* `YearMonth`: the type; `YearMonth.of` refuses anchors that do not exist or lie outside the range.
* `YearMonth.reading`: the anchor in the calendar's own numbering.
* `YearMonth.IsCanonical`: the anchor is the first day of the month.
* `YearMonth.firstDay`: the first day of the month.
* `YearMonth.text`: the text.
-/

namespace Almanac

/-- A month of a calendar, held by one of its days. -/
structure YearMonth where
  anchor : IsoDate
  calendar : Calendar
  valid : anchor.Valid := by decide
  inLimits : Iso.MonthInLimits anchor.year anchor.month := by decide
deriving Repr

namespace YearMonth

@[ext]
theorem ext {a b : YearMonth} (h : a.anchor = b.anchor) (hc : a.calendar = b.calendar) : a = b := by
  cases a; cases b; simp_all

instance : DecidableEq YearMonth := fun a b =>
  if h : a.anchor = b.anchor ∧ a.calendar = b.calendar then isTrue (ext h.1 h.2)
  else isFalse fun e => h ⟨congrArg _ e, congrArg _ e⟩

/-- The month that an ISO date anchors in a calendar. -/
def of (anchor : IsoDate) (calendar : Calendar) : Except Error YearMonth :=
  if hv : anchor.Valid then
    if hl : Iso.MonthInLimits anchor.year anchor.month then .ok ⟨anchor, calendar, hv, hl⟩
    else .error (.yearMonthBeyondLimits anchor.year anchor.month)
  else .error (.invalidIsoDate anchor.year anchor.month anchor.day)

/-- The anchor in the numbering of the calendar. -/
def reading (ym : YearMonth) : YearMonthDay := ym.calendar.dateOf ym.anchor

/-- The anchor is the first day of the month. -/
def IsCanonical (ym : YearMonth) : Prop := ym.reading.day = 1

instance (ym : YearMonth) : Decidable ym.IsCanonical := by
  unfold IsCanonical; infer_instance

/-- The wanted fields of the anchor, and of its era in a calendar with eras. -/
def fields (ym : YearMonth) (wanted : List Field) : Record Reading :=
  ym.calendar.fieldsOf ym.reading (ym.calendar.fieldsFor wanted)

/-- The first day of the month. -/
def firstDay (ym : YearMonth) : Except Error IsoDate :=
  ym.calendar.dateOfFields ((ym.fields [.monthCode, .year]).set .day (.number 1)) .constrain

/-- The text of a year-month. -/
def text (ym : YearMonth) (how : CalendarDisplay) : String :=
  String.ofList (ym.anchor.monthChars ym.calendar how)

/-- A year-month as messages show it. -/
def display (ym : YearMonth) : String := "PlainYearMonth(" ++ Text.quote (ym.text .always) ++ ")"

end YearMonth

end Almanac
