import Almanac.Proofs.CutDay
import Almanac.Proofs.EntryPaths
import Almanac.Proofs.Iso.RangeEnds
import Almanac.Proofs.SameMonth

/-!
# Days of a month

A year-month and the number of a day make a date. A number that the month has not so many days for
becomes that of its last day, or is refused. From the date there is a way back to the month.

* `YearMonth.dayOrLast`: the day of a number, or the last day of the month.
* `YearMonth.onDay_constrain`, `YearMonth.onDay_reject`: the date that either treatment of overflow
  gives.
* `YearMonth.sameMonth_of_onDay`: the date is a day of the month.
* `YearMonth.dates_of_month`: **the dates of a month**, and the way back from each of them.
-/

namespace Almanac.YearMonth

variable {ym : YearMonth} {day : Int} {overflow : Overflow} {date : Date}

/-- The day of a month by its number, or the last day if the month has not so many, represented or
not. -/
def dayOrLast (ym : YearMonth) (day : Int) : IsoDate :=
  ym.calendar.isoOf ⟨ym.reading.year, ym.reading.month, min day ym.days⟩

/-- The mapping that asks for a day. -/
def askedDay (day : Int) : Value := .mapping [("day", .number (.whole day))]

theorem valid_dayOrLast (ym : YearMonth) (day : Int) : (ym.dayOrLast day).Valid :=
  Calendar.valid_isoOf _ _

theorem hasDate_dayOrLast (ym : YearMonth) (hday : 1 ≤ day) :
    ym.calendar.HasDate ⟨ym.reading.year, ym.reading.month, min day ym.days⟩ :=
  ⟨ym.hasDate_reading.1, le_min hday (Calendar.one_le_daysInMonth ym.hasDate_reading.1),
    min_le_right _ _⟩

theorem dateOf_dayOrLast (ym : YearMonth) (hday : 1 ≤ day) :
    ym.calendar.dateOf (ym.dayOrLast day) = ⟨ym.reading.year, ym.reading.month, min day ym.days⟩ :=
  Calendar.dateOf_isoOf (ym.hasDate_dayOrLast hday)

/-- The days of a represented month are near enough to be counted in a word. -/
theorem fitsWord_dayOrLast (ym : YearMonth) (hday : 1 ≤ day) :
    fitsWord (ym.calendar.epochDay ⟨ym.reading.year, ym.reading.month, min day ym.days⟩) =
      true := by
  have hl :
      Iso.MonthInLimits (ym.calendar.isoOf ym.reading).year
      (ym.calendar.isoOf ym.reading).month := by
    rw [isoOf_reading]
    exact ym.inLimits
  exact Calendar.fitsWord_of_month ym.hasDate_reading hl (ym.hasDate_dayOrLast hday)

/-- **The date of a day**, whose number may be cut down to that of the last day. -/
theorem onDay_constrain (ym : YearMonth) (hday : 1 ≤ day) :
    ym.onDay day .constrain = (ym.dayOrLast day).checkLimits >>=
      fun iso => Date.of iso ym.calendar := by
  have hfields :=
    (ym.describes_day day).dateOfFields_of_regulateDay (Record.number?_set_self _ .day day)
    (Calendar.regulateDay_constrain _ _ _ day) (ym.hasDate_dayOrLast hday)
      (ym.fitsWord_dayOrLast hday)
  rw [onDay, hfields, dayOrLast, days]

theorem onDay_of_inLimits (hday : 1 ≤ day) (hl : (ym.dayOrLast day).InLimits) :
    ym.onDay day .constrain = .ok ⟨ym.dayOrLast day, ym.calendar, ym.valid_dayOrLast day, hl⟩ := by
  rw [ym.onDay_constrain hday, IsoDate.checkLimits, if_pos hl]
  change Date.of (ym.dayOrLast day) ym.calendar = _
  rw [Date.of, dif_pos (ym.valid_dayOrLast day), dif_pos hl]

theorem onDay_of_beyond (hday : 1 ≤ day) (hl : ¬ (ym.dayOrLast day).InLimits) :
    ym.onDay day .constrain = .error
      (.dateBeyondLimits (ym.dayOrLast day).year (ym.dayOrLast day).month
        (ym.dayOrLast day).day) := by
  rw [ym.onDay_constrain hday, IsoDate.checkLimits, if_neg hl]
  rfl

/-- **The date of a day** whose number may not be cut down: the same, if the month has the day. -/
theorem onDay_reject (ym : YearMonth) (hday : 1 ≤ day) :
    ym.onDay day .reject =
      if day ≤ ym.days then ym.onDay day .constrain
      else .error
        (.dayBeyondMonth ym.calendar (.number ym.reading.year) ym.monthCode (.number day)) := by
  have hset := Record.number?_set_self (ym.fields [.monthCode, .year]) .day day
  split
  · next hle =>
    have hdate : ym.calendar.HasDate ⟨ym.reading.year, ym.reading.month, day⟩ :=
      ⟨ym.hasDate_reading.1, hday, hle⟩
    have hw := ym.fitsWord_dayOrLast hday
    rw [min_eq_left hle] at hw
    rw [onDay, onDay, (ym.describes_day day).dateOfFields_eq hset hdate hw,
      (ym.describes_day day).dateOfFields_eq hset hdate hw]
  · next hlong =>
    rw [onDay, (ym.describes_day day).dateOfFields_reject hset (not_le.1 hlong)]
    rfl

/-- **A date that is made from a month** is a day of it. -/
theorem sameMonth_of_onDay (hday : 1 ≤ day) (h : ym.onDay day overflow = .ok date) :
    date.month.SameMonth ym := by
  -- where the number may not be cut down, no other date is made
  have hconstrain : ym.onDay day .constrain = .ok date := by
    cases overflow with
    | constrain => exact h
    | reject =>
      rw [ym.onDay_reject hday] at h
      split at h
      · exact h
      · cases h
  by_cases hl : (ym.dayOrLast day).InLimits
  · rw [onDay_of_inLimits hday hl] at hconstrain
    obtain rfl := Except.ok.inj hconstrain
    have hreading : ym.calendar.dateOf (ym.dayOrLast day) = _ := ym.dateOf_dayOrLast hday
    refine ⟨rfl, ?_, ?_⟩
    · exact (congrArg YearMonthDay.year hreading :)
    · exact (congrArg YearMonthDay.month hreading :)
  · rw [onDay_of_beyond hday hl] at hconstrain
    cases hconstrain

/-- **The way back** from a day of a month that is held by its first day. -/
theorem ofItem_of_sameMonth (h : ym.IsCanonical) (hdate : date.month.SameMonth ym) {v : Value}
    (hv : v.toOverflow = .ok overflow) : ofItem (.date date) v = .ok ym := by
  have hcalendar : date.calendar = ym.calendar := hdate.calendar_eq
  rw [ofItem, hv]
  change ofDate date overflow = _
  rw [date.ofDate_eq, hdate.start_eq, hcalendar, ← anchor_eq_start h, of_anchor]

theorem dayOf_askedDay (hday : 1 ≤ day) : dayOf [("day", .number (.whole day))] = .ok day :=
  Value.positive_whole hday "day"

theorem onDayFrom_askedDay (ym : YearMonth) (hday : 1 ≤ day) {v : Value}
    (hv : v.toOverflow = .ok overflow) :
    ym.onDayFrom (askedDay day) v = ym.onDay day overflow := by
  have hentries : (askedDay day).entries? = some [("day", .number (.whole day))] := rfl
  simp only [onDayFrom, hentries, hv, dayOf_askedDay hday, bind, Except.bind]

/-- **The dates of a month.** From the number of a day a month that is held by its first day makes
the date of that number, or of the number of its last day if that is smaller, which is refused only
if it lies beyond the range of the dates; if the number may not be cut down, it is also refused
where the month has not so many days, with the same dates elsewhere. Each of the dates leads back to
the month. -/
theorem dates_of_month (h : ym.IsCanonical) (hday : 1 ≤ day) {constrain reject : Value}
    (hconstrain : constrain.toOverflow = .ok .constrain)
    (hreject : reject.toOverflow = .ok .reject) :
    ((ym.dayOrLast day).InLimits → ∃ date, ym.onDayFrom (askedDay day) constrain = .ok date ∧
      date.iso = ym.dayOrLast day ∧ date.calendar = ym.calendar ∧
      date.reading = ⟨ym.reading.year, ym.reading.month, min day ym.days⟩ ∧
      date.month.monthCode = ym.monthCode) ∧
    (¬ (ym.dayOrLast day).InLimits → ym.onDayFrom (askedDay day) constrain = .error
      (.dateBeyondLimits (ym.dayOrLast day).year (ym.dayOrLast day).month (ym.dayOrLast day).day)) ∧
    (ym.onDayFrom (askedDay day) reject =
      if day ≤ ym.days then ym.onDayFrom (askedDay day) constrain
      else .error
        (.dayBeyondMonth ym.calendar (.number ym.reading.year) ym.monthCode (.number day))) ∧
    ∀ v date, (v = constrain ∨ v = reject) → ym.onDayFrom (askedDay day) v = .ok date →
      ∀ v' overflow, v'.toOverflow = .ok overflow → ofItem (.date date) v' = .ok ym := by
  have hc := ym.onDayFrom_askedDay hday hconstrain
  have hr := ym.onDayFrom_askedDay hday hreject
  refine ⟨?_, ?_, ?_, ?_⟩
  · intro hl
    have hdate := onDay_of_inLimits hday hl
    exact ⟨_, hc.trans hdate, rfl, rfl, ym.dateOf_dayOrLast hday,
      (sameMonth_of_onDay hday hdate).monthCode_eq⟩
  · intro hl
    exact hc.trans (onDay_of_beyond hday hl)
  · rw [hr, hc]
    exact ym.onDay_reject hday
  · rintro v date (rfl | rfl) hdate v' overflow hv'
    · exact ofItem_of_sameMonth h (sameMonth_of_onDay hday (hc.symm.trans hdate)) hv'
    · exact ofItem_of_sameMonth h (sameMonth_of_onDay hday (hr.symm.trans hdate)) hv'

/-- The five days behind the twelve months of a Coptic year. -/
def epagomenal1740 : YearMonth where
  anchor := ⟨2024, 9, 6⟩
  calendar := .coptic

/-- The thirtieth of a month of five days, and the first and the thirtieth of the month that the
represented dates begin in. -/
theorem dates_of_epagomenal1740 :
    (∃ date, epagomenal1740.onDayFrom (askedDay 30) .null = .ok date ∧
      date.reading = ⟨1740, 13, 5⟩ ∧
      ofItem (.date date) .null = .ok epagomenal1740) ∧
    epagomenal1740.onDayFrom (askedDay 30) (.text "reject") =
      .error (.dayBeyondMonth .coptic (.number 1740) "M13" (.number 30)) ∧
    aprilMinus271821.onDayFrom (askedDay 1) .null = .error (.dateBeyondLimits (-271821) 4 1) ∧
    ∃ date, aprilMinus271821.onDayFrom (askedDay 30) (.text "reject") = .ok date ∧
      date.iso = ⟨-271821, 4, 30⟩ := by
  have hnull : Value.null.toOverflow = .ok .constrain := rfl
  have hreject : (Value.text "reject").toOverflow = .ok .reject := by decide
  have hcanonical : epagomenal1740.IsCanonical := by decide
  have hearliest : aprilMinus271821.IsCanonical := by decide
  have hone : (1 : Int) ≤ 1 := le_rfl
  have hthirty : (1 : Int) ≤ 30 := by decide
  obtain ⟨hdate, -, hrefused, hback⟩ := dates_of_month hcanonical hthirty hnull hreject
  obtain ⟨-, hbeyond, -, -⟩ := dates_of_month hearliest hone hnull hreject
  obtain ⟨hlast, -, hsame, -⟩ := dates_of_month hearliest hthirty hnull hreject
  obtain ⟨date, hd, -, -, hreading, -⟩ := hdate (by decide)
  obtain ⟨last, hlast, hiso, -, -, -⟩ := hlast (by decide)
  rw [if_pos (by decide)] at hsame
  rw [if_neg (by decide)] at hrefused
  exact ⟨⟨date, hd, hreading, hback _ _ (.inl rfl) hd _ _ hnull⟩,
    hrefused.trans (by decide +kernel), hbeyond (by decide), last, hsame.trans hlast, hiso⟩

end Almanac.YearMonth
