import Almanac.Proofs.Written
import Almanac.Proofs.YearMonth

/-!
# Year-months and their texts

The text of a year-month that names its calendar is read as the same month, held by its first day. A
text in the ISO calendar may leave the day out, which stands for the first day of the month then.

* `YearMonth.ofText_eq`: the year-month of a text by the date that is written.
* `YearMonth.ofText_text`: the year-month that the text of a year-month gives.
* `YearMonth.read_back`: **the text of a year-month is read back**.
-/

namespace Almanac

namespace CalendarDisplay

/-- A suffix that is shown lets the calendar be found, named or not. -/
theorem toCalendar_named? {how : CalendarDisplay} (hshown : how ≠ .never) (c : Calendar) :
    (Value.text ((how.named? c).getD "iso8601")).toCalendar = .ok c := by
  have hid : (Value.text c.id).toCalendar = .ok c := by rw [Value.toCalendar, Calendar.ofId?_id]
  cases how with
  | never => exact absurd rfl hshown
  | always => exact hid
  | critical => exact hid
  | auto =>
    by_cases hiso : c = .iso8601
    · subst hiso
      exact hid
    · rw [named?, if_neg hiso]
      exact hid

end CalendarDisplay

namespace IsoDate

variable {d : IsoDate}

theorem valid_ofMonthChars (hv : d.Valid) (c : Calendar) (how : CalendarDisplay) :
    (d.ofMonthChars c how).Valid := by
  unfold ofMonthChars
  split
  · exact hv
  · exact ⟨hv.1, hv.2.1, le_rfl, le_trans hv.2.2.1 hv.2.2.2⟩

/-- The text of a month shows its ISO month. -/
theorem month_ofMonthChars (d : IsoDate) (c : Calendar) (how : CalendarDisplay) :
    (d.ofMonthChars c how).year = d.year ∧ (d.ofMonthChars c how).month = d.month := by
  unfold ofMonthChars
  split <;> exact ⟨rfl, rfl⟩

/-- A day is left out in the ISO calendar alone, so that the text of a month shows the month of the
calendar. -/
theorem dateOf_ofMonthChars (d : IsoDate) (c : Calendar) (how : CalendarDisplay) :
    (c.dateOf (d.ofMonthChars c how)).year = (c.dateOf d).year ∧
      (c.dateOf (d.ofMonthChars c how)).month = (c.dateOf d).month := by
  unfold ofMonthChars
  split
  · exact ⟨rfl, rfl⟩
  · next hshort =>
    obtain ⟨rfl, -⟩ : c = .iso8601 ∧ how.isForced = false := by simpa using hshort
    exact ⟨rfl, rfl⟩

end IsoDate

/-- A year of the range of the months is written in at most six digits. -/
theorem Iso.natAbs_lt_of_monthInLimits {year month : Int} (h : MonthInLimits year month) :
    year.natAbs < 1000000 := by
  obtain ⟨h₁, h₂, -, -⟩ := h
  simp only [minYear, maxYear] at h₁ h₂
  omega

namespace YearMonth

/-- The year-month of a text is the one that the first day of the written month anchors. -/
theorem ofText_eq {s : String} {iso : IsoDate} {name : Option String} {c : Calendar}
    (hparse : ParsedMonth.parse s = .ok ⟨iso, name⟩)
    (hc : (Value.text (name.getD "iso8601")).toCalendar = .ok c) (hv : iso.Valid)
    (hl : Iso.MonthInLimits iso.year iso.month) :
    ofText s = of (c.isoOf ⟨(c.dateOf iso).year, (c.dateOf iso).month, 1⟩) c := by
  have hof : of iso c = .ok ⟨iso, c, hv, hl⟩ := by rw [of, dif_pos hv, dif_pos hl]
  have hdescribes := describes_fields ⟨iso, c, hv, hl⟩ [.monthCode, .year] (by decide) (by decide)
  have hfields := ofFields_of_resolve hdescribes.toNamesYear.resolveYear
    (hdescribes.resolveMonth .constrain) hdescribes.hasMonth (fitsWord_first ⟨iso, c, hv, hl⟩)
  rw [ofText, hparse]
  simp only [bind, Except.bind, hc, hl, not_true_eq_false, if_false, hof]
  exact hfields

/-- **The text of a year-month** gives the year-month that the first day of its month anchors. -/
theorem ofText_text (ym : YearMonth) {how : CalendarDisplay} (hshown : how ≠ .never) :
    ofText (ym.text how) = of ym.start ym.calendar := by
  have hyear := Iso.natAbs_lt_of_monthInLimits ym.inLimits
  obtain ⟨hsame, hsame'⟩ := ym.anchor.month_ofMonthChars ym.calendar how
  obtain ⟨hread, hread'⟩ := ym.anchor.dateOf_ofMonthChars ym.calendar how
  -- the date that is written lies in the ISO month of the anchor, so that it is represented
  have hl := ym.inLimits
  rw [← hsame, ← hsame'] at hl
  rw [text, ofText_eq (IsoDate.parse_monthChars ym.valid hyear ym.calendar how)
    (CalendarDisplay.toCalendar_named? hshown ym.calendar)
    (IsoDate.valid_ofMonthChars ym.valid ym.calendar how) hl, hread, hread']
  rfl

/-- **The text of a year-month is read back.** Where the text names its calendar, or leaves out the
ISO calendar, and the first day of the month lies in a represented month, it is read as the
year-month of that calendar, year and month code which the first day anchors. That is the one that
was written exactly if its anchor is the first day of its month. -/
theorem read_back (ym : YearMonth) {calendarName : Value} {how : CalendarDisplay}
    (hname : calendarName.toCalendarDisplay = .ok how) (hshown : how ≠ .never)
    (hfirst : Iso.MonthInLimits ym.start.year ym.start.month) :
    ∃ s r, ym.textAs calendarName = .ok s ∧ ofItem (.text s) .null = .ok r ∧
      r.calendar = ym.calendar ∧ r.IsCanonical ∧ r.reading.year = ym.reading.year ∧
      r.calendar.monthCode r.reading.year r.reading.month =
        ym.calendar.monthCode ym.reading.year ym.reading.month ∧
      (r = ym ↔ ym.IsCanonical) := by
  have htext : ym.textAs calendarName = .ok (ym.text how) := by
    rw [textAs, hname]
    rfl
  have hread : ofItem (.text (ym.text how)) .null =
      .ok ⟨ym.start, ym.calendar, ym.valid_start, hfirst⟩ :=
    (ym.ofText_text hshown).trans (of_isoOf _ hfirst)
  have hreading : (⟨ym.start, ym.calendar, ym.valid_start, hfirst⟩ : YearMonth).reading =
      ⟨ym.reading.year, ym.reading.month, 1⟩ := ym.dateOf_start
  refine ⟨_, _, htext, hread, rfl,
    congrArg YearMonthDay.day hreading, by rw [hreading], by rw [hreading], ?_⟩
  constructor
  · intro heq
    rw [IsCanonical, ← heq, hreading]
  · intro hday
    refine ext ?_ rfl
    have hfull : (⟨ym.reading.year, ym.reading.month, 1⟩ : YearMonthDay) = ym.reading := by
      rw [← hday]
    change ym.start = ym.anchor
    rw [start, hfull, isoOf_reading]

/-- The third of an Adar before the year zero, written with a sign, six digits and a mark. -/
theorem read_back_adar3759 :
    ∃ s r, textAs ⟨⟨-1, 2, 5⟩, .hebrew, by decide, by decide⟩ (.text "critical") = .ok s ∧
      ofItem (.text s) .null = .ok r ∧ r.calendar = .hebrew ∧ r.IsCanonical := by
  have hname : (Value.text "critical").toCalendarDisplay = .ok .critical := rfl
  obtain ⟨s, r, hs, hr, hc, hcanonical, -⟩ :=
    read_back ⟨⟨-1, 2, 5⟩, .hebrew, by decide, by decide⟩ hname (by decide) (by decide +kernel)
  exact ⟨s, r, hs, hr, hc, hcanonical⟩

end YearMonth

end Almanac
