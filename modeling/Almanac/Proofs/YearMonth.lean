import Almanac.Proofs.Resolution
import Almanac.YearMonth.Convert

/-!
# Year-months by their first days

A year-month that is made from fields is held by the first day of its month.

* `YearMonth.hasDate_reading`: the anchor of a year-month is a date of its calendar.
* `YearMonth.start`: the first day of the month.
* `YearMonth.ofFields_of_resolve`: the year-month of a record whose year and month are found.
* `YearMonth.ofFields_eq`, `YearMonth.eq_of_ofFields`: the year-month of a record that describes a
  month.
* `YearMonth.reading_of_fieldsOf`: the year-month that is made from a date.
* `YearMonth.describes_fields`: the fields of a year-month describe its month.
-/

namespace Almanac.YearMonth

variable {ym : YearMonth} {c : Calendar} {fields : Record Reading} {year month : Int}

theorem hasDate_reading (ym : YearMonth) : ym.calendar.HasDate ym.reading :=
  Calendar.hasDate_dateOf ym.valid

theorem isoOf_reading (ym : YearMonth) : ym.calendar.isoOf ym.reading = ym.anchor :=
  Calendar.isoOf_dateOf ym.valid

/-- The first day of the month, whether it is represented or not. -/
def start (ym : YearMonth) : IsoDate := ym.calendar.isoOf ⟨ym.reading.year, ym.reading.month, 1⟩

theorem valid_start (ym : YearMonth) : ym.start.Valid := Calendar.valid_isoOf _ _

theorem dateOf_start (ym : YearMonth) :
    ym.calendar.dateOf ym.start = ⟨ym.reading.year, ym.reading.month, 1⟩ :=
  Calendar.dateOf_isoOf (Calendar.hasDate_first ym.hasDate_reading.1)

theorem start_eq {a b : YearMonth} (hc : a.calendar = b.calendar) (h : a.anchor = b.anchor) :
    a.start = b.start := by
  rw [start, start, reading, reading, hc, h]

/-- A month that is held by its first day. -/
theorem anchor_eq_start (h : ym.IsCanonical) : ym.anchor = ym.start := by
  have hreading : ym.reading = ⟨ym.reading.year, ym.reading.month, 1⟩ :=
    congrArg (YearMonthDay.mk ym.reading.year ym.reading.month) h
  rw [start, ← hreading, isoOf_reading]

theorem of_anchor (ym : YearMonth) : of ym.anchor ym.calendar = .ok ym := by
  rw [of, dif_pos ym.valid, dif_pos ym.inLimits]

theorem eq_of_of {anchor : IsoDate} (h : of anchor c = .ok ym) :
    ym.calendar = c ∧ ym.anchor = anchor := by
  unfold of at h
  split at h
  · split at h
    · obtain rfl := Except.ok.inj h
      exact ⟨rfl, rfl⟩
    · cases h
  · cases h

theorem of_isoOf (d : YearMonthDay)
    (hl : Iso.MonthInLimits (c.isoOf d).year (c.isoOf d).month) :
    of (c.isoOf d) c = .ok ⟨c.isoOf d, c, Calendar.valid_isoOf c _, hl⟩ := by
  rw [of, dif_pos (Calendar.valid_isoOf c _), dif_pos hl]

theorem of_isoOf_beyond (d : YearMonthDay)
    (hl : ¬ Iso.MonthInLimits (c.isoOf d).year (c.isoOf d).month) :
    of (c.isoOf d) c = .error (.yearMonthBeyondLimits (c.isoOf d).year (c.isoOf d).month) := by
  rw [of, dif_pos (Calendar.valid_isoOf c _), dif_neg hl]

/-- **The year-month of a record** whose year and month are found is the one that the first day of
that month anchors; it is refused exactly if that one is. -/
theorem ofFields_of_resolve {overflow : Overflow} (hyear : c.resolveYear fields = .ok year)
    (hmonth : c.resolveMonth year fields overflow = .ok month) (hm : c.HasMonth year month)
    (hw : fitsWord (c.epochDay ⟨year, month, 1⟩) = true) :
    ofFields c fields overflow = of (c.isoOf ⟨year, month, 1⟩) c := by
  rw [ofFields, Calendar.monthOfFields, hyear]
  simp only [bind, Except.bind]
  rw [hmonth]
  simp only
  rw [Calendar.toIso_eq (Calendar.hasDate_first hm) hw]
  by_cases hl : Iso.MonthInLimits (c.isoOf ⟨year, month, 1⟩).year (c.isoOf ⟨year, month, 1⟩).month
  · simp only [IsoDate.checkMonthLimits, if_pos hl]
  · simp only [IsoDate.checkMonthLimits, if_neg hl, of_isoOf_beyond _ hl]

/-- **The year-month of a record** that describes a month is held by the first day of that month. -/
theorem ofFields_eq (h : c.Describes fields year month)
    (hl : Iso.MonthInLimits (c.isoOf ⟨year, month, 1⟩).year (c.isoOf ⟨year, month, 1⟩).month)
    (overflow : Overflow) :
    ofFields c fields overflow =
      .ok ⟨c.isoOf ⟨year, month, 1⟩, c, Calendar.valid_isoOf c _, hl⟩ := by
  have hw := Calendar.fitsWord_firstDay (Calendar.hasDate_first h.hasMonth) hl
  rw [ofFields_of_resolve h.toNamesYear.resolveYear (h.resolveMonth overflow) h.hasMonth hw,
    of_isoOf]

/-- The only year-month that a record that describes a month gives. -/
theorem eq_of_ofFields (h : c.Describes fields year month) (hw : c.Countable ⟨year, month, 1⟩)
    {overflow : Overflow} (hr : ofFields c fields overflow = .ok ym) :
    ym.calendar = c ∧ ym.anchor = c.isoOf ⟨year, month, 1⟩ := by
  obtain ⟨iso, hiso, hof⟩ := bind_eq_ok hr
  obtain ⟨rfl, -⟩ := h.eq_of_monthOfFields hw hiso
  exact eq_of_of hof

/-- **The year-month that is made from a date** is the month of the date, held by its first day. -/
theorem reading_of_fieldsOf {iso : IsoDate} {overflow : Overflow} (hv : iso.Valid)
    (hl : Iso.MonthInLimits iso.year iso.month) {wanted : List Field} (hy : .year ∈ wanted)
    (hc : .monthCode ∈ wanted)
    (h : ofFields c (c.fieldsOf (c.dateOf iso) (c.fieldsFor wanted)) overflow = .ok ym) :
    ym.calendar = c ∧ ym.reading = ⟨(c.dateOf iso).year, (c.dateOf iso).month, 1⟩ := by
  have hd := Calendar.hasDate_dateOf (c := c) hv
  have hw : c.Countable ⟨(c.dateOf iso).year, (c.dateOf iso).month, 1⟩ := by
    intro _
    rw [← Calendar.isoOf_dateOf (c := c) hv] at hl
    exact Calendar.fitsWord_firstDay hd hl
  obtain ⟨hcalendar, hanchor⟩ := eq_of_ofFields (Calendar.describes_fieldsOf hd.1 hy hc) hw h
  refine ⟨hcalendar, ?_⟩
  rw [reading, hcalendar, hanchor]
  exact Calendar.dateOf_isoOf (Calendar.hasDate_first hd.1)

/-- The first day of a represented month is near enough to be counted in a word. -/
theorem fitsWord_first (ym : YearMonth) :
    fitsWord (ym.calendar.epochDay ⟨ym.reading.year, ym.reading.month, 1⟩) = true :=
  Calendar.fitsWord_firstDay ym.hasDate_reading (by
    change Iso.MonthInLimits (ym.calendar.isoOf ym.reading).year
      (ym.calendar.isoOf ym.reading).month
    rw [isoOf_reading]
    exact ym.inLimits)

theorem describes_fields (ym : YearMonth) (wanted : List Field) (hy : .year ∈ wanted)
    (hc : .monthCode ∈ wanted) :
    ym.calendar.Describes (ym.fields wanted) ym.reading.year ym.reading.month :=
  Calendar.describes_fieldsOf ym.hasDate_reading.1 hy hc

end Almanac.YearMonth
