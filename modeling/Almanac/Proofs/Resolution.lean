import Almanac.Proofs.FieldRecord
import Almanac.Proofs.Reading

/-!
# Records resolved to dates

A record that describes a month is resolved to the days of that month, by either treatment of
overflow, and the fields that a calendar reads from a date are such a record.

* `Calendar.regulateDay_constrain`: a day beyond its month becomes the last one.
* `Calendar.Describes.dateOfFields_of_regulateDay`, `Calendar.Describes.dateOfFields_reject`: the
  day of a record, and the refusal of a day that its month has not;
  `Calendar.Describes.monthOfFields_eq`: the first day of its month.
* `Calendar.fields_lead_back`: **the fields of a date lead back to it**.
-/

namespace Almanac

theorem IsoDate.checkLimits_eq_ok_iff {d e : IsoDate} :
    d.checkLimits = .ok e ↔ e = d ∧ d.InLimits := by
  unfold checkLimits
  split
  · next hl => simp only [Except.ok.injEq, hl, and_true, eq_comm]
  · next hl => simp only [reduceCtorEq, hl, and_false]

theorem IsoDate.checkLimits_eq_ok {d e : IsoDate} (h : d.checkLimits = .ok e) :
    e = d ∧ d.InLimits :=
  checkLimits_eq_ok_iff.1 h

theorem IsoDate.checkMonthLimits_eq_ok {d e : IsoDate} (h : d.checkMonthLimits = .ok e) :
    e = d ∧ Iso.MonthInLimits d.year d.month := by
  unfold checkMonthLimits at h
  split at h
  · next hl => exact ⟨(Except.ok.inj h).symm, hl⟩
  · cases h

namespace Calendar

variable {c : Calendar}

theorem daysInMonth_le (c : Calendar) (year month : Int) : c.daysInMonth year month ≤ 31 := by
  cases c
  case hebrew => exact le_trans (Hebrew.daysInMonth_bounds year month).2 (by decide)
  case coptic | ethiopic | islamicCivil | islamicTabular =>
    simp only [daysInMonth, Coptic.daysInMonth, Islamic.daysInMonth]
    repeat' split
    all_goals omega
  all_goals exact Iso.daysInMonth_le _ _

theorem regulateDay_of_le {year month day : Int} (h : day ≤ c.daysInMonth year month)
    (overflow : Overflow) : c.regulateDay year month day overflow = .ok day := by
  unfold regulateDay
  rw [if_neg (by omega)]

theorem regulateDay_constrain (c : Calendar) (year month day : Int) :
    c.regulateDay year month day .constrain = .ok (min day (c.daysInMonth year month)) := by
  unfold regulateDay
  split
  · rw [min_eq_right (by omega)]
  · rw [min_eq_left (by omega)]

/-- A day that is regulated is a day of its month. -/
theorem hasDate_of_regulateDay {year month given day : Int} {overflow : Overflow}
    (hm : c.HasMonth year month) (hgiven : 1 ≤ given)
    (h : c.regulateDay year month given overflow = .ok day) : c.HasDate ⟨year, month, day⟩ := by
  unfold regulateDay at h
  split at h
  · cases overflow with
    | reject => cases h
    | constrain =>
      obtain rfl := Except.ok.inj h
      exact hasDate_last hm
  · next hin =>
    obtain rfl := Except.ok.inj h
    exact ⟨hm, hgiven, not_lt.1 hin⟩

/-- The days of the month of a represented date are near enough to be counted in a word. -/
theorem fitsWord_of_month {year month day other : Int} (hd : c.HasDate ⟨year, month, day⟩)
    (hl : Iso.MonthInLimits (c.isoOf ⟨year, month, day⟩).year (c.isoOf ⟨year, month, day⟩).month)
    (ho : c.HasDate ⟨year, month, other⟩) : fitsWord (c.epochDay ⟨year, month, other⟩) = true := by
  have hb := IsoDate.count_bounds (valid_isoOf c _) hl
  rw [count_isoOf, epochDay_eq] at hb
  have hlen := c.daysInMonth_le year month
  obtain ⟨-, h₁, h₂⟩ := hd
  obtain ⟨-, ho₁, ho₂⟩ := ho
  simp only at h₁ h₂ ho₁ ho₂
  rw [epochDay_eq, fitsWord_iff]
  omega

/-- The first day of the month of a represented date is near enough to be counted in a word. -/
theorem fitsWord_firstDay {year month day : Int} (hd : c.HasDate ⟨year, month, day⟩)
    (hl : Iso.MonthInLimits (c.isoOf ⟨year, month, day⟩).year (c.isoOf ⟨year, month, day⟩).month) :
    fitsWord (c.epochDay ⟨year, month, 1⟩) = true :=
  fitsWord_of_month hd hl (hasDate_first hd.1)

namespace Describes

variable {fields : Record Reading} {year month given day : Int}

/-- **The date of a record** that describes a month and has a day which is regulated to one of
it. -/
theorem dateOfFields_of_regulateDay {overflow : Overflow} (h : c.Describes fields year month)
    (hday : fields.number? .day = some given)
    (hregulated : c.regulateDay year month given overflow = .ok day)
    (hd : c.HasDate ⟨year, month, day⟩) (hw : fitsWord (c.epochDay ⟨year, month, day⟩) = true) :
    c.dateOfFields fields overflow = (c.isoOf ⟨year, month, day⟩).checkLimits := by
  rw [dateOfFields, h.toNamesYear.resolveYear]
  simp only [bind, Except.bind]
  rw [h.resolveMonth, hday]
  simp only
  rw [hregulated]
  simp only
  rw [toIso_eq hd hw]

/-- The date of a record that describes a month and has a day of it. -/
theorem dateOfFields_eq (h : c.Describes fields year month) (hday : fields.number? .day = some day)
    (hd : c.HasDate ⟨year, month, day⟩) (hw : fitsWord (c.epochDay ⟨year, month, day⟩) = true)
    (overflow : Overflow) :
    c.dateOfFields fields overflow = (c.isoOf ⟨year, month, day⟩).checkLimits :=
  h.dateOfFields_of_regulateDay hday (regulateDay_of_le hd.2.2 overflow) hd hw

/-- **A record is refused** if it describes a month and has a day that the month has not, and no day
may be cut off. -/
theorem dateOfFields_reject (h : c.Describes fields year month)
    (hday : fields.number? .day = some day) (hlong : c.daysInMonth year month < day) :
    c.dateOfFields fields .reject =
      .error (.dayBeyondMonth c (.number year) (c.monthCode year month).text (.number day)) := by
  rw [dateOfFields, h.toNamesYear.resolveYear]
  simp only [bind, Except.bind]
  rw [h.resolveMonth, hday]
  simp only [regulateDay, if_pos hlong]

/-- A record that describes a month gives a day of that month, if it gives any. -/
theorem eq_of_dateOfFields (h : c.Describes fields year month)
    (hday : fields.number? .day = some day)
    (hd : c.HasDate ⟨year, month, min day (c.daysInMonth year month)⟩)
    (hw : c.Countable ⟨year, month, min day (c.daysInMonth year month)⟩) {iso : IsoDate}
    (hiso : c.dateOfFields fields .constrain = .ok iso) :
    iso = c.isoOf ⟨year, month, min day (c.daysInMonth year month)⟩ ∧ iso.InLimits := by
  rw [dateOfFields, h.toNamesYear.resolveYear] at hiso
  simp only [bind, Except.bind] at hiso
  rw [h.resolveMonth, hday] at hiso
  simp only [regulateDay_constrain] at hiso
  obtain ⟨reached, hreached, hlim⟩ := bind_eq_ok hiso
  obtain ⟨rfl, hl⟩ := IsoDate.checkLimits_eq_ok hlim
  exact ⟨eq_isoOf hd hw hreached, hl⟩

/-- **The month of a record** that describes it. -/
theorem monthOfFields_eq (h : c.Describes fields year month)
    (hw : fitsWord (c.epochDay ⟨year, month, 1⟩) = true) (overflow : Overflow) :
    c.monthOfFields fields overflow = (c.isoOf ⟨year, month, 1⟩).checkMonthLimits := by
  rw [monthOfFields, h.toNamesYear.resolveYear]
  simp only [bind, Except.bind]
  rw [h.resolveMonth]
  simp only
  rw [toIso_eq (hasDate_first h.hasMonth) hw]

/-- A record that describes a month gives the first day of that month, if it gives any. -/
theorem eq_of_monthOfFields (h : c.Describes fields year month) (hw : c.Countable ⟨year, month, 1⟩)
    {overflow : Overflow} {iso : IsoDate} (hiso : c.monthOfFields fields overflow = .ok iso) :
    iso = c.isoOf ⟨year, month, 1⟩ ∧ Iso.MonthInLimits iso.year iso.month := by
  rw [monthOfFields, h.toNamesYear.resolveYear] at hiso
  simp only [bind, Except.bind] at hiso
  rw [h.resolveMonth] at hiso
  obtain ⟨reached, hreached, hlim⟩ := bind_eq_ok hiso
  obtain ⟨rfl, hl⟩ := IsoDate.checkMonthLimits_eq_ok hlim
  exact ⟨eq_isoOf (hasDate_first h.hasMonth) hw hreached, hl⟩

end Describes

/-- **The fields of a date lead back to it.** All the fields of a represented date are resolved to
that date, by either treatment of overflow; without the day they are resolved to the first day of
the month, or refused if no day of its ISO month is represented. -/
theorem fields_lead_back (c : Calendar) {iso : IsoDate} (hv : iso.Valid) (hl : iso.InLimits)
    (overflow : Overflow) :
    ∃ d first, c.read iso = .ok d ∧ first.Valid ∧ c.dateOf first = { d with day := 1 } ∧
      c.dateOfFields (c.fieldsOf d (c.fieldsFor [.day, .month, .monthCode, .year])) overflow =
        .ok iso ∧
      (Iso.MonthInLimits first.year first.month →
        c.monthOfFields (c.fieldsOf d (c.fieldsFor [.month, .monthCode, .year])) overflow =
          .ok first) ∧
      (¬ Iso.MonthInLimits first.year first.month →
        c.monthOfFields (c.fieldsOf d (c.fieldsFor [.month, .monthCode, .year])) overflow =
          .error (.yearMonthBeyondLimits first.year first.month)) := by
  have hml := IsoDate.monthInLimits_of_inLimits hl
  obtain ⟨⟨year, month, day⟩, hdate⟩ : ∃ d, c.dateOf iso = d := ⟨_, rfl⟩
  have hd : c.HasDate ⟨year, month, day⟩ := hdate ▸ hasDate_dateOf hv
  have hiso : c.isoOf ⟨year, month, day⟩ = iso := hdate ▸ isoOf_dateOf hv
  -- the fields without the day, whose first day may lie outside the range
  have hmonth : c.monthOfFields (c.fieldsOf ⟨year, month, day⟩
      (c.fieldsFor [.month, .monthCode, .year])) overflow =
        (c.isoOf ⟨year, month, 1⟩).checkMonthLimits :=
    (describes_fieldsOf hd.1 (by decide) (by decide)).monthOfFields_eq
      (fitsWord_firstDay hd (by rw [hiso]; exact hml)) overflow
  refine ⟨⟨year, month, day⟩, c.isoOf ⟨year, month, 1⟩, hdate ▸ read_eq hv hml, valid_isoOf c _,
    dateOf_isoOf (hasDate_first hd.1), ?_, ?_, ?_⟩
  · have hday : (c.fieldsOf ⟨year, month, day⟩
        (c.fieldsFor [.day, .month, .monthCode, .year])).number? .day = some day := by
      rw [Record.number?, get?_fieldsOf, if_pos (mem_fieldsFor.2 (.inl (by decide)))]
      rfl
    have hw : fitsWord (c.epochDay ⟨year, month, day⟩) = true := by
      rw [← count_isoOf, hiso]
      exact IsoDate.fitsWord_count hv hml
    rw [(describes_fieldsOf hd.1 (by decide) (by decide)).dateOfFields_eq hday hd hw, hiso,
      IsoDate.checkLimits, if_pos hl]
  · intro hlim
    rw [hmonth, IsoDate.checkMonthLimits, if_pos hlim]
  · intro hlim
    rw [hmonth, IsoDate.checkMonthLimits, if_neg hlim]

/-- A date in the leap month, whose place and code differ. -/
theorem fields_lead_back_in_leap_month :
    (⟨2024, 2, 15⟩ : IsoDate).Valid ∧ (⟨2024, 2, 15⟩ : IsoDate).InLimits ∧
      hebrew.dateOfFields (hebrew.fieldsOf ⟨5784, 6, 6⟩
        (hebrew.fieldsFor [.day, .month, .monthCode, .year])) .reject = .ok ⟨2024, 2, 15⟩ := by
  have hv : (⟨2024, 2, 15⟩ : IsoDate).Valid := by decide
  have hl : (⟨2024, 2, 15⟩ : IsoDate).InLimits := by decide
  have hread : hebrew.read ⟨2024, 2, 15⟩ = .ok ⟨5784, 6, 6⟩ := rfl
  obtain ⟨d, -, hd, -, -, hback, -⟩ := fields_lead_back .hebrew hv hl .reject
  rw [hread, Except.ok.injEq] at hd
  rw [hd]
  exact ⟨hv, hl, hback⟩

end Calendar

end Almanac
