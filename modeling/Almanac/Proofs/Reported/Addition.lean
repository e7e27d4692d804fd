import Almanac.Proofs.Reported.Fields
import Almanac.Proofs.Rounding.Measured
import Almanac.Proofs.Stations

/-!
# Additions and failures that are reported

A duration is small against a word, so that whatever days are counted on the way from a represented
date lie within one. A date that is moved, and a month, by whichever treatment of overflow, is
therefore given or refused with a report.

* `Calendar.MovesInWords`, `Calendar.movesInWords`: **what is counted when a date is moved** by a
  small span.
* `Calendar.eq_of_shiftYears`: the month that a number of years leads to, if no leap month is
  refused there.
* `Calendar.reports_addByMonths`, `Calendar.reports_add`: **a date moved by a small span** is
  reported.
* `YearMonth.reports_add`: **a month moved by a duration** is reported.
-/

namespace Almanac

open Shown (IsOverlong)

variable {free : Nat}

namespace Calendar

variable {c : Calendar} {iso reached : IsoDate} {span : DateSpan} {overflow : Overflow}

/-- A day of a month is counted, days are counted on from it, and the date is taken that they lead
to, all without leaving a word. A calendar that follows the ISO calendar counts the days on as days
of the month. -/
structure CountsOn (c : Calendar) (i day days : Int) : Prop where
  day_eq : c.toEpochDay ⟨(c.monthOfIndex i).1, (c.monthOfIndex i).2, day⟩ =
    .ok (c.monthStart i + (day - 1))
  days_eq : c.followsIso = true →
    Iso.toEpochDay ((c.monthOfIndex i).1 - c.yearOffset) (c.monthOfIndex i).2 (day + days) =
      .ok (c.monthStart i + (day - 1) + days)
  date_eq : IsoDate.ofEpochDay? (c.monthStart i + (day - 1) + days) =
    .ok (.ofEpochDay (c.monthStart i + (day - 1) + days))

/-- Whatever is counted when a date is moved by a span stays within a word: the date, and then the
weeks and days from whichever day of the month that its years and months lead to. -/
structure MovesInWords (c : Calendar) (origin : IsoDate) (span : DateSpan) : Prop where
  origin_eq : origin.toEpochDay = .ok origin.count
  countsOn : ∀ day, 1 ≤ day → day ≤ c.monthLength (c.indexAfter origin span) →
    c.CountsOn (c.indexAfter origin span) day span.dayCount

/-- **A small span moves a represented date** within words. -/
theorem movesInWords (hv : iso.Valid) (hl : Iso.MonthInLimits iso.year iso.month)
    (hspan : span.Small) : c.MovesInWords iso span := by
  refine ⟨IsoDate.toEpochDay_eq hv hl, fun day hone hlast => ?_⟩
  have hdate : c.HasDate ⟨(c.monthOfIndex (c.indexAfter iso span)).1,
      (c.monthOfIndex (c.indexAfter iso span)).2, day⟩ :=
    ⟨(c.monthOfIndex_spec _).1, hone, hlast⟩
  have hyear := yearInWords_of_small (c := c) hv hl hspan
  have hstart := monthStart_monthAfter_le (c := c) hv hl hspan
  have hlen := c.monthLength_le (c.indexAfter iso span)
  have hdays := hspan.days
  rw [indexAfter] at *
  generalize hi : c.monthAfter (c.dateOf iso).year (c.dateOf iso).month span.years span.months =
    i at *
  have hword : fitsWord (c.monthStart i + (day - 1) + span.dayCount) = true := by
    rw [fitsWord_iff]
    omega
  refine ⟨?_, fun hiso => ?_, if_pos hword⟩
  · rw [toEpochDay_eq hdate (hyear.countable hv hi.symm hdate), epochDay_eq]
    rfl
  · have hfits := hyear hiso
    rw [dateOf, if_pos hiso] at hi
    rw [later_of_followsIso hiso hv span.years span.months hi.symm] at hfits
    have hm := (c.monthOfIndex_spec i).1
    have hmonth := hm.2
    rw [monthsInYear_of_followsIso hiso] at hmonth
    have hcount : Iso.epochDay ((c.monthOfIndex i).1 - c.yearOffset) (c.monthOfIndex i).2
      (day + span.dayCount) =
        c.monthStart i + (day - 1) + span.dayCount := by
      have h :=
        count_of_followsIso hiso (c.monthOfIndex i).1 (c.monthOfIndex i).2 (day + span.dayCount)
      rw [epochDay_eq, add_sub_right_comm, ← Int.add_assoc] at h
      exact h
    have hnear :=
      IsoDate.nearWord_first (d := ⟨(c.monthOfIndex i).1 - c.yearOffset, (c.monthOfIndex i).2, 1⟩)
        ⟨hm.1, hmonth⟩ hfits
    have hon : fitsWord (day + span.dayCount - 1) = true ∧ day + span.dayCount - 1 ≠ noTime := by
      rw [fitsWord_iff, noTime]
      omega
    rw [Iso.toEpochDay_near ⟨hm.1, hmonth⟩ hnear hon.1 hon.2, hcount, toWord_of_fitsWord hword]

/-- The years of the months that a small span leads to have few digits. -/
theorem year_indexAfter_le (hv : iso.Valid) (hl : Iso.MonthInLimits iso.year iso.month)
    (hspan : span.Small) :
    (c.monthOfIndex (c.indexAfter iso span)).1.natAbs ≤ 20000000000000 := by
  have hyear := natAbs_year_le (c.monthOfIndex_spec (c.indexAfter iso span)).1
  have hstart := monthStart_monthAfter_le (c := c) hv hl hspan
  rw [(c.monthOfIndex_spec _).2, indexAfter] at hyear
  rw [indexAfter]
  omega

theorem reports_shiftYears {year month years : Int} (h : ¬ IsOverlong (year + years))
    (overflow : Overflow) :
    Reports free (c.shiftYears year month years overflow) := by
  unfold shiftYears
  split
  · exact reports_ok _
  · exact reports_map_iff.2 (monthOfCode_reports_iff.2 fun hrefused => h hrefused.2.2.2.2)

/-- The month that a code names in a year, if it is not refused. -/
theorem eq_of_monthOfCode {year month : Int} {code : MonthCode} {written : String}
    (h : c.monthOfCode year code written overflow = .ok month) :
    month = placeOfCode (c.isHebrewLeap year) code := by
  unfold monthOfCode monthOfCodeWhere at h
  split at h
  · cases h
  · split at h
    · cases h
    · exact (Except.ok.inj h).symm

/-- **The month that years lead to**, whichever treatment of overflow, if no leap month is refused
there. -/
theorem eq_of_shiftYears {year month years : Int} {p : Int × Int} (hm : c.HasMonth year month)
    (h : c.shiftYears year month years overflow = .ok p) :
    p = (year + years, c.monthOfCodeIn (c.monthCode year month) (year + years)) := by
  unfold shiftYears at h
  split at h
  · next hzero =>
    obtain rfl := Except.ok.inj h
    rw [hzero, Int.add_zero, monthOfCodeIn_monthCode hm rfl]
  · obtain ⟨m, hcode, rfl⟩ := map_eq_ok h
    rw [monthOfCodeIn_eq (hasMonthCode_monthCode hm), eq_of_monthOfCode hcode]

theorem reports_regulateDay {year month day : Int} (hyear : ¬ IsOverlong year)
    (hday : ¬ IsOverlong day) (overflow : Overflow) :
    Reports free (c.regulateDay year month day overflow) := by
  unfold regulateDay
  split
  · split
    · exact reports_error_of_writable rfl (by simp [Error.wording, hyear, hday])
    · exact reports_ok _
  · exact reports_ok _

/-- A day is refused only if its month has it not and it may not be cut off. -/
theorem of_regulateDay_eq_error {year month day : Int} {e : Error}
    (h : c.regulateDay year month day overflow = .error e) :
    overflow = .reject ∧ c.daysInMonth year month < day := by
  unfold regulateDay at h
  split at h
  · next hlong =>
    cases overflow with
    | reject => exact ⟨rfl, hlong⟩
    | constrain => cases h
  · cases h

/-- The refusal of a day is reported, where years are small. -/
theorem reports_dayRefusal {α : Type} {year month day : Int} (hm : c.HasMonth year month)
    (hyear : year.natAbs ≤ 20000000000000) (hone : 1 ≤ day) (hday : day ≤ 31) :
    Reports free (.error (c.dayRefusal year month day) : Except Error α) := by
  have hoffset : c.yearOffset.natAbs ≤ 1911 := by cases c <;> decide
  have hmonths := c.monthsInYear_bounds year
  obtain ⟨hm₁, hm₂⟩ := hm
  have hshort : ¬ IsOverlong day := Shown.not_isOverlong (by omega)
  unfold dayRefusal
  split
  · have hisoYear : ¬ IsOverlong (year - c.yearOffset) := Shown.not_isOverlong (by omega)
    have hmonth : ¬ IsOverlong month := Shown.not_isOverlong (by omega)
    exact IsoDate.reports_invalid_iff (d := ⟨_, _, _⟩) |>.2 ⟨hisoYear, hmonth, hshort⟩
  · have hcalendarYear : ¬ IsOverlong year := Shown.not_isOverlong (by omega)
    exact reports_error_of_writable rfl (by simp [Error.wording, hcalendarYear, hshort])

/-- **By the months of the calendar** a represented date is moved by a small span with a report: the
years may be refused, or the day, but every day is counted. -/
theorem reports_addByMonths (hv : iso.Valid) (hl : iso.InLimits) (hspan : span.Small)
    (overflow : Overflow) : Reports free (c.addByMonths iso span overflow) := by
  have hml := IsoDate.monthInLimits_of_inLimits hl
  have hd := hasDate_dateOf (c := c) hv
  have hdayle : (c.dateOf iso).day ≤ 31 := hd.2.2.trans (c.daysInMonth_le _ _)
  have hone : 1 ≤ (c.dateOf iso).day := hd.2.1
  have hyear := natAbs_year_le hd.1
  have hstart := monthStart_bounds (c := c) hv hml
  have hyears := hspan.years
  have hreached := year_indexAfter_le (c := c) hv hml hspan
  have hmoves := movesInWords (c := c) hv hml hspan
  unfold addByMonths
  rw [read_eq hv hml]
  -- the years may lead to no month, and the month may not have the day
  apply (reports_shiftYears (Shown.not_isOverlong (by omega)) overflow).bind
  intro p hp
  obtain rfl := eq_of_shiftYears hd.1 hp
  dsimp only
  rw [shiftMonths_years hd.1, ← indexAfter]
  apply (reports_regulateDay (Shown.not_isOverlong (by omega))
    (Shown.not_isOverlong (by omega)) overflow).bind
  intro day hday
  -- but every day of the month is counted
  obtain ⟨-, hfirst, hlast⟩ := hasDate_of_regulateDay (c.monthOfIndex_spec _).1 hone hday
  have hcounts := hmoves.countsOn day hfirst hlast
  rw [hcounts.day_eq]
  apply (reports_of_eq_ok hcounts.date_eq).bind
  intro reached hreached
  exact IsoDate.reports_checkLimits (IsoDate.isShort_of_ofEpochDay? hreached)

/-- **A represented date is moved** by a small span with a report. -/
theorem reports_add (hv : iso.Valid) (hl : iso.InLimits) (hspan : span.Small)
    (overflow : Overflow) :
    Reports free (c.add iso span overflow) := by
  have hml := IsoDate.monthInLimits_of_inLimits hl
  by_cases hiso : c.followsIso
  · -- a day that is regulated leads on, and one that is refused is refused as an ISO date
    have hd := hasDate_dateOf (c := c) hv
    have hkept := keepsMonth_of_followsIso hiso span.years overflow
    have hmoves := movesInWords (c := c) hv hml hspan
    cases hday :
      c.regulateDay (c.monthOfIndex (c.indexAfter iso span)).1
      (c.monthOfIndex (c.indexAfter iso span)).2
        (c.dateOf iso).day overflow with
    | ok day =>
      obtain ⟨-, hfirst, hlast⟩ := hasDate_of_regulateDay (c.monthOfIndex_spec _).1 hd.2.1 hday
      rw [add_eq_checkLimits hv hml hspan hkept rfl hday]
      exact IsoDate.reports_checkLimits
        (IsoDate.isShort_of_ofEpochDay? (hmoves.countsOn day hfirst hlast).date_eq)
    | error e =>
      obtain ⟨rfl, hlong⟩ := of_regulateDay_eq_error hday
      rw [add_eq_error hv hml hkept rfl hlong]
      exact reports_dayRefusal (c.monthOfIndex_spec _).1 (year_indexAfter_le hv hml hspan)
        hd.2.1 (hd.2.2.trans (c.daysInMonth_le _ _))
  · rw [add, if_neg hiso]
    exact reports_addByMonths hv hl hspan overflow

end Calendar

namespace YearMonth

theorem isShort_start (ym : YearMonth) : ym.start.IsShort :=
  Calendar.isShort_isoOf ym.fitsWord_first

theorem isShort_nextStart (ym : YearMonth) : ym.nextStart.IsShort := by
  have hstart := Calendar.monthStart_bounds (c := ym.calendar) ym.valid ym.inLimits
  have hlen := ym.calendar.monthLength_le ym.index
  apply IsoDate.isShort_of_fitsWord (IsoDate.ofEpochDay_spec _).1
  rw [IsoDate.count_ofEpochDay, Calendar.monthStart_succ, fitsWord_iff]
  have hone := ym.calendar.one_le_monthLength ym.index
  rw [index] at hlen hone ⊢
  rw [reading] at hlen hone ⊢
  omega

/-- From a represented day, a small span leads to a month with a report. -/
theorem reports_from {c : Calendar} {origin : IsoDate} {span : DateSpan} (hv : origin.Valid)
    (hl : origin.InLimits) (hspan : span.Small) (overflow : Overflow) :
    Reports free (do
      let reached ← c.add origin span overflow
      ofFields c (c.fieldsOf (c.dateOf reached) (c.fieldsFor [.monthCode, .year])) overflow) := by
  apply (Calendar.reports_add hv hl hspan overflow).bind
  intro reached hreached
  exact reports_ofFields_dateOf c (Calendar.valid_of_add hreached)
    (IsoDate.monthInLimits_of_inLimits (Calendar.inLimits_of_add hreached)) (by decide)
      (by decide) overflow

/-- **A month is moved by a duration** with a report, whichever day of it has to be found on the
way. -/
theorem reports_add (ym : YearMonth) (d : Duration) (overflow : Overflow) :
    Reports free (ym.add d overflow) := by
  unfold add
  rw [firstDay_eq]
  apply (IsoDate.reports_checkLimits ym.isShort_start).bind
  intro first hfirst
  obtain ⟨rfl, hl⟩ := IsoDate.checkLimits_eq_ok hfirst
  dsimp only
  split
  · rw [lastDayFrom_eq hl]
    apply (reports_map_iff.2 (IsoDate.reports_checkLimits ym.isShort_nextStart)).bind
    intro last hlast
    obtain ⟨next, hnext, rfl⟩ := map_eq_ok hlast
    obtain ⟨-, hlnext⟩ := IsoDate.checkLimits_eq_ok hnext
    exact reports_from ym.valid_finish (inLimits_finish hl hlnext) d.small_spanOfDays overflow
  · exact reports_from ym.valid_start hl d.small_spanOfDays overflow

end YearMonth

end Almanac
