import Almanac.Proofs.Between

/-!
# The arithmetic of the ISO calendar as a refinement

The calendars that follow the ISO calendar have two arithmetics: that of any calendar, on running
month numbers and month codes, and that of ISO dates, on years and months that are carried. The
second one refines the first: both move a date to where the span leads (`Calendar.Reaches`), and
both measure a difference that is determined by what it is (`Calendar.Measures`).

* `Calendar.addByMonths_eq_ok_iff`: the same date is reached, or none.
* `Calendar.exists_difference_both`: the same difference is measured, and one is.
* `Calendar.iso_arithmetic_refines`: **both arithmetics agree**.
-/

namespace Almanac.Calendar

variable {c : Calendar}

/-- The months of the calendar lead to the date that those of the ISO calendar lead to. -/
theorem addByMonths_eq_ok_iff (hiso : c.followsIso) {iso reached : IsoDate} {span : DateSpan}
    {overflow : Overflow} (hv : iso.Valid) (hl : iso.InLimits) (hyear : c.YearInWords iso span) :
    c.addByMonths iso span overflow = .ok reached ↔ c.add iso span overflow = .ok reached :=
  ⟨fun h => isoAdd_of_reaches hiso hv hyear
      (reaches_of_addByMonths hv (IsoDate.fitsWord_of_date hv hl)
        (keepsMonth_of_followsIso hiso _ _) hyear h),
    fun h => addByMonths_of_reaches hv hl (keepsMonth_of_followsIso hiso _ _) hyear
      (reaches_of_isoAdd hiso hv hyear h)⟩

section

variable {one two : IsoDate} {largest : TimeUnit}

/-- Years and months are measured alike. -/
theorem exists_difference_of_months (hiso : c.followsIso) (hv : one.Valid) (hv' : two.Valid)
    (hl : one.InLimits) (hl' : two.InLimits) (hunit : largest = .year ∨ largest = .month) :
    ∃ span, c.differenceByMonths one two largest = .ok span ∧
      one.difference two largest = .ok span := by
  obtain ⟨span, hspan⟩ := exists_differenceByMonths c hv hv' hl hl' hunit
  obtain ⟨span', hspan'⟩ := exists_isoDifference hiso hv hv' hl hl' hunit
  suffices heq : span = span' from ⟨span, hspan, heq ▸ hspan'⟩
  by_cases hzero : two.compare one = 0
  · rw [differenceByMonths, if_pos hzero] at hspan
    rw [IsoDate.difference, if_pos hzero] at hspan'
    exact Except.ok.inj (hspan.symm.trans hspan')
  · have hs := (IsoDate.compare_cases two one).resolve_left hzero
    have hy := IsoDate.yearFits_of_inLimits hl
    have hy' := IsoDate.yearFits_of_inLimits hl'
    have hmeasures := measures_differenceByMonths hv hv' hy hy' hzero hunit hspan
    have hmeasures' := measures_isoDifference hiso hv hv' hy hy' hzero hunit hspan'
    exact hmeasures.eq hs (hasDate_dateOf hv).hasMonthOf hmeasures'

/-- One difference of two dates is measured in both ways. -/
theorem exists_difference_both (hiso : c.followsIso) (hv : one.Valid) (hv' : two.Valid)
    (hl : one.InLimits) (hl' : two.InLimits) (hunit : largest.isDateUnit = true) :
    ∃ span, c.differenceByMonths one two largest = .ok span ∧
      one.difference two largest = .ok span := by
  rcases TimeUnit.of_isDateUnit hunit with hmonths | hdays
  · exact exists_difference_of_months hiso hv hv' hl hl' hmonths
  · exact ⟨_, differenceByMonths_of_days c hv hv' hl hl' hdays,
      isoDifference_of_days hv hv' hl hl' hdays⟩

end

/-- **The arithmetic of the ISO calendar refines that of the calendars.** In a calendar that follows
the ISO calendar the two move a represented date by any span to the same date, or both refuse it,
and they measure the same difference of two represented dates in years, months, weeks or days. The
year that a span leads to is one whose days can be counted in a word. -/
theorem iso_arithmetic_refines (hiso : c.followsIso) :
    (∀ (iso : IsoDate) (span : DateSpan) (overflow : Overflow), iso.Valid → iso.InLimits →
      fitsWord (366 * ((iso.yearsLater span.years).monthsLater span.months).year) = true →
      ∀ reached, c.addByMonths iso span overflow = .ok reached ↔
        c.add iso span overflow = .ok reached) ∧
    ∀ (one two : IsoDate) (largest : TimeUnit),
      one.Valid → one.InLimits → two.Valid → two.InLimits → largest.isDateUnit = true →
      ∃ span, c.differenceByMonths one two largest = .ok span ∧
        c.difference one two largest = .ok span := by
  constructor
  · intro iso span overflow hv hl hyear reached
    exact addByMonths_eq_ok_iff hiso hv hl fun _ => hyear
  · intro one two largest hv hl hv' hl' hunit
    obtain ⟨span, hspan, hspan'⟩ := exists_difference_both hiso hv hv' hl hl' hunit
    refine ⟨span, hspan, ?_⟩
    rw [difference, if_pos hiso, hspan']

/-- A leap day moved back to a year before the epoch, and the way back from the end of a longer
month. -/
theorem iso_arithmetic_refines_on_leap_day :
    (roc.addByMonths ⟨2024, 2, 29⟩ { years := -113, days := -40 } .constrain = .ok ⟨1911, 1, 19⟩ ∧
      roc.add ⟨2024, 2, 29⟩ { years := -113, days := -40 } .constrain = .ok ⟨1911, 1, 19⟩) ∧
    ∃ span, roc.differenceByMonths ⟨2024, 3, 31⟩ ⟨2023, 2, 28⟩ .year = .ok span ∧
      roc.difference ⟨2024, 3, 31⟩ ⟨2023, 2, 28⟩ .year = .ok span := by
  have hroc : Calendar.roc.followsIso := rfl
  have hreached : roc.addByMonths ⟨2024, 2, 29⟩ { years := -113, days := -40 } .constrain =
      .ok ⟨1911, 1, 19⟩ := rfl
  refine ⟨⟨hreached, ?_⟩, ?_⟩
  · exact ((iso_arithmetic_refines hroc).1 _ _ _ (by decide) (by decide) (by decide) _).1 hreached
  · exact (iso_arithmetic_refines hroc).2 _ _ _ (by decide) (by decide) (by decide) (by decide) rfl

end Almanac.Calendar
