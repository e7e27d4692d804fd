import Almanac.Proofs.Between

/-!
# Differences of first days

A difference of the first days of two months has years and months alone, and these lead from the one
month to the other. This does not depend on how far the dates are. Where the days to a date are
reduced to a word, a calendar may read another date, but it measures and adds from what it reads, so
that the years and months lead to the day count that the second date has, be it reduced or not.

* `Calendar.monthsBetween_of_day`: the months between two dates with the same day of the month.
* `Calendar.difference_firstDays`: **the difference of two first days**.
* `Calendar.add_firstDays`: **years and months between two first days**, added to the first one.
-/

namespace Almanac.Calendar

variable {c : Calendar} {one two reached : IsoDate} {start target : YearMonthDay}
  {sign year month year' month' years months : Int} {largest : TimeUnit} {span : DateSpan}

/-- A calendar that follows the ISO calendar reads a date with its own count of years. -/
theorem shiftYear_of_read (hiso : c.followsIso) (h : c.read one = .ok start) :
    c.shiftYear one = start := by
  rwa [read, if_pos hiso, Except.ok.injEq] at h

/-- What is read is a date, also where the days to it have been reduced to a word. -/
theorem hasDate_of_read (hv : one.Valid) (h : c.read one = .ok start) : c.HasDate start := by
  by_cases hiso : c.followsIso
  · obtain rfl := shiftYear_of_read hiso h
    exact (hasDate_shiftYear_iff hiso).2 hv
  · rw [read, if_neg hiso] at h
    obtain ⟨n, -, rfl⟩ := map_eq_ok h
    exact (c.dateOfEpochDay_spec n).1

/-- A calendar with days of its own reads a date by its day count. -/
theorem toEpochDay_of_read (hiso : ¬ c.followsIso = true) (h : c.read one = .ok start) :
    one.toEpochDay = .ok (c.epochDay start) := by
  rw [read, if_neg hiso] at h
  obtain ⟨n, hn, rfl⟩ := map_eq_ok h
  rw [(c.dateOfEpochDay_spec n).2, hn]

/-- The first day that a calendar which follows the ISO calendar has read, by its month. -/
theorem eq_of_read (hiso : c.followsIso) (h : c.read one = .ok ⟨year, month, 1⟩) {i : Int}
    (hm : c.HasMonth year month) (hi : i = c.monthIndex year month) :
    one = ⟨(c.monthOfIndex i).1 - c.yearOffset, (c.monthOfIndex i).2, 1⟩ := by
  obtain ⟨rfl, rfl, hday⟩ := YearMonthDay.mk.inj (shiftYear_of_read hiso h)
  rw [hi, monthOfIndex_monthIndex hm, ← hday]
  simp only [Int.add_sub_cancel]

/-- **The months between two dates with the same day of the month** are those between their months,
whichever of the two is earlier. -/
theorem monthsBetween_of_day (hs : sign = 1 ∨ sign = -1) (h : c.HasMonthOf start)
    (h' : c.HasMonthOf target) (hday : start.day = target.day) :
    c.monthsBetween sign start target =
      c.monthIndex target.year target.month - c.monthIndex start.year start.month := by
  unfold monthsBetween
  refine furthest_near hs (fun k => ?_) (.inl rfl)
  rw [Bool.not_eq_true', surpasses_eq_false_iff hs (hasMonthOf_monthsLater h k) h',
    position_monthsLater, position, position, hday]
  rcases hs with rfl | rfl <;> omega

/-- The last months after some years, between two first days, are all of the way. -/
theorem monthAfter_of_isLast (hs : sign = 1 ∨ sign = -1) (hm : c.HasMonth year month)
    (hlast : IsLast (fun k => c.position (c.monthsLater (c.yearsLater ⟨year, month, 1⟩ years) k))
      sign (c.position ⟨year', month', 1⟩) months) :
    c.monthAfter year month years months = c.monthIndex year' month' := by
  obtain ⟨-, hwithin, hbeyond⟩ := hlast
  simp only [position_later (hasDate_first hm).hasMonthOf] at hwithin hbeyond
  rw [monthAfter_eq_add] at hwithin hbeyond ⊢
  simp only [position] at hwithin hbeyond
  rcases hs with rfl | rfl <;> omega

section

variable (hs : sign = 1 ∨ sign = -1) (hm : c.HasMonth year month) (hm' : c.HasMonth year' month')
include hs hm hm'

/-- What is measured on the months of a calendar with days of its own. -/
theorem yearsMonthsDays_firstDays (hiso : ¬ c.followsIso = true) {wantYears : Bool}
    (hspan : c.yearsMonthsDays sign ⟨year, month, 1⟩ ⟨year', month', 1⟩
      (c.epochDay ⟨year', month', 1⟩) wantYears = .ok span) :
    c.monthAfter year month span.years span.months = c.monthIndex year' month' ∧
      span.weeks = 0 ∧ span.days = 0 := by
  obtain ⟨n, hn, rfl⟩ := map_eq_ok hspan
  generalize (if wantYears = true then
    c.yearsBetween sign ⟨year, month, 1⟩ ⟨year', month', 1⟩ else 0) = years at *
  have hbase := hasMonthOf_yearsLater (hasDate_first hm).hasMonthOf years
  have hday : (c.yearsLater ⟨year, month, 1⟩ years).day = 1 := by rw [yearsLater_eq hm]
  obtain ⟨months, hmonths, hleads⟩ : ∃ months,
      c.monthsBetween sign (c.yearsLater ⟨year, month, 1⟩ years) ⟨year', month', 1⟩ = months ∧
        c.monthAfter year month years months = c.monthIndex year' month' := by
    refine ⟨_, monthsBetween_of_day hs hbase (hasDate_first hm').hasMonthOf hday, ?_⟩
    rw [yearsLater_eq hm, monthAfter_eq_add, monthAfter_years]
    exact add_sub_cancel _ _
  have hlater :
      c.monthsLater (c.yearsLater ⟨year, month, 1⟩ years) months = ⟨year', month', 1⟩ := by
    rw [monthsLater_yearsLater (hasDate_first hm).1 years months hleads.symm,
      monthOfIndex_monthIndex hm']
  rw [hmonths] at hn ⊢
  simp only [hlater, min_eq_left (one_le_daysInMonth hm'), toEpochDay, if_neg hiso] at hn
  obtain rfl := Except.ok.inj hn
  exact ⟨hleads, rfl, sub_self _⟩

end

section

variable (hv : one.Valid) (hv' : two.Valid) (hone : c.read one = .ok ⟨year, month, 1⟩)
  (htwo : c.read two = .ok ⟨year', month', 1⟩)
include hv hv' hone htwo

theorem differenceByMonths_firstDays (hiso : ¬ c.followsIso = true) (hne : two.compare one ≠ 0)
    (hl : largest = .year ∨ largest = .month)
    (hspan : c.differenceByMonths one two largest = .ok span) :
    c.monthAfter year month span.years span.months = c.monthIndex year' month' ∧
      span.weeks = 0 ∧ span.days = 0 := by
  have hs := (IsoDate.compare_cases two one).resolve_left hne
  have hd := hasDate_of_read hv hone
  have hd' := hasDate_of_read hv' htwo
  simp only [differenceByMonths, if_neg hne, toEpochDay_of_read hiso hone,
    toEpochDay_of_read hiso htwo, ofEpochDay, if_neg hiso, dateOfEpochDay_epochDay hd,
    dateOfEpochDay_epochDay hd', bind, Except.bind] at hspan
  rcases hl with rfl | rfl
  · exact yearsMonthsDays_firstDays hs hd.1 hd'.1 hiso hspan
  · exact yearsMonthsDays_firstDays hs hd.1 hd'.1 hiso hspan

theorem isoDifference_firstDays (hiso : c.followsIso) (hne : two.compare one ≠ 0)
    (hl : largest = .year ∨ largest = .month) (hspan : one.difference two largest = .ok span) :
    c.monthAfter year month span.years span.months = c.monthIndex year' month' ∧
      span.weeks = 0 ∧ span.days = 0 := by
  have hs := (IsoDate.compare_cases two one).resolve_left hne
  have hd := hasDate_of_read hv hone
  have hd' := hasDate_of_read hv' htwo
  have hshift := shiftYear_of_read hiso hone
  have hshift' := shiftYear_of_read hiso htwo
  have hnear := (position_lt_of_compare (c := c) hv hv' hne).le
  rw [dateOf, dateOf, if_pos hiso, if_pos hiso] at hnear
  obtain ⟨-, hmonths⟩ := isoYearsMonths_isLast hiso hs (hshift ▸ hd.hasMonthOf)
    (hshift' ▸ hd'.hasMonthOf) hnear
  rw [hshift, hshift'] at hmonths
  have hleads := monthAfter_of_isLast hs hd.1 hmonths
  simp only [IsoDate.difference, if_neg hne, IsoDate.wholeMonths, if_pos hl] at hspan
  obtain ⟨last, hlast, hspan⟩ := bind_eq_ok hspan
  obtain ⟨reached, hreached, hspan⟩ := bind_eq_ok hspan
  obtain rfl := Except.ok.inj hspan
  generalize one.yearsBetween (two.compare one) two = years at *
  generalize (one.yearsLater years).monthsBetween (two.compare one) two = months at *
  -- the first day that the years and months lead to is the second one itself
  obtain ⟨rfl, rfl, hday⟩ := YearMonthDay.mk.inj hshift
  have hsame : one.shift years months = two := by
    rw [shift_of_followsIso hiso hv years months hleads.symm, hday,
      min_eq_left (c.one_le_monthLength _)]
    exact (eq_of_read hiso htwo hd'.1 rfl).symm
  rw [hsame, hlast, Except.ok.injEq] at hreached
  rcases hl with rfl | rfl
  · exact ⟨hleads, rfl, sub_eq_zero.2 hreached⟩
  · refine ⟨?_, rfl, sub_eq_zero.2 hreached⟩
    rw [← hleads, monthAfter_of_followsIso hiso hd.1, monthAfter_of_followsIso hiso hd.1]
    simp only [IsoDate.spanOf]
    ring

/-- **The difference of two first days** has neither weeks nor days, and its years and months lead
from the one month to the other. -/
theorem difference_firstDays (hl : largest = .year ∨ largest = .month)
    (hspan : c.difference one two largest = .ok span) :
    c.monthAfter year month span.years span.months = c.monthIndex year' month' ∧
      span.weeks = 0 ∧ span.days = 0 := by
  by_cases hne : two.compare one = 0
  · obtain rfl := IsoDate.compare_eq_zero_iff.1 hne
    obtain ⟨rfl, rfl, -⟩ := YearMonthDay.mk.inj (Except.ok.inj (hone.symm.trans htwo))
    obtain rfl : {} = span := by rwa [difference_self, Except.ok.injEq] at hspan
    exact ⟨(monthAfter_zero (hasDate_of_read hv hone).1 0).trans (Int.add_zero _), rfl, rfl⟩
  · unfold difference at hspan
    split at hspan
    · next hiso => exact isoDifference_firstDays hv hv' hone htwo hiso hne hl hspan
    · next hiso => exact differenceByMonths_firstDays hv hv' hone htwo hiso hne hl hspan

/-- **Years and months between two first days**, added to the first one, lead to the day count that
the second one has. -/
theorem add_firstDays (hleads : c.monthAfter year month span.years span.months =
      c.monthIndex year' month') (hdays : span.dayCount = 0)
    (h : c.add one span .constrain = .ok reached) :
    reached.toEpochDay = two.toEpochDay := by
  have hvalid := valid_of_add h
  have hlimits := inLimits_of_add h
  have hd := hasDate_of_read hv hone
  have hd' := hasDate_of_read hv' htwo
  have hlen := one_le_daysInMonth hd'.1
  rw [IsoDate.toEpochDay_eq hvalid (IsoDate.monthInLimits_of_inLimits hlimits)]
  by_cases hiso : c.followsIso
  · obtain ⟨rfl, rfl, hday⟩ := YearMonthDay.mk.inj (shiftYear_of_read hiso hone)
    obtain ⟨day, hregulated, hbalance, -⟩ := (isoAdd_eq_ok_iff hiso hv hleads.symm).1 h
    rw [monthOfIndex_monthIndex hd'.1, regulateDay_constrain, hday, min_eq_left hlen,
      Except.ok.injEq] at hregulated
    rw [← hregulated, hdays, Int.add_zero, ← eq_of_read hiso htwo hd'.1 rfl] at hbalance
    obtain ⟨n, hn, hreached⟩ := bind_eq_ok hbalance
    rw [hn, IsoDate.ofEpochDay?_eq_ok hreached, IsoDate.count_ofEpochDay]
  · rw [add, if_neg hiso, addByMonths, hone] at h
    simp only [bind, Except.bind, shiftYears_eq (.inl rfl) hd.1, shiftMonths_years hd.1, hleads,
      monthOfIndex_monthIndex hd'.1, regulateDay_constrain, min_eq_left hlen, toEpochDay,
      if_neg hiso, hdays, Int.add_zero] at h
    obtain ⟨e, he, h⟩ := bind_eq_ok h
    obtain ⟨rfl, -⟩ := IsoDate.checkLimits_eq_ok h
    rw [IsoDate.ofEpochDay?_eq_ok he, IsoDate.count_ofEpochDay, toEpochDay_of_read hiso htwo]

end

end Almanac.Calendar
