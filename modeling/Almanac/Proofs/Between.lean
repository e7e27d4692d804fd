import Almanac.Proofs.Position

/-!
# The years and months between two dates

Each search of a difference ends at the last years or months that do not lead past the target, and
the days are what is left from there. So a difference is determined, and the two ways of measuring
it in the calendars that follow the ISO calendar come to one result.

* `Calendar.yearsBetween_spec`, `Calendar.monthsBetween_spec`, `Calendar.isoMonthsBetween_isLast`:
  the searches.
* `Calendar.Measures`: what the difference of two dates has to be; `Calendar.Measures.eq`: **it is
  determined**.
* `Calendar.measures_differenceByMonths`, `Calendar.measures_isoDifference`: **both ways of
  measuring** give such a difference, and so does `Calendar.measures_difference`.
-/

namespace Almanac

/-- The units in which dates are measured: those of the months, and those of the days. -/
theorem TimeUnit.of_isDateUnit {unit : TimeUnit} (h : unit.isDateUnit = true) :
    (unit = .year ∨ unit = .month) ∨ (unit = .week ∨ unit = .day) := by
  revert h
  cases unit <;> decide

namespace Calendar

variable {c : Calendar} {year month year' month' sign : Int} {start target : YearMonthDay}

/-- The last year that does not lead past a date is that of the date or the one before. -/
theorem exists_last_year (hs : sign = 1 ∨ sign = -1) (h : c.HasMonthOf start)
    (h' : c.HasMonthOf target) (hnear : sign * c.position start ≤ sign * c.position target)
    {gap : Int} (hgap : gap = target.year - start.year) :
    ∃ last, (last = gap ∨ last = gap - sign ∧ gap ≠ 0) ∧
      IsLast (fun k => c.position (c.yearsLater start k)) sign (c.position target) last := by
  have hlt := monthIndex_lt_iff h.month h'.month
  have hgt := monthIndex_lt_iff h'.month h.month
  have hbefore := monthAfter_lt_of_year h.month h'.month (gap - sign)
  have hbeyond := monthAfter_lt_of_year h.month h'.month (gap + sign)
  have hday := h.one_le_day
  have hday' := h.day_le
  have htarget := h'.one_le_day
  have htarget' := h'.day_le
  have hstart : c.position (c.yearsLater start 0) = c.position start := by
    rw [yearsLater, if_pos rfl]
  -- a year before that of the target is before the target, and a year after it is past the target
  refine exists_isLast hs ?_ ?_ ?_ ?_
  · simp only [position] at hnear
    rcases hs with rfl | rfl <;> omega
  · simpa only [hstart] using hnear
  · simp only [position_yearsLater h]
    rw [position]
    rcases hs with rfl | rfl <;> omega
  · simp only [position_yearsLater h]
    rw [position]
    rcases hs with rfl | rfl <;> omega

/-- The last year decides which years lead past the target. -/
theorem yearsLater_within_iff (hs : sign = 1 ∨ sign = -1) (h : c.HasMonthOf start)
    (h' : c.HasMonthOf target) {last : Int}
    (hlast : IsLast (fun k => c.position (c.yearsLater start k)) sign (c.position target) last)
    (k : Int) :
    (!YearMonthDay.surpasses sign (c.yearsLater start k) target) = true ↔
    sign * k ≤ sign * last := by
  rw [Bool.not_eq_true', surpasses_eq_false_iff hs (hasMonthOf_yearsLater h k) h']
  exact hlast.within_iff (strictMono_yearsLater h) hs k

/-- **The years between two dates**, of which the one is not past the other, are the last that do
not lead past the target: as many as the years of the dates say, or one less. -/
theorem yearsBetween_spec (hs : sign = 1 ∨ sign = -1) (h : c.HasMonthOf start)
    (h' : c.HasMonthOf target) (hnear : sign * c.position start ≤ sign * c.position target)
    {gap : Int} (hgap : gap = target.year - start.year) :
    (c.yearsBetween sign start target = gap ∨ c.yearsBetween sign start target = gap - sign ∧
      gap ≠ 0) ∧
      IsLast (fun k => c.position (c.yearsLater start k)) sign (c.position target)
        (c.yearsBetween sign start target) := by
  obtain ⟨last, hguess, hlast⟩ := exists_last_year hs h h' hnear hgap
  subst hgap
  have hfound : c.yearsBetween sign start target = last :=
    furthest_near hs (yearsLater_within_iff hs h h' hlast) hguess
  rw [hfound]
  exact ⟨hguess, hlast⟩

theorem yearsBetween_isLast (hs : sign = 1 ∨ sign = -1) (h : c.HasMonthOf start)
    (h' : c.HasMonthOf target) (hnear : sign * c.position start ≤ sign * c.position target) :
    IsLast (fun k => c.position (c.yearsLater start k)) sign (c.position target)
      (c.yearsBetween sign start target) :=
  (yearsBetween_spec hs h h' hnear rfl).2

/-- The last month decides which months lead past the target. -/
theorem monthsLater_within_iff (hs : sign = 1 ∨ sign = -1) (h : c.HasMonthOf start)
    (h' : c.HasMonthOf target) {last : Int}
    (hlast : IsLast (fun k => c.position (c.monthsLater start k)) sign (c.position target) last)
    (k : Int) :
    (!YearMonthDay.surpasses sign (c.monthsLater start k) target) = true ↔
    sign * k ≤ sign * last := by
  rw [Bool.not_eq_true', surpasses_eq_false_iff hs (hasMonthOf_monthsLater h k) h']
  exact hlast.within_iff (strictMono_monthsLater c start) hs k

/-- The last month that does not lead past a date is that of the date or the one before. -/
theorem exists_last_month (hs : sign = 1 ∨ sign = -1) (h : c.HasMonthOf start)
    (h' : c.HasMonthOf target) (hnear : sign * c.position start ≤ sign * c.position target)
    {gap : Int}
    (hgap : gap = c.monthIndex target.year target.month - c.monthIndex start.year start.month) :
    0 ≤ sign * gap ∧ ∃ last, (last = gap ∨ last = gap - sign ∧ gap ≠ 0) ∧
      IsLast (fun k => c.position (c.monthsLater start k)) sign (c.position target) last := by
  have hday := h.one_le_day
  have hday' := h.day_le
  have htarget := h'.one_le_day
  have htarget' := h'.day_le
  have hahead : 0 ≤ sign * gap := by
    simp only [position] at hnear
    rcases hs with rfl | rfl <;> omega
  refine ⟨hahead, exists_isLast hs hahead ?_ ?_ ?_⟩
  all_goals
    simp only [position_monthsLater]
    simp only [position] at hnear ⊢
    rcases hs with rfl | rfl <;> omega

/-- **The months between two dates**, of which the one is not past the other, are the last that do
not lead past the target: as many as the running numbers of the dates say, or one less. -/
theorem monthsBetween_spec (hs : sign = 1 ∨ sign = -1) (h : c.HasMonthOf start)
    (h' : c.HasMonthOf target) (hnear : sign * c.position start ≤ sign * c.position target)
    {gap : Int}
    (hgap : gap = c.monthIndex target.year target.month - c.monthIndex start.year start.month) :
    (c.monthsBetween sign start target = gap ∨ c.monthsBetween sign start target = gap - sign ∧
      gap ≠ 0) ∧
      IsLast (fun k => c.position (c.monthsLater start k)) sign (c.position target)
        (c.monthsBetween sign start target) := by
  obtain ⟨-, last, hguess, hlast⟩ := exists_last_month hs h h' hnear hgap
  subst hgap
  have hfound : c.monthsBetween sign start target = last :=
    furthest_near hs (monthsLater_within_iff hs h h' hlast) hguess
  rw [hfound]
  exact ⟨hguess, hlast⟩

theorem monthsBetween_isLast (hs : sign = 1 ∨ sign = -1) (h : c.HasMonthOf start)
    (h' : c.HasMonthOf target) (hnear : sign * c.position start ≤ sign * c.position target) :
    IsLast (fun k => c.position (c.monthsLater start k)) sign (c.position target)
      (c.monthsBetween sign start target) :=
  (monthsBetween_spec hs h h' hnear rfl).2

/-- The years, if they are wanted, and the months from there. -/
theorem monthsBetween_isLast_of_years (hs : sign = 1 ∨ sign = -1) (h : c.HasMonthOf start)
    (h' : c.HasMonthOf target) (hnear : sign * c.position start ≤ sign * c.position target)
    {years : Int} (hyears : years = 0 ∨ years = c.yearsBetween sign start target) :
    0 ≤ sign * years ∧
      IsLast (fun k => c.position (c.monthsLater (c.yearsLater start years) k)) sign
        (c.position target) (c.monthsBetween sign (c.yearsLater start years) target) := by
  have hlast := yearsBetween_isLast hs h h' hnear
  have hbase : 0 ≤ sign * years ∧
      sign * c.position (c.yearsLater start years) ≤ sign * c.position target := by
    rcases hyears with rfl | rfl
    · rw [yearsLater, if_pos rfl, Int.mul_zero]
      exact ⟨le_rfl, hnear⟩
    · exact ⟨hlast.nonneg, hlast.within⟩
  exact ⟨hbase.1, monthsBetween_isLast hs (hasMonthOf_yearsLater h _) h' hbase.2⟩

/-- **The month that a difference leads to** lies between the months of the two dates. -/
theorem monthAfter_between (hs : sign = 1 ∨ sign = -1) (h : c.HasMonthOf start)
    (h' : c.HasMonthOf target) {years months : Int} (hyears : 0 ≤ sign * years)
    (hmonths : IsLast (fun k => c.position (c.monthsLater (c.yearsLater start years) k)) sign
      (c.position target) months) :
    sign * c.monthIndex start.year start.month ≤
      sign * c.monthAfter start.year start.month years months ∧
      sign * c.monthAfter start.year start.month years months ≤
        sign * c.monthIndex target.year target.month := by
  refine ⟨monthIndex_le_monthAfter h.month hs hyears hmonths.nonneg, ?_⟩
  have hwithin := hmonths.within
  simp only [position_later h] at hwithin
  rw [position] at hwithin
  have hday := h.one_le_day
  have hday' := h.day_le
  have htarget := h'.one_le_day
  have htarget' := h'.day_le
  rcases hs with rfl | rfl <;> omega

/-- **What the difference of two dates is**: the most years, if they are wanted, that do not lead
past the target, then the most months, and the days that are left. -/
structure Measures (c : Calendar) (sign : Int) (start target : YearMonthDay) (largest : TimeUnit)
    (span : DateSpan) : Prop where
  years_isLast : largest = .year →
    IsLast (fun k => c.position (c.yearsLater start k)) sign (c.position target) span.years
  years_eq_zero : largest ≠ .year → span.years = 0
  months_isLast :
    IsLast (fun k => c.position (c.monthsLater (c.yearsLater start span.years) k)) sign
      (c.position target) span.months
  weeks_eq_zero : span.weeks = 0
  countAfter_eq : c.countAfter start span = c.epochDay target

/-- **A difference is determined** by what it is. -/
theorem Measures.eq {largest : TimeUnit} {span span' : DateSpan} (hs : sign = 1 ∨ sign = -1)
    (hm : c.HasMonthOf start) (h : c.Measures sign start target largest span)
    (h' : c.Measures sign start target largest span') : span = span' := by
  have hyears : span.years = span'.years := by
    by_cases hl : largest = .year
    · exact (h.years_isLast hl).eq (h'.years_isLast hl) (strictMono_yearsLater hm) hs
    · rw [h.years_eq_zero hl, h'.years_eq_zero hl]
  have hmonths : span.months = span'.months := by
    have hlast := h'.months_isLast
    rw [← hyears] at hlast
    exact h.months_isLast.eq hlast (c.strictMono_monthsLater _) hs
  have hweeks : span.weeks = span'.weeks := by rw [h.weeks_eq_zero, h'.weeks_eq_zero]
  have hdays : span.days = span'.days := by
    have hcount := h.countAfter_eq.trans h'.countAfter_eq.symm
    rw [countAfter, countAfter, hyears, hmonths, DateSpan.dayCount, DateSpan.dayCount,
      hweeks] at hcount
    omega
  cases span
  cases span'
  simp_all only

/-- A date is as far from the start as its day is from the one that the years and months lead to. -/
theorem countAfter_eq_of_days {span : DateSpan} {i n reached : Int}
    (hi : i = c.monthAfter start.year start.month span.years span.months)
    (hreached : reached = c.epochDay ⟨(c.monthOfIndex i).1, (c.monthOfIndex i).2,
      min start.day (c.monthLength i)⟩) (hweeks : span.weeks = 0)
        (hdays : span.days = n - reached) :
    c.countAfter start span = n := by
  rw [epochDay_eq] at hreached
  have hreached : reached = c.monthStart i + (min start.day (c.monthLength i) - 1) := hreached
  rw [countAfter, ← hi, DateSpan.dayCount, hweeks, hdays]
  omega

/-- The nearest day of a month. -/
theorem hasDate_cut (i : Int) {day : Int} (hday : 1 ≤ day) :
    c.HasDate ⟨(c.monthOfIndex i).1, (c.monthOfIndex i).2, min day (c.monthLength i)⟩ :=
  ⟨(c.monthOfIndex_spec i).1, le_min hday (c.one_le_monthLength i), min_le_right _ _⟩

/-- The days to a month between two dates can be counted in a word, where they are. -/
def WordsBetween (c : Calendar) (sign : Int) (start target : YearMonthDay) : Prop :=
  ∀ i, sign * c.monthIndex start.year start.month ≤ sign * i →
    sign * i ≤ sign * c.monthIndex target.year target.month →
    c.followsIso → fitsWord (366 * ((c.monthOfIndex i).1 - c.yearOffset)) = true

/-- **The measure on the months of the calendar** is taken, if it does not meet a year that is
beyond a word, and it is the difference. -/
theorem measures_of_yearsMonthsDays (hs : sign = 1 ∨ sign = -1) (h : c.HasMonthOf start)
    (h' : c.HasMonthOf target) (hnear : sign * c.position start ≤ sign * c.position target)
    (hwords : c.WordsBetween sign start target) (largest : TimeUnit) :
    ∃ span, c.yearsMonthsDays sign start target (c.epochDay target) (largest = .year) = .ok span ∧
      c.Measures sign start target largest span := by
  obtain ⟨years, hyears⟩ :
      ∃ years, years = if largest = .year then c.yearsBetween sign start target else 0 := ⟨_, rfl⟩
  have hwanted : years = 0 ∨ years = c.yearsBetween sign start target := by
    rw [hyears]
    exact (ite_eq_or_eq _ _ _).symm
  obtain ⟨hnonneg, hmonths⟩ := monthsBetween_isLast_of_years hs h h' hnear hwanted
  obtain ⟨hfrom, hto⟩ := monthAfter_between hs h h' hnonneg hmonths
  obtain ⟨months, hsearched⟩ :
      ∃ months, months = c.monthsBetween sign (c.yearsLater start years) target := ⟨_, rfl⟩
  rw [← hsearched] at hmonths hfrom hto
  have hcut := hasDate_cut (c := c) (c.monthAfter start.year start.month years months) h.one_le_day
  have hreached := toEpochDay_eq hcut (countable_of_year hcut (hwords _ hfrom hto))
  simp only [yearsMonthsDays, decide_eq_true_eq, ← hyears, ← hsearched,
    monthsLater_yearsLater h.month years months rfl]
  rw [← monthLength, hreached]
  refine ⟨_, rfl, ?_, ?_, hmonths, rfl, countAfter_eq_of_days rfl rfl rfl rfl⟩
  · intro hl
    rw [hyears, if_pos hl]
    exact yearsBetween_isLast hs h h' hnear
  · intro hl
    rw [hyears, if_neg hl]

end Calendar

namespace IsoDate

/-- One date is past another in the sense of ISO dates as it is in that of dates of a calendar. -/
theorem surpasses_eq {sign : Int} (hs : sign = 1 ∨ sign = -1) (d e : IsoDate) :
    surpasses sign d e =
      YearMonthDay.surpasses sign ⟨d.year, d.month, d.day⟩ ⟨e.year, e.month, e.day⟩ := by
  have hasymm := @lt_asymm d e
  rw [Bool.eq_iff_iff, surpasses, decide_eq_true_iff]
  rcases hs with rfl | rfl
  · rw [YearMonthDay.surpasses, if_pos (by decide), decide_eq_true_iff]
    change _ ↔ e < d
    unfold compare
    split
    · next h => simp [hasymm h]
    · split <;> simp [*]
  · rw [YearMonthDay.surpasses, if_neg (by decide), decide_eq_true_iff]
    change _ ↔ d < e
    unfold compare
    split
    · next h => simp [h]
    · split <;> simp [*]

end IsoDate

namespace Calendar

variable {c : Calendar} {year month year' month' sign : Int} {one two base : IsoDate}

/-- A date is past another where both are read in a calendar that follows the ISO calendar. -/
theorem surpasses_shiftYear (c : Calendar) (hs : sign = 1 ∨ sign = -1) (d e : IsoDate) :
    YearMonthDay.surpasses sign (c.shiftYear d) (c.shiftYear e) = d.surpasses sign e := by
  rw [IsoDate.surpasses_eq hs]
  simp only [YearMonthDay.surpasses, YearMonthDay.lt_iff, shiftYear, add_lt_add_iff_right,
    add_left_inj]

theorem yearsLater_shiftYear (hiso : c.followsIso)
    (h : c.HasMonth (one.year + c.yearOffset) one.month) (k : Int) :
    c.yearsLater (c.shiftYear one) k = c.shiftYear (one.yearsLater k) := by
  have hne : c ≠ hebrew := by
    rintro rfl
    cases hiso
  rw [shiftYear, yearsLater_eq h, monthOfCodeIn_monthCode h
    (by rw [isHebrewLeap_eq_false hne, isHebrewLeap_eq_false hne]), shiftYear, IsoDate.yearsLater,
    add_right_comm]

theorem monthsLater_shiftYear (hiso : c.followsIso) (d : IsoDate) (k : Int) :
    c.monthsLater (c.shiftYear d) k = c.shiftYear (d.monthsLater k) := by
  simp only [monthsLater, addMonths, shiftYear, monthIndex_of_followsIso hiso,
    monthOfIndex_of_followsIso hiso, IsoDate.monthsLater, Iso.balanceMonth, YearMonthDay.mk.injEq]
  refine ⟨?_, ?_, trivial⟩ <;> omega

theorem yearsBetween_shiftYear (hiso : c.followsIso) (hs : sign = 1 ∨ sign = -1)
    (h : c.HasMonth (one.year + c.yearOffset) one.month) (two : IsoDate) :
    c.yearsBetween sign (c.shiftYear one) (c.shiftYear two) = one.yearsBetween sign two := by
  have hgap : (c.shiftYear two).year - (c.shiftYear one).year = two.year - one.year :=
    add_sub_add_right_eq_sub _ _ _
  unfold yearsBetween IsoDate.yearsBetween
  simp only [yearsLater_shiftYear hiso h, surpasses_shiftYear c hs, hgap]

/-- So does the last month where the months are those of the ISO calendar. -/
theorem isoMonthsLater_within_iff (hiso : c.followsIso) (hs : sign = 1 ∨ sign = -1)
    (h : c.HasMonthOf (c.shiftYear base)) (h' : c.HasMonthOf (c.shiftYear two)) {last : Int}
    (hlast : IsLast (fun k => c.position (c.monthsLater (c.shiftYear base) k)) sign
      (c.position (c.shiftYear two)) last) (k : Int) :
    (!IsoDate.surpasses sign (base.monthsLater k) two) = true ↔ sign * k ≤ sign * last := by
  rw [← surpasses_shiftYear c hs, ← monthsLater_shiftYear hiso]
  exact monthsLater_within_iff hs h h' hlast k

/-- **The months between two dates of the ISO calendar** are searched for from the first one on, and
end at the same last one. -/
theorem isoMonthsBetween_isLast (hiso : c.followsIso) (hs : sign = 1 ∨ sign = -1)
    (h : c.HasMonthOf (c.shiftYear base)) (h' : c.HasMonthOf (c.shiftYear two))
    (hnear : sign * c.position (c.shiftYear base) ≤ sign * c.position (c.shiftYear two)) :
    IsLast (fun k => c.position (c.monthsLater (c.shiftYear base) k)) sign
      (c.position (c.shiftYear two)) (base.monthsBetween sign two) := by
  obtain ⟨gap, hgap⟩ : ∃ gap, gap = c.monthIndex (c.shiftYear two).year (c.shiftYear two).month -
    c.monthIndex (c.shiftYear base).year (c.shiftYear base).month := ⟨_, rfl⟩
  obtain ⟨hahead, last, hguess, hlast⟩ := exists_last_month hs h h' hnear hgap
  -- the search begins at the first month, so that its steps have to last for the whole way
  have hsteps : last.natAbs ≤ 12 * ((two.year - base.year).natAbs + 1) + base.month.natAbs + 2 := by
    have hm : 1 ≤ base.month ∧ base.month ≤ c.monthsInYear _ := h.month
    have hm' : 1 ≤ two.month ∧ two.month ≤ c.monthsInYear _ := h'.month
    have h₁ := (c.monthsInYear_bounds (c.shiftYear base).year).2
    have h₂ := (c.monthsInYear_bounds (c.shiftYear two).year).2
    rw [monthIndex_of_followsIso hiso, monthIndex_of_followsIso hiso] at hgap
    simp only [shiftYear] at hgap hm hm' h₁ h₂
    rcases hs with rfl | rfl <;> omega
  have hfound : base.monthsBetween sign two = last :=
    furthest_from_first hs (isoMonthsLater_within_iff hiso hs h h' hlast) hlast.nonneg hsteps
  rwa [hfound]

/-- The years and then the months between two dates of the ISO calendar, in a calendar that follows
it. -/
theorem isoYearsMonths_isLast (hiso : c.followsIso) (hs : sign = 1 ∨ sign = -1)
    (h : c.HasMonthOf (c.shiftYear one)) (h' : c.HasMonthOf (c.shiftYear two))
    (hnear : sign * c.position (c.shiftYear one) ≤ sign * c.position (c.shiftYear two)) :
    IsLast (fun k => c.position (c.yearsLater (c.shiftYear one) k)) sign
      (c.position (c.shiftYear two))
        (one.yearsBetween sign two) ∧
      IsLast (fun k => c.position
          (c.monthsLater (c.yearsLater (c.shiftYear one) (one.yearsBetween sign two)) k)) sign
        (c.position (c.shiftYear two))
          ((one.yearsLater (one.yearsBetween sign two)).monthsBetween sign two) := by
  have hyears := yearsBetween_isLast hs h h' hnear
  rw [yearsBetween_shiftYear hiso hs h.month] at hyears
  generalize one.yearsBetween sign two = years at *
  have hbase := yearsLater_shiftYear hiso h.month years
  have hstart : c.HasMonthOf (c.shiftYear (one.yearsLater years)) :=
    hbase ▸ hasMonthOf_yearsLater h years
  refine ⟨hyears, ?_⟩
  have hwithin := hyears.within
  simp only [hbase] at hwithin ⊢
  exact isoMonthsBetween_isLast hiso hs hstart h' hwithin

/-- Where each year has twelve months, the last months after the last years are, counted with those
years, the last of the months alone. -/
theorem monthsAlone_isLast (hiso : c.followsIso) (hs : sign = 1 ∨ sign = -1) {start : YearMonthDay}
    {target years months : Int} (h : c.HasMonthOf start) (hyears : 0 ≤ sign * years)
    (hmonths : IsLast
      (fun k => c.position (c.monthsLater (c.yearsLater start years) k)) sign target months) :
    IsLast (fun k => c.position (c.monthsLater (c.yearsLater start 0) k)) sign target
      (months + 12 * years) := by
  have hzero : c.yearsLater start 0 = start := if_pos rfl
  have hposition :
      c.position (c.yearsLater start years) = c.position start + 32 * (12 * years) := by
    rw [position_yearsLater h, monthAfter_of_followsIso hiso h.month, position]
    ring
  obtain ⟨hnonneg, hwithin, hbeyond⟩ := hmonths
  simp only [position_monthsLater, hposition] at hwithin hbeyond
  refine ⟨?_, ?_, ?_⟩
  · rcases hs with rfl | rfl <;> omega
  · simp only [hzero, position_monthsLater]
    rcases hs with rfl | rfl <;> omega
  · simp only [hzero, position_monthsLater]
    rcases hs with rfl | rfl <;> omega

section

variable {largest : TimeUnit} {span : DateSpan}

/-- The measure on the months of the calendar, between two dates that are not the same. -/
theorem yearsMonthsDays_of_differenceByMonths (hv : one.Valid) (hv' : two.Valid)
    (hw : fitsWord one.count = true) (hw' : fitsWord two.count = true) (hne : two.compare one ≠ 0)
    (hl : largest = .year ∨ largest = .month)
    (hspan : c.differenceByMonths one two largest = .ok span) :
    c.yearsMonthsDays (two.compare one) (c.dateOf one) (c.dateOf two) two.count (largest = .year) =
      .ok span := by
  simp only [differenceByMonths, if_neg hne] at hspan
  obtain ⟨first, hfirst, hspan⟩ := bind_eq_ok hspan
  obtain ⟨last, hlast, hspan⟩ := bind_eq_ok hspan
  -- years and months are measured alike, but for the years that are wanted
  have hmeasure : (do
      let start ← c.ofEpochDay first
      let target ← c.ofEpochDay last
      c.yearsMonthsDays (two.compare one) start target last (largest = TimeUnit.year)) =
        .ok span := by
    rcases hl with rfl | rfl <;> exact hspan
  obtain ⟨start, hstart, hmeasure⟩ := bind_eq_ok hmeasure
  obtain ⟨target, htarget, hmeasure⟩ := bind_eq_ok hmeasure
  rw [eq_dateOfEpochDay hstart, eq_dateOfEpochDay htarget,
    IsoDate.eq_count_of_toEpochDay hv hw hfirst, IsoDate.eq_count_of_toEpochDay hv' hw' hlast,
    ← dateOf_eq hv, ← dateOf_eq hv'] at hmeasure
  exact hmeasure

/-- A month between two dates is in a year that they are in, or in one between, and the days of its
years fit a word if theirs do. -/
theorem wordsBetween_of_yearFits (c : Calendar) (hv : one.Valid) (hv' : two.Valid)
    (hy : one.YearFits) (hy' : two.YearFits) (hs : sign = 1 ∨ sign = -1) :
    c.WordsBetween sign (c.dateOf one) (c.dateOf two) := by
  intro i hfrom hto hiso
  obtain ⟨hi, hindex⟩ := c.monthOfIndex_spec i
  have hyear : ∀ {d : YearMonthDay}, c.HasDate d →
      (c.monthIndex d.year d.month ≤ i → d.year ≤ (c.monthOfIndex i).1) ∧
        (i ≤ c.monthIndex d.year d.month → (c.monthOfIndex i).1 ≤ d.year) := fun hd =>
    ⟨fun hle => year_le_of_monthIndex_le hd.1 hi (hindex.symm ▸ hle),
      fun hle => year_le_of_monthIndex_le hi hd.1 (hindex.symm ▸ hle)⟩
  have hyears := hyear (hasDate_dateOf (c := c) hv)
  have hyears' := hyear (hasDate_dateOf (c := c) hv')
  have hone : (c.dateOf one).year = one.year + c.yearOffset := by
    rw [dateOf, if_pos hiso, shiftYear]
  have htwo : (c.dateOf two).year = two.year + c.yearOffset := by
    rw [dateOf, if_pos hiso, shiftYear]
  rw [IsoDate.YearFits, fitsWord_iff] at hy hy'
  rw [fitsWord_iff]
  rcases hs with rfl | rfl
  · have := hyears.1 (by omega)
    have := hyears'.2 (by omega)
    omega
  · have := hyears'.1 (by omega)
    have := hyears.2 (by omega)
    omega

/-- **The difference that is measured on the months of the calendar.** -/
theorem measures_differenceByMonths (hv : one.Valid) (hv' : two.Valid) (hy : one.YearFits)
    (hy' : two.YearFits) (hne : two.compare one ≠ 0) (hunit : largest = .year ∨ largest = .month)
    (hspan : c.differenceByMonths one two largest = .ok span) :
    c.Measures (two.compare one) (c.dateOf one) (c.dateOf two) largest span := by
  have hs := (IsoDate.compare_cases two one).resolve_left hne
  have hmeasure := yearsMonthsDays_of_differenceByMonths hv hv' (hy.fitsWord_count hv)
    (hy'.fitsWord_count hv') hne hunit hspan
  obtain ⟨span', hspan', hmeasures⟩ := measures_of_yearsMonthsDays hs (hasDate_dateOf hv).hasMonthOf
    (hasDate_dateOf hv').hasMonthOf (position_lt_of_compare hv hv' hne).le
    (wordsBetween_of_yearFits c hv hv' hy hy' hs) largest
  rw [epochDay_dateOf hv', hmeasure] at hspan'
  rwa [Except.ok.inj hspan']

/-- The date that years and months are counted to has its day count. -/
theorem toEpochDay_shift (hiso : c.followsIso) (hv : one.Valid) {years months i : Int}
    (hi : i = c.monthAfter (one.year + c.yearOffset) one.month years months)
    (hyear : fitsWord (366 * ((c.monthOfIndex i).1 - c.yearOffset)) = true) :
    (one.shift years months).toEpochDay = .ok (one.shift years months).count := by
  have hcut := hasDate_cut (c := c) i hv.2.2.1
  have hreached := toEpochDay_eq hcut (countable_of_year hcut fun _ => hyear)
  rw [toEpochDay, if_pos hiso, ← count_of_followsIso hiso] at hreached
  rwa [shift_of_followsIso hiso hv years months hi]

/-- **The difference that is measured on the months of the ISO calendar**, in a calendar that
follows it: the same, though the years are searched for in any case and then counted as months if
they are not wanted. -/
theorem measures_isoDifference (hiso : c.followsIso) (hv : one.Valid) (hv' : two.Valid)
    (hy : one.YearFits) (hy' : two.YearFits) (hne : two.compare one ≠ 0)
    (hunit : largest = .year ∨ largest = .month)
    (hspan : one.difference two largest = .ok span) :
    c.Measures (two.compare one) (c.dateOf one) (c.dateOf two) largest span := by
  have hs := (IsoDate.compare_cases two one).resolve_left hne
  have hnear := (position_lt_of_compare (c := c) hv hv' hne).le
  have h : c.HasMonthOf (c.dateOf one) := (hasDate_dateOf hv).hasMonthOf
  have h' : c.HasMonthOf (c.dateOf two) := (hasDate_dateOf hv').hasMonthOf
  have htarget : c.epochDay (c.dateOf two) = two.count := epochDay_dateOf hv'
  have hone : c.dateOf one = c.shiftYear one := if_pos hiso
  have htwo : c.dateOf two = c.shiftYear two := if_pos hiso
  have hwords := wordsBetween_of_yearFits c hv hv' hy hy' hs
  simp only [IsoDate.difference, if_neg hne, IsoDate.wholeMonths, if_pos hunit] at hspan
  rw [hone] at h
  rw [htwo] at h' htarget
  rw [hone, htwo] at hnear hwords ⊢
  generalize two.compare one = sign at *
  obtain ⟨last, hlast, hspan⟩ := bind_eq_ok hspan
  obtain ⟨reached, hreached, hspan⟩ := bind_eq_ok hspan
  obtain rfl := IsoDate.eq_count_of_toEpochDay hv' (hy'.fitsWord_count hv') hlast
  obtain ⟨hyears, hmonths⟩ := isoYearsMonths_isLast hiso hs h h' hnear
  obtain ⟨hfrom, hto⟩ := monthAfter_between hs h h' hyears.nonneg hmonths
  rw [toEpochDay_shift hiso hv rfl (hwords _ hfrom hto hiso)] at hreached
  obtain rfl := Except.ok.inj hreached
  generalize one.yearsBetween sign two = years at *
  generalize (one.yearsLater years).monthsBetween sign two = months at *
  obtain rfl := Except.ok.inj hspan
  -- both units count their days from the same date
  have hreach : ∀ i, i = c.monthAfter (c.shiftYear one).year (c.shiftYear one).month years months →
      (one.shift years months).count = c.epochDay ⟨(c.monthOfIndex i).1, (c.monthOfIndex i).2,
        min (c.shiftYear one).day (c.monthLength i)⟩ := by
    intro i hi
    rw [shift_of_followsIso hiso hv years months hi, count_of_followsIso hiso]
    rfl
  rcases hunit with rfl | rfl
  · refine ⟨fun _ => hyears, fun hl => absurd rfl hl, hmonths, rfl, ?_⟩
    rw [htarget]
    exact countAfter_eq_of_days rfl (hreach _ rfl) rfl rfl
  · refine ⟨fun hl => absurd hl (by decide), fun _ => rfl,
      monthsAlone_isLast hiso hs h hyears.nonneg hmonths, rfl, ?_⟩
    rw [htarget]
    refine countAfter_eq_of_days rfl (hreach _ ?_) rfl rfl
    rw [monthAfter_of_followsIso hiso h.month, monthAfter_of_followsIso hiso h.month]
    simp only [IsoDate.spanOf]
    ring

/-- **The difference of two dates**, which are not the same, in years and months or in months. -/
theorem measures_difference (hv : one.Valid) (hv' : two.Valid) (hy : one.YearFits)
    (hy' : two.YearFits) (hne : two.compare one ≠ 0) (hunit : largest = .year ∨ largest = .month)
    (hspan : c.difference one two largest = .ok span) :
    c.Measures (two.compare one) (c.dateOf one) (c.dateOf two) largest span := by
  unfold difference at hspan
  split at hspan
  · next hiso => exact measures_isoDifference hiso hv hv' hy hy' hne hunit hspan
  · exact measures_differenceByMonths hv hv' hy hy' hne hunit hspan

/-- The measure on the months of the calendar refuses no dates that are represented. -/
theorem exists_differenceByMonths (c : Calendar) (hv : one.Valid) (hv' : two.Valid)
    (hl : one.InLimits) (hl' : two.InLimits) (hunit : largest = .year ∨ largest = .month) :
    ∃ span, c.differenceByMonths one two largest = .ok span := by
  have hfirst := IsoDate.toEpochDay_eq hv (IsoDate.monthInLimits_of_inLimits hl)
  have hlast := IsoDate.toEpochDay_eq hv' (IsoDate.monthInLimits_of_inLimits hl')
  by_cases hzero : two.compare one = 0
  · exact ⟨{}, if_pos hzero⟩
  · have hs := (IsoDate.compare_cases two one).resolve_left hzero
    have hfits := IsoDate.fitsWord_of_date hv hl
    have hfits' := IsoDate.fitsWord_of_date hv' hl'
    obtain ⟨span, hspan, -⟩ :=
      measures_of_yearsMonthsDays hs (hasDate_dateOf (c := c) hv).hasMonthOf
        (hasDate_dateOf (c := c) hv').hasMonthOf (position_lt_of_compare hv hv' hzero).le
      (wordsBetween_of_yearFits c hv hv' (IsoDate.yearFits_of_inLimits hl)
        (IsoDate.yearFits_of_inLimits hl') hs) largest
    rw [epochDay_dateOf hv'] at hspan
    refine ⟨span, ?_⟩
    simp only [differenceByMonths, if_neg hzero, hfirst, hlast, bind, Except.bind,
      ofEpochDay_eq fun _ => hfits, ofEpochDay_eq fun _ => hfits', ← dateOf_eq hv, ← dateOf_eq hv']
    rcases hunit with rfl | rfl <;> exact hspan

theorem shift_zero (hv : one.Valid) : one.shift 0 0 = one := by
  obtain ⟨hm₁, hm₂, hd₁, hd₂⟩ := hv
  have hyear : (one.month - 1) / 12 = 0 := by omega
  have hmonth : (one.month - 1) % 12 + 1 = one.month := by omega
  simp only [IsoDate.shift, IsoDate.yearsLater, IsoDate.monthsLater, Iso.balanceMonth,
    IsoDate.clamp, Int.add_zero, hyear, hmonth, max_eq_left hm₁, min_eq_left hm₂, max_eq_left hd₁,
    min_eq_left hd₂]

/-- Nor does the measure on the months of the ISO calendar, in a calendar that follows it. -/
theorem exists_isoDifference (hiso : c.followsIso) (hv : one.Valid) (hv' : two.Valid)
    (hl : one.InLimits) (hl' : two.InLimits) (hunit : largest = .year ∨ largest = .month) :
    ∃ span, one.difference two largest = .ok span := by
  have hlast := IsoDate.toEpochDay_eq hv' (IsoDate.monthInLimits_of_inLimits hl')
  by_cases hzero : two.compare one = 0
  · exact ⟨{}, if_pos hzero⟩
  · have hs := (IsoDate.compare_cases two one).resolve_left hzero
    have hone : c.dateOf one = c.shiftYear one := if_pos hiso
    have htwo : c.dateOf two = c.shiftYear two := if_pos hiso
    have h : c.HasMonthOf (c.shiftYear one) := hone ▸ (hasDate_dateOf hv).hasMonthOf
    have h' : c.HasMonthOf (c.shiftYear two) := htwo ▸ (hasDate_dateOf hv').hasMonthOf
    have hnear := (position_lt_of_compare (c := c) hv hv' hzero).le
    rw [hone, htwo] at hnear
    obtain ⟨hyears, hmonths⟩ := isoYearsMonths_isLast hiso hs h h' hnear
    obtain ⟨hfrom, hto⟩ := monthAfter_between hs h h' hyears.nonneg hmonths
    obtain ⟨i, hi⟩ : ∃ i, i = c.monthAfter (c.shiftYear one).year (c.shiftYear one).month
        (one.yearsBetween (two.compare one) two)
        ((one.yearsLater (one.yearsBetween (two.compare one) two)).monthsBetween
          (two.compare one) two) :=
      ⟨_, rfl⟩
    rw [← hi, ← hone] at hfrom
    rw [← hi, ← htwo] at hto
    have hreached := toEpochDay_shift hiso hv hi
      (wordsBetween_of_yearFits c hv hv' (IsoDate.yearFits_of_inLimits hl)
        (IsoDate.yearFits_of_inLimits hl') hs i hfrom hto hiso)
    simp only [IsoDate.difference, if_neg hzero, IsoDate.wholeMonths, if_pos hunit, hlast, hreached,
      bind, Except.bind]
    exact ⟨_, rfl⟩

/-- The difference of a date and itself. -/
theorem difference_self (c : Calendar) (one : IsoDate) (largest : TimeUnit) :
    c.difference one one largest = .ok {} := by
  have hzero := IsoDate.compare_eq_zero_iff.2 (rfl : one = one)
  unfold difference
  split
  · simp only [IsoDate.difference, if_pos hzero]
  · simp only [differenceByMonths, if_pos hzero]

/-- A difference in weeks or in days is that of the day counts. -/
theorem differenceByMonths_of_days (c : Calendar) (hv : one.Valid) (hv' : two.Valid)
    (hl : one.InLimits) (hl' : two.InLimits) (hunit : largest = .week ∨ largest = .day) :
    c.differenceByMonths one two largest =
      .ok (IsoDate.spanOf largest 0 0 (two.count - one.count)) := by
  have hfirst := IsoDate.toEpochDay_eq hv (IsoDate.monthInLimits_of_inLimits hl)
  have hlast := IsoDate.toEpochDay_eq hv' (IsoDate.monthInLimits_of_inLimits hl')
  by_cases hzero : two.compare one = 0
  · obtain rfl := IsoDate.compare_eq_zero_iff.1 hzero
    rw [differenceByMonths, if_pos hzero, sub_self]
    rcases hunit with rfl | rfl <;> rfl
  · simp only [differenceByMonths, if_neg hzero, hfirst, hlast, bind, Except.bind]
    rcases hunit with rfl | rfl <;> rfl

/-- The ISO calendar measures it from the first date, no years and no months later. -/
theorem isoDifference_of_days (hv : one.Valid) (hv' : two.Valid) (hl : one.InLimits)
    (hl' : two.InLimits) (hunit : largest = .week ∨ largest = .day) :
    one.difference two largest = .ok (IsoDate.spanOf largest 0 0 (two.count - one.count)) := by
  have hfirst := IsoDate.toEpochDay_eq hv (IsoDate.monthInLimits_of_inLimits hl)
  have hlast := IsoDate.toEpochDay_eq hv' (IsoDate.monthInLimits_of_inLimits hl')
  have hnone : ¬ (largest = .year ∨ largest = .month) := by
    rcases hunit with rfl | rfl <;> decide
  by_cases hzero : two.compare one = 0
  · obtain rfl := IsoDate.compare_eq_zero_iff.1 hzero
    rw [IsoDate.difference, if_pos hzero, sub_self]
    rcases hunit with rfl | rfl <;> rfl
  · simp only [IsoDate.difference, if_neg hzero, IsoDate.wholeMonths, if_neg hnone, shift_zero hv,
      hfirst, hlast, bind, Except.bind]
    rfl

end

end Calendar

end Almanac
