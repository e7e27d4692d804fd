import Almanac.Proofs.Between
import Almanac.Proofs.Rounding.Neighbour

/-!
# The difference of two dates

The difference of two dates is the way from the one to the other: its parts lead in the direction of
the second date, and the first date moved by it is the second one. Days are counted from a date that
has been cut off to its month, which does not lie past the second date even if the day that was cut
off does.

* `Calendar.add_of_days`: a span without years and months leads to the date of a day count.
* `Calendar.Measures.days_nonneg`: the days that are left do not lead back;
  `Calendar.Measures.add_eq`: with them the second date is reached.
* `Calendar.difference_way`: **a difference is the way from date to date**, and no longer in years
  or months than that.
-/

namespace Almanac

/-- The parts of a span lead in one direction. -/
def DateSpan.Heads (span : DateSpan) (sign : Int) : Prop := ∀ n ∈ span.toList, 0 ≤ sign * n

theorem DateSpan.Heads.sign_eq {span : DateSpan} {sign : Int} (h : span.Heads sign)
    (hs : sign = 1 ∨ sign = -1) : ∀ n ∈ span.toList, n ≠ 0 → n.sign = sign := by
  intro n hn hne
  have hnonneg := h n hn
  rcases hs with rfl | rfl
  · exact Int.sign_eq_one_of_pos (by omega)
  · exact Int.sign_eq_neg_one_of_neg (by omega)

namespace DateSpan

theorem dayCount_ofDays (n : Int) : (ofDays n).dayCount = n := by
  simp only [ofDays, dayCount]
  ring

/-- Weeks and days lead in the direction of the days that they are made from, the days for less than
a week. -/
theorem heads_ofDays {n sign : Int} (hs : sign = 1 ∨ sign = -1) (hn : 0 ≤ sign * n)
    (hsmall : n.natAbs < 7 * 2251799813685248) : (ofDays n).Heads sign ∧ |(ofDays n).days| < 7 := by
  have hweeks : wholeWeeks n = n.tdiv 7 := if_pos hsmall
  obtain ⟨hnonneg, hlow, hhigh⟩ := tdiv_bounds hs (show (1 : Int) ≤ 7 by decide) hn
  simp only [Heads, toList, ofDays, hweeks, List.forall_mem_cons, List.not_mem_nil, false_implies,
    implies_true, and_true, abs_lt]
  rcases hs with rfl | rfl <;> omega

end DateSpan

namespace Calendar

variable {c : Calendar} {one two : IsoDate} {largest : TimeUnit} {span : DateSpan} {sign : Int}
  {start target : YearMonthDay}

/-- Years and months that lead to a month between two dates. -/
theorem yearInWords_between (hv : one.Valid) (hv' : two.Valid) (hy : one.YearFits)
    (hy' : two.YearFits) (hs : sign = 1 ∨ sign = -1) {i : Int}
    (hi : i = c.monthAfter (c.dateOf one).year (c.dateOf one).month span.years span.months)
    (hfrom : sign * c.monthIndex (c.dateOf one).year (c.dateOf one).month ≤ sign * i)
    (hto : sign * i ≤ sign * c.monthIndex (c.dateOf two).year (c.dateOf two).month) :
    c.YearInWords one span := by
  intro hiso
  have hyear := wordsBetween_of_yearFits c hv hv' hy hy' hs i hfrom hto hiso
  rw [dateOf, if_pos hiso] at hi
  rwa [later_of_followsIso hiso hv _ _ hi]

/-- **Weeks and days alone** lead from a date to the one of that day count. -/
theorem add_of_days (hv : one.Valid) (hv' : two.Valid) (hl : one.InLimits) (hl' : two.InLimits)
    (hyears : span.years = 0) (hmonths : span.months = 0)
    (hdays : one.count + span.dayCount = two.count) :
    c.add one span .constrain = .ok two := by
  have hd := hasDate_dateOf (c := c) hv
  have hmonth : c.monthAfter (c.dateOf one).year (c.dateOf one).month span.years span.months =
      c.monthIndex (c.dateOf one).year (c.dateOf one).month := by
    rw [hyears, hmonths, monthAfter_zero hd.1, Int.add_zero]
  have hy := IsoDate.yearFits_of_inLimits hl
  have hyear : c.YearInWords one span :=
    yearInWords_between hv hv hy hy (.inl rfl) hmonth.symm le_rfl le_rfl
  have hcount : c.countAfter (c.dateOf one) span = two.count := by
    have hone := epochDay_dateOf (c := c) hv
    rw [countAfter, hmonth, monthStart_monthIndex hd.1, monthLength_monthIndex hd.1,
      min_eq_left hd.2.2, ← epochDay_eq, ← hdays, ← hone]
  refine add_of_reaches hv hl (.inl rfl) hyear (reaches_constrain_iff.2 ⟨?_, hl'⟩)
  rw [hcount, IsoDate.ofEpochDay_count hv']

/-- **The days that are left lead on**: the day that has been cut off to its month is not past the
target. -/
theorem Measures.days_nonneg (h : c.Measures sign start target largest span)
    (hs : sign = 1 ∨ sign = -1) (hstart : c.HasMonthOf start) (htarget : c.HasDate target) :
    0 ≤ sign * span.days := by
  have hwithin := h.months_isLast.within
  have hcount := h.countAfter_eq
  simp only [position_later hstart] at hwithin
  have hcut := sign_mul_cutCount_le hs hstart.one_le_day hstart.day_le htarget hwithin
  rw [← hcount, countAfter, ← cutCount, DateSpan.dayCount, h.weeks_eq_zero] at hcut
  rcases hs with rfl | rfl <;> omega

/-- So all parts of such a difference lead in its direction. -/
theorem Measures.heads (h : c.Measures sign start target largest span) (hs : sign = 1 ∨ sign = -1)
    (hstart : c.HasMonthOf start) (htarget : c.HasDate target) : span.Heads sign := by
  have hyears : 0 ≤ sign * span.years := by
    by_cases hl : largest = .year
    · exact (h.years_isLast hl).nonneg
    · rw [h.years_eq_zero hl, Int.mul_zero]
  have hweeks : 0 ≤ sign * span.weeks := by rw [h.weeks_eq_zero, Int.mul_zero]
  simp only [DateSpan.Heads, DateSpan.toList, List.forall_mem_cons, List.not_mem_nil, false_implies,
    implies_true, and_true]
  exact ⟨hyears, h.months_isLast.nonneg, hweeks, h.days_nonneg hs hstart htarget⟩

/-- A shift that is beyond the last one leads past the target. -/
theorem surpasses_of_beyond (hs : sign = 1 ∨ sign = -1) (hstart : c.HasMonthOf start)
    (htarget : c.HasMonthOf target) (hbeyond : sign * c.position target < sign * c.position start) :
    YearMonthDay.surpasses sign start target = true := by
  rw [← Bool.not_eq_false, surpasses_eq_false_iff hs hstart htarget]
  omega

/-- The first date moved by such a difference is the second one. -/
theorem Measures.add_eq (hv : one.Valid) (hv' : two.Valid) (hl : one.InLimits) (hl' : two.InLimits)
    (hs : sign = 1 ∨ sign = -1) (h : c.Measures sign (c.dateOf one) (c.dateOf two) largest span) :
    c.add one span .constrain = .ok two := by
  have hone := (hasDate_dateOf (c := c) hv).hasMonthOf
  have htwo := hasDate_dateOf (c := c) hv'
  have hyears := h.heads hs hone htwo span.years (List.mem_cons_self ..)
  obtain ⟨hfrom, hto⟩ := monthAfter_between hs hone htwo.hasMonthOf hyears h.months_isLast
  have hyear : c.YearInWords one span :=
    yearInWords_between hv hv' (IsoDate.yearFits_of_inLimits hl)
      (IsoDate.yearFits_of_inLimits hl') hs rfl hfrom hto
  refine add_of_reaches hv hl (.inl rfl) hyear (reaches_constrain_iff.2 ⟨?_, hl'⟩)
  rw [h.countAfter_eq, epochDay_dateOf hv', IsoDate.ofEpochDay_count hv']

/-- A difference in years or in months is not refused. -/
theorem exists_difference (c : Calendar) (hv : one.Valid) (hv' : two.Valid) (hl : one.InLimits)
    (hl' : two.InLimits) (hunit : largest = .year ∨ largest = .month) :
    ∃ span, c.difference one two largest = .ok span := by
  unfold difference
  split
  · next hiso => exact exists_isoDifference hiso hv hv' hl hl' hunit
  · exact exists_differenceByMonths c hv hv' hl hl' hunit

/-- A difference in years or in months. -/
theorem exists_measures (hv : one.Valid) (hv' : two.Valid) (hl : one.InLimits) (hl' : two.InLimits)
    (hunit : largest = .year ∨ largest = .month) (hne : two.compare one ≠ 0) :
    ∃ span, c.difference one two largest = .ok span ∧
      c.Measures (two.compare one) (c.dateOf one) (c.dateOf two) largest span := by
  obtain ⟨span, hspan⟩ := exists_difference c hv hv' hl hl' hunit
  exact ⟨span, hspan, measures_difference hv hv' (IsoDate.yearFits_of_inLimits hl)
    (IsoDate.yearFits_of_inLimits hl') hne hunit hspan⟩

/-- A difference in weeks or in days. -/
theorem difference_of_days (hv : one.Valid) (hv' : two.Valid) (hl : one.InLimits)
    (hl' : two.InLimits) (hunit : largest = .week ∨ largest = .day) :
    c.difference one two largest = .ok (IsoDate.spanOf largest 0 0 (two.count - one.count)) := by
  unfold difference
  split
  · exact isoDifference_of_days hv hv' hl hl' hunit
  · exact differenceByMonths_of_days c hv hv' hl hl' hunit

/-- The days from the one date to the other lead in the direction of the second one. -/
theorem count_nonneg_of_compare (hv : one.Valid) (hv' : two.Valid) :
    0 ≤ two.compare one * (two.count - one.count) := by
  rw [IsoDate.compare_eq_sign hv' hv, Int.sign_mul_self_eq_natAbs]
  exact Int.natCast_nonneg _

/-- Days, or weeks and days, from the one date to the other. -/
theorem difference_way_of_days (hv : one.Valid) (hv' : two.Valid) (hl : one.InLimits)
    (hl' : two.InLimits) (hunit : largest = .week ∨ largest = .day)
    (hs : two.compare one = 1 ∨ two.compare one = -1)
    (hspan : span = IsoDate.spanOf largest 0 0 (two.count - one.count)) :
    span.Heads (two.compare one) ∧ c.add one span .constrain = .ok two ∧
      (largest = .week → |span.days| < 7) := by
  have hn := count_nonneg_of_compare hv hv'
  have hb := IsoDate.count_bounds hv (IsoDate.monthInLimits_of_inLimits hl)
  have hb' := IsoDate.count_bounds hv' (IsoDate.monthInLimits_of_inLimits hl')
  have hto : one.count + (two.count - one.count) = two.count := by omega
  generalize two.count - one.count = n at hn hspan hto
  rcases hunit with rfl | rfl
  · have hweeks : span = .ofDays n := hspan
    obtain ⟨hheads, hweek⟩ := DateSpan.heads_ofDays hs hn (by omega)
    rw [← hweeks] at hheads hweek
    refine ⟨hheads, add_of_days hv hv' hl hl' ?_ ?_ ?_, fun _ => hweek⟩
    · rw [hweeks, DateSpan.ofDays]
    · rw [hweeks, DateSpan.ofDays]
    · rw [hweeks, DateSpan.dayCount_ofDays, hto]
  · have hdays : span = { days := n } := hspan
    subst hdays
    refine ⟨?_, add_of_days hv hv' hl hl' rfl rfl ?_, fun hweek => absurd hweek (by decide)⟩
    · simpa [DateSpan.Heads, DateSpan.toList] using hn
    · rw [DateSpan.dayCount, Int.mul_zero, Int.zero_add, hto]

/-- **A difference is the way from date to date.** Two represented dates have a difference in years,
months, weeks or days; its parts lead in the direction of the second date, and the first one moved
by it is the second one. In weeks, less than a week of days is left. In years one more year, and in
years or months one more month, leads past the second date, the day of the month as it is. -/
theorem difference_way (c : Calendar) (one two : IsoDate) (largest : TimeUnit) (hv : one.Valid)
    (hv' : two.Valid) (hl : one.InLimits) (hl' : two.InLimits) (hunit : largest.isDateUnit = true) :
    ∃ span, c.difference one two largest = .ok span ∧
      (∀ n ∈ span.toList, n ≠ 0 → n.sign = two.compare one) ∧
      c.add one span .constrain = .ok two ∧
      (largest = .week → |span.days| < 7) ∧
      (one ≠ two → largest = .year →
        YearMonthDay.surpasses (two.compare one)
          (c.yearsLater (c.dateOf one) (span.years + two.compare one)) (c.dateOf two) = true) ∧
      (one ≠ two → largest = .year ∨ largest = .month →
        YearMonthDay.surpasses (two.compare one)
          (c.monthsLater (c.yearsLater (c.dateOf one) span.years) (span.months + two.compare one))
          (c.dateOf two) = true) := by
  by_cases heq : one = two
  · subst heq
    refine ⟨{}, difference_self c one largest, ?_, add_of_days hv hv hl hl rfl rfl (Int.add_zero _),
      fun _ => by decide, fun hne => absurd rfl hne, fun hne => absurd rfl hne⟩
    intro n hn hne
    simp [DateSpan.toList] at hn
    exact absurd hn hne
  · have hne : two.compare one ≠ 0 := fun hzero => heq (IsoDate.compare_eq_zero_iff.1 hzero).symm
    have hs := (IsoDate.compare_cases two one).resolve_left hne
    rcases TimeUnit.of_isDateUnit hunit with hmonths | hdays
    · obtain ⟨span, hspan, hmeasures⟩ := exists_measures (c := c) hv hv' hl hl' hmonths hne
      have hone := (hasDate_dateOf (c := c) hv).hasMonthOf
      have htwo := hasDate_dateOf (c := c) hv'
      refine ⟨span, hspan, (hmeasures.heads hs hone htwo).sign_eq hs,
        hmeasures.add_eq hv hv' hl hl' hs, ?_, fun _ hyear => ?_, fun _ _ => ?_⟩
      · rcases hmonths with rfl | rfl <;> exact fun hweek => absurd hweek (by decide)
      · exact surpasses_of_beyond hs (hasMonthOf_yearsLater hone _) htwo.hasMonthOf
          (hmeasures.years_isLast hyear).beyond
      · exact surpasses_of_beyond hs (hasMonthOf_monthsLater (hasMonthOf_yearsLater hone _) _)
          htwo.hasMonthOf hmeasures.months_isLast.beyond
    · obtain ⟨hheads, hadd, hweek⟩ := difference_way_of_days (c := c) hv hv' hl hl' hdays hs rfl
      refine ⟨_, difference_of_days hv hv' hl hl' hdays, hheads.sign_eq hs, hadd, hweek, ?_, ?_⟩
      · rcases hdays with rfl | rfl <;> exact fun _ hyear => absurd hyear (by decide)
      · rcases hdays with rfl | rfl <;> exact fun _ hmonth => absurd hmonth (by decide)

/-- A year back from the last day of Adar I, which is a day more than Adar has in the year
before. -/
theorem difference_way_from_adarI5784 :
    ∃ span, hebrew.difference ⟨2024, 3, 10⟩ ⟨2023, 3, 22⟩ .year = .ok span ∧
      (∀ n ∈ span.toList, n ≠ 0 → n.sign = -1) ∧
      hebrew.add ⟨2024, 3, 10⟩ span .constrain = .ok ⟨2023, 3, 22⟩ ∧
      YearMonthDay.surpasses (-1) (hebrew.yearsLater ⟨5784, 6, 30⟩ (span.years + -1))
        ⟨5783, 6, 29⟩ = true := by
  obtain ⟨span, hspan, hsign, hadd, -, hyears, -⟩ :=
    difference_way .hebrew ⟨2024, 3, 10⟩ ⟨2023, 3, 22⟩ .year (by decide) (by decide) (by decide)
      (by decide) rfl
  exact ⟨span, hspan, hsign, hadd, hyears (by decide) rfl⟩

end Calendar

end Almanac
